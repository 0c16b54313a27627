import Tabletop.Proofs.Script.Link
import Mathlib.Tactic.ByContra

/-!
The complete text of a value. Writing stops early only when the text is already longer than the limit, so
what fits a limit is complete, and what does not fit is never taken for a text.
-/

namespace Tabletop.Script.Memory

/-- A value's text inside the arrays in `opened`: an array that is one of them, or that stands within too
many, is empty, and any other has its items' texts with commas between them. -/
def complete (memory : Memory) (opened : List Nat) : Value → String
  | .array id =>
    if id ∈ opened ∨ renderDepth ≤ opened.length then ""
    else
      Text.joined "," ((memory.items id).toList.map fun item =>
        if item.isNullish then "" else memory.complete (id :: opened) item)
  | other => memory.plainText other
termination_by renderDepth - opened.length
decreasing_by
  rw [List.length_cons]
  omega

/-- A text that was written until it passed a limit is the whole, if that fits, and too long otherwise. -/
structure StopsPast (limit : Nat) (written whole : String) : Prop where
  whole_of_fits : whole.utf8ByteSize ≤ limit → written = whole
  long_of_long : limit < whole.utf8ByteSize → limit < written.utf8ByteSize

variable {limit : Nat}

theorem StopsPast.refl (text : String) : StopsPast limit text text where
  whole_of_fits _ := rfl
  long_of_long long := long

theorem StopsPast.front {front : String} (long : limit < front.utf8ByteSize) (rest : String) :
    StopsPast limit front (front ++ rest) where
  whole_of_fits fits := by
    rw [String.utf8ByteSize_append] at fits
    omega
  long_of_long _ := long

theorem StopsPast.trans {written front whole rest : String} (first : StopsPast limit front whole)
    (second : StopsPast limit written (front ++ rest)) : StopsPast limit written (whole ++ rest) := by
  by_cases fits : whole.utf8ByteSize ≤ limit
  · rw [← first.whole_of_fits fits]
    exact second
  · -- The front is too long already, and what is written behind it leaves it so.
    have long := first.long_of_long (by omega)
    constructor
    · intro whole_fits
      rw [String.utf8ByteSize_append] at whole_fits
      omega
    · intro _
      apply second.long_of_long
      rw [String.utf8ByteSize_append]
      omega

/-- The texts of items with commas between them, and one before the first if others came earlier. -/
def separated (first : Bool) (texts : List String) : String :=
  match texts with
  | [] => ""
  | text :: rest => (if first then "" else ",") ++ text ++ separated false rest

theorem separated_eq_joined (texts : List String) : separated true texts = Text.joined "," texts := by
  have behind : ∀ text rest, text ++ separated false rest = Text.joined "," (text :: rest) := by
    intro text rest
    induction rest generalizing text with
    | nil => simp [separated, Text.joined]
    | cons next rest of_rest =>
      rw [Text.joined, String.intercalate_cons_cons, ← Text.joined, ← of_rest next]
      simp [separated, String.append_assoc]
  cases texts with
  | nil => rfl
  | cons text rest => simpa [separated] using behind text rest

/-- Items are written completely, or until the text is too long, if each of them is. -/
theorem writeItems_stopsPast {writeItem : String → Value → String} {text : Value → String}
    (each : ∀ out item, StopsPast limit (writeItem out item) (out ++ text item))
    (first : Bool) (out : String) (items : List Value) :
    StopsPast limit (writeItems limit writeItem first out items)
      (out ++ separated first (items.map fun item => if item.isNullish then "" else text item)) := by
  induction items generalizing first out with
  | nil => simpa [writeItems, separated] using StopsPast.refl out
  | cons item rest of_rest =>
    rw [writeItems]
    by_cases cut : limit < out.utf8ByteSize
    · rw [if_pos cut]
      exact .front cut _
    · rw [if_neg cut]
      have comma : (if first then out else out.push ',') = out ++ (if first then "" else ",") := by
        cases first with
        | true => simp
        | false => rfl
      have begun : StopsPast limit
          (if item.isNullish then (if first then out else out.push ',')
            else writeItem (if first then out else out.push ',') item)
          (out ++ ((if first then "" else ",") ++ (if item.isNullish then "" else text item))) := by
        rw [← String.append_assoc, ← comma]
        by_cases empty : item.isNullish
        · rw [if_pos empty, if_pos empty, String.append_empty]
          exact .refl _
        · rw [if_neg empty, if_neg empty]
          exact each _ item
      rw [List.map_cons, separated, ← String.append_assoc]
      exact begun.trans (of_rest false _)

variable (memory : Memory)

theorem complete_of_no_array (opened : List Nat) {value : Value} (plain : ∀ id, value ≠ .array id) :
    memory.complete opened value = memory.plainText value := by
  cases value with
  | array id => exact absurd rfl (plain id)
  | _ => rw [complete]; simp

theorem write_stopsPast (levels : Nat) (opened : List Nat) (depth : levels + opened.length = renderDepth)
    (out : String) (value : Value) :
    StopsPast limit (memory.write limit levels opened out value) (out ++ memory.complete opened value) := by
  induction levels generalizing opened out value with
  | zero =>
    cases value with
    | array id =>
      have deep : id ∈ opened ∨ renderDepth ≤ opened.length := .inr (by omega)
      rw [complete, if_pos deep, String.append_empty]
      exact .refl out
    | _ =>
      rw [complete_of_no_array memory opened (by simp)]
      exact .refl _
  | succ inner of_inner =>
    cases value with
    | array id =>
      rw [write, complete]
      by_cases again : id ∈ opened
      · rw [if_pos (List.contains_iff_mem.mpr again), if_pos (.inl again), String.append_empty]
        exact .refl out
      · have shallow : ¬ (id ∈ opened ∨ renderDepth ≤ opened.length) := by
          rintro (is_open | deep)
          · exact again is_open
          · omega
        rw [if_neg (by simpa using again), if_neg shallow, ← separated_eq_joined]
        apply writeItems_stopsPast
        apply of_inner
        rw [List.length_cons]
        omega
    | _ =>
      rw [complete_of_no_array memory opened (by simp)]
      exact .refl _

theorem render_stopsPast (value : Value) :
    StopsPast limit (memory.render limit value) (memory.complete [] value) := by
  have written : StopsPast limit (memory.render limit value) ("" ++ memory.complete [] value) :=
    memory.write_stopsPast renderDepth [] rfl "" value
  rwa [String.empty_append] at written

theorem render_of_fits {value : Value} (fits : (memory.render limit value).utf8ByteSize ≤ limit) :
    memory.render limit value = memory.complete [] value := by
  have stops : StopsPast limit (memory.render limit value) (memory.complete [] value) :=
    memory.render_stopsPast value
  apply stops.whole_of_fits
  by_contra long
  have := stops.long_of_long (by omega)
  omega

/-- A value's text that is within a limit is its text under every wider limit. -/
theorem render_wider {limit' : Nat} (wider : limit ≤ limit') (value : Value)
    (fits : (memory.render limit value).utf8ByteSize ≤ limit) :
    memory.render limit' value = memory.render limit value := by
  have whole := memory.render_of_fits fits
  rw [whole] at fits ⊢
  exact (memory.render_stopsPast value).whole_of_fits (by omega)

end Tabletop.Script.Memory

namespace Tabletop.Script

/-- A value has a text exactly if its complete text is no longer than a string may be, and then that is
it; otherwise asking for it fails for the string's length. -/
theorem texts_are_complete (limits : Limits) (memory : Memory) (value : Value) :
    limits.text value memory =
      if (memory.complete [] value).utf8ByteSize ≤ limits.maxStringLength then
        .ok (memory.complete [] value) memory
      else .error (.sizeLimit .stringLength limits.maxStringLength) memory := by
  have stops : Memory.StopsPast limits.maxStringLength (memory.render limits.maxStringLength value)
      (memory.complete [] value) := memory.render_stopsPast value
  rw [text_apply]
  by_cases fits : (memory.complete [] value).utf8ByteSize ≤ limits.maxStringLength
  · rw [stops.whole_of_fits fits, if_neg (by omega), if_pos fits]
  · rw [if_pos (stops.long_of_long (by omega)), if_neg fits]

end Tabletop.Script
