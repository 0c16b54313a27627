import Tabletop.Script.Library.Text
import Mathlib.Data.List.Basic

/-!
Bytes of texts that are cut, searched and replaced: a part takes no more bytes than the whole, and a
replacement takes as many as were expected of it.
-/

namespace Tabletop.Text

@[simp] theorem byteSize_append (front back : List Char) :
    byteSize (front ++ back) = byteSize front + byteSize back := by
  induction front with
  | nil => simp
  | cons c rest of_rest => rw [List.cons_append, byteSize_cons, of_rest, byteSize_cons, Nat.add_assoc]

@[simp] theorem byteSize_reverse (text : List Char) : byteSize text.reverse = byteSize text := by
  induction text with
  | nil => rfl
  | cons c rest of_rest =>
    rw [List.reverse_cons, byteSize_append, of_rest, byteSize_cons, byteSize_cons, byteSize_nil]
    omega

theorem byteSize_le_of_sublist {part text : List Char} (sublist : part.Sublist text) :
    byteSize part ≤ byteSize text := by
  induction sublist with
  | slnil => exact Nat.le_refl _
  | cons c _ of_rest => rw [byteSize_cons]; omega
  | cons_cons c _ of_rest => rw [byteSize_cons, byteSize_cons]; omega

@[simp] theorem utf8ByteSize_ofList (text : List Char) :
    (String.ofList text).utf8ByteSize = byteSize text := by
  rw [utf8ByteSize_eq_byteSize, String.toList_ofList]

theorem byteSize_of_single {text : List Char} (single : ∀ c ∈ text, c.utf8Size = 1) :
    byteSize text = text.length := by
  induction text with
  | nil => rfl
  | cons c rest of_rest =>
    rw [byteSize_cons, of_rest fun d is_one => single d (List.mem_cons_of_mem c is_one),
      single c List.mem_cons_self, List.length_cons, Nat.add_comm]

theorem utf8Size_of_isDigit {c : Char} (digit : c.isDigit) : c.utf8Size = 1 := by
  have bounds : 48 ≤ c.val ∧ c.val ≤ 57 := by simpa [Char.isDigit] using digit
  unfold Char.utf8Size
  rw [if_pos (UInt32.le_trans bounds.2 (by decide))]

/-! ## Parts of a text -/

theorem trimmed_size_le (text : String) : (trimmed text).utf8ByteSize ≤ text.utf8ByteSize := by
  rw [trimmed, utf8ByteSize_ofList, utf8ByteSize_eq_byteSize text, trim, byteSize_reverse]
  refine Nat.le_trans (byteSize_le_of_sublist (List.dropWhile_sublist _)) ?_
  rw [byteSize_reverse]
  exact byteSize_le_of_sublist (List.dropWhile_sublist _)

theorem between_size_le (start finish : Nat) (text : String) :
    (between start finish text).utf8ByteSize ≤ text.utf8ByteSize := by
  rw [utf8ByteSize_eq_byteSize, utf8ByteSize_eq_byteSize text, toList_between]
  exact byteSize_le_of_sublist ((List.take_sublist _ _).trans (List.drop_sublist _ _))

theorem pieces_size_le (pattern : List Char) (skip : Nat) (piece text : List Char) :
    ∀ part ∈ pieces pattern skip piece text, byteSize part ≤ byteSize piece + byteSize text := by
  induction text generalizing skip piece with
  | nil =>
    intro part is_one
    rw [pieces, List.mem_singleton] at is_one
    simp [is_one]
  | cons c rest of_rest =>
    intro part is_one
    rw [byteSize_cons]
    cases skip with
    | succ skip =>
      have smaller := of_rest skip piece part is_one
      omega
    | zero =>
      rw [pieces] at is_one
      split at is_one
      · rcases List.mem_cons.mp is_one with rfl | is_one
        · rw [byteSize_reverse]
          omega
        · have smaller := of_rest _ [] part is_one
          rw [byteSize_nil] at smaller
          omega
      · have smaller := of_rest 0 (c :: piece) part is_one
        rw [byteSize_cons] at smaller
        omega

theorem splitOn_size_le (pattern text : List Char) :
    ∀ part ∈ splitOn pattern text, byteSize part ≤ byteSize text := by
  intro part is_one
  simpa using pieces_size_le pattern 0 [] text part is_one

/-! ## Replacements -/

theorem byteSize_interleave (replacement : List Char) {count : Nat} {text : List Char}
    (places : count ≤ text.length + 1) :
    byteSize (interleave replacement count text) = byteSize text + count * byteSize replacement := by
  induction text generalizing count with
  | nil =>
    rcases count with _ | _ | count
    · simp [interleave]
    · simp [interleave]
    · simp at places
  | cons c rest of_rest =>
    cases count with
    | zero => simp [interleave]
    | succ count =>
      rw [List.length_cons] at places
      rw [interleave, byteSize_append, byteSize_cons, of_rest (by omega), byteSize_cons, Nat.succ_mul]
      omega

theorem take_of_dropFront? {pattern text rest : List Char}
    (front : dropFront? pattern text = some rest) : text.take pattern.length = pattern := by
  induction pattern generalizing text with
  | nil => rfl
  | cons p pattern of_pattern =>
    cases text with
    | nil => simp [dropFront?] at front
    | cons c text =>
      rw [dropFront?] at front
      split at front
      · rename_i same
        rw [same, List.length_cons, List.take_succ_cons, of_pattern front]
      · cases front

section

variable {pattern : List Char} (some_pattern : pattern ≠ []) (replacement : List Char)

include some_pattern

/-- What is replaced in no more places than there are changes the bytes by the difference of pattern and
replacement in each of them. Characters that are passed over are the rest of a place. -/
theorem byteSize_replaceFirst {count skip : Nat} {text : List Char}
    (places : count ≤ occurrences pattern skip text) :
    byteSize (replaceFirst pattern replacement count skip text) + count * byteSize pattern +
      byteSize (text.take skip) = byteSize text + count * byteSize replacement := by
  induction text generalizing count skip with
  | nil =>
    rw [occurrences, Nat.le_zero] at places
    subst places
    simp [replaceFirst]
  | cons c rest of_rest =>
    cases skip with
    | succ skip =>
      have passed := of_rest places
      rw [replaceFirst, List.take_succ_cons, byteSize_cons, byteSize_cons]
      omega
    | zero =>
      cases count with
      | zero => simp [replaceFirst]
      | succ count =>
        rw [occurrences] at places
        rw [replaceFirst, List.take_zero, byteSize_nil, byteSize_cons]
        by_cases front : startsWith pattern (c :: rest)
        · rw [if_pos front] at places ⊢
          have fewer : count ≤ occurrences pattern (pattern.length - 1) rest := by omega
          have passed := of_rest fewer
          obtain ⟨after, found⟩ := Option.isSome_iff_exists.mp front
          have length : pattern.length = pattern.length - 1 + 1 := by
            have positive := List.length_pos_iff.mpr some_pattern
            omega
          have at_front := take_of_dropFront? found
          rw [length, List.take_succ_cons] at at_front
          have bytes := congrArg byteSize at_front
          rw [byteSize_cons] at bytes
          rw [byteSize_append, Nat.succ_mul, Nat.succ_mul]
          omega
        · rw [if_neg front] at places ⊢
          have of_rest := of_rest places
          rw [List.take_zero, byteSize_nil] at of_rest
          rw [byteSize_cons]
          omega

omit some_pattern in
/-- Where there is no place left, nothing is replaced. -/
theorem replaceFirst_of_none {count : Nat} {text : List Char}
    (nowhere : occurrences pattern 0 text = 0) :
    replaceFirst pattern replacement count 0 text = text := by
  induction text with
  | nil => cases count <;> rfl
  | cons c rest of_rest =>
    cases count with
    | zero => rfl
    | succ count =>
      rw [occurrences] at nowhere
      rw [replaceFirst]
      split at nowhere
      · cases nowhere
      · rename_i elsewhere
        rw [if_neg elsewhere, of_rest nowhere]

end
end Tabletop.Text
