import Tabletop.Proofs.Script.Termination
import Tabletop.Script.Session
import Tabletop.Script.Value.Json

/-!
Conversions step by step. Each relation lets a conversion go on into what an array or an object holds, with
the guards that this conversion has and no other bound: it ends exactly where there is a derivation. Texts
and JSON trees always come to an end. Numbers do unless arrays stand in one another for ever, each the only
item of the one before.
-/

namespace Tabletop.Script.Memory

section Relations

/-- The number of a value. An array with one item has that item's, and nothing keeps it from coming back to
an array that it came from. -/
inductive Numbers (memory : Memory) : Value → Float → Prop where
  | plain {value : Value} {number : Float} (no_array : memory.number? 0 value = some number) :
    Numbers memory value number
  | empty {id : Nat} (held : (memory.items id).toList = []) : Numbers memory (.array id) 0
  | single {id : Nat} {item : Value} {number : Float} (held : (memory.items id).toList = [item])
    (inside : Numbers memory item number) : Numbers memory (.array id) number
  | several {id : Nat} {first second : Value} {rest : List Value}
    (held : (memory.items id).toList = first :: second :: rest) :
    Numbers memory (.array id) Number.nan

/-- Equality with conversion. -/
inductive Compares (memory : Memory) (left right : Value) : Bool → Prop where
  | nullish (one : (left.isNullish || right.isNullish) = true) :
    Compares memory left right (left.isNullish && right.isNullish)
  | numbers {a b : Float} (filled : (left.isNullish || right.isNullish) = false)
    (numeric : comparesNumbers left right = true) (of_left : memory.Numbers left a)
    (of_right : memory.Numbers right b) : Compares memory left right (a == b)
  | strict (filled : (left.isNullish || right.isNullish) = false)
    (other : comparesNumbers left right = false) : Compares memory left right (left.strictEq right)

def behindComma (first : Bool) (out : String) : String := if first then out else out.push ','

mutual
/-- Appending the text of a value, with the arrays in `opened` being written. -/
inductive Writes (memory : Memory) (limit : Nat) : List Nat → String → Value → String → Prop where
  | plain {opened : List Nat} {out : String} {value : Value} (no_array : ∀ id, value ≠ .array id) :
    Writes memory limit opened out value (out ++ memory.plainText value)
  | closed {opened : List Nat} {out : String} {id : Nat}
    (guarded : renderDepth ≤ opened.length ∨ id ∈ opened) :
    Writes memory limit opened out (.array id) out
  | array {opened : List Nat} {out text : String} {id : Nat} (shallow : opened.length < renderDepth)
    (new : id ∉ opened)
    (each : WritesItems memory limit (id :: opened) true out (memory.items id).toList text) :
    Writes memory limit opened out (.array id) text
inductive WritesItems (memory : Memory) (limit : Nat) :
    List Nat → Bool → String → List Value → String → Prop where
  | done {opened : List Nat} {first : Bool} {out : String} : WritesItems memory limit opened first out [] out
  | cut {opened : List Nat} {first : Bool} {out : String} {item : Value} {rest : List Value}
    (long : limit < out.utf8ByteSize) : WritesItems memory limit opened first out (item :: rest) out
  | empty {opened : List Nat} {first : Bool} {out text : String} {item : Value} {rest : List Value}
    (short : ¬ limit < out.utf8ByteSize) (nullish : item.isNullish = true)
    (later : WritesItems memory limit opened false (behindComma first out) rest text) :
    WritesItems memory limit opened first out (item :: rest) text
  | item {opened : List Nat} {first : Bool} {out middle text : String} {item : Value} {rest : List Value}
    (short : ¬ limit < out.utf8ByteSize) (filled : item.isNullish = false)
    (written : Writes memory limit opened (behindComma first out) item middle)
    (later : WritesItems memory limit opened false middle rest text) :
    WritesItems memory limit opened first out (item :: rest) text
end

def plainJson : Value → Json
  | .bool value => .bool value
  | .number value => Json.ofNumber value
  | .str value => .str value
  | _ => .null

mutual
/-- The JSON tree of a value at a depth; `left` is what remains of the values that may still follow. -/
inductive Bridges (memory : Memory) : (depth budget : Nat) → Value → Json → (left : Nat) → Prop where
  | deep {depth budget : Nat} {value : Value} (below : 64 < depth) :
    Bridges memory depth budget value .null budget
  | spent {depth : Nat} {value : Value} : Bridges memory depth 0 value .null 0
  | plain {depth budget : Nat} {value : Value} (shallow : depth ≤ 64) (no_array : ∀ id, value ≠ .array id)
    (no_object : ∀ id, value ≠ .object id) :
    Bridges memory depth (budget + 1) value (plainJson value) budget
  | array {depth budget left id : Nat} {items : List Json} (shallow : depth ≤ 64)
    (each : BridgesAll memory (depth + 1) budget (memory.items id).toList items left) :
    Bridges memory depth (budget + 1) (.array id) (.arr items) left
  | object {depth budget left id : Nat} {values : List Json} (shallow : depth ≤ 64)
    (each : BridgesAll memory (depth + 1) budget ((memory.entries id).toList.map (·.2)) values left) :
    Bridges memory depth (budget + 1) (.object id)
      (Json.object (((memory.entries id).toList.map (·.1)).zip values)) left
inductive BridgesAll (memory : Memory) :
    (depth budget : Nat) → List Value → List Json → (left : Nat) → Prop where
  | nil {depth budget : Nat} : BridgesAll memory depth budget [] [] budget
  | cons {depth budget between left : Nat} {value : Value} {values : List Value} {json : Json}
    {jsons : List Json} (first : Bridges memory depth budget value json between)
    (later : BridgesAll memory depth between values jsons left) :
    BridgesAll memory depth budget (value :: values) (json :: jsons) left
end

end Relations

variable {memory : Memory}

section Numbers

theorem HoldsItself.next {id inner : Nat} (holds : memory.HoldsItself id)
    (only : memory.OnlyHolds id inner) : memory.HoldsItself inner := by
  obtain ⟨next, first, back⟩ := Relation.TransGen.head'_iff.mp holds
  have same : next = inner := by
    have items := first.symm.trans only
    cases items
    rfl
  rw [same] at back
  exact Relation.TransGen.tail' back only

/-- What nests endlessly is an array with one item, which nests endlessly. -/
theorem NestsEndlessly.exists_item {id : Nat} (endless : memory.NestsEndlessly (.array id)) :
    ∃ inner, memory.OnlyHolds id inner ∧ memory.NestsEndlessly (.array inner) := by
  obtain ⟨outer, last, same, reached, holds⟩ := endless
  cases same
  rcases Relation.ReflTransGen.cases_head reached with rfl | ⟨inner, only, reached⟩
  · obtain ⟨inner, only, -⟩ := Relation.TransGen.head'_iff.mp holds
    exact ⟨inner, only, inner, inner, rfl, .refl, holds.next only⟩
  · exact ⟨inner, only, inner, last, rfl, reached, holds⟩

theorem Numbers.not_nestsEndlessly {value : Value} {number : Float} (numbers : memory.Numbers value number) :
    ¬ memory.NestsEndlessly value := by
  induction numbers with
  | plain no_array =>
    rintro ⟨outer, inner, rfl, -⟩
    cases no_array
  | empty held =>
    intro endless
    obtain ⟨inner, only, -⟩ := endless.exists_item
    cases held.symm.trans only
  | single held inside not_inside =>
    intro endless
    obtain ⟨inner, only, endless⟩ := endless.exists_item
    cases held.symm.trans only
    exact not_inside endless
  | several held =>
    intro endless
    obtain ⟨inner, only, -⟩ := endless.exists_item
    cases held.symm.trans only

theorem numbers_of_number? {bound : Nat} {value : Value} {number : Float}
    (found : memory.number? bound value = some number) : memory.Numbers value number := by
  induction bound generalizing value with
  | zero => exact .plain found
  | succ bound of_item =>
    cases value with
    | array id =>
      rw [number?] at found
      cases held : (memory.items id).toList with
      | nil =>
        simp only [held] at found
        cases found
        exact .empty held
      | cons item rest =>
        cases rest with
        | nil =>
          simp only [held] at found
          exact .single held (of_item found)
        | cons second rest =>
          simp only [held] at found
          cases found
          exact .several held
    | _ => exact .plain found

/-- A bound on the arrays can keep a number back, but not make it another one. -/
theorem Numbers.number?_eq {value : Value} {number : Float} (numbers : memory.Numbers value number)
    (bound : Nat) : memory.number? bound value = none ∨ memory.number? bound value = some number := by
  induction numbers generalizing bound with
  | @plain value number no_array =>
    right
    cases value with
    | array id => cases no_array
    | _ => cases bound <;> exact no_array
  | empty held =>
    cases bound with
    | zero => exact .inl rfl
    | succ bound => right; simp only [number?, held]
  | single held inside of_item =>
    cases bound with
    | zero => exact .inl rfl
    | succ bound => simpa only [number?, held] using of_item bound
  | several held =>
    cases bound with
    | zero => exact .inl rfl
    | succ bound => right; simp only [number?, held]

theorem numbers_iff (value : Value) (number : Float) :
    memory.Numbers value number ↔ memory.numberOf? value = some number := by
  constructor
  · intro numbers
    -- Only the bound on the arrays could keep the number back, and there are fewer arrays than that.
    rcases numbers.number?_eq (memory.arrays.size + 1) with missing | found
    · exact absurd (nestsEndlessly_of_missing missing) numbers.not_nestsEndlessly
    · exact found
  · exact numbers_of_number?

theorem exists_numbers_iff (value : Value) :
    (∃ number, memory.Numbers value number) ↔ ¬ memory.NestsEndlessly value := by
  constructor
  · rintro ⟨number, numbers⟩
    exact numbers.not_nestsEndlessly
  · intro ends
    cases found : memory.numberOf? value with
    | none => exact absurd (nestsEndlessly_of_missing found) ends
    | some number => exact ⟨number, (numbers_iff value number).mpr found⟩

end Numbers

section Texts

variable {limit : Nat}

theorem write_plain (levels : Nat) (opened : List Nat) (out : String) {value : Value}
    (no_array : ∀ id, value ≠ .array id) :
    memory.write limit levels opened out value = out ++ memory.plainText value := by
  cases value with
  | array id => exact absurd rfl (no_array id)
  | _ => cases levels <;> rfl

mutual
theorem Writes.write_eq {opened : List Nat} {out text : String} {value : Value}
    (writes : memory.Writes limit opened out value text) :
    memory.write limit (renderDepth - opened.length) opened out value = text := by
  match writes with
  | .plain no_array => exact write_plain _ opened out no_array
  | .closed guarded =>
    cases levels : renderDepth - opened.length with
    | zero => rfl
    | succ inner =>
      have is_open := guarded.resolve_left (by omega)
      rw [write, if_pos (List.contains_iff_mem.mpr is_open)]
  | .array shallow new each =>
    have level : renderDepth - opened.length = renderDepth - (opened.length + 1) + 1 := by omega
    rw [level, write, if_neg (by simpa using new)]
    exact each.writeItems_eq
theorem WritesItems.writeItems_eq {opened : List Nat} {first : Bool} {out text : String}
    {items : List Value} (writes : memory.WritesItems limit opened first out items text) :
    writeItems limit (memory.write limit (renderDepth - opened.length) opened) first out items = text := by
  match writes with
  | .done => rfl
  | .cut long => rw [writeItems, if_pos long]
  | .empty short nullish later =>
    rw [writeItems, if_neg short]
    simp only [nullish, if_true]
    exact later.writeItems_eq
  | .item short filled written later =>
    rw [writeItems, if_neg short]
    simp only [filled, Bool.false_eq_true, if_false]
    rw [← behindComma, written.write_eq]
    exact later.writeItems_eq
end

theorem writesItems_writeItems {opened : List Nat} {writeItem : String → Value → String}
    (each : ∀ out item, memory.Writes limit opened out item (writeItem out item)) (first : Bool)
    (out : String) (items : List Value) :
    memory.WritesItems limit opened first out items (writeItems limit writeItem first out items) := by
  induction items generalizing first out with
  | nil => exact .done
  | cons item rest of_rest =>
    rw [writeItems]
    by_cases long : limit < out.utf8ByteSize
    · rw [if_pos long]
      exact .cut long
    · rw [if_neg long]
      dsimp only
      by_cases nullish : item.isNullish = true
      · rw [if_pos nullish]
        exact .empty long nullish (of_rest false _)
      · rw [if_neg nullish]
        exact .item long (by simpa using nullish) (each _ item) (of_rest false _)

theorem writes_write (levels : Nat) {opened : List Nat} (depth : renderDepth - opened.length = levels)
    (out : String) (value : Value) :
    memory.Writes limit opened out value (memory.write limit levels opened out value) := by
  -- An array goes on only while fewer are open than may be, so the levels do not run out before that.
  induction levels generalizing opened out value with
  | zero =>
    cases value with
    | array id => exact .closed (.inl (by omega))
    | _ => exact .plain (by simp)
  | succ inner of_inner =>
    cases value with
    | array id =>
      rw [write]
      by_cases again : id ∈ opened
      · rw [if_pos (List.contains_iff_mem.mpr again)]
        exact .closed (.inr again)
      · rw [if_neg (by simpa using again)]
        apply Writes.array (by omega) again
        apply writesItems_writeItems
        apply of_inner
        rw [List.length_cons]
        omega
    | _ => exact .plain (by simp)

theorem writes_iff (value : Value) (text : String) :
    memory.Writes limit [] "" value text ↔ memory.render limit value = text := by
  constructor
  · exact Writes.write_eq
  · rintro rfl
    exact writes_write renderDepth rfl "" value

end Texts

section Trees

theorem convertItems_next {α : Type} (convert : Nat → α → Json × Nat) (budget : Nat) (back : List Json)
    (item : α) (rest : List α) : convertItems convert budget back (item :: rest) =
      convertItems convert (convert budget item).2 ((convert budget item).1 :: back) rest := rfl

theorem convertItems_behind {α : Type} (convert : Nat → α → Json × Nat) (budget : Nat) (back : List Json)
    (items : List α) : convertItems convert budget back items =
      (back.reverse ++ (convertItems convert budget [] items).1, (convertItems convert budget [] items).2) := by
  induction items generalizing budget back with
  | nil => simp [convertItems]
  | cons item rest of_rest =>
    rw [convertItems_next, of_rest, convertItems_next, of_rest _ [(convert budget item).1]]
    simp

theorem convertItems_cons {α : Type} (convert : Nat → α → Json × Nat) (budget : Nat) (item : α)
    (rest : List α) : convertItems convert budget [] (item :: rest) =
      ((convert budget item).1 :: (convertItems convert (convert budget item).2 [] rest).1,
        (convertItems convert (convert budget item).2 [] rest).2) := by
  rw [convertItems_next, convertItems_behind]
  rfl

theorem length_convertItems {α : Type} (convert : Nat → α → Json × Nat) (budget : Nat)
    (items : List α) :
    (convertItems convert budget [] items).1.length = items.length := by
  induction items generalizing budget with
  | nil => rfl
  | cons item rest of_rest => rw [convertItems_cons, List.length_cons, of_rest, List.length_cons]

theorem toJsonWithin_array (levels budget id : Nat) :
    memory.toJsonWithin (levels + 1) (budget + 1) (.array id) =
      (.arr (convertItems (memory.toJsonWithin levels) budget [] (memory.items id).toList).1,
        (convertItems (memory.toJsonWithin levels) budget [] (memory.items id).toList).2) := rfl

theorem toJsonWithin_object (levels budget id : Nat) :
    memory.toJsonWithin (levels + 1) (budget + 1) (.object id) =
      let names := (memory.entries id).toList.map (·.1)
      let values := (memory.entries id).toList.map (·.2)
      (Json.object (names.zip (convertItems (memory.toJsonWithin levels) budget [] values).1),
        (convertItems (memory.toJsonWithin levels) budget [] values).2) := rfl

theorem toJsonWithin_plain (levels budget : Nat) {value : Value} (no_array : ∀ id, value ≠ .array id)
    (no_object : ∀ id, value ≠ .object id) :
    memory.toJsonWithin (levels + 1) (budget + 1) value = (plainJson value, budget) := by
  cases value with
  | array id => exact absurd rfl (no_array id)
  | object id => exact absurd rfl (no_object id)
  | _ => rfl

mutual
theorem Bridges.toJsonWithin_eq {depth budget left : Nat} {value : Value} {json : Json}
    (bridges : memory.Bridges depth budget value json left) :
    memory.toJsonWithin (jsonLevels - depth) budget value = (json, left) := by
  match bridges with
  | .deep below =>
    have none_left : jsonLevels - depth = 0 := by
      simp only [jsonLevels]
      omega
    rw [none_left, toJsonWithin]
  | .spent => cases jsonLevels - depth <;> rfl
  | .plain shallow no_array no_object =>
    have level : jsonLevels - depth = jsonLevels - (depth + 1) + 1 := by
      simp only [jsonLevels]
      omega
    rw [level]
    exact toJsonWithin_plain _ _ no_array no_object
  | .array shallow each =>
    have level : jsonLevels - depth = jsonLevels - (depth + 1) + 1 := by
      simp only [jsonLevels]
      omega
    rw [level, toJsonWithin_array, each.convertItems_eq]
  | .object shallow each =>
    have level : jsonLevels - depth = jsonLevels - (depth + 1) + 1 := by
      simp only [jsonLevels]
      omega
    rw [level, toJsonWithin_object]
    simp only [each.convertItems_eq]
theorem BridgesAll.convertItems_eq {depth budget left : Nat} {values : List Value} {jsons : List Json}
    (bridges : memory.BridgesAll depth budget values jsons left) :
    convertItems (memory.toJsonWithin (jsonLevels - depth)) budget [] values = (jsons, left) := by
  match bridges with
  | .nil => rfl
  | .cons first later => rw [convertItems_cons, first.toJsonWithin_eq, later.convertItems_eq]
end

theorem bridgesAll_convertItems {depth levels : Nat}
    (each : ∀ budget value, memory.Bridges depth budget value (memory.toJsonWithin levels budget value).1
      (memory.toJsonWithin levels budget value).2) (budget : Nat) (values : List Value) :
    memory.BridgesAll depth budget values (convertItems (memory.toJsonWithin levels) budget [] values).1
      (convertItems (memory.toJsonWithin levels) budget [] values).2 := by
  induction values generalizing budget with
  | nil => exact .nil
  | cons value rest of_rest =>
    rw [convertItems_cons]
    exact .cons (each budget value) (of_rest _)

theorem bridges_toJsonWithin (levels : Nat) {depth : Nat} (level : jsonLevels - depth = levels)
    (budget : Nat) (value : Value) :
    memory.Bridges depth budget value (memory.toJsonWithin levels budget value).1
      (memory.toJsonWithin levels budget value).2 := by
  -- Whatever goes on is one deeper, and what is too deep for another level does not go on.
  induction levels generalizing depth budget value with
  | zero =>
    simp only [jsonLevels] at level
    exact .deep (by omega)
  | succ levels of_levels =>
    simp only [jsonLevels] at level
    have inner : ∀ budget value, memory.Bridges (depth + 1) budget value
        (memory.toJsonWithin levels budget value).1 (memory.toJsonWithin levels budget value).2 := by
      apply of_levels
      simp only [jsonLevels]
      omega
    cases budget with
    | zero => exact .spent
    | succ budget =>
      cases value with
      | array id => exact .array (by omega) (bridgesAll_convertItems inner budget _)
      | object id => exact .object (by omega) (bridgesAll_convertItems inner budget _)
      | _ => exact .plain (by omega) (by simp) (by simp)

theorem bridges_iff (value : Value) (json : Json) :
    (∃ left, memory.Bridges 0 jsonBudget value json left) ↔ memory.toJson value = json := by
  constructor
  · rintro ⟨left, bridges⟩
    exact congrArg Prod.fst bridges.toJsonWithin_eq
  · rintro rfl
    exact ⟨_, bridges_toJsonWithin jsonLevels rfl jsonBudget value⟩

end Trees

section Equality

theorem looseEq_nullish {left right : Value} (one : (left.isNullish || right.isNullish) = true) :
    left.looseEq right memory = .ok (left.isNullish && right.isNullish) memory := by
  rw [Value.looseEq, if_pos one]
  rfl

theorem looseEq_strict {left right : Value} (filled : (left.isNullish || right.isNullish) = false)
    (other : comparesNumbers left right = false) :
    left.looseEq right memory = .ok (left.strictEq right) memory := by
  rw [Value.looseEq, if_neg (by simp [filled]), if_neg (by simp [other])]
  rfl

theorem looseEq_numbers {left right : Value} (filled : (left.isNullish || right.isNullish) = false)
    (numeric : comparesNumbers left right = true) : left.looseEq right memory =
      match memory.numberOf? left, memory.numberOf? right with
      | some a, some b => .ok (a == b) memory
      | _, _ => .error .endlessNumber memory := by
  rw [Value.looseEq, if_neg (by simp [filled]), if_pos numeric, bind_apply, Value.toNumber_apply]
  cases memory.numberOf? left with
  | none => rfl
  | some a =>
    dsimp only
    rw [bind_apply, Value.toNumber_apply]
    cases memory.numberOf? right with
    | none => rfl
    | some b => rfl

theorem compares_iff (left right : Value) (same : Bool) :
    memory.Compares left right same ↔ left.looseEq right memory = .ok same memory := by
  constructor
  · intro compares
    cases compares with
    | nullish one => exact looseEq_nullish one
    | numbers filled numeric of_left of_right =>
      rw [looseEq_numbers filled numeric, (numbers_iff _ _).mp of_left, (numbers_iff _ _).mp of_right]
    | strict filled other => exact looseEq_strict filled other
  · intro given
    cases filled : left.isNullish || right.isNullish with
    | true =>
      rw [looseEq_nullish filled] at given
      cases given
      exact .nullish filled
    | false =>
      cases numeric : comparesNumbers left right with
      | true =>
        rw [looseEq_numbers filled numeric] at given
        cases of_left : memory.numberOf? left with
        | none =>
          rw [of_left] at given
          cases given
        | some a =>
          cases of_right : memory.numberOf? right with
          | none =>
            rw [of_left, of_right] at given
            cases given
          | some b =>
            rw [of_left, of_right] at given
            cases given
            exact .numbers filled numeric ((numbers_iff _ _).mpr of_left) ((numbers_iff _ _).mpr of_right)
      | false =>
        rw [looseEq_strict filled numeric] at given
        cases given
        exact .strict filled numeric

/-- Two values are compared by their numbers, and one of them nests endlessly. -/
def ComparesEndlessly (memory : Memory) (left right : Value) : Prop :=
  (left.isNullish || right.isNullish) = false ∧ comparesNumbers left right = true ∧
    (memory.NestsEndlessly left ∨ memory.NestsEndlessly right)

theorem exists_compares_iff (left right : Value) :
    (∃ same, memory.Compares left right same) ↔ ¬ memory.ComparesEndlessly left right := by
  constructor
  · rintro ⟨same, compares⟩ ⟨filled, numeric, endless⟩
    cases compares with
    | nullish one => rw [one] at filled; cases filled
    | numbers _ _ of_left of_right =>
      rcases endless with endless | endless
      · exact of_left.not_nestsEndlessly endless
      · exact of_right.not_nestsEndlessly endless
    | strict _ other => rw [other] at numeric; cases numeric
  · intro ends
    cases filled : left.isNullish || right.isNullish with
    | true => exact ⟨_, .nullish filled⟩
    | false =>
      cases numeric : comparesNumbers left right with
      | true =>
        obtain ⟨a, of_left⟩ := (exists_numbers_iff left).mpr fun endless =>
          ends ⟨filled, numeric, .inl endless⟩
        obtain ⟨b, of_right⟩ := (exists_numbers_iff right).mpr fun endless =>
          ends ⟨filled, numeric, .inr endless⟩
        exact ⟨_, .numbers filled numeric of_left of_right⟩
      | false => exact ⟨_, .strict filled numeric⟩

end Equality

/-- In every memory each conversion of a value comes to its one end, which is what it gives: texts under
any limit and JSON trees always; numbers unless the value nests endlessly; and equality with conversion
unless it asks for the number of such a value. -/
theorem conversions_end_unless_endless (memory : Memory) (limit : Nat) (value other : Value) :
    (∀ text, memory.Writes limit [] "" value text ↔ memory.render limit value = text) ∧
    (∀ json, (∃ left, memory.Bridges 0 jsonBudget value json left) ↔ memory.toJson value = json) ∧
    (∀ number, memory.Numbers value number ↔ memory.numberOf? value = some number) ∧
    ((∃ number, memory.Numbers value number) ↔ ¬ memory.NestsEndlessly value) ∧
    (∀ same, memory.Compares value other same ↔ value.looseEq other memory = .ok same memory) ∧
    ((∃ same, memory.Compares value other same) ↔ ¬ memory.ComparesEndlessly value other) :=
  ⟨writes_iff value, bridges_iff value, numbers_iff value, exists_numbers_iff value,
    compares_iff value other, exists_compares_iff value other⟩

/-- The array that is the only item of the first one where a run ends for want of a number. -/
def heldByFirst? : EStateM.Result Fault Memory Value → Option Nat
  | .error .endlessNumber memory =>
    match (memory.items 0).toList with
    | [.array inner] => some inner
    | _ => none
  | _ => none

theorem exists_of_heldByFirst? {ended : EStateM.Result Fault Memory Value} {inner : Nat}
    (held : heldByFirst? ended = some inner) :
    ∃ memory, ended = .error .endlessNumber memory ∧ memory.OnlyHolds 0 inner := by
  unfold heldByFirst? at held
  split at held
  · rename_i memory
    split at held
    · rename_i only
      cases held
      exact ⟨memory, rfl, only⟩
    · cases held
  · cases held

/-- A program puts an array into itself and asks for its number: nothing is the number. -/
theorem self_held_array_has_no_number :
    let source := "function main() \x7b const a = []; a.push(a); return Number(a) \x7d"
    ∃ program, Program.read source = .ok program ∧ ∃ memory : Memory,
      (Machine.outermost {}).session program "main" [] [] Memory.fresh = .error .endlessNumber memory ∧
      memory.OnlyHolds 0 0 ∧ ¬ ∃ number, memory.Numbers (.array 0) number := by
  intro source
  have runs : (Program.read source).toOption.map (fun program =>
      heldByFirst? ((Machine.outermost {}).session program "main" [] [] Memory.fresh)) =
        some (some 0) := by
    decide +kernel
  cases read : Program.read source with
  | error e =>
    rw [read] at runs
    cases runs
  | ok program =>
    rw [read] at runs
    obtain ⟨memory, ended, only⟩ := exists_of_heldByFirst? (Option.some.inj runs)
    refine ⟨program, rfl, memory, ended, only, ?_⟩
    rw [exists_numbers_iff]
    exact fun ends => ends ⟨0, 0, rfl, .refl, .single only⟩

end Tabletop.Script.Memory
