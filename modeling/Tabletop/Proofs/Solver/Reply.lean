import Tabletop.Solver.Reply
import Tabletop.Proofs.Json.Float
import Tabletop.Proofs.Number.Spelled
import Tabletop.Proofs.Payload.Texts

/-!
What a solver's reply comes to. The field with the position decides alone, and it may be a number or the
text of that number.
-/

namespace Tabletop.Solver

open Number

section Positions

/-- The values that give a position: an integer of 64 bits, a double that is an integer below nine
quadrillion, and a text that spells one of these between blanks. -/
inductive HoldsPosition : Json → Int → Prop where
  | int {n : Int} (fits : IsSigned64 n) : HoldsPosition (.int n) n
  | float {x : Float} {n : Int} (integral : IsIntegral x n) : HoldsPosition (.float x) n
  | digits {text : String} {n : Int} (spells : SpellsInteger (Text.trim text.toList) n)
    (fits : IsSigned64 n) : HoldsPosition (.str text) n
  | decimal {text : String} {x : Float} {n : Int} (read : readFloat? (Text.trim text.toList) = some x)
    (integral : IsIntegral x n) : HoldsPosition (.str text) n

variable {n : Int} {text : String}

/-- A text may spell an integer and be a double's text, too; it is the same integer then. -/
theorem positionOfText?_eq_some_iff : positionOfText? text = some n ↔ HoldsPosition (.str text) n := by
  unfold positionOfText?
  dsimp only
  constructor
  · intro found
    split at found
    · rename_i value read
      cases found
      obtain ⟨spells, fits⟩ := readSigned64?_eq_some_iff.mp read
      exact .digits spells fits
    · obtain ⟨x, read, small⟩ := Option.bind_eq_some_iff.mp found
      exact .decimal read (smallInt?_eq_some_iff.mp small)
  · intro holds
    cases holds with
    | digits spells fits => rw [readSigned64?_eq_some_iff.mpr ⟨spells, fits⟩]
    | @decimal _ x _ read integral =>
      split
      · rename_i value read_digits
        obtain ⟨spells, low, high⟩ := readSigned64?_eq_some_iff.mp read_digits
        rw [spells.eq_of_isIntegral (by omega) read integral]
      · rw [read, Option.bind_some, smallInt?_eq_some_iff.mpr integral]

theorem positionOf?_eq_some_iff {json : Json} : positionOf? json = some n ↔ HoldsPosition json n := by
  cases json with
  | int value =>
    have same : (-Nat.pow 2 63 ≤ value ∧ value < Nat.pow 2 63) ↔ IsSigned64 value := Iff.rfl
    rw [positionOf?]
    constructor
    · intro found
      split at found
      · cases found
        exact .int (same.mp (by assumption))
      · cases found
    · rintro ⟨fits⟩
      exact if_pos (same.mpr fits)
  | float x =>
    rw [positionOf?, smallInt?_eq_some_iff]
    exact ⟨.float, fun | .float integral => integral⟩
  | str text => exact positionOfText?_eq_some_iff
  | null => exact ⟨nofun, nofun⟩
  | bool value => exact ⟨nofun, nofun⟩
  | arr items => exact ⟨nofun, nofun⟩
  | obj fields => exact ⟨nofun, nofun⟩

end Positions

section Texts

variable {n : Int} {x : Float} {chars : List Char}

/-- Nothing is trimmed off a text of digits, points, signs and exponent marks. -/
theorem trim_of_plain
    (plain : ∀ c ∈ chars, Payload.Formula.isNumberPart c ∨ c ∈ Payload.Formula.continuations) :
    Text.trim chars = chars := by
  have no_blank : ∀ c ∈ chars, Text.isBlank c = false := by
    intro c is_one
    by_contra blank
    obtain ⟨no_part, -, no_mark⟩ := Payload.Formula.plain_of_isBlank (by simpa using blank)
    rcases plain c is_one with part | mark
    · rw [part] at no_part
      cases no_part
    · exact no_mark mark
  rcases eq_or_ne chars [] with rfl | filled
  · rfl
  · exact (Text.Solid.of_all filled no_blank).trim

theorem mem_of_spells (spells : SpellsInteger chars n) : ∀ c ∈ chars, c.isDigit ∨ c ∈ ['+', '-'] := by
  obtain ⟨is_sign, -, all⟩ := spells
  intro c is_one
  rcases List.mem_append.mp is_one with of_sign | of_digits
  · right
    cases is_sign with
    | none => cases of_sign
    | plus =>
      rw [List.mem_singleton.mp of_sign]
      decide
    | minus =>
      rw [List.mem_singleton.mp of_sign]
      decide
  · exact .inl (all c of_digits)

theorem trim_of_spells (spells : SpellsInteger chars n) : Text.trim chars = chars := by
  refine trim_of_plain fun c is_one => ?_
  rcases mem_of_spells spells c is_one with digit | sign
  · exact .inl (Payload.Formula.isNumberPart_of_isDigit digit)
  · right
    rcases List.mem_pair.mp sign with rfl | rfl
    · decide
    · decide

/-- An integer's own text spells it. -/
theorem spells_toString (n : Int) : SpellsInteger (toString n).toList n := by
  cases n with
  | ofNat whole =>
    have spells := SpellsInteger.digits .none Nat.toDigits_ne_nil
      fun c is_one => isDigit_of_mem_toDigits (n := whole) is_one
    rwa [natOfDigits_toDigits, List.nil_append, ← Nat.toList_repr] at spells
  | negSucc before =>
    have spells := SpellsInteger.digits .minus Nat.toDigits_ne_nil
      fun c is_one => isDigit_of_mem_toDigits (n := before + 1) is_one
    rw [natOfDigits_toDigits, ← Nat.toList_repr] at spells
    rwa [Payload.Formula.toList_negSucc]

theorem trim_floatText (finite : isFinite x) :
    Text.trim (Json.floatText x).toList = (Json.floatText x).toList := by
  refine trim_of_plain fun c is_one => ?_
  rcases Json.mem_floatText finite c is_one with digit | mark
  · exact .inl (Payload.Formula.isNumberPart_of_isDigit digit)
  · simp only [Json.marks, List.mem_cons, List.not_mem_nil, or_false] at mark
    rcases mark with rfl | rfl | rfl | rfl
    all_goals decide

/-- A double's text has a point or an exponent, so it is no integer's. -/
theorem not_spells_floatText (finite : isFinite x) : ¬ SpellsInteger (Json.floatText x).toList n := by
  intro spells
  obtain ⟨c, is_one, mark⟩ := Json.exists_mark_floatText finite
  have no_mark := mem_of_spells spells c is_one
  rcases mark with rfl | rfl
  · revert no_mark
    decide
  · revert no_mark
    decide

/-- The numbers of JSON: integers that fit 64 bits, with a sign or without, and finite doubles. -/
inductive IsNumber : Json → Prop where
  | int {n : Int} (low : -2 ^ 63 ≤ n) (high : n < 2 ^ 64) : IsNumber (.int n)
  | float {x : Float} (finite : isFinite x) : IsNumber (.float x)

theorem toList_compact_int (n : Int) : (Json.int n).compact.toList = (toString n).toList := by
  simp [Json.compact, Json.writeTo]

theorem toList_compact_float (x : Float) : (Json.float x).compact.toList = (Json.floatText x).toList := by
  simp [Json.compact, Json.writeTo]

/-- A number and its text hold the same position, if they hold one. -/
theorem IsNumber.holdsPosition_compact_iff {number : Json} (is_number : IsNumber number) :
    HoldsPosition (.str number.compact) n ↔ HoldsPosition number n := by
  cases is_number with
  | @int value low high =>
    have spells := spells_toString value
    have trimmed : Text.trim (Json.int value).compact.toList = (toString value).toList := by
      rw [toList_compact_int, trim_of_spells spells]
    constructor
    · intro holds
      cases holds with
      | digits other fits =>
        have read := readSigned64?_eq_some_iff.mpr ⟨other, fits⟩
        rw [trimmed, spells.readSigned64?] at read
        split at read
        · cases read
          exact .int fits
        · cases read
      | decimal read integral =>
        rw [trimmed] at read
        obtain rfl := spells.eq_of_isIntegral (by omega) read integral
        obtain ⟨-, small⟩ := integral
        exact .int ⟨low, by omega⟩
    · intro holds
      cases holds with
      | int fits => exact .digits (trimmed.symm ▸ spells) fits
  | @float x finite =>
    have trimmed : Text.trim (Json.float x).compact.toList = (Json.floatText x).toList := by
      rw [toList_compact_float, trim_floatText finite]
    constructor
    · intro holds
      cases holds with
      | digits spells fits => exact absurd (trimmed ▸ spells) (not_spells_floatText finite)
      | decimal read integral =>
        rw [trimmed, Json.readFloat?_floatText finite] at read
        cases read
        exact .float integral
    · intro holds
      cases holds with
      | float integral => exact .decimal (trimmed.symm ▸ Json.readFloat?_floatText finite) integral

theorem IsNumber.positionOf?_compact {number : Json} (is_number : IsNumber number) :
    positionOf? (.str number.compact) = positionOf? number := by
  ext n
  rw [positionOf?_eq_some_iff, positionOf?_eq_some_iff, is_number.holdsPosition_compact_iff]

end Texts

section Replies

/-- What the body of a reply to a payload comes to: the reply and what is odd about it. -/
def interpret (payload : Payload) (body : Json) : Except Failure (Reply × Option Warning) :=
  (Reply.ofJson body).map fun reply => (reply, reply.warning? payload)

/-- The position that is selected, if one is. -/
def outcome (payload : Payload) (body : Json) : Except Failure Int :=
  (interpret payload body).map fun result => result.1.position

/-- The position that a field holds, or why there is none. -/
def fieldOutcome : Option Json → Except Failure Int
  | none => .error (.semantic .missingReturn)
  | some field => ((positionOf? field).map .ok).getD (.error (.semantic (.notAnInteger field.compact)))

/-- The outcome is read off one field. -/
theorem outcome_eq (payload : Payload) (body : Json) :
    outcome payload body = fieldOutcome (body.field? "return") := by
  unfold outcome interpret Reply.ofJson
  cases body.field? "return" with
  | none => rfl
  | some field =>
    dsimp only [fieldOutcome]
    cases positionOf? field with
    | none => rfl
    | some position => rfl

theorem toOption_fieldOutcome (field : Option Json) :
    (fieldOutcome field).toOption = field.bind positionOf? := by
  cases field with
  | none => rfl
  | some value =>
    rw [fieldOutcome, Option.bind_some]
    cases positionOf? value with
    | none => rfl
    | some position => rfl

theorem toOption_eq_some_iff {ε α : Type} {result : Except ε α} {value : α} :
    result.toOption = some value ↔ result = .ok value := by
  cases result with
  | error _ => simp [Except.toOption]
  | ok _ => simp [Except.toOption]

/-- A reply to any payload is taken if its field holds a position, and that is the one selected. Neither
the payload nor another field has a part in it, and a number may as well be given as its text. -/
theorem position_decides_the_reply (payload : Payload) (body : Json) :
    (∀ n, outcome payload body = .ok n ↔
      ∃ field, body.field? "return" = some field ∧ HoldsPosition field n) ∧
    (∀ (other : Payload) (other_body : Json), other_body.field? "return" = body.field? "return" →
      outcome other other_body = outcome payload body) ∧
    ∀ (number : Json) (other : Payload) (other_body : Json), IsNumber number →
      body.field? "return" = some number → other_body.field? "return" = some (.str number.compact) →
        (outcome other other_body).toOption = (outcome payload body).toOption := by
  simp only [outcome_eq]
  refine ⟨fun n => ?_, fun _ _ same => congrArg fieldOutcome same, ?_⟩
  · rw [← toOption_eq_some_iff, toOption_fieldOutcome, Option.bind_eq_some_iff]
    simp only [positionOf?_eq_some_iff]
  · intro number _ _ is_number held held_text
    rw [toOption_fieldOutcome, toOption_fieldOutcome, held, held_text]
    exact is_number.positionOf?_compact

/-- A payload with one cell, the answer if it is taken. -/
def oneCell : Payload where
  unknowns := [⟨"x4", .binary⟩]
  constraints := []
  objective := "-1 * x4"
  answer := "4 * x4"

/-- A payload that asks for nothing. -/
def noCells : Payload := ⟨[], [], "0", "0"⟩

/-- A reply whose sample does not take the cell. -/
def contradicted : Json := .obj [("return", .float 4), ("sample", .obj [("x4", .int 0)])]

/-- A double counts beside a sample that goes against it and without one, whatever was asked, and so does
its text. -/
theorem position_decides_beside_a_sample :
    outcome oneCell contradicted = .ok 4 ∧
      outcome noCells (.obj [("return", .float 4)]) = .ok 4 ∧
        (outcome noCells (.obj [("return", .str "4.0")])).toOption = some 4 := by
  obtain ⟨selects, field_decides, text_decides⟩ := position_decides_the_reply oneCell contradicted
  have taken : outcome oneCell contradicted = .ok 4 :=
    (selects 4).mpr ⟨.float 4, rfl, .float (smallInt?_eq_some_iff.mp (by decide +kernel))⟩
  have text : (Json.float 4).compact = "4.0" := by decide +kernel
  refine ⟨taken, ?_, ?_⟩
  · rw [field_decides noCells (.obj [("return", .float 4)]) rfl, taken]
  · rw [text_decides (.float 4) _ _ (.float (by decide +kernel)) rfl (by rw [text]; rfl), taken]
    rfl

end Replies
end Tabletop.Solver
