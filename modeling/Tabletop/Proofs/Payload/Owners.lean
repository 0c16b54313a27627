import Tabletop.Proofs.Payload.Value
import Tabletop.Proofs.Number.Digits

/-!
To whom a name in a formula belongs. Names are made up for members and cells, and nothing keeps a
variable from being called like one of them: then, and only then, two variables share a name.
-/

namespace Tabletop.Payload

/-! ## Made-up names -/

/-- Texts that end in digits are the same only if they are so before the digits and from there on. -/
theorem append_digits_inj {front front' digits digits' : List Char} {mark mark' : Char}
    (all : ∀ c ∈ digits, c.isDigit) (all' : ∀ c ∈ digits', c.isDigit)
    (no_digit : mark.isDigit = false) (no_digit' : mark'.isDigit = false)
    (same : front ++ mark :: digits = front' ++ mark' :: digits') :
    front = front' ∧ mark = mark' ∧ digits = digits' := by
  have backwards : digits.reverse ++ mark :: front.reverse =
      digits'.reverse ++ mark' :: front'.reverse := by
    simpa using congrArg List.reverse same
  have stops : Text.Stops Char.isDigit (mark :: front.reverse) := Text.stops_cons.mpr no_digit
  have stops' : Text.Stops Char.isDigit (mark' :: front'.reverse) := Text.stops_cons.mpr no_digit'
  have run := Text.span_run (fun c is_one => all c (List.mem_reverse.mp is_one)) stops
  have run' := Text.span_run (fun c is_one => all' c (List.mem_reverse.mp is_one)) stops'
  rw [backwards, run'] at run
  obtain ⟨same_digits, same_rest⟩ := Prod.mk.inj run
  obtain ⟨same_mark, same_front⟩ := List.cons.inj same_rest
  exact ⟨(List.reverse_inj.mp same_front).symm, same_mark.symm, (List.reverse_inj.mp same_digits).symm⟩

theorem toList_cell (name : String) (index : Nat) :
    s!"{name}_{index}".toList = name.toList ++ '_' :: Nat.toDigits 10 index := by
  simp [toString, Nat.toList_repr]

theorem toList_member (name : String) (index : Nat) :
    s!"{name}[{index}]".toList = (name.toList ++ '[' :: Nat.toDigits 10 index) ++ [']'] := by
  simp [toString, Nat.toList_repr]

/-- The name of a cell of a grid is that of a cell in a row, which is called like a cell itself. -/
theorem gridCell_eq {name rowName : String} {row : Nat} (named : rowName = s!"{name}_{row}")
    (column : Nat) : s!"{name}_{row}_{column}" = s!"{rowName}_{column}" := by
  rw [named]
  rfl

theorem toDigits_inj {index index' : Nat} (same : Nat.toDigits 10 index = Nat.toDigits 10 index') :
    index = index' := by
  rw [← Number.natOfDigits_toDigits index, same, Number.natOfDigits_toDigits]

theorem cell_inj {name other : String} {index place : Nat}
    (same : s!"{name}_{index}" = s!"{other}_{place}") : name = other ∧ index = place := by
  have same := congrArg String.toList same
  rw [toList_cell, toList_cell] at same
  obtain ⟨same_name, -, same_index⟩ := append_digits_inj (fun _ => Number.isDigit_of_mem_toDigits)
    (fun _ => Number.isDigit_of_mem_toDigits) rfl rfl same
  exact ⟨String.toList_inj.mp same_name, toDigits_inj same_index⟩

theorem member_inj {name other : String} {index place : Nat}
    (same : s!"{name}[{index}]" = s!"{other}[{place}]") : name = other ∧ index = place := by
  have same := congrArg String.toList same
  rw [toList_member, toList_member] at same
  obtain ⟨same_name, -, same_index⟩ := append_digits_inj (fun _ => Number.isDigit_of_mem_toDigits)
    (fun _ => Number.isDigit_of_mem_toDigits) rfl rfl (List.append_cancel_right same)
  exact ⟨String.toList_inj.mp same_name, toDigits_inj same_index⟩

theorem member_ne_cell (name other : String) (index place : Nat) :
    s!"{name}[{index}]" ≠ s!"{other}_{place}" := by
  intro same
  have same := congrArg (fun text => text.toList.getLast?) same
  simp only [toList_member, toList_cell, List.getLast?_append, List.getLast?_cons,
    Option.some_or] at same
  cases last : (Nat.toDigits 10 place).getLast? with
  | none => exact Nat.toDigits_ne_nil (List.getLast?_eq_none_iff.mp last)
  | some c =>
    rw [last] at same
    have bracket : ']' = c := Option.some.inj same
    have digit := Number.isDigit_of_mem_toDigits (List.mem_of_getLast? last)
    rw [← bracket] at digit
    cases digit

/-- The names that are made up for the members or the cells of a variable. -/
inductive MakesUp (name : String) : VariableKind → String → Prop where
  | member {lower upper : Int} {index : Nat} (inside : index < (upper - lower + 1).toNat) :
    MakesUp name (.unary lower upper) s!"{name}[{index}]"
  | cell {length index : Nat} {element : ElementType} (inside : index < length) :
    MakesUp name (.array (.row length) element) s!"{name}_{index}"
  | gridCell {rows columns row column : Nat} {element : ElementType} (row_inside : row < rows)
    (column_inside : column < columns) :
    MakesUp name (.array (.grid rows columns) element) s!"{name}_{row}_{column}"

/-- A variable that is no array may be referred to by its own name. -/
def VariableKind.HasOwnName : VariableKind → Prop
  | .array _ _ => False
  | _ => True

theorem mem_allNames_iff {kind : VariableKind} {name text : String} :
    text ∈ kind.allNames name ↔ kind.HasOwnName ∧ text = name ∨ MakesUp name kind text := by
  constructor
  · intro is_one
    cases kind with
    | binary | spin => exact .inl ⟨trivial, List.mem_singleton.mp is_one⟩
    | unary lower upper =>
      rcases List.mem_cons.mp is_one with rfl | is_member
      · exact .inl ⟨trivial, rfl⟩
      · obtain ⟨index, inside, rfl⟩ := List.mem_map.mp is_member
        exact .inr (.member (List.mem_range.mp inside))
    | array shape element =>
      cases shape with
      | row length =>
        obtain ⟨index, inside, rfl⟩ := List.mem_map.mp is_one
        exact .inr (.cell (List.mem_range.mp inside))
      | grid rows columns =>
        obtain ⟨row, row_inside, in_row⟩ := List.mem_flatMap.mp is_one
        obtain ⟨column, column_inside, rfl⟩ := List.mem_map.mp in_row
        exact .inr (.gridCell (List.mem_range.mp row_inside) (List.mem_range.mp column_inside))
  · rintro (⟨own, rfl⟩ | made)
    · cases kind with
      | binary | spin => exact List.mem_singleton.mpr rfl
      | unary lower upper => exact List.mem_cons_self
      | array shape element => exact own.elim
    · cases made with
      | member inside =>
        exact List.mem_cons_of_mem _ (List.mem_map.mpr ⟨_, List.mem_range.mpr inside, rfl⟩)
      | cell inside => exact List.mem_map.mpr ⟨_, List.mem_range.mpr inside, rfl⟩
      | gridCell row_inside column_inside =>
        exact List.mem_flatMap.mpr ⟨_, List.mem_range.mpr row_inside,
          List.mem_map.mpr ⟨_, List.mem_range.mpr column_inside, rfl⟩⟩

/-! ## Names that two variables share -/

namespace Variable

/-- The names that formulas may refer to a variable by. -/
def names (v : Variable) : List String := v.kind.declaredNames v.name

/-- A variable is called like a member or a cell of another one; or it is a row of cells that is called
like a row of the other one, a grid. -/
inductive NamedWithin (v w : Variable) : Prop where
  | own (single : v.kind.HasOwnName) (made : MakesUp w.name w.kind v.name)
  | row {length rows columns index : Nat} {element element' : ElementType}
    (of_v : v.kind = .array (.row length) element)
    (of_w : w.kind = .array (.grid rows columns) element') (inside : index < rows)
    (named : v.name = s!"{w.name}_{index}")

variable {v w : Variable}

/-- A made-up name that two variables share is that of a cell in a row of a grid. -/
theorem NamedWithin.of_made {text : String} (differ : v.name ≠ w.name)
    (made : MakesUp v.name v.kind text) (made' : MakesUp w.name w.kind text) :
    v.NamedWithin w ∨ w.NamedWithin v := by
  obtain ⟨name, kind⟩ := v
  obtain ⟨name', kind'⟩ := w
  dsimp only at differ made made'
  generalize shared : text = other at made'
  cases made with
  | member inside =>
    cases made' with
    | member inside' => exact absurd (member_inj shared).1 differ
    | cell inside' => exact absurd shared (member_ne_cell _ _ _ _)
    | gridCell row_inside column_inside =>
      rw [gridCell_eq rfl] at shared
      exact absurd shared (member_ne_cell _ _ _ _)
  | cell inside =>
    cases made' with
    | member inside' => exact absurd shared (member_ne_cell _ _ _ _).symm
    | cell inside' => exact absurd (cell_inj shared).1 differ
    | gridCell row_inside column_inside =>
      rw [gridCell_eq rfl] at shared
      exact .inl (.row rfl rfl row_inside (cell_inj shared).1)
  | gridCell row_inside column_inside =>
    rw [gridCell_eq rfl] at shared
    cases made' with
    | member inside' => exact absurd shared (member_ne_cell _ _ _ _).symm
    | cell inside' => exact .inr (.row rfl rfl row_inside (cell_inj shared).1.symm)
    | gridCell row_inside' column_inside' =>
      rw [gridCell_eq rfl] at shared
      exact absurd (cell_inj (cell_inj shared).1).1 differ

/-- Variables of other names share one exactly if one of them is called within the other. -/
theorem shares_iff (differ : v.name ≠ w.name) (sensible : v.kind.Sensible)
    (sensible' : w.kind.Sensible) :
    (∃ text ∈ v.kind.allNames v.name, text ∈ w.kind.allNames w.name) ↔
      v.NamedWithin w ∨ w.NamedWithin v := by
  constructor
  · rintro ⟨text, of_v, of_w⟩
    rcases mem_allNames_iff.mp of_v with ⟨own, rfl⟩ | made
    · rcases mem_allNames_iff.mp of_w with ⟨-, same⟩ | made'
      · exact absurd same differ
      · exact .inl (.own own made')
    · rcases mem_allNames_iff.mp of_w with ⟨own', rfl⟩ | made'
      · exact .inr (.own own' made)
      · exact NamedWithin.of_made differ made made'
  · -- a row and a grid with cells share the first cell of the row
    have within : ∀ {v w : Variable}, v.kind.Sensible → w.kind.Sensible → v.NamedWithin w →
        ∃ text ∈ v.kind.allNames v.name, text ∈ w.kind.allNames w.name := by
      intro v w sensible sensible' named
      cases named with
      | own single made =>
        exact ⟨v.name, mem_allNames_iff.mpr (.inl ⟨single, rfl⟩), mem_allNames_iff.mpr (.inr made)⟩
      | row of_v of_w inside named =>
        rw [of_v] at sensible ⊢
        rw [of_w] at sensible' ⊢
        have wide := Nat.pos_of_mul_pos_left sensible'
        refine ⟨_, mem_allNames_iff.mpr (.inr (.cell sensible)), ?_⟩
        rw [← gridCell_eq named]
        exact mem_allNames_iff.mpr (.inr (.gridCell inside wide))
    rintro (named | named)
    · exact within sensible sensible' named
    · obtain ⟨text, of_w, of_v⟩ := within sensible' sensible named
      exact ⟨text, of_v, of_w⟩

end Variable

/-! ## The names that formulas use -/

/-- A formula of a payload refers to a name. -/
def Uses (payload : Payload) (name : String) : Prop :=
  ∃ text ∈ payload.formulas, ∃ formula, Formula.read (Text.trimmed text) = .ok formula ∧
    formula.Mentions name

theorem Acceptable.names_eq {payload : Payload} (good : Acceptable payload) {v : Variable}
    (is_unknown : v ∈ payload.unknowns) : v.names = v.kind.allNames v.name := by
  refine v.kind.declaredNames_eq v.name ?_
  rw [← v.kind.length_allNames v.name]
  exact good.each_within v is_unknown

/-- What an acceptable payload uses is declared. -/
theorem Acceptable.exists_owner {payload : Payload} (good : Acceptable payload) {name : String}
    (used : payload.Uses name) : ∃ v ∈ payload.unknowns, name ∈ v.names := by
  obtain ⟨text, is_formula, formula, read, mentioned⟩ := used
  obtain ⟨formula', read', known⟩ := (good.isFormulaOver is_formula).readable
  obtain rfl : formula = formula' := Except.ok.inj (read.symm.trans read')
  obtain ⟨v, is_unknown, of_v⟩ := List.mem_flatMap.mp (known name mentioned)
  exact ⟨v, is_unknown, good.names_eq is_unknown ▸ of_v⟩

/-- In a payload that has a normal form two variables of other names share none exactly if neither is
called within the other. Every name that is used belongs to a variable, and to no other but such. -/
theorem names_have_owners {payload normal : Payload} (accepted : payload.normalize = .ok normal) :
    (∀ v ∈ payload.unknowns, ∀ w ∈ payload.unknowns, v.name ≠ w.name →
      (v.names.Disjoint w.names ↔ ¬ v.NamedWithin w ∧ ¬ w.NamedWithin v)) ∧
    ∀ name, payload.Uses name → ∃ v ∈ payload.unknowns, name ∈ v.names ∧
      ∀ w ∈ payload.unknowns, name ∈ w.names →
        w.name = v.name ∨ v.NamedWithin w ∨ w.NamedWithin v := by
  obtain ⟨good, -⟩ := (normalize_ok_iff payload normal).mp accepted
  have shared := fun v is_unknown w is_unknown' differ =>
    Variable.shares_iff (v := v) (w := w) differ (good.sensible v is_unknown)
      (good.sensible w is_unknown')
  constructor
  · intro v is_unknown w is_unknown' differ
    rw [good.names_eq is_unknown, good.names_eq is_unknown', ← not_or,
      ← shared v is_unknown w is_unknown' differ]
    exact ⟨fun apart ⟨text, of_v, of_w⟩ => apart of_v of_w,
      fun apart text of_v of_w => apart ⟨text, of_v, of_w⟩⟩
  · intro name used
    obtain ⟨v, is_unknown, of_v⟩ := good.exists_owner used
    refine ⟨v, is_unknown, of_v, fun w is_unknown' of_w => ?_⟩
    by_cases same : v.name = w.name
    · exact .inl same.symm
    · rw [good.names_eq is_unknown] at of_v
      rw [good.names_eq is_unknown'] at of_w
      exact .inr ((shared v is_unknown w is_unknown' same).mp ⟨name, of_v, of_w⟩)

/-- A row of two cells, and a variable besides. -/
def besideRow (name : String) : Payload where
  unknowns := [⟨"x", .array (.row 2) .binary⟩, ⟨name, .binary⟩]
  constraints := []
  objective := "x_1"
  answer := "x_1"

/-- Beside a variable of a name of its own, the cell belongs to the row alone. -/
theorem names_have_owners_row :
    (besideRow "y").normalize = .ok (besideRow "y") ∧ (besideRow "y").Uses "x_1" ∧
      ∃ v ∈ (besideRow "y").unknowns, "x_1" ∈ v.names ∧
        ∀ w ∈ (besideRow "y").unknowns, "x_1" ∈ w.names →
          w.name = v.name ∨ v.NamedWithin w ∨ w.NamedWithin v := by
  have accepted : (besideRow "y").normalize = .ok (besideRow "y") := rfl
  have used : (besideRow "y").Uses "x_1" :=
    ⟨"x_1", List.mem_cons_self, .reference "x_1", rfl, .reference⟩
  exact ⟨accepted, used, (names_have_owners accepted).2 "x_1" used⟩

/-- A variable that is called like a cell of the row is accepted beside it, and the cell's name is that
of both. -/
theorem cell_name_taken :
    (besideRow "x_1").normalize = .ok (besideRow "x_1") ∧ (besideRow "x_1").Uses "x_1" ∧
      ∃ v ∈ (besideRow "x_1").unknowns, ∃ w ∈ (besideRow "x_1").unknowns, v.name ≠ w.name ∧
        "x_1" ∈ v.names ∧ "x_1" ∈ w.names := by
  refine ⟨rfl, ⟨"x_1", List.mem_cons_self, .reference "x_1", rfl, .reference⟩, ?_⟩
  exact ⟨_, List.mem_cons_self, _, List.mem_cons_of_mem _ List.mem_cons_self, by decide, by decide,
    by decide⟩

end Tabletop.Payload
