import Tabletop.Payload.Normal
import Mathlib.Data.List.Range

/-!
The names that a formula mentions and those that variables stand for, without a limit. Up to the limit
these are the names that variables declare.
-/

namespace Tabletop.Payload

namespace Formula

/-- A formula refers to a name somewhere in it. -/
inductive Mentions (name : String) : Formula → Prop where
  | reference : Mentions name (.reference name)
  | neg {inner : Formula} (inside : Mentions name inner) : Mentions name (.neg inner)
  | firstTerm {first : Formula} {rest : List (Joining × Formula)} (inside : Mentions name first) :
    Mentions name (.sum first rest)
  | laterTerm {first : Formula} {rest : List (Joining × Formula)} {joining : Joining}
    {term : Formula} (is_term : (joining, term) ∈ rest) (inside : Mentions name term) :
    Mentions name (.sum first rest)
  | firstFactor {first : Formula} {rest : List (Scaling × Formula)}
    (inside : Mentions name first) : Mentions name (.product first rest)
  | laterFactor {first : Formula} {rest : List (Scaling × Formula)} {scaling : Scaling}
    {factor : Formula} (is_factor : (scaling, factor) ∈ rest) (inside : Mentions name factor) :
    Mentions name (.product first rest)
  | base {base exponent : Formula} (inside : Mentions name base) :
    Mentions name (.power base exponent)
  | exponent {base exponent : Formula} (inside : Mentions name exponent) :
    Mentions name (.power base exponent)

section

variable {name : String}

theorem mentions_reference_iff {other : String} :
    Mentions name (.reference other) ↔ name = other :=
  ⟨fun | .reference => rfl, fun | rfl => .reference⟩

theorem mentions_neg_iff {inner : Formula} : Mentions name (.neg inner) ↔ Mentions name inner :=
  ⟨fun | .neg inside => inside, .neg⟩

theorem mentions_sum_iff {first : Formula} {rest : List (Joining × Formula)} :
    Mentions name (.sum first rest) ↔
      Mentions name first ∨ ∃ joined ∈ rest, Mentions name joined.2 := by
  constructor
  · intro inside
    cases inside with
    | firstTerm inside => exact .inl inside
    | laterTerm is_term inside => exact .inr ⟨_, is_term, inside⟩
  · rintro (inside | ⟨_, is_term, inside⟩)
    · exact .firstTerm inside
    · exact .laterTerm is_term inside

theorem mentions_product_iff {first : Formula} {rest : List (Scaling × Formula)} :
    Mentions name (.product first rest) ↔
      Mentions name first ∨ ∃ scaled ∈ rest, Mentions name scaled.2 := by
  constructor
  · intro inside
    cases inside with
    | firstFactor inside => exact .inl inside
    | laterFactor is_factor inside => exact .inr ⟨_, is_factor, inside⟩
  · rintro (inside | ⟨_, is_factor, inside⟩)
    · exact .firstFactor inside
    · exact .laterFactor is_factor inside

theorem mentions_power_iff {base exponent : Formula} :
    Mentions name (.power base exponent) ↔ Mentions name base ∨ Mentions name exponent := by
  constructor
  · intro inside
    cases inside with
    | base inside => exact .inl inside
    | exponent inside => exact .inr inside
  · rintro (inside | inside)
    · exact .base inside
    · exact .exponent inside

mutual
theorem mem_namesInto_iff (names : Names) (formula : Formula) :
    name ∈ namesInto names formula ↔ name ∈ names ∨ Mentions name formula := by
  match formula with
  | .number _ =>
    rw [namesInto]
    exact ⟨.inl, fun | .inl already => already⟩
  | .reference other =>
    rw [namesInto, Std.TreeSet.mem_insert, Std.LawfulEqCmp.compare_eq_iff_eq,
      mentions_reference_iff, or_comm, eq_comm]
  | .neg inner => rw [namesInto, mem_namesInto_iff names inner, mentions_neg_iff]
  | .sum first rest =>
    rw [namesInto, mem_namesOfTerms_iff _ rest, mem_namesInto_iff names first, mentions_sum_iff,
      or_assoc]
  | .product first rest =>
    rw [namesInto, mem_namesOfFactors_iff _ rest, mem_namesInto_iff names first,
      mentions_product_iff, or_assoc]
  | .power base exponent =>
    rw [namesInto, mem_namesInto_iff _ exponent, mem_namesInto_iff names base,
      mentions_power_iff, or_assoc]

theorem mem_namesOfTerms_iff (names : Names) (terms : List (Joining × Formula)) :
    name ∈ namesOfTerms names terms ↔
      name ∈ names ∨ ∃ joined ∈ terms, Mentions name joined.2 := by
  match terms with
  | [] => simp [namesOfTerms]
  | (_, term) :: rest =>
    rw [namesOfTerms, mem_namesOfTerms_iff _ rest, mem_namesInto_iff names term]
    simp only [List.mem_cons, exists_eq_or_imp, or_assoc]

theorem mem_namesOfFactors_iff (names : Names) (factors : List (Scaling × Formula)) :
    name ∈ namesOfFactors names factors ↔
      name ∈ names ∨ ∃ scaled ∈ factors, Mentions name scaled.2 := by
  match factors with
  | [] => simp [namesOfFactors]
  | (_, factor) :: rest =>
    rw [namesOfFactors, mem_namesOfFactors_iff _ rest, mem_namesInto_iff names factor]
    simp only [List.mem_cons, exists_eq_or_imp, or_assoc]
end

/-- The names listed for a formula are those that it mentions. -/
theorem mem_names_iff (formula : Formula) : name ∈ formula.names ↔ Mentions name formula := by
  rw [names, Std.TreeSet.mem_toList, mem_namesInto_iff]
  simp

end
end Formula

/-- Counting row by row meets every cell of every row in order. -/
theorem map_range_grid {α : Type} (rows columns : Nat) (cell : Nat → Nat → α) :
    (List.range (rows * columns)).map (fun i => cell (i / columns) (i % columns)) =
      (List.range rows).flatMap fun row => (List.range columns).map (cell row) := by
  induction rows with
  | zero => simp
  | succ rows before =>
    rw [Nat.succ_mul, List.range_add, List.map_append, before, List.range_succ,
      List.flatMap_append, List.flatMap_singleton, List.map_map]
    congr 1
    apply List.map_congr_left
    intro column is_column
    have inside : column < columns := List.mem_range.mp is_column
    have wide : 0 < columns := Nat.zero_lt_of_lt inside
    simp only [Function.comp_apply]
    rw [Nat.add_comm, Nat.add_mul_div_right _ _ wide, Nat.add_mul_mod_self_right,
      Nat.div_eq_of_lt inside, Nat.mod_eq_of_lt inside, Nat.zero_add]

namespace VariableKind

/-- Every name that a variable stands for, however many there are. -/
def allNames (kind : VariableKind) (name : String) : List String :=
  match kind with
  | binary | spin => [name]
  | unary lower upper =>
    name :: (List.range (upper - lower + 1).toNat).map fun i => s!"{name}[{i}]"
  | array (.row length) _ => (List.range length).map fun i => s!"{name}_{i}"
  | array (.grid rows columns) _ =>
    (List.range rows).flatMap fun row => (List.range columns).map fun column =>
      s!"{name}_{row}_{column}"

theorem allNames_array (shape : Shape) (element : ElementType) (name : String) :
    (array shape element).allNames name = (List.range shape.size).map (shape.cellName name) := by
  cases shape with
  | row length => rfl
  | grid rows columns =>
    exact (map_range_grid rows columns fun row column => s!"{name}_{row}_{column}").symm

/-- The size of a kind is the exact number of its names. -/
theorem length_allNames (kind : VariableKind) (name : String) :
    (kind.allNames name).length = kind.size := by
  cases kind with
  | binary | spin => rfl
  | unary lower upper => simp [allNames, size]
  | array shape element => simp [allNames_array, size]

/-- A variable of no more names than the limit declares all of them. -/
theorem declaredNames_eq (kind : VariableKind) (name : String) (within : kind.size ≤ nameLimit) :
    kind.declaredNames name = kind.allNames name := by
  cases kind with
  | binary | spin => rfl
  | unary lower upper =>
    have members : (upper - lower + 1).toNat ≤ nameLimit - 1 := Nat.le_sub_of_add_le within
    simp only [declaredNames, size, Nat.add_sub_cancel, Nat.min_eq_left members, allNames]
  | array shape element =>
    have cells : shape.size ≤ nameLimit := within
    simp only [declaredNames, selectors, Nat.min_eq_left cells, allNames_array]

end VariableKind

namespace Variables

/-- Every name that some variable stands for. -/
def allNames (unknowns : Variables) : List String :=
  unknowns.flatMap fun v => v.kind.allNames v.name

theorem length_allNames (unknowns : Variables) : unknowns.allNames.length = unknowns.size := by
  induction unknowns with
  | nil => rfl
  | cons v rest of_rest =>
    have split : allNames (v :: rest) = v.kind.allNames v.name ++ allNames rest := rfl
    rw [split, List.length_append, of_rest, VariableKind.length_allNames]
    rfl

theorem size_le_of_mem {unknowns : Variables} {v : Variable} (is_unknown : v ∈ unknowns) :
    (v.kind.allNames v.name).length ≤ unknowns.allNames.length := by
  have is_one : v.kind.allNames v.name ∈ unknowns.map fun v => v.kind.allNames v.name :=
    List.mem_map_of_mem is_unknown
  rw [allNames, List.flatMap_def]
  exact (List.sublist_flatten_of_mem is_one).length_le

theorem declaredNames_eq (unknowns : Variables)
    (within : ∀ v ∈ unknowns, v.kind.size ≤ nameLimit) :
    unknowns.declaredNames = unknowns.allNames :=
  List.flatMap_congr fun v is_unknown => v.kind.declaredNames_eq v.name (within v is_unknown)

end Variables
end Tabletop.Payload
