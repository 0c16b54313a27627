import Tabletop.Proofs.Attempt
import Tabletop.Proofs.Payload.Names
import Tabletop.Proofs.Text.Trim

/-!
Which payloads have a normal form, and what it is. Each check is met by what it is meant to let
through and by nothing else, and the normal form differs from the payload in blanks only.
-/

namespace Tabletop.Payload

/-- Bounds do not cross, and a shape has cells. -/
def VariableKind.Sensible : VariableKind → Prop
  | .unary lower upper => lower ≤ upper
  | .array shape _ => 0 < shape.size
  | _ => True

/-- A text is, apart from blanks around it, a formula that mentions given names only. -/
structure IsFormulaOver (names : List String) (text : String) : Prop where
  filled : ¬ Text.Blank text
  readable : ∃ formula, Formula.read (Text.trimmed text) = .ok formula ∧
    ∀ name, formula.Mentions name → name ∈ names

/-- What a payload has to be like. The names of its variables are meant in full, and so are the bounds
on their number. -/
structure Acceptable (payload : Payload) : Prop where
  declares : payload.unknowns ≠ []
  named : ∀ v ∈ payload.unknowns, ¬ Text.Blank v.name
  sensible : ∀ v ∈ payload.unknowns, v.kind.Sensible
  each_within : ∀ v ∈ payload.unknowns, (v.kind.allNames v.name).length ≤ nameLimit
  all_within : payload.unknowns.allNames.length ≤ nameLimit
  objective : IsFormulaOver payload.unknowns.allNames payload.objective
  answer : IsFormulaOver payload.unknowns.allNames payload.answer
  constraints : ∀ constraint ∈ payload.constraints,
    IsFormulaOver payload.unknowns.allNames constraint.lhs
  finite : ∀ constraint ∈ payload.constraints, Number.isFinite constraint.rhs

def Constraint.trimmed (constraint : Constraint) : Constraint :=
  { constraint with lhs := Text.trimmed constraint.lhs }

/-- A payload with its formulas trimmed and nothing else changed. -/
def trimmed (payload : Payload) : Payload where
  unknowns := payload.unknowns
  constraints := payload.constraints.map Constraint.trimmed
  objective := Text.trimmed payload.objective
  answer := Text.trimmed payload.answer

@[simp] theorem malformed_ne_ok (field : Field) (reason : Malformation) (done : Unit) :
    malformed field reason ≠ .ok done := by
  intro told
  cases told

theorem checkVariable_ok_iff (v : Variable) :
    checkVariable v = .ok () ↔
      ¬ Text.Blank v.name ∧ v.kind.Sensible ∧ v.kind.size ≤ nameLimit := by
  obtain ⟨name, kind⟩ := v
  rw [checkVariable, ← Text.trimmed_eq_empty_iff]
  by_cases blank : Text.trimmed name = ""
  · simp [blank]
  · cases kind with
    | binary | spin => simp [blank, VariableKind.Sensible]
    | unary lower upper => simp [blank, VariableKind.Sensible, ite_eq_iff]
    | array shape element => simp [blank, VariableKind.Sensible, Nat.pos_iff_ne_zero, ite_eq_iff]

theorem checkVariables_ok_iff (unknowns : Variables) :
    checkVariables unknowns = .ok () ↔ ∀ v ∈ unknowns, checkVariable v = .ok () := by
  induction unknowns with
  | nil => simp [checkVariables]
  | cons v rest of_rest =>
    rw [checkVariables, List.forall_mem_cons, ← of_rest]
    cases checkVariable v with
    | error e => simp
    | ok result => simp

theorem nonBlank_ok_iff (field : Field) (text result : String) :
    nonBlank field text = .ok result ↔ ¬ Text.Blank text ∧ Text.trimmed text = result := by
  rw [nonBlank, ← Text.trimmed_eq_empty_iff]
  split
  · rename_i blank
    simp [blank]
  · rename_i filled
    simp [filled]

section

variable {declared : Names} {names : List String}

theorem checkFormula_ok_iff (same : ∀ name, name ∈ declared ↔ name ∈ names) (field : Field)
    (text : String) :
    checkFormula declared field text = .ok () ↔
      ∃ formula, Formula.read text = .ok formula ∧ ∀ name, formula.Mentions name → name ∈ names := by
  unfold checkFormula
  cases Formula.read text with
  | error e => simp
  | ok formula =>
    have missing : (formula.names.find? fun name => !declared.contains name) = none ↔
        ∀ name, formula.Mentions name → name ∈ names := by
      simp [List.find?_eq_none, Formula.mem_names_iff, same]
    simp only [Except.ok.injEq, exists_eq_left', ← missing]
    split
    · rename_i found
      simp [found]
    · rename_i found
      simp [found]

/-- The two checks of a formula's text are one condition on it. -/
theorem isFormulaOver_iff (same : ∀ name, name ∈ declared ↔ name ∈ names) (field : Field)
    (text : String) :
    IsFormulaOver names text ↔
      ¬ Text.Blank text ∧ checkFormula declared field (Text.trimmed text) = .ok () := by
  rw [checkFormula_ok_iff same]
  exact ⟨fun h => ⟨h.filled, h.readable⟩, fun h => ⟨h.1, h.2⟩⟩

theorem normalConstraint_ok_iff (same : ∀ name, name ∈ declared ↔ name ∈ names) (index : Nat)
    (constraint result : Constraint) :
    normalConstraint declared index constraint = .ok result ↔
      (IsFormulaOver names constraint.lhs ∧ Number.isFinite constraint.rhs) ∧
        constraint.trimmed = result := by
  rw [isFormulaOver_iff same (.constraint index), ← Text.trimmed_eq_empty_iff]
  unfold normalConstraint nonBlank
  cases Number.isFinite constraint.rhs with
  | false => simp
  | true =>
    by_cases blank : Text.trimmed constraint.lhs = ""
    · simp [blank]
    · simp only [blank, if_false]
      cases checkFormula declared (.constraint index) (Text.trimmed constraint.lhs) with
      | error e => simp
      | ok checked => simp [Constraint.trimmed]

theorem normalConstraints_ok_iff (same : ∀ name, name ∈ declared ↔ name ∈ names) (index : Nat)
    (constraints results : List Constraint) :
    normalConstraints declared index constraints = .ok results ↔
      (∀ constraint ∈ constraints,
        IsFormulaOver names constraint.lhs ∧ Number.isFinite constraint.rhs) ∧
        constraints.map Constraint.trimmed = results := by
  induction constraints generalizing index results with
  | nil => simp [normalConstraints]
  | cons constraint rest of_rest =>
    rw [normalConstraints, List.forall_mem_cons]
    constructor
    · intro accepted
      split at accepted
      · cases accepted
      · rename_i normal of_first
        split at accepted
        · rename_i normals of_others
          cases accepted
          obtain ⟨good, rfl⟩ := (normalConstraint_ok_iff same index constraint normal).mp of_first
          obtain ⟨others_good, rfl⟩ := (of_rest (index + 1) normals).mp of_others
          exact ⟨⟨good, others_good⟩, rfl⟩
        · cases accepted
    · rintro ⟨⟨good, others_good⟩, rfl⟩
      rw [(normalConstraint_ok_iff same index constraint _).mpr ⟨good, rfl⟩]
      rw [(of_rest (index + 1) _).mpr ⟨others_good, rfl⟩]
      rfl

end

/-- The checks in their order, each told apart from the others. -/
theorem normalize_ok_iff_checks (payload result : Payload) :
    payload.normalize = .ok result ↔
      payload.unknowns ≠ [] ∧ checkVariables payload.unknowns = .ok () ∧
        payload.unknowns.size ≤ nameLimit ∧
        ¬ Text.Blank payload.objective ∧ ¬ Text.Blank payload.answer ∧
        (let declared := Std.TreeSet.ofList payload.unknowns.declaredNames compare
        ∃ constraints, normalConstraints declared 0 payload.constraints = .ok constraints ∧
          checkFormula declared .objective (Text.trimmed payload.objective) = .ok () ∧
          checkFormula declared .answer (Text.trimmed payload.answer) = .ok () ∧
          ⟨payload.unknowns, constraints, Text.trimmed payload.objective,
            Text.trimmed payload.answer⟩ = result) := by
  unfold normalize
  by_cases nothing : payload.unknowns = []
  · simp only [nothing, List.isEmpty_nil, if_true, ne_eq, not_true, false_and, iff_false]
    intro accepted
    cases accepted
  · have some_declared : payload.unknowns.isEmpty = false := by simpa using nothing
    simp only [some_declared, Bool.false_eq_true, if_false, Except.bind_eq_ok_iff, ne_eq, nothing,
      not_false_eq_true, true_and]
    by_cases many : nameLimit < payload.unknowns.size
    · simp [many, Nat.not_le.mpr many, Except.bind_eq_ok_iff]
    · simp only [many, if_false, Except.bind_eq_ok_iff, nonBlank_ok_iff, Nat.not_lt.mp many, true_and]
      constructor
      · rintro ⟨_, sensible, _, ⟨objective_filled, rfl⟩, _, ⟨answer_filled, rfl⟩, constraints, read,
          _, objective_read, _, answer_read, ⟨⟩⟩
        exact ⟨sensible, objective_filled, answer_filled, constraints, read, objective_read,
          answer_read, rfl⟩
      · rintro ⟨sensible, objective_filled, answer_filled, constraints, read, objective_read,
          answer_read, rfl⟩
        exact ⟨_, sensible, _, ⟨objective_filled, rfl⟩, _, ⟨answer_filled, rfl⟩, constraints, read,
          _, objective_read, _, answer_read, rfl⟩

/-- Checked variables declare all the names that they stand for. -/
theorem mem_declared_iff {unknowns : Variables} (checked : checkVariables unknowns = .ok ())
    (name : String) :
    name ∈ Std.TreeSet.ofList unknowns.declaredNames compare ↔ name ∈ unknowns.allNames := by
  have each_within : ∀ v ∈ unknowns, v.kind.size ≤ nameLimit := by
    intro v is_unknown
    have of_v := (checkVariables_ok_iff unknowns).mp checked v is_unknown
    exact ((checkVariable_ok_iff v).mp of_v).2.2
  rw [Std.TreeSet.mem_ofList, unknowns.declaredNames_eq each_within, List.contains_iff_mem]

theorem Acceptable.checked {payload : Payload} (good : Acceptable payload) :
    checkVariables payload.unknowns = .ok () := by
  refine (checkVariables_ok_iff _).mpr fun v is_unknown => (checkVariable_ok_iff v).mpr ?_
  have within := good.each_within v is_unknown
  rw [VariableKind.length_allNames] at within
  exact ⟨good.named v is_unknown, good.sensible v is_unknown, within⟩

theorem normalize_ok_iff (payload result : Payload) :
    payload.normalize = .ok result ↔ Acceptable payload ∧ payload.trimmed = result := by
  rw [normalize_ok_iff_checks]
  constructor
  · rintro ⟨declares, checked, within, objective_filled, answer_filled, constraints, read,
      objective_read, answer_read, rfl⟩
    have same := mem_declared_iff checked
    obtain ⟨constraints_good, rfl⟩ := (normalConstraints_ok_iff same 0 _ _).mp read
    have each := fun v is_unknown =>
      (checkVariable_ok_iff v).mp ((checkVariables_ok_iff _).mp checked v is_unknown)
    exact ⟨{
      declares
      named := fun v is_unknown => (each v is_unknown).1
      sensible := fun v is_unknown => (each v is_unknown).2.1
      each_within := fun v is_unknown => by
        rw [VariableKind.length_allNames]
        exact (each v is_unknown).2.2
      all_within := by rwa [Variables.length_allNames]
      objective := (isFormulaOver_iff same _ _).mpr ⟨objective_filled, objective_read⟩
      answer := (isFormulaOver_iff same _ _).mpr ⟨answer_filled, answer_read⟩
      constraints := fun constraint is_one => (constraints_good constraint is_one).1
      finite := fun constraint is_one => (constraints_good constraint is_one).2 }, rfl⟩
  · rintro ⟨good, rfl⟩
    -- the variables come first: only once they are checked are the declared names all of the names
    have same := mem_declared_iff good.checked
    have within := good.all_within
    rw [Variables.length_allNames] at within
    have objective := (isFormulaOver_iff same .objective _).mp good.objective
    have answer := (isFormulaOver_iff same .answer _).mp good.answer
    have constraints := (normalConstraints_ok_iff same 0 payload.constraints _).mpr
      ⟨fun constraint is_one => ⟨good.constraints constraint is_one, good.finite constraint is_one⟩,
        rfl⟩
    exact ⟨good.declares, good.checked, within, objective.1, answer.1, _, constraints, objective.2,
      answer.2, rfl⟩

theorem trimmed_trimmed (payload : Payload) : payload.trimmed.trimmed = payload.trimmed := by
  simp [trimmed, Constraint.trimmed]

theorem isFormulaOver_trimmed {names : List String} {text : String}
    (good : IsFormulaOver names text) : IsFormulaOver names (Text.trimmed text) where
  filled := by simpa using good.filled
  readable := by simpa using good.readable

theorem Acceptable.trimmed {payload : Payload} (good : Acceptable payload) :
    Acceptable payload.trimmed where
  declares := good.declares
  named := good.named
  sensible := good.sensible
  each_within := good.each_within
  all_within := good.all_within
  objective := isFormulaOver_trimmed good.objective
  answer := isFormulaOver_trimmed good.answer
  constraints := by
    rintro _ is_trimmed
    obtain ⟨constraint, is_one, rfl⟩ := List.mem_map.mp is_trimmed
    exact isFormulaOver_trimmed (good.constraints constraint is_one)
  finite := by
    rintro _ is_trimmed
    obtain ⟨constraint, is_one, rfl⟩ := List.mem_map.mp is_trimmed
    exact good.finite constraint is_one

/-- A normal form is its own. -/
theorem normalize_of_normalize {payload normal : Payload}
    (accepted : payload.normalize = .ok normal) : normal.normalize = .ok normal := by
  obtain ⟨good, rfl⟩ := (normalize_ok_iff _ _).mp accepted
  exact (normalize_ok_iff _ _).mpr ⟨good.trimmed, trimmed_trimmed payload⟩

/-- A payload has a normal form if and only if it is acceptable. The form has only the formulas
trimmed, and it is its own normal form. -/
theorem normal_form_exact (payload normal : Payload) :
    (payload.normalize = .ok normal ↔ Acceptable payload ∧ normal = payload.trimmed) ∧
      (payload.normalize = .ok normal → normal.normalize = .ok normal) := by
  rw [normalize_ok_iff, eq_comm (a := normal)]
  refine ⟨Iff.rfl, ?_⟩
  rintro ⟨good, rfl⟩
  exact (normalize_ok_iff _ _).mpr ⟨good.trimmed, trimmed_trimmed payload⟩

end Tabletop.Payload
