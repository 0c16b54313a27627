import Tabletop.Payload.Wire
import Tabletop.Proofs.Json.Sorted
import Tabletop.Proofs.Payload.Normal
import Tabletop.Proofs.Json.Float
import Tabletop.Proofs.Number.Whole

/-!
Payloads and their JSON text. What is written of each part is read back as the part, whichever order
the fields of objects stand in.
-/

namespace Tabletop

namespace Json

@[simp] theorem sorted_str (value : String) : sorted (.str value) = .str value := rfl

@[simp] theorem sorted_int (value : Int) : sorted (.int value) = .int value := rfl

section Order

variable {fields : List (String × Json)} (distinct : (namesOf fields).Nodup)
include distinct

/-- A record is the same whichever order its fields stand in. -/
theorem record?_object (names : List String) :
    (object fields).record? names = (Json.obj fields).record? names := by
  have same := byName_perm fields
  rw [object_of_nodup distinct]
  simp only [record?, occurrencesOf, same.countP_eq, lookup_of_perm same distinct]
  rfl

theorem typeName?_object :
    Payload.VariableKind.typeName? (object fields) = Payload.VariableKind.typeName? (.obj fields) := by
  have found := field?_object distinct "type"
  rw [object_of_nodup distinct] at found ⊢
  simp only [Payload.VariableKind.typeName?, found]
  rfl

end Order
end Json

namespace Payload

open Json

section Kinds

/-- The bounds of an integer variable are integers of 64 bits. -/
def VariableKind.Bounded : VariableKind → Prop
  | .unary lower upper =>
    (-2 ^ 63 ≤ lower ∧ lower < 2 ^ 63) ∧ -2 ^ 63 ≤ upper ∧ upper < 2 ^ 63
  | _ => True

/-- The measures of a shape are counts of 64 bits. -/
def Shape.Bounded : Shape → Prop
  | .row length => length < 2 ^ 64
  | .grid rows columns => rows < 2 ^ 64 ∧ columns < 2 ^ 64

theorem Shape.bounded_of_size {shape : Shape} (some_cell : 0 < shape.size)
    (within : shape.size ≤ nameLimit) : shape.Bounded := by
  cases shape with
  | row length => exact Nat.lt_of_le_of_lt within (by decide)
  | grid rows columns =>
    obtain ⟨some_rows, some_columns⟩ : 0 < rows ∧ 0 < columns := by
      simpa [size, Nat.pos_iff_ne_zero, Nat.mul_eq_zero, not_or] using some_cell
    have few_rows : rows ≤ nameLimit := (Nat.le_mul_of_pos_right rows some_columns).trans within
    have few_columns : columns ≤ nameLimit := (Nat.le_mul_of_pos_left columns some_rows).trans within
    exact ⟨Nat.lt_of_le_of_lt few_rows (by decide), Nat.lt_of_le_of_lt few_columns (by decide)⟩

theorem signed64?_int {value : Int} (low : -2 ^ 63 ≤ value) (high : value < 2 ^ 63) :
    (Json.int value).signed64? = some value := by
  have low : -(Nat.pow 2 63 : Int) ≤ value := low
  have high : value < (Nat.pow 2 63 : Int) := high
  simp only [signed64?, intWithin?, low, high, and_self, if_true]

theorem Shape.ofJson?_toJson {shape : Shape} (bounded : shape.Bounded) :
    Shape.ofJson? shape.toJson = some shape := by
  cases shape with
  | row length => simp [toJson, ofJson?, unsigned?_int bounded]
  | grid rows columns => simp [toJson, ofJson?, unsigned?_int bounded.1, unsigned?_int bounded.2]

/-- A kind that can be written: its bounds and its measures are of 64 bits. -/
def VariableKind.Representable (kind : VariableKind) : Prop :=
  kind.Bounded ∧ match kind with
    | .array shape _ => shape.Bounded
    | _ => True

theorem VariableKind.ofJson?_toJson {kind : VariableKind} (fits : kind.Representable) :
    VariableKind.ofJson? kind.toJson = some kind := by
  cases kind with
  | binary => rfl
  | spin => rfl
  | unary lower upper =>
    obtain ⟨⟨⟨low, low_high⟩, high_low, high⟩, _⟩ := fits
    have found : (toJson (.unary lower upper)).record? ["type", "lower", "upper"] =
        some [some (.str "Unary"), some (.int lower), some (.int upper)] := rfl
    have type : typeName? (toJson (.unary lower upper)) = some "Unary" := rfl
    simp [ofJson?, type, found, unaryOf?, signed64?_int low low_high, signed64?_int high_low high]
  | array shape element =>
    have found : (toJson (.array shape element)).record? ["type", "shape", "vartype"] =
        some [some (.str "Array"), some shape.toJson, some (.str element.name)] := rfl
    have type : typeName? (toJson (.array shape element)) = some "Array" := rfl
    have named : ElementType.ofName? element.name = some element := by cases element <;> rfl
    simp [ofJson?, type, found, arrayOf?, Shape.ofJson?_toJson fits.2, nameOrEmpty?, name?, named]

/-- The fields of a kind's record. -/
def VariableKind.fields : VariableKind → List (String × Json)
  | binary => [("type", .str "Binary")]
  | spin => [("type", .str "Spin")]
  | unary lower upper => [("type", .str "Unary"), ("lower", .int lower), ("upper", .int upper)]
  | array shape element =>
    [("type", .str "Array"), ("shape", shape.toJson), ("vartype", .str element.name)]

theorem VariableKind.toJson_eq (kind : VariableKind) : kind.toJson = .obj kind.fields := by
  cases kind <;> rfl

theorem VariableKind.fields_distinct (kind : VariableKind) : (namesOf kind.fields).Nodup := by
  cases kind with
  | binary | spin => exact List.nodup_singleton "type"
  | unary lower upper =>
    change ["type", "lower", "upper"].Nodup
    decide
  | array shape element =>
    change ["type", "shape", "vartype"].Nodup
    decide

/-- There is nothing to sort inside of a kind's fields. -/
theorem VariableKind.sorted_toJson (kind : VariableKind) :
    kind.toJson.sorted = object kind.fields := by
  cases kind with
  | binary | spin | unary => simp [toJson, fields]
  | array shape element => cases shape <;> simp [toJson, fields, Shape.toJson]

/-- A kind is read from its record, whichever order the fields stand in. -/
theorem VariableKind.ofJson?_sorted {kind : VariableKind} (fits : kind.Representable) :
    VariableKind.ofJson? kind.toJson.sorted = some kind := by
  rw [← ofJson?_toJson fits, sorted_toJson, toJson_eq]
  simp only [ofJson?, typeName?_object kind.fields_distinct, record?_object kind.fields_distinct]

end Kinds

section Unknowns

/-- Declaring a new name puts the variable behind the others. -/
theorem Variables.declare_of_forall_ne {unknowns : Variables} {name : String}
    (new : ∀ v ∈ unknowns, v.name ≠ name) (kind : VariableKind) :
    declare unknowns name kind = unknowns ++ [⟨name, kind⟩] := by
  induction unknowns with
  | nil => rfl
  | cons first rest of_rest =>
    have other : first.name ≠ name := new first (by simp)
    rw [declare, if_neg other, of_rest fun v is_one => new v (by simp [is_one])]
    rfl

/-- Fields with distinct names declare a variable each, in their order. -/
theorem Variables.ofFields?_of_nodup (before : Variables) {unknowns : Variables}
    {json : Variable → Json}
    (readable : ∀ v ∈ unknowns, VariableKind.ofJson? (json v) = some v.kind)
    (distinct : ((before ++ unknowns).map Variable.name).Nodup) :
    ofFields? before (unknowns.map fun v => (v.name, json v)) = some (before ++ unknowns) := by
  induction unknowns generalizing before with
  | nil => simp [ofFields?]
  | cons v rest of_rest =>
    have new : ∀ earlier ∈ before, earlier.name ≠ v.name := by
      intro earlier is_earlier same
      rw [List.map_append, List.nodup_append] at distinct
      exact distinct.2.2 _ (List.mem_map_of_mem is_earlier) _ (by simp) same
    have rest_readable : ∀ later ∈ rest, VariableKind.ofJson? (json later) = some later.kind :=
      fun later is_later => readable later (by simp [is_later])
    have rest_distinct : ((before ++ [v] ++ rest).map Variable.name).Nodup := by simpa using distinct
    rw [List.map_cons, ofFields?, readable v (by simp)]
    simp only [declare_of_forall_ne new]
    rw [of_rest _ rest_readable rest_distinct]
    simp

theorem Variables.ofJson?_toJson {unknowns : Variables}
    (fit : ∀ v ∈ unknowns, v.kind.Representable)
    (distinct : (unknowns.map Variable.name).Nodup) :
    Variables.ofJson? unknowns.toJson = some unknowns :=
  ofFields?_of_nodup [] (fun v is_one => VariableKind.ofJson?_toJson (fit v is_one))
    distinct

end Unknowns

section Constraints

theorem Comparator.read?_text (comparison : Comparator) :
    Comparator.read? comparison.text = some comparison := by
  cases comparison <;> rfl

/-- A constraint whose number is zero without a sign if it is zero. -/
def Constraint.withoutMinusZero (constraint : Constraint) : Constraint :=
  { constraint with rhs := if constraint.rhs == 0 then 0 else constraint.rhs }

theorem float?_ofNumber {x : Float} (finite : Number.isFinite x) :
    (Json.ofNumber x).float? = some (if x == 0 then 0 else x) := by
  unfold Json.ofNumber
  split
  · rename_i n small
    rw [float?, Number.ofInt_of_smallInt? small]
  · rename_i large
    simp [finite, float?, Number.ne_zero_of_smallInt?_none large]

/-- The fields of a constraint's record. -/
def Constraint.fields (constraint : Constraint) : List (String × Json) :=
  [("lhs", .str constraint.lhs), ("comparison", .str constraint.comparison.text),
    ("rhs", .ofNumber constraint.rhs)]

theorem Constraint.fields_distinct (constraint : Constraint) :
    (namesOf constraint.fields).Nodup := by
  change ["lhs", "comparison", "rhs"].Nodup
  decide

@[simp] theorem sorted_ofNumber (x : Float) : (Json.ofNumber x).sorted = Json.ofNumber x := by
  unfold Json.ofNumber
  split
  · rfl
  · split <;> rfl

theorem Constraint.sorted_toJson (constraint : Constraint) :
    constraint.toJson.sorted = object constraint.fields := by
  simp [toJson, fields]

theorem Constraint.ofJson_sorted {constraint : Constraint}
    (finite : Number.isFinite constraint.rhs) :
    Constraint.ofJson constraint.toJson.sorted = .ok constraint.withoutMinusZero := by
  have fields_found (name : String) := field?_object constraint.fields_distinct name
  rw [sorted_toJson]
  rw [object_of_nodup constraint.fields_distinct] at fields_found ⊢
  have lhs : constraint.fields.lookup "lhs" = some (.str constraint.lhs) := rfl
  have comparison : constraint.fields.lookup "comparison" =
    some (.str constraint.comparison.text) := rfl
  have rhs : constraint.fields.lookup "rhs" = some (.ofNumber constraint.rhs) := rfl
  simp only [ofJson, fields_found, lhs, comparison, rhs, ofFields, comparisonOf,
    Comparator.read?_text, Option.bind_some, str?, float?_ofNumber finite, withoutMinusZero]

theorem Constraint.listOfJson_sorted {constraints : List Constraint}
    (finite : ∀ constraint ∈ constraints, Number.isFinite constraint.rhs) (index : Nat) :
    Constraint.listOfJson index (constraints.map fun constraint => constraint.toJson.sorted) =
      .ok (constraints.map Constraint.withoutMinusZero) := by
  induction constraints generalizing index with
  | nil => rfl
  | cons constraint rest of_rest =>
    have rest_finite : ∀ later ∈ rest, Number.isFinite later.rhs :=
      fun later is_later => finite later (by simp [is_later])
    simp only [List.map_cons, listOfJson, ofJson_sorted (finite constraint (by simp)),
      of_rest rest_finite]

end Constraints

section Writable

/-- Numbers of constraints are written as integers or in full, and are read back either way. -/
theorem writable_ofNumber {x : Float} (finite : Number.isFinite x) (levels : Nat) :
    Writable levels (Json.ofNumber x) := by
  unfold Json.ofNumber
  split
  · rename_i n small
    obtain ⟨low, high⟩ := Number.smallInt?_bound small
    exact .int (by omega) (by omega)
  · rename_i large
    rw [if_pos finite]
    exact .float (Json.reads_float finite)

theorem writable_count {count : Nat} (bounded : count < 2 ^ 64) (levels : Nat) :
    Writable levels (.int count) :=
  .int (by omega) (by exact_mod_cast bounded)

theorem Shape.writable {shape : Shape} (bounded : shape.Bounded) (levels : Nat) :
    Writable (levels + 1) shape.toJson := by
  cases shape with
  | row length => exact writable_count bounded _
  | grid rows columns =>
    refine .arr ?_
    simp only [List.mem_cons, List.not_mem_nil, or_false, forall_eq_or_imp, forall_eq]
    exact ⟨writable_count bounded.1 _, writable_count bounded.2 _⟩

theorem VariableKind.writable {kind : VariableKind} (fits : kind.Representable) (levels : Nat) :
    Writable (levels + 2) kind.toJson := by
  rw [toJson_eq]
  refine .obj ?_
  cases kind with
  | binary | spin =>
    simp only [fields, List.mem_cons, List.not_mem_nil, or_false, forall_eq]
    exact .str _
  | unary lower upper =>
    obtain ⟨⟨⟨low, low_high⟩, high_low, high⟩, _⟩ := fits
    simp only [fields, List.mem_cons, List.not_mem_nil, or_false, forall_eq_or_imp, forall_eq]
    exact ⟨.str _, .int low (by omega), .int high_low (by omega)⟩
  | array shape element =>
    simp only [fields, List.mem_cons, List.not_mem_nil, or_false, forall_eq_or_imp, forall_eq]
    exact ⟨.str _, shape.writable fits.2 levels, .str _⟩

theorem Constraint.writable {constraint : Constraint} (finite : Number.isFinite constraint.rhs)
    (levels : Nat) : Writable (levels + 1) constraint.toJson := by
  refine .obj ?_
  simp only [List.mem_cons, List.not_mem_nil, or_false, forall_eq_or_imp, forall_eq]
  exact ⟨.str _, .str _, writable_ofNumber finite levels⟩

theorem writable_toJson {payload : Payload} (fit : ∀ v ∈ payload.unknowns, v.kind.Representable)
    (finite : ∀ constraint ∈ payload.constraints, Number.isFinite constraint.rhs) (levels : Nat) :
    Writable (levels + 4) payload.toJson := by
  have unknowns : Writable (levels + 3) payload.unknowns.toJson := by
    refine .obj fun field is_field => ?_
    obtain ⟨v, is_unknown, rfl⟩ := List.mem_map.mp is_field
    exact VariableKind.writable (fit v is_unknown) levels
  have constraints : Writable (levels + 3) (.arr (payload.constraints.map Constraint.toJson)) := by
    refine .arr fun item is_item => ?_
    obtain ⟨constraint, is_one, rfl⟩ := List.mem_map.mp is_item
    exact Constraint.writable (finite constraint is_one) (levels + 1)
  refine .obj ?_
  simp only [List.mem_cons, List.not_mem_nil, or_false, forall_eq_or_imp, forall_eq]
  exact ⟨unknowns, constraints, .str _, .str _⟩

end Writable

section Fields

/-- The fields of a payload's record. -/
def fields (payload : Payload) : List (String × Json) :=
  [("variables", payload.unknowns.toJson),
    ("Constraints", .arr (payload.constraints.map Constraint.toJson)),
    ("Objective", .str payload.objective), ("Return", .str payload.answer)]

theorem form_seesAll (payload : Payload) : form.SeesAll payload.toJson := by
  intro field is_field
  simp only [List.mem_cons, List.not_mem_nil, or_false] at is_field
  rcases is_field with rfl | rfl | rfl | rfl
  all_goals rfl

theorem fieldsOf?_toJson (payload : Payload) : fieldsOf? payload.toJson =
    some [payload.unknowns.toJson, .arr (payload.constraints.map Constraint.toJson),
      .str payload.objective, .str payload.answer] := rfl

/-- What reading a payload's text comes to, once its JSON text is read. -/
theorem normalizeText_of_fields {text : String} {json : Json} {unknowns : Variables}
    {unknowns_json constraints_json : Json} {constraints : List Constraint}
    {objective answer : String} (read : readAs? form text = some json)
    (found : fieldsOf? json =
      some [unknowns_json, constraints_json, .str objective, .str answer])
    (declared : Variables.ofJson? unknowns_json = some unknowns)
    (listed : constraints_json.sorted =
      .arr (constraints.map fun constraint => constraint.toJson.sorted))
    (finite : ∀ constraint ∈ constraints, Number.isFinite constraint.rhs) :
    normalizeText text =
      normalize ⟨unknowns, constraints.map Constraint.withoutMinusZero, objective, answer⟩ := by
  have not_null : unknowns_json.isNull = false := by
    cases unknowns_json with
    | null => cases declared
    | _ => rfl
  have raw : rawFields? text = some (unknowns, constraints_json.sorted, .str objective,
      .str answer) := by
    simp [rawFields?, read, found, not_null, declared]
  simp only [normalizeText, raw, listed, array?, Option.getD_some,
    Constraint.listOfJson_sorted finite, formulaOf]
  rfl

/-- A payload whose numbers have no sign on zero. -/
def withoutMinusZero (payload : Payload) : Payload :=
  { payload with constraints := payload.constraints.map Constraint.withoutMinusZero }

theorem Acceptable.withoutMinusZero {payload : Payload} (good : Acceptable payload) :
    Acceptable payload.withoutMinusZero where
  declares := good.declares
  named := good.named
  sensible := good.sensible
  each_within := good.each_within
  all_within := good.all_within
  objective := good.objective
  answer := good.answer
  constraints := by
    rintro _ is_changed
    obtain ⟨constraint, is_one, rfl⟩ := List.mem_map.mp is_changed
    exact good.constraints constraint is_one
  finite := by
    rintro _ is_changed
    obtain ⟨constraint, is_one, rfl⟩ := List.mem_map.mp is_changed
    unfold Constraint.withoutMinusZero
    dsimp only
    split
    · exact Number.scaled_zero.1.1
    · exact good.finite constraint is_one

/-- A normal form stays one without the signs of zeros. -/
theorem normalize_withoutMinusZero {payload : Payload} (normal : payload.normalize = .ok payload) :
    payload.withoutMinusZero.normalize = .ok payload.withoutMinusZero := by
  obtain ⟨good, trimmed⟩ := (normalize_ok_iff _ _).mp normal
  refine (normalize_ok_iff _ _).mpr ⟨good.withoutMinusZero, ?_⟩
  have same_constraints : payload.constraints.map Constraint.trimmed = payload.constraints :=
    congrArg constraints trimmed
  have same_objective : Text.trimmed payload.objective = payload.objective :=
    congrArg objective trimmed
  have same_answer : Text.trimmed payload.answer = payload.answer := congrArg answer trimmed
  have same_each : (payload.constraints.map Constraint.withoutMinusZero).map Constraint.trimmed =
      payload.constraints.map Constraint.withoutMinusZero := by
    rw [List.map_map]
    nth_rewrite 2 [← same_constraints]
    rw [List.map_map]
    rfl
  simp [Payload.trimmed, Payload.withoutMinusZero, same_each, same_objective, same_answer]

/-- Accepted variables have kinds that can be written if their bounds can. -/
theorem Acceptable.representable {payload : Payload} (good : Acceptable payload)
    (bounded : ∀ v ∈ payload.unknowns, v.kind.Bounded) :
    ∀ v ∈ payload.unknowns, v.kind.Representable := by
  intro v is_unknown
  refine ⟨bounded v is_unknown, ?_⟩
  have sensible := good.sensible v is_unknown
  have within := good.each_within v is_unknown
  rw [VariableKind.length_allNames] at within
  split
  · rename_i shape element is_array
    rw [is_array] at sensible within
    exact Shape.bounded_of_size sensible within
  · trivial

/-- The text of a normal form is read as the normal form, zeros without signs. -/
theorem normalizeText_text {payload normal : Payload} (accepted : payload.normalize = .ok normal)
    (distinct : (normal.unknowns.map Variable.name).Nodup)
    (bounded : ∀ v ∈ normal.unknowns, v.kind.Bounded) :
    normalizeText normal.text = .ok normal.withoutMinusZero := by
  have is_normal := normalize_of_normalize accepted
  have good : Acceptable normal := ((normalize_ok_iff _ _).mp is_normal).1
  have fit := good.representable bounded
  have read : readAs? form normal.text = some normal.toJson :=
    readAs?_compact (writable_toJson fit good.finite 123) (.of_seesAll (form_seesAll normal))
  rw [normalizeText_of_fields read (fieldsOf?_toJson normal)
    (Variables.ofJson?_toJson fit distinct) (by simp) good.finite]
  exact normalize_withoutMinusZero is_normal

end Fields

section RoundTrip

theorem withoutMinusZero_eq {payload : Payload}
    (plus : ∀ constraint ∈ payload.constraints, constraint.rhs ≠ -0.0) :
    payload.withoutMinusZero = payload := by
  have each : payload.constraints.map Constraint.withoutMinusZero = payload.constraints := by
    refine (List.map_congr_left fun constraint is_one => ?_).trans (List.map_id _)
    unfold Constraint.withoutMinusZero
    split
    · rename_i zero
      rw [← Number.eq_zero_of_beq zero (plus constraint is_one)]
      rfl
    · rfl
  rw [withoutMinusZero, each]

/-- A normal form whose names are distinct is sent as a text that reads back as the normal form. Only a
minus zero among its numbers becomes zero. -/
theorem normal_text_round_trip {payload normal : Payload} (accepted : payload.normalize = .ok normal)
    (distinct : (normal.unknowns.map Variable.name).Nodup)
    (bounded : ∀ v ∈ normal.unknowns, v.kind.Bounded) :
    normalizeText normal.text = .ok normal.withoutMinusZero ∧
      ((∀ constraint ∈ normal.constraints, constraint.rhs ≠ -0.0) →
        normalizeText normal.text = .ok normal) := by
  have read := normalizeText_text accepted distinct bounded
  refine ⟨read, fun plus => ?_⟩
  rw [read, withoutMinusZero_eq plus]

/-- Variables of every kind, with numbers that are written as integers, as fractions and with an
exponent. -/
def everyKind : Payload where
  unknowns := [⟨"z", .binary⟩, ⟨"сила", .spin⟩, ⟨"n", .unary (-2) 3⟩, ⟨"a", .array (.row 2) .spin⟩,
    ⟨"b \"c\"", .array (.grid 2 2) .binary⟩]
  constraints := [⟨"z + n", .le, -0.0⟩, ⟨"a_0", .ge, 0.1⟩, ⟨"a_1", .eq, 2.5e20⟩, ⟨"z", .eq, 12⟩]
  objective := "z * n"
  answer := "a_0"

theorem everyKind_round_trip : everyKind.normalize = .ok everyKind ∧
    (everyKind.unknowns.map Variable.name).Nodup ∧ (∀ v ∈ everyKind.unknowns, v.kind.Bounded) ∧
      normalizeText everyKind.text = .ok everyKind.withoutMinusZero := by
  have accepted : everyKind.normalize = .ok everyKind := rfl
  have distinct : (everyKind.unknowns.map Variable.name).Nodup := by decide
  have bounded : ∀ v ∈ everyKind.unknowns, v.kind.Bounded := by
    simp [everyKind, VariableKind.Bounded]
  exact ⟨accepted, distinct, bounded, (normal_text_round_trip accepted distinct bounded).1⟩

end RoundTrip
end Payload
end Tabletop
