import Tabletop.Proofs.Number.Sums
import Tabletop.Proofs.Payload.Wire
import Tabletop.Proofs.Scoring.Selection
import Tabletop.Scoring.Result

/-!
Results that give variables only. The constraint that is made up for them holds exactly if one member is
selected, and the answer that is made up is the number of that member, rounded to a double if it has more
than 53 bits.
-/

namespace Tabletop

namespace Number

/-- The double of a natural number: the nearest one, and the number itself below 2^53. -/
structure IsDoubleOf (n : Nat) (x : Float) : Prop where
  rounded : x = Float.ofNat n
  exact : n < 2 ^ 53 → isWhole x = true ∧ wholeInt x = n

end Number

namespace Payload.Formula

/-! ## Chains of doubles -/

section Chains
variable {values : String → Option Float}

theorem evaluateTerms_add {rest : List Formula} {terms : List Float}
    (evaluated : List.Forall₂ (fun formula x => evaluate values formula = .ok x) rest terms)
    (total : Float) :
    evaluateTerms values total (rest.map (.add, ·)) = .ok (terms.foldl (· + ·) total) := by
  induction evaluated generalizing total with
  | nil => rfl
  | cons term _ of_rest =>
    simp only [List.map_cons, evaluateTerms, term, of_rest, Joining.apply, List.foldl_cons]

/-- A sum is added up from its first term on. -/
theorem evaluate_sumOf {first : Formula} {x : Float} {rest : List Formula} {terms : List Float}
    (evaluated : evaluate values first = .ok x)
    (others : List.Forall₂ (fun formula x => evaluate values formula = .ok x) rest terms) :
    evaluate values (sumOf first rest) = .ok (terms.foldl (· + ·) x) := by
  have chained := evaluateTerms_add others x
  cases rest with
  | nil =>
    cases others
    simpa [sumOf, chainOf] using evaluated
  | cons next rest =>
    rw [sumOf, chainOf, evaluate, evaluated]
    exact chained

theorem evaluate_product {left right : Formula} {x y : Float} (first : evaluate values left = .ok x)
    (second : evaluate values right = .ok y) :
    evaluate values (productOf left [right]) = .ok (x * y) := by
  rw [productOf, chainOf, evaluate, first]
  simp only [List.map_cons, List.map_nil, evaluateFactors, second, Scaling.apply]

end Chains
end Payload.Formula

namespace Scoring

open Payload Payload.Formula Script

/-! ## Selections -/

section Selections

/-- The selected ones of some names have the value one and the others zero. -/
def Assigns (names : List String) (selected : String → Bool) (values : String → Option Float) : Prop :=
  ∀ name ∈ names, values name = some (if selected name then 1 else 0)

variable {selected : String → Bool} {values : String → Option Float} {names : List String}

/-- Ones and zeros are counted. -/
theorem foldl_bits {counted : Nat} (few : counted + names.length < 2 ^ 53) :
    (names.map fun name => if selected name then (1 : Float) else 0).foldl (· + ·)
      (Float.ofNat counted) = Float.ofNat (counted + names.countP selected) := by
  -- What is counted stays below 2^53, where adding one is exact.
  induction names generalizing counted with
  | nil => rfl
  | cons name names of_names =>
    rw [List.length_cons] at few
    rw [List.map_cons, List.foldl_cons, List.countP_cons]
    by_cases is_selected : selected name
    · rw [if_pos is_selected, if_pos is_selected, Number.ofNat_add_one (by omega), of_names (by omega)]
      congr 1
      omega
    · have plain := Number.plain_ofNat (n := counted) (by omega)
      rw [if_neg is_selected, if_neg is_selected, plain.add_zero, of_names (by omega)]
      rfl

/-- Zeros add nothing. -/
theorem foldl_zeros {x : Float} (plain : Number.Plain x) {terms : List Float}
    (zeros : ∀ term ∈ terms, term = 0) : terms.foldl (· + ·) x = x := by
  induction terms with
  | nil => rfl
  | cons term terms of_terms =>
    obtain ⟨rfl, others⟩ := List.forall_mem_cons.mp zeros
    rw [List.foldl_cons, plain.add_zero, of_terms others]

theorem foldl_cons_zero {x : Float} (plain : Number.Plain x) (terms : List Float) :
    (x :: terms).foldl (· + ·) 0 = terms.foldl (· + ·) x := by
  rw [List.foldl_cons, plain.zero_add]

theorem plain_zero : Number.Plain 0 := Number.plain_ofNat (n := 0) (by decide)

theorem plain_bit (bit : Bool) : Number.Plain (if bit then 1 else 0) := by
  cases bit with
  | false => exact plain_zero
  | true => exact Number.plain_ofNat (n := 1) (by decide)

end Selections

section Made
variable {unknowns : Variables} {selected : String → Bool} {values : String → Option Float}
  {member : String}

/-- What is made up for members is evaluated: the sum of all of them counts those that are selected. -/
theorem Selectable.evaluate_exactlyOne (selectable : Selectable unknowns) :
    ∃ formula, Formula.read (exactlyOne unknowns).lhs = .ok formula ∧
      ∀ {selected values}, Assigns unknowns.allNames selected values →
        formula.evaluate values = .ok (Float.ofNat (unknowns.allNames.countP selected)) := by
  obtain ⟨first, rest, split, identifiers, few⟩ := selectable.exists_members
  rw [exactlyOne, selectable.selectors_eq, split]
  refine ⟨_, read_selection identifiers, fun {selected values} assigns => ?_⟩
  have evaluated : ∀ name ∈ first :: rest, evaluate values (.reference name) =
      .ok (if selected name then 1 else 0) := by
    intro name is_member
    rw [evaluate, assigns name is_member]
  rw [List.forall_mem_cons] at evaluated
  have small : 0 + (first :: rest).length < 2 ^ 53 := by
    rw [Nat.zero_add]
    exact few.trans_lt (by decide)
  have counted : ((first :: rest).map fun name => if selected name then (1 : Float) else 0).foldl
      (· + ·) 0 = Float.ofNat (0 + (first :: rest).countP selected) := foldl_bits small
  rw [List.map_cons, foldl_cons_zero (plain_bit _), Nat.zero_add] at counted
  rw [evaluate_sumOf evaluated.1 (forall₂_map evaluated.2), counted]

theorem evaluate_numbered {member : String × Nat} (selected : String → Bool)
    (small : member.2 < nameLimit)
    (value : values member.1 = some (if selected member.1 then 1 else 0)) :
    evaluate values (numberedFormula member) =
      .ok (if selected member.1 then Float.ofNat (numberOf member.1 member.2) else 0) := by
  have below := numberOf_lt member.1 small
  have plain := Number.plain_ofNat below
  have factor : evaluate values (.number ⟨false, numberOf member.1 member.2, 0⟩) =
      .ok (Float.ofNat (numberOf member.1 member.2)) := by
    rw [evaluate, Number.toFloat_whole below]
  have referred : evaluate values (.reference member.1) =
      .ok (if selected member.1 then 1 else 0) := by
    rw [evaluate, value]
  rw [numberedFormula, evaluate_product factor referred]
  by_cases is_selected : selected member.1
  · rw [if_pos is_selected, if_pos is_selected, plain.mul_one]
  · rw [if_neg is_selected, if_neg is_selected, plain.mul_zero]

/-- Of members with numbers only the selected one counts. -/
theorem foldl_numbered {members : List String} (distinct : members.Nodup)
    (few : members.length ≤ nameLimit) (is_member : member ∈ members) :
    (members.zipIdx.map fun other =>
      if other.1 == member then Float.ofNat (numberOf other.1 other.2) else 0).foldl (· + ·) 0 =
        Float.ofNat (numberOf member (members.idxOf member)) := by
  obtain ⟨front, back, rfl, before, behind, place⟩ := exists_split distinct is_member
  have zeros {others : List String} {start : Nat} (absent : member ∉ others) :
      ∀ term ∈ (others.zipIdx start).map fun other =>
        if other.1 == member then Float.ofNat (numberOf other.1 other.2) else 0, term = 0 := by
    intro term is_term
    obtain ⟨other, inside, rfl⟩ := List.mem_map.mp is_term
    have differs : other.1 ≠ member := by
      rintro rfl
      exact absent (List.fst_mem_of_mem_zipIdx inside)
    rw [if_neg (by simpa using differs)]
  have inside : front.length < nameLimit := by
    rw [List.length_append, List.length_cons] at few
    omega
  -- The members in front leave zero, and those behind leave the member's number.
  have plain := Number.plain_ofNat (numberOf_lt member inside)
  rw [place, List.zipIdx_append, List.zipIdx_cons, List.map_append, List.map_cons, List.foldl_append,
    foldl_zeros plain_zero (zeros before), Nat.zero_add, if_pos (beq_self_eq_true member),
    foldl_cons_zero plain, foldl_zeros plain (zeros behind)]

/-- What is made up as an answer is evaluated to the number of the member that is selected. -/
theorem Selectable.evaluate_defaultAnswer (selectable : Selectable unknowns)
    (distinct : unknowns.allNames.Nodup) :
    ∃ formula, Formula.read (defaultAnswer unknowns) = .ok formula ∧
      ∀ {member values}, member ∈ unknowns.allNames →
        Assigns unknowns.allNames (· == member) values → formula.evaluate values =
          .ok (Float.ofNat (numberOf member (unknowns.allNames.idxOf member))) := by
  obtain ⟨first, rest, split, identifiers, few⟩ := selectable.exists_members
  rw [defaultAnswer, selectable.selectors_eq]
  rw [split] at distinct ⊢
  refine ⟨_, read_numbered identifiers few, fun {member values} is_member assigns => ?_⟩
  have evaluated : ∀ other ∈ (first :: rest).zipIdx, evaluate values (numberedFormula other) =
      .ok (if other.1 == member then Float.ofNat (numberOf other.1 other.2) else 0) := by
    intro other inside
    obtain ⟨known, small⟩ := mem_zipIdx_small few inside
    exact evaluate_numbered (· == member) small (assigns other.1 known)
  have counted := foldl_numbered distinct few is_member
  rw [List.zipIdx_cons, List.forall_mem_cons] at evaluated
  have plain : Number.Plain (if first == member then Float.ofNat (numberOf first 0) else 0) := by
    split
    · exact Number.plain_ofNat (numberOf_lt first (by decide))
    · exact plain_zero
  rw [List.zipIdx_cons, List.map_cons, foldl_cons_zero plain] at counted
  rw [← counted]
  exact evaluate_sumOf evaluated.1 (forall₂_map evaluated.2)

end Made

/-! ## Results -/

section Results
variable {memory : Memory} {id : Nat} {unknowns : Variables}

/-- A result of a payload's fields that gives variables only, each under a key of its own. -/
structure GivesVariables (memory : Memory) (entries : Entries) (unknowns : Variables) : Prop where
  described : ∃ id, entries.get? "variables" = some (.object id) ∧
    List.Forall₂ (fun property v => property.1 = v.name ∧
      VariableKind.ofJson? (memory.toJson property.2) = some v.kind) (memory.entries id).toList unknowns
  distinct : (unknowns.map Variable.name).Nodup
  nothing_else : ∀ key ∈ fieldKeys, key ≠ "variables" → entries.get? key = none

theorem declareAll_eq {properties : List (String × Value)} {later : Variables}
    (described : List.Forall₂ (fun property v => property.1 = v.name ∧
      VariableKind.ofJson? (memory.toJson property.2) = some v.kind) properties later)
    (before : Variables) (distinct : ((before ++ later).map Variable.name).Nodup) :
    declareAll memory before properties = .ok (before ++ later) := by
  -- Each name is a new one, and so its variable goes behind all that were declared before.
  induction described generalizing before with
  | nil => rw [List.append_nil, declareAll]
  | @cons property v properties later first _ of_rest =>
    obtain ⟨name, kind⟩ := first
    have new : ∀ earlier ∈ before, earlier.name ≠ v.name := by
      intro earlier is_earlier same
      rw [List.map_append, List.nodup_append] at distinct
      exact distinct.2.2 _ (List.mem_map_of_mem is_earlier) _ (List.mem_map_of_mem List.mem_cons_self)
        same
    have moved : before ++ v :: later = (before ++ [v]) ++ later := by simp
    rw [moved] at distinct ⊢
    rw [declareAll, kind, name]
    simp only [Variables.declare_of_forall_ne new]
    exact of_rest _ distinct

theorem checkSizes_selectable (selectable : Selectable unknowns) : checkSizes unknowns = .ok () := by
  have none_large : unknowns.find? (fun v => nameLimit < v.kind.size) = none := by
    rw [List.find?_eq_none]
    intro v is_unknown
    have within := (Variables.size_le_of_mem is_unknown).trans selectable.few
    rw [VariableKind.length_allNames] at within
    simpa using within
  have few := selectable.few
  rw [Variables.length_allNames] at few
  rw [checkSizes, none_large]
  exact if_neg (Nat.not_lt.mpr few)

/-- The payload that variables alone become. -/
def variablesPayload (unknowns : Variables) : Payload :=
  ⟨unknowns, [exactlyOne unknowns], "0", defaultAnswer unknowns⟩

theorem field_eq_undefined {entries : Entries} {keys : List String}
    (absent : ∀ key ∈ keys, entries.get? key = none) : field entries keys = .undefined := by
  rw [field, List.findSome?_eq_none_iff.mpr absent]
  rfl

theorem payloadOf_variables (given : GivesVariables memory (memory.entries id) unknowns)
    (selectable : Selectable unknowns) :
    payloadOf memory (.object id) = .ok (variablesPayload unknowns, .fields, false) := by
  obtain ⟨descriptions, found, described⟩ := given.described
  have shape : shapeOf? (memory.entries id) = some .fields := by
    have has_field : fieldKeys.any (memory.entries id).contains = true :=
      List.any_eq_true.mpr ⟨"variables", by decide, by simp [Entries.contains, found]⟩
    rw [shapeOf?, if_pos has_field]
  have absent {keys : List String} (others : ∀ key ∈ keys, key ∈ fieldKeys ∧ key ≠ "variables") :
      field (memory.entries id) keys = .undefined :=
    field_eq_undefined fun key is_key => given.nothing_else key (others key is_key).1 (others key is_key).2
  have no_constraints : field (memory.entries id) ["Constraints", "constraints"] = .undefined :=
    absent (by decide)
  have no_objective : field (memory.entries id) ["Objective", "objective"] = .undefined :=
    absent (by decide)
  have no_answer : field (memory.entries id) ["Return", "returnExpression"] = .undefined :=
    absent (by decide)
  have variables_found : field (memory.entries id) ["variables"] = .object descriptions := by
    simp [field, found]
  have declared := declareAll_eq described [] given.distinct
  rw [List.nil_append] at declared
  have some_unknown : unknowns.isEmpty = false := by simpa using selectable.filled
  have made : payloadOfFields memory (memory.entries id) = .ok (variablesPayload unknowns) := by
    simp only [payloadOfFields, variables_found, no_constraints, no_objective, no_answer, variablesOf,
      declared, checkSizes_selectable selectable, some_unknown, constraintsOf, formulaOf?, bind,
      Except.bind]
    rfl
  simp only [payloadOf, shape, made]
  rfl

/-- A payload whose constraint selects one member and whose answer is that member's number. -/
structure SelectsOne (unknowns : Variables) (payload : Payload) : Prop where
  declares : payload.unknowns = unknowns
  accepted : payload.normalize = .ok payload
  selection : ∃ constraint formula, payload.constraints = [constraint] ∧
    Formula.read constraint.lhs = .ok formula ∧
    ∀ {selected values}, Assigns unknowns.allNames selected values →
      ∃ x, formula.evaluate values = .ok x ∧ (constraint.comparison.holds x constraint.rhs = true ↔
        ∃! member, member ∈ unknowns.allNames ∧ selected member = true)
  answer : ∃ formula, Formula.read payload.answer = .ok formula ∧
    ∀ {member values}, member ∈ unknowns.allNames → Assigns unknowns.allNames (· == member) values →
      ∃ n x, HasNumber unknowns.allNames member n ∧ formula.evaluate values = .ok x ∧
        Number.IsDoubleOf n x

theorem isDoubleOf_ofNat (n : Nat) : Number.IsDoubleOf n (Float.ofNat n) :=
  ⟨rfl, Number.wholeInt_ofNat⟩

theorem selectsOne_variablesPayload (selectable : Selectable unknowns)
    (distinct : unknowns.allNames.Nodup) : SelectsOne unknowns (variablesPayload unknowns) := by
  obtain ⟨sum, read_sum, sum_value⟩ := selectable.evaluate_exactlyOne
  obtain ⟨answer, read_answer, answer_value⟩ := selectable.evaluate_defaultAnswer distinct
  have zero : IsFormulaOver unknowns.allNames "0" :=
    isFormulaOver_of_solid (solid_int 0) (read_int 0 (Nat.pow_pos (by decide)))
      fun name inside => absurd inside (not_mentions_ofInt 0)
  refine ⟨rfl, selectable.normalize (by simp) (solid_int 0) zero, ?_, ?_⟩
  · refine ⟨exactlyOne unknowns, sum, rfl, read_sum, fun {selected values} assigns => ?_⟩
    refine ⟨_, sum_value assigns, ?_⟩
    have few : unknowns.allNames.countP selected < 2 ^ 53 :=
      List.countP_le_length.trans_lt (selectable.few.trans_lt (by decide))
    rw [← countP_eq_one_iff distinct]
    exact Number.ofNat_beq_one_iff few
  · refine ⟨answer, read_answer, fun {member values} is_member assigns => ?_⟩
    exact ⟨_, _, hasNumber _ member, answer_value is_member assigns, isDoubleOf_ofNat _⟩

/-- Variables of zero and one become a payload that selects one of their members. -/
theorem variables_select_one (given : GivesVariables memory (memory.entries id) unknowns)
    (selectable : Selectable unknowns) (distinct : unknowns.allNames.Nodup) :
    ∃ payload, payloadOf memory (.object id) = .ok (payload, .fields, false) ∧
      SelectsOne unknowns payload :=
  ⟨_, payloadOf_variables given selectable, selectsOne_variablesPayload selectable distinct⟩

/-- A variable and arrays of one and of two dimensions. -/
def mixedUnknowns : Variables :=
  [⟨"above", .binary⟩, ⟨"cell", .array (.grid 2 2) .binary⟩, ⟨"_row7", .array (.row 3) .binary⟩]

/-- A result that gives them. -/
def mixedVariables : Memory where
  arrays := #[#[.number 2, .number 2]]
  objects := #[
    #[("type", .str "Binary")],
    #[("type", .str "Array"), ("shape", .array 0), ("vartype", .str "Binary")],
    #[("type", .str "Array"), ("shape", .number 3), ("vartype", .str "Binary")],
    #[("above", .object 0), ("cell", .object 1), ("_row7", .object 2)],
    #[("variables", .object 3), ("note", .null)]]
  closures := #[]
  frames := #[]
  steps := 0
  trace := []
  traceSize := none

theorem mixedVariables_given :
    GivesVariables mixedVariables (mixedVariables.entries 4) mixedUnknowns where
  described := by
    have cell : (VariableKind.array (.grid 2 2) .binary).Representable :=
      ⟨trivial, Shape.bounded_of_size (by decide) (by decide)⟩
    have row : (VariableKind.array (.row 3) .binary).Representable :=
      ⟨trivial, Shape.bounded_of_size (by decide) (by decide)⟩
    exact ⟨3, rfl, .cons ⟨rfl, by decide +kernel⟩ <|
      .cons ⟨rfl, VariableKind.ofJson?_sorted cell⟩ <|
      .cons ⟨rfl, VariableKind.ofJson?_sorted row⟩ .nil⟩
  distinct := by decide
  nothing_else := by decide

theorem mixedUnknowns_selectable : Selectable mixedUnknowns where
  filled := List.cons_ne_nil _ _
  named := List.forall_mem_cons.mpr ⟨⟨⟨'a', rfl, rfl⟩, List.all_eq_true.mp rfl⟩,
    List.forall_mem_cons.mpr ⟨⟨⟨'c', rfl, rfl⟩, List.all_eq_true.mp rfl⟩,
    List.forall_mem_cons.mpr ⟨⟨⟨'_', rfl, rfl⟩, List.all_eq_true.mp rfl⟩, by simp⟩⟩⟩
  binary := List.forall_mem_cons.mpr ⟨.inl rfl,
    List.forall_mem_cons.mpr ⟨.inr ⟨.grid 2 2, rfl, by decide⟩,
    List.forall_mem_cons.mpr ⟨.inr ⟨.row 3, rfl, by decide⟩, by simp⟩⟩⟩
  few := by decide

theorem variables_select_one_mixed :
    GivesVariables mixedVariables (mixedVariables.entries 4) mixedUnknowns ∧
      Selectable mixedUnknowns ∧ mixedUnknowns.allNames.Nodup ∧
      ∃ payload, payloadOf mixedVariables (.object 4) = .ok (payload, .fields, false) ∧
        SelectsOne mixedUnknowns payload :=
  ⟨mixedVariables_given, mixedUnknowns_selectable, by decide,
    variables_select_one mixedVariables_given mixedUnknowns_selectable (by decide)⟩

/-- A variable whose number has 54 bits. -/
def longName : String := "x9007199254740993"

def longUnknowns : Variables := [⟨longName, .binary⟩]

/-- A result that gives it. -/
def longVariable : Memory where
  arrays := #[]
  objects := #[#[("type", .str "Binary")], #[(longName, .object 0)], #[("variables", .object 1)]]
  closures := #[]
  frames := #[]
  steps := 0
  trace := []
  traceSize := none

/-- The variable ends in an integer below 2^64, but the answer is the even number next to it. -/
theorem long_number_rounded :
    GivesVariables longVariable (longVariable.entries 2) longUnknowns ∧
      Selectable longUnknowns ∧ longUnknowns.allNames.Nodup ∧
      EndsIn longName 9007199254740993 ∧ 9007199254740993 < 2 ^ 64 ∧
      ∃ payload formula x, payloadOf longVariable (.object 2) = .ok (payload, .fields, false) ∧
        Formula.read payload.answer = .ok formula ∧
        Assigns longUnknowns.allNames (· == longName) (fun _ => some 1) ∧
        formula.evaluate (fun _ => some 1) = .ok x ∧ Number.isWhole x = true ∧
        Number.wholeInt x = 9007199254740992 := by
  have given : GivesVariables longVariable (longVariable.entries 2) longUnknowns :=
    ⟨⟨1, rfl, .cons ⟨rfl, by decide +kernel⟩ .nil⟩, by decide, by decide⟩
  have selectable : Selectable longUnknowns :=
    ⟨List.cons_ne_nil _ _,
      List.forall_mem_cons.mpr ⟨⟨⟨'x', rfl, rfl⟩, List.all_eq_true.mp rfl⟩, by simp⟩,
      List.forall_mem_cons.mpr ⟨.inl rfl, by simp⟩, by decide⟩
  have distinct : longUnknowns.allNames.Nodup := List.nodup_singleton longName
  have assigns : Assigns longUnknowns.allNames (· == longName) (fun _ => some 1) :=
    List.forall_mem_cons.mpr ⟨rfl, by simp⟩
  obtain ⟨formula, read, value⟩ := selectable.evaluate_defaultAnswer distinct
  exact ⟨given, selectable, distinct, endsIn_iff.mpr ⟨by decide, by decide⟩, by decide, _, formula, _,
    payloadOf_variables given selectable, read, assigns, value (List.mem_singleton_self _) assigns,
    by decide +kernel, by decide +kernel⟩

end Results
end Scoring
end Tabletop
