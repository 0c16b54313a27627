import Tabletop.Proofs.Payload.Blanks
import Tabletop.Proofs.Payload.Normal
import Tabletop.Solver.Reply

/-!
The formulas of accepted payloads have values under every sample. Evaluating a formula fails only at a
name that it mentions and that has no value, and a sample leaves no declared name without one.
-/

namespace Tabletop.Payload

namespace Formula

variable {values : String → Option Float}

mutual
/-- A failure names what the formula mentions and nothing gives a value to. -/
theorem evaluate_error (formula : Formula) {e : NoValue} (failed : evaluate values formula = .error e) :
    Mentions e.name formula ∧ values e.name = none := by
  match formula with
  | .number _ => cases failed
  | .reference name =>
    unfold evaluate at failed
    split at failed
    · cases failed
    · rename_i unknown
      cases failed
      exact ⟨.reference, unknown⟩
  | .neg inner =>
    unfold evaluate at failed
    split at failed
    · cases failed
    · rename_i inner_failed
      cases failed
      obtain ⟨mentioned, unknown⟩ := evaluate_error inner inner_failed
      exact ⟨.neg mentioned, unknown⟩
  | .sum first rest =>
    unfold evaluate at failed
    split at failed
    · obtain ⟨mentioned, unknown⟩ := evaluateTerms_error rest failed
      exact ⟨mentions_sum_iff.mpr (.inr mentioned), unknown⟩
    · rename_i first_failed
      cases failed
      obtain ⟨mentioned, unknown⟩ := evaluate_error first first_failed
      exact ⟨.firstTerm mentioned, unknown⟩
  | .product first rest =>
    unfold evaluate at failed
    split at failed
    · obtain ⟨mentioned, unknown⟩ := evaluateFactors_error rest failed
      exact ⟨mentions_product_iff.mpr (.inr mentioned), unknown⟩
    · rename_i first_failed
      cases failed
      obtain ⟨mentioned, unknown⟩ := evaluate_error first first_failed
      exact ⟨.firstFactor mentioned, unknown⟩
  | .power base exponent =>
    unfold evaluate at failed
    split at failed
    · rename_i base_failed
      cases failed
      obtain ⟨mentioned, unknown⟩ := evaluate_error base base_failed
      exact ⟨.base mentioned, unknown⟩
    · split at failed
      · cases failed
      · rename_i exponent_failed
        cases failed
        obtain ⟨mentioned, unknown⟩ := evaluate_error exponent exponent_failed
        exact ⟨.exponent mentioned, unknown⟩

theorem evaluateTerms_error (terms : List (Joining × Formula)) {total : Float} {e : NoValue}
    (failed : evaluateTerms values total terms = .error e) :
    (∃ joined ∈ terms, Mentions e.name joined.2) ∧ values e.name = none := by
  match terms with
  | [] => cases failed
  | (joining, term) :: rest =>
    unfold evaluateTerms at failed
    split at failed
    · obtain ⟨⟨joined, is_term, mentioned⟩, unknown⟩ := evaluateTerms_error rest failed
      exact ⟨⟨joined, List.mem_cons_of_mem _ is_term, mentioned⟩, unknown⟩
    · rename_i term_failed
      cases failed
      obtain ⟨mentioned, unknown⟩ := evaluate_error term term_failed
      exact ⟨⟨_, List.mem_cons_self, mentioned⟩, unknown⟩

theorem evaluateFactors_error (factors : List (Scaling × Formula)) {total : Float} {e : NoValue}
    (failed : evaluateFactors values total factors = .error e) :
    (∃ scaled ∈ factors, Mentions e.name scaled.2) ∧ values e.name = none := by
  match factors with
  | [] => cases failed
  | (scaling, factor) :: rest =>
    unfold evaluateFactors at failed
    split at failed
    · obtain ⟨⟨scaled, is_factor, mentioned⟩, unknown⟩ := evaluateFactors_error rest failed
      exact ⟨⟨scaled, List.mem_cons_of_mem _ is_factor, mentioned⟩, unknown⟩
    · rename_i factor_failed
      cases failed
      obtain ⟨mentioned, unknown⟩ := evaluate_error factor factor_failed
      exact ⟨⟨_, List.mem_cons_self, mentioned⟩, unknown⟩
end

/-- A formula has a value where all the names that it mentions have one. -/
theorem exists_value {formula : Formula}
    (known : ∀ name, Mentions name formula → values name ≠ none) :
    ∃ value, evaluate values formula = .ok value := by
  cases evaluated : evaluate values formula with
  | ok value => exact ⟨value, rfl⟩
  | error e =>
    obtain ⟨mentioned, unknown⟩ := evaluate_error formula evaluated
    exact absurd unknown (known e.name mentioned)

end Formula

/-- All the names that a payload's formulas may use, as a reply's check lists them. -/
def declared (payload : Payload) : Names :=
  Std.TreeSet.ofList payload.unknowns.declaredNames compare

/-- The texts of a payload that are to be formulas. -/
def formulas (payload : Payload) : List String :=
  payload.objective :: payload.answer :: payload.constraints.map Constraint.lhs

/-- Every text of a payload that is to be a formula is one, and has a value whatever a sample says. -/
def HasValues (payload : Payload) : Prop :=
  ∀ text ∈ payload.formulas, ∃ formula, Formula.read text = .ok formula ∧
    ∀ sample, ∃ value, formula.evaluate (Solver.sampleValue payload.declared sample) = .ok value

theorem sampleValue_ne_none {declared : Names} {name : String} (is_declared : name ∈ declared)
    (sample : List (String × Float)) : Solver.sampleValue declared sample name ≠ none := by
  unfold Solver.sampleValue
  split
  · simp
  · simp [is_declared]

theorem Acceptable.isFormulaOver {payload : Payload} (good : Acceptable payload) {text : String}
    (is_formula : text ∈ payload.formulas) : IsFormulaOver payload.unknowns.allNames text := by
  simp only [formulas, List.mem_cons, List.mem_map] at is_formula
  rcases is_formula with rfl | rfl | ⟨constraint, is_one, rfl⟩
  · exact good.objective
  · exact good.answer
  · exact good.constraints constraint is_one

theorem Acceptable.hasValues {payload : Payload} (good : Acceptable payload) :
    payload.HasValues := by
  intro text is_formula
  obtain ⟨formula, read, known⟩ := (good.isFormulaOver is_formula).readable
  refine ⟨formula, Formula.read_of_trimmed read, fun sample => Formula.exists_value ?_⟩
  intro name mentioned
  exact sampleValue_ne_none ((mem_declared_iff good.checked name).mpr (known name mentioned)) sample

/-- A reply to a payload whose formulas have values is odd in one way at most. -/
theorem HasValues.warning {payload : Payload} (has_values : payload.HasValues)
    (reply : Solver.Reply) :
    reply.warning? payload = none ∨ reply.warning? payload = some .disagreement := by
  obtain ⟨formula, read, evaluates⟩ := has_values payload.answer (by simp [formulas])
  unfold Solver.Reply.warning?
  cases reply.sample with
  | none => exact .inl rfl
  | some sample =>
    obtain ⟨value, evaluated⟩ := evaluates sample
    unfold declared at evaluated
    simp only [Option.bind_some, Solver.checkSample, read, evaluated]
    split
    · exact .inl rfl
    · exact .inr rfl

end Tabletop.Payload
