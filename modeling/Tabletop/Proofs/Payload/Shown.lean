import Tabletop.Proofs.Payload.Wire

/-!
The text that is shown to people. It is a payload's text too, but with the variables by name: what is
read from it is the payload with its variables in that order.
-/

namespace Tabletop

namespace Json

end Json

namespace Payload

open Json

/-- A payload with its variables in the order of their names. -/
def byName (payload : Payload) : Payload :=
  { payload with unknowns := payload.unknowns.mergeSort fun a b => a.name ≤ b.name }

theorem byName_perm (payload : Payload) : payload.byName.unknowns.Perm payload.unknowns :=
  List.mergeSort_perm payload.unknowns _

theorem IsFormulaOver.mono {names others : List String} (all : ∀ name ∈ names, name ∈ others)
    {text : String} (good : IsFormulaOver names text) : IsFormulaOver others text where
  filled := good.filled
  readable := by
    obtain ⟨formula, read, known⟩ := good.readable
    exact ⟨formula, read, fun name mentioned => all name (known name mentioned)⟩

/-- Whether a payload is acceptable does not depend on the order of its variables. -/
theorem Acceptable.byName {payload : Payload} (good : Acceptable payload) :
    Acceptable payload.byName := by
  have same := payload.byName_perm
  have names : payload.byName.unknowns.allNames.Perm payload.unknowns.allNames := same.flatMap_right _
  have all : ∀ name ∈ payload.unknowns.allNames, name ∈ payload.byName.unknowns.allNames :=
    fun name is_name => names.mem_iff.mpr is_name
  exact {
    declares := fun nothing => good.declares (by rw [nothing] at same; exact same.nil_eq.symm)
    named := fun v is_unknown => good.named v (same.mem_iff.mp is_unknown)
    sensible := fun v is_unknown => good.sensible v (same.mem_iff.mp is_unknown)
    each_within := fun v is_unknown => good.each_within v (same.mem_iff.mp is_unknown)
    all_within := names.length_eq.trans_le good.all_within
    objective := good.objective.mono all
    answer := good.answer.mono all
    constraints := fun constraint is_one => (good.constraints constraint is_one).mono all
    finite := good.finite }

/-- The fields of a payload's record with their own fields by name. -/
def sortedFields (payload : Payload) : List (String × Json) :=
  [("variables", payload.unknowns.toJson.sorted),
    ("Constraints", .arr (payload.constraints.map fun constraint => constraint.toJson.sorted)),
    ("Objective", .str payload.objective), ("Return", .str payload.answer)]

theorem sorted_toJson (payload : Payload) : payload.toJson.sorted = object payload.sortedFields := by
  rw [toJson, Json.sorted_obj]
  simp [sortedFields, Function.comp_def]

/-- Variables shown by name are read in that order. -/
theorem Variables.ofJson?_sorted {unknowns : Variables}
    (fit : ∀ v ∈ unknowns, v.kind.Representable)
    (distinct : (unknowns.map Variable.name).Nodup) :
    Variables.ofJson? unknowns.toJson.sorted =
      some (unknowns.mergeSort fun a b => a.name ≤ b.name) := by
  have same : (unknowns.mergeSort fun a b => a.name ≤ b.name).Perm unknowns :=
    List.mergeSort_perm unknowns _
  have names : namesOf (unknowns.map fun v => (v.name, v.kind.toJson.sorted)) =
      unknowns.map Variable.name := by
    simp [namesOf]
  have shown : unknowns.toJson.sorted =
      .obj ((unknowns.mergeSort fun a b => a.name ≤ b.name).map
        fun v => (v.name, v.kind.toJson.sorted)) := by
    have in_order : (unknowns.mergeSort fun a b => a.name ≤ b.name).map
        (fun v => (v.name, v.kind.toJson.sorted)) =
          Json.byName (unknowns.map fun v => (v.name, v.kind.toJson.sorted)) :=
      List.map_mergeSort fun a _ b _ => rfl
    rw [in_order, toJson, Json.sorted_obj, List.map_map]
    exact object_of_nodup (names ▸ distinct)
  rw [shown]
  refine ofFields?_of_nodup [] (fun v is_one => ?_) ?_
  · exact VariableKind.ofJson?_sorted (fit v (same.mem_iff.mp is_one))
  · exact (same.map Variable.name).nodup_iff.mpr distinct

end Payload
end Tabletop
