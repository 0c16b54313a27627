import Tabletop.Proofs.Payload.Shown
import Tabletop.Scoring.Run

/-!
How payloads come to their variables. Every one of them is declared, from JSON text or from what a
scoring program returns, so no name stands twice and all bounds are integers of 64 bits.
-/

namespace Tabletop

namespace Payload

/-- Variables with distinct names and with bounds that can be written. -/
structure Declared (unknowns : Variables) : Prop where
  distinct : (unknowns.map Variable.name).Nodup
  bounded : ∀ v ∈ unknowns, v.kind.Bounded

theorem map_name_declare (unknowns : Variables) (name : String) (kind : VariableKind) :
    (unknowns.declare name kind).map Variable.name =
      if name ∈ unknowns.map Variable.name then unknowns.map Variable.name
      else unknowns.map Variable.name ++ [name] := by
  induction unknowns with
  | nil => rfl
  | cons first rest of_rest =>
    rw [Variables.declare]
    by_cases same : first.name = name
    · simp [same]
    · have other : name ≠ first.name := fun h => same h.symm
      rw [if_neg same, List.map_cons, of_rest]
      by_cases later : name ∈ rest.map Variable.name
      · simp [later]
      · simp [later, other]

theorem kind_of_mem_declare {unknowns : Variables} {name : String} {kind : VariableKind}
    {v : Variable} (member : v ∈ unknowns.declare name kind) : v ∈ unknowns ∨ v.kind = kind := by
  induction unknowns with
  | nil => exact .inr (by simp [List.mem_singleton.mp member])
  | cons first rest of_rest =>
    rw [Variables.declare] at member
    split at member
    · rcases List.mem_cons.mp member with rfl | later
      · exact .inr rfl
      · exact .inl (List.mem_cons_of_mem _ later)
    · rcases List.mem_cons.mp member with rfl | later
      · exact .inl List.mem_cons_self
      · exact (of_rest later).imp_left (List.mem_cons_of_mem _)

/-- Declaring a variable keeps names apart, whether it is new or changes its kind. -/
theorem Declared.declare {unknowns : Variables} (declared : Declared unknowns) (name : String)
    {kind : VariableKind} (bounded : kind.Bounded) : Declared (unknowns.declare name kind) where
  distinct := by
    rw [map_name_declare]
    split
    · exact declared.distinct
    · rename_i new
      exact List.nodup_append.mpr ⟨declared.distinct, List.nodup_singleton name, by
        intro earlier is_earlier last is_last
        rw [List.mem_singleton.mp is_last]
        rintro rfl
        exact new is_earlier⟩
  bounded := by
    intro v member
    rcases kind_of_mem_declare member with earlier | same
    · exact declared.bounded v earlier
    · rw [same]
      exact bounded

section Kinds

theorem bounds_of_signed64? {json : Json} {value : Int} (read : json.signed64? = some value) :
    -2 ^ 63 ≤ value ∧ value < 2 ^ 63 := by
  unfold Json.signed64? Json.intWithin? at read
  split at read
  · split at read
    · rename_i within
      cases read
      exact within
    · cases read
  · cases read

/-- Whatever is read as a kind has bounds of 64 bits. -/
theorem VariableKind.bounded_of_ofJson? {json : Json} {kind : VariableKind}
    (read : VariableKind.ofJson? json = some kind) : kind.Bounded := by
  unfold VariableKind.ofJson? at read
  split at read
  · obtain ⟨_, _, rfl⟩ := Option.map_eq_some_iff.mp read
    trivial
  · obtain ⟨_, _, rfl⟩ := Option.map_eq_some_iff.mp read
    trivial
  · obtain ⟨values, _, of_values⟩ := Option.bind_eq_some_iff.mp read
    unfold unaryOf? at of_values
    split at of_values
    · obtain ⟨lower, lower_read, of_values⟩ := Option.bind_eq_some_iff.mp of_values
      obtain ⟨upper, upper_read, of_values⟩ := Option.bind_eq_some_iff.mp of_values
      cases of_values
      exact ⟨bounds_of_signed64? lower_read, bounds_of_signed64? upper_read⟩
    · cases of_values
  · obtain ⟨values, _, of_values⟩ := Option.bind_eq_some_iff.mp read
    unfold arrayOf? at of_values
    split at of_values
    · obtain ⟨_, _, rfl⟩ := Option.map_eq_some_iff.mp of_values
      trivial
    · obtain ⟨_, _, of_values⟩ := Option.bind_eq_some_iff.mp of_values
      obtain ⟨_, _, of_values⟩ := Option.bind_eq_some_iff.mp of_values
      cases of_values
      trivial
    · cases of_values
  · cases read

end Kinds

section Texts

theorem Declared.ofFields? {before unknowns : Variables} (declared : Declared before)
    {fields : List (String × Json)} (read : Variables.ofFields? before fields = some unknowns) :
    Declared unknowns := by
  induction fields generalizing before with
  | nil =>
    cases read
    exact declared
  | cons field rest of_rest =>
    unfold Variables.ofFields? at read
    split at read
    · rename_i kind of_kind
      exact of_rest (declared.declare _ (VariableKind.bounded_of_ofJson? of_kind)) read
    · cases read

end Texts
end Payload

namespace Scoring

open Payload Script

variable {memory : Memory}

end Scoring
end Tabletop
