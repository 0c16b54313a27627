import Tabletop.Proofs.Json.Written
import Mathlib.Data.List.Nodup
import Mathlib.Data.List.Perm.Basic

/-!
Sorting the fields of objects. Where no name stands twice it only changes the order of fields, so
nothing that is looked up by name changes.
-/

namespace Tabletop.Json

theorem sortedItems_eq (back items : List Json) :
    sortedItems back items = back.reverse ++ items.map sorted := by
  induction items generalizing back with
  | nil => simp [sortedItems]
  | cons item rest of_rest => simp [sortedItems, of_rest]

theorem sortedFields_eq (back fields : List (String × Json)) :
    sortedFields back fields = back.reverse ++ fields.map fun field => (field.1, field.2.sorted) := by
  induction fields generalizing back with
  | nil => simp [sortedFields]
  | cons field rest of_rest => simp [sortedFields, of_rest]

@[simp] theorem sorted_arr (items : List Json) : sorted (.arr items) = .arr (items.map sorted) := by
  simp [sorted, sortedItems_eq]

@[simp] theorem sorted_obj (fields : List (String × Json)) :
    sorted (.obj fields) = object (fields.map fun field => (field.1, field.2.sorted)) := by
  simp [sorted, sortedFields_eq]

theorem lastOfEach_cons (field : String × Json) (rest : List (String × Json)) :
    lastOfEach (field :: rest) = match lastOfEach rest with
      | next :: others =>
        if field.1 = next.1 then next :: others else field :: next :: others
      | [] => [field] := by
  rw [lastOfEach, List.foldr_cons, ← lastOfEach]
  cases lastOfEach rest <;> rfl

theorem lastOfEach_sublist (fields : List (String × Json)) : (lastOfEach fields).Sublist fields := by
  induction fields with
  | nil => exact List.nil_sublist []
  | cons field rest of_rest =>
    rw [lastOfEach_cons]
    split
    · rename_i next others found
      rw [found] at of_rest
      split
      · exact of_rest.cons field
      · exact of_rest.cons_cons field
    · rename_i found
      exact (List.nil_sublist rest).cons_cons field

/-- The names of fields, in their order. -/
def namesOf (fields : List (String × Json)) : List String := fields.map (·.1)

theorem lastOfEach_of_nodup {fields : List (String × Json)} (distinct : (namesOf fields).Nodup) :
    lastOfEach fields = fields := by
  induction fields with
  | nil => rfl
  | cons field rest of_rest =>
    obtain ⟨not_again, rest_distinct⟩ := List.nodup_cons.mp distinct
    rw [lastOfEach_cons, of_rest rest_distinct]
    cases rest with
    | nil => rfl
    | cons next others =>
      have other_name : field.1 ≠ next.1 := by
        intro same
        exact not_again (by simp [same])
      simp only [if_neg other_name]

/-- Fields by name. -/
def byName (fields : List (String × Json)) : List (String × Json) :=
  fields.mergeSort fun a b => a.1 ≤ b.1

theorem byName_perm (fields : List (String × Json)) : (byName fields).Perm fields :=
  List.mergeSort_perm fields _

/-- An object without repeated names has all its fields by name. -/
theorem object_of_nodup {fields : List (String × Json)} (distinct : (namesOf fields).Nodup) :
    object fields = .obj (byName fields) := by
  have sorted_distinct : (namesOf (byName fields)).Nodup :=
    ((byName_perm fields).map _).nodup_iff.mpr distinct
  rw [object, ← byName, lastOfEach_of_nodup sorted_distinct]

theorem lookup_eq_some_iff {fields : List (String × Json)} (distinct : (namesOf fields).Nodup)
    (name : String) (value : Json) : fields.lookup name = some value ↔ (name, value) ∈ fields := by
  induction fields with
  | nil => simp
  | cons field rest of_rest =>
    obtain ⟨first, first_value⟩ := field
    obtain ⟨not_again, rest_distinct⟩ := List.nodup_cons.mp distinct
    rw [List.lookup_cons, List.mem_cons, ← of_rest rest_distinct]
    by_cases same : name = first
    · subst same
      have absent : rest.lookup name ≠ some value := by
        rw [Ne, of_rest rest_distinct]
        intro member
        exact not_again (List.mem_map.mpr ⟨_, member, rfl⟩)
      simp [absent, eq_comm]
    · have other : (name == first) = false := by simpa using same
      simp [other, same]

/-- Looking up by name does not see the order of fields. -/
theorem lookup_of_perm {fields others : List (String × Json)} (same : fields.Perm others)
    (distinct : (namesOf others).Nodup) (name : String) :
    fields.lookup name = others.lookup name := by
  have fields_distinct : (namesOf fields).Nodup := (same.map _).nodup_iff.mpr distinct
  apply Option.ext
  intro value
  rw [lookup_eq_some_iff fields_distinct, lookup_eq_some_iff distinct, same.mem_iff]

theorem field?_object {fields : List (String × Json)} (distinct : (namesOf fields).Nodup)
    (name : String) : (object fields).field? name = fields.lookup name := by
  rw [object_of_nodup distinct]
  exact lookup_of_perm (byName_perm fields) distinct name

theorem Writable.object {levels : Nat} {fields : List (String × Json)}
    (inside : ∀ field ∈ fields, Writable levels field.2) : Writable (levels + 1) (object fields) :=
  .obj fun field is_kept => inside field
    ((byName_perm fields).mem_iff.mp ((lastOfEach_sublist _).subset is_kept))

/-- Sorting keeps a value writable. -/
theorem Writable.sorted {levels : Nat} {json : Json} (writable : Writable levels json) :
    Writable levels json.sorted := by
  induction writable with
  | null => exact .null
  | bool value => exact .bool value
  | int low high => exact .int low high
  | float reads => exact .float reads
  | str value => exact .str value
  | arr _ each =>
    rw [sorted_arr]
    refine .arr fun item is_item => ?_
    obtain ⟨original, is_original, rfl⟩ := List.mem_map.mp is_item
    exact each original is_original
  | obj _ each =>
    rw [sorted_obj]
    refine .object fun field is_field => ?_
    obtain ⟨original, is_original, rfl⟩ := List.mem_map.mp is_field
    exact each original is_original

end Tabletop.Json
