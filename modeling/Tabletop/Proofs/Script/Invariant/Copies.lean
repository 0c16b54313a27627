import Tabletop.Proofs.Script.Invariant
import Tabletop.Script.Value.Json

/-!
Copies of JSON trees in memory, made from the leaves to the root.
-/

namespace Tabletop.Script.Invariant

variable {inv : Invariant} {good : Json → Prop}

/-- Copies of good trees keep the invariant, if each array and each object of them does. -/
structure Copies (inv : Invariant) (good : Json → Prop) : Prop where
  plain : ∀ {value : Value}, (∀ text, value ≠ .str text) → inv.value value
  str : ∀ {text}, good (.str text) → inv.value (.str text)
  items : ∀ {items}, good (.arr items) → ∀ item ∈ items, good item
  fields : ∀ {fields}, good (.obj fields) → ∀ field ∈ fields, inv.value (.str field.1) ∧ good field.2
  array : ∀ {items} {values : Array Value}, good (.arr items) → values.size = items.length →
    (∀ value ∈ values, inv.value value) → inv.Keeps inv.value (newArray values)
  object : ∀ {entries : Entries}, (∀ entry ∈ entries, inv.value (.str entry.1) ∧ inv.value entry.2) →
    inv.Keeps inv.value (newObject entries)

namespace Copies

variable (copies : inv.Copies good)

include copies

set_option linter.unusedSectionVars false in
mutual
theorem ofJson {json : Json} (is_good : good json) : inv.Keeps inv.value (Script.ofJson json) := by
  match json with
  | .null | .bool _ | .int _ | .float _ =>
    unfold Script.ofJson
    exact .pure (copies.plain (by simp))
  | .str _ =>
    unfold Script.ofJson
    exact .pure (copies.str is_good)
  | .arr items =>
    unfold Script.ofJson
    refine (ofItems (by simp) (copies.items is_good)).bind fun values copied => ?_
    refine copies.array is_good ?_ copied.2
    rw [copied.1, Array.size_empty, Nat.zero_add]
  | .obj fields =>
    unfold Script.ofJson
    exact (ofFields (by simp) (copies.fields is_good)).bind fun entries allowed =>
      copies.object allowed

/-- There are as many values as items. -/
theorem ofItems {back : Array Value} (allowed : ∀ value ∈ back, inv.value value) {items : List Json}
    (are_good : ∀ item ∈ items, good item) :
    inv.Keeps (fun values : Array Value => values.size = back.size + items.length ∧
      ∀ value ∈ values, inv.value value) (Script.ofItems back items) := by
  match items with
  | [] =>
    unfold Script.ofItems
    exact .pure ⟨rfl, allowed⟩
  | item :: rest =>
    obtain ⟨item_good, rest_good⟩ := List.forall_mem_cons.mp are_good
    unfold Script.ofItems
    refine (ofJson item_good).bind fun value value_allowed =>
      (ofItems (all_push allowed value_allowed) rest_good).mono fun values copied => ⟨?_, copied.2⟩
    rw [copied.1, Array.size_push, List.length_cons]
    omega

theorem ofFields {back : Entries}
    (allowed : ∀ entry ∈ back, inv.value (.str entry.1) ∧ inv.value entry.2)
    {fields : List (String × Json)}
    (are_good : ∀ field ∈ fields, inv.value (.str field.1) ∧ good field.2) :
    inv.Keeps (fun entries : Entries => ∀ entry ∈ entries, inv.value (.str entry.1) ∧ inv.value entry.2)
      (Script.ofFields back fields) := by
  match fields with
  | [] =>
    unfold Script.ofFields
    exact .pure allowed
  | (name, field) :: rest =>
    obtain ⟨⟨name_allowed, field_good⟩, rest_good⟩ := List.forall_mem_cons.mp are_good
    unfold Script.ofFields
    exact (ofJson field_good).bind fun value value_allowed =>
      ofFields (Entries.all_set allowed ⟨name_allowed, value_allowed⟩) rest_good
end

end Copies
end Tabletop.Script.Invariant
