import Tabletop.Proofs.Json.Sorted
import Mathlib.Algebra.Order.BigOperators.Group.List

/-!
How far a tree goes: the levels below its root, its nodes, and those of them that are not null. An object
that is put together from fields goes no further than they do.
-/

namespace Tabletop.Json

section Measures

mutual
/-- A measure of trees, given on leaves; arrays and objects join the measures of what they hold. -/
def measure (leaf : Json → Nat) (join : List Nat → Nat) : Json → Nat
  | .arr items => join (measureItems leaf join items)
  | .obj fields => join (measureFields leaf join fields)
  | other => leaf other
def measureItems (leaf : Json → Nat) (join : List Nat → Nat) : List Json → List Nat
  | [] => []
  | item :: rest => measure leaf join item :: measureItems leaf join rest
def measureFields (leaf : Json → Nat) (join : List Nat → Nat) : List (String × Json) → List Nat
  | [] => []
  | (_, value) :: rest => measure leaf join value :: measureFields leaf join rest
end

def levelsOver (inside : List Nat) : Nat :=
  inside.foldr (fun level highest => max (level + 1) highest) 0

/-- The levels below the root: one more than the deepest tree inside has, or none. -/
def depth : Json → Nat := measure (fun _ => 0) levelsOver

/-- All values in a tree, itself included. -/
def nodes : Json → Nat := measure (fun _ => 1) (·.sum + 1)

/-- All values in a tree that are not null. -/
def substance : Json → Nat := measure (fun leaf => if leaf.isNull then 0 else 1) (·.sum + 1)

variable {leaf : Json → Nat} {join : List Nat → Nat} {levels : Nat} {items : List Json}
  {fields : List (String × Json)}

theorem measure_arr : measure leaf join (.arr items) = join (items.map (measure leaf join)) := by
  rw [measure]
  congr 1
  induction items with
  | nil => rfl
  | cons item rest of_rest => rw [measureItems, of_rest, List.map_cons]

theorem measure_obj : measure leaf join (.obj fields) =
    join ((fields.map (·.2)).map (measure leaf join)) := by
  rw [measure]
  congr 1
  induction fields with
  | nil => rfl
  | cons field rest of_rest => rw [measureFields, of_rest, List.map_cons, List.map_cons]

theorem levelsOver_le_iff {inside : List Nat} :
    levelsOver inside ≤ levels ↔ ∀ level ∈ inside, level < levels := by
  induction inside with
  | nil => simp [levelsOver]
  | cons level rest of_rest =>
    rw [levelsOver, List.foldr_cons, ← levelsOver, Nat.max_le, of_rest, List.forall_mem_cons]
    rfl

theorem depth_arr_le_iff : (arr items).depth ≤ levels ↔ ∀ item ∈ items, item.depth < levels := by
  rw [depth, measure_arr, levelsOver_le_iff, List.forall_mem_map]

theorem depth_obj_le_iff :
    (obj fields).depth ≤ levels ↔ ∀ json ∈ fields.map (·.2), json.depth < levels := by
  rw [depth, measure_obj, levelsOver_le_iff, List.forall_mem_map]

theorem nodes_arr : (arr items).nodes = (items.map nodes).sum + 1 := measure_arr

theorem nodes_obj : (obj fields).nodes = ((fields.map (·.2)).map nodes).sum + 1 := measure_obj

theorem substance_arr : (arr items).substance = (items.map substance).sum + 1 := measure_arr

theorem substance_obj : (obj fields).substance = ((fields.map (·.2)).map substance).sum + 1 := measure_obj

theorem depth_object_le (inside : ∀ json ∈ fields.map (·.2), json.depth < levels) :
    (object fields).depth ≤ levels := by
  rw [object, depth_obj_le_iff]
  intro json is_kept
  apply inside
  exact ((byName_perm fields).map _).mem_iff.mp (((lastOfEach_sublist _).map _).subset is_kept)

theorem substance_object_le :
    (object fields).substance ≤ ((fields.map (·.2)).map substance).sum + 1 := by
  rw [object, substance_obj, ← byName]
  apply Nat.succ_le_succ
  calc (((lastOfEach (byName fields)).map (·.2)).map substance).sum
      ≤ (((byName fields).map (·.2)).map substance).sum :=
        (((lastOfEach_sublist _).map _).map _).sum_le_sum fun _ _ => Nat.zero_le _
    _ = ((fields.map (·.2)).map substance).sum := (((byName_perm fields).map _).map _).sum_eq

end Measures

section Order

/-- The fields of every object stand in the order of their names, and no name twice. -/
inductive InOrder : Json → Prop where
  | null : InOrder .null
  | bool (value : Bool) : InOrder (.bool value)
  | int (value : Int) : InOrder (.int value)
  | float (value : Float) : InOrder (.float value)
  | str (value : String) : InOrder (.str value)
  | arr {items : List Json} (inside : ∀ item ∈ items, InOrder item) : InOrder (.arr items)
  | obj {fields : List (String × Json)} (ordered : fields.Pairwise fun a b => a.1 < b.1)
    (inside : ∀ field ∈ fields, InOrder field.2) : InOrder (.obj fields)

theorem InOrder.sorted_eq {json : Json} (in_order : InOrder json) : json.sorted = json := by
  induction in_order with
  | null | bool | int | float | str => rfl
  | arr inside of_item =>
    rw [sorted_arr, List.map_congr_left of_item, List.map_id']
  | @obj fields ordered inside of_field =>
    have unchanged : fields.map (fun field => (field.1, field.2.sorted)) = fields := by
      rw [List.map_congr_left fun field is_field => by rw [of_field field is_field], List.map_id']
    have distinct : (namesOf fields).Nodup := by
      rw [namesOf, List.Nodup, List.pairwise_map]
      exact ordered.imp fun less => String.ne_of_lt less
    have by_name : byName fields = fields :=
      List.mergeSort_of_pairwise (ordered.imp fun less => decide_eq_true (String.not_lt.mp (String.lt_asymm less)))
    rw [sorted_obj, unchanged, object_of_nodup distinct, by_name]

end Order
end Tabletop.Json
