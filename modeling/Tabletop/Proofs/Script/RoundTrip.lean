import Tabletop.Proofs.Json.Extent
import Tabletop.Proofs.Number.Sums
import Tabletop.Proofs.Script.Conversion

/-!
JSON trees in memory and back. A copy of a tree holds it from then on, whatever arrays and objects come
later: as long as the levels and the values last, what it gives is the tree. What any value gives has no more
levels than there are, and no more values that are not null.
-/

namespace Tabletop

namespace Json

/-- Trees that numbers and objects of a program can hold as they are: integers below nine quadrillion,
other numbers with a fraction, and no name twice in an object. -/
inductive Exchangeable : Json → Prop where
  | null : Exchangeable .null
  | bool (value : Bool) : Exchangeable (.bool value)
  | int {value : Int} (small : value.natAbs < 9000000000000000) : Exchangeable (.int value)
  | float {value : Float} (finite : Number.isFinite value = true)
    (fraction : Number.isWhole value = false) : Exchangeable (.float value)
  | str (value : String) : Exchangeable (.str value)
  | arr {items : List Json} (inside : ∀ item ∈ items, Exchangeable item) : Exchangeable (.arr items)
  | obj {fields : List (String × Json)} (distinct : (namesOf fields).Nodup)
    (inside : ∀ field ∈ fields, Exchangeable field.2) : Exchangeable (.obj fields)

theorem ofNumber_ofInt {value : Int} (small : value.natAbs < 9000000000000000) :
    ofNumber (Float.ofInt value) = .int value := by
  rw [ofNumber, Number.smallInt?_ofInt small]

theorem ofNumber_fraction {value : Float} (finite : Number.isFinite value = true)
    (fraction : Number.isWhole value = false) : ofNumber value = .float value := by
  have no_integer : Number.smallInt? value = none := by
    rw [Number.smallInt?, fraction]
    rfl
  rw [ofNumber, no_integer]
  exact if_pos finite

end Json

namespace Script.Memory

section Growth

/-- Arrays and objects that are there stay as they are. -/
structure GrowsTo (memory later : Memory) : Prop where
  arrays : ∀ {id : Nat} {items : Array Value}, memory.arrays[id]? = some items →
    later.arrays[id]? = some items
  objects : ∀ {id : Nat} {entries : Entries}, memory.objects[id]? = some entries →
    later.objects[id]? = some entries

variable {memory later : Memory}

theorem GrowsTo.refl (memory : Memory) : memory.GrowsTo memory := ⟨id, id⟩

theorem GrowsTo.trans {between : Memory} (first : memory.GrowsTo between) (more : between.GrowsTo later) :
    memory.GrowsTo later :=
  ⟨more.arrays ∘ first.arrays, more.objects ∘ first.objects⟩

theorem getElem?_push_of_some {α : Type} {rows : Array α} {id : Nat} {row : α}
    (found : rows[id]? = some row) (new : α) : (rows.push new)[id]? = some row := by
  obtain ⟨inside, -⟩ := Array.getElem?_eq_some_iff.mp found
  rw [Array.getElem?_push, if_neg (by omega), found]

def withArray (memory : Memory) (items : Array Value) : Memory :=
  { memory with arrays := memory.arrays.push items }

def withObject (memory : Memory) (entries : Entries) : Memory :=
  { memory with objects := memory.objects.push entries }

theorem growsTo_withArray (memory : Memory) (items : Array Value) :
    memory.GrowsTo (memory.withArray items) :=
  ⟨fun found => getElem?_push_of_some found items, id⟩

theorem growsTo_withObject (memory : Memory) (entries : Entries) :
    memory.GrowsTo (memory.withObject entries) :=
  ⟨id, fun found => getElem?_push_of_some found entries⟩

theorem items_withArray {items : Array Value} (grown : (memory.withArray items).GrowsTo later) :
    later.items memory.arrays.size = items := by
  rw [Memory.items, grown.arrays Array.getElem?_push_size]
  rfl

theorem entries_withObject {entries : Entries} (grown : (memory.withObject entries).GrowsTo later) :
    later.entries memory.objects.size = entries := by
  rw [Memory.entries, grown.objects Array.getElem?_push_size]
  rfl

end Growth

section Copies

/-- From now on a value gives a tree, sorted, where there are enough levels and values for it; others are
left. -/
structure Shows (memory : Memory) (value : Value) (json : Json) : Prop where
  gives : ∀ later, memory.GrowsTo later → ∀ levels left, json.depth ≤ levels →
    later.toJsonWithin (levels + 1) (json.nodes + left) value = (json.sorted, left)

variable {memory later : Memory} {value : Value} {json : Json} {values : List Value} {items : List Json}
  {fields : List (String × Json)}

theorem Shows.grow (shown : memory.Shows value json) (grown : memory.GrowsTo later) :
    later.Shows value json :=
  ⟨fun last more => shown.gives last (grown.trans more)⟩

theorem shows_plain (no_array : ∀ id, value ≠ .array id) (no_object : ∀ id, value ≠ .object id)
    (same : plainJson value = json) (one : json.nodes = 1) (sorted : json.sorted = json) :
    memory.Shows value json := by
  constructor
  intro later _ levels left _
  rw [one, Nat.add_comm 1 left, toJsonWithin_plain levels left no_array no_object, same, sorted]

theorem convertItems_shown (each : List.Forall₂ memory.Shows values items) (grown : memory.GrowsTo later)
    {levels : Nat} (shallow : ∀ item ∈ items, item.depth < levels) (left : Nat) :
    convertItems (later.toJsonWithin levels) ((items.map Json.nodes).sum + left) [] values =
      (items.map Json.sorted, left) := by
  induction each with
  | nil => simp [convertItems]
  | cons shown _ of_rest =>
    obtain ⟨first_shallow, rest_shallow⟩ := List.forall_mem_cons.mp shallow
    obtain ⟨below, rfl⟩ := Nat.exists_eq_add_one_of_ne_zero (Nat.ne_zero_of_lt first_shallow)
    have first := shown.gives later grown below
    rw [List.map_cons, List.sum_cons, Nat.add_assoc, convertItems_cons,
      first _ (Nat.le_of_lt_succ first_shallow), of_rest rest_shallow, List.map_cons]

theorem shows_array (each : List.Forall₂ memory.Shows values items) :
    (memory.withArray values.toArray).Shows (.array memory.arrays.size) (.arr items) := by
  constructor
  intro later grown levels left shallow
  have inside := convertItems_shown each ((growsTo_withArray memory _).trans grown)
    (Json.depth_arr_le_iff.mp shallow) left
  rw [Json.nodes_arr, Nat.add_right_comm, toJsonWithin_array, items_withArray grown, inside,
    Json.sorted_arr]

theorem shows_object (each : List.Forall₂ memory.Shows values (fields.map (·.2))) :
    (memory.withObject ((Json.namesOf fields).zip values).toArray).Shows
      (.object memory.objects.size) (.obj fields) := by
  constructor
  intro later grown levels left shallow
  have inside := convertItems_shown each ((growsTo_withObject memory _).trans grown)
    (Json.depth_obj_le_iff.mp shallow) left
  have long : (Json.namesOf fields).length = values.length := by
    rw [each.length_eq, Json.namesOf, List.length_map, List.length_map]
  have paired : (Json.namesOf fields).zip ((fields.map (·.2)).map Json.sorted) =
      fields.map fun field => (field.1, field.2.sorted) := by
    rw [Json.namesOf, List.map_map, List.zip_map']
    rfl
  rw [Json.nodes_obj, Nat.add_right_comm, toJsonWithin_object, entries_withObject grown]
  dsimp only
  rw [List.map_fst_zip long.le, List.map_snd_zip long.ge, inside, paired, Json.sorted_obj]

/-- Reading a tree gives a value that shows it, and what was there before stays. -/
def Copied (json : Json) : Prop :=
  ∀ memory, ∃ value after, ofJson json memory = .ok value after ∧ memory.GrowsTo after ∧
    after.Shows value json

theorem copied_plain (returned : ∀ memory, ofJson json memory = .ok value memory)
    (no_array : ∀ id, value ≠ .array id) (no_object : ∀ id, value ≠ .object id)
    (same : plainJson value = json) (one : json.nodes = 1) (sorted : json.sorted = json) :
    Copied json :=
  fun memory => ⟨value, memory, returned memory, .refl memory,
    shows_plain no_array no_object same one sorted⟩

theorem ofItems_copied (each : ∀ item ∈ items, Copied item) (back : Array Value) (memory : Memory) :
    ∃ values after, ofItems back items memory = .ok (back ++ values.toArray) after ∧
      memory.GrowsTo after ∧ List.Forall₂ after.Shows values items := by
  induction items generalizing back memory with
  | nil =>
    refine ⟨[], memory, ?_, .refl memory, .nil⟩
    rw [Array.append_empty]
    rfl
  | cons item rest of_rest =>
    obtain ⟨value, between, read, grown, shown⟩ := each item (by simp) memory
    obtain ⟨values, after, read_rest, more, shown_rest⟩ :=
      of_rest (fun item is_item => each item (List.mem_cons_of_mem _ is_item)) (back.push value) between
    -- The copies of the rest come behind the first one, which is why it shows its item for good.
    refine ⟨value :: values, after, ?_, grown.trans more, .cons (shown.grow more) shown_rest⟩
    rw [ofItems, bind_apply, read]
    dsimp only
    rw [read_rest]
    simp

theorem set_new {entries : Entries} {name : String} (new : ∀ entry ∈ entries, entry.1 ≠ name)
    (value : Value) : entries.set name value = entries.push (name, value) := by
  have absent : entries.findIdx? (·.1 == name) = none := by
    rw [Array.findIdx?_eq_none_iff]
    intro entry is_entry
    simpa using new entry is_entry
  rw [Entries.set, absent]

theorem ofFields_copied (each : ∀ field ∈ fields, Copied field.2) (distinct : (Json.namesOf fields).Nodup)
    {back : Entries} (apart : ∀ entry ∈ back, entry.1 ∉ Json.namesOf fields) (memory : Memory) :
    ∃ values after,
      ofFields back fields memory = .ok (back ++ ((Json.namesOf fields).zip values).toArray) after ∧
        memory.GrowsTo after ∧ List.Forall₂ after.Shows values (fields.map (·.2)) := by
  induction fields generalizing back memory with
  | nil =>
    refine ⟨[], memory, ?_, .refl memory, .nil⟩
    rw [List.zip_nil_right, Array.append_empty]
    rfl
  | cons field rest of_rest =>
    obtain ⟨name, json⟩ := field
    obtain ⟨not_again, rest_distinct⟩ := List.nodup_cons.mp distinct
    obtain ⟨value, between, read, grown, shown⟩ := each (name, json) (by simp) memory
    have pushed : back.set name value = back.push (name, value) := by
      apply set_new
      rintro entry is_entry rfl
      exact apart entry is_entry (by simp [Json.namesOf])
    have rest_apart : ∀ entry ∈ back.push (name, value), entry.1 ∉ Json.namesOf rest := by
      intro entry is_entry
      rcases Array.mem_push.mp is_entry with before | rfl
      · exact fun later => apart entry before (List.mem_cons_of_mem _ later)
      · exact not_again
    obtain ⟨values, after, read_rest, more, shown_rest⟩ := of_rest
      (fun field is_field => each field (List.mem_cons_of_mem _ is_field)) rest_distinct rest_apart between
    refine ⟨value :: values, after, ?_, grown.trans more, .cons (shown.grow more) shown_rest⟩
    rw [ofFields, bind_apply, read]
    dsimp only
    rw [pushed, read_rest]
    simp [Json.namesOf]

theorem copied_of_exchangeable (exchangeable : json.Exchangeable) : Copied json := by
  induction exchangeable with
  | null => exact copied_plain (fun _ => rfl) (by simp) (by simp) rfl rfl rfl
  | bool value => exact copied_plain (fun _ => rfl) (by simp) (by simp) rfl rfl rfl
  | int small =>
    exact copied_plain (fun _ => rfl) (by simp) (by simp) (Json.ofNumber_ofInt small) rfl rfl
  | float finite fraction =>
    exact copied_plain (fun _ => rfl) (by simp) (by simp) (Json.ofNumber_fraction finite fraction) rfl rfl
  | str value => exact copied_plain (fun _ => rfl) (by simp) (by simp) rfl rfl rfl
  | arr _ of_item =>
    intro memory
    obtain ⟨values, after, read, grown, each⟩ := ofItems_copied of_item #[] memory
    refine ⟨_, _, ?_, grown.trans (growsTo_withArray after _), shows_array each⟩
    rw [ofJson, bind_apply, read, Array.empty_append]
    rfl
  | @obj fields distinct _ of_field =>
    intro memory
    have apart : ∀ entry ∈ (#[] : Entries), entry.1 ∉ Json.namesOf fields := by simp
    obtain ⟨values, after, read, grown, each⟩ := ofFields_copied of_field distinct apart memory
    refine ⟨_, _, ?_, grown.trans (growsTo_withObject after _), shows_object each⟩
    rw [ofJson, bind_apply, read, Array.empty_append]
    rfl

end Copies

section Extents

/-- A tree is no deeper than its levels, and what is left of its values makes up for what is not null. -/
def StaysWithin (levels budget : Nat) (given : Json × Nat) : Prop :=
  given.1.depth ≤ levels ∧ given.1.substance + given.2 ≤ budget

theorem plainJson_extent (value : Value) :
    (plainJson value).depth = 0 ∧ (plainJson value).substance ≤ 1 := by
  cases value with
  | number value =>
    rw [plainJson, Json.ofNumber]
    cases Number.smallInt? value with
    | some whole => exact ⟨rfl, le_rfl⟩
    | none =>
      dsimp only
      split
      · exact ⟨rfl, le_rfl⟩
      · exact ⟨rfl, Nat.zero_le 1⟩
  | bool value => exact ⟨rfl, le_rfl⟩
  | str value => exact ⟨rfl, le_rfl⟩
  | _ => exact ⟨rfl, Nat.zero_le 1⟩

theorem stays_plain (memory : Memory) (levels budget : Nat) {value : Value}
    (no_array : ∀ id, value ≠ .array id) (no_object : ∀ id, value ≠ .object id) :
    StaysWithin (levels + 1) (budget + 1) (memory.toJsonWithin (levels + 1) (budget + 1) value) := by
  obtain ⟨flat, small⟩ := plainJson_extent value
  rw [toJsonWithin_plain levels budget no_array no_object]
  constructor
  · rw [flat]
    exact Nat.zero_le _
  · dsimp only
    omega

theorem convertItems_extent {α : Type} {convert : Nat → α → Json × Nat} {levels : Nat}
    (each : ∀ budget item, StaysWithin levels budget (convert budget item)) (budget : Nat) (items : List α) :
    (∀ json ∈ (convertItems convert budget [] items).1, json.depth < levels + 1) ∧
      ((convertItems convert budget [] items).1.map Json.substance).sum +
        (convertItems convert budget [] items).2 ≤ budget := by
  induction items generalizing budget with
  | nil => simp [convertItems]
  | cons item rest of_rest =>
    obtain ⟨first_shallow, first_spent⟩ := each budget item
    obtain ⟨rest_shallow, rest_spent⟩ := of_rest (convert budget item).2
    rw [convertItems_cons]
    constructor
    · rw [List.forall_mem_cons]
      exact ⟨Nat.lt_succ_of_le first_shallow, rest_shallow⟩
    · rw [List.map_cons, List.sum_cons]
      omega

theorem map_snd_zip_convertItems {α : Type} (convert : Nat → α → Json × Nat) (budget : Nat)
    (entries : List (String × α)) :
    ((entries.map (·.1)).zip (convertItems convert budget [] (entries.map (·.2))).1).map (·.2) =
      (convertItems convert budget [] (entries.map (·.2))).1 := by
  apply List.map_snd_zip
  rw [length_convertItems, List.length_map, List.length_map]

theorem toJsonWithin_stays (memory : Memory) (levels budget : Nat) (value : Value) :
    StaysWithin levels budget (memory.toJsonWithin levels budget value) := by
  induction levels generalizing budget value with
  | zero =>
    rw [toJsonWithin]
    exact ⟨le_rfl, (Nat.zero_add budget).le⟩
  | succ levels of_levels =>
    cases budget with
    | zero => exact ⟨Nat.zero_le _, le_rfl⟩
    | succ budget =>
      cases value with
      | array id =>
        obtain ⟨shallow, spent⟩ := convertItems_extent of_levels budget (memory.items id).toList
        rw [toJsonWithin_array]
        constructor
        · exact Json.depth_arr_le_iff.mpr shallow
        · rw [Json.substance_arr]
          omega
      | object id =>
        obtain ⟨shallow, spent⟩ :=
          convertItems_extent of_levels budget ((memory.entries id).toList.map (·.2))
        rw [toJsonWithin_object]
        dsimp only
        constructor
        · apply Json.depth_object_le
          rwa [map_snd_zip_convertItems]
        · apply (Nat.add_le_add_right Json.substance_object_le _).trans
          rw [map_snd_zip_convertItems]
          omega
      | _ => exact stays_plain memory levels budget (by simp) (by simp)

end Extents

/-- A tree with distinct names that is not too deep or large comes back from memory sorted, and as it was if
its names were in order; and no value, whatever holds whatever, gives a tree that is too deep or large. -/
theorem bridge_round_trips (memory : Memory) :
    (∀ json : Json, json.Exchangeable → json.depth ≤ 64 → json.nodes ≤ 1000000 →
      ∃ value after, ofJson json memory = .ok value after ∧ after.toJson value = json.sorted ∧
        (json.InOrder → after.toJson value = json)) ∧
    ∀ value : Value, (memory.toJson value).depth ≤ 65 ∧ (memory.toJson value).substance ≤ 1000000 := by
  constructor
  · intro json exchangeable shallow small
    obtain ⟨value, after, read, -, shown⟩ := copied_of_exchangeable exchangeable memory
    have given := shown.gives after (.refl after) 64 (1000000 - json.nodes) shallow
    rw [Nat.add_sub_cancel' small] at given
    have given : after.toJson value = json.sorted := congrArg Prod.fst given
    exact ⟨value, after, read, given, fun in_order => given.trans in_order.sorted_eq⟩
  · intro value
    obtain ⟨shallow, spent⟩ := toJsonWithin_stays memory jsonLevels jsonBudget value
    exact ⟨shallow, (Nat.le_add_right _ _).trans spent⟩

/-- A tree of every kind comes back, and an array that holds itself twice gives a tree. -/
theorem bridge_round_trips_cell :
    let cell := Json.obj [("at", .arr [.int (-3), .float 2.5]), ("free", .bool true), ("owner", .null)]
    let around : Memory := { Memory.fresh with arrays := #[#[.array 0, .array 0]] }
    cell.Exchangeable ∧ cell.depth ≤ 64 ∧ cell.nodes ≤ 1000000 ∧ cell.InOrder ∧
      (∃ value after, ofJson cell around = .ok value after ∧ after.toJson value = cell) ∧
      (around.toJson (.array 0)).depth ≤ 65 ∧ (around.toJson (.array 0)).substance ≤ 1000000 := by
  intro cell around
  have exchangeable : cell.Exchangeable := by
    apply Json.Exchangeable.obj (by decide)
    simp only [List.forall_mem_cons]
    refine ⟨.arr ?_, .bool true, .null, by simp⟩
    simp only [List.forall_mem_cons]
    exact ⟨.int (by decide), .float (by decide +kernel) (by decide +kernel), by simp⟩
  have in_order : cell.InOrder := by
    apply Json.InOrder.obj (by decide)
    simp only [List.forall_mem_cons]
    refine ⟨.arr ?_, .bool true, .null, by simp⟩
    simp only [List.forall_mem_cons]
    exact ⟨.int (-3), .float 2.5, by simp⟩
  have shallow : cell.depth ≤ 64 := by decide
  have small : cell.nodes ≤ 1000000 := by decide
  obtain ⟨round, bounded⟩ := bridge_round_trips around
  obtain ⟨value, after, read, -, same⟩ := round cell exchangeable shallow small
  exact ⟨exchangeable, shallow, small, in_order, ⟨value, after, read, same in_order⟩,
    bounded (.array 0)⟩

end Script.Memory
end Tabletop
