import Tabletop.Proofs.Script.Reads

/-!
Lengths of the arrays in memory. Most of what makes an array checks its length first. Where nothing is
checked, the array is no longer than what it is made of: the literal, the text that is read, or the
object or array whose properties are listed.
-/

namespace Tabletop.Script

/-- Some object has so many properties or more. -/
def Memory.Reaches (memory : Memory) (count : Nat) : Prop :=
  ∃ entries ∈ memory.objects, count ≤ entries.size

/-- Programs of these parts may list what an object has. -/
def Lists (allowed : Part → Prop) : Prop :=
  allowed (.method "keys") ∨ allowed (.method "values") ∨ allowed (.method "entries")

/-- An array of so many items may stand in memory. -/
def Memory.MayHold (allowed : Part → Prop) (limit : Nat) (memory : Memory) (length : Nat) : Prop :=
  length ≤ limit ∨ Lists allowed ∧ memory.Reaches length

/-- No array has more items than a limit, or than an object has properties if those may be listed. The
functions that can be called are made of parts that are allowed. -/
structure Memory.ArraysFit (allowed : Part → Prop) (limit : Nat) (memory : Memory) : Prop where
  arrays : ∀ items ∈ memory.arrays, memory.MayHold allowed limit items.size
  closures : ∀ closure ∈ memory.closures, ∀ part ∈ closure.definition.parts, allowed part

/-- Arrays keep within a limit, and objects do not shrink. -/
def arraysFit (allowed : Part → Prop) (limit : Nat) : Invariant where
  holds := Memory.ArraysFit allowed limit
  later memory after := ∀ count, memory.Reaches count → after.Reaches count
  value _ := True
  part := allowed
  refl _ _ reaches := reaches
  trans sooner later count reaches := later count (sooner count reaches)

/-- What bounds the arrays that allowed parts of programs make without a check. Text that is read has two
characters for each item of an array, and a bracket. -/
structure Covers (limits : Limits) (allowed : Part → Prop) (limit : Nat) : Prop where
  checked : limits.maxArrayLength ≤ limit
  literals : ∀ {length}, allowed (.array length) → length ≤ limit
  read : allowed (.method "parse") → limits.maxStringLength ≤ 2 * limit + 1
  pairs : allowed (.method "entries") → 2 ≤ limit
  whole : allowed (.method "split") → 1 ≤ limit

/-- Parts of programs that make no array without a check, or one that fits. -/
def Part.Checked (limit : Nat) : Part → Prop
  | .text _ => True
  | .array length => length ≤ limit
  | .method name => name ∉ ["parse", "keys", "values", "entries"] ∧ (name = "split" → 1 ≤ limit)

instance (limit : Nat) : DecidablePred (Part.Checked limit)
  | .text _ => .isTrue trivial
  | .array length => inferInstanceAs (Decidable (length ≤ limit))
  | .method name => inferInstanceAs (Decidable
      (name ∉ ["parse", "keys", "values", "entries"] ∧ (name = "split" → 1 ≤ limit)))

theorem covers_checked (limits : Limits) :
    Covers limits (Part.Checked limits.maxArrayLength) limits.maxArrayLength where
  checked := Nat.le_refl _
  literals fits := fits
  read called := absurd (by simp) called.1
  pairs called := absurd (by simp) called.1
  whole called := called.2 rfl

theorem not_lists_checked (limit : Nat) : ¬ Lists (Part.Checked limit) := by
  rintro (called | called | called)
  all_goals exact absurd (by simp) called.1

theorem Memory.mayHold_checked {limit length : Nat} {memory : Memory} :
    memory.MayHold (Part.Checked limit) limit length ↔ length ≤ limit :=
  or_iff_left fun lists => not_lists_checked limit lists.1

namespace Lengths

variable {allowed : Part → Prop} {limit : Nat} {memory : Memory}

/-! ## Memory -/

theorem Reaches.fewer {count fewer : Nat} (reaches : memory.Reaches count) (less : fewer ≤ count) :
    memory.Reaches fewer := by
  obtain ⟨entries, is_one, many⟩ := reaches
  exact ⟨entries, is_one, Nat.le_trans less many⟩

theorem MayHold.shorter {length shorter : Nat} (may : memory.MayHold allowed limit length)
    (less : shorter ≤ length) : memory.MayHold allowed limit shorter := by
  rcases may with fits | ⟨lists, reaches⟩
  · exact .inl (Nat.le_trans less fits)
  · exact .inr ⟨lists, Reaches.fewer reaches less⟩

theorem MayHold.later {after : Memory} {length : Nat} (may : memory.MayHold allowed limit length)
    (later : (arraysFit allowed limit).later memory after) : after.MayHold allowed limit length := by
  rcases may with fits | ⟨lists, reaches⟩
  · exact .inl fits
  · exact .inr ⟨lists, later length reaches⟩

theorem MayHold.items (fits : memory.ArraysFit allowed limit) (id : Nat) :
    memory.MayHold allowed limit (memory.items id).size := by
  unfold Memory.items
  cases found : memory.arrays[id]? with
  | none => exact .inl (Nat.zero_le _)
  | some items => exact fits.arrays items (Array.mem_of_getElem? found)

theorem MayHold.entriesOf (fits : memory.ArraysFit allowed limit) (lists : Lists allowed)
    (value : Value) : memory.MayHold allowed limit (memory.entriesOf value).length := by
  cases value with
  | object id =>
    rw [Memory.entriesOf, Array.length_toList, Memory.entries]
    cases found : memory.objects[id]? with
    | none => exact .inl (Nat.zero_le _)
    | some entries => exact .inr ⟨lists, entries, Array.mem_of_getElem? found, Nat.le_refl _⟩
  | array id =>
    rw [Memory.entriesOf, List.length_map, List.length_zipIdx, Array.length_toList]
    exact MayHold.items fits id
  | _ => exact .inl (Nat.zero_le _)

theorem ArraysFit.same_objects (fits : memory.ArraysFit allowed limit) {after : Memory}
    (objects : after.objects = memory.objects)
    (arrays : ∀ items ∈ after.arrays, items ∈ memory.arrays ∨ memory.MayHold allowed limit items.size)
    (closures : ∀ closure ∈ after.closures, closure ∈ memory.closures ∨
      ∀ part ∈ closure.definition.parts, allowed part) :
    after.ArraysFit allowed limit ∧ (arraysFit allowed limit).later memory after := by
  have reaches : ∀ count, memory.Reaches count → after.Reaches count := by
    intro count reached
    unfold Memory.Reaches
    rwa [objects]
  refine ⟨⟨fun items is_one => ?_, fun closure is_one => ?_⟩, reaches⟩
  · have may : memory.MayHold allowed limit items.size := by
      rcases arrays items is_one with is_old | may
      · exact fits.arrays items is_old
      · exact may
    exact MayHold.later may reaches
  · rcases closures closure is_one with is_old | parts
    · exact fits.closures closure is_old
    · exact parts

theorem ArraysFit.setItems (fits : memory.ArraysFit allowed limit) {id : Nat}
    {change : Array Value → Array Value}
    (may : memory.MayHold allowed limit (change (memory.items id)).size) :
    (memory.setItems id change).ArraysFit allowed limit ∧
      (arraysFit allowed limit).later memory (memory.setItems id change) := by
  refine ArraysFit.same_objects fits rfl (fun items is_one => ?_) fun _ is_one => .inl is_one
  rcases mem_modify is_one with is_old | ⟨old, found, rfl⟩
  · exact .inl is_old
  · rw [Memory.items, found] at may
    exact .inr may

/-- Objects that do not shrink leave room for the arrays that there are. -/
theorem ArraysFit.grown (fits : memory.ArraysFit allowed limit) {after : Memory}
    (arrays : after.arrays = memory.arrays) (closures : after.closures = memory.closures)
    (objects : ∀ entries ∈ memory.objects, ∃ more ∈ after.objects, entries.size ≤ more.size) :
    after.ArraysFit allowed limit ∧ (arraysFit allowed limit).later memory after := by
  have reaches : ∀ count, memory.Reaches count → after.Reaches count := by
    rintro count ⟨entries, is_one, many⟩
    obtain ⟨more, is_more, grown⟩ := objects entries is_one
    exact ⟨more, is_more, Nat.le_trans many grown⟩
  refine ⟨⟨fun items is_one => ?_, fun closure is_one => ?_⟩, reaches⟩
  · rw [arrays] at is_one
    exact MayHold.later (fits.arrays items is_one) reaches
  · rw [closures] at is_one
    exact fits.closures closure is_one

theorem ArraysFit.setEntries (fits : memory.ArraysFit allowed limit) (id : Nat)
    {change : Entries → Entries} (grown : ∀ entries, entries.size ≤ (change entries).size) :
    (memory.setEntries id change).ArraysFit allowed limit ∧
      (arraysFit allowed limit).later memory (memory.setEntries id change) := by
  refine ArraysFit.grown fits rfl rfl fun entries is_one => ?_
  obtain ⟨index, found⟩ := Array.mem_iff_getElem?.mp is_one
  by_cases same : id = index
  · have changed : (memory.objects.modify id change)[index]? = some (change entries) := by
      rw [Array.getElem?_modify, if_pos same, found, Option.map_some]
    exact ⟨change entries, Array.mem_of_getElem? changed, grown entries⟩
  · have unchanged : (memory.objects.modify id change)[index]? = some entries := by
      rw [Array.getElem?_modify, if_neg same, found]
    exact ⟨entries, Array.mem_of_getElem? unchanged, Nat.le_refl _⟩

theorem size_le_set (entries : Entries) (key : String) (value : Value) :
    entries.size ≤ (entries.set key value).size := by
  unfold Entries.set
  split
  · exact Nat.le_of_eq Array.size_setIfInBounds.symm
  · rw [Array.size_push]
    exact Nat.le_succ _

theorem size_le_setAll (entries : Entries) (added : List (String × Value)) :
    entries.size ≤ (setAll entries added).size := by
  induction added generalizing entries with
  | nil => exact Nat.le_refl _
  | cons entry rest of_rest => exact Nat.le_trans (size_le_set entries entry.1 entry.2) (of_rest _)

/-! ## Steps -/

variable {limits : Limits}

theorem endsIn_newArray (fits : memory.ArraysFit allowed limit) {items : Array Value}
    (may : memory.MayHold allowed limit items.size) :
    (arraysFit allowed limit).EndsIn memory (fun _ => True) (newArray items memory) := by
  refine ⟨trivial, ArraysFit.same_objects fits rfl (fun other is_one => ?_) fun _ is_one => .inl is_one⟩
  rcases Array.mem_push.mp is_one with is_old | rfl
  · exact .inl is_old
  · exact .inr may

theorem keeps_newArray {items : Array Value} (short : items.size ≤ limit) :
    (arraysFit allowed limit).KeepsMemory (newArray items) :=
  fun _ fits => endsIn_newArray fits (.inl short)

theorem keeps_newObject (entries : Entries) :
    (arraysFit allowed limit).KeepsMemory (newObject entries) := by
  refine fun memory fits => ⟨trivial, ArraysFit.grown fits rfl rfl fun old is_old => ?_⟩
  exact ⟨old, Array.mem_push_of_mem entries is_old, Nat.le_refl _⟩

theorem keeps_newFunction {definition : FunctionDef} (scope : Scope)
    (parts : ∀ part ∈ definition.parts, allowed part) :
    (arraysFit allowed limit).KeepsMemory (newFunction definition scope) := by
  refine fun memory fits => ⟨trivial,
    ArraysFit.same_objects fits rfl (fun _ is_one => .inl is_one) fun closure is_one => ?_⟩
  rcases Array.mem_push.mp is_one with is_old | rfl
  · exact .inl is_old
  · exact .inr parts

/-- Frames, steps and the console have no arrays. -/
theorem ArraysFit.beside (fits : memory.ArraysFit allowed limit) (frames : Array Frame) (steps : Nat)
    (lines : List String) (size : Option Nat) :
    let after : Memory := ⟨memory.arrays, memory.objects, memory.closures, frames, steps, lines, size⟩
    after.ArraysFit allowed limit ∧ (arraysFit allowed limit).later memory after :=
  ArraysFit.same_objects fits rfl (fun _ is_one => .inl is_one) fun _ is_one => .inl is_one

theorem keeps_newScope (frame : Frame) (outer : Scope) :
    (arraysFit allowed limit).KeepsMemory (newScope frame outer) :=
  fun _ fits => ⟨trivial, ArraysFit.beside fits _ _ _ _⟩

theorem keeps_tick : (arraysFit allowed limit).KeepsMemory limits.tick := by
  intro memory fits
  rw [tick_apply]
  split
  · exact ArraysFit.beside fits _ _ _ _
  · exact ⟨trivial, ArraysFit.beside fits _ _ _ _⟩

theorem keeps_log (line : String) : (arraysFit allowed limit).KeepsMemory (limits.log line) := by
  intro memory fits
  obtain ⟨_, _, logged⟩ := log_apply limits line memory
  rw [logged]
  exact ⟨trivial, ArraysFit.beside fits _ _ _ _⟩

end Lengths
end Tabletop.Script
