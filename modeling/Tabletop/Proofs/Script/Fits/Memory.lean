import Tabletop.Proofs.Json.Size
import Tabletop.Proofs.Script.Fits.Parts
import Tabletop.Proofs.Script.Reads
import Tabletop.Script.Session

/-!
Memory in which no string and no key takes more bytes than a limit, as an invariant of runs.
-/

namespace Tabletop.Script

/-- A string takes no more bytes than a limit; other values have no bytes of their own. -/
def Value.Fits (limit : Nat) : Value → Prop
  | .str text => text.utf8ByteSize ≤ limit
  | _ => True

instance (limit : Nat) : (value : Value) → Decidable (value.Fits limit)
  | .str text => inferInstanceAs (Decidable (text.utf8ByteSize ≤ limit))
  | .undefined | .null | .bool _ | .number _ | .array _ | .object _ | .function _ | .builtin _
  | .library _ => .isTrue trivial

@[simp] theorem Value.fits_str {limit : Nat} {text : String} :
    (Value.str text).Fits limit ↔ text.utf8ByteSize ≤ limit := Iff.rfl

def Entries.Fit (limit : Nat) (entries : Entries) : Prop :=
  ∀ entry ∈ entries, entry.1.utf8ByteSize ≤ limit ∧ entry.2.Fits limit

def Frame.Fits (limit : Nat) (frame : Frame) : Prop := ∀ entry ∈ frame, entry.2.Fits limit

/-- What a statement returns, if it does, fits. -/
def Flow.Fits (limit : Nat) : Flow → Prop
  | .ret value => value.Fits limit
  | _ => True

/-- Strings in arrays, in objects and their keys, in scopes, and in the functions that may be called take
no more bytes than a limit. -/
structure Memory.Fits (limit : Nat) (memory : Memory) : Prop where
  arrays : ∀ items ∈ memory.arrays, ∀ item ∈ items, item.Fits limit
  objects : ∀ entries ∈ memory.objects, entries.Fit limit
  frames : ∀ frame ∈ memory.frames, frame.Fits limit
  closures : ∀ closure ∈ memory.closures, closure.definition.Fits limit

variable {α : Type} {limit : Nat}

/-! ## Parts of values and memory -/

theorem Frame.Fits.lookup {frame : Frame} (fits : frame.Fits limit) {name : String} {value : Value}
    (found : frame.lookup name = some value) : value.Fits limit := by
  induction frame with
  | nil => cases found
  | cons entry rest of_rest =>
    obtain ⟨entry_fits, rest_fits⟩ := List.forall_mem_cons.mp fits
    rw [List.lookup_cons] at found
    split at found
    · cases found
      exact entry_fits
    · exact of_rest rest_fits found

section Parts

variable {memory : Memory} (fits : memory.Fits limit)

include fits

theorem Memory.Fits.items (id : Nat) : ∀ item ∈ memory.items id, item.Fits limit := by
  unfold Memory.items
  cases found : memory.arrays[id]? with
  | none => simp
  | some items => exact fits.arrays items (Array.mem_of_getElem? found)

theorem Memory.Fits.entries (id : Nat) : (memory.entries id).Fit limit := by
  unfold Memory.entries
  cases found : memory.objects[id]? with
  | none => simp [Entries.Fit]
  | some entries => exact fits.objects entries (Array.mem_of_getElem? found)

theorem Memory.Fits.frame (id : Nat) : (memory.frame id).Fits limit := by
  unfold Memory.frame
  cases found : memory.frames[id]? with
  | none => simp [Frame.Fits]
  | some frame => exact fits.frames frame (Array.mem_of_getElem? found)

theorem Memory.Fits.lookup? {name : String} {scope : Scope} {value : Value}
    (found : memory.lookup? name scope = some value) : value.Fits limit := by
  induction scope with
  | nil => cases found
  | cons id outer of_outer =>
    rw [Memory.lookup?] at found
    split at found
    · rename_i here
      cases found
      exact (fits.frame id).lookup here
    · exact of_outer found

end Parts

theorem Entries.Fit.get? {entries : Entries} (fit : entries.Fit limit) {key : String} {value : Value}
    (found : entries.get? key = some value) : value.Fits limit := by
  obtain ⟨entry, of_key, rfl⟩ := Option.map_eq_some_iff.mp found
  exact (fit entry (Array.mem_of_find?_eq_some of_key)).2

theorem Entries.Fit.set {entries : Entries} (fit : entries.Fit limit) {key : String} {value : Value}
    (key_fits : key.utf8ByteSize ≤ limit) (fits : value.Fits limit) :
    (entries.set key value).Fit limit :=
  Entries.all_set fit ⟨key_fits, fits⟩

theorem Frame.Fits.declare {frame : Frame} (frame_fits : frame.Fits limit) (name : String)
    {value : Value} (fits : value.Fits limit) : (frame.declare name value).Fits limit :=
  Frame.all_declare frame_fits name fits

theorem fresh_fits (limit : Nat) : Memory.fresh.Fits limit where
  arrays := by simp [Memory.fresh]
  objects := by simp [Memory.fresh]
  frames := by
    simp only [Memory.fresh, List.mem_toArray, List.mem_singleton, forall_eq]
    unfold Frame.Fits globalFrame
    simp only [List.forall_mem_cons]
    simp [Value.Fits]
  closures := by simp [Memory.fresh]

/-! ## Runs -/

/-- The memory that a run leaves fits a limit, and what it gives is good. -/
def EndsFitting (limit : Nat) (good : α → Prop) : EStateM.Result Fault Memory α → Prop
  | .ok value memory => good value ∧ memory.Fits limit
  | .error _ memory => memory.Fits limit

/-- No string in memory and no string of a program takes more bytes than a limit. -/
def stringsFit (limit : Nat) : Invariant where
  holds := Memory.Fits limit
  later _ _ := True
  value := Value.Fits limit
  part := Part.Fits limit
  refl _ := trivial
  trans _ _ := trivial

/-- From memory that fits a limit a run ends in memory that does, and gives what is good. -/
abbrev Keeps (limit : Nat) (good : α → Prop) (run : Run α) : Prop := (stringsFit limit).Keeps good run

/-- A run of which it does not matter here what it gives. -/
abbrev KeepsMemory (limit : Nat) (run : Run α) : Prop := Keeps limit (fun _ => True) run

theorem EndsFitting.of_endsIn {start : Memory} {good : α → Prop} {ended : EStateM.Result Fault Memory α}
    (ends : (stringsFit limit).EndsIn start good ended) : EndsFitting limit good ended := by
  cases ended with
  | ok value after => exact ⟨ends.1, ends.2.1⟩
  | error fault after => exact ends.1

/-! ## Steps on memory -/

theorem keeps_newArray {items : Array Value} (fit : ∀ item ∈ items, item.Fits limit) :
    Keeps limit (Value.Fits limit) (newArray items) :=
  fun _ fits => ⟨trivial, { fits with arrays := all_push fits.arrays fit }, trivial⟩

theorem keeps_newObject {entries : Entries} (fit : entries.Fit limit) :
    Keeps limit (Value.Fits limit) (newObject entries) :=
  fun _ fits => ⟨trivial, { fits with objects := all_push fits.objects fit }, trivial⟩

theorem keeps_newFunction {definition : FunctionDef} (definition_fits : definition.Fits limit)
    (scope : Scope) : Keeps limit (Value.Fits limit) (newFunction definition scope) :=
  fun _ fits => ⟨trivial, { fits with closures := all_push fits.closures definition_fits }, trivial⟩

theorem keeps_newScope {frame : Frame} (frame_fits : frame.Fits limit) (outer : Scope) :
    KeepsMemory limit (newScope frame outer) :=
  fun _ fits => ⟨trivial, { fits with frames := all_push fits.frames frame_fits }, trivial⟩

theorem Memory.Fits.declare {memory : Memory} (fits : memory.Fits limit) (id : Nat) (name : String)
    {value : Value} (value_fits : value.Fits limit) : (memory.declare id name value).Fits limit :=
  { fits with frames := all_modify fits.frames id fun _ frame_fits => frame_fits.declare name value_fits }

theorem Memory.Fits.setItems {memory : Memory} (fits : memory.Fits limit) (id : Nat)
    {change : Array Value → Array Value}
    (kept : ∀ items : Array Value, (∀ item ∈ items, item.Fits limit) →
      ∀ item ∈ change items, item.Fits limit) :
    (memory.setItems id change).Fits limit :=
  { fits with arrays := all_modify fits.arrays id kept }

theorem Memory.Fits.setEntries {memory : Memory} (fits : memory.Fits limit) (id : Nat)
    {change : Entries → Entries} (kept : ∀ entries, entries.Fit limit → (change entries).Fit limit) :
    (memory.setEntries id change).Fits limit :=
  { fits with objects := all_modify fits.objects id kept }

section Checks

variable {limits : Limits}

theorem keeps_tick : KeepsMemory limit limits.tick := by
  intro memory fits
  rw [tick_apply]
  split
  · exact ⟨{ fits with }, trivial⟩
  · exact ⟨trivial, { fits with }, trivial⟩

theorem keeps_log (line : String) : KeepsMemory limit (limits.log line) := by
  intro memory fits
  obtain ⟨_, _, logged⟩ := log_apply limits line memory
  rw [logged]
  exact ⟨trivial, { fits with }, trivial⟩

/-- A check that passes tells that a string may be so long. -/
theorem keeps_checkString (size : Nat) :
    Keeps limit (fun _ => size ≤ limits.maxStringLength) (limits.checkString size) :=
  (reads_checkString size).gives fun _ _ passed => checkString_le passed

theorem keeps_text (value : Value) :
    Keeps limit (fun text => text.utf8ByteSize ≤ limits.maxStringLength) (limits.text value) :=
  (reads_text value).gives fun _ _ given => text_size_le given

end Checks
end Tabletop.Script
