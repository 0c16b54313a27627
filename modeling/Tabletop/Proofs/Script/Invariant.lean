import Tabletop.Proofs.Script.Link
import Tabletop.Proofs.Script.Parts
import Tabletop.Script.Evaluation

/-!
Invariants of runs. An invariant tells what holds of memory wherever a run stands, how a memory goes
together with the later ones of the same run, and which values and parts of programs it allows. A run
that keeps an invariant keeps it whether it ends with a value or with a fault.
-/

namespace Tabletop.Script

/-! ## Arrays, frames and properties -/

theorem mem_modify {α : Type} {items : Array α} {id : Nat} {change : α → α} {item : α}
    (is_one : item ∈ items.modify id change) :
    item ∈ items ∨ ∃ old, items[id]? = some old ∧ item = change old := by
  obtain ⟨index, found⟩ := Array.mem_iff_getElem?.mp is_one
  rw [Array.getElem?_modify] at found
  split at found
  · rename_i same
    subst same
    obtain ⟨old, is_old, rfl⟩ := Option.map_eq_some_iff.mp found
    exact .inr ⟨old, is_old, rfl⟩
  · exact .inl (Array.mem_of_getElem? found)

theorem all_modify {α : Type} {good : α → Prop} {items : Array α} (all : ∀ item ∈ items, good item)
    (id : Nat) {change : α → α} (kept : ∀ item, good item → good (change item)) :
    ∀ item ∈ items.modify id change, good item := by
  intro item is_one
  rcases mem_modify is_one with is_old | ⟨old, found, rfl⟩
  · exact all item is_old
  · exact kept old (all old (Array.mem_of_getElem? found))

theorem all_push {α : Type} {good : α → Prop} {items : Array α} (all : ∀ item ∈ items, good item)
    {last : α} (is_good : good last) : ∀ item ∈ items.push last, good item := by
  intro item is_one
  rcases Array.mem_push.mp is_one with is_old | rfl
  · exact all item is_old
  · exact is_good

theorem Frame.all_declare {good : Value → Prop} {frame : Frame} (all : ∀ entry ∈ frame, good entry.2)
    (name : String) {value : Value} (is_good : good value) :
    ∀ entry ∈ frame.declare name value, good entry.2 := by
  induction frame with
  | nil =>
    intro entry is_one
    rw [List.mem_singleton.mp is_one]
    exact is_good
  | cons first rest of_rest =>
    obtain ⟨other, old⟩ := first
    obtain ⟨old_good, rest_good⟩ := List.forall_mem_cons.mp all
    unfold Frame.declare
    split
    · exact List.forall_mem_cons.mpr ⟨is_good, rest_good⟩
    · exact List.forall_mem_cons.mpr ⟨old_good, of_rest rest_good⟩

theorem all_bindParameters {good : Value → Prop} (undefined : good .undefined) {frame : Frame}
    (all : ∀ entry ∈ frame, good entry.2) (params : List String) {values : List Value}
    (values_good : ∀ value ∈ values, good value) :
    ∀ entry ∈ bindParameters frame params values, good entry.2 := by
  induction params generalizing frame values with
  | nil => exact all
  | cons name rest of_rest =>
    cases values with
    | nil => exact of_rest (Frame.all_declare all name undefined) values_good
    | cons value values =>
      obtain ⟨is_good, values_good⟩ := List.forall_mem_cons.mp values_good
      exact of_rest (Frame.all_declare all name is_good) values_good

theorem Entries.all_set {good : String × Value → Prop} {entries : Entries}
    (all : ∀ entry ∈ entries, good entry) {key : String} {value : Value} (is_good : good (key, value)) :
    ∀ entry ∈ entries.set key value, good entry := by
  intro entry is_one
  unfold Entries.set at is_one
  split at is_one
  · rcases Array.mem_or_eq_of_mem_setIfInBounds is_one with is_old | rfl
    · exact all entry is_old
    · exact is_good
  · exact all_push all is_good entry is_one

/-! ## Invariants -/

structure Invariant where
  holds : Memory → Prop
  /-- A memory and one that the same run comes to later. -/
  later : Memory → Memory → Prop
  value : Value → Prop
  part : Part → Prop
  refl : ∀ memory, later memory memory
  trans : ∀ {first second third}, later first second → later second third → later first third

namespace Invariant

variable {α β : Type} {inv : Invariant}

/-- A run that began in one memory has ended with what is good, in a memory where the invariant holds. -/
def EndsIn (inv : Invariant) (start : Memory) (good : α → Prop) :
    EStateM.Result Fault Memory α → Prop
  | .ok value after => good value ∧ inv.holds after ∧ inv.later start after
  | .error _ after => inv.holds after ∧ inv.later start after

/-- From any memory where the invariant holds a run keeps it, and gives what is good. -/
def Keeps (inv : Invariant) (good : α → Prop) (run : Run α) : Prop :=
  ∀ memory, inv.holds memory → inv.EndsIn memory good (run memory)

/-- A run of which it does not matter here what it gives. -/
abbrev KeepsMemory (inv : Invariant) (run : Run α) : Prop := inv.Keeps (fun _ => True) run

def Admits (inv : Invariant) (parts : List Part) : Prop := ∀ part ∈ parts, inv.part part

@[simp] theorem admits_cons {part : Part} {parts : List Part} :
    inv.Admits (part :: parts) ↔ inv.part part ∧ inv.Admits parts := List.forall_mem_cons

@[simp] theorem admits_append {parts more : List Part} :
    inv.Admits (parts ++ more) ↔ inv.Admits parts ∧ inv.Admits more := List.forall_mem_append

/-! ## Runs one after another -/

section Ends

variable {start : Memory} {good : α → Prop} {better : β → Prop}

theorem EndsIn.since {earlier : Memory} {ended : EStateM.Result Fault Memory α}
    (later : inv.later earlier start) (ends : inv.EndsIn start good ended) :
    inv.EndsIn earlier good ended := by
  cases ended with
  | ok value after => exact ⟨ends.1, ends.2.1, inv.trans later ends.2.2⟩
  | error fault after => exact ⟨ends.1, inv.trans later ends.2⟩

theorem EndsIn.bind {run : Run α} {next : α → Run β} (first : inv.EndsIn start good (run start))
    (rest : ∀ value between, good value → inv.holds between → inv.later start between →
      inv.EndsIn between better (next value between)) :
    inv.EndsIn start better ((run >>= next) start) := by
  rw [bind_apply]
  cases of_run : run start with
  | ok value between =>
    rw [of_run] at first
    obtain ⟨is_good, holds, later⟩ := first
    exact (rest value between is_good holds later).since later
  | error fault after =>
    rw [of_run] at first
    exact first

end Ends

namespace Keeps

variable {good : α → Prop} {better : β → Prop}

theorem pure {value : α} (is_good : good value) : inv.Keeps good (pure value) :=
  fun memory holds => ⟨is_good, holds, inv.refl memory⟩

theorem throw (fault : Fault) : inv.Keeps good (throw fault) :=
  fun memory holds => ⟨holds, inv.refl memory⟩

theorem fault (cause : Cause) : inv.Keeps good (fault cause) := Keeps.throw _

theorem bind {run : Run α} {next : α → Run β} (first : inv.Keeps good run)
    (rest : ∀ value, good value → inv.Keeps better (next value)) : inv.Keeps better (run >>= next) :=
  fun memory holds => (first memory holds).bind fun value between is_good holds _ =>
    rest value is_good between holds

theorem map {run : Run α} (first : inv.Keeps good run) {result : α → β}
    (made : ∀ value, good value → better (result value)) :
    inv.Keeps better (run >>= fun value => Pure.pure (result value)) :=
  first.bind fun value is_good => .pure (made value is_good)

theorem mono {run : Run α} (kept : inv.Keeps good run) {weaker : α → Prop}
    (weaken : ∀ value, good value → weaker value) : inv.Keeps weaker run := by
  intro memory holds
  have ended := kept memory holds
  cases of_run : run memory with
  | ok value after =>
    rw [of_run] at ended
    exact ⟨weaken value ended.1, ended.2⟩
  | error fault after =>
    rw [of_run] at ended
    exact ended

theorem discard {run : Run α} (kept : inv.Keeps good run) : inv.KeepsMemory (discard run) := by
  rw [discard_eq_bind]
  exact kept.map fun _ _ => trivial

theorem read {next : Memory → Run α}
    (rest : ∀ memory, inv.holds memory → inv.Keeps good (next memory)) :
    inv.Keeps good (get >>= next) :=
  fun memory holds => rest memory holds memory holds

/-- A step that reads memory, where what follows depends on it. -/
theorem reading {next : Memory → Run α}
    (rest : ∀ memory, inv.holds memory → inv.EndsIn memory good (next memory memory)) :
    inv.Keeps good (get >>= next) := rest

theorem items {id : Nat} {next : Array Value → Run α}
    (rest : ∀ memory, inv.holds memory → inv.EndsIn memory good (next (memory.items id) memory)) :
    inv.Keeps good (itemsOf id >>= next) := rest

theorem modify {change : Memory → Memory}
    (kept : ∀ memory, inv.holds memory → inv.holds (change memory) ∧ inv.later memory (change memory)) :
    inv.KeepsMemory (modify change) :=
  fun memory holds => ⟨trivial, kept memory holds⟩

end Keeps

/-- What is called with allowed values gives one. -/
def CallerKeeps (inv : Invariant) (call : Caller) : Prop :=
  ∀ callee arguments, (∀ argument ∈ arguments, inv.value argument) →
    inv.Keeps inv.value (call callee arguments)

/-- An invariant that is kept by each single thing that programs do. -/
structure Lawful (inv : Invariant) (limits : Limits) : Prop where
  plain : ∀ {value : Value}, (∀ text, value ≠ .str text) → inv.value value
  empty : inv.value (.str "")
  fixed : ∀ {text}, inv.part (.text text) → inv.value (.str text)
  tick : inv.KeepsMemory limits.tick
  checkString : ∀ text : String,
    inv.Keeps (fun _ => inv.value (.str text)) (limits.checkString text.utf8ByteSize)
  text : ∀ value, inv.Keeps (fun text => inv.value (.str text)) (limits.text value)
  toNumber : ∀ value : Value, inv.KeepsMemory value.toNumber
  typeName : ∀ value : Value, inv.value (.str value.typeName)
  lookup : ∀ {memory name scope value}, inv.holds memory →
    memory.lookup? name scope = some value → inv.value value
  declare : ∀ {memory} id name {value}, inv.holds memory → inv.value value →
    inv.holds (memory.declare id name value) ∧ inv.later memory (memory.declare id name value)
  closure : ∀ {memory : Memory} {id : Nat} {closure : Closure}, inv.holds memory →
    memory.closures[id]? = some closure → inv.Admits closure.definition.parts
  newScope : ∀ {frame : Frame} (outer), (∀ entry ∈ frame, inv.value entry.2) →
    inv.KeepsMemory (newScope frame outer)
  newFunction : ∀ {definition : FunctionDef} (scope), inv.Admits definition.parts →
    inv.Keeps inv.value (newFunction definition scope)
  newArray : ∀ {values : List Value}, inv.part (.array values.length) →
    (∀ value ∈ values, inv.value value) → inv.Keeps inv.value (newArray values.toArray)
  newObject : ∀ {entries : Entries}, (∀ entry ∈ entries, inv.value (.str entry.1) ∧ inv.value entry.2) →
    inv.Keeps inv.value (newObject entries)
  getProperty : ∀ object name, inv.Keeps inv.value (getProperty object name)
  getIndex : ∀ object key, inv.Keeps inv.value (getIndex object key)
  setIndex : ∀ object key {value}, inv.value value → inv.KeepsMemory (setIndex limits object key value)
  unaryOp : ∀ (op : UnaryOp) value, inv.Keeps inv.value (op.apply value)
  binaryOp : ∀ (op : BinaryOp) left right, inv.Keeps inv.value (op.apply limits left right)
  builtin : ∀ (function : Builtin) arguments, inv.Keeps inv.value (function.apply limits arguments)
  method : ∀ {call receiver name arguments}, inv.part (.method name) → inv.CallerKeeps call →
    inv.value receiver → (∀ argument ∈ arguments, inv.value argument) →
    inv.Keeps inv.value (callMethod limits call receiver name arguments)
  iterated : ∀ value, inv.Keeps (fun items => ∀ item ∈ items, inv.value item) (iterated value)
  keysOf : ∀ value, inv.Keeps (fun keys => ∀ key ∈ keys, inv.value key) (keysOf value)

end Invariant
end Tabletop.Script
