import Tabletop.Proofs.Script.Console

/-!
Two runs side by side. A link says which memories the two are in at the same place of a program; a
second run is carried along by a first one if it ends as the first does, in memory that is paired
again, unless the first fails in a way that excuses the second.
-/

namespace Tabletop.Script

/-- How two runs go together. -/
structure Link where
  /-- The memories of the two runs at the same place. -/
  Paired : Memory → Memory → Prop
  /-- The memories that the two leave after a fault that they share. -/
  Failed : Fault → Memory → Memory → Prop
  /-- Faults of the first run after which nothing is said about the second. -/
  Excused : Fault → Prop

theorem bind_apply {α β : Type} (run : Run α) (next : α → Run β) (memory : Memory) :
    (run >>= next) memory = match run memory with
      | .ok value memory => next value memory
      | .error fault memory => .error fault memory := by
  change EStateM.bind run next memory = _
  unfold EStateM.bind
  cases run memory <;> rfl

theorem bind_eq_ok_iff {α β : Type} {run : Run α} {next : α → Run β} {memory after : Memory}
    {result : β} :
    (run >>= next) memory = .ok result after ↔
      ∃ value between, run memory = .ok value between ∧ next value between = .ok result after := by
  rw [bind_apply]
  constructor
  · intro ended
    split at ended
    · rename_i value between of_run
      exact ⟨value, between, of_run, ended⟩
    · cases ended
  · rintro ⟨value, between, of_run, ended⟩
    rw [of_run]
    exact ended

theorem pure_eq_ok_iff {α : Type} {value result : α} {memory after : Memory} :
    (pure value : Run α) memory = .ok result after ↔ value = result ∧ memory = after := by
  change EStateM.Result.ok value memory = .ok result after ↔ _
  rw [EStateM.Result.ok.injEq]

theorem discard_eq_bind {α : Type} (run : Run α) : discard run = run >>= fun _ => pure () := by
  rw [bind_pure_comp]
  rfl

theorem tick_apply (limits : Limits) (memory : Memory) :
    limits.tick memory =
      if limits.stepBudget < memory.steps + 1 then
        .error (.stepBudget limits.stepBudget) { memory with steps := memory.steps + 1 }
      else .ok () { memory with steps := memory.steps + 1 } := rfl

theorem text_apply (limits : Limits) (value : Value) (memory : Memory) :
    limits.text value memory =
      if limits.maxStringLength < (memory.render limits.maxStringLength value).utf8ByteSize then
        .error (.sizeLimit .stringLength limits.maxStringLength) memory
      else .ok (memory.render limits.maxStringLength value) memory := by
  rw [Limits.text, bind_apply]
  dsimp only [get, getThe, MonadStateOf.get, EStateM.get]
  rw [bind_apply, Limits.checkString]
  by_cases long : limits.maxStringLength <
      (memory.render limits.maxStringLength value).utf8ByteSize
  · simp only [long, if_true]
    rfl
  · simp only [long, if_false]
    rfl

theorem Value.toNumber_apply (value : Value) (memory : Memory) :
    value.toNumber memory = match memory.numberOf? value with
      | some n => .ok n memory
      | none => .error .endlessNumber memory := by
  rw [toNumber, bind_apply]
  dsimp only [get, getThe, MonadStateOf.get, EStateM.get]
  cases memory.numberOf? value <;> rfl

namespace Link

variable {α β : Type} {link : Link}

/-- The second run ends as the first one does. -/
def Ends (link : Link) : EStateM.Result Fault Memory α → EStateM.Result Fault Memory α → Prop
  | .ok value memory, ended => ∃ memory', ended = .ok value memory' ∧ link.Paired memory memory'
  | .error fault memory, ended => link.Excused fault ∨
    ∃ memory', ended = .error fault memory' ∧ link.Failed fault memory memory'

/-- From any paired memories the second run ends as the first one does. -/
def Carries (link : Link) (run run' : Run α) : Prop :=
  ∀ memory memory', link.Paired memory memory' → link.Ends (run memory) (run' memory')

theorem Carries.pure (value : α) : link.Carries (pure value) (pure value) :=
  fun _ memory' paired => ⟨memory', rfl, paired⟩

theorem Carries.excused {fault : Fault} (excused : link.Excused fault) (run' : Run α) :
    link.Carries (throw fault) run' :=
  fun _ _ _ => Or.inl excused

theorem Carries.bind {run run' : Run α} {next next' : α → Run β} (first : link.Carries run run')
    (rest : ∀ value, link.Carries (next value) (next' value)) :
    link.Carries (run >>= next) (run' >>= next') := by
  intro memory memory' paired
  have ended := first memory memory' paired
  rw [bind_apply, bind_apply]
  cases of_run : run memory with
  | ok value between =>
    rw [of_run] at ended
    obtain ⟨between', of_run', paired⟩ := ended
    rw [of_run']
    exact rest value between between' paired
  | error fault after =>
    rw [of_run] at ended
    obtain excused | ⟨after', of_run', failed⟩ := ended
    · exact .inl excused
    · rw [of_run']
      exact .inr ⟨after', rfl, failed⟩

/-- A run whose value is passed on by the one that follows. -/
theorem Carries.map {run run' : Run α} (first : link.Carries run run') (result : α → β) :
    link.Carries (run >>= fun value => Pure.pure (result value))
      (run' >>= fun value => Pure.pure (result value)) :=
  first.bind fun value => .pure (result value)

theorem Carries.discard {run run' : Run α} (first : link.Carries run run') :
    link.Carries (discard run) (discard run') := by
  rw [discard_eq_bind, discard_eq_bind]
  exact first.map fun _ => ()

/-- What a link needs in order to go together with all that programs do to memory, the first run
within `limits` and the second within `limits'`. -/
structure Lawful (link : Link) (limits limits' : Limits) : Prop where
  /-- Paired memories differ in what was written to the console at most. -/
  alike : ∀ {memory memory'}, link.Paired memory memory' →
    ∃ lines size, memory' = memory.withTrace lines size
  /-- Arrays, objects, functions and frames may change in both. -/
  heap : ∀ {memory memory'} (arrays objects closures frames), link.Paired memory memory' →
    link.Paired { memory with arrays, objects, closures, frames }
      { memory' with arrays, objects, closures, frames }
  runtime : ∀ {memory memory'} (cause), link.Paired memory memory' →
    link.Failed (.runtime cause) memory memory'
  endless : ∀ {memory memory' value}, link.Paired memory memory' →
    memory.numberOf? value = none → link.Failed .endlessNumber memory memory'
  tick : link.Carries limits.tick limits'.tick
  log : ∀ line, link.Carries (limits.log line) (limits'.log line)
  checkString : ∀ size, link.Carries (limits.checkString size) (limits'.checkString size)
  checkArray : ∀ length, link.Carries (limits.checkArray length) (limits'.checkArray length)
  text : ∀ value, link.Carries (limits.text value) (limits'.text value)

namespace Lawful

variable {limits limits' : Limits} (lawful : link.Lawful limits limits')

include lawful

theorem fault (cause : Cause) : link.Carries (fault cause : Run α) (fault cause) :=
  fun _ memory' paired => .inr ⟨memory', rfl, lawful.runtime cause paired⟩

/-- A step that reads memory goes together if it does whatever is read, and the second run would read
the same with another trace. -/
theorem read {next next' : Memory → Run α}
    (unseen : ∀ memory lines size, next' (memory.withTrace lines size) = next' memory)
    (rest : ∀ memory, link.Carries (next memory) (next' memory)) :
    link.Carries (get >>= next) (get >>= next') := by
  intro memory memory' paired
  obtain ⟨lines, size, rfl⟩ := lawful.alike paired
  change link.Ends (next memory memory) (next' (memory.withTrace lines size) _)
  rw [unseen]
  exact rest memory memory _ paired

/-- A step that changes arrays, objects, functions and frames by what it finds in them. -/
theorem change {value : Memory → α} {arrays : Memory → Array (Array Value)}
    {objects : Memory → Array Entries} {closures : Memory → Array Closure}
    {frames : Memory → Array Frame}
    (unseen : ∀ memory lines size,
      value (memory.withTrace lines size) = value memory ∧
      arrays (memory.withTrace lines size) = arrays memory ∧
      objects (memory.withTrace lines size) = objects memory ∧
      closures (memory.withTrace lines size) = closures memory ∧
      frames (memory.withTrace lines size) = frames memory) :
    let run : Run α := fun memory => .ok (value memory)
      { memory with
        arrays := arrays memory
        objects := objects memory
        closures := closures memory
        frames := frames memory }
    link.Carries run run := by
  intro run memory memory' paired
  obtain ⟨lines, size, rfl⟩ := lawful.alike paired
  obtain ⟨same_value, same_arrays, same_objects, same_closures, same_frames⟩ :=
    unseen memory lines size
  refine ⟨_, ?_, lawful.heap (arrays memory) (objects memory) (closures memory) (frames memory)
    paired⟩
  simp only [run, same_value, same_arrays, same_objects, same_closures, same_frames]

theorem newArray (items : Array Value) : link.Carries (newArray items) (newArray items) :=
  lawful.change fun _ _ _ => ⟨rfl, rfl, rfl, rfl, rfl⟩

theorem newObject (entries : Entries) : link.Carries (newObject entries) (newObject entries) :=
  lawful.change fun _ _ _ => ⟨rfl, rfl, rfl, rfl, rfl⟩

theorem newFunction (definition : FunctionDef) (scope : Scope) :
    link.Carries (newFunction definition scope) (newFunction definition scope) :=
  lawful.change fun _ _ _ => ⟨rfl, rfl, rfl, rfl, rfl⟩

theorem newScope (frame : Frame) (outer : Scope) :
    link.Carries (newScope frame outer) (newScope frame outer) :=
  lawful.change fun _ _ _ => ⟨rfl, rfl, rfl, rfl, rfl⟩

theorem setItems (id : Nat) (update : Array Value → Array Value) :
    link.Carries (modify (·.setItems id update)) (modify (·.setItems id update)) :=
  lawful.change fun _ _ _ => ⟨rfl, rfl, rfl, rfl, rfl⟩

theorem setEntries (id : Nat) (update : Entries → Entries) :
    link.Carries (modify (·.setEntries id update)) (modify (·.setEntries id update)) :=
  lawful.change fun _ _ _ => ⟨rfl, rfl, rfl, rfl, rfl⟩

theorem declare (id : Nat) (name : String) (value : Value) :
    link.Carries (modify (·.declare id name value)) (modify (·.declare id name value)) :=
  lawful.change fun _ _ _ => ⟨rfl, rfl, rfl, rfl, rfl⟩

theorem assign (scope : Scope) (name : String) (value : Value) :
    link.Carries (modify (·.assign scope name value)) (modify (·.assign scope name value)) :=
  lawful.change fun memory lines size =>
    ⟨rfl, rfl, rfl, rfl, by rw [Memory.holder?_withTrace, Memory.frames_withTrace]⟩

theorem toNumber (value : Value) : link.Carries value.toNumber value.toNumber := by
  intro memory memory' paired
  obtain ⟨lines, size, rfl⟩ := lawful.alike paired
  rw [Value.toNumber_apply, Value.toNumber_apply, Memory.numberOf?_withTrace]
  cases number : memory.numberOf? value with
  | some number => exact ⟨_, rfl, paired⟩
  | none => exact .inr ⟨_, rfl, lawful.endless paired number⟩

end Lawful
end Link
end Tabletop.Script
