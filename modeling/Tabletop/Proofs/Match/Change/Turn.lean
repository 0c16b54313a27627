import Tabletop.Proofs.Match.Change.Event

/-!
What turns change that are not a person's, and with them what every call changes.
-/

namespace Tabletop.Match

variable {Board : Type} [StrongPlay Board]

/-- A log that goes on from a match's without an error. -/
def Continues (m : Match Board) (log : List Diagnostic) : Prop :=
  ∃ lines, (∀ line ∈ lines, line.level ≠ .error) ∧ log = m.log ++ lines

omit [StrongPlay Board] in
theorem Continues.refl (m : Match Board) : m.Continues m.log := ⟨[], by simp, by simp⟩

omit [StrongPlay Board] in
theorem Continues.warn {m : Match Board} {log : List Diagnostic} (mild : m.Continues log)
    (text : String) : m.Continues (log ++ [⟨.warning, text⟩]) := by
  obtain ⟨lines, levels, rfl⟩ := mild
  refine ⟨lines ++ [⟨.warning, text⟩], ?_, by simp⟩
  intro line member
  rcases List.mem_append.mp member with earlier | last
  · exact levels line earlier
  · simp [List.mem_singleton.mp last]

omit [StrongPlay Board] in
theorem noteOutcome_continues (m : Match Board) (outcome : Scoring.Outcome) :
    ∃ log, m.Continues log ∧ m.noteOutcome outcome = { m with log := log } := by
  have traced : m.Continues
      (m.log ++ outcome.trace.map fun line => ⟨.info, s!"program: {line}"⟩) := by
    refine ⟨_, ?_, rfl⟩
    intro line member
    obtain ⟨text, _, rfl⟩ := List.mem_map.mp member
    simp
  unfold noteOutcome
  simp only
  split
  · exact ⟨_, traced.warn _, rfl⟩
  · exact ⟨_, traced, rfl⟩

theorem buildPayload_continues (m : Match Board) :
    ∃ log, m.Continues log ∧ m.buildPayload.2 = { m with log := log } := by
  unfold buildPayload
  split
  · exact ⟨m.log, .refl m, rfl⟩
  · rename_i outcome _
    have noted := m.noteOutcome_continues outcome
    simp only
    split
    · exact noted
    · exact noted

theorem Change.of_abandon {m : Match Board} (failure : TurnFailure) (stream : RandomStream)
    (log : List Diagnostic) (turn : m.InTurn) :
    Change m (.roundAbandoned failure) (abandon { m with stream := stream, log := log } failure) :=
  .roundAbandoned stream _ turn

theorem change_of_beginTurn (m : Match Board) : Change m (m.deed .beginTurn) m.beginTurn.2 := by
  by_cases phase : m.phase = .playing
  · cases source : m.moverSource with
    | human =>
      simp only [deed, call, beginTurn, phase, source, ne_eq, not_true, ite_false]
      exact .kept m.program m.log
    | «local» difficulty =>
      simp only [deed, call, beginTurn, phase, source, ne_eq, not_true, ite_false]
      rw [← source]
      exact .turnLocked m.log phase (by simp [source])
    | solver =>
      obtain ⟨log, _, noted⟩ := buildPayload_continues { m with phase := .awaitingMove .solver }
      cases built : buildPayload { m with phase := .awaitingMove .solver } with
      | mk result after =>
        rw [built] at noted
        subst noted
        cases result with
        | ok payload =>
          simp only [deed, call, beginTurn, phase, source, built, ne_eq, not_true, ite_false]
          rw [← source]
          exact .turnLocked log phase (by simp [source])
        | error failure =>
          simp only [deed, call, beginTurn, phase, source, built, ne_eq, not_true, ite_false]
          exact .roundAbandoned m.stream _ (.inl ⟨phase, source⟩)
  · simp only [deed, call, beginTurn, ne_eq, phase, not_false_eq_true, ite_true]
    exact .kept m.program m.log

omit [StrongPlay Board] in
theorem turnDeed_error {maker : MoveSource} {failure : TurnFailure}
    (awaited : failure ≠ .notAwaiting) :
    (turnDeed maker (.error failure) : Deed Board) = .roundAbandoned failure := by
  cases failure with
  | notAwaiting => exact absurd rfl awaited
  | _ => rfl

/-- What is done with a turn that was awaited, whatever was logged and drawn in it before. -/
theorem change_of_abandoned {m : Match Board} {maker : MoveSource} {failure : TurnFailure}
    (locked : m.phase = .awaitingMove maker) (awaited : failure ≠ .notAwaiting) (file : SaveFile)
    (stream : RandomStream) (log : List Diagnostic) :
    Change m (turnDeed maker (abandoned { m with stream := stream, log := log } file failure).1)
      (abandoned { m with stream := stream, log := log } file failure).2.1 := by
  simp only [abandoned, turnDeed_error awaited]
  exact .of_abandon failure stream log (.inr ⟨maker, locked⟩)

theorem change_of_playChosen {m : Match Board} {maker : MoveSource}
    (locked : m.phase = .awaitingMove maker) (file : SaveFile) (position : Nat)
    (stream : RandomStream) (log : List Diagnostic) :
    Change m (turnDeed maker (playChosen { m with stream := stream, log := log } file position).1)
      (playChosen { m with stream := stream, log := log } file position).2.1 := by
  unfold playChosen
  split
  · rename_i report after saved played
    exact .of_playAt (.inr locked) stream log played
  · exact change_of_abandoned locked (by simp) file stream log

theorem change_of_completeLocal (m : Match Board) (file : SaveFile) :
    Change m (m.deed (.completeLocal file)) (m.completeLocal file).2.1 := by
  simp only [deed, call]
  unfold completeLocal
  split
  · rename_i difficulty awaited
    have named : m.lockedDifficulty = difficulty := by simp only [lockedDifficulty, awaited]
    have locked : m.phase = .awaitingMove (.local m.lockedDifficulty) := by rw [named, awaited]
    split
    · exact change_of_abandoned locked (by simp) file _ m.log
    · exact change_of_playChosen locked file _ _ m.log
  · exact .kept m.program m.log

theorem change_of_substitute {m : Match Board} {failure : TurnFailure}
    (locked : m.phase = .awaitingMove .solver) (file : SaveFile) :
    Change m (turnDeed .solver (m.substitute file failure).1) (m.substitute file failure).2.1 := by
  unfold substitute
  split
  · exact change_of_abandoned locked (by simp) file _ m.log
  · exact change_of_playChosen locked file _ _ _

theorem playSelected_eq_ok_iff {m : Match Board} {file : SaveFile} {position : Int}
    {played : MoveReport × Match Board × SaveFile} :
    m.playSelected file position = .ok played ↔
      0 ≤ position ∧ m.playAt file position.toNat = .ok played := by
  unfold playSelected
  by_cases below : position < 0
  · simp [below, Int.not_le.mpr below]
  · cases m.playAt file position.toNat <;> simp [below, Int.not_lt.mp below]

theorem change_of_completeRemote (m : Match Board) (file : SaveFile) (answer : Solver.Answer) :
    Change m (m.deed (.completeRemote file answer)) (m.completeRemote file answer).2.1 := by
  simp only [deed, call]
  unfold completeRemote
  split
  · rename_i locked
    split
    · exact change_of_abandoned locked (by simp) file m.stream m.log
    · rename_i reply
      split
      · rename_i report after saved selected
        obtain ⟨-, played⟩ := playSelected_eq_ok_iff.mp selected
        exact .of_playAt (.inr locked) m.stream m.log played
      · simp only
        split
        · exact change_of_abandoned locked (by simp) file m.stream m.log
        · exact change_of_substitute locked file
  · exact .kept m.program m.log

/-- Every call is one of the changes. -/
theorem call_change (m : Match Board) (call : Call) : Change m (m.deed call) (m.call call).2 := by
  cases call with
  | event file event => exact m.change_of_event file event
  | beginTurn => exact m.change_of_beginTurn
  | completeLocal file => exact m.change_of_completeLocal file
  | completeRemote file answer => exact m.change_of_completeRemote file answer
  | setProgram program => exact .kept program m.log
  | drainLog => exact .kept m.program []

theorem Change.settings_eq {m after : Match Board} {deed : Deed Board}
    (change : Change m deed after) : after.settings = m.settings := by
  cases change <;> rfl

@[simp] theorem run_settings (m : Match Board) (calls : List Call) :
    (m.run calls).settings = m.settings :=
  run_preserves (fun after => after.settings = m.settings)
    (fun after call same => (after.call_change call).settings_eq.trans same) m calls rfl

end Tabletop.Match
