import Tabletop.Proofs.Match.Change.Turn

/-!
Logs. A call only adds lines to a match's log, at its end; nothing but draining takes any away.
-/

namespace Tabletop.Match

variable {Board : Type} [StrongPlay Board]

section
omit [StrongPlay Board]

theorem log_note (m : Match Board) (level : Level) (text : String) :
    m.log <+: (m.note level text).log :=
  List.prefix_append _ _

theorem log_info (m : Match Board) (text : String) : m.log <+: (m.info text).log := m.log_note _ text

theorem log_warn (m : Match Board) (text : String) : m.log <+: (m.warn text).log := m.log_note _ text

theorem log_finishSeries (m : Match Board) (winner : Mark) : m.log <+: (m.finishSeries winner).log := by
  unfold finishSeries
  dsimp only
  split
  · exact (m.log_info _).trans (log_info _ _)
  · exact m.log_info _

theorem log_finishRound (m : Match Board) (winner : Mark) : m.log <+: (m.finishRound winner).2.log := by
  have told : m.log <+: Match.log { m.info s!"{winner.title} wins the round" with
      series := m.series.recordWin winner } := m.log_info _
  unfold finishRound
  dsimp only
  split
  · exact told.trans (log_finishSeries _ winner)
  · exact told

end

theorem log_goOn (m : Match Board) (mark : Mark) (effect : Effect) :
    m.log <+: (m.goOn mark effect).2.log := by
  unfold goOn
  split
  · dsimp only
    split
    · exact m.log_info _
    · exact List.prefix_refl _
  · exact m.log_finishRound _
  · exact m.log_info _

theorem log_saveGame (m : Match Board) (file : SaveFile) : m.log <+: (m.saveGame file).1.log := by
  unfold saveGame
  split
  · exact List.prefix_refl _
  · split
    · exact List.prefix_refl _
    · exact m.log_warn _

theorem log_afterMove (m : Match Board) (file : SaveFile) (mark : Mark) (position : Nat)
    (effect : Effect) : m.log <+: (m.afterMove file mark position effect).2.1.log := by
  have told := m.log_info s!"{mark.title} played {position}"
  unfold afterMove
  dsimp only
  split
  · exact ((told.trans (log_info _ _)).trans (log_goOn _ mark effect)).trans (log_saveGame _ file)
  · exact (told.trans (log_goOn _ mark effect)).trans (log_saveGame _ file)

theorem log_of_playAt {m after : Match Board} {file saved : SaveFile} {position : Nat}
    {report : MoveReport} (played : m.playAt file position = .ok (report, after, saved)) :
    m.log <+: after.log := by
  unfold playAt at played
  split at played
  · cases played
  · rename_i board effect _
    have told := log_afterMove { m with board := board } file m.mover position effect
    rw [Except.ok.inj played] at told
    exact told

/-! ## Events -/

omit [StrongPlay Board] in
theorem log_ignore (m : Match Board) (reason : Refusal) : m.log <+: (m.ignore reason).2.log :=
  m.log_warn _

theorem log_newRound (m : Match Board) : m.log <+: m.newRound.log := log_info _ _

theorem log_select (m : Match Board) (file : SaveFile) (position : Nat) :
    m.log <+: (m.select file position).2.1.log := by
  unfold select
  dsimp only
  split
  · exact m.log_ignore _
  · split
    · exact m.log_ignore _
    · split
      · rename_i played
        exact log_of_playAt played
      · exact m.log_ignore _

theorem log_loadGame (m : Match Board) (file : SaveFile) : m.log <+: (m.loadGame file).2.log := by
  unfold loadGame
  split
  · exact m.log_ignore _
  · split
    · exact m.log_ignore _
    · dsimp only
      split
      · exact m.log_ignore _
      · exact m.log_ignore _
      · split
        · exact m.log_ignore _
        · exact log_info _ _

theorem log_clearSaved (m : Match Board) (file : SaveFile) :
    m.log <+: (m.clearSaved file).2.1.log := by
  unfold clearSaved
  dsimp only
  split
  · exact m.log_ignore _
  · split
    · exact m.log_ignore _
    · exact m.log_ignore _
    · exact m.log_info _

omit [StrongPlay Board] in
theorem log_configure (m : Match Board) (mark : Mark) (source : MoveSource) :
    m.log <+: (m.configure mark source).2.log := by
  unfold configure
  split
  · exact m.log_ignore _
  · split
    · exact m.log_ignore _
    · split
      · exact List.prefix_refl _
      · exact log_info _ _

theorem log_handleUnlocked (m : Match Board) (file : SaveFile) (event : Event) :
    m.log <+: (m.handleUnlocked file event).2.1.log := by
  cases event with
  | enterSetup mode =>
    simp only [handleUnlocked, enterSetup]
    split
    · exact m.log_ignore _
    · exact log_info _ _
  | configure mark source => exact m.log_configure mark source
  | startGame =>
    simp only [handleUnlocked, startGame]
    split
    · exact m.log_ignore _
    · split
      · exact m.log_ignore _
      · exact log_newRound _
  | select position => exact m.log_select file position
  | «continue» =>
    simp only [handleUnlocked, continueSeries]
    split
    · exact m.log_newRound
    · exact List.prefix_refl _
    · exact m.log_ignore _
  | returnToSetup =>
    simp only [handleUnlocked, returnToSetup]
    split
    · exact m.log_ignore _
    · exact List.prefix_refl _
  | returnToModeSelect => exact List.prefix_refl _
  | loadGame => exact m.log_loadGame file
  | clearSaved => exact m.log_clearSaved file

theorem log_handle (m : Match Board) (file : SaveFile) (event : Event) :
    m.log <+: (m.handle file event).2.1.log := by
  unfold handle
  split
  · exact m.log_ignore _
  · exact m.log_handleUnlocked file event

/-! ## Turns -/

theorem log_abandon (m : Match Board) (failure : TurnFailure) : m.log <+: (m.abandon failure).log :=
  m.log_note _ _

theorem log_buildPayload (m : Match Board) : m.log <+: m.buildPayload.2.log := by
  obtain ⟨_, ⟨lines, _, rfl⟩, noted⟩ := m.buildPayload_continues
  rw [noted]
  exact List.prefix_append _ lines

theorem log_beginTurn (m : Match Board) : m.log <+: m.beginTurn.2.log := by
  have kept := log_buildPayload { m with phase := .awaitingMove m.moverSource }
  unfold beginTurn
  split
  · exact List.prefix_refl _
  · dsimp only
    split
    · exact List.prefix_refl _
    · exact List.prefix_refl _
    · split
      · rename_i built
        rw [built] at kept
        exact kept
      · rename_i built
        rw [built] at kept
        exact kept.trans (log_abandon _ _)

theorem log_abandoned (m : Match Board) (file : SaveFile) (failure : TurnFailure) :
    m.log <+: (m.abandoned file failure).2.1.log :=
  m.log_abandon failure

theorem log_playChosen (m : Match Board) (file : SaveFile) (position : Nat) :
    m.log <+: (m.playChosen file position).2.1.log := by
  unfold playChosen
  split
  · rename_i played
    exact log_of_playAt played
  · exact m.log_abandoned file _

theorem log_completeLocal (m : Match Board) (file : SaveFile) :
    m.log <+: (m.completeLocal file).2.1.log := by
  unfold completeLocal
  split
  · split
    · exact log_abandoned { m with stream := _ } file _
    · rename_i position stream _
      exact log_playChosen { m with stream := stream } file position
  · exact List.prefix_refl _

theorem log_substitute (m : Match Board) (file : SaveFile) (failure : TurnFailure) :
    m.log <+: (m.substitute file failure).2.1.log := by
  unfold substitute
  split
  · exact log_abandoned { m with stream := _ } file _
  · rename_i stream _
    exact (log_warn { m with stream := stream } _).trans (log_playChosen _ file _)

theorem log_completeRemote (m : Match Board) (file : SaveFile) (answer : Solver.Answer) :
    m.log <+: (m.completeRemote file answer).2.1.log := by
  unfold completeRemote
  split
  · split
    · exact m.log_abandoned file _
    · split
      · rename_i selected
        exact log_of_playAt (playSelected_eq_ok_iff.mp selected).2
      · dsimp only
        split
        · exact m.log_abandoned file _
        · exact m.log_substitute file _
  · exact List.prefix_refl _

theorem log_call (m : Match Board) {call : Call} (keeps : call ≠ .drainLog) :
    m.log <+: (m.call call).2.log := by
  cases call with
  | event file event => exact m.log_handle file event
  | beginTurn => exact m.log_beginTurn
  | completeLocal file => exact m.log_completeLocal file
  | completeRemote file answer => exact m.log_completeRemote file answer
  | setProgram program => exact List.prefix_refl _
  | drainLog => exact absurd rfl keeps

end Tabletop.Match
