import Tabletop.Proofs.Match.Change

/-!
What events change. An event that is ignored only logs a line; one that is accepted does what it asks
for.
-/

namespace Tabletop.Match

variable {Board : Type} [StrongPlay Board]

/-- An answer to an event together with the match after it. -/
def Answers (m : Match Board) (deed : Match Board → Deed Board) (answer : Response × Match Board) :
    Prop :=
  (∃ reason, answer = m.ignore reason) ∨
    ∃ after, answer = (.accepted, after) ∧ Change m (deed after) after

theorem enterSetup_answers (m : Match Board) (file : SaveFile) (mode : GameMode) :
    m.Answers (m.eventDeed file · (.enterSetup mode)) (m.enterSetup mode) := by
  unfold enterSetup
  split
  · exact .inl ⟨_, rfl⟩
  · rename_i phase
    exact .inr ⟨_, rfl, .modeChosen _ (Decidable.of_not_not phase)⟩

theorem configure_answers (m : Match Board) (file : SaveFile) (mark : Mark) (source : MoveSource) :
    m.Answers (m.eventDeed file · (.configure mark source)) (m.configure mark source) := by
  unfold configure
  split
  · exact .inl ⟨_, rfl⟩
  · rename_i phase
    split
    · exact .inl ⟨_, rfl⟩
    · rename_i unlocked
      refine .inr ?_
      by_cases same : m.sources.of mark = source
      · refine ⟨m, if_pos same, ?_⟩
        simp only [eventDeed, same, ite_true]
        exact .kept m.program m.log
      · refine ⟨_, if_neg same, ?_⟩
        simp only [eventDeed, same, ite_false]
        exact .sourceChanged _ (Decidable.of_not_not phase) unlocked same

theorem startGame_answers (m : Match Board) (file : SaveFile) :
    m.Answers (m.eventDeed file · .startGame) m.startGame := by
  unfold startGame
  split
  · exact .inl ⟨_, rfl⟩
  · rename_i phase
    split
    · exact .inl ⟨_, rfl⟩
    · exact .inr ⟨_, rfl, .roundOpened none _ (.inl (Decidable.of_not_not phase))⟩

theorem continueSeries_answers (m : Match Board) (file : SaveFile) :
    m.Answers (m.eventDeed file · .continue) m.continueSeries := by
  unfold continueSeries
  split
  · rename_i phase
    refine .inr ⟨_, rfl, ?_⟩
    simp only [eventDeed, phase]
    exact .roundOpened m.lastFailure _ (.inr phase)
  · rename_i phase
    refine .inr ⟨_, rfl, ?_⟩
    simp only [eventDeed, phase]
    exact .setupEntered m.log (by simp [phase]) (by simp [isLocked, phase])
  · exact .inl ⟨_, rfl⟩

theorem returnToSetup_answers {m : Match Board} (file : SaveFile) (unlocked : m.isLocked = false) :
    m.Answers (m.eventDeed file · .returnToSetup) m.returnToSetup := by
  unfold returnToSetup
  split
  · exact .inl ⟨_, rfl⟩
  · rename_i chosen
    exact .inr ⟨_, rfl, .setupEntered m.log chosen unlocked⟩

theorem returnToModeSelect_answers {m : Match Board} (file : SaveFile)
    (unlocked : m.isLocked = false) :
    m.Answers (m.eventDeed file · .returnToModeSelect) m.returnToModeSelect :=
  .inr ⟨_, rfl, .matchLeft m.log unlocked⟩

theorem loadGame_answers {m : Match Board} (file : SaveFile) (unlocked : m.isLocked = false) :
    m.Answers (m.eventDeed file · .loadGame) (m.loadGame file) := by
  unfold loadGame
  split
  · exact .inl ⟨_, rfl⟩
  · rename_i chosen
    split
    · exact .inl ⟨_, rfl⟩
    · rename_i place placed
      simp only
      split
      · exact .inl ⟨_, rfl⟩
      · exact .inl ⟨_, rfl⟩
      · rename_i saved loaded
        split
        · exact .inl ⟨_, rfl⟩
        · rename_i unfinished
          have found : m.saved? file = some saved := by
            simp [saved?, placed, loaded, Except.toOption]
          refine .inr ⟨_, rfl, ?_⟩
          simp only [eventDeed, found]
          exact .gameLoaded _ chosen unlocked (by simpa using unfinished)

theorem clearSaved_answers (m : Match Board) (file : SaveFile) :
    m.Answers (m.eventDeed file · .clearSaved)
      ((m.clearSaved file).1, (m.clearSaved file).2.1) := by
  unfold clearSaved
  simp only
  split
  · exact .inl ⟨_, rfl⟩
  · split
    · exact .inl ⟨_, rfl⟩
    · exact .inl ⟨_, rfl⟩
    · exact .inr ⟨_, rfl, .kept m.program _⟩

theorem select_answers (m : Match Board) (file : SaveFile) (position : Nat) :
    m.Answers (m.eventDeed file · (.select position))
      ((m.select file position).1, (m.select file position).2.1) := by
  unfold select
  simp only
  split
  · exact .inl ⟨_, rfl⟩
  · rename_i phase
    split
    · exact .inl ⟨_, rfl⟩
    · rename_i human
      split
      · rename_i report after saved played
        have turn : m.AwaitsMoveOf .human :=
          .inl ⟨Decidable.of_not_not phase, rfl, Decidable.of_not_not human⟩
        have change : Change m (.moved .human report) after :=
          .of_playAt turn m.stream m.log played
        have told : m.eventDeed file after (.select position) = .moved .human report := by
          obtain ⟨_, _, _, _, _, rfl, rfl⟩ := playAt_ok played
          rfl
        exact .inr ⟨after, rfl, by simpa only [told] using change⟩
      · exact .inl ⟨_, rfl⟩

/-- An event changes an unlocked match as it says. -/
theorem handle_answers {m : Match Board} (file : SaveFile) (event : Event)
    (unlocked : m.isLocked = false) :
    m.Answers (m.eventDeed file · event)
      ((m.handle file event).1, (m.handle file event).2.1) := by
  simp only [handle, unlocked, Bool.false_eq_true, ite_false]
  cases event with
  | enterSetup mode => exact m.enterSetup_answers file mode
  | configure mark source => exact m.configure_answers file mark source
  | startGame => exact m.startGame_answers file
  | select position => exact m.select_answers file position
  | «continue» => exact m.continueSeries_answers file
  | returnToSetup => exact returnToSetup_answers file unlocked
  | returnToModeSelect => exact returnToModeSelect_answers file unlocked
  | loadGame => exact loadGame_answers file unlocked
  | clearSaved => exact m.clearSaved_answers file

theorem change_of_event (m : Match Board) (file : SaveFile) (event : Event) :
    Change m (m.deed (.event file event)) (m.handle file event).2.1 := by
  cases locked : m.isLocked with
  | true =>
    simp only [deed, call, handle, locked, ite_true, ignore]
    exact .kept m.program _
  | false =>
    rcases handle_answers file event locked with ⟨reason, answer⟩ | ⟨after, answer, change⟩
    · obtain ⟨response, same⟩ := Prod.mk.inj answer
      simp only [deed, call, response, same]
      exact .kept m.program _
    · obtain ⟨response, same⟩ := Prod.mk.inj answer
      simp only [deed, call, response, same]
      exact change

end Tabletop.Match
