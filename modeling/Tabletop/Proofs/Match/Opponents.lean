import Tabletop.Proofs.Match.Locked
import Tabletop.Proofs.Match.Score

/-!
Matches between local opponents. Nobody has to be asked, so every turn is played; the round ends exactly
if the game is over, and the series with the win that takes it.
-/

namespace Tabletop.Match

variable {Board : Type} [StrongPlay Board]

/-- How many wins take a series; without a number one does. -/
def winsNeeded (m : Match Board) : Nat := max 1 m.settings.winsToTake

/-- How many rounds of the series were won, by whomever. -/
def wonRounds (m : Match Board) : Nat := m.series.wins.first + m.series.wins.second

/-- A match between local opponents in or after a round, in a series that is over as soon as it is taken. -/
structure Between (opponents : Sides Difficulty) (m : Match Board) : Prop where
  consistent : m.Consistent
  sources : m.sources = ⟨.local opponents.first, .local opponents.second⟩
  begun : m.phase = .playing ∨ m.phase = .nextRoundReady ∨ ∃ winner, m.phase = .seriesOver winner
  untaken : m.SeriesGoesOn → ∀ mark, m.series.wins.of mark < m.winsNeeded
  taken : ∀ winner, m.phase = .seriesOver winner → m.series.wins.of winner = m.winsNeeded ∧
    m.series.wins.of winner.opponent < m.winsNeeded

/-- What a move has made of the round and of the score: the round goes on, is drawn or is won. -/
structure Settles (m after : Match Board) : Prop where
  ongoing : outcome after.board = .ongoing → after.phase = .playing ∧ after.series.wins = m.series.wins
  drawn : outcome after.board = .draw →
    after.phase = .nextRoundReady ∧ after.series.wins = m.series.wins
  won : ∀ winner, outcome after.board = .win winner →
    after.phase ≠ .playing ∧ after.series.wins = (m.series.recordWin winner).wins

/-- What a turn has made of a match: the mover's opponent chose the move. -/
structure Plays (opponents : Sides Difficulty) (m after : Match Board) : Prop
    extends Settles m after where
  move : ∃ position effect, (choose m.stream m.board m.mover (opponents.of m.mover)).1 = some position ∧
    Rules.move m.board position m.mover = .ok (after.board, effect) ∧
    (after.phase = .playing → after.mover = effect.next m.mover)
  between : after.Between opponents
  settings : after.settings = m.settings

/-- The opening of another round of the same series. -/
structure Opens (opponents : Sides Difficulty) (m after : Match Board) : Prop where
  board : after.board = Rules.opening
  mover : after.mover = .first
  phase : after.phase = .playing
  series : after.series = m.series
  settings : after.settings = m.settings
  between : after.Between opponents

section
variable {opponents : Sides Difficulty} {m after : Match Board}

omit [StrongPlay Board] in
theorem wonRounds_of_win {winner : Mark} (wins : after.series.wins = (m.series.recordWin winner).wins) :
    after.wonRounds = m.wonRounds + 1 := by
  unfold wonRounds
  rw [wins]
  cases winner with
  | first => exact Nat.add_right_comm _ 1 _
  | second => rfl

omit [StrongPlay Board] in
theorem wonRounds_of_wins (wins : after.series.wins = m.series.wins) : after.wonRounds = m.wonRounds := by
  unfold wonRounds
  rw [wins]

theorem Plays.wonRounds_le (plays : Plays opponents m after) : m.wonRounds ≤ after.wonRounds := by
  cases result : outcome after.board with
  | ongoing => exact Nat.le_of_eq (wonRounds_of_wins (plays.ongoing result).2).symm
  | draw => exact Nat.le_of_eq (wonRounds_of_wins (plays.drawn result).2).symm
  | win winner =>
    rw [wonRounds_of_win (plays.won winner result).2]
    exact Nat.le_succ _

theorem Between.wonRounds_lt (between : m.Between opponents) (goesOn : m.SeriesGoesOn) :
    m.wonRounds < 2 * m.winsNeeded := by
  have first : m.series.wins.first < m.winsNeeded := between.untaken goesOn .first
  have second : m.series.wins.second < m.winsNeeded := between.untaken goesOn .second
  unfold wonRounds
  omega

/-! ## The wins of a series -/

section
omit [StrongPlay Board]
variable {winner : Mark} (before : ∀ mark, m.series.wins.of mark < m.winsNeeded)
include before

theorem wins_lt_of_untaken
    (untaken : (m.series.recordWin winner).isTaken winner m.settings.winsToTake = false) (mark : Mark) :
    (m.series.recordWin winner).wins.of mark < m.winsNeeded := by
  rcases mark.eq_or_eq_opponent winner with rfl | rfl
  · rw [← Bool.not_eq_true, Series.isTaken_iff, Nat.not_le] at untaken
    exact Nat.lt_of_lt_of_le untaken (Nat.le_max_right _ _)
  · rw [Series.wins_recordWin_opponent]
    exact before _

theorem wins_of_taken
    (taken : (m.series.recordWin winner).isTaken winner m.settings.winsToTake = true) :
    (m.series.recordWin winner).wins.of winner = m.winsNeeded ∧
      (m.series.recordWin winner).wins.of winner.opponent < m.winsNeeded := by
  rw [Series.wins_recordWin_opponent]
  refine ⟨?_, before _⟩
  have wins := m.series.wins_recordWin winner
  have reached := Series.isTaken_iff.mp taken
  have less := before winner
  unfold winsNeeded at less ⊢
  omega

end

theorem Between.isOver_eq_false (between : m.Between opponents) (playing : m.phase = .playing) :
    isOver m.board = false := by
  have consistent := between.consistent
  simp only [Consistent, playing] at consistent
  exact isOver_eq_false_iff.mpr consistent.1

theorem Between.outcome_eq (between : m.Between opponents) {winner : Mark}
    (decided : m.phase = .seriesOver winner) : outcome m.board = .win winner := by
  have consistent := between.consistent
  simp only [Consistent, decided] at consistent
  exact consistent.1

theorem Between.moverSource (between : m.Between opponents) :
    m.moverSource = .local (opponents.of m.mover) := by
  unfold Match.moverSource
  rw [between.sources]
  cases m.mover <;> rfl

/-- A turn of a match that is played in the name of a local opponent. -/
def atTurn (opponents : Sides Difficulty) (m : Match Board) : Match Board :=
  { m with phase := .awaitingMove (.local (opponents.of m.mover)) }

theorem Between.beginTurn (between : m.Between opponents) (playing : m.phase = .playing) :
    m.beginTurn = (.ok (some (.local (opponents.of m.mover))), m.atTurn opponents) := by
  simp [Match.beginTurn, playing, between.moverSource, atTurn]

theorem Between.locking (between : m.Between opponents) (playing : m.phase = .playing) :
    Change m .turnLocked (m.atTurn opponents) := by
  have locks : Change m .turnLocked { m with phase := .awaitingMove m.moverSource, log := m.log } :=
    .turnLocked m.log playing (by simp [between.moverSource])
  rw [between.moverSource] at locks
  exact locks

theorem Change.settles {maker : MoveSource} {report : MoveReport}
    (change : Change m (.moved maker report) after) : Settles m after := by
  cases change with
  | movedOn stream log turn legal result =>
    exact {
      ongoing := fun _ => ⟨rfl, rfl⟩
      drawn := fun other => by cases result.symm.trans other
      won := fun winner other => by cases result.symm.trans other }
  | drewRound stream log turn legal result =>
    exact {
      ongoing := fun other => by cases result.symm.trans other
      drawn := fun _ => ⟨rfl, rfl⟩
      won := fun winner other => by cases result.symm.trans other }
  | wonRound winner stream log turn legal result untaken =>
    exact {
      ongoing := fun other => by cases result.symm.trans other
      drawn := fun other => by cases result.symm.trans other
      won := fun other same => by
        cases result.symm.trans same
        exact ⟨by simp, rfl⟩ }
  | wonSeries winner stream log turn legal result taken =>
    exact {
      ongoing := fun other => by cases result.symm.trans other
      drawn := fun other => by cases result.symm.trans other
      won := fun other same => by
        cases result.symm.trans same
        exact ⟨by simp, Series.wins_unlockAfter _ _ _⟩ }

theorem Between.of_moved {maker : MoveSource} {report : MoveReport} (between : m.Between opponents)
    (playing : m.phase = .playing) (change : Change (m.atTurn opponents) (.moved maker report) after)
    (consistent : after.Consistent) : after.Between opponents := by
  have before := between.untaken (.of_phase playing (by simp))
  obtain ⟨_, _, _, same, _, _⟩ := change.of_moved
  have sources := same.trans between.sources
  cases change with
  | movedOn stream log turn legal result =>
    exact ⟨consistent, sources, .inl rfl, fun _ => before, by simp⟩
  | drewRound stream log turn legal result =>
    exact ⟨consistent, sources, .inr (.inl rfl), fun _ => before, by simp⟩
  | wonRound winner stream log turn legal result untaken =>
    have less := wins_lt_of_untaken before untaken
    exact ⟨consistent, sources, .inr (.inl rfl), fun _ => less, by simp⟩
  | wonSeries winner stream log turn legal result taken =>
    refine ⟨consistent, sources, .inr (.inr ⟨winner, rfl⟩), fun goesOn => absurd rfl (goesOn winner), ?_⟩
    intro other decided
    obtain rfl : winner = other := Phase.seriesOver.inj decided
    dsimp only
    rw [Series.wins_unlockAfter]
    exact wins_of_taken before taken

variable [FairRules Board]

theorem Between.logged (between : m.Between opponents) (log : List Diagnostic) :
    Between opponents { m with log := log } where
  consistent := (Change.kept m.program log).consistent between.consistent
  sources := between.sources
  begun := between.begun
  untaken := between.untaken
  taken := between.taken

theorem Between.opens (between : m.Between opponents) (ready : m.phase = .nextRoundReady)
    (file : SaveFile) :
    ∃ after, m.handle file .continue = (.accepted, after, file) ∧ Opens opponents m after := by
  have unlocked : m.isLocked = false := by simp only [isLocked, ready]
  have handled : m.handle file .continue = (.accepted, m.newRound, file) := by
    simp only [handle, unlocked, Bool.false_eq_true, ite_false, handleUnlocked, continueSeries, ready]
  have consistent := (m.change_of_event file .continue).consistent between.consistent
  rw [handled] at consistent
  refine ⟨m.newRound, handled, rfl, rfl, rfl, rfl, rfl, consistent, between.sources, .inl rfl, ?_, ?_⟩
  · intro _
    exact between.untaken (.of_phase ready (by simp))
  · intro winner decided
    cases decided

variable [PlayableRules Board]

theorem Between.plays (between : m.Between opponents) (playing : m.phase = .playing) (file : SaveFile) :
    ∃ report after saved, (m.atTurn opponents).completeLocal file = (.ok report, after, saved) ∧
      Plays opponents m after := by
  have awaiting := (between.locking playing).consistent between.consistent
  have locked : (m.atTurn opponents).phase = .awaitingMove (.local (opponents.of m.mover)) := rfl
  obtain ⟨report, told, _⟩ := completeLocal_hasPlayed file locked (awaiting.underway locked).2.1
  have chosen := completeLocal_ok locked told
  have change := (m.atTurn opponents).change_of_completeLocal file
  simp only [deed, call, told, turnDeed] at change
  obtain ⟨moved, _, _, _, _, mover⟩ := change.of_moved
  have consistent := change.consistent awaiting
  have settings := change.settings_eq
  have settles : Settles m _ := ⟨change.settles.ongoing, change.settles.drawn, change.settles.won⟩
  have goesOn := between.of_moved playing change consistent
  generalize (m.atTurn opponents).completeLocal file = completed at *
  obtain ⟨result, after, saved⟩ := completed
  obtain rfl : result = .ok report := told
  exact ⟨report, after, saved, rfl, settles, ⟨_, _, chosen, moved, mover⟩, goesOn, settings⟩

end

/-! ## Setting up -/

section
variable {m after : Match Board} {file saved : SaveFile}

theorem change_of_accepted {event : Event} (unlocked : m.isLocked = false)
    (handled : m.handle file event = (.accepted, after, saved)) :
    Change m (m.eventDeed file after event) after := by
  rcases handle_answers file event unlocked with ⟨reason, ignored⟩ | ⟨_, accepted, change⟩
  · rw [handled] at ignored
    cases ignored
  · rw [handled] at accepted
    cases accepted
    exact change

/-- A match under some settings whose phase says what it should of the match. -/
structure Sound (settings : MatchSettings) (m : Match Board) : Prop where
  consistent : m.Consistent
  settings : m.settings = settings

theorem Sound.handled [FairRules Board] {settings : MatchSettings} {event : Event} {response : Response}
    (sound : m.Sound settings) (handled : m.handle file event = (response, after, saved)) :
    after.Sound settings := by
  have change := m.change_of_event file event
  rw [handled] at change
  exact ⟨change.consistent sound.consistent, change.settings_eq.trans sound.settings⟩

theorem enterSetup_accepted {mode : GameMode} (leaving : m.phase = .modeSelect)
    (handled : m.handle file (.enterSetup mode) = (.accepted, after, saved)) :
    after.phase = .setup ∧ after.sources = m.sources := by
  have unlocked : m.isLocked = false := by simp only [isLocked, leaving]
  have change := change_of_accepted unlocked handled
  simp only [eventDeed] at change
  cases change with
  | modeChosen => exact ⟨rfl, rfl⟩

theorem configure_accepted {mark : Mark} {source : MoveSource} (setup : m.phase = .setup)
    (handled : m.handle file (.configure mark source) = (.accepted, after, saved)) :
    after.phase = .setup ∧ after.sources = m.sources.set mark source := by
  have unlocked : m.isLocked = false := by simp only [isLocked, setup]
  have change := change_of_accepted unlocked handled
  by_cases same : m.sources.of mark = source
  · simp only [eventDeed, same, ite_true] at change
    cases change with
    | kept =>
      refine ⟨setup, ?_⟩
      subst same
      cases mark <;> rfl
  · simp only [eventDeed, same, ite_false] at change
    cases change with
    | sourceChanged => exact ⟨setup, rfl⟩

theorem startGame_accepted (setup : m.phase = .setup)
    (handled : m.handle file .startGame = (.accepted, after, saved)) :
    after.phase = .playing ∧ after.sources = m.sources ∧ after.series = m.series ∧
      after.board = Rules.opening ∧ after.mover = .first := by
  have unlocked : m.isLocked = false := by simp only [isLocked, setup]
  have change := change_of_accepted unlocked handled
  simp only [eventDeed] at change
  cases change with
  | roundOpened => exact ⟨rfl, rfl, rfl, rfl, rfl⟩

theorem loadGame_accepted (setup : m.phase = .setup)
    (handled : m.handle file .loadGame = (.accepted, after, saved)) :
    after.phase = .playing ∧ after.sources = m.sources ∧ after.series = m.series := by
  have unlocked : m.isLocked = false := by simp only [isLocked, setup]
  simp only [handle, unlocked, Bool.false_eq_true, ite_false, handleUnlocked] at handled
  have loaded : m.loadGame file = (.accepted, after) := by
    obtain ⟨answer, rest⟩ := Prod.mk.inj handled
    exact Prod.ext answer (Prod.mk.inj rest).1
  unfold loadGame at loaded
  split at loaded
  · cases loaded
  · split at loaded
    · cases loaded
    · dsimp only at loaded
      split at loaded
      · cases loaded
      · cases loaded
      · split at loaded
        · cases loaded
        · cases loaded
          exact ⟨rfl, rfl, rfl⟩

/-- A round is opened or a saved one is gone on with. -/
theorem round_accepted {resumes : Bool} (setup : m.phase = .setup)
    (handled : m.handle file (if resumes then .loadGame else .startGame) = (.accepted, after, saved)) :
    after.phase = .playing ∧ after.sources = m.sources ∧ after.series = m.series ∧
      (resumes = false → after.board = Rules.opening ∧ after.mover = .first) := by
  cases resumes with
  | true =>
    obtain ⟨playing, sources, series⟩ := loadGame_accepted setup handled
    exact ⟨playing, sources, series, by simp⟩
  | false =>
    obtain ⟨playing, sources, series, opening⟩ := startGame_accepted setup handled
    exact ⟨playing, sources, series, fun _ => opening⟩

theorem Between.of_first_round {opponents : Sides Difficulty} (consistent : m.Consistent)
    (sources : m.sources = ⟨.local opponents.first, .local opponents.second⟩)
    (playing : m.phase = .playing) (wins : m.series.wins = ⟨0, 0⟩) : m.Between opponents where
  consistent := consistent
  sources := sources
  begun := .inl playing
  untaken _ mark := by
    have unwon : m.series.wins.of mark = 0 := by
      rw [wins]
      cases mark <;> rfl
    rw [unwon]
    exact Nat.lt_of_lt_of_le Nat.zero_lt_one (Nat.le_max_left _ _)
  taken winner decided := by cases playing.symm.trans decided

end
end Tabletop.Match
