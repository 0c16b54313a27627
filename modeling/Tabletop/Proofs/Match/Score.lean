import Tabletop.Board.ThreeInARow.Search
import Tabletop.Proofs.Match.Change.Turn

/-!
The score of a match. It counts the rounds that each player has won since it was last reset. A player
who has the wins that take a series has won it, unless a saved game is loaded when the series is over:
loading leaves the score as it is, and play goes on with a series that is decided.
-/

namespace Tabletop

/-- Who won the round that a move ended. -/
def AfterMove.roundWinner? : AfterMove → Option Mark
  | .roundOver (.win winner) | .seriesOver winner => some winner
  | _ => none

/-- What calls tell since the score was last reset: the rounds that each player has won, and whether a
saved game was loaded when the series was over. -/
structure Tally where
  won : Sides Nat
  resumed : Bool

namespace Tally

def blank : Tally := ⟨⟨0, 0⟩, false⟩

def count (tally : Tally) (winner : Mark) : Tally :=
  { tally with won := tally.won.set winner (tally.won.of winner + 1) }

/-- The tally after a deed, told from the match before it. -/
def follow {Board : Type} (m : Match Board) (tally : Tally) : Match.Deed Board → Tally
  | .sourceChanged _ _ | .roundAbandoned _ | .setupEntered | .matchLeft => blank
  | .moved _ report => match report.after.roundWinner? with
    | some winner => tally.count winner
    | none => tally
  | .gameLoaded _ => match m.phase with
    | .seriesOver _ => { tally with resumed := true }
    | _ => tally
  | _ => tally

end Tally

namespace Match

section
variable {Board : Type}

def SeriesGoesOn (m : Match Board) : Prop := ∀ winner, m.phase ≠ .seriesOver winner

/-- No player has more wins than take a series, or as many without having won it. -/
def ScoreFits (m : Match Board) : Prop :=
  ∀ mark, m.series.wins.of mark ≤ m.settings.winsToTake ∧
    (m.series.wins.of mark = m.settings.winsToTake → m.phase = .seriesOver mark)

/-- Some player has more wins than take a series, or as many without having won it. -/
def ScoreExceeds (m : Match Board) : Prop :=
  ∃ mark, m.settings.winsToTake ≤ m.series.wins.of mark ∧
    (m.phase = .seriesOver mark → m.settings.winsToTake < m.series.wins.of mark)

theorem ScoreExceeds.not_fits {m : Match Board} (exceeds : m.ScoreExceeds) : ¬ m.ScoreFits := by
  intro fits
  obtain ⟨mark, enough, beyond⟩ := exceeds
  obtain ⟨most, won⟩ := fits mark
  have more := beyond (won (Nat.le_antisymm most enough))
  omega

theorem ScoreFits.lt {m : Match Board} (fits : m.ScoreFits) (goesOn : m.SeriesGoesOn) (mark : Mark) :
    m.series.wins.of mark < m.settings.winsToTake := by
  obtain ⟨most, won⟩ := fits mark
  have other : m.series.wins.of mark ≠ m.settings.winsToTake := fun same => goesOn mark (won same)
  omega

/-- How a match stands to the tally of its calls. -/
structure Scored (m : Match Board) (tally : Tally) : Prop where
  takesOne : 1 ≤ m.settings.winsToTake
  counted : m.series.wins = tally.won
  enough : ∀ winner, m.phase = .seriesOver winner → m.settings.winsToTake ≤ m.series.wins.of winner
  fits : tally.resumed = false → m.ScoreFits
  exceeds : tally.resumed = true → m.ScoreExceeds

namespace Scored
variable {m after : Match Board} {tally : Tally}

/-- Nothing changes with the score between phases in which the series goes on. -/
theorem carried (scored : m.Scored tally) (goesOn : m.SeriesGoesOn) (goesOnAfter : after.SeriesGoesOn)
    (settings : after.settings = m.settings) (series : after.series = m.series) :
    after.Scored tally where
  takesOne := settings ▸ scored.takesOne
  counted := series ▸ scored.counted
  enough winner decided := absurd decided (goesOnAfter winner)
  fits fresh mark := by
    have fewer := (scored.fits fresh).lt goesOn mark
    rw [settings, series]
    exact ⟨Nat.le_of_lt fewer, fun same => absurd same (Nat.ne_of_lt fewer)⟩
  exceeds resumed := by
    obtain ⟨mark, enough, _⟩ := scored.exceeds resumed
    have kept : after.settings.winsToTake ≤ after.series.wins.of mark := by
      rw [settings, series]
      exact enough
    exact ⟨mark, kept, fun decided => absurd decided (goesOnAfter mark)⟩

theorem reset (scored : m.Scored tally) (goesOn : after.SeriesGoesOn)
    (settings : after.settings = m.settings) (wins : after.series.wins = ⟨0, 0⟩) :
    after.Scored Tally.blank where
  takesOne := settings ▸ scored.takesOne
  counted := wins
  enough winner decided := absurd decided (goesOn winner)
  fits _ mark := by
    have none : after.series.wins.of mark = 0 := by rw [wins]; cases mark <;> rfl
    have takesOne := scored.takesOne
    rw [settings, none]
    exact ⟨by omega, fun same => by omega⟩
  exceeds := nofun

/-- Loading a game when the series is over leaves its winner with the wins that take it. -/
theorem resumed {winner : Mark} (scored : m.Scored tally) (decided : m.phase = .seriesOver winner)
    (goesOn : after.SeriesGoesOn) (settings : after.settings = m.settings)
    (series : after.series = m.series) : after.Scored { tally with resumed := true } where
  takesOne := settings ▸ scored.takesOne
  counted := series ▸ scored.counted
  enough winner decided := absurd decided (goesOn winner)
  fits := nofun
  exceeds _ := ⟨winner, by rw [settings, series]; exact scored.enough winner decided,
    fun again => absurd again (goesOn winner)⟩

theorem wonRound {winner : Mark} (scored : m.Scored tally) (goesOn : m.SeriesGoesOn)
    (goesOnAfter : after.SeriesGoesOn) (settings : after.settings = m.settings)
    (series : after.series = m.series.recordWin winner)
    (untaken : (m.series.recordWin winner).isTaken winner m.settings.winsToTake = false) :
    after.Scored (tally.count winner) where
  takesOne := settings ▸ scored.takesOne
  counted := by simp [series, Series.recordWin, Tally.count, scored.counted]
  enough mark decided := absurd decided (goesOnAfter mark)
  fits fresh mark := by
    have fewer : after.series.wins.of mark < m.settings.winsToTake := by
      rw [series]
      rcases mark.eq_or_eq_opponent winner with rfl | rfl
      · simpa only [Series.isTaken, decide_eq_false_iff_not, Nat.not_le] using untaken
      · rw [Series.wins_recordWin_opponent]
        exact (scored.fits fresh).lt goesOn _
    rw [settings]
    exact ⟨Nat.le_of_lt fewer, fun same => absurd same (Nat.ne_of_lt fewer)⟩
  exceeds resumed := by
    obtain ⟨mark, enough, _⟩ := scored.exceeds resumed
    have kept : after.settings.winsToTake ≤ after.series.wins.of mark := by
      rw [settings, series]
      exact Nat.le_trans enough (m.series.wins_le_recordWin winner mark)
    exact ⟨mark, kept, fun decided => absurd decided (goesOnAfter mark)⟩

theorem wonSeries {winner : Mark} (scored : m.Scored tally) (goesOn : m.SeriesGoesOn)
    (decided : after.phase = .seriesOver winner) (settings : after.settings = m.settings)
    (wins : after.series.wins = (m.series.recordWin winner).wins)
    (taken : (m.series.recordWin winner).isTaken winner m.settings.winsToTake = true) :
    after.Scored (tally.count winner) where
  takesOne := settings ▸ scored.takesOne
  counted := by simp [wins, Series.recordWin, Tally.count, scored.counted]
  enough mark again := by
    obtain rfl : winner = mark := Phase.seriesOver.inj (decided.symm.trans again)
    rw [settings, wins]
    exact Series.isTaken_iff.mp taken
  fits fresh mark := by
    have fewer := (scored.fits fresh).lt goesOn mark
    rw [settings, wins]
    rcases mark.eq_or_eq_opponent winner with rfl | rfl
    · rw [Series.wins_recordWin]
      exact ⟨fewer, fun _ => decided⟩
    · rw [Series.wins_recordWin_opponent]
      exact ⟨Nat.le_of_lt fewer, fun same => absurd same (Nat.ne_of_lt fewer)⟩
  exceeds resumed := by
    obtain ⟨mark, enough, _⟩ := scored.exceeds resumed
    rw [ScoreExceeds, settings, wins]
    refine ⟨mark, Nat.le_trans enough (m.series.wins_le_recordWin winner mark), ?_⟩
    -- The series is over for one player only, and that one has just won another round.
    intro again
    obtain rfl : winner = mark := Phase.seriesOver.inj (decided.symm.trans again)
    rw [Series.wins_recordWin]
    exact Nat.lt_succ_of_le enough

end Scored

theorem SeriesGoesOn.of_phase {m : Match Board} {phase : Phase} (is : m.phase = phase)
    (other : ∀ winner, phase ≠ .seriesOver winner) : m.SeriesGoesOn := by
  intro winner decided
  exact other winner (is.symm.trans decided)

theorem AwaitsMoveOf.seriesGoesOn {m : Match Board} {maker : MoveSource}
    (turn : m.AwaitsMoveOf maker) : m.SeriesGoesOn := by
  rcases turn with ⟨phase, _, _⟩ | locked
  · exact .of_phase phase nofun
  · exact .of_phase locked nofun

end

variable {Board : Type} [StrongPlay Board]

theorem Change.scored {m after : Match Board} {deed : Deed Board} {tally : Tally}
    (change : Change m deed after) (scored : m.Scored tally) : after.Scored (tally.follow m deed) := by
  cases change with
  | kept program log =>
    exact ⟨scored.takesOne, scored.counted, scored.enough, scored.fits, scored.exceeds⟩
  | modeChosen log phase => exact scored.carried (.of_phase phase nofun) nofun rfl rfl
  | sourceChanged log phase unlocked other => exact scored.reset (.of_phase phase nofun) rfl rfl
  | roundOpened failure log phase =>
    rcases phase with phase | phase
    · exact scored.carried (.of_phase phase nofun) nofun rfl rfl
    · exact scored.carried (.of_phase phase nofun) nofun rfl rfl
  | gameLoaded log chosen unlocked unfinished =>
    simp only [Tally.follow]
    split
    · rename_i winner decided
      exact scored.resumed decided nofun rfl rfl
    · rename_i goesOn
      exact scored.carried goesOn nofun rfl rfl
  | turnLocked log phase source => exact scored.carried (.of_phase phase nofun) nofun rfl rfl
  | movedOn stream log turn legal result => exact scored.carried turn.seriesGoesOn nofun rfl rfl
  | drewRound stream log turn legal result => exact scored.carried turn.seriesGoesOn nofun rfl rfl
  | wonRound winner stream log turn legal result untaken =>
    exact scored.wonRound turn.seriesGoesOn nofun rfl rfl untaken
  | wonSeries winner stream log turn legal result taken =>
    exact scored.wonSeries turn.seriesGoesOn rfl rfl (Series.wins_unlockAfter _ _ _) taken
  | roundAbandoned stream log turn => exact scored.reset nofun rfl rfl
  | setupEntered log chosen unlocked => exact scored.reset nofun rfl rfl
  | matchLeft log unlocked => exact scored.reset nofun rfl rfl

theorem new_scored {settings : MatchSettings} (takesOne : 1 ≤ settings.winsToTake) :
    (new settings : Match Board).Scored Tally.blank where
  takesOne := takesOne
  counted := rfl
  enough := nofun
  fits _ mark := by
    have none : (new settings : Match Board).series.wins.of mark = 0 := by cases mark <;> rfl
    have positive : 0 < (new settings : Match Board).settings.winsToTake := takesOne
    rw [none]
    exact ⟨Nat.zero_le _, fun same => absurd same (Nat.ne_of_lt positive)⟩
  exceeds := nofun

/-- What some calls tell of the score of a match. -/
def tallyAfter (Board : Type) [StrongPlay Board] (settings : MatchSettings) (calls : List Call) :
    Tally :=
  (new settings : Match Board).account (fun m call tally => tally.follow m (m.deed call)) calls
    Tally.blank

/-- Whatever calls were made and whatever stood in the saved file at each of them, the score counts the
rounds won since it was last reset. No player has more wins than take the series, or as many without
having won it, exactly if since then no saved game was loaded when the series was over. -/
theorem score_fits_iff (settings : MatchSettings) (takesOne : 1 ≤ settings.winsToTake)
    (calls : List Call) :
    ((new settings : Match Board).run calls).series.wins = (tallyAfter Board settings calls).won ∧
      (((new settings : Match Board).run calls).ScoreFits ↔
        (tallyAfter Board settings calls).resumed = false) := by
  have scored : ((new settings : Match Board).run calls).Scored (tallyAfter Board settings calls) :=
    run_account Scored (fun m call _ scored => (m.call_change call).scored scored) _ calls _
      (new_scored takesOne)
  refine ⟨scored.counted, ?_, scored.fits⟩
  intro fits
  cases resumed : (tallyAfter Board settings calls).resumed with
  | false => rfl
  | true => exact absurd fits (scored.exceeds resumed).not_fits

/-! ## A series of one win -/

def oneWin : MatchSettings := { winsToTake := 1, saveDirectory := some "saves" }

/-- The first player takes the top row, and the series. -/
def topRow : List Call :=
  ([.enterSetup .classic, .configure .second .human, .startGame, .select 0, .select 3, .select 1,
    .select 4, .select 2] : List Event).map (.event .absent)

theorem score_fits_topRow :
    1 ≤ oneWin.winsToTake ∧ ((new oneWin : Match ThreeInARow).run topRow).series.wins = ⟨1, 0⟩ ∧
      ((new oneWin : Match ThreeInARow).run topRow).ScoreFits := by
  have told := @score_fits_iff ThreeInARow _ oneWin (by decide) topRow
  exact ⟨by decide, told.1.trans (by decide +kernel), told.2.mpr (by decide +kernel)⟩

/-- A saved game of which nothing is played. -/
def savedOpening : SaveFile := .text (SavedGame.mk (Rules.opening : ThreeInARow) .first).text

/-- Once it is loaded, play goes on although the first player has all wins that the series takes. -/
theorem decided_series_goes_on :
    1 ≤ oneWin.winsToTake ∧
      ((new oneWin : Match ThreeInARow).run (topRow ++ [.event savedOpening .loadGame])).phase =
        .playing ∧
      ¬ ((new oneWin : Match ThreeInARow).run (topRow ++ [.event savedOpening .loadGame])).ScoreFits := by
  have stands : ((new oneWin : Match ThreeInARow).run
        (topRow ++ [.event savedOpening .loadGame])).phase = .playing ∧
      ((new oneWin : Match ThreeInARow).run
        (topRow ++ [.event savedOpening .loadGame])).series.wins = ⟨1, 0⟩ := by decide +kernel
  obtain ⟨playing, wins⟩ := stands
  refine ⟨by decide, playing, ?_⟩
  intro fits
  have decided := (fits .first).2 (by rw [wins, run_settings]; rfl)
  rw [playing] at decided
  cases decided

end Match
end Tabletop
