import Tabletop.Board.DropGame.Score
import Tabletop.Board.SowingGame.Search
import Tabletop.Board.ThreeInARow.Search
import Tabletop.Proofs.Board.Ongoing
import Tabletop.Proofs.Match.Change.Turn

/-!
What the phase of a match says about its board, its mover, its last move and its score, after any calls.
-/

namespace Tabletop.Match

section
variable {Board : Type} [StrongPlay Board]

/-- Nothing is played, and nobody has won anything. -/
def AtRest (m : Match Board) : Prop :=
  m.board = Rules.opening ∧ m.mover = .first ∧ m.lastMove = none ∧ m.series.wins = ⟨0, 0⟩

/-- How the last move left the match. -/
def EndedIn (m : Match Board) (after : AfterMove) : Prop :=
  ∃ report, m.lastMove = some report ∧ report.after = after

/-- The game goes on, and the mover can move; if there was a move, it left the turn to the mover. -/
def Underway (m : Match Board) : Prop :=
  outcome m.board = .ongoing ∧ Rules.legal m.board m.mover ≠ [] ∧
    (m.lastMove = none ∨ m.EndedIn (.continue m.mover))

def Consistent (m : Match Board) : Prop :=
  match m.phase with
  | .modeSelect | .setup => m.AtRest
  | .playing => m.Underway
  | .awaitingMove source => m.Underway ∧ source = m.moverSource ∧ source ≠ .human
  | .nextRoundReady => isOver m.board = true ∧ m.EndedIn (.roundOver (outcome m.board))
  | .seriesOver winner => outcome m.board = .win winner ∧ m.EndedIn (.seriesOver winner) ∧
      m.settings.winsToTake ≤ m.series.wins.of winner

theorem new_consistent (settings : MatchSettings) : (new settings : Match Board).Consistent :=
  ⟨rfl, rfl, rfl, rfl⟩

variable [FairRules Board]

theorem Change.consistent {m after : Match Board} {deed : Deed Board} (change : Change m deed after)
    (consistent : m.Consistent) : after.Consistent := by
  cases change with
  | kept program log => exact consistent
  | modeChosen log phase =>
    have rest : m.AtRest := by simpa only [Consistent, phase] using consistent
    exact rest
  | sourceChanged log phase unlocked other =>
    have rest : m.AtRest := by simpa only [Consistent, phase] using consistent
    obtain ⟨board, mover, lastMove, score⟩ := rest
    simp only [Consistent, phase]
    exact ⟨board, mover, lastMove, rfl⟩
  | roundOpened failure log phase =>
    have ongoing : outcome (Rules.opening : Board) = .ongoing := FairRules.opening_ongoing
    exact ⟨ongoing, FairRules.legal_ne_nil ongoing .first, .inl rfl⟩
  | gameLoaded log chosen unlocked unfinished =>
    have ongoing := isOver_eq_false_iff.mp unfinished
    exact ⟨ongoing, FairRules.legal_ne_nil ongoing _, .inl rfl⟩
  | turnLocked log phase source =>
    have underway : m.Underway := by simpa only [Consistent, phase] using consistent
    exact ⟨underway, rfl, source⟩
  | movedOn stream log turn legal result =>
    exact ⟨result, FairRules.legal_ne_nil result _, .inr ⟨_, rfl, rfl⟩⟩
  | drewRound stream log turn legal result =>
    exact ⟨by simp [isOver, result], _, rfl, by simp [result]⟩
  | wonRound winner stream log turn legal result untaken =>
    exact ⟨by simp [isOver, result], _, rfl, by simp [result]⟩
  | wonSeries winner stream log turn legal result taken =>
    have enough := Series.isTaken_iff.mp taken
    exact ⟨result, ⟨_, rfl, rfl⟩, by simpa only [Series.wins_unlockAfter] using enough⟩
  | roundAbandoned stream log turn => exact ⟨rfl, rfl, rfl, rfl⟩
  | setupEntered log chosen unlocked => exact ⟨rfl, rfl, rfl, rfl⟩
  | matchLeft log unlocked => exact ⟨rfl, rfl, rfl, rfl⟩

theorem run_consistent (settings : MatchSettings) (calls : List Call) :
    ((new settings : Match Board).run calls).Consistent :=
  run_preserves Consistent (fun m call => (m.call_change call).consistent) _ calls
    (new_consistent settings)

end

/-- In each game, whatever calls were made and whatever stood in the saved file at each of them: before
a round nothing is played and the score is even; while a round goes on the game does, the mover can
move, and the match is locked only for the mover's own source, which is no person; after a round the
board is over with the outcome that the last move tells; and a series is over only for the player who
has won the board and the wins that it takes. -/
theorem phases_consistent (settings : MatchSettings) (calls : List Call) :
    ((new settings : Match ThreeInARow).run calls).Consistent ∧
      ((new settings : Match DropGame).run calls).Consistent ∧
      ((new settings : Match SowingGame).run calls).Consistent :=
  ⟨run_consistent settings calls, run_consistent settings calls, run_consistent settings calls⟩

end Tabletop.Match
