import Tabletop.Match.Basic

/-!
What a played move leads to: the next player, the end of a round, or the end of a series.
-/

namespace Tabletop.Match

variable {Board : Type} [StrongPlay Board]

/-- The series is won; its winner may unlock a difficulty. -/
def finishSeries (m : Match Board) (winner : Mark) : Match Board :=
  let wins := m.series.wins
  let m := { m with phase := .seriesOver winner }.info
    s!"{winner.title} takes the series {wins.of winner}-{wins.of winner.opponent}"
  let winnerSource := m.sources.of winner
  let loserSource := m.sources.of winner.opponent
  let unlocked := { m with series := m.series.unlockAfter winnerSource loserSource }
  match m.series.newTier? winnerSource loserSource with
  | some tier => unlocked.info s!"{tier.name} difficulty unlocked"
  | none => unlocked

/-- The round is won, and the series with it if that was the last win needed. -/
def finishRound (m : Match Board) (winner : Mark) : AfterMove × Match Board :=
  let m := m.info s!"{winner.title} wins the round"
  let m := { m with series := m.series.recordWin winner }
  if m.series.isTaken winner m.settings.winsToTake then
    (.seriesOver winner, m.finishSeries winner)
  else (.roundOver (.win winner), { m with phase := .nextRoundReady })

/-- How the match goes on after an accepted move. -/
def goOn (m : Match Board) (mark : Mark) (effect : Effect) : AfterMove × Match Board :=
  match outcome m.board with
  | .ongoing =>
    let m :=
      if effect.extraTurn then m.info s!"{mark.title} goes again"
      else { m with mover := mark.opponent }
    (.continue m.mover, { m with phase := .playing })
  | .win winner => m.finishRound winner
  | .draw => (.roundOver .draw, { m.info "round drawn" with phase := .nextRoundReady })

/-- Saves the game if games are saved; a failure is only a warning. -/
def saveGame (m : Match Board) (file : SaveFile) : Match Board × SaveFile :=
  match m.savePlace? with
  | none => (m, file)
  | some place => match file.save place (SavedGame.mk m.board m.mover).text with
    | .ok file => (m, file)
    | .error problem => (m.warn s!"could not save game: {problem.message}", file)

/-- Logs a move that the board has accepted, and goes on. -/
def afterMove (m : Match Board) (file : SaveFile) (mark : Mark) (position : Nat) (effect : Effect) :
    MoveReport × Match Board × SaveFile :=
  let m := m.info s!"{mark.title} played {position}"
  let m :=
    if 0 < effect.captured then m.info s!"{mark.title} captured {effect.captured} seeds" else m
  let (after, m) := m.goOn mark effect
  let (m, file) := m.saveGame file
  let report := ⟨mark, position, effect, after⟩
  (report, { m with lastMove := some report }, file)

/-- Plays a position for the player to move, if the board accepts it. -/
def playAt (m : Match Board) (file : SaveFile) (position : Nat) :
    Except IllegalMove (MoveReport × Match Board × SaveFile) :=
  match Rules.move m.board position m.mover with
  | .error reason => .error reason
  | .ok (board, effect) => .ok ({ m with board := board }.afterMove file m.mover position effect)

end Tabletop.Match
