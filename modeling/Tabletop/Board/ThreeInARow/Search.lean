import Tabletop.Board.ThreeInARow

/-!
The search that plays three in a row: every line of play is followed for six moves, with pruning, and
what is undecided by then counts as a draw.
-/

namespace Tabletop
namespace ThreeInARow

/-- Moves in a line of play that are looked at. -/
def searchDepth : Nat := 6

/-- A win at once; every move that it takes costs one point. -/
def winValue : Int := 10

/-- The highest of `alpha` and the values of cells in turn; cells after a value of `beta` or more are
not looked at. -/
@[specialize] def pruned (value : (cell : Nat) → (alpha : Int) → Int) (beta : Int) :
    (alpha : Int) → List Nat → Int
  | alpha, [] => alpha
  | alpha, cell :: rest =>
    let alpha := max alpha (value cell alpha)
    if beta ≤ alpha then alpha else pruned value beta alpha rest

/-- The value of a board for the player to move, within the window from `alpha` to `beta`. -/
def search : (movesLeft : Nat) → ThreeInARow → (mover : Mark) → (alpha beta : Int) → Int
  | movesLeft, board, mover, alpha, beta =>
    let played : Int := searchDepth - movesLeft
    if board.isWin mover then winValue - played
    else if board.isWin mover.opponent then played - winValue
    else match movesLeft with
      | 0 => 0
      | left + 1 => match board.emptyCells with
        | [] => 0
        | cells =>
          let value (cell : Nat) (alpha : Int) : Int :=
            -search left (board.put cell (some mover)) mover.opponent (-beta) (-alpha)
          pruned value beta alpha cells

/-- The value of choosing a cell, with an open window after it. -/
def cellValue (board : ThreeInARow) (mover : Mark) (cell : Nat) : Int :=
  -search (searchDepth - 1) (board.put cell (some mover)) mover.opponent (-winValue) winValue

/-- The first cell of highest value, none once the game is won. -/
def bestCell (board : ThreeInARow) (mover : Mark) : Option Nat :=
  (bestOf (some <| board.cellValue mover ·) none (board.legal mover)).map (·.2)

instance : StrongPlay ThreeInARow where
  strongest := bestCell

end ThreeInARow
end Tabletop
