import Tabletop.Board.DropGame

/-!
The value of a column in the drop game: it weighs the distance from the center, the reply that the
drop allows and the runs that it extends.
-/

namespace Tabletop
namespace DropGame

/-- How far a player's pieces reach in one direction, and whether an empty cell ends them. -/
def reach (board : DropGame) (mark : Mark) (step : Int × Int) :
    (left : Nat) → (row column : Int) → Nat × Bool
  | 0, _, _ => (0, false)
  | left + 1, row, column =>
    let row := row + step.1
    let column := column + step.2
    if inGrid row column then
      match board.cell row.toNat column.toNat with
      | none => (0, true)
      | some holder =>
        if holder = mark then
          let (count, isOpen) := reach board mark step left row column
          (count + 1, isOpen)
        else (0, false)
    else (0, false)

/-- What a run along one axis is worth: nothing unless an empty cell could extend it. -/
def axisScore (board : DropGame) (row column : Nat) (mover : Mark) (axis : Int × Int) : Int :=
  let (ahead, openAhead) := board.reach mover axis 3 row column
  let (behind, openBehind) := board.reach mover (-axis.1, -axis.2) 3 row column
  if openAhead || openBehind then
    match 1 + ahead + behind with
    | 2 => 1
    | 3 => 5
    | _ => 0
  else 0

/-- What the runs through a piece put into a cell are worth. -/
def connectionScore (board : DropGame) (row column : Nat) (mover : Mark) : Int :=
  let trial := board.put (row * columns + column) (some mover)
  (axes.map (trial.axisScore row column mover)).foldr (· + ·) 0

def replyLossPenalty : Int := -50

/-- Whether the cell above the landing cell would win for the other player once it is played. -/
def allowsWinningReply (board : DropGame) (row column : Nat) (mover : Mark) : Bool :=
  0 < row &&
    let above := (row - 1) * columns + column
    let trial := (board.put (row * columns + column) (some mover)).put above (some mover.opponent)
    trial.winsThrough above mover.opponent

/-- The value of a column with room. -/
def columnScore (board : DropGame) (column : Nat) (mover : Mark) : Option Int :=
  (board.landingRow column).map fun row =>
    let center := (4 - ((column : Int) - 3).natAbs : Int) * 2
    let reply := if board.allowsWinningReply row column mover then replyLossPenalty else 0
    center + reply + board.connectionScore row column mover * 3

/-- Wins at once, else blocks, else takes the column of highest value. -/
def bestColumn (board : DropGame) (mover : Mark) : Option Nat :=
  match (winningMove board mover).orElse fun _ => blockingMove board mover with
  | some column => some column
  | none =>
    (bestOf (board.columnScore · mover) none (board.legal mover)).map (·.2)

instance : StrongPlay DropGame where
  strongest := bestColumn

end DropGame
end Tabletop
