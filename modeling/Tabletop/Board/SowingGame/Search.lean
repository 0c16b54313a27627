import Tabletop.Board.SowingGame

/-!
The search that plays the sowing game: six moves ahead by the lead, with pruning.
-/

namespace Tabletop
namespace SowingGame

/-- A finished game counts a thousand for the leader, besides the lead. -/
def finalValue (board : SowingGame) (mover : Mark) : Int :=
  (board.lead mover).sign * 1000 + board.lead mover

/-- No value of the search lies beyond this one. -/
def valueBound : Int := 1000000

/-- Whether the turn passes to the other player, whose value then counts negatively. -/
def passesTurn (after : SowingGame) (effect : Effect) : Bool :=
  !effect.extraTurn || after.isFinished

/-- The value of the pits in turn, by the value of a board; pits after a value of `beta` or more are
not looked at. -/
@[specialize] def pruned (value : SowingGame → Mark → (alpha beta : Int) → Int) (board : SowingGame)
    (mover : Mark) (beta : Int) : (best alpha : Int) → List Nat → Int
  | best, _, [] => best
  | best, alpha, pit :: rest =>
    match board.move pit mover with
    | .error _ => pruned value board mover beta best alpha rest
    | .ok (after, effect) =>
      let score :=
        if passesTurn after effect then -value after mover.opponent (-beta) (-alpha)
        else value after mover alpha beta
      let best := max best score
      let alpha := max alpha score
      if beta ≤ alpha then best else pruned value board mover beta best alpha rest

/-- The value of a board for the player to move, within the window from `alpha` to `beta`. -/
def search : (movesLeft : Nat) → SowingGame → (mover : Mark) → (alpha beta : Int) → Int
  | movesLeft, board, mover, alpha, beta =>
    if board.isFinished then board.finalValue mover
    else match movesLeft with
      | 0 => board.lead mover
      | left + 1 =>
        let legal := board.legal mover
        pruned (search left) board mover beta (-valueBound) alpha
          (preference.filter legal.contains)

/-- Moves looked ahead. -/
def searchDepth : Nat := 6

/-- The value of choosing a pit, with an open window after it. -/
def pitValue (board : SowingGame) (mover : Mark) (pit : Nat) : Option Int :=
  match board.move pit mover with
  | .error _ => none
  | .ok (after, effect) =>
    some (if passesTurn after effect then
      -search (searchDepth - 1) after mover.opponent (-valueBound) valueBound
    else search (searchDepth - 1) after mover (-valueBound) valueBound)

def bestPit (board : SowingGame) (mover : Mark) : Option Nat :=
  let legal := board.legal mover
  (bestOf (board.pitValue mover) none (preference.filter legal.contains)).map (·.2)

instance : StrongPlay SowingGame where
  strongest := bestPit

end SowingGame
end Tabletop
