import Tabletop.Board.DropGame
import Tabletop.Board.ThreeInARow

/-!
Which moves are accepted on the two boards of cells, and what an accepted move does.
-/

namespace Tabletop

/-- A cell is taken whether or not somebody has a line. -/
theorem ThreeInARow.move_eq_ok_iff {board after : ThreeInARow} {position : Nat} {mover : Mark}
    {effect : Effect} :
    board.move position mover = .ok (after, effect) ↔
      position < 9 ∧ board.cells.at? position = none ∧
        after = board.put position (some mover) ∧ effect = .placed position := by
  unfold move
  by_cases outside : 9 ≤ position
  · simp [outside, Nat.not_lt_of_le outside]
  · cases held : board.cells.at? position with
    | some mark => simp [outside]
    | none => simp [outside, Nat.lt_of_not_le outside, eq_comm]

/-- A piece is dropped into the column of the cell that is named, unless somebody has won. -/
theorem DropGame.drop_eq_ok_iff {board after : DropGame} {position : Nat} {mover : Mark}
    {effect : Effect} :
    board.move position mover = .ok (after, effect) ↔
      position < 42 ∧ (board.isWin .first = false ∧ board.isWin .second = false) ∧
      ∃ row, board.landingRow (position % columns) = some row ∧
        after = board.put (row * columns + position % columns) (some mover) ∧
        effect = .placed (row * columns + position % columns) := by
  rw [← Bool.or_eq_false_iff]
  unfold move
  by_cases outside : 42 ≤ position
  · simp [outside, Nat.not_lt_of_le outside]
  · by_cases won : (board.isWin .first || board.isWin .second) = true
    · simp [outside, won]
    · cases lands : board.landingRow (position % columns) with
      | none => simp [outside, won, lands]
      | some row => simp [outside, won, lands, Nat.lt_of_not_le outside, eq_comm]

end Tabletop
