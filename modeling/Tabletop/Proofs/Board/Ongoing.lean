import Tabletop.Board.DropGame
import Tabletop.Board.SowingGame
import Tabletop.Board.ThreeInARow

/-!
Games that go on. In each of the three games a player who is to move on a board that is not over has a
legal position, and the opening is not over.
-/

namespace Tabletop

theorem outcome_eq_ongoing_iff {Board : Type} [Rules Board] {board : Board} :
    outcome board = .ongoing ↔
      Rules.isWin board .first = false ∧ Rules.isWin board .second = false ∧
        Rules.isDraw board = false := by
  unfold outcome
  constructor
  · intro ongoing
    split at ongoing
    · cases ongoing
    · split at ongoing
      · cases ongoing
      · split at ongoing
        · cases ongoing
        · rename_i first second draw
          exact ⟨by simpa using first, by simpa using second, by simpa using draw⟩
  · rintro ⟨first, second, draw⟩
    simp [first, second, draw]

theorem isOver_eq_false_iff {Board : Type} [Rules Board] {board : Board} :
    isOver board = false ↔ outcome board = .ongoing := by
  simp [isOver]

/-- Rules under which a game begins and nobody is ever stuck. -/
class FairRules (Board : Type) [Rules Board] : Prop where
  opening_ongoing : outcome (Rules.opening : Board) = .ongoing
  legal_ne_nil : ∀ {board : Board}, outcome board = .ongoing → ∀ mover, Rules.legal board mover ≠ []

namespace ThreeInARow

theorem exists_empty_of_not_full {board : ThreeInARow} (room : board.isFull = false) :
    ∃ index < 9, board.cells.at? index = none := by
  unfold isFull at room
  obtain ⟨index, inside, empty⟩ := Vector.all_eq_false.mp room
  refine ⟨index, inside, ?_⟩
  have cell : board.cells[index] = none := by simpa using empty
  simp [Cells.at?, Vector.getElem?_eq_getElem inside, cell]

instance : FairRules ThreeInARow where
  opening_ongoing := by decide +kernel
  legal_ne_nil {board} ongoing mover := by
    obtain ⟨first, second, draw⟩ := outcome_eq_ongoing_iff.mp ongoing
    change board.isWin .first = false at first
    change board.isWin .second = false at second
    change board.isDraw = false at draw
    have room : board.isFull = false := by simpa [isDraw, first, second] using draw
    obtain ⟨index, inside, empty⟩ := exists_empty_of_not_full room
    have member : index ∈ board.emptyCells := by simp [emptyCells, inside, empty]
    change board.legal mover ≠ []
    simpa [legal, first, second] using List.ne_nil_of_mem member

end ThreeInARow

namespace DropGame

instance : FairRules DropGame where
  opening_ongoing := by decide +kernel
  legal_ne_nil {board} ongoing mover := by
    obtain ⟨first, second, draw⟩ := outcome_eq_ongoing_iff.mp ongoing
    change board.isWin .first = false at first
    change board.isWin .second = false at second
    change board.isDraw = false at draw
    have room : board.isFull = false := by simpa [isDraw, first, second] using draw
    unfold isFull at room
    obtain ⟨column, inside, open_⟩ := List.all_eq_false.mp room
    have landing : (board.landingRow column).isSome = true := by
      simpa [Option.isSome_iff_ne_none] using open_
    have member : column ∈ (List.range columns).filter fun column =>
        (board.landingRow column).isSome := List.mem_filter.mpr ⟨inside, landing⟩
    change board.legal mover ≠ []
    simpa only [legal, first, second, Bool.or_self, Bool.false_eq_true, ite_false] using
      List.ne_nil_of_mem member

end DropGame

namespace SowingGame

/-- The stores of a finished game decide it. -/
theorem isFinished_eq_false_of_ongoing {board : SowingGame} (ongoing : outcome board = .ongoing) :
    board.isFinished = false := by
  obtain ⟨first, second, draw⟩ := outcome_eq_ongoing_iff.mp ongoing
  change board.isWin .first = false at first
  change board.isWin .second = false at second
  change board.isDraw = false at draw
  cases finished : board.isFinished with
  | false => rfl
  | true =>
    simp only [isWin, finished, Bool.true_and, decide_eq_false_iff_not] at first second
    have unequal : board.first.store ≠ board.second.store := by
      simpa [isDraw, finished] using draw
    simp only [row, Mark.opponent] at first second
    omega

theorem exists_pit_of_not_empty {row : Row} (filled : row.isEmpty = false) :
    ∃ index < 6, 0 < row.pit index := by
  unfold Row.isEmpty at filled
  obtain ⟨index, inside, seeds⟩ := Vector.all_eq_false.mp filled
  refine ⟨index, inside, ?_⟩
  have positive : 0 < row.pits[index] := Nat.pos_of_ne_zero (by simpa using seeds)
  simpa [Row.pit, Vector.getElem?_eq_getElem inside] using positive

theorem legal_ne_nil_of_unfinished {board : SowingGame} (unfinished : board.isFinished = false)
    (mover : Mark) : board.legal mover ≠ [] := by
  have rows : board.first.isEmpty = false ∧ board.second.isEmpty = false := by
    simpa [isFinished] using unfinished
  have filled : (board.row mover).isEmpty = false := by
    cases mover
    · exact rows.1
    · exact rows.2
  obtain ⟨pit, inside, seeds⟩ := exists_pit_of_not_empty filled
  have member : pit ∈ (List.range 6).filter fun pit => 0 < (board.row mover).pit pit := by
    simp [inside, seeds]
  simpa only [legal, unfinished, Bool.false_eq_true, ite_false] using List.ne_nil_of_mem member

instance : FairRules SowingGame where
  opening_ongoing := by decide +kernel
  legal_ne_nil ongoing mover :=
    legal_ne_nil_of_unfinished (isFinished_eq_false_of_ongoing ongoing) mover

end SowingGame
end Tabletop
