import Mathlib.Algebra.Order.BigOperators.Group.List
import Tabletop.Board.DropGame.Score
import Tabletop.Board.SowingGame.Search
import Tabletop.Board.ThreeInARow.Search
import Tabletop.Match.SavedGame
import Tabletop.Proofs.Board.Seeds
import Tabletop.Proofs.Json.Written

/-!
Saved games. A board that is saved with the player to move is read from the saved text as it was, and so
is the player. Only of seeds there can be too many: their numbers are words of 32 bits.
-/

namespace Tabletop

open Json

theorem Json.itemsWith?_map {α : Type} {write : α → Json} {read : Json → Option α} {items : List α}
    (each : ∀ item ∈ items, read (write item) = some item) :
    (Json.arr (items.map write)).itemsWith? read = some items := by
  unfold itemsWith?
  dsimp only
  induction items with
  | nil => rfl
  | cons item rest of_rest =>
    have first := each item (by simp)
    have others := of_rest fun other is_other => each other (by simp [is_other])
    simp [first, others]

@[simp] theorem Mark.load?_name (mark : Mark) : Mark.load? (.str mark.name) = some mark := by
  cases mark <;> rfl

/-- Boards that can be read from what is saved of them. -/
class SavableRules (Board : Type) [Rules Board] where
  Fits : Board → Prop
  writable : ∀ {board : Board}, Fits board → ∀ levels, Writable (levels + 3) (Rules.save board)
  covers : ∀ board : Board, (Form.ofNames (Rules.savedFields Board)).Covers (Rules.save board)
  load_save : ∀ {board : Board}, Fits board → Rules.load (Rules.save board) = some board

namespace Cells
variable {count : Nat}

theorem load?_save_cell (cell : Cell) : Cell.load? cell.save = some cell := by
  cases cell with
  | none => rfl
  | some mark => simp [Cell.load?, Cell.save, isNull]

theorem load?_save (cells : Cells count) : load? count cells.save = some cells := by
  have found : cells.save.record? savedFields = some [some (.arr (cells.toList.map Cell.save))] := rfl
  have read : (Json.arr (cells.toList.map Cell.save)).itemsWith? Cell.load? = some cells.toList :=
    itemsWith?_map fun cell _ => load?_save_cell cell
  simp [load?, found, read, Vector.toArray_toList]

theorem writable_save (cells : Cells count) (levels : Nat) : Writable (levels + 3) cells.save := by
  refine .obj fun field is_field => ?_
  obtain rfl := List.mem_singleton.mp is_field
  refine .arr fun item is_item => ?_
  obtain ⟨cell, _, rfl⟩ := List.mem_map.mp is_item
  cases cell with
  | none => exact .null
  | some mark => exact .str mark.name

theorem covers_save (cells : Cells count) : (Form.ofNames savedFields).Covers cells.save := by
  refine .of_seesAll fun field is_field => ?_
  obtain rfl := List.mem_singleton.mp is_field
  rfl

end Cells

instance : SavableRules ThreeInARow where
  Fits _ := True
  writable {board} _ levels := board.cells.writable_save levels
  covers board := board.cells.covers_save
  load_save {board} _ := by
    change (Cells.load? 9 board.cells.save).map ThreeInARow.mk = some board
    rw [Cells.load?_save]
    rfl

instance : SavableRules DropGame where
  Fits _ := True
  writable {board} _ levels := board.cells.writable_save levels
  covers board := board.cells.covers_save
  load_save {board} _ := by
    change (Cells.load? 42 board.cells.save).map DropGame.mk = some board
    rw [Cells.load?_save]
    rfl

namespace SowingGame

/-- The numbers of a board's seeds are words of 32 bits. -/
def InWords (board : SowingGame) : Prop :=
  ∀ mark, (∀ seeds ∈ (board.row mark).pits, seeds < 2 ^ 32) ∧ (board.row mark).store < 2 ^ 32

theorem inWords_of_total {board : SowingGame} (few : board.total < 2 ^ 32) : board.InWords := by
  intro mark
  have part := board.total_row_le mark
  have total : (board.row mark).total = (board.row mark).inPits + (board.row mark).store := rfl
  refine ⟨fun seeds is_pit => ?_, by omega⟩
  have single : seeds ≤ (board.row mark).inPits := by
    rw [Row.inPits_eq_sum]
    exact List.le_sum_of_mem (Vector.mem_toList_iff.mpr is_pit)
  omega

theorem writable_numbers {items : List Nat} (words : ∀ n ∈ items, n < 2 ^ 32) (levels : Nat) :
    Writable (levels + 1) (numbers items) := by
  refine .arr fun item is_item => ?_
  obtain ⟨n, is_one, rfl⟩ := List.mem_map.mp is_item
  have small := words n is_one
  exact .int (by omega) (by omega)

theorem itemsWith?_numbers {items : List Nat} (words : ∀ n ∈ items, n < 2 ^ 32) :
    (numbers items).itemsWith? (unsigned? 32) = some items :=
  itemsWith?_map fun n is_one => unsigned?_int (words n is_one)

theorem loadPits?_numbers {pits : Vector Nat 6} (words : ∀ seeds ∈ pits, seeds < 2 ^ 32) :
    loadPits? (numbers pits.toList) = some pits := by
  have read : (numbers pits.toList).itemsWith? (unsigned? 32) = some pits.toList :=
    itemsWith?_numbers fun n is_one => words n (Vector.mem_toList_iff.mp is_one)
  simp [loadPits?, read, Vector.toArray_toList]

variable {board : SowingGame}

theorem writable_save (words : board.InWords) (levels : Nat) : Writable (levels + 3) board.save := by
  refine .obj fun field is_field => ?_
  rcases List.mem_pair.mp is_field with rfl | rfl
  · refine .arr fun item is_item => ?_
    rcases List.mem_pair.mp is_item with rfl | rfl
    · exact writable_numbers (fun n is_one => (words .first).1 n (Vector.mem_toList_iff.mp is_one)) _
    · exact writable_numbers (fun n is_one => (words .second).1 n (Vector.mem_toList_iff.mp is_one)) _
  · refine writable_numbers (fun n is_one => ?_) _
    rcases List.mem_pair.mp is_one with rfl | rfl
    · exact (words .first).2
    · exact (words .second).2

theorem load?_save (words : board.InWords) : load? board.save = some board := by
  have found : board.save.record? savedFields =
      some [some (.arr [numbers board.first.pits.toList, numbers board.second.pits.toList]),
        some (numbers [board.first.store, board.second.store])] := rfl
  have first : loadPits? (numbers board.first.pits.toList) = some board.first.pits :=
    loadPits?_numbers (words .first).1
  have second : loadPits? (numbers board.second.pits.toList) = some board.second.pits :=
    loadPits?_numbers (words .second).1
  have stores : (numbers [board.first.store, board.second.store]).itemsWith? (unsigned? 32) =
      some [board.first.store, board.second.store] := by
    refine itemsWith?_numbers fun n is_one => ?_
    rcases List.mem_pair.mp is_one with rfl | rfl
    · exact (words .first).2
    · exact (words .second).2
  have rows : (Json.arr [numbers board.first.pits.toList, numbers board.second.pits.toList]).itemsWith?
      loadPits? = some [board.first.pits, board.second.pits] := by
    simp [itemsWith?, first, second]
  simp [load?, found, rows, stores]

instance : SavableRules SowingGame where
  Fits := InWords
  writable words levels := writable_save words levels
  covers board := by
    refine .of_seesAll fun field is_field => ?_
    rcases List.mem_pair.mp is_field with rfl | rfl
    · rfl
    · rfl
  load_save words := load?_save words

end SowingGame

namespace SavedGame
variable {Board : Type} [Rules Board] [SavableRules Board]

theorem read?_text {saved : SavedGame Board} (fits : SavableRules.Fits saved.board) :
    read? saved.text = some saved := by
  let json := Json.obj [("board", Rules.save saved.board), ("mover", .str saved.mover.name)]
  have writable : Writable depthLimit json := by
    refine .obj fun field is_field => ?_
    rcases List.mem_pair.mp is_field with rfl | rfl
    · exact SavableRules.writable fits 123
    · exact .str saved.mover.name
  have covers : (form Board).Covers json := by
    refine .record (fun field is_field => ?_) fun field is_field inner seen => ?_
    · rcases List.mem_pair.mp is_field with rfl | rfl
      · rfl
      · rfl
    · rcases List.mem_pair.mp is_field with rfl | rfl
      · obtain rfl : Form.ofNames (Rules.savedFields Board) = inner := Option.some.inj seen
        exact SavableRules.covers saved.board
      · obtain rfl : Form.whole = inner := Option.some.inj seen
        exact .of_seesAll (Form.whole_seesAll _)
  have found : json.record? ["board", "mover"] =
      some [some (Rules.save saved.board), some (.str saved.mover.name)] := rfl
  have read : readAs? (form Board) saved.text = some json := readAs?_pretty writable covers
  simp [read?, read, found, SavableRules.load_save fits]

end SavedGame
end Tabletop
