import Tabletop.Proofs.Board.Moves
import Tabletop.Proofs.Board.Seeds

/-!
Games that end. In each of the three games a move leaves fewer moves to make, whoever makes it and on
whatever board, so nobody can go on moving for ever.
-/

namespace Tabletop

/-- Rules under which every accepted move lowers the number of moves that are left. -/
class EndingRules (Board : Type) [Rules Board] : Prop where
  movesLeft_lt : ∀ {board after : Board} {position : Nat} {mover : Mark} {effect : Effect},
    Rules.move board position mover = .ok (after, effect) →
      Rules.movesLeft after < Rules.movesLeft board

/-- Moves one after another, at legal positions of whichever player, end at some point. -/
theorem exists_no_move {Board : Type} [Rules Board] [EndingRules Board] (boards : Nat → Board)
    (movers : Nat → Mark) (positions : Nat → Nat) (effects : Nat → Effect) :
    ∃ n, ¬ (positions n ∈ Rules.legal (boards n) (movers n) ∧
      Rules.move (boards n) (positions n) (movers n) = .ok (boards (n + 1), effects n)) := by
  by_contra endless
  simp only [not_exists, not_not] at endless
  have spent : ∀ n, Rules.movesLeft (boards n) + n ≤ Rules.movesLeft (boards 0) := by
    intro n
    induction n with
    | zero => exact Nat.le_refl _
    | succ n of_n =>
      have lower := EndingRules.movesLeft_lt (endless n).2
      omega
  have too_many := spent (Rules.movesLeft (boards 0) + 1)
  omega

/-! ## Placing pieces -/

/-- A piece put into an empty cell is counted in its place. -/
theorem Cells.countP_put {count : Nat} {cells : Cells count} {index : Nat} (inside : index < count)
    (empty : cells.at? index = none) (mark : Mark) (counted : Cell → Bool) :
    (cells.put index (some mark)).toList.countP counted + (if counted none then 1 else 0) =
      cells.toList.countP counted + if counted (some mark) then 1 else 0 := by
  have within : index < cells.toList.length := by simpa using inside
  have found : cells.toList[index] = none := by
    simpa [Cells.at?, inside] using empty
  have placed : (cells.put index (some mark)).toList = cells.toList.set index (some mark) := by
    simp [Cells.put]
  have some_counted : counted none = true → 0 < cells.toList.countP counted := by
    intro counts
    refine List.countP_pos_iff.mpr ⟨none, ?_, counts⟩
    rw [← found]
    exact List.getElem_mem _
  rw [placed, List.countP_set within, found]
  split
  · rename_i counts
    have positive := some_counted counts
    omega
  · omega

theorem Cells.emptyCount_put {count : Nat} {cells : Cells count} {index : Nat} (inside : index < count)
    (empty : cells.at? index = none) (mark : Mark) :
    (cells.put index (some mark)).emptyCount < cells.emptyCount := by
  have counted := Cells.countP_put inside empty mark Option.isNone
  simp only [Option.isNone_none, Option.isNone_some, if_true, Bool.false_eq_true, if_false] at counted
  unfold Cells.emptyCount
  omega

instance : EndingRules ThreeInARow where
  movesLeft_lt {board after position mover effect} accepted := by
    obtain ⟨inside, empty, rfl, -⟩ := ThreeInARow.move_eq_ok_iff.mp accepted
    exact Cells.emptyCount_put inside empty mover

namespace DropGame

theorem landingRow_eq_some {board : DropGame} {column row : Nat}
    (lands : board.landingRow column = some row) :
    column < columns ∧ row < rows ∧ board.cells.at? (row * columns + column) = none := by
  unfold landingRow at lands
  split at lands
  · rename_i inside
    have among := List.mem_of_find?_eq_some lands
    have empty := List.find?_some lands
    have low : row < rows := by
      simp only [List.mem_cons, List.not_mem_nil, or_false] at among
      simp only [rows]
      omega
    refine ⟨inside, low, ?_⟩
    simpa [cell, low, inside] using empty
  · cases lands

theorem landing_lt {board : DropGame} {column row : Nat} (lands : board.landingRow column = some row) :
    row * columns + column < 42 := by
  obtain ⟨inside, low, -⟩ := landingRow_eq_some lands
  simp only [columns, rows] at inside low ⊢
  omega

instance : EndingRules DropGame where
  movesLeft_lt {board after position mover effect} accepted := by
    obtain ⟨-, -, row, lands, rfl, -⟩ := drop_eq_ok_iff.mp accepted
    obtain ⟨-, -, empty⟩ := landingRow_eq_some lands
    exact Cells.emptyCount_put (landing_lt lands) empty mover

end DropGame

/-! ## Sowing seeds -/

theorem Row.distance_eq_weighed (row : Row) : row.distance = row.weighed fun index => 6 - index := by
  obtain ⟨a, b, c, d, e, f, store, rfl⟩ := row.exists_pits
  simp [distance, weighed, Finset.sum_range_succ, List.range_succ, pit]
  omega

theorem Row.distance_setPit (row : Row) {index : Nat} (inside : index < 6) (seeds : Nat) :
    (row.setPit index seeds).distance + (6 - index) * row.pit index =
      row.distance + (6 - index) * seeds := by
  simpa only [distance_eq_weighed] using row.weighed_setPit (fun index => 6 - index) inside seeds

theorem Row.distance_addToPit (row : Row) {index : Nat} (inside : index < 6) :
    (row.addToPit index).distance = row.distance + (6 - index) := by
  have changed := row.distance_setPit inside (row.pit index + 1)
  rw [Nat.mul_add] at changed
  rw [addToPit_eq_setPit]
  omega

@[simp] theorem Row.distance_addStore (row : Row) (seeds : Nat) :
    (row.addStore seeds).distance = row.distance := rfl

theorem Row.distance_le (row : Row) : row.distance ≤ 6 * row.inPits := by
  obtain ⟨a, b, c, d, e, f, store, rfl⟩ := row.exists_pits
  simp [distance, inPits, List.range_succ, pit]
  omega

namespace SowingGame

def inPits (board : SowingGame) : Nat := board.first.inPits + board.second.inPits

def distance (board : SowingGame) : Nat := board.first.distance + board.second.distance

theorem movesLeft_eq (board : SowingGame) : movesLeft board = 6 * board.inPits ^ 2 + board.distance := by
  rw [movesLeft, inPits, distance, Nat.pow_eq, Nat.add_assoc]

theorem inPits_eq (board : SowingGame) (mark : Mark) :
    board.inPits = (board.row mark).inPits + (board.row mark.opponent).inPits := by
  cases mark
  · rfl
  · exact Nat.add_comm ..

theorem distance_eq (board : SowingGame) (mark : Mark) :
    board.distance = (board.row mark).distance + (board.row mark.opponent).distance := by
  cases mark
  · rfl
  · exact Nat.add_comm ..

theorem distance_le (board : SowingGame) : board.distance ≤ 6 * board.inPits := by
  have first := board.first.distance_le
  have second := board.second.distance_le
  unfold distance inPits
  omega

/-- Fewer seeds in the pits make up for any distance of those that are left. -/
theorem movesLeft_lt_of_inPits_lt {board after : SowingGame} (fewer : after.inPits < board.inPits) :
    movesLeft after < movesLeft board := by
  have near := after.distance_le
  have square : after.inPits * (after.inPits + 1) < board.inPits ^ 2 := by
    have step : after.inPits + 1 ≤ board.inPits := fewer
    calc after.inPits * (after.inPits + 1) < (after.inPits + 1) * (after.inPits + 1) :=
          Nat.mul_lt_mul_of_pos_right (Nat.lt_succ_self _) (Nat.succ_pos _)
      _ ≤ board.inPits * board.inPits := Nat.mul_le_mul step step
      _ = board.inPits ^ 2 := (Nat.pow_two _).symm
  rw [Nat.mul_add, Nat.mul_one, ← Nat.pow_two] at square
  rw [movesLeft_eq, movesLeft_eq]
  omega

theorem movesLeft_le {board after : SowingGame} (fewer : after.inPits ≤ board.inPits)
    (nearer : after.distance ≤ board.distance) : movesLeft after ≤ movesLeft board := by
  have square := Nat.pow_le_pow_left fewer 2
  rw [movesLeft_eq, movesLeft_eq]
  omega

/-- A seed that goes to a pit before the store is as far from the store as its slot is. -/
theorem distance_addSeed (board : SowingGame) (mover : Mark) {slot : Nat} (own : slot < 6) :
    (board.addSeed mover slot).distance = board.distance + (6 - slot) := by
  have added := (board.row mover).distance_addToPit own
  rw [addSeed, if_pos own, changeRow_eq_setRow, distance_eq _ mover, board.distance_eq mover,
    row_setRow_self, row_setRow_opponent]
  omega

theorem store_addSeed (board : SowingGame) (mover : Mark) (slot : Nat) :
    ((board.addSeed mover slot).row mover).store =
      (board.row mover).store + (if slot = storeSlot then 1 else 0) := by
  unfold addSeed
  simp only [changeRow_eq_setRow]
  split
  · rename_i own
    have not_store : slot ≠ storeSlot := Nat.ne_of_lt own
    simp [not_store]
  · split
    · simp
    · simp

theorem store_addSeed_opponent (board : SowingGame) (mover : Mark) (slot : Nat) :
    ((board.addSeed mover slot).row mover.opponent).store = (board.row mover.opponent).store := by
  unfold addSeed
  simp only [changeRow_eq_setRow]
  split
  · simp
  · split
    · simp
    · simp

theorem store_sow_opponent (mover : Mark) (seeds last : Nat) (board : SowingGame) :
    ((sow mover seeds last board).1.row mover.opponent).store = (board.row mover.opponent).store := by
  induction seeds generalizing last board with
  | zero => rfl
  | succ seeds of_seeds => rw [sow, of_seeds, store_addSeed_opponent]

theorem store_le_sow (mover : Mark) (seeds last : Nat) (board : SowingGame) :
    (board.row mover).store ≤ ((sow mover seeds last board).1.row mover).store := by
  induction seeds generalizing last board with
  | zero => exact Nat.le_refl _
  | succ seeds of_seeds =>
    have first := board.store_addSeed mover ((last + 1) % 13)
    have rest := of_seeds ((last + 1) % 13) (board.addSeed mover ((last + 1) % 13))
    rw [sow]
    omega

/-- Seeds that get past the own pits leave one in the store. -/
theorem store_lt_sow (mover : Mark) {seeds last : Nat} (before : last < 6) (past : 6 ≤ last + seeds)
    (board : SowingGame) :
    (board.row mover).store < ((sow mover seeds last board).1.row mover).store := by
  induction seeds generalizing last board with
  | zero => omega
  | succ seeds of_seeds =>
    have next : (last + 1) % 13 = last + 1 := Nat.mod_eq_of_lt (by omega)
    have first := board.store_addSeed mover (last + 1)
    rw [sow, next]
    by_cases at_store : last + 1 = storeSlot
    · have rest := store_le_sow mover seeds (last + 1) (board.addSeed mover (last + 1))
      rw [if_pos at_store] at first
      omega
    · simp only [storeSlot] at at_store
      have rest := @of_seeds (last + 1) (by omega) (by omega) (board.addSeed mover (last + 1))
      omega

theorem distance_sow_le (mover : Mark) (seeds last : Nat) (board : SowingGame) (short : last + seeds < 6) :
    (sow mover seeds last board).1.distance ≤ board.distance + seeds * (5 - last) := by
  induction seeds generalizing last board with
  | zero => simp [sow]
  | succ seeds of_seeds =>
    have next : (last + 1) % 13 = last + 1 := Nat.mod_eq_of_lt (by omega)
    have rest := of_seeds (last + 1) (board.addSeed mover (last + 1)) (by omega)
    have first := @distance_addSeed board mover (last + 1) (by omega)
    have nearer : seeds * (5 - (last + 1)) ≤ seeds * (5 - last) := Nat.mul_le_mul_left _ (by omega)
    rw [sow, next, Nat.add_one_mul]
    omega

/-- What is not in the stores is in the pits. -/
theorem total_eq_inPits (board : SowingGame) (mover : Mark) :
    board.total = board.inPits + (board.row mover).store + (board.row mover.opponent).store := by
  rw [board.total_eq mover, board.inPits_eq mover]
  simp only [Row.total]
  omega

theorem movesLeft_sowFrom {board : SowingGame} {position : Nat} (inside : position < 6) {mover : Mark}
    (filled : 0 < (board.row mover).pit position) :
    movesLeft (board.sowFrom position mover).1 < movesLeft board := by
  have total := board.total_sowFrom inside mover
  have own := store_le_sow mover ((board.row mover).pit position) position
    (board.setRow mover ((board.row mover).setPit position 0))
  have other := store_sow_opponent mover ((board.row mover).pit position) position
    (board.setRow mover ((board.row mover).setPit position 0))
  rw [total_eq_inPits _ mover, board.total_eq_inPits mover] at total
  unfold sowFrom at total ⊢
  rw [row_setRow_self, Row.store_setPit] at own
  rw [row_setRow_opponent] at other
  by_cases short : position + (board.row mover).pit position < 6
  · -- no seed leaves the mover's pits, and each comes nearer to the store
    have near := distance_sow_le mover _ position
      (board.setRow mover ((board.row mover).setPit position 0)) short
    have emptied := (board.row mover).distance_setPit inside 0
    have left : (board.setRow mover ((board.row mover).setPit position 0)).distance +
        (6 - position) * (board.row mover).pit position = board.distance := by
      rw [distance_eq _ mover, board.distance_eq mover, row_setRow_self, row_setRow_opponent]
      omega
    have one_nearer : (6 - position) * (board.row mover).pit position =
        (board.row mover).pit position * (5 - position) + (board.row mover).pit position := by
      rw [Nat.mul_comm, show 6 - position = 5 - position + 1 by omega, Nat.mul_add_one]
    have fewer : (sow mover ((board.row mover).pit position) position
        (board.setRow mover ((board.row mover).setPit position 0))).1.inPits ≤ board.inPits := by omega
    have square := Nat.pow_le_pow_left fewer 2
    rw [movesLeft_eq, movesLeft_eq]
    omega
  · -- a seed goes into the mover's store
    have more := store_lt_sow mover inside (Nat.le_of_not_lt short)
      (board.setRow mover ((board.row mover).setPit position 0))
    rw [row_setRow_self, Row.store_setPit] at more
    exact movesLeft_lt_of_inPits_lt (by omega)

theorem movesLeft_capture_le (board : SowingGame) (mover : Mark) (last : Nat) :
    movesLeft (board.capture mover last).1 ≤ movesLeft board := by
  rcases board.capture_cases mover last with none_ | ⟨taken, own, single, _, _, caught⟩
  · rw [none_]
  · have opposite : 5 - last < 6 := by omega
    have one := (board.row mover).inPits_setPit own 0
    have one_nearer := (board.row mover).distance_setPit own 0
    have all := (board.row mover.opponent).inPits_setPit opposite 0
    have all_nearer := (board.row mover.opponent).distance_setPit opposite 0
    rw [caught]
    refine movesLeft_le ?_ ?_
    · rw [inPits_eq _ mover, board.inPits_eq mover]
      simp only [row_setRow_of_opponent, row_setRow_self, Row.inPits_addStore]
      omega
    · rw [distance_eq _ mover, board.distance_eq mover]
      simp only [row_setRow_of_opponent, row_setRow_self, Row.distance_addStore]
      omega

theorem movesLeft_settle_le (board : SowingGame) : movesLeft board.settle ≤ movesLeft board := by
  unfold settle
  split
  · exact movesLeft_le (Nat.zero_le _) (Nat.zero_le _)
  · exact Nat.le_refl _

instance : EndingRules SowingGame where
  movesLeft_lt {board after position mover effect} accepted := by
    obtain ⟨inside, _, filled, rfl, _⟩ := move_eq_ok_iff.mp accepted
    calc movesLeft ((board.sowFrom position mover).1.capture mover _).1.settle
        ≤ movesLeft ((board.sowFrom position mover).1.capture mover _).1 := movesLeft_settle_le _
      _ ≤ movesLeft (board.sowFrom position mover).1 := movesLeft_capture_le ..
      _ < movesLeft board := movesLeft_sowFrom inside filled

end SowingGame
end Tabletop
