import Mathlib.Algebra.BigOperators.Intervals
import Tabletop.Board.SowingGame

/-!
Seeds are neither lost nor made. Every part of a move takes away what it adds, so a board keeps its seeds
whatever is played, and as long as they are fewer than 2^32 no sum of a move is too large for a word.
-/

namespace Tabletop

/-! ## Words -/

/-- The sum of two numbers of 32 bits, if it has no more. -/
def wordSum? (a b : Nat) : Option Nat := if a + b < 2 ^ 32 then some (a + b) else none

theorem wordSum?_eq {a b : Nat} (small : a + b < 2 ^ 32) : wordSum? a b = some (a + b) := if_pos small

theorem foldlM_wordSum? {numbers : List Nat} {start : Nat} (small : start + numbers.sum < 2 ^ 32) :
    numbers.foldlM wordSum? start = some (start + numbers.sum) := by
  induction numbers generalizing start with
  | nil => rfl
  | cons number rest of_rest =>
    rw [List.sum_cons, ← Nat.add_assoc] at small ⊢
    have first : start + number < 2 ^ 32 := by omega
    rw [List.foldlM_cons, wordSum?_eq first]
    exact of_rest small

namespace Row

/-! ## Weights of the pits -/

theorem pit_setPit_self (row : Row) {index : Nat} (inside : index < 6) (seeds : Nat) :
    (row.setPit index seeds).pit index = seeds := by
  simp [pit, setPit, inside]

theorem pit_setPit_of_ne (row : Row) {index other : Nat} (distinct : other ≠ index) (seeds : Nat) :
    (row.setPit index seeds).pit other = row.pit other := by
  simp [pit, setPit, distinct.symm]

/-- The seeds of the pits, each counted with the weight of its pit. -/
def weighed (weight : Nat → Nat) (row : Row) : Nat :=
  ∑ index ∈ Finset.range 6, weight index * row.pit index

theorem weighed_setPit (weight : Nat → Nat) (row : Row) {index : Nat} (inside : index < 6)
    (seeds : Nat) :
    (row.setPit index seeds).weighed weight + weight index * row.pit index =
      row.weighed weight + weight index * seeds := by
  have member : index ∈ Finset.range 6 := Finset.mem_range.mpr inside
  have others : ∑ other ∈ (Finset.range 6).erase index, weight other * (row.setPit index seeds).pit other =
      ∑ other ∈ (Finset.range 6).erase index, weight other * row.pit other := by
    refine Finset.sum_congr rfl fun other is_other => ?_
    rw [pit_setPit_of_ne row (Finset.ne_of_mem_erase is_other)]
  unfold weighed
  rw [← Finset.add_sum_erase _ _ member, others, pit_setPit_self row inside,
    ← Finset.add_sum_erase _ (fun other => weight other * row.pit other) member]
  omega

theorem exists_pits (row : Row) : ∃ a b c d e f store, row = ⟨#v[a, b, c, d, e, f], store⟩ := by
  obtain ⟨⟨⟨pits⟩, six⟩, store⟩ := row
  match pits, six with
  | [a, b, c, d, e, f], _ => exact ⟨a, b, c, d, e, f, store, rfl⟩

theorem inPits_eq_weighed (row : Row) : row.inPits = row.weighed fun _ => 1 := by
  obtain ⟨a, b, c, d, e, f, store, rfl⟩ := row.exists_pits
  simp [inPits, weighed, Finset.sum_range_succ, pit]
  omega

theorem inPits_eq_sum (row : Row) : row.inPits = row.pits.toList.sum := List.sum_eq_foldr.symm

theorem inPits_setPit (row : Row) {index : Nat} (inside : index < 6) (seeds : Nat) :
    (row.setPit index seeds).inPits + row.pit index = row.inPits + seeds := by
  have changed := row.weighed_setPit (fun _ => 1) inside seeds
  simpa only [inPits_eq_weighed, Nat.one_mul] using changed

theorem pit_le_inPits (row : Row) (index : Nat) : row.pit index ≤ row.inPits := by
  by_cases inside : index < 6
  · have emptied := row.inPits_setPit inside 0
    omega
  · have none_ : row.pit index = 0 := by simp [pit, Nat.not_lt.mp inside]
    omega

/-! ## Sums of a row -/

@[simp] theorem store_setPit (row : Row) (index seeds : Nat) :
    (row.setPit index seeds).store = row.store := rfl

@[simp] theorem store_addToPit (row : Row) (index : Nat) : (row.addToPit index).store = row.store := rfl

@[simp] theorem store_addStore (row : Row) (seeds : Nat) :
    (row.addStore seeds).store = row.store + seeds := rfl

@[simp] theorem inPits_addStore (row : Row) (seeds : Nat) : (row.addStore seeds).inPits = row.inPits := rfl

@[simp] theorem inPits_sweep (row : Row) : row.sweep.inPits = 0 := rfl

theorem total_setPit (row : Row) {index : Nat} (inside : index < 6) (seeds : Nat) :
    (row.setPit index seeds).total + row.pit index = row.total + seeds := by
  have changed := row.inPits_setPit inside seeds
  simp only [total, store_setPit]
  omega

theorem total_addToPit (row : Row) {index : Nat} (inside : index < 6) :
    (row.addToPit index).total = row.total + 1 := by
  have changed := row.total_setPit inside (row.pit index + 1)
  rw [addToPit_eq_setPit]
  omega

theorem total_addStore (row : Row) (seeds : Nat) : (row.addStore seeds).total = row.total + seeds := by
  simp only [total, inPits_addStore, store_addStore]
  omega

theorem total_sweep (row : Row) : row.sweep.total = row.total := by
  simp only [total, inPits_sweep]
  simp only [sweep]
  omega

/-! ## The same sums in words -/

def addToPit? (row : Row) (index : Nat) : Option Row :=
  (wordSum? (row.pit index) 1).map (row.setPit index)

def addStore? (row : Row) (seeds : Nat) : Option Row :=
  (wordSum? row.store seeds).map fun store => { row with store }

def inPits? (row : Row) : Option Nat := row.pits.toList.foldlM wordSum? 0

def sweep? (row : Row) : Option Row := do
  let rest ← row.inPits?
  row.addStore? rest |>.map fun row => { row with pits := Vector.replicate 6 0 }

variable {row : Row}

theorem addToPit?_eq {index : Nat} (small : row.total + 1 < 2 ^ 32) :
    row.addToPit? index = some (row.addToPit index) := by
  have part := row.pit_le_inPits index
  simp only [total] at small
  rw [addToPit?, wordSum?_eq (by omega), addToPit_eq_setPit]
  rfl

theorem addStore?_eq {seeds : Nat} (small : row.store + seeds < 2 ^ 32) :
    row.addStore? seeds = some (row.addStore seeds) := by
  rw [addStore?, wordSum?_eq small]
  rfl

theorem inPits?_eq (small : row.total < 2 ^ 32) : row.inPits? = some row.inPits := by
  have sum := row.inPits_eq_sum
  simp only [total] at small
  rw [inPits?, foldlM_wordSum? (by omega), sum, Nat.zero_add]

theorem sweep?_eq (small : row.total < 2 ^ 32) : row.sweep? = some row.sweep := by
  have stored : row.store + row.inPits < 2 ^ 32 := by
    simp only [total] at small
    omega
  rw [sweep?, inPits?_eq small]
  change (row.addStore? row.inPits).map _ = _
  rw [addStore?_eq stored]
  rfl

end Row

namespace SowingGame

/-! ## Rows of a board -/

@[simp] theorem row_setRow_self (board : SowingGame) (mark : Mark) (row : Row) :
    (board.setRow mark row).row mark = row := by
  cases mark <;> rfl

@[simp] theorem row_setRow_opponent (board : SowingGame) (mark : Mark) (row : Row) :
    (board.setRow mark row).row mark.opponent = board.row mark.opponent := by
  cases mark <;> rfl

@[simp] theorem row_setRow_of_opponent (board : SowingGame) (mark : Mark) (row : Row) :
    (board.setRow mark.opponent row).row mark = board.row mark := by
  cases mark <;> rfl

theorem total_eq (board : SowingGame) (mark : Mark) :
    board.total = (board.row mark).total + (board.row mark.opponent).total := by
  cases mark
  · rfl
  · exact Nat.add_comm ..

theorem total_row_le (board : SowingGame) (mark : Mark) : (board.row mark).total ≤ board.total := by
  rw [board.total_eq mark]
  exact Nat.le_add_right ..

theorem total_setRow (board : SowingGame) (mark : Mark) (row : Row) :
    (board.setRow mark row).total + (board.row mark).total = board.total + row.total := by
  rw [total_eq _ mark, board.total_eq mark, row_setRow_self, row_setRow_opponent]
  omega

/-! ## Seeds through a move -/

theorem total_emptied (board : SowingGame) (mover : Mark) {position : Nat} (inside : position < 6) :
    (board.setRow mover ((board.row mover).setPit position 0)).total + (board.row mover).pit position =
      board.total := by
  have changed := board.total_setRow mover ((board.row mover).setPit position 0)
  have emptied := (board.row mover).total_setPit inside 0
  omega

theorem total_addSeed (board : SowingGame) (mover : Mark) {slot : Nat} (inside : slot < 13) :
    (board.addSeed mover slot).total = board.total + 1 := by
  unfold addSeed
  simp only [changeRow_eq_setRow]
  split
  · rename_i own
    have changed := board.total_setRow mover ((board.row mover).addToPit slot)
    have added := (board.row mover).total_addToPit own
    omega
  · split
    · have changed := board.total_setRow mover ((board.row mover).addStore 1)
      have added := (board.row mover).total_addStore 1
      omega
    · rename_i not_own not_store
      have other : slot - 7 < 6 := by omega
      have changed := board.total_setRow mover.opponent ((board.row mover.opponent).addToPit (slot - 7))
      have added := (board.row mover.opponent).total_addToPit other
      omega

theorem total_sow (mover : Mark) (seeds last : Nat) (board : SowingGame) :
    (sow mover seeds last board).1.total = board.total + seeds := by
  induction seeds generalizing last board with
  | zero => rfl
  | succ seeds of_seeds =>
    have inside : (last + 1) % 13 < 13 := Nat.mod_lt _ (by decide)
    have added := board.total_addSeed mover inside
    rw [sow, of_seeds]
    omega

/-- The board after a capture, if there is one. -/
theorem capture_cases (board : SowingGame) (mover : Mark) (last : Nat) :
    board.capture mover last = (board, 0) ∨
      ∃ taken, last < 6 ∧ (board.row mover).pit last = 1 ∧
        taken = (board.row mover.opponent).pit (5 - last) ∧ 0 < taken ∧
        board.capture mover last =
          ((board.setRow mover (((board.row mover).setPit last 0).addStore (taken + 1))).setRow
            mover.opponent ((board.row mover.opponent).setPit (5 - last) 0), taken + 1) := by
  unfold capture
  by_cases caught : last < 6 ∧ (board.row mover).pit last = 1 ∧
      0 < (board.row mover.opponent).pit (5 - last)
  · refine .inr ⟨_, caught.1, caught.2.1, rfl, caught.2.2, ?_⟩
    simp only [caught, and_self, if_true]
  · exact .inl (if_neg caught)

theorem total_capture (board : SowingGame) (mover : Mark) (last : Nat) :
    (board.capture mover last).1.total = board.total := by
  rcases board.capture_cases mover last with none_ | ⟨taken, own, single, same, _, caught⟩
  · rw [none_]
  · rw [caught]
    have opposite : 5 - last < 6 := by omega
    have one := (board.row mover).total_setPit own 0
    have stored := ((board.row mover).setPit last 0).total_addStore (taken + 1)
    have emptied := (board.row mover.opponent).total_setPit opposite 0
    rw [total_eq _ mover, board.total_eq mover]
    simp only [row_setRow_of_opponent, row_setRow_self]
    omega

theorem total_settle (board : SowingGame) : board.settle.total = board.total := by
  unfold settle
  split
  · simp only [total, Row.total_sweep]
  · rfl

/-- The board between two moves: as long as both players have seeds in their pits nothing is swept, and
then everything is. -/
def IsSettled (board : SowingGame) : Prop :=
  (board.first.isEmpty = false ∧ board.second.isEmpty = false) ∨
    ((∀ mark index, (board.row mark).pit index = 0) ∧
      board.first.store + board.second.store = board.total)

theorem settle_isSettled (board : SowingGame) : board.settle.IsSettled := by
  by_cases finished : board.isFinished
  · right
    have swept : board.settle = ⟨board.first.sweep, board.second.sweep⟩ := if_pos finished
    rw [swept]
    constructor
    · intro mark index
      have none_left := (row ⟨board.first.sweep, board.second.sweep⟩ mark).pit_le_inPits index
      cases mark <;> simpa [row] using none_left
    · simp [total, Row.total]
  · left
    have kept : board.settle = board := if_neg finished
    rw [kept]
    simpa [isFinished] using finished

/-- The board once all seeds of a pit are sown, and the slot of the last one. -/
def sowFrom (board : SowingGame) (position : Nat) (mover : Mark) : SowingGame × Nat :=
  sow mover ((board.row mover).pit position) position
    (board.setRow mover ((board.row mover).setPit position 0))

theorem total_sowFrom (board : SowingGame) {position : Nat} (inside : position < 6) (mover : Mark) :
    (board.sowFrom position mover).1.total = board.total := by
  have emptied := board.total_emptied mover inside
  rw [sowFrom, total_sow]
  exact emptied

theorem move_eq_ok_iff {board after : SowingGame} {position : Nat} {mover : Mark} {effect : Effect} :
    board.move position mover = .ok (after, effect) ↔
      position < 6 ∧ board.isFinished = false ∧ 0 < (board.row mover).pit position ∧
      ((board.sowFrom position mover).1.capture mover (board.sowFrom position mover).2).1.settle = after ∧
      ⟨(board.sowFrom position mover).2, (board.sowFrom position mover).2 == storeSlot,
        ((board.sowFrom position mover).1.capture mover (board.sowFrom position mover).2).2⟩ = effect := by
  unfold move sowFrom
  by_cases outside : 6 ≤ position
  · simp [outside]
  · by_cases finished : board.isFinished
    · simp [outside, finished]
    · by_cases empty : (board.row mover).pit position = 0
      · simp [outside, finished, empty]
      · have filled : 0 < (board.row mover).pit position := Nat.pos_of_ne_zero empty
        simp [outside, finished, empty, filled, Nat.lt_of_not_le outside]

theorem total_move {board after : SowingGame} {position : Nat} {mover : Mark} {effect : Effect}
    (accepted : board.move position mover = .ok (after, effect)) :
    after.total = board.total ∧ after.IsSettled := by
  obtain ⟨inside, _, _, rfl, _⟩ := move_eq_ok_iff.mp accepted
  refine ⟨?_, settle_isSettled _⟩
  rw [total_settle, total_capture, total_sowFrom board inside]

/-! ## Moves in words -/

def addSeed? (board : SowingGame) (mover : Mark) (slot : Nat) : Option SowingGame :=
  if slot < 6 then ((board.row mover).addToPit? slot).map (board.setRow mover)
  else if slot = storeSlot then ((board.row mover).addStore? 1).map (board.setRow mover)
  else ((board.row mover.opponent).addToPit? (slot - 7)).map (board.setRow mover.opponent)

def sow? (mover : Mark) : (seeds last : Nat) → SowingGame → Option (SowingGame × Nat)
  | 0, last, board => some (board, last)
  | seeds + 1, last, board => do
    let slot := (last + 1) % 13
    let board ← board.addSeed? mover slot
    sow? mover seeds slot board

def capture? (board : SowingGame) (mover : Mark) (last : Nat) : Option (SowingGame × Nat) :=
  let own := board.row mover
  let other := board.row mover.opponent
  let taken := other.pit (5 - last)
  if last < 6 ∧ own.pit last = 1 ∧ 0 < taken then do
    let captured ← wordSum? taken 1
    let own ← (own.setPit last 0).addStore? captured
    return ((board.setRow mover own).setRow mover.opponent (other.setPit (5 - last) 0), captured)
  else some (board, 0)

def settle? (board : SowingGame) : Option SowingGame :=
  if board.isFinished then do
    let first ← board.first.sweep?
    let second ← board.second.sweep?
    return ⟨first, second⟩
  else some board

/-- A move of which every sum is one of words; none if a sum is too large. -/
def move? (board : SowingGame) (position : Nat) (mover : Mark) :
    Option (Except IllegalMove (SowingGame × Effect)) :=
  if 6 ≤ position then some (.error (.outOfRange position))
  else if board.isFinished then some (.error .gameOver)
  else
    let own := board.row mover
    let seeds := own.pit position
    if seeds = 0 then some (.error (.emptyPit position))
    else do
      let (sown, last) ← sow? mover seeds position (board.setRow mover (own.setPit position 0))
      let (caught, captured) ← sown.capture? mover last
      let after ← caught.settle?
      return .ok (after, ⟨last, last == storeSlot, captured⟩)

/-- All pits are counted together, and so are the stores. -/
def total? (board : SowingGame) : Option Nat := do
  let inPits ← (board.first.pits.toList ++ board.second.pits.toList).foldlM wordSum? 0
  let inStores ← [board.first.store, board.second.store].foldlM wordSum? 0
  wordSum? inPits inStores

variable {board : SowingGame}

theorem addSeed?_eq (mover : Mark) {slot : Nat} (small : board.total + 1 < 2 ^ 32) :
    board.addSeed? mover slot = some (board.addSeed mover slot) := by
  have own := board.total_row_le mover
  have other := board.total_row_le mover.opponent
  have stored : (board.row mover).store ≤ (board.row mover).total := Nat.le_add_left ..
  unfold addSeed? addSeed
  simp only [changeRow_eq_setRow]
  split
  · rw [Row.addToPit?_eq (by omega)]
    rfl
  · split
    · rw [Row.addStore?_eq (by omega)]
      rfl
    · rw [Row.addToPit?_eq (by omega)]
      rfl

theorem sow?_eq (mover : Mark) {seeds last : Nat} (small : board.total + seeds < 2 ^ 32) :
    sow? mover seeds last board = some (sow mover seeds last board) := by
  induction seeds generalizing last board with
  | zero => rfl
  | succ seeds of_seeds =>
    have inside : (last + 1) % 13 < 13 := Nat.mod_lt _ (by decide)
    have added := board.total_addSeed mover inside
    rw [sow?, addSeed?_eq mover (by omega), sow]
    exact of_seeds (by omega)

theorem capture?_eq (mover : Mark) {last : Nat} (small : board.total < 2 ^ 32) :
    board.capture? mover last = some (board.capture mover last) := by
  unfold capture? capture
  dsimp only
  split
  · rename_i caught
    obtain ⟨_, single, _⟩ := caught
    have together := board.total_eq mover
    have one := (board.row mover).pit_le_inPits last
    have taken := (board.row mover.opponent).pit_le_inPits (5 - last)
    simp only [Row.total] at together
    rw [wordSum?_eq (by omega)]
    have stored : ((board.row mover).setPit last 0).store +
        ((board.row mover.opponent).pit (5 - last) + 1) < 2 ^ 32 := by
      rw [Row.store_setPit]
      omega
    change (do let own ← ((board.row mover).setPit last 0).addStore? _; _) = _
    rw [Row.addStore?_eq stored]
    rfl
  · rfl

theorem settle?_eq (small : board.total < 2 ^ 32) : board.settle? = some board.settle := by
  have first := board.total_row_le .first
  have second := board.total_row_le .second
  simp only [row] at first second
  unfold settle? settle
  split
  · rw [Row.sweep?_eq (by omega), Row.sweep?_eq (by omega)]
    rfl
  · rfl

theorem move?_eq (position : Nat) (mover : Mark) (small : board.total < 2 ^ 32) :
    board.move? position mover = some (board.move position mover) := by
  unfold move? move
  split
  · rfl
  · rename_i inside
    split
    · rfl
    · simp only
      split
      · rfl
      · have emptied := board.total_emptied mover (Nat.lt_of_not_le inside)
        have sown := board.total_sowFrom (Nat.lt_of_not_le inside) mover
        have caught := (board.sowFrom position mover).1.total_capture mover
          (board.sowFrom position mover).2
        rw [sow?_eq mover (by omega)]
        change (do let (caught, captured) ← (board.sowFrom position mover).1.capture? mover
                    (board.sowFrom position mover).2; _) = _
        rw [capture?_eq mover (by omega)]
        change (do let after ← ((board.sowFrom position mover).1.capture mover
                    (board.sowFrom position mover).2).1.settle?; _) = _
        rw [settle?_eq (by omega)]
        rfl

theorem total?_eq (small : board.total < 2 ^ 32) : board.total? = some board.total := by
  have first := board.first.inPits_eq_sum
  have second := board.second.inPits_eq_sum
  simp only [total, Row.total] at small
  have pits : (board.first.pits.toList ++ board.second.pits.toList).sum =
      board.first.inPits + board.second.inPits := by
    rw [List.sum_append, first, second]
  have stores : [board.first.store, board.second.store].sum =
      board.first.store + board.second.store := by simp
  rw [total?, foldlM_wordSum? (by omega), foldlM_wordSum? (by omega), pits, stores]
  change wordSum? _ _ = _
  rw [wordSum?_eq (by omega)]
  simp only [total, Row.total]
  congr 1
  omega

/-! ## Calls one after another -/

/-- The board after a player has tried a position; what is rejected changes nothing. -/
def attempt (board : SowingGame) (position : Nat) (mover : Mark) : SowingGame :=
  match board.move position mover with
  | .ok (after, _) => after
  | .error _ => board

def attemptAll (board : SowingGame) (tries : List (Nat × Mark)) : SowingGame :=
  tries.foldl (fun board (position, mover) => board.attempt position mover) board

theorem total_attempt (board : SowingGame) (position : Nat) (mover : Mark) :
    (board.attempt position mover).total = board.total := by
  unfold attempt
  split
  · rename_i accepted
    exact (total_move accepted).1
  · rfl

theorem total_attemptAll (board : SowingGame) (tries : List (Nat × Mark)) :
    (board.attemptAll tries).total = board.total := by
  induction tries generalizing board with
  | nil => rfl
  | cons one rest of_rest =>
    change ((board.attempt one.1 one.2).attemptAll rest).total = _
    rw [of_rest, total_attempt]

/-- A board of fewer than 2^32 seeds keeps all of them, whatever positions are tried for whichever player
and however often. No sum is too large for a word, be it in sowing, in a capture, in sweeping the rows or
in counting; and an accepted move leaves seeds in the pits of both players, or all of them in the stores. -/
theorem seeds_conserved (board : SowingGame) (few : board.total < 2 ^ 32) (tries : List (Nat × Mark)) :
    (board.attemptAll tries).total = board.total ∧
      (board.attemptAll tries).total? = some board.total ∧
      ∀ position mover,
        (board.attemptAll tries).move? position mover =
            some ((board.attemptAll tries).move position mover) ∧
          ∀ after effect, (board.attemptAll tries).move position mover = .ok (after, effect) →
            after.total = board.total ∧ after.IsSettled := by
  have same := board.total_attemptAll tries
  have still_few : (board.attemptAll tries).total < 2 ^ 32 := by rwa [same]
  refine ⟨same, ?_, fun position mover => ⟨move?_eq position mover still_few, ?_⟩⟩
  · rw [total?_eq still_few, same]
  · intro after effect accepted
    rw [← same]
    exact total_move accepted

/-- As many seeds as a word can count, all but one of them in a pit of the second player. -/
def crowded : SowingGame := ⟨⟨#v[0, 0, 0, 0, 0, 1], 0⟩, ⟨#v[0, 0, 0, 0, 0, 4294967294], 0⟩⟩

/-- The first player's last seed ends the game, and the second player takes the rest. -/
theorem seeds_conserved_crowded :
    crowded.total < 2 ^ 32 ∧ (crowded.attemptAll [(0, .first), (5, .first)]).total = 4294967295 ∧
      (crowded.attemptAll [(0, .first), (5, .first)]).total? = some 4294967295 ∧
      crowded.move? 5 .first =
        some (.ok (⟨⟨Vector.replicate 6 0, 1⟩, ⟨Vector.replicate 6 0, 4294967294⟩⟩, ⟨6, true, 0⟩)) := by
  have few : crowded.total < 2 ^ 32 := by decide
  have after := seeds_conserved crowded few [(0, .first), (5, .first)]
  have before := seeds_conserved crowded few []
  have last_seed : crowded.move 5 .first =
      .ok (⟨⟨Vector.replicate 6 0, 1⟩, ⟨Vector.replicate 6 0, 4294967294⟩⟩, ⟨6, true, 0⟩) := by
    decide +kernel
  refine ⟨few, after.1, after.2.1, ?_⟩
  rw [← last_seed]
  exact (before.2.2 5 .first).1

end SowingGame
end Tabletop
