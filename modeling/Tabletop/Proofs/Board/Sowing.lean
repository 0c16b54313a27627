import Mathlib.Algebra.BigOperators.Intervals
import Tabletop.Proofs.Board.Over

/-!
Moves of the sowing game in closed form. The seeds of a pit go round the thirteen slots one by one, however
often, and come back to the pit itself after thirteen. So each slot gets as many of them as numbers of seeds
lead to it, the last one lies as far on as there are seeds, and whether it takes the seeds opposite can be
told from the board without it.
-/

namespace Tabletop

namespace Row

theorem pit_setPit (row : Row) {index : Nat} (inside : index < 6) (seeds other : Nat) :
    (row.setPit index seeds).pit other = if other = index then seeds else row.pit other := by
  split
  · rename_i same
    rw [same, pit_setPit_self row inside]
  · rename_i distinct
    exact pit_setPit_of_ne row distinct seeds

theorem pit_addToPit (row : Row) {index : Nat} (inside : index < 6) (other : Nat) :
    (row.addToPit index).pit other = row.pit other + if index = other then 1 else 0 := by
  rw [addToPit_eq_setPit, pit_setPit row inside]
  grind

@[simp] theorem pit_addStore (row : Row) (seeds index : Nat) :
    (row.addStore seeds).pit index = row.pit index := rfl

theorem isEmpty_iff {row : Row} : row.isEmpty = true ↔ ∀ index < 6, row.pit index = 0 := by
  rw [isEmpty, Vector.all_eq_true]
  refine forall₂_congr fun index inside => ?_
  simp [pit, Vector.getElem?_eq_getElem inside]

end Row

namespace SowingGame

variable {board : SowingGame} {mover : Mark}

/-! ## Slots -/

/-- What lies in a slot of the mover: in the own pits 0 to 5, the own store 6 or the other player's pits. -/
def inSlot (board : SowingGame) (mover : Mark) (slot : Nat) : Nat :=
  if slot < 6 then (board.row mover).pit slot
  else if slot = storeSlot then (board.row mover).store
  else (board.row mover.opponent).pit (slot - 7)

/-- How many of the seeds of a pit come to a slot: the first one goes into the slot after the pit. -/
def visits (pit seeds slot : Nat) : Nat :=
  ((Finset.Icc 1 seeds).filter fun seed => (pit + seed) % 13 = slot).card

theorem visits_succ (pit seeds slot : Nat) :
    visits pit (seeds + 1) slot =
      visits pit seeds slot + if (pit + (seeds + 1)) % 13 = slot then 1 else 0 := by
  simp only [visits, Finset.card_filter]
  exact Finset.sum_Icc_succ_top (Nat.succ_pos seeds) _

theorem inSlot_addSeed (board : SowingGame) (mover : Mark) {slot : Nat} (inside : slot < 13) (other : Nat) :
    (board.addSeed mover slot).inSlot mover other =
      board.inSlot mover other + if slot = other then 1 else 0 := by
  have store_slot : storeSlot = 6 := rfl
  unfold addSeed
  simp only [changeRow_eq_setRow]
  by_cases own : slot < 6
  · have added := (board.row mover).pit_addToPit own
    rw [if_pos own]
    simp only [inSlot, row_setRow_self, row_setRow_opponent, Row.store_addToPit, added]
    grind
  · by_cases store : slot = storeSlot
    · rw [if_neg own, if_pos store]
      simp only [inSlot, row_setRow_self, row_setRow_opponent, Row.pit_addStore, Row.store_addStore]
      grind
    · have added := (board.row mover.opponent).pit_addToPit (show slot - 7 < 6 by omega)
      rw [if_neg own, if_neg store]
      simp only [inSlot, row_setRow_self, row_setRow_of_opponent, added]
      grind

theorem inSlot_emptied {pit : Nat} (inside : pit < 6) (slot : Nat) :
    (board.setRow mover ((board.row mover).setPit pit 0)).inSlot mover slot =
      if slot = pit then 0 else board.inSlot mover slot := by
  have emptied := (board.row mover).pit_setPit inside 0
  simp only [inSlot, row_setRow_self, row_setRow_opponent, Row.store_setPit, emptied]
  grind

/-! ## Seeds one by one -/

/-- The last seed is dropped after all the others. -/
theorem sow_succ (mover : Mark) (seeds last : Nat) (board : SowingGame) :
    sow mover (seeds + 1) last board =
      ((sow mover seeds last board).1.addSeed mover (((sow mover seeds last board).2 + 1) % 13),
        ((sow mover seeds last board).2 + 1) % 13) := by
  induction seeds generalizing last board with
  | zero => rfl
  | succ seeds of_seeds =>
    rw [sow]
    exact of_seeds _ _

theorem sow_last (mover : Mark) (seeds : Nat) {last : Nat} (inside : last < 13) (board : SowingGame) :
    (sow mover seeds last board).2 = (last + seeds) % 13 := by
  induction seeds with
  | zero => exact (Nat.mod_eq_of_lt inside).symm
  | succ seeds of_seeds =>
    rw [sow_succ, of_seeds]
    omega

theorem inSlot_sow (mover : Mark) (seeds : Nat) {last : Nat} (inside : last < 13) (slot : Nat)
    (board : SowingGame) :
    (sow mover seeds last board).1.inSlot mover slot = board.inSlot mover slot + visits last seeds slot := by
  induction seeds with
  | zero => rfl
  | succ seeds of_seeds =>
    have next : ((last + seeds) % 13 + 1) % 13 = (last + (seeds + 1)) % 13 := by omega
    rw [sow_succ, sow_last mover seeds inside, next, inSlot_addSeed _ _ (Nat.mod_lt _ (by decide)), of_seeds,
      visits_succ, Nat.add_assoc]

/-- Whether a number of seeds of a pit, dropped one by one into the slots after it once the pit was emptied,
make the other board of the one. The other player's store is passed over. -/
structure Sown (board : SowingGame) (mover : Mark) (pit seeds : Nat) (sown : SowingGame) : Prop where
  slots : ∀ slot < 13, sown.inSlot mover slot =
    (if slot = pit then 0 else board.inSlot mover slot) + visits pit seeds slot
  passed_over : (sown.row mover.opponent).store = (board.row mover.opponent).store

theorem sown_sow {pit : Nat} (inside : pit < 6) (seeds : Nat) :
    Sown board mover pit seeds
      (sow mover seeds pit (board.setRow mover ((board.row mover).setPit pit 0))).1 where
  slots slot _ := by rw [inSlot_sow mover seeds (by omega) slot, inSlot_emptied inside]
  passed_over := by rw [store_sow_opponent, row_setRow_opponent]

/-! ## Captures -/

/-- Whether the last seed takes the seeds opposite: it is in an own pit that was empty on the board before
it, and there are some. -/
def Takes (mover : Mark) (last : Nat) (before sown : SowingGame) : Prop :=
  last < 6 ∧ before.inSlot mover last = 0 ∧ 0 < (sown.row mover.opponent).pit (5 - last)

/-- Whether the last seed and those opposite went into the mover's store. Slot `12 - last` is the pit
opposite. -/
structure Taken (mover : Mark) (last : Nat) (sown caught : SowingGame) (captured : Nat) : Prop where
  count : captured = (sown.row mover.opponent).pit (5 - last) + 1
  slots : ∀ slot < 13, caught.inSlot mover slot =
    if slot = last ∨ slot = 12 - last then 0
    else if slot = storeSlot then sown.inSlot mover slot + captured
    else sown.inSlot mover slot
  other_store : (caught.row mover.opponent).store = (sown.row mover.opponent).store

theorem capture_of_single {last : Nat} (own : last < 6) (single : (board.row mover).pit last = 1)
    (filled : 0 < (board.row mover.opponent).pit (5 - last)) :
    Taken mover last board (board.capture mover last).1 (board.capture mover last).2 := by
  have store_slot : storeSlot = 6 := rfl
  simp only [capture, own, single, filled, and_self, if_true]
  refine ⟨rfl, fun slot inside => ?_, ?_⟩
  · have emptied := (board.row mover).pit_setPit own 0
    have other_emptied := (board.row mover.opponent).pit_setPit (show 5 - last < 6 by omega) 0
    simp only [inSlot, row_setRow_self, row_setRow_of_opponent, Row.pit_addStore, Row.store_addStore,
      Row.store_setPit, emptied, other_emptied]
    grind
  · simp

/-! ## The end of the game -/

def HasEmptyRow (board : SowingGame) : Prop := ∃ mark, ∀ index < 6, (board.row mark).pit index = 0

theorem isFinished_iff : board.isFinished = true ↔ board.HasEmptyRow := by
  simp only [isFinished, Bool.or_eq_true, Row.isEmpty_iff]
  constructor
  · rintro (first | second)
    · exact ⟨.first, first⟩
    · exact ⟨.second, second⟩
  · rintro ⟨mark, empty⟩
    cases mark
    · exact .inl empty
    · exact .inr empty

/-- Whether both players took what was left in their pits. -/
structure Swept (board after : SowingGame) : Prop where
  pits : ∀ mark, ∀ index < 6, (after.row mark).pit index = 0
  stores : ∀ mark, (after.row mark).store =
    (board.row mark).store + ∑ index ∈ Finset.range 6, (board.row mark).pit index

theorem swept_settle (empty : board.HasEmptyRow) : Swept board board.settle := by
  have swept (mark : Mark) : board.settle.row mark = (board.row mark).sweep := by
    rw [settle, if_pos (isFinished_iff.mpr empty)]
    cases mark <;> rfl
  refine ⟨fun mark index _ => ?_, fun mark => ?_⟩
  · have none_left := (board.row mark).sweep.pit_le_inPits index
    rw [swept]
    simpa using none_left
  · rw [swept, Row.sweep, Row.inPits_eq_weighed]
    simp [Row.weighed]

theorem settle_eq_self (filled : ¬ board.HasEmptyRow) : board.settle = board :=
  if_neg (isFinished_iff.not.mpr filled)

/-! ## Moves -/

/-- What a move from a pit leads to. All its seeds are sown, the last of them into the slot that many slots
on; it gives another turn in the own store and may take the seeds opposite in an own pit. Once a row is
empty, both are swept. -/
def MovesTo (board : SowingGame) (pit : Nat) (mover : Mark) (after : SowingGame) (effect : Effect) : Prop :=
  ∃ before sown caught,
    Sown board mover pit ((board.row mover).pit pit - 1) before ∧
    Sown board mover pit ((board.row mover).pit pit) sown ∧
    effect.landed = (pit + (board.row mover).pit pit) % 13 ∧
    (effect.extraTurn = true ↔ effect.landed = storeSlot) ∧
    (Takes mover effect.landed before sown → Taken mover effect.landed sown caught effect.captured) ∧
    (¬ Takes mover effect.landed before sown → caught = sown ∧ effect.captured = 0) ∧
    (caught.HasEmptyRow → Swept caught after) ∧ (¬ caught.HasEmptyRow → after = caught)

/-- The capture looks for a single seed in the last pit, which is there if the pit was empty before. -/
theorem single_iff {before sown : SowingGame} {last : Nat} (own : last < 6)
    (dropped : sown = before.addSeed mover last) :
    (sown.row mover).pit last = 1 ↔ before.inSlot mover last = 0 := by
  have one_more := before.inSlot_addSeed mover (show last < 13 by omega) last
  rw [← dropped, if_pos rfl] at one_more
  have in_pit : sown.inSlot mover last = (sown.row mover).pit last := if_pos own
  omega

theorem taken_capture {before sown : SowingGame} {last : Nat} (dropped : sown = before.addSeed mover last)
    (takes : Takes mover last before sown) :
    Taken mover last sown (sown.capture mover last).1 (sown.capture mover last).2 := by
  obtain ⟨own, empty, filled⟩ := takes
  exact capture_of_single own ((single_iff own dropped).mpr empty) filled

theorem capture_eq_self {before sown : SowingGame} {last : Nat} (dropped : sown = before.addSeed mover last)
    (keeps : ¬ Takes mover last before sown) : sown.capture mover last = (sown, 0) := by
  refine if_neg ?_
  rintro ⟨own, single, filled⟩
  exact keeps ⟨own, (single_iff own dropped).mp single, filled⟩

theorem move_of_playable {position : Nat} (inside : position < 6) (unfinished : ¬ board.HasEmptyRow)
    (filled : 0 < (board.row mover).pit position) :
    ∃ after effect, board.move position mover = .ok (after, effect) ∧
      board.MovesTo position mover after effect := by
  have ongoing : board.isFinished = false := Bool.eq_false_iff.mpr (isFinished_iff.not.mpr unfinished)
  refine ⟨_, _, move_eq_ok_iff.mpr ⟨inside, ongoing, filled, rfl, rfl⟩, ?_⟩
  have landed : (board.sowFrom position mover).2 = (position + (board.row mover).pit position) % 13 :=
    sow_last mover _ (by omega) _
  -- the last seed by itself, after all the others
  have dropped : (board.sowFrom position mover).1 =
      (sow mover ((board.row mover).pit position - 1) position
        (board.setRow mover ((board.row mover).setPit position 0))).1.addSeed mover
          (board.sowFrom position mover).2 := by
    rw [sowFrom, ← Nat.sub_add_cancel filled, sow_succ, Nat.add_sub_cancel]
  refine ⟨_, _, ((board.sowFrom position mover).1.capture mover (board.sowFrom position mover).2).1,
    sown_sow inside _, sown_sow inside _, landed, beq_iff_eq, ?_, ?_, swept_settle, settle_eq_self⟩
  · exact taken_capture dropped
  · intro keeps
    exact Prod.mk.inj (capture_eq_self dropped keeps)

/-- On a board of fewer than 2^32 seeds a move from a pit that holds seeds, while the game goes on, is
accepted and does what the closed form says. A position that is no pit, an empty pit and a finished game
are refused, and the board stays as it is. No sum of a move is too large for a word. -/
theorem moves_have_closed_form (board : SowingGame) (few : board.total < 2 ^ 32) (position : Nat)
    (mover : Mark) :
    board.move? position mover = some (board.move position mover) ∧
      (position < 6 ∧ ¬ board.HasEmptyRow ∧ 0 < (board.row mover).pit position →
        ∃ after effect, board.move position mover = .ok (after, effect) ∧
          board.MovesTo position mover after effect) ∧
      (6 ≤ position ∨ board.HasEmptyRow ∨ (board.row mover).pit position = 0 →
        Rules.Refused board position mover ∧ Rules.attempt board position mover = board) := by
  refine ⟨move?_eq position mover few, ?_, fun unplayable => ?_⟩
  · rintro ⟨inside, unfinished, filled⟩
    exact move_of_playable inside unfinished filled
  · have refused : Rules.Refused board position mover := by
      refine Rules.refused_of_not_accepted ?_
      rintro ⟨after, effect⟩ accepted
      obtain ⟨inside, unfinished, filled, -⟩ := move_eq_ok_iff.mp accepted
      rw [← isFinished_iff] at unplayable
      rcases unplayable with outside | finished | empty
      · omega
      · simp [unfinished] at finished
      · omega
    exact ⟨refused, Rules.attempt_eq_self_iff.mpr refused⟩

/-- Thirteen seeds in one pit. -/
def lapped : SowingGame := ⟨⟨#v[0, 0, 0, 0, 0, 13], 0⟩, ⟨#v[1, 1, 1, 1, 1, 1], 0⟩⟩

/-- The last of them comes back to the pit and takes the two seeds opposite, one of which was sown. -/
theorem moves_have_closed_form_lapped :
    lapped.total < 2 ^ 32 ∧ ¬ lapped.HasEmptyRow ∧
      ∃ after, lapped.move 5 .first = .ok (after, ⟨5, false, 3⟩) ∧
        lapped.MovesTo 5 .first after ⟨5, false, 3⟩ ∧
        ∀ position, 6 ≤ position → Rules.attempt lapped position .first = lapped := by
  have few : lapped.total < 2 ^ 32 := by decide
  have unfinished : ¬ lapped.HasEmptyRow := isFinished_iff.not.mp (by decide +kernel)
  obtain ⟨after, effect, accepted, moves⟩ :=
    (moves_have_closed_form lapped few 5 .first).2.1 ⟨by decide, unfinished, by decide⟩
  have played : lapped.move 5 .first =
      .ok (⟨⟨#v[1, 1, 1, 1, 1, 0], 4⟩, ⟨#v[0, 2, 2, 2, 2, 2], 0⟩⟩, ⟨5, false, 3⟩) := by
    decide +kernel
  cases played.symm.trans accepted
  refine ⟨few, unfinished, _, played, moves, fun position outside => ?_⟩
  exact ((moves_have_closed_form lapped few position .first).2.2 (.inl outside)).2

end SowingGame
end Tabletop
