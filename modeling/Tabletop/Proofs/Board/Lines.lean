import Mathlib.Tactic.Ring
import Tabletop.Proofs.Board.Ending

/-!
Four in a row in the drop game. A player has won exactly if four cells in a straight line are the player's.
A run is counted from one cell on in both directions of an axis, which is right because the cells that the
two counts find lie on one line with the cell itself.
-/

namespace Tabletop

namespace Cells
variable {count : Nat} {cells : Cells count} {index : Nat}

theorem lt_of_at? {mark : Mark} (held : cells.at? index = some mark) : index < count := by
  by_contra outside
  simp [at?, Vector.getElem?_eq_none (Nat.not_lt.mp outside)] at held

theorem at?_put_self (inside : index < count) (cell : Cell) : (cells.put index cell).at? index = cell := by
  simp [put, at?, inside]

theorem at?_put_of_ne {other : Nat} (distinct : other ≠ index) (cell : Cell) :
    (cells.put index cell).at? other = cells.at? other := by
  simp [put, at?, Vector.getElem?_setIfInBounds_ne distinct.symm]

end Cells

namespace DropGame

variable {board after : DropGame} {mark mover : Mark} {row column : Int} {step : Int × Int}

/-! ## Lines -/

/-- Whether a player holds the cell of a row and a column, which has to be in the grid. -/
def Held (board : DropGame) (mark : Mark) (row column : Int) : Prop :=
  0 ≤ row ∧ row < 6 ∧ 0 ≤ column ∧ column < 7 ∧
    board.cells.at? (row.toNat * 7 + column.toNat) = some mark

/-- Whether a player holds four cells that follow one another by the same step. -/
def FourFrom (board : DropGame) (mark : Mark) (row column : Int) (step : Int × Int) : Prop :=
  ∀ k : Int, 0 ≤ k → k < 4 → board.Held mark (row + k * step.1) (column + k * step.2)

/-- A step to one of the eight cells around. -/
def IsStep (step : Int × Int) : Prop :=
  step ≠ (0, 0) ∧ -1 ≤ step.1 ∧ step.1 ≤ 1 ∧ -1 ≤ step.2 ∧ step.2 ≤ 1

/-- Whether a player holds four cells in a straight line: beside, above or diagonally from each other. -/
def HasFour (board : DropGame) (mark : Mark) : Prop :=
  ∃ row column step, IsStep step ∧ board.FourFrom mark row column step

theorem FourFrom.first (four : board.FourFrom mark row column step) : board.Held mark row column := by
  simpa using four 0 (by decide) (by decide)

/-- A line read from its other end. -/
theorem FourFrom.reversed (four : board.FourFrom mark row column step) :
    board.FourFrom mark (row + 3 * step.1) (column + 3 * step.2) (-step.1, -step.2) := by
  intro k from_0 below_4
  have held := four (3 - k) (by omega) (by omega)
  rwa [show row + 3 * step.1 + k * -step.1 = row + (3 - k) * step.1 by ring,
    show column + 3 * step.2 + k * -step.2 = column + (3 - k) * step.2 by ring]

theorem isStep_of_mem_axes (is_axis : step ∈ axes) : IsStep step := by
  simp only [axes, List.mem_cons, List.not_mem_nil, or_false] at is_axis
  rcases is_axis with rfl | rfl | rfl | rfl <;> simp [IsStep]

/-- Each of the eight steps goes along one of the four axes. -/
theorem mem_axes_of_isStep (is_step : IsStep step) : step ∈ axes ∨ (-step.1, -step.2) ∈ axes := by
  obtain ⟨down, right⟩ := step
  obtain ⟨moves, above, below, left, right_⟩ := is_step
  simp only [ne_eq, Prod.mk.injEq, axes, List.mem_cons, List.not_mem_nil, or_false] at *
  omega

theorem hasFour_iff :
    board.HasFour mark ↔ ∃ row column, ∃ axis ∈ axes, board.FourFrom mark row column axis := by
  constructor
  · rintro ⟨row, column, step, is_step, four⟩
    rcases mem_axes_of_isStep is_step with is_axis | is_axis
    · exact ⟨row, column, step, is_axis, four⟩
    · exact ⟨_, _, _, is_axis, four.reversed⟩
  · rintro ⟨row, column, axis, is_axis, four⟩
    exact ⟨row, column, axis, isStep_of_mem_axes is_axis, four⟩

/-! ## Runs -/

theorem held_iff :
    (inGrid row column && board.holds mark row.toNat column.toNat) = true ↔ board.Held mark row column := by
  simp only [inGrid, holds, Held, Bool.and_eq_true, decide_eq_true_eq, Cells.holds_iff]
  simp only [rows, columns, Nat.cast_ofNat]
  constructor
  · rintro ⟨⟨⟨⟨above, below⟩, left⟩, right⟩, -, held⟩
    exact ⟨above, below, left, right, held⟩
  · rintro ⟨above, below, left, right, held⟩
    refine ⟨⟨⟨⟨above, below⟩, left⟩, right⟩, ⟨?_, ?_⟩, held⟩
    · omega
    · omega

/-- A count reaches as far as every cell up to there is the player's. -/
theorem le_runBeyond_iff (board : DropGame) (mark : Mark) (step : Int × Int) (reach count : Nat)
    (row column : Int) :
    count ≤ board.runBeyond mark step reach row column ↔
      count ≤ reach ∧
        ∀ k : Int, 1 ≤ k → k ≤ count → board.Held mark (row + k * step.1) (column + k * step.2) := by
  induction reach generalizing count row column with
  | zero =>
    simp only [runBeyond, Nat.le_zero]
    refine ⟨?_, And.left⟩
    rintro rfl
    exact ⟨rfl, fun k from_1 to_0 => by omega⟩
  | succ reach of_reach =>
    cases count with
    | zero => exact ⟨fun _ => ⟨Nat.zero_le _, fun k from_1 to_0 => by omega⟩, fun _ => Nat.zero_le _⟩
    | succ count =>
      unfold runBeyond
      simp only
      split
      · rename_i next
        rw [Nat.add_le_add_iff_right, Nat.add_le_add_iff_right, of_reach]
        refine and_congr_right fun _ => ?_
        constructor
        · intro beyond k from_1 to_count
          by_cases is_next : k = 1
          · subst is_next
            simpa using held_iff.mp next
          · have held := beyond (k - 1) (by omega) (by omega)
            rwa [show row + step.1 + (k - 1) * step.1 = row + k * step.1 by ring,
              show column + step.2 + (k - 1) * step.2 = column + k * step.2 by ring] at held
        · intro all k from_1 to_count
          have held := all (k + 1) (by omega) (by omega)
          rwa [show row + step.1 + k * step.1 = row + (k + 1) * step.1 by ring,
            show column + step.2 + k * step.2 = column + (k + 1) * step.2 by ring]
      · rename_i stopped
        constructor
        · intro impossible
          omega
        · rintro ⟨-, all⟩
          refine absurd (held_iff.mpr ?_) stopped
          simpa using all 1 (by omega) (by omega)

/-- Four in a row through a cell begin at most three cells before it. -/
theorem four_le_runLength_iff {row column : Nat} (held : board.Held mark row column) :
    4 ≤ board.runLength row column step mark ↔
      ∃ back : Int, 0 ≤ back ∧ back < 4 ∧
        board.FourFrom mark (row - back * step.1) (column - back * step.2) step := by
  have ahead (count : Nat) := board.le_runBeyond_iff mark step 7 count row column
  have behind (count : Nat) := board.le_runBeyond_iff mark (-step.1, -step.2) 7 count row column
  unfold runLength
  constructor
  · intro long
    let back := min 3 (board.runBeyond mark (-step.1, -step.2) 7 row column)
    have before := (behind back).mp (Nat.min_le_right ..)
    have from_here := (ahead (3 - back)).mp (by omega)
    refine ⟨back, by omega, by omega, fun k from_0 below_4 => ?_⟩
    rw [show row - back * step.1 + k * step.1 = row + (k - back) * step.1 by ring,
      show column - back * step.2 + k * step.2 = column + (k - back) * step.2 by ring]
    rcases lt_trichotomy k back with earlier | here | later
    · have held := before.2 (back - k) (by omega) (by omega)
      rwa [show row + (back - k) * (-step.1) = row + (k - back) * step.1 by ring,
        show column + (back - k) * (-step.2) = column + (k - back) * step.2 by ring] at held
    · simpa [here] using held
    · exact from_here.2 (k - back) (by omega) (by omega)
  · rintro ⟨back, from_0, below_4, four⟩
    have beyond : 3 - back.toNat ≤ board.runBeyond mark step 7 row column := by
      refine (ahead _).mpr ⟨by omega, fun k from_1 to_end => ?_⟩
      have held := four (back + k) (by omega) (by omega)
      rwa [show row - back * step.1 + (back + k) * step.1 = row + k * step.1 by ring,
        show column - back * step.2 + (back + k) * step.2 = column + k * step.2 by ring] at held
    have before : back.toNat ≤ board.runBeyond mark (-step.1, -step.2) 7 row column := by
      refine (behind _).mpr ⟨by omega, fun k from_1 to_end => ?_⟩
      have held := four (back - k) (by omega) (by omega)
      rwa [show row - back * step.1 + (back - k) * step.1 = row + k * -step.1 by ring,
        show column - back * step.2 + (back - k) * step.2 = column + k * -step.2 by ring] at held
    omega

/-- Whether four cells in a straight line, one of them the given one, are a player's. -/
def FourThrough (board : DropGame) (mark : Mark) (row column : Int) : Prop :=
  ∃ axis ∈ axes, ∃ back : Int, 0 ≤ back ∧ back < 4 ∧
    board.FourFrom mark (row - back * axis.1) (column - back * axis.2) axis

theorem FourThrough.held (through : board.FourThrough mark row column) : board.Held mark row column := by
  obtain ⟨axis, -, back, from_0, below_4, four⟩ := through
  simpa using four back from_0 below_4

theorem FourThrough.hasFour (through : board.FourThrough mark row column) : board.HasFour mark := by
  obtain ⟨axis, is_axis, back, -, -, four⟩ := through
  exact ⟨_, _, axis, isStep_of_mem_axes is_axis, four⟩

theorem held_cell_iff {index : Nat} :
    board.Held mark (index / 7 : Nat) (index % 7 : Nat) ↔ board.cells.at? index = some mark := by
  simp only [Held, Int.toNat_natCast, Nat.div_add_mod']
  constructor
  · rintro ⟨-, -, -, -, held⟩
    exact held
  · intro held
    have inside : index < 42 := Cells.lt_of_at? held
    exact ⟨by omega, by omega, by omega, by omega, held⟩

theorem Held.exists_index (held : board.Held mark row column) :
    ∃ index < 42, row = (index / 7 : Nat) ∧ column = (index % 7 : Nat) := by
  obtain ⟨above, below, left, right, -⟩ := held
  exact ⟨row.toNat * 7 + column.toNat, by omega, by omega, by omega⟩

theorem winsThrough_iff {index : Nat} :
    board.winsThrough index mark = true ↔ board.FourThrough mark (index / 7 : Nat) (index % 7 : Nat) := by
  simp only [winsThrough, Bool.and_eq_true, List.any_eq_true, decide_eq_true_eq, Cells.holds_iff]
  constructor
  · rintro ⟨held, axis, is_axis, long⟩
    exact ⟨axis, is_axis, (four_le_runLength_iff (held_cell_iff.mpr held)).mp long⟩
  · intro through
    have held := through.held
    obtain ⟨axis, is_axis, four⟩ := through
    exact ⟨held_cell_iff.mp held, axis, is_axis, (four_le_runLength_iff held).mpr four⟩

theorem isWin_iff : board.isWin mark = true ↔ board.HasFour mark := by
  simp only [isWin, List.any_eq_true, List.mem_range, winsThrough_iff]
  constructor
  · rintro ⟨index, -, through⟩
    exact through.hasFour
  · intro some_four
    obtain ⟨row, column, axis, is_axis, four⟩ := hasFour_iff.mp some_four
    obtain ⟨index, inside, rfl, rfl⟩ := four.first.exists_index
    refine ⟨index, inside, axis, is_axis, 0, by decide, by decide, ?_⟩
    simpa using four

/-! ## Drops -/

/-- A piece in an empty cell is held besides what was held before. -/
theorem held_put_iff {index : Nat} (inside : index < 42) (empty : board.cells.at? index = none) :
    (board.put index (some mover)).Held mark row column ↔ board.Held mark row column ∨
      (mark = mover ∧ row = (index / 7 : Nat) ∧ column = (index % 7 : Nat)) := by
  have placed : (board.put index (some mover)).cells.at? index = some mover :=
    Cells.at?_put_self inside _
  have kept {other : Nat} (distinct : other ≠ index) :
      (board.put index (some mover)).cells.at? other = board.cells.at? other :=
    Cells.at?_put_of_ne distinct _
  constructor
  · intro held
    obtain ⟨other, -, rfl, rfl⟩ := held.exists_index
    rw [held_cell_iff] at held ⊢
    by_cases landing : other = index
    · subst landing
      rw [placed] at held
      exact .inr ⟨(Option.some.inj held).symm, rfl, rfl⟩
    · exact .inl (by rwa [kept landing] at held)
  · rintro (held | ⟨rfl, rfl, rfl⟩)
    · obtain ⟨other, -, rfl, rfl⟩ := held.exists_index
      rw [held_cell_iff] at held ⊢
      have distinct : other ≠ index := by
        rintro rfl
        rw [empty] at held
        cases held
      rwa [kept distinct]
    · exact held_cell_iff.mpr placed

theorem not_hasFour_put {index : Nat} (inside : index < 42) (empty : board.cells.at? index = none)
    (distinct : mark ≠ mover) (none_yet : ¬ board.HasFour mark) :
    ¬ (board.put index (some mover)).HasFour mark := by
  rintro ⟨row, column, step, is_step, four⟩
  refine none_yet ⟨row, column, step, is_step, fun k from_0 below_4 => ?_⟩
  rcases (held_put_iff inside empty).mp (four k from_0 below_4) with held | ⟨same, -, -⟩
  · exact held
  · exact absurd same distinct

theorem hasFour_put_iff {index : Nat} (inside : index < 42) (empty : board.cells.at? index = none)
    (none_yet : ¬ board.HasFour mark) :
    (board.put index (some mark)).HasFour mark ↔
      (board.put index (some mark)).FourThrough mark (index / 7 : Nat) (index % 7 : Nat) := by
  refine ⟨fun some_four => ?_, FourThrough.hasFour⟩
  obtain ⟨row, column, axis, is_axis, four⟩ := hasFour_iff.mp some_four
  by_contra elsewhere
  -- a line without the new piece was there before it
  refine none_yet (hasFour_iff.mpr ⟨row, column, axis, is_axis, fun k from_0 below_4 => ?_⟩)
  rcases (held_put_iff inside empty).mp (four k from_0 below_4) with held | ⟨-, same_row, same_column⟩
  · exact held
  · refine absurd ⟨axis, is_axis, k, from_0, below_4, ?_⟩ elsewhere
    rw [← same_row, ← same_column]
    simpa using four

theorem move_eq_ok_iff {position : Nat} {effect : Effect} :
    board.move position mover = .ok (after, effect) ↔
      position < 42 ∧ (∀ mark, ¬ board.HasFour mark) ∧
      ∃ row, board.landingRow (position % columns) = some row ∧
        after = board.put (row * columns + position % columns) (some mover) ∧
        effect = .placed (row * columns + position % columns) := by
  have nobody : (∀ mark, ¬ board.HasFour mark) ↔
      board.isWin .first = false ∧ board.isWin .second = false := by
    simp only [← isWin_iff, Bool.not_eq_true]
    exact ⟨fun all => ⟨all .first, all .second⟩, fun both mark => by cases mark <;> simp [both]⟩
  rw [nobody, drop_eq_ok_iff]

theorem move_of_landing {column row : Nat} (nobody : ∀ mark, ¬ board.HasFour mark)
    (lands : board.landingRow column = some row) (mover : Mark) :
    board.move column mover =
      .ok (board.put (row * columns + column) (some mover), .placed (row * columns + column)) := by
  obtain ⟨is_column, -, -⟩ := landingRow_eq_some lands
  have same : column % columns = column := Nat.mod_eq_of_lt is_column
  have inside : column < 42 := Nat.lt_trans is_column (by decide)
  exact move_eq_ok_iff.mpr ⟨inside, nobody, row, by rwa [same], by rw [same], by rw [same]⟩

/-- A drop puts a piece into an empty cell. -/
theorem eq_put_of_move {position : Nat} {effect : Effect}
    (accepted : board.move position mover = .ok (after, effect)) :
    effect.landed < 42 ∧ board.cells.at? effect.landed = none ∧
      after = board.put effect.landed (some mover) := by
  obtain ⟨_, _, low, lands, rfl, rfl⟩ := move_eq_ok_iff.mp accepted
  exact ⟨landing_lt lands, (landingRow_eq_some lands).2.2, rfl⟩

theorem not_hasFour_of_move {position : Nat} {played : DropGame × Effect}
    (accepted : board.move position mover = .ok played) (mark : Mark) : ¬ board.HasFour mark :=
  (move_eq_ok_iff.mp accepted).2.1 mark

theorem not_hasFour_opponent {position : Nat} {effect : Effect}
    (accepted : board.move position mover = .ok (after, effect)) : ¬ after.HasFour mover.opponent := by
  obtain ⟨inside, empty, rfl⟩ := eq_put_of_move accepted
  exact not_hasFour_put inside empty mover.opponent_ne (not_hasFour_of_move accepted _)

theorem hasFour_drop_iff {position : Nat} {effect : Effect}
    (accepted : board.move position mover = .ok (after, effect)) :
    after.HasFour mover ↔ after.FourThrough mover (effect.landed / 7 : Nat) (effect.landed % 7 : Nat) := by
  obtain ⟨inside, empty, rfl⟩ := eq_put_of_move accepted
  exact hasFour_put_iff inside empty (not_hasFour_of_move accepted _)

/-- A player has won the drop game exactly if four cells in a straight line are the player's. A drop is
accepted only where nobody has four in a row yet. It gives none to the other player, and gives four in a row
to its mover exactly if they go through the cell where the piece lands. -/
theorem wins_are_lines (board : DropGame) :
    (∀ mark, board.isWin mark = true ↔ board.HasFour mark) ∧
      ∀ position mover after effect, board.move position mover = .ok (after, effect) →
        (∀ mark, ¬ board.HasFour mark) ∧ ¬ after.HasFour mover.opponent ∧
        (after.isWin mover = true ↔ after.winsThrough effect.landed mover = true) ∧
        ∀ mark, after.isWin mark = true → mark = mover := by
  refine ⟨fun mark => isWin_iff, fun position mover after effect accepted => ?_⟩
  have other_none := not_hasFour_opponent accepted
  refine ⟨not_hasFour_of_move accepted, other_none, ?_, fun mark won => ?_⟩
  · rw [isWin_iff, winsThrough_iff]
    exact hasFour_drop_iff accepted
  · rcases mark.eq_or_eq_opponent mover with same | other
    · exact same
    · rw [other] at won
      exact absurd (isWin_iff.mp won) other_none

/-- Three pieces of the first player in the bottom row, with a gap. -/
def gapped : DropGame :=
  ((opening.put 35 (some .first)).put 36 (some .first)).put 38 (some .first)

/-- The piece that fills the gap makes a run that is met in its middle. -/
theorem wins_are_lines_gapped :
    ∃ after, gapped.move 2 .first = .ok (after, .placed 37) ∧ after.HasFour .first ∧
      after.winsThrough 37 .first = true ∧ ¬ after.HasFour .second := by
  have accepted : gapped.move 2 .first = .ok (gapped.put 37 (some .first), .placed 37) := by
    decide +kernel
  obtain ⟨-, other_none, wins, -⟩ := (wins_are_lines gapped).2 _ _ _ _ accepted
  have through : (gapped.put 37 (some .first)).winsThrough 37 .first = true := by decide +kernel
  have won := wins.mpr through
  exact ⟨_, accepted, ((wins_are_lines _).1 .first).mp won, through, other_none⟩

end DropGame
end Tabletop
