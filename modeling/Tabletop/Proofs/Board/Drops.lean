import Mathlib.Data.List.Induction
import Tabletop.Board.DropGame.Score
import Tabletop.Proofs.Board.Choice
import Tabletop.Proofs.Board.Lines

/-!
Boards of the drop game that come from drops. A piece never hangs above an empty cell, every piece counts
for the player who dropped it, and only the last drop can have made four in a row. That is why the value of
a column may put two pieces into their cells without playing them: the other player's reply would land in
the cell above, and would win exactly if that cell is then part of four in a row.
-/

namespace Tabletop

namespace DropGame

variable {board after : DropGame} {mark mover : Mark} {row column position : Nat} {effect : Effect}

/-! ## Pieces on top of one another -/

/-- Whether no cell below a piece is empty. -/
def Stacked (board : DropGame) : Prop :=
  ∀ column row lower, row < lower → lower < rows → board.cell row column ≠ none →
    board.cell lower column ≠ none

theorem cell_eq_at? (inside : row < rows) (is_column : column < columns) :
    board.cell row column = board.cells.at? (row * columns + column) :=
  if_pos ⟨inside, is_column⟩

/-- The rows from the bottom up. -/
theorem mem_rows {n : Nat} : n ∈ [5, 4, 3, 2, 1, 0] ↔ n < rows := by
  simp only [List.mem_cons, List.not_mem_nil, or_false, rows]
  omega

theorem filled_below_landing (lands : board.landingRow column = some row) :
    ∀ lower, row < lower → lower < rows → board.cell lower column ≠ none := by
  intro lower below inside
  unfold landingRow at lands
  split at lands
  · obtain ⟨-, before, rest, split_, filled⟩ := List.find?_eq_some_iff_append.mp lands
    have sorted : (before ++ row :: rest).Pairwise (· > ·) := by
      rw [← split_]
      decide
    have among : lower ∈ before ++ row :: rest := by
      rw [← split_]
      exact mem_rows.mpr inside
    -- what comes after the landing row in the search lies above it
    rcases List.mem_append.mp among with earlier | later
    · simpa [Option.isSome_iff_ne_none] using filled lower earlier
    · rcases List.mem_cons.mp later with same | above
      · omega
      · have higher := List.rel_of_pairwise_cons (List.pairwise_append.mp sorted).2.1 above
        omega
  · cases lands

theorem landingRow_eq_some_iff :
    board.landingRow column = some row ↔ column < columns ∧ row < rows ∧ board.cell row column = none ∧
      ∀ lower, row < lower → lower < rows → board.cell lower column ≠ none := by
  constructor
  · intro lands
    obtain ⟨is_column, inside, empty⟩ := landingRow_eq_some lands
    rw [← cell_eq_at? inside is_column] at empty
    exact ⟨is_column, inside, empty, filled_below_landing lands⟩
  · rintro ⟨is_column, inside, empty, filled⟩
    cases lands : board.landingRow column with
    | none =>
      rw [landingRow, if_pos is_column, List.find?_eq_none] at lands
      simpa [empty] using lands row (mem_rows.mpr inside)
    | some found =>
      obtain ⟨-, found_inside, found_empty⟩ := landingRow_eq_some lands
      rw [← cell_eq_at? found_inside is_column] at found_empty
      rcases Nat.lt_trichotomy found row with above | same | below
      · exact absurd empty (filled_below_landing lands row above inside)
      · rw [same]
      · exact absurd found_empty (filled found below found_inside)

theorem landingRow_eq_none
    (filled : ∀ row < rows, board.cell row column ≠ none) : board.landingRow column = none := by
  rw [Option.eq_none_iff_forall_ne_some]
  intro row lands
  obtain ⟨-, inside, empty, -⟩ := landingRow_eq_some_iff.mp lands
  exact filled row inside empty

theorem cell_put (board : DropGame) {landing : Nat} (inside : landing < rows) (is_column : column < columns)
    (cell : Cell) (row other : Nat) :
    (board.put (landing * columns + column) cell).cell row other =
      if row = landing ∧ other = column then cell else board.cell row other := by
  by_cases in_grid : row < rows ∧ other < columns
  · rw [cell_eq_at? in_grid.1 in_grid.2, cell_eq_at? in_grid.1 in_grid.2]
    simp only [columns, rows] at *
    split
    · rename_i same
      rw [same.1, same.2]
      exact Cells.at?_put_self (by omega) cell
    · rename_i distinct
      exact Cells.at?_put_of_ne (by omega) cell
  · have elsewhere : ¬ (row = landing ∧ other = column) := by
      rintro ⟨rfl, rfl⟩
      exact in_grid ⟨inside, is_column⟩
    rw [if_neg elsewhere, DropGame.cell, if_neg in_grid, DropGame.cell, if_neg in_grid]

theorem Stacked.put (stacked : board.Stacked) (lands : board.landingRow column = some row) (mark : Mark) :
    (board.put (row * columns + column) (some mark)).Stacked := by
  obtain ⟨is_column, inside, empty, filled⟩ := landingRow_eq_some_iff.mp lands
  intro other above lower below low held
  rw [cell_put board inside is_column] at held ⊢
  split
  · exact nofun
  · rename_i not_landing
    split at held
    · rename_i landing
      rw [landing.2]
      exact filled lower (by omega) low
    · exact stacked other above lower below low held

/-- The next piece of a column lands on the last one, if there is room. -/
theorem landingRow_put (stacked : board.Stacked) (lands : board.landingRow column = some row) (mark : Mark) :
    (board.put (row * columns + column) (some mark)).landingRow column =
      if row = 0 then none else some (row - 1) := by
  obtain ⟨is_column, inside, empty, filled⟩ := landingRow_eq_some_iff.mp lands
  have cell (other : Nat) := cell_put board inside is_column (some mark) other column
  simp only [and_true] at cell
  split
  · refine landingRow_eq_none fun other low => ?_
    rw [cell]
    split
    · exact nofun
    · exact filled other (by omega) low
  · refine landingRow_eq_some_iff.mpr ⟨is_column, by omega, ?_, fun lower below low => ?_⟩
    · rw [cell, if_neg (by omega)]
      by_contra held
      exact stacked column (row - 1) row (by omega) inside held empty
    · rw [cell]
      split
      · exact nofun
      · exact filled lower (by omega) low

/-! ## One drop after another -/

theorem ofDrops_concat_eq_ok_iff {drops : List (Nat × Mark)} :
    ofDrops (drops ++ [(position, mark)]) = .ok after ↔
      ∃ before effect, ofDrops drops = .ok before ∧ before.move position mark = .ok (after, effect) := by
  have last : ofDrops (drops ++ [(position, mark)]) =
      (ofDrops drops).bind fun before => (before.move position mark).map (·.1) := by
    simp only [ofDrops, List.foldlM_append, List.foldlM_cons, List.foldlM_nil, bind_pure]
    rfl
  rw [last]
  cases ofDrops drops with
  | error reason => simp [Except.bind]
  | ok before =>
    cases accepted : before.move position mark with
    | error reason => simp [Except.bind, Except.map, accepted]
    | ok played => simp [Except.bind, Except.map, accepted, Prod.ext_iff, eq_comm]

/-- What holds of the empty grid and is kept by every drop holds after all drops. -/
theorem ofDrops_preserves (Good : List (Nat × Mark) → DropGame → Prop) (start : Good [] opening)
    (drop : ∀ {drops before position mark after effect}, Good drops before →
      before.move position mark = .ok (after, effect) → Good (drops ++ [(position, mark)]) after)
    {drops : List (Nat × Mark)} (played : ofDrops drops = .ok board) : Good drops board := by
  induction drops using List.reverseRecOn generalizing board with
  | nil =>
    cases played
    exact start
  | append_singleton drops last of_drops =>
    obtain ⟨before, effect, earlier, accepted⟩ := ofDrops_concat_eq_ok_iff.mp played
    exact drop (of_drops earlier) accepted

theorem at?_opening (index : Nat) : opening.cells.at? index = none := by
  by_cases inside : index < 42 <;> simp [opening, Cells.at?, inside]

theorem stacked_of_ofDrops {drops : List (Nat × Mark)} (played : ofDrops drops = .ok board) :
    board.Stacked := by
  refine ofDrops_preserves (fun _ board => board.Stacked) ?_ ?_ played
  · intro column row lower below low held
    refine absurd ?_ held
    simp [cell, at?_opening]
  · intro drops before position mark after effect stacked accepted
    obtain ⟨_, _, row, lands, rfl, _⟩ := move_eq_ok_iff.mp accepted
    exact stacked.put lands mark

/-- There are as many pieces of a kind as drops of that kind. -/
theorem countP_of_ofDrops {drops : List (Nat × Mark)} (played : ofDrops drops = .ok board)
    {counted : Cell → Bool} (not_empty : counted none = false) :
    board.cells.toList.countP counted = drops.countP fun drop => counted (some drop.2) := by
  refine ofDrops_preserves
    (fun drops board => board.cells.toList.countP counted =
      drops.countP fun drop => counted (some drop.2)) ?_ ?_ played
  · simp [opening, not_empty]
  · intro drops before position mark after effect same accepted
    obtain ⟨_, _, row, lands, rfl, _⟩ := move_eq_ok_iff.mp accepted
    obtain ⟨-, -, empty⟩ := landingRow_eq_some lands
    have placed := Cells.countP_put (landing_lt lands) empty mark counted
    rw [not_empty] at placed
    rw [List.countP_append, List.countP_singleton, ← same]
    exact placed

/-! ## What ends the game -/

/-- Whether the last drop has made four in a row on a board on which there were none. -/
def CompletedByLast (drops : List (Nat × Mark)) (board : DropGame) (mark : Mark) : Prop :=
  ∃ earlier position before effect, drops = earlier ++ [(position, mark)] ∧ ofDrops earlier = .ok before ∧
    (∀ other, ¬ before.HasFour other) ∧ before.move position mark = .ok (board, effect) ∧
    board.FourThrough mark (effect.landed / 7 : Nat) (effect.landed % 7 : Nat)

theorem not_hasFour_opening : ¬ opening.HasFour mark := by
  rintro ⟨row, column, step, -, four⟩
  obtain ⟨index, -, rfl, rfl⟩ := four.first.exists_index
  have held := held_cell_iff.mp four.first
  rw [at?_opening] at held
  cases held

theorem completedByLast_of_hasFour {drops : List (Nat × Mark)} (played : ofDrops drops = .ok board)
    (some_four : board.HasFour mark) : CompletedByLast drops board mark := by
  rcases List.eq_nil_or_concat drops with rfl | ⟨earlier, ⟨position, last⟩, rfl⟩
  · cases played
    exact absurd some_four not_hasFour_opening
  · rw [List.concat_eq_append] at *
    obtain ⟨before, effect, before_played, accepted⟩ := ofDrops_concat_eq_ok_iff.mp played
    obtain rfl : mark = last := by
      rcases mark.eq_or_eq_opponent last with same | other
      · exact same
      · rw [other] at some_four
        exact absurd some_four (not_hasFour_opponent accepted)
    exact ⟨earlier, position, before, effect, rfl, before_played, not_hasFour_of_move accepted, accepted,
      (hasFour_drop_iff accepted).mp some_four⟩

theorem CompletedByLast.not_opponent {drops : List (Nat × Mark)}
    (completed : CompletedByLast drops board mark) : ¬ board.HasFour mark.opponent := by
  obtain ⟨_, _, _, _, _, _, _, accepted, _⟩ := completed
  exact not_hasFour_opponent accepted

/-! ## Replies -/

/-- Whether a player may drop into a column and has four in a row then. -/
def WinsBy (board : DropGame) (column : Nat) (mover : Mark) : Prop :=
  ∃ after effect, board.move column mover = .ok (after, effect) ∧ after.HasFour mover

/-- Whether a player's piece on top of the one in a cell makes four in a row of the player's. -/
def WinsOnTop (board : DropGame) (row column : Nat) (mark : Mark) : Prop :=
  0 < row ∧ (board.put ((row - 1) * columns + column) (some mark)).HasFour mark

/-- The value of a column whatever the reply. -/
def scoreAlone (board : DropGame) (row column : Nat) (mover : Mark) : Int :=
  (4 - ((column : Int) - 3).natAbs) * 2 + board.connectionScore row column mover * 3

theorem not_hasFour_iff :
    (∀ mark, ¬ board.HasFour mark) ↔ board.isWin .first = false ∧ board.isWin .second = false := by
  simp only [← isWin_iff, Bool.not_eq_true]
  exact ⟨fun all => ⟨all .first, all .second⟩, fun both mark => by cases mark <;> simp [both]⟩

theorem not_hasFour_of_not_isOver (ongoing : isOver board = false) (mark : Mark) : ¬ board.HasFour mark := by
  obtain ⟨first, second, -⟩ := outcome_eq_ongoing_iff.mp (isOver_eq_false_iff.mp ongoing)
  exact not_hasFour_iff.mpr ⟨first, second⟩ mark

theorem allowsWinningReply_iff (stacked : board.Stacked) (lands : board.landingRow column = some row)
    (none_yet : ¬ (board.put (row * columns + column) (some mover)).HasFour mover.opponent) :
    board.allowsWinningReply row column mover = true ↔
      (board.put (row * columns + column) (some mover)).WinsOnTop row column mover.opponent := by
  simp only [allowsWinningReply, WinsOnTop, Bool.and_eq_true, decide_eq_true_eq]
  refine and_congr_right fun filled => ?_
  have next := landingRow_put stacked lands mover
  rw [if_neg (Nat.ne_of_gt filled)] at next
  obtain ⟨-, -, empty⟩ := landingRow_eq_some next
  exact winsThrough_iff.trans (hasFour_put_iff (landing_lt next) empty none_yet).symm

/-- The cell on top of the last piece is where a reply in the same column lands. -/
theorem winsOnTop_iff (stacked : board.Stacked) (lands : board.landingRow column = some row)
    (goes_on : ∀ mark, ¬ (board.put (row * columns + column) (some mover)).HasFour mark) :
    (board.put (row * columns + column) (some mover)).WinsOnTop row column mark ↔
      (board.put (row * columns + column) (some mover)).WinsBy column mark := by
  have next := landingRow_put stacked lands mover
  by_cases top : row = 0
  · -- the column is full after the drop, so there is no reply
    rw [if_pos top] at next
    refine iff_of_false (fun above => Nat.ne_of_gt above.1 top) ?_
    rintro ⟨after, effect, accepted, -⟩
    obtain ⟨_, _, _, replies, _⟩ := move_eq_ok_iff.mp accepted
    obtain ⟨is_column, -, -⟩ := landingRow_eq_some lands
    rw [Nat.mod_eq_of_lt is_column, next] at replies
    cases replies
  · rw [if_neg top] at next
    have accepted := move_of_landing goes_on next mark
    constructor
    · rintro ⟨-, won⟩
      exact ⟨_, _, accepted, won⟩
    · rintro ⟨after, effect, played, won⟩
      cases accepted.symm.trans played
      exact ⟨Nat.pos_of_ne_zero top, won⟩

theorem isSome_columnScore_iff (ongoing : isOver board = false) :
    (board.columnScore column mover).isSome = true ↔ column ∈ board.legal mover := by
  obtain ⟨first, second⟩ := not_hasFour_iff.mp (not_hasFour_of_not_isOver ongoing)
  rw [mem_legal_iff, columnScore, Option.isSome_map]
  refine ⟨fun room => ⟨first, second, ?_, room⟩, fun legal => legal.2.2.2⟩
  obtain ⟨row, lands⟩ := Option.isSome_iff_exists.mp room
  exact (landingRow_eq_some lands).1

theorem columnScore_eq (lands : board.landingRow column = some row) :
    board.columnScore column mover = some (board.scoreAlone row column mover +
      if board.allowsWinningReply row column mover then replyLossPenalty else 0) := by
  simp only [columnScore, lands, Option.map_some, scoreAlone]
  congr 1
  ring

/-- Whether a value of a column counts the reply against it exactly if the other player's piece on top of the
mover's makes four in a row: unless the mover's drop ends the game, exactly if the other player, dropping into
the same column after the mover, has four in a row. -/
def WeighsReply (board : DropGame) (column : Nat) (mover : Mark) (score : Int) : Prop :=
  ∃ row after, board.move column mover = .ok (after, .placed (row * columns + column)) ∧
    (score = board.scoreAlone row column mover ∨
      score = board.scoreAlone row column mover + replyLossPenalty) ∧
    (score = board.scoreAlone row column mover + replyLossPenalty ↔
      after.WinsOnTop row column mover.opponent) ∧
    (isOver after = false →
      (score = board.scoreAlone row column mover + replyLossPenalty ↔ after.WinsBy column mover.opponent))

theorem weighsReply_of_columnScore (stacked : board.Stacked) (ongoing : isOver board = false) {score : Int}
    (scored : board.columnScore column mover = some score) : board.WeighsReply column mover score := by
  have legal := (isSome_columnScore_iff ongoing).mp (by rw [scored]; rfl)
  obtain ⟨-, -, -, room⟩ := mem_legal_iff.mp legal
  obtain ⟨row, lands⟩ := Option.isSome_iff_exists.mp room
  have accepted := move_of_landing (not_hasFour_of_not_isOver ongoing) lands mover
  have reply := allowsWinningReply_iff stacked lands (not_hasFour_opponent accepted)
  rw [columnScore_eq lands, Option.some.injEq] at scored
  have counted : score = board.scoreAlone row column mover + replyLossPenalty ↔
      board.allowsWinningReply row column mover = true := by
    rw [← scored]
    split
    · rename_i wins
      exact iff_of_true rfl wins
    · rename_i quiet
      refine iff_of_false ?_ quiet
      simp [replyLossPenalty]
  refine ⟨row, _, accepted, ?_, counted.trans reply, fun goes_on => ?_⟩
  · rw [← scored]
    split
    · exact .inr rfl
    · exact .inl (Int.add_zero _)
  · exact (counted.trans reply).trans (winsOnTop_iff stacked lands (not_hasFour_of_not_isOver goes_on))

/-- On a board that comes from accepted drops, whoever's turn each was, no piece hangs above an empty cell,
there are as many pieces as drops and as many of each player as the player's drops, and at most one player
has four in a row, which only the last drop can have made. While the game goes on, the columns that have a
value are the legal ones, and a value counts the reply that wins in the same column against it. -/
theorem drops_stack_up (drops : List (Nat × Mark)) (board : DropGame) (played : ofDrops drops = .ok board) :
    board.Stacked ∧
      board.cells.toList.countP Option.isSome = drops.length ∧
      (∀ mark, board.cells.toList.count (some mark) = (drops.map Prod.snd).count mark) ∧
      (∀ mark, board.HasFour mark → ¬ board.HasFour mark.opponent ∧ CompletedByLast drops board mark) ∧
      (isOver board = false → ∀ column mover,
        ((board.columnScore column mover).isSome = true ↔ column ∈ board.legal mover) ∧
        ∀ score, board.columnScore column mover = some score → board.WeighsReply column mover score) := by
  have stacked := stacked_of_ofDrops played
  refine ⟨stacked, ?_, fun mark => ?_, fun mark some_four => ?_, fun ongoing column mover => ⟨?_, ?_⟩⟩
  · rw [countP_of_ofDrops played rfl]
    simp
  · rw [List.count, countP_of_ofDrops played rfl, List.count, List.countP_map]
    rfl
  · have completed := completedByLast_of_hasFour played some_four
    exact ⟨completed.not_opponent, completed⟩
  · exact isSome_columnScore_iff ongoing
  · exact fun score => weighsReply_of_columnScore stacked ongoing

/-- The second player's row above the bottom waits for its fourth column. -/
def waiting : DropGame :=
  (((((opening.put 35 (some .first)).put 36 (some .second)).put 37 (some .first)).put 28
    (some .second)).put 29 (some .second)).put 30 (some .second)

/-- The first player's piece in that column would carry the second player's fourth. -/
theorem drops_stack_up_waiting :
    ofDrops [(0, .first), (1, .second), (2, .first), (0, .second), (1, .second), (2, .second)] =
        .ok waiting ∧
      waiting.cells.toList.countP Option.isSome = 6 ∧ isOver waiting = false ∧
      waiting.columnScore 3 .first = some (-39) ∧ waiting.WeighsReply 3 .first (-39) := by
  have played : ofDrops [(0, .first), (1, .second), (2, .first), (0, .second), (1, .second),
      (2, .second)] = .ok waiting := by decide +kernel
  have ongoing : isOver waiting = false := by decide +kernel
  have scored : waiting.columnScore 3 .first = some (-39) := by decide +kernel
  obtain ⟨-, filled, -, -, weighs⟩ := drops_stack_up _ waiting played
  exact ⟨played, filled, ongoing, scored, (weighs ongoing 3 .first).2 (-39) scored⟩

end DropGame
end Tabletop
