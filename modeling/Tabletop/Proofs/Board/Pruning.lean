import Mathlib
import Tabletop.Proofs.Board.Choice
import Tabletop.Proofs.Board.Seeds

/-!
The search of the sowing game leaves out only what cannot matter. A search in a window gives the value of a
board if it lies within the window, and else a bound on the side where it lies; the window is turned over
only where the turn passes, which keeps both halves of this. No value is as large as the open window, so
the pit that is chosen is the one that a search of all lines of play would choose.
-/

namespace Tabletop

/-! ## The first of the highest -/

section
variable {value : Nat → Option Int} {worth : Nat → Int}

theorem bestOf_eq_foldl {best : Option (Int × Nat)} {positions : List Nat}
    (valued : ∀ position ∈ positions, value position = some (worth position))
    (best_valued : ∀ found ∈ best, found.1 = worth found.2) :
    (bestOf value best positions).map (·.2) =
      positions.foldl (List.argAux fun later earlier => worth earlier < worth later) (best.map (·.2)) := by
  induction positions generalizing best with
  | nil => rfl
  | cons position rest of_rest =>
    have here := valued position List.mem_cons_self
    have others : ∀ other ∈ rest, value other = some (worth other) :=
      fun other member => valued other (List.mem_cons_of_mem _ member)
    simp only [bestOf, here, List.foldl_cons]
    cases best with
    | none => exact of_rest others (by simp)
    | some found =>
      have same : found.1 = worth found.2 := best_valued found rfl
      by_cases higher : found.1 < worth position
      · simp only [higher, decide_true, if_true]
        rw [of_rest others (by simp)]
        simp [List.argAux, ← same, higher]
      · simp only [higher, decide_false, Bool.false_eq_true, if_false]
        rw [of_rest others best_valued]
        simp [List.argAux, ← same, higher]

theorem bestOf_eq_argmax {positions : List Nat}
    (valued : ∀ position ∈ positions, value position = some (worth position)) :
    (bestOf value none positions).map (·.2) = positions.argmax worth :=
  bestOf_eq_foldl valued (by simp)

/-- Of the highest the one that comes first. -/
theorem argmax_eq_find? (worth : Nat → Int) (positions : List Nat) :
    positions.argmax worth =
      positions.find? fun position => ∀ other ∈ positions, worth other ≤ worth position := by
  cases chosen : positions.argmax worth with
  | none => simp [List.argmax_eq_none.mp chosen]
  | some best =>
    obtain ⟨member, highest, first⟩ := List.argmax_eq_some_iff.mp chosen
    symm
    rw [List.find?_eq_some_iff_append]
    obtain ⟨before, rest, split_, new⟩ := List.eq_append_cons_of_mem member
    refine ⟨by simpa using highest, before, rest, split_, fun earlier is_earlier => ?_⟩
    simp only [Bool.not_eq_eq_eq_not, Bool.not_true, decide_eq_false_iff_not]
    intro as_high
    have later := first earlier (by simp [split_, is_earlier]) (as_high best member)
    rw [split_, List.idxOf_append_of_mem is_earlier, List.idxOf_append_of_notMem new,
      List.idxOf_cons_self] at later
    have inside := List.idxOf_lt_length_of_mem is_earlier
    omega

end

/-! ## Windows -/

/-- What the answer of a search within a window tells about the exact value: unless it is the upper end or
beyond, the value is no higher, and unless it is the lower end or beyond, the value is no lower. -/
structure Within (alpha beta found exact : Int) : Prop where
  above : found < beta → exact ≤ found
  below : alpha < found → found ≤ exact

namespace Within
variable {alpha beta found exact : Int}

theorem refl (alpha beta value : Int) : Within alpha beta value value :=
  ⟨fun _ => Int.le_refl _, fun _ => Int.le_refl _⟩

/-- Seen by the other player the window is turned over. -/
theorem neg (within : Within (-beta) (-alpha) found exact) : Within alpha beta (-found) (-exact) where
  above below_beta := by
    have bound := within.below (by omega)
    omega
  below above_alpha := by
    have bound := within.above (by omega)
    omega

/-- A window that holds the value finds it. -/
theorem eq_of_open (within : Within alpha beta found exact) (low : alpha < exact) (high : exact < beta) :
    found = exact := by
  by_cases above_alpha : alpha < found
  · have not_over := within.below above_alpha
    have not_under := within.above (by omega)
    omega
  · have not_under := within.above (by omega)
    omega

end Within

namespace SowingGame

/-! ## The value of a board -/

/-- How many seeds more than the other player's store a player's store holds. -/
def storeLead (board : SowingGame) (mark : Mark) : Int :=
  (board.row mark).store - (board.row mark.opponent).store

/-- What a pit is worth to its mover, by the value of a board to the player to move. On another turn in a
game that goes on the mover stays the same. -/
def pitWorth (board : SowingGame) (value : SowingGame → Mark → Int) (mover : Mark) (pit : Nat) : Int :=
  match board.move pit mover with
  | .error _ => 0
  | .ok (after, effect) =>
    if effect.extraTurn = true ∧ after.isFinished = false then value after mover
    else -value after mover.opponent

/-- The value of a board to the player to move, by all lines of play of so many moves. -/
def plainValue : (movesLeft : Nat) → SowingGame → (mover : Mark) → Int
  | movesLeft, board, mover =>
    if board.isFinished then (board.storeLead mover).sign * 1000 + board.storeLead mover
    else match movesLeft with
      | 0 => board.storeLead mover
      | left + 1 => (((board.legal mover).map (board.pitWorth (plainValue left) mover)).max?).getD 0

variable {board after : SowingGame} {mover : Mark} {pit : Nat} {effect : Effect}

theorem pitWorth_of_move {value : SowingGame → Mark → Int}
    (accepted : board.move pit mover = .ok (after, effect)) :
    board.pitWorth value mover pit =
      if passesTurn after effect then -value after mover.opponent else value after mover := by
  simp only [pitWorth, accepted, passesTurn]
  by_cases extra : effect.extraTurn <;> by_cases finished : after.isFinished <;> simp [extra, finished]

theorem plainValue_of_finished (finished : board.isFinished = true) (movesLeft : Nat) (mover : Mark) :
    plainValue movesLeft board mover = (board.storeLead mover).sign * 1000 + board.storeLead mover := by
  unfold plainValue
  rw [if_pos finished]

theorem plainValue_zero (unfinished : board.isFinished = false) (mover : Mark) :
    plainValue 0 board mover = board.storeLead mover := by
  rw [plainValue, if_neg (by simp [unfinished])]

/-- The value of a board is that of its best pit. -/
theorem plainValue_succ (unfinished : board.isFinished = false) (left : Nat) (mover : Mark) :
    (∃ pit ∈ board.legal mover,
        plainValue (left + 1) board mover = board.pitWorth (plainValue left) mover pit) ∧
      ∀ pit ∈ board.legal mover,
        board.pitWorth (plainValue left) mover pit ≤ plainValue (left + 1) board mover := by
  have value : plainValue (left + 1) board mover =
      (((board.legal mover).map (board.pitWorth (plainValue left) mover)).max?).getD 0 := by
    rw [plainValue, if_neg (by simp [unfinished])]
  rw [value]
  cases highest : ((board.legal mover).map (board.pitWorth (plainValue left) mover)).max? with
  | none =>
    have empty := List.max?_eq_none_iff.mp highest
    exact absurd (List.map_eq_nil_iff.mp empty) (legal_ne_nil_of_unfinished unfinished mover)
  | some best =>
    obtain ⟨member, bound⟩ := List.max?_eq_some_iff.mp highest
    obtain ⟨pit, legal, worth⟩ := List.mem_map.mp member
    exact ⟨⟨pit, legal, worth.symm⟩, fun pit legal => bound _ (List.mem_map_of_mem legal)⟩

/-! ## Bounds -/

theorem storeLead_bound (board : SowingGame) (mark : Mark) :
    -(board.total : Int) ≤ board.storeLead mark ∧ board.storeLead mark ≤ board.total := by
  have together := board.total_eq mark
  simp only [Row.total] at together
  unfold storeLead
  omega

theorem lead_eq_storeLead (few : board.total ≤ 900000) (mark : Mark) :
    board.lead mark = board.storeLead mark := by
  have bound := board.storeLead_bound mark
  rw [lead_eq_bmod, ← storeLead]
  refine Int.bmod_eq_of_le_mul_two ?_ ?_
  · simp only [Nat.pow_eq]
    omega
  · simp only [Nat.pow_eq]
    omega

theorem finalValue_bound (finished : board.isFinished = true) (few : board.total ≤ 900000) (movesLeft : Nat) :
    -valueBound < plainValue movesLeft board mover ∧ plainValue movesLeft board mover < valueBound := by
  have lead := board.storeLead_bound mover
  have sign := Int.sign_trichotomy (board.storeLead mover)
  rw [plainValue_of_finished finished]
  simp only [valueBound]
  omega

theorem pitWorth_bound {value : SowingGame → Mark → Int} {bound : Int} (few : board.total ≤ 900000)
    (values : ∀ {board : SowingGame} (mover : Mark), board.total ≤ 900000 →
      -bound < value board mover ∧ value board mover < bound)
    (legal : pit ∈ board.legal mover) :
    -bound < board.pitWorth value mover pit ∧ board.pitWorth value mover pit < bound := by
  obtain ⟨⟨after, effect⟩, accepted⟩ := move_eq_ok legal
  have still_few : after.total ≤ 900000 := by rwa [(total_move accepted).1]
  have same := values mover still_few
  have other := values mover.opponent still_few
  rw [pitWorth_of_move accepted]
  split
  · omega
  · exact same

/-- A finished game counts a thousand besides the lead, which is no more than all seeds. -/
theorem plainValue_bound (movesLeft : Nat) {board : SowingGame} (mover : Mark) (few : board.total ≤ 900000) :
    -valueBound < plainValue movesLeft board mover ∧ plainValue movesLeft board mover < valueBound := by
  induction movesLeft generalizing board mover with
  | zero =>
    have lead := board.storeLead_bound mover
    by_cases finished : board.isFinished = true
    · exact finalValue_bound finished few 0
    · rw [plainValue_zero (by simpa using finished)]
      simp only [valueBound]
      omega
  | succ left of_left =>
    by_cases finished : board.isFinished = true
    · exact finalValue_bound finished few (left + 1)
    · obtain ⟨⟨pit, legal, worth⟩, -⟩ := plainValue_succ (by simpa using finished) left mover
      rw [worth]
      exact pitWorth_bound few of_left legal

/-! ## The search -/

/-- If the answers for the boards after the pits keep to their windows, the highest of them does: no pit is
worth more than it unless it is the upper end or beyond, and unless it is the lower end or beyond, some pit is
worth as much. -/
theorem pruned_within {value : SowingGame → Mark → Int → Int → Int} {exact : SowingGame → Mark → Int}
    {beta : Int} (reply : ∀ {pit after effect alpha}, board.move pit mover = .ok (after, effect) →
      -valueBound ≤ alpha → alpha < beta →
        Within alpha beta
          (if passesTurn after effect then -value after mover.opponent (-beta) (-alpha)
            else value after mover alpha beta) (board.pitWorth exact mover pit))
    {pits : List Nat} (playable : ∀ pit ∈ pits, ∃ played, board.move pit mover = .ok played)
    {best alpha : Int} (low : -valueBound ≤ alpha) (behind : best ≤ alpha) (window : alpha < beta) :
    best ≤ pruned value board mover beta best alpha pits ∧
      (pruned value board mover beta best alpha pits < beta →
        ∀ pit ∈ pits, board.pitWorth exact mover pit ≤ pruned value board mover beta best alpha pits) ∧
      (alpha < pruned value board mover beta best alpha pits →
        ∃ pit ∈ pits, pruned value board mover beta best alpha pits ≤ board.pitWorth exact mover pit) := by
  induction pits generalizing best alpha with
  | nil =>
    refine ⟨Int.le_refl _, fun _ => nofun, fun higher => ?_⟩
    simp only [pruned] at higher
    omega
  | cons pit rest of_rest =>
    obtain ⟨⟨after, effect⟩, accepted⟩ := playable pit List.mem_cons_self
    have others : ∀ other ∈ rest, ∃ played, board.move other mover = .ok played :=
      fun other member => playable other (List.mem_cons_of_mem _ member)
    have here := reply accepted low window
    simp only [pruned, accepted]
    generalize (if passesTurn after effect then -value after mover.opponent (-beta) (-alpha)
      else value after mover alpha beta) = score at here ⊢
    by_cases cut : beta ≤ max alpha score
    · -- the score is past the window, so it is the answer, and the other pits are passed over
      rw [if_pos cut]
      have past : beta ≤ score := by omega
      refine ⟨by omega, fun lower => by omega, fun higher => ⟨pit, List.mem_cons_self, ?_⟩⟩
      have bound := here.below (by omega)
      omega
    · rw [if_neg cut]
      obtain ⟨kept, all_lower, one_higher⟩ := of_rest others (show -valueBound ≤ max alpha score by omega)
        (show max best score ≤ max alpha score by omega) (by omega)
      generalize pruned value board mover beta (max best score) (max alpha score) rest = answer at *
      refine ⟨by omega, fun lower => ?_, fun higher => ?_⟩
      · rw [List.forall_mem_cons]
        have bound := here.above (by omega)
        exact ⟨by omega, all_lower lower⟩
      · by_cases from_rest : max alpha score < answer
        · obtain ⟨other, member, bound⟩ := one_higher from_rest
          exact ⟨other, List.mem_cons_of_mem _ member, bound⟩
        · have bound := here.below (by omega)
          exact ⟨pit, List.mem_cons_self, by omega⟩

theorem search_of_finished (finished : board.isFinished = true) (few : board.total ≤ 900000)
    (movesLeft : Nat) (alpha beta : Int) :
    search movesLeft board mover alpha beta = plainValue movesLeft board mover := by
  rw [plainValue_of_finished finished, ← lead_eq_storeLead few]
  unfold search
  rw [if_pos finished]
  rfl

theorem search_zero (unfinished : board.isFinished = false) (few : board.total ≤ 900000) (alpha beta : Int) :
    search 0 board mover alpha beta = plainValue 0 board mover := by
  rw [plainValue_zero unfinished, ← lead_eq_storeLead few, search, if_neg (by simp [unfinished])]

theorem search_succ (unfinished : board.isFinished = false) (left : Nat) (alpha beta : Int) :
    search (left + 1) board mover alpha beta =
      pruned (search left) board mover beta (-valueBound) alpha
        (preference.filter (board.legal mover).contains) := by
  rw [search, if_neg (by simp [unfinished])]

theorem search_within (movesLeft : Nat) {board : SowingGame} (few : board.total ≤ 900000) (mover : Mark)
    {alpha beta : Int} (low : -valueBound ≤ alpha) (window : alpha < beta) (high : beta ≤ valueBound) :
    Within alpha beta (search movesLeft board mover alpha beta) (plainValue movesLeft board mover) := by
  induction movesLeft generalizing board mover alpha beta with
  | zero =>
    by_cases finished : board.isFinished = true
    · rw [search_of_finished finished few]
      exact .refl ..
    · rw [search_zero (by simpa using finished) few]
      exact .refl ..
  | succ left of_left =>
    by_cases finished : board.isFinished = true
    · rw [search_of_finished finished few]
      exact .refl ..
    · have unfinished : board.isFinished = false := by simpa using finished
      have reply {pit : Nat} {after : SowingGame} {effect : Effect} {alpha : Int}
          (accepted : board.move pit mover = .ok (after, effect)) (low : -valueBound ≤ alpha)
          (window : alpha < beta) : Within alpha beta
            (if passesTurn after effect then -search left after mover.opponent (-beta) (-alpha)
              else search left after mover alpha beta) (board.pitWorth (plainValue left) mover pit) := by
        have still_few : after.total ≤ 900000 := by rwa [(total_move accepted).1]
        rw [pitWorth_of_move accepted]
        split
        · exact (of_left still_few mover.opponent (by omega) (by omega) (by omega)).neg
        · exact of_left still_few mover low window high
      obtain ⟨-, all_lower, one_higher⟩ := pruned_within reply
        (fun pit member => move_eq_ok (mem_preference.mp member)) low low window
      obtain ⟨⟨best, best_legal, worth⟩, highest⟩ := plainValue_succ unfinished left mover
      rw [search_succ unfinished]
      refine ⟨fun lower => ?_, fun higher => ?_⟩
      · rw [worth]
        exact all_lower lower best (mem_preference.mpr best_legal)
      · obtain ⟨pit, member, bound⟩ := one_higher higher
        exact Int.le_trans bound (highest pit (mem_preference.mp member))

theorem pitValue_eq (few : board.total ≤ 900000) (legal : pit ∈ board.legal mover) :
    board.pitValue mover pit = some (board.pitWorth (plainValue 5) mover pit) := by
  obtain ⟨⟨after, effect⟩, accepted⟩ := move_eq_ok legal
  have still_few : after.total ≤ 900000 := by rwa [(total_move accepted).1]
  have searched (player : Mark) :
      search 5 after player (-valueBound) valueBound = plainValue 5 after player := by
    have within := search_within 5 still_few player (Int.le_refl _) (by decide) (Int.le_refl _)
    have bound := plainValue_bound 5 player still_few
    exact within.eq_of_open bound.1 bound.2
  rw [pitWorth_of_move accepted]
  simp only [pitValue, accepted, searchDepth, searched]

/-- With at most 900000 seeds the pit that is chosen is the one that a search of all lines of six moves
would choose: none if the player cannot move, and else, from the pit next to the store on, the first of
those that are worth most. -/
theorem pruning_changes_nothing (board : SowingGame) (few : board.total ≤ 900000) (mover : Mark) :
    (board.bestPit mover = none ↔ board.legal mover = []) ∧
      board.bestPit mover = [5, 4, 3, 2, 1, 0].find? fun pit =>
        pit ∈ board.legal mover ∧ ∀ other ∈ board.legal mover,
          board.pitWorth (plainValue 5) mover other ≤ board.pitWorth (plainValue 5) mover pit := by
  have chosen : board.bestPit mover =
      (preference.filter (board.legal mover).contains).argmax (board.pitWorth (plainValue 5) mover) :=
    bestOf_eq_argmax fun pit member => pitValue_eq few (mem_preference.mp member)
  constructor
  · rw [chosen, List.argmax_eq_none, List.eq_nil_iff_forall_not_mem, List.eq_nil_iff_forall_not_mem]
    exact forall_congr' fun pit => not_congr mem_preference
  · rw [chosen, argmax_eq_find?, List.find?_filter]
    refine congrArg (List.find? · preference) (funext fun pit => Bool.eq_iff_iff.mpr ?_)
    simp only [List.contains_iff_mem, decide_eq_true_eq, mem_preference]

/-- The first player's seed next to the store gives another turn, and the other one can take nine. -/
def chained : SowingGame := ⟨⟨#v[1, 0, 0, 0, 0, 1], 20⟩, ⟨#v[1, 1, 1, 1, 9, 1], 14⟩⟩

/-- The turn is kept first, for the capture to come after it. -/
theorem pruning_changes_nothing_chained :
    chained.total ≤ 900000 ∧ chained.legal .first = [0, 5] ∧ chained.bestPit .first = some 5 ∧
      chained.pitWorth (plainValue 5) .first 0 ≤ chained.pitWorth (plainValue 5) .first 5 := by
  have few : chained.total ≤ 900000 := by decide
  have pits : chained.legal .first = [0, 5] := by decide +kernel
  have chosen : chained.bestPit .first = some 5 := by decide +kernel
  have plain := (pruning_changes_nothing chained few .first).2
  rw [chosen] at plain
  have best := List.find?_some plain.symm
  simp only [decide_eq_true_eq] at best
  exact ⟨few, pits, chosen, best.2 0 (by simp [pits])⟩

end SowingGame
end Tabletop
