import Tabletop.Proofs.Board.Choice
import Tabletop.Proofs.Board.Ending

/-!
Boards that are over. A position that is tried leaves a board as it is exactly if it is refused, and on a
board that is over nobody has a legal position. The drop game and the sowing game then refuse every
position. Three in a row looks only at the cell that is to be taken, so it takes more cells on a board
that somebody has won.
-/

namespace Tabletop

section
variable {Board : Type} [Rules Board]

theorem isOver_iff {board : Board} :
    isOver board = true ↔
      Rules.isWin board .first = true ∨ Rules.isWin board .second = true ∨
        Rules.isDraw board = true := by
  rw [← not_iff_not, Bool.not_eq_true, isOver_eq_false_iff, outcome_eq_ongoing_iff]
  simp only [not_or, Bool.not_eq_true]

theorem isDraw_of_isOver {board : Board} (ended : isOver board = true)
    (first : Rules.isWin board .first = false) (second : Rules.isWin board .second = false) :
    Rules.isDraw board = true := by
  simpa [first, second] using isOver_iff.mp ended

namespace Rules

def Refused (board : Board) (position : Nat) (mover : Mark) : Prop :=
  ∃ reason, move board position mover = .error reason

/-- The board after a player has tried a position; what is refused changes nothing. -/
def attempt (board : Board) (position : Nat) (mover : Mark) : Board :=
  match move board position mover with
  | .ok (after, _) => after
  | .error _ => board

def attemptAll (board : Board) (tries : List (Nat × Mark)) : Board :=
  tries.foldl (fun board (position, mover) => attempt board position mover) board

theorem refused_of_not_accepted {board : Board} {position : Nat} {mover : Mark}
    (never : ∀ played, move board position mover ≠ .ok played) : Refused board position mover := by
  cases tried : move board position mover with
  | ok played => exact absurd tried (never played)
  | error reason => exact ⟨reason, tried⟩

theorem attempt_eq_self_iff [EndingRules Board] {board : Board} {position : Nat} {mover : Mark} :
    attempt board position mover = board ↔ Refused board position mover := by
  unfold attempt
  constructor
  · intro same
    apply refused_of_not_accepted
    -- an accepted move brings the end nearer, so it cannot give the same board
    rintro ⟨after, effect⟩ accepted
    have nearer := EndingRules.movesLeft_lt accepted
    simp only [accepted] at same
    rw [same] at nearer
    exact Nat.lt_irrefl _ nearer
  · rintro ⟨reason, refused⟩
    rw [refused]

theorem attemptAll_eq_self [EndingRules Board] {board : Board}
    (refuses : ∀ position mover, Refused board position mover) (tries : List (Nat × Mark)) :
    attemptAll board tries = board := by
  induction tries with
  | nil => rfl
  | cons one rest of_rest =>
    have same : attempt board one.1 one.2 = board := attempt_eq_self_iff.mpr (refuses _ _)
    change attemptAll (attempt board one.1 one.2) rest = board
    rw [same]
    exact of_rest

/-- Whether moves, legal positions and the end of the game agree on a board. -/
structure Agree (board : Board) : Prop where
  legal_of_accepted : ∀ {position mover played},
    move board position mover = .ok played → legal board mover ≠ []
  over_refuses : isOver board = true → ∀ position mover, Refused board position mover
  over_stays : isOver board = true → ∀ tries, attemptAll board tries = board

theorem Agree.of_legal [EndingRules Board] {board : Board}
    (exhausted : isOver board = true → ∀ mover, legal board mover = [])
    (accepts : ∀ {position mover played},
      move board position mover = .ok played → legal board mover ≠ []) : Agree board := by
  have refuses : isOver board = true → ∀ position mover, Refused board position mover := by
    intro ended position mover
    apply refused_of_not_accepted
    intro played accepted
    exact accepts accepted (exhausted ended mover)
  exact ⟨accepts, refuses, fun ended => attemptAll_eq_self (refuses ended)⟩

end Rules
end

namespace ThreeInARow

theorem cell_ne_none_of_full {board : ThreeInARow} (full : board.isFull = true) {index : Nat}
    (inside : index < 9) : board.cells.at? index ≠ none := by
  have filled := Vector.all_eq_true.mp full index inside
  simpa [Cells.at?, Vector.getElem?_eq_getElem inside, Option.isSome_iff_ne_none] using filled

theorem legal_eq_nil_of_isOver {board : ThreeInARow} (ended : isOver board = true) (mover : Mark) :
    board.legal mover = [] := by
  refine List.eq_nil_iff_forall_not_mem.mpr ?_
  intro position member
  obtain ⟨first, second, inside, empty⟩ := mem_legal_iff.mp member
  have drawn : board.isDraw = true := isDraw_of_isOver ended first second
  simp only [isDraw, Bool.and_eq_true] at drawn
  exact cell_ne_none_of_full drawn.1.1 inside empty

theorem agree_iff {board : ThreeInARow} :
    Rules.Agree board ↔
      (board.isWin .first = false ∧ board.isWin .second = false) ∨ board.isFull = true := by
  constructor
  · intro agree
    -- on a board with a line and an empty cell the cell would be taken though nothing is legal
    by_contra lined
    obtain ⟨won, room⟩ := not_or.mp lined
    obtain ⟨index, inside, empty⟩ := exists_empty_of_not_full (by simpa using room)
    obtain ⟨played, accepted⟩ : ∃ played, board.move index .first = .ok played :=
      move_accepted_iff.mpr ⟨inside, empty⟩
    have ended : isOver board = true := by
      refine isOver_iff.mpr ?_
      by_cases first : board.isWin .first = true
      · exact .inl first
      · by_cases second : board.isWin .second = true
        · exact .inr (.inl second)
        · exact absurd ⟨by simpa using first, by simpa using second⟩ won
    exact agree.legal_of_accepted accepted (legal_eq_nil_of_isOver ended .first)
  · intro apart
    refine .of_legal legal_eq_nil_of_isOver ?_
    intro position mover played accepted
    obtain ⟨inside, empty⟩ := move_accepted_iff.mp ⟨played, accepted⟩
    rcases apart with ⟨first, second⟩ | full
    · exact List.ne_nil_of_mem (mem_legal_iff.mpr ⟨first, second, inside, empty⟩)
    · exact absurd empty (cell_ne_none_of_full full inside)

end ThreeInARow

namespace DropGame

theorem legal_eq_nil_of_isOver {board : DropGame} (ended : isOver board = true) (mover : Mark) :
    board.legal mover = [] := by
  refine List.eq_nil_iff_forall_not_mem.mpr ?_
  intro column member
  obtain ⟨first, second, inside, room⟩ := mem_legal_iff.mp member
  have drawn : board.isDraw = true := isDraw_of_isOver ended first second
  simp only [isDraw, Bool.and_eq_true] at drawn
  have closed := List.all_eq_true.mp drawn.1.1 column (List.mem_range.mpr inside)
  rw [Option.isNone_iff_eq_none] at closed
  simp [closed] at room

theorem agree (board : DropGame) : Rules.Agree board := by
  refine .of_legal legal_eq_nil_of_isOver ?_
  intro position mover played accepted
  exact List.ne_nil_of_mem (columnOf_mem_legal accepted)

end DropGame

namespace SowingGame

theorem legal_eq_nil_of_isOver {board : SowingGame} (ended : isOver board = true) (mover : Mark) :
    board.legal mover = [] := by
  have finished : board.isFinished = true := by
    rcases isOver_iff.mp ended with won | won | drawn
    · exact (Bool.and_eq_true_iff.mp won).1
    · exact (Bool.and_eq_true_iff.mp won).1
    · exact (Bool.and_eq_true_iff.mp drawn).1
  simp [legal, finished]

theorem agree (board : SowingGame) : Rules.Agree board := by
  refine .of_legal legal_eq_nil_of_isOver ?_
  intro position mover played accepted
  exact List.ne_nil_of_mem (mem_legal_of_move accepted)

end SowingGame

/-- On every board of each game a position that is tried leaves the board as it is exactly if it is
refused. In the drop game and in the sowing game a player whose move is accepted had a legal position,
and a board that is over refuses every position and stays as it is whatever is tried on it. In three in a
row this holds of the boards on which nobody has a line or no cell is empty, and of no other. -/
theorem rules_agree (lines : ThreeInARow) (drops : DropGame) (seeds : SowingGame) :
    (∀ position mover,
      (Rules.attempt lines position mover = lines ↔ Rules.Refused lines position mover) ∧
      (Rules.attempt drops position mover = drops ↔ Rules.Refused drops position mover) ∧
      (Rules.attempt seeds position mover = seeds ↔ Rules.Refused seeds position mover)) ∧
    (Rules.Agree lines ↔
      (lines.isWin .first = false ∧ lines.isWin .second = false) ∨ lines.isFull = true) ∧
    Rules.Agree drops ∧ Rules.Agree seeds := by
  refine ⟨?_, ThreeInARow.agree_iff, drops.agree, seeds.agree⟩
  intro position mover
  exact ⟨Rules.attempt_eq_self_iff, Rules.attempt_eq_self_iff, Rules.attempt_eq_self_iff⟩

namespace ThreeInARow

/-- The first player has the top row, and four cells are empty. -/
def topRowTaken : ThreeInARow :=
  ⟨#v[some .first, some .first, some .first, some .second, some .second, none, none, none, none]⟩

/-- Nobody has a legal position any more, and yet the second player takes a cell. -/
theorem topRowTaken_takes_more :
    isOver topRowTaken = true ∧ topRowTaken.legal .second = [] ∧
      ¬ Rules.Refused topRowTaken 5 .second ∧ Rules.attempt topRowTaken 5 .second ≠ topRowTaken ∧
      ¬ Rules.Agree topRowTaken := by
  have ended : isOver topRowTaken = true := by decide +kernel
  have grown : Rules.attempt topRowTaken 5 .second ≠ topRowTaken := by decide +kernel
  have accepted : ¬ Rules.Refused topRowTaken 5 .second := by
    rwa [← Rules.attempt_eq_self_iff]
  refine ⟨ended, legal_eq_nil_of_isOver ended .second, accepted, grown, ?_⟩
  intro agree
  exact accepted (agree.over_refuses ended 5 .second)

end ThreeInARow
end Tabletop
