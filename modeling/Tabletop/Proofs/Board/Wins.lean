import Mathlib.Order.Bounds.Defs
import Tabletop.Proofs.Board.Choice
import Tabletop.Proofs.Board.Lines

/-!
Opponents that win when they can. Legal positions are listed in increasing order, so that the first one
found to win is the lowest; and after a legal position no two players have won, so that a mover who has won
is the winner.
-/

namespace Tabletop

/-- Rules whose legal positions go up, and under which nobody but the mover has won if the mover has. -/
class WinningRules (Board : Type) [Rules Board] : Prop where
  increasing : ∀ (board : Board) (mover : Mark), (Rules.legal board mover).Pairwise (· < ·)
  only_winner : ∀ {board after : Board} {mover : Mark} {position : Nat} {effect : Effect},
    position ∈ Rules.legal board mover → Rules.move board position mover = .ok (after, effect) →
      Rules.isWin after mover = true → Rules.isWin after mover.opponent = false

section
variable {Board : Type} [Rules Board]

/-- Whether a legal position makes its mover the winner. -/
def WinsAtOnce (board : Board) (mover : Mark) (position : Nat) : Prop :=
  position ∈ Rules.legal board mover ∧
    ∃ after effect, Rules.move board position mover = .ok (after, effect) ∧ outcome after = .win mover

theorem outcome_eq_win_iff {board : Board} {mark : Mark}
    (alone : Rules.isWin board mark = true → Rules.isWin board mark.opponent = false) :
    outcome board = .win mark ↔ Rules.isWin board mark = true := by
  unfold outcome
  cases mark with
  | first =>
    by_cases first : Rules.isWin board .first = true
    · simp [first]
    · simp only [first, Bool.false_eq_true, if_false, iff_false]
      split
      · simp
      · split <;> simp
  | second =>
    by_cases second : Rules.isWin board .second = true
    · have first : Rules.isWin board .first = false := alone second
      simp [first, second]
    · simp only [second, Bool.false_eq_true, if_false, iff_false]
      split
      · simp
      · split <;> simp

theorem winsAt_iff {board : Board} {mover : Mark} {position : Nat} :
    winsAt Rules.move Rules.isWin board position mover = true ↔
      ∃ after effect, Rules.move board position mover = .ok (after, effect) ∧
        Rules.isWin after mover = true := by
  unfold winsAt
  cases tried : Rules.move board position mover with
  | error reason => simp
  | ok played =>
    obtain ⟨after, effect⟩ := played
    simp

variable [WinningRules Board] {board : Board} {mover : Mark} {position : Nat}

theorem winsAtOnce_iff : WinsAtOnce board mover position ↔
    position ∈ Rules.legal board mover ∧
      winsAt Rules.move Rules.isWin board position mover = true := by
  unfold WinsAtOnce
  rw [winsAt_iff]
  refine and_congr_right fun legal => ?_
  refine exists₂_congr fun after effect => and_congr_right fun accepted => ?_
  exact outcome_eq_win_iff (WinningRules.only_winner legal accepted)

/-- The first position that is found to win is the lowest of those that win. -/
theorem isLeast_of_winningMove (found : winningMove board mover = some position) :
    IsLeast {position | WinsAtOnce board mover position} position := by
  obtain ⟨wins, before, rest, split_, none_before⟩ := List.find?_eq_some_iff_append.mp found
  have increasing := WinningRules.increasing board mover
  have member : position ∈ Rules.legal board mover := List.mem_of_find?_eq_some found
  refine ⟨winsAtOnce_iff.mpr ⟨member, wins⟩, fun other other_wins => ?_⟩
  obtain ⟨other_member, other_wins⟩ := winsAtOnce_iff.mp other_wins
  -- No position before the one that is found wins, and all behind it are higher.
  rw [split_] at increasing other_member
  rcases List.mem_append.mp other_member with earlier | later
  · have loses := none_before other earlier
    simp [other_wins] at loses
  · rcases List.mem_cons.mp later with rfl | later
    · exact Nat.le_refl _
    · exact Nat.le_of_lt (List.rel_of_pairwise_cons (List.pairwise_append.mp increasing).2.1 later)

theorem exists_winningMove (winnable : ∃ position, WinsAtOnce board mover position) :
    ∃ position, winningMove board mover = some position := by
  obtain ⟨position, wins⟩ := winnable
  obtain ⟨member, wins⟩ := winsAtOnce_iff.mp wins
  exact Option.isSome_iff_exists.mp (List.find?_isSome.mpr ⟨position, member, wins⟩)

end

/-! ## The three games -/

theorem pairwise_filter_range (count : Nat) (keep : Nat → Bool) :
    ((List.range count).filter keep).Pairwise (· < ·) :=
  List.pairwise_lt_range.filter keep

namespace ThreeInARow

variable {board after : ThreeInARow} {mover mark : Mark} {position : Nat} {effect : Effect}

/-- A piece makes no line for the other player. -/
theorem isWin_of_put (inside : position < 9) (distinct : mark ≠ mover)
    (won : (board.put position (some mover)).isWin mark = true) : board.isWin mark = true := by
  simp only [isWin, List.any_eq_true, List.all_eq_true] at won ⊢
  obtain ⟨line, is_line, held⟩ := won
  refine ⟨line, is_line, fun index in_line => ?_⟩
  have holder := Cells.holds_iff.mp (held index in_line)
  refine Cells.holds_iff.mpr ?_
  by_cases landing : index = position
  · subst landing
    rw [put, Cells.at?_put_self inside] at holder
    exact absurd (Option.some.inj holder).symm distinct
  · rwa [put, Cells.at?_put_of_ne landing] at holder

instance : WinningRules ThreeInARow where
  increasing board mover := by
    change (board.legal mover).Pairwise (· < ·)
    unfold legal
    split
    · exact .nil
    · exact pairwise_filter_range 9 _
  only_winner {board after mover position effect} legal accepted _ := by
    obtain ⟨first, second, _⟩ := mem_legal_iff.mp legal
    obtain ⟨inside, -, rfl, -⟩ := move_eq_ok_iff.mp accepted
    have nobody : board.isWin mover.opponent = false := by
      cases mover with
      | first => exact second
      | second => exact first
    refine Bool.eq_false_iff.mpr fun won => ?_
    have before := isWin_of_put inside mover.opponent_ne won
    rw [nobody] at before
    cases before

end ThreeInARow

namespace DropGame

instance : WinningRules DropGame where
  increasing board mover := by
    change (board.legal mover).Pairwise (· < ·)
    unfold legal
    split
    · exact .nil
    · exact pairwise_filter_range columns _
  only_winner _ accepted _ := by
    refine Bool.eq_false_iff.mpr fun won => ?_
    exact not_hasFour_opponent accepted (isWin_iff.mp won)

end DropGame

namespace SowingGame

instance : WinningRules SowingGame where
  increasing board mover := by
    change (board.legal mover).Pairwise (· < ·)
    unfold legal
    split
    · exact .nil
    · exact pairwise_filter_range 6 _
  only_winner {board after mover position effect} _ _ won := by
    change after.isWin mover = true at won
    change after.isWin mover.opponent = false
    simp only [isWin, Bool.and_eq_true, decide_eq_true_eq] at won
    simp only [isWin, won.1, Mark.opponent_opponent, Bool.true_and, decide_eq_false_iff_not]
    omega

end SowingGame

/-! ## Opponents -/

/-- What opponents of every difficulty do on every board, whatever they draw: they choose a legal position
if there is one, and the board takes every legal position. -/
structure ChoosesLegally (Board : Type) [StrongPlay Board] : Prop where
  none_iff : ∀ (stream : RandomStream) (board : Board) (mover : Mark) (difficulty : Difficulty),
    (choose stream board mover difficulty).1 = none ↔ Rules.legal board mover = []
  legal : ∀ (stream : RandomStream) (board : Board) (mover : Mark) (difficulty : Difficulty) position,
    (choose stream board mover difficulty).1 = some position → position ∈ Rules.legal board mover
  accepted : ∀ (board : Board) (mover : Mark), ∀ position ∈ Rules.legal board mover,
    ∃ played, Rules.move board position mover = .ok played

/-- Opponents of a difficulty choose the lowest position that wins at once, if there is one. -/
def TakesWins (Board : Type) [StrongPlay Board] (difficulty : Difficulty) : Prop :=
  ∀ (stream : RandomStream) (board : Board) (mover : Mark),
    (∃ position, WinsAtOnce board mover position) →
      ∃ lowest, IsLeast {position | WinsAtOnce board mover position} lowest ∧
        (choose stream board mover difficulty).1 = some lowest

section
variable {Board : Type} [StrongPlay Board]

theorem choosesLegally [PlayableRules Board] : ChoosesLegally Board where
  none_iff stream board mover difficulty := by
    have chooses := choose_chooses stream board mover difficulty
    constructor
    · intro none_chosen
      rwa [none_chosen] at chooses
    · intro stuck
      cases chosen : (choose stream board mover difficulty).1 with
      | none => rfl
      | some position =>
        rw [chosen] at chooses
        exact absurd stuck (List.ne_nil_of_mem chooses)
  legal stream board mover difficulty position chosen := by
    have chooses := choose_chooses stream board mover difficulty
    rwa [chosen] at chooses
  accepted _ _ _ member := PlayableRules.move_of_legal member

/-- Whoever looks for a winning move first takes the lowest one. -/
theorem takesWins_of_winningMove [WinningRules Board] {difficulty : Difficulty}
    (looks : ∀ (stream : RandomStream) (board : Board) (mover : Mark) {position : Nat},
      winningMove board mover = some position →
        (choose stream board mover difficulty).1 = some position) : TakesWins Board difficulty := by
  intro stream board mover winnable
  obtain ⟨lowest, found⟩ := exists_winningMove winnable
  exact ⟨lowest, isLeast_of_winningMove found, looks stream board mover found⟩

theorem medium_takesWins [WinningRules Board] : TakesWins Board .medium := by
  refine takesWins_of_winningMove fun stream board mover position found => ?_
  change strategicChoice board mover = some position
  simp only [strategicChoice, found]

end

theorem DropGame.hard_takesWins : TakesWins DropGame .hard := by
  refine takesWins_of_winningMove fun stream board mover position found => ?_
  change board.bestColumn mover = some position
  simp only [bestColumn, found, Option.orElse_some]

/-- In each of the three games an opponent of any difficulty chooses a position on exactly the boards where
the mover has a legal one, and then a legal one, which the board takes. A medium opponent, and a hard one in
the drop game, chooses the lowest position that makes it the winner at once if there is any. -/
theorem opponents_choose_well :
    (ChoosesLegally ThreeInARow ∧ ChoosesLegally DropGame ∧ ChoosesLegally SowingGame) ∧
      (TakesWins ThreeInARow .medium ∧ TakesWins DropGame .medium ∧ TakesWins SowingGame .medium) ∧
        TakesWins DropGame .hard :=
  ⟨⟨choosesLegally, choosesLegally, choosesLegally⟩,
    ⟨medium_takesWins, medium_takesWins, medium_takesWins⟩, DropGame.hard_takesWins⟩

end Tabletop
