import Mathlib.Logic.Relation
import Tabletop.Command.Duel
import Tabletop.Proofs.Board.Choice
import Tabletop.Proofs.Board.Ending

/-!
Rounds of a duel. As long as the game goes on an opponent finds a legal position and the board accepts
it, so a round is played to the end of its game, and every round of a tally is won or drawn.
-/

namespace Tabletop.Command

/-- How a round stands between two turns. -/
structure Standing (Board : Type) where
  board : Board
  streams : Sides RandomStream
  mover : Mark
  moves : Nat

section
variable {Board : Type} [StrongPlay Board]

def Standing.opening (Board : Type) [StrongPlay Board] (seed : UInt64) : Standing Board :=
  ⟨Rules.opening, ⟨RandomStream.ofSeed seed, RandomStream.ofSeed (seed ^^^ seedMask)⟩, .first, 0⟩

/-- A turn: the game goes on, the mover's opponent chooses a position, and the board accepts it. -/
inductive Turn (opponents : Sides Difficulty) : Standing Board → Standing Board → Prop where
  | played {s : Standing Board} {position : Nat} {stream : RandomStream} {after : Board}
      {effect : Effect} (ongoing : isOver s.board = false)
      (chosen : choose (s.streams.of s.mover) s.board s.mover (opponents.of s.mover) =
        (some position, stream))
      (accepted : Rules.move s.board position s.mover = .ok (after, effect)) :
      Turn opponents s ⟨after, s.streams.set s.mover stream,
        if effect.extraTurn then s.mover else s.mover.opponent, s.moves + 1⟩

/-- The standings that turns lead to. -/
abbrev Turns (opponents : Sides Difficulty) : Standing Board → Standing Board → Prop :=
  Relation.ReflTransGen (Turn opponents)

def Standing.playOn (s : Standing Board) (opponents : Sides Difficulty) (bound : Nat) : RoundRecord :=
  playFrom opponents bound s.board s.streams s.mover s.moves

theorem playOn_of_turn {opponents : Sides Difficulty} {s next : Standing Board}
    (turn : Turn opponents s next) (bound : Nat) :
    s.playOn opponents (bound + 1) = next.playOn opponents bound := by
  cases turn with
  | played ongoing chosen accepted =>
    unfold Standing.playOn
    rw [playFrom]
    simp only [ongoing, Bool.false_eq_true, if_false, chosen, accepted]

theorem playOn_of_over {opponents : Sides Difficulty} {s : Standing Board} (over_ : isOver s.board = true)
    (bound : Nat) : s.playOn opponents bound = ⟨outcome s.board, s.moves⟩ := by
  unfold Standing.playOn
  cases bound with
  | zero => rfl
  | succ bound =>
    rw [playFrom]
    simp only [over_, if_true]

variable [PlayableRules Board] [FairRules Board]

/-- What an opponent chooses while a game goes on is legal, and the board accepts it. -/
theorem exists_turn {opponents : Sides Difficulty} {s : Standing Board}
    (ongoing : isOver s.board = false) :
    ∃ position ∈ Rules.legal s.board s.mover,
      (choose (s.streams.of s.mover) s.board s.mover (opponents.of s.mover)).1 = some position ∧
      ∃ next, Turn opponents s next := by
  have playable := FairRules.legal_ne_nil (isOver_eq_false_iff.mp ongoing) s.mover
  obtain ⟨position, legal, chosen⟩ := (choose_chooses (s.streams.of s.mover) s.board s.mover
    (opponents.of s.mover)).exists playable
  obtain ⟨⟨after, effect⟩, accepted⟩ := PlayableRules.move_of_legal legal
  exact ⟨position, legal, chosen, _, .played ongoing (Prod.ext chosen rfl) accepted⟩

variable [EndingRules Board]

omit [PlayableRules Board] [FairRules Board] in
theorem movesLeft_of_turn {opponents : Sides Difficulty} {s next : Standing Board}
    (turn : Turn opponents s next) : Rules.movesLeft next.board < Rules.movesLeft s.board := by
  cases turn with
  | played _ _ accepted => exact EndingRules.movesLeft_lt accepted

/-- With as many moves as a board has left, a round is played until its game is over. -/
theorem exists_end (opponents : Sides Difficulty) {bound : Nat} {s : Standing Board}
    (enough : Rules.movesLeft s.board ≤ bound) :
    ∃ final, Turns opponents s final ∧ isOver final.board = true ∧
      s.playOn opponents bound = ⟨outcome final.board, final.moves⟩ := by
  induction bound generalizing s with
  | zero =>
    cases over_ : isOver s.board with
    | true => exact ⟨s, .refl, over_, playOn_of_over over_ 0⟩
    | false =>
      obtain ⟨_, _, _, next, turn⟩ := @exists_turn _ _ _ _ opponents s over_
      have fewer := movesLeft_of_turn turn
      omega
  | succ bound of_bound =>
    cases over_ : isOver s.board with
    | true => exact ⟨s, .refl, over_, playOn_of_over over_ _⟩
    | false =>
      obtain ⟨_, _, _, next, turn⟩ := @exists_turn _ _ _ _ opponents s over_
      have fewer := movesLeft_of_turn turn
      obtain ⟨final, turns, ended, same⟩ := @of_bound next (by omega)
      exact ⟨final, .head turn turns, ended, by rw [playOn_of_turn turn, same]⟩

/-- What is true of a game whose rounds all end. -/
structure RoundsEnd (Board : Type) [StrongPlay Board] : Prop where
  /-- Nobody can go on moving at legal positions for ever, whatever the board at the start. -/
  finite : ∀ (boards : Nat → Board) (movers : Nat → Mark) (positions : Nat → Nat)
    (effects : Nat → Effect), ∃ n, ¬ (positions n ∈ Rules.legal (boards n) (movers n) ∧
      Rules.move (boards n) (positions n) (movers n) = .ok (boards (n + 1), effects n))
  /-- Wherever a round stands, the game is over or the next turn is played. -/
  played : ∀ opponents seed (s : Standing Board), Turns opponents (.opening Board seed) s →
    isOver s.board = false → ∃ position ∈ Rules.legal s.board s.mover,
      (choose (s.streams.of s.mover) s.board s.mover (opponents.of s.mover)).1 = some position ∧
      ∃ next, Turn opponents s next
  /-- Turns end, and the record tells how. -/
  ended : ∀ opponents seed, ∃ final, Turns opponents (.opening Board seed) final ∧
    isOver final.board = true ∧ playRound Board opponents seed = ⟨outcome final.board, final.moves⟩

theorem roundsEnd : RoundsEnd Board where
  finite := exists_no_move
  played _ _ _ _ ongoing := exists_turn ongoing
  ended opponents _ := exists_end opponents (Nat.le_refl _)

omit [PlayableRules Board] [FairRules Board] [EndingRules Board] in
theorem RoundsEnd.outcome_ne (ends : RoundsEnd Board) (opponents : Sides Difficulty) (seed : UInt64) :
    (playRound Board opponents seed).outcome ≠ .ongoing := by
  obtain ⟨final, _, over_, same⟩ := ends.ended opponents seed
  rw [same]
  simpa [isOver] using over_

end

/-! ## Tallies -/

/-- A round of some duel. -/
structure DuelRound where
  game : GameKind
  opponents : Sides Difficulty
  seed : UInt64

def DuelRound.record (round : DuelRound) : RoundRecord :=
  match round.game with
  | .threeInARow => playRound ThreeInARow round.opponents round.seed
  | .dropGame => playRound DropGame round.opponents round.seed
  | .sowingGame => playRound SowingGame round.opponents round.seed

theorem DuelRound.outcome_ne (round : DuelRound) : round.record.outcome ≠ .ongoing := by
  unfold record
  split
  · exact (roundsEnd : RoundsEnd ThreeInARow).outcome_ne _ _
  · exact (roundsEnd : RoundsEnd DropGame).outcome_ne _ _
  · exact (roundsEnd : RoundsEnd SowingGame).outcome_ne _ _

theorem Tally.ofRecords_sum {records : List RoundRecord}
    (ended : ∀ record ∈ records, record.outcome ≠ .ongoing) :
    (ofRecords records).firstWins + (ofRecords records).secondWins + (ofRecords records).draws =
      records.length := by
  unfold ofRecords
  induction records with
  | nil => rfl
  | cons record rest of_rest =>
    obtain ⟨first, others⟩ := List.forall_mem_cons.mp ended
    have counted := of_rest others
    simp only [List.countP_cons, List.length_cons] at counted ⊢
    cases result : record.outcome with
    | ongoing => exact absurd result first
    | win winner => cases winner <;> simp <;> omega
    | draw =>
      simp
      omega

theorem duelRecords_eq (options : DuelOptions) :
    duelRecords options = (List.range options.rounds).map fun index =>
      (DuelRound.mk options.game ⟨options.first, options.second⟩
        (options.seed.toUInt64 + index.toUInt64)).record := by
  unfold duelRecords
  split
  all_goals
    rename_i game
    rw [playRounds_eq_map]
    simp only [DuelRound.record, game]

theorem Tally.ofRecords_rounds (rounds : List DuelRound) :
    (ofRecords (rounds.map DuelRound.record)).firstWins +
        (ofRecords (rounds.map DuelRound.record)).secondWins +
        (ofRecords (rounds.map DuelRound.record)).draws = rounds.length := by
  have ended : ∀ record ∈ rounds.map DuelRound.record, record.outcome ≠ .ongoing := by
    intro record is_one
    obtain ⟨round, _, rfl⟩ := List.mem_map.mp is_one
    exact round.outcome_ne
  rw [ofRecords_sum ended, List.length_map]

/-- In each game moves at legal positions come to an end, from whatever board. So does every round of a
duel, of any two opponents and with any seed: each turn before the end is played, at a legal position, and
the record tells how the game has ended. First wins, second wins and draws of a tally are its rounds. -/
theorem rounds_end :
    RoundsEnd ThreeInARow ∧ RoundsEnd DropGame ∧ RoundsEnd SowingGame ∧
      (∀ round : DuelRound, round.record.outcome ≠ .ongoing) ∧
      (∀ rounds : List DuelRound,
        (Tally.ofRecords (rounds.map DuelRound.record)).firstWins +
            (Tally.ofRecords (rounds.map DuelRound.record)).secondWins +
            (Tally.ofRecords (rounds.map DuelRound.record)).draws = rounds.length) ∧
      ∀ options : DuelOptions,
        (Tally.ofRecords (duelRecords options)).firstWins +
            (Tally.ofRecords (duelRecords options)).secondWins +
            (Tally.ofRecords (duelRecords options)).draws = options.rounds := by
  refine ⟨roundsEnd, roundsEnd, roundsEnd, DuelRound.outcome_ne, Tally.ofRecords_rounds, fun options => ?_⟩
  have counted := Tally.ofRecords_rounds ((List.range options.rounds).map fun index =>
    ⟨options.game, ⟨options.first, options.second⟩, options.seed.toUInt64 + index.toUInt64⟩)
  rw [List.map_map, List.length_map, List.length_range] at counted
  rw [duelRecords_eq]
  exact counted

end Tabletop.Command
