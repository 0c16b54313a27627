import Tabletop.Board.DropGame.Score
import Tabletop.Board.SowingGame.Search
import Tabletop.Board.ThreeInARow.Search
import Tabletop.Board.Opponent
import Tabletop.Command.Basic
import Tabletop.Command.Output

/-!
Duels: rounds of local opponents against each other, and their tally.
-/

namespace Tabletop.Command

structure RoundRecord where
  outcome : Outcome
  moves : Nat
  deriving DecidableEq, Repr

section
variable {Board : Type} [StrongPlay Board]

/-- Plays on until the round is over, `bound` moves at most; each opponent draws from its stream. -/
def playFrom (opponents : Sides Difficulty) :
    (bound : Nat) → (board : Board) → (streams : Sides RandomStream) → (mover : Mark) →
    (moves : Nat) → RoundRecord
  | 0, board, _, _, moves => ⟨outcome board, moves⟩
  | bound + 1, board, streams, mover, moves =>
    if isOver board then ⟨outcome board, moves⟩
    else match choose (streams.of mover) board mover (opponents.of mover) with
      | (none, _) => ⟨outcome board, moves⟩
      | (some position, stream) => match Rules.move board position mover with
        | .error _ => ⟨outcome board, moves⟩
        | .ok (after, effect) =>
          let next := if effect.extraTurn then mover else mover.opponent
          playFrom opponents bound after (streams.set mover stream) next (moves + 1)

/-- What the second opponent's seed differs in from the first's. -/
def seedMask : UInt64 := 0x9e3779b9

/-- A round from the opening position. -/
def playRound (Board : Type) [StrongPlay Board] (opponents : Sides Difficulty) (seed : UInt64) :
    RoundRecord :=
  let opening : Board := Rules.opening
  let streams := ⟨RandomStream.ofSeed seed, RandomStream.ofSeed (seed ^^^ seedMask)⟩
  playFrom opponents (Rules.movesLeft opening) opening streams .first 0

/-- Opponents that leave nothing to chance play the same round from any streams. -/
theorem playFrom_eq_of_ne_easy {opponents : Sides Difficulty}
    (sure : ∀ mark, opponents.of mark ≠ .easy) (bound : Nat) (board : Board)
    (streams others : Sides RandomStream) (mover : Mark) (moves : Nat) :
    playFrom opponents bound board streams mover moves =
      playFrom opponents bound board others mover moves := by
  induction bound generalizing board streams others mover moves with
  | zero => rfl
  | succ bound ih =>
    have same : (choose (streams.of mover) board mover (opponents.of mover)).1 =
        (choose (others.of mover) board mover (opponents.of mover)).1 := by
      cases kind : opponents.of mover with
      | easy => exact absurd kind (sure mover)
      | medium => rfl
      | hard => rfl
    unfold playFrom
    split
    · rfl
    · cases left : choose (streams.of mover) board mover (opponents.of mover) with
      | mk position stream =>
        cases right : choose (others.of mover) board mover (opponents.of mover) with
        | mk position' stream' =>
          rw [left, right] at same
          cases same
          cases position with
          | none => rfl
          | some position =>
            dsimp only
            cases Rules.move board position mover with
            | error _ => rfl
            | ok after => exact ih ..

end

/-- Rounds with one seed after another, wrapping round at 2^64. Opponents that leave nothing to chance
play one round over and over. -/
def playRounds (Board : Type) [StrongPlay Board] (opponents : Sides Difficulty) (seed : UInt64)
    (rounds : Nat) : List RoundRecord :=
  if opponents.first = .easy ∨ opponents.second = .easy then
    (List.range rounds).map fun index => playRound Board opponents (seed + index.toUInt64)
  else List.replicate rounds (playRound Board opponents seed)

/-- Every round is the one of its seed. -/
theorem playRounds_eq_map (Board : Type) [StrongPlay Board] (opponents : Sides Difficulty)
    (seed : UInt64) (rounds : Nat) :
    playRounds Board opponents seed rounds =
      (List.range rounds).map fun index => playRound Board opponents (seed + index.toUInt64) := by
  unfold playRounds
  split
  · rfl
  · rename_i sure
    have sure (mark : Mark) : opponents.of mark ≠ .easy := by
      cases mark <;> simp_all [Sides.of]
    rw [eq_comm, List.eq_replicate_iff]
    refine ⟨by simp, fun record found => ?_⟩
    obtain ⟨index, -, rfl⟩ := List.mem_map.1 found
    exact playFrom_eq_of_ne_easy sure ..

structure Tally where
  rounds : Nat
  firstWins : Nat
  secondWins : Nat
  draws : Nat
  moves : Nat
  deriving DecidableEq, Repr

namespace Tally

def ofRecords (records : List RoundRecord) : Tally where
  rounds := records.length
  firstWins := records.countP fun record => record.outcome = .win .first
  secondWins := records.countP fun record => record.outcome = .win .second
  draws := records.countP fun record => record.outcome = .draw
  moves := (records.map RoundRecord.moves).foldr (· + ·) 0

/-- A quotient in single precision, zero if nothing is counted. -/
def ratio (part whole : Nat) : Float32 :=
  if whole = 0 then 0 else Float32.ofNat part / Float32.ofNat whole

def averageMoves (tally : Tally) : Float32 := ratio tally.moves tally.rounds

/-- A single with one decimal place. -/
def oneDecimal (x : Float32) : String := (Number.scaledSingle x).fixed 1

def percent (part whole : Nat) : String := oneDecimal (ratio part whole * 100)

/-- The double that is written as a single is. -/
def widened (x : Float32) : Float :=
  ((Number.scaledSingle x).shortest Number.single Number.jsonLayout.tie).toFloat

def toJson (tally : Tally) : Json :=
  .obj [("rounds", .int tally.rounds), ("first_wins", .int tally.firstWins),
    ("second_wins", .int tally.secondWins), ("draws", .int tally.draws),
    ("avg_moves", .float (widened tally.averageMoves))]

def text (tally : Tally) (options : DuelOptions) : String :=
  let share := fun part => s!"{part} ({percent part tally.rounds}%)"
  s!"\n=== Duel Results ({options.game.slug}) ===\n" ++
  s!"Rounds:        {tally.rounds}\n" ++
  s!"First ({options.first.name}):  {share tally.firstWins}\n" ++
  s!"Second ({options.second.name}): {share tally.secondWins}\n" ++
  s!"Draws:         {share tally.draws}\n" ++
  s!"Avg moves:     {oneDecimal tally.averageMoves}\n"

end Tally

def duelRecords (options : DuelOptions) : List RoundRecord :=
  let opponents := ⟨options.first, options.second⟩
  let seed := options.seed.toUInt64
  match options.game with
  | .threeInARow => playRounds ThreeInARow opponents seed options.rounds
  | .dropGame => playRounds DropGame opponents seed options.rounds
  | .sowingGame => playRounds SowingGame opponents seed options.rounds

def duel (options : DuelOptions) : Output :=
  let tally := Tally.ofRecords (duelRecords options)
  if options.json then finish (Written.printLine {} tally.toJson.pretty) none
  else finish (Written.print {} (tally.text options)) none

end Tabletop.Command
