import Tabletop.Board.Basic
import Tabletop.Random.Stream
import Tabletop.Text.Basic

/-!
Local opponents. An easy one chooses at random, a medium one wins or blocks if it can and otherwise
follows the game's preference, a hard one plays the strongest choice the game offers.
-/

namespace Tabletop

inductive Difficulty where
  | easy
  | medium
  | hard
  deriving DecidableEq, Repr

namespace Difficulty

def name : Difficulty → String
  | easy => "Easy"
  | medium => "Medium"
  | hard => "Hard"

/-- The next harder one. -/
def next : Difficulty → Option Difficulty
  | easy => some medium
  | medium => some hard
  | hard => none

def rank : Difficulty → Nat
  | easy => 0
  | medium => 1
  | hard => 2

/-- Reads a difficulty in any case. -/
def read? (text : String) : Option Difficulty :=
  match Text.asciiLower text with
  | "easy" => some easy
  | "medium" => some medium
  | "hard" => some hard
  | _ => none

/-- What is said of a text that names no difficulty. -/
def unknown (text : String) : String := s!"unknown difficulty '{Text.asciiLower text}'"

end Difficulty

/-- The seed of opponents for which none is given. -/
def defaultSeed : Nat := 42

section
variable {Board : Type} [StrongPlay Board]

/-- Wins, else blocks, else takes the preferred position. -/
def strategicChoice (board : Board) (mover : Mark) : Option Nat :=
  match winningMove board mover with
  | some position => some position
  | none => match blockingMove board mover with
    | some position => some position
    | none =>
      let legal := Rules.legal board mover
      match (Rules.preference Board).find? legal.contains with
      | some position => some position
      | none => legal.head?

def randomChoice (stream : RandomStream) (board : Board) (mover : Mark) :
    Option Nat × RandomStream :=
  stream.choose (Rules.legal board mover)

/-- An opponent's choice and its stream afterwards. -/
def choose (stream : RandomStream) (board : Board) (mover : Mark) :
    Difficulty → Option Nat × RandomStream
  | .easy => randomChoice stream board mover
  | .medium => (strategicChoice board mover, stream)
  | .hard => (StrongPlay.strongest board mover, stream)

end
end Tabletop
