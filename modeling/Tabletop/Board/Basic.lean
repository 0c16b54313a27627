import Tabletop.Json.Basic

/-!
The vocabulary of two-player board games: marks, accepted and rejected moves, outcomes, and the
class `Rules` of boards. A position is an index whose meaning is the game's: a cell, a column or a
pit.
-/

namespace Tabletop

/-- A player; the first opens every round. -/
inductive Mark where
  | first
  | second
  deriving DecidableEq, Repr, Inhabited

namespace Mark

def opponent : Mark → Mark
  | first => second
  | second => first

/-- What stands in a cell for the player. -/
def symbol : Mark → String
  | first => "X"
  | second => "O"

def index : Mark → Nat
  | first => 0
  | second => 1

def name : Mark → String
  | first => "First"
  | second => "Second"

/-- How players are named in messages. -/
def title : Mark → String
  | first => "player 1 (X)"
  | second => "player 2 (O)"

@[simp] theorem opponent_opponent (mark : Mark) : mark.opponent.opponent = mark := by
  cases mark <;> rfl

theorem opponent_ne (mark : Mark) : mark.opponent ≠ mark := by
  cases mark <;> simp [opponent]

theorem eq_or_eq_opponent (mark other : Mark) : mark = other ∨ mark = other.opponent := by
  cases mark <;> cases other <;> simp [opponent]

end Mark

/-- The three games. -/
inductive GameKind where
  | threeInARow
  | dropGame
  | sowingGame
  deriving DecidableEq, Repr

/-- The short name, also that of the game's saved file. -/
def GameKind.slug : GameKind → String
  | threeInARow => "tictactoe"
  | dropGame => "connect4"
  | sowingGame => "mancala"

def GameKind.all : List GameKind := [.threeInARow, .dropGame, .sowingGame]

/-- What an accepted move did: where the last piece landed, whether the mover goes again, and how
many seeds a capture took. -/
structure Effect where
  landed : Nat
  extraTurn : Bool
  captured : Nat
  deriving DecidableEq, Repr, Inhabited

/-- An effect that only places a piece. -/
def Effect.placed (landed : Nat) : Effect := ⟨landed, false, 0⟩

/-- Why a move is rejected. -/
inductive IllegalMove where
  | outOfRange (position : Nat)
  | occupied (cell : Nat)
  | columnFull (column : Nat)
  | emptyPit (pit : Nat)
  | gameOver
  deriving DecidableEq, Repr

def IllegalMove.message : IllegalMove → String
  | outOfRange position => s!"position {position} is out of range"
  | occupied cell => s!"cell {cell} is already occupied"
  | columnFull column => s!"column {column} is full"
  | emptyPit pit => s!"pit {pit} is empty"
  | gameOver => "the game is already over"

inductive Outcome where
  | ongoing
  | win (winner : Mark)
  | draw
  deriving DecidableEq, Repr

/-- The rules of a game whose boards are values of `Board`. -/
class Rules (Board : Type) where
  kind : GameKind
  opening : Board
  /-- The board after a move; a rejected move gives no board. -/
  move : Board → (position : Nat) → (mover : Mark) → Except IllegalMove (Board × Effect)
  isWin : Board → Mark → Bool
  isDraw : Board → Bool
  /-- The positions a player may choose, in increasing order. -/
  legal : Board → Mark → List Nat
  /-- Positions in the order in which they are liked when nothing forces a choice. -/
  preference : List Nat
  /-- Whether choosing the position keeps the other player from winning at once. -/
  blocks : Board → (position : Nat) → (mover : Mark) → Bool
  /-- The board as scoring programs see it. -/
  view : Board → Json
  render : Board → String
  /-- No more moves than this can be accepted one after another. -/
  movesLeft : Board → Nat
  save : Board → Json
  /-- The fields of the saved form. -/
  savedFields : List String
  load : Json → Option Board

/-- Rules with the strongest choice that the game offers. -/
class StrongPlay (Board : Type) extends Rules Board where
  strongest : Board → Mark → Option Nat

section
variable {Board : Type}

/-- Whether a move is accepted and wins for its mover. -/
def winsAt (move : Board → Nat → Mark → Except IllegalMove (Board × Effect))
    (isWin : Board → Mark → Bool) (board : Board) (position : Nat) (mover : Mark) : Bool :=
  match move board position mover with
  | .ok (after, _) => isWin after mover
  | .error _ => false

variable [Rules Board]

def outcome (board : Board) : Outcome :=
  if Rules.isWin board .first then .win .first
  else if Rules.isWin board .second then .win .second
  else if Rules.isDraw board then .draw
  else .ongoing

def isOver (board : Board) : Bool := outcome board != .ongoing

/-- The first position that wins at once. -/
def winningMove (board : Board) (mover : Mark) : Option Nat :=
  (Rules.legal board mover).find? fun position =>
    winsAt Rules.move Rules.isWin board position mover

/-- The first position that keeps the other player from winning at once. -/
def blockingMove (board : Board) (mover : Mark) : Option Nat :=
  (Rules.legal board mover).find? fun position => Rules.blocks board position mover

end

/-- The first of the highest values among `best` and the positions that have one. -/
@[specialize] def bestOf (value : Nat → Option Int) : (best : Option (Int × Nat)) → List Nat →
    Option (Int × Nat)
  | best, [] => best
  | best, position :: rest =>
    match value position with
    | none => bestOf value best rest
    | some score =>
      let better := match best with
        | none => true
        | some (old, _) => old < score
      bestOf value (if better then some (score, position) else best) rest

end Tabletop
