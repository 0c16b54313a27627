import Tabletop.Board.Opponent
import Tabletop.Json.Basic

/-!
Who picks a player's moves, and which opponents may be chosen.
-/

namespace Tabletop

/-- One thing for each player. -/
structure Sides (α : Type) where
  first : α
  second : α
  deriving DecidableEq, Repr

namespace Sides
variable {α : Type}

/-- The thing of one player. -/
def of (sides : Sides α) : Mark → α
  | .first => sides.first
  | .second => sides.second

def set (sides : Sides α) (mark : Mark) (value : α) : Sides α :=
  match mark with
  | .first => { sides with first := value }
  | .second => { sides with second := value }

def toList (sides : Sides α) : List α := [sides.first, sides.second]

@[simp] theorem of_set_self (sides : Sides α) (mark : Mark) (value : α) :
    (sides.set mark value).of mark = value := by
  cases mark <;> rfl

@[simp] theorem of_set_opponent (sides : Sides α) (mark : Mark) (value : α) :
    (sides.set mark value).of mark.opponent = sides.of mark.opponent := by
  cases mark <;> rfl

end Sides

/-- Moves come from a person, from a local opponent, or from a solver that a scoring program asks. -/
inductive MoveSource where
  | human
  | local (difficulty : Difficulty)
  | solver
  deriving DecidableEq, Repr

namespace MoveSource

/-- How a source is called in messages. -/
def text : MoveSource → String
  | human => "Human"
  | .local difficulty => s!"CPU ({difficulty.name})"
  | solver => "Solver"

/-- A source as it stands in descriptions of events. -/
def describe : MoveSource → String
  | human => "Human"
  | .local difficulty => s!"Local({difficulty.name})"
  | solver => "Solver"

def difficulty? : MoveSource → Option Difficulty
  | .local difficulty => some difficulty
  | _ => none

def toJson : MoveSource → Json
  | .local difficulty => .obj [("Local", .str difficulty.name)]
  | other => .str other.text

/-- Reads a source's name in any case; a local opponent goes by its difficulty. -/
def read? (text : String) : Option MoveSource :=
  match Text.asciiLower text with
  | "human" => some human
  | "solver" | "quantum" => some solver
  | other => (Difficulty.read? other).map .local

/-- What is said of a text that names no source. -/
def unknown (text : String) : String :=
  s!"unknown move source '{text}' (expected human, easy, medium, hard or solver)"

end MoveSource

/-- In a classic game every difficulty may be chosen, in the other mode only those unlocked. -/
inductive GameMode where
  | classic
  | unlock
  deriving DecidableEq, Repr

namespace GameMode

def name : GameMode → String
  | classic => "Classic"
  | unlock => "Unlock"

def toJson : GameMode → Json
  | classic => .str "classic"
  | unlock => .str "unlock"

/-- Reads a mode's name in any case. -/
def read? (text : String) : Option GameMode :=
  match Text.asciiLower text with
  | "classic" => some classic
  | "unlock" => some unlock
  | _ => none

/-- What is said of a text that names no mode. -/
def unknown (text : String) : String := s!"unknown mode '{Text.asciiLower text}'"

end GameMode
end Tabletop
