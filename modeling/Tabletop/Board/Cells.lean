import Tabletop.Board.Basic
import Tabletop.Json.Shape

/-!
Grids of cells, each empty or held by a player, and their saved form.
-/

namespace Tabletop

/-- A cell: empty, or held by a player. -/
abbrev Cell := Option Mark

namespace Cell

def save : Cell → Json
  | some mark => .str mark.name
  | none => .null

/-- What a scoring program sees in a cell. -/
def view : Cell → Json
  | some mark => .str mark.symbol
  | none => .str ""

end Cell

def Mark.ofName? (name : String) : Option Mark :=
  if name = "First" then some .first else if name = "Second" then some .second else none

def Mark.load? (json : Json) : Option Mark := json.name?.bind Mark.ofName?

def Cell.load? (json : Json) : Option Cell :=
  if json.isNull then some none else (Mark.load? json).map some

/-- As many cells as `count`. -/
abbrev Cells (count : Nat) := Vector Cell count

namespace Cells
variable {count : Nat}

/-- The cell of an index; there is nothing outside the grid. -/
@[inline] def at? (cells : Cells count) (index : Nat) : Cell := (cells[index]?).join

/-- Whether a player holds the cell of an index. -/
@[inline] def holds (cells : Cells count) (mark : Mark) (index : Nat) : Bool :=
  match cells.at? index with
  | some holder => holder == mark
  | none => false

theorem holds_iff {cells : Cells count} {mark : Mark} {index : Nat} :
    cells.holds mark index ↔ cells.at? index = some mark := by
  unfold holds
  split <;> simp_all

def put (cells : Cells count) (index : Nat) (cell : Cell) : Cells count :=
  cells.setIfInBounds index cell

/-- How many cells are empty. -/
def emptyCount (cells : Cells count) : Nat := cells.toList.countP Option.isNone

def save (cells : Cells count) : Json := .obj [("cells", .arr (cells.toList.map Cell.save))]

def savedFields : List String := ["cells"]

def load? (count : Nat) (json : Json) : Option (Cells count) := do
  let [some saved] ← json.record? savedFields | none
  let cells ← saved.itemsWith? Cell.load?
  if sized : cells.length = count then
    return ⟨cells.toArray, by simpa using sized⟩
  else none

def view (cells : Cells count) : Json := .arr (cells.toList.map Cell.view)

end Cells
end Tabletop
