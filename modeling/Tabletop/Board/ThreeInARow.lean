import Tabletop.Board.Cells
import Tabletop.Text.Basic

/-!
Three in a row on a grid of three by three.
-/

namespace Tabletop

structure ThreeInARow where
  cells : Cells 9
  deriving DecidableEq, Repr

namespace ThreeInARow

def opening : ThreeInARow := ⟨Vector.replicate 9 none⟩

/-- Rows, columns and diagonals. -/
def lines : List (List Nat) :=
  [[0, 1, 2], [3, 4, 5], [6, 7, 8], [0, 3, 6], [1, 4, 7], [2, 5, 8], [0, 4, 8], [2, 4, 6]]

/-- Center, corners, edges. -/
def preference : List Nat := [4, 0, 2, 6, 8, 1, 3, 5, 7]

def put (board : ThreeInARow) (index : Nat) (cell : Cell) : ThreeInARow :=
  ⟨board.cells.put index cell⟩

/-- A board drawn with letters; blanks are passed over, and other characters are empty cells. -/
def ofPicture (picture : String) : ThreeInARow :=
  let cellOf (c : Char) : Cell :=
    if c = 'X' ∨ c = 'x' then some .first
    else if c = 'O' ∨ c = 'o' then some .second
    else none
  let drawn := (picture.toList.filter fun c => !Text.isBlank c).take 9
  (drawn.map cellOf).zipIdx.foldl (fun board (cell, index) => board.put index cell) opening

def emptyCells (board : ThreeInARow) : List Nat :=
  (List.range 9).filter fun index => (board.cells.at? index).isNone

def isFull (board : ThreeInARow) : Bool := board.cells.all Option.isSome

def isWin (board : ThreeInARow) (mark : Mark) : Bool :=
  lines.any fun line => line.all (board.cells.holds mark)

def isDraw (board : ThreeInARow) : Bool :=
  board.isFull && !board.isWin .first && !board.isWin .second

def move (board : ThreeInARow) (position : Nat) (mover : Mark) :
    Except IllegalMove (ThreeInARow × Effect) :=
  if 9 ≤ position then .error (.outOfRange position)
  else if (board.cells.at? position).isSome then .error (.occupied position)
  else .ok (board.put position (some mover), .placed position)

def legal (board : ThreeInARow) (_mover : Mark) : List Nat :=
  if board.isWin .first || board.isWin .second then [] else board.emptyCells

def renderRow (board : ThreeInARow) (row : Nat) : String :=
  let cell (column : Nat) : String :=
    match board.cells.at? (row * 3 + column) with
    | some mark => mark.symbol
    | none => toString (row * 3 + column)
  " " ++ Text.joined " | " ((List.range 3).map cell) ++ "\n"

/-- The grid with the number of each empty cell. -/
def render (board : ThreeInARow) : String :=
  Text.joined "---+---+---\n" ((List.range 3).map board.renderRow)

instance : Rules ThreeInARow where
  kind := .threeInARow
  opening := opening
  move := move
  isWin := isWin
  isDraw := isDraw
  legal := legal
  preference := preference
  blocks board position mover := winsAt move isWin board position mover.opponent
  view board := board.cells.view
  render := render
  movesLeft board := board.cells.emptyCount
  save board := board.cells.save
  savedFields := Cells.savedFields
  load json := (Cells.load? 9 json).map ThreeInARow.mk

end ThreeInARow
end Tabletop
