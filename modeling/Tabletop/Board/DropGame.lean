import Tabletop.Board.Cells
import Tabletop.Text.Basic

/-!
Four in a row on seven columns of six cells. Cells are numbered row by row from the top, and a piece
falls to the lowest empty cell of its column.
-/

namespace Tabletop

structure DropGame where
  cells : Cells 42
  deriving DecidableEq, Repr

namespace DropGame

def columns : Nat := 7
def rows : Nat := 6

def opening : DropGame := ⟨Vector.replicate 42 none⟩

/-- The row and column steps of the four kinds of line. -/
def axes : List (Int × Int) := [(0, 1), (1, 0), (1, 1), (1, -1)]

def preference : List Nat := [3, 2, 4, 1, 5, 0, 6]

/-- The cell of a row and a column; there is nothing outside the grid. -/
def cell (board : DropGame) (row column : Nat) : Cell :=
  if row < rows ∧ column < columns then board.cells.at? (row * columns + column) else none

/-- Whether a player holds the cell of a row and a column. -/
def holds (board : DropGame) (mark : Mark) (row column : Nat) : Bool :=
  row < rows && column < columns && board.cells.holds mark (row * columns + column)

/-- Whether a row and a column, either of which may lie outside, are in the grid. -/
def inGrid (row column : Int) : Bool := 0 ≤ row && row < rows && 0 ≤ column && column < columns

def put (board : DropGame) (index : Nat) (cell : Cell) : DropGame := ⟨board.cells.put index cell⟩

/-- The lowest empty row of a column with room. -/
def landingRow (board : DropGame) (column : Nat) : Option Nat :=
  if column < columns then
    [5, 4, 3, 2, 1, 0].find? fun row => (board.cell row column).isNone
  else none

def isFull (board : DropGame) : Bool :=
  (List.range columns).all fun column => (board.landingRow column).isNone

/-- How many cells in a row, from the next one on, a player holds in one direction. -/
def runBeyond (board : DropGame) (mark : Mark) (step : Int × Int) :
    (reach : Nat) → (row column : Int) → Nat
  | 0, _, _ => 0
  | reach + 1, row, column =>
    let row := row + step.1
    let column := column + step.2
    if inGrid row column && board.holds mark row.toNat column.toNat then
      runBeyond board mark step reach row column + 1
    else 0

/-- The length of a player's run through a cell, which is counted whoever holds it. -/
def runLength (board : DropGame) (row column : Nat) (axis : Int × Int) (mark : Mark) : Nat :=
  1 + board.runBeyond mark axis 7 row column + board.runBeyond mark (-axis.1, -axis.2) 7 row column

/-- Whether the piece in a cell is part of four in a row. -/
def winsThrough (board : DropGame) (index : Nat) (mark : Mark) : Bool :=
  board.cells.holds mark index &&
    axes.any fun axis => 4 ≤ board.runLength (index / columns) (index % columns) axis mark

def isWin (board : DropGame) (mark : Mark) : Bool :=
  (List.range 42).any fun index => board.winsThrough index mark

def isDraw (board : DropGame) : Bool :=
  board.isFull && !board.isWin .first && !board.isWin .second

/-- Any cell of a column stands for the column. -/
def move (board : DropGame) (position : Nat) (mover : Mark) :
    Except IllegalMove (DropGame × Effect) :=
  if 42 ≤ position then .error (.outOfRange position)
  else if board.isWin .first || board.isWin .second then .error .gameOver
  else
    let column := position % columns
    match board.landingRow column with
    | none => .error (.columnFull column)
    | some row =>
      let index := row * columns + column
      .ok (board.put index (some mover), .placed index)

/-- Plays drops one after another from the empty grid. -/
def ofDrops (drops : List (Nat × Mark)) : Except IllegalMove DropGame :=
  drops.foldlM (fun board (column, mark) => (board.move column mark).map (·.1)) opening

def legal (board : DropGame) (_mover : Mark) : List Nat :=
  if board.isWin .first || board.isWin .second then []
  else (List.range columns).filter fun column => (board.landingRow column).isSome

def renderRow (board : DropGame) (row : Nat) : String :=
  let cell (column : Nat) : String :=
    match board.cell row column with
    | some mark => mark.symbol ++ "|"
    | none => ".|"
  "|" ++ String.join ((List.range columns).map cell) ++ "\n"

def render (board : DropGame) : String :=
  String.join ((List.range rows).map board.renderRow) ++ " 0 1 2 3 4 5 6\n"

def blocks (board : DropGame) (position : Nat) (mover : Mark) : Bool :=
  winsAt move isWin board position mover.opponent

instance : Rules DropGame where
  kind := .dropGame
  opening := opening
  move := move
  isWin := isWin
  isDraw := isDraw
  legal := legal
  preference := preference
  blocks := blocks
  view board := board.cells.view
  render := render
  movesLeft board := board.cells.emptyCount
  save board := board.cells.save
  savedFields := Cells.savedFields
  load json := (Cells.load? 42 json).map DropGame.mk

end DropGame
end Tabletop
