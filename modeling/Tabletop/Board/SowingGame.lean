import Tabletop.Board.Basic
import Tabletop.Json.Shape
import Tabletop.Text.Basic

/-!
The sowing game: six pits and a store for each player. Seen by the mover, a seed goes round thirteen
slots: the own pits 0 to 5, the own store 6 and the other player's pits 7 to 12. Pit `i` of a player
faces pit `5 - i` of the other.
-/

namespace Tabletop

/-- A player's pits and store. -/
structure Row where
  pits : Vector Nat 6
  store : Nat
  deriving DecidableEq, Repr

structure SowingGame where
  first : Row
  second : Row
  deriving DecidableEq, Repr

namespace Row

def pit (row : Row) (index : Nat) : Nat := row.pits[index]?.getD 0

def setPit (row : Row) (index seeds : Nat) : Row :=
  { row with pits := row.pits.setIfInBounds index seeds }

def addStore (row : Row) (seeds : Nat) : Row := { row with store := row.store + seeds }

/-- One more seed in a pit. -/
def addToPit (row : Row) (index : Nat) : Row :=
  let ⟨pits, store⟩ := row
  let seeds := pits[index]?.getD 0
  ⟨pits.setIfInBounds index (seeds + 1), store⟩

theorem addToPit_eq_setPit (row : Row) (index : Nat) :
    row.addToPit index = row.setPit index (row.pit index + 1) := rfl

def inPits (row : Row) : Nat := row.pits.toList.foldr (· + ·) 0

def total (row : Row) : Nat := row.inPits + row.store

/-- How many slots all seeds of the pits are away from the store together. -/
def distance (row : Row) : Nat :=
  ((List.range 6).map fun index => (6 - index) * row.pit index).foldr (· + ·) 0

def isEmpty (row : Row) : Bool := row.pits.all (· == 0)

/-- All seeds of the pits go into the store. -/
def sweep (row : Row) : Row := ⟨Vector.replicate 6 0, row.store + row.inPits⟩

end Row

namespace SowingGame

def opening : SowingGame := ⟨⟨Vector.replicate 6 4, 0⟩, ⟨Vector.replicate 6 4, 0⟩⟩

/-- Pits near the store first. -/
def preference : List Nat := [5, 4, 3, 2, 1, 0]

def row (board : SowingGame) : Mark → Row
  | .first => board.first
  | .second => board.second

def setRow (board : SowingGame) (mark : Mark) (row : Row) : SowingGame :=
  match mark with
  | .first => { board with first := row }
  | .second => { board with second := row }

/-- Changes a player's row. -/
@[inline] def changeRow (board : SowingGame) (mark : Mark) (change : Row → Row) : SowingGame :=
  match mark, board with
  | .first, ⟨first, second⟩ => ⟨change first, second⟩
  | .second, ⟨first, second⟩ => ⟨first, change second⟩

theorem changeRow_eq_setRow (board : SowingGame) (mark : Mark) (change : Row → Row) :
    board.changeRow mark change = board.setRow mark (change (board.row mark)) := by
  cases mark <;> rfl

def total (board : SowingGame) : Nat := board.first.total + board.second.total

/-- How many seeds a player's store is ahead, as a 32-bit number. -/
def lead (board : SowingGame) (mark : Mark) : Int :=
  (Int32.ofNat (board.row mark).store - Int32.ofNat (board.row mark.opponent).store).toInt

theorem lead_eq_bmod (board : SowingGame) (mark : Mark) :
    board.lead mark =
      Int.bmod ((board.row mark).store - (board.row mark.opponent).store) (Nat.pow 2 32) := by
  simp [lead, Int32.toInt_sub, Int32.toInt_ofNat']

def isFinished (board : SowingGame) : Bool := board.first.isEmpty || board.second.isEmpty

/-- Once a row is empty, both players take what is left in their pits. -/
def settle (board : SowingGame) : SowingGame :=
  if board.isFinished then ⟨board.first.sweep, board.second.sweep⟩ else board

/-- The slot of the mover's store. -/
def storeSlot : Nat := 6

/-- Adds a seed to a slot. -/
def addSeed (board : SowingGame) (mover : Mark) (slot : Nat) : SowingGame :=
  if slot < 6 then board.changeRow mover (·.addToPit slot)
  else if slot = storeSlot then board.changeRow mover (·.addStore 1)
  else board.changeRow mover.opponent (·.addToPit (slot - 7))

/-- Drops seeds one by one into the slots after `last`; gives the slot of the last seed too. -/
def sow (mover : Mark) : (seeds last : Nat) → SowingGame → SowingGame × Nat
  | 0, last, board => (board, last)
  | seeds + 1, last, board =>
    let slot := (last + 1) % 13
    sow mover seeds slot (board.addSeed mover slot)

/-- A last seed in an own pit that was empty takes the seeds opposite, if there are any. -/
def capture (board : SowingGame) (mover : Mark) (last : Nat) : SowingGame × Nat :=
  let own := board.row mover
  let other := board.row mover.opponent
  let taken := other.pit (5 - last)
  if last < 6 ∧ own.pit last = 1 ∧ 0 < taken then
    let captured := taken + 1
    ((board.setRow mover ((own.setPit last 0).addStore captured)).setRow mover.opponent
      (other.setPit (5 - last) 0), captured)
  else (board, 0)

def move (board : SowingGame) (position : Nat) (mover : Mark) :
    Except IllegalMove (SowingGame × Effect) :=
  if 6 ≤ position then .error (.outOfRange position)
  else if board.isFinished then .error .gameOver
  else
    let own := board.row mover
    let seeds := own.pit position
    if seeds = 0 then .error (.emptyPit position)
    else
      let (sown, last) := sow mover seeds position (board.setRow mover (own.setPit position 0))
      let (after, captured) := sown.capture mover last
      .ok (after.settle, ⟨last, last == storeSlot, captured⟩)

def isWin (board : SowingGame) (mark : Mark) : Bool :=
  board.isFinished && (board.row mark.opponent).store < (board.row mark).store

def isDraw (board : SowingGame) : Bool :=
  board.isFinished && board.first.store == board.second.store

def legal (board : SowingGame) (mover : Mark) : List Nat :=
  if board.isFinished then []
  else (List.range 6).filter fun pit => 0 < (board.row mover).pit pit

/-- Whether one move ends the game in a player's favour. -/
def hasWinningMove (board : SowingGame) (mark : Mark) : Bool :=
  (board.legal mark).any fun position => winsAt move isWin board position mark

/-- Whether the other player could win at once and no longer can after the move. -/
def blocks (board : SowingGame) (position : Nat) (mover : Mark) : Bool :=
  board.hasWinningMove mover.opponent &&
    match board.move position mover with
    | .ok (after, _) => !after.hasWinningMove mover.opponent && !after.isWin mover.opponent
    | .error _ => false

/-- A number in two places at least. -/
def twoPlaces (n : Nat) : String := if n < 10 then s!" {n}" else toString n

/-- The board with the second player's pits on top, running to the left. -/
def render (board : SowingGame) : String :=
  let row (cells : List Nat) : String := Text.joined " " (cells.map twoPlaces)
  s!"      P2: {row board.second.pits.toList.reverse}\n" ++
    s!"[{twoPlaces board.second.store}]                      [{twoPlaces board.first.store}]\n" ++
    s!"      P1: {row board.first.pits.toList}\n" ++
    "           0  1  2  3  4  5\n"

def numbers (items : List Nat) : Json := .arr (items.map fun (n : Nat) => .int n)

/-- Each player's pits followed by the store. -/
def view (board : SowingGame) : Json :=
  numbers (board.first.pits.toList ++ board.first.store :: board.second.pits.toList ++
    [board.second.store])

def save (board : SowingGame) : Json :=
  .obj [("pits", .arr [numbers board.first.pits.toList, numbers board.second.pits.toList]),
    ("stores", numbers [board.first.store, board.second.store])]

def loadPits? (json : Json) : Option (Vector Nat 6) := do
  let pits ← json.itemsWith? (Json.unsigned? 32)
  if sized : pits.length = 6 then return ⟨pits.toArray, by simpa using sized⟩ else none

def savedFields : List String := ["pits", "stores"]

def load? (json : Json) : Option SowingGame := do
  let [some pits, some stores] ← json.record? savedFields | none
  let [first, second] ← pits.itemsWith? loadPits? | none
  let [firstStore, secondStore] ← stores.itemsWith? (Json.unsigned? 32) | none
  return ⟨⟨first, firstStore⟩, ⟨second, secondStore⟩⟩

/-- A move that takes no seed out of the pits brings its own seeds nearer to the store, and one that
does lowers the square more than all distances can grow. -/
def movesLeft (board : SowingGame) : Nat :=
  6 * Nat.pow (board.first.inPits + board.second.inPits) 2 + board.first.distance +
    board.second.distance

instance : Rules SowingGame where
  kind := .sowingGame
  opening := opening
  move := move
  isWin := isWin
  isDraw := isDraw
  legal := legal
  preference := preference
  blocks := blocks
  view := view
  render := render
  movesLeft := movesLeft
  save := save
  savedFields := savedFields
  load := load?

end SowingGame
end Tabletop
