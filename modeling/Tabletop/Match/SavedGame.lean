import Tabletop.Board.Cells
import Tabletop.Json.Reader
import Tabletop.Json.Writer

/-!
Saved games: a board and the player to move, in one JSON file for each game.
-/

namespace Tabletop

structure SavedGame (Board : Type) where
  board : Board
  mover : Mark

namespace SavedGame
variable {Board : Type} [Rules Board]

def text (saved : SavedGame Board) : String :=
  (Json.obj [("board", Rules.save saved.board), ("mover", .str saved.mover.name)]).pretty

/-- What is looked at in a saved game's text. -/
def form (Board : Type) [Rules Board] : Json.Form :=
  .record [("board", .ofNames (Rules.savedFields Board)), ("mover", .whole)]

def read? (text : String) : Option (SavedGame Board) := do
  let json ← Json.readAs? (form Board) text
  let [some board, some mover] ← json.record? ["board", "mover"] | none
  let board ← Rules.load board
  let mover ← Mark.load? mover
  return ⟨board, mover⟩

end SavedGame

/-- What stands in the place of a game's saved file. The directory may be blocked, and instead of a
file there may be something that cannot be read or written. -/
inductive SaveFile where
  | absent
  | text (content : String)
  | unusable
  | blocked
  deriving DecidableEq, Repr

/-- Where a game is saved. -/
structure SavePlace where
  directory : String
  path : String
  deriving DecidableEq, Repr

/-- The path of a file in a directory, which may end in a slash; without a name it is the current
one. -/
def pathIn (directory name : String) : String :=
  match directory.toList.getLast? with
  | none | some '/' => directory ++ name
  | some _ => s!"{directory}/{name}"

def SavePlace.ofDirectory (directory : String) (kind : GameKind) : SavePlace :=
  ⟨directory, pathIn directory s!"{kind.slug}.json"⟩

/-- What the system refuses. -/
inductive FileProblem where
  | reading (path : String)
  | parsing (path : String)
  | removing (path : String)
  | writing (path : String)
  | creating (directory : String)
  deriving DecidableEq, Repr

def FileProblem.message : FileProblem → String
  | reading path => s!"reading snapshot {path}: <library>"
  | parsing path => s!"parsing snapshot {path}: <library>"
  | removing path => s!"removing snapshot {path}: <library>"
  | writing path => s!"writing snapshot {path}"
  | creating directory => s!"creating snapshot dir {directory}"

namespace SaveFile

/-- Writes a saved game; what stood there before is replaced. -/
def save (place : SavePlace) (content : String) : SaveFile → Except FileProblem SaveFile
  | absent | text _ => .ok (text content)
  | unusable => .error (.writing place.path)
  | blocked => .error (.creating place.directory)

/-- The saved game, none if nothing was saved. -/
def load {Board : Type} [Rules Board] (place : SavePlace) :
    SaveFile → Except FileProblem (Option (SavedGame Board))
  | absent | blocked => .ok none
  | unusable => .error (.reading place.path)
  | text content => match SavedGame.read? content with
    | some saved => .ok (some saved)
    | none => .error (.parsing place.path)

/-- Removes a saved game, and says whether there was one. -/
def clear (place : SavePlace) : SaveFile → Except FileProblem (SaveFile × Bool)
  | absent => .ok (absent, false)
  | blocked => .ok (blocked, false)
  | text _ => .ok (absent, true)
  | unusable => .error (.removing place.path)

/-- The text of a saved file. -/
def content? : SaveFile → Option String
  | text content => some content
  | _ => none

end SaveFile
end Tabletop
