import Tabletop.Text.Basic

/-!
Files and directories found by their paths. A path is followed step by step from the working
directory or the root, and every step but the last has to lead through a directory.
-/

namespace Tabletop.Command

/-- Where names are counted from: the root, or so many levels above the working directory. -/
inductive Anchor where
  | root
  | above (levels : Nat)
  deriving DecidableEq, Repr

/-- A place that a path leads to: the names from an anchor down to it, the last first. -/
structure Location where
  anchor : Anchor
  names : List String
  deriving DecidableEq, Repr

namespace Location

/-- The directory around a place; the root stands in itself. -/
def parent : Location → Location
  | ⟨anchor, _ :: names⟩ => ⟨anchor, names⟩
  | ⟨.above levels, []⟩ => ⟨.above (levels + 1), []⟩
  | ⟨.root, []⟩ => ⟨.root, []⟩

def child (location : Location) (name : String) : Location :=
  { location with names := name :: location.names }

/-- Where one step of a path leads. -/
def enter (location : Location) (step : String) : Location :=
  if step = "" ∨ step = "." then location
  else if step = ".." then location.parent
  else location.child step

/-- Where a path starts. -/
def start (path : String) : Location :=
  if Text.startsWith ['/'] path.toList then ⟨.root, []⟩ else ⟨.above 0, []⟩

end Location

/-- The steps of a path, between its slashes. -/
def pathSteps (path : String) : List String :=
  (Text.splitOn ['/'] path.toList).map String.ofList

/-- Where a path leads if all its directories exist. -/
def Location.ofPath (path : String) : Location :=
  (pathSteps path).foldl enter (start path)

/-- The directories that steps lead through. -/
def Location.along : Location → (steps : List String) → List Location
  | _, [] => []
  | location, step :: rest => location :: along (location.enter step) rest

/-- Bytes in one name of a path. -/
def nameSize : Nat := 255

/-- Bytes in a path. -/
def pathSize : Nat := 4095

/-- The files, each with its text, and the directories. -/
structure Files where
  texts : List (Location × String)
  directories : List Location
  deriving DecidableEq, Repr

namespace Files

/-- Files by their paths, which lead through directories. -/
def ofTexts (texts : List (String × String)) : Files :=
  ⟨texts.map fun file => (.ofPath file.1, file.2),
    texts.flatMap fun file => (Location.start file.1).along (pathSteps file.1)⟩

def isFile (files : Files) (location : Location) : Bool :=
  files.texts.any fun file => file.1 = location

def isDirectory (files : Files) (location : Location) : Bool :=
  location.names.isEmpty || files.directories.contains location

/-- Why a path leads nowhere: a directory on it is missing, or it cannot be followed at all, since
there is a file on it or a name is too long. -/
inductive Obstacle where
  | missing
  | refused
  deriving DecidableEq, Repr

/-- Follows steps; each of them, the dots too, starts from a directory that exists. -/
def walk (files : Files) : Location → (steps : List String) → Except Obstacle Location
  | location, [] => .ok location
  | location, step :: rest =>
    if files.isDirectory location then
      if step.utf8ByteSize ≤ nameSize then walk files (location.enter step) rest
      else .error .refused
    else if files.isFile location then .error .refused
    else .error .missing

/-- Whether a text can be a path: it is not too long, and nothing in it ends it early. -/
def isPath (path : String) : Bool :=
  path.utf8ByteSize ≤ pathSize && !path.toList.contains '\x00'

/-- The place that a path leads to, whether or not something stands there. -/
def find? (files : Files) (path : String) : Option Location :=
  if isPath path then (files.walk (.start path) (pathSteps path)).toOption else none

/-- The text of a file. -/
def read? (files : Files) (path : String) : Option String :=
  (files.find? path).bind fun location => files.texts.lookup location

/-- Makes one directory, unless it exists. -/
def makeOne (files : Files) (start : Location) (steps : List String) : Except Obstacle Files :=
  match files.walk start steps with
  | .error obstacle => .error obstacle
  | .ok location =>
    if files.isDirectory location then .ok files
    else if files.isFile location then .error .refused
    else .ok { files with directories := location :: files.directories }

/-- Makes the first of several directories that lie in one another, and before it those around it if
it could not be made without them. Gives whether it exists then; what was made before a refusal stays. -/
def makeNested (files : Files) (start : Location) : List (List String) → Bool × Files
  | [] => (true, files)
  | steps :: around =>
    match files.makeOne start steps with
    | .ok files => (true, files)
    | .error .refused => (false, files)
    | .error .missing => match makeNested files start around with
      | (false, files) => (false, files)
      | (true, files) => match files.makeOne start steps with
        | .ok files => (true, files)
        | .error _ => (false, files)

/-- The steps to the directories around a directory, from the inside out. Dots are no directories of
their own, so that one at the end of a path asks for a directory that nothing makes. -/
def stepsAround (steps : List String) : List (List String) :=
  let named := steps.filter (· != ".")
  (List.range named.length).reverse.map named.take

/-- Makes a directory and those around it that are missing. Gives whether it exists then. -/
def makeDirectory (files : Files) (path : String) : Bool × Files :=
  if isPath path then
    let steps := (pathSteps path).filter (· != "")
    files.makeNested (.start path) (steps :: stepsAround steps)
  else (false, files)

/-- Puts a text into the place of a file. -/
def put (files : Files) (location : Location) (text : String) : Files :=
  { files with texts := (location, text) :: files.texts.filter fun file => file.1 != location }

/-- Writes a file into a directory that exists. -/
def write (files : Files) (path text : String) : Files :=
  match files.find? path with
  | some location => files.put location text
  | none => files

end Files
end Tabletop.Command
