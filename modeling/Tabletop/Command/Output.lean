import Tabletop.Command.Files
import Tabletop.Match.Settings

/-!
What commands write, and the files that they need.
-/

namespace Tabletop.Command

/-- Why a command fails, and what caused it. -/
structure Failure where
  message : String
  cause : Option String := none
  deriving DecidableEq, Repr

/-- A text with every line but the first moved in by four blanks. -/
def indented (text : String) : String :=
  String.ofList (text.toList.flatMap fun c =>
    if c = '\n' then ['\n', ' ', ' ', ' ', ' '] else [c])

/-- What is told about a failure. -/
def Failure.text (failure : Failure) : String :=
  match failure.cause with
  | none => s!"Error: {failure.message}\n"
  | some cause => s!"Error: {failure.message}\n\nCaused by:\n    {indented cause}\n"

/-- What is written for answers and for messages. -/
structure Written where
  out : String := ""
  err : String := ""
  deriving DecidableEq, Repr

namespace Written

def print (written : Written) (text : String) : Written :=
  { written with out := written.out ++ text }

def printLine (written : Written) (line : String) : Written := written.print (line ++ "\n")

def complain (written : Written) (text : String) : Written :=
  { written with err := written.err ++ text }

def complainLine (written : Written) (line : String) : Written := written.complain (line ++ "\n")

end Written

/-- A command that has ended: what it wrote, and its code. -/
structure Output where
  written : Written
  code : Nat
  deriving DecidableEq, Repr

/-- Ends a command, with a failure if there is one. -/
def finish (written : Written) : Option Failure → Output
  | none => ⟨written, 0⟩
  | some failure => ⟨written.complain failure.text, 1⟩

/-- The text of a file that a command needs. -/
def Files.demand (files : Files) (what path : String) : Except Failure String :=
  match files.read? path with
  | some text => .ok text
  | none => .error ⟨s!"reading {what} {path}", some "<library>"⟩

/-- The settings in a file, or the usual ones if none is named. -/
def Files.settings (files : Files) : Option String → Except Failure MatchSettings
  | none => .ok {}
  | some path => match MatchSettings.load path (files.read? path) with
    | .ok settings => .ok settings
    | .error problem => .error ⟨problem.message, some "<library>"⟩

end Tabletop.Command
