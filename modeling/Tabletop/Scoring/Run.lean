import Tabletop.Scoring.Result
import Tabletop.Script.Session

/-!
Running a scoring program: its text is read, loaded into fresh memory, and its entry function is
called with the board, so that runs share nothing.
-/

namespace Tabletop.Scoring

open Script

/-- What a successful run gives. -/
structure Outcome where
  payload : Payload
  shape : ResultShape
  /-- Whether a variable was made up because the program named none. -/
  placeholder : Bool
  /-- The lines on the console, the first one first. -/
  trace : List String
  steps : Nat

/-- Loads a program and calls its entry function with a board. -/
def callEntry (settings : Settings) (program : Program) (board : Json) : Script.Run Value := do
  load settings.toLimits program
  let argument ← ofJson board
  callGlobal settings.toLimits settings.entry [argument]

/-- What the end of a run gives. -/
def outcomeOf : EStateM.Result Fault Memory Value → Attempt Outcome
  | .error fault _ => .error (.script (.failed fault))
  | .ok value memory => match payloadOf memory value with
    | .error failure => .error failure
    | .ok (payload, shape, placeholder) =>
      .ok ⟨payload, shape, placeholder, memory.lines, memory.steps⟩

/-- Runs a program's text on a board. -/
def run (settings : Settings) (source : String) (board : Json) : Attempt Outcome :=
  if Text.trimmed source = "" then .error .emptyProgram
  else match Program.read source with
    | .error e => .error (.script (.unreadable e))
    | .ok program =>
      if (program.function? settings.entry).isNone then .error (.missingEntry settings.entry)
      else outcomeOf (callEntry settings program board Memory.fresh)

end Tabletop.Scoring
