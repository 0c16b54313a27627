import Tabletop.Payload.Basic
import Tabletop.Json.Basic

/-!
Solvers: something that is sent a payload and answers with a position or fails.
-/

namespace Tabletop.Solver

/-- Where a solver is reached and how long its answer may take. -/
structure Settings where
  endpoint : String := "http://localhost:8000/quantum"
  timeout : Nat := 5000
  deriving DecidableEq, Repr

/-- Why an answer that came gives no position. -/
inductive Unusable where
  | missingReturn
  | notAnInteger (text : String)
  | notJson
  | other (text : String)
  deriving DecidableEq, Repr

def Unusable.message : Unusable → String
  | missingReturn => "missing 'return' field"
  | notAnInteger text => s!"'return' is not an integer: {text}"
  | notJson => "response body is not JSON"
  | other text => text

/-- No answer came, the server said that it failed, or its answer is of no use. -/
inductive Failure where
  | transport
  | server (status : Option Nat) (text : String)
  | semantic (reason : Unusable)
  deriving DecidableEq, Repr

def Failure.message : Failure → String
  | transport => "Server did not respond. Is the server running? (<library>)"
  | server _ text => s!"Server error: {text}"
  | semantic reason => s!"unusable solver reply: {reason.message}"

/-- A position with the assignment that it came from and what the solver says about it. -/
structure Reply where
  position : Int
  sample : Option (List (String × Float))
  explanation : Option Json

/-- What a solver makes of a payload. -/
abbrev Answer := Except Failure Reply

/-- A solver that cannot be reached. -/
def unreachable (_ : Payload) : Answer := .error .transport

end Tabletop.Solver
