import Tabletop.Script.Fault

/-!
How scoring programs are run, and the ways in which they fail to give a payload.
-/

namespace Tabletop.Scoring

/-- The limits of a run and the name of the function that is called. -/
structure Settings extends Script.Limits where
  entry : String := "createQuboForSingleMove"
  deriving DecidableEq, Repr

/-- Why a variable's description is refused. -/
inductive BadVariable where
  | unreadable
  | tooManyNames (limit : Nat)
  deriving DecidableEq, Repr

def BadVariable.message : BadVariable → String
  | unreadable => "<library>"
  | tooManyNames limit => s!"expands to more than {limit} names"

/-- Why a constraint is refused; kinds are those of values. -/
inductive BadConstraint where
  | expectedMapping (kind : String)
  | lhsKind (kind : String)
  | unknownComparison (text : String)
  | comparisonKind (kind : String)
  | rhsText (text : String)
  | rhsKind (kind : String)
  deriving DecidableEq, Repr

def BadConstraint.message : BadConstraint → String
  | expectedMapping kind => s!"expected a mapping, got {kind}"
  | lhsKind kind => s!"lhs must be a string, got {kind}"
  | unknownComparison text => s!"unknown comparison '{text}'"
  | comparisonKind kind => s!"comparison must be a string, got {kind}"
  | rhsText text => s!"rhs '{text}' is not a number"
  | rhsKind kind => s!"rhs must be a number, got {kind}"

/-- Why a field of the result is refused. -/
inductive BadField where
  | expectedMapping (kind : String)
  | expectedString (kind : String)
  | tooManyNames (limit : Nat)
  | weight (key : String)
  | notAPair (key : String)
  deriving DecidableEq, Repr

def BadField.message : BadField → String
  | expectedMapping kind => s!"expected a mapping, got {kind}"
  | expectedString kind => s!"expected a string, got {kind}"
  | tooManyNames limit => s!"variables expand to more than {limit} names"
  | weight key => s!"weight for '{key}' is not a number"
  | notAPair key => s!"key '{key}' is not an 'a,b' pair"

/-- Why a scoring program gives no payload. -/
inductive Failure where
  | emptyProgram
  | missingEntry (name : String)
  | script (error : Script.ScriptError)
  | notAMapping (kind : String)
  | unknownShape
  | noVariables
  | badVariable (name : String) (reason : BadVariable)
  | badConstraint (index : Nat) (reason : BadConstraint)
  | badField (field : String) (reason : BadField)
  deriving DecidableEq, Repr

def Failure.message : Failure → String
  | emptyProgram => "no program code found"
  | missingEntry name => s!"function '{name}' not found"
  | script error => error.message
  | notAMapping kind => s!"program must return a payload object, got {kind}"
  | unknownShape => "payload has neither 'variables' nor 'linear'/'quadratic'"
  | noVariables => "no variables defined"
  | badVariable name reason => s!"invalid variable '{name}': {reason.message}"
  | badConstraint index reason => s!"invalid constraint #{index}: {reason.message}"
  | badField field reason => s!"invalid {field}: {reason.message}"

end Tabletop.Scoring
