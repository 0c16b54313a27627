import Tabletop.Script.Position

/-!
The limits of a run and the ways in which it can fail.
-/

namespace Tabletop.Script

/-- Limits of a run: steps, calls inside one another, bytes of a string, items of an array. -/
structure Limits where
  stepBudget : Nat := 100000
  maxCallDepth : Nat := 64
  maxStringLength : Nat := 1048576
  maxArrayLength : Nat := 100000
  deriving DecidableEq, Repr

/-- What a size limit is about. -/
inductive Measure where
  | stringLength
  | arrayLength
  deriving DecidableEq, Repr

def Measure.name : Measure → String
  | stringLength => "string length"
  | arrayLength => "array length"

/-- Why an operation has no answer. -/
inductive Cause where
  | notDefined (name : String)
  | notIterable (kind : String)
  | notAFunction (what : String)
  | cannotRead (value key : String)
  | cannotSetOnArray (key : String)
  | cannotSet (key kind : String)
  | invalidTarget
  | returnOutside
  | loopExitOutside
  | emptyReduce
  | randomUnavailable
  | invalidJson
  deriving DecidableEq, Repr

def Cause.message : Cause → String
  | notDefined name => s!"{name} is not defined"
  | notIterable kind => s!"{kind} is not iterable"
  | notAFunction what => s!"{what} is not a function"
  | cannotRead value key => s!"cannot read properties of {value} (reading '{key}')"
  | cannotSetOnArray key => s!"cannot set property '{key}' on an array"
  | cannotSet key kind => s!"cannot set property '{key}' on {kind}"
  | invalidTarget => "invalid assignment target"
  | returnOutside => "'return' outside of a function"
  | loopExitOutside => "'break' or 'continue' outside of a loop"
  | emptyReduce => "reduce of empty array with no initial value"
  | randomUnavailable => "Math.random is not available"
  | invalidJson => "JSON.parse: <library>"

/-- Why a run stops. An array that holds itself as its only item has no number. -/
inductive Fault where
  | runtime (cause : Cause)
  | stepBudget (limit : Nat)
  | callDepth (limit : Nat)
  | sizeLimit (measure : Measure) (limit : Nat)
  | endlessNumber
  deriving DecidableEq, Repr

def Fault.message : Fault → String
  | runtime cause => s!"runtime error: {cause.message}"
  | stepBudget limit => s!"step budget of {limit} exhausted"
  | callDepth limit => s!"call depth limit of {limit} exceeded"
  | sizeLimit measure limit => s!"{measure.name} would exceed the limit of {limit}"
  | endlessNumber => "runtime error: an array that holds itself has no number"

/-- Why a program text gives no result: it cannot be read, or its run fails. -/
inductive ScriptError where
  | unreadable (error : SourceError)
  | failed (fault : Fault)
  deriving DecidableEq, Repr

def ScriptError.message : ScriptError → String
  | unreadable error => error.message
  | failed fault => fault.message

end Tabletop.Script
