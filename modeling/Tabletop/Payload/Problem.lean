import Tabletop.Payload.Variable
import Tabletop.Payload.Formula.Token

/-!
What can be wrong with a payload, and in which of its fields.
-/

namespace Tabletop.Payload

inductive Field where
  | unknowns
  | constraint (index : Nat)
  | objective
  | answer
  deriving DecidableEq, Repr

def Field.name : Field → String
  | unknowns => "variables"
  | constraint index => s!"Constraints[{index}]"
  | objective => "Objective"
  | answer => "Return"

/-- Why a field's content makes no sense. -/
inductive Malformation where
  | unreadable
  | unknownComparison (text : String)
  | expectedString (text : String)
  | infiniteRhs
  | blankName
  | boundsCrossed (name : String) (lower upper : Int)
  | emptyShape (name : String) (shape : Shape)
  | tooManyNames (name : String)
  | tooManyInAll
  deriving DecidableEq, Repr

def Malformation.message : Malformation → String
  | unreadable => "<library>"
  | unknownComparison text => s!"unknown comparison '{text}'"
  | expectedString text => s!"expected a string, got {text}"
  | infiniteRhs => "rhs must be a finite number"
  | blankName => "variable names must not be blank"
  | boundsCrossed name lower upper =>
    s!"'{name}' has lower bound {lower} above upper bound {upper}"
  | emptyShape name shape => s!"'{name}' has empty shape {shape.text}"
  | tooManyNames name => s!"'{name}' expands to more than {nameLimit} names"
  | tooManyInAll => s!"variables expand to more than {nameLimit} names"

inductive Problem where
  | empty
  | blank
  | malformed (reason : Malformation)
  | misread (error : Formula.Misreading)
  | undeclared (name : String)
  deriving DecidableEq, Repr

/-- A problem and the field that has it. -/
structure Invalid where
  field : Field
  problem : Problem
  deriving DecidableEq, Repr

def Invalid.message (e : Invalid) : String :=
  match e.problem with
  | .empty => s!"{e.field.name} must not be empty"
  | .blank => s!"{e.field.name} must not be blank"
  | .malformed reason => s!"{e.field.name}: {reason.message}"
  | .misread error => s!"{e.field.name}: syntax error: {error.message}"
  | .undeclared name => s!"{e.field.name}: variable '{name}' is not declared"

end Tabletop.Payload
