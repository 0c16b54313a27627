import Tabletop.Payload.Basic
import Tabletop.Payload.Problem
import Tabletop.Payload.Formula.Grammar

/-!
The normal form of a payload: its formulas are trimmed, can be read and refer to declared names only,
and its variables make sense and expand to a bounded number of names. Everything else is refused, the
first problem in a fixed order being told.
-/

namespace Tabletop.Payload

def malformed (field : Field) (reason : Malformation) : Except Invalid Unit :=
  .error ⟨field, .malformed reason⟩

/-- A variable has a name, bounds that do not cross or a shape with cells, and not too many names. -/
def checkVariable (v : Variable) : Except Invalid Unit :=
  if Text.trimmed v.name = "" then malformed .unknowns .blankName
  else
    let checkSize :=
      if nameLimit < v.kind.size then malformed .unknowns (.tooManyNames v.name) else .ok ()
    match v.kind with
    | .unary lower upper =>
      if upper < lower then malformed .unknowns (.boundsCrossed v.name lower upper)
      else checkSize
    | .array shape _ =>
      if shape.size = 0 then malformed .unknowns (.emptyShape v.name shape) else checkSize
    | _ => checkSize

def checkVariables : Variables → Except Invalid Unit
  | [] => .ok ()
  | v :: rest => match checkVariable v with
    | .ok () => checkVariables rest
    | .error e => .error e

/-- A trimmed text that is not blank. -/
def nonBlank (field : Field) (text : String) : Except Invalid String :=
  let trimmed := Text.trimmed text
  if trimmed = "" then .error ⟨field, .blank⟩ else .ok trimmed

/-- A text is a formula over declared names; of several undeclared ones the first in order is told. -/
def checkFormula (declared : Names) (field : Field) (text : String) : Except Invalid Unit :=
  match Formula.read text with
  | .error e => .error ⟨field, .misread e⟩
  | .ok formula => match formula.names.find? fun name => !declared.contains name with
    | some name => .error ⟨field, .undeclared name⟩
    | none => .ok ()

/-- A constraint with its formula trimmed. -/
def normalConstraint (declared : Names) (index : Nat) (constraint : Constraint) :
    Except Invalid Constraint :=
  let field := Field.constraint index
  if !Number.isFinite constraint.rhs then .error ⟨field, .malformed .infiniteRhs⟩
  else match nonBlank field constraint.lhs with
    | .error e => .error e
    | .ok lhs => match checkFormula declared field lhs with
      | .error e => .error e
      | .ok () => .ok { constraint with lhs := lhs }

def normalConstraints (declared : Names) :
    (index : Nat) → List Constraint → Except Invalid (List Constraint)
  | _, [] => .ok []
  | index, constraint :: rest => match normalConstraint declared index constraint with
    | .error e => .error e
    | .ok constraint => match normalConstraints declared (index + 1) rest with
      | .ok constraints => .ok (constraint :: constraints)
      | .error e => .error e

/-- A payload's normal form, or the first problem that stands in its way. -/
def normalize (payload : Payload) : Except Invalid Payload := do
  if payload.unknowns.isEmpty then throw ⟨.unknowns, .empty⟩
  checkVariables payload.unknowns
  if nameLimit < payload.unknowns.size then malformed .unknowns .tooManyInAll
  let objective ← nonBlank .objective payload.objective
  let answer ← nonBlank .answer payload.answer
  let declared := Std.TreeSet.ofList payload.unknowns.declaredNames compare
  let constraints ← normalConstraints declared 0 payload.constraints
  checkFormula declared .objective objective
  checkFormula declared .answer answer
  return ⟨payload.unknowns, constraints, objective, answer⟩

end Tabletop.Payload
