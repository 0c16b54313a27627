import Tabletop.Scoring.Settings
import Tabletop.Scoring.Defaults
import Tabletop.Payload.Wire
import Tabletop.Script.Value.Json
import Tabletop.Script.Value.Number

/-!
Payloads from what a scoring program returns: an object that names a payload's fields, or one of
weights for single variables and for pairs of them.
-/

namespace Tabletop.Scoring

open Payload Script

abbrev Attempt := Except Failure

/-- The value under the first of several keys that an object has. -/
def field (entries : Entries) (keys : List String) : Value :=
  (keys.findSome? entries.get?).getD .undefined

/-- Every variable, and all of them together, expand to a bounded number of names. -/
def checkSizes (unknowns : Variables) : Attempt Unit :=
  match unknowns.find? fun v => nameLimit < v.kind.size with
  | some v => .error (.badVariable v.name (.tooManyNames nameLimit))
  | none =>
    if nameLimit < unknowns.size then
      .error (.badField "variables" (.tooManyNames nameLimit))
    else .ok ()

/-! ## Payload fields -/

/-- Declares the variables that an object's properties describe. -/
def declareAll (memory : Memory) (unknowns : Variables) :
    List (String × Value) → Attempt Variables
  | [] => .ok unknowns
  | (name, description) :: rest => match VariableKind.ofJson? (memory.toJson description) with
    | some kind => declareAll memory (unknowns.declare name kind) rest
    | none => .error (.badVariable name .unreadable)

def variablesOf (memory : Memory) : Value → Attempt Variables
  | .object id => declareAll memory [] (memory.entries id).toList
  | .undefined | .null => .ok []
  | other => .error (.badField "variables" (.expectedMapping other.kind))

def lhsOf (index : Nat) : Value → Attempt String
  | .str text => .ok text
  | .number n => .ok (Number.programText n)
  | other => .error (.badConstraint index (.lhsKind other.kind))

def comparisonOf (index : Nat) : Value → Attempt Comparator
  | .undefined | .null => .ok .eq
  | .str text => match Comparator.read? text with
    | some comparison => .ok comparison
    | none => .error (.badConstraint index (.unknownComparison text))
  | other => .error (.badConstraint index (.comparisonKind other.kind))

def rhsOf (index : Nat) : Value → Attempt Float
  | .number n => .ok n
  | .str text => match Number.readFloat? (Text.trim text.toList) with
    | some n => .ok n
    | none => .error (.badConstraint index (.rhsText text))
  | other => .error (.badConstraint index (.rhsKind other.kind))

def constraintOf (memory : Memory) (index : Nat) : Value → Attempt Constraint
  | .object id => do
    let entries := memory.entries id
    let lhs ← lhsOf index (field entries ["lhs"])
    let comparison ← comparisonOf index (field entries ["comparison"])
    let rhs ← rhsOf index (field entries ["rhs"])
    return ⟨lhs, comparison, rhs⟩
  | other => .error (.badConstraint index (.expectedMapping other.kind))

def constraintsFrom (memory : Memory) : (index : Nat) → List Value → Attempt (List Constraint)
  | _, [] => .ok []
  | index, value :: rest => do
    let constraint ← constraintOf memory index value
    let constraints ← constraintsFrom memory (index + 1) rest
    return constraint :: constraints

/-- A list of constraints; anything else is none. -/
def constraintsOf (memory : Memory) : Value → Attempt (List Constraint)
  | .array id => constraintsFrom memory 0 (memory.items id).toList
  | _ => .ok []

/-- A formula's text, none if nothing is said. -/
def formulaOf? (name : String) : Value → Attempt (Option String)
  | .undefined | .null => .ok none
  | .str text => .ok (if Text.trimmed text = "" then none else some text)
  | .number n => .ok (some (Number.programText n))
  | other => .error (.badField name (.expectedString other.kind))

/-- The payload that an object with a payload's fields describes. -/
def payloadOfFields (memory : Memory) (entries : Entries) : Attempt Payload := do
  let unknowns ← variablesOf memory (field entries ["variables"])
  if unknowns.isEmpty then throw .noVariables
  checkSizes unknowns
  let given ← constraintsOf memory (field entries ["Constraints", "constraints"])
  let constraints := if given.isEmpty then [exactlyOne unknowns] else given
  let objective ← formulaOf? "Objective" (field entries ["Objective", "objective"])
  let answer ← formulaOf? "Return" (field entries ["Return", "returnExpression"])
  return ⟨unknowns, constraints, objective.getD "0", answer.getD (defaultAnswer unknowns)⟩

/-! ## Weights -/

/-- The variable that a key of weights names: a number stands for the variable `x` of that number. -/
def weightName (key : String) : String :=
  let name := Text.trim key.toList
  if !name.isEmpty && name.all Char.isDigit then String.ofList ('x' :: name)
  else String.ofList name

def weightOf (memory : Memory) (group key : String) (value : Value) : Attempt Float :=
  match memory.numberOf? value with
  | some weight =>
    if Number.isFinite weight then .ok weight else .error (.badField group (.weight key))
  | none => .error (.badField group (.weight key))

/-- A weight times its variables; none for a weight of zero. -/
def weightTerm (weight : Float) (names : List String) : List String :=
  if weight == 0 then [] else [Text.joined " * " (Number.programText weight :: names)]

/-- Variables and terms so far, the last term first. -/
abbrev Weighed := Variables × List String

def singleWeights (memory : Memory) (so : Weighed) : List (String × Value) → Attempt Weighed
  | [] => .ok so
  | (key, value) :: rest => do
    let name := weightName key
    let weight ← weightOf memory "linear" key value
    singleWeights memory
      (so.1.declare name .binary, (weightTerm weight [name]).reverse ++ so.2) rest

/-- The two parts of a key around its first comma. -/
def pairOf? (key : String) : Option (String × String) :=
  let (left, right) := key.toList.span (· != ',')
  match right with
  | _ :: right => some (weightName (String.ofList left), weightName (String.ofList right))
  | [] => none

def declareNew (unknowns : Variables) (name : String) : Variables :=
  if (unknowns.kind? name).isSome then unknowns else unknowns.declare name .binary

def pairWeights (memory : Memory) (so : Weighed) : List (String × Value) → Attempt Weighed
  | [] => .ok so
  | (key, value) :: rest => match pairOf? key with
    | none => .error (.badField "quadratic" (.notAPair key))
    | some (a, b) => do
      let weight ← weightOf memory "quadratic" key value
      pairWeights memory
        (declareNew (declareNew so.1 a) b, (weightTerm weight [a, b]).reverse ++ so.2) rest

/-- An object's properties; another value has none. -/
def propertiesOf (memory : Memory) : Value → List (String × Value)
  | .object id => (memory.entries id).toList
  | _ => []

/-- The payload of weights, and whether a variable had to be made up because they name none. -/
def payloadOfWeights (memory : Memory) (entries : Entries) : Attempt (Payload × Bool) := do
  let single ← singleWeights memory ([], []) (propertiesOf memory (field entries ["linear"]))
  let (unknowns, back) ←
    pairWeights memory single (propertiesOf memory (field entries ["quadratic"]))
  checkSizes unknowns
  let objective := if back.isEmpty then "0" else Text.joined " + " back.reverse
  if unknowns.isEmpty then
    let made : Variables := [⟨"x0", .binary⟩]
    return (⟨made, [], objective, defaultAnswer made⟩, true)
  else return (⟨unknowns, [exactlyOne unknowns], objective, defaultAnswer unknowns⟩, false)

/-! ## Results -/

/-- Which kind of object a program returned. -/
inductive ResultShape where
  | weights
  | fields
  deriving DecidableEq, Repr

/-- The keys that make an object one of payload fields. -/
def fieldKeys : List String := spellings.flatten

def shapeOf? (entries : Entries) : Option ResultShape :=
  if fieldKeys.any entries.contains then some .fields
  else if entries.contains "linear" || entries.contains "quadratic" then some .weights
  else none

/-- The payload of a result, its shape, and whether a variable was made up. -/
def payloadOf (memory : Memory) : Value → Attempt (Payload × ResultShape × Bool)
  | .object id =>
    let entries := memory.entries id
    match shapeOf? entries with
    | some .fields => do
      let payload ← payloadOfFields memory entries
      return (payload, .fields, false)
    | some .weights => do
      let (payload, made) ← payloadOfWeights memory entries
      return (payload, .weights, made)
    | none => .error .unknownShape
  | other => .error (.notAMapping other.kind)

end Tabletop.Scoring
