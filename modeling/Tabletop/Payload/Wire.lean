import Tabletop.Payload.Normal
import Tabletop.Json.Reader
import Tabletop.Json.Shape
import Tabletop.Json.Writer

/-!
Payloads as JSON text. Variables keep the order of their declaration, and reading is lenient: fields
have a second spelling, numbers stand for formulas, and constraints that are no list are none.
-/

namespace Tabletop.Payload

def ElementType.name : ElementType → String
  | binary => "Binary"
  | spin => "Spin"

def ElementType.ofName? : String → Option ElementType
  | "Binary" => some binary
  | "Spin" => some spin
  | _ => none

def Shape.toJson : Shape → Json
  | row length => .int length
  | grid rows columns => .arr [.int rows, .int columns]

def Shape.ofJson? : Json → Option Shape
  | .arr [rows, columns] => do
    let rows ← rows.unsigned? 64
    let columns ← columns.unsigned? 64
    return .grid rows columns
  | json => (json.unsigned? 64).map .row

namespace VariableKind

def toJson : VariableKind → Json
  | binary => .obj [("type", .str "Binary")]
  | spin => .obj [("type", .str "Spin")]
  | unary lower upper =>
    .obj [("type", .str "Unary"), ("lower", .int lower), ("upper", .int upper)]
  | array shape element =>
    .obj [("type", .str "Array"), ("shape", shape.toJson), ("vartype", .str element.name)]

/-- What follows the type's name in a record of an integer variable. -/
def unaryOf? : List (Option Json) → Option VariableKind
  | [_, some lower, some upper] => do
    let lower ← lower.signed64?
    let upper ← upper.signed64?
    return unary lower upper
  | _ => none

/-- What follows the type's name in a record of an array; its cells are binary if nothing is said. -/
def arrayOf? : List (Option Json) → Option VariableKind
  | [_, some shape, none] => (Shape.ofJson? shape).map (array · .binary)
  | [_, some shape, some element] => do
    let shape ← Shape.ofJson? shape
    let element ← element.nameOrEmpty?.bind ElementType.ofName?
    return array shape element
  | _ => none

/-- The name of a kind's type: its field, or the first item. -/
def typeName? : Json → Option String
  | .arr (type :: _) => type.str?
  | json => (json.field? "type").bind Json.str?

def ofJson? (json : Json) : Option VariableKind :=
  match typeName? json with
  | some "Binary" => (json.record? ["type"]).map fun _ => binary
  | some "Spin" => (json.record? ["type"]).map fun _ => spin
  | some "Unary" => (json.record? ["type", "lower", "upper"]).bind unaryOf?
  | some "Array" => (json.record? ["type", "shape", "vartype"]).bind arrayOf?
  | _ => none

end VariableKind

namespace Variables

def toJson (unknowns : Variables) : Json :=
  .obj (unknowns.map fun v => (v.name, v.kind.toJson))

/-- Declares one field after another; all have to be readable. -/
def ofFields? (unknowns : Variables) : List (String × Json) → Option Variables
  | [] => some unknowns
  | (name, json) :: rest => match VariableKind.ofJson? json with
    | some kind => ofFields? (declare unknowns name kind) rest
    | none => none

def ofJson? : Json → Option Variables
  | .obj fields => ofFields? [] fields
  | _ => none

/-- Reads a text that is one mapping of names to kinds. -/
def read? (text : String) : Option Variables := (Json.readAs? .whole text).bind ofJson?

end Variables

namespace Constraint

def toJson (constraint : Constraint) : Json :=
  .obj [("lhs", .str constraint.lhs), ("comparison", .str constraint.comparison.text),
    ("rhs", .ofNumber constraint.rhs)]

/-- The comparison of a constraint, equality if nothing is said. -/
def comparisonOf : Option Json → Except Malformation Comparator
  | none => .ok .eq
  | some (.str text) => match Comparator.read? text with
    | some comparison => .ok comparison
    | none => .error (.unknownComparison text)
  | some _ => .error .unreadable

/-- A constraint from its fields; of two problems the comparison's is told. -/
def ofFields (lhs comparison rhs : Option Json) : Except Malformation Constraint :=
  match comparisonOf comparison with
  | .error reason => .error reason
  | .ok comparison => match lhs.bind Json.str?, rhs.bind Json.float? with
    | some lhs, some rhs => .ok ⟨lhs, comparison, rhs⟩
    | _, _ => .error .unreadable

/-- Reads a constraint from an object with distinct fields, or from its fields' values in order. -/
def ofJson (json : Json) : Except Malformation Constraint :=
  match json with
  | .arr (.str lhs :: rest) => match rest with
    | [comparison, rhs] => ofFields (some (.str lhs)) (some comparison) (some rhs)
    | comparison :: _ => match comparisonOf (some comparison) with
      | .error reason => .error reason
      | .ok _ => .error .unreadable
    | [] => .error .unreadable
  | .obj _ => ofFields (json.field? "lhs") (json.field? "comparison") (json.field? "rhs")
  | _ => .error .unreadable

/-- Reads a list of constraints; the first that makes no sense is told. -/
def listOfJson : (index : Nat) → List Json → Except Invalid (List Constraint)
  | _, [] => .ok []
  | index, json :: rest => match ofJson json with
    | .error reason => .error ⟨.constraint index, .malformed reason⟩
    | .ok constraint => match listOfJson (index + 1) rest with
      | .ok constraints => .ok (constraint :: constraints)
      | .error e => .error e

end Constraint

/-- A payload with its fields in the order of the wire. -/
def toJson (payload : Payload) : Json :=
  .obj [("variables", payload.unknowns.toJson),
    ("Constraints", .arr (payload.constraints.map Constraint.toJson)),
    ("Objective", .str payload.objective), ("Return", .str payload.answer)]

/-- The text that is sent. -/
def text (payload : Payload) : String := payload.toJson.compact

/-- The text that is shown to people, the fields of objects by name. -/
def shownText (payload : Payload) : String := payload.toJson.sorted.pretty

/-- A formula's text; a number stands for its own. -/
def formulaOf (field : Field) : Json → Except Invalid String
  | .null => .error ⟨field, .blank⟩
  | .str text => .ok text
  | .int value => .ok (Json.int value).compact
  | .float value => .ok (Json.float value).compact
  | other => .error ⟨field, .malformed (.expectedString other.compact)⟩

/-- The spellings of a payload's fields. -/
def spellings : List (List String) :=
  [["variables"], ["Constraints", "constraints"], ["Objective", "objective"],
    ["Return", "returnExpression"]]

/-- The values of fields with several spellings, null for a missing one; none is given twice. -/
def spelled? (fields : List (String × Json)) : List (List String) → Option (List Json)
  | [] => some []
  | names :: rest => match fields.filter fun field => names.contains field.1 with
    | [] => (spelled? fields rest).map (.null :: ·)
    | [(_, json)] => (spelled? fields rest).map (json :: ·)
    | _ => none

/-- The values of a payload's fields, in the order of `spellings`. -/
def fieldsOf? : Json → Option (List Json)
  | .obj fields => spelled? fields spellings
  | .arr items =>
    if items.length ≤ spellings.length then
      some (items ++ List.replicate (spellings.length - items.length) .null)
    else none
  | _ => none

/-- What is looked at in a payload's text. -/
def form : Json.Form := .ofNames spellings.flatten

/-- The four fields of a payload's text, the variables already read. -/
def rawFields? (text : String) : Option (Variables × Json × Json × Json) :=
  match (Json.readAs? form text).bind fieldsOf? with
  | some [unknowns, constraints, objective, answer] =>
    let read := if unknowns.isNull then some [] else Variables.ofJson? unknowns
    read.map fun read => (read, constraints.sorted, objective.sorted, answer.sorted)
  | _ => none

/-- Reads a payload's text and normalizes it. -/
def normalizeText (text : String) : Except Invalid Payload :=
  match rawFields? text with
  | none => .error ⟨.unknowns, .malformed .unreadable⟩
  | some (unknowns, constraints, objective, answer) => do
    let constraints ← Constraint.listOfJson 0 (constraints.array?.getD [])
    let objective ← formulaOf .objective objective
    let answer ← formulaOf .answer answer
    normalize ⟨unknowns, constraints, objective, answer⟩

end Tabletop.Payload
