import Tabletop.Script.Library.Array
import Tabletop.Script.Value.Json
import Tabletop.Json.Reader

/-!
Functions of the global objects and methods of objects. There is no random number: a run depends on
the program and its arguments alone.
-/

namespace Tabletop.Script

def Library.name : Library → String
  | math => "Math"
  | object => "Object"
  | console => "console"
  | json => "JSON"
  | array => "Array"

/-- A member that a global object does not have. -/
def unknownMember (library : Library) (name : String) : Run Value :=
  fault (.notAFunction s!"{library.name}.{name}")

/-- Combines the numbers of all arguments. -/
def foldNumbers (combine : Float → Float → Float) (result : Float) : List Value → Run Value
  | [] => return .number result
  | value :: rest => do
    let number ← value.toNumber
    foldNumbers combine (combine result number) rest

def mathFunction (name : String) (arguments : List Value) : Run Value := do
  let x ← (argument arguments 0).toNumber
  match name with
  | "abs" => return .number x.abs
  | "floor" => return .number (Number.floor x)
  | "ceil" => return .number (Number.ceiling x)
  | "round" => return .number (Number.floor (x + 0.5))
  | "sqrt" => return .number x.sqrt
  | "trunc" => return .number (Number.truncate x)
  | "sign" => return .number (Number.sign x)
  | "pow" =>
    let y ← (argument arguments 1).toNumber
    return .number (x.pow y)
  | "min" => foldNumbers Number.lesser Number.infinity arguments
  | "max" => foldNumbers Number.greater (-Number.infinity) arguments
  | "random" => fault .randomUnavailable
  | _ => unknownMember .math name

/-- The properties of an object, or the items of an array under their indexes, which have 64 bits. -/
def Memory.entriesOf (memory : Memory) : Value → List (String × Value)
  | .object id => (memory.entries id).toList
  | .array id =>
    (memory.items id).toList.zipIdx.map fun (item, index) => (toString index.toUInt64, item)
  | _ => []

/-- Writes properties into an object one after another. -/
def setAll (entries : Entries) (added : List (String × Value)) : Entries :=
  added.foldl (fun entries (key, value) => entries.set key value) entries

/-- Copies the properties of objects into an object. -/
def assignAll (target : Nat) : List Value → Run Unit
  | [] => return ()
  | .object source :: rest => do
    let memory ← get
    let added := (memory.entries source).toList
    modify (·.setEntries target (setAll · added))
    assignAll target rest
  | _ :: rest => assignAll target rest

/-- One new array for each property, its key and its value. -/
def newPairs (back : Array Value) : List (String × Value) → Run (Array Value)
  | [] => return back
  | (key, value) :: rest => do
    let pair ← newArray #[.str key, value]
    newPairs (back.push pair) rest

def objectFunction (name : String) (arguments : List Value) : Run Value := do
  let target := argument arguments 0
  let memory ← get
  let entries := memory.entriesOf target
  match name with
  | "keys" => newArray (entries.map fun entry => Value.str entry.1).toArray
  | "values" => newArray (entries.map (·.2)).toArray
  | "entries" =>
    let pairs ← newPairs #[] entries
    newArray pairs
  | "assign" =>
    match target with
    | .object id =>
      assignAll id arguments.tail
      return target
    | _ => return target
  | _ => unknownMember .object name

def consoleFunction (limits : Limits) (name : String) (arguments : List Value) : Run Value := do
  if ["log", "info", "warn", "error", "debug"].contains name then
    let memory ← get
    let line := Text.joined " " (arguments.map memory.consoleText)
    limits.checkString line.utf8ByteSize
    limits.log line
    return .undefined
  else unknownMember .console name

/-- Whether a value has no JSON text of its own. -/
def Value.lacksJson : Value → Bool
  | .undefined | .function _ | .builtin _ => true
  | _ => false

def jsonFunction (limits : Limits) (name : String) (arguments : List Value) : Run Value := do
  let value := argument arguments 0
  match name with
  | "stringify" =>
    if value.lacksJson then return .undefined
    else
      let memory ← get
      let text := (memory.toJson value).compact
      limits.checkString text.utf8ByteSize
      return .str text
  | "parse" =>
    let text ← limits.text value
    match Json.read? text with
    | some json => ofJson json
    | none => fault .invalidJson
  | _ => unknownMember .json name

def Value.isArray : Value → Bool
  | .array _ => true
  | _ => false

def Library.call (limits : Limits) (name : String) (arguments : List Value) : Library → Run Value
  | math => mathFunction name arguments
  | object => objectFunction name arguments
  | console => consoleFunction limits name arguments
  | json => jsonFunction limits name arguments
  | array =>
    match name with
    | "isArray" => return .bool (argument arguments 0).isArray
    | _ => unknownMember .array name

def objectMethod (id : Nat) (name : String) (arguments : List Value) : Run Value := do
  let memory ← get
  match name with
  | "hasOwnProperty" =>
    return .bool ((memory.entries id).contains (memory.display (argument arguments 0)))
  | "update" =>
    assignAll id [argument arguments 0]
    return .undefined
  | _ => fault (.notAFunction name)

/-- Calls a method of a value. -/
def callMethod (limits : Limits) (call : Caller) (receiver : Value) (name : String)
    (arguments : List Value) : Run Value := do
  match receiver with
  | .library library => library.call limits name arguments
  | .array id => arrayMethod limits call id name arguments
  | .str text => stringMethod limits text name arguments
  | .number number => numberMethod number name arguments
  | .object id => objectMethod id name arguments
  | .undefined | .null =>
    let memory ← get
    fault (.cannotRead (memory.display receiver) name)
  | _ => fault (.notAFunction name)

end Tabletop.Script
