import Tabletop.Script.Value.Text
import Tabletop.Script.Value.Number
import Tabletop.Text.Index

/-!
Reading and writing by key: items of arrays, characters of strings, properties of objects.
-/

namespace Tabletop.Script

/-- The character of a string at an index. -/
def charAt (text : String) (index : Nat) : Value :=
  match Text.at? text index with
  | some c => .str (String.singleton c)
  | none => .undefined

/-- What stands in a value under a key. -/
def getIndex (object key : Value) : Run Value := do
  let memory ← get
  match object with
  | .undefined | .null => fault (.cannotRead (memory.display object) (memory.display key))
  | .array id =>
    match key.index? with
    | some index => return (memory.items id)[index]?.getD .undefined
    | none =>
      if memory.display key == "length" then
        return .number (Float.ofNat (memory.items id).size)
      else return .undefined
  | .str text =>
    match key.index? with
    | some index => return charAt text index
    | none =>
      if memory.display key == "length" then return .number (Float.ofNat text.length)
      else return .undefined
  | .object id => return ((memory.entries id).get? (memory.display key)).getD .undefined
  | _ => return .undefined

def getProperty (object : Value) (name : String) : Run Value :=
  match object, name with
  | .library .math, "PI" => return .number 3.141592653589793
  | .library .math, "E" => return .number 2.718281828459045
  | _, _ => getIndex object (.str name)

/-- Writes an item; the gap behind a shorter array is undefined. -/
def writeItem (index : Nat) (value : Value) (items : Array Value) : Array Value :=
  if index < items.size then items.setIfInBounds index value
  else (items ++ Array.replicate (index - items.size) Value.undefined).push value

/-- Puts a value under a key. -/
def setIndex (limits : Limits) (object key value : Value) : Run Unit := do
  match object with
  | .array id =>
    match key.index? with
    | none =>
      let memory ← get
      fault (.cannotSetOnArray (memory.display key))
    | some index =>
      limits.checkArray (index + 1)
      modify (·.setItems id (writeItem index value))
  | .object id =>
    let name ← limits.text key
    modify (·.setEntries id (·.set name value))
  | other =>
    let memory ← get
    fault (.cannotSet (memory.display key) other.kind)

end Tabletop.Script
