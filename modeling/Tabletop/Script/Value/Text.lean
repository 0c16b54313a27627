import Tabletop.Script.Value
import Tabletop.Number.Layout

/-!
Values as text. An array is its items with commas between them; one that is already being written,
or that stands 64 arrays deep, is empty. Writing stops once the text is longer than a limit.
-/

namespace Tabletop.Script

def Builtin.title : Builtin → String
  | parseInt => "ParseInt"
  | parseFloat => "ParseFloat"
  | string => "String"
  | number => "Number"
  | isNaN => "IsNaN"

namespace Memory

def functionName (memory : Memory) (id : Nat) : String :=
  match memory.closures[id]? with
  | some closure => closure.definition.name.getD ""
  | none => ""

/-- The text of a value that is no array. -/
def plainText (memory : Memory) : Value → String
  | .undefined => "undefined"
  | .null => "null"
  | .bool value => if value then "true" else "false"
  | .number value => Number.programText value
  | .str value => value
  | .array _ => ""
  | .object _ | .library _ => "[object Object]"
  | .function id => s!"function {memory.functionName id}()"
  | .builtin function => s!"function {function.title}()"

/-- Appends items by a writer of one, until the text is longer than the limit. -/
def writeItems (limit : Nat) (writeItem : String → Value → String) :
    (first : Bool) → (out : String) → List Value → String
  | _, out, [] => out
  | first, out, item :: rest =>
    if limit < out.utf8ByteSize then out
    else
      let out := if first then out else out.push ','
      let out := if item.isNullish then out else writeItem out item
      writeItems limit writeItem false out rest

/-- Appends a value's text; `levels` more arrays may be opened besides those in `opened`. -/
def write (memory : Memory) (limit : Nat) : (levels : Nat) → (opened : List Nat) →
    (out : String) → Value → String
  | levels, opened, out, .array id =>
    match levels with
    | 0 => out
    | inner + 1 =>
      if opened.contains id then out
      else
        writeItems limit (memory.write limit inner (id :: opened)) true out
          (memory.items id).toList
  | _, _, out, other => out ++ memory.plainText other

/-- Arrays are written this deep. -/
def renderDepth : Nat := 64

/-- A value's text, cut short soon after the limit. -/
def render (memory : Memory) (limit : Nat) (value : Value) : String :=
  memory.write limit renderDepth [] "" value

/-- Where the text of an array is cut short when no limit of the run applies. -/
def displayLimit : Nat := 4194304

/-- A value's text in messages and as a property key. -/
def display (memory : Memory) : Value → String
  | .array id => memory.render displayLimit (.array id)
  | other => memory.plainText other

end Memory

/-- A value's text, if it is no longer than a string may be. -/
def Limits.text (limits : Limits) (value : Value) : Run String := do
  let memory ← get
  let text := memory.render limits.maxStringLength value
  limits.checkString text.utf8ByteSize
  return text

end Tabletop.Script
