import Tabletop.Script.Value.Text
import Tabletop.Json.Writer

/-!
Values from JSON and back. Going to JSON, functions, undefined and infinite numbers become null, and
so does what stands deeper than 64 levels or comes after the first million values.
-/

namespace Tabletop.Script

mutual
/-- A fresh copy of a JSON tree in memory. -/
def ofJson : Json → Run Value
  | .null => return .null
  | .bool value => return .bool value
  | .int value => return .number (Float.ofInt value)
  | .float value => return .number value
  | .str value => return .str value
  | .arr items => do
    let values ← ofItems #[] items
    newArray values
  | .obj fields => do
    let entries ← ofFields #[] fields
    newObject entries
def ofItems (back : Array Value) : List Json → Run (Array Value)
  | [] => return back
  | item :: rest => do
    let value ← ofJson item
    ofItems (back.push value) rest
def ofFields (back : Entries) : List (String × Json) → Run Entries
  | [] => return back
  | (name, field) :: rest => do
    let value ← ofJson field
    ofFields (back.set name value) rest
end

/-- Converts items in turn, each with the number of values that the ones before it left. -/
def convertItems {α : Type} (convert : Nat → α → Json × Nat) :
    (budget : Nat) → (back : List Json) → List α → List Json × Nat
  | budget, back, [] => (back.reverse, budget)
  | budget, back, item :: rest =>
    let (json, left) := convert budget item
    convertItems convert left (json :: back) rest

/-- A value as JSON, `levels` deep and with `budget` values at most; gives what is left of them. -/
def Memory.toJsonWithin (memory : Memory) : (levels budget : Nat) → Value → Json × Nat
  | 0, budget, _ => (.null, budget)
  | _, 0, _ => (.null, 0)
  | levels + 1, budget + 1, value =>
    match value with
    | .bool value => (.bool value, budget)
    | .number value => (Json.ofNumber value, budget)
    | .str value => (.str value, budget)
    | .array id =>
      let (items, left) :=
        convertItems (memory.toJsonWithin levels) budget [] (memory.items id).toList
      (.arr items, left)
    | .object id =>
      let entries := (memory.entries id).toList
      let (values, left) :=
        convertItems (memory.toJsonWithin levels) budget [] (entries.map (·.2))
      (Json.object ((entries.map (·.1)).zip values), left)
    | _ => (.null, budget)

def jsonLevels : Nat := 65
def jsonBudget : Nat := 1000000

def Memory.toJson (memory : Memory) (value : Value) : Json :=
  (memory.toJsonWithin jsonLevels jsonBudget value).1

/-- A value's text on the console. -/
def Memory.consoleText (memory : Memory) : Value → String
  | .array id => (memory.toJson (.array id)).compact
  | .object id => (memory.toJson (.object id)).compact
  | other => memory.display other

end Tabletop.Script
