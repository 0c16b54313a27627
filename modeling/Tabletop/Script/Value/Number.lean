import Tabletop.Script.Value
import Tabletop.Number.Decimal
import Tabletop.Text.Basic

/-!
Values as numbers and indexes, and equality that converts.
-/

namespace Tabletop.Script

/-- The number that a text spells, zero for a blank one. -/
def numberOfText (text : String) : Float :=
  match Text.trim text.toList with
  | [] => 0
  | chars => (Number.readFloat? chars).getD Number.nan

/-- The number of a value. An array with one item has that item's number; `arrays` bounds how many
stand inside one another, and beyond it there is no answer. -/
def Memory.number? (memory : Memory) : (arrays : Nat) → Value → Option Float
  | _, .undefined => some Number.nan
  | _, .null => some 0
  | _, .bool value => some (if value then 1 else 0)
  | _, .number value => some value
  | _, .str text => some (numberOfText text)
  | 0, .array _ => none
  | arrays + 1, .array id =>
    match (memory.items id).toList with
    | [] => some 0
    | [item] => memory.number? arrays item
    | _ => some Number.nan
  | _, _ => some Number.nan

/-- The number of a value; there is none for an array that holds itself. -/
def Memory.numberOf? (memory : Memory) (value : Value) : Option Float :=
  memory.number? (memory.arrays.size + 1) value

def Value.toNumber (value : Value) : Run Float := do
  let memory ← get
  match memory.numberOf? value with
  | some n => return n
  | none => throw .endlessNumber

/-- The whole number from 0 below 2^64 that a double holds. -/
def indexOfNumber? (number : Float) : Option Nat :=
  if 0 ≤ number && Number.isWhole number && number < 18446744073709551616 then
    some (Number.wholeInt number).toNat
  else none

/-- A value as an index: a whole number or the text of one. -/
def Value.index? : Value → Option Nat
  | .number n => indexOfNumber? n
  | .str text => (Number.readFloat? text.toList).bind indexOfNumber?
  | _ => none

/-- A number's whole part, no more than a bound. -/
def cappedNat (number : Float) (bound : Nat) : Nat :=
  if Number.isFinite number then min (Number.scaled number).wholePart bound else bound

/-- Whether `==` compares two values by their numbers. -/
def comparesNumbers : Value → Value → Bool
  | .number _, .str _ => true
  | .str _, .number _ => true
  | .bool _, _ => true
  | _, .bool _ => true
  | _, _ => false

/-- Equality with conversion. -/
def Value.looseEq (left right : Value) : Run Bool :=
  if left.isNullish || right.isNullish then return left.isNullish && right.isNullish
  else if comparesNumbers left right then do
    let a ← left.toNumber
    let b ← right.toNumber
    return a == b
  else return left.strictEq right

end Tabletop.Script
