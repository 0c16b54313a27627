import Tabletop.Script.Value.Text
import Tabletop.Script.Value.Number

/-!
Operators on two values.
-/

namespace Tabletop.Script

/-- Whether a value makes `+` join texts. -/
def Value.joinsText : Value → Bool
  | .str _ | .array _ | .object _ => true
  | _ => false

/-- Joins the texts of two values. -/
def joinTexts (limits : Limits) (left right : Value) : Run Value := do
  let first ← limits.text left
  let second ← limits.text right
  let text := first ++ second
  limits.checkString text.utf8ByteSize
  return .str text

def arithmetic (compute : Float → Float → Float) (left right : Value) : Run Value := do
  let a ← left.toNumber
  let b ← right.toNumber
  return .number (compute a b)

/-- Compares two strings by their characters and all else by numbers, of which NaN is in no order. -/
def compare (texts : String → String → Bool) (numbers : Float → Float → Bool)
    (left right : Value) : Run Value := do
  match left, right with
  | .str a, .str b => return .bool (texts a b)
  | _, _ =>
    let a ← left.toNumber
    let b ← right.toNumber
    return .bool (numbers a b)

def BinaryOp.apply (limits : Limits) (left right : Value) : BinaryOp → Run Value
  | add =>
    if left.joinsText || right.joinsText then joinTexts limits left right
    else arithmetic (· + ·) left right
  | sub => arithmetic (· - ·) left right
  | mul => arithmetic (· * ·) left right
  | div => arithmetic (· / ·) left right
  | rem => arithmetic Number.remainder left right
  | pow => arithmetic Float.pow left right
  | lt => compare (fun a b => a < b) (fun a b => a < b) left right
  | le => compare (fun a b => !(b < a)) (fun a b => a ≤ b) left right
  | gt => compare (fun a b => b < a) (fun a b => b < a) left right
  | ge => compare (fun a b => !(a < b)) (fun a b => b ≤ a) left right
  | looseEq => do
    let equal ← left.looseEq right
    return .bool equal
  | looseNe => do
    let equal ← left.looseEq right
    return .bool !equal
  | strictEq => return .bool (left.strictEq right)
  | strictNe => return .bool !(left.strictEq right)

end Tabletop.Script
