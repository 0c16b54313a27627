import Tabletop.Text.Basic

/-!
Constraints: a formula, a comparison and the number that it is compared with.
-/

namespace Tabletop.Payload

inductive Comparator where
  | eq
  | le
  | ge
  | ne
  deriving DecidableEq, Repr

namespace Comparator

def text : Comparator → String
  | eq => "="
  | le => "<="
  | ge => ">="
  | ne => "!="

/-- Reads a comparison; `==` and the typographic signs are other spellings. -/
def read? (text : String) : Option Comparator :=
  match Text.trimmed text with
  | "=" | "==" => some eq
  | "<=" | "≤" => some le
  | ">=" | "≥" => some ge
  | "!=" | "≠" => some ne
  | _ => none

def holds (left right : Float) : Comparator → Bool
  | eq => left == right
  | le => left ≤ right
  | ge => right ≤ left
  | ne => left != right

end Comparator

structure Constraint where
  lhs : String
  comparison : Comparator := .eq
  rhs : Float
  deriving BEq

end Tabletop.Payload
