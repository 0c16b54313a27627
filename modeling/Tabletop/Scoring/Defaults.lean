import Tabletop.Payload.Basic
import Tabletop.Number.Decimal

/-!
What a payload gets when the program does not say it: a constraint that selects exactly one member,
and an answer that is the selected member's number.
-/

namespace Tabletop.Scoring

open Payload

/-- The digits at the end of a name. -/
def trailingDigits (name : String) : List Char :=
  (name.toList.reverse.takeWhile Char.isDigit).reverse

/-- The number at the end of a name, if it is below 2^64. -/
def trailingIndex? (name : String) : Option Nat :=
  match trailingDigits name with
  | [] => none
  | digits => Number.natBelow? (Nat.pow 2 64) digits

/-- Members with their numbers as factors; one without a number counts by its place. -/
def numberedTerms : (place : Nat) → (members : List String) → List String
  | _, [] => []
  | place, member :: rest =>
    s!"{(trailingIndex? member).getD place} * {member}" :: numberedTerms (place + 1) rest

/-- The sum of the members, each times its number. -/
def defaultAnswer (unknowns : Variables) : String :=
  Text.joined " + " (numberedTerms 0 unknowns.selectors)

/-- Exactly one member is selected. -/
def exactlyOne (unknowns : Variables) : Constraint :=
  ⟨Text.joined " + " unknowns.selectors, .eq, 1⟩

end Tabletop.Scoring
