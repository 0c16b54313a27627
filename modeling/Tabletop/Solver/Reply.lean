import Tabletop.Solver.Basic
import Tabletop.Payload.Formula.Grammar
import Tabletop.Json.Writer

/-!
Interpreting a solver's reply. Only its position counts; a sample is checked against the payload's
answer, and what the check finds is a warning.
-/

namespace Tabletop.Solver

/-- A position spelled by a text: an integer, or a number that is whole and not too large. -/
def positionOfText? (text : String) : Option Int :=
  let chars := Text.trim text.toList
  match Number.readSigned64? chars with
  | some n => some n
  | none => (Number.readFloat? chars).bind Number.smallInt?

/-- The position that a reply's field holds. -/
def positionOf? : Json → Option Int
  | .int n => if -Nat.pow 2 63 ≤ n ∧ n < Nat.pow 2 63 then some n else none
  | .float x => Number.smallInt? x
  | .str text => positionOfText? text
  | _ => none

/-- The numbers of an assignment; other values are left out. -/
def sampleOf? : Json → Option (List (String × Float))
  | .obj fields => some (fields.filterMap fun (name, value) => value.float?.map fun x => (name, x))
  | _ => none

/-- Reads a reply, its fields by name. -/
def Reply.ofJson (body : Json) : Answer :=
  match body.field? "return" with
  | none => .error (.semantic .missingReturn)
  | some field => match positionOf? field with
    | none => .error (.semantic (.notAnInteger field.compact))
    | some position =>
      .ok ⟨position, (body.field? "sample").bind sampleOf?, body.field? "explanation"⟩

/-- What is odd about a reply that is taken all the same. -/
inductive Warning where
  | disagreement
  | notEvaluated
  deriving DecidableEq, Repr

def Warning.message : Warning → String
  | disagreement => "solver return disagrees with its sample"
  | notEvaluated => "could not re-evaluate return expression"

/-- A sample's value of a name; declared names are zero if it says nothing. -/
def sampleValue (declared : Payload.Names) (sample : List (String × Float)) (name : String) :
    Option Float :=
  match sample.lookup name with
  | some value => some value
  | none => if declared.contains name then some 0 else none

/-- Compares the position with the payload's answer under the sample. -/
def checkSample (payload : Payload) (sample : List (String × Float)) (position : Int) :
    Option Warning :=
  let declared := Std.TreeSet.ofList payload.unknowns.declaredNames compare
  match Payload.Formula.read payload.answer with
  | .error _ => some .notEvaluated
  | .ok formula => match formula.evaluate (sampleValue declared sample) with
    | .error _ => some .notEvaluated
    | .ok value => if Number.smallInt? value = some position then none else some .disagreement

def Reply.warning? (payload : Payload) (reply : Reply) : Option Warning :=
  reply.sample.bind fun sample => checkSample payload sample reply.position

end Tabletop.Solver
