import Tabletop.Number.Decimal
import Std.Data.TreeSet.Basic

/-!
Arithmetic formulas over named variables. A chain of terms or of factors is one node, and parentheses
and plus signs leave none, so a formula is only as deep as signs, powers and parentheses make it.
-/

namespace Tabletop.Payload

/-- How a term joins the sum before it. -/
inductive Joining where
  | add
  | sub
  deriving DecidableEq, Repr

/-- How a factor joins the product before it. -/
inductive Scaling where
  | mul
  | div
  deriving DecidableEq, Repr

def Joining.apply (total term : Float) : Joining → Float
  | .add => total + term
  | .sub => total - term

def Scaling.apply (total factor : Float) : Scaling → Float
  | .mul => total * factor
  | .div => total / factor

/-- Numbers stay exact; they are rounded when the formula is evaluated. -/
inductive Formula where
  | number (value : Number.Decimal)
  | reference (name : String)
  | neg (inner : Formula)
  | sum (first : Formula) (rest : List (Joining × Formula))
  | product (first : Formula) (rest : List (Scaling × Formula))
  | power (base exponent : Formula)

instance : Inhabited Formula := ⟨.number ⟨false, 0, 0⟩⟩

/-- Distinct names in order. -/
abbrev Names := Std.TreeSet String compare

namespace Formula

mutual
/-- Adds the names that a formula refers to. -/
def namesInto (names : Names) : Formula → Names
  | .number _ => names
  | .reference name => names.insert name
  | .neg inner => namesInto names inner
  | .sum first rest => namesOfTerms (namesInto names first) rest
  | .product first rest => namesOfFactors (namesInto names first) rest
  | .power base exponent => namesInto (namesInto names base) exponent
def namesOfTerms (names : Names) : List (Joining × Formula) → Names
  | [] => names
  | (_, term) :: rest => namesOfTerms (namesInto names term) rest
def namesOfFactors (names : Names) : List (Scaling × Formula) → Names
  | [] => names
  | (_, factor) :: rest => namesOfFactors (namesInto names factor) rest
end

/-- The names that a formula refers to, in order and each once. -/
def names (formula : Formula) : List String := (namesInto ∅ formula).toList

/-- A name that has no value. -/
structure NoValue where
  name : String
  deriving DecidableEq, Repr

def NoValue.message (e : NoValue) : String := s!"no value for '{e.name}'"

mutual
/-- The value of a formula; chains are folded from the left. -/
def evaluate (values : String → Option Float) : Formula → Except NoValue Float
  | .number value => .ok value.toFloat
  | .reference name => match values name with
    | some value => .ok value
    | none => .error ⟨name⟩
  | .neg inner => match evaluate values inner with
    | .ok value => .ok (-value)
    | .error e => .error e
  | .sum first rest => match evaluate values first with
    | .ok total => evaluateTerms values total rest
    | .error e => .error e
  | .product first rest => match evaluate values first with
    | .ok total => evaluateFactors values total rest
    | .error e => .error e
  | .power base exponent => match evaluate values base with
    | .error e => .error e
    | .ok base => match evaluate values exponent with
      | .ok exponent => .ok (base.pow exponent)
      | .error e => .error e
def evaluateTerms (values : String → Option Float) (total : Float) :
    List (Joining × Formula) → Except NoValue Float
  | [] => .ok total
  | (joining, term) :: rest => match evaluate values term with
    | .ok term => evaluateTerms values (joining.apply total term) rest
    | .error e => .error e
def evaluateFactors (values : String → Option Float) (total : Float) :
    List (Scaling × Formula) → Except NoValue Float
  | [] => .ok total
  | (scaling, factor) :: rest => match evaluate values factor with
    | .ok factor => evaluateFactors values (scaling.apply total factor) rest
    | .error e => .error e
end

end Formula
end Tabletop.Payload
