import Mathlib
import Tabletop.Payload.Constraint
import Tabletop.Proofs.Payload.Texts

/-!
Formulas and constraints in exact integer arithmetic. A formula has a value there as long as its numbers,
quotients and powers are integers, which those of written sums of products always are.
-/

namespace Tabletop

namespace Number

/-- The integer that a decimal number is, if it is one. -/
def Decimal.toInt? (d : Decimal) : Option Int :=
  let places := Nat.pow 10 d.exponent.natAbs
  if 0 ≤ d.exponent then some (signed d.negative (d.digits * places))
  else if d.digits % places = 0 then some (signed d.negative (d.digits / places))
  else none

end Number

namespace Payload

def Joining.exactly (total term : Int) : Joining → Int
  | .add => total + term
  | .sub => total - term

/-- Division has to leave no remainder. -/
def Scaling.exactly? (total factor : Int) : Scaling → Option Int
  | .mul => some (total * factor)
  | .div => if factor ≠ 0 ∧ total % factor = 0 then some (total / factor) else none

/-- The exponent must not be negative. -/
def exactPower? (base exponent : Int) : Option Int :=
  if 0 ≤ exponent then some (base ^ exponent.toNat) else none

namespace Formula

mutual
/-- The value of a formula in integer arithmetic; chains are folded from the left. -/
def exactValue (values : String → Int) : Formula → Option Int
  | .number value => value.toInt?
  | .reference name => some (values name)
  | .neg inner => (exactValue values inner).map fun value => -value
  | .sum first rest => (exactValue values first).bind fun total => exactTerms values total rest
  | .product first rest => (exactValue values first).bind fun total => exactFactors values total rest
  | .power base exponent => (exactValue values base).bind fun base =>
      (exactValue values exponent).bind fun exponent => exactPower? base exponent
def exactTerms (values : String → Int) (total : Int) : List (Joining × Formula) → Option Int
  | [] => some total
  | (joining, term) :: rest => (exactValue values term).bind fun term =>
      exactTerms values (joining.exactly total term) rest
def exactFactors (values : String → Int) (total : Int) : List (Scaling × Formula) → Option Int
  | [] => some total
  | (scaling, factor) :: rest => (exactValue values factor).bind fun factor =>
      (scaling.exactly? total factor).bind fun total => exactFactors values total rest
end

variable {values : String → Int}

theorem exactValue_nat (n : Nat) : exactValue values (.number ⟨false, n, 0⟩) = some (n : Int) := by
  simp [exactValue, Number.Decimal.toInt?, Number.signed]

@[simp] theorem exactValue_ofInt (n : Int) : exactValue values (ofInt n) = some n := by
  cases n with
  | ofNat n => exact exactValue_nat n
  | negSucc n =>
    rw [ofInt, exactValue, exactValue_nat]
    rfl

@[simp] theorem exactValue_reference (name : String) :
    exactValue values (.reference name) = some (values name) := rfl

theorem exactTerms_add {rest : List Formula} {terms : List Int}
    (evaluated : List.Forall₂ (fun formula n => exactValue values formula = some n) rest terms)
    (total : Int) : exactTerms values total (rest.map (.add, ·)) = some (total + terms.sum) := by
  induction evaluated generalizing total with
  | nil => simp [exactTerms]
  | cons term _ of_rest => simp [exactTerms, term, of_rest, Joining.exactly, Int.add_assoc]

theorem exactFactors_mul {rest : List Formula} {factors : List Int}
    (evaluated : List.Forall₂ (fun formula n => exactValue values formula = some n) rest factors)
    (total : Int) : exactFactors values total (rest.map (.mul, ·)) = some (total * factors.prod) := by
  induction evaluated generalizing total with
  | nil => simp [exactFactors]
  | cons factor _ of_rest => simp [exactFactors, factor, of_rest, Scaling.exactly?, Int.mul_assoc]

/-- A sum has the sum of its terms' values. -/
theorem exactValue_sumOf {first : Formula} {n : Int} {rest : List Formula} {terms : List Int}
    (evaluated : exactValue values first = some n)
    (others : List.Forall₂ (fun formula n => exactValue values formula = some n) rest terms) :
    exactValue values (sumOf first rest) = some (n + terms.sum) := by
  have chained := exactTerms_add others n
  cases rest with
  | nil =>
    cases others
    simpa [sumOf, chainOf] using evaluated
  | cons next rest => rwa [sumOf, chainOf, exactValue, evaluated]

/-- A product has the product of its factors' values. -/
theorem exactValue_productOf {first : Formula} {n : Int} {rest : List Formula} {factors : List Int}
    (evaluated : exactValue values first = some n)
    (others : List.Forall₂ (fun formula n => exactValue values formula = some n) rest factors) :
    exactValue values (productOf first rest) = some (n * factors.prod) := by
  have chained := exactFactors_mul others n
  cases rest with
  | nil =>
    cases others
    simpa [productOf, chainOf] using evaluated
  | cons next rest => rwa [productOf, chainOf, exactValue, evaluated]

/-- A text is a formula that has a value. -/
def Reads (text : String) (values : String → Int) (value : Int) : Prop :=
  ∃ formula, read text = .ok formula ∧ exactValue values formula = some value

theorem Reads.unique {text : String} {value other : Int} (reads : Reads text values value)
    (again : Reads text values other) : value = other := by
  obtain ⟨formula, read, evaluated⟩ := reads
  obtain ⟨_, readAgain, evaluatedAgain⟩ := again
  cases read.symm.trans readAgain
  exact Option.some.inj (evaluated.symm.trans evaluatedAgain)

end Formula

def Comparator.Relates (left right : Int) : Comparator → Prop
  | .eq => left = right
  | .le => left ≤ right
  | .ge => right ≤ left
  | .ne => left ≠ right

/-- A constraint holds in integer arithmetic. -/
def Constraint.HoldsExactly (constraint : Constraint) (values : String → Int) : Prop :=
  ∃ left right, Formula.Reads constraint.lhs values left ∧
    Number.smallInt? constraint.rhs = some right ∧ constraint.comparison.Relates left right

end Payload
end Tabletop
