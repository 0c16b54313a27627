import Tabletop.Number.Decimal

/-!
The fewest decimal digits that read back to the same binary number. The numbers that round to a
given one form an interval; for one digit, two digits and so on the two neighbours of the value on
that decimal grid are tried, and the first grid with a neighbour in the interval is taken.
-/

namespace Tabletop.Number

/-- Which way a value goes that lies halfway between two candidates. -/
inductive Tie where
  | up
  | toEven
  deriving DecidableEq, Repr

/-- The numbers that round to `center`: bounds over a common denominator, with or without the ends. -/
structure RoundingInterval where
  low : Nat
  center : Nat
  high : Nat
  denominator : Nat
  closed : Bool
  deriving DecidableEq, Repr

/-- The interval between the midpoints to a positive value's two neighbours. -/
def roundingInterval (format : Format) (s : Scaled) : RoundingInterval :=
  let scale := Nat.pow 2 (s.exponent - 2).toNat
  let below :=
    if s.mantissa = Nat.pow 2 format.fractionBits ∧ format.leastExponent < s.exponent then 1 else 2
  { low := (4 * s.mantissa - below) * scale
    center := 4 * s.mantissa * scale
    high := (4 * s.mantissa + 2) * scale
    denominator := Nat.pow 2 (2 - s.exponent).toNat
    closed := s.mantissa % 2 = 0 }

/-- Whether `candidate * 10 ^ power` lies in the interval. -/
def RoundingInterval.holds (interval : RoundingInterval) (candidate : Nat) (power : Int) : Bool :=
  let point := candidate * Nat.pow 10 power.toNat * interval.denominator
  let low := interval.low * Nat.pow 10 (-power).toNat
  let high := interval.high * Nat.pow 10 (-power).toNat
  if interval.closed then low ≤ point && point ≤ high else low < point && point < high

/-- The value's neighbour on a grid that lies in the interval, the nearer of two. -/
def RoundingInterval.neighbour (interval : RoundingInterval) (tie : Tie) (power : Int) :
    Option Nat :=
  let value := interval.center * Nat.pow 10 (-power).toNat
  let unit := interval.denominator * Nat.pow 10 power.toNat
  let below := value / unit
  let distance := 2 * (value % unit)
  let nearer :=
    if distance < unit then below
    else if unit < distance then below + 1
    else match tie with
      | .up => below + 1
      | .toEven => if below % 2 = 0 then below else below + 1
  let farther := if nearer = below then below + 1 else below
  if interval.holds nearer power then some nearer
  else if interval.holds farther power then some farther
  else none

/-- The first power of ten above a positive value, sought upwards from an estimate. -/
def RoundingInterval.magnitude (interval : RoundingInterval) : Nat → Int → Int
  | 0, estimate => estimate
  | attempts + 1, estimate =>
    let value := interval.center * Nat.pow 10 (-estimate).toNat
    let power := interval.denominator * Nat.pow 10 estimate.toNat
    if value < power then estimate else interval.magnitude attempts (estimate + 1)

def stripZeros : Nat → Nat → Int → Nat × Int
  | 0, digits, exponent => (digits, exponent)
  | attempts + 1, digits, exponent =>
    if digits % 10 = 0 then stripZeros attempts (digits / 10) (exponent + 1)
    else (digits, exponent)

/-- Tries grids of more and more digits, below the power of ten `magnitude`. -/
def RoundingInterval.shortest (interval : RoundingInterval) (tie : Tie) (magnitude : Int) :
    (attempts count : Nat) → Nat × Int
  | 0, count => (interval.center / interval.denominator, magnitude - count)
  | attempts + 1, count =>
    match interval.neighbour tie (magnitude - count) with
    | some digits => stripZeros 20 digits (magnitude - count)
    | none => interval.shortest tie magnitude attempts (count + 1)

/-- The fewest digits that read back to the same number of the format, the nearest of those. -/
def Scaled.shortest (format : Format) (tie : Tie) (s : Scaled) : Decimal :=
  if s.mantissa = 0 then ⟨s.negative, 0, 0⟩
  else
    let interval := roundingInterval format s
    let estimate := (s.exponent + s.mantissa.log2) * 30103 / 100000
    let (digits, exponent) := interval.shortest tie (interval.magnitude 4 estimate) 17 1
    ⟨s.negative, digits, exponent⟩

end Tabletop.Number
