/-!
Doubles as exact values. `Scaled` is a signed integer times a power of two; every finite double is
one, and the operations here (truncation, remainder, comparison with an integer) are exact.
-/

namespace Tabletop.Number

/-- The exact value `mantissa * 2 ^ exponent`, with a sign that zero keeps. -/
structure Scaled where
  negative : Bool
  mantissa : Nat
  exponent : Int
  deriving DecidableEq, Repr

/-- A binary interchange format: how many fraction bits there are and the exponent of the least one. -/
structure Format where
  fractionBits : Nat
  leastExponent : Int

def double : Format := ⟨52, -1074⟩
def single : Format := ⟨23, -149⟩

/-- The value of an exponent field and a fraction; an exponent field of zero has no leading bit. -/
def Format.scaled (format : Format) (negative : Bool) (field fraction : Nat) : Scaled :=
  if field = 0 then ⟨negative, fraction, format.leastExponent⟩
  else ⟨negative, fraction + Nat.pow 2 format.fractionBits, format.leastExponent + (field - 1 : Nat)⟩

def signBit (x : Float) : Bool := x.toBits >>> 63 == 1
def exponentField (x : Float) : Nat := ((x.toBits >>> 52) &&& 0x7ff).toNat
def fractionField (x : Float) : Nat := (x.toBits &&& 0xfffffffffffff).toNat

def isFinite (x : Float) : Bool := exponentField x != 0x7ff

/-- The exact value of a finite double. -/
def scaled (x : Float) : Scaled := double.scaled (signBit x) (exponentField x) (fractionField x)

/-- The exact value of a finite single. -/
def scaledSingle (x : Float32) : Scaled :=
  single.scaled (x.toBits >>> 31 == 1) ((x.toBits >>> 23) &&& 0xff).toNat
    (x.toBits &&& 0x7fffff).toNat

/-- Drops the fraction of the magnitude. -/
def Scaled.wholePart (s : Scaled) : Nat :=
  if 0 ≤ s.exponent then s.mantissa <<< s.exponent.toNat
  else s.mantissa >>> (-s.exponent).toNat

def Scaled.isWhole (s : Scaled) : Bool :=
  0 ≤ s.exponent || (s.wholePart <<< (-s.exponent).toNat == s.mantissa)

/-- The double with the given exact value; the value has to be one that a double can hold. -/
def Scaled.toFloat (s : Scaled) : Float :=
  let width := s.mantissa.log2 + 1
  let sign : UInt64 := if s.negative then 0x8000000000000000 else 0
  if s.mantissa = 0 then Float.ofBits sign
  else
    let field := s.exponent + width + 1022
    let bits :=
      if 1 ≤ field then
        let leading := if width ≤ 53 then s.mantissa <<< (53 - width) else s.mantissa >>> (width - 53)
        (field.toNat <<< 52) + (leading - Nat.pow 2 52)
      else if -1074 ≤ s.exponent then s.mantissa <<< (s.exponent + 1074).toNat
      else s.mantissa >>> (-1074 - s.exponent).toNat
    Float.ofBits (sign ||| bits.toUInt64)

/-- Drops the fraction; the sign stays, also on zero. -/
def truncate (x : Float) : Float :=
  let field := exponentField x
  if field < 1023 then Float.ofBits (x.toBits &&& 0x8000000000000000)
  else if 1075 ≤ field then x
  else
    let low := (1075 - field).toUInt64
    Float.ofBits ((x.toBits >>> low) <<< low)

/-- The greatest whole double not above `x`. -/
def floor (x : Float) : Float :=
  let whole := truncate x
  if x < whole then whole - 1 else whole

/-- The least whole double not below `x`. -/
def ceiling (x : Float) : Float :=
  let whole := truncate x
  if whole < x then whole + 1 else whole

/-- Whether `x` is a whole number; infinities and NaN are not. -/
def isWhole (x : Float) : Bool := isFinite x && (scaled x).isWhole

/-- The exact integer that a whole double holds. -/
def wholeInt (x : Float) : Int :=
  let s := scaled x
  if s.negative then -(s.wholePart : Int) else s.wholePart

/-- Magnitudes from this one on are not written as integers. -/
def wholeBound : Float := 9.0e15

/-- The integer held by a whole double of magnitude below nine quadrillion. -/
def smallInt? (x : Float) : Option Int :=
  if isWhole x && x.abs < wholeBound then some (wholeInt x) else none

/-- The remainder of truncated division, with the sign of the dividend; it is exact. -/
def remainder (x y : Float) : Float :=
  if !isFinite x || y.isNaN || y == 0 then 0.0 / 0.0
  else if !isFinite y then x
  else
    let a := scaled x
    let b := scaled y
    let least := min a.exponent b.exponent
    let left := a.mantissa <<< (a.exponent - least).toNat
    let right := b.mantissa <<< (b.exponent - least).toNat
    Scaled.toFloat ⟨a.negative, left % right, least⟩

/-- The lesser of two doubles; the first of two equal ones. -/
def lesser (a b : Float) : Float :=
  if a.isNaN || b.isNaN then 0.0 / 0.0 else if b < a then b else a

/-- The greater of two doubles; the first of two equal ones. -/
def greater (a b : Float) : Float :=
  if a.isNaN || b.isNaN then 0.0 / 0.0 else if a < b then b else a

/-- Zero and NaN are their own sign. -/
def sign (x : Float) : Float :=
  if x.isNaN || x == 0 then x else if x < 0 then -1 else 1

def infinity : Float := 1.0 / 0.0
def nan : Float := 0.0 / 0.0

end Tabletop.Number
