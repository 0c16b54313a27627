import Tabletop.Number.Binary

/-!
Decimal numbers as they are written: a sign, digits and a power of ten. `scan` reads the longest
written number at the front of a text and `read?` a text that is one number and nothing else.
-/

namespace Tabletop.Number

/-- The exact value `digits * 10 ^ exponent`, with a sign that zero keeps. -/
structure Decimal where
  negative : Bool
  digits : Nat
  exponent : Int
  deriving DecidableEq, Repr

/-- What a number's text can spell. -/
inductive Written where
  | decimal (value : Decimal)
  | infinite (negative : Bool)
  | notANumber
  deriving DecidableEq, Repr

def digitValue (c : Char) : Nat := c.toNat - '0'.toNat

def natOfDigits (digits : List Char) : Nat :=
  digits.foldl (fun value c => value * 10 + digitValue c) 0

/-- The number spelled by digits, if it is below a bound; the rest is not looked at once the digits
before it have reached the bound. -/
def natBelow? (bound : Nat) (digits : List Char) : Option Nat :=
  digits.foldlM (fun value c =>
    let next := value * 10 + digitValue c
    if next < bound then some next else none) 0

/-- No double and no midpoint of two doubles has more significant digits than this. -/
def significantDigits : Nat := 800

/-- The value of digits before a power of ten. Of what follows the significant digits only counts
whether it is zero: all such values round alike, and one more digit stands for them. -/
def Decimal.ofDigits (negative : Bool) (digits : List Char) (exponent : Int) : Decimal :=
  let (kept, rest) := (digits.dropWhile (· = '0')).splitAt significantDigits
  if rest.all (· = '0') then ⟨negative, natOfDigits kept, exponent + rest.length⟩
  else ⟨negative, natOfDigits kept * 10 + 1, exponent + rest.length - 1⟩

/-- The nearest double, ties to even; too large a magnitude is infinite. -/
def Decimal.toFloat (d : Decimal) : Float :=
  let length := (Nat.repr d.digits).length
  let magnitude :=
    if d.digits = 0 then 0.0
    else if 400 < length + d.exponent then infinity
    else if length + d.exponent < -400 then 0.0
    else Float.ofScientific d.digits (d.exponent < 0) d.exponent.natAbs
  if d.negative then -magnitude else magnitude

def Written.toFloat : Written → Float
  | .decimal value => value.toFloat
  | .infinite negative => if negative then -infinity else infinity
  | .notANumber => nan

def spanDigits (text : List Char) : List Char × List Char := text.span Char.isDigit

/-- Matches a lower-case word in any case and gives what follows it. -/
def dropWord? : (word : List Char) → (text : List Char) → Option (List Char)
  | [], text => some text
  | _ :: _, [] => none
  | w :: word, c :: text => if c.toLower = w then dropWord? word text else none

/-- The digits of a written exponent with their sign, and what follows; a mark without digits after
it is no exponent. -/
def scanExponent? (text : List Char) : Option (Bool × List Char × List Char) :=
  match text with
  | mark :: rest =>
    if mark = 'e' ∨ mark = 'E' then
      let (negative, unsigned) := match rest with
        | '-' :: more => (true, more)
        | '+' :: more => (false, more)
        | _ => (false, rest)
      match spanDigits unsigned with
      | ([], _) => none
      | (digits, after) => some (negative, digits, after)
    else none
  | [] => none

/-- From here on the further digits of an exponent do not count. -/
def exponentBound : Nat := 65536

/-- The magnitude of an exponent; digits that come after the bound is reached are passed over. -/
def exponentOfDigits (digits : List Char) : Nat :=
  digits.foldl (fun value c => if value < exponentBound then value * 10 + digitValue c else value) 0

def signed (negative : Bool) (magnitude : Nat) : Int :=
  if negative then -magnitude else magnitude

/-- The longest unsigned number at the front: digits with at most one point, at least one digit. -/
def scanUnsigned (negative : Bool) (text : List Char) : Option (Written × List Char) :=
  let (whole, afterWhole) := spanDigits text
  let (fraction, afterFraction) := match afterWhole with
    | '.' :: more => spanDigits more
    | _ => ([], afterWhole)
  if whole.isEmpty && fraction.isEmpty then none
  else
    let (exponent, rest) : Int × List Char := match scanExponent? afterFraction with
      | some (below, digits, after) => (signed below (exponentOfDigits digits), after)
      | none => (0, afterFraction)
    some (.decimal (.ofDigits negative (whole ++ fraction) (exponent - fraction.length)), rest)

def scanWord (negative : Bool) (text : List Char) : Option (Written × List Char) :=
  match dropWord? "infinity".toList text with
  | some rest => some (.infinite negative, rest)
  | none => match dropWord? "inf".toList text with
    | some rest => some (.infinite negative, rest)
    | none => (dropWord? "nan".toList text).map fun rest => (.notANumber, rest)

/-- The longest written number at the front of a text, and what follows it. -/
def scan (text : List Char) : Option (Written × List Char) :=
  let (negative, unsigned) := match text with
    | '-' :: rest => (true, rest)
    | '+' :: rest => (false, rest)
    | _ => (false, text)
  (scanUnsigned negative unsigned).orElse fun _ => scanWord negative unsigned

/-- Reads a text that is one written number. -/
def readWritten? (text : List Char) : Option Written :=
  match scan text with
  | some (value, []) => some value
  | _ => none

def readFloat? (text : List Char) : Option Float := (readWritten? text).map Written.toFloat

/-- Reads an optional sign and digits as an integer of 64 bits; a plus sign is allowed. -/
def readSigned64? (text : List Char) : Option Int :=
  let (negative, unsigned) := match text with
    | '-' :: rest => (true, rest)
    | '+' :: rest => (false, rest)
    | _ => (false, text)
  if unsigned.isEmpty || !unsigned.all Char.isDigit then none
  else (natBelow? (if negative then Nat.pow 2 63 + 1 else Nat.pow 2 63) unsigned).map (signed negative)

end Tabletop.Number
