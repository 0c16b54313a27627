import Tabletop.Json.Basic
import Tabletop.Number.Decimal

/-!
Strings and numbers in JSON text. Each is either read, and then has to have a value, or only passed
over: half a surrogate pair and a number beyond all doubles have a written form but no value.
-/

namespace Tabletop.Json

def isGap (c : Char) : Bool := c = ' ' || c = '\n' || c = '\t' || c = '\r'

def skipGap (text : List Char) : List Char := text.dropWhile isGap

def hexValue? (c : Char) : Option Nat :=
  if '0' ≤ c ∧ c ≤ '9' then some (c.toNat - 48)
  else if 'a' ≤ c ∧ c ≤ 'f' then some (c.toNat - 87)
  else if 'A' ≤ c ∧ c ≤ 'F' then some (c.toNat - 55)
  else none

/-- The number spelled by four hexadecimal digits. -/
def unit? (a b c d : Char) : Option Nat := do
  let a ← hexValue? a
  let b ← hexValue? b
  let c ← hexValue? c
  let d ← hexValue? d
  return ((a * 16 + b) * 16 + c) * 16 + d

def isHighSurrogate (unit : Nat) : Bool := 0xd800 ≤ unit && unit < 0xdc00
def isLowSurrogate (unit : Nat) : Bool := 0xdc00 ≤ unit && unit < 0xe000

/-- The character behind a backslash with one letter. -/
def escape? (c : Char) : Option Char :=
  if c = '"' then some '"'
  else if c = '\\' then some '\\'
  else if c = '/' then some '/'
  else if c = 'n' then some '\n'
  else if c = 'r' then some '\r'
  else if c = 't' then some '\t'
  else if c = 'b' then some (Char.ofNat 8)
  else if c = 'f' then some (Char.ofNat 12)
  else none

/-- The rest of a string after its opening quote; `back` holds the characters read, last first. -/
def readString (back : List Char) : List Char → Option (String × List Char)
  | [] => none
  | '"' :: rest => some (String.ofList back.reverse, rest)
  | '\\' :: 'u' :: a :: b :: c :: d :: rest =>
    match unit? a b c d with
    | none => none
    | some unit =>
      if isLowSurrogate unit then none
      else if isHighSurrogate unit then
        match rest with
        | '\\' :: 'u' :: a' :: b' :: c' :: d' :: after =>
          match unit? a' b' c' d' with
          | none => none
          | some low =>
            if isLowSurrogate low then
              let code := 0x10000 + (unit - 0xd800) * 0x400 + (low - 0xdc00)
              readString (Char.ofNat code :: back) after
            else none
        | _ => none
      else readString (Char.ofNat unit :: back) rest
  | '\\' :: c :: rest =>
    match escape? c with
    | some plain => readString (plain :: back) rest
    | none => none
  | c :: rest => if c.toNat < 32 then none else readString (c :: back) rest

/-- What follows the string whose opening quote has been read. -/
def passString : List Char → Option (List Char)
  | [] => none
  | '"' :: rest => some rest
  | '\\' :: 'u' :: a :: b :: c :: d :: rest =>
    if (unit? a b c d).isSome then passString rest else none
  | '\\' :: c :: rest => if (escape? c).isSome then passString rest else none
  | c :: rest => if c.toNat < 32 then none else passString rest

/-- The parts of a written number without its sign: digits, those after a point, and an exponent
with its sign. -/
structure Numeral where
  whole : List Char
  fraction : Option (List Char)
  exponent : Option (Bool × List Char)
  deriving DecidableEq, Repr

/-- The number at the front of a text and what follows it. A zero stands alone before the point, and
digits have to follow a point and an exponent's mark. -/
def scanNumeral? (text : List Char) : Option (Numeral × List Char) := do
  let (whole, afterWhole) := Number.spanDigits text
  if whole.isEmpty || (whole.head? = some '0' && whole.length != 1) then none
  let (fraction, afterFraction) ← match afterWhole with
    | '.' :: rest => match Number.spanDigits rest with
      | ([], _) => none
      | (digits, after) => some (some digits, after)
    | _ => some (none, afterWhole)
  match Number.scanExponent? afterFraction with
  | some (negative, digits, rest) => some (⟨whole, fraction, some (negative, digits)⟩, rest)
  | none => match afterFraction with
    | 'e' :: _ | 'E' :: _ => none
    | _ => some (⟨whole, fraction, none⟩, afterFraction)

/-- A number that a double holds. -/
def ofDecimal? (decimal : Number.Decimal) : Option Json :=
  let value := decimal.toFloat
  if value.isInf then none else some (.float value)

/-- More than any exponent that decides between zero, a double and a number beyond all doubles. -/
def exponentCeiling : Nat := 1000000000000

/-- The value of a number. An integer that fits 64 bits with or without a sign stays one; minus zero
is no integer. -/
def Numeral.value? (numeral : Numeral) (negative : Bool) : Option Json :=
  match numeral with
  | ⟨whole, none, none⟩ =>
    match Number.natBelow? (if negative then Nat.pow 2 63 + 1 else Nat.pow 2 64) whole with
    | some magnitude =>
      if negative && magnitude == 0 then some (.float (-0.0))
      else some (.int (Number.signed negative magnitude))
    | none => ofDecimal? (.ofDigits negative whole 0)
  | ⟨whole, fraction, exponent⟩ =>
    let fraction := fraction.getD []
    let exponent := match exponent with
      | some (below, digits) =>
        Number.signed below ((Number.natBelow? exponentCeiling digits).getD exponentCeiling)
      | none => 0
    ofDecimal? (.ofDigits negative (whole ++ fraction) (exponent - fraction.length))

/-- A number with a value, its sign already read. -/
def readNumber (negative : Bool) (text : List Char) : Option (Json × List Char) :=
  match scanNumeral? text with
  | some (numeral, rest) => (numeral.value? negative).map fun json => (json, rest)
  | none => none

/-- What follows a number whose sign has been read. -/
def passNumber (text : List Char) : Option (List Char) := (scanNumeral? text).map (·.2)

/-- What follows a literal name at the front of a text. -/
def literal? (name text : List Char) : Option (List Char) :=
  if name.isPrefixOf text then some (text.drop name.length) else none

end Tabletop.Json
