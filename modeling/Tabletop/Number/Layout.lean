import Tabletop.Number.Shortest

/-!
Number texts. A `Layout` says how shortest digits are laid out: which magnitudes are written in
full, whether a whole number keeps a fraction, and which way an exact tie goes.
-/

namespace Tabletop.Number

structure Layout where
  tie : Tie
  /-- The least and greatest power of the first digit that are written without an exponent; all are
  when there is none. -/
  positional : Option (Int × Int)
  wholeFraction : Bool

/-- Numbers as a scoring program writes them: never an exponent, no fraction on whole numbers. -/
def programLayout : Layout := ⟨.up, none, false⟩

/-- Numbers with a fraction in JSON text. -/
def jsonLayout : Layout := ⟨.toEven, some (-5, 15), true⟩

def zeros (count : Nat) : List Char := List.replicate count '0'

/-- Digits with a decimal point, zeros filled in on either side. -/
def positionalText (digits : List Char) (exponent : Int) (wholeFraction : Bool) : List Char :=
  let point := digits.length + exponent
  if 0 ≤ exponent then
    digits ++ zeros exponent.toNat ++ (if wholeFraction then ['.', '0'] else [])
  else if 0 < point then
    digits.take point.toNat ++ '.' :: digits.drop point.toNat
  else '0' :: '.' :: zeros (-point).toNat ++ digits

/-- One digit, a fraction if there are more, and a signed power of ten. -/
def scientificText (digits : List Char) (exponent : Int) : List Char :=
  let power := digits.length + exponent - 1
  let sign := if power < 0 then '-' else '+'
  let mantissa := match digits with
    | first :: second :: rest => first :: '.' :: second :: rest
    | _ => digits
  mantissa ++ 'e' :: sign :: (Nat.repr power.natAbs).toList

def Layout.text (layout : Layout) (d : Decimal) : String :=
  let digits := (Nat.repr d.digits).toList
  let power := digits.length + d.exponent - 1
  let full := match layout.positional with
    | none => true
    | some (least, greatest) => d.digits = 0 || (least ≤ power && power ≤ greatest)
  let magnitude :=
    if full then positionalText digits d.exponent layout.wholeFraction
    else scientificText digits d.exponent
  String.ofList (if d.negative then '-' :: magnitude else magnitude)

def Layout.ofDouble (layout : Layout) (x : Float) : String :=
  layout.text ((scaled x).shortest double layout.tie)

def Layout.ofSingle (layout : Layout) (x : Float32) : String :=
  layout.text ((scaledSingle x).shortest single layout.tie)

/-- A number's text in scoring programs: integers below nine quadrillion plainly, all else by its
shortest digits. -/
def programText (x : Float) : String :=
  match smallInt? x with
  | some n => toString n
  | none =>
    if x.isNaN then "NaN"
    else if !isFinite x then (if 0 < x then "Infinity" else "-Infinity")
    else programLayout.ofDouble x

/-- The quotient nearest to `num / den`, the even one of two. -/
def roundedQuotient (num den : Nat) : Nat :=
  let quotient := num / den
  let distance := 2 * (num % den)
  if distance < den then quotient
  else if den < distance then quotient + 1
  else if quotient % 2 = 0 then quotient else quotient + 1

/-- An exact value with a fixed number of decimal places, a half to the even neighbour. -/
def Scaled.fixed (s : Scaled) (places : Nat) : String :=
  let units := roundedQuotient (s.mantissa * Nat.pow 10 places * Nat.pow 2 s.exponent.toNat)
    (Nat.pow 2 (-s.exponent).toNat)
  let digits := (Nat.repr units).toList
  let padded := zeros (places + 1 - digits.length) ++ digits
  let whole := padded.take (padded.length - places)
  let magnitude :=
    if places = 0 then whole else whole ++ '.' :: padded.drop (padded.length - places)
  String.ofList (if s.negative then '-' :: magnitude else magnitude)

/-- A double with a fixed number of decimal places. -/
def fixedText (x : Float) (places : Nat) : String :=
  if x.isNaN then "NaN"
  else if !isFinite x then (if 0 < x then "inf" else "-inf")
  else (scaled x).fixed places

end Tabletop.Number
