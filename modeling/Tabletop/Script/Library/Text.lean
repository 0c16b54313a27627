import Tabletop.Script.Slot
import Tabletop.Text.Casing

/-!
Methods of strings and numbers, and reading numbers from text.
-/

namespace Tabletop.Script

/-- The argument of an index; one that is not given is undefined. -/
def argument (arguments : List Value) (index : Nat) : Value := arguments.getD index .undefined

/-- A start or end index; a negative one counts from the end. -/
def relativeIndex (value : Value) (length default : Nat) : Run Nat :=
  match value with
  | .undefined => return default
  | _ => do
    let number ← value.toNumber
    if number.isNaN then return 0
    else
      let whole := Number.truncate number
      if whole < 0 then
        let fromEnd := Float.ofNat length + whole
        return if fromEnd < 0 then 0 else cappedNat fromEnd length
      else return cappedNat whole length

/-- An index that is no less than zero and no more than a length. -/
def clampedIndex (value : Value) (length default : Nat) : Run Nat :=
  match value with
  | .undefined => return default
  | _ => do
    let number ← value.toNumber
    return if number.isNaN || number < 0 then 0 else cappedNat number length

/-- The bytes of a text once `count` places of a pattern are replaced. -/
def replacedSize (size pattern replacement count : Nat) : Nat :=
  (size - count * pattern) + count * replacement

/-- How many places `replace` changes: the first, or all. -/
def replacedCount (all : Bool) (pattern text : String) : Nat :=
  if !text.contains pattern then 0
  else if !all then 1
  else if pattern.isEmpty then text.length + 1
  else Text.occurrences pattern.toList 0 text.toList

/-- Replaces the first `count` places of a pattern. -/
def replaceText (pattern replacement : List Char) (count : Nat) (text : List Char) : List Char :=
  if pattern.isEmpty then Text.interleave replacement count text
  else Text.replaceFirst pattern replacement count 0 text

def replaceMethod (limits : Limits) (all : Bool) (subject pattern : String)
    (replacement : Value) : Run Value := do
  let replacement ← limits.text replacement
  let count := replacedCount all pattern subject
  limits.checkString (replacedSize subject.utf8ByteSize pattern.utf8ByteSize
    replacement.utf8ByteSize count)
  return .str (String.ofList (replaceText pattern.toList replacement.toList count subject.toList))

/-- The pieces of a text between the places of a separator that is not empty. -/
def piecesOf (separator text : String) : List (List Char) :=
  if text.contains separator then Text.splitOn separator.toList text.toList else [text.toList]

/-- A string cut at every place of a separator; an empty one cuts between all characters. -/
def splitMethod (limits : Limits) (subject separator : String) (value : Value) : Run Value := do
  match value with
  | .undefined => newArray #[.str subject]
  | _ =>
    if separator.isEmpty then
      limits.checkArray subject.length
      newArray (subject.toList.map fun c => Value.str (String.singleton c)).toArray
    else
      let pieces := piecesOf separator subject
      limits.checkArray pieces.length
      newArray (pieces.map fun piece => Value.str (String.ofList piece)).toArray

def caseMethod (limits : Limits) (change : List Char → List Char) (subject : String) :
    Run Value := do
  let changed := String.ofList (change subject.toList)
  limits.checkString changed.utf8ByteSize
  return .str changed

def substringMethod (subject : String) (arguments : List Value) : Run Value := do
  let length := subject.length
  let a ← clampedIndex (argument arguments 0) length 0
  let b ← clampedIndex (argument arguments 1) length length
  return .str (Text.between (min a b) (max a b) subject)

def sliceText (subject : String) (arguments : List Value) : Run Value := do
  let length := subject.length
  let start ← relativeIndex (argument arguments 0) length 0
  let finish ← relativeIndex (argument arguments 1) length length
  return .str (Text.between start finish subject)

/-- The index of the first place of a text in another one. -/
def indexOfText? (pattern text : String) : Option Nat :=
  if text.contains pattern then Text.indexOf? pattern.toList text.toList else none

def charAtMethod (subject : String) (value : Value) : Value :=
  match charAt subject (value.index?.getD 0) with
  | .undefined => .str ""
  | found => found

/-- Calls a method of a string. The text of the first argument is made first, whatever it is for. -/
def stringMethod (limits : Limits) (subject name : String) (arguments : List Value) :
    Run Value := do
  let first := argument arguments 0
  let text ← limits.text first
  match name with
  | "replace" => replaceMethod limits false subject text (argument arguments 1)
  | "replaceAll" => replaceMethod limits true subject text (argument arguments 1)
  | "startsWith" => return .bool (subject.startsWith text)
  | "endsWith" => return .bool (subject.endsWith text)
  | "includes" => return .bool (subject.contains text)
  | "indexOf" =>
    return .number (match indexOfText? text subject with
      | some index => Float.ofNat index
      | none => -1)
  | "trim" => return .str (Text.trimmed subject)
  | "toUpperCase" => caseMethod limits Text.toUpperCase subject
  | "toLowerCase" => caseMethod limits Text.toLowerCase subject
  | "split" => splitMethod limits subject text first
  | "charAt" => return charAtMethod subject first
  | "substring" => substringMethod subject arguments
  | "slice" => sliceText subject arguments
  | _ => fault (.notAFunction name)

def numberMethod (number : Float) (name : String) (arguments : List Value) : Run Value :=
  match name with
  | "toFixed" =>
    let places := min ((argument arguments 0).index?.getD 0) 20
    return .str (Number.fixedText number places)
  | "toString" => return .str (Number.programText number)
  | _ => fault (.notAFunction name)

/-- The whole number at the front of a text. -/
def parseInt (text : String) : Float :=
  let (negative, unsigned) := match Text.trim text.toList with
    | '-' :: rest => (true, rest)
    | '+' :: rest => (false, rest)
    | chars => (false, chars)
  match Number.spanDigits unsigned with
  | ([], _) => Number.nan
  | (digits, _) => (Number.Decimal.ofDigits negative digits 0).toFloat

/-- The longest number at the front of a text. -/
def parseFloat (text : String) : Float :=
  match Number.scan (Text.trim text.toList) with
  | some (value, _) => value.toFloat
  | none => Number.nan

def Builtin.apply (limits : Limits) (arguments : List Value) : Builtin → Run Value
  | parseInt => do
    let text ← limits.text (argument arguments 0)
    return .number (Script.parseInt text)
  | parseFloat => do
    let text ← limits.text (argument arguments 0)
    return .number (Script.parseFloat text)
  | string =>
    match arguments with
    | [] => return .str ""
    | first :: _ => do
      let text ← limits.text first
      return .str text
  | number =>
    match arguments with
    | [] => return .number 0
    | first :: _ => do
      let number ← first.toNumber
      return .number number
  | isNaN => do
    let number ← (argument arguments 0).toNumber
    return .bool number.isNaN

end Tabletop.Script
