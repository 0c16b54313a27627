import Tabletop.Json.Basic
import Tabletop.Number.Layout

/-!
JSON text, compact or indented by two spaces. Quotes, backslashes and control characters are
escaped, nothing else; a number without a finite value is written as null.
-/

namespace Tabletop.Json

def hexDigit (n : Nat) : Char := if n < 10 then Char.ofNat (48 + n) else Char.ofNat (87 + n)

/-- A character as it stands inside quotes. -/
def escaped (c : Char) : List Char :=
  if c = '"' then ['\\', '"']
  else if c = '\\' then ['\\', '\\']
  else if c = '\n' then ['\\', 'n']
  else if c = '\r' then ['\\', 'r']
  else if c = '\t' then ['\\', 't']
  else if c.toNat = 8 then ['\\', 'b']
  else if c.toNat = 12 then ['\\', 'f']
  else if c.toNat < 32 then
    ['\\', 'u', '0', '0', hexDigit (c.toNat / 16), hexDigit (c.toNat % 16)]
  else [c]

def quotedChars (text : List Char) : List Char := '"' :: text.flatMap escaped ++ ['"']

def quoted (text : String) : String := String.ofList (quotedChars text.toList)

/-- A number as JSON: whole ones below nine quadrillion are integers, infinite ones null. -/
def ofNumber (x : Float) : Json :=
  match Number.smallInt? x with
  | some value => .int value
  | none => if Number.isFinite x then .float x else .null

def floatText (x : Float) : String :=
  if Number.isFinite x then Number.jsonLayout.ofDouble x else "null"

mutual
/-- Appends the compact text of a tree. -/
def writeTo (out : String) : Json → String
  | .null => out ++ "null"
  | .bool value => out ++ (if value then "true" else "false")
  | .int value => out ++ toString value
  | .float value => out ++ floatText value
  | .str value => out ++ quoted value
  | .arr items => writeItems (out.push '[') true items
  | .obj fields => writeFields (out.push '\x7b') true fields
def writeItems (out : String) (first : Bool) : List Json → String
  | [] => out.push ']'
  | item :: rest =>
    writeItems (writeTo (if first then out else out.push ',') item) false rest
def writeFields (out : String) (first : Bool) : List (String × Json) → String
  | [] => out.push '\x7d'
  | (name, value) :: rest =>
    let opened := if first then out else out.push ','
    writeFields (writeTo ((opened ++ quoted name).push ':') value) false rest
end

/-- The compact text of a tree. -/
def compact (json : Json) : String := writeTo "" json

def newLine (out : String) (level : Nat) : String :=
  (out.push '\n').append (String.ofList (List.replicate (2 * level) ' '))

mutual
/-- Appends the indented text of a tree that stands `level` levels deep. -/
def prettyTo (out : String) (level : Nat) : Json → String
  | .arr [] => out ++ "[]"
  | .arr (item :: rest) =>
    prettyItems (prettyTo (newLine (out.push '[') (level + 1)) (level + 1) item) level rest
  | .obj [] => (out.push '\x7b').push '\x7d'
  | .obj ((name, value) :: rest) =>
    let opened := newLine (out.push '\x7b') (level + 1) ++ quoted name ++ ": "
    prettyFields (prettyTo opened (level + 1) value) level rest
  | other => writeTo out other
def prettyItems (out : String) (level : Nat) : List Json → String
  | [] => (newLine out level).push ']'
  | item :: rest =>
    prettyItems (prettyTo (newLine (out.push ',') (level + 1)) (level + 1) item) level rest
def prettyFields (out : String) (level : Nat) : List (String × Json) → String
  | [] => (newLine out level).push '\x7d'
  | (name, value) :: rest =>
    let opened := newLine (out.push ',') (level + 1) ++ quoted name ++ ": "
    prettyFields (prettyTo opened (level + 1) value) level rest
end

/-- The text of a tree with one entry per line, indented by two spaces. -/
def pretty (json : Json) : String := prettyTo "" 0 json

end Tabletop.Json
