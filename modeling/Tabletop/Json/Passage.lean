import Tabletop.Json.Scalar

/-!
Passing over a JSON value that nobody looks at. Its text has to be well formed, but it may stand as
deep as it likes, and its strings and numbers need no value.
-/

namespace Tabletop.Json

inductive Container where
  | array
  | object
  deriving DecidableEq, Repr

/-- What the text has to go on with: a value, a field's name, or what may follow a value. -/
inductive Awaited where
  | value
  | name
  | delimiter
  deriving DecidableEq, Repr

namespace Container

def closing : Container → Char
  | array => ']'
  | object => '\x7d'

/-- What a comma is followed by. -/
def next : Container → Awaited
  | array => .value
  | object => .name

end Container

/-- What follows a value that is no array and no object. -/
def passScalar : List Char → Option (List Char)
  | '"' :: rest => passString rest
  | '-' :: rest => passNumber rest
  | 'n' :: rest => literal? ['u', 'l', 'l'] rest
  | 't' :: rest => literal? ['r', 'u', 'e'] rest
  | 'f' :: rest => literal? ['a', 'l', 's', 'e'] rest
  | text => passNumber text

/-- Passes over a value and the rest of the containers in `opened`, the innermost first; every step
but the last takes a character. -/
def passFrom : (fuel : Nat) → Awaited → (opened : List Container) → List Char → Option (List Char)
  | 0, _, _, _ => none
  | fuel + 1, .delimiter, opened, text =>
    match opened with
    | [] => some text
    | container :: outer => match skipGap text with
      | [] => none
      | c :: rest =>
        if c = ',' then passFrom fuel container.next opened rest
        else if c = container.closing then passFrom fuel .delimiter outer rest
        else none
  | fuel + 1, .name, opened, text =>
    match skipGap text with
    | '"' :: quotedName => match (passString quotedName).map skipGap with
      | some (':' :: rest) => passFrom fuel .value opened rest
      | _ => none
    | _ => none
  | fuel + 1, .value, opened, text =>
    match skipGap text with
    | '[' :: rest => match skipGap rest with
      | ']' :: after => passFrom fuel .delimiter opened after
      | other => passFrom fuel .value (.array :: opened) other
    | '\x7b' :: rest => match skipGap rest with
      | '\x7d' :: after => passFrom fuel .delimiter opened after
      | other => passFrom fuel .name (.object :: opened) other
    | other => match passScalar other with
      | some rest => passFrom fuel .delimiter opened rest
      | none => none

/-- What follows the value at the front of a text. -/
def passValue (fuel : Nat) (text : List Char) : Option (List Char) := passFrom fuel .value [] text

end Tabletop.Json
