import Tabletop.Payload.Formula
import Tabletop.Text.Basic

/-!
Cutting a formula's text into tokens. Offsets count bytes.
-/

namespace Tabletop.Payload.Formula

inductive Operator where
  | plus
  | minus
  | times
  | slash
  | power
  | opening
  | closing
  deriving DecidableEq, Repr

def Operator.text : Operator → String
  | plus => "+"
  | minus => "-"
  | times => "*"
  | slash => "/"
  | power => "**"
  | opening => "("
  | closing => ")"

inductive TokenKind where
  | number (value : Number.Decimal)
  | name (text : String)
  | operator (op : Operator)
  deriving DecidableEq, Repr

structure Token where
  offset : Nat
  kind : TokenKind
  deriving DecidableEq, Repr

/-- Signs, powers and parentheses stand this many levels inside one another at most. -/
def nestingLimit : Nat := 256

/-- Why a text is no formula. -/
inductive Problem where
  | invalidNumber (text : String)
  | expectedSubscript
  | unexpectedCharacter (c : Char)
  | nestedTooDeep
  | expectedClosing
  | unexpectedOperator (op : Operator)
  | unexpectedEnd
  | trailingInput
  deriving DecidableEq, Repr

def Problem.message : Problem → String
  | invalidNumber text => s!"invalid number '{text}'"
  | expectedSubscript => "expected integer subscript"
  | unexpectedCharacter c => s!"unexpected character '{c}'"
  | nestedTooDeep => s!"expression nested deeper than {nestingLimit} levels"
  | expectedClosing => "expected ')'"
  | unexpectedOperator op => s!"unexpected '{op.text}'"
  | unexpectedEnd => "unexpected end of expression"
  | trailingInput => "unexpected trailing input"

/-- A problem and the offset where it was met. -/
structure Misreading where
  offset : Nat
  problem : Problem
  deriving DecidableEq, Repr

def Misreading.message (e : Misreading) : String := s!"{e.problem.message} at offset {e.offset}"

def isNumberPart (c : Char) : Bool := c.isDigit || c = '.'
def isNameStart (c : Char) : Bool := Text.isLetter c || c = '_'
def isNamePart (c : Char) : Bool := Text.isLetterOrNumber c || c = '_'

/-- A token's kind, its characters and the text after it. -/
abbrev Scanned := TokenKind × List Char × List Char

/-- The characters of an exponent at the front of a text; a mark without digits is none. -/
def exponentText : List Char → List Char
  | [] => []
  | mark :: rest =>
    if mark = 'e' ∨ mark = 'E' then
      let (sign, unsigned) := match rest with
        | '-' :: more => (['-'], more)
        | '+' :: more => (['+'], more)
        | _ => ([], rest)
      match unsigned.takeWhile Char.isDigit with
      | [] => []
      | digits => mark :: sign ++ digits
    else []

/-- A number: digits and points with an exponent, if they spell one. -/
def scanNumber (offset : Nat) (text : List Char) : Except Misreading Scanned :=
  let (mantissa, after) := text.span isNumberPart
  let exponent := exponentText after
  let literal := mantissa ++ exponent
  match Number.readWritten? literal with
  | some (.decimal value) => .ok (.number value, literal, after.drop exponent.length)
  | _ => .error ⟨offset, .invalidNumber (String.ofList literal)⟩

/-- A name, with an integer subscript if a bracket follows. -/
def scanName (offset : Nat) (text : List Char) : Except Misreading Scanned :=
  let (word, rest) := text.span isNamePart
  match rest with
  | '[' :: inside =>
    let (digits, after) := inside.span Char.isDigit
    match digits, after with
    | _ :: _, ']' :: after =>
      let full := word ++ '[' :: digits ++ [']']
      .ok (.name (String.ofList full), full, after)
    | _, _ => .error ⟨offset + Text.byteSize word, .expectedSubscript⟩
  | _ => .ok (.name (String.ofList word), word, rest)

def scanOperator (offset : Nat) : List Char → Except Misreading Scanned
  | '*' :: '*' :: rest => .ok (.operator .power, ['*', '*'], rest)
  | '+' :: rest => .ok (.operator .plus, ['+'], rest)
  | '-' :: rest => .ok (.operator .minus, ['-'], rest)
  | '*' :: rest => .ok (.operator .times, ['*'], rest)
  | '/' :: rest => .ok (.operator .slash, ['/'], rest)
  | '(' :: rest => .ok (.operator .opening, ['('], rest)
  | ')' :: rest => .ok (.operator .closing, [')'], rest)
  | c :: _ => .error ⟨offset, .unexpectedCharacter c⟩
  | [] => .error ⟨offset, .unexpectedEnd⟩

/-- The token at the front of a text. -/
def scanToken (offset : Nat) (text : List Char) : Except Misreading Scanned :=
  match text with
  | c :: _ =>
    if isNumberPart c then scanNumber offset text
    else if isNameStart c then scanName offset text
    else scanOperator offset text
  | [] => scanOperator offset text

/-- The tokens of a text, those found so far last first; every step takes one character at least. -/
def scanTokens : (fuel : Nat) → (back : List Token) → (offset : Nat) → List Char →
    Except Misreading (List Token)
  | 0, back, _, _ => .ok back.reverse
  | _, back, _, [] => .ok back.reverse
  | fuel + 1, back, offset, c :: rest =>
    if Text.isBlank c then scanTokens fuel back (offset + c.utf8Size) rest
    else match scanToken offset (c :: rest) with
      | .error e => .error e
      | .ok (kind, taken, after) =>
        scanTokens fuel (⟨offset, kind⟩ :: back) (offset + Text.byteSize taken) after

def tokens (text : String) : Except Misreading (List Token) :=
  let chars := text.toList
  scanTokens chars.length [] 0 chars

end Tabletop.Payload.Formula
