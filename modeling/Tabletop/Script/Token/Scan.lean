import Tabletop.Script.Token
import Tabletop.Number.Decimal
import Tabletop.Text.Basic

/-!
Cutting program text into tokens. Every scanner takes the characters that are left and the position
of the first, and gives the characters left after it with theirs.
-/

namespace Tabletop.Script

/-- The characters still to be read and the position of the first. -/
structure Cursor where
  rest : List Char
  position : Position
  deriving DecidableEq, Repr

abbrev Scan (α : Type) := Except SourceError (α × Cursor)

def failAt {α : Type} (position : Position) (problem : Problem) : Except SourceError α :=
  .error ⟨position, problem⟩

/-- Where the text between tokens stands. -/
inductive Gap where
  | between
  | inLine
  | inBlock
  deriving DecidableEq, Repr

/-- Passes over blanks and comments. -/
def skipGap : Gap → List Char → Position → Except SourceError Cursor
  | gap, [], position =>
    if gap = .inBlock then failAt position .unterminatedComment else .ok ⟨[], position⟩
  | gap, c :: rest, position =>
    match gap with
    | .inLine => skipGap (if c = '\n' then .between else .inLine) rest (position.advance c)
    | .inBlock =>
      match rest with
      | [] => skipGap .inBlock [] (position.advance c)
      | second :: after =>
        if c = '*' ∧ second = '/' then
          skipGap .between after ((position.advance c).advance second)
        else skipGap .inBlock (second :: after) (position.advance c)
    | .between =>
      if Text.isBlank c then skipGap .between rest (position.advance c)
      else match rest with
        | [] => .ok ⟨[c], position⟩
        | second :: after =>
          if c = '/' ∧ second = '/' then
            skipGap .inLine after ((position.advance c).advance second)
          else if c = '/' ∧ second = '*' then
            skipGap .inBlock after ((position.advance c).advance second)
          else .ok ⟨c :: second :: after, position⟩

/-- The characters of a number; a sign belongs to it behind an exponent mark only. -/
def numberText : (afterMark : Bool) → List Char → List Char × List Char
  | _, [] => ([], [])
  | afterMark, c :: rest =>
    let isMark := c = 'e' || c = 'E'
    if c.isDigit || c = '.' || isMark || (afterMark && (c = '+' || c = '-')) then
      let (text, after) := numberText isMark rest
      (c :: text, after)
    else ([], c :: rest)

def isWordStart (c : Char) : Bool := Text.isLetter c || c = '_' || c = '$'
def isWordPart (c : Char) : Bool := Text.isLetterOrNumber c || c = '_' || c = '$'

/-- The character that a backslash and a letter stand for. -/
def unescaped (c : Char) : Char :=
  if c = 'n' then '\n' else if c = 't' then '\t' else if c = 'r' then '\r'
  else if c = '0' then '\x00' else c

/-- The rest of a string after its opening quote; `back` holds its characters, last first. -/
def scanString (quote : Char) (back : List Char) : List Char → Position → Scan TokenKind
  | [], position => failAt position .unterminatedString
  | c :: rest, position =>
    if c = '\\' then
      match rest with
      | [] => failAt (position.advance c) .unterminatedEscape
      | letter :: after =>
        scanString quote (unescaped letter :: back) after ((position.advance c).advance letter)
    else if c = quote then
      .ok (.string (String.ofList back.reverse), ⟨rest, position.advance c⟩)
    else if c = '\n' then failAt (position.advance c) .unterminatedString
    else scanString quote (c :: back) rest (position.advance c)

/-- Where the text of a template stands: in text, in a substitution with braces open, or in a string
within one. Characters read so far stand last first. -/
inductive TemplateState where
  | text (back : List Char)
  | code (start : Position) (braces : Nat) (back : List Char)
  | quoted (start : Position) (braces : Nat) (back : List Char) (quote : Char)
  deriving DecidableEq, Repr

def closeText (parts : List TemplatePart) (back : List Char) : List TemplatePart :=
  if back.isEmpty then parts else .text back.reverse :: parts

def backtick : Char := '\x60'
def openBrace : Char := '\x7b'
def closeBrace : Char := '\x7d'

/-- The rest of a template; `parts` holds its finished parts, last first. -/
def scanTemplate (parts : List TemplatePart) :
    TemplateState → List Char → Position → Scan TokenKind
  | state, [], position => match state with
    | .text _ => failAt position .unterminatedTemplate
    | .code _ _ _ => failAt position .unterminatedSubstitution
    | .quoted _ _ _ _ => failAt position .unterminatedString
  | state, c :: rest, position =>
    let next := position.advance c
    match state with
    | .text back =>
      if c = backtick then .ok (.template (closeText parts back).reverse, ⟨rest, next⟩)
      else match rest with
        | [] =>
          if c = '\\' then failAt next .unterminatedEscape
          else scanTemplate parts (.text (c :: back)) [] next
        | second :: after =>
          if c = '\\' then
            scanTemplate parts (.text (unescaped second :: back)) after (next.advance second)
          else if c = '$' ∧ second = openBrace then
            scanTemplate (closeText parts back) (.code (next.advance second) 0 []) after
              (next.advance second)
          else scanTemplate parts (.text (c :: back)) (second :: after) next
    | .code start braces back =>
      if c = openBrace then scanTemplate parts (.code start (braces + 1) (c :: back)) rest next
      else if c = closeBrace then
        match braces with
        | 0 => scanTemplate (.code back.reverse start :: parts) (.text []) rest next
        | outer + 1 => scanTemplate parts (.code start outer (c :: back)) rest next
      else if c = '"' ∨ c = '\'' ∨ c = backtick then
        scanTemplate parts (.quoted start braces (c :: back) c) rest next
      else scanTemplate parts (.code start braces (c :: back)) rest next
    | .quoted start braces back quote =>
      if c = '\\' then
        match rest with
        | [] => failAt next .unterminatedString
        | letter :: after =>
          scanTemplate parts (.quoted start braces (letter :: c :: back) quote) after
            (next.advance letter)
      else if c = quote then scanTemplate parts (.code start braces (c :: back)) rest next
      else scanTemplate parts (.quoted start braces (c :: back) quote) rest next

def scanPunctuator (text : List Char) (position : Position) : Scan TokenKind :=
  match punctuators.find? fun p => p.toList.isPrefixOf text with
  | some p => .ok (.punctuator p, ⟨text.drop p.length, position.after p.toList⟩)
  | none => failAt position (.unexpectedCharacter (text.headD ' '))

def startsNumber : List Char → Bool
  | c :: rest => c.isDigit || (c = '.' && (rest.head?.any Char.isDigit))
  | [] => false

/-- The token at the front of a text that does not start with a blank or a comment. -/
def scanKind (text : List Char) (position : Position) : Scan TokenKind :=
  if startsNumber text then
    let (digits, rest) := numberText false text
    let finish := position.after digits
    match Number.readFloat? digits with
    | some value => .ok (.number value, ⟨rest, finish⟩)
    | none => failAt finish (.invalidNumber (String.ofList digits))
  else match text with
    | c :: rest =>
      if isWordStart c then
        let (word, after) := text.span isWordPart
        .ok (.word (String.ofList word), ⟨after, position.after word⟩)
      else if c = '"' ∨ c = '\'' then scanString c [] rest (position.advance c)
      else if c = backtick then scanTemplate [] (.text []) rest (position.advance c)
      else scanPunctuator text position
    | [] => scanPunctuator text position

/-- The tokens of a text, those found so far last first; each takes one character at least. -/
def scanTokens : (fuel : Nat) → (back : List Token) → List Char → Position →
    Except SourceError TokenStream
  | 0, back, _, position => .ok ⟨back.reverse, position⟩
  | fuel + 1, back, text, position =>
    match skipGap .between text position with
    | .error e => .error e
    | .ok ⟨[], finish⟩ => .ok ⟨back.reverse, finish⟩
    | .ok ⟨rest, start⟩ => match scanKind rest start with
      | .error e => .error e
      | .ok (kind, after) => scanTokens fuel (⟨start, kind⟩ :: back) after.rest after.position

/-- The tokens of a text that begins at a position. -/
def TokenStream.ofTextAt (text : List Char) (position : Position) :
    Except SourceError TokenStream :=
  scanTokens (text.length + 1) [] text position

def TokenStream.ofText (text : String) : Except SourceError TokenStream :=
  ofTextAt text.toList .start

end Tabletop.Script
