/-!
Places in program text and what can be wrong there.
-/

namespace Tabletop.Script

/-- A line and a column, both counted from one; columns count characters. -/
structure Position where
  line : Nat
  column : Nat
  deriving DecidableEq, Repr

namespace Position

def start : Position := ⟨1, 1⟩

/-- The position behind a character. -/
def advance (position : Position) (c : Char) : Position :=
  if c = '\n' then ⟨position.line + 1, 1⟩ else ⟨position.line, position.column + 1⟩

/-- The position behind a text. -/
def after (position : Position) (text : List Char) : Position := text.foldl advance position

@[simp] theorem after_nil (position : Position) : position.after [] = position := rfl

@[simp] theorem after_cons (position : Position) (c : Char) (text : List Char) :
    position.after (c :: text) = (position.advance c).after text := rfl

theorem after_append (position : Position) (text more : List Char) :
    position.after (text ++ more) = (position.after text).after more := List.foldl_append ..

end Position

/-- Why a text is no program. -/
inductive Problem where
  | unterminatedComment
  | unterminatedEscape
  | unterminatedString
  | unterminatedTemplate
  | unterminatedSubstitution
  | invalidNumber (text : String)
  | unexpectedCharacter (c : Char)
  | nestingTooDeep
  | expected (punctuator : String)
  | expectedIdentifier
  | expectedFunctionName
  | expectedPropertyKey
  | invalidTarget
  | unexpectedEnd
  | unexpectedToken (punctuator : String)
  | tokenAfterExpression
  deriving DecidableEq, Repr

/-- Statements and expressions stand this many levels inside one another at most. -/
def nestingLimit : Nat := 128

def Problem.message : Problem → String
  | unterminatedComment => "unterminated comment"
  | unterminatedEscape => "unterminated escape"
  | unterminatedString => "unterminated string"
  | unterminatedTemplate => "unterminated template literal"
  | unterminatedSubstitution => "unterminated substitution"
  | invalidNumber text => s!"invalid number '{text}'"
  | unexpectedCharacter c => s!"unexpected character '{c}'"
  | nestingTooDeep => s!"nesting deeper than {nestingLimit} levels"
  | expected punctuator => s!"expected '{punctuator}'"
  | expectedIdentifier => "expected identifier"
  | expectedFunctionName => "expected function name"
  | expectedPropertyKey => "expected property key"
  | invalidTarget => "invalid assignment target"
  | unexpectedEnd => "unexpected end of input"
  | unexpectedToken punctuator => s!"unexpected token Punct(\"{punctuator}\")"
  | tokenAfterExpression => "unexpected token after expression"

/-- A problem and where it was met. -/
structure SourceError where
  position : Position
  problem : Problem
  deriving DecidableEq, Repr

def SourceError.message (e : SourceError) : String :=
  s!"syntax error at {e.position.line}:{e.position.column}: {e.problem.message}"

end Tabletop.Script
