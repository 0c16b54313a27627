import Tabletop.Script.Position

/-!
The tokens of program text.
-/

namespace Tabletop.Script

/-- A piece of a template: its text, or the text of a substituted expression and where it starts. -/
inductive TemplatePart where
  | text (value : List Char)
  | code (source : List Char) (position : Position)
  deriving DecidableEq, Repr

inductive TokenKind where
  | number (value : Float)
  | string (value : String)
  | template (parts : List TemplatePart)
  | word (name : String)
  | punctuator (text : String)
  deriving Repr

structure Token where
  position : Position
  kind : TokenKind
  deriving Repr

/-- A program's tokens and where its text ends. -/
structure TokenStream where
  tokens : List Token
  finish : Position
  deriving Repr

/-- The punctuators, longer ones first. -/
def punctuators : List String :=
  ["===", "!==", "**=", "=>", "==", "!=", "<=", ">=", "&&", "||", "++", "--", "+=", "-=", "*=",
    "/=", "%=", "**", "\x7b", "\x7d", "(", ")", "[", "]", ";", ",", ".", ":", "?", "+", "-", "*",
    "/", "%", "<", ">", "=", "!"]

end Tabletop.Script
