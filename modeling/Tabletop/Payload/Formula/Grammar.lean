import Tabletop.Payload.Formula.Token

/-!
Formulas from tokens. A sum joins products, a product joins signed operands, and a power binds tighter
than a sign on its left and takes a signed operand on its right. Chains are bounded by the number of
all tokens, since every link takes one.
-/

namespace Tabletop.Payload.Formula

/-- What was read and the tokens left, or a problem and the tokens that it stands at. -/
abbrev Reading (α : Type) := Except (Problem × List Token) (α × List Token)

def Operator.joining? : Operator → Option Joining
  | plus => some .add
  | minus => some .sub
  | _ => none

def Operator.scaling? : Operator → Option Scaling
  | times => some .mul
  | slash => some .div
  | _ => none

/-- Operands with operators before them, those read so far last first. -/
def links {α : Type} (link? : Operator → Option α) (operand : List Token → Reading Formula) :
    (bound : Nat) → (back : List (α × Formula)) → List Token → Reading (List (α × Formula))
  | 0, back, tokens => .ok (back.reverse, tokens)
  | bound + 1, back, tokens =>
    match tokens with
    | ⟨_, .operator op⟩ :: rest => match link? op with
      | none => .ok (back.reverse, tokens)
      | some link => match operand rest with
        | .ok (value, after) => links link? operand bound ((link, value) :: back) after
        | .error e => .error e
    | _ => .ok (back.reverse, tokens)

/-- A chain of factors; one alone stays what it is. -/
def readProduct (bound : Nat) (operand : List Token → Reading Formula) (tokens : List Token) :
    Reading Formula :=
  match operand tokens with
  | .error e => .error e
  | .ok (first, after) => match links Operator.scaling? operand bound [] after with
    | .error e => .error e
    | .ok ([], rest) => .ok (first, rest)
    | .ok (factor :: factors, rest) => .ok (.product first (factor :: factors), rest)

/-- A chain of terms; one alone stays what it is. -/
def readSum (bound : Nat) (operand : List Token → Reading Formula) (tokens : List Token) :
    Reading Formula :=
  match readProduct bound operand tokens with
  | .error e => .error e
  | .ok (first, after) =>
    match links Operator.joining? (readProduct bound operand) bound [] after with
    | .error e => .error e
    | .ok ([], rest) => .ok (first, rest)
    | .ok (term :: terms, rest) => .ok (.sum first (term :: terms), rest)

/-- A number, a name, or a sum in parentheses. -/
def readAtom (bound : Nat) (operand : List Token → Reading Formula) (tokens : List Token) :
    Reading Formula :=
  match tokens with
  | [] => .error (.unexpectedEnd, tokens)
  | ⟨_, .number value⟩ :: rest => .ok (.number value, rest)
  | ⟨_, .name text⟩ :: rest => .ok (.reference text, rest)
  | ⟨_, .operator .opening⟩ :: rest => match readSum bound operand rest with
    | .error e => .error e
    | .ok (inner, ⟨_, .operator .closing⟩ :: after) => .ok (inner, after)
    | .ok (_, after) => .error (.expectedClosing, after)
  | ⟨_, .operator op⟩ :: _ => .error (.unexpectedOperator op, tokens)

/-- An atom, and the power that it is raised to. -/
def readPower (bound : Nat) (operand : List Token → Reading Formula) (tokens : List Token) :
    Reading Formula :=
  match readAtom bound operand tokens with
  | .ok (base, ⟨_, .operator .power⟩ :: rest) => match operand rest with
    | .ok (exponent, after) => .ok (.power base exponent, after)
    | .error e => .error e
  | other => other

/-- An operand with its signs; `levels` says how many may stand inside one another. -/
def readOperand (bound : Nat) : (levels : Nat) → List Token → Reading Formula
  | 0, tokens => .error (.nestedTooDeep, tokens)
  | levels + 1, tokens =>
    match tokens with
    | ⟨_, .operator .minus⟩ :: rest => match readOperand bound levels rest with
      | .ok (inner, after) => .ok (.neg inner, after)
      | .error e => .error e
    | ⟨_, .operator .plus⟩ :: rest => readOperand bound levels rest
    | _ => readPower bound (readOperand bound levels) tokens

/-- The formula that all the tokens make up. -/
def ofTokens (tokens : List Token) : Except (Problem × List Token) Formula :=
  match readSum tokens.length (readOperand tokens.length nestingLimit) tokens with
  | .ok (formula, []) => .ok formula
  | .ok (_, rest) => .error (.trailingInput, rest)
  | .error e => .error e

/-- Reads a text that is one formula; a problem behind the last token is met at the text's end. -/
def read (text : String) : Except Misreading Formula :=
  match tokens text with
  | .error e => .error e
  | .ok tokens => match ofTokens tokens with
    | .ok formula => .ok formula
    | .error (problem, rest) =>
      .error ⟨(rest.head?.map Token.offset).getD text.utf8ByteSize, problem⟩

end Tabletop.Payload.Formula
