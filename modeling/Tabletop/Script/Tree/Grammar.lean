import Tabletop.Script.Tree
import Tabletop.Script.Token.Scan
import Tabletop.Number.Layout

/-!
Syntax trees from tokens. Statements, assignments, operands and powers may stand inside one another
to a limited depth. `Levels` holds the readers for what stands deeper, one entry for every level
still allowed, so a reader that goes down takes the first entry and a chain of operators, whose every
link counts as a level, takes one entry after another.
-/

namespace Tabletop.Script

/-- Readers take the tokens that are left. -/
abbrev Reader := StateT TokenStream (Except SourceError)

/-- The readers of what stands one level deeper. -/
structure Level where
  statement : Reader Stmt
  assignment : Reader Expr
  operand : Reader Expr
  power : Reader Expr

/-- The levels still allowed, the next one first. -/
abbrev Levels := List Level

namespace Reader

/-- Where the next token stands, or the text ends. -/
def position : Reader Position := do
  let stream ← get
  return match stream.tokens with
    | token :: _ => token.position
    | [] => stream.finish

def fail {α : Type} (problem : Problem) : Reader α := do
  let position ← position
  throw ⟨position, problem⟩

def peek : Reader (Option TokenKind) := do
  let stream ← get
  return stream.tokens.head?.map Token.kind

def skip : Reader Unit := modify fun stream => { stream with tokens := stream.tokens.tail }

/-- The tokens that are left, which bound how often a reader can be repeated. -/
def remaining : Reader (List Token) := do
  let stream ← get
  return stream.tokens

def isPunctuator (text : String) : Option TokenKind → Bool
  | some (.punctuator p) => p == text
  | _ => false

def isKeyword (text : String) : Option TokenKind → Bool
  | some (.word name) => name == text
  | _ => false

/-- Whether the next token is a punctuator. -/
def sees (text : String) : Reader Bool := do
  let kind ← peek
  return isPunctuator text kind

def seesWord (text : String) : Reader Bool := do
  let kind ← peek
  return isKeyword text kind

/-- Takes a punctuator if it is the next token. -/
def take (text : String) : Reader Bool := do
  if ← sees text then
    skip
    return true
  else return false

def takeWord (text : String) : Reader Bool := do
  if ← seesWord text then
    skip
    return true
  else return false

def expect (text : String) : Reader Unit := do
  if ← take text then return () else fail (.expected text)

def identifier : Reader String := do
  match ← peek with
  | some (.word name) =>
    skip
    return name
  | _ => fail .expectedIdentifier

def endStatement : Reader Unit := do
  let _ ← take ";"
  return ()

/-- Items with commas between them before a closing punctuator, those read so far last first. Every
item takes a token at least, so there are no more of them than tokens in `bound`. -/
def itemsBefore {α : Type} (close : String) (item : Reader α) (bound : List Token)
    (back : List α) : Reader (List α) := do
  if ← sees close then return back.reverse
  else
    let value ← item
    if ← take "," then
      match bound with
      | [] => return (value :: back).reverse
      | _ :: bound => itemsBefore close item bound (value :: back)
    else return (value :: back).reverse

/-- Items with commas between them, and the closing punctuator. -/
def separated {α : Type} (close : String) (item : Reader α) : Reader (List α) := do
  let bound ← remaining
  let items ← itemsBefore close item bound []
  expect close
  return items

def parameters : Reader (List String) := do
  expect "("
  separated ")" identifier

/-- Reads one level deeper. -/
def nested {α : Type} (levels : Levels) (read : Level → Reader α) : Reader α :=
  match levels with
  | [] => fail .nestingTooDeep
  | level :: _ => read level

def statement (levels : Levels) : Reader Stmt := nested levels Level.statement
def assignment (levels : Levels) : Reader Expr := nested levels Level.assignment
def operand (levels : Levels) : Reader Expr := nested levels Level.operand

def expression (levels : Levels) : Reader Expr := assignment levels

/-- Statements and the closing brace, those read so far last first. -/
def statementsBefore (levels : Levels) (bound : List Token) (back : List Stmt) :
    Reader (List Stmt) := do
  match ← peek with
  | none => fail (.expected "\x7d")
  | kind =>
    if isPunctuator "\x7d" kind then
      skip
      return back.reverse
    else
      let stmt ← statement levels
      match bound with
      | [] => fail (.expected "\x7d")
      | _ :: bound => statementsBefore levels bound (stmt :: back)

def block (levels : Levels) : Reader (List Stmt) := do
  expect "\x7b"
  let bound ← remaining
  statementsBefore levels bound []

/-- What follows the word `function`; a declaration needs a name. -/
def functionRest (levels : Levels) (named : Bool) : Reader FunctionDef := do
  let name ← do
    match ← peek with
    | some (.word name) =>
      skip
      pure (some name)
    | _ => if named then fail .expectedFunctionName else pure none
  let params ← parameters
  let body ← block levels
  return .mk name params (.block body)

/-- Reads all tokens of a text as one expression. -/
def wholeExpression (levels : Levels) (text : List Char) (position : Position) :
    Except SourceError Expr := do
  let stream ← TokenStream.ofTextAt text position
  let (expr, rest) ← (expression levels).run stream
  match rest.tokens with
  | [] => return expr
  | token :: _ => failAt token.position .tokenAfterExpression

def pieces (levels : Levels) : List TemplatePart → Except SourceError (List Piece)
  | [] => .ok []
  | .text value :: rest => do
    let more ← pieces levels rest
    return .text (String.ofList value) :: more
  | .code source position :: rest => do
    let expr ← wholeExpression levels source position
    let more ← pieces levels rest
    return .code expr :: more

/-- A property of an object literal; a name alone is its own value. -/
def property (levels : Levels) : Reader Property := do
  let keyKind ← peek
  skip
  match keyKind with
  | some (.word name) =>
    if ← take ":" then return .fixed name (← assignment levels)
    else return .fixed name (.name name)
  | some (.string key) =>
    expect ":"
    return .fixed key (← assignment levels)
  | some (.number value) =>
    expect ":"
    return .fixed (Number.programText value) (← assignment levels)
  | some (.punctuator "[") =>
    let key ← expression levels
    expect "]"
    expect ":"
    return .computed key (← assignment levels)
  | _ => fail .expectedPropertyKey

def primary (levels : Levels) : Reader Expr := do
  let start ← position
  match ← peek with
  | none => fail .unexpectedEnd
  | some kind =>
    skip
    match kind with
    | .number value => return .number value
    | .string value => return .str value
    | .template parts => return .template (← (pieces levels parts : Except SourceError _))
    | .word "true" => return .bool true
    | .word "false" => return .bool false
    | .word "null" => return .null
    | .word "undefined" => return .undefined
    | .word "function" => return .function (← functionRest levels false)
    | .word name => return .name name
    | .punctuator "(" =>
      let expr ← expression levels
      expect ")"
      return expr
    | .punctuator "[" => return .array (← separated "]" (assignment levels))
    | .punctuator "\x7b" => return .object (← separated "\x7d" (property levels))
    | .punctuator text => throw ⟨start, .unexpectedToken text⟩

/-- Member names, keys and arguments behind an expression, each one level deeper than the last. -/
def suffixes : Levels → Expr → Reader Expr
  | [], expr => do
    let kind ← peek
    if isPunctuator "." kind || isPunctuator "[" kind || isPunctuator "(" kind then
      fail .nestingTooDeep
    else return expr
  | _ :: deeper, expr => do
    if ← take "." then
      let name ← identifier
      suffixes deeper (.member expr name)
    else if ← take "[" then
      let key ← expression deeper
      expect "]"
      suffixes deeper (.index expr key)
    else if ← take "(" then
      let arguments ← separated ")" (assignment deeper)
      suffixes deeper (.call expr arguments)
    else return expr

def callee (levels : Levels) : Reader Expr := do
  let expr ← primary levels
  suffixes levels expr

/-- An expression, perhaps with a step up or down behind it on the line where it starts. -/
def stepped (levels : Levels) : Reader Expr := do
  let start ← position
  let expr ← callee levels
  let here ← position
  if here.line = start.line then
    if ← take "++" then return .update true false expr
    else if ← take "--" then return .update false false expr
    else return expr
  else return expr

def operandBody (levels : Levels) : Reader Expr := do
  if ← take "!" then return .unary .not (← operand levels)
  else if ← take "-" then return .unary .neg (← operand levels)
  else if ← take "+" then return .unary .plus (← operand levels)
  else if ← takeWord "typeof" then return .unary .typeof (← operand levels)
  else if ← take "++" then return .update true true (← operand levels)
  else if ← take "--" then return .update false true (← operand levels)
  else stepped levels

/-- A power; its exponent is a power again. -/
def powerBody (levels : Levels) : Reader Expr := do
  let base ← operand levels
  if ← take "**" then return .binary .pow base (← nested levels Level.power)
  else return base

/-- Takes the first operator of a table that is the next token. -/
def takeOperator {α : Type} : List (String × α) → Reader (Option α)
  | [] => return none
  | (text, op) :: rest => do
    if ← take text then return some op else takeOperator rest

/-- Links of a chain that leans to the left, each one level deeper than the last. -/
def links {α : Type} (table : List (String × α)) (combine : α → Expr → Expr → Expr)
    (next : Levels → Reader Expr) : Levels → Expr → Reader Expr
  | [], left => do
    match ← takeOperator table with
    | none => return left
    | some _ => fail .nestingTooDeep
  | _ :: deeper, left => do
    match ← takeOperator table with
    | none => return left
    | some op =>
      let right ← next deeper
      links table combine next deeper (combine op left right)

def chain {α : Type} (table : List (String × α)) (combine : α → Expr → Expr → Expr)
    (next : Levels → Reader Expr) (levels : Levels) : Reader Expr := do
  let first ← next levels
  links table combine next levels first

def product : Levels → Reader Expr :=
  chain [("*", .mul), ("/", .div), ("%", .rem)] Expr.binary powerBody

def sum : Levels → Reader Expr := chain [("+", .add), ("-", .sub)] Expr.binary product

def relation : Levels → Reader Expr :=
  chain [("<=", .le), (">=", .ge), ("<", .lt), (">", .gt)] Expr.binary sum

def equality : Levels → Reader Expr :=
  chain [("===", .strictEq), ("!==", .strictNe), ("==", .looseEq), ("!=", .looseNe)] Expr.binary
    relation

def conjunction : Levels → Reader Expr := chain [("&&", .and)] Expr.logical equality

def disjunction : Levels → Reader Expr := chain [("||", .or)] Expr.logical conjunction

def conditional (levels : Levels) : Reader Expr := do
  let test ← disjunction levels
  if ← take "?" then
    let yes ← assignment levels
    expect ":"
    let no ← assignment levels
    return .conditional test yes no
  else return test

/-- Whether parameters up to a closing parenthesis and an arrow follow an opening one. -/
def parametersAhead : List Token → Bool
  | ⟨_, .punctuator ")"⟩ :: ⟨_, .punctuator "=>"⟩ :: _ => true
  | ⟨_, .word _⟩ :: ⟨_, .punctuator ","⟩ :: rest => parametersAhead rest
  | ⟨_, .word _⟩ :: ⟨_, .punctuator ")"⟩ :: ⟨_, .punctuator "=>"⟩ :: _ => true
  | _ => false

/-- Whether the tokens start an arrow function. -/
def arrowAhead : List Token → Bool
  | ⟨_, .word _⟩ :: ⟨_, .punctuator "=>"⟩ :: _ => true
  | ⟨_, .punctuator "("⟩ :: rest => parametersAhead rest
  | _ => false

/-- Parameters in parentheses, or a single one, and the arrow. -/
def arrowHead : Reader (List String) := do
  let params ← do
    if ← sees "(" then parameters
    else
      let name ← identifier
      pure [name]
  expect "=>"
  return params

def arrow (levels : Levels) : Reader Expr := do
  let params ← arrowHead
  let body ← do
    if ← sees "\x7b" then
      let body ← block levels
      pure (FunctionBody.block body)
    else
      let value ← assignment levels
      pure (FunctionBody.value value)
  return .function (.mk none params body)

def assignmentOperators : List (String × Option BinaryOp) :=
  [("=", none), ("+=", some .add), ("-=", some .sub), ("*=", some .mul), ("/=", some .div),
    ("%=", some .rem), ("**=", some .pow)]

/-- Whether an expression can be assigned to. -/
def isTarget : Expr → Bool
  | .name _ => true
  | .member _ _ => true
  | .index _ _ => true
  | _ => false

def assignmentBody (levels : Levels) : Reader Expr := do
  let stream ← get
  if arrowAhead stream.tokens then arrow levels
  else
    let target ← conditional levels
    let kind ← peek
    match assignmentOperators.find? fun entry => isPunctuator entry.1 kind with
    | none => return target
    | some (_, op) =>
      if isTarget target then
        skip
        let value ← assignment levels
        return .assign op target value
      else fail .invalidTarget

/-- Names with their first values, those read so far last first. -/
def bindings (levels : Levels) (bound : List Token) (back : List Binding) :
    Reader (List Binding) := do
  let name ← identifier
  let init ← do
    if ← take "=" then
      let value ← assignment levels
      pure (some value)
    else pure none
  let back := Binding.mk name init :: back
  if ← take "," then
    match bound with
    | [] => return back.reverse
    | _ :: bound => bindings levels bound back
  else return back.reverse

/-- What follows the word of a declaration. -/
def declaration (levels : Levels) : Reader Stmt := do
  skip
  let bound ← remaining
  return .declare (← bindings levels bound [])

def isDeclarationWord (kind : Option TokenKind) : Bool :=
  isKeyword "let" kind || isKeyword "const" kind || isKeyword "var" kind

/-- An optional expression before a closing punctuator, which is taken too. -/
def optionalBefore (levels : Levels) (close : String) : Reader (Option Expr) := do
  let value ← do
    if ← sees close then pure none
    else
      let value ← expression levels
      pure (some value)
  expect close
  return value

/-- The name and the word of a loop over items or keys, if the tokens start one. -/
def iterationHead? : List Token → Option (String × Bool)
  | ⟨_, .word name⟩ :: ⟨_, .word "of"⟩ :: _ => some (name, true)
  | ⟨_, .word name⟩ :: ⟨_, .word "in"⟩ :: _ => some (name, false)
  | _ => none

def forStatement (levels : Levels) : Reader Stmt := do
  expect "("
  let declared := isDeclarationWord (← peek)
  let stream ← get
  let ahead := if declared then stream.tokens.tail else stream.tokens
  match iterationHead? ahead with
  | some (name, isOf) =>
    set { stream with tokens := ahead.drop 2 }
    let target ← expression levels
    expect ")"
    let body ← statement levels
    return if isOf then .forOf name target body else .forIn name target body
  | none =>
    let init ← do
      if ← sees ";" then pure none
      else if declared then
        let init ← declaration levels
        pure (some init)
      else
        let value ← expression levels
        pure (some (Stmt.expr value))
    expect ";"
    let test ← optionalBefore levels ";"
    let update ← optionalBefore levels ")"
    let body ← statement levels
    return .forLoop init test update body

/-- What follows the word `return`; the value has to start on the same line. -/
def returnRest (levels : Levels) (line : Nat) : Reader Stmt := do
  let here ← position
  let kind ← peek
  let value ← do
    if line < here.line || kind.isNone || isPunctuator ";" kind || isPunctuator "\x7d" kind then
      pure none
    else
      let value ← expression levels
      pure (some value)
  endStatement
  return .ret value

def condition (levels : Levels) : Reader Expr := do
  expect "("
  let test ← expression levels
  expect ")"
  return test

def statementBody (levels : Levels) : Reader Stmt := do
  let start ← position
  let kind ← peek
  if isPunctuator ";" kind then
    skip
    return .empty
  else if isPunctuator "\x7b" kind then return .block (← block levels)
  else if isDeclarationWord kind then
    let stmt ← declaration levels
    endStatement
    return stmt
  else if isKeyword "function" kind then
    skip
    return .function (← functionRest levels true)
  else if isKeyword "if" kind then
    skip
    let test ← condition levels
    let yes ← statement levels
    if ← takeWord "else" then return .ifElse test yes (some (← statement levels))
    else return .ifElse test yes none
  else if isKeyword "for" kind then
    skip
    forStatement levels
  else if isKeyword "while" kind then
    skip
    let test ← condition levels
    return .whileLoop test (← statement levels)
  else if isKeyword "return" kind then
    skip
    returnRest levels start.line
  else if isKeyword "break" kind then
    skip
    endStatement
    return .leave
  else if isKeyword "continue" kind then
    skip
    endStatement
    return .next
  else
    let value ← expression levels
    endStatement
    return .expr value

/-- The readers of the next level, given those below it. -/
def levelAbove (levels : Levels) : Level :=
  ⟨statementBody levels, assignmentBody levels, operandBody levels, powerBody levels⟩

/-- As many levels as `count`. -/
def levelsOf : (count : Nat) → Levels
  | 0 => []
  | count + 1 =>
    let levels := levelsOf count
    levelAbove levels :: levels

/-- Statements up to the end, those read so far last first. -/
def statements (levels : Levels) (bound : List Token) (back : List Stmt) : Reader Program := do
  match ← peek with
  | none => return back.reverse
  | some _ =>
    let stmt ← statement levels
    match bound with
    | [] => return (stmt :: back).reverse
    | _ :: bound => statements levels bound (stmt :: back)

end Reader

/-- Reads a whole program. -/
def Program.read (text : String) : Except SourceError Program := do
  let stream ← TokenStream.ofText text
  let (program, _) ←
    (Reader.statements (Reader.levelsOf nestingLimit) stream.tokens []).run stream
  return program

/-- Reads a text as one expression; its first character stands at the position. -/
def Expr.readAt (text : String) (position : Position) : Except SourceError Expr :=
  Reader.wholeExpression (Reader.levelsOf nestingLimit) text.toList position

end Tabletop.Script
