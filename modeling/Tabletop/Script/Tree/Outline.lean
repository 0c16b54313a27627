import Tabletop.Script.Tree
import Tabletop.Json.Writer
import Tabletop.Text.Basic

/-!
Outlines of syntax trees: every node in parentheses, its name first.
-/

namespace Tabletop.Script

/-- A node's name and parts in parentheses. -/
def node (parts : List String) : String := "(" ++ Text.joined " " parts ++ ")"

def UnaryOp.name : UnaryOp → String
  | not => "Not"
  | neg => "Neg"
  | plus => "Plus"
  | typeof => "Typeof"

def BinaryOp.name : BinaryOp → String
  | add => "Add"
  | sub => "Sub"
  | mul => "Mul"
  | div => "Div"
  | rem => "Rem"
  | pow => "Pow"
  | lt => "Lt"
  | le => "Le"
  | gt => "Gt"
  | ge => "Ge"
  | looseEq => "LooseEq"
  | looseNe => "LooseNe"
  | strictEq => "StrictEq"
  | strictNe => "StrictNe"

def LogicalOp.name : LogicalOp → String
  | and => "And"
  | or => "Or"

mutual
def Expr.outline : Expr → String
  | .number value => node ["num", Number.programText value]
  | .str value => node ["str", Json.quoted value]
  | .bool value => node [if value then "true" else "false"]
  | .null => node ["null"]
  | .undefined => node ["undefined"]
  | .template pieces => node ("tmpl" :: outlinePieces pieces)
  | .array items => node ("arr" :: outlineAll items)
  | .object properties => node ("obj" :: outlineProperties properties)
  | .name name => node ["id", name]
  | .member object name => node ["mem", object.outline, name]
  | .index object key => node ["idx", object.outline, key.outline]
  | .call callee arguments => node ("call" :: callee.outline :: outlineAll arguments)
  | .unary op operand => node ["un", op.name, operand.outline]
  | .binary op left right => node ["bin", op.name, left.outline, right.outline]
  | .logical op left right => node ["log", op.name, left.outline, right.outline]
  | .conditional test yes no => node ["cond", test.outline, yes.outline, no.outline]
  | .assign none target value => node ["set", "=", target.outline, value.outline]
  | .assign (some op) target value => node ["set", op.name, target.outline, value.outline]
  | .update increment before target =>
    node [if before then "pre" else "post", if increment then "++" else "--", target.outline]
  | .function definition => definition.outline
def FunctionDef.outline : FunctionDef → String
  | .mk name params body => node ["fn", name.getD "-", node params, body.outline]
def FunctionBody.outline : FunctionBody → String
  | .block body => node ("block" :: outlineStatements body)
  | .value value => value.outline
def outlineAll : List Expr → List String
  | [] => []
  | expr :: rest => expr.outline :: outlineAll rest
def outlinePieces : List Piece → List String
  | [] => []
  | .text value :: rest => Json.quoted value :: outlinePieces rest
  | .code value :: rest => value.outline :: outlinePieces rest
def outlineProperties : List Property → List String
  | [] => []
  | .fixed key value :: rest => node [Json.quoted key, value.outline] :: outlineProperties rest
  | .computed key value :: rest =>
    node ["[" ++ key.outline ++ "]", value.outline] :: outlineProperties rest
def Stmt.outline : Stmt → String
  | .declare bindings => node ("let" :: outlineBindings bindings)
  | .function definition => node ["def", definition.outline]
  | .expr value => node ["expr", value.outline]
  | .ifElse test yes no => node ["if", test.outline, yes.outline, outlineStatement? no]
  | .forLoop init test update body =>
    node ["for", outlineStatement? init, outline? test, outline? update, body.outline]
  | .forOf name iterable body => node ["forof", name, iterable.outline, body.outline]
  | .forIn name object body => node ["forin", name, object.outline, body.outline]
  | .whileLoop test body => node ["while", test.outline, body.outline]
  | .block body => node ("block" :: outlineStatements body)
  | .ret value => node ["return", outline? value]
  | .leave => node ["break"]
  | .next => node ["continue"]
  | .empty => node ["empty"]
def outline? : Option Expr → String
  | some value => value.outline
  | none => "-"
def outlineStatement? : Option Stmt → String
  | some stmt => stmt.outline
  | none => "-"
def outlineStatements : List Stmt → List String
  | [] => []
  | stmt :: rest => stmt.outline :: outlineStatements rest
def outlineBindings : List Binding → List String
  | [] => []
  | .mk name init :: rest => node [name, outline? init] :: outlineBindings rest
end

end Tabletop.Script
