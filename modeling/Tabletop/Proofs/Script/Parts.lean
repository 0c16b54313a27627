import Tabletop.Script.Tree

/-!
The parts of a program that may make a text or an array: the texts of its strings and of its fixed keys,
its array literals, and the members that it calls.
-/

namespace Tabletop.Script

inductive Part where
  | text (value : String)
  | array (length : Nat)
  | method (name : String)
  deriving DecidableEq, Repr

/-- What the callee of a call may be called as. -/
def Expr.called : Expr → List Part
  | .member _ method => [.method method]
  | _ => []

mutual
def Expr.parts : Expr → List Part
  | .number _ | .bool _ | .null | .undefined | .name _ => []
  | .str value => [.text value]
  | .template pieces => piecesParts pieces
  | .array items => .array items.length :: exprsParts items
  | .object properties => propertiesParts properties
  | .member object _ => object.parts
  | .index object key => object.parts ++ key.parts
  | .call callee arguments => callee.called ++ (callee.parts ++ exprsParts arguments)
  | .unary _ operand => operand.parts
  | .binary _ left right => left.parts ++ right.parts
  | .logical _ left right => left.parts ++ right.parts
  | .conditional test yes no => test.parts ++ (yes.parts ++ no.parts)
  | .assign _ target value => target.parts ++ value.parts
  | .update _ _ target => target.parts
  | .function definition => definition.parts
def FunctionDef.parts : FunctionDef → List Part
  | .mk _ _ body => body.parts
def FunctionBody.parts : FunctionBody → List Part
  | .block body => stmtsParts body
  | .value value => value.parts
def Stmt.parts : Stmt → List Part
  | .declare bindings => bindingsParts bindings
  | .function definition => definition.parts
  | .expr value => value.parts
  | .ifElse test yes no => test.parts ++ (yes.parts ++ stmtParts? no)
  | .forLoop init test update body =>
    stmtParts? init ++ (exprParts? test ++ (exprParts? update ++ body.parts))
  | .forOf _ iterable body => iterable.parts ++ body.parts
  | .forIn _ object body => object.parts ++ body.parts
  | .whileLoop test body => test.parts ++ body.parts
  | .block body => stmtsParts body
  | .ret value => exprParts? value
  | .leave | .next | .empty => []
def exprParts? : Option Expr → List Part
  | some value => value.parts
  | none => []
def stmtParts? : Option Stmt → List Part
  | some stmt => stmt.parts
  | none => []
def exprsParts : List Expr → List Part
  | [] => []
  | value :: rest => value.parts ++ exprsParts rest
def piecesParts : List Piece → List Part
  | [] => []
  | .text _ :: rest => piecesParts rest
  | .code value :: rest => value.parts ++ piecesParts rest
def propertiesParts : List Property → List Part
  | [] => []
  | .fixed key value :: rest => .text key :: (value.parts ++ propertiesParts rest)
  | .computed key value :: rest => key.parts ++ (value.parts ++ propertiesParts rest)
def stmtsParts : List Stmt → List Part
  | [] => []
  | stmt :: rest => stmt.parts ++ stmtsParts rest
def bindingsParts : List Binding → List Part
  | [] => []
  | .mk _ init :: rest => exprParts? init ++ bindingsParts rest
end

/-- The parts of all statements of a program. -/
def Program.parts (program : Program) : List Part := stmtsParts program

end Tabletop.Script
