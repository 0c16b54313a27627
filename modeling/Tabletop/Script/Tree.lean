/-!
The syntax tree of scoring programs.
-/

namespace Tabletop.Script

inductive UnaryOp where
  | not
  | neg
  | plus
  | typeof
  deriving DecidableEq, Repr

inductive BinaryOp where
  | add
  | sub
  | mul
  | div
  | rem
  | pow
  | lt
  | le
  | gt
  | ge
  | looseEq
  | looseNe
  | strictEq
  | strictNe
  deriving DecidableEq, Repr

inductive LogicalOp where
  | and
  | or
  deriving DecidableEq, Repr

mutual
inductive Expr where
  | number (value : Float)
  | str (value : String)
  | bool (value : Bool)
  | null
  | undefined
  | template (pieces : List Piece)
  | array (items : List Expr)
  | object (properties : List Property)
  | name (name : String)
  | member (object : Expr) (name : String)
  | index (object key : Expr)
  | call (callee : Expr) (arguments : List Expr)
  | unary (op : UnaryOp) (operand : Expr)
  | binary (op : BinaryOp) (left right : Expr)
  | logical (op : LogicalOp) (left right : Expr)
  | conditional (test yes no : Expr)
  /-- An assignment, plain or with the operator that combines the old value with the new one. -/
  | assign (op : Option BinaryOp) (target value : Expr)
  /-- A step up or down; `before` gives the new value, otherwise the old one is the result. -/
  | update (increment before : Bool) (target : Expr)
  | function (definition : FunctionDef)
/-- A piece of a template. -/
inductive Piece where
  | text (value : String)
  | code (value : Expr)
/-- A property of an object literal, its key fixed or computed. -/
inductive Property where
  | fixed (key : String) (value : Expr)
  | computed (key value : Expr)
inductive FunctionBody where
  | block (body : List Stmt)
  | value (value : Expr)
inductive FunctionDef where
  | mk (name : Option String) (params : List String) (body : FunctionBody)
/-- A declared name with its first value. -/
inductive Binding where
  | mk (name : String) (init : Option Expr)
inductive Stmt where
  | declare (bindings : List Binding)
  | function (definition : FunctionDef)
  | expr (value : Expr)
  | ifElse (test : Expr) (yes : Stmt) (no : Option Stmt)
  | forLoop (init : Option Stmt) (test update : Option Expr) (body : Stmt)
  | forOf (name : String) (iterable : Expr) (body : Stmt)
  | forIn (name : String) (object : Expr) (body : Stmt)
  | whileLoop (test : Expr) (body : Stmt)
  | block (body : List Stmt)
  | ret (value : Option Expr)
  | leave
  | next
  | empty
end

instance : Inhabited Expr := ⟨.undefined⟩
instance : Inhabited Stmt := ⟨.empty⟩
instance : Inhabited FunctionDef := ⟨.mk none [] (.block [])⟩

namespace FunctionDef

def name : FunctionDef → Option String
  | mk name _ _ => name

def params : FunctionDef → List String
  | mk _ params _ => params

def body : FunctionDef → FunctionBody
  | mk _ _ body => body

end FunctionDef

/-- A program is its statements. -/
abbrev Program := List Stmt

/-- The first top-level function declared under a name. -/
def Program.function? (program : Program) (name : String) : Option FunctionDef :=
  program.findSome? fun
    | .function definition => if definition.name = some name then some definition else none
    | _ => none

end Tabletop.Script
