import Tabletop.Proofs.Script.Grading.Levels

/-!
The strings and keys of a program that was read take no more bytes than its text, or than the text of a
number where a number is a key.
-/

namespace Tabletop.Script

mutual
/-- Expressions whose strings and fixed keys take no more bytes than a limit. -/
inductive Expr.Fits (limit : Nat) : Expr → Prop where
  | number (value : Float) : Expr.Fits limit (.number value)
  | str {value : String} (fits : value.utf8ByteSize ≤ limit) : Expr.Fits limit (.str value)
  | bool (value : Bool) : Expr.Fits limit (.bool value)
  | null : Expr.Fits limit .null
  | undefined : Expr.Fits limit .undefined
  | template {pieces : List Piece} (inside : ∀ piece ∈ pieces, Piece.Fits limit piece) :
    Expr.Fits limit (.template pieces)
  | array {items : List Expr} (inside : ∀ item ∈ items, Expr.Fits limit item) :
    Expr.Fits limit (.array items)
  | object {properties : List Property}
    (inside : ∀ property ∈ properties, Property.Fits limit property) :
    Expr.Fits limit (.object properties)
  | name (name : String) : Expr.Fits limit (.name name)
  | member {object : Expr} (fits : Expr.Fits limit object) (name : String) :
    Expr.Fits limit (.member object name)
  | index {object key : Expr} (object_fits : Expr.Fits limit object)
    (key_fits : Expr.Fits limit key) : Expr.Fits limit (.index object key)
  | call {callee : Expr} {arguments : List Expr} (callee_fits : Expr.Fits limit callee)
    (inside : ∀ argument ∈ arguments, Expr.Fits limit argument) :
    Expr.Fits limit (.call callee arguments)
  | unary (op : UnaryOp) {operand : Expr} (fits : Expr.Fits limit operand) :
    Expr.Fits limit (.unary op operand)
  | binary (op : BinaryOp) {left right : Expr} (left_fits : Expr.Fits limit left)
    (right_fits : Expr.Fits limit right) : Expr.Fits limit (.binary op left right)
  | logical (op : LogicalOp) {left right : Expr} (left_fits : Expr.Fits limit left)
    (right_fits : Expr.Fits limit right) : Expr.Fits limit (.logical op left right)
  | conditional {test yes no : Expr} (test_fits : Expr.Fits limit test)
    (yes_fits : Expr.Fits limit yes) (no_fits : Expr.Fits limit no) :
    Expr.Fits limit (.conditional test yes no)
  | assign (op : Option BinaryOp) {target value : Expr} (target_fits : Expr.Fits limit target)
    (value_fits : Expr.Fits limit value) : Expr.Fits limit (.assign op target value)
  | update (increment before : Bool) {target : Expr} (fits : Expr.Fits limit target) :
    Expr.Fits limit (.update increment before target)
  | function {definition : FunctionDef} (fits : FunctionDef.Fits limit definition) :
    Expr.Fits limit (.function definition)
inductive Piece.Fits (limit : Nat) : Piece → Prop where
  | text (value : String) : Piece.Fits limit (.text value)
  | code {value : Expr} (fits : Expr.Fits limit value) : Piece.Fits limit (.code value)
inductive Property.Fits (limit : Nat) : Property → Prop where
  | fixed {key : String} {value : Expr} (key_fits : key.utf8ByteSize ≤ limit)
    (fits : Expr.Fits limit value) : Property.Fits limit (.fixed key value)
  | computed {key value : Expr} (key_fits : Expr.Fits limit key) (fits : Expr.Fits limit value) :
    Property.Fits limit (.computed key value)
inductive FunctionBody.Fits (limit : Nat) : FunctionBody → Prop where
  | block {body : List Stmt} (inside : ∀ stmt ∈ body, Stmt.Fits limit stmt) :
    FunctionBody.Fits limit (.block body)
  | value {value : Expr} (fits : Expr.Fits limit value) : FunctionBody.Fits limit (.value value)
inductive FunctionDef.Fits (limit : Nat) : FunctionDef → Prop where
  | mk (name : Option String) (params : List String) {body : FunctionBody}
    (fits : FunctionBody.Fits limit body) : FunctionDef.Fits limit (.mk name params body)
inductive Binding.Fits (limit : Nat) : Binding → Prop where
  | mk (name : String) {init : Option Expr} (fits : ∀ value ∈ init, Expr.Fits limit value) :
    Binding.Fits limit (.mk name init)
/-- Statements whose strings and fixed keys take no more bytes than a limit. -/
inductive Stmt.Fits (limit : Nat) : Stmt → Prop where
  | declare {bindings : List Binding} (inside : ∀ binding ∈ bindings, Binding.Fits limit binding) :
    Stmt.Fits limit (.declare bindings)
  | function {definition : FunctionDef} (fits : FunctionDef.Fits limit definition) :
    Stmt.Fits limit (.function definition)
  | expr {value : Expr} (fits : Expr.Fits limit value) : Stmt.Fits limit (.expr value)
  | ifElse {test : Expr} {yes : Stmt} {no : Option Stmt} (test_fits : Expr.Fits limit test)
    (yes_fits : Stmt.Fits limit yes) (no_fits : ∀ stmt ∈ no, Stmt.Fits limit stmt) :
    Stmt.Fits limit (.ifElse test yes no)
  | forLoop {init : Option Stmt} {test update : Option Expr} {body : Stmt}
    (init_fits : ∀ stmt ∈ init, Stmt.Fits limit stmt)
    (test_fits : ∀ expr ∈ test, Expr.Fits limit expr)
    (update_fits : ∀ expr ∈ update, Expr.Fits limit expr) (body_fits : Stmt.Fits limit body) :
    Stmt.Fits limit (.forLoop init test update body)
  | forOf (name : String) {iterable : Expr} {body : Stmt} (fits : Expr.Fits limit iterable)
    (body_fits : Stmt.Fits limit body) : Stmt.Fits limit (.forOf name iterable body)
  | forIn (name : String) {object : Expr} {body : Stmt} (fits : Expr.Fits limit object)
    (body_fits : Stmt.Fits limit body) : Stmt.Fits limit (.forIn name object body)
  | whileLoop {test : Expr} {body : Stmt} (fits : Expr.Fits limit test)
    (body_fits : Stmt.Fits limit body) : Stmt.Fits limit (.whileLoop test body)
  | block {body : List Stmt} (inside : ∀ stmt ∈ body, Stmt.Fits limit stmt) :
    Stmt.Fits limit (.block body)
  | ret {value : Option Expr} (fits : ∀ expr ∈ value, Expr.Fits limit expr) :
    Stmt.Fits limit (.ret value)
  | leave : Stmt.Fits limit .leave
  | next : Stmt.Fits limit .next
  | empty : Stmt.Fits limit .empty
end

def Program.Fits (limit : Nat) (program : Program) : Prop := ∀ stmt ∈ program, stmt.Fits limit

/-- Trees that fit a limit, whatever their grade. -/
def fitting (limit : Nat) : Grading limit where
  expr _ := Expr.Fits limit
  piece _ := Piece.Fits limit
  property _ := Property.Fits limit
  body _ := FunctionBody.Fits limit
  definition _ := FunctionDef.Fits limit
  binding _ := Binding.Fits limit
  stmt _ := Stmt.Fits limit
  raise_expr _ fits := fits
  raise_stmt _ fits := fits
  number _ := .number
  str _ fits := .str fits
  bool _ := .bool
  null _ := .null
  undefined _ := .undefined
  name _ := .name
  text _ := .text
  leave _ := .leave
  next _ := .next
  empty _ := .empty
  template := .template
  array := .array
  object := .object
  member name fits := .member fits name
  index := .index
  call := .call
  unary op fits := .unary op fits
  binary op left right := .binary op left right
  logical op left right := .logical op left right
  conditional := .conditional
  assign op target value := .assign op target value
  update increment before target := .update increment before target
  functionValue := .function
  code := .code
  fixed := .fixed
  computed := .computed
  bodyBlock := .block
  bodyValue := .value
  define name params inside := .mk name params inside
  bind name inside := .mk name inside
  declare := .declare
  functionStmt := .function
  exprStmt := .expr
  ifElse := .ifElse
  forLoop := .forLoop
  forOf name iterable inside := .forOf name iterable inside
  forIn name object inside := .forIn name object inside
  whileLoop := .whileLoop
  block := .block
  ret := .ret

/-- The strings and keys of a program fit a limit that its text and the texts of numbers fit. -/
theorem Program.read_fits {limit : Nat} (enough : Number.textBound ≤ limit) {text : String}
    {program : Program} (fits : text.utf8ByteSize ≤ limit) (read : Program.read text = .ok program) :
    program.Fits limit :=
  Program.read_graded (fitting limit) enough fits read

end Tabletop.Script
