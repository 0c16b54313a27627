import Tabletop.Proofs.Script.Grading.Levels

/-!
How deep the syntax trees of accepted texts are nested. A chain of operators or of members takes a level
for every link and gives them all back at its end, although its nodes stand over one another. So trees
are deeper than the levels that are allowed, but no deeper than a number that no text changes.
-/

namespace Tabletop.Script

mutual
/-- The most nodes on a way from the root to a leaf, of every kind or of operations alone: operators,
members, keys, calls, conditions, assignments and steps. -/
def Expr.height (every : Bool) : Expr → Nat
  | .number _ | .str _ | .bool _ | .null | .undefined | .name _ => every.toNat
  | .template pieces => piecesHeight every pieces + every.toNat
  | .array items => exprsHeight every items + every.toNat
  | .object properties => propertiesHeight every properties + every.toNat
  | .member object _ => object.height every + 1
  | .index object key => max (object.height every) (key.height every) + 1
  | .call callee arguments => max (callee.height every) (exprsHeight every arguments) + 1
  | .unary _ operand => operand.height every + 1
  | .binary _ left right => max (left.height every) (right.height every) + 1
  | .logical _ left right => max (left.height every) (right.height every) + 1
  | .conditional test yes no =>
    max (test.height every) (max (yes.height every) (no.height every)) + 1
  | .assign _ target value => max (target.height every) (value.height every) + 1
  | .update _ _ target => target.height every + 1
  | .function definition => definition.height every + every.toNat
def FunctionDef.height (every : Bool) : FunctionDef → Nat
  | .mk _ _ body => body.height every
def FunctionBody.height (every : Bool) : FunctionBody → Nat
  | .block body => stmtsHeight every body
  | .value value => value.height every
def Stmt.height (every : Bool) : Stmt → Nat
  | .declare bindings => bindingsHeight every bindings + every.toNat
  | .function definition => definition.height every + every.toNat
  | .expr value => value.height every + every.toNat
  | .ifElse test yes no =>
    max (test.height every) (max (yes.height every) (stmtHeight? every no)) + every.toNat
  | .forLoop init test update body =>
    max (max (stmtHeight? every init) (exprHeight? every test))
      (max (exprHeight? every update) (body.height every)) + every.toNat
  | .forOf _ iterable body => max (iterable.height every) (body.height every) + every.toNat
  | .forIn _ object body => max (object.height every) (body.height every) + every.toNat
  | .whileLoop test body => max (test.height every) (body.height every) + every.toNat
  | .block body => stmtsHeight every body + every.toNat
  | .ret value => exprHeight? every value + every.toNat
  | .leave | .next | .empty => every.toNat
def exprHeight? (every : Bool) : Option Expr → Nat
  | some value => value.height every
  | none => 0
def stmtHeight? (every : Bool) : Option Stmt → Nat
  | some stmt => stmt.height every
  | none => 0
def exprsHeight (every : Bool) : List Expr → Nat
  | [] => 0
  | value :: rest => max (value.height every) (exprsHeight every rest)
def piecesHeight (every : Bool) : List Piece → Nat
  | [] => 0
  | .text _ :: rest => piecesHeight every rest
  | .code value :: rest => max (value.height every) (piecesHeight every rest)
def propertiesHeight (every : Bool) : List Property → Nat
  | [] => 0
  | .fixed _ value :: rest => max (value.height every) (propertiesHeight every rest)
  | .computed key value :: rest =>
    max (max (key.height every) (value.height every)) (propertiesHeight every rest)
def stmtsHeight (every : Bool) : List Stmt → Nat
  | [] => 0
  | stmt :: rest => max (stmt.height every) (stmtsHeight every rest)
def bindingsHeight (every : Bool) : List Binding → Nat
  | [] => 0
  | .mk _ init :: rest => max (exprHeight? every init) (bindingsHeight every rest)
end

def Piece.height (every : Bool) : Piece → Nat
  | .text _ => 0
  | .code value => value.height every

def Property.height (every : Bool) : Property → Nat
  | .fixed _ value => value.height every
  | .computed key value => max (key.height every) (value.height every)

def Binding.height (every : Bool) : Binding → Nat
  | .mk _ init => exprHeight? every init

section

variable {every : Bool} {bound : Nat}

theorem exprHeight?_le {value : Option Expr} (inside : ∀ expr ∈ value, expr.height every ≤ bound) :
    exprHeight? every value ≤ bound := by
  cases value with
  | none => exact Nat.zero_le bound
  | some value => exact inside value rfl

theorem stmtHeight?_le {value : Option Stmt} (inside : ∀ stmt ∈ value, stmt.height every ≤ bound) :
    stmtHeight? every value ≤ bound := by
  cases value with
  | none => exact Nat.zero_le bound
  | some stmt => exact inside stmt rfl

theorem exprsHeight_le {items : List Expr} (inside : ∀ item ∈ items, item.height every ≤ bound) :
    exprsHeight every items ≤ bound := by
  induction items with
  | nil => exact Nat.zero_le bound
  | cons item rest of_rest =>
    obtain ⟨first, others⟩ := List.forall_mem_cons.mp inside
    exact max_le first (of_rest others)

theorem piecesHeight_le {pieces : List Piece}
    (inside : ∀ piece ∈ pieces, piece.height every ≤ bound) : piecesHeight every pieces ≤ bound := by
  induction pieces with
  | nil => exact Nat.zero_le bound
  | cons piece rest of_rest =>
    obtain ⟨first, others⟩ := List.forall_mem_cons.mp inside
    cases piece with
    | text value => exact of_rest others
    | code value => exact max_le first (of_rest others)

theorem propertiesHeight_le {properties : List Property}
    (inside : ∀ property ∈ properties, property.height every ≤ bound) :
    propertiesHeight every properties ≤ bound := by
  induction properties with
  | nil => exact Nat.zero_le bound
  | cons property rest of_rest =>
    obtain ⟨first, others⟩ := List.forall_mem_cons.mp inside
    cases property with
    | fixed key value => exact max_le first (of_rest others)
    | computed key value => exact max_le first (of_rest others)

theorem stmtsHeight_le {body : List Stmt} (inside : ∀ stmt ∈ body, stmt.height every ≤ bound) :
    stmtsHeight every body ≤ bound := by
  induction body with
  | nil => exact Nat.zero_le bound
  | cons stmt rest of_rest =>
    obtain ⟨first, others⟩ := List.forall_mem_cons.mp inside
    exact max_le first (of_rest others)

theorem bindingsHeight_le {bindings : List Binding}
    (inside : ∀ binding ∈ bindings, binding.height every ≤ bound) :
    bindingsHeight every bindings ≤ bound := by
  induction bindings with
  | nil => exact Nat.zero_le bound
  | cons binding rest of_rest =>
    obtain ⟨first, others⟩ := List.forall_mem_cons.mp inside
    cases binding with
    | mk name init => exact max_le first (of_rest others)

end

/-- A tree's height as its grade. -/
def heights (every : Bool) (limit : Nat) : Grading limit :=
  have one : every.toNat ≤ 1 := Bool.toNat_le every
  have leaf : ∀ grade, every.toNat ≤ grade + 1 := fun grade => one.trans (Nat.le_add_left 1 grade)
  { expr := fun grade value => value.height every ≤ grade
    piece := fun grade value => value.height every ≤ grade
    property := fun grade value => value.height every ≤ grade
    body := fun grade value => value.height every ≤ grade
    definition := fun grade value => value.height every ≤ grade
    binding := fun grade value => value.height every ≤ grade
    stmt := fun grade value => value.height every ≤ grade
    raise_expr := fun higher low => low.trans higher
    raise_stmt := fun higher low => low.trans higher
    number := fun grade _ => leaf grade
    str := fun grade _ => leaf grade
    bool := fun grade _ => leaf grade
    null := leaf
    undefined := leaf
    name := fun grade _ => leaf grade
    text := fun grade _ => Nat.zero_le grade
    leave := leaf
    next := leaf
    empty := leaf
    template := fun inside => Nat.add_le_add (piecesHeight_le inside) one
    array := fun inside => Nat.add_le_add (exprsHeight_le inside) one
    object := fun inside => Nat.add_le_add (propertiesHeight_le inside) one
    member := fun _ object => Nat.succ_le_succ object
    index := fun object key => Nat.succ_le_succ (max_le object key)
    call := fun callee inside => Nat.succ_le_succ (max_le callee (exprsHeight_le inside))
    unary := fun _ operand => Nat.succ_le_succ operand
    binary := fun _ left right => Nat.succ_le_succ (max_le left right)
    logical := fun _ left right => Nat.succ_le_succ (max_le left right)
    conditional := fun test yes no => Nat.succ_le_succ (max_le test (max_le yes no))
    assign := fun _ target value => Nat.succ_le_succ (max_le target value)
    update := fun _ _ target => Nat.succ_le_succ target
    functionValue := fun definition => Nat.add_le_add definition one
    code := fun value => value
    fixed := fun _ value => value
    computed := fun key value => max_le key value
    bodyBlock := fun inside => stmtsHeight_le inside
    bodyValue := fun value => value
    define := fun _ _ inside => inside
    bind := fun _ inside => exprHeight?_le inside
    declare := fun inside => Nat.add_le_add (bindingsHeight_le inside) one
    functionStmt := fun definition => Nat.add_le_add definition one
    exprStmt := fun value => Nat.add_le_add value one
    ifElse := fun test yes no => Nat.add_le_add (max_le test (max_le yes (stmtHeight?_le no))) one
    forLoop := fun init test update inside =>
      Nat.add_le_add (max_le (max_le (stmtHeight?_le init) (exprHeight?_le test))
        (max_le (exprHeight?_le update) inside)) one
    forOf := fun _ iterable inside => Nat.add_le_add (max_le iterable inside) one
    forIn := fun _ object inside => Nat.add_le_add (max_le object inside) one
    whileLoop := fun test inside => Nat.add_le_add (max_le test inside) one
    block := fun inside => Nat.add_le_add (stmtsHeight_le inside) one
    ret := fun value => Nat.add_le_add (exprHeight?_le value) one }

/-- Whatever the text, the statements of a program and an expression that are read from it are no higher
than about twice the square of the levels that are allowed. -/
theorem nesting_bounded (every : Bool) (text : String) :
    (∀ program, Program.read text = .ok program → ∀ stmt ∈ program,
      stmt.height every ≤ 2 * nestingLimit * (nestingLimit + 2) + 1) ∧
    ∀ position expr, Expr.readAt text position = .ok expr →
      expr.height every ≤ 2 * nestingLimit * (nestingLimit + 2) := by
  let limit := max text.utf8ByteSize Number.textBound
  have fits : text.utf8ByteSize ≤ limit := le_max_left _ _
  have enough : Number.textBound ≤ limit := le_max_right _ _
  refine ⟨fun program read => ?_, fun position expr read => ?_⟩
  · exact Program.read_graded (heights every limit) enough fits read
  · exact Expr.readAt_graded (heights every limit) enough fits read

/-- A name in as many parentheses as there are groups, behind each of them as many members as links. -/
def nestedMembers (groups links : Nat) : List Char :=
  List.replicate groups '(' ++ 'a' ::
    (List.replicate groups ((List.replicate links ['.', 'b']).flatten ++ [')'])).flatten

/-- The height of what is read from characters, which are quicker to decide about than a string. -/
theorem exists_readAt {text : List Char} {position : Position} {every : Bool} {height : Nat}
    (found : ((Reader.wholeExpression (Reader.levelsOf nestingLimit) text position).map
      (Expr.height every)).toOption = some height) :
    ∃ expr, Expr.readAt (String.ofList text) position = .ok expr ∧ expr.height every = height := by
  rw [Expr.readAt, String.toList_ofList]
  cases read : Reader.wholeExpression (Reader.levelsOf nestingLimit) text position with
  | error e =>
    rw [read] at found
    cases found
  | ok expr =>
    rw [read] at found
    exact ⟨expr, rfl, Option.some.inj found⟩

theorem nesting_bounded_members : ∃ expr,
    Expr.readAt (String.ofList (nestedMembers 2 3)) .start = .ok expr ∧ expr.height true = 7 ∧
      expr.height true ≤ 2 * nestingLimit * (nestingLimit + 2) := by
  obtain ⟨expr, read, height⟩ := @exists_readAt (nestedMembers 2 3) .start true 7 (by decide +kernel)
  exact ⟨expr, read, height, (nesting_bounded true _).2 .start expr read⟩

/-- Five groups of a hundred and three members are accepted. Their tree is deeper than four times the
levels that are allowed. -/
theorem members_over_members : ∃ expr,
    Expr.readAt (String.ofList (nestedMembers 5 103)) .start = .ok expr ∧
      4 * nestingLimit < expr.height false := by
  obtain ⟨expr, read, height⟩ :=
    @exists_readAt (nestedMembers 5 103) .start false 515 (by decide +kernel)
  refine ⟨expr, read, ?_⟩
  rw [height]
  decide

end Tabletop.Script
