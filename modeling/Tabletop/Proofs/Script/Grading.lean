import Tabletop.Proofs.Script.Reading
import Tabletop.Proofs.Number.Length

/-!
Properties of syntax trees with a grade, where every node stands one grade above its parts. What a reader
gives has such a property when the readers of what stands one level deeper give what has it.
-/

namespace Tabletop.Script

/-- A property of trees that is kept when a tree is built from its parts, one grade higher. Of a text in
the tree it may be asked that it takes no more bytes than a limit. -/
structure Grading (limit : Nat) where
  expr : Nat → Expr → Prop
  piece : Nat → Piece → Prop
  property : Nat → Property → Prop
  body : Nat → FunctionBody → Prop
  definition : Nat → FunctionDef → Prop
  binding : Nat → Binding → Prop
  stmt : Nat → Stmt → Prop
  raise_expr {low high : Nat} {value : Expr} : low ≤ high → expr low value → expr high value
  raise_stmt {low high : Nat} {value : Stmt} : low ≤ high → stmt low value → stmt high value
  number (grade : Nat) (value : Float) : expr (grade + 1) (.number value)
  str {value : String} (grade : Nat) (fits : value.utf8ByteSize ≤ limit) :
    expr (grade + 1) (.str value)
  bool (grade : Nat) (value : Bool) : expr (grade + 1) (.bool value)
  null (grade : Nat) : expr (grade + 1) .null
  undefined (grade : Nat) : expr (grade + 1) .undefined
  name (grade : Nat) (name : String) : expr (grade + 1) (.name name)
  text (grade : Nat) (value : String) : piece grade (.text value)
  leave (grade : Nat) : stmt (grade + 1) .leave
  next (grade : Nat) : stmt (grade + 1) .next
  empty (grade : Nat) : stmt (grade + 1) .empty
  template {grade : Nat} {pieces : List Piece} :
    (∀ part ∈ pieces, piece grade part) → expr (grade + 1) (.template pieces)
  array {grade : Nat} {items : List Expr} :
    (∀ item ∈ items, expr grade item) → expr (grade + 1) (.array items)
  object {grade : Nat} {properties : List Property} :
    (∀ part ∈ properties, property grade part) → expr (grade + 1) (.object properties)
  member {grade : Nat} {object : Expr} (name : String) :
    expr grade object → expr (grade + 1) (.member object name)
  index {grade : Nat} {object key : Expr} :
    expr grade object → expr grade key → expr (grade + 1) (.index object key)
  call {grade : Nat} {callee : Expr} {arguments : List Expr} :
    expr grade callee → (∀ argument ∈ arguments, expr grade argument) →
      expr (grade + 1) (.call callee arguments)
  unary {grade : Nat} {operand : Expr} (op : UnaryOp) :
    expr grade operand → expr (grade + 1) (.unary op operand)
  binary {grade : Nat} {left right : Expr} (op : BinaryOp) :
    expr grade left → expr grade right → expr (grade + 1) (.binary op left right)
  logical {grade : Nat} {left right : Expr} (op : LogicalOp) :
    expr grade left → expr grade right → expr (grade + 1) (.logical op left right)
  conditional {grade : Nat} {test yes no : Expr} :
    expr grade test → expr grade yes → expr grade no → expr (grade + 1) (.conditional test yes no)
  assign {grade : Nat} {target value : Expr} (op : Option BinaryOp) :
    expr grade target → expr grade value → expr (grade + 1) (.assign op target value)
  update {grade : Nat} {target : Expr} (increment before : Bool) :
    expr grade target → expr (grade + 1) (.update increment before target)
  functionValue {grade : Nat} {function : FunctionDef} :
    definition grade function → expr (grade + 1) (.function function)
  code {grade : Nat} {value : Expr} : expr grade value → piece grade (.code value)
  fixed {grade : Nat} {key : String} {value : Expr} (fits : key.utf8ByteSize ≤ limit) :
    expr grade value → property grade (.fixed key value)
  computed {grade : Nat} {key value : Expr} :
    expr grade key → expr grade value → property grade (.computed key value)
  bodyBlock {grade : Nat} {inside : List Stmt} :
    (∀ part ∈ inside, stmt grade part) → body grade (.block inside)
  bodyValue {grade : Nat} {value : Expr} : expr grade value → body grade (.value value)
  define {grade : Nat} {inside : FunctionBody} (name : Option String) (params : List String) :
    body grade inside → definition grade (.mk name params inside)
  bind {grade : Nat} {init : Option Expr} (name : String) :
    (∀ value ∈ init, expr grade value) → binding grade (.mk name init)
  declare {grade : Nat} {bindings : List Binding} :
    (∀ part ∈ bindings, binding grade part) → stmt (grade + 1) (.declare bindings)
  functionStmt {grade : Nat} {function : FunctionDef} :
    definition grade function → stmt (grade + 1) (.function function)
  exprStmt {grade : Nat} {value : Expr} : expr grade value → stmt (grade + 1) (.expr value)
  ifElse {grade : Nat} {test : Expr} {yes : Stmt} {no : Option Stmt} :
    expr grade test → stmt grade yes → (∀ part ∈ no, stmt grade part) →
      stmt (grade + 1) (.ifElse test yes no)
  forLoop {grade : Nat} {init : Option Stmt} {test update : Option Expr} {inside : Stmt} :
    (∀ part ∈ init, stmt grade part) → (∀ value ∈ test, expr grade value) →
      (∀ value ∈ update, expr grade value) → stmt grade inside →
        stmt (grade + 1) (.forLoop init test update inside)
  forOf {grade : Nat} {iterable : Expr} {inside : Stmt} (name : String) :
    expr grade iterable → stmt grade inside → stmt (grade + 1) (.forOf name iterable inside)
  forIn {grade : Nat} {object : Expr} {inside : Stmt} (name : String) :
    expr grade object → stmt grade inside → stmt (grade + 1) (.forIn name object inside)
  whileLoop {grade : Nat} {test : Expr} {inside : Stmt} :
    expr grade test → stmt grade inside → stmt (grade + 1) (.whileLoop test inside)
  block {grade : Nat} {inside : List Stmt} :
    (∀ part ∈ inside, stmt grade part) → stmt (grade + 1) (.block inside)
  ret {grade : Nat} {value : Option Expr} :
    (∀ expression ∈ value, expr grade expression) → stmt (grade + 1) (.ret value)

namespace Reader

variable {α : Type} {limit : Nat} (grading : Grading limit)

theorem gives_nested {good : α → Prop} {levels : Levels} {read : Level → Reader α}
    (gives : ∀ level deeper, levels = level :: deeper → (read level).Gives limit good) :
    (nested levels read).Gives limit good := by
  cases levels with
  | nil => exact passes_fail _
  | cons level deeper => exact gives level deeper rfl

/-! ## What stands one level deeper -/

section Parts

variable {levels : Levels} {grade : Nat}

section Statements

variable (of_statement : (statement levels).Gives limit (grading.stmt grade))

include of_statement

theorem gives_statementsBefore (bound : List Token) {back : List Stmt}
    (all : ∀ stmt ∈ back, grading.stmt grade stmt) :
    (statementsBefore levels bound back).Gives limit fun body =>
      ∀ stmt ∈ body, grading.stmt grade stmt := by
  induction bound generalizing back with
  | nil =>
    unfold statementsBefore
    refine gives_peek.bind fun kind _ => ?_
    split
    · exact passes_fail _
    · split
      · exact passes_skip.bind fun _ _ => .pure (all_reverse all)
      · exact of_statement.bind fun _ _ => passes_fail _
  | cons token bound of_bound =>
    unfold statementsBefore
    refine gives_peek.bind fun kind _ => ?_
    split
    · exact passes_fail _
    · split
      · exact passes_skip.bind fun _ _ => .pure (all_reverse all)
      · exact of_statement.bind fun stmt is_graded => of_bound (all_cons is_graded all)

theorem gives_block : (block levels).Gives limit fun body => ∀ stmt ∈ body, grading.stmt grade stmt :=
  (passes_expect "\x7b").bind fun _ _ => passes_remaining.bind fun bound _ =>
    gives_statementsBefore grading of_statement bound (by simp)

theorem gives_functionRest (named : Bool) :
    (functionRest levels named).Gives limit (grading.definition grade) := by
  have rest : ∀ name, Gives limit (grading.definition grade) (do
      let params ← parameters
      let body ← block levels
      return .mk name params (.block body)) := fun name =>
    passes_parameters.bind fun params _ => (gives_block grading of_statement).map fun body inside =>
      grading.define name params (grading.bodyBlock inside)
  refine gives_peek.bind fun kind _ => ?_
  dsimp only
  split
  · exact passes_skip.bind fun _ _ => (passes_pure _).bind fun name _ => rest name
  · split
    · exact Gives.bind (passes_fail _ : Passes limit _) fun name _ => rest name
    · exact (passes_pure _).bind fun name _ => rest name

theorem gives_statements (bound : List Token) {back : List Stmt}
    (all : ∀ stmt ∈ back, grading.stmt grade stmt) :
    (statements levels bound back).Gives limit fun program =>
      ∀ stmt ∈ program, grading.stmt grade stmt := by
  induction bound generalizing back with
  | nil =>
    unfold statements
    refine gives_peek.bind fun kind _ => ?_
    split
    · exact .pure (all_reverse all)
    · exact of_statement.map fun stmt is_graded => all_reverse (all_cons is_graded all)
  | cons token bound of_bound =>
    unfold statements
    refine gives_peek.bind fun kind _ => ?_
    split
    · exact .pure (all_reverse all)
    · exact of_statement.bind fun stmt is_graded => of_bound (all_cons is_graded all)

end Statements

section Expressions

variable (of_assignment : (assignment levels).Gives limit (grading.expr grade))

include of_assignment

theorem graded_wholeExpression {text : List Char} {position : Position} {expr : Expr}
    (fits : Text.byteSize text ≤ limit) (read : wholeExpression levels text position = .ok expr) :
    grading.expr grade expr := by
  obtain ⟨stream, rest, cut, of_tokens, -⟩ := wholeExpression_eq_ok_iff.mp read
  exact (of_assignment stream expr rest (ofTextAt_fits fits cut) of_tokens).1

theorem graded_pieces {parts : List TemplatePart} {found : List Piece}
    (fits : (TokenKind.template parts).Fits limit) (read : pieces levels parts = .ok found) :
    ∀ piece ∈ found, grading.piece grade piece := by
  induction parts generalizing found with
  | nil =>
    cases read
    simp
  | cons part rest of_rest =>
    have rest_fits : (TokenKind.template rest).Fits limit := fun source position is_one =>
      fits source position (List.mem_cons_of_mem part is_one)
    cases part with
    | text value =>
      obtain ⟨more, of_more, rfl⟩ := pieces_text_eq_ok_iff.mp read
      exact all_cons (grading.text grade _) (of_rest rest_fits of_more)
    | code source position =>
      obtain ⟨expr, whole, more, of_more, rfl⟩ := pieces_code_eq_ok_iff.mp read
      have source_fits := fits source position List.mem_cons_self
      exact all_cons (grading.code (graded_wholeExpression grading of_assignment source_fits whole))
        (of_rest rest_fits of_more)

/-- A name that stands for its own value is a node, so properties stand one grade above the rest. -/
theorem gives_property (enough : Number.textBound ≤ limit) :
    (property levels).Gives limit (grading.property (grade + 1)) := by
  have raised : (assignment levels).Gives limit (grading.expr (grade + 1)) :=
    of_assignment.mono fun _ => grading.raise_expr (Nat.le_succ grade)
  have value_of : ∀ {key : String}, key.utf8ByteSize ≤ limit →
      Gives limit (grading.property (grade + 1)) (do
        let value ← assignment levels
        return .fixed key value) := fun key_fits =>
    raised.map fun value is_graded => grading.fixed key_fits is_graded
  refine gives_peek.bind fun kind kind_fits => passes_skip.bind fun _ _ => ?_
  split
  · refine (passes_take ":").bind fun given _ => ?_
    have name_fits := kind_fits _ rfl
    split
    · exact value_of name_fits
    · exact .pure (grading.fixed name_fits (grading.name grade _))
  · exact (passes_expect ":").bind fun _ _ => value_of (kind_fits _ rfl)
  · exact (passes_expect ":").bind fun _ _ =>
      value_of ((Number.programText_size_le _).trans enough)
  · exact raised.bind fun key key_graded => (passes_expect "]").bind fun _ _ =>
      (passes_expect ":").bind fun _ _ => raised.map fun value value_graded =>
        grading.computed key_graded value_graded
  · exact passes_fail _

/-- A name with its value, and more of them behind a comma. -/
theorem gives_binding {bound : List Token} {back : List Binding}
    (all : ∀ binding ∈ back, grading.binding grade binding)
    (of_more : ∀ back : List Binding, (∀ binding ∈ back, grading.binding grade binding) →
      Gives limit (fun all => ∀ binding ∈ all, grading.binding grade binding) (match bound with
        | [] => return back.reverse
        | _ :: bound => bindings levels bound back)) :
    (bindings levels bound back).Gives limit fun all =>
      ∀ binding ∈ all, grading.binding grade binding := by
  rw [bindings_eq]
  refine passes_identifier.bind fun name _ => (passes_take "=").bind fun given _ => ?_
  have rest : ∀ init : Option Expr, (∀ value ∈ init, grading.expr grade value) →
      Gives limit (fun all => ∀ binding ∈ all, grading.binding grade binding) (do
        let back := Binding.mk name init :: back
        if ← take "," then
          match bound with
          | [] => return back.reverse
          | _ :: bound => bindings levels bound back
        else return back.reverse) := by
    intro init init_graded
    have more_graded := all_cons (grading.bind name init_graded) all
    refine (passes_take ",").bind fun more _ => ?_
    split
    · exact of_more _ more_graded
    · exact .pure (all_reverse more_graded)
  dsimp only
  split
  · exact of_assignment.bind fun value is_graded =>
      (Gives.pure (by simpa using is_graded)).bind rest
  · exact (Gives.pure (by simp)).bind rest

theorem gives_bindings (bound : List Token) {back : List Binding}
    (all : ∀ binding ∈ back, grading.binding grade binding) :
    (bindings levels bound back).Gives limit fun all =>
      ∀ binding ∈ all, grading.binding grade binding := by
  induction bound generalizing back with
  | nil => exact gives_binding grading of_assignment all fun _ all => .pure (all_reverse all)
  | cons token bound of_bound => exact gives_binding grading of_assignment all fun _ all => of_bound all

theorem gives_declaration : (declaration levels).Gives limit (grading.stmt (grade + 1)) :=
  passes_skip.bind fun _ _ => passes_remaining.bind fun bound _ =>
    (gives_bindings grading of_assignment bound (by simp)).map fun _ inside => grading.declare inside

theorem gives_optionalBefore (close : String) :
    (optionalBefore levels close).Gives limit fun value => ∀ expr ∈ value, grading.expr grade expr := by
  have rest : ∀ value : Option Expr, (∀ expr ∈ value, grading.expr grade expr) →
      Gives limit (fun value => ∀ expr ∈ value, grading.expr grade expr) (do
        expect close
        return value) := fun value is_graded => (passes_expect close).map fun _ _ => is_graded
  refine (passes_sees close).bind fun seen _ => ?_
  dsimp only
  split
  · exact (Gives.pure (by simp)).bind rest
  · exact of_assignment.bind fun value is_graded =>
      (Gives.pure (by simpa using is_graded)).bind rest

theorem gives_condition : (condition levels).Gives limit (grading.expr grade) :=
  (passes_expect "(").bind fun _ _ => of_assignment.bind fun _ is_graded =>
    (passes_expect ")").map fun _ _ => is_graded

theorem gives_returnRest (line : Nat) :
    (returnRest levels line).Gives limit (grading.stmt (grade + 1)) := by
  have rest : ∀ value : Option Expr, (∀ expr ∈ value, grading.expr grade expr) →
      Gives limit (grading.stmt (grade + 1)) (do
        endStatement
        return .ret value) := fun value is_graded =>
    passes_endStatement.map fun _ _ => grading.ret is_graded
  refine passes_position.bind fun here _ => gives_peek.bind fun kind _ => ?_
  dsimp only
  split
  · exact (Gives.pure (by simp)).bind rest
  · exact of_assignment.bind fun value is_graded =>
      (Gives.pure (by simpa using is_graded)).bind rest

end Expressions

/-! ## Functions, loops and statements -/

variable (of_assignment : (assignment levels).Gives limit (grading.expr grade))
  (of_statement : (statement levels).Gives limit (grading.stmt (grade + 1)))

include of_assignment of_statement

theorem gives_primary (enough : Number.textBound ≤ limit) :
    (primary levels).Gives limit (grading.expr (grade + 2)) := by
  have raised : (assignment levels).Gives limit (grading.expr (grade + 1)) :=
    of_assignment.mono fun _ => grading.raise_expr (Nat.le_succ grade)
  refine passes_position.bind fun start _ => gives_peek.bind fun kind kind_fits => ?_
  split
  · exact passes_fail _
  · refine passes_skip.bind fun _ _ => ?_
    split
    · exact .pure (grading.number _ _)
    · exact .pure (grading.str _ (kind_fits _ rfl))
    · refine Gives.bind (.lift fun found read => ?_) fun found inside => .pure (grading.template inside)
      exact graded_pieces grading raised (kind_fits _ rfl) read
    · exact .pure (grading.bool _ true)
    · exact .pure (grading.bool _ false)
    · exact .pure (grading.null _)
    · exact .pure (grading.undefined _)
    · exact (gives_functionRest grading of_statement false).map fun definition is_graded =>
        grading.functionValue is_graded
    · exact .pure (grading.name _ _)
    · exact raised.bind fun expr is_graded => (passes_expect ")").bind fun _ _ =>
        .pure (grading.raise_expr (Nat.le_succ _) is_graded)
    · exact (gives_separated "]" raised).map fun items inside => grading.array inside
    · exact (gives_separated "\x7d" (gives_property grading of_assignment enough)).map
        fun properties inside => grading.object inside
    · exact .throw _

theorem gives_arrow : (arrow levels).Gives limit (grading.expr (grade + 2)) := by
  have function : ∀ params body, grading.body (grade + 1) body →
      grading.expr (grade + 2) (.function (.mk none params body)) := fun params body is_graded =>
    grading.functionValue (grading.define none params is_graded)
  refine passes_arrowHead.bind fun params _ => (passes_sees "\x7b").bind fun brace _ => ?_
  dsimp only
  split
  · exact (gives_block grading of_statement).bind fun body inside =>
      (Gives.pure (grading.bodyBlock inside)).bind fun body is_graded =>
        .pure (function params body is_graded)
  · refine of_assignment.bind fun value is_graded => ?_
    have raised := grading.raise_expr (Nat.le_succ grade) is_graded
    exact (Gives.pure (grading.bodyValue raised)).bind fun body is_graded =>
      .pure (function params body is_graded)

/-- What follows the first part of a loop that counts. -/
theorem gives_loopRest {init : Option Stmt} (init_graded : ∀ stmt ∈ init, grading.stmt (grade + 1) stmt) :
    Gives limit (grading.stmt (grade + 2)) (do
      expect ";"
      let test ← optionalBefore levels ";"
      let update ← optionalBefore levels ")"
      let body ← statement levels
      return .forLoop init test update body) := by
  have raised : (assignment levels).Gives limit (grading.expr (grade + 1)) :=
    of_assignment.mono fun _ => grading.raise_expr (Nat.le_succ grade)
  exact (passes_expect ";").bind fun _ _ =>
    (gives_optionalBefore grading raised ";").bind fun _ test_graded =>
      (gives_optionalBefore grading raised ")").bind fun _ update_graded =>
        of_statement.map fun _ body_graded =>
          grading.forLoop init_graded test_graded update_graded body_graded

theorem gives_forStatement : (forStatement levels).Gives limit (grading.stmt (grade + 2)) := by
  have rest := @gives_loopRest _ grading _ _ of_assignment of_statement
  refine (passes_expect "(").bind fun _ _ => gives_peek.bind fun kind _ =>
    gives_get.bind fun stream stream_fits => ?_
  dsimp only
  split
  · rename_i name isOf _
    have ahead_fits : ∀ token ∈ (if isDeclarationWord kind then stream.tokens.tail else stream.tokens).drop 2,
        token.kind.Fits limit := by
      intro token is_one
      have is_one := List.mem_of_mem_drop is_one
      split at is_one
      · exact stream_fits token (List.mem_of_mem_tail is_one)
      · exact stream_fits token is_one
    refine Gives.bind (passes_set ahead_fits) fun _ _ => of_assignment.bind fun target is_graded =>
      (passes_expect ")").bind fun _ _ => of_statement.map fun body body_graded => ?_
    have raised := grading.raise_expr (Nat.le_succ grade) is_graded
    split
    · exact grading.forOf name raised body_graded
    · exact grading.forIn name raised body_graded
  · refine (passes_sees ";").bind fun seen _ => ?_
    split
    · exact (Gives.pure (by simp)).bind fun init init_graded => rest init_graded
    · split
      · exact (gives_declaration grading of_assignment).bind fun init init_graded =>
          (Gives.pure (by simpa using init_graded)).bind fun init init_graded => rest init_graded
      · exact of_assignment.bind fun value is_graded =>
          (Gives.pure (by simpa using grading.exprStmt is_graded)).bind fun init init_graded =>
            rest init_graded

theorem gives_statementBody : (statementBody levels).Gives limit (grading.stmt (grade + 2)) := by
  have raised : (assignment levels).Gives limit (grading.expr (grade + 1)) :=
    of_assignment.mono fun _ => grading.raise_expr (Nat.le_succ grade)
  refine passes_position.bind fun start _ => gives_peek.bind fun kind _ => ?_
  refine .ite (passes_skip.bind fun _ _ => .pure (grading.empty _)) ?_
  refine .ite ((gives_block grading of_statement).map fun body inside => grading.block inside) ?_
  refine .ite ((gives_declaration grading raised).bind fun stmt is_graded =>
    passes_endStatement.map fun _ _ => is_graded) ?_
  refine .ite (passes_skip.bind fun _ _ => (gives_functionRest grading of_statement true).map
    fun _ is_graded => grading.functionStmt is_graded) ?_
  refine .ite (passes_skip.bind fun _ _ => (gives_condition grading raised).bind fun test test_graded =>
    of_statement.bind fun yes yes_graded => (passes_takeWord "else").bind fun other _ => ?_) ?_
  · exact .ite (of_statement.map fun no no_graded =>
        grading.ifElse test_graded yes_graded (by simpa using no_graded))
      (.pure (grading.ifElse test_graded yes_graded (by simp)))
  refine .ite (passes_skip.bind fun _ _ => gives_forStatement grading of_assignment of_statement) ?_
  refine .ite (passes_skip.bind fun _ _ => (gives_condition grading raised).bind fun test test_graded =>
    of_statement.map fun body body_graded => grading.whileLoop test_graded body_graded) ?_
  refine .ite (passes_skip.bind fun _ _ => gives_returnRest grading raised start.line) ?_
  refine .ite (passes_skip.bind fun _ _ => passes_endStatement.map fun _ _ => grading.leave _) ?_
  refine .ite (passes_skip.bind fun _ _ => passes_endStatement.map fun _ _ => grading.next _) ?_
  exact raised.bind fun value is_graded =>
    passes_endStatement.map fun _ _ => grading.exprStmt is_graded

end Parts

end Reader

end Tabletop.Script
