import Tabletop.Proofs.Script.Fits.Tree
import Tabletop.Proofs.Script.Parts

/-!
What fits a limit, told by its parts: a tree fits when the strings and the fixed keys among its parts do.
-/

namespace Tabletop.Script

/-- A text takes no more bytes than a limit; other parts have no bytes of their own. -/
def Part.Fits (limit : Nat) : Part → Prop
  | .text value => value.utf8ByteSize ≤ limit
  | .array _ | .method _ => True

variable {limit : Nat}

theorem Expr.called_fit (callee : Expr) : ∀ part ∈ callee.called, part.Fits limit := by
  cases callee with
  | member object method => simp [called, Part.Fits]
  | _ => simp [called]

mutual
theorem Expr.fits_iff (expr : Expr) : expr.Fits limit ↔ ∀ part ∈ expr.parts, part.Fits limit := by
  match expr with
  | .number value => simp [Expr.parts, Expr.Fits.number]
  | .bool value => simp [Expr.parts, Expr.Fits.bool]
  | .null => simp [Expr.parts, Expr.Fits.null]
  | .undefined => simp [Expr.parts, Expr.Fits.undefined]
  | .name name => simp [Expr.parts, Expr.Fits.name]
  | .str value =>
    rw [Expr.parts, List.forall_mem_singleton]
    exact ⟨fun | .str fits => fits, .str⟩
  | .template pieces =>
    rw [Expr.parts, ← pieces_fit_iff pieces]
    exact ⟨fun | .template inside => inside, .template⟩
  | .array items =>
    rw [Expr.parts, List.forall_mem_cons, ← exprs_fit_iff items]
    exact ⟨fun | .array inside => ⟨trivial, inside⟩, fun inside => .array inside.2⟩
  | .object properties =>
    rw [Expr.parts, ← properties_fit_iff properties]
    exact ⟨fun | .object inside => inside, .object⟩
  | .member object name =>
    rw [Expr.parts, ← Expr.fits_iff object]
    exact ⟨fun | .member fits _ => fits, fun fits => .member fits name⟩
  | .index object key =>
    rw [Expr.parts, List.forall_mem_append, ← Expr.fits_iff object, ← Expr.fits_iff key]
    exact ⟨fun | .index object key => ⟨object, key⟩, fun ⟨object, key⟩ => .index object key⟩
  | .call callee arguments =>
    rw [Expr.parts, List.forall_mem_append, List.forall_mem_append, ← Expr.fits_iff callee,
      ← exprs_fit_iff arguments]
    exact ⟨fun | .call callee inside => ⟨Expr.called_fit _, callee, inside⟩,
      fun ⟨_, callee, inside⟩ => .call callee inside⟩
  | .unary op operand =>
    rw [Expr.parts, ← Expr.fits_iff operand]
    exact ⟨fun | .unary _ fits => fits, .unary op⟩
  | .binary op left right =>
    rw [Expr.parts, List.forall_mem_append, ← Expr.fits_iff left, ← Expr.fits_iff right]
    exact ⟨fun | .binary _ left right => ⟨left, right⟩, fun ⟨left, right⟩ => .binary op left right⟩
  | .logical op left right =>
    rw [Expr.parts, List.forall_mem_append, ← Expr.fits_iff left, ← Expr.fits_iff right]
    exact ⟨fun | .logical _ left right => ⟨left, right⟩, fun ⟨left, right⟩ => .logical op left right⟩
  | .conditional test yes no =>
    rw [Expr.parts, List.forall_mem_append, List.forall_mem_append, ← Expr.fits_iff test,
      ← Expr.fits_iff yes, ← Expr.fits_iff no]
    exact ⟨fun | .conditional test yes no => ⟨test, yes, no⟩,
      fun ⟨test, yes, no⟩ => .conditional test yes no⟩
  | .assign op target value =>
    rw [Expr.parts, List.forall_mem_append, ← Expr.fits_iff target, ← Expr.fits_iff value]
    exact ⟨fun | .assign _ target value => ⟨target, value⟩,
      fun ⟨target, value⟩ => .assign op target value⟩
  | .update increment before target =>
    rw [Expr.parts, ← Expr.fits_iff target]
    exact ⟨fun | .update _ _ fits => fits, .update increment before⟩
  | .function definition =>
    rw [Expr.parts, ← FunctionDef.fits_iff definition]
    exact ⟨fun | .function fits => fits, .function⟩

theorem FunctionDef.fits_iff (definition : FunctionDef) :
    definition.Fits limit ↔ ∀ part ∈ definition.parts, part.Fits limit := by
  match definition with
  | .mk name params body =>
    rw [FunctionDef.parts, ← FunctionBody.fits_iff body]
    exact ⟨fun | .mk _ _ fits => fits, .mk name params⟩

theorem FunctionBody.fits_iff (body : FunctionBody) :
    body.Fits limit ↔ ∀ part ∈ body.parts, part.Fits limit := by
  match body with
  | .block body =>
    rw [FunctionBody.parts, ← stmts_fit_iff body]
    exact ⟨fun | .block inside => inside, .block⟩
  | .value value =>
    rw [FunctionBody.parts, ← Expr.fits_iff value]
    exact ⟨fun | .value fits => fits, .value⟩

theorem Stmt.fits_iff (stmt : Stmt) : stmt.Fits limit ↔ ∀ part ∈ stmt.parts, part.Fits limit := by
  match stmt with
  | .leave => simp [Stmt.parts, Stmt.Fits.leave]
  | .next => simp [Stmt.parts, Stmt.Fits.next]
  | .empty => simp [Stmt.parts, Stmt.Fits.empty]
  | .declare bindings =>
    rw [Stmt.parts, ← bindings_fit_iff bindings]
    exact ⟨fun | .declare inside => inside, .declare⟩
  | .function definition =>
    rw [Stmt.parts, ← FunctionDef.fits_iff definition]
    exact ⟨fun | .function fits => fits, .function⟩
  | .expr value =>
    rw [Stmt.parts, ← Expr.fits_iff value]
    exact ⟨fun | .expr fits => fits, .expr⟩
  | .ifElse test yes no =>
    rw [Stmt.parts, List.forall_mem_append, List.forall_mem_append, ← Expr.fits_iff test,
      ← Stmt.fits_iff yes, ← stmt?_fits_iff no]
    exact ⟨fun | .ifElse test yes no => ⟨test, yes, no⟩, fun ⟨test, yes, no⟩ => .ifElse test yes no⟩
  | .forLoop init test update body =>
    rw [Stmt.parts, List.forall_mem_append, List.forall_mem_append, List.forall_mem_append,
      ← stmt?_fits_iff init, ← expr?_fits_iff test, ← expr?_fits_iff update, ← Stmt.fits_iff body]
    exact ⟨fun | .forLoop init test update body => ⟨init, test, update, body⟩,
      fun ⟨init, test, update, body⟩ => .forLoop init test update body⟩
  | .forOf name iterable body =>
    rw [Stmt.parts, List.forall_mem_append, ← Expr.fits_iff iterable, ← Stmt.fits_iff body]
    exact ⟨fun | .forOf _ iterable body => ⟨iterable, body⟩,
      fun ⟨iterable, body⟩ => .forOf name iterable body⟩
  | .forIn name object body =>
    rw [Stmt.parts, List.forall_mem_append, ← Expr.fits_iff object, ← Stmt.fits_iff body]
    exact ⟨fun | .forIn _ object body => ⟨object, body⟩, fun ⟨object, body⟩ => .forIn name object body⟩
  | .whileLoop test body =>
    rw [Stmt.parts, List.forall_mem_append, ← Expr.fits_iff test, ← Stmt.fits_iff body]
    exact ⟨fun | .whileLoop test body => ⟨test, body⟩, fun ⟨test, body⟩ => .whileLoop test body⟩
  | .block body =>
    rw [Stmt.parts, ← stmts_fit_iff body]
    exact ⟨fun | .block inside => inside, .block⟩
  | .ret value =>
    rw [Stmt.parts, ← expr?_fits_iff value]
    exact ⟨fun | .ret fits => fits, .ret⟩

theorem expr?_fits_iff (expr : Option Expr) :
    (∀ value ∈ expr, value.Fits limit) ↔ ∀ part ∈ exprParts? expr, part.Fits limit := by
  match expr with
  | none => simp [exprParts?]
  | some value =>
    rw [exprParts?, ← Expr.fits_iff value]
    simp

theorem stmt?_fits_iff (stmt : Option Stmt) :
    (∀ value ∈ stmt, value.Fits limit) ↔ ∀ part ∈ stmtParts? stmt, part.Fits limit := by
  match stmt with
  | none => simp [stmtParts?]
  | some value =>
    rw [stmtParts?, ← Stmt.fits_iff value]
    simp

theorem exprs_fit_iff (exprs : List Expr) :
    (∀ expr ∈ exprs, expr.Fits limit) ↔ ∀ part ∈ exprsParts exprs, part.Fits limit := by
  match exprs with
  | [] => simp [exprsParts]
  | expr :: rest =>
    rw [exprsParts, List.forall_mem_cons, List.forall_mem_append, Expr.fits_iff expr,
      exprs_fit_iff rest]

theorem pieces_fit_iff (pieces : List Piece) :
    (∀ piece ∈ pieces, piece.Fits limit) ↔ ∀ part ∈ piecesParts pieces, part.Fits limit := by
  match pieces with
  | [] => simp [piecesParts]
  | .text value :: rest =>
    rw [piecesParts, List.forall_mem_cons, pieces_fit_iff rest]
    exact and_iff_right (.text value)
  | .code value :: rest =>
    rw [piecesParts, List.forall_mem_cons, List.forall_mem_append, ← Expr.fits_iff value,
      pieces_fit_iff rest]
    exact and_congr_left fun _ => ⟨fun | .code fits => fits, .code⟩

theorem properties_fit_iff (properties : List Property) :
    (∀ property ∈ properties, property.Fits limit) ↔
      ∀ part ∈ propertiesParts properties, part.Fits limit := by
  match properties with
  | [] => simp [propertiesParts]
  | .fixed key value :: rest =>
    rw [propertiesParts, List.forall_mem_cons, List.forall_mem_cons, List.forall_mem_append,
      ← Expr.fits_iff value, ← properties_fit_iff rest]
    exact ⟨fun ⟨.fixed key value, rest⟩ => ⟨key, value, rest⟩,
      fun ⟨key, value, rest⟩ => ⟨.fixed key value, rest⟩⟩
  | .computed key value :: rest =>
    rw [propertiesParts, List.forall_mem_cons, List.forall_mem_append, List.forall_mem_append,
      ← Expr.fits_iff key, ← Expr.fits_iff value, ← properties_fit_iff rest]
    exact ⟨fun ⟨.computed key value, rest⟩ => ⟨key, value, rest⟩,
      fun ⟨key, value, rest⟩ => ⟨.computed key value, rest⟩⟩

theorem stmts_fit_iff (stmts : List Stmt) :
    (∀ stmt ∈ stmts, stmt.Fits limit) ↔ ∀ part ∈ stmtsParts stmts, part.Fits limit := by
  match stmts with
  | [] => simp [stmtsParts]
  | stmt :: rest =>
    rw [stmtsParts, List.forall_mem_cons, List.forall_mem_append, Stmt.fits_iff stmt,
      stmts_fit_iff rest]

theorem bindings_fit_iff (bindings : List Binding) :
    (∀ binding ∈ bindings, binding.Fits limit) ↔ ∀ part ∈ bindingsParts bindings, part.Fits limit := by
  match bindings with
  | [] => simp [bindingsParts]
  | .mk name init :: rest =>
    rw [bindingsParts, List.forall_mem_cons, List.forall_mem_append, ← expr?_fits_iff init,
      bindings_fit_iff rest]
    exact and_congr_left fun _ => ⟨fun | .mk _ fits => fits, .mk name⟩
end

end Tabletop.Script
