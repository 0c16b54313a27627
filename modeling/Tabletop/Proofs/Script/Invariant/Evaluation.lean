import Tabletop.Proofs.Script.Invariant.Copies
import Tabletop.Proofs.Script.Termination

/-!
What evaluating and executing keep: by recursion on the syntax tree, as the evaluator itself, and for
calls by induction on how many may stand inside one another.
-/

namespace Tabletop.Script

namespace Invariant

variable {inv : Invariant}

/-- What a statement returns, if it does, is allowed. -/
def Flows (inv : Invariant) : Flow → Prop
  | .ret value => inv.value value
  | _ => True

/-- How a turn of a loop may end. -/
def Turns (inv : Invariant) (ended : Option Flow) : Prop := ∀ flow ∈ ended, inv.Flows flow

/-- A machine whose calls and loops keep an invariant. -/
structure Drives (inv : Invariant) (machine : Machine) : Prop where
  lawful : inv.Lawful machine.limits
  enter : ∀ closure arguments, inv.Admits closure.definition.parts →
    (∀ argument ∈ arguments, inv.value argument) →
    inv.Keeps inv.value (machine.enter closure arguments)
  again : ∀ turn, inv.Keeps inv.Turns turn → inv.Keeps inv.Flows (machine.again turn)

/-! ## Names -/

namespace Lawful

variable {limits : Limits} (lawful : inv.Lawful limits)

include lawful

theorem number (number : Float) : inv.value (.number number) := lawful.plain (by simp)

theorem bool (value : Bool) : inv.value (.bool value) := lawful.plain (by simp)

theorem undefined : inv.value .undefined := lawful.plain (by simp)

theorem lookupIn (scope : Scope) (name : String) : inv.Keeps inv.value (lookupIn scope name) := by
  refine .read fun memory holds => ?_
  split
  · rename_i found
    exact .pure (lawful.lookup holds found)
  · exact .fault _

theorem declareIn (scope : Scope) (name : String) {value : Value} (allowed : inv.value value) :
    inv.KeepsMemory (declareIn scope name value) :=
  .modify fun _ holds => lawful.declare _ name holds allowed

theorem hoist (scope : Scope) {body : List Stmt} (admits : inv.Admits (stmtsParts body)) :
    inv.KeepsMemory (hoist scope body) := by
  induction body with
  | nil => exact .pure trivial
  | cons stmt rest of_rest =>
    rw [stmtsParts, admits_append] at admits
    obtain ⟨stmt_admits, rest_admits⟩ := admits
    cases stmt with
    | function definition =>
      rw [Stmt.parts] at stmt_admits
      unfold Script.hoist
      split
      · exact (lawful.newFunction scope stmt_admits).bind fun value allowed =>
          (lawful.declareIn scope _ allowed).bind fun _ _ => of_rest rest_admits
      · exact of_rest rest_admits
    | _ => exact of_rest rest_admits

end Lawful

namespace Drives

variable {machine : Machine} (drives : inv.Drives machine)

include drives

/-! ## Calls -/

theorem call : inv.CallerKeeps machine.call := by
  intro callee arguments allowed
  unfold Machine.call
  cases callee with
  | function id =>
    refine .read fun memory holds => ?_
    split
    · rename_i closure found
      exact drives.enter closure arguments (drives.lawful.closure holds found) allowed
    · exact .fault _
  | builtin function => exact drives.lawful.builtin function arguments
  | _ => exact .fault _

theorem callMember {receiver : Value} (receiver_allowed : inv.value receiver) {name : String}
    (named : inv.part (.method name)) {arguments : List Value}
    (allowed : ∀ argument ∈ arguments, inv.value argument) :
    inv.Keeps inv.value (machine.callMember receiver name arguments) := by
  have method := drives.lawful.method named drives.call receiver_allowed allowed
  refine .read fun memory _ => ?_
  dsimp only
  split
  · split
    · exact drives.call _ arguments allowed
    · exact method
  · exact method

/-! ## Expressions -/

set_option linter.unusedSectionVars false in
mutual
theorem eval (scope : Scope) (expr : Expr) (admits : inv.Admits expr.parts) :
    inv.Keeps inv.value (Script.eval machine scope expr) := by
  match expr with
  | .number value =>
    unfold Script.eval
    exact .pure (drives.lawful.number value)
  | .bool value =>
    unfold Script.eval
    exact .pure (drives.lawful.bool value)
  | .null | .undefined =>
    unfold Script.eval
    exact .pure (drives.lawful.plain (by simp))
  | .str value =>
    simp only [Expr.parts, admits_cons] at admits
    unfold Script.eval
    exact .pure (drives.lawful.fixed admits.1)
  | .template pieces =>
    rw [Expr.parts] at admits
    unfold Script.eval
    exact (evalPieces scope drives.lawful.empty pieces admits).map fun _ allowed => allowed
  | .array items =>
    simp only [Expr.parts, admits_cons] at admits
    unfold Script.eval
    refine (evalAll scope items admits.2).bind fun values given => drives.lawful.newArray ?_ given.1
    rw [given.2]
    exact admits.1
  | .object properties =>
    rw [Expr.parts] at admits
    unfold Script.eval
    exact (evalProperties scope (by simp) properties admits).bind fun entries allowed =>
      drives.lawful.newObject allowed
  | .name name =>
    unfold Script.eval
    exact drives.lawful.lookupIn scope name
  | .member object name =>
    rw [Expr.parts] at admits
    unfold Script.eval
    exact (eval scope object admits).bind fun object _ => drives.lawful.getProperty object name
  | .index object key =>
    rw [Expr.parts, admits_append] at admits
    unfold Script.eval
    exact (eval scope object admits.1).bind fun object _ => (eval scope key admits.2).bind fun key _ =>
      drives.lawful.getIndex object key
  | .call callee arguments =>
    simp only [Expr.parts, admits_append] at admits
    obtain ⟨called, of_callee, of_arguments⟩ := admits
    have function := eval scope callee of_callee
    have applied := fun value => (evalAll scope arguments of_arguments).bind fun values given =>
      drives.call value values given.1
    cases callee with
    | member receiver name =>
      simp only [Expr.called, admits_cons] at called
      rw [Expr.parts] at of_callee
      unfold Script.eval
      exact (eval scope receiver of_callee).bind fun receiver allowed =>
        (evalAll scope arguments of_arguments).bind fun values given =>
          drives.callMember allowed called.1 given.1
    | _ =>
      unfold Script.eval
      exact function.bind fun value _ => applied value
  | .unary op operand =>
    rw [Expr.parts] at admits
    have of_operand := (eval scope operand admits).bind fun value _ => drives.lawful.unaryOp op value
    cases op with
    | typeof =>
      cases operand with
      | name name =>
        unfold Script.eval
        exact .read fun _ _ => .pure (drives.lawful.typeName _)
      | _ =>
        unfold Script.eval
        exact of_operand
    | _ =>
      unfold Script.eval
      exact of_operand
  | .binary op left right =>
    rw [Expr.parts, admits_append] at admits
    unfold Script.eval
    exact (eval scope left admits.1).bind fun left _ => (eval scope right admits.2).bind fun right _ =>
      drives.lawful.binaryOp op left right
  | .logical op left right =>
    rw [Expr.parts, admits_append] at admits
    unfold Script.eval
    refine (eval scope left admits.1).bind fun value allowed => ?_
    cases op with
    | and | or =>
      dsimp only
      split
      · exact .pure allowed
      · exact eval scope right admits.2
  | .conditional test yes no =>
    simp only [Expr.parts, admits_append] at admits
    obtain ⟨of_test, of_yes, of_no⟩ := admits
    unfold Script.eval
    refine (eval scope test of_test).bind fun value _ => ?_
    split
    · exact eval scope yes of_yes
    · exact eval scope no of_no
  | .assign none target value =>
    rw [Expr.parts, admits_append] at admits
    unfold Script.eval
    exact (eval scope value admits.2).bind fun value allowed =>
      (store scope allowed target admits.1).bind fun _ _ => .pure allowed
  | .assign (some op) target value =>
    rw [Expr.parts, admits_append] at admits
    unfold Script.eval
    exact (eval scope target admits.1).bind fun current _ =>
      (eval scope value admits.2).bind fun right _ =>
        (drives.lawful.binaryOp op current right).bind fun combined allowed =>
          (store scope allowed target admits.1).bind fun _ _ => .pure allowed
  | .update increment before target =>
    rw [Expr.parts] at admits
    unfold Script.eval
    exact (eval scope target admits).bind fun value _ => (drives.lawful.toNumber value).bind fun old _ =>
      (store scope (drives.lawful.number _) target admits).bind fun _ _ =>
        .pure (drives.lawful.number _)
  | .function definition =>
    rw [Expr.parts] at admits
    unfold Script.eval
    exact drives.lawful.newFunction scope admits

theorem evalAll (scope : Scope) (exprs : List Expr) (admits : inv.Admits (exprsParts exprs)) :
    inv.Keeps (fun values => (∀ value ∈ values, inv.value value) ∧ values.length = exprs.length)
      (Script.evalAll machine scope exprs) := by
  match exprs with
  | [] =>
    unfold Script.evalAll
    exact .pure (by simp)
  | expr :: rest =>
    rw [exprsParts, admits_append] at admits
    unfold Script.evalAll
    refine (eval scope expr admits.1).bind fun value allowed =>
      (evalAll scope rest admits.2).map fun values given => ?_
    exact ⟨List.forall_mem_cons.mpr ⟨allowed, given.1⟩, congrArg (· + 1) given.2⟩

theorem evalPieces (scope : Scope) {out : String} (out_allowed : inv.value (.str out))
    (pieces : List Piece) (admits : inv.Admits (piecesParts pieces)) :
    inv.Keeps (fun text => inv.value (.str text)) (Script.evalPieces machine scope out pieces) := by
  match pieces with
  | [] =>
    unfold Script.evalPieces
    exact .pure out_allowed
  | .text value :: rest =>
    rw [piecesParts] at admits
    unfold Script.evalPieces
    exact (drives.lawful.checkString _).bind fun _ allowed => evalPieces scope allowed rest admits
  | .code expr :: rest =>
    rw [piecesParts, admits_append] at admits
    unfold Script.evalPieces
    exact (eval scope expr admits.1).bind fun value _ => (drives.lawful.text value).bind fun text _ =>
      (drives.lawful.checkString _).bind fun _ allowed => evalPieces scope allowed rest admits.2

theorem evalProperties (scope : Scope) {entries : Entries}
    (allowed : ∀ entry ∈ entries, inv.value (.str entry.1) ∧ inv.value entry.2)
    (properties : List Property) (admits : inv.Admits (propertiesParts properties)) :
    inv.Keeps (fun entries : Entries => ∀ entry ∈ entries, inv.value (.str entry.1) ∧ inv.value entry.2)
      (Script.evalProperties machine scope entries properties) := by
  match properties with
  | [] =>
    unfold Script.evalProperties
    exact .pure allowed
  | .fixed key expr :: rest =>
    simp only [propertiesParts, admits_cons, admits_append] at admits
    obtain ⟨of_key, of_expr, of_rest⟩ := admits
    unfold Script.evalProperties
    exact (eval scope expr of_expr).bind fun value value_allowed =>
      evalProperties scope (Entries.all_set allowed ⟨drives.lawful.fixed of_key, value_allowed⟩) rest
        of_rest
  | .computed key expr :: rest =>
    simp only [propertiesParts, admits_append] at admits
    obtain ⟨of_key, of_expr, of_rest⟩ := admits
    unfold Script.evalProperties
    exact (eval scope key of_key).bind fun key _ => (drives.lawful.text key).bind fun name name_allowed =>
      (eval scope expr of_expr).bind fun value value_allowed =>
        evalProperties scope (Entries.all_set allowed ⟨name_allowed, value_allowed⟩) rest of_rest

theorem store (scope : Scope) {value : Value} (allowed : inv.value value) (target : Expr)
    (admits : inv.Admits target.parts) :
    inv.KeepsMemory (Script.store machine scope value target) := by
  match target with
  | .name name =>
    unfold Script.store
    exact .modify fun _ holds => drives.lawful.declare _ name holds allowed
  | .member object name =>
    rw [Expr.parts] at admits
    unfold Script.store
    exact (eval scope object admits).bind fun object _ => drives.lawful.setIndex object _ allowed
  | .index object key =>
    rw [Expr.parts, admits_append] at admits
    unfold Script.store
    exact (eval scope object admits.1).bind fun object _ => (eval scope key admits.2).bind fun key _ =>
      drives.lawful.setIndex object key allowed
  | .number _ | .str _ | .bool _ | .null | .undefined | .template _ | .array _ | .object _
  | .call _ _ | .unary _ _ | .binary _ _ _ | .logical _ _ _ | .conditional _ _ _ | .assign _ _ _
  | .update _ _ _ | .function _ =>
    unfold Script.store
    exact .fault _
end

theorem evalTest (scope : Scope) (test : Option Expr) (admits : inv.Admits (exprParts? test)) :
    inv.KeepsMemory (Script.evalTest machine scope test) := by
  cases test with
  | none => exact .pure trivial
  | some test => exact (drives.eval scope test admits).map fun _ _ => trivial

theorem evalUpdate (scope : Scope) (update : Option Expr) (admits : inv.Admits (exprParts? update)) :
    inv.KeepsMemory (Script.evalUpdate machine scope update) := by
  cases update with
  | none => exact .pure trivial
  | some update => exact (drives.eval scope update admits).discard

end Drives

/-! ## Statements -/

section Turns

variable {limits : Limits}

theorem Flows.afterBody {flow : Flow} (allowed : inv.Flows flow) : inv.Turns flow.afterBody := by
  intro ended is_end
  cases flow with
  | ret value =>
    cases is_end
    exact allowed
  | leave =>
    cases is_end
    trivial
  | normal | next => cases is_end

theorem turns_normal : inv.Turns (some .normal) := by simp [Turns, Flows]

theorem keeps_forEachValue {turn : Value → Run (Option Flow)} {values : List Value}
    (turned : ∀ value, inv.value value → inv.Keeps inv.Turns (turn value))
    (allowed : ∀ value ∈ values, inv.value value) :
    inv.Keeps inv.Flows (forEachValue turn values) := by
  induction values with
  | nil => exact fun memory holds => ⟨trivial, holds, inv.refl memory⟩
  | cons value rest of_rest =>
    obtain ⟨value_allowed, rest_allowed⟩ := List.forall_mem_cons.mp allowed
    rw [forEachValue_cons]
    refine (turned value value_allowed).bind fun ended ended_allowed => ?_
    cases ended with
    | some flow => exact .pure (ended_allowed flow rfl)
    | none => exact of_rest rest_allowed

theorem keeps_loop {turn : Run (Option Flow)} (turned : inv.Keeps inv.Turns turn) :
    inv.Keeps inv.Flows (loop limits turn) := by
  have repeated : ∀ turns, inv.Keeps inv.Flows (repeatUntil limits turn turns) := by
    intro turns
    induction turns with
    | zero => exact .throw _
    | succ turns of_turns =>
      rw [repeatUntil_succ]
      refine turned.bind fun ended ended_allowed => ?_
      cases ended with
      | some flow => exact .pure (ended_allowed flow rfl)
      | none => exact of_turns
  exact fun memory holds => repeated _ memory holds

variable (lawful : inv.Lawful limits)

include lawful

theorem Lawful.whileTurn {test : Run Value} {body : Run Flow} (tested : inv.Keeps inv.value test)
    (executed : inv.Keeps inv.Flows body) :
    inv.Keeps inv.Turns (Script.whileTurn limits test body) := by
  refine tested.bind fun value _ => ?_
  split
  · exact lawful.tick.bind fun _ _ => executed.map fun _ allowed => allowed.afterBody
  · exact .pure turns_normal

theorem Lawful.forTurn {test : Run Bool} {body : Run Flow} {update : Run Unit}
    (tested : inv.KeepsMemory test) (executed : inv.Keeps inv.Flows body)
    (updated : inv.KeepsMemory update) :
    inv.Keeps inv.Turns (Script.forTurn limits test body update) := by
  refine lawful.tick.bind fun _ _ => tested.bind fun goesOn _ => ?_
  split
  · refine executed.bind fun flow allowed => ?_
    have ended_allowed := allowed.afterBody
    generalize flow.afterBody = ended at ended_allowed ⊢
    cases ended with
    | some flow => exact .pure ended_allowed
    | none => exact updated.bind fun _ _ => .pure ended_allowed
  · exact .pure turns_normal

theorem Lawful.eachTurn {body : Scope → Run Flow} (executed : ∀ inner, inv.Keeps inv.Flows (body inner))
    (scope : Scope) (name : String) {value : Value} (allowed : inv.value value) :
    inv.Keeps inv.Turns (Script.eachTurn limits scope name body value) :=
  lawful.tick.bind fun _ _ => (lawful.newScope scope (by simpa using allowed)).bind fun inner _ =>
    (executed inner).map fun _ allowed => allowed.afterBody

end Turns

namespace Drives

variable {machine : Machine} (drives : inv.Drives machine)

include drives

set_option linter.unusedSectionVars false in
mutual
theorem exec (scope : Scope) (stmt : Stmt) (admits : inv.Admits stmt.parts) :
    inv.Keeps inv.Flows (Script.exec machine scope stmt) := by
  match stmt with
  | .empty | .function _ | .leave | .next =>
    unfold Script.exec
    exact drives.lawful.tick.map fun _ _ => trivial
  | .declare bindings =>
    rw [Stmt.parts] at admits
    unfold Script.exec
    exact drives.lawful.tick.bind fun _ _ => (execBindings scope bindings admits).map fun _ _ => trivial
  | .expr value =>
    rw [Stmt.parts] at admits
    unfold Script.exec
    exact drives.lawful.tick.bind fun _ _ => (drives.eval scope value admits).map fun _ _ => trivial
  | .block body =>
    rw [Stmt.parts] at admits
    unfold Script.exec
    exact drives.lawful.tick.bind fun _ _ => (drives.lawful.newScope scope (by simp)).bind fun inner _ =>
      (drives.lawful.hoist inner admits).bind fun _ _ => execAll inner body admits
  | .ifElse test yes none =>
    simp only [Stmt.parts, admits_append] at admits
    obtain ⟨of_test, of_yes, _⟩ := admits
    unfold Script.exec
    refine drives.lawful.tick.bind fun _ _ => (drives.eval scope test of_test).bind fun value _ => ?_
    split
    · exact exec scope yes of_yes
    · exact .pure trivial
  | .ifElse test yes (some no) =>
    simp only [Stmt.parts, admits_append, stmtParts?] at admits
    obtain ⟨of_test, of_yes, of_no⟩ := admits
    unfold Script.exec
    refine drives.lawful.tick.bind fun _ _ => (drives.eval scope test of_test).bind fun value _ => ?_
    split
    · exact exec scope yes of_yes
    · exact exec scope no of_no
  | .whileLoop test body =>
    rw [Stmt.parts, admits_append] at admits
    unfold Script.exec
    exact drives.lawful.tick.bind fun _ _ => drives.again _
      (drives.lawful.whileTurn (drives.eval scope test admits.1) (exec scope body admits.2))
  | .forLoop none test update body =>
    simp only [Stmt.parts, admits_append] at admits
    obtain ⟨_, of_test, of_update, of_body⟩ := admits
    unfold Script.exec
    exact drives.lawful.tick.bind fun _ _ => (drives.lawful.newScope scope (by simp)).bind fun inner _ =>
      drives.again _ (drives.lawful.forTurn (drives.evalTest inner test of_test)
        (exec inner body of_body) (drives.evalUpdate inner update of_update))
  | .forLoop (some init) test update body =>
    simp only [Stmt.parts, admits_append, stmtParts?] at admits
    obtain ⟨of_init, of_test, of_update, of_body⟩ := admits
    unfold Script.exec
    exact drives.lawful.tick.bind fun _ _ => (drives.lawful.newScope scope (by simp)).bind fun inner _ =>
      (exec inner init of_init).discard.bind fun _ _ =>
        drives.again _ (drives.lawful.forTurn (drives.evalTest inner test of_test)
          (exec inner body of_body) (drives.evalUpdate inner update of_update))
  | .forOf name iterable body =>
    rw [Stmt.parts, admits_append] at admits
    unfold Script.exec
    exact drives.lawful.tick.bind fun _ _ => (drives.eval scope iterable admits.1).bind fun value _ =>
      (drives.lawful.iterated value).bind fun values allowed => keeps_forEachValue
        (fun _ allowed => drives.lawful.eachTurn (fun inner => exec inner body admits.2) scope name
          allowed) allowed
  | .forIn name object body =>
    rw [Stmt.parts, admits_append] at admits
    unfold Script.exec
    exact drives.lawful.tick.bind fun _ _ => (drives.eval scope object admits.1).bind fun value _ =>
      (drives.lawful.keysOf value).bind fun keys allowed => keeps_forEachValue
        (fun _ allowed => drives.lawful.eachTurn (fun inner => exec inner body admits.2) scope name
          allowed) allowed
  | .ret none =>
    unfold Script.exec
    exact drives.lawful.tick.map fun _ _ => drives.lawful.undefined
  | .ret (some value) =>
    rw [Stmt.parts, exprParts?] at admits
    unfold Script.exec
    exact drives.lawful.tick.bind fun _ _ => (drives.eval scope value admits).map fun _ allowed => allowed

theorem execAll (scope : Scope) (body : List Stmt) (admits : inv.Admits (stmtsParts body)) :
    inv.Keeps inv.Flows (Script.execAll machine scope body) := by
  match body with
  | [] =>
    unfold Script.execAll
    exact .pure trivial
  | stmt :: rest =>
    rw [stmtsParts, admits_append] at admits
    unfold Script.execAll
    refine (exec scope stmt admits.1).bind fun flow allowed => ?_
    cases flow with
    | normal => exact execAll scope rest admits.2
    | _ => exact .pure allowed

theorem execBindings (scope : Scope) (bindings : List Binding)
    (admits : inv.Admits (bindingsParts bindings)) :
    inv.KeepsMemory (Script.execBindings machine scope bindings) := by
  match bindings with
  | [] =>
    unfold Script.execBindings
    exact .pure trivial
  | .mk name (some init) :: rest =>
    rw [bindingsParts, admits_append, exprParts?] at admits
    unfold Script.execBindings
    exact (drives.eval scope init admits.1).bind fun value allowed =>
      (drives.lawful.declareIn scope name allowed).bind fun _ _ => execBindings scope rest admits.2
  | .mk name none :: rest =>
    rw [bindingsParts, admits_append] at admits
    unfold Script.execBindings
    exact (drives.lawful.declareIn scope name drives.lawful.undefined).bind fun _ _ =>
      execBindings scope rest admits.2
end

theorem execBlock (scope : Scope) (body : List Stmt) (admits : inv.Admits (stmtsParts body)) :
    inv.Keeps inv.Flows (Script.execBlock machine scope body) :=
  (drives.lawful.hoist scope admits).bind fun _ _ => drives.execAll scope body admits

theorem runBody (scope : Scope) (body : FunctionBody) (admits : inv.Admits body.parts) :
    inv.Keeps inv.value (Script.runBody machine scope body) := by
  cases body with
  | block body =>
    rw [FunctionBody.parts] at admits
    refine (drives.execBlock scope body admits).bind fun flow allowed => ?_
    cases flow with
    | ret value => exact .pure allowed
    | _ => exact .pure drives.lawful.undefined
  | value expr =>
    rw [FunctionBody.parts] at admits
    exact drives.eval scope expr admits

/-! ## Sessions -/

theorem load (program : Program) (admits : inv.Admits program.parts) :
    inv.KeepsMemory (machine.load program) := by
  refine (drives.execBlock globalScope program admits).bind fun flow _ => ?_
  cases flow with
  | normal => exact .pure trivial
  | _ => exact .fault _

theorem callGlobal (name : String) {arguments : List Value}
    (allowed : ∀ argument ∈ arguments, inv.value argument) :
    inv.Keeps inv.value (machine.callGlobal name arguments) := by
  refine .read fun memory _ => ?_
  split
  · exact drives.call _ arguments allowed
  · exact .fault _

theorem session {program : Program} (admits : inv.Admits program.parts) (name : String)
    {good : Json → Prop} (copies : inv.Copies good) {trees : List Json}
    (are_good : ∀ tree ∈ trees, good tree) {values : List Value}
    (allowed : ∀ value ∈ values, inv.value value) :
    inv.Keeps inv.value (machine.session program name trees values) := by
  refine (drives.load program admits).bind fun _ _ => (copies.ofItems (by simp) are_good).bind
    fun trees copied => drives.callGlobal name fun argument is_one => ?_
  rcases List.mem_append.mp is_one with is_copy | is_value
  · exact copied.2 argument (Array.mem_toList_iff.mp is_copy)
  · exact allowed argument is_value

end Drives

/-- However many calls may still stand inside one another, a lawful invariant is kept. -/
theorem Lawful.drives {limits : Limits} (lawful : inv.Lawful limits) (depth : Nat) :
    inv.Drives (.allowing limits depth) := by
  induction depth with
  | zero =>
    exact ⟨lawful, fun _ _ _ _ => lawful.tick.bind fun _ _ => .throw _, fun _ turned =>
      keeps_loop turned⟩
  | succ depth of_depth =>
    -- a body is run on the machine that allows one call less
    refine ⟨lawful, fun closure arguments admits allowed => ?_, fun _ turned => keeps_loop turned⟩
    have none_in : ∀ entry ∈ ([] : Frame), inv.value entry.2 := by simp
    have frame := all_bindParameters lawful.undefined none_in closure.definition.params allowed
    refine lawful.tick.bind fun _ _ => (lawful.newScope closure.scope frame).bind fun scope _ => ?_
    cases closure with
    | mk definition outer =>
      cases definition with
      | mk name params body => exact of_depth.runBody scope body admits

end Invariant
end Tabletop.Script
