import Tabletop.Proofs.Script.Link.Library
import Tabletop.Script.Session

/-!
If the calls and the loops of two machines go together, so does everything that programs do on them.
-/

namespace Tabletop.Script

/-- The turns of the loops that a machine executes. -/
inductive Machine.IsTurn (machine : Machine) : Run (Option Flow) → Prop where
  | ofWhile (scope : Scope) (test : Expr) (body : Stmt) : machine.IsTurn
      (whileTurn machine.limits (eval machine scope test) (exec machine scope body))
  | ofFor (scope : Scope) (test update : Option Expr) (body : Stmt) : machine.IsTurn
      (forTurn machine.limits (evalTest machine scope test) (exec machine scope body)
        (evalUpdate machine scope update))

theorem forEachValue_cons (turn : Value → Run (Option Flow)) (value : Value) (rest : List Value) :
    forEachValue turn (value :: rest) = (do
      match ← turn value with
      | some flow => return flow
      | none => forEachValue turn rest) := by
  funext memory
  rw [forEachValue, bind_apply]
  dsimp only
  cases turn value memory with
  | error fault memory => rfl
  | ok ended memory => cases ended <;> rfl

theorem repeatUntil_succ (limits : Limits) (turn : Run (Option Flow)) (turns : Nat) :
    repeatUntil limits turn (turns + 1) = (do
      match ← turn with
      | some flow => return flow
      | none => repeatUntil limits turn turns) := by
  funext memory
  rw [repeatUntil, bind_apply]
  dsimp only
  cases turn memory with
  | error fault memory => rfl
  | ok ended memory => cases ended <;> rfl

namespace Link

variable {link : Link} {machine machine' : Machine}

/-- Two machines whose calls and loops go together. -/
structure Machines (link : Link) (machine machine' : Machine) : Prop where
  lawful : link.Lawful machine.limits machine'.limits
  enter : ∀ closure arguments,
    link.Carries (machine.enter closure arguments) (machine'.enter closure arguments)
  again : ∀ turn turn', machine.IsTurn turn → link.Carries turn turn' →
    link.Carries (machine.again turn) (machine'.again turn')

namespace Machines

variable (machines : link.Machines machine machine')

include machines

/-! ## Calls -/

theorem call (callee : Value) (arguments : List Value) :
    link.Carries (machine.call callee arguments) (machine'.call callee arguments) := by
  unfold Machine.call
  cases callee with
  | function id =>
    refine machines.lawful.read (by simp) fun memory => ?_
    split
    · exact machines.enter _ arguments
    · exact machines.lawful.fault _
  | builtin function => exact machines.lawful.builtin function arguments
  | _ => exact machines.lawful.fault _

theorem callMember (receiver : Value) (name : String) (arguments : List Value) :
    link.Carries (machine.callMember receiver name arguments)
      (machine'.callMember receiver name arguments) := by
  have method := machines.lawful.callMethod machines.call receiver name arguments
  refine machines.lawful.read (fun _ _ _ => rfl) fun memory => ?_
  dsimp only
  split
  · split
    · exact machines.call _ arguments
    · exact method
  · exact method

/-! ## Names and items -/

theorem lookupIn (scope : Scope) (name : String) :
    link.Carries (Script.lookupIn scope name) (Script.lookupIn scope name) := by
  refine machines.lawful.read (by simp) fun memory => ?_
  split
  · exact .pure _
  · exact machines.lawful.fault _

theorem declareIn (scope : Scope) (name : String) (value : Value) :
    link.Carries (Script.declareIn scope name value) (Script.declareIn scope name value) :=
  machines.lawful.declare _ name value

theorem hoist (scope : Scope) (body : List Stmt) :
    link.Carries (Script.hoist scope body) (Script.hoist scope body) := by
  induction body with
  | nil => exact .pure _
  | cons stmt rest of_rest =>
    cases stmt with
    | function definition =>
      unfold Script.hoist
      split
      · exact (machines.lawful.newFunction definition scope).bind fun value =>
          (machines.lawful.declare _ _ value).bind fun _ => of_rest
      · exact of_rest
    | _ => exact of_rest

theorem iterated (value : Value) :
    link.Carries (Script.iterated value) (Script.iterated value) := by
  cases value with
  | array id => exact (machines.lawful.itemsOf id).map _
  | str text => exact .pure _
  | _ => exact machines.lawful.fault _

theorem keysOf (value : Value) : link.Carries (Script.keysOf value) (Script.keysOf value) :=
  machines.lawful.read (fun _ _ _ => rfl) fun _ => .pure _

/-! ## Expressions -/

set_option linter.unusedSectionVars false in
mutual
theorem eval (scope : Scope) (expr : Expr) :
    link.Carries (Script.eval machine scope expr) (Script.eval machine' scope expr) := by
  match expr with
  | .number _ | .str _ | .bool _ | .null | .undefined =>
    unfold Script.eval
    exact .pure _
  | .template pieces =>
    unfold Script.eval
    exact (evalPieces scope "" pieces).map _
  | .array items =>
    unfold Script.eval
    exact (evalAll scope items).bind fun _ => machines.lawful.newArray _
  | .object properties =>
    unfold Script.eval
    exact (evalProperties scope #[] properties).bind fun _ => machines.lawful.newObject _
  | .name name =>
    unfold Script.eval
    exact machines.lookupIn scope name
  | .member object name =>
    unfold Script.eval
    exact (eval scope object).bind fun object => machines.lawful.getProperty object name
  | .index object key =>
    unfold Script.eval
    exact (eval scope object).bind fun object => (eval scope key).bind fun key =>
      machines.lawful.getIndex object key
  | .call callee arguments =>
    have function := eval scope callee
    have of_callee := fun value => (evalAll scope arguments).bind (machines.call value)
    cases callee with
    | member receiver name =>
      unfold Script.eval
      exact (eval scope receiver).bind fun receiver => (evalAll scope arguments).bind fun arguments =>
        machines.callMember receiver name arguments
    | _ =>
      unfold Script.eval
      exact function.bind of_callee
  | .unary op operand =>
    have of_operand := (eval scope operand).bind (machines.lawful.unaryOp op)
    cases op with
    | typeof =>
      cases operand with
      | name name =>
        unfold Script.eval
        exact machines.lawful.read (by simp) fun _ => .pure _
      | _ =>
        unfold Script.eval
        exact of_operand
    | _ =>
      unfold Script.eval
      exact of_operand
  | .binary op left right =>
    unfold Script.eval
    exact (eval scope left).bind fun left => (eval scope right).bind fun right =>
      machines.lawful.binaryOp op left right
  | .logical op left right =>
    unfold Script.eval
    refine (eval scope left).bind fun value => ?_
    cases op with
    | and | or =>
      dsimp only
      split
      · exact .pure _
      · exact eval scope right
  | .conditional test yes no =>
    unfold Script.eval
    refine (eval scope test).bind fun value => ?_
    split
    · exact eval scope yes
    · exact eval scope no
  | .assign none target value =>
    unfold Script.eval
    exact (eval scope value).bind fun value => (store scope value target).map _
  | .assign (some op) target value =>
    unfold Script.eval
    exact (eval scope target).bind fun current => (eval scope value).bind fun right =>
      (machines.lawful.binaryOp op current right).bind fun combined =>
        (store scope combined target).map _
  | .update increment before target =>
    unfold Script.eval
    exact (eval scope target).bind fun value => (machines.lawful.toNumber value).bind fun old =>
      (store scope _ target).map _
  | .function definition =>
    unfold Script.eval
    exact machines.lawful.newFunction definition scope

theorem evalAll (scope : Scope) (exprs : List Expr) :
    link.Carries (Script.evalAll machine scope exprs) (Script.evalAll machine' scope exprs) := by
  match exprs with
  | [] =>
    unfold Script.evalAll
    exact .pure _
  | expr :: rest =>
    unfold Script.evalAll
    exact (eval scope expr).bind fun _ => (evalAll scope rest).map _

theorem evalPieces (scope : Scope) (out : String) (pieces : List Piece) :
    link.Carries (Script.evalPieces machine scope out pieces)
      (Script.evalPieces machine' scope out pieces) := by
  match pieces with
  | [] =>
    unfold Script.evalPieces
    exact .pure _
  | .text value :: rest =>
    unfold Script.evalPieces
    exact (machines.lawful.checkString _).bind fun _ => evalPieces scope _ rest
  | .code expr :: rest =>
    unfold Script.evalPieces
    exact (eval scope expr).bind fun value => (machines.lawful.text value).bind fun text =>
      (machines.lawful.checkString _).bind fun _ => evalPieces scope _ rest

theorem evalProperties (scope : Scope) (entries : Entries) (properties : List Property) :
    link.Carries (Script.evalProperties machine scope entries properties)
      (Script.evalProperties machine' scope entries properties) := by
  match properties with
  | [] =>
    unfold Script.evalProperties
    exact .pure _
  | .fixed key expr :: rest =>
    unfold Script.evalProperties
    exact (eval scope expr).bind fun value => evalProperties scope _ rest
  | .computed key expr :: rest =>
    unfold Script.evalProperties
    exact (eval scope key).bind fun key => (machines.lawful.text key).bind fun name =>
      (eval scope expr).bind fun value => evalProperties scope _ rest

theorem store (scope : Scope) (value : Value) (target : Expr) :
    link.Carries (Script.store machine scope value target)
      (Script.store machine' scope value target) := by
  match target with
  | .name name =>
    unfold Script.store
    exact machines.lawful.assign scope name value
  | .member object name =>
    unfold Script.store
    exact (eval scope object).bind fun object => machines.lawful.setIndex object _ value
  | .index object key =>
    unfold Script.store
    exact (eval scope object).bind fun object => (eval scope key).bind fun key =>
      machines.lawful.setIndex object key value
  | .number _ | .str _ | .bool _ | .null | .undefined | .template _ | .array _ | .object _
  | .call _ _ | .unary _ _ | .binary _ _ _ | .logical _ _ _ | .conditional _ _ _ | .assign _ _ _
  | .update _ _ _ | .function _ =>
    unfold Script.store
    exact machines.lawful.fault _
end

theorem evalTest (scope : Scope) (test : Option Expr) :
    link.Carries (Script.evalTest machine scope test) (Script.evalTest machine' scope test) := by
  cases test with
  | none => exact .pure _
  | some test => exact (machines.eval scope test).map _

theorem evalUpdate (scope : Scope) (update : Option Expr) :
    link.Carries (Script.evalUpdate machine scope update)
      (Script.evalUpdate machine' scope update) := by
  cases update with
  | none => exact .pure _
  | some update => exact (machines.eval scope update).discard

/-! ## Statements -/

theorem whileTurn {test test' : Run Value} {body body' : Run Flow}
    (tested : link.Carries test test') (executed : link.Carries body body') :
    link.Carries (Script.whileTurn machine.limits test body)
      (Script.whileTurn machine'.limits test' body') := by
  refine tested.bind fun value => ?_
  split
  · exact machines.lawful.tick.bind fun _ => executed.map _
  · exact .pure _

theorem forTurn {test test' : Run Bool} {body body' : Run Flow} {update update' : Run Unit}
    (tested : link.Carries test test') (executed : link.Carries body body')
    (updated : link.Carries update update') :
    link.Carries (Script.forTurn machine.limits test body update)
      (Script.forTurn machine'.limits test' body' update') := by
  refine machines.lawful.tick.bind fun _ => tested.bind fun goesOn => ?_
  split
  · refine executed.bind fun flow => ?_
    cases flow.afterBody with
    | some flow => exact .pure _
    | none => exact updated.map _
  · exact .pure _

omit machines in
theorem forEachValue {turn turn' : Value → Run (Option Flow)}
    (turned : ∀ value, link.Carries (turn value) (turn' value)) (values : List Value) :
    link.Carries (Script.forEachValue turn values) (Script.forEachValue turn' values) := by
  induction values with
  | nil => exact .pure _
  | cons value rest of_rest =>
    rw [forEachValue_cons, forEachValue_cons]
    refine (turned value).bind fun ended => ?_
    cases ended with
    | some flow => exact .pure flow
    | none => exact of_rest

theorem eachTurn {body body' : Scope → Run Flow}
    (executed : ∀ inner, link.Carries (body inner) (body' inner)) (scope : Scope) (name : String)
    (value : Value) :
    link.Carries (Script.eachTurn machine.limits scope name body value)
      (Script.eachTurn machine'.limits scope name body' value) :=
  machines.lawful.tick.bind fun _ => (machines.lawful.newScope _ scope).bind fun inner =>
    (executed inner).map _

set_option linter.unusedSectionVars false in
mutual
theorem exec (scope : Scope) (stmt : Stmt) :
    link.Carries (Script.exec machine scope stmt) (Script.exec machine' scope stmt) := by
  match stmt with
  | .empty | .function _ | .leave | .next =>
    unfold Script.exec
    exact machines.lawful.tick.map _
  | .declare bindings =>
    unfold Script.exec
    exact machines.lawful.tick.bind fun _ => (execBindings scope bindings).map _
  | .expr value =>
    unfold Script.exec
    exact machines.lawful.tick.bind fun _ => (machines.eval scope value).map _
  | .block body =>
    unfold Script.exec
    exact machines.lawful.tick.bind fun _ => (machines.lawful.newScope [] scope).bind fun inner =>
      (machines.hoist inner body).bind fun _ => execAll inner body
  | .ifElse test yes none =>
    unfold Script.exec
    refine machines.lawful.tick.bind fun _ => (machines.eval scope test).bind fun value => ?_
    split
    · exact exec scope yes
    · exact .pure _
  | .ifElse test yes (some no) =>
    unfold Script.exec
    refine machines.lawful.tick.bind fun _ => (machines.eval scope test).bind fun value => ?_
    split
    · exact exec scope yes
    · exact exec scope no
  | .whileLoop test body =>
    unfold Script.exec
    exact machines.lawful.tick.bind fun _ => machines.again _ _ (.ofWhile scope test body)
      (machines.whileTurn (machines.eval scope test) (exec scope body))
  | .forLoop none test update body =>
    unfold Script.exec
    exact machines.lawful.tick.bind fun _ => (machines.lawful.newScope [] scope).bind fun inner =>
      machines.again _ _ (.ofFor inner test update body) (machines.forTurn
        (machines.evalTest inner test) (exec inner body) (machines.evalUpdate inner update))
  | .forLoop (some init) test update body =>
    unfold Script.exec
    exact machines.lawful.tick.bind fun _ => (machines.lawful.newScope [] scope).bind fun inner =>
      (exec inner init).discard.bind fun _ =>
        machines.again _ _ (.ofFor inner test update body) (machines.forTurn
          (machines.evalTest inner test) (exec inner body) (machines.evalUpdate inner update))
  | .forOf name iterable body =>
    unfold Script.exec
    exact machines.lawful.tick.bind fun _ => (machines.eval scope iterable).bind fun value =>
      (machines.iterated value).bind fun values =>
        forEachValue (machines.eachTurn (fun inner => exec inner body) scope name) values
  | .forIn name object body =>
    unfold Script.exec
    exact machines.lawful.tick.bind fun _ => (machines.eval scope object).bind fun value =>
      (machines.keysOf value).bind fun keys =>
        forEachValue (machines.eachTurn (fun inner => exec inner body) scope name) keys
  | .ret none =>
    unfold Script.exec
    exact machines.lawful.tick.map _
  | .ret (some value) =>
    unfold Script.exec
    exact machines.lawful.tick.bind fun _ => (machines.eval scope value).map _

theorem execAll (scope : Scope) (body : List Stmt) :
    link.Carries (Script.execAll machine scope body) (Script.execAll machine' scope body) := by
  match body with
  | [] =>
    unfold Script.execAll
    exact .pure _
  | stmt :: rest =>
    unfold Script.execAll
    refine (exec scope stmt).bind fun flow => ?_
    cases flow with
    | normal => exact execAll scope rest
    | _ => exact .pure _

theorem execBindings (scope : Scope) (bindings : List Binding) :
    link.Carries (Script.execBindings machine scope bindings)
      (Script.execBindings machine' scope bindings) := by
  match bindings with
  | [] =>
    unfold Script.execBindings
    exact .pure _
  | .mk name (some init) :: rest =>
    unfold Script.execBindings
    exact (machines.eval scope init).bind fun value =>
      (machines.declareIn scope name value).bind fun _ => execBindings scope rest
  | .mk name none :: rest =>
    unfold Script.execBindings
    exact (machines.declareIn scope name .undefined).bind fun _ => execBindings scope rest
end

theorem execBlock (scope : Scope) (body : List Stmt) :
    link.Carries (Script.execBlock machine scope body) (Script.execBlock machine' scope body) :=
  (machines.hoist scope body).bind fun _ => machines.execAll scope body

theorem runBody (scope : Scope) (body : FunctionBody) :
    link.Carries (Script.runBody machine scope body) (Script.runBody machine' scope body) := by
  cases body with
  | block body =>
    refine (machines.execBlock scope body).bind fun flow => ?_
    cases flow <;> exact .pure _
  | value expr => exact machines.eval scope expr

/-! ## Sessions -/

theorem load (program : Program) :
    link.Carries (machine.load program) (machine'.load program) := by
  refine (machines.execBlock globalScope program).bind fun flow => ?_
  cases flow with
  | normal => exact .pure ()
  | _ => exact machines.lawful.fault _

theorem callGlobal (name : String) (arguments : List Value) :
    link.Carries (machine.callGlobal name arguments) (machine'.callGlobal name arguments) := by
  refine machines.lawful.read (by simp) fun memory => ?_
  split
  · exact machines.call _ arguments
  · exact machines.lawful.fault _

end Machines

/-! ## Machines within limits -/

section

variable {limits limits' : Limits} {turn turn' : Run (Option Flow)}

/-- A loop cut short by its bound on turns fails as it does when its steps are spent. -/
theorem Carries.repeatUntil (turned : link.Carries turn turn')
    (excused : link.Excused (.stepBudget limits.stepBudget)) {turns turns' : Nat}
    (fewer : turns ≤ turns') :
    link.Carries (repeatUntil limits turn turns) (repeatUntil limits' turn' turns') := by
  induction turns generalizing turns' with
  | zero => exact fun _ _ _ => .inl excused
  | succ turns of_turns =>
    obtain ⟨turns', rfl⟩ := Nat.exists_eq_succ_of_ne_zero (Nat.ne_zero_of_lt fewer)
    rw [repeatUntil_succ, repeatUntil_succ]
    refine turned.bind fun ended => ?_
    cases ended with
    | some flow => exact .pure flow
    | none => exact of_turns (Nat.le_of_succ_le_succ fewer)

theorem Carries.loop (turned : link.Carries turn turn')
    (excused : link.Excused (.stepBudget limits.stepBudget))
    (left : ∀ {memory memory'}, link.Paired memory memory' →
      limits.stepBudget - memory.steps ≤ limits'.stepBudget - memory'.steps) :
    link.Carries (loop limits turn) (loop limits' turn') :=
  fun memory memory' paired => turned.repeatUntil excused (Nat.succ_le_succ (left paired)) memory
    memory' paired

end
end Link

/-- The machine while so many calls may still stand inside one another. -/
def Machine.allowing (limits : Limits) (depth : Nat) : Machine :=
  ⟨limits, Script.enter limits depth, loop limits⟩

/-- Machines go together if they do where the first allows no call any more. -/
theorem Link.Lawful.machines {link : Link} {limits limits' : Limits}
    (lawful : link.Lawful limits limits') (excused : link.Excused (.stepBudget limits.stepBudget))
    (left : ∀ {memory memory'}, link.Paired memory memory' →
      limits.stepBudget - memory.steps ≤ limits'.stepBudget - memory'.steps)
    {more : Nat}
    (deepest : ∀ closure arguments,
      link.Carries (enter limits 0 closure arguments) (enter limits' more closure arguments))
    (depth : Nat) :
    link.Machines (.allowing limits depth) (.allowing limits' (more + depth)) := by
  induction depth with
  | zero => exact ⟨lawful, deepest, fun _ _ _ turned => turned.loop excused left⟩
  | succ depth of_depth =>
    -- a body is run on the machine that allows one call less
    refine ⟨lawful, fun closure arguments => ?_, fun _ _ _ turned => turned.loop excused left⟩
    exact lawful.tick.bind fun _ => (lawful.newScope _ closure.scope).bind fun scope =>
      of_depth.runBody scope closure.definition.body

/-- Machines go together if they have the same steps and calls to spend, and a memory that both runs leave
for want of these is shared by them too. -/
theorem Link.Lawful.lockstep {link : Link} {limits limits' : Limits}
    (lawful : link.Lawful limits limits') (steps : limits'.stepBudget = limits.stepBudget)
    (calls : limits'.maxCallDepth = limits.maxCallDepth)
    (spent : ∀ {memory memory'}, link.Paired memory memory' →
      link.Failed (.stepBudget limits.stepBudget) memory memory')
    (deepest : ∀ {memory memory'}, link.Paired memory memory' →
      link.Failed (.callDepth limits.maxCallDepth) memory memory') (depth : Nat) :
    link.Machines (.allowing limits depth) (.allowing limits' depth) := by
  -- as many turns are left to both loops
  have repeated : ∀ {turn turn'}, link.Carries turn turn' → ∀ turns,
      link.Carries (repeatUntil limits turn turns) (repeatUntil limits' turn' turns) := by
    intro turn turn' turned turns
    induction turns with
    | zero =>
      intro memory memory' paired
      rw [repeatUntil, repeatUntil, steps]
      exact .inr ⟨memory', rfl, spent paired⟩
    | succ turns of_turns =>
      rw [repeatUntil_succ, repeatUntil_succ]
      refine turned.bind fun ended => ?_
      cases ended with
      | some flow => exact .pure flow
      | none => exact of_turns
  have loops : ∀ {turn turn'}, link.Carries turn turn' →
      link.Carries (Script.loop limits turn) (Script.loop limits' turn') := by
    intro turn turn' turned memory memory' paired
    obtain ⟨lines, size, rfl⟩ := lawful.alike paired
    unfold Script.loop
    rw [steps]
    exact repeated turned _ memory _ paired
  induction depth with
  | zero =>
    refine ⟨lawful, fun _ _ => lawful.tick.bind fun _ memory memory' paired => ?_,
      fun _ _ _ turned => loops turned⟩
    rw [calls]
    exact .inr ⟨memory', rfl, deepest paired⟩
  | succ depth of_depth =>
    refine ⟨lawful, fun closure _ => ?_, fun _ _ _ turned => loops turned⟩
    exact lawful.tick.bind fun _ => (lawful.newScope _ closure.scope).bind fun scope =>
      of_depth.runBody scope closure.definition.body

end Tabletop.Script
