import Tabletop.Proofs.Script.Link.Evaluation
import Mathlib.Tactic.Choose

/-!
What a run asks of its machine. Whatever calls do, a run from a given memory is a dialogue with them: it
asks for a call, goes on with what the call gives, and in the end has a result. Main statement: all that
programs do is such a dialogue, so that the calls of a run, and the order in which they are made, can be
spoken of.
-/

namespace Tabletop.Script

/-- What the calls of functions do. -/
abbrev Calls := Closure → List Value → Run Value

/-- The machine on which calls do this, and loops turn as long as there are steps left. -/
def Machine.calling (limits : Limits) (calls : Calls) : Machine := ⟨limits, calls, loop limits⟩

/-- A run from some memory on: it has ended, or it asks for a call in a memory. A call that fails ends
it. -/
inductive Dialogue (α : Type) where
  | ended (result : EStateM.Result Fault Memory α)
  | asks (closure : Closure) (arguments : List Value) (memory : Memory)
    (next : Value → Memory → Dialogue α)

variable {α β : Type}

namespace Dialogue

/-- The result of a dialogue whose questions are answered by calls. -/
def answered (calls : Calls) : Dialogue α → EStateM.Result Fault Memory α
  | ended result => result
  | asks closure arguments memory next =>
    match calls closure arguments memory with
    | .error fault memory => .error fault memory
    | .ok value memory => (next value memory).answered calls

/-- A dialogue after which another one follows, unless it fails. -/
def andThen (rest : α → Memory → Dialogue β) : Dialogue α → Dialogue β
  | ended (.ok value memory) => rest value memory
  | ended (.error fault memory) => ended (.error fault memory)
  | asks closure arguments memory next =>
    asks closure arguments memory fun value memory => (next value memory).andThen rest

theorem answered_andThen (calls : Calls) (rest : α → Memory → Dialogue β) (first : Dialogue α) :
    (first.andThen rest).answered calls = match first.answered calls with
      | .ok value memory => (rest value memory).answered calls
      | .error fault memory => .error fault memory := by
  induction first with
  | ended result => cases result <;> rfl
  | asks closure arguments memory next of_next =>
    rw [andThen, answered, answered]
    cases calls closure arguments memory with
    | ok value memory => exact of_next value memory
    | error fault memory => rfl

/-- The dialogue is what the run does from the memory, whatever calls do. -/
def Tells (dialogue : Dialogue α) (run : Calls → Run α) (memory : Memory) : Prop :=
  ∀ calls, run calls memory = dialogue.answered calls

end Dialogue

/-- From every memory the run is a dialogue with its calls. -/
def Converses (run : Calls → Run α) : Prop :=
  ∀ memory, ∃ dialogue : Dialogue α, dialogue.Tells run memory

namespace Converses

/-- A run that makes no call. -/
theorem silent (run : Run α) : Converses fun _ => run :=
  fun memory => ⟨.ended (run memory), fun _ => rfl⟩

theorem call (closure : Closure) (arguments : List Value) :
    Converses fun calls => calls closure arguments := by
  refine fun memory => ⟨.asks closure arguments memory fun value memory => .ended (.ok value memory),
    fun calls => ?_⟩
  change calls closure arguments memory = _
  rw [Dialogue.answered]
  cases calls closure arguments memory <;> rfl

theorem bind {run : Calls → Run α} {next : Calls → α → Run β} (first : Converses run)
    (rest : ∀ value, Converses fun calls => next calls value) :
    Converses fun calls => run calls >>= next calls := by
  intro memory
  obtain ⟨dialogue, tells⟩ := first memory
  choose more more_tells using fun value between => rest value between
  refine ⟨dialogue.andThen more, fun calls => ?_⟩
  change (run calls >>= next calls) memory = _
  rw [bind_apply, tells calls, Dialogue.answered_andThen]
  cases dialogue.answered calls with
  | ok value between => exact more_tells value between calls
  | error fault between => rfl

theorem map {run : Calls → Run α} (first : Converses run) (result : α → β) :
    Converses fun calls => run calls >>= fun value => pure (result value) :=
  first.bind fun value => silent (pure (result value))

theorem discard {run : Calls → Run α} (first : Converses run) :
    Converses fun calls => discard (run calls) := by
  simp only [discard_eq_bind]
  exact first.map fun _ => ()

/-- A run that begins by reading memory. -/
theorem read {next : Calls → Memory → Run α} (rest : ∀ memory, Converses fun calls => next calls memory) :
    Converses fun calls => get >>= next calls :=
  (silent get).bind rest

/-! ## Methods that call a function -/

section

variable {caller : Calls → Caller}
  (called : ∀ callee arguments, Converses fun calls => caller calls callee arguments)

include called

theorem visitItems (callback receiver : Value) (visit : α → Nat → Value → Value → Except Value α)
    (index : Nat) (gathered : α) (items : List Value) : Converses fun calls =>
      Script.visitItems (caller calls) callback receiver visit index gathered items := by
  induction items generalizing index gathered with
  | nil => exact silent (pure _)
  | cons item rest of_rest =>
    simp only [Link.visitItems_cons]
    refine (called callback _).bind fun answer => ?_
    cases visit gathered index item answer with
    | error value => exact silent (pure _)
    | ok gathered => exact of_rest _ gathered

theorem foldItems (callback receiver : Value) (index : Nat) (before : Value) (items : List Value) :
    Converses fun calls =>
      Script.foldItems (caller calls) callback receiver index before items := by
  induction items generalizing index before with
  | nil => exact silent (pure _)
  | cons item rest of_rest =>
    simp only [Link.foldItems_cons]
    exact (called callback _).bind fun answer => of_rest _ answer

theorem eachItem (callback receiver : Value) (items : List Value) :
    Converses fun calls => Script.eachItem (caller calls) callback receiver items :=
  (visitItems called callback receiver _ 0 () items).bind fun _ => silent _

theorem gatherItems (callback receiver : Value) (pick : Value → Value → Option Value)
    (items : List Value) :
    Converses fun calls => Script.gatherItems (caller calls) callback receiver pick items :=
  (visitItems called callback receiver _ 0 #[] items).bind fun _ => silent _

theorem findItem (callback receiver : Value) (wanted : Bool) (found : Nat → Value → Value)
    (otherwise : Value) (items : List Value) : Converses fun calls =>
      Script.findItem (caller calls) callback receiver wanted found otherwise items :=
  (visitItems called callback receiver _ 0 () items).bind fun _ => silent _

theorem reduceMethod (receiver : Value) (arguments items : List Value) :
    Converses fun calls => Script.reduceMethod (caller calls) receiver arguments items := by
  unfold Script.reduceMethod
  split
  · exact foldItems called _ receiver 0 _ items
  · cases items with
    | nil => exact silent _
    | cons first rest => exact foldItems called _ receiver 1 first rest

/-- Whether a method calls a function does not depend on what calls do. -/
theorem callbackMethod? (receiver : Value) (arguments : List Value) (name : String) :
    (∀ calls, Script.callbackMethod? (caller calls) receiver arguments name = none) ∨
      ∃ method : Calls → List Value → Run Value,
        (∀ calls, Script.callbackMethod? (caller calls) receiver arguments name =
          some (method calls)) ∧
        ∀ items, Converses fun calls => method calls items := by
  unfold Script.callbackMethod?
  dsimp only
  split
  · exact .inr ⟨_, fun _ => rfl, eachItem called _ receiver⟩
  · exact .inr ⟨_, fun _ => rfl, gatherItems called _ receiver _⟩
  · exact .inr ⟨_, fun _ => rfl, gatherItems called _ receiver _⟩
  · exact .inr ⟨_, fun _ => rfl, findItem called _ receiver true _ _⟩
  · exact .inr ⟨_, fun _ => rfl, findItem called _ receiver false _ _⟩
  · exact .inr ⟨_, fun _ => rfl, findItem called _ receiver true _ _⟩
  · exact .inr ⟨_, fun _ => rfl, findItem called _ receiver true _ _⟩
  · exact .inr ⟨_, fun _ => rfl, reduceMethod called receiver arguments⟩
  · exact .inl fun _ => rfl

theorem arrayMethod (limits : Limits) (id : Nat) (name : String) (arguments : List Value) :
    Converses fun calls => Script.arrayMethod limits (caller calls) id name arguments := by
  unfold Script.arrayMethod
  dsimp only
  split
  case h_10 =>
    obtain absent | ⟨method, present, converses⟩ :=
      callbackMethod? called (.array id) arguments name
    · simp only [absent]
      exact silent _
    · simp only [present]
      exact (silent (itemsOf id)).bind fun items => converses items.toList
  all_goals exact silent _

theorem callMethod (limits : Limits) (receiver : Value) (name : String) (arguments : List Value) :
    Converses fun calls => Script.callMethod limits (caller calls) receiver name arguments := by
  cases receiver with
  | array id => exact arrayMethod called limits id name arguments
  | _ => exact silent _

end

/-! ## Calls and loops of a machine -/

variable (limits : Limits)

theorem callValue (callee : Value) (arguments : List Value) :
    Converses fun calls => (Machine.calling limits calls).call callee arguments := by
  unfold Machine.call
  cases callee with
  | function id =>
    refine read fun memory => ?_
    cases memory.closures[id]? with
    | some closure => exact call closure arguments
    | none => exact silent _
  | builtin function => exact silent (function.apply limits arguments)
  | _ => exact silent _

theorem callMember (receiver : Value) (name : String) (arguments : List Value) :
    Converses fun calls => (Machine.calling limits calls).callMember receiver name arguments := by
  have method := callMethod (callValue limits) limits receiver name arguments
  refine read fun memory => ?_
  dsimp only
  split
  · split
    · exact callValue limits _ arguments
    · exact method
  · exact method

theorem again {turn : Calls → Run (Option Flow)} (turned : Converses turn) :
    Converses fun calls => (Machine.calling limits calls).again (turn calls) := by
  have repeated : ∀ turns, Converses fun calls => repeatUntil limits (turn calls) turns := by
    intro turns
    induction turns with
    | zero => exact silent _
    | succ turns of_turns =>
      simp only [repeatUntil_succ]
      refine turned.bind fun ended => ?_
      cases ended with
      | some flow => exact silent _
      | none => exact of_turns
  exact fun memory => repeated _ memory

theorem whileTurn {test : Calls → Run Value} {body : Calls → Run Flow} (tested : Converses test)
    (executed : Converses body) :
    Converses fun calls => Script.whileTurn limits (test calls) (body calls) := by
  refine tested.bind fun value => ?_
  split
  · exact (silent limits.tick).bind fun _ => executed.map _
  · exact silent _

theorem forTurn {test : Calls → Run Bool} {body : Calls → Run Flow} {update : Calls → Run Unit}
    (tested : Converses test) (executed : Converses body) (updated : Converses update) :
    Converses fun calls => Script.forTurn limits (test calls) (body calls) (update calls) := by
  refine (silent limits.tick).bind fun _ => tested.bind fun goesOn => ?_
  split
  · refine executed.bind fun flow => ?_
    cases flow.afterBody with
    | some flow => exact silent _
    | none => exact updated.map _
  · exact silent _

theorem eachTurn {body : Calls → Scope → Run Flow}
    (executed : ∀ inner, Converses fun calls => body calls inner) (scope : Scope) (name : String)
    (value : Value) :
    Converses fun calls => Script.eachTurn limits scope name (body calls) value :=
  (silent limits.tick).bind fun _ => (silent (newScope [(name, value)] scope)).bind fun inner =>
    (executed inner).map _

theorem forEachValue {turn : Calls → Value → Run (Option Flow)}
    (turned : ∀ value, Converses fun calls => turn calls value) (values : List Value) :
    Converses fun calls => Script.forEachValue (turn calls) values := by
  induction values with
  | nil => exact silent _
  | cons value rest of_rest =>
    simp only [forEachValue_cons]
    refine (turned value).bind fun ended => ?_
    cases ended with
    | some flow => exact silent _
    | none => exact of_rest

/-! ## Expressions -/

mutual
theorem eval (scope : Scope) (expr : Expr) :
    Converses fun calls => Script.eval (.calling limits calls) scope expr := by
  match expr with
  | .number _ | .str _ | .bool _ | .null | .undefined | .name _ | .function _ =>
    unfold Script.eval
    exact silent _
  | .template pieces =>
    unfold Script.eval
    exact (evalPieces scope "" pieces).map _
  | .array items =>
    unfold Script.eval
    exact (evalAll scope items).bind fun _ => silent _
  | .object properties =>
    unfold Script.eval
    exact (evalProperties scope #[] properties).bind fun _ => silent _
  | .member object name =>
    unfold Script.eval
    exact (eval scope object).bind fun _ => silent _
  | .index object key =>
    unfold Script.eval
    exact (eval scope object).bind fun _ => (eval scope key).bind fun _ => silent _
  | .call callee arguments =>
    have function := eval scope callee
    have of_callee := fun value => (evalAll scope arguments).bind (callValue limits value)
    cases callee with
    | member receiver name =>
      unfold Script.eval
      exact (eval scope receiver).bind fun receiver => (evalAll scope arguments).bind fun arguments =>
        callMember limits receiver name arguments
    | _ =>
      unfold Script.eval
      exact function.bind of_callee
  | .unary op operand =>
    have of_operand := (eval scope operand).bind fun value => silent (op.apply value)
    cases op with
    | typeof =>
      cases operand with
      | name name =>
        unfold Script.eval
        exact silent _
      | _ =>
        unfold Script.eval
        exact of_operand
    | _ =>
      unfold Script.eval
      exact of_operand
  | .binary op left right =>
    unfold Script.eval
    exact (eval scope left).bind fun left => (eval scope right).bind fun right =>
      silent (op.apply limits left right)
  | .logical op left right =>
    unfold Script.eval
    refine (eval scope left).bind fun value => ?_
    cases op with
    | and | or =>
      dsimp only
      split
      · exact silent _
      · exact eval scope right
  | .conditional test yes no =>
    unfold Script.eval
    refine (eval scope test).bind fun value => ?_
    split
    · exact eval scope yes
    · exact eval scope no
  | .assign none target value =>
    unfold Script.eval
    exact (eval scope value).bind fun value => (store scope value target).map _
  | .assign (some op) target value =>
    unfold Script.eval
    exact (eval scope target).bind fun current => (eval scope value).bind fun right =>
      (silent (op.apply limits current right)).bind fun combined => (store scope combined target).map _
  | .update increment before target =>
    unfold Script.eval
    exact (eval scope target).bind fun _ => (silent _).bind fun _ => (store scope _ target).map _

theorem evalAll (scope : Scope) (exprs : List Expr) :
    Converses fun calls => Script.evalAll (.calling limits calls) scope exprs := by
  match exprs with
  | [] =>
    unfold Script.evalAll
    exact silent _
  | expr :: rest =>
    unfold Script.evalAll
    exact (eval scope expr).bind fun _ => (evalAll scope rest).map _

theorem evalPieces (scope : Scope) (out : String) (pieces : List Piece) :
    Converses fun calls => Script.evalPieces (.calling limits calls) scope out pieces := by
  match pieces with
  | [] =>
    unfold Script.evalPieces
    exact silent _
  | .text value :: rest =>
    unfold Script.evalPieces
    exact (silent (limits.checkString _)).bind fun _ => evalPieces scope _ rest
  | .code expr :: rest =>
    unfold Script.evalPieces
    exact (eval scope expr).bind fun value => (silent (limits.text value)).bind fun text =>
      (silent (limits.checkString _)).bind fun _ => evalPieces scope _ rest

theorem evalProperties (scope : Scope) (entries : Entries) (properties : List Property) :
    Converses fun calls => Script.evalProperties (.calling limits calls) scope entries properties := by
  match properties with
  | [] =>
    unfold Script.evalProperties
    exact silent _
  | .fixed key expr :: rest =>
    unfold Script.evalProperties
    exact (eval scope expr).bind fun _ => evalProperties scope _ rest
  | .computed key expr :: rest =>
    unfold Script.evalProperties
    exact (eval scope key).bind fun key => (silent (limits.text key)).bind fun name =>
      (eval scope expr).bind fun value => evalProperties scope _ rest

theorem store (scope : Scope) (value : Value) (target : Expr) :
    Converses fun calls => Script.store (.calling limits calls) scope value target := by
  match target with
  | .member object name =>
    unfold Script.store
    exact (eval scope object).bind fun object => silent (setIndex limits object (.str name) value)
  | .index object key =>
    unfold Script.store
    exact (eval scope object).bind fun object => (eval scope key).bind fun key =>
      silent (setIndex limits object key value)
  | .name _ | .number _ | .str _ | .bool _ | .null | .undefined | .template _ | .array _ | .object _
  | .call _ _ | .unary _ _ | .binary _ _ _ | .logical _ _ _ | .conditional _ _ _ | .assign _ _ _
  | .update _ _ _ | .function _ =>
    unfold Script.store
    exact silent _
end

theorem evalTest (scope : Scope) (test : Option Expr) :
    Converses fun calls => Script.evalTest (.calling limits calls) scope test := by
  cases test with
  | none => exact silent _
  | some test => exact (eval limits scope test).map _

theorem evalUpdate (scope : Scope) (update : Option Expr) :
    Converses fun calls => Script.evalUpdate (.calling limits calls) scope update := by
  cases update with
  | none => exact silent _
  | some update => exact (eval limits scope update).discard

/-! ## Statements -/

mutual
theorem exec (scope : Scope) (stmt : Stmt) :
    Converses fun calls => Script.exec (.calling limits calls) scope stmt := by
  match stmt with
  | .empty | .function _ | .leave | .next | .ret none =>
    unfold Script.exec
    exact (silent limits.tick).map _
  | .declare bindings =>
    unfold Script.exec
    exact (silent limits.tick).bind fun _ => (execBindings scope bindings).map _
  | .expr value =>
    unfold Script.exec
    exact (silent limits.tick).bind fun _ => (eval limits scope value).map _
  | .block body =>
    unfold Script.exec
    exact (silent limits.tick).bind fun _ => (silent (newScope [] scope)).bind fun inner =>
      (silent (hoist inner body)).bind fun _ => execAll inner body
  | .ifElse test yes none =>
    unfold Script.exec
    refine (silent limits.tick).bind fun _ => (eval limits scope test).bind fun value => ?_
    split
    · exact exec scope yes
    · exact silent _
  | .ifElse test yes (some no) =>
    unfold Script.exec
    refine (silent limits.tick).bind fun _ => (eval limits scope test).bind fun value => ?_
    split
    · exact exec scope yes
    · exact exec scope no
  | .whileLoop test body =>
    unfold Script.exec
    exact (silent limits.tick).bind fun _ =>
      again limits (whileTurn limits (eval limits scope test) (exec scope body))
  | .forLoop none test update body =>
    unfold Script.exec
    exact (silent limits.tick).bind fun _ => (silent (newScope [] scope)).bind fun inner =>
      again limits (forTurn limits
        (evalTest limits inner test) (exec inner body) (evalUpdate limits inner update))
  | .forLoop (some init) test update body =>
    unfold Script.exec
    exact (silent limits.tick).bind fun _ => (silent (newScope [] scope)).bind fun inner =>
      (exec inner init).discard.bind fun _ =>
      again limits (forTurn limits
        (evalTest limits inner test) (exec inner body) (evalUpdate limits inner update))
  | .forOf name iterable body =>
    unfold Script.exec
    exact (silent limits.tick).bind fun _ => (eval limits scope iterable).bind fun value =>
      (silent (iterated value)).bind fun values =>
      forEachValue (eachTurn limits (fun inner => exec inner body) scope name) values
  | .forIn name object body =>
    unfold Script.exec
    exact (silent limits.tick).bind fun _ => (eval limits scope object).bind fun value =>
      (silent (keysOf value)).bind fun keys =>
      forEachValue (eachTurn limits (fun inner => exec inner body) scope name) keys
  | .ret (some value) =>
    unfold Script.exec
    exact (silent limits.tick).bind fun _ => (eval limits scope value).map _

theorem execAll (scope : Scope) (body : List Stmt) :
    Converses fun calls => Script.execAll (.calling limits calls) scope body := by
  match body with
  | [] =>
    unfold Script.execAll
    exact silent _
  | stmt :: rest =>
    unfold Script.execAll
    refine (exec scope stmt).bind fun flow => ?_
    cases flow with
    | normal => exact execAll scope rest
    | _ => exact silent _

theorem execBindings (scope : Scope) (bindings : List Binding) :
    Converses fun calls => Script.execBindings (.calling limits calls) scope bindings := by
  match bindings with
  | [] =>
    unfold Script.execBindings
    exact silent _
  | .mk name (some init) :: rest =>
    unfold Script.execBindings
    exact (eval limits scope init).bind fun _ => (silent _).bind fun _ => execBindings scope rest
  | .mk name none :: rest =>
    unfold Script.execBindings
    exact (silent _).bind fun _ => execBindings scope rest
end

theorem execBlock (scope : Scope) (body : List Stmt) :
    Converses fun calls => Script.execBlock (.calling limits calls) scope body :=
  (silent _).bind fun _ => execAll limits scope body

theorem runBody (scope : Scope) (body : FunctionBody) :
    Converses fun calls => Script.runBody (.calling limits calls) scope body := by
  cases body with
  | block body => exact (execBlock limits scope body).bind fun _ => silent _
  | value expr => exact eval limits scope expr

/-! ## Sessions -/

theorem load (program : Program) :
    Converses fun calls => (Machine.calling limits calls).load program :=
  (execBlock limits globalScope program).bind fun _ => silent _

theorem callGlobal (name : String) (arguments : List Value) :
    Converses fun calls => (Machine.calling limits calls).callGlobal name arguments := by
  refine read fun memory => ?_
  split
  · exact callValue limits _ arguments
  · exact silent _

end Converses
end Tabletop.Script
