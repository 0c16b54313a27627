import Tabletop.Script.Library.Global
import Tabletop.Script.Operator

/-!
Evaluating expressions and executing statements, by recursion on the syntax tree. What a call of a
function and what a loop does are parameters, `Machine.enter` and `Machine.again`. `enter` gives the
first for a number of calls that may still stand inside one another, so that the recursion through
calls is on that number, and `loop` the second: a loop turns as long as there are steps left, each
turn spending one at least.
-/

namespace Tabletop.Script

/-- How a statement ends. -/
inductive Flow where
  | normal
  | ret (value : Value)
  | leave
  | next

/-- The limits of a run, what a call of a function does, and how the turns of a loop are repeated. -/
structure Machine where
  limits : Limits
  enter : Closure → List Value → Run Value
  again : Run (Option Flow) → Run Flow

/-- Calls a value with arguments. -/
def Machine.call (machine : Machine) : Caller := fun callee arguments => do
  match callee with
  | .function id =>
    let memory ← get
    match memory.closures[id]? with
    | some closure => machine.enter closure arguments
    | none => fault (.notAFunction callee.kind)
  | .builtin function => function.apply machine.limits arguments
  | other => fault (.notAFunction other.kind)

/-- Whether a value can be called. -/
def Value.isCallable : Value → Bool
  | .function _ | .builtin _ => true
  | _ => false

/-- Calls a member: a function that an object holds under the name, or else a method. -/
def Machine.callMember (machine : Machine) (receiver : Value) (name : String)
    (arguments : List Value) : Run Value := do
  let memory ← get
  let own := match receiver with
    | .object id => (memory.entries id).get? name
    | _ => none
  match own with
  | some function =>
    if function.isCallable then machine.call function arguments
    else callMethod machine.limits machine.call receiver name arguments
  | none => callMethod machine.limits machine.call receiver name arguments

/-- Repeats a turn until it answers. Each turn that does not answer spends a step, so there are no
more turns than steps left. -/
def repeatUntil (limits : Limits) (turn : Run (Option Flow)) : (turns : Nat) → Run Flow
  | 0 => fun memory => .error (.stepBudget limits.stepBudget) memory
  | turns + 1 => fun memory =>
    match turn memory with
    | .error fault memory => .error fault memory
    | .ok (some flow) memory => .ok flow memory
    | .ok none memory => repeatUntil limits turn turns memory

/-- Repeats a turn for as long as there are steps left. -/
def loop (limits : Limits) (turn : Run (Option Flow)) : Run Flow := fun memory =>
  repeatUntil limits turn (limits.stepBudget - memory.steps + 1) memory

/-- What the end of a loop's body means for the loop: to go on, or how the loop ends. -/
def Flow.afterBody : Flow → Option Flow
  | .leave => some .normal
  | .ret value => some (.ret value)
  | .normal | .next => none

/-- A turn of a loop with a test in front. -/
def whileTurn (limits : Limits) (test : Run Value) (body : Run Flow) : Run (Option Flow) := do
  let test ← test
  if test.truthy then
    limits.tick
    let flow ← body
    return flow.afterBody
  else return some .normal

/-- A turn of a loop that counts: the update follows a body that lets the loop go on. -/
def forTurn (limits : Limits) (test : Run Bool) (body : Run Flow) (update : Run Unit) :
    Run (Option Flow) := do
  limits.tick
  let goesOn ← test
  if goesOn then
    let flow ← body
    match flow.afterBody with
    | some flow => return some flow
    | none =>
      update
      return none
  else return some .normal

/-- A turn of a loop over values, each in a scope of its own. -/
def eachTurn (limits : Limits) (scope : Scope) (name : String) (body : Scope → Run Flow)
    (value : Value) : Run (Option Flow) := do
  limits.tick
  let inner ← newScope [(name, value)] scope
  let flow ← body inner
  return flow.afterBody

/-- Runs a loop's body for each value. -/
def forEachValue (turn : Value → Run (Option Flow)) : List Value → Run Flow
  | [] => fun memory => .ok .normal memory
  | value :: rest => fun memory =>
    match turn value memory with
    | .error fault memory => .error fault memory
    | .ok (some flow) memory => .ok flow memory
    | .ok none memory => forEachValue turn rest memory

/-- The values that a loop over items goes through. -/
def iterated (value : Value) : Run (List Value) := do
  match value with
  | .array id => return (← itemsOf id).toList
  | .str text => return text.toList.map fun c => .str (String.singleton c)
  | other => fault (.notIterable other.kind)

/-- The keys that a loop over keys goes through. -/
def keysOf (value : Value) : Run (List Value) := do
  let memory ← get
  return (memory.entriesOf value).map fun entry => .str entry.1

/-- Declares the functions of a block before its statements run. -/
def hoist (scope : Scope) : List Stmt → Run Unit
  | [] => return ()
  | .function definition :: rest => do
    match definition.name with
    | some name =>
      let value ← newFunction definition scope
      modify (·.declare (scope.headD 0) name value)
    | none => pure ()
    hoist scope rest
  | _ :: rest => hoist scope rest

def declareIn (scope : Scope) (name : String) (value : Value) : Run Unit :=
  modify (·.declare (scope.headD 0) name value)

def lookupIn (scope : Scope) (name : String) : Run Value := do
  let memory ← get
  match memory.lookup? name scope with
  | some value => return value
  | none => fault (.notDefined name)

def UnaryOp.apply (value : Value) : UnaryOp → Run Value
  | not => return .bool !value.truthy
  | neg => do
    let number ← value.toNumber
    return .number (-number)
  | plus => do
    let number ← value.toNumber
    return .number number
  | typeof => return .str value.typeName

/-- The first values of a function's parameters. -/
def bindParameters (frame : Frame) : List String → List Value → Frame
  | [], _ => frame
  | name :: rest, [] => bindParameters (frame.declare name .undefined) rest []
  | name :: rest, value :: values => bindParameters (frame.declare name value) rest values

mutual
/-- Evaluates an expression in a scope. -/
def eval (machine : Machine) (scope : Scope) : Expr → Run Value
  | .number value => return .number value
  | .str value => return .str value
  | .bool value => return .bool value
  | .null => return .null
  | .undefined => return .undefined
  | .template pieces => do
    let text ← evalPieces machine scope "" pieces
    return .str text
  | .array items => do
    let values ← evalAll machine scope items
    newArray values.toArray
  | .object properties => do
    let entries ← evalProperties machine scope #[] properties
    newObject entries
  | .name name => lookupIn scope name
  | .member object name => do
    let object ← eval machine scope object
    getProperty object name
  | .index object key => do
    let object ← eval machine scope object
    let key ← eval machine scope key
    getIndex object key
  | .call (.member receiver name) arguments => do
    let receiver ← eval machine scope receiver
    let arguments ← evalAll machine scope arguments
    machine.callMember receiver name arguments
  | .call callee arguments => do
    let function ← eval machine scope callee
    let arguments ← evalAll machine scope arguments
    machine.call function arguments
  | .unary .typeof (.name name) => do
    let memory ← get
    return .str ((memory.lookup? name scope).getD .undefined).typeName
  | .unary op operand => do
    let value ← eval machine scope operand
    op.apply value
  | .binary op left right => do
    let left ← eval machine scope left
    let right ← eval machine scope right
    op.apply machine.limits left right
  | .logical op left right => do
    let left ← eval machine scope left
    let decided := match op with
      | .and => !left.truthy
      | .or => left.truthy
    if decided then return left else eval machine scope right
  | .conditional test yes no => do
    let test ← eval machine scope test
    if test.truthy then eval machine scope yes else eval machine scope no
  | .assign none target value => do
    let value ← eval machine scope value
    store machine scope value target
    return value
  | .assign (some op) target value => do
    let current ← eval machine scope target
    let right ← eval machine scope value
    let combined ← op.apply machine.limits current right
    store machine scope combined target
    return combined
  | .update increment before target => do
    let value ← eval machine scope target
    let old ← value.toNumber
    let new := if increment then old + 1 else old - 1
    store machine scope (.number new) target
    return .number (if before then new else old)
  | .function definition => newFunction definition scope
/-- Evaluates expressions in turn. -/
def evalAll (machine : Machine) (scope : Scope) : List Expr → Run (List Value)
  | [] => return []
  | expr :: rest => do
    let value ← eval machine scope expr
    let values ← evalAll machine scope rest
    return value :: values
/-- Appends the pieces of a template. -/
def evalPieces (machine : Machine) (scope : Scope) (out : String) : List Piece → Run String
  | [] => return out
  | .text value :: rest => do
    let out := out ++ value
    machine.limits.checkString out.utf8ByteSize
    evalPieces machine scope out rest
  | .code expr :: rest => do
    let value ← eval machine scope expr
    let text ← machine.limits.text value
    let out := out ++ text
    machine.limits.checkString out.utf8ByteSize
    evalPieces machine scope out rest
/-- Adds the properties of an object literal. -/
def evalProperties (machine : Machine) (scope : Scope) (entries : Entries) :
    List Property → Run Entries
  | [] => return entries
  | .fixed key expr :: rest => do
    let value ← eval machine scope expr
    evalProperties machine scope (entries.set key value) rest
  | .computed key expr :: rest => do
    let key ← eval machine scope key
    let key ← machine.limits.text key
    let value ← eval machine scope expr
    evalProperties machine scope (entries.set key value) rest
/-- Writes a value to a name, a member or an index. -/
def store (machine : Machine) (scope : Scope) (value : Value) : Expr → Run Unit
  | .name name => modify (·.assign scope name value)
  | .member object name => do
    let object ← eval machine scope object
    setIndex machine.limits object (.str name) value
  | .index object key => do
    let object ← eval machine scope object
    let key ← eval machine scope key
    setIndex machine.limits object key value
  | _ => fault .invalidTarget
end

/-- The test of a loop that counts; one without a test goes on. -/
def evalTest (machine : Machine) (scope : Scope) : Option Expr → Run Bool
  | some test => do
    let value ← eval machine scope test
    return value.truthy
  | none => return true

/-- The update of a loop that counts. -/
def evalUpdate (machine : Machine) (scope : Scope) : Option Expr → Run Unit
  | some update => discard (eval machine scope update)
  | none => return ()

mutual
/-- Executes a statement, which spends a step. -/
def exec (machine : Machine) (scope : Scope) : Stmt → Run Flow
  | .empty => do
    machine.limits.tick
    return .normal
  | .function _ => do
    machine.limits.tick
    return .normal
  | .declare bindings => do
    machine.limits.tick
    execBindings machine scope bindings
    return .normal
  | .expr value => do
    machine.limits.tick
    let _ ← eval machine scope value
    return .normal
  | .block body => do
    machine.limits.tick
    let inner ← newScope [] scope
    hoist inner body
    execAll machine inner body
  | .ifElse test yes no => do
    machine.limits.tick
    let test ← eval machine scope test
    if test.truthy then exec machine scope yes
    else match no with
      | some no => exec machine scope no
      | none => return .normal
  | .whileLoop test body => do
    machine.limits.tick
    machine.again (whileTurn machine.limits (eval machine scope test) (exec machine scope body))
  | .forLoop init test update body => do
    machine.limits.tick
    let inner ← newScope [] scope
    match init with
    | some init => discard (exec machine inner init)
    | none => pure ()
    machine.again (forTurn machine.limits (evalTest machine inner test) (exec machine inner body)
      (evalUpdate machine inner update))
  | .forOf name iterable body => do
    machine.limits.tick
    let value ← eval machine scope iterable
    let values ← iterated value
    forEachValue
      (eachTurn machine.limits scope name fun inner => exec machine inner body) values
  | .forIn name object body => do
    machine.limits.tick
    let value ← eval machine scope object
    let keys ← keysOf value
    forEachValue
      (eachTurn machine.limits scope name fun inner => exec machine inner body) keys
  | .ret value => do
    machine.limits.tick
    match value with
    | some value => do
      let value ← eval machine scope value
      return .ret value
    | none => return .ret .undefined
  | .leave => do
    machine.limits.tick
    return .leave
  | .next => do
    machine.limits.tick
    return .next
/-- Executes statements until one does not end normally. -/
def execAll (machine : Machine) (scope : Scope) : List Stmt → Run Flow
  | [] => return .normal
  | stmt :: rest => do
    let flow ← exec machine scope stmt
    match flow with
    | .normal => execAll machine scope rest
    | other => return other
/-- Declares names with their first values. -/
def execBindings (machine : Machine) (scope : Scope) : List Binding → Run Unit
  | [] => return ()
  | .mk name (some init) :: rest => do
    let value ← eval machine scope init
    declareIn scope name value
    execBindings machine scope rest
  | .mk name none :: rest => do
    declareIn scope name .undefined
    execBindings machine scope rest
end

/-- Executes a block in a scope that is its own. -/
def execBlock (machine : Machine) (scope : Scope) (body : List Stmt) : Run Flow := do
  hoist scope body
  execAll machine scope body

/-- What a function's body gives. -/
def runBody (machine : Machine) (scope : Scope) : FunctionBody → Run Value
  | .block body => do
    let flow ← execBlock machine scope body
    match flow with
    | .ret value => return value
    | _ => return .undefined
  | .value expr => eval machine scope expr

/-- Calls a function when `depth` calls may still stand inside one another. -/
def enter (limits : Limits) : (depth : Nat) → Closure → List Value → Run Value
  | 0, _, _ => do
    limits.tick
    throw (.callDepth limits.maxCallDepth)
  | depth + 1, closure, arguments => do
    limits.tick
    let scope ← newScope (bindParameters [] closure.definition.params arguments) closure.scope
    runBody ⟨limits, enter limits depth, loop limits⟩ scope closure.definition.body

/-- The machine before any call. -/
def Machine.outermost (limits : Limits) : Machine :=
  ⟨limits, Script.enter limits limits.maxCallDepth, loop limits⟩

end Tabletop.Script
