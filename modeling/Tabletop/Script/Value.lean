import Tabletop.Script.Tree
import Tabletop.Script.Fault

/-!
Values of scoring programs and the memory that they refer to. Arrays, objects, functions and scopes
live in memory under numbers given out in turn, so that two values are the same array exactly when
their numbers agree. A scope is the chain of its frames, the innermost first; frame 0 is global.
-/

namespace Tabletop.Script

/-- Functions that can be called without a receiver. -/
inductive Builtin where
  | parseInt
  | parseFloat
  | string
  | number
  | isNaN
  deriving DecidableEq, Repr

/-- Global objects whose members are functions. -/
inductive Library where
  | math
  | object
  | console
  | json
  | array
  deriving DecidableEq, Repr

inductive Value where
  | undefined
  | null
  | bool (value : Bool)
  | number (value : Float)
  | str (value : String)
  | array (id : Nat)
  | object (id : Nat)
  | function (id : Nat)
  | builtin (function : Builtin)
  | library (library : Library)
  deriving Inhabited

/-- An object's properties in the order in which their keys came up. -/
abbrev Entries := Array (String × Value)

namespace Entries

def get? (entries : Entries) (key : String) : Option Value :=
  (entries.find? (·.1 == key)).map (·.2)

/-- Writes a property; a new key goes to the end. -/
def set (entries : Entries) (key : String) (value : Value) : Entries :=
  match entries.findIdx? (·.1 == key) with
  | some index => entries.setIfInBounds index (key, value)
  | none => entries.push (key, value)

def contains (entries : Entries) (key : String) : Bool := (entries.get? key).isSome

end Entries

/-- The names of one frame. -/
abbrev Frame := List (String × Value)

namespace Frame

/-- Declares a name, again if it is there. -/
def declare (name : String) (value : Value) : Frame → Frame
  | [] => [(name, value)]
  | (other, old) :: rest =>
    if other = name then (name, value) :: rest else (other, old) :: declare name value rest

end Frame

/-- The frames that a name is looked up in, the innermost first. -/
abbrev Scope := List Nat

/-- A function and the scope it was made in. -/
structure Closure where
  definition : FunctionDef
  scope : Scope
  deriving Inhabited

/-- What a program has made and done so far. -/
structure Memory where
  arrays : Array (Array Value)
  objects : Array Entries
  closures : Array Closure
  frames : Array Frame
  steps : Nat
  /-- Lines written to the console, the last one first. -/
  trace : List String
  /-- The bytes of all lines written so far. A console that does not count them takes every line. -/
  traceSize : Option Nat

/-- A computation on memory; what it did before a fault stays. -/
abbrev Run := EStateM Fault Memory

namespace Memory

def items (memory : Memory) (id : Nat) : Array Value := memory.arrays[id]?.getD #[]

def entries (memory : Memory) (id : Nat) : Entries := memory.objects[id]?.getD #[]

def frame (memory : Memory) (id : Nat) : Frame := memory.frames[id]?.getD []

/-- The value of a name in the nearest frame that has it. -/
def lookup? (memory : Memory) (name : String) : Scope → Option Value
  | [] => none
  | id :: outer =>
    match (memory.frame id).lookup name with
    | some value => some value
    | none => memory.lookup? name outer

/-- The nearest frame that has a name. -/
def holder? (memory : Memory) (name : String) : Scope → Option Nat
  | [] => none
  | id :: outer =>
    if ((memory.frame id).lookup name).isSome then some id else memory.holder? name outer

def declare (memory : Memory) (id : Nat) (name : String) (value : Value) : Memory :=
  { memory with frames := memory.frames.modify id (Frame.declare name value) }

/-- Writes to the nearest frame that has the name, to the global one if none has. -/
def assign (memory : Memory) (scope : Scope) (name : String) (value : Value) : Memory :=
  memory.declare ((memory.holder? name scope).getD 0) name value

def setItems (memory : Memory) (id : Nat) (change : Array Value → Array Value) : Memory :=
  { memory with arrays := memory.arrays.modify id change }

def setEntries (memory : Memory) (id : Nat) (change : Entries → Entries) : Memory :=
  { memory with objects := memory.objects.modify id change }

end Memory

def fault {α : Type} (cause : Cause) : Run α := throw (.runtime cause)

def newArray (items : Array Value) : Run Value := fun memory =>
  .ok (.array memory.arrays.size) { memory with arrays := memory.arrays.push items }

def newObject (entries : Entries) : Run Value := fun memory =>
  .ok (.object memory.objects.size) { memory with objects := memory.objects.push entries }

def newFunction (definition : FunctionDef) (scope : Scope) : Run Value := fun memory =>
  .ok (.function memory.closures.size)
    { memory with closures := memory.closures.push ⟨definition, scope⟩ }

/-- A scope with a new frame inside another. -/
def newScope (frame : Frame) (outer : Scope) : Run Scope := fun memory =>
  .ok (memory.frames.size :: outer) { memory with frames := memory.frames.push frame }

namespace Limits

def checkString (limits : Limits) (size : Nat) : Run Unit :=
  if limits.maxStringLength < size then throw (.sizeLimit .stringLength limits.maxStringLength)
  else pure ()

def checkArray (limits : Limits) (length : Nat) : Run Unit :=
  if limits.maxArrayLength < length then throw (.sizeLimit .arrayLength limits.maxArrayLength)
  else pure ()

/-- Spends a step. -/
def tick (limits : Limits) : Run Unit := fun memory =>
  let memory := { memory with steps := memory.steps + 1 }
  if limits.stepBudget < memory.steps then .error (.stepBudget limits.stepBudget) memory
  else .ok () memory

/-- Writes a line to the console; one that no longer fits is dropped. -/
def log (limits : Limits) (line : String) : Run Unit := fun memory =>
  match memory.traceSize with
  | none => .ok () { memory with trace := line :: memory.trace }
  | some size =>
    if size + line.utf8ByteSize ≤ limits.maxStringLength then
      .ok () { memory with
        trace := line :: memory.trace
        traceSize := some (size + line.utf8ByteSize) }
    else .ok () memory

end Limits

namespace Value

def typeName : Value → String
  | undefined => "undefined"
  | bool _ => "boolean"
  | number _ => "number"
  | str _ => "string"
  | null | array _ | object _ | library _ => "object"
  | function _ | builtin _ => "function"

/-- What a message calls a value. -/
def kind : Value → String
  | undefined => "undefined"
  | null => "null"
  | bool _ => "a boolean"
  | number _ => "a number"
  | str _ => "a string"
  | array _ => "an array"
  | object _ | library _ => "an object"
  | function _ | builtin _ => "a function"

def isNullish : Value → Bool
  | undefined | null => true
  | _ => false

/-- Whether a value counts as true. -/
def truthy : Value → Bool
  | undefined | null => false
  | bool value => value
  | number value => value != 0 && !value.isNaN
  | str value => !value.isEmpty
  | _ => true

/-- Equality without conversion. -/
def strictEq : Value → Value → Bool
  | undefined, undefined => true
  | null, null => true
  | bool a, bool b => a == b
  | number a, number b => a == b
  | str a, str b => a == b
  | array a, array b => a == b
  | object a, object b => a == b
  | function a, function b => a == b
  | builtin a, builtin b => a == b
  | library a, library b => a == b
  | _, _ => false

end Value
end Tabletop.Script
