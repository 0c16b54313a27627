import Tabletop.Script.Library.Text

/-!
Methods of arrays. Those that call a function work on the items that the array had at the start.
-/

namespace Tabletop.Script

/-- Calls a value with arguments. -/
abbrev Caller := Value → List Value → Run Value

/-- Calls a function with each item, its index and the array. `visit` is told the item and the answer
and stops with a value or goes on with what it has gathered. -/
def visitItems {α : Type} (call : Caller) (callback receiver : Value)
    (visit : α → Nat → Value → Value → Except Value α) (index : Nat) (gathered : α) :
    List Value → Run (Except Value α)
  | [] => fun memory => .ok (.ok gathered) memory
  | item :: rest => fun memory =>
    match call callback [item, .number (Float.ofNat index), receiver] memory with
    | .error fault memory => .error fault memory
    | .ok answer memory => match visit gathered index item answer with
      | .error value => .ok (.error value) memory
      | .ok gathered =>
        visitItems call callback receiver visit (index + 1) gathered rest memory

/-- Calls a function with each item in turn, what came before, the index and the array. -/
def foldItems (call : Caller) (callback receiver : Value) (index : Nat) (before : Value) :
    List Value → Run Value
  | [] => fun memory => .ok before memory
  | item :: rest => fun memory =>
    match call callback [before, item, .number (Float.ofNat index), receiver] memory with
    | .error fault memory => .error fault memory
    | .ok answer memory => foldItems call callback receiver (index + 1) answer rest memory

/-- Calls a function with each item. -/
def eachItem (call : Caller) (callback receiver : Value) (items : List Value) : Run Value := do
  match ← visitItems call callback receiver (fun () _ _ _ => .ok ()) 0 () items with
  | .ok () => return .undefined
  | .error value => return value

/-- Gathers values from the answers of all items into a new array. -/
def gatherItems (call : Caller) (callback receiver : Value)
    (pick : Value → Value → Option Value) (items : List Value) : Run Value := do
  let visit (gathered : Array Value) (_ : Nat) (item answer : Value) :
      Except Value (Array Value) :=
    match pick item answer with
    | some value => .ok (gathered.push value)
    | none => .ok gathered
  match ← visitItems call callback receiver visit 0 #[] items with
  | .ok gathered => newArray gathered
  | .error value => return value

/-- Stops at the first item whose answer counts as `wanted`, and otherwise has a fixed result. -/
def findItem (call : Caller) (callback receiver : Value) (wanted : Bool)
    (found : Nat → Value → Value) (otherwise : Value) (items : List Value) : Run Value := do
  let visit (_ : Unit) (index : Nat) (item answer : Value) : Except Value Unit :=
    if answer.truthy == wanted then .error (found index item) else .ok ()
  match ← visitItems call callback receiver visit 0 () items with
  | .ok () => return otherwise
  | .error value => return value

def reduceMethod (call : Caller) (receiver : Value) (arguments items : List Value) : Run Value :=
  let callback := argument arguments 0
  match arguments with
  | _ :: first :: _ => foldItems call callback receiver 0 first items
  | _ => match items with
    | [] => fault .emptyReduce
    | first :: rest => foldItems call callback receiver 1 first rest

/-- Appends the texts of items with a separator between them. -/
def joinItems (limits : Limits) (separator : String) (first : Bool) (out : String) :
    List Value → Run String
  | [] => fun memory => .ok out memory
  | item :: rest => fun memory =>
    let out := if first then out else out ++ separator
    let text := if item.isNullish then pure "" else limits.text item
    match text memory with
    | .error fault memory => .error fault memory
    | .ok text memory =>
      let out := out ++ text
      match limits.checkString out.utf8ByteSize memory with
      | .error fault memory => .error fault memory
      | .ok () memory => joinItems limits separator false out rest memory

def joinMethod (limits : Limits) (separator : Value) (items : Array Value) : Run Value := do
  let separator ← match separator with
    | .undefined => pure ","
    | other => limits.text other
  let text ← joinItems limits separator true "" items.toList
  return .str text

/-- What a value adds to an array that it is joined to: an array its items, another value itself. -/
def joinedPart (memory : Memory) : Value → Array Value
  | .array id => memory.items id
  | other => #[other]

/-- Appends arrays' items, and other values as they are. A length over the limit is a fault, but
only where something is appended. -/
def concatItems (limits : Limits) (items : Array Value) (arguments : List Value) :
    Run (Array Value) := do
  let memory ← get
  let parts := arguments.map (joinedPart memory)
  let count := parts.foldl (fun count part => count + part.size) items.size
  unless parts.isEmpty do limits.checkArray count
  return (items :: parts).foldl (· ++ ·) (Array.emptyWithCapacity count)

def sliceItems (items : Array Value) (arguments : List Value) : Run Value := do
  let start ← relativeIndex (argument arguments 0) items.size 0
  let finish ← relativeIndex (argument arguments 1) items.size items.size
  newArray (items.extract start finish)

def itemsOf (id : Nat) : Run (Array Value) := do
  let memory ← get
  return memory.items id

def itemCount (id : Nat) : Run Nat := do
  let memory ← get
  return (memory.items id).size

def changeItems (id : Nat) (change : Array Value → Array Value) : Run Unit :=
  modify (·.setItems id change)

def pushMethod (limits : Limits) (id : Nat) (arguments : List Value) : Run Value := do
  let count ← itemCount id
  limits.checkArray (count + arguments.length)
  changeItems id (· ++ arguments.toArray)
  return .number (Float.ofNat (count + arguments.length))

/-- Takes away an item, which is the result if there is one. -/
def takeItem (id : Nat) (pick : Array Value → Option Value) (change : Array Value → Array Value) :
    Run Value := do
  let memory ← get
  let taken := (pick (memory.items id)).getD .undefined
  changeItems id change
  return taken

/-- The methods of an array that call a function with its items, by name. -/
def callbackMethod? (call : Caller) (receiver : Value) (arguments : List Value) (name : String) :
    Option (List Value → Run Value) :=
  let callback := argument arguments 0
  match name with
  | "forEach" => some (eachItem call callback receiver)
  | "map" => some (gatherItems call callback receiver fun _ answer => some answer)
  | "filter" =>
    some (gatherItems call callback receiver fun item answer =>
      if answer.truthy then some item else none)
  | "some" => some (findItem call callback receiver true (fun _ _ => .bool true) (.bool false))
  | "every" => some (findItem call callback receiver false (fun _ _ => .bool false) (.bool true))
  | "find" => some (findItem call callback receiver true (fun _ item => item) .undefined)
  | "findIndex" =>
    some (findItem call callback receiver true (fun index _ => .number (Float.ofNat index))
      (.number (-1)))
  | "reduce" => some (reduceMethod call receiver arguments)
  | _ => none

/-- Calls a method of the array with a number. -/
def arrayMethod (limits : Limits) (call : Caller) (id : Nat) (name : String)
    (arguments : List Value) : Run Value := do
  let first := argument arguments 0
  match name with
  | "push" => pushMethod limits id arguments
  | "pop" => takeItem id Array.back? Array.pop
  | "shift" => takeItem id (·[0]?) (·.eraseIdxIfInBounds 0)
  | "reverse" =>
    changeItems id Array.reverse
    return .array id
  | "join" => joinMethod limits first (← itemsOf id)
  | "includes" => return .bool ((← itemsOf id).any (·.strictEq first))
  | "indexOf" =>
    return .number (match (← itemsOf id).findIdx? (·.strictEq first) with
      | some index => Float.ofNat index
      | none => -1)
  | "slice" => sliceItems (← itemsOf id) arguments
  | "concat" =>
    let joined ← concatItems limits (← itemsOf id) arguments
    newArray joined
  | _ => match callbackMethod? call (.array id) arguments name with
    | some method => method (← itemsOf id).toList
    | none => fault (.notAFunction name)

end Tabletop.Script
