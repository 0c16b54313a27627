import Tabletop.Script.Evaluation
import Tabletop.Script.Tree.Grammar

/-!
Sessions: a program is loaded into fresh memory, and its functions are called from outside.
-/

namespace Tabletop.Script

/-- The names that every program finds. -/
def globalFrame : Frame :=
  [("Math", .library .math), ("Object", .library .object), ("console", .library .console),
    ("JSON", .library .json), ("Array", .library .array), ("parseInt", .builtin .parseInt),
    ("parseFloat", .builtin .parseFloat), ("String", .builtin .string),
    ("Number", .builtin .number), ("isNaN", .builtin .isNaN), ("NaN", .number Number.nan),
    ("Infinity", .number Number.infinity)]

def Memory.fresh : Memory := ⟨#[], #[], #[], #[globalFrame], 0, [], some 0⟩

/-- The global scope. -/
def globalScope : Scope := [0]

/-- The value of a global name. -/
def Memory.global? (memory : Memory) (name : String) : Option Value :=
  (memory.frame 0).lookup name

/-- Executes a program's statements, which declare its functions. -/
def Machine.load (machine : Machine) (program : Program) : Run Unit := do
  let flow ← execBlock machine globalScope program
  match flow with
  | .normal => return ()
  | .ret _ => fault .returnOutside
  | .leave | .next => fault .loopExitOutside

/-- Calls a global function by its name. -/
def Machine.callGlobal (machine : Machine) (name : String) (arguments : List Value) : Run Value := do
  let memory ← get
  match memory.global? name with
  | some function => machine.call function arguments
  | none => fault (.notDefined name)

/-- Loads a program within limits. -/
def load (limits : Limits) (program : Program) : Run Unit :=
  (Machine.outermost limits).load program

/-- Calls a global function within limits. -/
def callGlobal (limits : Limits) (name : String) (arguments : List Value) : Run Value :=
  (Machine.outermost limits).callGlobal name arguments

/-- The lines on the console, the first one first. -/
def Memory.lines (memory : Memory) : List String := memory.trace.reverse

end Tabletop.Script
