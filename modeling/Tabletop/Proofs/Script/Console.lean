import Tabletop.Script.Session

/-!
What was written to the console is read by nothing that a program computes: texts, numbers, JSON and
names are the same whatever the trace is.
-/

namespace Tabletop.Script

namespace Memory

/-- The same memory after something else was written to the console. -/
def withTrace (memory : Memory) (lines : List String) (size : Option Nat) : Memory :=
  { memory with trace := lines, traceSize := size }

variable (memory : Memory) (lines : List String) (size : Option Nat)

@[simp] theorem items_withTrace : (memory.withTrace lines size).items = memory.items := rfl

@[simp] theorem entries_withTrace : (memory.withTrace lines size).entries = memory.entries := rfl

@[simp] theorem frame_withTrace : (memory.withTrace lines size).frame = memory.frame := rfl

@[simp] theorem frames_withTrace : (memory.withTrace lines size).frames = memory.frames := rfl

@[simp] theorem closures_withTrace : (memory.withTrace lines size).closures = memory.closures := rfl

@[simp] theorem global?_withTrace : (memory.withTrace lines size).global? = memory.global? := rfl

@[simp] theorem lookup?_withTrace (name : String) (scope : Scope) :
    (memory.withTrace lines size).lookup? name scope = memory.lookup? name scope := by
  induction scope with
  | nil => rfl
  | cons id outer of_outer => simp only [lookup?, frame_withTrace, of_outer]

@[simp] theorem holder?_withTrace (name : String) (scope : Scope) :
    (memory.withTrace lines size).holder? name scope = memory.holder? name scope := by
  induction scope with
  | nil => rfl
  | cons id outer of_outer => simp only [holder?, frame_withTrace, of_outer]

theorem number?_withTrace (arrays : Nat) (value : Value) :
    (memory.withTrace lines size).number? arrays value = memory.number? arrays value := by
  induction arrays generalizing value with
  | zero => cases value <;> rfl
  | succ arrays of_item =>
    cases value with
    | array id => simp only [number?, items_withTrace, of_item]
    | _ => rfl

@[simp] theorem numberOf?_withTrace (value : Value) :
    (memory.withTrace lines size).numberOf? value = memory.numberOf? value :=
  number?_withTrace memory lines size _ value

theorem write_withTrace (limit levels : Nat) :
    (memory.withTrace lines size).write limit levels = memory.write limit levels := by
  induction levels with
  | zero =>
    funext opened out value
    cases value <;> rfl
  | succ inner of_inner =>
    funext opened out value
    cases value with
    | array id => simp only [write, items_withTrace, of_inner]
    | _ => rfl

@[simp] theorem render_withTrace (limit : Nat) (value : Value) :
    (memory.withTrace lines size).render limit value = memory.render limit value := by
  rw [render, write_withTrace, render]

@[simp] theorem display_withTrace (value : Value) :
    (memory.withTrace lines size).display value = memory.display value := by
  cases value with
  | array id => exact render_withTrace memory lines size displayLimit (.array id)
  | _ => rfl

theorem toJsonWithin_withTrace (levels : Nat) :
    (memory.withTrace lines size).toJsonWithin levels = memory.toJsonWithin levels := by
  induction levels with
  | zero => rfl
  | succ levels of_levels =>
    funext budget value
    cases budget with
    | zero => rfl
    | succ budget =>
      cases value with
      | array id => simp only [toJsonWithin, items_withTrace, of_levels]
      | object id => simp only [toJsonWithin, entries_withTrace, of_levels]
      | _ => rfl

@[simp] theorem toJson_withTrace (value : Value) :
    (memory.withTrace lines size).toJson value = memory.toJson value := by
  rw [toJson, toJsonWithin_withTrace, toJson]

@[simp] theorem consoleText_withTrace :
    (memory.withTrace lines size).consoleText = memory.consoleText := by
  funext value
  cases value <;> simp [consoleText]

end Memory

/-- Writing to the console changes nothing else. -/
theorem log_apply (limits : Limits) (line : String) (memory : Memory) :
    ∃ lines size, limits.log line memory = .ok () (memory.withTrace lines size) := by
  unfold Limits.log
  split
  · exact ⟨_, _, rfl⟩
  · split
    · exact ⟨_, _, rfl⟩
    · exact ⟨memory.trace, memory.traceSize, rfl⟩

end Tabletop.Script
