import Mathlib.Logic.Relation
import Tabletop.Proofs.Script.Dialogue
import Tabletop.Script.Session

/-!
The depth of calls, counted. An interpreter that counts the calls in progress adds one when a call begins
and takes one away when it ends, whichever way it ends, and refuses a call once the counter is at its
limit. Main statement: the counter is the number of calls in progress throughout, every request leaves it
as it was, and what comes out is what a machine gives that only knows how many calls may still stand
inside one another.
-/

namespace Tabletop.Script

open Relation (ReflTransGen)

/-! ## An interpreter that counts -/

/-- What an interpreter can be asked for. -/
inductive Request where
  | load (program : Program)
  | call (name : String) (arguments : List Value)

def Request.run (machine : Machine) : Request → Run Value
  | load program => do
    machine.load program
    return .undefined
  | call name arguments => machine.callGlobal name arguments

/-- What a request does, whatever calls do. -/
def Request.runOver (limits : Limits) (request : Request) (calls : Calls) : Run Value :=
  request.run (.calling limits calls)

/-- The memory after one more step. -/
def Memory.ticked (memory : Memory) : Memory := { memory with steps := memory.steps + 1 }

/-- What a call does once it has begun. -/
def Closure.bodyRun (limits : Limits) (closure : Closure) (arguments : List Value) (calls : Calls) :
    Run Value := do
  let scope ← newScope (bindParameters [] closure.definition.params arguments) closure.scope
  runBody (.calling limits calls) scope closure.definition.body

/-- Why a call fails where no more calls may stand inside one another. -/
def Limits.refusal (limits : Limits) (memory : Memory) : Fault :=
  if limits.stepBudget < memory.steps + 1 then .stepBudget limits.stepBudget
  else .callDepth limits.maxCallDepth

/-- A point of a run: the counter, what waits for each of the calls in progress, the innermost first, and
what is being done. -/
structure Point where
  depth : Nat
  waiting : List (Value → Memory → Dialogue Value)
  now : Dialogue Value

/-- How a run goes on. Only where calls begin and end is the counter touched. -/
inductive Step (limits : Limits) : Point → Point → Prop
  | spent {depth waiting closure arguments memory next}
      (none_left : limits.stepBudget < memory.steps + 1) :
    Step limits ⟨depth, waiting, .asks closure arguments memory next⟩
      ⟨depth, waiting, .ended (.error (.stepBudget limits.stepBudget) memory.ticked)⟩
  | refused {depth waiting closure arguments memory next}
      (left : memory.steps + 1 ≤ limits.stepBudget) (full : limits.maxCallDepth ≤ depth) :
    Step limits ⟨depth, waiting, .asks closure arguments memory next⟩
      ⟨depth, waiting, .ended (.error (.callDepth limits.maxCallDepth) memory.ticked)⟩
  | begins {depth waiting closure arguments memory next body}
      (left : memory.steps + 1 ≤ limits.stepBudget) (room : depth < limits.maxCallDepth)
      (tells : body.Tells (closure.bodyRun limits arguments) memory.ticked) :
    Step limits ⟨depth, waiting, .asks closure arguments memory next⟩
      ⟨depth + 1, next :: waiting, body⟩
  | returns {depth waiting next value memory} :
    Step limits ⟨depth, next :: waiting, .ended (.ok value memory)⟩
      ⟨depth - 1, waiting, next value memory⟩
  | fails {depth waiting next fault memory} :
    Step limits ⟨depth, next :: waiting, .ended (.error fault memory)⟩
      ⟨depth - 1, waiting, .ended (.error fault memory)⟩

variable {limits : Limits}

/-! ## Calls in progress -/

/-- The counter is the number of calls in progress beside those that were before, and within its limit. -/
def Point.Counts (limits : Limits) (before : Nat) (point : Point) : Prop :=
  point.depth = before + point.waiting.length ∧ point.depth ≤ limits.maxCallDepth

theorem Step.counts {before : Nat} {point after : Point} (step : Step limits point after)
    (counts : point.Counts limits before) : after.Counts limits before := by
  unfold Point.Counts at *
  cases step with
  | spent none_left => exact counts
  | refused left full => exact counts
  | begins left room tells =>
    simp only [List.length_cons] at counts ⊢
    omega
  | returns =>
    simp only [List.length_cons] at counts ⊢
    omega
  | fails =>
    simp only [List.length_cons] at counts ⊢
    omega

theorem counts_of_reached {before : Nat} {point after : Point}
    (reached : ReflTransGen (Step limits) point after) (counts : point.Counts limits before) :
    after.Counts limits before := by
  induction reached with
  | refl => exact counts
  | tail _ step of_point => exact step.counts of_point

/-- A call that is asked for when the counter is at its limit is refused. -/
theorem step_full_iff {waiting : List (Value → Memory → Dialogue Value)} {closure : Closure}
    {arguments : List Value} {memory : Memory} {next : Value → Memory → Dialogue Value} {after : Point} :
    Step limits ⟨limits.maxCallDepth, waiting, .asks closure arguments memory next⟩ after ↔
      after = ⟨limits.maxCallDepth, waiting,
        .ended (.error (limits.refusal memory) memory.ticked)⟩ := by
  unfold Limits.refusal
  constructor
  · intro step
    cases step with
    | spent none_left => rw [if_pos none_left]
    | refused left _ => rw [if_neg (Nat.not_lt.mpr left)]
    | begins left room tells => exact absurd room (Nat.lt_irrefl _)
  · rintro rfl
    by_cases none_left : limits.stepBudget < memory.steps + 1
    · rw [if_pos none_left]
      exact .spent none_left
    · rw [if_neg none_left]
      exact .refused (Nat.not_lt.mp none_left) (Nat.le_refl _)

/-! ## What comes out -/

theorem enter_spent {remaining : Nat} {closure : Closure} {arguments : List Value} {memory : Memory}
    (none_left : limits.stepBudget < memory.steps + 1) :
    enter limits remaining closure arguments memory =
      .error (.stepBudget limits.stepBudget) memory.ticked := by
  cases remaining <;> rw [enter, bind_apply, tick_apply, if_pos none_left] <;> rfl

theorem enter_refused {closure : Closure} {arguments : List Value} {memory : Memory}
    (left : memory.steps + 1 ≤ limits.stepBudget) :
    enter limits 0 closure arguments memory =
      .error (.callDepth limits.maxCallDepth) memory.ticked := by
  rw [enter, bind_apply, tick_apply, if_neg (Nat.not_lt.mpr left)]
  rfl

theorem enter_begins {remaining : Nat} {closure : Closure} {arguments : List Value} {memory : Memory}
    (left : memory.steps + 1 ≤ limits.stepBudget) :
    enter limits (remaining + 1) closure arguments memory =
      closure.bodyRun limits arguments (enter limits remaining) memory.ticked := by
  rw [enter, bind_apply, tick_apply, if_neg (Nat.not_lt.mpr left)]
  rfl

theorem Closure.converses_bodyRun (closure : Closure) (arguments : List Value) :
    Converses (closure.bodyRun limits arguments) :=
  (Converses.silent (newScope _ closure.scope)).bind fun scope =>
    Converses.runBody limits scope closure.definition.body

theorem Request.converses (request : Request) :
    Converses (request.runOver limits) := by
  cases request with
  | load program => exact (Converses.load limits program).map fun _ => Value.undefined
  | call name arguments => exact Converses.callGlobal limits name arguments

/-- What comes of a result for which calls in progress wait, when `remaining` more calls may stand inside
the innermost of them. -/
def unwound (limits : Limits) : (remaining : Nat) → List (Value → Memory → Dialogue Value) →
    EStateM.Result Fault Memory Value → EStateM.Result Fault Memory Value
  | _, [], result => result
  | remaining, next :: waiting, .ok value memory =>
    unwound limits (remaining + 1) waiting
      ((next value memory).answered (enter limits (remaining + 1)))
  | remaining, _ :: waiting, .error fault memory =>
    unwound limits (remaining + 1) waiting (.error fault memory)

theorem unwound_error (remaining : Nat) (waiting : List (Value → Memory → Dialogue Value))
    (fault : Fault) (memory : Memory) :
    unwound limits remaining waiting (.error fault memory) = .error fault memory := by
  induction waiting generalizing remaining with
  | nil => rfl
  | cons next waiting of_waiting => exact of_waiting (remaining + 1)

/-- What comes of a point in the end. -/
def Point.outcome (limits : Limits) (point : Point) : EStateM.Result Fault Memory Value :=
  unwound limits (limits.maxCallDepth - point.depth) point.waiting
    (point.now.answered (enter limits (limits.maxCallDepth - point.depth)))

/-- Whichever step is taken, the same comes out. -/
theorem Step.outcome_eq {before : Nat} {point after : Point} (step : Step limits point after)
    (counts : point.Counts limits before) : after.outcome limits = point.outcome limits := by
  obtain ⟨counted, bounded⟩ := counts
  unfold Point.outcome
  cases step with
  | spent none_left => simp only [Dialogue.answered, enter_spent none_left]
  | @refused depth _ _ _ _ _ left full =>
    have none_remain : limits.maxCallDepth - depth = 0 := by omega
    simp only [none_remain, Dialogue.answered, enter_refused left]
  | @begins depth waiting closure arguments memory next body left room tells =>
    have one_more : limits.maxCallDepth - depth = limits.maxCallDepth - (depth + 1) + 1 := by omega
    simp only [one_more, Dialogue.answered, enter_begins left, tells (enter limits _)]
    cases body.answered (enter limits (limits.maxCallDepth - (depth + 1))) <;> rfl
  | @returns depth waiting next value memory =>
    simp only [List.length_cons] at counted bounded
    have one_less : limits.maxCallDepth - (depth - 1) = limits.maxCallDepth - depth + 1 := by omega
    simp only [one_less]
    rfl
  | @fails depth waiting next fault memory =>
    simp only [Dialogue.answered, unwound_error]

theorem outcome_of_reached {before : Nat} {point after : Point}
    (reached : ReflTransGen (Step limits) point after) (counts : point.Counts limits before) :
    after.outcome limits = point.outcome limits := by
  induction reached with
  | refl => rfl
  | tail before_step step of_point =>
    rw [step.outcome_eq (counts_of_reached before_step counts), of_point]

/-- Each dialogue can be brought to its end, however many calls wait for it. The outer induction is on the
calls that may still stand inside one another, the inner one on the dialogue. -/
theorem reaches_answered {remaining depth : Nat} (room : depth + remaining = limits.maxCallDepth)
    (waiting : List (Value → Memory → Dialogue Value)) (dialogue : Dialogue Value) :
    ReflTransGen (Step limits) ⟨depth, waiting, dialogue⟩
      ⟨depth, waiting, .ended (dialogue.answered (enter limits remaining))⟩ := by
  induction remaining generalizing depth waiting dialogue with
  | zero =>
    cases dialogue with
    | ended result => exact .refl
    | asks closure arguments memory next =>
      rw [Dialogue.answered]
      by_cases none_left : limits.stepBudget < memory.steps + 1
      · rw [enter_spent none_left]
        exact .single (.spent none_left)
      · have left := Nat.not_lt.mp none_left
        rw [enter_refused left]
        exact .single (.refused left (Nat.le_of_eq room.symm))
  | succ remaining of_remaining =>
    induction dialogue with
    | ended result => exact .refl
    | asks closure arguments memory next of_next =>
      rw [Dialogue.answered]
      by_cases none_left : limits.stepBudget < memory.steps + 1
      · rw [enter_spent none_left]
        exact .single (.spent none_left)
      · have left := Nat.not_lt.mp none_left
        obtain ⟨body, tells⟩ := closure.converses_bodyRun arguments memory.ticked
        have deeper : depth + 1 + remaining = limits.maxCallDepth := by omega
        have first : Step limits ⟨depth, waiting, .asks closure arguments memory next⟩
            ⟨depth + 1, next :: waiting, body⟩ :=
          .begins left (by omega) tells
        have begun := ReflTransGen.head first (of_remaining deeper (next :: waiting) body)
        rw [enter_begins left, tells]
        cases ended : body.answered (enter limits remaining) with
        | ok value after =>
          rw [ended] at begun
          exact (begun.tail .returns).trans (of_next value after)
        | error fault after =>
          rw [ended] at begun
          exact begun.tail .fails

theorem answered_of_reached {before after : Nat} {dialogue : Dialogue Value}
    {result : EStateM.Result Fault Memory Value} (bounded : before ≤ limits.maxCallDepth)
    (reached : ReflTransGen (Step limits) ⟨before, [], dialogue⟩ ⟨after, [], .ended result⟩) :
    after = before ∧ result = dialogue.answered (enter limits (limits.maxCallDepth - before)) :=
  have counts : Point.Counts limits before ⟨before, [], dialogue⟩ := ⟨rfl, bounded⟩
  ⟨(counts_of_reached reached counts).1, outcome_of_reached reached counts⟩

/-! ## Requests one after another -/

/-- The memory that a run leaves. -/
def memoryAfter {α : Type} : EStateM.Result Fault Memory α → Memory
  | .ok _ memory | .error _ memory => memory

/-- What comes of requests made one after another, each in the memory that the one before has left. -/
def Machine.serve (machine : Machine) : List Request → Memory →
    List (EStateM.Result Fault Memory Value)
  | [], _ => []
  | request :: rest, memory =>
    let result := request.run machine memory
    result :: machine.serve rest (memoryAfter result)

/-- What comes of requests made of one interpreter that counts, and where they leave the counter: each
begins with the counter and in the memory that the one before has left. -/
inductive Serves (limits : Limits) : (depth : Nat) → Memory → List Request →
    List (EStateM.Result Fault Memory Value) → (after : Nat) → Prop
  | none {depth memory} : Serves limits depth memory [] [] depth
  | next {depth between after memory request rest dialogue result results}
      (tells : dialogue.Tells (request.runOver limits) memory)
      (course : ReflTransGen (Step limits) ⟨depth, [], dialogue⟩ ⟨between, [], .ended result⟩)
      (others : Serves limits between (memoryAfter result) rest results after) :
    Serves limits depth memory (request :: rest) (result :: results) after

theorem serves_iff {memory : Memory} {requests : List Request}
    {results : List (EStateM.Result Fault Memory Value)} {after : Nat} :
    Serves limits 0 memory requests results after ↔
      after = 0 ∧ results = (Machine.outermost limits).serve requests memory := by
  constructor
  · intro serves
    induction requests generalizing memory results with
    | nil =>
      cases serves
      exact ⟨rfl, rfl⟩
    | cons request rest of_rest =>
      cases serves with
      | next tells course others =>
        obtain ⟨rfl, rfl⟩ := answered_of_reached (Nat.zero_le _) course
        obtain ⟨ended, rfl⟩ := of_rest others
        rw [Nat.sub_zero, ← tells]
        exact ⟨ended, rfl⟩
  · rintro ⟨rfl, rfl⟩
    induction requests generalizing memory with
    | nil => exact .none
    | cons request rest of_rest =>
      obtain ⟨dialogue, tells⟩ := request.converses memory
      have course := reaches_answered (Nat.zero_add limits.maxCallDepth) [] dialogue
      rw [← tells] at course
      exact .next tells course of_rest

/-- Calls are counted in and out. Whatever is asked of an interpreter, from whatever memory, with however
many calls in progress: what it does is a dialogue with its calls; at each point that is reached the
counter is the number of calls in progress and within its limit; a call asked for at the limit is refused,
and so is the request; and the request comes to an end, with the counter where it was and with what the
machine gives whose calls may stand inside one another as deep as there is room. Requests made one after
another all find the counter at zero. -/
theorem calls_are_balanced (limits : Limits) :
    (∀ (request : Request) (memory : Memory) (before : Nat), before ≤ limits.maxCallDepth →
      let ended := request.runOver limits (enter limits (limits.maxCallDepth - before)) memory
      (∃ dialogue : Dialogue Value, dialogue.Tells (request.runOver limits) memory) ∧
      ∀ dialogue : Dialogue Value, dialogue.Tells (request.runOver limits) memory →
        (∀ depth waiting now, ReflTransGen (Step limits) ⟨before, [], dialogue⟩ ⟨depth, waiting, now⟩ →
          depth = before + waiting.length ∧ depth ≤ limits.maxCallDepth ∧
          ∀ closure arguments here next, now = .asks closure arguments here next →
            depth = limits.maxCallDepth →
            (∀ after, Step limits ⟨depth, waiting, now⟩ after ↔
              after = ⟨depth, waiting, .ended (.error (limits.refusal here) here.ticked)⟩) ∧
            ended = .error (limits.refusal here) here.ticked) ∧
        ∀ after result,
          ReflTransGen (Step limits) ⟨before, [], dialogue⟩ ⟨after, [], .ended result⟩ ↔
            after = before ∧ result = ended) ∧
    ∀ (requests : List Request) (memory : Memory) (results : List (EStateM.Result Fault Memory Value))
        (after : Nat),
      Serves limits 0 memory requests results after ↔
        after = 0 ∧ results = (Machine.outermost limits).serve requests memory := by
  refine ⟨fun request memory before bounded => ⟨request.converses memory, fun dialogue tells =>
    ⟨fun depth waiting now reached => ?_, fun after result => ?_⟩⟩, fun _ _ _ _ => serves_iff⟩
  · have counts : Point.Counts limits before ⟨before, [], dialogue⟩ := ⟨rfl, bounded⟩
    have counted := counts_of_reached reached counts
    refine ⟨counted.1, counted.2, ?_⟩
    rintro closure arguments here next rfl rfl
    refine ⟨fun after => step_full_iff, ?_⟩
    have comes := outcome_of_reached (reached.tail (step_full_iff.mpr rfl)) counts
    rw [tells]
    exact comes.symm.trans (unwound_error _ waiting _ _)
  · rw [tells]
    constructor
    · exact answered_of_reached bounded
    · rintro ⟨rfl, rfl⟩
      exact reaches_answered (Nat.add_sub_cancel' bounded) [] dialogue

/-- The faults of requests. -/
def faultsOf (results : List (EStateM.Result Fault Memory Value)) : List (Option Fault) :=
  results.map fun
    | .error fault _ => some fault
    | .ok _ _ => none

/-- A function that calls itself without end is refused at the third call, and another one still gets as
deep afterwards. -/
theorem calls_are_balanced_after_a_refusal :
    let limits : Limits := { maxCallDepth := 2 }
    let source := "function f() \x7b return f() \x7d function g() \x7b return h() \x7d " ++
      "function h() \x7b return 1 \x7d"
    0 ≤ limits.maxCallDepth ∧ ∃ program, Program.read source = .ok program ∧
      (∃ results, Serves limits 0 Memory.fresh [.load program, .call "f" [], .call "g" []] results 0 ∧
        faultsOf results = [none, some (.callDepth 2), none]) ∧
      ∀ (memory : Memory) (dialogue : Dialogue Value),
        dialogue.Tells ((Request.call "f" []).runOver limits) memory →
          ReflTransGen (Step limits) ⟨0, [], dialogue⟩
            ⟨0, [], .ended ((Machine.outermost limits).callGlobal "f" [] memory)⟩ := by
  intro limits source
  have runs : (Program.read source).toOption.map (fun program => faultsOf
      ((Machine.outermost limits).serve [.load program, .call "f" [], .call "g" []] Memory.fresh)) =
        some [none, some (.callDepth 2), none] := by
    decide +kernel
  cases read : Program.read source with
  | error e =>
    rw [read] at runs
    cases runs
  | ok program =>
    rw [read] at runs
    obtain ⟨balanced, served⟩ := calls_are_balanced limits
    refine ⟨Nat.zero_le _, program, rfl,
      ⟨_, (served _ _ _ _).mpr ⟨rfl, rfl⟩, Option.some.inj runs⟩, fun memory dialogue tells => ?_⟩
    have every := (balanced (.call "f" []) memory 0 (Nat.zero_le _)).2 dialogue tells
    exact (every.2 _ _).mpr ⟨rfl, rfl⟩

end Tabletop.Script
