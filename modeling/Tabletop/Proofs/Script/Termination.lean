import Tabletop.Proofs.Script.Link.Evaluation
import Tabletop.Proofs.Script.Link.Rooms
import Tabletop.Proofs.Script.Number

/-!
Every session ends, and within its steps. Calls and loops are written out as the recursion that they
are, over a machine that nothing is known about, and so deep that each level has spent a step of its
own: the machine underneath is then never reached.
-/

namespace Tabletop.Script

/-- What a fault says about the memory that it leaves. A step more than there are was asked for, or no
more were spent than there are; and what has no number is an array that holds itself. -/
def Fault.Explains (limits : Limits) (memory : Memory) : Fault → Prop
  | .stepBudget limit =>
    limit = limits.stepBudget ∧ memory.steps = limits.stepBudget + 1
  | .endlessNumber =>
    memory.steps ≤ limits.stepBudget ∧ ∃ id, memory.HoldsItself id
  | .runtime _ | .callDepth _ | .sizeLimit _ _ => memory.steps ≤ limits.stepBudget

/-- A run ends within the steps that it may spend. -/
def EndsWithin {α : Type} (limits : Limits) : EStateM.Result Fault Memory α → Prop
  | .ok _ memory => memory.steps ≤ limits.stepBudget
  | .error fault memory => fault.Explains limits memory

/-- The same run twice, with no fewer steps spent than `floor`. -/
def Link.within (limits : Limits) (floor : Nat) (excused : Fault → Prop) : Link where
  Paired memory memory' :=
    memory' = memory ∧ floor ≤ memory.steps ∧ memory.steps ≤ limits.stepBudget
  Failed fault memory memory' := memory' = memory ∧ fault.Explains limits memory
  Excused := excused

section

variable {limits : Limits} {floor : Nat} {excused : Fault → Prop}

theorem within_rooms : (Link.within limits floor excused).Rooms limits limits where
  alike := by
    rintro memory memory' ⟨rfl, -⟩
    exact ⟨_, _, rfl⟩
  more _ := Nat.le_refl _
  excused _ narrower := absurd narrower (Nat.lt_irrefl _)
  failed := by
    rintro memory memory' measure ⟨rfl, -, left⟩
    exact ⟨rfl, left⟩

theorem within_lawful : (Link.within limits floor excused).Lawful limits limits where
  alike := by
    rintro memory memory' ⟨rfl, -⟩
    exact ⟨_, _, rfl⟩
  heap := by
    rintro memory memory' arrays objects closures frames ⟨rfl, spent, left⟩
    exact ⟨rfl, spent, left⟩
  runtime := by
    rintro memory memory' cause ⟨rfl, -, left⟩
    exact ⟨rfl, left⟩
  endless := by
    rintro memory memory' value ⟨rfl, -, left⟩ missing
    exact ⟨rfl, left, Memory.exists_holdsItself missing⟩
  tick := by
    rintro memory _ ⟨rfl, spent, left⟩
    rw [tick_apply]
    split
    · refine .inr ⟨_, rfl, rfl, rfl, ?_⟩
      dsimp only
      omega
    · refine ⟨_, rfl, rfl, ?_, ?_⟩ <;> dsimp only <;> omega
  log := by
    rintro line _ memory ⟨rfl, spent, left⟩
    obtain ⟨_, _, logged⟩ := log_apply limits line memory
    rw [logged]
    exact ⟨_, rfl, rfl, spent, left⟩
  checkString := within_rooms.checkString
  checkArray := within_rooms.checkArray
  text := within_rooms.text

/-! ## No step is given back -/

theorem allowing_within (limits : Limits) (floor depth : Nat) :
    (Link.within limits floor fun _ => True).Machines (.allowing limits depth)
      (.allowing limits depth) := by
  have lawful : (Link.within limits floor fun _ => True).Lawful limits limits := within_lawful
  have left : ∀ {memory memory' : Memory},
      (Link.within limits floor fun _ => True).Paired memory memory' →
      limits.stepBudget - memory.steps ≤ limits.stepBudget - memory'.steps := by
    rintro memory _ ⟨rfl, -⟩
    exact Nat.le_refl _
  have deepest : ∀ closure arguments, (Link.within limits floor fun _ => True).Carries
      (enter limits 0 closure arguments) (enter limits 0 closure arguments) :=
    fun _ _ => lawful.tick.bind fun _ => .excused trivial _
  have machines := lawful.machines trivial left deepest depth
  rwa [Nat.zero_add] at machines

/-- What a run keeps to from any number of steps on, it keeps to from its own. -/
theorem Link.Carries.keeps {α : Type} {run : Run α}
    (carried : ∀ floor, (Link.within limits floor fun _ => True).Carries run run)
    {memory after : Memory} {value : α} (left : memory.steps ≤ limits.stepBudget)
    (ended : run memory = .ok value after) :
    memory.steps ≤ after.steps ∧ after.steps ≤ limits.stepBudget := by
  have kept := carried memory.steps memory memory ⟨rfl, Nat.le_refl _, left⟩
  rw [ended] at kept
  obtain ⟨_, -, -, spent, left⟩ := kept
  exact ⟨spent, left⟩

theorem tick_spends {memory after : Memory} (ended : limits.tick memory = .ok () after) :
    after.steps = memory.steps + 1 ∧ after.steps ≤ limits.stepBudget := by
  rw [tick_apply] at ended
  split at ended
  · cases ended
  · cases ended
    exact ⟨rfl, by dsimp only; omega⟩

/-- A turn after which its loop goes on has spent a step. -/
theorem Machine.IsTurn.spends {depth : Nat} {turn : Run (Option Flow)}
    (is_turn : (Machine.allowing limits depth).IsTurn turn) {memory after : Memory}
    (left : memory.steps ≤ limits.stepBudget) (ended : turn memory = .ok none after) :
    memory.steps < after.steps := by
  have machines := fun floor => allowing_within limits floor depth
  cases is_turn with
  | ofWhile scope test body =>
    obtain ⟨value, tested, of_test, ended⟩ := bind_eq_ok_iff.mp ended
    have of_test := Link.Carries.keeps (fun floor => (machines floor).eval scope test) left of_test
    split at ended
    · obtain ⟨_, ticked, of_tick, ended⟩ := bind_eq_ok_iff.mp ended
      have of_tick := tick_spends of_tick
      obtain ⟨flow, executed, of_body, ended⟩ := bind_eq_ok_iff.mp ended
      have of_body := Link.Carries.keeps (fun floor => (machines floor).exec scope body) of_tick.2
        of_body
      obtain ⟨-, rfl⟩ := pure_eq_ok_iff.mp ended
      omega
    · cases ended
  | ofFor scope test update body =>
    obtain ⟨_, ticked, of_tick, ended⟩ := bind_eq_ok_iff.mp ended
    have of_tick := tick_spends of_tick
    obtain ⟨goesOn, tested, of_test, ended⟩ := bind_eq_ok_iff.mp ended
    have of_test := Link.Carries.keeps (fun floor => (machines floor).evalTest scope test) of_tick.2
      of_test
    split at ended
    · obtain ⟨flow, executed, of_body, ended⟩ := bind_eq_ok_iff.mp ended
      have of_body := Link.Carries.keeps (fun floor => (machines floor).exec scope body) of_test.2
        of_body
      cases going : flow.afterBody with
      | some flow =>
        rw [going] at ended
        cases ended
      | none =>
        rw [going] at ended
        obtain ⟨_, updated, of_update, ended⟩ := bind_eq_ok_iff.mp ended
        have of_update := Link.Carries.keeps (fun floor => (machines floor).evalUpdate scope update)
          of_body.2 of_update
        obtain ⟨-, rfl⟩ := pure_eq_ok_iff.mp ended
        omega
    · cases ended

/-! ## The recursion written out -/

/-- Calls and loops as the recursion that they are, `count` levels of it above a machine; `calls` calls
stand inside one another. -/
def Machine.unfolded (limits : Limits) (bottom : Machine) : (count calls : Nat) → Machine
  | 0, _ => { bottom with limits }
  | count + 1, calls =>
    { limits
      enter := fun closure arguments => do
        limits.tick
        if limits.maxCallDepth ≤ calls then throw (.callDepth limits.maxCallDepth)
        else
          let scope ← newScope (bindParameters [] closure.definition.params arguments) closure.scope
          runBody (unfolded limits bottom count (calls + 1)) scope closure.definition.body
      again := fun turn => do
        match ← turn with
        | some flow => return flow
        | none => (unfolded limits bottom count calls).again turn }

theorem unfolded_enter (bottom : Machine) (count calls : Nat) (closure : Closure)
    (arguments : List Value) :
    (Machine.unfolded limits bottom (count + 1) calls).enter closure arguments = (do
      limits.tick
      if limits.maxCallDepth ≤ calls then throw (.callDepth limits.maxCallDepth)
      else
        let scope ← newScope (bindParameters [] closure.definition.params arguments) closure.scope
        runBody (.unfolded limits bottom count (calls + 1)) scope closure.definition.body) := rfl

theorem Link.Ends.lower {α : Type} {higher : Nat} (lower : floor ≤ higher)
    {ended ended' : EStateM.Result Fault Memory α}
    (ends : (Link.within limits higher excused).Ends ended ended') :
    (Link.within limits floor excused).Ends ended ended' := by
  cases ended with
  | ok value memory =>
    obtain ⟨memory', of_run', same, spent, left⟩ := ends
    exact ⟨memory', of_run', same, Nat.le_trans lower spent, left⟩
  | error fault memory => exact ends

theorem Link.Ends.endsWithin {α : Type} {ended ended' : EStateM.Result Fault Memory α}
    (ends : (Link.within limits floor fun _ => False).Ends ended ended') :
    ended' = ended ∧ EndsWithin limits ended := by
  cases ended with
  | ok value memory =>
    obtain ⟨_, rfl, rfl, -, left⟩ := ends
    exact ⟨rfl, left⟩
  | error fault memory =>
    obtain ⟨⟨⟩⟩ | ⟨_, rfl, rfl, explained⟩ := ends
    exact ⟨rfl, explained⟩

/-- After a step has been spent, more steps are spent. -/
theorem carries_after_tick {α : Type} {next next' : Run α}
    (rest : (Link.within limits (floor + 1) excused).Carries next next') :
    (Link.within limits floor excused).Carries (do limits.tick; next) (do limits.tick; next') := by
  rintro _ memory ⟨rfl, spent, left⟩
  rw [bind_apply, bind_apply, tick_apply]
  by_cases spent_all : limits.stepBudget < memory.steps + 1
  · simp only [spent_all, if_true]
    refine .inr ⟨_, rfl, rfl, rfl, ?_⟩
    dsimp only
    omega
  · simp only [spent_all, if_false]
    refine (rest _ _ ⟨rfl, ?_, ?_⟩).lower (Nat.le_succ floor) <;> dsimp only <;> omega

variable {bottom : Machine}

/-- A loop that turns as long as there are steps left is one that just goes on. -/
theorem repeatUntil_unfolded {turn turn' : Run (Option Flow)}
    (turned : (Link.within limits floor excused).Carries turn turn')
    (spends : ∀ {memory after : Memory}, memory.steps ≤ limits.stepBudget →
      turn memory = .ok none after → memory.steps < after.steps)
    (turns count calls : Nat) (memory : Memory)
    (enough : limits.stepBudget < turns + memory.steps)
    (deep : limits.stepBudget < count + memory.steps)
    (spent : floor ≤ memory.steps) (left : memory.steps ≤ limits.stepBudget) :
    (Link.within limits floor excused).Ends (repeatUntil limits turn turns memory)
      ((Machine.unfolded limits bottom count calls).again turn' memory) := by
  -- a turn costs a step, so neither the turns nor the levels that are left are used up before the steps
  induction turns generalizing count memory with
  | zero => omega
  | succ turns of_turns =>
    cases count with
    | zero => omega
    | succ count =>
      have ended := turned memory memory ⟨rfl, spent, left⟩
      rw [repeatUntil_succ, Machine.unfolded, bind_apply]
      dsimp only
      rw [bind_apply]
      cases of_turn : turn memory with
      | error fault after =>
        rw [of_turn] at ended
        obtain excused | ⟨after', of_turn', failed⟩ := ended
        · exact .inl excused
        · rw [of_turn']
          exact .inr ⟨after', rfl, failed⟩
      | ok flow after =>
        rw [of_turn] at ended
        obtain ⟨after, of_turn', rfl, spent_after, left_after⟩ := ended
        rw [of_turn']
        cases flow with
        | some flow => exact ⟨after, rfl, rfl, spent_after, left_after⟩
        | none =>
          have step := spends left of_turn
          exact of_turns count after (by omega) (by omega) spent_after left_after

/-- So deep that each level has a step of its own, the recursion written out does what the machine
does. -/
theorem allowing_unfolded (count depth calls : Nat) (all : depth + calls = limits.maxCallDepth)
    (deep : limits.stepBudget < count + floor) :
    (Link.within limits floor excused).Machines (.allowing limits depth)
      (.unfolded limits bottom count calls) := by
  induction count generalizing floor depth calls with
  | zero =>
    -- no memory is paired: at least `floor` steps would be spent, more than there are
    refine ⟨within_lawful, ?_, ?_⟩
    · rintro closure arguments memory _ ⟨rfl, spent, left⟩
      omega
    · rintro turn turn' - - memory _ ⟨rfl, spent, left⟩
      omega
  | succ count of_count =>
    have lawful : (Link.within limits floor excused).Lawful limits limits := within_lawful
    refine ⟨lawful, fun closure arguments => ?_, fun turn turn' is_turn turned => ?_⟩
    · cases depth with
      | zero =>
        have full : limits.maxCallDepth ≤ calls := by omega
        rw [unfolded_enter, if_pos full]
        refine carries_after_tick ?_
        rintro _ memory ⟨rfl, spent, left⟩
        exact .inr ⟨memory, rfl, rfl, left⟩
      | succ depth =>
        have room : ¬ limits.maxCallDepth ≤ calls := by omega
        -- a level deeper, and the step of the call is spent
        have inside : (Link.within limits (floor + 1) excused).Machines (.allowing limits depth)
            (.unfolded limits bottom count (calls + 1)) :=
          of_count depth (calls + 1) (by omega) (by omega)
        rw [unfolded_enter, if_neg room]
        exact carries_after_tick ((within_lawful.newScope _ closure.scope).bind fun scope =>
          inside.runBody scope closure.definition.body)
    · rintro _ memory ⟨rfl, spent, left⟩
      -- the turns go down with the levels, so what is known of the levels below is not needed
      exact repeatUntil_unfolded turned is_turn.spends _ (count + 1) calls memory (by omega)
        (by omega) spent left

end

/-- A program is loaded, and one of its functions called with copies of JSON trees and with values. -/
def Machine.session (machine : Machine) (program : Program) (name : String) (trees : List Json)
    (values : List Value) : Run Value := do
  machine.load program
  let copies ← ofItems #[] trees
  machine.callGlobal name (copies.toList ++ values)

theorem Link.Machines.session {link : Link} {machine machine' : Machine}
    (machines : link.Machines machine machine') (program : Program) (name : String)
    (trees : List Json) (values : List Value) :
    link.Carries (machine.session program name trees values)
      (machine'.session program name trees values) :=
  (machines.load program).bind fun _ => (machines.lawful.ofItems #[] trees).bind fun copies =>
    machines.callGlobal name (copies.toList ++ values)

/-- Every session ends within its steps. Its recursion, written out with one level more than there are
steps over whatever machine, is all that happens: it is well founded. -/
theorem session_terminates (limits : Limits) (program : Program) (name : String)
    (trees : List Json) (values : List Value) (bottom : Machine) :
    let ended := (Machine.outermost limits).session program name trees values Memory.fresh
    (Machine.unfolded limits bottom (limits.stepBudget + 1) 0).session program name trees values
        Memory.fresh = ended ∧
      EndsWithin limits ended := by
  have machines : (Link.within limits 0 fun _ => False).Machines (.outermost limits)
      (.unfolded limits bottom (limits.stepBudget + 1) 0) :=
    allowing_unfolded _ limits.maxCallDepth 0 rfl (by omega)
  exact (machines.session program name trees values Memory.fresh Memory.fresh
    ⟨rfl, Nat.zero_le _, Nat.zero_le _⟩).endsWithin

end Tabletop.Script
