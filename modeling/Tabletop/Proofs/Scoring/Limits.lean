import Tabletop.Proofs.Script.Termination
import Tabletop.Proofs.Script.Wider
import Tabletop.Scoring.Run

/-!
Limits decide whether a scoring program gives a payload, and never which.
-/

namespace Tabletop.Scoring

open Payload Script

/-! ## What was written to the console is not part of a result -/

section

variable (memory : Memory) (lines : List String) (size : Option Nat)

theorem declareAll_withTrace (unknowns : Variables) (descriptions : List (String × Value)) :
    declareAll (memory.withTrace lines size) unknowns descriptions =
      declareAll memory unknowns descriptions := by
  induction descriptions generalizing unknowns with
  | nil => rfl
  | cons description rest of_rest =>
    rw [declareAll, declareAll, Memory.toJson_withTrace]
    cases VariableKind.ofJson? (memory.toJson description.2) with
    | some kind => exact of_rest _
    | none => rfl

theorem variablesOf_withTrace (value : Value) :
    variablesOf (memory.withTrace lines size) value = variablesOf memory value := by
  cases value with
  | object id => exact declareAll_withTrace memory lines size [] _
  | _ => rfl

theorem constraintOf_withTrace (index : Nat) (value : Value) :
    constraintOf (memory.withTrace lines size) index value = constraintOf memory index value := by
  cases value <;> rfl

theorem constraintsFrom_withTrace (index : Nat) (values : List Value) :
    constraintsFrom (memory.withTrace lines size) index values =
      constraintsFrom memory index values := by
  induction values generalizing index with
  | nil => rfl
  | cons value rest of_rest =>
    rw [constraintsFrom, constraintsFrom, constraintOf_withTrace, of_rest]

theorem constraintsOf_withTrace (value : Value) :
    constraintsOf (memory.withTrace lines size) value = constraintsOf memory value := by
  cases value with
  | array id => exact constraintsFrom_withTrace memory lines size 0 _
  | _ => rfl

theorem payloadOfFields_withTrace (entries : Entries) :
    payloadOfFields (memory.withTrace lines size) entries = payloadOfFields memory entries := by
  simp only [payloadOfFields, variablesOf_withTrace, constraintsOf_withTrace]

theorem weightOf_withTrace (group key : String) (value : Value) :
    weightOf (memory.withTrace lines size) group key value = weightOf memory group key value := by
  rw [weightOf, weightOf, Memory.numberOf?_withTrace]

theorem singleWeights_withTrace (so : Weighed) (weights : List (String × Value)) :
    singleWeights (memory.withTrace lines size) so weights = singleWeights memory so weights := by
  induction weights generalizing so with
  | nil => rfl
  | cons weight rest of_rest => simp only [singleWeights, weightOf_withTrace, of_rest]

theorem pairWeights_withTrace (so : Weighed) (weights : List (String × Value)) :
    pairWeights (memory.withTrace lines size) so weights = pairWeights memory so weights := by
  induction weights generalizing so with
  | nil => rfl
  | cons weight rest of_rest => simp only [pairWeights, weightOf_withTrace, of_rest]

theorem payloadOfWeights_withTrace (entries : Entries) :
    payloadOfWeights (memory.withTrace lines size) entries = payloadOfWeights memory entries := by
  have same : propertiesOf (memory.withTrace lines size) = propertiesOf memory := rfl
  simp only [payloadOfWeights, same, singleWeights_withTrace, pairWeights_withTrace]

theorem payloadOf_withTrace (value : Value) :
    payloadOf (memory.withTrace lines size) value = payloadOf memory value := by
  cases value with
  | object id =>
    simp only [payloadOf, Memory.entries_withTrace, payloadOfFields_withTrace,
      payloadOfWeights_withTrace]
  | _ => rfl

end

/-! ## Runs within wider limits -/

/-- A fault that tells of a limit. -/
def OfLimit : Fault → Prop
  | .stepBudget _ | .callDepth _ | .sizeLimit _ _ => True
  | .runtime _ | .endlessNumber => False

theorem ofLimit_of_cuts {limits limits' : Limits} {fault : Fault}
    (cut : limits.Cuts limits' fault) : OfLimit fault := by
  cases cut <;> trivial

section

variable {settings : Settings} {limits' : Limits}

/-- The call of the entry function is a session with a copy of the board. -/
theorem callEntry_eq_session (settings : Settings) (program : Program) (board : Json) :
    callEntry settings program board =
      (Machine.outermost settings.toLimits).session program settings.entry [board] [] := by
  simp only [callEntry, load, callGlobal, Machine.session, ofItems, bind_assoc, pure_bind,
    List.push_toArray, List.nil_append, List.append_nil]

theorem callEntry_carries {link : Link}
    (machines : link.Machines (.outermost settings.toLimits) (.outermost limits'))
    (program : Program) (board : Json) :
    link.Carries (callEntry settings program board)
      (callEntry { settings with toLimits := limits' } program board) := by
  rw [callEntry_eq_session, callEntry_eq_session]
  exact machines.session program settings.entry [board] []

/-- Before a program is loaded, limits have no say. -/
theorem run_cases (settings : Settings) (source : String) (board : Json) :
    (∃ failure, ∀ limits, run { settings with toLimits := limits } source board = .error failure) ∨
    ∃ program, ∀ limits, run { settings with toLimits := limits } source board =
      outcomeOf (callEntry { settings with toLimits := limits } program board Memory.fresh) := by
  unfold run
  split
  · exact .inl ⟨_, fun _ => rfl⟩
  · split
    · exact .inl ⟨_, fun _ => rfl⟩
    · rename_i program _
      by_cases missing : (program.function? settings.entry).isNone
      · exact .inl ⟨.missingEntry settings.entry, fun _ => if_pos missing⟩
      · exact .inr ⟨program, fun _ => if_neg missing⟩

/-- A run within wider limits ends in the same way, but for what the console keeps, unless a limit cut
the narrower run short. -/
theorem run_wider (wider : settings.toLimits ≤ limits') (source : String) (board : Json) :
    match run settings source board with
    | .ok outcome =>
      ∃ trace, run { settings with toLimits := limits' } source board = .ok { outcome with trace }
    | .error failure =>
      (∃ fault, failure = .script (.failed fault) ∧ settings.toLimits.Cuts limits' fault) ∨
        run { settings with toLimits := limits' } source board = .error failure := by
  obtain ⟨failure, fails⟩ | ⟨program, entered⟩ := run_cases settings source board
  · rw [fails settings.toLimits]
    exact .inr (fails limits')
  · rw [entered settings.toLimits, entered limits']
    have together := callEntry_carries (wider_machines wider) program board Memory.fresh
      Memory.fresh ⟨[], some 0, rfl⟩
    change (Link.wider _ _).Ends (callEntry settings program board Memory.fresh) _ at together
    cases ended : callEntry settings program board Memory.fresh with
    | error fault memory =>
      rw [ended] at together
      obtain cut | ⟨memory', ended', -⟩ := together
      · exact .inl ⟨fault, rfl, cut⟩
      · rw [ended']
        exact .inr rfl
    | ok value memory =>
      rw [ended] at together
      obtain ⟨_, ended', lines, size, rfl⟩ := together
      rw [ended', outcomeOf, outcomeOf, payloadOf_withTrace]
      cases payloadOf memory value with
      | error failure => exact .inr rfl
      | ok result => exact ⟨_, rfl⟩

/-- A run reports no more steps than it may spend. -/
theorem run_steps_le {source : String} {board : Json} {outcome : Outcome}
    (ended : run settings source board = .ok outcome) : outcome.steps ≤ settings.stepBudget := by
  obtain ⟨failure, fails⟩ | ⟨program, entered⟩ := run_cases settings source board
  · rw [fails settings.toLimits] at ended
    cases ended
  · rw [entered settings.toLimits] at ended
    have within := callEntry_carries (allowing_within settings.toLimits 0 _) program board
      Memory.fresh Memory.fresh ⟨rfl, Nat.zero_le _, Nat.zero_le _⟩
    change (Link.within _ _ _).Ends (callEntry settings program board Memory.fresh) _ at within
    cases of_entry : callEntry settings program board Memory.fresh with
    | error fault memory =>
      rw [of_entry] at ended
      cases ended
    | ok value memory =>
      rw [of_entry] at ended within
      obtain ⟨_, -, -, -, left⟩ := within
      rw [outcomeOf] at ended
      split at ended
      · cases ended
      · cases ended
        exact left

end

/-- Under wider limits a run that gives a payload gives the same one in as many steps, and one that fails
for another reason than a limit fails for the same reason. With fewer steps than it takes, a run that
gives a payload fails for want of steps. -/
theorem limits_only_decide (settings : Settings) (limits' : Limits)
    (wider : settings.toLimits ≤ limits') (source : String) (board : Json) :
    (∀ outcome, run settings source board = .ok outcome →
      ∃ trace, run { settings with toLimits := limits' } source board =
        .ok { outcome with trace }) ∧
    (∀ failure, run settings source board = .error failure →
      (∀ fault, failure = .script (.failed fault) → ¬ OfLimit fault) →
      run { settings with toLimits := limits' } source board = .error failure) ∧
    ∀ outcome budget, run settings source board = .ok outcome → budget < outcome.steps →
      run { settings with stepBudget := budget } source board =
        .error (.script (.failed (.stepBudget budget))) := by
  have together := run_wider wider source board
  refine ⟨?_, ?_, ?_⟩
  · intro outcome ended
    rwa [ended] at together
  · intro failure failed unlimited
    rw [failed] at together
    obtain ⟨fault, of_fault, cut⟩ | same := together
    · exact absurd (ofLimit_of_cuts cut) (unlimited fault of_fault)
    · exact same
  · intro outcome budget ended short
    -- the run with fewer steps is the narrower one here
    have fewer : { settings with stepBudget := budget }.toLimits ≤ settings.toLimits := by
      have enough := run_steps_le ended
      exact ⟨by dsimp only; omega, Nat.le_refl _, Nat.le_refl _, Nat.le_refl _⟩
    have narrowed := run_wider fewer source board
    change (match run { settings with stepBudget := budget } source board with
      | .ok outcome => ∃ trace, run settings source board = .ok { outcome with trace }
      | .error failure => _ ∨ run settings source board = .error failure) at narrowed
    rw [ended] at narrowed
    cases of_fewer : run { settings with stepBudget := budget } source board with
    | ok outcome' =>
      -- it would have taken no more steps than the budget
      rw [of_fewer] at narrowed
      obtain ⟨trace, same⟩ := narrowed
      have within := run_steps_le of_fewer
      cases same
      dsimp only at within short
      omega
    | error failure =>
      rw [of_fewer] at narrowed
      obtain ⟨fault, rfl, cut⟩ | differ := narrowed
      · cases cut with
        | steps => rfl
        | calls narrower | string narrower | array narrower => exact absurd narrower (Nat.lt_irrefl _)
      · cases differ

/-- Three steps are what a program takes that only returns a weight, and two are too few for it. -/
theorem three_steps_decide :
    let source := "function createQuboForSingleMove(board) \x7b return \x7blinear: \x7b0: 1\x7d\x7d; \x7d"
    ({ stepBudget := 3 } : Limits) ≤ {} ∧
    ∃ outcome trace, run { stepBudget := 3 } source .null = .ok outcome ∧ outcome.steps = 3 ∧
      run {} source .null = .ok { outcome with trace } ∧
      run { stepBudget := 2 } source .null = .error (.script (.failed (.stepBudget 2))) := by
  intro source
  have wider : ({ stepBudget := 3 } : Limits) ≤ {} := by decide
  obtain ⟨same, -, fewer⟩ := limits_only_decide { stepBudget := 3 } {} wider source .null
  have three : (run { stepBudget := 3 } source .null).toOption.map Outcome.steps = some 3 := by
    decide +kernel
  cases ended : run { stepBudget := 3 } source .null with
  | error failure =>
    rw [ended] at three
    cases three
  | ok outcome =>
    rw [ended] at three
    have steps : outcome.steps = 3 := Option.some.inj three
    obtain ⟨trace, under_defaults⟩ := same outcome ended
    exact ⟨wider, outcome, trace, rfl, steps, under_defaults, fewer outcome 2 ended (by omega)⟩

end Tabletop.Scoring
