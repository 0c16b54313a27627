import Tabletop.Proofs.Script.Link.Evaluation
import Tabletop.Proofs.Script.Link.Rooms

/-!
Runs under wider limits. A run goes on as it would under narrower limits, unless it is one of those that
stops the narrower run; only what the console keeps may differ.
-/

namespace Tabletop.Script

namespace Limits

/-- Every limit is at most the other one. -/
instance : LE Limits where
  le limits limits' := limits.stepBudget ≤ limits'.stepBudget ∧
    limits.maxCallDepth ≤ limits'.maxCallDepth ∧
    limits.maxStringLength ≤ limits'.maxStringLength ∧
    limits.maxArrayLength ≤ limits'.maxArrayLength

instance (limits limits' : Limits) : Decidable (limits ≤ limits') :=
  inferInstanceAs (Decidable (_ ∧ _ ∧ _ ∧ _))

/-- Faults after which a run within other limits may go on: no steps are left, or a narrower limit was
met. -/
inductive Cuts (limits limits' : Limits) : Fault → Prop where
  | steps : Cuts limits limits' (.stepBudget limits.stepBudget)
  | calls (narrower : limits.maxCallDepth < limits'.maxCallDepth) :
    Cuts limits limits' (.callDepth limits.maxCallDepth)
  | string (narrower : limits.maxStringLength < limits'.maxStringLength) :
    Cuts limits limits' (.sizeLimit .stringLength limits.maxStringLength)
  | array (narrower : limits.maxArrayLength < limits'.maxArrayLength) :
    Cuts limits limits' (.sizeLimit .arrayLength limits.maxArrayLength)

end Limits

/-- Runs within limits and within wider ones. -/
def Link.wider (limits limits' : Limits) : Link where
  Paired memory memory' := ∃ lines size, memory' = memory.withTrace lines size
  Failed _ _ _ := True
  Excused := limits.Cuts limits'

variable {limits limits' : Limits}

theorem wider_rooms (wider : limits ≤ limits') : (Link.wider limits limits').Rooms limits limits' where
  alike paired := paired
  more
    | .stringLength => wider.2.2.1
    | .arrayLength => wider.2.2.2
  excused
    | .stringLength => .string
    | .arrayLength => .array
  failed _ _ := trivial

theorem wider_lawful (wider : limits ≤ limits') :
    (Link.wider limits limits').Lawful limits limits' where
  alike paired := paired
  heap := by
    rintro memory _ arrays objects closures frames ⟨lines, size, rfl⟩
    exact ⟨lines, size, rfl⟩
  runtime _ _ := trivial
  endless _ _ := trivial
  tick := by
    rintro memory _ ⟨lines, size, rfl⟩
    rw [tick_apply]
    split
    · exact .inl .steps
    · rename_i fits
      have fits' : ¬ limits'.stepBudget < memory.steps + 1 := by
        have budget := wider.1
        omega
      rw [tick_apply]
      refine ⟨_, if_neg fits', lines, size, rfl⟩
  log := Link.carries_log_of_unseen <| by
    rintro memory _ lines size lines' size' ⟨_, _, rfl⟩
    exact ⟨lines', size', rfl⟩
  checkString := (wider_rooms wider).checkString
  checkArray := (wider_rooms wider).checkArray
  text := (wider_rooms wider).text

/-- Outermost calls and loops go together, the wider limits allowing so many more calls. -/
theorem wider_machines (wider : limits ≤ limits') :
    (Link.wider limits limits').Machines (.outermost limits) (.outermost limits') := by
  have lawful := wider_lawful wider
  have left : ∀ {memory memory' : Memory}, (Link.wider limits limits').Paired memory memory' →
      limits.stepBudget - memory.steps ≤ limits'.stepBudget - memory'.steps := by
    rintro memory _ ⟨lines, size, rfl⟩
    exact Nat.sub_le_sub_right wider.1 memory.steps
  -- where the narrower run may call no deeper, the wider one may make `more` calls still
  obtain ⟨more, deeper⟩ := Nat.exists_eq_add_of_le' wider.2.1
  have deepest : ∀ closure arguments, (Link.wider limits limits').Carries
      (enter limits 0 closure arguments) (enter limits' more closure arguments) := by
    intro closure arguments
    cases more with
    | zero =>
      have same : limits'.maxCallDepth = limits.maxCallDepth := by omega
      unfold enter
      rw [same]
      exact lawful.tick.bind fun _ _ _ _ => .inr ⟨_, rfl, trivial⟩
    | succ more =>
      have cut : limits.Cuts limits' (.callDepth limits.maxCallDepth) := .calls (by omega)
      exact lawful.tick.bind fun _ => .excused cut _
  have machines := lawful.machines .steps left deepest limits.maxCallDepth
  rwa [← deeper] at machines

end Tabletop.Script
