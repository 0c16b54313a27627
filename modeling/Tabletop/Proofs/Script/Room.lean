import Tabletop.Proofs.Script.Termination
import Tabletop.Proofs.Script.Wider

/-!
Runs with more room for strings and arrays, and the same steps and calls. A run ends as it would with
more room, unless it fails because a string or an array would become longer than it may.
-/

namespace Tabletop.Script

namespace Limits

/-- The other limits leave more room for strings and arrays, and the same steps and calls. -/
structure Roomier (limits limits' : Limits) : Prop where
  steps : limits'.stepBudget = limits.stepBudget
  calls : limits'.maxCallDepth = limits.maxCallDepth
  room : ∀ measure, limits.room measure ≤ limits'.room measure

/-- The fault of a run that would have gone on with more room. -/
def Outgrown (limits limits' : Limits) (fault : Fault) : Prop :=
  ∃ measure, limits.room measure < limits'.room measure ∧
    fault = .sizeLimit measure (limits.room measure)

theorem roomier_longer {limits : Limits} {longer : Nat} (wider : limits.maxStringLength ≤ longer) :
    limits.Roomier { limits with maxStringLength := longer } := by
  refine ⟨rfl, rfl, fun measure => ?_⟩
  cases measure with
  | stringLength => exact wider
  | arrayLength => exact Nat.le_refl _

theorem roomier_larger {limits : Limits} {longer : Nat} (wider : limits.maxArrayLength ≤ longer) :
    limits.Roomier { limits with maxArrayLength := longer } := by
  refine ⟨rfl, rfl, fun measure => ?_⟩
  cases measure with
  | stringLength => exact Nat.le_refl _
  | arrayLength => exact wider

end Limits

/-- Runs within limits and within ones that leave more room. -/
def Link.roomier (limits limits' : Limits) : Link where
  Paired memory memory' := ∃ lines size, memory' = memory.withTrace lines size
  Failed _ memory memory' := ∃ lines size, memory' = memory.withTrace lines size
  Excused := limits.Outgrown limits'

variable {limits limits' : Limits}

theorem roomier_rooms (roomier : limits.Roomier limits') :
    (Link.roomier limits limits').Rooms limits limits' where
  alike paired := paired
  more := roomier.room
  excused measure narrower := ⟨measure, narrower, rfl⟩
  failed _ paired := paired

theorem roomier_lawful (roomier : limits.Roomier limits') :
    (Link.roomier limits limits').Lawful limits limits' where
  alike paired := paired
  heap := by
    rintro memory _ arrays objects closures frames ⟨lines, size, rfl⟩
    exact ⟨lines, size, rfl⟩
  runtime _ paired := paired
  endless paired _ := paired
  tick := by
    rintro memory _ ⟨lines, size, rfl⟩
    rw [tick_apply, tick_apply, roomier.steps]
    by_cases spent : limits.stepBudget < memory.steps + 1
    · rw [if_pos spent]
      exact .inr ⟨_, if_pos spent, lines, size, rfl⟩
    · rw [if_neg spent]
      exact ⟨_, if_neg spent, lines, size, rfl⟩
  log := Link.carries_log_of_unseen <| by
    rintro memory _ lines size lines' size' ⟨_, _, rfl⟩
    exact ⟨lines', size', rfl⟩
  checkString := (roomier_rooms roomier).checkString
  checkArray := (roomier_rooms roomier).checkArray
  text := (roomier_rooms roomier).text

/-- A run that ends otherwise than it would with more room for one measure fails because of that measure.
How a run ends is told here by a property that does not look at the console. -/
theorem outgrown_of_carries {α : Type} {ends : EStateM.Result Fault Memory α → Prop}
    (gives : ∀ {value after} lines size, ends (.ok value after) →
      ends (.ok value (after.withTrace lines size)))
    (fails : ∀ {fault after} lines size, ends (.error fault after) →
      ends (.error fault (after.withTrace lines size)))
    {measure : Measure} (only : ∀ other, limits.room other < limits'.room other → other = measure)
    {run run' : Run α} (carried : (Link.roomier limits limits').Carries run run') {memory : Memory}
    (ended : ends (run memory)) (outgrown : ¬ ends (run' memory)) :
    ∃ after, run memory = .error (.sizeLimit measure (limits.room measure)) after := by
  have together := carried memory memory ⟨memory.trace, memory.traceSize, rfl⟩
  cases of_run : run memory with
  | ok value after =>
    rw [of_run] at ended together
    obtain ⟨_, same, lines, size, rfl⟩ := together
    rw [same] at outgrown
    exact absurd (gives lines size ended) outgrown
  | error fault after =>
    rw [of_run] at ended together
    obtain ⟨other, narrower, rfl⟩ | ⟨_, same, lines, size, rfl⟩ := together
    · rw [only other narrower]
      exact ⟨after, rfl⟩
    · rw [same] at outgrown
      exact absurd (fails lines size ended) outgrown

/-- However many calls may still stand inside one another, a run goes along with one that has more
room. -/
theorem roomier_machines (roomier : limits.Roomier limits') (depth : Nat) :
    (Link.roomier limits limits').Machines (.allowing limits depth) (.allowing limits' depth) :=
  (roomier_lawful roomier).lockstep roomier.steps roomier.calls (fun paired => paired)
    (fun paired => paired) depth

theorem roomier_outermost (roomier : limits.Roomier limits') :
    (Link.roomier limits limits').Machines (.outermost limits) (.outermost limits') := by
  unfold Machine.outermost
  rw [roomier.calls]
  exact roomier_machines roomier limits.maxCallDepth

end Tabletop.Script
