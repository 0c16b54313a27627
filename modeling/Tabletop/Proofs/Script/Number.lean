import Tabletop.Script.Value.Number
import Mathlib.Data.Fintype.Pigeonhole
import Mathlib.Logic.Relation

/-!
Arrays without a number. The bound on the arrays that are looked through is never what is missing: only
where an array holds itself there is no number.
-/

namespace Tabletop.Script.Memory

/-- An array has one item, and that is another array. -/
def OnlyHolds (memory : Memory) (id inner : Nat) : Prop :=
  (memory.items id).toList = [.array inner]

/-- An array is its own only item, or that of the arrays inside it. -/
def HoldsItself (memory : Memory) (id : Nat) : Prop :=
  Relation.TransGen memory.OnlyHolds id id

/-- From a value on, arrays stand in one another as only items, and one of them comes back to itself. -/
def NestsEndlessly (memory : Memory) (value : Value) : Prop :=
  ∃ outer inner, value = .array outer ∧ Relation.ReflTransGen memory.OnlyHolds outer inner ∧
    memory.HoldsItself inner

variable {memory : Memory}

theorem OnlyHolds.lt_size {id inner : Nat} (holds : memory.OnlyHolds id inner) :
    id < memory.arrays.size := by
  by_contra outside
  have empty : memory.items id = #[] := by
    simp [items, Array.getElem?_eq_none (Nat.le_of_not_lt outside)]
  rw [OnlyHolds, empty] at holds
  cases holds

/-- What has no number within a bound is an array, with as many arrays inside one another. -/
theorem exists_chain (bound : Nat) (value : Value) (missing : memory.number? bound value = none) :
    ∃ chain : Nat → Nat, value = .array (chain 0) ∧
      ∀ level < bound, memory.OnlyHolds (chain level) (chain (level + 1)) := by
  induction bound generalizing value with
  | zero =>
    cases value with
    | array id => exact ⟨fun _ => id, rfl, fun _ none_below => absurd none_below (Nat.not_lt_zero _)⟩
    | _ => cases missing
  | succ bound of_item =>
    cases value with
    | array id =>
      rw [number?] at missing
      split at missing
      · cases missing
      · rename_i item only
        obtain ⟨chain, rfl, holds⟩ := of_item item missing
        -- the array itself, then the chain of its only item
        refine ⟨fun level => level.casesOn id chain, rfl, fun level below => ?_⟩
        cases level with
        | zero => exact only
        | succ level => exact holds level (Nat.lt_of_succ_lt_succ below)
      · cases missing
    | _ => cases missing

theorem transGen_of_chain {chain : Nat → Nat} {bound : Nat}
    (holds : ∀ level < bound, memory.OnlyHolds (chain level) (chain (level + 1)))
    {first last : Nat} (before : first < last) (inside : last ≤ bound) :
    Relation.TransGen memory.OnlyHolds (chain first) (chain last) := by
  induction last, before using Nat.le_induction with
  | base => exact .single (holds first inside)
  | succ last _ so_far => exact (so_far (by omega)).tail (holds last inside)

/-- There are fewer arrays than the bound lets be looked through, so one of them was met again. -/
theorem nestsEndlessly_of_missing {value : Value} (missing : memory.numberOf? value = none) :
    memory.NestsEndlessly value := by
  obtain ⟨chain, rfl, holds⟩ := exists_chain _ value missing
  have small : ∀ level : Fin (memory.arrays.size + 1), chain level < memory.arrays.size :=
    fun level => (holds level level.isLt).lt_size
  obtain ⟨first, last, differ, same⟩ := Fintype.exists_ne_map_eq_of_card_lt
    (fun level : Fin (memory.arrays.size + 1) => (⟨chain level, small level⟩ : Fin memory.arrays.size))
    (by simp)
  have again : chain first = chain last := congrArg Fin.val same
  have reached : ∀ level ≤ memory.arrays.size + 1,
      Relation.ReflTransGen memory.OnlyHolds (chain 0) (chain level) := by
    intro level inside
    rcases Nat.eq_zero_or_pos level with rfl | positive
    · exact .refl
    · exact (transGen_of_chain holds positive inside).to_reflTransGen
  rcases Nat.lt_or_gt_of_ne (Fin.val_ne_of_ne differ) with before | after
  · have round := transGen_of_chain holds before last.isLt.le
    exact ⟨chain 0, chain first, rfl, reached first first.isLt.le, by rwa [← again] at round⟩
  · have round := transGen_of_chain holds after first.isLt.le
    exact ⟨chain 0, chain last, rfl, reached last last.isLt.le, by rwa [again] at round⟩

theorem exists_holdsItself {value : Value} (missing : memory.numberOf? value = none) :
    ∃ id, memory.HoldsItself id := by
  obtain ⟨_, id, -, -, holds⟩ := nestsEndlessly_of_missing missing
  exact ⟨id, holds⟩

end Tabletop.Script.Memory
