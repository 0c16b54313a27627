import Tabletop.Proofs.Script.Invariant
import Tabletop.Proofs.Script.Link.Library

/-!
What the methods of arrays that call a function keep. The function may do anything that keeps the
invariant, and change the array itself; the items that are visited were taken at the start.
-/

namespace Tabletop.Script.Invariant

variable {inv : Invariant}

/-- What a visit of items stops with is allowed, and what it has gathered is good. -/
def Visits {α : Type} (inv : Invariant) (good : α → Prop) : Except Value α → Prop
  | .ok gathered => good gathered
  | .error value => inv.value value

section

variable (plain : ∀ {value : Value}, (∀ text, value ≠ .str text) → inv.value value)
  {call : Caller} (called : inv.CallerKeeps call) {callback receiver : Value}
  (receiver_allowed : inv.value receiver)

include plain called receiver_allowed

/-- What is good may depend on how many items have been visited. -/
theorem keeps_visitItems {α : Type} (good : Nat → α → Prop)
    {visit : α → Nat → Value → Value → Except Value α}
    (visited : ∀ gathered index item answer, good index gathered → inv.value item → inv.value answer →
      inv.Visits (good (index + 1)) (visit gathered index item answer))
    (index : Nat) {gathered : α} (is_good : good index gathered) {items : List Value}
    (allowed : ∀ item ∈ items, inv.value item) :
    inv.Keeps (inv.Visits (good (index + items.length)))
      (visitItems call callback receiver visit index gathered items) := by
  induction items generalizing index gathered with
  | nil => exact .pure is_good
  | cons item rest of_rest =>
    obtain ⟨item_allowed, rest_allowed⟩ := List.forall_mem_cons.mp allowed
    have number : inv.value (.number (Float.ofNat index)) := plain (by simp)
    rw [Link.visitItems_cons]
    refine (called callback _ ?_).bind fun answer answer_allowed => ?_
    · simp [item_allowed, number, receiver_allowed]
    · have kept := visited gathered index item answer is_good item_allowed answer_allowed
      split
      · rename_i value stopped
        rw [stopped] at kept
        exact .pure kept
      · rename_i gathered' gone_on
        rw [gone_on] at kept
        rw [List.length_cons, Nat.add_comm rest.length, ← Nat.add_assoc]
        exact of_rest _ kept rest_allowed

theorem keeps_foldItems (index : Nat) {before : Value} (before_allowed : inv.value before)
    {items : List Value} (allowed : ∀ item ∈ items, inv.value item) :
    inv.Keeps inv.value (foldItems call callback receiver index before items) := by
  induction items generalizing index before with
  | nil => exact .pure before_allowed
  | cons item rest of_rest =>
    obtain ⟨item_allowed, rest_allowed⟩ := List.forall_mem_cons.mp allowed
    have number : inv.value (.number (Float.ofNat index)) := plain (by simp)
    rw [Link.foldItems_cons]
    refine (called callback _ ?_).bind fun answer answer_allowed => of_rest _ answer_allowed rest_allowed
    simp [before_allowed, item_allowed, number, receiver_allowed]

variable {items : List Value} (allowed : ∀ item ∈ items, inv.value item)

include allowed

theorem keeps_eachItem : inv.Keeps inv.value (eachItem call callback receiver items) := by
  refine (keeps_visitItems plain called receiver_allowed (fun _ _ => True) ?_ 0 trivial allowed).bind
    fun ended is_good => ?_
  · exact fun _ _ _ _ _ _ _ => trivial
  · cases ended with
    | ok gathered => exact .pure (plain (by simp))
    | error value => exact .pure is_good

theorem keeps_findItem (wanted : Bool) {found : Nat → Value → Value} {otherwise : Value}
    (found_allowed : ∀ index item, inv.value item → inv.value (found index item))
    (otherwise_allowed : inv.value otherwise) :
    inv.Keeps inv.value (findItem call callback receiver wanted found otherwise items) := by
  refine (keeps_visitItems plain called receiver_allowed (fun _ _ => True) ?_ 0 trivial allowed).bind
    fun ended is_good => ?_
  · intro gathered index item answer _ item_allowed _
    split
    · exact found_allowed index item item_allowed
    · trivial
  · cases ended with
    | ok gathered => exact .pure otherwise_allowed
    | error value => exact .pure is_good

theorem keeps_reduceMethod {arguments : List Value}
    (arguments_allowed : ∀ argument ∈ arguments, inv.value argument) :
    inv.Keeps inv.value (reduceMethod call receiver arguments items) := by
  unfold reduceMethod
  split
  · rename_i callback first rest
    exact keeps_foldItems plain called receiver_allowed 0 (arguments_allowed first (by simp)) allowed
  · cases items with
    | nil => exact .fault _
    | cons first rest =>
      obtain ⟨first_allowed, rest_allowed⟩ := List.forall_mem_cons.mp allowed
      exact keeps_foldItems plain called receiver_allowed 1 first_allowed rest_allowed

/-- An array of no more than so many allowed values can be made now and later. -/
def Makes (inv : Invariant) (start : Memory) (length : Nat) : Prop :=
  ∀ between values, inv.holds between → inv.later start between → values.size ≤ length →
    (∀ value ∈ values, inv.value value) → inv.EndsIn between inv.value (newArray values between)

variable {start : Memory} (holds : inv.holds start) (makes : inv.Makes start items.length)

include holds makes

theorem endsIn_gatherItems {pick : Value → Value → Option Value}
    (picked : ∀ item answer value, inv.value item → inv.value answer →
      pick item answer = some value → inv.value value) :
    inv.EndsIn start inv.value (gatherItems call callback receiver pick items start) := by
  unfold gatherItems
  refine (keeps_visitItems plain called receiver_allowed (fun index (gathered : Array Value) =>
    gathered.size ≤ index ∧ ∀ value ∈ gathered, inv.value value) ?_ 0 (by simp) allowed start holds).bind
    fun ended between is_good holds later => ?_
  · intro gathered index item answer is_good item_allowed answer_allowed
    obtain ⟨short, gathered_allowed⟩ := is_good
    split
    · rename_i value of_pick
      have value_allowed := picked item answer value item_allowed answer_allowed of_pick
      refine ⟨?_, all_push gathered_allowed value_allowed⟩
      rw [Array.size_push]
      omega
    · exact ⟨by omega, gathered_allowed⟩
  · cases ended with
    | ok gathered =>
      rw [Nat.zero_add] at is_good
      exact makes between gathered holds later is_good.1 is_good.2
    | error value => exact ⟨is_good, holds, inv.refl between⟩

theorem endsIn_callbackMethod? {arguments : List Value}
    (arguments_allowed : ∀ argument ∈ arguments, inv.value argument) (name : String)
    {method : List Value → Run Value}
    (is_method : callbackMethod? call receiver arguments name = some method) :
    inv.EndsIn start inv.value (method items start) := by
  have gather := fun {callback pick} => @endsIn_gatherItems inv plain call called callback receiver
    receiver_allowed items allowed start holds makes pick
  have find := fun {callback} => @keeps_findItem inv plain call called callback receiver
    receiver_allowed items allowed
  unfold callbackMethod? at is_method
  dsimp only at is_method
  split at is_method
  all_goals cases is_method
  · exact keeps_eachItem plain called receiver_allowed allowed start holds
  · refine gather fun _ answer value _ answer_allowed picked => ?_
    cases picked
    exact answer_allowed
  · refine gather fun item answer value item_allowed _ picked => ?_
    split at picked
    · cases picked
      exact item_allowed
    · cases picked
  · exact find true (fun _ _ _ => plain (by simp)) (plain (by simp)) start holds
  · exact find false (fun _ _ _ => plain (by simp)) (plain (by simp)) start holds
  · exact find true (fun _ _ item_allowed => item_allowed) (plain (by simp)) start holds
  · exact find true (fun _ _ _ => plain (by simp)) (plain (by simp)) start holds
  · exact keeps_reduceMethod plain called receiver_allowed allowed arguments_allowed start holds

end

end Tabletop.Script.Invariant
