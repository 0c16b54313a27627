import Tabletop.Proofs.Script.Invariant
import Tabletop.Proofs.Script.Link.Library

/-!
Runs that leave memory as it is, one lemma for each function that does. They keep every invariant.
-/

namespace Tabletop.Script

/-- A run that leaves memory as it is, whether it gives a value or fails. -/
def Reads {α : Type} (run : Run α) : Prop :=
  ∀ memory, (∃ value, run memory = .ok value memory) ∨ ∃ fault, run memory = .error fault memory

variable {α β : Type} {limits : Limits}

namespace Reads

theorem pure (value : α) : Reads (pure value : Run α) := fun _ => .inl ⟨value, rfl⟩

theorem throw (fault : Fault) : Reads (throw fault : Run α) := fun _ => .inr ⟨fault, rfl⟩

theorem fault (cause : Cause) : Reads (fault cause : Run α) := .throw _

theorem bind {run : Run α} {next : α → Run β} (first : Reads run) (rest : ∀ value, Reads (next value)) :
    Reads (run >>= next) := by
  intro memory
  rw [bind_apply]
  rcases first memory with ⟨value, of_run⟩ | ⟨fault, of_run⟩
  · rw [of_run]
    exact rest value memory
  · rw [of_run]
    exact .inr ⟨fault, rfl⟩

theorem map {run : Run α} (first : Reads run) (result : α → β) :
    Reads (run >>= fun value => Pure.pure (result value)) :=
  first.bind fun value => .pure (result value)

theorem read {next : Memory → Run α} (rest : ∀ memory, Reads (next memory)) : Reads (get >>= next) :=
  fun memory => rest memory memory

/-- What such a run gives can be told from the memory where it starts. -/
theorem gives {run : Run α} (reads : Reads run) {inv : Invariant} {good : α → Prop}
    (given : ∀ memory value, run memory = .ok value memory → good value) : inv.Keeps good run := by
  intro memory holds
  rcases reads memory with ⟨value, of_run⟩ | ⟨fault, of_run⟩
  · rw [of_run]
    exact ⟨given memory value of_run, holds, inv.refl memory⟩
  · rw [of_run]
    exact ⟨holds, inv.refl memory⟩

theorem keeps {run : Run α} (reads : Reads run) {inv : Invariant} : inv.KeepsMemory run :=
  reads.gives fun _ _ _ => trivial

/-- What follows such a run starts in the same memory. -/
theorem bind_ends {run : Run α} (reads : Reads run) {inv : Invariant} {start : Memory}
    (holds : inv.holds start) {good : β → Prop} {next : α → Run β}
    (rest : ∀ value, run start = .ok value start → inv.EndsIn start good (next value start)) :
    inv.EndsIn start good ((run >>= next) start) := by
  rw [bind_apply]
  rcases reads start with ⟨value, of_run⟩ | ⟨fault, of_run⟩
  · rw [of_run]
    exact rest value of_run
  · rw [of_run]
    exact ⟨holds, inv.refl start⟩

end Reads

/-! ## Checks, keys and operators -/

theorem reads_checkString (size : Nat) : Reads (limits.checkString size) := by
  unfold Limits.checkString
  split
  · exact .throw _
  · exact .pure _

theorem reads_checkArray (length : Nat) : Reads (limits.checkArray length) := by
  unfold Limits.checkArray
  split
  · exact .throw _
  · exact .pure _

theorem checkString_le {size : Nat} {memory after : Memory}
    (passed : limits.checkString size memory = .ok () after) : size ≤ limits.maxStringLength := by
  unfold Limits.checkString at passed
  split at passed
  · cases passed
  · rename_i fits
    exact Nat.le_of_not_lt fits

theorem checkArray_le {length : Nat} {memory after : Memory}
    (passed : limits.checkArray length memory = .ok () after) : length ≤ limits.maxArrayLength := by
  unfold Limits.checkArray at passed
  split at passed
  · cases passed
  · rename_i fits
    exact Nat.le_of_not_lt fits

theorem text_size_le {value : Value} {text : String} {memory after : Memory}
    (given : limits.text value memory = .ok text after) :
    text.utf8ByteSize ≤ limits.maxStringLength := by
  rw [text_apply] at given
  split at given
  · cases given
  · rename_i fits
    cases given
    exact Nat.le_of_not_lt fits

theorem reads_text (value : Value) : Reads (limits.text value) :=
  .read fun _ => (reads_checkString _).bind fun _ => .pure _

theorem reads_toNumber (value : Value) : Reads value.toNumber := by
  refine .read fun memory => ?_
  split
  · exact .pure _
  · exact .throw _

theorem reads_getIndex (object key : Value) : Reads (getIndex object key) := by
  refine .read fun memory => ?_
  cases object with
  | undefined | null => exact .fault _
  | array id | str text =>
    dsimp only
    split
    · exact .pure _
    · split <;> exact .pure _
  | _ => exact .pure _

theorem reads_getProperty (object : Value) (name : String) : Reads (getProperty object name) := by
  unfold getProperty
  split
  · exact .pure _
  · exact .pure _
  · exact reads_getIndex object _

theorem reads_looseEq (left right : Value) : Reads (left.looseEq right) := by
  unfold Value.looseEq
  split
  · exact .pure _
  · split
    · exact (reads_toNumber left).bind fun _ => (reads_toNumber right).bind fun _ => .pure _
    · exact .pure _

theorem reads_arithmetic (compute : Float → Float → Float) (left right : Value) :
    Reads (arithmetic compute left right) :=
  (reads_toNumber left).bind fun _ => (reads_toNumber right).bind fun _ => .pure _

theorem reads_compare (texts : String → String → Bool) (numbers : Float → Float → Bool)
    (left right : Value) : Reads (compare texts numbers left right) := by
  unfold compare
  split
  · exact .pure _
  · exact (reads_toNumber left).bind fun _ => (reads_toNumber right).bind fun _ => .pure _

theorem reads_binaryOp (op : BinaryOp) (left right : Value) : Reads (op.apply limits left right) := by
  cases op with
  | add =>
    unfold BinaryOp.apply
    dsimp only
    split
    · exact (reads_text left).bind fun _ => (reads_text right).bind fun _ =>
        (reads_checkString _).bind fun _ => .pure _
    · exact reads_arithmetic _ left right
  | sub | mul | div | rem | pow => exact reads_arithmetic _ left right
  | lt | le | gt | ge => exact reads_compare _ _ left right
  | looseEq | looseNe => exact (reads_looseEq left right).map _
  | strictEq | strictNe => exact .pure _

theorem reads_unaryOp (op : UnaryOp) (value : Value) : Reads (op.apply value) := by
  cases op with
  | not | typeof => exact .pure _
  | neg | plus => exact (reads_toNumber value).map _

/-! ## Strings and numbers -/

theorem reads_relativeIndex (value : Value) (length default : Nat) :
    Reads (relativeIndex value length default) := by
  unfold relativeIndex
  split
  · exact .pure _
  · refine (reads_toNumber value).bind fun number => ?_
    split
    · exact .pure _
    · dsimp only
      split <;> exact .pure _

theorem reads_clampedIndex (value : Value) (length default : Nat) :
    Reads (clampedIndex value length default) := by
  unfold clampedIndex
  split
  · exact .pure _
  · exact (reads_toNumber value).map _

theorem reads_replaceMethod (all : Bool) (subject pattern : String) (replacement : Value) :
    Reads (replaceMethod limits all subject pattern replacement) :=
  (reads_text replacement).bind fun _ => (reads_checkString _).bind fun _ => .pure _

theorem reads_caseMethod (change : List Char → List Char) (subject : String) :
    Reads (caseMethod limits change subject) :=
  (reads_checkString _).bind fun _ => .pure _

theorem reads_substringMethod (subject : String) (arguments : List Value) :
    Reads (substringMethod subject arguments) :=
  (reads_clampedIndex _ _ _).bind fun _ => (reads_clampedIndex _ _ _).bind fun _ => .pure _

theorem reads_sliceText (subject : String) (arguments : List Value) :
    Reads (sliceText subject arguments) :=
  (reads_relativeIndex _ _ _).bind fun _ => (reads_relativeIndex _ _ _).bind fun _ => .pure _

theorem reads_numberMethod (number : Float) (name : String) (arguments : List Value) :
    Reads (numberMethod number name arguments) := by
  unfold numberMethod
  split
  · exact .pure _
  · exact .pure _
  · exact .fault _

theorem reads_builtin (function : Builtin) (arguments : List Value) :
    Reads (function.apply limits arguments) := by
  cases function with
  | parseInt | parseFloat => exact (reads_text _).map _
  | string =>
    cases arguments with
    | nil => exact .pure _
    | cons first rest => exact (reads_text first).map _
  | number =>
    cases arguments with
    | nil => exact .pure _
    | cons first rest => exact (reads_toNumber first).map _
  | isNaN => exact (reads_toNumber _).map _

theorem reads_foldNumbers (combine : Float → Float → Float) (result : Float) (values : List Value) :
    Reads (foldNumbers combine result values) := by
  induction values generalizing result with
  | nil => exact .pure _
  | cons value rest of_rest => exact (reads_toNumber value).bind fun _ => of_rest _

theorem reads_mathFunction (name : String) (arguments : List Value) :
    Reads (mathFunction name arguments) := by
  refine (reads_toNumber _).bind fun x => ?_
  split
  case h_8 => exact (reads_toNumber _).map _
  case h_9 => exact reads_foldNumbers _ _ arguments
  case h_10 => exact reads_foldNumbers _ _ arguments
  case h_11 => exact .fault _
  case h_12 => exact .fault _
  all_goals exact .pure _

/-! ## Items and keys -/

theorem reads_joinItems (separator : String) (first : Bool) (out : String) (items : List Value) :
    Reads (joinItems limits separator first out items) := by
  induction items generalizing first out with
  | nil => exact .pure _
  | cons item rest of_rest =>
    rw [Link.joinItems_cons]
    refine Reads.bind ?_ fun text => (reads_checkString _).bind fun _ => of_rest _ _
    split
    · exact .pure _
    · exact reads_text item

theorem reads_joinMethod (separator : Value) (items : Array Value) :
    Reads (joinMethod limits separator items) := by
  unfold joinMethod
  split
  · exact (reads_joinItems "," true "" _).map Value.str
  · exact (reads_text _).bind fun separator => (reads_joinItems separator true "" _).map Value.str

theorem reads_itemsOf (id : Nat) : Reads (itemsOf id) := .read fun _ => .pure _

theorem reads_concatItems (items : Array Value) (arguments : List Value) :
    Reads (concatItems limits items arguments) := by
  refine .read fun memory => ?_
  dsimp only
  split
  · exact .pure _
  · exact (reads_checkArray _).map _

theorem reads_iterated (value : Value) : Reads (iterated value) := by
  cases value with
  | array id => exact (reads_itemsOf id).map _
  | str text => exact .pure _
  | _ => exact .fault _

theorem reads_keysOf (value : Value) : Reads (keysOf value) := .read fun _ => .pure _

end Tabletop.Script
