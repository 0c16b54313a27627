import Tabletop.Proofs.Json.Size
import Tabletop.Proofs.Script.Invariant.Callbacks
import Tabletop.Proofs.Script.Invariant.Copies
import Tabletop.Proofs.Script.Lengths

/-!
Operators and library functions keep the lengths of arrays, one lemma for each function that makes or
changes an array or an object. All others leave memory as it is.
-/

namespace Tabletop.Script.Lengths

variable {limits : Limits} {allowed : Part → Prop} {limit : Nat} {memory : Memory}

/-! ## Methods of arrays -/

theorem size_writeItem (index : Nat) (value : Value) (items : Array Value) :
    (writeItem index value items).size = max items.size (index + 1) := by
  unfold writeItem
  split
  · rw [Array.size_setIfInBounds]
    omega
  · rw [Array.size_push, Array.size_append, Array.size_replicate]
    omega

theorem size_joined (parts : List (Array Value)) (start : Array Value) :
    (parts.foldl (· ++ ·) start).size =
      parts.foldl (fun count part => count + part.size) start.size := by
  induction parts generalizing start with
  | nil => rfl
  | cons part rest of_rest => rw [List.foldl_cons, List.foldl_cons, of_rest, Array.size_append]

/-- Items that are joined are counted first, unless there is nothing to join them to. -/
theorem concatItems_size {items joined : Array Value} {arguments : List Value} {after : Memory}
    (ended : concatItems limits items arguments memory = .ok joined after) :
    joined.size = items.size ∨ joined.size ≤ limits.maxArrayLength := by
  have counted : ∀ count, ((items :: arguments.map (joinedPart memory)).foldl (· ++ ·)
      (Array.emptyWithCapacity count)).size = (arguments.map (joinedPart memory)).foldl
        (fun count part => count + part.size) items.size := by
    intro count
    rw [size_joined, List.foldl_cons]
    simp
  cases arguments with
  | nil =>
    cases ended
    exact .inl (counted _)
  | cons first rest =>
    obtain ⟨_, _, read, ended⟩ := bind_eq_ok_iff.mp ended
    cases read
    obtain ⟨_, between, passed, made⟩ := bind_eq_ok_iff.mp ended
    cases made
    rw [counted]
    exact .inr (checkArray_le passed)

theorem endsIn_changeItems (fits : memory.ArraysFit allowed limit) {id : Nat}
    {change : Array Value → Array Value}
    (may : memory.MayHold allowed limit (change (memory.items id)).size) :
    (arraysFit allowed limit).EndsIn memory (fun _ => True) (changeItems id change memory) :=
  ⟨trivial, ArraysFit.setItems fits may⟩

/-- An array that does not grow keeps within what it was made within. -/
theorem keeps_changeItems (id : Nat) {change : Array Value → Array Value}
    (shorter : ∀ items, (change items).size ≤ items.size) :
    (arraysFit allowed limit).KeepsMemory (changeItems id change) :=
  fun _ fits => endsIn_changeItems fits (MayHold.shorter (MayHold.items fits id) (shorter _))

theorem keeps_pushMethod (checked : limits.maxArrayLength ≤ limit) (id : Nat) (arguments : List Value) :
    (arraysFit allowed limit).KeepsMemory (pushMethod limits id arguments) := by
  intro memory fits
  refine (reads_checkArray ((memory.items id).size + arguments.length)).bind_ends fits
    fun _ passed => (endsIn_changeItems fits (.inl ?_)).bind fun _ between _ holds _ =>
      Invariant.Keeps.pure trivial between holds
  rw [Array.size_append, List.size_toArray]
  exact Nat.le_trans (checkArray_le passed) checked

theorem keeps_takeItem (id : Nat) (pick : Array Value → Option Value)
    {change : Array Value → Array Value} (shorter : ∀ items, (change items).size ≤ items.size) :
    (arraysFit allowed limit).KeepsMemory (takeItem id pick change) :=
  .read fun _ _ => (keeps_changeItems id shorter).bind fun _ _ => .pure trivial

theorem endsIn_sliceItems (fits : memory.ArraysFit allowed limit) (id : Nat) (arguments : List Value) :
    (arraysFit allowed limit).EndsIn memory (fun _ => True)
      (sliceItems (memory.items id) arguments memory) := by
  refine (reads_relativeIndex _ _ _).bind_ends fits fun start _ =>
    (reads_relativeIndex _ _ _).bind_ends fits fun finish _ => endsIn_newArray fits ?_
  refine MayHold.shorter (MayHold.items fits id) ?_
  rw [Array.size_extract]
  omega

theorem endsIn_concat (checked : limits.maxArrayLength ≤ limit) (fits : memory.ArraysFit allowed limit)
    (id : Nat) (arguments : List Value) :
    (arraysFit allowed limit).EndsIn memory (fun _ => True)
      ((concatItems limits (memory.items id) arguments >>= newArray) memory) := by
  refine (reads_concatItems _ arguments).bind_ends fits fun joined ended => endsIn_newArray fits ?_
  rcases concatItems_size ended with same | counted
  · rw [same]
    exact MayHold.items fits id
  · exact .inl (Nat.le_trans counted checked)

theorem keeps_arrayMethod (checked : limits.maxArrayLength ≤ limit) {call : Caller}
    (called : (arraysFit allowed limit).CallerKeeps call) (id : Nat) (name : String)
    (arguments : List Value) :
    (arraysFit allowed limit).KeepsMemory (arrayMethod limits call id name arguments) := by
  unfold arrayMethod
  dsimp only
  split
  · exact keeps_pushMethod checked id arguments
  · refine keeps_takeItem id _ fun items => ?_
    rw [Array.size_pop]
    exact Nat.sub_le _ _
  · refine keeps_takeItem id _ fun items => ?_
    rw [← Array.length_toList, Array.toList_eraseIdxIfInBounds, List.length_eraseIdx,
      ← Array.length_toList]
    split <;> omega
  · refine (keeps_changeItems id fun items => ?_).bind fun _ _ => .pure trivial
    rw [Array.size_reverse]
  · exact ((reads_itemsOf id).bind fun items => reads_joinMethod _ items).keeps
  · exact ((reads_itemsOf id).map _).keeps
  · exact ((reads_itemsOf id).map _).keeps
  · exact .items fun _ fits => endsIn_sliceItems fits id arguments
  · exact .items fun _ fits => endsIn_concat checked fits id arguments
  · split
    · rename_i method is_method
      refine .items fun memory fits => ?_
      refine Invariant.endsIn_callbackMethod? (fun _ => trivial) called trivial (fun _ _ => trivial)
        fits (fun between values holds later short _ => endsIn_newArray holds ?_) (fun _ _ => trivial)
        name is_method
      rw [Array.length_toList] at short
      exact MayHold.shorter (MayHold.later (MayHold.items fits id) later) short
    · exact .fault _

/-! ## Keys and strings -/

theorem keeps_setIndex (checked : limits.maxArrayLength ≤ limit) (object key value : Value) :
    (arraysFit allowed limit).KeepsMemory (setIndex limits object key value) := by
  unfold setIndex
  cases object with
  | array id =>
    dsimp only
    split
    · exact .read fun _ _ => .fault _
    · rename_i index _
      intro memory fits
      refine (reads_checkArray (index + 1)).bind_ends fits fun _ passed => ⟨trivial, ?_⟩
      refine ArraysFit.setItems fits ?_
      rw [size_writeItem]
      rcases Nat.le_total (memory.items id).size (index + 1) with longer | shorter
      · rw [Nat.max_eq_right longer]
        exact .inl (Nat.le_trans (checkArray_le passed) checked)
      · rw [Nat.max_eq_left shorter]
        exact MayHold.items fits id
  | object id =>
    exact (reads_text key).keeps.bind fun name _ => .modify fun _ fits =>
      ArraysFit.setEntries fits id fun entries => size_le_set entries name value
  | _ => exact .read fun _ _ => .fault _

theorem keeps_splitMethod (checked : limits.maxArrayLength ≤ limit) (whole : 1 ≤ limit)
    (subject separator : String) (value : Value) :
    (arraysFit allowed limit).KeepsMemory (splitMethod limits subject separator value) := by
  have passes : ∀ length, (arraysFit allowed limit).Keeps (fun _ => length ≤ limit)
      (limits.checkArray length) := fun length =>
    (reads_checkArray length).gives fun _ _ passed => Nat.le_trans (checkArray_le passed) checked
  unfold splitMethod
  split
  · exact keeps_newArray whole
  · split
    · refine (passes _).bind fun _ fits => keeps_newArray ?_
      rwa [List.size_toArray, List.length_map, String.length_toList]
    · refine (passes _).bind fun _ fits => keeps_newArray ?_
      rwa [List.size_toArray, List.length_map]

theorem keeps_stringMethod (checked : limits.maxArrayLength ≤ limit) (subject : String) {name : String}
    (whole : name = "split" → 1 ≤ limit) (arguments : List Value) :
    (arraysFit allowed limit).KeepsMemory (stringMethod limits subject name arguments) := by
  refine (reads_text _).keeps.bind fun text _ => ?_
  split
  · exact (reads_replaceMethod false subject text _).keeps
  · exact (reads_replaceMethod true subject text _).keeps
  · exact .pure trivial
  · exact .pure trivial
  · exact .pure trivial
  · exact .pure trivial
  · exact .pure trivial
  · exact (reads_caseMethod _ subject).keeps
  · exact (reads_caseMethod _ subject).keeps
  · exact keeps_splitMethod checked (whole rfl) subject text _
  · exact .pure trivial
  · exact (reads_substringMethod subject arguments).keeps
  · exact (reads_sliceText subject arguments).keeps
  · exact .fault _

/-! ## JSON -/

/-- Each array of a copy is as long as in the tree. -/
theorem copies_arraysFit (allowed : Part → Prop) (limit : Nat) :
    (arraysFit allowed limit).Copies (Json.ArraysFit limit) where
  plain _ := trivial
  str _ := trivial
  items := fun | .arr _ inside => inside
  fields := fun | .obj inside => fun field is_one => ⟨trivial, inside field is_one⟩
  array := fun | .arr short _, same, _ => keeps_newArray (Nat.le_trans (Nat.le_of_eq same) short)
  object _ := keeps_newObject _

/-! ## Global objects -/

theorem keeps_assignAll (target : Nat) (sources : List Value) :
    (arraysFit allowed limit).KeepsMemory (assignAll target sources) := by
  induction sources with
  | nil => exact .pure trivial
  | cons source rest of_rest =>
    cases source with
    | object id =>
      refine .read fun memory _ => Invariant.Keeps.bind (.modify fun _ fits => ?_) fun _ _ => of_rest
      exact ArraysFit.setEntries fits target fun entries => size_le_setAll entries _
    | _ => exact of_rest

/-- There are as many pairs as entries. -/
theorem keeps_newPairs (pairs : 2 ≤ limit) (back : Array Value) (entries : List (String × Value)) :
    (arraysFit allowed limit).Keeps (fun values : Array Value => values.size = back.size + entries.length)
      (newPairs back entries) := by
  induction entries generalizing back with
  | nil => exact .pure rfl
  | cons entry rest of_rest =>
    refine (keeps_newArray pairs).bind fun pair _ =>
      (of_rest (back.push pair)).mono fun values length => ?_
    rw [length, Array.size_push, List.length_cons]
    omega

theorem keeps_objectFunction (pairs : allowed (.method "entries") → 2 ≤ limit) {name : String}
    (named : allowed (.method name)) (arguments : List Value) :
    (arraysFit allowed limit).KeepsMemory (objectFunction name arguments) := by
  refine .reading fun memory fits => ?_
  have listed := fun lists => MayHold.entriesOf fits lists (argument arguments 0)
  split
  · refine endsIn_newArray fits ?_
    rw [List.size_toArray, List.length_map]
    exact listed (.inl named)
  · refine endsIn_newArray fits ?_
    rw [List.size_toArray, List.length_map]
    exact listed (.inr (.inl named))
  · refine (keeps_newPairs (pairs named) #[] _ memory fits).bind fun values between length holds later =>
      endsIn_newArray holds ?_
    rw [length, Array.size_empty, Nat.zero_add]
    exact MayHold.later (listed (.inr (.inr named))) later
  · cases argument arguments 0 with
    | object id => exact (keeps_assignAll id arguments.tail).bind (fun _ _ => .pure trivial) memory fits
    | _ => exact Invariant.Keeps.pure trivial memory fits
  · exact Invariant.Keeps.fault _ memory fits

theorem keeps_consoleFunction (name : String) (arguments : List Value) :
    (arraysFit allowed limit).KeepsMemory (consoleFunction limits name arguments) := by
  unfold consoleFunction
  split
  · exact .read fun memory _ => (reads_checkString _).keeps.bind fun _ _ =>
      (keeps_log _).bind fun _ _ => .pure trivial
  · exact .fault _

theorem keeps_jsonFunction {name : String}
    (text : name = "parse" → limits.maxStringLength ≤ 2 * limit + 1) (arguments : List Value) :
    (arraysFit allowed limit).KeepsMemory (jsonFunction limits name arguments) := by
  unfold jsonFunction
  dsimp only
  split
  · split
    · exact .pure trivial
    · exact .read fun memory _ => (reads_checkString _).keeps.bind fun _ _ => .pure trivial
  · refine ((reads_text _).gives fun _ _ given => text_size_le given).bind fun source short => ?_
    split
    · rename_i json read
      have fits := Json.read?_arraysFit (Nat.le_trans short (text rfl)) read
      exact (copies_arraysFit allowed limit).ofJson fits
    · exact .fault _
  · exact .fault _

theorem keeps_library (covers : Covers limits allowed limit) (library : Library) {name : String}
    (named : allowed (.method name)) (arguments : List Value) :
    (arraysFit allowed limit).KeepsMemory (library.call limits name arguments) := by
  cases library with
  | math => exact (reads_mathFunction name arguments).keeps
  | object => exact keeps_objectFunction covers.pairs named arguments
  | console => exact keeps_consoleFunction name arguments
  | json =>
    refine keeps_jsonFunction (fun is_parse => covers.read ?_) arguments
    rwa [← is_parse]
  | array =>
    unfold Library.call
    dsimp only
    split
    · exact .pure trivial
    · exact .fault _

theorem keeps_objectMethod (id : Nat) (name : String) (arguments : List Value) :
    (arraysFit allowed limit).KeepsMemory (objectMethod id name arguments) := by
  refine .read fun memory _ => ?_
  split
  · exact .pure trivial
  · exact (keeps_assignAll id _).bind fun _ _ => .pure trivial
  · exact .fault _

theorem keeps_callMethod (covers : Covers limits allowed limit) {call : Caller}
    (called : (arraysFit allowed limit).CallerKeeps call) (receiver : Value) {name : String}
    (named : allowed (.method name)) (arguments : List Value) :
    (arraysFit allowed limit).KeepsMemory (callMethod limits call receiver name arguments) := by
  cases receiver with
  | library library => exact keeps_library covers library named arguments
  | array id => exact keeps_arrayMethod covers.checked called id name arguments
  | str text =>
    refine keeps_stringMethod covers.checked text (fun is_split => covers.whole ?_) arguments
    rwa [← is_split]
  | number number => exact (reads_numberMethod number name arguments).keeps
  | object id => exact keeps_objectMethod id name arguments
  | undefined | null => exact .read fun _ _ => .fault _
  | _ => exact .fault _

/-! ## All that programs do -/

/-- Every single thing that programs of allowed parts do keeps the arrays in memory within the limit. -/
theorem arraysFit_lawful (covers : Covers limits allowed limit) :
    (arraysFit allowed limit).Lawful limits where
  plain _ := trivial
  empty := trivial
  fixed _ := trivial
  tick := keeps_tick
  checkString _ := (reads_checkString _).keeps
  text value := (reads_text value).keeps
  toNumber value := (reads_toNumber value).keeps
  typeName _ := trivial
  lookup _ _ := trivial
  declare _ _ _ fits _ := ArraysFit.beside fits _ _ _ _
  closure fits found := fits.closures _ (Array.mem_of_getElem? found)
  newScope outer _ := keeps_newScope _ outer
  newFunction scope parts := keeps_newFunction scope parts
  newArray literal _ := keeps_newArray (covers.literals literal)
  newObject _ := keeps_newObject _
  getProperty object name := (reads_getProperty object name).keeps
  getIndex object key := (reads_getIndex object key).keeps
  setIndex object key value _ := keeps_setIndex covers.checked object key value
  unaryOp op value := (reads_unaryOp op value).keeps
  binaryOp op left right := (reads_binaryOp op left right).keeps
  builtin function arguments := (reads_builtin function arguments).keeps
  method named called _ _ := keeps_callMethod covers called _ named _
  iterated value := (reads_iterated value).keeps.mono fun _ _ _ _ => trivial
  keysOf value := (reads_keysOf value).keeps.mono fun _ _ _ _ => trivial

end Tabletop.Script.Lengths
