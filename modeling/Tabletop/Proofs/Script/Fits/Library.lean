import Tabletop.Proofs.Script.Fits.Memory
import Tabletop.Proofs.Script.Invariant.Callbacks
import Tabletop.Proofs.Script.Invariant.Copies

/-!
Operators and library functions keep the strings in memory within the limit, one lemma for each
function. Some check the text that they make; others cut a text, or write a number, and need not.
-/

namespace Tabletop.Script

/-- A run that keeps memory within a limit and gives a value that fits it. -/
abbrev KeepsValue (limit : Nat) (run : Run Value) : Prop := Keeps limit (Value.Fits limit) run

variable {limits : Limits}

/-! ## Small texts -/

section Small

variable {limit : Nat} (enough : Number.textBound ≤ limit)

include enough

theorem fits_char (c : Char) : (Value.str (String.singleton c)).Fits limit := by
  have small := c.utf8Size_le_four
  change (String.singleton c).utf8ByteSize ≤ limit
  rw [String.utf8ByteSize_singleton]
  exact small.trans (le_trans (by decide) enough)

theorem fits_charAt (text : String) (index : Nat) : (charAt text index).Fits limit := by
  unfold charAt
  split
  · exact fits_char enough _
  · trivial

theorem fits_typeName (value : Value) : (Value.str value.typeName).Fits limit := by
  refine le_trans ?_ enough
  unfold Value.typeName
  split <;> decide

/-- An index has 64 bits, so its text is short. -/
theorem index_size_le (index : UInt64) : (toString index).utf8ByteSize ≤ limit := by
  refine le_trans ?_ enough
  have below : index.toNat < 10 ^ 20 := lt_trans index.toNat_lt (by decide)
  have digits := (Nat.length_repr_le_iff (by decide)).mpr below
  change (Nat.repr index.toNat).utf8ByteSize ≤ 400
  rw [Text.utf8ByteSize_eq_byteSize, Number.byteSize_digits]
  omega

end Small

theorem fits_plain {limit : Nat} {value : Value} (plain : ∀ text, value ≠ .str text) :
    value.Fits limit := by
  cases value with
  | str text => exact absurd rfl (plain text)
  | _ => trivial

theorem fits_argument {limit : Nat} {arguments : List Value}
    (fit : ∀ argument ∈ arguments, Value.Fits limit argument) (index : Nat) :
    (argument arguments index).Fits limit := by
  unfold argument
  rw [List.getD_eq_getElem?_getD]
  cases found : arguments[index]? with
  | none => trivial
  | some value => exact fit value (List.mem_of_getElem? found)

/-! ## Keys and operators -/

section Keys

theorem keeps_getIndex {limit : Nat} (enough : Number.textBound ≤ limit) (object key : Value) :
    KeepsValue limit (getIndex object key) := by
  refine .read fun memory fits => ?_
  cases object with
  | undefined | null => exact .fault _
  | array id =>
    dsimp only
    split
    · rename_i index _
      refine .pure ?_
      cases found : (memory.items id)[index]? with
      | none => trivial
      | some value => exact fits.items id value (Array.mem_of_getElem? found)
    · split <;> exact .pure trivial
  | str text =>
    dsimp only
    split
    · exact .pure (fits_charAt enough text _)
    · split <;> exact .pure trivial
  | object id =>
    refine .pure ?_
    cases found : (memory.entries id).get? (memory.display key) with
    | none => trivial
    | some value => exact (fits.entries id).get? found
  | _ => exact .pure trivial

theorem keeps_getProperty {limit : Nat} (enough : Number.textBound ≤ limit) (object : Value)
    (name : String) : KeepsValue limit (getProperty object name) := by
  unfold getProperty
  split
  · exact .pure trivial
  · exact .pure trivial
  · exact keeps_getIndex enough object _

theorem fits_writeItem {limit : Nat} (index : Nat) {value : Value} (fits : value.Fits limit)
    {items : Array Value} (fit : ∀ item ∈ items, item.Fits limit) :
    ∀ item ∈ writeItem index value items, item.Fits limit := by
  unfold writeItem
  split
  · intro item is_one
    rcases Array.mem_or_eq_of_mem_setIfInBounds is_one with is_old | rfl
    · exact fit item is_old
    · exact fits
  · refine all_push (fun item is_one => ?_) fits
    rcases Array.mem_append.mp is_one with is_old | is_new
    · exact fit item is_old
    · rw [Array.eq_of_mem_replicate is_new]
      trivial

theorem keeps_setIndex (object key : Value) {value : Value}
    (fits : value.Fits limits.maxStringLength) :
    KeepsMemory limits.maxStringLength (setIndex limits object key value) := by
  unfold setIndex
  cases object with
  | array id =>
    dsimp only
    split
    · exact .read fun _ _ => .fault _
    · exact (reads_checkArray _).keeps.bind fun _ _ => .modify fun _ memory_fits =>
        ⟨memory_fits.setItems id fun _ fit => fits_writeItem _ fits fit, trivial⟩
  | object id =>
    exact (keeps_text key).bind fun name name_fits => .modify fun _ memory_fits =>
      ⟨memory_fits.setEntries id fun _ fit => fit.set name_fits fits, trivial⟩
  | _ => exact .read fun _ _ => .fault _

variable {limit : Nat}

theorem keeps_joinTexts (left right : Value) :
    KeepsValue limits.maxStringLength (joinTexts limits left right) :=
  (keeps_text left).bind fun _ _ => (keeps_text right).bind fun _ _ =>
    (keeps_checkString _).bind fun _ fits => .pure fits

theorem keeps_arithmetic (compute : Float → Float → Float) (left right : Value) :
    KeepsValue limit (arithmetic compute left right) :=
  (reads_toNumber left).keeps.bind fun _ _ =>
    (reads_toNumber right).keeps.bind fun _ _ => .pure trivial

theorem keeps_compare (texts : String → String → Bool) (numbers : Float → Float → Bool)
    (left right : Value) : KeepsValue limit (compare texts numbers left right) := by
  unfold compare
  split
  · exact .pure trivial
  · exact (reads_toNumber left).keeps.bind fun _ _ =>
      (reads_toNumber right).keeps.bind fun _ _ => .pure trivial

theorem keeps_binaryOp (op : BinaryOp) (left right : Value) :
    KeepsValue limits.maxStringLength (op.apply limits left right) := by
  cases op with
  | add =>
    unfold BinaryOp.apply
    dsimp only
    split
    · exact keeps_joinTexts left right
    · exact keeps_arithmetic _ left right
  | sub | mul | div | rem | pow => exact keeps_arithmetic _ left right
  | lt | le | gt | ge => exact keeps_compare _ _ left right
  | looseEq | looseNe => exact (reads_looseEq left right).keeps.map fun _ _ => trivial
  | strictEq | strictNe => exact .pure trivial

theorem keeps_unaryOp (enough : Number.textBound ≤ limit) (op : UnaryOp) (value : Value) :
    KeepsValue limit (op.apply value) := by
  cases op with
  | not => exact .pure trivial
  | typeof => exact .pure (fits_typeName enough value)
  | neg | plus => exact (reads_toNumber value).keeps.map fun _ _ => trivial

end Keys

/-! ## Strings and numbers -/

section Strings

/-- The size that is checked before a text is replaced in is the size of the result, unless nothing is
replaced. -/
theorem replaceText_size_le (all : Bool) (pattern replacement subject : String) :
    (String.ofList (replaceText pattern.toList replacement.toList
      (replacedCount all pattern subject) subject.toList)).utf8ByteSize ≤
      max subject.utf8ByteSize (replacedSize subject.utf8ByteSize pattern.utf8ByteSize
        replacement.utf8ByteSize (replacedCount all pattern subject)) := by
  rw [Text.utf8ByteSize_ofList, Text.utf8ByteSize_eq_byteSize, Text.utf8ByteSize_eq_byteSize,
    Text.utf8ByteSize_eq_byteSize, replacedSize]
  generalize of_count : replacedCount all pattern subject = count
  unfold replacedCount at of_count
  unfold replaceText
  by_cases empty : pattern.isEmpty
  · have nothing : pattern.toList = [] := by simpa using empty
    have places : count ≤ subject.toList.length + 1 := by
      rw [if_pos empty] at of_count
      rw [String.length_toList]
      split at of_count
      · omega
      · split at of_count <;> omega
    rw [nothing, if_pos List.isEmpty_nil, Text.byteSize_interleave _ places, Text.byteSize_nil]
    omega
  · have something : pattern.toList ≠ [] := by simpa using empty
    rw [if_neg empty] at of_count
    rw [if_neg (by simpa using empty)]
    by_cases places : count ≤ Text.occurrences pattern.toList 0 subject.toList
    · have replaced := Text.byteSize_replaceFirst something replacement.toList places
      rw [List.take_zero, Text.byteSize_nil] at replaced
      omega
    · -- a single place is replaced where the pattern stands nowhere
      have nowhere : Text.occurrences pattern.toList 0 subject.toList = 0 := by
        split at of_count
        · omega
        · split at of_count <;> omega
      rw [Text.replaceFirst_of_none _ nowhere]
      omega

theorem keeps_replaceMethod (all : Bool) {subject : String} (pattern : String) (replacement : Value)
    (fits : subject.utf8ByteSize ≤ limits.maxStringLength) :
    KeepsValue limits.maxStringLength (replaceMethod limits all subject pattern replacement) :=
  (keeps_text replacement).bind fun replacement _ => (keeps_checkString _).bind fun _ size_fits =>
    .pure ((replaceText_size_le all pattern replacement subject).trans (max_le fits size_fits))

variable (enough : Number.textBound ≤ limits.maxStringLength)

include enough

theorem keeps_splitMethod {subject : String} (separator : String) (value : Value)
    (fits : subject.utf8ByteSize ≤ limits.maxStringLength) :
    KeepsValue limits.maxStringLength (splitMethod limits subject separator value) := by
  unfold splitMethod
  split
  · exact keeps_newArray (by simpa using fits)
  · split
    · refine (reads_checkArray _).keeps.bind fun _ _ => keeps_newArray fun item is_one => ?_
      obtain ⟨c, -, rfl⟩ := List.mem_map.mp (List.mem_toArray.mp is_one)
      exact fits_char enough c
    · refine (reads_checkArray _).keeps.bind fun _ _ => keeps_newArray fun item is_one => ?_
      obtain ⟨piece, is_piece, rfl⟩ := List.mem_map.mp (List.mem_toArray.mp is_one)
      rw [Text.utf8ByteSize_eq_byteSize] at fits
      rw [Value.Fits, Text.utf8ByteSize_ofList]
      unfold piecesOf at is_piece
      split at is_piece
      · exact (Text.splitOn_size_le _ _ piece is_piece).trans fits
      · rwa [List.mem_singleton.mp is_piece]

omit enough in
theorem keeps_caseMethod (change : List Char → List Char) (subject : String) :
    KeepsValue limits.maxStringLength (caseMethod limits change subject) :=
  (keeps_checkString _).bind fun _ fits => .pure fits

omit enough in
theorem keeps_substringMethod {limit : Nat} {subject : String} (arguments : List Value)
    (fits : subject.utf8ByteSize ≤ limit) : KeepsValue limit (substringMethod subject arguments) :=
  (reads_clampedIndex _ _ _).keeps.bind fun _ _ => (reads_clampedIndex _ _ _).keeps.bind fun _ _ =>
    .pure ((Text.between_size_le _ _ subject).trans fits)

omit enough in
theorem keeps_sliceText {limit : Nat} {subject : String} (arguments : List Value)
    (fits : subject.utf8ByteSize ≤ limit) : KeepsValue limit (sliceText subject arguments) :=
  (reads_relativeIndex _ _ _).keeps.bind fun _ _ => (reads_relativeIndex _ _ _).keeps.bind fun _ _ =>
    .pure ((Text.between_size_le _ _ subject).trans fits)

theorem fits_charAtMethod (subject : String) (value : Value) :
    (charAtMethod subject value).Fits limits.maxStringLength := by
  unfold charAtMethod
  split
  · exact Nat.zero_le _
  · exact fits_charAt enough subject _

theorem keeps_stringMethod {subject : String} (name : String) (arguments : List Value)
    (fits : subject.utf8ByteSize ≤ limits.maxStringLength) :
    KeepsValue limits.maxStringLength (stringMethod limits subject name arguments) := by
  refine (keeps_text _).bind fun text _ => ?_
  split
  · exact keeps_replaceMethod false text _ fits
  · exact keeps_replaceMethod true text _ fits
  · exact .pure trivial
  · exact .pure trivial
  · exact .pure trivial
  · exact .pure trivial
  · exact .pure ((Text.trimmed_size_le subject).trans fits)
  · exact keeps_caseMethod _ subject
  · exact keeps_caseMethod _ subject
  · exact keeps_splitMethod enough text _ fits
  · exact .pure (fits_charAtMethod enough subject _)
  · exact keeps_substringMethod arguments fits
  · exact keeps_sliceText arguments fits
  · exact .fault _

theorem keeps_numberMethod (number : Float) (name : String) (arguments : List Value) :
    KeepsValue limits.maxStringLength (numberMethod number name arguments) := by
  unfold numberMethod
  split
  · exact .pure ((Number.fixedText_size_le number (Nat.min_le_right _ _)).trans enough)
  · exact .pure ((Number.programText_size_le number).trans enough)
  · exact .fault _

omit enough in
theorem keeps_builtin (function : Builtin) (arguments : List Value) :
    KeepsValue limits.maxStringLength (function.apply limits arguments) := by
  cases function with
  | parseInt | parseFloat => exact (keeps_text _).map fun _ _ => trivial
  | string =>
    cases arguments with
    | nil => exact .pure (Nat.zero_le _)
    | cons first rest => exact (keeps_text first).map fun _ fits => fits
  | number =>
    cases arguments with
    | nil => exact .pure trivial
    | cons first rest => exact (reads_toNumber first).keeps.map fun _ _ => trivial
  | isNaN => exact (reads_toNumber _).keeps.map fun _ _ => trivial

end Strings

/-! ## Arrays -/

section Arrays

variable {limit : Nat}

theorem keeps_joinItems (separator : String) (first : Bool) {out : String}
    (fits : out.utf8ByteSize ≤ limits.maxStringLength) (items : List Value) :
    Keeps limits.maxStringLength (fun text => text.utf8ByteSize ≤ limits.maxStringLength)
      (joinItems limits separator first out items) := by
  induction items generalizing first out with
  | nil => exact .pure fits
  | cons item rest of_rest =>
    rw [Link.joinItems_cons]
    have text : KeepsMemory limits.maxStringLength
        (if item.isNullish then pure "" else limits.text item : Run String) := by
      split
      · exact .pure trivial
      · exact (keeps_text item).mono fun _ _ => trivial
    exact text.bind fun text _ => (keeps_checkString _).bind fun _ fits => of_rest false fits

theorem keeps_joinMethod (separator : Value) (items : Array Value) :
    KeepsValue limits.maxStringLength (joinMethod limits separator items) := by
  unfold joinMethod
  split
  · exact (keeps_joinItems "," true (Nat.zero_le _) _).map fun _ fits => fits
  · exact (keeps_text _).bind fun separator _ =>
      (keeps_joinItems separator true (Nat.zero_le _) _).map fun _ fits => fits

theorem keeps_itemsOf (id : Nat) :
    Keeps limit (fun items : Array Value => ∀ item ∈ items, item.Fits limit) (itemsOf id) :=
  .read fun _ fits => .pure (fits.items id)

theorem fits_joinedPart {memory : Memory} (fits : memory.Fits limit) {value : Value}
    (value_fits : value.Fits limit) : ∀ item ∈ joinedPart memory value, item.Fits limit := by
  unfold joinedPart
  split
  · exact fits.items _
  · simpa using value_fits

theorem fits_joined {parts : List (Array Value)} (fit : ∀ part ∈ parts, ∀ item ∈ part, item.Fits limit)
    {start : Array Value} (start_fit : ∀ item ∈ start, item.Fits limit) :
    ∀ item ∈ parts.foldl (· ++ ·) start, item.Fits limit := by
  induction parts generalizing start with
  | nil => exact start_fit
  | cons part rest of_rest =>
    obtain ⟨part_fit, rest_fit⟩ := List.forall_mem_cons.mp fit
    refine of_rest rest_fit fun item is_one => ?_
    rcases Array.mem_append.mp is_one with is_old | is_new
    · exact start_fit item is_old
    · exact part_fit item is_new

theorem keeps_concatItems {items : Array Value} {arguments : List Value}
    (fit : ∀ item ∈ items, item.Fits limit)
    (arguments_fit : ∀ argument ∈ arguments, Value.Fits limit argument) :
    Keeps limit (fun items : Array Value => ∀ item ∈ items, item.Fits limit)
      (concatItems limits items arguments) := by
  refine .read fun memory memory_fits => ?_
  have parts_fit : ∀ part ∈ arguments.map (joinedPart memory), ∀ item ∈ part, item.Fits limit := by
    intro part is_one
    obtain ⟨value, is_value, rfl⟩ := List.mem_map.mp is_one
    exact fits_joinedPart memory_fits (arguments_fit value is_value)
  have joined := fun count => fits_joined (List.forall_mem_cons.mpr ⟨fit, parts_fit⟩)
    (show ∀ item ∈ Array.emptyWithCapacity count, Value.Fits limit item by simp)
  dsimp only
  split
  · exact .pure (joined _)
  · exact (reads_checkArray _).keeps.bind fun _ _ => .pure (joined _)

theorem keeps_sliceItems {items : Array Value} (fit : ∀ item ∈ items, item.Fits limit)
    (arguments : List Value) : KeepsValue limit (sliceItems items arguments) :=
  (reads_relativeIndex _ _ _).keeps.bind fun _ _ => (reads_relativeIndex _ _ _).keeps.bind fun _ _ =>
    keeps_newArray fun item is_one => by
      obtain ⟨index, inside, rfl⟩ := Array.mem_extract_iff_getElem.mp is_one
      exact fit _ (Array.getElem_mem _)

theorem keeps_changeItems (id : Nat) {change : Array Value → Array Value}
    (kept : ∀ items : Array Value, (∀ item ∈ items, item.Fits limit) →
      ∀ item ∈ change items, item.Fits limit) :
    KeepsMemory limit (changeItems id change) :=
  .modify fun _ fits => ⟨fits.setItems id kept, trivial⟩

theorem keeps_pushMethod (id : Nat) {arguments : List Value}
    (arguments_fit : ∀ argument ∈ arguments, Value.Fits limit argument) :
    KeepsValue limit (pushMethod limits id arguments) := by
  refine .read fun _ _ => (reads_checkArray _).keeps.bind fun _ _ => ?_
  refine (keeps_changeItems id fun items fit item is_one => ?_).bind fun _ _ => .pure trivial
  rcases Array.mem_append.mp is_one with is_old | is_new
  · exact fit item is_old
  · exact arguments_fit item (List.mem_toArray.mp is_new)

theorem keeps_takeItem (id : Nat) {pick : Array Value → Option Value}
    (picked : ∀ items : Array Value, ∀ item ∈ pick items, item ∈ items)
    {change : Array Value → Array Value} (kept : ∀ items, ∀ item ∈ change items, item ∈ items) :
    KeepsValue limit (takeItem id pick change) := by
  refine .read fun memory fits => ?_
  have taken_fits : ((pick (memory.items id)).getD .undefined).Fits limit := by
    cases taken : pick (memory.items id) with
    | none => trivial
    | some item => exact fits.items id item (picked _ item taken)
  exact (keeps_changeItems id fun items fit item is_one => fit item (kept items item is_one)).bind
    fun _ _ => .pure taken_fits

variable {call : Caller} (called : (stringsFit limits.maxStringLength).CallerKeeps call)

include called

theorem keeps_arrayMethod (id : Nat) (name : String) {arguments : List Value}
    (arguments_fit : ∀ argument ∈ arguments, Value.Fits limits.maxStringLength argument) :
    KeepsValue limits.maxStringLength (arrayMethod limits call id name arguments) := by
  unfold arrayMethod
  dsimp only
  split
  · exact keeps_pushMethod id arguments_fit
  · refine keeps_takeItem id (fun _ _ found => Array.mem_of_back? found) fun items item is_one => ?_
    rw [← Array.mem_toList_iff, Array.toList_pop] at is_one
    exact Array.mem_toList_iff.mp (List.mem_of_mem_dropLast is_one)
  · refine keeps_takeItem id (fun _ _ found => Array.mem_of_getElem? found) fun items item is_one => ?_
    rw [← Array.mem_toList_iff, Array.toList_eraseIdxIfInBounds] at is_one
    exact Array.mem_toList_iff.mp (List.mem_of_mem_eraseIdx is_one)
  · exact (keeps_changeItems id fun items fit item is_one => fit item (by simpa using is_one)).bind
      fun _ _ => .pure trivial
  · exact (keeps_itemsOf id).bind fun items _ => keeps_joinMethod _ items
  · exact (keeps_itemsOf id).map fun _ _ => trivial
  · exact (keeps_itemsOf id).map fun _ _ => trivial
  · exact (keeps_itemsOf id).bind fun items fit => keeps_sliceItems fit arguments
  · exact (keeps_itemsOf id).bind fun items fit =>
      (keeps_concatItems fit arguments_fit).bind fun joined joined_fit => keeps_newArray joined_fit
  · split
    · rename_i method is_method
      refine .items fun memory fits => ?_
      exact Invariant.endsIn_callbackMethod? fits_plain called (fits_plain (by simp))
        (fun item is_one => fits.items id item (Array.mem_toList_iff.mp is_one)) fits
        (fun between values holds _ _ fit => keeps_newArray fit between holds) arguments_fit name
        is_method
    · exact .fault _

end Arrays

/-! ## JSON -/

section Json

/-- Copies of trees that fit hold nothing longer. -/
theorem copies_fits (limit : Nat) : (stringsFit limit).Copies (Json.Fits limit) where
  plain := fits_plain
  str := fun | .str fits => fits
  items := fun | .arr inside => inside
  fields := fun | .obj names inside => fun field is_one => ⟨names field is_one, inside field is_one⟩
  array _ _ fit := keeps_newArray fun item is_one => fit item is_one
  object fit := keeps_newObject fit

end Json

/-! ## Global objects -/

section Global

variable {limit : Nat}

theorem keeps_foldNumbers (combine : Float → Float → Float) (result : Float) (values : List Value) :
    KeepsValue limit (foldNumbers combine result values) := by
  induction values generalizing result with
  | nil => exact .pure trivial
  | cons value rest of_rest => exact (reads_toNumber value).keeps.bind fun _ _ => of_rest _

theorem keeps_mathFunction (name : String) (arguments : List Value) :
    KeepsValue limit (mathFunction name arguments) := by
  refine (reads_toNumber _).keeps.bind fun x _ => ?_
  split
  · exact .pure trivial
  · exact .pure trivial
  · exact .pure trivial
  · exact .pure trivial
  · exact .pure trivial
  · exact .pure trivial
  · exact .pure trivial
  · exact (reads_toNumber _).keeps.map fun _ _ => trivial
  · exact keeps_foldNumbers _ _ arguments
  · exact keeps_foldNumbers _ _ arguments
  · exact .fault _
  · exact .fault _

theorem fits_entriesOf (enough : Number.textBound ≤ limit) {memory : Memory}
    (fits : memory.Fits limit) (value : Value) :
    ∀ entry ∈ memory.entriesOf value, entry.1.utf8ByteSize ≤ limit ∧ entry.2.Fits limit := by
  intro entry is_one
  cases value with
  | object id => exact fits.entries id entry (Array.mem_toList_iff.mp is_one)
  | array id =>
    obtain ⟨⟨item, index⟩, is_item, rfl⟩ := List.mem_map.mp is_one
    have inside := List.fst_mem_of_mem_zipIdx is_item
    exact ⟨index_size_le enough _, fits.items id item (Array.mem_toList_iff.mp inside)⟩
  | _ => cases is_one

theorem fits_setAll {entries : Entries} (fit : entries.Fit limit) {added : List (String × Value)}
    (added_fit : ∀ entry ∈ added, entry.1.utf8ByteSize ≤ limit ∧ entry.2.Fits limit) :
    (setAll entries added).Fit limit := by
  induction added generalizing entries with
  | nil => exact fit
  | cons entry rest of_rest =>
    obtain ⟨entry_fits, rest_fit⟩ := List.forall_mem_cons.mp added_fit
    exact of_rest (fit.set entry_fits.1 entry_fits.2) rest_fit

theorem keeps_assignAll (target : Nat) (sources : List Value) :
    KeepsMemory limit (assignAll target sources) := by
  induction sources with
  | nil => exact .pure trivial
  | cons source rest of_rest =>
    cases source with
    | object id =>
      refine .read fun memory fits => Invariant.Keeps.bind (.modify fun _ memory_fits => ⟨?_, trivial⟩)
        fun _ _ => of_rest
      exact memory_fits.setEntries target fun entries fit => fits_setAll fit fun entry is_one =>
        fits.entries id entry (Array.mem_toList_iff.mp is_one)
    | _ => exact of_rest

theorem keeps_newPairs {back : Array Value} (back_fit : ∀ value ∈ back, value.Fits limit)
    {entries : List (String × Value)}
    (fit : ∀ entry ∈ entries, entry.1.utf8ByteSize ≤ limit ∧ entry.2.Fits limit) :
    Keeps limit (fun pairs : Array Value => ∀ pair ∈ pairs, pair.Fits limit)
      (newPairs back entries) := by
  induction entries generalizing back with
  | nil => exact .pure back_fit
  | cons entry rest of_rest =>
    obtain ⟨⟨key_fits, value_fits⟩, rest_fit⟩ := List.forall_mem_cons.mp fit
    exact (keeps_newArray (by simp [key_fits, value_fits])).bind fun pair pair_fits =>
      of_rest (all_push back_fit pair_fits) rest_fit

theorem keeps_objectFunction (enough : Number.textBound ≤ limit) (name : String)
    {arguments : List Value} (fit : ∀ argument ∈ arguments, Value.Fits limit argument) :
    KeepsValue limit (objectFunction name arguments) := by
  refine .read fun memory fits => ?_
  have entries_fit := fits_entriesOf enough fits (argument arguments 0)
  dsimp only
  split
  · refine keeps_newArray fun key is_one => ?_
    obtain ⟨entry, is_entry, rfl⟩ := List.mem_map.mp (List.mem_toArray.mp is_one)
    exact (entries_fit entry is_entry).1
  · refine keeps_newArray fun value is_one => ?_
    obtain ⟨entry, is_entry, rfl⟩ := List.mem_map.mp (List.mem_toArray.mp is_one)
    exact (entries_fit entry is_entry).2
  · exact (keeps_newPairs (by simp) entries_fit).bind fun pairs pairs_fit => keeps_newArray pairs_fit
  · have target_fits := fits_argument fit 0
    split
    · exact (keeps_assignAll _ _).bind fun _ _ => .pure target_fits
    · exact .pure target_fits
  · exact .fault _

theorem keeps_consoleFunction (name : String) (arguments : List Value) :
    KeepsValue limit (consoleFunction limits name arguments) := by
  unfold consoleFunction
  split
  · exact .read fun memory _ => (keeps_checkString _).bind fun _ _ =>
      (keeps_log _).bind fun _ _ => .pure trivial
  · exact .fault _

theorem keeps_jsonFunction (name : String) (arguments : List Value) :
    KeepsValue limits.maxStringLength (jsonFunction limits name arguments) := by
  unfold jsonFunction
  dsimp only
  split
  · split
    · exact .pure trivial
    · exact .read fun memory _ => (keeps_checkString _).bind fun _ fits => .pure fits
  · refine (keeps_text _).bind fun text fits => ?_
    split
    · rename_i json read
      exact (copies_fits _).ofJson (Json.read?_fits fits read)
    · exact .fault _
  · exact .fault _

end Global

section Members

variable (enough : Number.textBound ≤ limits.maxStringLength)

include enough

theorem keeps_library (library : Library) (name : String) {arguments : List Value}
    (fit : ∀ argument ∈ arguments, Value.Fits limits.maxStringLength argument) :
    KeepsValue limits.maxStringLength (library.call limits name arguments) := by
  cases library with
  | math => exact keeps_mathFunction name arguments
  | object => exact keeps_objectFunction enough name fit
  | console => exact keeps_consoleFunction name arguments
  | json => exact keeps_jsonFunction name arguments
  | array =>
    unfold Library.call
    dsimp only
    split
    · exact .pure trivial
    · exact .fault _

omit enough in
theorem keeps_objectMethod {limit : Nat} (id : Nat) (name : String) (arguments : List Value) :
    KeepsValue limit (objectMethod id name arguments) := by
  refine .read fun memory _ => ?_
  split
  · exact .pure trivial
  · exact (keeps_assignAll id _).bind fun _ _ => .pure trivial
  · exact .fault _

theorem keeps_callMethod {call : Caller} (called : (stringsFit limits.maxStringLength).CallerKeeps call)
    {receiver : Value} (receiver_fits : receiver.Fits limits.maxStringLength) (name : String)
    {arguments : List Value}
    (fit : ∀ argument ∈ arguments, Value.Fits limits.maxStringLength argument) :
    KeepsValue limits.maxStringLength (callMethod limits call receiver name arguments) := by
  cases receiver with
  | library library => exact keeps_library enough library name fit
  | array id => exact keeps_arrayMethod called id name fit
  | str text => exact keeps_stringMethod enough name arguments receiver_fits
  | number number => exact keeps_numberMethod enough number name arguments
  | object id => exact keeps_objectMethod id name arguments
  | undefined | null => exact .read fun _ _ => .fault _
  | _ => exact .fault _

/-! ## All that programs do -/

theorem keeps_iterated (value : Value) :
    Keeps limits.maxStringLength (fun values => ∀ value ∈ values, Value.Fits limits.maxStringLength value)
      (iterated value) := by
  cases value with
  | array id =>
    exact (keeps_itemsOf id).map fun items fit item is_one => fit item (Array.mem_toList_iff.mp is_one)
  | str text =>
    refine .pure fun value is_one => ?_
    obtain ⟨c, -, rfl⟩ := List.mem_map.mp is_one
    exact fits_char enough c
  | _ => exact .fault _

theorem keeps_keysOf (value : Value) :
    Keeps limits.maxStringLength (fun keys => ∀ key ∈ keys, Value.Fits limits.maxStringLength key)
      (keysOf value) := by
  refine .read fun memory fits => .pure fun key is_one => ?_
  obtain ⟨entry, is_entry, rfl⟩ := List.mem_map.mp is_one
  exact (fits_entriesOf enough fits value entry is_entry).1

/-- Every single thing that programs do keeps the strings in memory within the limit. -/
theorem stringsFit_lawful : (stringsFit limits.maxStringLength).Lawful limits where
  plain := fits_plain
  empty := Nat.zero_le _
  fixed fits := fits
  tick := keeps_tick
  checkString text := keeps_checkString text.utf8ByteSize
  text value := keeps_text value
  toNumber value := (reads_toNumber value).keeps
  typeName value := fits_typeName enough value
  lookup fits found := fits.lookup? found
  declare id name _ fits value_fits := ⟨fits.declare id name value_fits, trivial⟩
  closure fits found :=
    (FunctionDef.fits_iff _).mp (fits.closures _ (Array.mem_of_getElem? found))
  newScope outer frame_fits := (keeps_newScope frame_fits outer).mono fun _ _ => trivial
  newFunction scope admits := keeps_newFunction ((FunctionDef.fits_iff _).mpr admits) scope
  newArray _ fit := keeps_newArray fun item is_one => fit item (List.mem_toArray.mp is_one)
  newObject fit := keeps_newObject fit
  getProperty object name := keeps_getProperty enough object name
  getIndex object key := keeps_getIndex enough object key
  setIndex object key _ fits := keeps_setIndex object key fits
  unaryOp op value := keeps_unaryOp enough op value
  binaryOp op left right := keeps_binaryOp op left right
  builtin function arguments := keeps_builtin function arguments
  method _ called receiver_fits fit := keeps_callMethod enough called receiver_fits _ fit
  iterated value := keeps_iterated enough value
  keysOf value := keeps_keysOf enough value

end Members
end Tabletop.Script
