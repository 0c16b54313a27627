import Tabletop.Proofs.Script.Replacing
import Tabletop.Proofs.Number.Counting
import Tabletop.Proofs.Number.Length

/-!
The characters of a string by their index. Main statement: an index, `charAt`, `substring` and `slice` find
the same character, other than that `charAt` takes every index that is none for the first one; and `slice`
finds a pattern first where `indexOf` says that it is.
-/

namespace Tabletop.Text

theorem take_one_drop (text : List Char) (index : Nat) :
    (text.drop index).take 1 = text[index]?.toList := by
  rw [List.take_one, List.head?_drop]

/-- Indexes that are cut off at the length of a text are between the same characters. -/
theorem between_min (start finish : Nat) (text : String) :
    (between (min start text.length) (min finish text.length) text).toList =
      (text.toList.drop start).take (finish - start) := by
  rw [toList_between, ← String.length_toList]
  rcases Nat.le_total start text.toList.length with inside | outside
  · rw [Nat.min_eq_left inside, List.take_eq_take_iff, List.length_drop]
    omega
  · rw [Nat.min_eq_right outside, List.drop_length, List.drop_of_length_le outside, List.take_nil,
      List.take_nil]

end Tabletop.Text

namespace Tabletop.Script

open Number (isWhole wholeInt)

variable {limits : Limits} {x : Float}

/-! ## Numbers as indexes -/

/-- A whole number is an index if it is a natural number below 2^64. -/
theorem index?_number (whole : isWhole x) : (Value.number x).index? =
    if 0 ≤ wholeInt x ∧ wholeInt x < 2 ^ 64 then some (wholeInt x).toNat else none := by
  have bound : isWhole 18446744073709551616 ∧ wholeInt 18446744073709551616 = 2 ^ 64 := by
    decide +kernel
  have is_index : (0 ≤ x && isWhole x && x < 18446744073709551616) = true ↔
      0 ≤ wholeInt x ∧ wholeInt x < 2 ^ 64 := by
    rw [Bool.and_eq_true, Bool.and_eq_true, decide_eq_true_eq, decide_eq_true_eq,
      Number.zero_le_iff_of_whole whole, Number.lt_iff_wholeInt_lt whole bound.1, bound.2, and_iff_left whole]
  rw [Value.index?, indexOfNumber?]
  simp only [is_index]

theorem programText_ne_length (whole : isWhole x) : Number.programText x ≠ "length" := by
  intro same
  obtain ⟨c, is_first, starts⟩ :=
    Number.exists_head_programText (Bool.and_eq_true_iff.mp whole).1
  have letter : "length".toList.head? = some 'l' := rfl
  rw [same, letter, Option.mem_some_iff] at is_first
  subst is_first
  exact absurd starts (by decide)

theorem cappedNat_whole (whole : isWhole x) (natural : 0 ≤ wholeInt x) (bound : Nat) :
    cappedNat x bound = min (wholeInt x).toNat bound := by
  rw [cappedNat, if_pos (Bool.and_eq_true_iff.mp whole).1]
  congr 1
  unfold wholeInt at natural ⊢
  dsimp only at natural ⊢
  split at natural
  · rename_i minus
    rw [if_pos minus]
    omega
  · rename_i plus
    rw [if_neg plus]
    omega

theorem relativeIndex_number (whole : isWhole x) (natural : 0 ≤ wholeInt x) (length default : Nat)
    (memory : Memory) :
    relativeIndex (.number x) length default memory = .ok (min (wholeInt x).toNat length) memory := by
  have finite : Number.isFinite x := (Bool.and_eq_true_iff.mp whole).1
  have no_sign : ¬ x < 0 := mt (Number.lt_zero_iff_of_whole whole).mp (Int.not_lt.mpr natural)
  have step : relativeIndex (.number x) length default memory =
      (if x.isNaN then return 0
      else
        let whole := Number.truncate x
        if whole < 0 then
          let fromEnd := Float.ofNat length + whole
          return if fromEnd < 0 then 0 else cappedNat fromEnd length
        else return cappedNat whole length : Run Nat) memory := rfl
  rw [step, Number.isNaN_of_isFinite finite, Number.truncate_whole whole, if_neg Bool.false_ne_true]
  dsimp only
  rw [if_neg no_sign, cappedNat_whole whole natural]
  rfl

theorem clampedIndex_number (whole : isWhole x) (natural : 0 ≤ wholeInt x) (length default : Nat)
    (memory : Memory) :
    clampedIndex (.number x) length default memory = .ok (min (wholeInt x).toNat length) memory := by
  have finite : Number.isFinite x := (Bool.and_eq_true_iff.mp whole).1
  have no_sign : ¬ x < 0 := mt (Number.lt_zero_iff_of_whole whole).mp (Int.not_lt.mpr natural)
  have step : clampedIndex (.number x) length default memory =
      .ok (if x.isNaN || x < 0 then 0 else cappedNat x length) memory := rfl
  rw [step, Number.isNaN_of_isFinite finite, decide_eq_false no_sign, Bool.or_self,
    if_neg Bool.false_ne_true, cappedNat_whole whole natural]

/-! ## Characters -/

/-- What a string has at an index: a character, or nothing at an index that is negative or behind the end,
nor from 2^64 on, where numbers are no indexes. -/
def characterAt (subject : String) (index : Int) : Value :=
  if 0 ≤ index ∧ index < 2 ^ 64 then
    subject.toList[index.toNat]?.elim .undefined fun c => .str (String.singleton c)
  else .undefined

/-- A value, or the empty string where there is none. -/
def Value.orEmpty : Value → Value
  | .undefined => .str ""
  | value => value

theorem charAt_eq (subject : String) (index : Nat) : charAt subject index =
    subject.toList[index]?.elim .undefined fun c => .str (String.singleton c) := by
  rw [← Text.at?_eq_getElem?]
  unfold charAt
  cases Text.at? subject index <;> rfl

theorem characterAt_of_index (subject : String) {index : Int} (is_index : 0 ≤ index ∧ index < 2 ^ 64) :
    characterAt subject index = charAt subject index.toNat := by
  rw [characterAt, if_pos is_index, charAt_eq]

theorem orEmpty_charAt (subject : String) (index : Nat) :
    (charAt subject index).orEmpty = .str (String.ofList ((subject.toList.drop index).take 1)) := by
  rw [charAt_eq, Text.take_one_drop]
  cases subject.toList[index]? <;> rfl

theorem getIndex_number (subject : String) (whole : isWhole x) (memory : Memory) :
    getIndex (.str subject) (.number x) memory = .ok (characterAt subject (wholeInt x)) memory := by
  have key : memory.display (.number x) = Number.programText x := rfl
  have other_key := beq_false_of_ne (programText_ne_length whole)
  unfold getIndex
  rw [bind_apply, index?_number whole]
  dsimp only [get, getThe, MonadStateOf.get, EStateM.get]
  rw [key, other_key]
  by_cases is_index : 0 ≤ wholeInt x ∧ wholeInt x < 2 ^ 64
  · rw [if_pos is_index, characterAt_of_index subject is_index]
    rfl
  · rw [if_neg is_index, characterAt, if_neg is_index]
    rfl

/-- The index that `charAt` takes a number for: one that is none is the first. -/
def indexOrFirst (index : Int) : Int := if 0 ≤ index ∧ index < 2 ^ 64 then index else 0

theorem charAtMethod_number (subject : String) (whole : isWhole x) :
    charAtMethod subject (.number x) = (characterAt subject (indexOrFirst (wholeInt x))).orEmpty := by
  have step (value : Value) : charAtMethod subject value =
      (charAt subject (value.index?.getD 0)).orEmpty := by
    unfold charAtMethod
    cases charAt subject (value.index?.getD 0) <;> rfl
  rw [step, index?_number whole, indexOrFirst]
  by_cases is_index : 0 ≤ wholeInt x ∧ wholeInt x < 2 ^ 64
  · rw [if_pos is_index, if_pos is_index, characterAt_of_index subject is_index]
    rfl
  · rw [if_neg is_index, if_neg is_index, characterAt_of_index subject (by decide)]
    rfl

/-! ## Parts -/

section

variable {y : Float} (whole : isWhole x) (natural : 0 ≤ wholeInt x) (whole' : isWhole y)
  (natural' : 0 ≤ wholeInt y)

include whole natural whole' natural'

theorem sliceText_numbers (subject : String) (memory : Memory) :
    sliceText subject [.number x, .number y] memory =
      .ok (.str (Text.between (min (wholeInt x).toNat subject.length)
        (min (wholeInt y).toNat subject.length) subject)) memory := by
  have step : sliceText subject [.number x, .number y] =
      (do
        let start ← relativeIndex (.number x) subject.length 0
        let finish ← relativeIndex (.number y) subject.length subject.length
        return .str (Text.between start finish subject) : Run Value) := rfl
  rw [step, bind_apply, relativeIndex_number whole natural]
  dsimp only
  rw [bind_apply, relativeIndex_number whole' natural']
  rfl

theorem substringMethod_numbers (subject : String) (memory : Memory) :
    substringMethod subject [.number x, .number y] memory =
      .ok (.str (Text.between
        (min (min (wholeInt x).toNat subject.length) (min (wholeInt y).toNat subject.length))
        (max (min (wholeInt x).toNat subject.length) (min (wholeInt y).toNat subject.length))
        subject)) memory := by
  have step : substringMethod subject [.number x, .number y] =
      (do
        let a ← clampedIndex (.number x) subject.length 0
        let b ← clampedIndex (.number y) subject.length subject.length
        return .str (Text.between (min a b) (max a b) subject) : Run Value) := rfl
  rw [step, bind_apply, clampedIndex_number whole natural]
  dsimp only
  rw [bind_apply, clampedIndex_number whole' natural']
  rfl

end

/-- Doubles tell an index from the next one: they do below 2^53, and they need not beyond the end. -/
def Counted (subject : String) (index : Int) : Prop := index < 2 ^ 53 ∨ subject.length ≤ 2 ^ 53

theorem min_add_one {subject : String} (whole : isWhole x) (natural : 0 ≤ wholeInt x)
    (counted : Counted subject (wholeInt x)) :
    isWhole (x + 1) ∧ 0 ≤ wholeInt (x + 1) ∧
      min (wholeInt (x + 1)).toNat subject.length = min ((wholeInt x).toNat + 1) subject.length := by
  by_cases below : wholeInt x < 2 ^ 53
  · have countable : wholeInt x + (1 : ℕ) ≤ 2 ^ 53 := by omega
    obtain ⟨sum_whole, sum⟩ := Number.whole_add_ofNat whole natural countable
    have sum : wholeInt (x + 1) = wholeInt x + 1 := sum
    exact ⟨sum_whole, by omega, by rw [sum]; omega⟩
  · obtain ⟨sum_whole, sum⟩ := Number.whole_add_one_of_le whole (Int.not_lt.mp below)
    have short := counted.resolve_left below
    exact ⟨sum_whole, by omega, by omega⟩

theorem orEmpty_characterAt {subject : String} {index : Int} (natural : 0 ≤ index)
    (counted : Counted subject index) : (characterAt subject index).orEmpty =
      .str (String.ofList ((subject.toList.drop index.toNat).take 1)) := by
  by_cases is_index : 0 ≤ index ∧ index < 2 ^ 64
  · rw [characterAt_of_index subject is_index, orEmpty_charAt]
  · have outside : subject.toList.length ≤ index.toNat := by
      have short := counted.resolve_left (by omega)
      rw [String.length_toList]
      omega
    rw [characterAt, if_neg is_index, List.drop_of_length_le outside]
    rfl

theorem between_one (subject : String) (index : Nat) :
    Text.between (min index subject.length) (min (index + 1) subject.length) subject =
      String.ofList ((subject.toList.drop index).take 1) := by
  rw [← String.toList_inj, Text.between_min, Nat.add_sub_cancel_left, String.toList_ofList]

/-! ## Methods -/

section

variable (limits : Limits) (call : Caller) (subject : String)

/-- A method of a string gives a value for a number and other arguments, unless the text of the number is
longer than a string may be: that text is made first, whatever it is for. -/
def Answers (name : String) (x : Float) (others : List Value) (value : Value) : Prop :=
  ∀ memory, callMethod limits call (.str subject) name (.number x :: others) memory =
    if (Number.programText x).utf8ByteSize ≤ limits.maxStringLength then .ok value memory
    else .error (.sizeLimit .stringLength limits.maxStringLength) memory

variable {limits call subject}

theorem answers_of {name : String} {others : List Value} {value : Value} {run : Run Value}
    (gives : ∀ memory, run memory = .ok value memory)
    (method : callMethod limits call (.str subject) name (.number x :: others) =
      (limits.text (.number x) >>= fun _ => run)) :
    Answers limits call subject name x others value := by
  intro memory
  rw [method, text_number, fitting_bind, gives]

variable (limits call subject)

theorem answers_charAt (whole : isWhole x) : Answers limits call subject "charAt" x []
    (characterAt subject (indexOrFirst (wholeInt x))).orEmpty := by
  have gives (memory : Memory) : (return charAtMethod subject (.number x) : Run Value) memory =
      .ok (characterAt subject (indexOrFirst (wholeInt x))).orEmpty memory := by
    rw [charAtMethod_number subject whole]
    rfl
  exact answers_of gives rfl

/-- The two parts of one character are the character. -/
theorem answers_one (whole : isWhole x) (natural : 0 ≤ wholeInt x)
    (counted : Counted subject (wholeInt x)) :
    Answers limits call subject "substring" x [.number (x + 1)]
        (characterAt subject (wholeInt x)).orEmpty ∧
      Answers limits call subject "slice" x [.number (x + 1)]
        (characterAt subject (wholeInt x)).orEmpty := by
  obtain ⟨whole', natural', next⟩ := min_add_one whole natural counted
  rw [orEmpty_characterAt natural counted, ← between_one, ← next]
  have ordered : min (wholeInt x).toNat subject.length ≤ min (wholeInt (x + 1)).toNat subject.length := by
    omega
  constructor
  · have cut := substringMethod_numbers whole natural whole' natural' subject
    rw [Nat.min_eq_left ordered, Nat.max_eq_right ordered] at cut
    exact answers_of cut rfl
  · exact answers_of (sliceText_numbers whole natural whole' natural' subject) rfl

/-! ## Searching -/

theorem indexOfText?_eq (pattern : String) :
    indexOfText? pattern subject = Text.indexOf? pattern.toList subject.toList := by
  unfold indexOfText?
  split
  · rfl
  · rename_i absent
    cases found : Text.indexOf? pattern.toList subject.toList with
    | none => rfl
    | some index =>
      have stands := Text.infix_iff_exists_drop.mpr ⟨index, (Text.indexOf?_eq_some_iff.mp found).1⟩
      exact absurd (String.contains_string_iff.mpr stands) absent

theorem indexOf_apply (pattern : String) (memory : Memory) :
    callMethod limits call (.str subject) "indexOf" [.str pattern] memory =
      if pattern.utf8ByteSize ≤ limits.maxStringLength then
        .ok (.number ((Text.indexOf? pattern.toList subject.toList).elim (-1) Float.ofNat)) memory
      else .error (.sizeLimit .stringLength limits.maxStringLength) memory := by
  have method : callMethod limits call (.str subject) "indexOf" [.str pattern] =
      (limits.text (.str pattern) >>= fun text =>
        return .number ((indexOfText? text subject).elim (-1) Float.ofNat)) := by
    refine congrArg (limits.text (.str pattern) >>= ·) (funext fun text => ?_)
    cases indexOfText? text subject <;> rfl
  rw [method, text_str, fitting_bind, indexOfText?_eq]
  rfl

theorem indexOf_ok {pattern : String} {k : Float} {memory after : Memory}
    (ended : callMethod limits call (.str subject) "indexOf" [.str pattern] memory = .ok (.number k) after)
    (natural : 0 ≤ k) :
    ∃ index, Text.indexOf? pattern.toList subject.toList = some index ∧ k = Float.ofNat index := by
  rw [indexOf_apply] at ended
  split at ended
  · cases found : Text.indexOf? pattern.toList subject.toList with
    | some index =>
      rw [found] at ended
      cases ended
      exact ⟨index, rfl, rfl⟩
    | none =>
      rw [found] at ended
      cases ended
      exact absurd natural (by decide +kernel)
  · cases ended

/-- So many characters from an index on. -/
theorem answers_part (whole : isWhole x) (natural : 0 ≤ wholeInt x) {count : Nat}
    (countable : wholeInt x + count ≤ 2 ^ 53) :
    Answers limits call subject "slice" x [.number (x + Float.ofNat count)]
      (.str (String.ofList ((subject.toList.drop (wholeInt x).toNat).take count))) := by
  obtain ⟨sum_whole, sum⟩ := Number.whole_add_ofNat whole natural countable
  have many : (wholeInt (x + Float.ofNat count)).toNat - (wholeInt x).toNat = count := by omega
  have part : Text.between (min (wholeInt x).toNat subject.length)
      (min (wholeInt (x + Float.ofNat count)).toNat subject.length) subject =
        String.ofList ((subject.toList.drop (wholeInt x).toNat).take count) := by
    rw [← String.toList_inj, Text.between_min, String.toList_ofList, many]
  rw [← part]
  exact answers_of (sliceText_numbers whole natural sum_whole (by omega) subject) rfl

end

theorem getProperty_length (text : String) (memory : Memory) :
    getProperty (.str text) "length" memory = .ok (.number (Float.ofNat text.length)) memory := by
  have named : (Value.str "length").index? = none := by
    rw [Value.index?]
    decide +kernel
  have read : getProperty (.str text) "length" = getIndex (.str text) (.str "length") := rfl
  rw [read]
  unfold getIndex
  rw [bind_apply, named]
  rfl

/-- Where a search says that a pattern is, as much of the string as the pattern is long is the pattern, and
nowhere before. -/
theorem slice_of_indexOf (limits : Limits) (call : Caller) {subject pattern : String}
    (countable : subject.length ≤ 2 ^ 53) {index : Nat}
    (found : Text.indexOf? pattern.toList subject.toList = some index) :
    isWhole (Float.ofNat index) ∧
    Answers limits call subject "slice" (Float.ofNat index)
      [.number (Float.ofNat index + Float.ofNat pattern.length)] (.str pattern) ∧
    ∀ x, isWhole x → 0 ≤ x → x < Float.ofNat index → ∀ memory after,
      callMethod limits call (.str subject) "slice"
        [.number x, .number (x + Float.ofNat pattern.length)] memory ≠ .ok (.str pattern) after := by
  obtain ⟨stands, earlier⟩ := Text.indexOf?_eq_some_iff.mp found
  have within : index + pattern.length ≤ 2 ^ 53 := by
    have short := stands.length_le
    have inside : index ≤ subject.toList.length := by
      by_contra outside
      rw [List.drop_of_length_le (by omega), List.prefix_nil] at stands
      exact earlier 0 (by omega) (stands ▸ List.nil_prefix)
    rw [List.length_drop] at short
    rw [String.length_toList] at short inside
    rw [String.length_toList] at short
    omega
  obtain ⟨whole, value⟩ := Number.wholeInt_ofNat_of_le (by omega : index ≤ 2 ^ 53)
  refine ⟨whole, ?_, fun x whole' natural before memory after sliced => ?_⟩
  · have countable : wholeInt (Float.ofNat index) + pattern.length ≤ 2 ^ 53 := by omega
    have part := answers_part limits call subject whole (by omega) countable
    rw [value, Int.toNat_natCast, ← String.length_toList, ← List.prefix_iff_eq_take.mp stands,
      String.ofList_toList] at part
    rwa [← String.length_toList]
  · rw [Number.zero_le_iff_of_whole whole'] at natural
    rw [Number.lt_iff_wholeInt_lt whole' whole, value] at before
    have countable : wholeInt x + pattern.length ≤ 2 ^ 53 := by omega
    have part := answers_part limits call subject whole' natural countable
    rw [part memory] at sliced
    split at sliced
    · have same := congrArg String.toList (Value.str.inj (EStateM.Result.ok.inj sliced).1)
      rw [String.toList_ofList, ← String.length_toList] at same
      exact earlier _ (by omega) (List.prefix_iff_eq_take.mpr same.symm)
    · cases sliced

/-- The ways to look at the characters of a string agree. At an index there is a character or nothing, and
`charAt` has the same character or the empty string; only that it takes a number that is no index, a negative
one too, for the first index. From zero on, `substring` and `slice` up to the next index have it as well. And
`indexOf` gives the first index from zero on from which so many characters as the pattern has are the pattern.
Beyond 2^53 an index and the next one are the same number, which no string that short is affected by. -/
theorem characters_agree (limits : Limits) (call : Caller) (subject : String) :
    (∀ x, isWhole x →
      (∀ memory, getIndex (.str subject) (.number x) memory =
        .ok (characterAt subject (wholeInt x)) memory) ∧
      Answers limits call subject "charAt" x []
        (characterAt subject (indexOrFirst (wholeInt x))).orEmpty ∧
      (0 ≤ x → Counted subject (wholeInt x) →
        Answers limits call subject "substring" x [.number (x + 1)]
            (characterAt subject (wholeInt x)).orEmpty ∧
          Answers limits call subject "slice" x [.number (x + 1)]
            (characterAt subject (wholeInt x)).orEmpty)) ∧
    ∀ pattern k memory after, subject.length ≤ 2 ^ 53 →
      callMethod limits call (.str subject) "indexOf" [.str pattern] memory = .ok (.number k) after →
      0 ≤ k →
      isWhole k ∧
      ∃ length, getProperty (.str pattern) "length" memory = .ok (.number length) memory ∧
        Answers limits call subject "slice" k [.number (k + length)] (.str pattern) ∧
        ∀ x, isWhole x → 0 ≤ x → x < k → ∀ memory after,
          callMethod limits call (.str subject) "slice" [.number x, .number (x + length)] memory ≠
            .ok (.str pattern) after := by
  refine ⟨fun x whole => ⟨getIndex_number subject whole, answers_charAt limits call subject whole,
    fun natural counted => answers_one limits call subject whole
      ((Number.zero_le_iff_of_whole whole).mp natural) counted⟩, ?_⟩
  intro pattern k memory after countable ended natural
  obtain ⟨index, found, rfl⟩ := indexOf_ok limits call subject ended natural
  obtain ⟨whole, sliced, earlier⟩ := slice_of_indexOf limits call countable found
  exact ⟨whole, Float.ofNat pattern.length, getProperty_length pattern memory, sliced, earlier⟩

/-- Characters of one to four bytes: the third one, and where the last two stand together. -/
theorem characters_agree_beyond_ascii :
    let limits : Limits := {}
    let call : Caller := fun _ _ => pure .undefined
    let subject := "aé😀b"
    (isWhole 2 ∧ (0 : Float) ≤ 2 ∧ Counted subject (wholeInt 2) ∧
      getIndex (.str subject) (.number 2) Memory.fresh = .ok (.str "😀") Memory.fresh ∧
      Answers limits call subject "charAt" 2 [] (.str "😀") ∧
      Answers limits call subject "substring" 2 [.number (2 + 1)] (.str "😀") ∧
      Answers limits call subject "slice" 2 [.number (2 + 1)] (.str "😀")) ∧
    subject.length ≤ 2 ^ 53 ∧
    callMethod limits call (.str subject) "indexOf" [.str "😀b"] Memory.fresh =
      .ok (.number 2) Memory.fresh ∧
    ∃ length, Answers limits call subject "slice" 2 [.number (2 + length)] (.str "😀b") := by
  intro limits call subject
  obtain ⟨characters, parts⟩ := characters_agree limits call subject
  have two : isWhole 2 ∧ (0 : Float) ≤ 2 ∧ wholeInt 2 = 2 := by decide +kernel
  obtain ⟨whole, natural, value⟩ := two
  have counted : Counted subject (wholeInt 2) := .inl (by rw [value]; decide)
  have characters_are : subject.toList = ['a', 'é', '😀', 'b'] := by decide
  have third : characterAt subject (wholeInt 2) = .str "😀" ∧ indexOrFirst (wholeInt 2) = 2 := by
    rw [value, characterAt, characters_are]
    exact ⟨congrArg Value.str (by decide : String.singleton '😀' = "😀"), rfl⟩
  obtain ⟨at_index, at_char, both⟩ := characters 2 whole
  obtain ⟨of_substring, of_slice⟩ := both natural counted
  rw [third.2, ← value] at at_char
  rw [third.1] at at_index at_char of_substring of_slice
  have ended : callMethod limits call (.str subject) "indexOf" [.str "😀b"] Memory.fresh =
      .ok (.number 2) Memory.fresh := by
    have pattern_is : "😀b".toList = ['😀', 'b'] := by decide
    rw [indexOf_apply, if_pos (by decide), characters_are, pattern_is]
    rfl
  obtain ⟨-, length, -, sliced, -⟩ := parts _ _ _ _ (by decide) ended natural
  exact ⟨⟨whole, natural, counted, at_index Memory.fresh, at_char, of_substring, of_slice⟩, by decide, ended,
    length, sliced⟩

/-- A string has nothing at a negative index, and `charAt` answers with its first character there. -/
theorem negative_index_is_first_character :
    let limits : Limits := {}
    let call : Caller := fun _ _ => pure .undefined
    isWhole (-1) ∧ wholeInt (-1) = -1 ∧
      getIndex (.str "abc") (.number (-1)) Memory.fresh = .ok .undefined Memory.fresh ∧
      callMethod limits call (.str "abc") "charAt" [.number (-1)] Memory.fresh =
        .ok (.str "a") Memory.fresh := by
  intro limits call
  have minus_one : isWhole (-1) ∧ wholeInt (-1) = -1 := by decide +kernel
  obtain ⟨whole, value⟩ := minus_one
  have fits : (Number.programText (-1)).utf8ByteSize ≤ limits.maxStringLength := by decide +kernel
  refine ⟨whole, value, ?_, ?_⟩
  · rw [getIndex_number "abc" whole, value]
    rfl
  · rw [answers_charAt limits call "abc" whole, if_pos fits, value]
    rfl

end Tabletop.Script
