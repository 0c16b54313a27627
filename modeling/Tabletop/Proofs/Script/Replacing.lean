import Tabletop.Proofs.Script.Link.Library
import Tabletop.Proofs.Text.Pieces
import Tabletop.Script.Session

/-!
Splitting, joining and replacing. Main statement: what `split` cuts, `join` puts together again, with the
same separator as it was and with another one as `replaceAll` has it; and a replacement is refused exactly
if the text that it would give is longer than a string may be.
-/

namespace Tabletop.Script

open Text (rejoined)

variable {limits : Limits}

/-- A text, unless it is longer than a string may be. -/
def Limits.fitting (limits : Limits) (text : String) : Run String := fun memory =>
  if text.utf8ByteSize ≤ limits.maxStringLength then .ok text memory
  else .error (.sizeLimit .stringLength limits.maxStringLength) memory

/-- A value whose text does not depend on arrays and objects has that text, if it fits. -/
theorem text_of_render {value : Value} {text : String}
    (whole : ∀ memory : Memory, memory.render limits.maxStringLength value = text) :
    limits.text value = limits.fitting text := by
  funext memory
  rw [text_apply, whole, Limits.fitting]
  by_cases fits : text.utf8ByteSize ≤ limits.maxStringLength
  · rw [if_pos fits, if_neg (Nat.not_lt.mpr fits)]
  · rw [if_neg fits, if_pos (Nat.lt_of_not_le fits)]

theorem text_str (text : String) : limits.text (.str text) = limits.fitting text :=
  text_of_render fun _ => String.empty_append

theorem text_number (x : Float) : limits.text (.number x) = limits.fitting (Number.programText x) :=
  text_of_render fun _ => String.empty_append

theorem checkString_bind {α : Type} (size : Nat) (next : Run α) (memory : Memory) :
    (limits.checkString size >>= fun _ => next) memory =
      if size ≤ limits.maxStringLength then next memory
      else .error (.sizeLimit .stringLength limits.maxStringLength) memory := by
  rw [bind_apply, Limits.checkString]
  by_cases fits : size ≤ limits.maxStringLength
  · rw [if_pos fits, if_neg (Nat.not_lt.mpr fits)]
    rfl
  · rw [if_neg fits, if_pos (Nat.lt_of_not_le fits)]
    rfl

theorem fitting_bind {α : Type} (text : String) (next : String → Run α) (memory : Memory) :
    (limits.fitting text >>= next) memory =
      if text.utf8ByteSize ≤ limits.maxStringLength then next text memory
      else .error (.sizeLimit .stringLength limits.maxStringLength) memory := by
  rw [bind_apply, Limits.fitting]
  by_cases fits : text.utf8ByteSize ≤ limits.maxStringLength
  · rw [if_pos fits, if_pos fits]
  · rw [if_neg fits, if_neg fits]

/-! ## Joining -/

/-- The pieces of a text as strings. -/
def stringsOf (pieces : List (List Char)) : List Value :=
  pieces.map fun piece => .str (String.ofList piece)

/-- A string is joined, unless what there is then is too long; that it is too long itself is found
earlier. -/
theorem joinItems_str (separator : String) (first : Bool) (out piece : String) (rest : List Value)
    (memory : Memory) :
    joinItems limits separator first out (.str piece :: rest) memory =
      if ((if first then out else out ++ separator) ++ piece).utf8ByteSize ≤ limits.maxStringLength then
        joinItems limits separator false ((if first then out else out ++ separator) ++ piece) rest memory
      else .error (.sizeLimit .stringLength limits.maxStringLength) memory := by
  generalize grown : (if first then out else out ++ separator) = front
  have filled : ¬ (Value.str piece).isNullish = true := Bool.false_ne_true
  rw [Link.joinItems_cons, bind_apply, if_neg filled, text_str, Limits.fitting, grown]
  by_cases fits : piece.utf8ByteSize ≤ limits.maxStringLength
  · rw [if_pos fits]
    exact checkString_bind _ _ memory
  · have long : ¬ (front ++ piece).utf8ByteSize ≤ limits.maxStringLength := by
      rw [String.utf8ByteSize_append]
      omega
    rw [if_neg fits, if_neg long]

/-- Pieces behind a text that fits are joined to it, unless the whole is too long. -/
theorem joinItems_strings (separator : String) {out : String}
    (fits : out.utf8ByteSize ≤ limits.maxStringLength) (pieces : List (List Char)) (memory : Memory) :
    joinItems limits separator false out (stringsOf pieces) memory =
      limits.fitting (out ++ String.ofList (pieces.flatMap (separator.toList ++ ·))) memory := by
  induction pieces generalizing out with
  | nil =>
    rw [List.flatMap_nil, String.ofList_nil, String.append_empty, Limits.fitting, if_pos fits]
    rfl
  | cons piece rest of_rest =>
    have whole : out ++ separator ++ String.ofList piece ++
        String.ofList (rest.flatMap (separator.toList ++ ·)) =
          out ++ String.ofList ((piece :: rest).flatMap (separator.toList ++ ·)) := by
      rw [← String.toList_inj]
      simp
    rw [stringsOf, List.map_cons, joinItems_str, if_neg Bool.false_ne_true]
    by_cases fits_front : (out ++ separator ++ String.ofList piece).utf8ByteSize ≤ limits.maxStringLength
    · rw [if_pos fits_front, ← whole]
      exact of_rest fits_front
    · have long : ¬ (out ++ String.ofList ((piece :: rest).flatMap (separator.toList ++ ·))).utf8ByteSize ≤
          limits.maxStringLength := by
        rw [← whole, String.utf8ByteSize_append]
        omega
      rw [if_neg fits_front, Limits.fitting, if_neg long]

/-- Strings are joined, unless what they give is too long. -/
theorem join_strings (separator : String) {pieces : List (List Char)} (some_piece : pieces ≠ []) :
    joinItems limits separator true "" (stringsOf pieces) =
      limits.fitting (String.ofList (separator.toList.intercalate pieces)) := by
  funext memory
  cases pieces with
  | nil => exact absurd rfl some_piece
  | cons piece rest =>
    have whole : String.ofList piece ++ String.ofList (rest.flatMap (separator.toList ++ ·)) =
        String.ofList (separator.toList.intercalate (piece :: rest)) := by
      rw [Text.intercalate_cons, String.ofList_append]
    rw [stringsOf, List.map_cons, joinItems_str, if_pos rfl, String.empty_append]
    by_cases fits : (String.ofList piece).utf8ByteSize ≤ limits.maxStringLength
    · rw [if_pos fits, ← whole]
      exact joinItems_strings separator fits rest memory
    · have long : ¬ (String.ofList (separator.toList.intercalate (piece :: rest))).utf8ByteSize ≤
          limits.maxStringLength := by
        rw [← whole, String.utf8ByteSize_append]
        omega
      rw [if_neg fits, Limits.fitting, if_neg long]

/-! ## Replacing -/

/-- The text from the pieces of a subject, with the replacement between the first two or between all. -/
def replaced (all : Bool) (pattern replacement : String) (pieces : List (List Char)) : String :=
  String.ofList (if all then replacement.toList.intercalate pieces
    else rejoined pattern.toList replacement.toList 1 pieces)

section

variable {subject pattern : String} {pieces : List (List Char)}
  (cut : Text.Cut pattern.toList subject.toList pieces)

theorem cut_piecesOf (some_pattern : pattern ≠ "") :
    Text.Cut pattern.toList subject.toList (piecesOf pattern subject) := by
  unfold piecesOf
  split
  · exact Text.cut_splitOn (by simpa using some_pattern) subject.toList
  · rename_i absent
    exact .nowhere fun stands => absent (String.contains_string_iff.mpr stands)

include cut

theorem replaceText_eq_rejoined (replacement : List Char) (count : Nat) :
    replaceText pattern.toList replacement count subject.toList =
      rejoined pattern.toList replacement count pieces := by
  unfold replaceText
  by_cases empty : pattern.toList = []
  · rw [empty] at cut ⊢
    rw [if_pos List.isEmpty_nil, cut.unique (.everywhere rfl), Text.rejoined_singles, List.nil_append]
  · rw [if_neg (by simpa using empty), cut.unique (Text.cut_splitOn empty subject.toList), Text.splitOn,
      ← Text.replaceFirst_eq_rejoined empty, List.reverse_nil, List.nil_append]

/-- The places are counted as they are cut. -/
theorem replacedCount_eq (all : Bool) :
    replacedCount all pattern subject =
      if all then pieces.length - 1 else min 1 (pieces.length - 1) := by
  unfold replacedCount
  by_cases stands : subject.contains pattern
  · cases all with
    | true =>
      rw [stands]
      by_cases empty : pattern.isEmpty
      · have nothing : pattern.toList = [] := by simpa using empty
        rw [nothing] at cut
        rw [cut.unique (.everywhere rfl), if_pos empty, ← String.length_toList]
        simp
      · have something : pattern.toList ≠ [] := by simpa using empty
        rw [cut.unique (Text.cut_splitOn something subject.toList), Text.splitOn, Text.length_pieces,
          if_neg empty]
        rfl
    | false =>
      have two : 2 ≤ pieces.length := by
        cases cut with
        | everywhere => simp
        | nowhere absent => exact absurd (String.contains_string_iff.mp stands) absent
        | first _ _ _ others =>
          have := List.length_pos_iff.mpr others.ne_nil
          rw [List.length_cons]
          omega
      rw [stands, if_neg Bool.false_ne_true, Nat.min_eq_left (by omega)]
      rfl
  · have absent : ¬ pattern.toList <:+: subject.toList := fun within =>
      stands (String.contains_string_iff.mpr within)
    rw [cut.unique (.nowhere absent), eq_false_of_ne_true stands]
    cases all <;> rfl

theorem rejoined_replacedCount (all : Bool) (replacement : String) :
    String.ofList (rejoined pattern.toList replacement.toList (replacedCount all pattern subject) pieces) =
      replaced all pattern replacement pieces := by
  have positive := List.length_pos_iff.mpr cut.ne_nil
  rw [replaced, replacedCount_eq cut]
  cases all with
  | true =>
    have every : pieces.length ≤ pieces.length - 1 + 1 := by omega
    rw [if_pos rfl, if_pos rfl, Text.rejoined_all every]
  | false =>
    rw [if_neg Bool.false_ne_true, if_neg Bool.false_ne_true]
    rcases Nat.lt_or_ge 1 pieces.length with more | single
    · rw [Nat.min_eq_left (by omega)]
    · rw [Text.rejoined_all (by omega), Text.rejoined_all (by omega)]

/-- What is expected of a replacement is what it gives. -/
theorem replaced_size (all : Bool) (replacement : String) :
    replacedSize subject.utf8ByteSize pattern.utf8ByteSize replacement.utf8ByteSize
      (replacedCount all pattern subject) = (replaced all pattern replacement pieces).utf8ByteSize := by
  have positive := List.length_pos_iff.mpr cut.ne_nil
  have between : replacedCount all pattern subject + 1 ≤ pieces.length := by
    rw [replacedCount_eq cut]
    split <;> omega
  have bytes := Text.byteSize_rejoined pattern.toList replacement.toList between
  -- with nothing in their place, the places are no longer than the text that they stand in
  have without := Text.byteSize_rejoined pattern.toList [] between
  rw [cut.intercalate] at bytes without
  rw [← rejoined_replacedCount cut, Text.utf8ByteSize_ofList, replacedSize, Text.utf8ByteSize_eq_byteSize,
    Text.utf8ByteSize_eq_byteSize, Text.utf8ByteSize_eq_byteSize]
  rw [Text.byteSize_nil] at without
  omega

end

/-! ## Methods -/

variable (call : Caller)

theorem join_apply {id : Nat} {memory : Memory} {pieces : List (List Char)} (some_piece : pieces ≠ [])
    (items : memory.items id = (stringsOf pieces).toArray) (separator : String) :
    callMethod limits call (.array id) "join" [.str separator] memory =
      (do
        let separator ← limits.fitting separator
        let text ← limits.fitting (String.ofList (separator.toList.intercalate pieces))
        return .str text : Run Value) memory := by
  have joined : callMethod limits call (.array id) "join" [.str separator] memory =
      (do
        let separator ← limits.text (.str separator)
        let text ← joinItems limits separator true "" (memory.items id).toList
        return .str text : Run Value) memory := rfl
  simp only [joined, text_str, items, join_strings _ some_piece]

theorem replace_apply (all : Bool) {subject pattern : String} {pieces : List (List Char)}
    (cut : Text.Cut pattern.toList subject.toList pieces) (replacement : String) :
    callMethod limits call (.str subject) (if all then "replaceAll" else "replace")
        [.str pattern, .str replacement] =
      (do
        let _ ← limits.fitting pattern
        let replacement ← limits.fitting replacement
        let text ← limits.fitting (replaced all pattern replacement pieces)
        return .str text : Run Value) := by
  have method : callMethod limits call (.str subject) (if all then "replaceAll" else "replace")
      [.str pattern, .str replacement] =
        (do
          let pattern ← limits.text (.str pattern)
          let replacement ← limits.text (.str replacement)
          limits.checkString (replacedSize subject.utf8ByteSize pattern.utf8ByteSize
            replacement.utf8ByteSize (replacedCount all pattern subject))
          return .str (String.ofList (replaceText pattern.toList replacement.toList
            (replacedCount all pattern subject) subject.toList)) : Run Value) := by
    cases all <;> rfl
  funext memory
  rw [method, text_str, text_str]
  simp only [fitting_bind, checkString_bind, replaced_size cut, replaceText_eq_rejoined cut,
    rejoined_replacedCount cut]

theorem split_apply {pattern : String} (some_pattern : pattern ≠ "") (subject : String) :
    callMethod limits call (.str subject) "split" [.str pattern] =
      (do
        let _ ← limits.fitting pattern
        limits.checkArray (piecesOf pattern subject).length
        newArray (stringsOf (piecesOf pattern subject)).toArray : Run Value) := by
  have method : callMethod limits call (.str subject) "split" [.str pattern] =
      (do
        let pattern ← limits.text (.str pattern)
        splitMethod limits subject pattern (.str pattern) : Run Value) := rfl
  have pieces : splitMethod limits subject pattern (.str pattern) =
      (do
        limits.checkArray (piecesOf pattern subject).length
        newArray (stringsOf (piecesOf pattern subject)).toArray : Run Value) := by
    unfold splitMethod
    dsimp only
    rw [if_neg (by simpa using some_pattern)]
    rfl
  funext memory
  rw [method, text_str, fitting_bind, fitting_bind, pieces]

/-- A string is split into a new array of its pieces. -/
theorem split_ok {subject pattern : String} {memory after : Memory} {value : Value}
    (some_pattern : pattern ≠ "")
    (ended : callMethod limits call (.str subject) "split" [.str pattern] memory = .ok value after) :
    pattern.utf8ByteSize ≤ limits.maxStringLength ∧ ∃ id, value = .array id ∧
      after.items id = (stringsOf (piecesOf pattern subject)).toArray := by
  rw [split_apply call some_pattern, fitting_bind] at ended
  split at ended
  · rename_i fits
    obtain ⟨_, between, -, made⟩ := bind_eq_ok_iff.mp ended
    cases made
    exact ⟨fits, _, rfl, by simp [Memory.items]⟩
  · cases ended

/-- Splitting, joining and replacing agree. What a string was split into at a pattern is joined to the
string by the pattern, and by a replacement to what `replaceAll` gives, with the same faults. And whatever
is replaced by whatever string, the result is refused exactly if it is longer than a string may be: it is
as long as was expected, and it is the text's pieces with the replacement between the first two or all. -/
theorem split_join_and_replace_agree (limits : Limits) (call : Caller) :
    (∀ (subject pattern : String) (memory after : Memory) (value : Value), pattern ≠ "" →
      callMethod limits call (.str subject) "split" [.str pattern] memory = .ok value after →
      callMethod limits call value "join" [.str pattern] after =
          (if subject.utf8ByteSize ≤ limits.maxStringLength then .ok (.str subject) after
          else .error (.sizeLimit .stringLength limits.maxStringLength) after) ∧
        ∀ replacement : String,
          callMethod limits call value "join" [.str replacement] after =
            callMethod limits call (.str subject) "replaceAll" [.str pattern, .str replacement] after) ∧
    ∀ (all : Bool) (subject pattern replacement : String) (memory : Memory),
      pattern.utf8ByteSize ≤ limits.maxStringLength → replacement.utf8ByteSize ≤ limits.maxStringLength →
      ∃ pieces, (∀ other, Text.Cut pattern.toList subject.toList other ↔ other = pieces) ∧
        let result := replaced all pattern replacement pieces
        replacedSize subject.utf8ByteSize pattern.utf8ByteSize replacement.utf8ByteSize
          (replacedCount all pattern subject) = result.utf8ByteSize ∧
        callMethod limits call (.str subject) (if all then "replaceAll" else "replace")
            [.str pattern, .str replacement] memory =
          if result.utf8ByteSize ≤ limits.maxStringLength then .ok (.str result) memory
          else .error (.sizeLimit .stringLength limits.maxStringLength) memory := by
  constructor
  · intro subject pattern memory after value some_pattern ended
    obtain ⟨pattern_fits, id, rfl, items⟩ := split_ok call some_pattern ended
    have cut : Text.Cut pattern.toList subject.toList (piecesOf pattern subject) :=
      cut_piecesOf some_pattern
    constructor
    · rw [join_apply call cut.ne_nil items, fitting_bind, if_pos pattern_fits, cut.intercalate,
        fitting_bind, String.ofList_toList]
      rfl
    · intro replacement
      have all_replaced : callMethod limits call _ (if true then "replaceAll" else "replace") _ = _ :=
        replace_apply call true cut replacement
      rw [if_pos rfl] at all_replaced
      rw [all_replaced, fitting_bind, if_pos pattern_fits]
      exact join_apply call cut.ne_nil items replacement
  · intro all subject pattern replacement memory pattern_fits replacement_fits
    obtain ⟨pieces, cut⟩ := Text.exists_cut pattern.toList subject.toList
    refine ⟨pieces, fun other => ⟨fun cut' => cut'.unique cut, fun same => same ▸ cut⟩,
      replaced_size cut all replacement, ?_⟩
    rw [replace_apply call all cut, fitting_bind, if_pos pattern_fits, fitting_bind,
      if_pos replacement_fits, fitting_bind]
    rfl

/-- The pattern stands in two places that overlap, and the first one counts; an empty one stands before
every character and at the end. -/
theorem split_join_and_replace_agree_at_overlaps :
    let limits : Limits := {}
    let call : Caller := fun _ _ => pure .undefined
    ("aa" ≠ "" ∧ ∃ value after,
      callMethod limits call (.str "baaaé") "split" [.str "aa"] Memory.fresh = .ok value after ∧
      callMethod limits call value "join" [.str "aa"] after = .ok (.str "baaaé") after ∧
      callMethod limits call value "join" [.str "x"] after =
        callMethod limits call (.str "baaaé") "replaceAll" [.str "aa", .str "x"] after) ∧
    "".utf8ByteSize ≤ limits.maxStringLength ∧ "-".utf8ByteSize ≤ limits.maxStringLength ∧
    callMethod limits call (.str "é") "replaceAll" [.str "", .str "-"] Memory.fresh =
      .ok (.str "-é-") Memory.fresh := by
  intro limits call
  obtain ⟨cut_and_joined, replaced_all⟩ := split_join_and_replace_agree limits call
  have some_pattern : "aa" ≠ "" := by decide
  refine ⟨⟨some_pattern, ?_⟩, by decide, by decide, ?_⟩
  · have pieces : piecesOf "aa" "baaaé" = [['b'], ['a', 'é']] :=
      (cut_piecesOf some_pattern).unique (Text.cut_splitOn (List.cons_ne_nil _ _) _)
    have ended : callMethod limits call (.str "baaaé") "split" [.str "aa"] Memory.fresh =
        newArray (stringsOf [['b'], ['a', 'é']]).toArray Memory.fresh := by
      rw [split_apply call some_pattern, fitting_bind, if_pos (by decide), pieces]
      rfl
    obtain ⟨joined, every⟩ := cut_and_joined "baaaé" "aa" Memory.fresh _ _ some_pattern ended
    rw [if_pos (by decide)] at joined
    exact ⟨_, _, ended, joined, every "x"⟩
  · obtain ⟨pieces, is_cut, -, ends⟩ := replaced_all true "é" "" "-" Memory.fresh (by decide) (by decide)
    have singles := (is_cut _).mp (.everywhere rfl)
    rw [← singles] at ends
    exact ends

end Tabletop.Script
