import Tabletop.Proofs.Json.Sorted
import Tabletop.Proofs.Text.Size
import Mathlib.Data.List.Infix

/-!
What a JSON value that was read holds is bounded by its text. Strings take no more bytes than the text:
every scanner leaves a part of the text at its end, and a character that was written with a backslash
takes more bytes there than by itself. An array has fewer than half as many items as the text has
characters, since each item takes one and is followed by a comma or by the bracket.
-/

namespace Tabletop.Json

/-- Values whose strings, names of fields included, take no more bytes than a limit. -/
inductive Fits (limit : Nat) : Json → Prop where
  | null : Fits limit .null
  | bool (value : Bool) : Fits limit (.bool value)
  | int (value : Int) : Fits limit (.int value)
  | float (value : Float) : Fits limit (.float value)
  | str {value : String} (fits : value.utf8ByteSize ≤ limit) : Fits limit (.str value)
  | arr {items : List Json} (inside : ∀ item ∈ items, Fits limit item) : Fits limit (.arr items)
  | obj {fields : List (String × Json)} (names : ∀ field ∈ fields, field.1.utf8ByteSize ≤ limit)
    (inside : ∀ field ∈ fields, Fits limit field.2) : Fits limit (.obj fields)

/-- Values whose arrays have no more items than a limit. -/
inductive ArraysFit (limit : Nat) : Json → Prop where
  | null : ArraysFit limit .null
  | bool (value : Bool) : ArraysFit limit (.bool value)
  | int (value : Int) : ArraysFit limit (.int value)
  | float (value : Float) : ArraysFit limit (.float value)
  | str (value : String) : ArraysFit limit (.str value)
  | arr {items : List Json} (length : items.length ≤ limit)
    (inside : ∀ item ∈ items, ArraysFit limit item) : ArraysFit limit (.arr items)
  | obj {fields : List (String × Json)} (inside : ∀ field ∈ fields, ArraysFit limit field.2) :
    ArraysFit limit (.obj fields)

/-! ## What scanners leave -/

theorem skipGap_suffix (text : List Char) : skipGap text <:+ text := List.dropWhile_suffix _

theorem spanDigits_suffix (text : List Char) : (Number.spanDigits text).2 <:+ text := by
  rw [Number.spanDigits, List.span_eq_takeWhile_dropWhile]
  exact List.dropWhile_suffix _

theorem literal?_suffix {name text rest : List Char} (found : literal? name text = some rest) :
    rest <:+ text := by
  unfold literal? at found
  split at found
  · cases found
    exact List.drop_suffix _ _
  · cases found

theorem scanExponent?_suffix {text digits rest : List Char} {negative : Bool}
    (found : Number.scanExponent? text = some (negative, digits, rest)) : rest <:+ text := by
  unfold Number.scanExponent? at found
  split at found
  · rename_i mark after
    split at found
    · split at found
      rename_i below unsigned of_sign
      have shorter : unsigned <:+ after := by
        split at of_sign
        · cases of_sign
          exact List.suffix_cons _ _
        · cases of_sign
          exact List.suffix_cons _ _
        · cases of_sign
          exact List.suffix_rfl
      split at found
      · cases found
      · rename_i of_span
        have left := spanDigits_suffix unsigned
        rw [of_span] at left
        cases found
        exact (left.trans shorter).trans (List.suffix_cons _ _)
    · cases found
  · cases found

/-- The last part of a numeral is its exponent. -/
theorem exponent_suffix {whole text rest : List Char} {fraction : Option (List Char)}
    {numeral : Numeral}
    (found : (match Number.scanExponent? text with
      | some (negative, digits, rest) => some (⟨whole, fraction, some (negative, digits)⟩, rest)
      | none => match text with
        | 'e' :: _ | 'E' :: _ => none
        | _ => some (⟨whole, fraction, none⟩, text)) = some (numeral, rest)) :
    rest <:+ text := by
  split at found
  · rename_i of_exponent
    cases found
    exact scanExponent?_suffix of_exponent
  · split at found
    · cases found
    · cases found
    · cases found
      exact List.suffix_rfl

/-- What is left of a text of which at least one character was taken away. -/
structure Takes (text rest : List Char) : Prop where
  suffix : rest <:+ text
  shorter : rest.length < text.length

theorem Takes.cons {c : Char} {text rest : List Char} (suffix : rest <:+ text) : Takes (c :: text) rest :=
  ⟨suffix.trans (List.suffix_cons _ _), Nat.lt_succ_of_le suffix.length_le⟩

theorem Takes.since {text longer rest : List Char} (takes : Takes text rest) (suffix : text <:+ longer) :
    Takes longer rest :=
  ⟨takes.suffix.trans suffix, Nat.lt_of_lt_of_le takes.shorter suffix.length_le⟩

theorem Takes.then {text rest after : List Char} (takes : Takes text rest) (suffix : after <:+ rest) :
    Takes text after :=
  ⟨suffix.trans takes.suffix, Nat.lt_of_le_of_lt suffix.length_le takes.shorter⟩

/-- A numeral has a digit at its front. -/
theorem scanNumeral?_takes {text rest : List Char} {numeral : Numeral}
    (found : scanNumeral? text = some (numeral, rest)) : Takes text rest := by
  unfold scanNumeral? at found
  have parted := List.takeWhile_append_dropWhile (p := Char.isDigit) (l := text)
  rw [Number.spanDigits, List.span_eq_takeWhile_dropWhile] at found
  generalize text.takeWhile Char.isDigit = whole at found parted
  generalize text.dropWhile Char.isDigit = left at found parted
  dsimp only at found
  split at found
  · cases found
  · rename_i with_digit
    have suffix : rest <:+ left := by
      split at found
      · rename_i more
        split at found
        · cases found
        · rename_i of_span
          have after_point := spanDigits_suffix more
          rw [of_span] at after_point
          exact (exponent_suffix found).trans (after_point.trans (List.suffix_cons _ _))
      · exact exponent_suffix found
    rw [← parted]
    cases whole with
    | nil => simp at with_digit
    | cons digit digits => exact .cons (suffix.trans (List.suffix_append _ _))

theorem readNumber_takes {negative : Bool} {text rest : List Char} {json : Json}
    (found : readNumber negative text = some (json, rest)) : Takes text rest := by
  unfold readNumber at found
  split at found
  · rename_i scanned
    obtain ⟨_, _, found⟩ := Option.map_eq_some_iff.mp found
    cases found
    exact scanNumeral?_takes scanned
  · cases found

/-! ## Strings -/

theorem utf8Size_escape? {letter plain : Char} (escape : escape? letter = some plain) :
    plain.utf8Size = 1 := by
  unfold escape? at escape
  repeat' split at escape
  all_goals cases escape
  all_goals decide

/-- A character may be added for characters of the text that take as many bytes at least. -/
theorem string_fits_of_rest {value : String} {back text rest : List Char} {c : Char}
    (written : List Char) (enough : c.utf8Size ≤ Text.byteSize written)
    (fits : value.utf8ByteSize ≤ Text.byteSize (c :: back) + Text.byteSize text ∧ rest <:+ text) :
    value.utf8ByteSize ≤ Text.byteSize back + Text.byteSize (written ++ text) ∧
      rest <:+ written ++ text := by
  rw [Text.byteSize_cons] at fits
  rw [Text.byteSize_append]
  exact ⟨by omega, fits.2.trans (List.suffix_append _ _)⟩

theorem utf8Size_le_of_four {written : List Char} (four : 4 ≤ written.length) (c : Char) :
    c.utf8Size ≤ Text.byteSize written :=
  c.utf8Size_le_four.trans (four.trans (Text.length_le_byteSize written))

/-- A string that was read takes no more bytes than its text. -/
theorem readString_fits {back text rest : List Char} {value : String}
    (read : readString back text = some (value, rest)) :
    value.utf8ByteSize ≤ Text.byteSize back + Text.byteSize text ∧ rest <:+ text := by
  fun_induction readString back text with
  | case1 | case3 | case4 | case5 | case7 | case8 | case11 | case12 => cases read
  | case2 back after =>
    cases read
    simp
  | case6 back a b c d unit _ _ _ a' b' c' d' after low _ _ code of_rest =>
    exact string_fits_of_rest ['\\', 'u', a, b, c, d, '\\', 'u', a', b', c', d']
      (utf8Size_le_of_four (by simp) _) (of_rest read)
  | case9 back a b c d after unit _ _ _ of_rest =>
    exact string_fits_of_rest ['\\', 'u', a, b, c, d] (utf8Size_le_of_four (by simp) _)
      (of_rest read)
  | case10 back letter after _ plain escape of_rest =>
    refine string_fits_of_rest ['\\', letter] ?_ (of_rest read)
    rw [utf8Size_escape? escape]
    exact Nat.le_add_right 1 _
  | case13 back c after _ _ _ _ of_rest => exact string_fits_of_rest [c] (by simp) (of_rest read)

/-! ## Values -/

section

variable {bytes length : Nat}

/-- A text with no more bytes than a string may have, and too short for an array longer than allowed. -/
structure Bounds (bytes length : Nat) (text : List Char) : Prop where
  bytes : Text.byteSize text ≤ bytes
  length : text.length ≤ 2 * length + 1

theorem Bounds.part {text longer : List Char} (bounds : Bounds bytes length longer)
    (suffix : text <:+ longer) : Bounds bytes length text :=
  ⟨(Text.byteSize_le_of_sublist suffix.sublist).trans bounds.bytes,
    suffix.length_le.trans bounds.length⟩

structure Within (bytes length : Nat) (json : Json) : Prop where
  strings : json.Fits bytes
  arrays : json.ArraysFit length

def ReadWithin (bytes length : Nat) (text : List Char) : Option (Json × List Char) → Prop
  | some (json, rest) => json.Within bytes length ∧ Takes text rest
  | none => True

theorem ReadWithin.since {text longer : List Char} {read : Option (Json × List Char)}
    (within : ReadWithin bytes length text read) (suffix : text <:+ longer) :
    ReadWithin bytes length longer read := by
  cases read with
  | none => trivial
  | some found => exact ⟨within.1, within.2.since suffix⟩

theorem ofDecimal?_float {decimal : Number.Decimal} {json : Json}
    (read : ofDecimal? decimal = some json) : ∃ value, json = .float value := by
  unfold ofDecimal? at read
  dsimp only at read
  split at read
  · cases read
  · cases read
    exact ⟨_, rfl⟩

theorem value?_within {numeral : Numeral} {negative : Bool} {json : Json}
    (read : numeral.value? negative = some json) : json.Within bytes length := by
  have float : (∃ value, json = .float value) → json.Within bytes length := by
    rintro ⟨value, rfl⟩
    exact ⟨.float _, .float _⟩
  unfold Numeral.value? at read
  split at read
  · split at read
    · split at read
      · cases read
        exact ⟨.float _, .float _⟩
      · cases read
        exact ⟨.int _, .int _⟩
    · exact float (ofDecimal?_float read)
  · exact float (ofDecimal?_float read)

theorem readNumber_within (negative : Bool) (text : List Char) :
    ReadWithin bytes length text (readNumber negative text) := by
  cases read : readNumber negative text with
  | none => trivial
  | some found =>
    refine ⟨?_, readNumber_takes read⟩
    unfold readNumber at read
    split at read
    · obtain ⟨json, of_value, same⟩ := Option.map_eq_some_iff.mp read
      cases same
      exact value?_within of_value
    · cases read

theorem literal_within {json : Json} (within : json.Within bytes length) (first : Char)
    (name text : List Char) :
    ReadWithin bytes length (first :: text) ((literal? name text).map (json, ·)) := by
  cases found : literal? name text with
  | none => trivial
  | some rest => exact ⟨within, .cons (literal?_suffix found)⟩

section

variable {fuel : Nat}
  (of_items : ∀ levels back text, Bounds bytes length text → (∀ item ∈ back, item.Within bytes length) →
    2 * back.length + text.length ≤ 2 * length →
    ReadWithin bytes length text (readItems fuel levels [] back text))
  (of_fields : ∀ levels back text, Bounds bytes length text →
    (∀ field ∈ back, field.1.utf8ByteSize ≤ bytes ∧ field.2.Within bytes length) →
    ReadWithin bytes length text (readFields fuel levels .whole back text))

include of_items of_fields in
theorem readValue_within (levels : Nat) {text : List Char} (bounds : Bounds bytes length text) :
    ReadWithin bytes length text (readValue (fuel + 1) levels .whole text) := by
  refine ReadWithin.since ?_ (skipGap_suffix text)
  have gap_bounds := bounds.part (skipGap_suffix text)
  rw [readValue]
  generalize skipGap text = text at gap_bounds
  split
  · rename_i rest
    have inside := (gap_bounds.part (List.suffix_cons _ _)).part (skipGap_suffix rest)
    have shorter := (skipGap_suffix rest).length_le
    have whole := gap_bounds.length
    rw [List.length_cons] at whole
    split
    · trivial
    · refine ReadWithin.since ?_ ((skipGap_suffix rest).trans (List.suffix_cons _ _))
      split
      · rename_i of_gap
        rw [of_gap]
        exact ⟨⟨.arr (by simp), .arr (by simp) (by simp)⟩, .cons List.suffix_rfl⟩
      · exact of_items _ [] _ inside (by simp) (by simp only [List.length_nil]; omega)
  · rename_i rest
    have inside := (gap_bounds.part (List.suffix_cons _ _)).part (skipGap_suffix rest)
    split
    · trivial
    · refine ReadWithin.since ?_ ((skipGap_suffix rest).trans (List.suffix_cons _ _))
      split
      · rename_i of_gap
        rw [of_gap]
        exact ⟨⟨.obj (by simp) (by simp), .obj (by simp)⟩, .cons List.suffix_rfl⟩
      · exact of_fields _ [] _ inside (by simp)
  · rename_i rest
    have rest_bounds := gap_bounds.part (List.suffix_cons _ _)
    cases read : readString [] rest with
    | none => trivial
    | some found =>
      obtain ⟨small, suffix⟩ := readString_fits read
      rw [Text.byteSize_nil, Nat.zero_add] at small
      exact ⟨⟨.str (small.trans rest_bounds.bytes), .str _⟩, .cons suffix⟩
  · exact (readNumber_within true _).since (List.suffix_cons _ _)
  · exact literal_within ⟨.null, .null⟩ _ _ _
  · exact literal_within ⟨.bool true, .bool true⟩ _ _ _
  · exact literal_within ⟨.bool false, .bool false⟩ _ _ _
  · exact readNumber_within false _

variable (of_value : ∀ levels text, Bounds bytes length text →
  ReadWithin bytes length text (readValue fuel levels .whole text))

include of_value of_items in
/-- An item and what stands behind it take two characters at least, which pay for the item. -/
theorem readItems_within (levels : Nat) {back : List Json} {text : List Char}
    (bounds : Bounds bytes length text) (back_within : ∀ item ∈ back, item.Within bytes length)
    (room : 2 * back.length + text.length ≤ 2 * length) :
    ReadWithin bytes length text (readItems (fuel + 1) levels [] back text) := by
  have first := of_value levels text bounds
  rw [readItems, List.headD_nil]
  split
  · trivial
  · rename_i item rest read
    rw [read] at first
    obtain ⟨item_within, takes⟩ := first
    have all_within : ∀ value ∈ item :: back, value.Within bytes length :=
      List.forall_mem_cons.mpr ⟨item_within, back_within⟩
    have left := takes.then (skipGap_suffix rest)
    have shorter := left.shorter
    split
    · rename_i after of_gap
      rw [of_gap] at left shorter
      rw [List.length_cons] at shorter
      have after_left := left.then (List.suffix_cons ',' after)
      refine (of_items levels _ after (bounds.part after_left.suffix) all_within ?_).since
        after_left.suffix
      rw [List.length_cons]
      omega
    · rename_i after of_gap
      rw [of_gap] at left shorter
      rw [List.length_cons] at shorter
      have each := fun value is_one => all_within value (List.mem_reverse.mp is_one)
      refine ⟨⟨.arr fun value is_one => (each value is_one).strings,
        .arr ?_ fun value is_one => (each value is_one).arrays⟩, left.then (List.suffix_cons _ _)⟩
      rw [List.length_reverse, List.length_cons]
      omega
    · trivial

include of_fields in
/-- What follows a field: a comma and more of them, or the closing brace. -/
theorem afterField_within (levels : Nat) {fields : List (String × Json)} {text rest : List Char}
    (bounds : Bounds bytes length text) (takes : Takes text rest)
    (fields_within : ∀ field ∈ fields, field.1.utf8ByteSize ≤ bytes ∧ field.2.Within bytes length) :
    ReadWithin bytes length text (match skipGap rest with
      | ',' :: after => readFields fuel levels .whole fields after
      | '\x7d' :: after => some (.obj fields.reverse, after)
      | _ => none) := by
  have left := takes.then (skipGap_suffix rest)
  split
  · rename_i after of_gap
    rw [of_gap] at left
    have after_left := left.then (List.suffix_cons ',' after)
    exact (of_fields levels _ after (bounds.part after_left.suffix) fields_within).since
      after_left.suffix
  · rename_i after of_gap
    rw [of_gap] at left
    have each := fun field is_one => fields_within field (List.mem_reverse.mp is_one)
    exact ⟨⟨.obj (fun field is_one => (each field is_one).1) fun field is_one =>
        (each field is_one).2.strings, .obj fun field is_one => (each field is_one).2.arrays⟩,
      left.then (List.suffix_cons _ _)⟩
  · trivial

include of_value of_fields in
theorem readFields_within (levels : Nat) {back : List (String × Json)} {text : List Char}
    (bounds : Bounds bytes length text)
    (back_within : ∀ field ∈ back, field.1.utf8ByteSize ≤ bytes ∧ field.2.Within bytes length) :
    ReadWithin bytes length text (readFields (fuel + 1) levels .whole back text) := by
  refine ReadWithin.since ?_ (skipGap_suffix text)
  have gap_bounds := bounds.part (skipGap_suffix text)
  rw [readFields]
  generalize skipGap text = text at gap_bounds
  split
  · rename_i quoted_name
    have name_bounds := gap_bounds.part (List.suffix_cons _ _)
    refine ReadWithin.since ?_ (List.suffix_cons _ _)
    cases of_name : readString [] quoted_name with
    | none => trivial
    | some found =>
      obtain ⟨name, after_name⟩ := found
      obtain ⟨small, suffix⟩ := readString_fits of_name
      rw [Text.byteSize_nil, Nat.zero_add] at small
      have left := (skipGap_suffix after_name).trans suffix
      dsimp only
      split
      · rename_i value_text of_gap
        rw [of_gap] at left
        have value_left := (List.suffix_cons _ _).trans left
        have value_bounds := name_bounds.part value_left
        refine ReadWithin.since ?_ value_left
        have first := of_value levels value_text value_bounds
        cases read : readValue fuel levels .whole value_text with
        | none =>
          simp only [Form.field?, read, Option.map_none]
          trivial
        | some found =>
          obtain ⟨value, rest⟩ := found
          rw [read] at first
          simp only [Form.field?, read, Option.map_some]
          exact afterField_within of_fields levels value_bounds first.2
            (List.forall_mem_cons.mpr ⟨⟨small.trans name_bounds.bytes, first.1⟩, back_within⟩)
      · trivial
  · trivial

end

theorem reads_within (fuel : Nat) :
    (∀ levels text, Bounds bytes length text →
      ReadWithin bytes length text (readValue fuel levels .whole text)) ∧
    (∀ levels back text, Bounds bytes length text → (∀ item ∈ back, item.Within bytes length) →
      2 * back.length + text.length ≤ 2 * length →
      ReadWithin bytes length text (readItems fuel levels [] back text)) ∧
    ∀ levels back text, Bounds bytes length text →
      (∀ field ∈ back, field.1.utf8ByteSize ≤ bytes ∧ field.2.Within bytes length) →
      ReadWithin bytes length text (readFields fuel levels .whole back text) := by
  induction fuel with
  | zero =>
    refine ⟨fun _ _ _ => ?_, fun _ _ _ _ _ _ => ?_, fun _ _ _ _ _ => ?_⟩
    · rw [readValue]
      trivial
    · rw [readItems]
      trivial
    · rw [readFields]
      trivial
  | succ fuel of_fuel =>
    obtain ⟨of_value, of_items, of_fields⟩ := of_fuel
    exact ⟨fun levels _ bounds => readValue_within of_items of_fields levels bounds,
      fun levels _ _ bounds back_within room =>
        readItems_within of_items of_value levels bounds back_within room,
      fun levels _ _ bounds back_within =>
        readFields_within of_fields of_value levels bounds back_within⟩

/-! ## Sorted values -/

theorem mem_of_lastOfEach {fields : List (String × Json)} {field : String × Json}
    (is_kept : field ∈ lastOfEach (byName fields)) : field ∈ fields :=
  (byName_perm fields).mem_iff.mp ((lastOfEach_sublist _).subset is_kept)

theorem Fits.object {limit : Nat} {fields : List (String × Json)}
    (names : ∀ field ∈ fields, field.1.utf8ByteSize ≤ limit)
    (inside : ∀ field ∈ fields, field.2.Fits limit) : (Json.object fields).Fits limit :=
  .obj (fun field is_kept => names field (mem_of_lastOfEach is_kept)) fun field is_kept =>
    inside field (mem_of_lastOfEach is_kept)

theorem Fits.sorted {limit : Nat} {json : Json} (fits : json.Fits limit) : json.sorted.Fits limit := by
  induction fits with
  | null => exact .null
  | bool value => exact .bool value
  | int value => exact .int value
  | float value => exact .float value
  | str fits => exact .str fits
  | arr _ each =>
    rw [sorted_arr]
    exact .arr (List.forall_mem_map.mpr each)
  | obj names _ each =>
    rw [sorted_obj]
    exact .object (List.forall_mem_map.mpr names) (List.forall_mem_map.mpr each)

theorem ArraysFit.sorted {limit : Nat} {json : Json} (fits : json.ArraysFit limit) :
    json.sorted.ArraysFit limit := by
  induction fits with
  | null => exact .null
  | bool value => exact .bool value
  | int value => exact .int value
  | float value => exact .float value
  | str value => exact .str value
  | arr short _ each =>
    rw [sorted_arr]
    exact .arr (by rwa [List.length_map]) (List.forall_mem_map.mpr each)
  | obj _ each =>
    rw [sorted_obj]
    refine .obj fun field is_kept => ?_
    obtain ⟨original, is_original, rfl⟩ := List.mem_map.mp (mem_of_lastOfEach is_kept)
    exact each original is_original

/-! ## Texts -/

theorem read?_within {text : String} {json : Json} (bounds : Bounds bytes length text.toList)
    (read : read? text = some json) : json.Within bytes length := by
  obtain ⟨value, of_value, rfl⟩ := Option.map_eq_some_iff.mp read
  have within := (reads_within (text.toList.length + 1)).1 depthLimit text.toList bounds
  unfold readAs? at of_value
  dsimp only at of_value
  split at of_value
  · rename_i found
    rw [found] at within
    split at of_value
    · cases of_value
      exact ⟨within.1.strings.sorted, within.1.arrays.sorted⟩
    · cases of_value
  · cases of_value

/-- The strings of a value take no more bytes than the text that it was read from. -/
theorem read?_fits {limit : Nat} {text : String} {json : Json} (fits : text.utf8ByteSize ≤ limit)
    (read : read? text = some json) : json.Fits limit := by
  rw [Text.utf8ByteSize_eq_byteSize] at fits
  have bounds : Bounds limit text.toList.length text.toList := ⟨fits, by omega⟩
  exact (read?_within bounds read).strings

/-- Two characters of the text for each item of an array, and a bracket. -/
theorem read?_arraysFit {limit : Nat} {text : String} {json : Json}
    (short : text.utf8ByteSize ≤ 2 * limit + 1) (read : read? text = some json) :
    json.ArraysFit limit := by
  rw [Text.utf8ByteSize_eq_byteSize] at short
  have bounds : Bounds (Text.byteSize text.toList) limit text.toList :=
    ⟨Nat.le_refl _, (Text.length_le_byteSize _).trans short⟩
  exact (read?_within bounds read).arrays

end
end Tabletop.Json
