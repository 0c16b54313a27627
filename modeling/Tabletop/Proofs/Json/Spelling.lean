import Tabletop.Proofs.Json.Scalar

/-!
The texts that spell a JSON value, with gaps wherever they may stand, and that reading one of them
gives the value. Fuel is never short: every value and every item that is read takes a character.
-/

namespace Tabletop.Json

/-- Blanks as they may stand between the parts of a JSON text. -/
def Gap (text : List Char) : Prop := ∀ c ∈ text, isGap c

mutual
/-- A text spells a value in which arrays and objects stand at most `levels` deep. -/
inductive Spells : (levels : Nat) → Json → List Char → Prop where
  | scalar {levels : Nat} {json : Json} {text : List Char} (reads : Reads json text) :
    Spells levels json text
  | emptyArray {levels : Nat} : Spells (levels + 1) (.arr []) ['[', ']']
  | array {levels : Nat} {items : List Json} {text : List Char}
    (inside : SpellsItems levels items text) : Spells (levels + 1) (.arr items) ('[' :: text)
  | emptyObject {levels : Nat} : Spells (levels + 1) (.obj []) ['\x7b', '\x7d']
  | object {levels : Nat} {fields : List (String × Json)} {text : List Char}
    (inside : SpellsFields levels fields text) : Spells (levels + 1) (.obj fields) ('\x7b' :: text)
/-- A text spells items up to the closing bracket. -/
inductive SpellsItems : (levels : Nat) → List Json → List Char → Prop where
  | last {levels : Nat} {item : Json} {before text after : List Char} (gap_before : Gap before)
    (spells : Spells levels item text) (gap_after : Gap after) :
    SpellsItems levels [item] (before ++ (text ++ (after ++ [']'])))
  | cons {levels : Nat} {item : Json} {before text more : List Char} {rest : List Json}
    (gap_before : Gap before) (spells : Spells levels item text)
    (spells_rest : SpellsItems levels rest more) :
    SpellsItems levels (item :: rest) (before ++ (text ++ ',' :: more))
/-- A text spells fields up to the closing brace. -/
inductive SpellsFields : (levels : Nat) → List (String × Json) → List Char → Prop where
  | last {levels : Nat} {name : String} {value : Json} {before between text after : List Char}
    (gap_before : Gap before) (gap_between : Gap between) (spells : Spells levels value text)
    (gap_after : Gap after) :
    SpellsFields levels [(name, value)]
      (before ++ ((quoted name).toList ++ ':' :: (between ++ (text ++ (after ++ ['\x7d'])))))
  | cons {levels : Nat} {name : String} {value : Json} {before between text more : List Char}
    {rest : List (String × Json)} (gap_before : Gap before) (gap_between : Gap between)
    (spells : Spells levels value text) (spells_rest : SpellsFields levels rest more) :
    SpellsFields levels ((name, value) :: rest)
      (before ++ ((quoted name).toList ++ ':' :: (between ++ (text ++ ',' :: more))))
end

section

theorem gap_nil : Gap [] := by simp [Gap]

theorem skipGap_append {gap : List Char} (blank : Gap gap) (text : List Char) :
    skipGap (gap ++ text) = skipGap text := by
  induction gap with
  | nil => rfl
  | cons c rest of_rest =>
    have first := blank c (by simp)
    have others : Gap rest := fun d is_one => blank d (by simp [is_one])
    rw [← of_rest others]
    simp [skipGap, first]

/-- No number goes on with a gap. -/
theorem stops_gap {gap : List Char} (blank : Gap gap) {c : Char} (plain : isNumeric c = false)
    (rest : List Char) : Text.Stops isNumeric (gap ++ c :: rest) := by
  cases gap with
  | nil => exact Text.stops_cons.mpr plain
  | cons d more =>
    have first : isGap d := blank d (by simp)
    simp only [isGap, Bool.or_eq_true, decide_eq_true_eq] at first
    rcases first with ((rfl | rfl) | rfl) | rfl
    all_goals exact Text.stops_cons.mpr rfl

theorem skipGap_skipGap (text : List Char) : skipGap (skipGap text) = skipGap text :=
  (Text.stops_dropWhile text).dropWhile

/-- A gap before a value is passed over. -/
theorem readValue_skipGap (fuel levels : Nat) (form : Form) (text : List Char) :
    readValue fuel levels form (skipGap text) = readValue fuel levels form text := by
  cases fuel with
  | zero => rfl
  | succ fuel => rw [readValue, readValue, skipGap_skipGap]

theorem readValue_gap {gap : List Char} (blank : Gap gap) (fuel levels : Nat) (form : Form)
    (text : List Char) :
    readValue fuel levels form (gap ++ text) = readValue fuel levels form text := by
  rw [← readValue_skipGap, skipGap_append blank, readValue_skipGap]

/-- No value begins with a closing bracket, so no items do. -/
theorem readItems_bracket (fuel levels : Nat) (forms : List Form) (back : List Json)
    (text : List Char) : readItems fuel levels forms back (']' :: text) = none := by
  cases fuel with
  | zero => rfl
  | succ fuel =>
    cases fuel with
    | zero => rfl
    | succ fuel => rfl

theorem readItems_skipGap (fuel levels : Nat) (forms : List Form) (back : List Json)
    (text : List Char) :
    readItems fuel levels forms back (skipGap text) = readItems fuel levels forms back text := by
  cases fuel with
  | zero => rfl
  | succ fuel => rw [readItems, readItems, readValue_skipGap]

theorem readFields_brace (fuel levels : Nat) (form : Form) (back : List (String × Json))
    (text : List Char) : readFields fuel levels form back ('\x7d' :: text) = none := by
  cases fuel with
  | zero => rfl
  | succ fuel => rfl

theorem readFields_skipGap (fuel levels : Nat) (form : Form) (back : List (String × Json))
    (text : List Char) :
    readFields fuel levels form back (skipGap text) = readFields fuel levels form back text := by
  cases fuel with
  | zero => rfl
  | succ fuel => rw [readFields, readFields, skipGap_skipGap]

/-- An array is read as its items are, if there are any. -/
theorem readValue_array {fuel levels : Nat} {form : Form} {text rest : List Char} {json : Json}
    (read : readItems fuel levels form.items [] text = some (json, rest)) :
    readValue (fuel + 1) (levels + 1) form ('[' :: text) = some (json, rest) := by
  have solid : skipGap ('[' :: text) = '[' :: text := rfl
  rw [← readItems_skipGap] at read
  rw [readValue, solid]
  simp only
  split
  · rename_i closed
    rw [closed, readItems_bracket] at read
    cases read
  · exact read

/-- An object is read as its fields are, if there are any. -/
theorem readValue_object {fuel levels : Nat} {form : Form} {text rest : List Char} {json : Json}
    (read : readFields fuel levels form [] text = some (json, rest)) :
    readValue (fuel + 1) (levels + 1) form ('\x7b' :: text) = some (json, rest) := by
  have solid : skipGap ('\x7b' :: text) = '\x7b' :: text := rfl
  rw [← readFields_skipGap] at read
  rw [readValue, solid]
  simp only
  split
  · rename_i closed
    rw [closed, readFields_brace] at read
    cases read
  · exact read

end

/-- A form that looks at everything in a value: all fields, and all items as a whole. -/
def Form.SeesAll (form : Form) : Json → Prop
  | .arr _ => ∀ inner ∈ form.items, inner = .whole
  | .obj fields => ∀ field ∈ fields, form.field? field.1 = some .whole
  | _ => True

theorem Form.whole_seesAll (json : Json) : Form.whole.SeesAll json := by
  cases json with
  | arr items =>
    intro inner is_inner
    cases is_inner
  | obj fields =>
    intro field _
    rfl
  | _ => trivial

/-- A form that looks at everything in a value, in some fields perhaps as records of their own. -/
inductive Form.Covers : Form → Json → Prop where
  | of_seesAll {form : Form} {json : Json} (sees : form.SeesAll json) : Covers form json
  | record {form : Form} {fields : List (String × Json)}
    (seen : ∀ field ∈ fields, (form.field? field.1).isSome)
    (inside : ∀ field ∈ fields, ∀ inner, form.field? field.1 = some inner → Covers inner field.2) :
    Covers form (.obj fields)

theorem Form.Covers.items {form : Form} {items : List Json} (covers : form.Covers (.arr items)) :
    ∀ inner ∈ form.items, inner = .whole := by
  cases covers with
  | of_seesAll sees => exact sees

theorem Form.Covers.field {form : Form} {fields : List (String × Json)}
    (covers : form.Covers (.obj fields)) :
    ∀ field ∈ fields, ∃ inner, form.field? field.1 = some inner ∧ inner.Covers field.2 := by
  intro field is_field
  cases covers with
  | of_seesAll sees => exact ⟨.whole, sees field is_field, .of_seesAll (whole_seesAll field.2)⟩
  | record seen inside =>
    obtain ⟨inner, found⟩ := Option.isSome_iff_exists.mp (seen field is_field)
    exact ⟨inner, found, inside field is_field inner found⟩

theorem Spells.ne_nil {levels : Nat} {json : Json} {text : List Char}
    (spells : Spells levels json text) : text ≠ [] := by
  rintro rfl
  cases spells with
  | scalar reads =>
    have read := reads 0 0 .whole [] Text.stops_nil
    cases read

/-- What a field's name, a colon and a value are read as. -/
theorem readFields_field {fuel levels : Nat} {form inner : Form} {back : List (String × Json)}
    {name : String} {value : Json} {before between text : List Char} (gap_before : Gap before)
    (gap_between : Gap between) (seen : form.field? name = some inner) {rest : List Char}
    (read : readValue fuel levels inner (text ++ rest) = some (value, rest)) :
    readFields (fuel + 1) levels form back
        (before ++ ((quoted name).toList ++ ':' :: (between ++ (text ++ rest)))) =
      match skipGap rest with
      | ',' :: after => readFields fuel levels form ((name, value) :: back) after
      | '\x7d' :: after => some (.obj ((name, value) :: back).reverse, after)
      | _ => none := by
  have opening (more : List Char) : (quoted name).toList ++ more =
      '"' :: (name.toList.flatMap escaped ++ '"' :: more) := by
    simp [quoted, quotedChars]
  have solid (more : List Char) : skipGap ('"' :: more) = '"' :: more := rfl
  have colon (more : List Char) : skipGap (':' :: more) = ':' :: more := rfl
  rw [readFields, skipGap_append gap_before, opening, solid]
  simp only [readString_quoted, List.reverse_nil, List.nil_append, String.ofList_toList, colon, seen,
    readValue_gap gap_between, read, Option.map_some]
  all_goals rfl

mutual
/-- Whatever spells a value is read as the value. -/
theorem Spells.read {levels : Nat} {json : Json} {text : List Char}
    (spells : Spells levels json text) {fuel : Nat} (enough : text.length ≤ fuel) {form : Form}
    (covers : form.Covers json) {rest : List Char} (stops : Text.Stops isNumeric rest) :
    readValue fuel levels form (text ++ rest) = some (json, rest) := by
  obtain ⟨fuel, rfl⟩ : ∃ less, fuel = less + 1 := by
    have some_char := List.length_pos_iff.mpr spells.ne_nil
    exact Nat.exists_eq_add_of_le' (by omega)
  match spells with
  | .scalar reads => exact reads fuel levels form rest stops
  | .emptyArray => rfl
  | .emptyObject => rfl
  | .array inside =>
    refine readValue_array ?_
    exact inside.read (Nat.le_of_succ_le_succ enough) covers.items [] rest
  | .object inside =>
    refine readValue_object ?_
    exact inside.read (Nat.le_of_succ_le_succ enough) covers.field [] rest

theorem SpellsItems.read {levels : Nat} {items : List Json} {text : List Char}
    (spells : SpellsItems levels items text) {fuel : Nat} (enough : text.length ≤ fuel)
    {forms : List Form} (whole : ∀ inner ∈ forms, inner = .whole) (back : List Json)
    (rest : List Char) :
    readItems fuel levels forms back (text ++ rest) = some (.arr (back.reverse ++ items), rest) := by
  have first_whole : forms.headD .whole = .whole := by
    cases forms with
    | nil => rfl
    | cons form others => exact whole form (by simp)
  match spells with
  | @SpellsItems.last _ _ _ text after gap_before spells gap_after =>
    simp only [List.length_append, List.length_cons, List.length_nil] at enough
    obtain ⟨fuel, rfl⟩ : ∃ less, fuel = less + 1 := Nat.exists_eq_add_of_le' (by omega)
    have stops : Text.Stops isNumeric (after ++ ']' :: rest) := stops_gap gap_after rfl rest
    have item_enough : text.length ≤ fuel := by omega
    have item_read := spells.read item_enough (.of_seesAll (Form.whole_seesAll _)) stops
    have closed : skipGap (after ++ ']' :: rest) = ']' :: rest := by
      rw [skipGap_append gap_after]
      rfl
    simp only [List.append_assoc, List.cons_append, List.nil_append]
    rw [readItems, first_whole, readValue_gap gap_before, item_read]
    simp [closed]
  | @SpellsItems.cons _ _ _ text more _ gap_before spells spells_rest =>
    simp only [List.length_append, List.length_cons] at enough
    obtain ⟨fuel, rfl⟩ : ∃ less, fuel = less + 1 := Nat.exists_eq_add_of_le' (by omega)
    have stops : Text.Stops isNumeric (',' :: (more ++ rest)) := Text.stops_cons.mpr rfl
    have item_enough : text.length ≤ fuel := by omega
    have item_read := spells.read item_enough (.of_seesAll (Form.whole_seesAll _)) stops
    have comma : skipGap (',' :: (more ++ rest)) = ',' :: (more ++ rest) := rfl
    have others_whole : ∀ inner ∈ forms.tail, inner = .whole := fun inner is_inner =>
      whole inner (List.mem_of_mem_tail is_inner)
    simp only [List.append_assoc, List.cons_append]
    rw [readItems, first_whole, readValue_gap gap_before, item_read]
    simp only [comma]
    rw [spells_rest.read (by omega) others_whole]
    simp

theorem SpellsFields.read {levels : Nat} {fields : List (String × Json)} {text : List Char}
    (spells : SpellsFields levels fields text) {fuel : Nat} (enough : text.length ≤ fuel)
    {form : Form}
    (covers : ∀ field ∈ fields, ∃ inner, form.field? field.1 = some inner ∧ inner.Covers field.2)
    (back : List (String × Json)) (rest : List Char) :
    readFields fuel levels form back (text ++ rest) =
      some (.obj (back.reverse ++ fields), rest) := by
  match spells with
  | @SpellsFields.last _ name value _ _ text after gap_before gap_between spells gap_after =>
    simp only [List.length_append, List.length_cons, List.length_nil] at enough
    obtain ⟨fuel, rfl⟩ : ∃ less, fuel = less + 1 := Nat.exists_eq_add_of_le' (by omega)
    have stops : Text.Stops isNumeric (after ++ '\x7d' :: rest) := stops_gap gap_after rfl rest
    have value_enough : text.length ≤ fuel := by omega
    obtain ⟨inner, seen, covered⟩ := covers (name, value) (by simp)
    have value_read := spells.read value_enough covered stops
    have closed : skipGap (after ++ '\x7d' :: rest) = '\x7d' :: rest := by
      rw [skipGap_append gap_after]
      rfl
    simp only [List.append_assoc, List.cons_append, List.nil_append]
    rw [readFields_field gap_before gap_between seen value_read]
    simp [closed]
  | @SpellsFields.cons _ name value _ _ text more _ gap_before gap_between spells spells_rest =>
    simp only [List.length_append, List.length_cons] at enough
    obtain ⟨fuel, rfl⟩ : ∃ less, fuel = less + 1 := Nat.exists_eq_add_of_le' (by omega)
    have stops : Text.Stops isNumeric (',' :: (more ++ rest)) := Text.stops_cons.mpr rfl
    have value_enough : text.length ≤ fuel := by omega
    obtain ⟨inner, seen, covered⟩ := covers (name, value) (by simp)
    have value_read := spells.read value_enough covered stops
    have comma : skipGap (',' :: (more ++ rest)) = ',' :: (more ++ rest) := rfl
    simp only [List.append_assoc, List.cons_append]
    rw [readFields_field gap_before gap_between seen value_read]
    simp only [comma]
    rw [spells_rest.read (by omega) fun field is_field => covers field (by simp [is_field])]
    simp
end

/-- A text that spells a value, and nothing else, is read as the value. -/
theorem readAs?_of_spells {json : Json} {text : String} (spells : Spells depthLimit json text.toList)
    {form : Form} (covers : form.Covers json) : readAs? form text = some json := by
  have read := spells.read (Nat.le_succ _) covers Text.stops_nil
  rw [List.append_nil] at read
  simp only [readAs?, read]
  rfl

end Tabletop.Json
