import Tabletop.Proofs.Json.Spelling

/-!
What the writers put out, compact or indented, spells the value that they are given, as long as its
numbers have texts of their own and it is no deeper than readers allow.
-/

namespace Tabletop.Json

/-- Values whose texts can be read: integers of 64 bits, doubles that are read back, and not too many
arrays and objects inside one another. -/
inductive Writable : (levels : Nat) → Json → Prop where
  | null {levels : Nat} : Writable levels .null
  | bool {levels : Nat} (value : Bool) : Writable levels (.bool value)
  | int {levels : Nat} {value : Int} (low : -2 ^ 63 ≤ value) (high : value < 2 ^ 64) :
    Writable levels (.int value)
  | float {levels : Nat} {value : Float} (reads : Reads (.float value) (floatText value).toList) :
    Writable levels (.float value)
  | str {levels : Nat} (value : String) : Writable levels (.str value)
  | arr {levels : Nat} {items : List Json} (inside : ∀ item ∈ items, Writable levels item) :
    Writable (levels + 1) (.arr items)
  | obj {levels : Nat} {fields : List (String × Json)}
    (inside : ∀ field ∈ fields, Writable levels field.2) : Writable (levels + 1) (.obj fields)

/-- A writer appends a text that spells a value. -/
def Appends (levels : Nat) (json : Json) (write : String → String) : Prop :=
  ∃ text, Spells levels json text ∧ ∀ out, (write out).toList = out.toList ++ text

theorem Appends.scalar {levels : Nat} {json : Json} {text : String} (reads : Reads json text.toList) :
    Appends levels json fun out => out ++ text :=
  ⟨text.toList, .scalar reads, fun _ => String.toList_append⟩

section Compact

variable {levels : Nat}

theorem writeItems_appends {items : List Json} (some_item : items ≠ [])
    (each : ∀ item ∈ items, Appends levels item fun out => writeTo out item) :
    ∃ text, SpellsItems levels items text ∧ ∀ out first, (writeItems out first items).toList =
      out.toList ++ ((if first then [] else [',']) ++ text) := by
  induction items with
  | nil => exact absurd rfl some_item
  | cons item rest of_rest =>
    obtain ⟨text, spells, written⟩ := each item (by simp)
    have begun (out : String) (first : Bool) :
        (writeTo (if first then out else out.push ',') item).toList =
          out.toList ++ ((if first then [] else [',']) ++ text) := by
      cases first with
      | true => simp [written]
      | false => simp [written, String.toList_push]
    cases rest with
    | nil =>
      refine ⟨_, .last gap_nil spells gap_nil, ?_⟩
      intro out first
      rw [writeItems, writeItems, String.toList_push, begun]
      simp
    | cons next others =>
      obtain ⟨more, spells_rest, rest_written⟩ :=
        of_rest (by simp) fun item is_item => each item (by simp [is_item])
      refine ⟨_, .cons gap_nil spells spells_rest, ?_⟩
      intro out first
      rw [writeItems, rest_written, begun]
      simp

theorem writeFields_appends {fields : List (String × Json)} (some_field : fields ≠ [])
    (each : ∀ field ∈ fields, Appends levels field.2 fun out => writeTo out field.2) :
    ∃ text, SpellsFields levels fields text ∧ ∀ out first, (writeFields out first fields).toList =
      out.toList ++ ((if first then [] else [',']) ++ text) := by
  induction fields with
  | nil => exact absurd rfl some_field
  | cons field rest of_rest =>
    obtain ⟨name, value⟩ := field
    obtain ⟨text, spells, written⟩ := each (name, value) (by simp)
    have begun (out : String) (first : Bool) :
        (writeTo (((if first then out else out.push ',') ++ quoted name).push ':') value).toList =
          out.toList ++ ((if first then [] else [',']) ++ ((quoted name).toList ++ ':' :: text)) := by
      cases first with
      | true => simp [written, String.toList_push]
      | false => simp [written, String.toList_push]
    cases rest with
    | nil =>
      refine ⟨_, .last gap_nil gap_nil spells gap_nil, ?_⟩
      intro out first
      rw [writeFields, writeFields, String.toList_push, begun]
      simp
    | cons next others =>
      obtain ⟨more, spells_rest, rest_written⟩ :=
        of_rest (by simp) fun field is_field => each field (by simp [is_field])
      refine ⟨_, .cons gap_nil gap_nil spells spells_rest, ?_⟩
      intro out first
      rw [writeFields, rest_written, begun]
      simp

theorem Writable.writeTo {json : Json} (writable : Writable levels json) :
    Appends levels json fun out => writeTo out json := by
  induction writable with
  | null => exact .scalar reads_null
  | bool value => exact .scalar (reads_bool value)
  | int low high => exact .scalar (reads_int low high)
  | float reads => exact .scalar reads
  | str value => exact .scalar (reads_str value)
  | @arr levels items _ each =>
    cases items with
    | nil => exact ⟨_, .emptyArray, fun out => by simp [Json.writeTo, writeItems]⟩
    | cons item rest =>
      obtain ⟨text, spells, written⟩ := writeItems_appends (by simp) each
      exact ⟨_, .array spells, fun out => by simp [Json.writeTo, written]⟩
  | @obj levels fields _ each =>
    cases fields with
    | nil => exact ⟨_, .emptyObject, fun out => by simp [Json.writeTo, writeFields]⟩
    | cons field rest =>
      obtain ⟨text, spells, written⟩ := writeFields_appends (by simp) each
      exact ⟨_, .object spells, fun out => by simp [Json.writeTo, written]⟩

/-- The compact text of a value spells it. -/
theorem Writable.compact {json : Json} (writable : Writable levels json) :
    Spells levels json json.compact.toList := by
  obtain ⟨text, spells, written⟩ := writable.writeTo
  rw [Json.compact, written]
  exact spells

end Compact

section Indented

variable {levels : Nat}

/-- The end of a line and the indentation of the next. -/
def lineBreak (level : Nat) : List Char := '\n' :: List.replicate (2 * level) ' '

theorem gap_lineBreak (level : Nat) : Gap (lineBreak level) := by
  intro c is_one
  rcases List.mem_cons.mp is_one with rfl | is_space
  · rfl
  · rw [List.eq_of_mem_replicate is_space]
    rfl

theorem toList_newLine (out : String) (level : Nat) :
    (newLine out level).toList = out.toList ++ lineBreak level := by
  change (out.push '\n' ++ String.ofList (List.replicate (2 * level) ' ')).toList = _
  simp [lineBreak]

/-- Items on lines of their own, the first of them after the bracket or the comma before it. -/
theorem prettyItems_appends {item : Json} {rest : List Json} {level : Nat}
    (each : ∀ other ∈ item :: rest,
      Appends levels other fun out => prettyTo out (level + 1) other) :
    ∃ text, SpellsItems levels (item :: rest) text ∧ ∀ out,
      (prettyItems (prettyTo (newLine out (level + 1)) (level + 1) item) level rest).toList =
        out.toList ++ text := by
  induction rest generalizing item with
  | nil =>
    obtain ⟨text, spells, written⟩ := each item (by simp)
    refine ⟨_, .last (gap_lineBreak (level + 1)) spells (gap_lineBreak level), fun out => ?_⟩
    simp [prettyItems, toList_newLine, written]
  | cons next others of_rest =>
    obtain ⟨text, spells, written⟩ := each item (by simp)
    obtain ⟨more, spells_rest, rest_written⟩ :=
      of_rest fun other is_other => each other (List.mem_cons_of_mem _ is_other)
    refine ⟨_, .cons (gap_lineBreak (level + 1)) spells spells_rest, fun out => ?_⟩
    rw [prettyItems, rest_written]
    simp [toList_newLine, written]

/-- Fields on lines of their own, the first of them after the brace or the comma before it. -/
theorem prettyFields_appends {name : String} {value : Json} {rest : List (String × Json)}
    {level : Nat}
    (each : ∀ field ∈ (name, value) :: rest,
      Appends levels field.2 fun out => prettyTo out (level + 1) field.2) :
    ∃ text, SpellsFields levels ((name, value) :: rest) text ∧ ∀ out,
      (prettyFields (prettyTo (newLine out (level + 1) ++ quoted name ++ ": ") (level + 1) value)
        level rest).toList = out.toList ++ text := by
  have space : Gap [' '] := by simp [Gap, isGap]
  induction rest generalizing name value with
  | nil =>
    obtain ⟨text, spells, written⟩ := each (name, value) (by simp)
    refine ⟨_, .last (gap_lineBreak (level + 1)) space spells (gap_lineBreak level), fun out => ?_⟩
    simp [prettyFields, toList_newLine, written]
  | cons next others of_rest =>
    obtain ⟨text, spells, written⟩ := each (name, value) (by simp)
    obtain ⟨more, spells_rest, rest_written⟩ :=
      of_rest fun field is_field => each field (List.mem_cons_of_mem _ is_field)
    refine ⟨_, .cons (gap_lineBreak (level + 1)) space spells spells_rest, fun out => ?_⟩
    rw [prettyFields, rest_written]
    simp [toList_newLine, written]

theorem Writable.prettyTo {json : Json} (writable : Writable levels json) (level : Nat) :
    Appends levels json fun out => prettyTo out level json := by
  induction writable generalizing level with
  | null => exact .scalar reads_null
  | bool value => exact .scalar (reads_bool value)
  | int low high => exact .scalar (reads_int low high)
  | float reads => exact .scalar reads
  | str value => exact .scalar (reads_str value)
  | @arr levels items _ each =>
    cases items with
    | nil => exact ⟨_, .emptyArray, fun out => by simp [Json.prettyTo]⟩
    | cons item rest =>
      obtain ⟨text, spells, written⟩ :=
        prettyItems_appends fun other is_other => each other is_other (level + 1)
      exact ⟨_, .array spells, fun out => by simp [Json.prettyTo, written]⟩
  | @obj levels fields _ each =>
    match fields with
    | [] => exact ⟨_, .emptyObject, fun out => by simp [Json.prettyTo]⟩
    | (name, value) :: rest =>
      obtain ⟨text, spells, written⟩ :=
        prettyFields_appends fun field is_field => each field is_field (level + 1)
      refine ⟨_, .object spells, fun out => ?_⟩
      simp only [Json.prettyTo, written]
      simp

/-- The indented text of a value spells it. -/
theorem Writable.pretty {json : Json} (writable : Writable levels json) :
    Spells levels json json.pretty.toList := by
  obtain ⟨text, spells, written⟩ := writable.prettyTo 0
  rw [Json.pretty, written]
  exact spells

end Indented

variable {json : Json} {form : Form}

/-- Compact text is read as the value that was written. -/
theorem readAs?_compact (writable : Writable depthLimit json) (covers : form.Covers json) :
    readAs? form json.compact = some json :=
  readAs?_of_spells writable.compact covers

/-- Indented text is read as the value that was written. -/
theorem readAs?_pretty (writable : Writable depthLimit json) (covers : form.Covers json) :
    readAs? form json.pretty = some json :=
  readAs?_of_spells writable.pretty covers

end Tabletop.Json
