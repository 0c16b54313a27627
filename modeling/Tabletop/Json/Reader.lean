import Tabletop.Json.Passage

/-!
Reading JSON text. `readAs?` accepts strict JSON with nothing after it and looks at the parts that a
form names; the others are passed over and left out. `read?` looks at everything and sorts the
fields of objects.
-/

namespace Tabletop.Json

/-- What a reader looks at: a whole value, or the fields of a record, which may also be written as
an array of their values. -/
inductive Form where
  | whole
  | record (fields : List (String × Form))

namespace Form

/-- The form of a field, none if the field is passed over. -/
def field? : Form → (name : String) → Option Form
  | whole, _ => some whole
  | record fields, name => fields.lookup name

/-- The forms of an array's first items; those of the others are whole. -/
def items : Form → List Form
  | whole => []
  | record fields => fields.map (·.2)

/-- A record whose fields are whole. -/
def ofNames (names : List String) : Form := record (names.map fun name => (name, whole))

end Form

mutual
/-- The value at the front of a text. `fuel` bounds how many values are read, and `levels` how many
arrays and objects stand inside one another. -/
def readValue : (fuel levels : Nat) → Form → List Char → Option (Json × List Char)
  | 0, _, _, _ => none
  | fuel + 1, levels, form, text =>
    match skipGap text with
    | '[' :: rest => match levels with
      | 0 => none
      | inner + 1 => match skipGap rest with
        | ']' :: after => some (.arr [], after)
        | other => readItems fuel inner form.items [] other
    | '\x7b' :: rest => match levels with
      | 0 => none
      | inner + 1 => match skipGap rest with
        | '\x7d' :: after => some (.obj [], after)
        | other => readFields fuel inner form [] other
    | '"' :: rest => (readString [] rest).map fun (value, after) => (.str value, after)
    | '-' :: rest => readNumber true rest
    | 'n' :: rest => (literal? ['u', 'l', 'l'] rest).map (.null, ·)
    | 't' :: rest => (literal? ['r', 'u', 'e'] rest).map (.bool true, ·)
    | 'f' :: rest => (literal? ['a', 'l', 's', 'e'] rest).map (.bool false, ·)
    | other => readNumber false other
/-- Items up to the closing bracket, those read so far last first. -/
def readItems : (fuel levels : Nat) → (forms : List Form) → List Json → List Char →
    Option (Json × List Char)
  | 0, _, _, _, _ => none
  | fuel + 1, levels, forms, back, text =>
    match readValue fuel levels (forms.headD .whole) text with
    | none => none
    | some (item, rest) => match skipGap rest with
      | ',' :: after => readItems fuel levels forms.tail (item :: back) after
      | ']' :: after => some (.arr (item :: back).reverse, after)
      | _ => none
/-- Fields up to the closing brace, those read so far last first. -/
def readFields : (fuel levels : Nat) → Form → List (String × Json) → List Char →
    Option (Json × List Char)
  | 0, _, _, _, _ => none
  | fuel + 1, levels, form, back, text =>
    match skipGap text with
    | '"' :: quotedName => match readString [] quotedName with
      | none => none
      | some (name, afterName) => match skipGap afterName with
        | ':' :: valueText =>
          let field? := match form.field? name with
            | some form => (readValue fuel levels form valueText).map fun (value, rest) =>
              ((name, value) :: back, rest)
            | none => (passValue fuel valueText).map fun rest => (back, rest)
          match field? with
          | none => none
          | some (fields, rest) => match skipGap rest with
            | ',' :: after => readFields fuel levels form fields after
            | '\x7d' :: after => some (.obj fields.reverse, after)
            | _ => none
        | _ => none
    | _ => none
end

/-- Arrays and objects may stand this deep inside one another. -/
def depthLimit : Nat := 127

/-- Reads a text that is one JSON value of a form; the fields of objects stay in their order. -/
def readAs? (form : Form) (text : String) : Option Json :=
  let chars := text.toList
  match readValue (chars.length + 1) depthLimit form chars with
  | some (json, rest) => if (skipGap rest).isEmpty then some json else none
  | none => none

/-- Reads a text that is one JSON value, the fields of objects by name. -/
def read? (text : String) : Option Json := (readAs? .whole text).map sorted

end Tabletop.Json
