import Tabletop.Json.Basic

/-!
Records and names held in JSON. A record is an object whose known fields stand at most once, or an
array of the fields' values in order; fields it does not know are passed over.
-/

namespace Tabletop.Json

def occurrencesOf (name : String) (fields : List (String × Json)) : Nat :=
  fields.countP fun field => field.1 == name

/-- The values of a record's fields in the order of `names`, none for a missing one. -/
def record? (names : List String) : Json → Option (List (Option Json))
  | .obj fields =>
    if names.all fun name => occurrencesOf name fields ≤ 1 then
      some (names.map fun name => fields.lookup name)
    else none
  | .arr items =>
    if items.length ≤ names.length then
      some (items.map some ++ List.replicate (names.length - items.length) none)
    else none
  | _ => none

/-- A name without content: a string, or an object whose one field of that name is null. -/
def name? : Json → Option String
  | .str name => some name
  | .obj [(name, .null)] => some name
  | _ => none

/-- A name without content where a field's value may also be an empty object. -/
def nameOrEmpty? : Json → Option String
  | .obj [(name, .obj [])] => some name
  | json => json.name?

/-- All items, if every one can be read. -/
def itemsWith? {α : Type} (read : Json → Option α) (json : Json) : Option (List α) :=
  match json with
  | .arr items => items.mapM read
  | _ => none

end Tabletop.Json
