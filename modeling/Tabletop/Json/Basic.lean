/-!
JSON trees. Integers and numbers with a fraction are told apart. The fields of an object stand in
the order of the text, repeated names included; `Json.sorted` orders them by name and keeps the last
of each.
-/

namespace Tabletop

inductive Json where
  | null
  | bool (value : Bool)
  | int (value : Int)
  | float (value : Float)
  | str (value : String)
  | arr (items : List Json)
  | obj (fields : List (String × Json))
  deriving Inhabited

namespace Json

/-- Of neighbouring fields with equal names the last. -/
def lastOfEach (fields : List (String × Json)) : List (String × Json) :=
  fields.foldr (fun field kept => match kept with
    | next :: _ => if field.1 = next.1 then kept else field :: kept
    | [] => [field]) []

/-- An object with its fields by name; the last of equal names is kept. -/
def object (fields : List (String × Json)) : Json :=
  .obj (lastOfEach (fields.mergeSort fun a b => a.1 ≤ b.1))

mutual
/-- The tree with every object's fields by name, the last of equal names. -/
def sorted : Json → Json
  | .arr items => .arr (sortedItems [] items)
  | .obj fields => object (sortedFields [] fields)
  | other => other
/-- Items with their objects sorted, those before them last first. -/
def sortedItems (back : List Json) : List Json → List Json
  | [] => back.reverse
  | item :: rest => sortedItems (sorted item :: back) rest
/-- Fields with the objects in them sorted, those before them last first. -/
def sortedFields (back : List (String × Json)) : List (String × Json) → List (String × Json)
  | [] => back.reverse
  | (name, value) :: rest => sortedFields ((name, sorted value) :: back) rest
end

/-- The first field of a name. -/
def field? (json : Json) (name : String) : Option Json :=
  match json with
  | .obj fields => fields.lookup name
  | _ => none

def str? : Json → Option String
  | .str value => some value
  | _ => none

def bool? : Json → Option Bool
  | .bool value => some value
  | _ => none

def array? : Json → Option (List Json)
  | .arr items => some items
  | _ => none

/-- An integer from `low` up to and without `high`. -/
def intWithin? (low high : Int) : Json → Option Int
  | .int value => if low ≤ value ∧ value < high then some value else none
  | _ => none

def unsigned? (bits : Nat) (json : Json) : Option Nat :=
  (json.intWithin? 0 (Nat.pow 2 bits)).map Int.toNat

def signed64? : Json → Option Int := intWithin? (-Nat.pow 2 63) (Nat.pow 2 63)

/-- The double nearest to a number. -/
def float? : Json → Option Float
  | .int value => some (Float.ofInt value)
  | .float value => some value
  | _ => none

def isNull : Json → Bool
  | .null => true
  | _ => false

end Json
end Tabletop
