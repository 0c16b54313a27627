/-!
Decision variables and the names that a formula may use for them. An integer variable has one member
for every value it can take, an array one for every cell.
-/

namespace Tabletop.Payload

/-- What the cells of an array take: zero and one, or minus one and one. -/
inductive ElementType where
  | binary
  | spin
  deriving DecidableEq, Repr

/-- A row of cells or a grid of them. -/
inductive Shape where
  | row (length : Nat)
  | grid (rows columns : Nat)
  deriving DecidableEq, Repr

namespace Shape

/-- How many cells there are. -/
def size : Shape → Nat
  | row length => length
  | grid rows columns => rows * columns

/-- The shape in messages. -/
def text : Shape → String
  | row length => toString length
  | grid rows columns => s!"{rows}x{columns}"

/-- The name of a cell, counted row by row. -/
def cellName (shape : Shape) (name : String) (index : Nat) : String :=
  match shape with
  | row _ => s!"{name}_{index}"
  | grid _ columns => s!"{name}_{index / columns}_{index % columns}"

end Shape

inductive VariableKind where
  | binary
  | spin
  /-- An integer between two bounds, both included. -/
  | unary (lower upper : Int)
  | array (shape : Shape) (element : ElementType)
  deriving DecidableEq, Repr

structure Variable where
  name : String
  kind : VariableKind
  deriving DecidableEq, Repr

/-- Variables in the order of their declaration. -/
abbrev Variables := List Variable

/-- A payload may expand to this many names. -/
def nameLimit : Nat := 100000

/-- A count, if it is below 2^64. -/
def counted (count : Nat) : Option Nat := if count < Nat.pow 2 64 then some count else none

/-- How many integers two bounds have between them, in 128 bits; none or fewer if the bounds cross. -/
def span (lower upper : Int) : BitVec 128 := BitVec.ofInt 128 upper - BitVec.ofInt 128 lower + 1

namespace VariableKind

/-- How many names a variable stands for: an integer variable has its own besides its members'. -/
def size : VariableKind → Nat
  | binary | spin => 1
  | unary lower upper => (upper - lower + 1).toNat + 1
  | array shape _ => shape.size

/-- How many names there are, unless a number on the way to it does not fit 64 bits. -/
def nameCount? : VariableKind → Option Nat
  | binary | spin => some 1
  | unary lower upper =>
    (counted (span lower upper).toInt.toNat).bind fun members => counted (members + 1)
  | array (.row length) _ => counted length
  | array (.grid rows columns) _ =>
    (counted rows).bind fun rows => (counted columns).bind fun columns => counted (rows * columns)

/-- The names of what a solution selects; cells beyond the limit are left out. -/
def selectors (kind : VariableKind) (name : String) : List String :=
  match kind with
  | array shape _ => (List.range (min shape.size nameLimit)).map (shape.cellName name)
  | _ => [name]

/-- The names that a formula may use; those beyond the limit are left out. -/
def declaredNames (kind : VariableKind) (name : String) : List String :=
  match kind with
  | unary _ _ =>
    name :: (List.range (min (kind.size - 1) (nameLimit - 1))).map fun i => s!"{name}[{i}]"
  | _ => kind.selectors name

end VariableKind

namespace Variables

/-- Adds a variable at the end; one of that name changes its kind where it stands. -/
def declare (unknowns : Variables) (name : String) (kind : VariableKind) : Variables :=
  match unknowns with
  | [] => [⟨name, kind⟩]
  | first :: rest =>
    if first.name = name then ⟨name, kind⟩ :: rest else first :: declare rest name kind

/-- The kind of the first variable of a name. -/
def kind? (unknowns : Variables) (name : String) : Option VariableKind :=
  (unknowns.find? fun v => v.name == name).map Variable.kind

def size (unknowns : Variables) : Nat := (unknowns.map fun v => v.kind.size).foldr (· + ·) 0

/-- How many names there are in all, unless a total on the way to it does not fit 64 bits. -/
def nameCount? (unknowns : Variables) : Option Nat :=
  unknowns.foldlM (fun total v => v.kind.nameCount?.bind fun count => counted (total + count)) 0

def declaredNames (unknowns : Variables) : List String :=
  unknowns.flatMap fun v => v.kind.declaredNames v.name

def selectors (unknowns : Variables) : List String :=
  unknowns.flatMap fun v => v.kind.selectors v.name

end Variables
end Tabletop.Payload
