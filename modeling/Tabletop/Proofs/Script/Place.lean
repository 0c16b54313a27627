import Tabletop.Proofs.Script.Reads
import Tabletop.Script.Session

/-!
Assignments that combine, and steps up and down. They read the place that a target is evaluated to and
write to the place that it is evaluated to once more, which need not be the same one.
-/

namespace Tabletop.Script

variable {machine : Machine} {scope : Scope}

/-! ## Expressions that only read -/

mutual
/-- Nothing is called, written or made by an expression. -/
def Expr.onlyReads : Expr → Bool
  | .number _ | .str _ | .bool _ | .null | .undefined | .name _ => true
  | .template pieces => piecesOnlyRead pieces
  | .member object _ => object.onlyReads
  | .index object key => object.onlyReads && key.onlyReads
  | .unary _ operand => operand.onlyReads
  | .binary _ left right | .logical _ left right => left.onlyReads && right.onlyReads
  | .conditional test yes no => test.onlyReads && (yes.onlyReads && no.onlyReads)
  | .array _ | .object _ | .call _ _ | .assign _ _ _ | .update _ _ _ | .function _ => false
def piecesOnlyRead : List Piece → Bool
  | [] => true
  | .text _ :: rest => piecesOnlyRead rest
  | .code value :: rest => value.onlyReads && piecesOnlyRead rest
end

theorem reads_lookupIn (scope : Scope) (name : String) : Reads (lookupIn scope name) := by
  refine .read fun memory => ?_
  split
  · exact .pure _
  · exact .fault _

mutual
theorem reads_eval (expr : Expr) (only : expr.onlyReads = true) : Reads (eval machine scope expr) := by
  match expr with
  | .number _ | .str _ | .bool _ | .null | .undefined =>
    unfold eval
    exact .pure _
  | .name name =>
    unfold eval
    exact reads_lookupIn scope name
  | .template pieces =>
    unfold eval
    exact (reads_evalPieces "" pieces only).map _
  | .member object name =>
    unfold eval
    exact (reads_eval object only).bind fun object => reads_getProperty object name
  | .index object key =>
    obtain ⟨of_object, of_key⟩ := Bool.and_eq_true_iff.mp only
    unfold eval
    exact (reads_eval object of_object).bind fun object => (reads_eval key of_key).bind fun key =>
      reads_getIndex object key
  | .unary op operand =>
    have of_operand := (reads_eval operand only).bind (reads_unaryOp op)
    cases op with
    | typeof =>
      cases operand with
      | name name =>
        unfold eval
        exact .read fun _ => .pure _
      | _ =>
        unfold eval
        exact of_operand
    | _ =>
      unfold eval
      exact of_operand
  | .binary op left right =>
    obtain ⟨of_left, of_right⟩ := Bool.and_eq_true_iff.mp only
    unfold eval
    exact (reads_eval left of_left).bind fun left => (reads_eval right of_right).bind fun right =>
      reads_binaryOp op left right
  | .logical op left right =>
    obtain ⟨of_left, of_right⟩ := Bool.and_eq_true_iff.mp only
    unfold eval
    refine (reads_eval left of_left).bind fun value => ?_
    cases op with
    | and | or =>
      dsimp only
      split
      · exact .pure _
      · exact reads_eval right of_right
  | .conditional test yes no =>
    obtain ⟨of_test, of_both⟩ := Bool.and_eq_true_iff.mp only
    obtain ⟨of_yes, of_no⟩ := Bool.and_eq_true_iff.mp of_both
    unfold eval
    refine (reads_eval test of_test).bind fun value => ?_
    split
    · exact reads_eval yes of_yes
    · exact reads_eval no of_no
  | .array _ | .object _ | .call _ _ | .assign _ _ _ | .update _ _ _ | .function _ => cases only

theorem reads_evalPieces (out : String) (pieces : List Piece) (only : piecesOnlyRead pieces = true) :
    Reads (evalPieces machine scope out pieces) := by
  match pieces with
  | [] =>
    unfold evalPieces
    exact .pure _
  | .text value :: rest =>
    unfold evalPieces
    exact (reads_checkString _).bind fun _ => reads_evalPieces _ rest only
  | .code expr :: rest =>
    obtain ⟨of_expr, of_rest⟩ := Bool.and_eq_true_iff.mp only
    unfold evalPieces
    exact (reads_eval expr of_expr).bind fun value => (reads_text value).bind fun text =>
      (reads_checkString _).bind fun _ => reads_evalPieces _ rest of_rest
end

/-! ## Targets and places -/

/-- What can be assigned to. -/
inductive Target where
  | name (name : String)
  | member (object : Expr) (name : String)
  | index (object key : Expr)

/-- Where a value is read and written. -/
inductive Place where
  | name (name : String)
  | member (object : Value) (name : String)
  | index (object key : Value)

namespace Target

def expr : Target → Expr
  | name id => .name id
  | member object id => .member object id
  | index object key => .index object key

/-- Evaluates what stands in a target, an object before its key. -/
def resolve (machine : Machine) (scope : Scope) : Target → Run Place
  | name id => return .name id
  | member object id => do
    let object ← eval machine scope object
    return .member object id
  | index object key => do
    let object ← eval machine scope object
    let key ← eval machine scope key
    return .index object key

/-- What stands in a target only reads. -/
def onlyReads : Target → Bool
  | name _ => true
  | member object _ => object.onlyReads
  | index object key => object.onlyReads && key.onlyReads

end Target

namespace Place

def read (scope : Scope) : Place → Run Value
  | name id => lookupIn scope id
  | member object id => getProperty object id
  | index object key => getIndex object key

def write (limits : Limits) (scope : Scope) (value : Value) : Place → Run Unit
  | name id => modify (·.assign scope id value)
  | member object id => setIndex limits object (.str id) value
  | index object key => setIndex limits object key value

end Place

/-- Reading a target is evaluating it to a place, and reading there. -/
theorem eval_target (target : Target) : eval machine scope target.expr = (do
    let place ← target.resolve machine scope
    place.read scope) := by
  cases target with
  | name id =>
    rw [Target.expr, Target.resolve, pure_bind, eval]
    rfl
  | member object id =>
    rw [Target.expr, Target.resolve, bind_assoc, eval]
    simp only [pure_bind, Place.read]
  | index object key =>
    rw [Target.expr, Target.resolve, bind_assoc, eval]
    simp only [bind_assoc, pure_bind, Place.read]

/-- Writing to a target is evaluating it to a place, and writing there. -/
theorem store_target (target : Target) (value : Value) :
    store machine scope value target.expr = (do
      let place ← target.resolve machine scope
      place.write machine.limits scope value) := by
  cases target with
  | name id =>
    rw [Target.expr, Target.resolve, pure_bind, store]
    rfl
  | member object id =>
    rw [Target.expr, Target.resolve, bind_assoc, store]
    simp only [pure_bind, Place.write]
  | index object key =>
    rw [Target.expr, Target.resolve, bind_assoc, store]
    simp only [bind_assoc, pure_bind, Place.write]

theorem reads_resolve (target : Target) (only : target.onlyReads = true) :
    Reads (target.resolve machine scope) := by
  cases target with
  | name id => exact .pure _
  | member object id => exact (reads_eval object only).map _
  | index object key =>
    obtain ⟨of_object, of_key⟩ := Bool.and_eq_true_iff.mp only
    exact (reads_eval object of_object).bind fun object => (reads_eval key of_key).map _

theorem reads_read (place : Place) : Reads (place.read scope) := by
  cases place with
  | name id => exact reads_lookupIn scope id
  | member object id => exact reads_getProperty object id
  | index object key => exact reads_getIndex object key

/-! ## Changes of what a place holds -/

/-- An assignment that combines, or a step up or down. -/
inductive Change where
  | combine (op : BinaryOp) (value : Expr)
  | step (increment before : Bool)

namespace Change

def expr (target : Target) : Change → Expr
  | combine op value => .assign (some op) target.expr value
  | step increment before => .update increment before target.expr

/-- The value to write in place of the one read, and the result. -/
def apply (machine : Machine) (scope : Scope) (current : Value) : Change → Run (Value × Value)
  | combine op value => do
    let right ← eval machine scope value
    let combined ← op.apply machine.limits current right
    return (combined, combined)
  | step increment before => do
    let old ← current.toNumber
    let new := if increment then old + 1 else old - 1
    return (.number new, .number (if before then new else old))

/-- A change only reads before it writes. -/
def onlyReads : Change → Bool
  | combine _ value => value.onlyReads
  | step _ _ => true

theorem reads_apply (change : Change) (only : change.onlyReads = true) (current : Value) :
    Reads (change.apply machine scope current) := by
  cases change with
  | combine op value =>
    exact (reads_eval value only).bind fun right => (reads_binaryOp op current right).map _
  | step increment before => exact (reads_toNumber current).map _

end Change

/-- A place that was read, what to write, and the result. -/
structure Reading where
  place : Place
  new : Value
  result : Value

/-- Evaluates a target, reads there and works out what to write. -/
def Target.prepare (machine : Machine) (scope : Scope) (change : Change) (target : Target) :
    Run Reading := do
  let place ← target.resolve machine scope
  let current ← place.read scope
  let (new, result) ← change.apply machine scope current
  return ⟨place, new, result⟩

/-- Evaluates a target once: the place that is read is the one that is written to. -/
def Target.changeOnce (machine : Machine) (scope : Scope) (change : Change) (target : Target) :
    Run Value := do
  let reading ← target.prepare machine scope change
  reading.place.write machine.limits scope reading.new
  return reading.result

/-- Evaluates a target twice, for reading and for writing. -/
def Target.changeTwice (machine : Machine) (scope : Scope) (change : Change) (target : Target) :
    Run Value := do
  let reading ← target.prepare machine scope change
  let place ← target.resolve machine scope
  place.write machine.limits scope reading.new
  return reading.result

/-- Evaluating the target again, before it is written to, finds the place that was read and does nothing
else. -/
def Target.Settled (machine : Machine) (scope : Scope) (change : Change) (target : Target)
    (memory : Memory) : Prop :=
  ∀ reading after, target.prepare machine scope change memory = .ok reading after →
    target.resolve machine scope after = .ok reading.place after

theorem eval_change (change : Change) (target : Target) :
    eval machine scope (change.expr target) = target.changeTwice machine scope change := by
  cases change with
  | combine op value =>
    rw [Change.expr, eval, eval_target, Target.changeTwice, Target.prepare]
    simp only [Change.apply, store_target, bind_assoc, pure_bind]
  | step increment before =>
    rw [Change.expr, eval, eval_target, Target.changeTwice, Target.prepare]
    simp only [Change.apply, store_target, bind_assoc, pure_bind]

theorem changeTwice_of_settled {change : Change} {target : Target} {memory : Memory}
    (settled : target.Settled machine scope change memory) :
    target.changeTwice machine scope change memory =
      target.changeOnce machine scope change memory := by
  rw [Target.changeTwice, Target.changeOnce, bind_apply, bind_apply]
  cases prepared : target.prepare machine scope change memory with
  | error fault after => rfl
  | ok reading after =>
    dsimp only
    rw [bind_apply, settled reading after prepared]

theorem settled_name (id : String) (change : Change) (memory : Memory) :
    (Target.name id).Settled machine scope change memory := by
  intro reading after prepared
  obtain ⟨place, found, of_place, rest⟩ := bind_eq_ok_iff.mp prepared
  obtain ⟨rfl, -⟩ := pure_eq_ok_iff.mp of_place
  obtain ⟨current, seen, -, rest⟩ := bind_eq_ok_iff.mp rest
  obtain ⟨written, between, -, rest⟩ := bind_eq_ok_iff.mp rest
  obtain ⟨rfl, rfl⟩ := pure_eq_ok_iff.mp rest
  rfl

/-- A run that only reads gives its value where it starts. -/
theorem Reads.same {α : Type} {run : Run α} (reads : Reads run) {memory after : Memory} {value : α}
    (ended : run memory = .ok value after) : after = memory := by
  rcases reads memory with ⟨_, same⟩ | ⟨_, fails⟩
  · rw [same] at ended
    cases ended
    rfl
  · rw [fails] at ended
    cases ended

theorem settled_of_onlyReads {change : Change} {target : Target} (only : target.onlyReads = true)
    (change_only : change.onlyReads = true) (memory : Memory) :
    target.Settled machine scope change memory := by
  intro reading after prepared
  obtain ⟨place, found, of_place, rest⟩ := bind_eq_ok_iff.mp prepared
  obtain ⟨current, seen, of_read, rest⟩ := bind_eq_ok_iff.mp rest
  obtain ⟨written, between, of_change, rest⟩ := bind_eq_ok_iff.mp rest
  obtain ⟨rfl, rfl⟩ := pure_eq_ok_iff.mp rest
  -- memory is all the way what it was at first
  obtain rfl := (reads_resolve target only).same of_place
  obtain rfl := (reads_read place).same of_read
  obtain rfl := (change.reads_apply change_only current).same of_change
  exact of_place

/-- An assignment that combines and a step up or down evaluate what stands in their target twice, to read
and to write. They do what they would do if it were evaluated once, in memory where the target comes to
the same place again and does nothing else. It does for every name, and where neither the target nor the
value calls, writes or makes anything. -/
theorem changes_resolve_twice (machine : Machine) (scope : Scope) (change : Change) (target : Target) :
    eval machine scope (change.expr target) = target.changeTwice machine scope change ∧
    (∀ memory, target.Settled machine scope change memory →
      eval machine scope (change.expr target) memory =
        target.changeOnce machine scope change memory) ∧
    (∀ id, target = .name id → ∀ memory, target.Settled machine scope change memory) ∧
    (target.onlyReads = true → change.onlyReads = true →
      ∀ memory, target.Settled machine scope change memory) := by
  refine ⟨eval_change change target, fun memory settled => ?_, ?_, settled_of_onlyReads⟩
  · rw [eval_change]
    exact changeTwice_of_settled settled
  · rintro id rfl
    exact settled_name id change

/-- The text of the first array where a run ends. -/
def firstArrayAt {α : Type} : EStateM.Result Fault Memory α → String
  | .ok _ memory | .error _ memory => memory.display (.array 0)

/-- An index that steps up is another one when the sum is written. -/
theorem stepping_index_moves_on :
    let memory : Memory := { Memory.fresh with
      arrays := #[#[.number 10, .number 20, .number 30]]
      frames := #[[("a", .array 0), ("i", .number 0)]] }
    let target : Target := .index (.name "a") (.update true false (.name "i"))
    let change : Change := .combine .add (.number 5)
    firstArrayAt (eval (.outermost {}) globalScope (change.expr target) memory) = "10,15,30" ∧
    firstArrayAt (target.changeOnce (.outermost {}) globalScope change memory) = "15,20,30" := by
  decide +kernel

end Tabletop.Script
