import Tabletop.Proofs.Script.Link
import Tabletop.Script.Evaluation

/-!
Operators and library functions carry a second run along, one lemma for each function.
-/

namespace Tabletop.Script.Link

variable {link : Link}

namespace Lawful

variable {limits limits' : Limits} (lawful : link.Lawful limits limits')

include lawful

/-! ## Keys and operators -/

theorem getIndex (object key : Value) :
    link.Carries (Script.getIndex object key) (Script.getIndex object key) := by
  refine lawful.read (fun memory lines size => ?_) fun memory => ?_
  · cases object <;> simp
  · cases object with
    | undefined | null => exact lawful.fault _
    | array id | str text =>
      dsimp only
      split
      · exact .pure _
      · split <;> exact .pure _
    | _ => exact .pure _

theorem getProperty (object : Value) (name : String) :
    link.Carries (Script.getProperty object name) (Script.getProperty object name) := by
  unfold Script.getProperty
  split
  · exact .pure _
  · exact .pure _
  · exact lawful.getIndex object _

theorem setIndex (object key value : Value) :
    link.Carries (Script.setIndex limits object key value)
      (Script.setIndex limits' object key value) := by
  unfold Script.setIndex
  cases object with
  | array id =>
    dsimp only
    split
    · exact lawful.read (by simp) fun _ => lawful.fault _
    · exact (lawful.checkArray _).bind fun _ => lawful.setItems _ _
  | object id => exact (lawful.text key).bind fun _ => lawful.setEntries _ _
  | _ => exact lawful.read (by simp) fun _ => lawful.fault _

theorem looseEq (left right : Value) :
    link.Carries (left.looseEq right) (left.looseEq right) := by
  unfold Value.looseEq
  split
  · exact .pure _
  · split
    · exact (lawful.toNumber left).bind fun _ => (lawful.toNumber right).bind fun _ => .pure _
    · exact .pure _

theorem joinTexts (left right : Value) :
    link.Carries (Script.joinTexts limits left right) (Script.joinTexts limits' left right) :=
  (lawful.text left).bind fun _ => (lawful.text right).bind fun _ =>
    (lawful.checkString _).bind fun _ => .pure _

theorem arithmetic (compute : Float → Float → Float) (left right : Value) :
    link.Carries (Script.arithmetic compute left right) (Script.arithmetic compute left right) :=
  (lawful.toNumber left).bind fun _ => (lawful.toNumber right).bind fun _ => .pure _

theorem compare (texts : String → String → Bool) (numbers : Float → Float → Bool)
    (left right : Value) :
    link.Carries (Script.compare texts numbers left right)
      (Script.compare texts numbers left right) := by
  unfold Script.compare
  split
  · exact .pure _
  · exact (lawful.toNumber left).bind fun _ => (lawful.toNumber right).bind fun _ => .pure _

theorem binaryOp (op : BinaryOp) (left right : Value) :
    link.Carries (op.apply limits left right) (op.apply limits' left right) := by
  cases op with
  | add =>
    unfold BinaryOp.apply
    dsimp only
    split
    · exact lawful.joinTexts left right
    · exact lawful.arithmetic _ left right
  | sub | mul | div | rem | pow => exact lawful.arithmetic _ left right
  | lt | le | gt | ge => exact lawful.compare _ _ left right
  | looseEq | looseNe => exact (lawful.looseEq left right).map _
  | strictEq | strictNe => exact .pure _

theorem unaryOp (op : UnaryOp) (value : Value) :
    link.Carries (op.apply value) (op.apply value) := by
  cases op with
  | not | typeof => exact .pure _
  | neg | plus => exact (lawful.toNumber value).map _

/-! ## Strings and numbers -/

theorem relativeIndex (value : Value) (length default : Nat) :
    link.Carries (Script.relativeIndex value length default)
      (Script.relativeIndex value length default) := by
  unfold Script.relativeIndex
  split
  · exact .pure _
  · refine (lawful.toNumber value).bind fun number => ?_
    split
    · exact .pure _
    · dsimp only
      split <;> exact .pure _

theorem clampedIndex (value : Value) (length default : Nat) :
    link.Carries (Script.clampedIndex value length default)
      (Script.clampedIndex value length default) := by
  unfold Script.clampedIndex
  split
  · exact .pure _
  · exact (lawful.toNumber value).map _

theorem replaceMethod (all : Bool) (subject pattern : String) (replacement : Value) :
    link.Carries (Script.replaceMethod limits all subject pattern replacement)
      (Script.replaceMethod limits' all subject pattern replacement) :=
  (lawful.text replacement).bind fun _ => (lawful.checkString _).bind fun _ => .pure _

theorem splitMethod (subject separator : String) (value : Value) :
    link.Carries (Script.splitMethod limits subject separator value)
      (Script.splitMethod limits' subject separator value) := by
  unfold Script.splitMethod
  split
  · exact lawful.newArray _
  · split
    · exact (lawful.checkArray _).bind fun _ => lawful.newArray _
    · exact (lawful.checkArray _).bind fun _ => lawful.newArray _

theorem caseMethod (change : List Char → List Char) (subject : String) :
    link.Carries (Script.caseMethod limits change subject)
      (Script.caseMethod limits' change subject) :=
  (lawful.checkString _).bind fun _ => .pure _

theorem substringMethod (subject : String) (arguments : List Value) :
    link.Carries (Script.substringMethod subject arguments)
      (Script.substringMethod subject arguments) :=
  (lawful.clampedIndex _ _ _).bind fun _ => (lawful.clampedIndex _ _ _).bind fun _ => .pure _

theorem sliceText (subject : String) (arguments : List Value) :
    link.Carries (Script.sliceText subject arguments) (Script.sliceText subject arguments) :=
  (lawful.relativeIndex _ _ _).bind fun _ => (lawful.relativeIndex _ _ _).bind fun _ => .pure _

theorem stringMethod (subject name : String) (arguments : List Value) :
    link.Carries (Script.stringMethod limits subject name arguments)
      (Script.stringMethod limits' subject name arguments) := by
  refine (lawful.text _).bind fun text => ?_
  split
  · exact lawful.replaceMethod false subject text _
  · exact lawful.replaceMethod true subject text _
  · exact .pure _
  · exact .pure _
  · exact .pure _
  · exact .pure _
  · exact .pure _
  · exact lawful.caseMethod _ subject
  · exact lawful.caseMethod _ subject
  · exact lawful.splitMethod subject text _
  · exact .pure _
  · exact lawful.substringMethod subject arguments
  · exact lawful.sliceText subject arguments
  · exact lawful.fault _

theorem numberMethod (number : Float) (name : String) (arguments : List Value) :
    link.Carries (Script.numberMethod number name arguments)
      (Script.numberMethod number name arguments) := by
  unfold Script.numberMethod
  split
  · exact .pure _
  · exact .pure _
  · exact lawful.fault _

theorem builtin (function : Builtin) (arguments : List Value) :
    link.Carries (function.apply limits arguments) (function.apply limits' arguments) := by
  cases function with
  | parseInt | parseFloat => exact (lawful.text _).map _
  | string =>
    cases arguments with
    | nil => exact .pure _
    | cons first rest => exact (lawful.text first).map _
  | number =>
    cases arguments with
    | nil => exact .pure _
    | cons first rest => exact (lawful.toNumber first).map _
  | isNaN => exact (lawful.toNumber _).map _

end Lawful

/-! ## Loops over items, as sequences of runs -/

theorem visitItems_cons {α : Type} (call : Caller) (callback receiver : Value)
    (visit : α → Nat → Value → Value → Except Value α) (index : Nat) (gathered : α) (item : Value)
    (rest : List Value) :
    visitItems call callback receiver visit index gathered (item :: rest) = (do
      let answer ← call callback [item, .number (Float.ofNat index), receiver]
      match visit gathered index item answer with
      | .error value => return .error value
      | .ok gathered => visitItems call callback receiver visit (index + 1) gathered rest) := by
  -- the loop looks at what the call ends in; as a sequence of runs it can be carried along
  funext memory
  rw [visitItems, bind_apply]
  dsimp only
  cases call callback [item, .number (Float.ofNat index), receiver] memory with
  | error fault memory => rfl
  | ok answer memory =>
    dsimp only
    cases visit gathered index item answer <;> rfl

theorem foldItems_cons (call : Caller) (callback receiver : Value) (index : Nat) (before : Value)
    (item : Value) (rest : List Value) :
    foldItems call callback receiver index before (item :: rest) = (do
      let answer ← call callback [before, item, .number (Float.ofNat index), receiver]
      foldItems call callback receiver (index + 1) answer rest) := by
  funext memory
  rw [foldItems, bind_apply]
  dsimp only
  cases call callback [before, item, .number (Float.ofNat index), receiver] memory <;> rfl

theorem joinItems_cons (limits : Limits) (separator : String) (first : Bool) (out : String)
    (item : Value) (rest : List Value) :
    joinItems limits separator first out (item :: rest) = (do
      let text ← (if item.isNullish then pure "" else limits.text item : Run String)
      let out := (if first then out else out ++ separator) ++ text
      limits.checkString out.utf8ByteSize
      joinItems limits separator false out rest) := by
  funext memory
  rw [joinItems, bind_apply]
  dsimp only
  cases (if item.isNullish then pure "" else limits.text item : Run String) memory with
  | error fault memory => rfl
  | ok text memory =>
    dsimp only
    rw [bind_apply]
    cases limits.checkString _ memory <;> rfl

namespace Lawful

variable {limits limits' : Limits} (lawful : link.Lawful limits limits')

/-! ## Arrays -/

section

variable {call call' : Caller}
  (called : ∀ callee arguments, link.Carries (call callee arguments) (call' callee arguments))

include called

theorem visitItems {α : Type} (callback receiver : Value)
    (visit : α → Nat → Value → Value → Except Value α) (index : Nat) (gathered : α)
    (items : List Value) :
    link.Carries (Script.visitItems call callback receiver visit index gathered items)
      (Script.visitItems call' callback receiver visit index gathered items) := by
  induction items generalizing index gathered with
  | nil => exact .pure _
  | cons item rest of_rest =>
    rw [visitItems_cons, visitItems_cons]
    refine (called callback _).bind fun answer => ?_
    split
    · exact .pure _
    · exact of_rest _ _

theorem foldItems (callback receiver : Value) (index : Nat) (before : Value) (items : List Value) :
    link.Carries (Script.foldItems call callback receiver index before items)
      (Script.foldItems call' callback receiver index before items) := by
  induction items generalizing index before with
  | nil => exact .pure _
  | cons item rest of_rest =>
    rw [foldItems_cons, foldItems_cons]
    exact (called callback _).bind fun answer => of_rest _ answer

theorem eachItem (callback receiver : Value) (items : List Value) :
    link.Carries (Script.eachItem call callback receiver items)
      (Script.eachItem call' callback receiver items) := by
  refine (visitItems called callback receiver _ _ _ items).bind fun visited => ?_
  cases visited <;> exact .pure _

include lawful

theorem gatherItems (callback receiver : Value) (pick : Value → Value → Option Value)
    (items : List Value) :
    link.Carries (Script.gatherItems call callback receiver pick items)
      (Script.gatherItems call' callback receiver pick items) := by
  refine (visitItems called callback receiver _ _ _ items).bind fun visited => ?_
  cases visited with
  | ok gathered => exact lawful.newArray gathered
  | error value => exact .pure value

omit lawful in
theorem findItem (callback receiver : Value) (wanted : Bool) (found : Nat → Value → Value)
    (otherwise : Value) (items : List Value) :
    link.Carries (Script.findItem call callback receiver wanted found otherwise items)
      (Script.findItem call' callback receiver wanted found otherwise items) := by
  refine (visitItems called callback receiver _ _ _ items).bind fun visited => ?_
  cases visited <;> exact .pure _

theorem reduceMethod (receiver : Value) (arguments items : List Value) :
    link.Carries (Script.reduceMethod call receiver arguments items)
      (Script.reduceMethod call' receiver arguments items) := by
  unfold Script.reduceMethod
  split
  · exact foldItems called _ receiver _ _ items
  · cases items with
    | nil => exact lawful.fault _
    | cons first rest => exact foldItems called _ receiver _ first rest

/-- A method with callbacks is there for both callers or for neither. -/
theorem callbackMethod? (receiver : Value) (arguments : List Value) (name : String) :
    (Script.callbackMethod? call receiver arguments name = none ∧
      Script.callbackMethod? call' receiver arguments name = none) ∨
    ∃ method method', Script.callbackMethod? call receiver arguments name = some method ∧
      Script.callbackMethod? call' receiver arguments name = some method' ∧
      ∀ items, link.Carries (method items) (method' items) := by
  unfold Script.callbackMethod?
  dsimp only
  split
  · exact .inr ⟨_, _, rfl, rfl, eachItem called _ receiver⟩
  · exact .inr ⟨_, _, rfl, rfl, lawful.gatherItems called _ receiver _⟩
  · exact .inr ⟨_, _, rfl, rfl, lawful.gatherItems called _ receiver _⟩
  · exact .inr ⟨_, _, rfl, rfl, findItem called _ receiver _ _ _⟩
  · exact .inr ⟨_, _, rfl, rfl, findItem called _ receiver _ _ _⟩
  · exact .inr ⟨_, _, rfl, rfl, findItem called _ receiver _ _ _⟩
  · exact .inr ⟨_, _, rfl, rfl, findItem called _ receiver _ _ _⟩
  · exact .inr ⟨_, _, rfl, rfl, lawful.reduceMethod called receiver arguments⟩
  · exact .inl ⟨rfl, rfl⟩

end

include lawful

theorem joinItems (separator : String) (first : Bool) (out : String) (items : List Value) :
    link.Carries (Script.joinItems limits separator first out items)
      (Script.joinItems limits' separator first out items) := by
  induction items generalizing first out with
  | nil => exact .pure _
  | cons item rest of_rest =>
    rw [joinItems_cons, joinItems_cons]
    refine Carries.bind ?_ fun text => (lawful.checkString _).bind fun _ => of_rest _ _
    split
    · exact .pure _
    · exact lawful.text item

theorem joinMethod (separator : Value) (items : Array Value) :
    link.Carries (Script.joinMethod limits separator items)
      (Script.joinMethod limits' separator items) := by
  unfold Script.joinMethod
  split
  · exact (lawful.joinItems "," true "" _).map Value.str
  · exact (lawful.text _).bind fun separator =>
      (lawful.joinItems separator true "" _).map Value.str

theorem itemsOf (id : Nat) : link.Carries (Script.itemsOf id) (Script.itemsOf id) :=
  lawful.read (fun _ _ _ => rfl) fun _ => .pure _

theorem itemCount (id : Nat) : link.Carries (Script.itemCount id) (Script.itemCount id) :=
  lawful.read (fun _ _ _ => rfl) fun _ => .pure _

theorem concatItems (items : Array Value) (arguments : List Value) :
    link.Carries (Script.concatItems limits items arguments)
      (Script.concatItems limits' items arguments) := by
  refine lawful.read (fun _ _ _ => rfl) fun memory => ?_
  dsimp only
  split
  · exact .pure _
  · exact (lawful.checkArray _).map _

theorem sliceItems (items : Array Value) (arguments : List Value) :
    link.Carries (Script.sliceItems items arguments) (Script.sliceItems items arguments) :=
  (lawful.relativeIndex _ _ _).bind fun _ => (lawful.relativeIndex _ _ _).bind fun _ =>
    lawful.newArray _

theorem pushMethod (id : Nat) (arguments : List Value) :
    link.Carries (Script.pushMethod limits id arguments) (Script.pushMethod limits' id arguments) :=
  (lawful.itemCount id).bind fun _ => (lawful.checkArray _).bind fun _ =>
    (lawful.setItems id _).map _

theorem takeItem (id : Nat) (pick : Array Value → Option Value)
    (change : Array Value → Array Value) :
    link.Carries (Script.takeItem id pick change) (Script.takeItem id pick change) :=
  lawful.read (fun _ _ _ => rfl) fun _ => (lawful.setItems id change).map _

theorem arrayMethod {call call' : Caller}
    (called : ∀ callee arguments, link.Carries (call callee arguments) (call' callee arguments))
    (id : Nat) (name : String) (arguments : List Value) :
    link.Carries (Script.arrayMethod limits call id name arguments)
      (Script.arrayMethod limits' call' id name arguments) := by
  unfold Script.arrayMethod
  dsimp only
  split
  · exact lawful.pushMethod id arguments
  · exact lawful.takeItem id _ _
  · exact lawful.takeItem id _ _
  · exact (lawful.setItems id _).map _
  · exact (lawful.itemsOf id).bind fun _ => lawful.joinMethod _ _
  · exact (lawful.itemsOf id).map _
  · exact (lawful.itemsOf id).map _
  · exact (lawful.itemsOf id).bind fun _ => lawful.sliceItems _ _
  · exact (lawful.itemsOf id).bind fun _ => (lawful.concatItems _ _).bind fun _ => lawful.newArray _
  · obtain ⟨absent, absent'⟩ | ⟨method, method', present, present', carried⟩ :=
      lawful.callbackMethod? called (.array id) arguments name
    · rw [absent, absent']
      exact lawful.fault _
    · rw [present, present']
      exact (lawful.itemsOf id).bind fun items => carried items.toList

/-! ## JSON -/

set_option linter.unusedSectionVars false in
mutual
theorem ofJson (json : Json) : link.Carries (Script.ofJson json) (Script.ofJson json) := by
  match json with
  | .null | .bool _ | .int _ | .float _ | .str _ =>
    unfold Script.ofJson
    exact .pure _
  | .arr items =>
    unfold Script.ofJson
    exact (ofItems #[] items).bind fun values => lawful.newArray values
  | .obj fields =>
    unfold Script.ofJson
    exact (ofFields #[] fields).bind fun entries => lawful.newObject entries

theorem ofItems (back : Array Value) (items : List Json) :
    link.Carries (Script.ofItems back items) (Script.ofItems back items) := by
  match items with
  | [] =>
    unfold Script.ofItems
    exact .pure _
  | item :: rest =>
    unfold Script.ofItems
    exact (ofJson item).bind fun value => ofItems (back.push value) rest

theorem ofFields (back : Entries) (fields : List (String × Json)) :
    link.Carries (Script.ofFields back fields) (Script.ofFields back fields) := by
  match fields with
  | [] =>
    unfold Script.ofFields
    exact .pure _
  | (name, field) :: rest =>
    unfold Script.ofFields
    exact (ofJson field).bind fun value => ofFields (back.set name value) rest
end

/-! ## Global objects -/

theorem foldNumbers (combine : Float → Float → Float) (result : Float) (values : List Value) :
    link.Carries (Script.foldNumbers combine result values)
      (Script.foldNumbers combine result values) := by
  induction values generalizing result with
  | nil => exact .pure _
  | cons value rest of_rest => exact (lawful.toNumber value).bind fun _ => of_rest _

theorem mathFunction (name : String) (arguments : List Value) :
    link.Carries (Script.mathFunction name arguments) (Script.mathFunction name arguments) := by
  refine (lawful.toNumber _).bind fun x => ?_
  split
  · exact .pure _
  · exact .pure _
  · exact .pure _
  · exact .pure _
  · exact .pure _
  · exact .pure _
  · exact .pure _
  · exact (lawful.toNumber _).map _
  · exact lawful.foldNumbers _ _ arguments
  · exact lawful.foldNumbers _ _ arguments
  · exact lawful.fault _
  · exact lawful.fault _

theorem assignAll (target : Nat) (sources : List Value) :
    link.Carries (Script.assignAll target sources) (Script.assignAll target sources) := by
  induction sources with
  | nil => exact .pure _
  | cons source rest of_rest =>
    cases source with
    | object id =>
      exact lawful.read (fun _ _ _ => rfl) fun _ => (lawful.setEntries target _).bind fun _ => of_rest
    | _ => exact of_rest

theorem newPairs (back : Array Value) (entries : List (String × Value)) :
    link.Carries (Script.newPairs back entries) (Script.newPairs back entries) := by
  induction entries generalizing back with
  | nil => exact .pure _
  | cons entry rest of_rest => exact (lawful.newArray _).bind fun _ => of_rest _

theorem objectFunction (name : String) (arguments : List Value) :
    link.Carries (Script.objectFunction name arguments) (Script.objectFunction name arguments) := by
  refine lawful.read (fun _ _ _ => rfl) fun memory => ?_
  dsimp only
  split
  · exact lawful.newArray _
  · exact lawful.newArray _
  · exact (lawful.newPairs _ _).bind fun _ => lawful.newArray _
  · split
    · exact (lawful.assignAll _ _).map _
    · exact .pure _
  · exact lawful.fault _

theorem consoleFunction (name : String) (arguments : List Value) :
    link.Carries (Script.consoleFunction limits name arguments)
      (Script.consoleFunction limits' name arguments) := by
  unfold Script.consoleFunction
  split
  · refine lawful.read (fun memory lines size => ?_) fun memory => ?_
    · simp
    · exact (lawful.checkString _).bind fun _ => (lawful.log _).map _
  · exact lawful.fault _

theorem jsonFunction (name : String) (arguments : List Value) :
    link.Carries (Script.jsonFunction limits name arguments)
      (Script.jsonFunction limits' name arguments) := by
  unfold Script.jsonFunction
  dsimp only
  split
  · split
    · exact .pure _
    · exact lawful.read (by simp) fun _ => (lawful.checkString _).map _
  · refine (lawful.text _).bind fun text => ?_
    split
    · exact lawful.ofJson _
    · exact lawful.fault _
  · exact lawful.fault _

theorem library (library : Library) (name : String) (arguments : List Value) :
    link.Carries (library.call limits name arguments) (library.call limits' name arguments) := by
  cases library with
  | math => exact lawful.mathFunction name arguments
  | object => exact lawful.objectFunction name arguments
  | console => exact lawful.consoleFunction name arguments
  | json => exact lawful.jsonFunction name arguments
  | array =>
    unfold Library.call
    dsimp only
    split
    · exact .pure _
    · exact lawful.fault _

theorem objectMethod (id : Nat) (name : String) (arguments : List Value) :
    link.Carries (Script.objectMethod id name arguments) (Script.objectMethod id name arguments) := by
  refine lawful.read (by simp) fun memory => ?_
  split
  · exact .pure _
  · exact (lawful.assignAll id _).map _
  · exact lawful.fault _

theorem callMethod {call call' : Caller}
    (called : ∀ callee arguments, link.Carries (call callee arguments) (call' callee arguments))
    (receiver : Value) (name : String) (arguments : List Value) :
    link.Carries (Script.callMethod limits call receiver name arguments)
      (Script.callMethod limits' call' receiver name arguments) := by
  cases receiver with
  | library library => exact lawful.library library name arguments
  | array id => exact lawful.arrayMethod called id name arguments
  | str text => exact lawful.stringMethod text name arguments
  | number number => exact lawful.numberMethod number name arguments
  | object id => exact lawful.objectMethod id name arguments
  | undefined | null => exact lawful.read (by simp) fun _ => lawful.fault _
  | _ => exact lawful.fault _

end Lawful
end Tabletop.Script.Link
