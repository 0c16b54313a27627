import Tabletop.Proofs.Script.Lengths.Library
import Tabletop.Proofs.Script.Render
import Tabletop.Script.Session

/-!
What is written under a key is read back under it. Main statement: after a write to an array or an object
the key has the value written, the other slots have what they had, an array is as long as it must be and
an object has its keys in their order, and nothing else in memory has changed; a write that fails has
changed nothing.
-/

namespace Tabletop.Script

/-! ## Items and properties -/

theorem getElem?_writeItem (index : Nat) (value : Value) (items : Array Value) (other : Nat) :
    (writeItem index value items)[other]? =
      if other = index then some value
      else if other < items.size then items[other]?
      else if other < index then some .undefined
      else none := by
  unfold writeItem
  split
  · rw [Array.getElem?_setIfInBounds]
    grind
  · rw [Array.getElem?_push, Array.getElem?_append, Array.getElem?_replicate]
    grind

namespace Entries

variable (entries : Entries) (name : String) (value : Value)

/-- The keys of an object, in their order. -/
def names : List String := entries.toList.map (·.1)

/-- A property is written among properties as a name is declared among names. -/
theorem toList_set : (entries.set name value).toList = Frame.declare name value entries.toList := by
  obtain ⟨list⟩ := entries
  unfold Entries.set
  rw [List.findIdx?_toArray]
  induction list with
  | nil => rfl
  | cons entry rest of_rest =>
    obtain ⟨first, old⟩ := entry
    rw [List.findIdx?_cons, Frame.declare]
    by_cases same : first = name
    · simp [same]
    · rw [if_neg same, ← of_rest]
      cases found : rest.findIdx? (·.1 == name) <;> simp [same]

theorem get?_eq_lookup : entries.get? name = entries.toList.lookup name := by
  obtain ⟨list⟩ := entries
  unfold Entries.get?
  rw [List.find?_toArray]
  induction list with
  | nil => rfl
  | cons entry rest of_rest =>
    obtain ⟨first, old⟩ := entry
    rw [List.find?_cons, List.lookup_cons]
    by_cases same : first = name
    · simp [same]
    · rw [beq_false_of_ne same, beq_false_of_ne (Ne.symm same)]
      exact of_rest

theorem get?_set (other : String) :
    (entries.set name value).get? other = if other = name then some value else entries.get? other := by
  rw [get?_eq_lookup, get?_eq_lookup, toList_set]
  induction entries.toList with
  | nil =>
    rw [Frame.declare, List.lookup_cons]
    grind
  | cons entry rest of_rest =>
    obtain ⟨first, old⟩ := entry
    rw [Frame.declare]
    split <;> rw [List.lookup_cons, List.lookup_cons] <;> grind

theorem names_set :
    (entries.set name value).names =
      if name ∈ entries.names then entries.names else entries.names ++ [name] := by
  unfold names
  rw [toList_set]
  induction entries.toList with
  | nil => rfl
  | cons entry rest of_rest =>
    obtain ⟨first, old⟩ := entry
    rw [Frame.declare]
    by_cases same : first = name
    · simp [same]
    · rw [if_neg same, List.map_cons, of_rest]
      split <;> simp [*, Ne.symm same]

theorem nodup_names_set (distinct : entries.names.Nodup) : (entries.set name value).names.Nodup := by
  rw [names_set]
  split
  · exact distinct
  · rename_i absent
    exact List.nodup_append.mpr ⟨distinct, List.nodup_singleton name, by grind⟩

end Entries

/-! ## Slots -/

/-- What a key stands for. -/
inductive Slot where
  | item (index : Nat)
  | named (name : String)
  deriving DecidableEq

namespace Memory

variable (memory : Memory)

/-- The slot of an array or an object that a key stands for. -/
def slot (object key : Value) : Slot :=
  match object, key.index? with
  | .array _, some index => .item index
  | _, _ => .named (memory.display key)

/-- What an array or an object has in a slot. -/
def stored (object : Value) (slot : Slot) : Value :=
  match object, slot with
  | .array id, .item index => (memory.items id)[index]?.getD .undefined
  | .array id, .named name =>
    if name == "length" then .number (Float.ofNat (memory.items id).size) else .undefined
  | .object id, .named name => ((memory.entries id).get? name).getD .undefined
  | _, _ => .undefined

/-- The value is an array or an object of the memory. -/
def Holds : Value → Prop
  | .array id => id < memory.arrays.size
  | .object id => id < memory.objects.size
  | _ => False

theorem slot_array (id : Nat) {key : Value} {index : Nat} (is_index : key.index? = some index) :
    memory.slot (.array id) key = .item index := by
  simp only [slot, is_index]

theorem slot_object (id : Nat) (key : Value) :
    memory.slot (.object id) key = .named (memory.display key) := rfl

theorem getIndex_array (id : Nat) (key : Value) :
    getIndex (.array id) key memory =
      .ok (memory.stored (.array id) (memory.slot (.array id) key)) memory := by
  unfold getIndex slot
  rw [bind_apply]
  cases key.index? with
  | some index => rfl
  | none =>
    dsimp only [get, getThe, MonadStateOf.get, EStateM.get, stored]
    split <;> rfl

theorem getIndex_object (id : Nat) (key : Value) :
    getIndex (.object id) key memory =
      .ok (memory.stored (.object id) (memory.slot (.object id) key)) memory := rfl

variable {memory}

/-! ## Texts of keys -/

/-- The text of a value that is no array does not depend on arrays and objects. -/
theorem display_of_no_array (memory later : Memory) (closures : later.closures = memory.closures)
    {key : Value} (no_array : ∀ id, key ≠ .array id) : later.display key = memory.display key := by
  cases key with
  | array id => exact absurd rfl (no_array id)
  | function id => simp only [display, plainText, functionName, closures]
  | _ => rfl

theorem write_setEntries (id : Nat) (change : Entries → Entries) (limit levels : Nat) :
    (memory.setEntries id change).write limit levels = memory.write limit levels := by
  induction levels with
  | zero =>
    funext opened out value
    cases value <;> rfl
  | succ inner of_inner =>
    funext opened out value
    cases value with
    | array _ =>
      simp only [write, of_inner]
      rfl
    | _ => rfl

/-- Objects are written alike, so that what they hold is in no text. -/
theorem display_setEntries (id : Nat) (change : Entries → Entries) (key : Value) :
    (memory.setEntries id change).display key = memory.display key := by
  cases key with
  | array _ => simp only [display, render, write_setEntries]
  | _ => rfl

theorem render_of_no_array (limit : Nat) {value : Value} (no_array : ∀ id, value ≠ .array id) :
    memory.render limit value = memory.plainText value := by
  cases value with
  | array id => exact absurd rfl (no_array id)
  | _ => exact String.empty_append

/-- A key that is not too long is the same where it is written and where it is read: an array's text is cut
short later there than here. -/
theorem text_ends {limits : Limits} (narrow : limits.maxStringLength ≤ displayLimit) (key : Value) :
    limits.text key memory = .ok (memory.display key) memory ∨
      limits.text key memory = .error (.sizeLimit .stringLength limits.maxStringLength) memory := by
  rw [text_apply]
  split
  · exact .inr rfl
  · rename_i fits
    cases key with
    | array id =>
      have same := memory.render_wider narrow (.array id) (Nat.le_of_not_lt fits)
      exact .inl (by rw [← same]; rfl)
    | _ => exact .inl (by rw [render_of_no_array _ (by simp)]; rfl)

/-! ## Writes -/

variable {id : Nat}

theorem items_setItems (held : id < memory.arrays.size) (change : Array Value → Array Value) :
    (memory.setItems id change).items id = change (memory.items id) := by
  simp [items, setItems, held, Array.getElem_modify_self]

theorem entries_setEntries (held : id < memory.objects.size) (change : Entries → Entries) :
    (memory.setEntries id change).entries id = change (memory.entries id) := by
  simp [entries, setEntries, held, Array.getElem_modify_self]

/-- What a write to an array or an object does, if anything. -/
theorem setIndex_cases {limits : Limits} {object : Value}
    (narrow : limits.maxStringLength ≤ displayLimit) (held : memory.Holds object) (key value : Value) :
    (∃ fault, setIndex limits object key value memory = .error fault memory) ∨
    (∃ id index, object = .array id ∧ id < memory.arrays.size ∧ key.index? = some index ∧
      setIndex limits object key value memory =
        .ok () (memory.setItems id (writeItem index value))) ∨
    (∃ id, object = .object id ∧ id < memory.objects.size ∧
      setIndex limits object key value memory =
        .ok () (memory.setEntries id (·.set (memory.display key) value))) := by
  unfold setIndex
  cases object with
  | array id =>
    cases is_index : key.index? with
    | none => exact .inl ⟨_, rfl⟩
    | some index =>
      dsimp only
      by_cases long : limits.maxArrayLength < index + 1
      · rw [bind_apply, Limits.checkArray, if_pos long]
        exact .inl ⟨_, rfl⟩
      · rw [bind_apply, Limits.checkArray, if_neg long]
        exact .inr (.inl ⟨id, index, rfl, held, rfl, rfl⟩)
  | object id =>
    dsimp only
    rw [bind_apply]
    rcases text_ends narrow key with written | long
    · rw [written]
      exact .inr (.inr ⟨id, rfl, held, rfl⟩)
    · rw [long]
      exact .inl ⟨_, rfl⟩
  | _ => exact held.elim

/-- What a value written under a key of an array or an object has made of a memory. -/
structure Written (memory : Memory) (object key value : Value) (after : Memory) : Prop where
  read : getIndex object key after = .ok value after
  /-- A slot other than the one written, and other than an array's length, has what it had. -/
  others : ∀ other, (∀ id, other ≠ .array id) → memory.slot object other ≠ memory.slot object key →
    (∀ id, object = .array id → memory.slot object other ≠ .named "length") →
    ∃ found, getIndex object other memory = .ok found memory ∧
      getIndex object other after = .ok found after
  /-- An array is as long as it was, or up to the item written. -/
  length : ∀ id, object = .array id → ∃ index, key.index? = some index ∧
    (after.items id).size = max (memory.items id).size (index + 1) ∧
    getIndex object (.str "length") after =
      .ok (.number (Float.ofNat (max (memory.items id).size (index + 1)))) after
  /-- An object has the keys that it had, in their order, and a new one behind them. -/
  names : ∀ id, object = .object id →
    (after.entries id).names = (if memory.display key ∈ (memory.entries id).names
      then (memory.entries id).names else (memory.entries id).names ++ [memory.display key]) ∧
    ((memory.entries id).names.Nodup → (after.entries id).names.Nodup)
  arrays : ∀ id, object ≠ .array id → after.arrays[id]? = memory.arrays[id]?
  objects : ∀ id, object ≠ .object id → after.objects[id]? = memory.objects[id]?
  rest : after = { memory with arrays := after.arrays, objects := after.objects }

theorem written_setItems (held : id < memory.arrays.size) {key : Value} {index : Nat}
    (is_index : key.index? = some index) (value : Value) :
    memory.Written (.array id) key value (memory.setItems id (writeItem index value)) := by
  have items := items_setItems held (writeItem index value)
  have size := Lengths.size_writeItem index value (memory.items id)
  constructor
  case read =>
    rw [getIndex_array, slot_array _ id is_index, stored, items, getElem?_writeItem, if_pos rfl]
    rfl
  case others =>
    intro other no_array apart no_length
    refine ⟨_, memory.getIndex_array id other, ?_⟩
    rw [getIndex_array]
    congr 1
    cases other_index : other.index? with
    | some place =>
      have elsewhere : place ≠ index := by
        rintro rfl
        exact apart (by rw [slot_array _ id is_index, slot_array _ id other_index])
      rw [slot_array _ id other_index, slot_array _ id other_index, stored, stored, items,
        getElem?_writeItem]
      grind
    | none =>
      have named : ∀ memory : Memory, memory.slot (.array id) other = .named (memory.display other) := by
        intro memory
        simp only [slot, other_index]
      have not_length : memory.display other ≠ "length" := fun same => no_length id rfl (by
        rw [named, same])
      have same_name : (memory.setItems id (writeItem index value)).display other =
          memory.display other :=
        display_of_no_array memory (memory.setItems id _) rfl no_array
      rw [named, named, same_name, stored, stored, beq_false_of_ne not_length]
      rfl
  case length =>
    rintro _ ⟨⟩
    refine ⟨index, is_index, by rw [items, size], ?_⟩
    rw [← size, ← items]
    exact getIndex_array _ id _
  case names =>
    rintro _ ⟨⟩
  case arrays =>
    intro other apart
    have apart : id ≠ other := fun same => apart (by rw [same])
    exact (Array.getElem?_modify ..).trans (if_neg apart)
  case objects => exact fun _ _ => rfl
  case rest => rfl

theorem written_setEntries (held : id < memory.objects.size) (key value : Value) :
    memory.Written (.object id) key value
      (memory.setEntries id (·.set (memory.display key) value)) := by
  have entries := entries_setEntries held (·.set (memory.display key) value)
  constructor
  case read =>
    rw [getIndex_object, slot_object, display_setEntries, stored, entries, Entries.get?_set, if_pos rfl]
    rfl
  case others =>
    intro other no_array apart no_length
    refine ⟨_, memory.getIndex_object id other, ?_⟩
    have apart : memory.display other ≠ memory.display key := fun same => apart (by
      rw [slot_object, slot_object, same])
    rw [getIndex_object, slot_object, slot_object, display_setEntries, stored, entries,
      Entries.get?_set, if_neg apart]
    rfl
  case length =>
    rintro _ ⟨⟩
  case names =>
    rintro _ ⟨⟩
    rw [entries]
    exact ⟨Entries.names_set _ _ _, Entries.nodup_names_set _ _ _⟩
  case arrays => exact fun _ _ => rfl
  case objects =>
    intro other apart
    have apart : id ≠ other := fun same => apart (by rw [same])
    exact (Array.getElem?_modify ..).trans (if_neg apart)
  case rest => rfl

end Memory

/-- What is written is read back. A write to an array or an object that fails leaves memory as it was, and
one that succeeds leaves the value under the key and the rest as it was, if no string may be longer than
the texts of keys that are read. -/
theorem reads_see_writes (limits : Limits) (narrow : limits.maxStringLength ≤ Memory.displayLimit)
    (memory : Memory) (object key value : Value) (held : memory.Holds object) :
    (∀ fault after, setIndex limits object key value memory = .error fault after → after = memory) ∧
    ∀ after, setIndex limits object key value memory = .ok () after →
      memory.Written object key value after := by
  rcases Memory.setIndex_cases narrow held key value with
    ⟨_, failed⟩ | ⟨id, index, rfl, held, is_index, done⟩ | ⟨id, rfl, held, done⟩
  · rw [failed]
    constructor
    · rintro _ _ ⟨⟩
      rfl
    · rintro _ ⟨⟩
  · rw [done]
    constructor
    · rintro _ _ ⟨⟩
    · rintro _ ⟨⟩
      exact Memory.written_setItems held is_index value
  · rw [done]
    constructor
    · rintro _ _ ⟨⟩
    · rintro _ ⟨⟩
      exact Memory.written_setEntries held key value

/-- The key is an array of two texts, and an object has a property under it afterwards. -/
theorem reads_see_writes_under_an_array :
    let limits : Limits := {}
    let memory : Memory :=
      { Memory.fresh with arrays := #[#[.str "a", .str "b"]], objects := #[#[("length", .null)]] }
    limits.maxStringLength ≤ Memory.displayLimit ∧ memory.Holds (.object 0) ∧
      ∃ after, setIndex limits (.object 0) (.array 0) (.bool true) memory = .ok () after ∧
        (after.entries 0).names = ["length", "a,b"] ∧
        memory.Written (.object 0) (.array 0) (.bool true) after := by
  intro limits memory
  have narrow : limits.maxStringLength ≤ Memory.displayLimit := by decide
  have held : memory.Holds (.object 0) := Nat.one_pos
  have done : setIndex limits (.object 0) (.array 0) (.bool true) memory =
      .ok () (memory.setEntries 0 (·.set "a,b" (.bool true))) := rfl
  exact ⟨narrow, held, _, done, by decide +kernel,
    (reads_see_writes limits narrow memory (.object 0) (.array 0) (.bool true) held).2 _ done⟩

end Tabletop.Script
