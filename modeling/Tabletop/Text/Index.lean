import Tabletop.Text.Basic

/-!
Characters of a text by their index. Main statements: `at?` and `between` are the item and the part
of the text's list of characters.
-/

namespace Tabletop.Text

/-- The character at an index. Where all characters have one byte the index is an offset. -/
def at? (text : String) (index : Nat) : Option Char :=
  if text.utf8ByteSize = text.length then String.Pos.Raw.get? text ⟨index⟩
  else (text.drop index).front?

/-- The characters from a start up to an end. -/
def between (start finish : Nat) (text : String) : String :=
  ((text.drop start).take (finish - start)).copy

theorem toList_between (start finish : Nat) (text : String) :
    (between start finish text).toList = (text.toList.drop start).take (finish - start) := by
  simp [between]

/-- A text has no more characters than bytes. -/
theorem length_le_byteSize (chars : List Char) :
    chars.length ≤ byteSize chars := by
  induction chars with
  | nil => simp
  | cons c rest ih =>
    have := c.utf8Size_pos
    simp only [List.length_cons, byteSize_cons]
    omega

/-- Among characters of one byte each, an offset is an index. -/
theorem getAux?_eq_getElem? (chars : List Char) (offset index : Nat)
    (single : byteSize chars = chars.length) :
    String.Pos.Raw.utf8GetAux? chars ⟨offset⟩ ⟨offset + index⟩ = chars[index]? := by
  induction chars generalizing offset index with
  | nil => rfl
  | cons c rest ih =>
    have positive := c.utf8Size_pos
    have fits := length_le_byteSize rest
    simp only [List.length_cons, byteSize_cons] at single
    have one : c.utf8Size = 1 := by omega
    have others : byteSize rest = rest.length := by omega
    have scan : String.Pos.Raw.utf8GetAux? (c :: rest) ⟨offset⟩ ⟨offset + index⟩ =
        if (⟨offset⟩ : String.Pos.Raw) = ⟨offset + index⟩ then some c
        else String.Pos.Raw.utf8GetAux? rest ((⟨offset⟩ : String.Pos.Raw) + c) ⟨offset + index⟩ := rfl
    cases index with
    | zero => rw [scan]; simp
    | succ index =>
      have apart : (⟨offset⟩ : String.Pos.Raw) ≠ ⟨offset + (index + 1)⟩ := by
        intro same
        injection same
        omega
      have step : (⟨offset⟩ : String.Pos.Raw) + c = ⟨offset + 1⟩ := by
        simp [String.Pos.Raw.ext_iff, one]
      have shift : offset + (index + 1) = offset + 1 + index := by omega
      rw [scan, if_neg apart, step, shift, ih (offset + 1) index others]
      simp

theorem size_utf8Encode (chars : List Char) :
    chars.utf8Encode.size = byteSize chars := by
  induction chars with
  | nil => rfl
  | cons c rest ih =>
    rw [← List.singleton_append, List.utf8Encode_append, ByteArray.size_append, ih]
    simp [List.utf8Encode_singleton]

/-- The bytes of a text are those of its characters. -/
theorem utf8ByteSize_eq_byteSize (text : String) :
    text.utf8ByteSize = byteSize text.toList := by
  rw [← String.size_toByteArray, ← String.utf8Encode_toList, size_utf8Encode]

theorem at?_eq_getElem? (text : String) (index : Nat) : at? text index = text.toList[index]? := by
  unfold at?
  split
  next same =>
    have single := utf8ByteSize_eq_byteSize text
    rw [same, ← String.length_toList] at single
    have found := getAux?_eq_getElem? text.toList 0 index single.symm
    rw [Nat.zero_add] at found
    exact found
  next => simp [String.Slice.front?_eq]

end Tabletop.Text
