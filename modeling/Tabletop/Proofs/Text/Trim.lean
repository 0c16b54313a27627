import Tabletop.Text.Basic
import Mathlib.Data.List.DropRight

/-!
Trimming twice is trimming once, and only a text without anything but blanks leaves nothing.
-/

namespace Tabletop.Text

/-- A text of blanks, or of nothing. -/
def Blank (text : String) : Prop := ∀ c ∈ text.toList, isBlank c

theorem trim_eq (text : List Char) : trim text = (text.dropWhile isBlank).rdropWhile isBlank := rfl

/-- What dropping at the end leaves begins as the text does, so a text without a blank at its front
still has none there. -/
theorem dropWhile_rdropWhile (p : Char → Bool) (text : List Char) (front : text.dropWhile p = text) :
    (text.rdropWhile p).dropWhile p = text.rdropWhile p := by
  obtain ⟨dropped, split⟩ := List.rdropWhile_prefix p (l := text)
  cases kept : text.rdropWhile p with
  | nil => rfl
  | cons c rest =>
    rw [kept] at split
    rw [List.dropWhile_eq_self_iff] at front ⊢
    intro _
    have first := front (by simp [← split])
    simpa [← split] using first

/-- A text is what trimming leaves between blanks. -/
theorem trim_split (text : List Char) : ∃ front back, (∀ c ∈ front, isBlank c) ∧
    (∀ c ∈ back, isBlank c) ∧ text = front ++ (trim text ++ back) := by
  refine ⟨text.takeWhile isBlank, ((text.dropWhile isBlank).reverse.takeWhile isBlank).reverse,
    fun c is_one => List.mem_takeWhile_imp is_one,
    fun c is_one => List.mem_takeWhile_imp (List.mem_reverse.mp is_one), ?_⟩
  rw [trim, ← List.reverse_append, List.takeWhile_append_dropWhile, List.reverse_reverse,
    List.takeWhile_append_dropWhile]

theorem trim_trim (text : List Char) : trim (trim text) = trim text := by
  have front := List.dropWhile_idempotent isBlank text
  rw [trim_eq (trim text), trim_eq text, dropWhile_rdropWhile _ _ front,
    List.rdropWhile_idempotent]

@[simp] theorem trimmed_trimmed (text : String) : trimmed (trimmed text) = trimmed text := by
  simp only [trimmed, String.toList_ofList, trim_trim]

theorem trim_eq_nil_iff (text : List Char) : trim text = [] ↔ ∀ c ∈ text, isBlank c := by
  rw [trim_eq, List.rdropWhile_eq_nil_iff]
  constructor
  · intro rest_blank
    have nothing : text.dropWhile isBlank = [] := by
      rw [← List.dropWhile_idempotent, List.dropWhile_eq_nil_iff]
      exact rest_blank
    exact List.dropWhile_eq_nil_iff.mp nothing
  · intro blank
    simp [List.dropWhile_eq_nil_iff.mpr blank]

theorem trimmed_eq_empty_iff (text : String) : trimmed text = "" ↔ Blank text := by
  rw [trimmed, String.ofList_eq_empty_iff, trim_eq_nil_iff, Blank]

@[simp] theorem blank_trimmed_iff (text : String) : Blank (trimmed text) ↔ Blank text := by
  rw [← trimmed_eq_empty_iff, trimmed_trimmed, trimmed_eq_empty_iff]

end Tabletop.Text
