import Mathlib.Data.List.TakeDrop
import Mathlib.Data.List.TakeWhile

/-!
Where a run of characters ends does not depend on what follows a text, as long as the run does not go on
in it.
-/

namespace Tabletop.Text

/-- A text does not begin with a character of a class. -/
def Stops (p : Char → Bool) (text : List Char) : Prop := ∀ c ∈ text.head?, p c = false

section

variable {p : Char → Bool}

@[simp] theorem stops_nil : Stops p [] := by simp [Stops]

@[simp] theorem stops_cons {c : Char} {rest : List Char} : Stops p (c :: rest) ↔ p c = false := by
  simp [Stops]

theorem stops_of_all {text : List Char} (none_of : ∀ c ∈ text, p c = false) : Stops p text :=
  fun c is_first => none_of c (List.mem_of_mem_head? is_first)

theorem Stops.takeWhile {text : List Char} (stops : Stops p text) : text.takeWhile p = [] := by
  cases text with
  | nil => rfl
  | cons c rest => rw [List.takeWhile_cons, stops_cons.mp stops]; rfl

theorem Stops.dropWhile {text : List Char} (stops : Stops p text) : text.dropWhile p = text := by
  cases text with
  | nil => rfl
  | cons c rest => rw [List.dropWhile_cons, stops_cons.mp stops]; rfl

theorem stops_dropWhile (text : List Char) : Stops p (text.dropWhile p) := by
  intro c is_first
  have fails := List.head?_dropWhile_not p text
  rw [Option.mem_def.mp is_first] at fails
  simpa using fails

theorem takeWhile_append (text : List Char) {tail : List Char} (stops : Stops p tail) :
    (text ++ tail).takeWhile p = text.takeWhile p := by
  induction text with
  | nil => exact stops.takeWhile
  | cons c rest of_rest =>
    rw [List.cons_append, List.takeWhile_cons, List.takeWhile_cons, of_rest]

theorem dropWhile_append (text : List Char) {tail : List Char} (stops : Stops p tail) :
    (text ++ tail).dropWhile p = text.dropWhile p ++ tail := by
  induction text with
  | nil => exact stops.dropWhile
  | cons c rest of_rest =>
    rw [List.cons_append, List.dropWhile_cons, List.dropWhile_cons, of_rest]
    split <;> rfl

/-- A run is found in a longer text where it is found in the text. -/
theorem span_append (text : List Char) {tail : List Char} (stops : Stops p tail) :
    (text ++ tail).span p = (text.takeWhile p, text.dropWhile p ++ tail) := by
  rw [List.span_eq_takeWhile_dropWhile, takeWhile_append text stops, dropWhile_append text stops]

/-- A run of characters of a class ends where others follow. -/
theorem span_run {run : List Char} (all : ∀ c ∈ run, p c) {tail : List Char} (stops : Stops p tail) :
    (run ++ tail).span p = (run, tail) := by
  rw [span_append run stops, List.takeWhile_eq_self_iff.mpr all, List.dropWhile_eq_nil_iff.mpr all]
  rfl

end
end Tabletop.Text
