import Tabletop.Proofs.Text.Size

/-!
A text cut at the places of a pattern and put together again. Which places count is said without scanning:
each is the first one behind the place before. Main statements: the pieces are determined, splitting finds
them, and replacing the first places of the pattern puts them together with the replacement in between.
-/

namespace Tabletop.Text

variable {pattern replacement text front rest : List Char}

theorem dropFront?_eq_some_iff : dropFront? pattern text = some rest ↔ text = pattern ++ rest := by
  induction pattern generalizing text with
  | nil => exact Option.some_inj
  | cons p pattern of_pattern =>
    cases text with
    | nil => simp [dropFront?]
    | cons c text =>
      rw [dropFront?]
      by_cases same : p = c
      · rw [if_pos same, of_pattern, same, List.cons_append, List.cons.injEq]
        simp
      · rw [if_neg same]
        simp [Ne.symm same]

theorem startsWith_iff : startsWith pattern text = true ↔ pattern <+: text := by
  rw [startsWith, Option.isSome_iff_exists]
  exact exists_congr fun rest => dropFront?_eq_some_iff.trans eq_comm

theorem infix_iff_exists_drop : pattern <:+: text ↔ ∃ index, pattern <+: text.drop index := by
  rw [List.infix_iff_prefix_suffix]
  constructor
  · rintro ⟨rest, stands, behind⟩
    rw [List.suffix_iff_eq_drop.mp behind] at stands
    exact ⟨_, stands⟩
  · rintro ⟨index, stands⟩
    exact ⟨_, stands, List.drop_suffix index text⟩

/-- Searching finds the first place where a pattern stands. -/
theorem indexOf?_eq_some_iff {index : Nat} : indexOf? pattern text = some index ↔
    pattern <+: text.drop index ∧ ∀ earlier < index, ¬ pattern <+: text.drop earlier := by
  induction text generalizing index with
  | nil =>
    simp only [indexOf?, List.isEmpty_iff, List.drop_nil, List.prefix_nil]
    split
    · rename_i empty
      simp only [empty, Option.some_inj, true_and, not_true_eq_false]
      exact ⟨fun first _ before => absurd (first ▸ before) (Nat.not_lt_zero _),
        fun none_before => (Nat.eq_zero_of_not_pos fun positive => none_before 0 positive).symm⟩
    · rename_i something
      simp [something]
  | cons c rest of_rest =>
    rw [indexOf?]
    by_cases stands : startsWith pattern (c :: rest)
    · rw [if_pos stands]
      constructor
      · intro first
        cases first
        exact ⟨startsWith_iff.mp stands, fun _ before => absurd before (Nat.not_lt_zero _)⟩
      · rintro ⟨-, none_before⟩
        rcases Nat.eq_zero_or_pos index with rfl | positive
        · rfl
        · exact absurd (startsWith_iff.mp stands) (none_before 0 positive)
    · have not_here : ¬ pattern <+: c :: rest := fun here => stands (startsWith_iff.mpr here)
      rw [if_neg stands]
      cases index with
      | zero => simp [not_here]
      | succ index =>
        rw [Option.map_eq_some_iff]
        simp only [Nat.add_right_cancel_iff, exists_eq_right, of_rest, List.drop_succ_cons]
        refine and_congr_right fun _ => ⟨fun none_before earlier before => ?_, fun none_before => ?_⟩
        · cases earlier with
          | zero => exact not_here
          | succ earlier => exact none_before earlier (Nat.lt_of_succ_lt_succ before)
        · exact fun earlier before => none_before (earlier + 1) (Nat.succ_lt_succ before)

/-- The pieces of a text between the places of a pattern. An empty one stands before every character and at
the end. -/
inductive Cut (pattern : List Char) : (text : List Char) → (pieces : List (List Char)) → Prop
  | everywhere {text : List Char} (empty : pattern = []) : Cut pattern text ([] :: (text.map ([·]) ++ [[]]))
  | nowhere {text : List Char} (absent : ¬ pattern <:+: text) : Cut pattern text [text]
  | first {text front rest : List Char} {pieces : List (List Char)} (some_pattern : pattern ≠ [])
      (place : text = front ++ pattern ++ rest)
      (earlier : ∀ index < front.length, ¬ pattern <+: text.drop index) (others : Cut pattern rest pieces) :
    Cut pattern text (front :: pieces)

/-- There is one way to cut. -/
theorem Cut.unique {pieces pieces' : List (List Char)} (cut : Cut pattern text pieces)
    (cut' : Cut pattern text pieces') : pieces = pieces' := by
  induction cut generalizing pieces' with
  | everywhere empty =>
    cases cut' with
    | everywhere _ => rfl
    | nowhere absent => exact absurd (empty ▸ List.nil_infix) absent
    | first some_pattern => exact absurd empty some_pattern
  | @nowhere text absent =>
    cases cut' with
    | everywhere empty => exact absurd (empty ▸ List.nil_infix) absent
    | nowhere _ => rfl
    | @first _ front rest _ _ place => exact absurd ⟨front, rest, place.symm⟩ absent
  | @first text front rest pieces some_pattern place earlier others of_others =>
    cases cut' with
    | everywhere empty => exact absurd empty some_pattern
    | nowhere absent => exact absurd ⟨front, rest, place.symm⟩ absent
    | @first _ front' rest' pieces' _ place' earlier' others' =>
      have stands : ∀ {front rest}, text = front ++ pattern ++ rest →
          pattern <+: text.drop front.length := by
        rintro front rest rfl
        rw [List.append_assoc, List.drop_left]
        exact List.prefix_append pattern rest
      have long : ¬ front.length < front'.length := fun less => earlier' _ less (stands place)
      have long' : ¬ front'.length < front.length := fun less => earlier _ less (stands place')
      have same := place.symm.trans place'
      rw [List.append_assoc, List.append_assoc] at same
      obtain ⟨rfl, behind⟩ := List.append_inj same (by omega)
      rw [of_others (List.append_cancel_left behind ▸ others')]

/-! ## Putting pieces together -/

/-- Lists joined by a separator are the first one and the others with the separator before them. -/
theorem intercalate_cons (separator piece : List Char) (rest : List (List Char)) :
    separator.intercalate (piece :: rest) = piece ++ rest.flatMap (separator ++ ·) := by
  induction rest generalizing piece with
  | nil => simp
  | cons next rest of_rest =>
    rw [List.intercalate_cons_cons, of_rest, List.flatMap_cons, List.append_assoc, List.append_assoc]

/-- Pieces one after another, the replacement between the first ones and the pattern between the others. -/
def rejoined (pattern replacement : List Char) : (count : Nat) → List (List Char) → List Char
  | _, [] => []
  | _, [piece] => piece
  | 0, piece :: next :: rest => piece ++ pattern ++ rejoined pattern replacement 0 (next :: rest)
  | count + 1, piece :: next :: rest =>
    piece ++ replacement ++ rejoined pattern replacement count (next :: rest)

theorem rejoined_zero (pieces : List (List Char)) :
    rejoined pattern replacement 0 pieces = pattern.intercalate pieces := by
  induction pieces with
  | nil => rfl
  | cons piece rest of_rest =>
    cases rest with
    | nil => simp [rejoined]
    | cons next rest => rw [rejoined, of_rest, List.intercalate_cons_cons]

theorem rejoined_all {count : Nat} {pieces : List (List Char)} (all : pieces.length ≤ count + 1) :
    rejoined pattern replacement count pieces = replacement.intercalate pieces := by
  induction pieces generalizing count with
  | nil => cases count <;> rfl
  | cons piece rest of_rest =>
    cases rest with
    | nil => cases count <;> simp [rejoined]
    | cons next rest =>
      cases count with
      | zero => simp at all
      | succ count =>
        rw [rejoined, of_rest (by simpa using all), List.intercalate_cons_cons]

theorem rejoined_succ (count : Nat) (piece : List Char) {rest : List (List Char)} (more : rest ≠ []) :
    rejoined pattern replacement (count + 1) (piece :: rest) =
      piece ++ replacement ++ rejoined pattern replacement count rest := by
  cases rest with
  | nil => exact absurd rfl more
  | cons next rest => rfl

/-- Each replacement between pieces changes the bytes by the difference of pattern and replacement. -/
theorem byteSize_rejoined (pattern replacement : List Char) {count : Nat} {pieces : List (List Char)}
    (between : count + 1 ≤ pieces.length) :
    byteSize (rejoined pattern replacement count pieces) + count * byteSize pattern =
      byteSize (pattern.intercalate pieces) + count * byteSize replacement := by
  induction pieces generalizing count with
  | nil => simp at between
  | cons piece rest of_rest =>
    cases count with
    | zero => rw [rejoined_zero, Nat.zero_mul, Nat.zero_mul]
    | succ count =>
      have more : rest ≠ [] := by
        rintro rfl
        simp at between
      have behind := of_rest (Nat.le_of_succ_le_succ between)
      rw [rejoined_succ count piece more, List.intercalate_cons_of_ne_nil more, byteSize_append,
        byteSize_append, byteSize_append, byteSize_append, Nat.succ_mul, Nat.succ_mul]
      omega

/-- A text is put together around an empty pattern by putting the replacement before its characters. -/
theorem rejoined_singles (count : Nat) (piece text : List Char) :
    rejoined [] replacement count (piece :: (text.map ([·]) ++ [[]])) =
      piece ++ interleave replacement count text := by
  induction text generalizing count piece with
  | nil => cases count <;> simp [rejoined, interleave]
  | cons c rest of_rest =>
    rw [List.map_cons, List.cons_append]
    cases count with
    | zero => rw [rejoined, of_rest, interleave, interleave, List.append_nil, List.singleton_append]
    | succ count =>
      rw [rejoined, of_rest, interleave, List.append_assoc, List.singleton_append]

theorem Cut.ne_nil {pieces : List (List Char)} (cut : Cut pattern text pieces) : pieces ≠ [] := by
  cases cut <;> exact List.cons_ne_nil _ _

/-- What was cut is whole again with the pattern between the pieces. -/
theorem Cut.intercalate {pieces : List (List Char)} (cut : Cut pattern text pieces) :
    pattern.intercalate pieces = text := by
  induction cut with
  | @everywhere text empty =>
    have whole : rejoined [] [] 0 ([] :: (text.map ([·]) ++ [[]])) = [] ++ interleave [] 0 text :=
      rejoined_singles 0 [] text
    rw [rejoined_zero, interleave, List.nil_append] at whole
    rw [empty, whole]
  | nowhere absent => exact List.intercalate_singleton
  | first some_pattern place earlier others of_others =>
    rw [List.intercalate_cons_of_ne_nil others.ne_nil, of_others, place]

/-! ## Splitting and replacing -/

section

variable (some_pattern : pattern ≠ [])

theorem pieces_ne_nil (skip : Nat) (piece text : List Char) : pieces pattern skip piece text ≠ [] := by
  fun_induction pieces pattern skip piece text <;> simp_all

/-- What is passed over after a place is in no piece. -/
theorem pieces_skip (skip : Nat) (piece text : List Char) :
    pieces pattern skip piece text = pieces pattern 0 piece (text.drop skip) := by
  induction text generalizing skip with
  | nil => rw [List.drop_nil, pieces, pieces]
  | cons c rest of_rest =>
    cases skip with
    | zero => rfl
    | succ skip => rw [pieces, of_rest, List.drop_succ_cons]

theorem replaceFirst_zero (skip : Nat) (text : List Char) :
    replaceFirst pattern replacement 0 skip text = text.drop skip := by
  induction text generalizing skip with
  | nil => cases skip <;> rfl
  | cons c rest of_rest =>
    cases skip with
    | zero => rfl
    | succ skip => rw [replaceFirst, of_rest, List.drop_succ_cons]

theorem length_pieces (skip : Nat) (piece text : List Char) :
    (pieces pattern skip piece text).length = occurrences pattern skip text + 1 := by
  induction text generalizing skip piece with
  | nil => rfl
  | cons c rest of_rest =>
    cases skip with
    | zero =>
      rw [pieces, occurrences]
      split
      · rw [List.length_cons, of_rest]
      · exact of_rest 0 (c :: piece)
    | succ skip => exact of_rest skip piece

include some_pattern

/-- A place at the front of a text is its first character and what is passed over then. -/
theorem stands_cons {c : Char} (stands : pattern <+: c :: rest) :
    c :: rest = pattern ++ rest.drop (pattern.length - 1) := by
  obtain ⟨behind, whole⟩ := stands
  have long : (c :: rest).drop (pattern.length - 1 + 1) = behind := by
    have positive := List.length_pos_iff.mpr some_pattern
    rw [Nat.sub_add_cancel positive, ← whole, List.drop_left]
  rw [List.drop_succ_cons] at long
  rw [long, whole]

theorem replaceFirst_eq_rejoined (count skip : Nat) (piece text : List Char) :
    piece.reverse ++ replaceFirst pattern replacement count skip text =
      rejoined pattern replacement count (pieces pattern skip piece text) := by
  induction text generalizing count skip piece with
  | nil => cases count <;> simp [pieces, rejoined, replaceFirst]
  | cons c rest of_rest =>
    cases skip with
    | succ skip => exact of_rest count skip piece
    | zero =>
      rw [pieces]
      by_cases stands : startsWith pattern (c :: rest)
      · have more : pieces pattern (pattern.length - 1) [] rest ≠ [] := pieces_ne_nil _ [] rest
        rw [if_pos stands]
        cases count with
        | zero =>
          have whole := stands_cons some_pattern (startsWith_iff.mp stands)
          rw [rejoined_zero, List.intercalate_cons_of_ne_nil more, ← rejoined_zero, ← of_rest,
            replaceFirst_zero, replaceFirst_zero, List.drop_zero, List.reverse_nil, List.nil_append,
            List.append_assoc, ← whole]
        | succ count =>
          rw [rejoined_succ count _ more, ← of_rest, replaceFirst, if_pos stands, List.reverse_nil,
            List.nil_append, List.append_assoc]
      · rw [if_neg stands, ← of_rest, List.reverse_cons, List.append_assoc, List.singleton_append]
        cases count with
        | zero => rw [replaceFirst_zero, replaceFirst_zero, List.drop_zero, List.drop_zero]
        | succ count => rw [replaceFirst, if_neg stands]

/-- Splitting scans for the places that count. The piece that has been begun is the part of the text in
which the pattern does not stand anywhere. -/
theorem cut_pieces {piece text : List Char}
    (earlier : ∀ index < piece.length, ¬ pattern <+: (piece.reverse ++ text).drop index) :
    Cut pattern (piece.reverse ++ text) (pieces pattern 0 piece text) := by
  induction size : text.length using Nat.strongRecOn generalizing piece text with
  | ind size of_smaller =>
    subst size
    cases text with
    | nil =>
      rw [pieces, List.append_nil] at *
      refine .nowhere fun stands => ?_
      obtain ⟨index, stands⟩ := infix_iff_exists_drop.mp stands
      rcases Nat.lt_or_ge index piece.length with before | behind
      · exact earlier index before stands
      · rw [List.drop_of_length_le (by simpa using behind)] at stands
        exact some_pattern (List.prefix_nil.mp stands)
    | cons c rest =>
      rw [pieces]
      by_cases stands : startsWith pattern (c :: rest)
      · rw [if_pos stands, pieces_skip]
        have whole := stands_cons some_pattern (startsWith_iff.mp stands)
        have shorter : (rest.drop (pattern.length - 1)).length < (c :: rest).length := by
          rw [List.length_drop, List.length_cons]
          omega
        have others : Cut pattern ([].reverse ++ rest.drop (pattern.length - 1))
            (pieces pattern 0 [] (rest.drop (pattern.length - 1))) :=
          of_smaller _ shorter (fun _ before => absurd before (Nat.not_lt_zero _)) rfl
        have place : piece.reverse ++ c :: rest =
            piece.reverse ++ pattern ++ rest.drop (pattern.length - 1) := by
          rw [whole, List.append_assoc]
        exact .first some_pattern place (by simpa using earlier) others
      · rw [if_neg stands]
        have next : (c :: piece).reverse ++ rest = piece.reverse ++ c :: rest := by simp
        rw [← next]
        refine of_smaller _ (Nat.lt_succ_self _) (fun index before => ?_) rfl
        rw [next]
        rcases Nat.lt_or_eq_of_le (Nat.le_of_lt_succ before) with before | rfl
        · exact earlier index before
        · rw [← List.length_reverse, List.drop_left]
          exact fun stands' => stands (startsWith_iff.mpr stands')

theorem cut_splitOn (text : List Char) : Cut pattern text (splitOn pattern text) := by
  have cut : Cut pattern ([].reverse ++ text) (pieces pattern 0 [] text) :=
    cut_pieces some_pattern fun _ before => absurd before (Nat.not_lt_zero _)
  exact cut

end

theorem exists_cut (pattern text : List Char) : ∃ pieces, Cut pattern text pieces := by
  by_cases empty : pattern = []
  · exact ⟨_, .everywhere empty⟩
  · exact ⟨_, cut_splitOn empty text⟩

end Tabletop.Text
