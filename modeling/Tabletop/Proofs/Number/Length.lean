import Tabletop.Proofs.Number.Whole
import Tabletop.Proofs.Number.Shortest
import Tabletop.Proofs.Text.Size

/-!
How long numbers are written. Scoring programs write no exponent, so the longest texts are those of the
least and the greatest doubles; four hundred bytes are enough for all of them.
-/

namespace Tabletop.Number

section

variable {x : Float} {tie : Tie} {d : Decimal}

/-- A double with a digit before the point has few digits behind it. -/
theorem least_place (finite : isFinite x) (shortest : (scaled x).shortest double tie = d)
    (whole : 0 < (Nat.repr d.digits).length + d.exponent) : -18 ≤ d.exponent := by
  subst shortest
  rcases finite_cases finite with ⟨zero_sign, unpacked, zero⟩ |
    ⟨x_sign, mantissa, exponent, canonical, unpacked, exact⟩
  · rw [zero, shortest_zero]
    exact (by decide : (-18 : Int) ≤ 0)
  · rw [exact] at whole ⊢
    obtain ⟨rounds, many⟩ := roundsTo_shortest (s := ⟨isMinus x_sign, mantissa, exponent⟩) tie canonical
    dsimp only at many rounds
    have positive := Decimal.digits_pos (lt_of_lt_of_le (by positivity) (rounds.within canonical).1)
    have one_le : (1 : ℚ) ≤ (Scaled.shortest double tie ⟨isMinus x_sign, mantissa, exponent⟩).magnitude :=
      (one_le_zpow₀ (by norm_num) (by omega)).trans (Decimal.le_magnitude positive)
    have not_small : -1 ≤ exponent + mantissa.log2 := by
      by_contra small
      have mantissa_low : (1 : ℚ) ≤ mantissa := by exact_mod_cast canonical.positive
      have mantissa_high : (mantissa : ℚ) < 2 ^ (mantissa.log2 + 1) := by
        exact_mod_cast (Nat.log2_lt canonical.positive.ne').mp (Nat.lt_succ_self _)
      have unit : (0 : ℚ) < 2 ^ exponent := by positivity
      have half : (2 ^ (mantissa.log2 + 1) * 2 ^ exponent : ℚ) ≤ 2 ^ (-1 : Int) := by
        rw [← zpow_natCast, ← zpow_add₀ (by norm_num)]
        exact zpow_le_zpow_right₀ (by norm_num) (by push_cast; omega)
      have below : (mantissa * 2 ^ exponent : ℚ) < 2 ^ (-1 : Int) :=
        (mul_lt_mul_of_pos_right mantissa_high unit).trans_le half
      have twice : ((mantissa + 1 / 2) * 2 ^ exponent : ℚ) ≤ 2 * (mantissa * 2 ^ exponent) := by
        rw [← mul_assoc]
        exact mul_le_mul_of_nonneg_right (by linarith) unit.le
      have high := rounds.high
      norm_num at below
      linarith
    omega

end

/-! ## Texts -/

/-- Bytes that the text of every number fits in. -/
def textBound : Nat := 400

theorem utf8Size_digits (n : Nat) : ∀ c ∈ (Nat.repr n).toList, c.utf8Size = 1 := by
  intro c is_one
  rw [Nat.toList_repr] at is_one
  exact Text.utf8Size_of_isDigit (isDigit_of_mem_toDigits is_one)

theorem utf8Size_zeros (count : Nat) : ∀ c ∈ zeros count, c.utf8Size = 1 := by
  intro c is_zero
  rw [List.eq_of_mem_replicate is_zero]
  rfl

theorem byteSize_digits (n : Nat) : Text.byteSize (Nat.repr n).toList = (Nat.repr n).length := by
  rw [Text.byteSize_of_single (utf8Size_digits n), String.length_toList]

theorem byteSize_zeros (count : Nat) : Text.byteSize (zeros count) = count := by
  rw [Text.byteSize_of_single (utf8Size_zeros count), zeros, List.length_replicate]

theorem int_size_le {n : Int} (low : -2 ^ 53 ≤ n) (high : n < 2 ^ 53) :
    (toString n).utf8ByteSize ≤ textBound := by
  have few : ∀ n < 2 ^ 53 + 1, (Nat.repr n).utf8ByteSize ≤ 16 := by
    intro n below
    rw [Text.utf8ByteSize_eq_byteSize, byteSize_digits]
    exact (Nat.length_repr_le_iff (by decide)).mpr (below.trans_le (by decide))
  cases n with
  | ofNat n =>
    have below := few n (by rw [Int.ofNat_eq_natCast] at high; omega)
    change (Nat.repr n).utf8ByteSize ≤ 400
    omega
  | negSucc n =>
    have below := few (n + 1) (by omega)
    change ("-" ++ Nat.repr (n + 1)).utf8ByteSize ≤ 400
    rw [String.utf8ByteSize_append]
    have sign : "-".utf8ByteSize = 1 := rfl
    omega

/-- Digits with a decimal point take no more bytes than there are places. -/
theorem positionalText_size_le {n : Nat} {exponent : Int}
    (high : (Nat.repr n).length + exponent ≤ 309) (low : -341 ≤ exponent)
    (whole : 0 < (Nat.repr n).length + exponent → -18 ≤ exponent) :
    Text.byteSize (positionalText (Nat.repr n).toList exponent false) < textBound := by
  have digits := byteSize_digits n
  unfold positionalText
  rw [String.length_toList]
  dsimp only
  split
  · rw [Text.byteSize_append, Text.byteSize_append, byteSize_zeros, digits]
    change _ + 0 < 400
    omega
  · split
    · rename_i point
      have few := whole point
      have split_at := congrArg Text.byteSize
        (List.take_append_drop ((Nat.repr n).length + exponent).toNat (Nat.repr n).toList)
      rw [Text.byteSize_append] at split_at
      have dot : '.'.utf8Size = 1 := rfl
      rw [Text.byteSize_append, Text.byteSize_cons, dot]
      change _ < 400
      omega
    · have dot : '.'.utf8Size = 1 := rfl
      have zero : '0'.utf8Size = 1 := rfl
      rw [List.cons_append, List.cons_append, Text.byteSize_cons, Text.byteSize_cons,
        Text.byteSize_append, byteSize_zeros, digits, dot, zero]
      change _ < 400
      omega

theorem programLayout_text (d : Decimal) : programLayout.text d = String.ofList
    (if d.negative then '-' :: positionalText (Nat.repr d.digits).toList d.exponent false
      else positionalText (Nat.repr d.digits).toList d.exponent false) := rfl

theorem programText_size_le (x : Float) : (programText x).utf8ByteSize ≤ textBound := by
  unfold programText
  split
  · rename_i small
    obtain ⟨low, high⟩ := smallInt?_bound small
    exact int_size_le low high
  · split
    · decide
    · split
      · split <;> decide
      · rename_i finite
        have finite : isFinite x := by simpa using finite
        unfold Layout.ofDouble
        generalize shortest : (scaled x).shortest double _ = d
        obtain ⟨⟨-, high⟩, low, -⟩ := shortest_places _ finite shortest
        have size := positionalText_size_le high low (least_place finite shortest)
        rw [programLayout_text, Text.utf8ByteSize_ofList]
        split
        · have sign : '-'.utf8Size = 1 := rfl
          rw [Text.byteSize_cons, sign]
          omega
        · exact size.le

/-! ## First characters -/

theorem exists_head_digits (n : Nat) : ∃ c ∈ (Nat.repr n).toList.head?, c.isDigit := by
  refine exists_head?_isDigit ?_ fun c is_one => ?_
  · rw [Nat.toList_repr]
    exact Nat.toDigits_ne_nil
  · rw [Nat.toList_repr] at is_one
    exact isDigit_of_mem_toDigits is_one

theorem exists_head_positionalText {digits : List Char} (exponent : Int)
    (starts : ∃ c ∈ digits.head?, c.isDigit) (wholeFraction : Bool) :
    ∃ c ∈ (positionalText digits exponent wholeFraction).head?, c.isDigit := by
  obtain ⟨c, is_first, digit⟩ := starts
  obtain ⟨rest, rfl⟩ := List.head?_eq_some_iff.mp is_first
  unfold positionalText
  dsimp only
  split
  · exact ⟨c, rfl, digit⟩
  split
  · rename_i point
    obtain ⟨before, before_eq⟩ : ∃ before, ((c :: rest).length + exponent).toNat = before + 1 :=
      ⟨((c :: rest).length + exponent).toNat - 1, by omega⟩
    rw [before_eq]
    exact ⟨c, rfl, digit⟩
  · exact ⟨'0', rfl, rfl⟩

/-- The text of a finite number begins with a sign or a digit. -/
theorem exists_head_programText {x : Float} (finite : isFinite x) :
    ∃ c ∈ (programText x).toList.head?, c = '-' ∨ c.isDigit := by
  unfold programText
  split
  · rename_i n _
    cases n with
    | ofNat n =>
      obtain ⟨c, is_first, digit⟩ := exists_head_digits n
      exact ⟨c, is_first, .inr digit⟩
    | negSucc n =>
      refine ⟨'-', ?_, .inl rfl⟩
      change '-' ∈ ("-" ++ Nat.repr (n + 1)).toList.head?
      rw [String.toList_append]
      rfl
  · rw [isNaN_of_isFinite finite, if_neg Bool.false_ne_true, finite, Bool.not_true,
      if_neg Bool.false_ne_true]
    unfold Layout.ofDouble
    generalize (scaled x).shortest double _ = d
    rw [programLayout_text, String.toList_ofList]
    split
    · exact ⟨'-', rfl, .inl rfl⟩
    · obtain ⟨c, is_first, digit⟩ :=
        exists_head_positionalText d.exponent (exists_head_digits d.digits) false
      exact ⟨c, is_first, .inr digit⟩

/-! ## Texts with fixed places -/

theorem roundedQuotient_le (num den : Nat) : roundedQuotient num den ≤ num + 1 := by
  have quotient := Nat.div_le_self num den
  unfold roundedQuotient
  dsimp only
  split
  · omega
  · split
    · omega
    · split <;> omega

theorem scaled_bounds {x : Float} (finite : isFinite x) :
    (scaled x).mantissa < Nat.pow 2 53 ∧ (scaled x).exponent ≤ 971 := by
  rcases finite_cases finite with ⟨zero_sign, -, exact⟩ |
    ⟨sign, mantissa, exponent, canonical, -, exact⟩
  · rw [exact]
    exact (by decide : 0 < Nat.pow 2 53 ∧ (-1074 : Int) ≤ 971)
  · rw [exact]
    exact ⟨canonical.below, canonical.greatest⟩

/-- The greatest double in units of the last of twenty places. -/
theorem fixedUnits_le {mantissa places power : Nat} (below : mantissa < Nat.pow 2 53)
    (few : places ≤ 20) (least : power ≤ 971) :
    mantissa * Nat.pow 10 places * Nat.pow 2 power + 1 < 10 ^ 330 := by
  obtain ⟨most, of_most⟩ : ∃ most, most = 971 := ⟨_, rfl⟩
  rw [← of_most] at least
  have product := Nat.mul_le_mul
    (Nat.mul_le_mul below.le (Nat.pow_le_pow_right (by decide : 0 < 10) few))
    (Nat.pow_le_pow_right (by decide : 0 < 2) least)
  have bound : Nat.pow 2 53 * 10 ^ 20 * 2 ^ most + 1 < 10 ^ 330 := by
    rw [of_most]
    decide +kernel
  exact (Nat.add_le_add_right product 1).trans_lt bound

theorem fixedText_size_le (x : Float) {places : Nat} (few : places ≤ 20) :
    (fixedText x places).utf8ByteSize ≤ textBound := by
  unfold fixedText
  split
  · decide
  · split
    · split <;> decide
    · rename_i finite
      obtain ⟨mantissa, exponent⟩ := scaled_bounds (x := x) (by simpa using finite)
      unfold Scaled.fixed
      generalize of_units : roundedQuotient _ _ = units
      have below : units < 10 ^ 330 := by
        have bound := roundedQuotient_le
          ((scaled x).mantissa * Nat.pow 10 places * Nat.pow 2 (scaled x).exponent.toNat)
          (Nat.pow 2 (-(scaled x).exponent).toNat)
        have product := fixedUnits_le mantissa few (Int.toNat_le.mpr exponent)
        rw [of_units] at bound
        omega
      have digits := (Nat.length_repr_le_iff (by decide)).mpr below
      have padded : Text.byteSize (zeros (places + 1 - (Nat.repr units).toList.length) ++
          (Nat.repr units).toList) ≤ 330 := by
        rw [Text.byteSize_append, byteSize_zeros, byteSize_digits, String.length_toList]
        omega
      dsimp only
      generalize zeros _ ++ (Nat.repr units).toList = text at padded ⊢
      have split_at := congrArg Text.byteSize (List.take_append_drop (text.length - places) text)
      rw [Text.byteSize_append] at split_at
      have dot : '.'.utf8Size = 1 := rfl
      have magnitude : Text.byteSize (if places = 0 then text.take (text.length - places) else
          text.take (text.length - places) ++ '.' :: text.drop (text.length - places)) ≤ 331 := by
        split
        · omega
        · rw [Text.byteSize_append, Text.byteSize_cons, dot]
          omega
      rw [Text.utf8ByteSize_ofList]
      change _ ≤ 400
      split
      · have sign : '-'.utf8Size = 1 := rfl
        rw [Text.byteSize_cons, sign]
        omega
      · omega

end Tabletop.Number
