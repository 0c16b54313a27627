import Tabletop.Proofs.Number.Whole

/-!
Sums and products with the doubles zero and one. Natural numbers below 2^53 are counted exactly, and every
one below 2^64 is rounded to a double that such sums and products leave as it is.
-/

namespace Tabletop.Number

open Float.Model Float.Model.UnpackedFloat

variable {x y : Float} {n mantissa : Nat} {exponent : Int}

section Natural

/-- The double without a sign that is zero or has a mantissa and an exponent. -/
def Plain (x : Float) : Prop :=
  x.toModel.unpack = .zero .positive ∨
    ∃ mantissa exponent, ∃ canonical : Canonical mantissa exponent,
      x.toModel.unpack = canonical.signed .positive

theorem unpack_whole (positive : 0 < n) (below : n < 2 ^ 53) :
    (Float.ofNat n).toModel.unpack = (canonical_whole positive below).signed .positive :=
  unpack_ofNat positive (canonical_whole positive below) (whole_eq below).symm

theorem unpack_one : ∃ canonical : Canonical (2 ^ 52) (-52),
    (1 : Float).toModel.unpack = canonical.signed .positive :=
  ⟨_, unpack_whole (n := 1) (by decide) (by decide)⟩

/-- A rounded quotient is a quotient or one more, less than half a unit away, or half a unit and even. -/
theorem roundedQuotient_near (num : Nat) {den : Nat} (positive : 0 < den) :
    ∃ whole, num / den ≤ whole ∧ whole ≤ num / den + 1 ∧ 2 * whole * den ≤ 2 * num + den ∧
      2 * num ≤ (2 * whole + 1) * den ∧
        (whole % 2 = 1 → 2 * whole * den < 2 * num + den ∧ 2 * num < (2 * whole + 1) * den) := by
  have split := Nat.div_add_mod num den
  have small := Nat.mod_lt num positive
  generalize num / den = quotient at *
  generalize num % den = rest at *
  subst split
  rcases lt_trichotomy (2 * rest) den with less | half | more
  · exact ⟨quotient, le_rfl, by omega, by linarith, by linarith, fun _ => ⟨by linarith, by linarith⟩⟩
  · by_cases even : quotient % 2 = 0
    · exact ⟨quotient, le_rfl, by omega, by linarith, by linarith, fun odd => by omega⟩
    · exact ⟨quotient + 1, by omega, le_rfl, by linarith, by linarith, fun odd => by omega⟩
  · exact ⟨quotient + 1, by omega, le_rfl, by linarith, by linarith,
      fun _ => ⟨by linarith, by linarith⟩⟩

/-- A mantissa near a number in units of a power of two is one that the number rounds to. -/
theorem roundsTo_of_near {places : Nat} (at_least : 2 ^ 52 * 2 ^ places ≤ n)
    (low : 2 * mantissa * 2 ^ places ≤ 2 * n + 2 ^ places)
    (high : 2 * n ≤ (2 * mantissa + 1) * 2 ^ places)
    (strict : mantissa % 2 = 1 →
      2 * mantissa * 2 ^ places < 2 * n + 2 ^ places ∧ 2 * n < (2 * mantissa + 1) * 2 ^ places) :
    RoundsTo n mantissa places := by
  rw [← Nat.cast_le (α := ℚ)] at at_least low high
  rw [← Nat.cast_lt (α := ℚ), ← Nat.cast_lt (α := ℚ)] at strict
  push_cast at at_least low high strict
  have unit : (0 : ℚ) < 2 ^ places := by positivity
  constructor
  · rw [zpow_natCast]
    linarith
  · rintro rfl _
    rw [zpow_natCast]
    push_cast
    linarith
  · rw [zpow_natCast]
    linarith
  · intro odd
    obtain ⟨above, below⟩ := strict odd
    rw [zpow_natCast]
    exact ⟨by linarith, by linarith⟩

/-- A carry out of 53 bits leaves an even mantissa at the next place. -/
theorem RoundsTo.carry {value : ℚ} (rounds : RoundsTo value (2 ^ 53) exponent) :
    RoundsTo value (2 ^ 52) (exponent + 1) := by
  have next : (2 : ℚ) ^ (exponent + 1) = 2 * 2 ^ exponent := by
    rw [zpow_add_one₀ (by norm_num), mul_comm]
  have unit : (0 : ℚ) < 2 ^ exponent := by positivity
  have low := rounds.low
  have high := rounds.high
  push_cast at low high
  constructor
  · rw [next]
    push_cast
    linarith
  · intro _ _
    rw [next]
    push_cast
    linarith
  · rw [next]
    push_cast
    linarith
  · intro odd
    norm_num at odd

/-- A number of more than 53 bits rounds to a mantissa of 53 bits, which may be carried. -/
theorem exists_roundsTo_of_le (large : 2 ^ 53 ≤ n) (below : n < 2 ^ 64) :
    ∃ mantissa exponent, Canonical mantissa exponent ∧ RoundsTo n mantissa exponent := by
  have some_bit : n ≠ 0 := by omega
  have low_bits : 53 ≤ n.log2 := (Nat.le_log2 some_bit).mpr large
  have high_bits : n.log2 < 64 := (Nat.log2_lt some_bit).mpr below
  obtain ⟨places, places_eq⟩ : ∃ places, n.log2 = 52 + places := ⟨n.log2 - 52, by omega⟩
  have unit_positive := Nat.two_pow_pos places
  obtain ⟨whole, from_quotient, to_quotient, low, high, strict⟩ := roundedQuotient_near n unit_positive
  have at_least : 2 ^ 52 * 2 ^ places ≤ n := by
    rw [← Nat.pow_add, ← places_eq]
    exact Nat.log2_self_le some_bit
  have at_most : n < 2 ^ 53 * 2 ^ places := by
    rw [← Nat.pow_add, show 53 + places = n.log2 + 1 by omega]
    exact Nat.lt_log2_self
  have full : 2 ^ 52 ≤ whole := ((Nat.le_div_iff_mul_le unit_positive).mpr at_least).trans from_quotient
  have carried : whole ≤ 2 ^ 53 := to_quotient.trans ((Nat.div_lt_iff_lt_mul unit_positive).mpr at_most)
  have rounds := roundsTo_of_near at_least low high strict
  rcases Nat.lt_or_eq_of_le carried with below | rfl
  · exact ⟨whole, places, ⟨by omega, below, by omega, .inl full, by omega⟩, rounds⟩
  · exact ⟨2 ^ 52, places + 1, ⟨by omega, by omega, by omega, .inl le_rfl, by omega⟩, rounds.carry⟩

theorem plain_ofNat (below : n < 2 ^ 64) : Plain (Float.ofNat n) := by
  rcases Nat.eq_zero_or_pos n with rfl | positive
  · exact .inl unpack_zero
  · by_cases small : n < 2 ^ 53
    · exact .inr ⟨_, _, _, unpack_whole positive small⟩
    · obtain ⟨mantissa, exponent, canonical, rounds⟩ := exists_roundsTo_of_le (not_lt.mp small) below
      refine .inr ⟨_, _, canonical, unpack_ofScientific positive canonical ?_ ?_ ?_⟩
      · decide
      · simp only [signed, Bool.false_eq_true, if_false]
        omega
      · simpa [signed] using rounds

end Natural

section Operations

theorem unpack_add (x y : Float) : (x + y).toModel.unpack =
    UnpackedFloat.unpack Format.binary64 (UnpackedFloat.pack Format.binary64
      (UnpackedFloat.add Format.binary64 x.toModel.unpack y.toModel.unpack)) := rfl

theorem Plain.add_zero (plain : Plain x) : x + 0 = x := by
  apply eq_of_unpack_eq
  rw [unpack_add, unpack_zero]
  rcases plain with zero | ⟨mantissa, exponent, canonical, unpacked⟩
  · rw [zero]
    exact unpack_pack_zero .positive
  · rw [unpacked]
    exact unpack_pack_canonical canonical .positive

theorem Plain.zero_add (plain : Plain x) : 0 + x = x := by
  apply eq_of_unpack_eq
  rw [unpack_add, unpack_zero]
  rcases plain with zero | ⟨mantissa, exponent, canonical, unpacked⟩
  · rw [zero]
    exact unpack_pack_zero .positive
  · rw [unpacked]
    exact unpack_pack_canonical canonical .positive

theorem Plain.mul_zero (plain : Plain x) : x * 0 = 0 := by
  apply eq_of_unpack_eq
  rw [unpack_mul, unpack_zero]
  rcases plain with zero | ⟨mantissa, exponent, canonical, unpacked⟩
  · rw [zero]
    exact unpack_pack_zero .positive
  · rw [unpacked]
    exact unpack_pack_zero .positive

theorem le_log2_shifted (positive : 0 < n) : 52 ≤ (n * 2 ^ 52).log2 := by
  rw [Nat.le_log2 (Nat.mul_pos positive (by decide)).ne']
  exact Nat.le_mul_of_pos_left _ positive

theorem Plain.mul_one (plain : Plain x) : x * 1 = x := by
  apply eq_of_unpack_eq
  obtain ⟨one, unpacked_one⟩ := unpack_one
  rw [unpack_mul, unpacked_one]
  rcases plain with zero | ⟨mantissa, exponent, canonical, unpacked⟩
  · rw [zero]
    exact unpack_pack_zero .positive
  · rw [unpacked]
    have places := le_log2_shifted canonical.positive
    have value : (mantissa * 2 ^ exponent * ((2 ^ 52 : ℕ) * 2 ^ (-52 : ℤ)) : ℚ) =
        mantissa * 2 ^ exponent := by
      norm_num
    have product : UnpackedFloat.mul Format.binary64 (canonical.signed .positive)
        (one.signed .positive) = canonical.signed .positive :=
      mul_of_roundsTo canonical.positive one.positive canonical
        (by simp only [totalExponent]; omega) (.of_eq value)
    rw [product]
    exact unpack_pack_canonical canonical .positive

/-- A whole number at a place, of digits enough, is rounded to the double that it lies next to. -/
theorem normalize_of_roundsTo {whole : Nat} {place : Int} (positive : 0 < whole)
    (enough : place ≤ max (totalExponent whole place - 53) (-1074))
    (canonical : Canonical mantissa exponent) (rounds : RoundsTo (whole * 2 ^ place) mantissa exponent) :
    UnpackedFloat.normalize Format.binary64 whole place .positive = canonical.signed .positive := by
  have above : compare (whole : Int) 0 = .gt := by
    rw [Int.compare_eq_gt]
    omega
  have no_shift : (place - Format.binary64.targetExponent (totalExponent whole place)).toNat = 0 := by
    rw [targetExponent_eq]
    omega
  rw [← Nat.div_one whole] at enough
  have rounded := roundWithAccuracy_of_roundsTo Nat.one_pos canonical enough
    (by rwa [Nat.cast_one, div_one]) .positive
  rw [Nat.div_one, Nat.mod_one] at rounded
  simp only [UnpackedFloat.normalize, above, UnpackedFloat.round, Int.toNat_natCast, decreaseExponent, no_shift,
    Nat.shiftLeft_zero, Nat.cast_zero, sub_zero]
  exact rounded

/-- Positive numbers are added at the place of the lower last bit. -/
theorem add_positive {m₁ m₂ : Nat} {e₁ e₂ : Int} (first : Canonical m₁ e₁) (second : Canonical m₂ e₂) :
    UnpackedFloat.add Format.binary64 (first.signed .positive) (second.signed .positive) =
      UnpackedFloat.normalize Format.binary64
        ((m₁ <<< (e₁ - min e₁ e₂).toNat : ℕ) + (m₂ <<< (e₂ - min e₁ e₂).toNat : ℕ)) (min e₁ e₂)
        .positive := rfl

/-- The sum of two doubles that take all of 53 bits is rounded to the double that it lies next to. -/
theorem unpack_add_of_roundsTo {m₁ m₂ : Nat} {e₁ e₂ : Int} {first : Canonical m₁ e₁}
    {second : Canonical m₂ e₂} (full₁ : 2 ^ 52 ≤ m₁) (full₂ : 2 ^ 52 ≤ m₂)
    (unpacked₁ : x.toModel.unpack = first.signed .positive)
    (unpacked₂ : y.toModel.unpack = second.signed .positive) (canonical : Canonical mantissa exponent)
    (rounds : RoundsTo (m₁ * 2 ^ e₁ + m₂ * 2 ^ e₂) mantissa exponent) :
    (x + y).toModel.unpack = canonical.signed .positive := by
  obtain ⟨place, is_least⟩ : ∃ place, min e₁ e₂ = place := ⟨_, rfl⟩
  obtain ⟨k₁, e₁_eq⟩ : ∃ k₁ : ℕ, e₁ = place + k₁ := ⟨(e₁ - place).toNat, by omega⟩
  obtain ⟨k₂, e₂_eq⟩ : ∃ k₂ : ℕ, e₂ = place + k₂ := ⟨(e₂ - place).toNat, by omega⟩
  have shifts : (e₁ - place).toNat = k₁ ∧ (e₂ - place).toNat = k₂ := by omega
  have large : 2 ^ 53 ≤ m₁ * 2 ^ k₁ + m₂ * 2 ^ k₂ := by
    have left := Nat.le_mul_of_pos_right m₁ (Nat.two_pow_pos k₁)
    have right := Nat.le_mul_of_pos_right m₂ (Nat.two_pow_pos k₂)
    omega
  have digits := (Nat.le_log2 (Nat.ne_of_gt (Nat.lt_of_lt_of_le (by decide) large))).mpr large
  have value : ((m₁ * 2 ^ k₁ + m₂ * 2 ^ k₂ : ℕ) * 2 ^ place : ℚ) = m₁ * 2 ^ e₁ + m₂ * 2 ^ e₂ := by
    rw [e₁_eq, e₂_eq, zpow_add₀ (by norm_num), zpow_add₀ (by norm_num), zpow_natCast, zpow_natCast]
    push_cast
    ring
  rw [← value] at rounds
  have rounded := normalize_of_roundsTo (Nat.lt_of_lt_of_le (by decide) large)
    (by simp only [totalExponent]; omega) canonical rounds
  rw [unpack_add, unpacked₁, unpacked₂, add_positive, is_least, shifts.1, shifts.2, Nat.shiftLeft_eq,
    Nat.shiftLeft_eq, ← Nat.cast_add, rounded, unpack_pack_canonical]

theorem exists_canonical_whole (positive : 0 < n) (countable : n ≤ 2 ^ 53) :
    ∃ mantissa exponent, Canonical mantissa exponent ∧ 2 ^ 52 ≤ mantissa ∧
      (n : ℚ) = mantissa * 2 ^ exponent := by
  rcases Nat.lt_or_eq_of_le countable with below | rfl
  · exact ⟨_, _, canonical_whole positive below, whole_full positive below, (whole_eq below).symm⟩
  · exact ⟨2 ^ 52, 1, ⟨by decide, by decide, by decide, .inl le_rfl, by decide⟩, le_rfl, by norm_num⟩

/-- Whole numbers are added exactly up to 2^53. -/
theorem ofNat_add {more : Nat} (countable : n + more ≤ 2 ^ 53) :
    Float.ofNat n + Float.ofNat more = Float.ofNat (n + more) := by
  rcases Nat.eq_zero_or_pos n with rfl | positive
  · rw [Nat.zero_add]
    exact (plain_ofNat (by omega)).zero_add
  rcases Nat.eq_zero_or_pos more with rfl | positive'
  · exact (plain_ofNat (by omega)).add_zero
  obtain ⟨m₁, e₁, first, full₁, value₁⟩ := exists_canonical_whole positive (by omega)
  obtain ⟨m₂, e₂, second, full₂, value₂⟩ := exists_canonical_whole positive' (by omega)
  obtain ⟨m, e, canonical, -, value⟩ := exists_canonical_whole (Nat.add_pos_left positive more) countable
  apply eq_of_unpack_eq
  rw [unpack_ofNat (Nat.add_pos_left positive more) canonical value]
  refine unpack_add_of_roundsTo full₁ full₂ (unpack_ofNat positive first value₁)
    (unpack_ofNat positive' second value₂) canonical (.of_eq ?_)
  rw [← value, ← value₁, ← value₂, Nat.cast_add]

/-- Whole numbers below 2^53 are counted exactly. -/
theorem ofNat_add_one (below : n + 1 < 2 ^ 53) : Float.ofNat n + 1 = Float.ofNat (n + 1) :=
  ofNat_add below.le

end Operations

section Values

/-- A whole number below 2^53 is told apart from one. -/
theorem ofNat_beq_one_iff (below : n < 2 ^ 53) : (Float.ofNat n == 1) = true ↔ n = 1 := by
  obtain ⟨one, unpacked_one⟩ := unpack_one
  change ((Float.ofNat n).toModel.unpack.compare (1 : Float).toModel.unpack == some .eq) = true ↔ _
  rcases Nat.eq_zero_or_pos n with rfl | positive
  · have zero : (Float.ofNat 0).toModel.unpack = .zero .positive := unpack_zero
    rw [zero, unpacked_one]
    constructor
    · intro same
      cases same
    · intro same
      cases same
  · rw [unpack_whole positive below, unpacked_one, beq_iff_eq]
    have compared : UnpackedFloat.compare ((canonical_whole positive below).signed .positive)
        (one.signed .positive) = some ((compare (n.log2 - 52 : Int) (-52)).then
          (compare (n * 2 ^ (52 - n.log2)) (2 ^ 52))) := rfl
    rw [compared, Option.some_inj, Ordering.then_eq_eq, Int.compare_eq_eq, Nat.compare_eq_eq]
    constructor
    · rintro ⟨no_bits, same⟩
      have short : n.log2 = 0 := by omega
      rw [short] at same
      omega
    · rintro rfl
      decide

/-- Digits without a point are read as the double of their number. -/
theorem toFloat_whole (below : n < 2 ^ 64) : (⟨false, n, 0⟩ : Decimal).toFloat = Float.ofNat n := by
  rcases Nat.eq_zero_or_pos n with rfl | positive
  · rfl
  · have short : (Nat.repr n).length ≤ 64 :=
      (Nat.length_repr_le_iff (by decide)).mpr (below.trans (two_pow_lt_ten_pow (by decide) le_rfl))
    have no_overflow : ¬ (400 : Int) < (Nat.repr n).length + 0 := by omega
    have no_underflow : ¬ ((Nat.repr n).length + 0 : Int) < -400 := by omega
    simp only [Decimal.toFloat, if_neg positive.ne', if_neg no_overflow, if_neg no_underflow,
      Bool.false_eq_true, if_false]
    rfl

theorem scaled_of_unpack {canonical : Canonical mantissa exponent} {sign : Sign}
    (unpacked : x.toModel.unpack = canonical.signed sign) :
    isFinite x = true ∧ scaled x = ⟨isMinus sign, mantissa, exponent⟩ := by
  have finite : isFinite x = true := by
    by_contra infinite
    rcases infinite_cases (by simpa using infinite) with ⟨other_sign, other⟩ | other
    · rw [unpacked] at other
      cases other
    · rw [unpacked] at other
      cases other
  refine ⟨finite, ?_⟩
  rcases finite_cases finite with ⟨other_sign, zero, _⟩ |
    ⟨other_sign, other_mantissa, other_exponent, other_canonical, other, exact⟩
  · rw [unpacked] at zero
    cases zero
  · rw [unpacked] at other
    cases other
    exact exact

/-- A whole number below 2^53 has no place behind its point. -/
theorem wholePart_whole (positive : 0 < n) (below : n < 2 ^ 53) (negative : Bool) :
    let exact : Scaled := ⟨negative, n * 2 ^ (52 - n.log2), n.log2 - 52⟩
    exact.isWhole = true ∧ exact.wholePart = n := by
  intro exact
  have digits : n.log2 < 53 := (Nat.log2_lt positive.ne').mpr below
  have places : (-((n.log2 : Int) - 52)).toNat = 52 - n.log2 := by omega
  have whole_part : exact.wholePart = n := by
    rw [Scaled.wholePart]
    dsimp only [exact]
    split
    · -- All 53 bits are taken, so that none stands behind the point.
      have all : n.log2 = 52 := by omega
      simp [all]
    · rw [places, Nat.shiftRight_eq_div_pow]
      exact Nat.mul_div_cancel n (Nat.two_pow_pos _)
  constructor
  · rw [Scaled.isWhole, whole_part]
    simp [exact, Nat.shiftLeft_eq]
  · exact whole_part

/-- The double of a whole number below 2^53, with a sign, is that number. -/
theorem wholeInt_of_unpack (positive : 0 < n) (below : n < 2 ^ 53) {sign : Sign}
    (unpacked : x.toModel.unpack = (canonical_whole positive below).signed sign) :
    isWhole x = true ∧ wholeInt x = signed (isMinus sign) n := by
  obtain ⟨finite, exact⟩ := scaled_of_unpack unpacked
  obtain ⟨whole, whole_part⟩ := wholePart_whole positive below (isMinus sign)
  rw [← exact] at whole whole_part
  constructor
  · rw [isWhole, finite, whole, Bool.and_self]
  · rw [wholeInt, whole_part, exact]
    rfl

theorem wholeInt_ofNat (below : n < 2 ^ 53) :
    isWhole (Float.ofNat n) = true ∧ wholeInt (Float.ofNat n) = n := by
  rcases Nat.eq_zero_or_pos n with rfl | positive
  · obtain ⟨finite, exact⟩ := scaled_zero.1
    change isWhole 0 = true ∧ wholeInt 0 = 0
    rw [isWhole, wholeInt, finite, exact]
    decide
  · exact wholeInt_of_unpack positive below (unpack_whole positive below)

theorem smallInt?_of_unpack (positive : 0 < n) (below : n < 2 ^ 53) {sign : Sign}
    (unpacked : x.toModel.unpack = (canonical_whole positive below).signed sign)
    (small : n < 9000000000000000) : smallInt? x = some (signed (isMinus sign) n) := by
  obtain ⟨whole, same⟩ := wholeInt_of_unpack positive below unpacked
  have digits : n.log2 < 53 := (Nat.log2_lt positive.ne').mpr below
  have within : x.abs < wholeBound := by
    rw [abs_lt_iff unpacked]
    by_cases all : n.log2 = 52
    · right
      simp [all, small]
    · left
      omega
  rw [smallInt?, whole, same]
  simp [within]

theorem smallInt?_zero : smallInt? 0 = some 0 ∧ smallInt? (-0.0) = some 0 := by decide +kernel

/-- An integer below nine quadrillion is what its double holds. -/
theorem smallInt?_ofInt {value : Int} (small : value.natAbs < 9000000000000000) :
    smallInt? (Float.ofInt value) = some value := by
  cases value with
  | ofNat whole =>
    rcases Nat.eq_zero_or_pos whole with rfl | positive
    · exact smallInt?_zero.1
    · have small : whole < 9000000000000000 := small
      have below : whole < 2 ^ 53 := by omega
      exact smallInt?_of_unpack positive below (unpack_whole positive below) small
  | negSucc before =>
    have small : before + 1 < 9000000000000000 := small
    have below : before + 1 < 2 ^ 53 := by omega
    exact smallInt?_of_unpack (Nat.succ_pos before) below
      (unpack_neg (unpack_whole (Nat.succ_pos before) below)) small

end Values
end Tabletop.Number
