import Tabletop.Number.Decimal
import Tabletop.Proofs.Number.Digits
import Tabletop.Proofs.Number.Packing

/-!
A decimal number is read as the double that it rounds to.
-/

namespace Tabletop.Number

open Float.Model Float.Model.UnpackedFloat

variable {mantissa : Nat} {exponent : Int}

section Operations

theorem RoundsTo.of_eq {value : ℚ} (exact : value = mantissa * 2 ^ exponent) :
    RoundsTo value mantissa exponent := by
  have unit : (0 : ℚ) < 2 ^ exponent := by positivity
  subst exact
  exact ⟨by linarith, fun _ _ => by linarith, by linarith, fun _ => ⟨by linarith, by linarith⟩⟩

variable {m₁ m₂ : Nat} {e₁ e₂ : Int} {sign₁ sign₂ : Sign}

/-- A number that is in place already is not rounded. -/
theorem roundWithAccuracy_canonical (canonical : Canonical mantissa exponent) (sign : Sign) :
    roundWithAccuracy Format.binary64 sign mantissa exponent .exact = canonical.signed sign := by
  have least := canonical.least
  have digits : mantissa.log2 = 52 ∨ exponent = -1074 := canonical.full.imp_left fun full => by
    have low := (Nat.le_log2 canonical.positive.ne').mpr full
    have high := (Nat.log2_lt canonical.positive.ne').mpr canonical.below
    omega
  have in_place : exponent ≤ max (totalExponent (mantissa / 1) exponent - 53) (-1074) := by
    rw [Nat.div_one]
    simp only [totalExponent]
    omega
  have rounded := roundWithAccuracy_of_roundsTo Nat.one_pos canonical in_place
    (RoundsTo.of_eq (by simp)) sign
  rwa [Nat.div_one, Nat.mod_one] at rounded

theorem mul_of_roundsTo (positive₁ : 0 < m₁) (positive₂ : 0 < m₂)
    (canonical : Canonical mantissa exponent)
    (enough : e₁ + e₂ ≤ max (totalExponent (m₁ * m₂) (e₁ + e₂) - 53) (-1074))
    (rounds : RoundsTo (m₁ * 2 ^ e₁ * (m₂ * 2 ^ e₂)) mantissa exponent) :
    UnpackedFloat.mul Format.binary64 (.finite sign₁ m₁ e₁ positive₁) (.finite sign₂ m₂ e₂ positive₂) =
      canonical.signed (sign₁ * sign₂) := by
  have value : (m₁ * 2 ^ e₁ * (m₂ * 2 ^ e₂) : ℚ) = (m₁ * m₂ : ℕ) / (1 : ℕ) * 2 ^ (e₁ + e₂) := by
    rw [zpow_add₀ (by norm_num)]
    push_cast
    ring
  rw [value] at rounds
  have whole : m₁ * m₂ = m₁ * m₂ / 1 := (Nat.div_one _).symm
  rw [whole] at enough
  have rounded := roundWithAccuracy_of_roundsTo Nat.one_pos canonical enough rounds (sign₁ * sign₂)
  rwa [← whole, Nat.mod_one] at rounded

/-- A quotient is computed with a digit more than a double holds. -/
theorem totalExponent_div {num den : Nat} (start : Int) (positive : 0 < num) (den_positive : 0 < den) :
    num.log2 - den.log2 + start ≤ totalExponent (num / den) start := by
  have above : num < 2 ^ ((num / den).log2 + 1) * 2 ^ (den.log2 + 1) :=
    calc num < (num / den + 1) * den := by
          rw [Nat.add_mul, Nat.one_mul, Nat.mul_comm]
          have := Nat.div_add_mod num den
          have := Nat.mod_lt num den_positive
          omega
      _ ≤ 2 ^ ((num / den).log2 + 1) * 2 ^ (den.log2 + 1) :=
          Nat.mul_le_mul Nat.lt_log2_self Nat.lt_log2_self.le
  rw [← Nat.pow_add, ← Nat.log2_lt positive.ne'] at above
  simp only [totalExponent]
  omega

theorem div_of_roundsTo (positive₁ : 0 < m₁) (positive₂ : 0 < m₂)
    (canonical : Canonical mantissa exponent)
    (rounds : RoundsTo (m₁ * 2 ^ e₁ / (m₂ * 2 ^ e₂)) mantissa exponent) :
    UnpackedFloat.div Format.binary64 (.finite sign₁ m₁ e₁ positive₁) (.finite sign₂ m₂ e₂ positive₂) =
      canonical.signed (sign₁ / sign₂) := by
  obtain ⟨target, target_eq⟩ : ∃ target,
      min (e₁ - e₂) (max (totalExponent m₁ e₁ - totalExponent m₂ e₂ - 53) (-1074)) = target :=
    ⟨_, rfl⟩
  have divided : UnpackedFloat.div Format.binary64 (.finite sign₁ m₁ e₁ positive₁)
      (.finite sign₂ m₂ e₂ positive₂) =
        roundWithAccuracy Format.binary64 (sign₁ / sign₂)
          (m₁ <<< (e₁ - e₂ - target).toNat / m₂) target
          (accuracyOfFraction (m₁ <<< (e₁ - e₂ - target).toNat % m₂) m₂) := by
    rw [← target_eq]
    rfl
  obtain ⟨shift, shift_eq⟩ : ∃ shift : ℕ, e₁ - e₂ = target + shift :=
    ⟨(e₁ - e₂ - target).toNat, by omega⟩
  have shifted : (e₁ - e₂ - target).toNat = shift := by omega
  rw [divided, shifted, Nat.shiftLeft_eq]
  have positive : 0 < m₁ * 2 ^ shift := Nat.mul_pos positive₁ (Nat.two_pow_pos shift)
  have places : m₁.log2 + shift ≤ (m₁ * 2 ^ shift).log2 := by
    rw [Nat.le_log2 positive.ne', Nat.pow_add]
    exact Nat.mul_le_mul_right _ (Nat.log2_self_le positive₁.ne')
  have total := totalExponent_div target positive positive₂
  refine roundWithAccuracy_of_roundsTo positive₂ canonical ?_ ?_ _
  · simp only [totalExponent] at target_eq total ⊢
    omega
  · have value : (m₁ * 2 ^ e₁ / (m₂ * 2 ^ e₂) : ℚ) = (m₁ * 2 ^ shift : ℕ) / m₂ * 2 ^ target := by
      have powers : (2 : ℚ) ^ e₁ = 2 ^ shift * 2 ^ target * 2 ^ e₂ := by
        rw [← zpow_natCast, ← zpow_add₀ (by norm_num), ← zpow_add₀ (by norm_num)]
        congr 1
        omega
      rw [powers]
      push_cast
      field_simp
    rwa [value] at rounds

end Operations

section Whole

theorem whole_full {n : Nat} (positive : 0 < n) (below : n < 2 ^ 53) :
    2 ^ 52 ≤ n * 2 ^ (52 - n.log2) := by
  have digits : n.log2 < 53 := (Nat.log2_lt positive.ne').mpr below
  calc 2 ^ 52 = 2 ^ n.log2 * 2 ^ (52 - n.log2) := by
        rw [← Nat.pow_add]
        congr 1
        omega
    _ ≤ n * 2 ^ (52 - n.log2) := Nat.mul_le_mul_right _ (Nat.log2_self_le positive.ne')

/-- A positive whole number below the first that needs more than 53 bits. -/
theorem canonical_whole {n : Nat} (positive : 0 < n) (below : n < 2 ^ 53) :
    Canonical (n * 2 ^ (52 - n.log2)) (n.log2 - 52) := by
  have digits : n.log2 < 53 := (Nat.log2_lt positive.ne').mpr below
  have width : 2 ^ n.log2 * 2 ^ (52 - n.log2) = 2 ^ 52 := by
    rw [← Nat.pow_add]
    congr 1
    omega
  have factor := Nat.two_pow_pos (52 - n.log2)
  refine ⟨Nat.mul_pos positive factor, ?_, by omega, Or.inl (whole_full positive below), by omega⟩
  have high := Nat.mul_lt_mul_of_pos_right (Nat.lt_log2_self (n := n)) factor
  rw [Nat.pow_succ] at high
  linarith

theorem whole_eq {n : Nat} (below : n < 2 ^ 53) :
    ((n * 2 ^ (52 - n.log2) : ℕ) * 2 ^ (n.log2 - 52 : Int) : ℚ) = n := by
  rcases Nat.eq_zero_or_pos n with rfl | positive
  · simp
  · have digits : n.log2 < 53 := (Nat.log2_lt positive.ne').mpr below
    have places : (2 : ℚ) ^ (n.log2 - 52 : Int) = (2 ^ (52 - n.log2))⁻¹ := by
      rw [← zpow_natCast, ← zpow_neg]
      congr 1
      omega
    rw [places]
    push_cast
    field_simp

theorem ofNat_eq {n : Nat} (positive : 0 < n) (below : n < 2 ^ 53) :
    UnpackedFloat.ofNat Format.binary64 n = (canonical_whole positive below).signed .positive := by
  have digits : n.log2 < 53 := (Nat.log2_lt positive.ne').mpr below
  have above : compare (n : Int) 0 = .gt := by
    rw [Int.compare_eq_gt]
    omega
  have target : Format.binary64.targetExponent (totalExponent n 0) = n.log2 - 52 := by
    rw [targetExponent_eq]
    simp only [totalExponent]
    omega
  have shift : (0 - (n.log2 - 52 : Int)).toNat = 52 - n.log2 := by omega
  have shift_back : (0 - (52 - n.log2 : ℕ) : Int) = n.log2 - 52 := by omega
  simp only [UnpackedFloat.ofNat, UnpackedFloat.ofInt, UnpackedFloat.normalize, above, UnpackedFloat.round,
    Int.toNat_natCast, target, decreaseExponent, shift, Nat.shiftLeft_eq, shift_back]
  exact roundWithAccuracy_canonical (canonical_whole positive below) .positive

theorem unpack_toFloat {n : Nat} (positive : 0 < n) (below : n < 2 ^ 53) :
    n.toUInt64.toFloat.toModel.unpack = (canonical_whole positive below).signed .positive := by
  have same : n.toUInt64.toNat = n := by
    rw [Nat.toUInt64_eq, UInt64.toNat_ofNat', Nat.mod_eq_of_lt (by omega)]
  change UnpackedFloat.unpack Format.binary64 (UnpackedFloat.pack Format.binary64
    (UnpackedFloat.ofNat Format.binary64 n.toUInt64.toNat)) = _
  rw [same, ofNat_eq positive below, unpack_pack_canonical]

end Whole

section Powers

/-- The exact value of a double without its sign. -/
def Scaled.magnitude (s : Scaled) : ℚ := s.mantissa * 2 ^ s.exponent

theorem Scaled.magnitude_eq {s : Scaled} {n : Nat}
    (same : s.mantissa * Nat.pow 2 s.exponent.toNat = n * Nat.pow 2 (-s.exponent).toNat) :
    s.magnitude = n := by
  have exact : (s.mantissa * 2 ^ s.exponent.toNat : ℚ) = n * 2 ^ (-s.exponent).toNat := by
    exact_mod_cast same
  have places : (2 : ℚ) ^ s.exponent = 2 ^ s.exponent.toNat / 2 ^ (-s.exponent).toNat := by
    rw [← zpow_natCast, ← zpow_natCast, ← zpow_sub₀ (by norm_num)]
    congr 1
    omega
  rw [magnitude, places, ← mul_div_assoc, exact]
  field_simp

/-- The table of powers of ten, as integers. -/
theorem exactPowers_table :
    ∀ e : Fin 23,
      let power := Float.exactlyRepresentablePowersOfTen[e]
      isFinite power ∧ (scaled power).negative = false ∧ Nat.pow 2 52 ≤ (scaled power).mantissa ∧
        (scaled power).mantissa * Nat.pow 2 (scaled power).exponent.toNat =
          Nat.pow 10 e * Nat.pow 2 (-(scaled power).exponent).toNat := by
  decide +kernel

theorem unpack_exactPower {e : Nat} (small : e < Float.exactlyRepresentablePowersOfTen.size) :
    ∃ mantissa exponent, ∃ canonical : Canonical mantissa exponent, 2 ^ 52 ≤ mantissa ∧
      Float.exactlyRepresentablePowersOfTen[e].toModel.unpack = canonical.signed .positive ∧
        (mantissa * 2 ^ exponent : ℚ) = 10 ^ e := by
  obtain ⟨finite, plus, full, same⟩ := exactPowers_table ⟨e, small⟩
  dsimp only at finite plus full same
  generalize Float.exactlyRepresentablePowersOfTen[e] = power at *
  have exact := Scaled.magnitude_eq same
  rcases finite_cases finite with ⟨sign, _, zero⟩ |
    ⟨sign, mantissa, exponent, canonical, unpacked, value⟩
  · rw [zero] at full
    exact absurd full (Nat.not_le.mpr (Nat.two_pow_pos 52))
  · rw [value] at plus full exact
    obtain rfl := isMinus_eq_false_iff.mp plus
    exact ⟨_, _, canonical, full, unpacked, by exact_mod_cast exact⟩

end Powers

section Scientific

theorem unpack_mul (x y : Float) : (x * y).toModel.unpack =
    UnpackedFloat.unpack Format.binary64 (UnpackedFloat.pack Format.binary64
      (UnpackedFloat.mul Format.binary64 x.toModel.unpack y.toModel.unpack)) := rfl

theorem unpack_div (x y : Float) : (x / y).toModel.unpack =
    UnpackedFloat.unpack Format.binary64 (UnpackedFloat.pack Format.binary64
      (UnpackedFloat.div Format.binary64 x.toModel.unpack y.toModel.unpack)) := rfl

/-- Few digits times a power of ten that is a double itself. -/
theorem unpack_mul_exactPower {digits e : Nat} (positive : 0 < digits) (few : digits < 2 ^ 53)
    (small : e < Float.exactlyRepresentablePowersOfTen.size) (canonical : Canonical mantissa exponent)
    (rounds : RoundsTo (digits * 10 ^ e) mantissa exponent) :
    (digits.toUInt64.toFloat * Float.exactlyRepresentablePowersOfTen[e]).toModel.unpack =
      canonical.signed .positive := by
  obtain ⟨m, place, power_canonical, full, power_unpacked, power_eq⟩ := unpack_exactPower small
  have digits_canonical := canonical_whole positive few
  rw [unpack_mul, unpack_toFloat positive few, power_unpacked,
    mul_of_roundsTo digits_canonical.positive power_canonical.positive canonical, unpack_pack_canonical]
  · rfl
  · -- two mantissas of 53 bits have a product of more than 104
    have product : 2 ^ 104 ≤ digits * 2 ^ (52 - digits.log2) * m := by
      rw [Nat.pow_add 2 52 52]
      exact Nat.mul_le_mul (whole_full positive few) full
    have places := (Nat.le_log2 (by omega)).mpr product
    simp only [totalExponent]
    omega
  · rwa [whole_eq few, power_eq]

/-- Few digits divided by a power of ten that is a double itself. -/
theorem unpack_div_exactPower {digits e : Nat} (positive : 0 < digits) (few : digits < 2 ^ 53)
    (small : e < Float.exactlyRepresentablePowersOfTen.size) (canonical : Canonical mantissa exponent)
    (rounds : RoundsTo (digits / 10 ^ e) mantissa exponent) :
    (digits.toUInt64.toFloat / Float.exactlyRepresentablePowersOfTen[e]).toModel.unpack =
      canonical.signed .positive := by
  obtain ⟨m, place, power_canonical, full, power_unpacked, power_eq⟩ := unpack_exactPower small
  have digits_canonical := canonical_whole positive few
  rw [unpack_div, unpack_toFloat positive few, power_unpacked,
    div_of_roundsTo digits_canonical.positive power_canonical.positive canonical, unpack_pack_canonical]
  · rfl
  · rwa [whole_eq few, power_eq]

/-- Digits with a power of ten that is no double, or more of them than a double holds. -/
theorem unpack_model_ofScientific {digits : Nat} {power : Int} (positive : 0 < digits)
    (canonical : Canonical mantissa exponent) (high : power ≤ 2 ^ 11)
    (low : -(2 ^ 11 + digits.log2 : Int) ≤ power)
    (rounds : RoundsTo (digits * 10 ^ power) mantissa exponent) :
    UnpackedFloat.unpack Format.binary64 (UnpackedFloat.pack Format.binary64
      (UnpackedFloat.ofScientific Format.binary64 digits power)) = canonical.signed .positive := by
  unfold UnpackedFloat.ofScientific
  rw [dif_neg positive.ne', if_neg (by change ¬ power > 2 ^ 11; omega),
    if_neg (by change ¬ power < -(2 ^ 11 + digits.log2 : Int); omega)]
  by_cases above : 0 ≤ power
  · rw [if_pos above]
    obtain ⟨count, rfl⟩ := Int.eq_ofNat_of_zero_le above
    rw [mul_of_roundsTo _ _ canonical, unpack_pack_canonical]
    · rfl
    · have product : 2 ^ 53 ≤ digits <<< 53 * 10 ^ count := by
        rw [Nat.shiftLeft_eq]
        nlinarith [Nat.pow_pos (n := count) (by norm_num : 0 < 10), Nat.two_pow_pos 53]
      have places := (Nat.le_log2 (by omega)).mpr product
      change (-53 : Int) + 0 ≤ max (totalExponent (digits <<< 53 * 10 ^ count) (-53 + 0) - 53) _
      simp only [totalExponent]
      omega
    · have value : ((digits <<< 53 : ℕ) * 2 ^ (-53 : Int) * ((10 ^ count : ℕ) * 2 ^ (0 : Int)) : ℚ) =
          digits * 10 ^ (count : Int) := by
        rw [Nat.shiftLeft_eq]
        push_cast
        rw [zpow_neg, zpow_natCast]
        field_simp
        norm_num
      change RoundsTo ((digits <<< 53 : ℕ) * 2 ^ (-53 : Int) * ((10 ^ count : ℕ) * 2 ^ (0 : Int))) _ _
      rwa [value]
  · rw [if_neg above]
    obtain ⟨count, rfl⟩ : ∃ count : ℕ, power = -count := ⟨power.natAbs, by omega⟩
    rw [div_of_roundsTo _ _ canonical, unpack_pack_canonical]
    · rfl
    · rw [neg_neg, Int.toNat_natCast]
      simpa [div_eq_mul_inv] using rounds

/-- Digits with a power of ten are read as the double that they round to. -/
theorem unpack_ofScientific {digits power : Nat} {below : Bool} (positive : 0 < digits)
    (canonical : Canonical mantissa exponent) (high : signed below power ≤ 2 ^ 11)
    (low : -(2 ^ 11 + digits.log2 : Int) ≤ signed below power)
    (rounds : RoundsTo (digits * 10 ^ signed below power) mantissa exponent) :
    (Float.ofScientific digits below power).toModel.unpack = canonical.signed .positive := by
  unfold Float.ofScientific
  split
  · rename_i fast
    obtain ⟨few, small⟩ := fast
    have within : power < Float.exactlyRepresentablePowersOfTen.size := Nat.lt_succ_of_le small
    cases below with
    | true =>
      refine unpack_div_exactPower positive few within canonical ?_
      simpa [signed, div_eq_mul_inv] using rounds
    | false =>
      refine unpack_mul_exactPower positive few within canonical ?_
      simpa [signed] using rounds
  · have model : (if below then Int.negOfNat power else Int.ofNat power) = signed below power := by
      rw [Int.negOfNat_eq]
      rfl
    dsimp only
    rw [model]
    exact unpack_model_ofScientific positive canonical high low rounds

end Scientific

section Decimals

/-- The value of a decimal number without its sign. -/
def Decimal.magnitude (d : Decimal) : ℚ := d.digits * 10 ^ d.exponent

/-- The sign of a number that may be negative. -/
def signOf (negative : Bool) : Sign := if negative then .negative else .positive

variable {d : Decimal}

theorem Decimal.digits_pos (positive : 0 < d.magnitude) : 0 < d.digits := by
  rcases Nat.eq_zero_or_pos d.digits with zero | some_digit
  · simp [magnitude, zero] at positive
  · exact some_digit

theorem Decimal.magnitude_lt : d.magnitude < 10 ^ ((Nat.repr d.digits).length + d.exponent : Int) := by
  have below : (d.digits : ℚ) < 10 ^ (Nat.repr d.digits).length := by
    exact_mod_cast lt_pow_length_repr d.digits
  rw [magnitude, zpow_add₀ (by norm_num), zpow_natCast]
  exact mul_lt_mul_of_pos_right below (by positivity)

theorem Decimal.le_magnitude (positive : 0 < d.digits) :
    (10 : ℚ) ^ ((Nat.repr d.digits).length + d.exponent - 1 : Int) ≤ d.magnitude := by
  have reached : (10 : ℚ) ^ ((Nat.repr d.digits).length - 1) ≤ d.digits := by
    exact_mod_cast pow_length_repr_le positive
  have some_digit := Nat.length_repr_pos (n := d.digits)
  have places : ((Nat.repr d.digits).length + d.exponent - 1 : Int) =
      ((Nat.repr d.digits).length - 1 : ℕ) + d.exponent := by omega
  rw [magnitude, places, zpow_add₀ (by norm_num), zpow_natCast]
  exact mul_le_mul_of_nonneg_right reached (by positivity)

theorem two_pow_le_ten_pow {a b : Nat} (less : Nat.pow 2 a ≤ Nat.pow 10 b) :
    (2 : ℚ) ^ a ≤ 10 ^ b := by
  exact_mod_cast less

/-- What rounds to a double is not far from the range of doubles. -/
theorem RoundsTo.within {value : ℚ} (canonical : Canonical mantissa exponent)
    (rounds : RoundsTo value mantissa exponent) : (10 : ℚ) ^ (-324 : Int) ≤ value ∧ value < 10 ^ 309 := by
  have mantissa_low : (1 : ℚ) ≤ mantissa := by exact_mod_cast canonical.positive
  have mantissa_high : (mantissa + 1 : ℚ) ≤ 2 ^ 53 := by exact_mod_cast canonical.below
  have unit_low : (2 : ℚ) ^ (-1074 : Int) ≤ 2 ^ exponent :=
    zpow_le_zpow_right₀ (by norm_num) canonical.least
  have unit_high : (2 : ℚ) ^ exponent ≤ 2 ^ (971 : Int) :=
    zpow_le_zpow_right₀ (by norm_num) canonical.greatest
  have least : (10 : ℚ) ^ (-324 : Int) ≤ 1 / 2 * 2 ^ (-1074 : Int) := by
    have powers : (2 : ℚ) ^ (1075 : ℕ) ≤ 10 ^ 324 := two_pow_le_ten_pow (by decide +kernel)
    rw [zpow_neg, zpow_neg, zpow_ofNat, zpow_ofNat, one_div, ← mul_inv, ← pow_succ']
    exact inv_anti₀ (by positivity) powers
  have greatest : (2 ^ 53 * 2 ^ (971 : Int) : ℚ) ≤ 10 ^ 309 := by
    rw [zpow_ofNat, ← pow_add]
    exact two_pow_le_ten_pow (by decide +kernel)
  have unit_positive : (0 : ℚ) < 2 ^ exponent := by positivity
  constructor
  · calc (10 : ℚ) ^ (-324 : Int) ≤ 1 / 2 * 2 ^ (-1074 : Int) := least
      _ ≤ (mantissa - 1 / 2) * 2 ^ exponent :=
        mul_le_mul (by linarith) unit_low (by positivity) (by linarith)
      _ ≤ value := rounds.low
  · calc value ≤ (mantissa + 1 / 2) * 2 ^ exponent := rounds.high
      _ < 2 ^ 53 * 2 ^ exponent := mul_lt_mul_of_pos_right (by linarith) unit_positive
      _ ≤ 2 ^ 53 * 2 ^ (971 : Int) := mul_le_mul_of_nonneg_left unit_high (by positivity)
      _ ≤ 10 ^ 309 := greatest

/-- The place of the first digit of what rounds to a double. -/
theorem Decimal.places_of_roundsTo (canonical : Canonical mantissa exponent)
    (rounds : RoundsTo d.magnitude mantissa exponent) :
    -324 < (Nat.repr d.digits).length + d.exponent ∧
      (Nat.repr d.digits).length + d.exponent ≤ 309 := by
  obtain ⟨low, high⟩ := rounds.within canonical
  have positive := Decimal.digits_pos (lt_of_lt_of_le (by positivity) low)
  constructor
  · exact (zpow_lt_zpow_iff_right₀ (by norm_num : (1 : ℚ) < 10)).mp (low.trans_lt Decimal.magnitude_lt)
  · have below : (10 : ℚ) ^ ((Nat.repr d.digits).length + d.exponent - 1 : Int) < 10 ^ (309 : Int) :=
      (Decimal.le_magnitude positive).trans_lt high
    have := (zpow_lt_zpow_iff_right₀ (by norm_num : (1 : ℚ) < 10)).mp below
    omega

/-- A decimal number is read as the double that it rounds to. -/
theorem Decimal.unpack_toFloat (canonical : Canonical mantissa exponent)
    (rounds : RoundsTo d.magnitude mantissa exponent) :
    d.toFloat.toModel.unpack = canonical.signed (signOf d.negative) := by
  obtain ⟨low, high⟩ := d.places_of_roundsTo canonical rounds
  have positive := Decimal.digits_pos (lt_of_lt_of_le (by positivity) (rounds.within canonical).1)
  have power : signed (decide (d.exponent < 0)) d.exponent.natAbs = d.exponent := by
    unfold signed
    split
    · rename_i below
      have := of_decide_eq_true below
      omega
    · rename_i above
      have : ¬ d.exponent < 0 := by simpa using above
      omega
  have digits_places : (Nat.repr d.digits).length ≤ d.digits.log2 + 1 := by
    rw [Nat.length_repr_le_iff (Nat.succ_pos _)]
    exact Nat.lt_log2_self.trans_le (Nat.pow_le_pow_left (by norm_num) _)
  have high' : signed (decide (d.exponent < 0)) d.exponent.natAbs ≤ 2 ^ 11 := by
    rw [power]
    omega
  have read := unpack_ofScientific positive canonical high' (by rw [power]; omega) (by rwa [power])
  have no_overflow : ¬ 400 < (Nat.repr d.digits).length + d.exponent := by omega
  have no_underflow : ¬ (Nat.repr d.digits).length + d.exponent < -400 := by omega
  unfold toFloat
  simp only [if_neg positive.ne', if_neg no_overflow, if_neg no_underflow]
  split
  · rename_i minus
    rw [minus]
    change UnpackedFloat.unpack Format.binary64 (UnpackedFloat.pack Format.binary64
      (Float.ofScientific d.digits _ _).toModel.unpack.neg) = _
    rw [read]
    exact unpack_pack_canonical canonical .negative
  · rename_i plus
    have plus : d.negative = false := by simpa using plus
    rw [plus, read]
    rfl

end Decimals
end Tabletop.Number
