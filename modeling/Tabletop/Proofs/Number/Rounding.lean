import Tabletop.Number.Layout
import Mathlib.Data.Rat.Cast.Order
import Mathlib.Tactic.Linarith
import Mathlib.Tactic.Ring
import Mathlib.Tactic.FieldSimp
import Mathlib.Tactic.Positivity
import Mathlib.Algebra.Order.Field.Power

/-!
Rounding to the nearest double. The double with mantissa `m` and exponent `e` is what every value rounds
to that lies between the midpoints to its neighbours, ends included if `m` is even.
-/

namespace Tabletop.Number

open Float.Model Float.Model.UnpackedFloat

section Quotients

/-- The nearest whole number to a quotient, in a form that leaves the quotient a fraction. -/
theorem roundedQuotient_eq {num den whole : Nat} (positive : 0 < den)
    (low : 2 * whole * den ≤ 2 * num + den) (high : 2 * num ≤ (2 * whole + 1) * den)
    (strict : whole % 2 = 1 → 2 * whole * den < 2 * num + den ∧ 2 * num < (2 * whole + 1) * den) :
    roundedQuotient num den = whole := by
  have split := Nat.div_add_mod num den
  have small := Nat.mod_lt num positive
  unfold roundedQuotient
  generalize num / den = quotient at *
  generalize num % den = rest at *
  subst split
  have near : quotient = whole ∨ quotient + 1 = whole := by
    have upper : quotient < whole + 1 := by nlinarith
    have lower : whole < quotient + 2 := by nlinarith
    omega
  dsimp only
  rcases near with rfl | rfl
  · have half : 2 * rest ≤ den := by linarith
    have odd_half : quotient % 2 = 1 → 2 * rest < den := fun odd => by linarith [(strict odd).2]
    split
    · rfl
    · split
      · omega
      · split
        · rfl
        · omega
  · have half : den ≤ 2 * rest := by linarith
    have odd_half : (quotient + 1) % 2 = 1 → den < 2 * rest := fun odd => by
      linarith [(strict odd).1]
    split
    · omega
    · split
      · rfl
      · split
        · omega
        · rfl

/-- The nearest whole number to a fraction. -/
theorem roundedQuotient_of_near {num den whole : Nat} (positive : 0 < den)
    (low : (whole - 1 / 2 : ℚ) ≤ num / den) (high : (num / den : ℚ) ≤ whole + 1 / 2)
    (strict : whole % 2 = 1 → (whole - 1 / 2 : ℚ) < num / den ∧ (num / den : ℚ) < whole + 1 / 2) :
    roundedQuotient num den = whole := by
  have den_positive : (0 : ℚ) < den := by exact_mod_cast positive
  rw [le_div_iff₀ den_positive] at low
  rw [div_le_iff₀ den_positive] at high
  refine roundedQuotient_eq positive ?_ ?_ fun odd => ?_
  · have scaled : (2 * whole * den : ℚ) ≤ 2 * num + den := by linarith
    exact_mod_cast scaled
  · have scaled : (2 * num : ℚ) ≤ (2 * whole + 1) * den := by linarith
    exact_mod_cast scaled
  · obtain ⟨above, below⟩ := strict odd
    rw [lt_div_iff₀ den_positive] at above
    rw [div_lt_iff₀ den_positive] at below
    constructor
    · have scaled : (2 * whole * den : ℚ) < 2 * num + den := by linarith
      exact_mod_cast scaled
    · have scaled : (2 * num : ℚ) < (2 * whole + 1) * den := by linarith
      exact_mod_cast scaled

end Quotients

section Residues

/-- A fraction with its two residual bits: whether the rest is half a unit or more, and whether anything
is left beside that half. -/
def ofFraction (num den : Nat) : ExtendedMantissa where
  mantissa := num / den
  roundBit := den ≤ 2 * (num % den)
  stickyBit := num % den ≠ 0 && 2 * (num % den) ≠ den

theorem ofMantissaAndAccuracy_div {num den : Nat} (positive : 0 < den) :
    ExtendedMantissa.ofMantissaAndAccuracy (num / den) (accuracyOfFraction (num % den) den) =
      ofFraction num den := by
  unfold accuracyOfFraction ofFraction
  split
  · rename_i exact
    simp [ExtendedMantissa.ofMantissaAndAccuracy, exact, positive.ne']
  · rename_i inexact
    rcases lt_trichotomy (2 * (num % den)) den with less | same | more
    · rw [Nat.compare_eq_lt.mpr less]
      simp [ExtendedMantissa.ofMantissaAndAccuracy, inexact, less, less.ne]
    · rw [Nat.compare_eq_eq.mpr same]
      simp [ExtendedMantissa.ofMantissaAndAccuracy, same]
    · rw [Nat.compare_eq_gt.mpr more]
      simp [ExtendedMantissa.ofMantissaAndAccuracy, inexact, more.le, more.ne']

/-- Shifting right halves a fraction, its residual bits included. -/
theorem shiftRightOne_ofFraction {num den : Nat} (positive : 0 < den) :
    (ofFraction num den).shiftRightOne = ofFraction num (2 * den) := by
  have split := Nat.div_add_mod num den
  have small := Nat.mod_lt num positive
  have quotient : num / (2 * den) = num / den / 2 := by rw [Nat.div_div_eq_div_mul, Nat.mul_comm]
  have rest : num % (2 * den) = num % den + den * (num / den % 2) := by
    rw [Nat.mul_comm, Nat.mod_mul]
  have sticky : (decide (den ≤ 2 * (num % den)) || (num % den ≠ 0 && 2 * (num % den) ≠ den)) =
      decide (num % den ≠ 0) := by
    rw [Bool.eq_iff_iff]
    simp only [Bool.or_eq_true, Bool.and_eq_true, decide_eq_true_eq]
    omega
  unfold ExtendedMantissa.shiftRightOne ofFraction
  rw [quotient, rest]
  dsimp only
  rw [sticky]
  rcases Nat.mod_two_eq_zero_or_one (num / den) with even | odd
  · rw [even, Nat.mul_zero, Nat.add_zero]
    congr 1
    · simp
      omega
    · rw [Bool.eq_iff_iff]
      simp only [Bool.and_eq_true, decide_eq_true_eq]
      omega
  · rw [odd, Nat.mul_one]
    congr 1
    · simp
    · rw [Bool.eq_iff_iff]
      simp only [Bool.and_eq_true, decide_eq_true_eq]
      omega

theorem shiftRight_ofFraction {num den : Nat} (positive : 0 < den) (count : Nat) :
    ofFraction num den >>> count = ofFraction num (den * 2 ^ count) := by
  change count.repeat ExtendedMantissa.shiftRightOne (ofFraction num den) = _
  induction count with
  | zero => simp [Nat.repeat]
  | succ count of_count =>
    rw [Nat.repeat, of_count, shiftRightOne_ofFraction (Nat.mul_pos positive (Nat.two_pow_pos count)),
      Nat.pow_succ, Nat.mul_left_comm, Nat.mul_comm 2]

/-- Rounding by residual bits is rounding a fraction. -/
theorem roundedMantissa_ofFraction {num den : Nat} (positive : 0 < den) :
    (ofFraction num den).roundedMantissa = roundedQuotient num den := by
  have small := Nat.mod_lt num positive
  unfold ofFraction ExtendedMantissa.roundedMantissa ExtendedMantissa.accuracy roundedQuotient
  generalize num % den = rest at *
  rcases lt_trichotomy (2 * rest) den with less | same | more
  · have no_round : decide (den ≤ 2 * rest) = false := by simpa using less
    rw [no_round]
    by_cases nothing : rest = 0
    · simp [nothing, Accuracy.roundToNearestEven, positive]
    · simp [nothing, less, less.ne, Accuracy.roundToNearestEven]
  · have half : ¬ 2 * rest < den := by omega
    have no_more : ¬ den < 2 * rest := by omega
    simp only [same, le_refl, decide_true, ne_eq, not_true, decide_false, Bool.and_false,
      Accuracy.roundToNearestEven, lt_irrefl, if_false]
    split
    · omega
    · omega
  · have half : ¬ 2 * rest < den := by omega
    have something : rest ≠ 0 := by omega
    simp [more, more.le, more.ne', half, something, Accuracy.roundToNearestEven]

end Residues

section Targets

/-- The mantissas and exponents of positive doubles: 53 bits with the first one set, or fewer with the
least exponent. -/
structure Canonical (mantissa : Nat) (exponent : Int) : Prop where
  positive : 0 < mantissa
  below : mantissa < 2 ^ 53
  least : -1074 ≤ exponent
  full : 2 ^ 52 ≤ mantissa ∨ exponent = -1074
  greatest : exponent ≤ 971

/-- The number with this mantissa and exponent. -/
abbrev Canonical.signed {mantissa : Nat} {exponent : Int} (canonical : Canonical mantissa exponent)
    (sign : Sign) : UnpackedFloat :=
  .finite sign mantissa exponent canonical.positive

/-- A value lies between the midpoints of a double and its neighbours, or at one of them if the mantissa
is even. The neighbour below a power of two is nearer. -/
structure RoundsTo (value : ℚ) (mantissa : Nat) (exponent : Int) : Prop where
  low : (mantissa - 1 / 2 : ℚ) * 2 ^ exponent ≤ value
  low_power : mantissa = 2 ^ 52 → -1074 < exponent → (mantissa - 1 / 4 : ℚ) * 2 ^ exponent ≤ value
  high : value ≤ (mantissa + 1 / 2 : ℚ) * 2 ^ exponent
  strict : mantissa % 2 = 1 →
    (mantissa - 1 / 2 : ℚ) * 2 ^ exponent < value ∧ value < (mantissa + 1 / 2 : ℚ) * 2 ^ exponent

/-- The exponent that a value has in the format of doubles, from the place of its first digit. -/
theorem targetExponent_eq (total : Int) :
    Format.binary64.targetExponent total = max (total - 53) (-1074) := rfl

variable {num den : Nat} {start : Int}

theorem shiftToTargetExponent_fraction (positive : 0 < den)
    (enough : start ≤ max (totalExponent (num / den) start - 53) (-1074)) :
    ∃ shift : Nat,
      start + shift = max (totalExponent (num / den) start - 53) (-1074) ∧
        shiftToTargetExponent Format.binary64 (num / den) start
          (accuracyOfFraction (num % den) den) =
            (ofFraction num (den * 2 ^ shift), start + shift) := by
  refine ⟨(max (totalExponent (num / den) start - 53) (-1074) - start).toNat, by omega, ?_⟩
  simp only [shiftToTargetExponent, shiftToExponent, targetExponent_eq,
    ofMantissaAndAccuracy_div positive, shiftRight_ofFraction positive]

/-- The place of a fraction's first binary digit. -/
theorem fraction_within (start : Int) (positive : 0 < den) (some_unit : num / den ≠ 0) :
    (2 : ℚ) ^ (totalExponent (num / den) start - 1) ≤ num / den * 2 ^ start ∧
      (num / den * 2 ^ start : ℚ) < 2 ^ totalExponent (num / den) start := by
  have den_positive : (0 : ℚ) < den := by exact_mod_cast positive
  have start_positive : (0 : ℚ) < 2 ^ start := by positivity
  have low : (2 : ℚ) ^ (num / den).log2 ≤ num / den := by
    rw [le_div_iff₀ den_positive]
    exact_mod_cast (Nat.le_div_iff_mul_le positive).mp (Nat.log2_self_le some_unit)
  have high : (num / den : ℚ) < 2 ^ ((num / den).log2 + 1) := by
    rw [div_lt_iff₀ den_positive]
    exact_mod_cast (Nat.div_lt_iff_lt_mul positive).mp Nat.lt_log2_self
  have low_place : (2 : ℚ) ^ (totalExponent (num / den) start - 1) =
      2 ^ (num / den).log2 * 2 ^ start := by
    rw [← zpow_natCast, ← zpow_add₀ (by norm_num)]
    congr 1
    simp only [totalExponent]
    omega
  have high_place : (2 : ℚ) ^ totalExponent (num / den) start =
      2 ^ ((num / den).log2 + 1) * 2 ^ start := by
    rw [← zpow_natCast, ← zpow_add₀ (by norm_num)]
    congr 1
  rw [low_place, high_place]
  exact ⟨mul_le_mul_of_nonneg_right low start_positive.le,
    mul_lt_mul_of_pos_right high start_positive⟩

/-- Less than a unit is less than the unit's place. -/
theorem fraction_below (start : Int) (positive : 0 < den) (no_unit : num / den = 0) :
    (num / den * 2 ^ start : ℚ) < 2 ^ start := by
  have den_positive : (0 : ℚ) < den := by exact_mod_cast positive
  have start_positive : (0 : ℚ) < 2 ^ start := by positivity
  have below : num < den := (Nat.div_eq_zero_iff_lt positive).mp no_unit
  have less : (num / den : ℚ) < 1 := by
    rw [div_lt_one den_positive]
    exact_mod_cast below
  linarith [mul_lt_mul_of_pos_right less start_positive]

theorem lt_of_two_zpow_lt {a b : Int} (less : (2 : ℚ) ^ a < 2 ^ b) : a < b :=
  (zpow_lt_zpow_iff_right₀ (by norm_num)).mp less

variable {mantissa : Nat} {exponent : Int}

/-- A value that rounds to a double is rounded at the double's exponent, or one place below it if the
double is a power of two and the value is less. -/
theorem target_of_roundsTo (positive : 0 < den) (canonical : Canonical mantissa exponent)
    (enough : start ≤ max (totalExponent (num / den) start - 53) (-1074))
    (rounds : RoundsTo (num / den * 2 ^ start) mantissa exponent) :
    max (totalExponent (num / den) start - 53) (-1074) = exponent ∨
      max (totalExponent (num / den) start - 53) (-1074) = exponent - 1 ∧ mantissa = 2 ^ 52 ∧
        -1074 < exponent ∧ (num / den * 2 ^ start : ℚ) < 2 ^ (52 + exponent) := by
  have unit_positive : (0 : ℚ) < 2 ^ exponent := by positivity
  have least := canonical.least
  have below : (num / den * 2 ^ start : ℚ) < 2 ^ (53 + exponent) := by
    have mantissa_below : (mantissa + 1 : ℚ) ≤ 2 ^ (53 : ℤ) := by exact_mod_cast canonical.below
    rw [zpow_add₀ (by norm_num)]
    nlinarith [rounds.high]
  have above (full : 2 ^ 52 ≤ mantissa) :
      (2 : ℚ) ^ (51 + exponent) < num / den * 2 ^ start := by
    have mantissa_above : (2 : ℚ) ^ (52 : ℤ) ≤ mantissa := by exact_mod_cast full
    have half : (2 : ℚ) ^ (51 : ℤ) + 1 / 2 < 2 ^ (52 : ℤ) := by norm_num
    rw [zpow_add₀ (by norm_num)]
    nlinarith [rounds.low]
  generalize value_eq : (num / den * 2 ^ start : ℚ) = value at *
  by_cases no_unit : num / den = 0
  · -- the value is so small that only the least exponent is left
    have small := fraction_below start positive no_unit
    rw [value_eq] at small
    have total : totalExponent (num / den) start = 1 + start := by simp [totalExponent, no_unit]
    left
    rcases canonical.full with full | subnormal
    · have := lt_of_two_zpow_lt ((above full).trans small)
      omega
    · omega
  · obtain ⟨low, high⟩ := fraction_within start positive no_unit
    rw [value_eq] at low high
    have not_later := lt_of_two_zpow_lt (low.trans_lt below)
    rcases canonical.full with full | subnormal
    · have not_earlier := lt_of_two_zpow_lt ((above full).trans high)
      by_cases less : value < 2 ^ (52 + exponent)
      · by_cases is_least : exponent = -1074
        · left
          omega
        · have earlier := lt_of_two_zpow_lt (low.trans_lt less)
          have power : mantissa = 2 ^ 52 := by
            by_contra more
            have next : (2 : ℚ) ^ (52 : ℤ) + 1 ≤ mantissa := by
              have : 2 ^ 52 + 1 ≤ mantissa := by omega
              exact_mod_cast this
            rw [zpow_add₀ (by norm_num)] at less
            nlinarith [rounds.low]
          right
          exact ⟨by omega, power, by omega, less⟩
      · have reached : (2 : ℚ) ^ (52 + exponent) < 2 ^ totalExponent (num / den) start :=
          (not_lt.mp less).trans_lt high
        have := lt_of_two_zpow_lt reached
        left
        omega
    · left
      omega

/-- A mantissa that is in place already is not moved. -/
theorem shiftToTargetExponent_canonical (canonical : Canonical mantissa exponent) :
    shiftToTargetExponent Format.binary64 mantissa exponent .exact =
      (⟨mantissa, false, false⟩, exponent) := by
  have least := canonical.least
  have digits : mantissa.log2 < 53 := (Nat.log2_lt canonical.positive.ne').mpr canonical.below
  have no_shift : (max (totalExponent mantissa exponent - 53) (-1074) - exponent).toNat = 0 := by
    simp only [totalExponent]
    omega
  simp [shiftToTargetExponent, shiftToExponent, targetExponent_eq, no_shift,
    ExtendedMantissa.ofMantissaAndAccuracy]
  rfl

/-- A mantissa with one bit too many is moved by one place. -/
theorem shiftToTargetExponent_carry (least : -1074 < exponent) :
    shiftToTargetExponent Format.binary64 (2 ^ 53) (exponent - 1) .exact =
      (⟨2 ^ 52, false, false⟩, exponent) := by
  have one_place : (max (totalExponent (2 ^ 53) (exponent - 1) - 53) (-1074) -
      (exponent - 1)).toNat = 1 := by
    simp only [totalExponent, Nat.log2_two_pow]
    omega
  simp only [shiftToTargetExponent, shiftToExponent, targetExponent_eq, one_place]
  norm_num
  rfl

/-- Rounding moves a number to its exponent twice: once to round it, and once more if rounding has made
it a digit longer. -/
theorem roundWithAccuracy_eq {format : Float.Model.Format} {sign : Sign} {num : Nat} {start middle : Int}
    {accuracy : Accuracy} {moved : ExtendedMantissa}
    (first : shiftToTargetExponent format num start accuracy = (moved, middle))
    (second : shiftToTargetExponent format moved.roundedMantissa middle .exact =
      (⟨mantissa, false, false⟩, exponent))
    (positive : 0 < mantissa) :
    roundWithAccuracy format sign num start accuracy = .finite sign mantissa exponent positive := by
  unfold roundWithAccuracy
  rw [first]
  dsimp only
  generalize shiftToTargetExponent format moved.roundedMantissa middle .exact = result at *
  subst second
  exact dif_neg positive.ne'

/-- Rounding a fraction gives the double that it lies next to. -/
theorem roundWithAccuracy_of_roundsTo (positive : 0 < den) (canonical : Canonical mantissa exponent)
    (enough : start ≤ max (totalExponent (num / den) start - 53) (-1074))
    (rounds : RoundsTo (num / den * 2 ^ start) mantissa exponent) (sign : Sign) :
    roundWithAccuracy Format.binary64 sign (num / den) start
        (accuracyOfFraction (num % den) den) = canonical.signed sign := by
  obtain ⟨shift, target, shifted⟩ := shiftToTargetExponent_fraction positive enough
  have shifted_positive : 0 < den * 2 ^ shift := Nat.mul_pos positive (Nat.two_pow_pos shift)
  have value_eq : (num / den * 2 ^ start : ℚ) =
      num / (den * 2 ^ shift : ℕ) * 2 ^ (start + shift) := by
    rw [zpow_add₀ (by norm_num), zpow_natCast]
    push_cast
    field_simp
  have rounding := target_of_roundsTo positive canonical enough rounds
  rw [← target] at rounding
  rw [value_eq] at rounds rounding
  have unit_positive : (0 : ℚ) < 2 ^ exponent := by positivity
  rcases rounding with same | ⟨earlier, power, least, less⟩
  · rw [same] at rounds shifted
    have rounded : roundedQuotient num (den * 2 ^ shift) = mantissa := by
      refine roundedQuotient_of_near shifted_positive ?_ ?_ fun odd => ?_
      · exact le_of_mul_le_mul_right rounds.low unit_positive
      · exact le_of_mul_le_mul_right rounds.high unit_positive
      · obtain ⟨above, below⟩ := rounds.strict odd
        exact ⟨lt_of_mul_lt_mul_right above unit_positive.le,
          lt_of_mul_lt_mul_right below unit_positive.le⟩
    refine roundWithAccuracy_eq shifted ?_ canonical.positive
    rw [roundedMantissa_ofFraction shifted_positive, rounded]
    exact shiftToTargetExponent_canonical canonical
  · -- the carry: the value is rounded up to a mantissa of one bit too many
    have unit_eq : (2 : ℚ) ^ exponent = 2 * 2 ^ (start + shift) := by
      rw [earlier, zpow_sub_one₀ (by norm_num)]
      ring
    have half_positive : (0 : ℚ) < 2 ^ (start + shift) := by positivity
    have low := rounds.low_power power least
    have place : (2 : ℚ) ^ (52 + exponent) = 2 ^ 52 * 2 ^ exponent := zpow_add₀ (by norm_num) 52 exponent
    rw [place, unit_eq] at less
    rw [unit_eq, power] at low
    have rounded : roundedQuotient num (den * 2 ^ shift) = 2 ^ 53 := by
      refine roundedQuotient_of_near shifted_positive ?_ ?_ fun odd => ?_
      · refine le_of_mul_le_mul_right ?_ half_positive
        push_cast at low ⊢
        linarith
      · refine le_of_mul_le_mul_right ?_ half_positive
        push_cast at less ⊢
        norm_num at less ⊢
        linarith
      · norm_num at odd
    subst power
    refine roundWithAccuracy_eq shifted ?_ canonical.positive
    rw [roundedMantissa_ofFraction shifted_positive, rounded, earlier]
    exact shiftToTargetExponent_carry least

end Targets
end Tabletop.Number
