import Tabletop.Proofs.Number.Reading

/-!
The shortest digits of a double read back to it. Every grid point in the rounding interval does, and
seventeen digits are always enough for one to lie there.
-/

namespace Tabletop.Number

theorem zpow_toNat {b : ℚ} (positive : b ≠ 0) (power : Int) :
    b ^ power = b ^ power.toNat / b ^ (-power).toNat := by
  rw [← zpow_natCast, ← zpow_natCast, ← zpow_sub₀ positive]
  congr 1
  omega

namespace RoundingInterval

/-- The ends and the centre of an interval. -/
def lowest (interval : RoundingInterval) : ℚ := interval.low / interval.denominator
def middle (interval : RoundingInterval) : ℚ := interval.center / interval.denominator
def highest (interval : RoundingInterval) : ℚ := interval.high / interval.denominator

variable {interval : RoundingInterval} {tie : Tie} {candidate : Nat} {power : Int}

theorem le_point {n : Nat} (positive : 0 < interval.denominator) :
    n * Nat.pow 10 (-power).toNat ≤ candidate * Nat.pow 10 power.toNat * interval.denominator ↔
      (n / interval.denominator : ℚ) ≤ candidate * 10 ^ power := by
  have denominator : (0 : ℚ) < interval.denominator := by exact_mod_cast positive
  rw [zpow_toNat (by norm_num), div_le_iff₀ denominator, ← mul_div_assoc, div_mul_eq_mul_div,
    le_div_iff₀ (by positivity), Nat.pow_eq, Nat.pow_eq, ← Nat.cast_le (α := ℚ)]
  push_cast
  rfl

theorem point_le {n : Nat} (positive : 0 < interval.denominator) :
    candidate * Nat.pow 10 power.toNat * interval.denominator ≤ n * Nat.pow 10 (-power).toNat ↔
      (candidate * 10 ^ power : ℚ) ≤ n / interval.denominator := by
  have denominator : (0 : ℚ) < interval.denominator := by exact_mod_cast positive
  rw [zpow_toNat (by norm_num), le_div_iff₀ denominator, ← mul_div_assoc, div_mul_eq_mul_div,
    div_le_iff₀ (by positivity), Nat.pow_eq, Nat.pow_eq, ← Nat.cast_le (α := ℚ)]
  push_cast
  rfl

theorem holds_iff (positive : 0 < interval.denominator) :
    interval.holds candidate power ↔
      if interval.closed then
        interval.lowest ≤ candidate * 10 ^ power ∧ (candidate * 10 ^ power : ℚ) ≤ interval.highest
      else interval.lowest < candidate * 10 ^ power ∧ (candidate * 10 ^ power : ℚ) < interval.highest := by
  unfold holds lowest highest
  split
  · simp only [Bool.and_eq_true, decide_eq_true_eq, le_point positive, point_le positive]
  · simp only [Bool.and_eq_true, decide_eq_true_eq, ← not_le, le_point positive, point_le positive]

/-- A whole number within half of a quotient is a point of the grid within half a unit of it. -/
theorem point_near {value unit nearer : Nat} (unit_positive : 0 < unit)
    (low : 2 * value ≤ 2 * nearer * unit + unit) (high : 2 * nearer * unit ≤ 2 * value + unit) :
    (10 ^ power * (value / unit) - 10 ^ power / 2 ≤ (nearer * 10 ^ power : ℚ) ∧
      (nearer * 10 ^ power : ℚ) ≤ 10 ^ power * (value / unit) + 10 ^ power / 2) := by
  have positive : (0 : ℚ) < unit := by exact_mod_cast unit_positive
  have grid : (0 : ℚ) < 10 ^ power := by positivity
  have low : (value / unit : ℚ) ≤ nearer + 1 / 2 := by
    rw [div_le_iff₀ positive]
    have scaled : (2 * value : ℚ) ≤ 2 * nearer * unit + unit := by exact_mod_cast low
    linarith
  have high : (nearer - 1 / 2 : ℚ) ≤ value / unit := by
    rw [le_div_iff₀ positive]
    have scaled : (2 * nearer * unit : ℚ) ≤ 2 * value + unit := by exact_mod_cast high
    linarith
  constructor
  · linarith [mul_le_mul_of_nonneg_left low grid.le]
  · linarith [mul_le_mul_of_nonneg_left high grid.le]

/-- The two candidates on a grid, the first at most half a unit from the centre. -/
theorem neighbour_eq (interval : RoundingInterval) (tie : Tie) (power : Int)
    (positive : 0 < interval.denominator) :
    ∃ nearer farther : Nat,
      (interval.middle - 10 ^ power / 2 ≤ nearer * 10 ^ power ∧
        nearer * 10 ^ power ≤ interval.middle + 10 ^ power / 2) ∧
      interval.neighbour tie power =
        if interval.holds nearer power then some nearer
        else if interval.holds farther power then some farther else none := by
  have unit_positive : 0 < interval.denominator * Nat.pow 10 power.toNat :=
    Nat.mul_pos positive (Nat.pow_pos (by norm_num))
  have middle_eq : interval.middle = 10 ^ power *
      ((interval.center * Nat.pow 10 (-power).toNat : ℕ) /
        (interval.denominator * Nat.pow 10 power.toNat : ℕ)) := by
    rw [middle, zpow_toNat (by norm_num) power, Nat.pow_eq, Nat.pow_eq]
    push_cast
    field_simp
  rw [middle_eq]
  refine ⟨_, _, point_near unit_positive ?_ ?_, rfl⟩
  -- the rest of the division says which neighbour is nearer
  all_goals
    generalize interval.center * Nat.pow 10 (-power).toNat = value
    generalize interval.denominator * Nat.pow 10 power.toNat = unit at *
    have split := Nat.div_add_mod value unit
    have small := Nat.mod_lt value unit_positive
    generalize value / unit = quotient at *
    generalize value % unit = rest at *
    subst split
    split
    · nlinarith
    · split
      · nlinarith
      · have half : unit = 2 * rest := by omega
        subst half
        split
        · nlinarith
        · split
          · nlinarith
          · nlinarith

/-- What is found on a grid lies in the interval. -/
theorem holds_of_neighbour (positive : 0 < interval.denominator)
    (found : interval.neighbour tie power = some candidate) : interval.holds candidate power := by
  obtain ⟨nearer, farther, _, tried⟩ := interval.neighbour_eq tie power positive
  rw [tried] at found
  split at found
  · rename_i inside
    cases found
    exact inside
  · split at found
    · rename_i inside
      cases found
      exact inside
    · cases found

/-- A grid finer than the interval is wide has a point in it. -/
theorem neighbour_isSome (positive : 0 < interval.denominator)
    (low : interval.lowest < interval.middle - 10 ^ power / 2)
    (high : interval.middle + 10 ^ power / 2 < interval.highest) :
    ∃ candidate, interval.neighbour tie power = some candidate := by
  obtain ⟨nearer, farther, ⟨above, below⟩, tried⟩ := interval.neighbour_eq tie power positive
  refine ⟨nearer, ?_⟩
  have inside : interval.holds nearer power := by
    rw [holds_iff positive]
    split
    · exact ⟨(low.trans_le above).le, (below.trans_lt high).le⟩
    · exact ⟨low.trans_le above, below.trans_lt high⟩
  rw [tried, if_pos inside]

/-- The power of ten that is found is at most ten times what is above it, if the estimate is. -/
theorem le_magnitude (positive : 0 < interval.denominator) (attempts : Nat) {estimate : Int}
    (low : (10 : ℚ) ^ (estimate - 1) ≤ interval.middle) :
    (10 : ℚ) ^ (interval.magnitude attempts estimate - 1) ≤ interval.middle ∧
      estimate ≤ interval.magnitude attempts estimate := by
  induction attempts generalizing estimate with
  | zero => exact ⟨low, le_rfl⟩
  | succ attempts of_attempts =>
    unfold magnitude
    dsimp only
    split
    · exact ⟨low, le_rfl⟩
    · rename_i reached
      have next : (10 : ℚ) ^ (estimate + 1 - 1) ≤ interval.middle := by
        rw [not_lt, Nat.mul_comm, ← Nat.one_mul (Nat.pow _ _), point_le positive] at reached
        rw [add_sub_cancel_right]
        simpa [middle] using reached
      obtain ⟨found, later⟩ := of_attempts next
      exact ⟨found, by omega⟩

end RoundingInterval

section Double

variable {s : Scaled}

theorem roundingInterval_positive (s : Scaled) : 0 < (roundingInterval double s).denominator :=
  Nat.two_pow_pos _

theorem quarter (s : Scaled) (n : Nat) :
    ((n * Nat.pow 2 (s.exponent - 2).toNat : ℕ) / (Nat.pow 2 (2 - s.exponent).toNat : ℕ) : ℚ) =
      n / 4 * 2 ^ s.exponent := by
  have places : (2 : ℚ) ^ s.exponent = 4 * 2 ^ (s.exponent - 2) := by
    rw [zpow_sub₀ (by norm_num)]
    norm_num
    ring
  have opposite : 2 - s.exponent = -(s.exponent - 2) := by ring
  rw [places, zpow_toNat (by norm_num) (s.exponent - 2), opposite, Nat.pow_eq, Nat.pow_eq]
  push_cast
  ring

@[simp] theorem middle_roundingInterval (s : Scaled) :
    (roundingInterval double s).middle = s.magnitude :=
  calc (roundingInterval double s).middle = (4 * s.mantissa : ℕ) / 4 * 2 ^ s.exponent := quarter s _
    _ = s.magnitude := by
      rw [Scaled.magnitude]
      push_cast
      ring

@[simp] theorem highest_roundingInterval (s : Scaled) :
    (roundingInterval double s).highest = (s.mantissa + 1 / 2) * 2 ^ s.exponent :=
  calc (roundingInterval double s).highest = (4 * s.mantissa + 2 : ℕ) / 4 * 2 ^ s.exponent :=
      quarter s _
    _ = (s.mantissa + 1 / 2) * 2 ^ s.exponent := by
      push_cast
      ring

theorem lowest_roundingInterval (positive : 0 < s.mantissa) :
    (roundingInterval double s).lowest =
      (s.mantissa - if s.mantissa = 2 ^ 52 ∧ -1074 < s.exponent then 1 / 4 else 1 / 2) *
        2 ^ s.exponent := by
  have lower : (roundingInterval double s).lowest = (4 * s.mantissa -
      if s.mantissa = Nat.pow 2 52 ∧ -1074 < s.exponent then 1 else 2 : ℕ) / 4 * 2 ^ s.exponent :=
    quarter s _
  rw [lower, Nat.pow_eq]
  split
  · rw [Nat.cast_sub (by omega)]
    push_cast
    ring
  · rw [Nat.cast_sub (by omega)]
    push_cast
    ring

/-- What lies in the rounding interval rounds to the double. -/
theorem roundsTo_of_holds {candidate : Nat} {power : Int} (positive : 0 < s.mantissa)
    (inside : (roundingInterval double s).holds candidate power) :
    RoundsTo (candidate * 10 ^ power) s.mantissa s.exponent := by
  have unit : (0 : ℚ) < 2 ^ s.exponent := by positivity
  rw [RoundingInterval.holds_iff (roundingInterval_positive s), lowest_roundingInterval positive,
    highest_roundingInterval] at inside
  have half : ((s.mantissa : ℚ) - 1 / 2) * 2 ^ s.exponent ≤
      (s.mantissa - if s.mantissa = 2 ^ 52 ∧ -1074 < s.exponent then 1 / 4 else 1 / 2) *
        2 ^ s.exponent := by
    refine mul_le_mul_of_nonneg_right ?_ unit.le
    split
    · linarith
    · linarith
  split at inside
  · rename_i even
    refine ⟨half.trans inside.1, fun power_of_two above => ?_, inside.2, fun odd => ?_⟩
    · rw [if_pos ⟨power_of_two, above⟩] at inside
      exact inside.1
    · have even : s.mantissa % 2 = 0 := by simpa [roundingInterval] using even
      omega
  · refine ⟨(half.trans_lt inside.1).le, fun power_of_two above => ?_, inside.2.le, fun _ =>
      ⟨half.trans_lt inside.1, inside.2⟩⟩
    rw [if_pos ⟨power_of_two, above⟩] at inside
    exact inside.1.le

/-- Seventeen digits are enough. -/
theorem neighbour_seventeen {power : Int} (tie : Tie) (positive : 0 < s.mantissa)
    (below : s.mantissa < 2 ^ 53) (fine : (10 : ℚ) ^ (power + 16) ≤ s.magnitude) :
    ∃ candidate, (roundingInterval double s).neighbour tie power = some candidate := by
  have unit : (0 : ℚ) < 2 ^ s.exponent := by positivity
  have grid : (10 : ℚ) ^ 16 * 10 ^ power ≤ s.mantissa * 2 ^ s.exponent := by
    rw [add_comm, zpow_add₀ (by norm_num)] at fine
    exact fine
  have mantissa_below : (s.mantissa : ℚ) ≤ 2 ^ 53 := by exact_mod_cast below.le
  apply RoundingInterval.neighbour_isSome (roundingInterval_positive s)
  · rw [lowest_roundingInterval positive, middle_roundingInterval, Scaled.magnitude]
    split
    · rename_i power_of_two
      rw [power_of_two.1] at grid ⊢
      push_cast at grid ⊢
      linarith
    · nlinarith
  · rw [middle_roundingInterval, highest_roundingInterval, Scaled.magnitude]
    nlinarith

/-- Zeros at the end of the digits are moved to the power of ten. -/
theorem stripZeros_magnitude (attempts digits : Nat) (power : Int) :
    ((stripZeros attempts digits power).1 * 10 ^ (stripZeros attempts digits power).2 : ℚ) =
      digits * 10 ^ power := by
  induction attempts generalizing digits power with
  | zero => rfl
  | succ attempts of_attempts =>
    unfold stripZeros
    split
    · rename_i ends_in_zero
      have tenfold : (digits : ℚ) = (digits / 10 : ℕ) * 10 := by
        exact_mod_cast (Nat.div_mul_cancel (Nat.dvd_of_mod_eq_zero ends_in_zero)).symm
      rw [of_attempts, tenfold, zpow_add_one₀ (by norm_num)]
      ring
    · rfl

theorem le_stripZeros (attempts digits : Nat) (power : Int) :
    power ≤ (stripZeros attempts digits power).2 := by
  induction attempts generalizing digits power with
  | zero => exact le_rfl
  | succ attempts of_attempts =>
    unfold stripZeros
    split
    · exact le_trans (by omega) (of_attempts (digits / 10) (power + 1))
    · exact le_rfl

/-- What is found on a grid rounds to the double, also without its last zeros. -/
theorem roundsTo_of_neighbour {tie : Tie} {candidate digits : Nat} {grid power : Int}
    (positive : 0 < s.mantissa)
    (tried : (roundingInterval double s).neighbour tie grid = some candidate)
    (found : stripZeros 20 candidate grid = (digits, power)) :
    RoundsTo (digits * 10 ^ power) s.mantissa s.exponent ∧ grid ≤ power := by
  have same := stripZeros_magnitude 20 candidate grid
  have later := le_stripZeros 20 candidate grid
  rw [found] at same later
  have inside := RoundingInterval.holds_of_neighbour (roundingInterval_positive s) tried
  rw [same]
  exact ⟨roundsTo_of_holds positive inside, later⟩

/-- The digits that are found round to the double, and there are not many of them. -/
theorem shortest_roundsTo {tie : Tie} {magnitude : Int} (positive : 0 < s.mantissa)
    (below : s.mantissa < 2 ^ 53) (fine : (10 : ℚ) ^ (magnitude - 1) ≤ s.magnitude)
    {attempts count : Nat} (seventeen : attempts + count = 17) {digits : Nat} {power : Int}
    (found : (roundingInterval double s).shortest tie magnitude (attempts + 1) count = (digits, power)) :
    RoundsTo (digits * 10 ^ power) s.mantissa s.exponent ∧ magnitude - 17 ≤ power := by
  induction attempts generalizing count with
  | zero =>
    obtain rfl : count = 17 := by omega
    have last : magnitude - (17 : ℕ) + 16 = magnitude - 1 := by omega
    obtain ⟨candidate, tried⟩ := neighbour_seventeen tie positive below (by rwa [last])
    rw [RoundingInterval.shortest, tried] at found
    exact roundsTo_of_neighbour positive tried found
  | succ attempts of_attempts =>
    rw [RoundingInterval.shortest] at found
    split at found
    · rename_i candidate tried
      obtain ⟨rounds, later⟩ := roundsTo_of_neighbour positive tried found
      exact ⟨rounds, by omega⟩
    · exact of_attempts (by omega) found

/-- Two powers that compare give all powers whose exponents have at least the same ratio. -/
theorem pow_le_pow_of_ratio {a b d k n c : Nat} (some_power : d ≠ 0) (base : 0 < b)
    (powers : Nat.pow a d ≤ Nat.pow b k) (ratio : k * n ≤ c * d) : a ^ n ≤ b ^ c := by
  rw [← Nat.pow_le_pow_iff_left some_power]
  calc (a ^ n) ^ d = (a ^ d) ^ n := by rw [← Nat.pow_mul, ← Nat.pow_mul, Nat.mul_comm]
    _ ≤ (b ^ k) ^ n := Nat.pow_le_pow_left powers n
    _ = b ^ (k * n) := (Nat.pow_mul _ _ _).symm
    _ ≤ b ^ (c * d) := Nat.pow_le_pow_right base ratio
    _ = (b ^ c) ^ d := Nat.pow_mul _ _ _

/-- The estimate of the power of ten is at most one too high. -/
theorem estimate_le {place : Int} (high : place < 1024) :
    (10 : ℚ) ^ (place * 30103 / 100000 - 1) ≤ 2 ^ place := by
  rcases Int.le_total 0 place with whole | fraction
  · obtain ⟨n, rfl⟩ := Int.eq_ofNat_of_zero_le whole
    rcases Nat.eq_zero_or_pos (n * 30103 / 100000) with none | some_digit
    · have estimate : (n * 30103 / 100000 - 1 : Int) = -1 := by omega
      have one_le : (1 : ℚ) ≤ 2 ^ n := one_le_pow₀ (by norm_num)
      rw [estimate, zpow_natCast]
      norm_num
      linarith
    · obtain ⟨count, estimate⟩ : ∃ count : ℕ, (n * 30103 / 100000 - 1 : Int) = count :=
        ⟨n * 30103 / 100000 - 1, by omega⟩
      rw [estimate, zpow_natCast, zpow_natCast]
      exact_mod_cast pow_le_pow_of_ratio (d := 30102) (k := 100000) (by decide) (by decide)
        (by decide +kernel) (by omega)
  · obtain ⟨n, rfl⟩ : ∃ n : ℕ, place = -n := ⟨place.natAbs, by omega⟩
    obtain ⟨count, estimate⟩ : ∃ count : ℕ, (-n * 30103 / 100000 - 1 : Int) = -count :=
      ⟨((n * 30103 + 99999) / 100000 + 1), by omega⟩
    rw [estimate, zpow_neg, zpow_neg, zpow_natCast, zpow_natCast]
    refine inv_anti₀ (by positivity) ?_
    exact_mod_cast pow_le_pow_of_ratio (d := 100000) (k := 30103) (by decide) (by decide)
      (by decide +kernel) (by omega)

/-- The shortest digits of a double round to it. -/
theorem roundsTo_shortest (tie : Tie) (canonical : Canonical s.mantissa s.exponent) :
    RoundsTo (s.shortest double tie).magnitude s.mantissa s.exponent ∧
      (s.exponent + s.mantissa.log2) * 30103 / 100000 - 17 ≤ (s.shortest double tie).exponent := by
  have positive := canonical.positive
  have least := canonical.least
  have greatest := canonical.greatest
  have digits := (Nat.log2_lt positive.ne').mpr canonical.below
  have reached : (2 : ℚ) ^ (s.exponent + s.mantissa.log2) ≤ s.magnitude := by
    have low : (2 ^ s.mantissa.log2 : ℚ) ≤ s.mantissa := by
      exact_mod_cast Nat.log2_self_le positive.ne'
    rw [add_comm, zpow_add₀ (by norm_num), zpow_natCast, Scaled.magnitude]
    exact mul_le_mul_of_nonneg_right low (by positivity)
  have estimated := (estimate_le (by omega)).trans reached
  rw [← middle_roundingInterval] at estimated
  obtain ⟨fine, later⟩ := RoundingInterval.le_magnitude (roundingInterval_positive s) 4 estimated
  rw [middle_roundingInterval] at fine
  unfold Scaled.shortest
  rw [if_neg positive.ne']
  dsimp only
  generalize found : (roundingInterval double s).shortest tie _ 17 1 = digits
  obtain ⟨rounds, many⟩ := shortest_roundsTo positive canonical.below fine rfl found
  exact ⟨rounds, by omega⟩

end Double

section Reading

variable {x : Float} {tie : Tie} {d : Decimal}

theorem shortest_negative (s : Scaled) : (s.shortest double tie).negative = s.negative := by
  unfold Scaled.shortest
  split
  · rfl
  · rfl

theorem shortest_zero (negative : Bool) (exponent : Int) :
    (⟨negative, 0, exponent⟩ : Scaled).shortest double tie = ⟨negative, 0, 0⟩ := rfl

/-- What the shortest digits of a double spell is read as the double, however it is spelled. -/
theorem toFloat_of_shortest (tie : Tie) (finite : isFinite x) (sign : d.negative = (scaled x).negative)
    (same : d.magnitude = ((scaled x).shortest double tie).magnitude) : d.toFloat = x := by
  rcases finite_cases finite with ⟨zero_sign, unpacked, zero⟩ |
    ⟨x_sign, mantissa, exponent, canonical, unpacked, exact⟩
  · have no_digits : d.digits = 0 := by
      rw [zero, shortest_zero] at same
      have power : (10 : ℚ) ^ d.exponent ≠ 0 := by positivity
      simpa [Decimal.magnitude, power] using same
    apply eq_of_unpack_eq
    rw [unpacked]
    rw [zero] at sign
    simp only [Decimal.toFloat, if_pos no_digits, sign]
    cases zero_sign with
    | negative => rfl
    | positive => rfl
  · have rounds := (roundsTo_shortest (s := scaled x) tie (by rwa [exact])).1
    rw [← same, exact] at rounds
    apply eq_of_unpack_eq
    rw [unpacked, d.unpack_toFloat canonical rounds, sign, exact]
    cases x_sign with
    | negative => rfl
    | positive => rfl

/-- Where the shortest digits of a double stand. -/
theorem shortest_places (tie : Tie) (finite : isFinite x) {d : Decimal}
    (shortest : (scaled x).shortest double tie = d) :
    (-324 < (Nat.repr d.digits).length + d.exponent ∧
      (Nat.repr d.digits).length + d.exponent ≤ 309) ∧
      -341 ≤ d.exponent ∧ (d.digits = 0 → d.exponent = 0) := by
  subst shortest
  rcases finite_cases finite with ⟨zero_sign, unpacked, zero⟩ |
    ⟨x_sign, mantissa, exponent, canonical, unpacked, exact⟩
  · rw [zero, shortest_zero]
    dsimp only
    decide
  · rw [exact]
    obtain ⟨rounds, many⟩ := roundsTo_shortest (s := ⟨isMinus x_sign, mantissa, exponent⟩) tie canonical
    have positive := Decimal.digits_pos (lt_of_lt_of_le (by positivity) (rounds.within canonical).1)
    have least := canonical.least
    exact ⟨Decimal.places_of_roundsTo canonical rounds, by dsimp only at many; omega,
      fun none => absurd none positive.ne'⟩

end Reading
end Tabletop.Number
