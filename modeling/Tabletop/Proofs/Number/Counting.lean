import Tabletop.Proofs.Number.Sums

/-!
Whole doubles in place of integers. They are ordered as the integers that they hold, truncation leaves them
as they are, and up to 2^53 they are added exactly; from there on, one more is no less than 2^53.
-/

namespace Tabletop.Number

open Float.Model Float.Model.UnpackedFloat

variable {x y : Float} {m₁ m₂ mantissa : Nat} {e₁ e₂ exponent : Int}

section Order

/-- A double with a greater exponent is greater. -/
theorem Canonical.lt_of_exponent_lt (first : Canonical m₁ e₁) (second : Canonical m₂ e₂)
    (less : e₁ < e₂) : (m₁ * 2 ^ e₁ : ℚ) < m₂ * 2 ^ e₂ := by
  have least := first.least
  have full : (2 ^ 52 : ℚ) ≤ m₂ := by exact_mod_cast second.full.resolve_right (by omega)
  have below : (m₁ : ℚ) < 2 ^ 53 := by exact_mod_cast first.below
  calc (m₁ * 2 ^ e₁ : ℚ) < 2 ^ 53 * 2 ^ e₁ := mul_lt_mul_of_pos_right below (by positivity)
    _ = 2 ^ 52 * 2 ^ (e₁ + 1) := by
      rw [zpow_add_one₀ (by norm_num)]
      ring
    _ ≤ 2 ^ 52 * 2 ^ e₂ :=
      mul_le_mul_of_nonneg_left (zpow_le_zpow_right₀ (by norm_num) less) (by positivity)
    _ ≤ m₂ * 2 ^ e₂ := mul_le_mul_of_nonneg_right full (by positivity)

/-- Positive doubles are compared by their exponents, then by their mantissas. -/
theorem Canonical.compare_eq (first : Canonical m₁ e₁) (second : Canonical m₂ e₂) :
    (compare e₁ e₂).then (compare m₁ m₂) = compare (m₁ * 2 ^ e₁ : ℚ) (m₂ * 2 ^ e₂) := by
  rcases lt_trichotomy e₁ e₂ with less | rfl | more
  · rw [compare_lt_iff_lt.mpr less, compare_lt_iff_lt.mpr (first.lt_of_exponent_lt second less)]
    rfl
  · have unit : (0 : ℚ) < 2 ^ e₁ := by positivity
    rw [compare_eq_iff_eq.mpr rfl, Ordering.eq_then, ← cmp_eq_compare, ← cmp_eq_compare,
      cmp_mul_pos_right unit]
    exact (Nat.strictMono_cast.cmp_map_eq m₁ m₂).symm
  · rw [compare_gt_iff_gt.mpr more, compare_gt_iff_gt.mpr (second.lt_of_exponent_lt first more)]
    rfl

/-- A whole double is a zero, or it has the magnitude of the integer that it holds. -/
theorem whole_cases (whole : isWhole x) :
    (∃ sign, x.toModel.unpack = .zero sign ∧ wholeInt x = 0) ∨
    ∃ sign mantissa exponent, ∃ canonical : Canonical mantissa exponent, ∃ n : Nat,
      x.toModel.unpack = canonical.signed sign ∧ wholeInt x = signed (isMinus sign) n ∧ 0 < n ∧
        (n : ℚ) = mantissa * 2 ^ exponent := by
  obtain ⟨finite, exact⟩ := Bool.and_eq_true_iff.mp whole
  rcases finite_cases finite with ⟨sign, unpacked, zero⟩ |
    ⟨sign, mantissa, exponent, canonical, unpacked, parts⟩
  · left
    refine ⟨sign, unpacked, ?_⟩
    simp [wholeInt, zero, Scaled.wholePart]
  · right
    have value := wholePart_eq exact
    rw [parts] at value
    refine ⟨sign, mantissa, exponent, canonical, (scaled x).wholePart, unpacked, ?_, ?_, ?_⟩
    · rw [wholeInt, parts]
      rfl
    · have positive : (0 : ℚ) < mantissa := by exact_mod_cast canonical.positive
      have value_positive : (0 : ℚ) < (scaled x).wholePart := by
        rw [parts, value, Scaled.magnitude]
        positivity
      exact_mod_cast value_positive
    · rw [parts, value]
      rfl

theorem compare_natCast (n n' : Nat) : compare (n : ℚ) n' = compare (n : ℤ) n' := by
  rw [← cmp_eq_compare, ← cmp_eq_compare]
  exact (Nat.strictMono_cast.cmp_map_eq n n').trans (Nat.strictMono_cast.cmp_map_eq n n').symm

theorem compare_neg_natCast (n n' : Nat) :
    compare (-n : ℤ) (-n') = (compare (n : ℤ) n').swap := by
  have turns : StrictAnti fun value : ℤ => -value := fun _ _ => neg_lt_neg
  rw [← Std.OrientedOrd.eq_swap, ← cmp_eq_compare, ← cmp_eq_compare]
  exact turns.cmp_map_eq (n : ℤ) n'

/-- Whole doubles are ordered as the integers that they hold. -/
theorem compare_whole (whole : isWhole x) (whole' : isWhole y) :
    x.toModel.unpack.compare y.toModel.unpack = some (compare (wholeInt x) (wholeInt y)) := by
  rcases whole_cases whole with ⟨sign, unpacked, value⟩ |
    ⟨sign, mantissa, exponent, canonical, n, unpacked, value, positive, magnitude⟩
  · rcases whole_cases whole' with ⟨sign', unpacked', value'⟩ |
      ⟨sign', mantissa', exponent', canonical', n', unpacked', value', positive', magnitude'⟩
    · rw [unpacked, unpacked', value, value']
      rfl
    · rw [unpacked, unpacked', value, value']
      cases sign' with
      | negative => exact congrArg some (compare_gt_iff_gt.mpr (by simpa [isMinus, signed])).symm
      | positive => exact congrArg some (compare_lt_iff_lt.mpr (by simpa [isMinus, signed])).symm
  · rcases whole_cases whole' with ⟨sign', unpacked', value'⟩ |
      ⟨sign', mantissa', exponent', canonical', n', unpacked', value', positive', magnitude'⟩
    · rw [unpacked, unpacked', value, value']
      cases sign with
      | negative => exact congrArg some (compare_lt_iff_lt.mpr (by simpa [isMinus, signed])).symm
      | positive => exact congrArg some (compare_gt_iff_gt.mpr (by simpa [isMinus, signed])).symm
    · have magnitudes : (compare exponent exponent').then (compare mantissa mantissa') =
          compare (n : ℤ) n' := by
        rw [canonical.compare_eq canonical', ← magnitude, ← magnitude', compare_natCast]
      rw [unpacked, unpacked', value, value']
      cases sign with
      | negative =>
        cases sign' with
        | negative =>
          exact congrArg some
            ((congrArg Ordering.swap magnitudes).trans (compare_neg_natCast n n').symm)
        | positive =>
          refine congrArg some (compare_lt_iff_lt.mpr ?_).symm
          simp only [isMinus, signed, if_true, Bool.false_eq_true, if_false]
          omega
      | positive =>
        cases sign' with
        | negative =>
          refine congrArg some (compare_gt_iff_gt.mpr ?_).symm
          simp only [isMinus, signed, if_true, Bool.false_eq_true, if_false]
          omega
        | positive => exact congrArg some magnitudes

theorem le_iff_wholeInt_le (whole : isWhole x) (whole' : isWhole y) :
    x ≤ y ↔ wholeInt x ≤ wholeInt y := by
  have compared : x ≤ y ↔ (x.toModel.unpack.compare y.toModel.unpack).any Ordering.isLE = true :=
    decide_eq_true_iff
  rw [compared, compare_whole whole whole', Option.any_some, Std.isLE_compare]

theorem lt_iff_wholeInt_lt (whole : isWhole x) (whole' : isWhole y) :
    x < y ↔ wholeInt x < wholeInt y := by
  have compared : x < y ↔ (x.toModel.unpack.compare y.toModel.unpack == some .lt) = true :=
    decide_eq_true_iff
  rw [compared, compare_whole whole whole', beq_iff_eq, Option.some_inj, compare_lt_iff_lt]

theorem zero_whole : isWhole 0 ∧ wholeInt 0 = 0 := wholeInt_ofNat (n := 0) (by decide)

theorem zero_le_iff_of_whole (whole : isWhole x) : 0 ≤ x ↔ 0 ≤ wholeInt x := by
  rw [le_iff_wholeInt_le zero_whole.1 whole, zero_whole.2]

theorem lt_zero_iff_of_whole (whole : isWhole x) : x < 0 ↔ wholeInt x < 0 := by
  rw [lt_iff_wholeInt_lt whole zero_whole.1, zero_whole.2]

end Order

section Truncation

/-- The places behind the point of a whole number are empty. -/
theorem Scaled.dvd_of_isWhole {s : Scaled} (whole : s.isWhole) {places : Nat}
    (behind_point : s.exponent = -places) : 2 ^ places ∣ s.mantissa := by
  rw [Scaled.isWhole, Bool.or_eq_true, decide_eq_true_eq, beq_iff_eq] at whole
  rcases whole with no_places | empty
  · obtain rfl : places = 0 := by omega
    exact one_dvd _
  · rw [behind_point, neg_neg, Int.toNat_natCast, Nat.shiftLeft_eq] at empty
    exact Dvd.intro_left _ empty

/-- The bits of a double are its sign, then its exponent, then its fraction. -/
theorem toNat_toBits (x : Float) : x.toBits.toNat =
    2 ^ 63 * (x.toBits.toNat / 2 ^ 63) + 2 ^ 52 * exponentField x + fractionField x := by
  have fraction : fractionField x = x.toBits.toNat % 2 ^ 52 :=
    fractionField_eq.trans (toNat_unpackMantissa _)
  have field : exponentField x = x.toBits.toNat / 2 ^ 52 % 2 ^ 11 :=
    exponentField_eq.trans (toNat_unpackExponent _)
  rw [fraction, field]
  omega

theorem ofBits_toBits (finite : isFinite x) : Float.ofBits x.toBits = x := by
  apply eq_of_unpack_eq
  change UnpackedFloat.unpack Format.binary64 (UnpackedFloat.pack Format.binary64 x.toModel.unpack) = _
  rcases finite_cases finite with ⟨sign, unpacked, -⟩ | ⟨sign, _, _, canonical, unpacked, -⟩
  · rw [unpacked]
    exact unpack_pack_zero sign
  · rw [unpacked]
    exact unpack_pack_canonical canonical sign

/-- A whole double below one is a zero. -/
theorem fields_eq_zero_of_whole (whole : isWhole x) (small : exponentField x < 1023) :
    exponentField x = 0 ∧ fractionField x = 0 := by
  obtain ⟨-, exact⟩ := Bool.and_eq_true_iff.mp whole
  have fraction_below : fractionField x < 2 ^ 52 := by
    rw [fractionField_eq]
    exact (UnpackedFloat.unpackMantissa (pattern x)).isLt
  have too_many {mantissa places : Nat} (below : mantissa < 2 ^ 53) (many : 53 ≤ places)
      (divides : 2 ^ places ∣ mantissa) : mantissa = 0 :=
    Nat.eq_zero_of_dvd_of_lt divides
      (below.trans_le (Nat.pow_le_pow_right (by decide) many))
  unfold scaled Format.scaled at exact
  split at exact
  · rename_i no_field
    have divides : 2 ^ 1074 ∣ fractionField x := Scaled.dvd_of_isWhole exact rfl
    exact ⟨no_field, too_many (by omega) (by decide) divides⟩
  · rename_i some_field
    have places : double.leastExponent + (exponentField x - 1 : Nat) =
        -((1075 - exponentField x : ℕ) : ℤ) := by
      change (-1074 : ℤ) + _ = _
      omega
    have divides := Scaled.dvd_of_isWhole exact places
    have no_mantissa := too_many (by change _ + 2 ^ 52 < _; omega) (by omega) divides
    exact absurd no_mantissa (Nat.add_pos_right _ (Nat.two_pow_pos _)).ne'

/-- The bits of a whole double that stand for places behind its point are empty. -/
theorem dvd_toBits_of_whole (whole : isWhole x) {places : Nat} (few : places ≤ 52)
    (last_place : exponentField x + places = 1075) : 2 ^ places ∣ x.toBits.toNat := by
  obtain ⟨-, exact⟩ := Bool.and_eq_true_iff.mp whole
  have unit : 2 ^ places ∣ 2 ^ 52 := Nat.pow_dvd_pow 2 few
  unfold scaled Format.scaled at exact
  rw [if_neg (by omega)] at exact
  have behind_point : double.leastExponent + (exponentField x - 1 : Nat) = -(places : ℤ) := by
    change (-1074 : ℤ) + _ = _
    omega
  have mantissa := Scaled.dvd_of_isWhole exact behind_point
  have fraction : 2 ^ places ∣ fractionField x := (Nat.dvd_add_iff_left unit).mpr mantissa
  rw [toNat_toBits x]
  refine Nat.dvd_add (Nat.dvd_add ?_ ?_) fraction
  · exact (unit.trans (Nat.pow_dvd_pow 2 (by decide))).mul_right _
  · exact unit.mul_right _

/-- A whole double has nothing behind its point that could be dropped. -/
theorem truncate_whole (whole : isWhole x) : truncate x = x := by
  obtain ⟨finite, -⟩ := Bool.and_eq_true_iff.mp whole
  have below := x.toBits.toNat_lt
  unfold truncate
  dsimp only
  split
  · rename_i small
    obtain ⟨no_field, no_fraction⟩ := fields_eq_zero_of_whole whole small
    have bits := toNat_toBits x
    rw [no_field, no_fraction] at bits
    have one_sign : x.toBits = 0 ∨ x.toBits = 0x8000000000000000 := by
      rcases Nat.lt_or_ge x.toBits.toNat (2 ^ 63) with plus | minus
      · exact .inl (UInt64.toNat_inj.mp (by change _ = 0; omega))
      · exact .inr (UInt64.toNat_inj.mp (by change _ = 0x8000000000000000; omega))
    have sign_only : x.toBits &&& 0x8000000000000000 = x.toBits := by
      rcases one_sign with plus | minus
      · rw [plus]
        rfl
      · rw [minus]
        rfl
    rw [sign_only, ofBits_toBits finite]
  split
  · rfl
  · obtain ⟨places, places_eq⟩ : ∃ places, 1075 - exponentField x = places := ⟨_, rfl⟩
    have empty := dvd_toBits_of_whole whole (by omega : places ≤ 52) (by omega)
    have shift : (1075 - exponentField x).toUInt64.toNat % 64 = places := by
      rw [places_eq, Nat.toUInt64_eq, UInt64.toNat_ofNat']
      omega
    have kept : (x.toBits >>> (1075 - exponentField x).toUInt64) <<<
        (1075 - exponentField x).toUInt64 = x.toBits := by
      apply UInt64.toNat_inj.mp
      rw [UInt64.toNat_shiftLeft, UInt64.toNat_shiftRight, shift, Nat.shiftRight_eq_div_pow,
        Nat.shiftLeft_eq, Nat.div_mul_cancel empty, Nat.mod_eq_of_lt below]
    rw [kept, ofBits_toBits finite]

end Truncation

section Sums

/-- One more than a whole number from 2^53 on rounds to the number or to the one above it, which may be
carried. -/
theorem exists_roundsTo_succ (canonical : Canonical mantissa exponent) (large : 1 ≤ exponent) :
    ∃ m e, Canonical m e ∧ 1 ≤ e ∧ RoundsTo (mantissa * 2 ^ exponent + 1) m e := by
  have full := canonical.full.resolve_right (by omega)
  have below := canonical.below
  by_cases kept : 2 ≤ exponent ∨ mantissa % 2 = 0
  · have unit : (2 : ℚ) ≤ 2 ^ exponent :=
      calc (2 : ℚ) = 2 ^ (1 : ℤ) := by norm_num
        _ ≤ 2 ^ exponent := zpow_le_zpow_right₀ (by norm_num) large
    refine ⟨mantissa, exponent, canonical, large, by linarith, fun _ _ => by linarith, by linarith, ?_⟩
    intro odd
    have unit : (4 : ℚ) ≤ 2 ^ exponent :=
      calc (4 : ℚ) = 2 ^ (2 : ℤ) := by norm_num
        _ ≤ 2 ^ exponent := zpow_le_zpow_right₀ (by norm_num) (kept.resolve_right (by omega))
    exact ⟨by linarith, by linarith⟩
  · -- halfway between two mantissas the one above is even
    obtain rfl : exponent = 1 := by omega
    rw [zpow_one]
    rcases Nat.lt_or_eq_of_le (Nat.succ_le_of_lt below) with next_below | carry
    · refine ⟨mantissa + 1, 1, ⟨by omega, next_below, by omega, .inl (by omega), by omega⟩, le_rfl,
        ?_, fun power => by omega, ?_, fun odd => by omega⟩
      · push_cast
        linarith
      · push_cast
        linarith
    · obtain rfl : mantissa = 2 ^ 53 - 1 := by omega
      refine ⟨2 ^ 52, 2, ⟨by decide, by decide, by decide, .inl le_rfl, by decide⟩, by decide,
        by norm_num, fun _ _ => by norm_num, by norm_num, fun odd => ?_⟩
      norm_num at odd

theorem isWhole_of_exponent {s : Scaled} (large : 1 ≤ s.exponent) (full : 2 ^ 52 ≤ s.mantissa) :
    s.isWhole ∧ 2 ^ 53 ≤ s.wholePart := by
  have no_fraction : 0 ≤ s.exponent := by omega
  constructor
  · rw [Scaled.isWhole, decide_eq_true no_fraction, Bool.true_or]
  · rw [Scaled.wholePart, if_pos no_fraction, Nat.shiftLeft_eq]
    exact Nat.mul_le_mul full (Nat.pow_le_pow_right Nat.zero_lt_two (by omega : 1 ≤ s.exponent.toNat))

/-- A whole double that is not negative is what its natural number gives, or minus zero. -/
theorem eq_ofNat_of_whole (whole : isWhole x) {n : Nat} (value : wholeInt x = n) :
    x = Float.ofNat n ∨ x = -0.0 ∧ n = 0 := by
  rcases whole_cases whole with ⟨sign, unpacked, zero⟩ |
    ⟨sign, mantissa, exponent, canonical, n', unpacked, value', positive, magnitude⟩
  · obtain rfl : n = 0 := by omega
    cases sign with
    | negative => exact .inr ⟨eq_of_unpack_eq (unpacked.trans unpack_minus_zero.symm), rfl⟩
    | positive => exact .inl (eq_of_unpack_eq (unpacked.trans unpack_zero.symm))
  · rw [value'] at value
    cases sign with
    | negative =>
      simp only [isMinus, signed, if_true] at value
      omega
    | positive =>
      simp only [isMinus, signed, Bool.false_eq_true, if_false, Nat.cast_inj] at value
      subst value
      exact .inl (eq_of_unpack_eq (unpacked.trans (unpack_ofNat positive canonical magnitude).symm))

/-- The doubles of the natural numbers up to 2^53 hold them. -/
theorem wholeInt_ofNat_of_le {n : Nat} (countable : n ≤ 2 ^ 53) :
    isWhole (Float.ofNat n) = true ∧ wholeInt (Float.ofNat n) = n := by
  rcases Nat.lt_or_eq_of_le countable with below | rfl
  · exact wholeInt_ofNat below
  · have canonical : Canonical (2 ^ 52) 1 := ⟨by decide, by decide, by decide, .inl le_rfl, by decide⟩
    obtain ⟨finite, exact⟩ :=
      scaled_of_unpack (unpack_ofNat (by decide) canonical (by norm_num : ((2 ^ 53 : ℕ) : ℚ) = _))
    rw [isWhole, wholeInt, finite, exact]
    decide

theorem Plain.minus_zero_add (plain : Plain x) : -0.0 + x = x := by
  apply eq_of_unpack_eq
  rw [unpack_add, unpack_minus_zero]
  rcases plain with zero | ⟨mantissa, exponent, canonical, unpacked⟩
  · rw [zero]
    exact unpack_pack_zero .positive
  · rw [unpacked]
    exact unpack_pack_canonical canonical .positive

/-- Natural numbers are added exactly to whole doubles up to 2^53. -/
theorem whole_add_ofNat (whole : isWhole x) (natural : 0 ≤ wholeInt x) {more : Nat}
    (countable : wholeInt x + more ≤ 2 ^ 53) :
    isWhole (x + Float.ofNat more) ∧ wholeInt (x + Float.ofNat more) = wholeInt x + more := by
  obtain ⟨n, value⟩ := Int.eq_ofNat_of_zero_le natural
  rw [value] at countable ⊢
  have countable : n + more ≤ 2 ^ 53 := by exact_mod_cast countable
  have sum : x + Float.ofNat more = Float.ofNat (n + more) := by
    rcases eq_ofNat_of_whole whole value with rfl | ⟨rfl, rfl⟩
    · exact ofNat_add countable
    · rw [Nat.zero_add]
      exact (plain_ofNat (by omega)).minus_zero_add
  rw [sum]
  exact_mod_cast wholeInt_ofNat_of_le countable

/-- A double of 2^53 or more has no place behind its point, and neither has one more than it. -/
theorem whole_add_one_of_le (whole : isWhole x) (large : 2 ^ 53 ≤ wholeInt x) :
    isWhole (x + 1) ∧ 2 ^ 53 ≤ wholeInt (x + 1) := by
  rcases whole_cases whole with ⟨sign, -, zero⟩ |
    ⟨sign, mantissa, exponent, canonical, n, unpacked, value, positive, magnitude⟩
  · rw [zero] at large
    norm_num at large
  cases sign with
  | negative =>
    simp only [value, isMinus, signed, if_true] at large
    omega
  | positive =>
    simp only [value, isMinus, signed, Bool.false_eq_true, if_false] at large
    have large : (2 ^ 53 : ℚ) ≤ mantissa * 2 ^ exponent := by
      rw [← magnitude]
      exact_mod_cast large
    have below : (mantissa : ℚ) < 2 ^ 53 := by exact_mod_cast canonical.below
    have no_fraction : 1 ≤ exponent := by
      by_contra fraction
      have unit : (2 : ℚ) ^ exponent ≤ 1 := zpow_le_one_of_nonpos₀ (by norm_num) (by omega)
      have small : (mantissa * 2 ^ exponent : ℚ) ≤ mantissa :=
        mul_le_of_le_one_right (Nat.cast_nonneg mantissa) unit
      linarith
    obtain ⟨one, unpacked_one⟩ := unpack_one
    obtain ⟨m, e, sum, sum_large, rounds⟩ := exists_roundsTo_succ canonical no_fraction
    have unpacked_sum : (x + 1).toModel.unpack = sum.signed .positive := by
      refine unpack_add_of_roundsTo (canonical.full.resolve_right (by omega)) le_rfl unpacked
        unpacked_one sum ?_
      convert rounds using 2
      norm_num
    obtain ⟨finite, exact⟩ := scaled_of_unpack unpacked_sum
    have parts : (scaled (x + 1)).isWhole ∧ 2 ^ 53 ≤ (scaled (x + 1)).wholePart := by
      rw [exact]
      exact isWhole_of_exponent sum_large (sum.full.resolve_right (by omega))
    constructor
    · rw [isWhole, finite, parts.1, Bool.and_self]
    · have plus : (scaled (x + 1)).negative = false := by
        rw [exact]
        rfl
      rw [wholeInt, plus, if_neg Bool.false_ne_true]
      exact_mod_cast parts.2

end Sums
end Tabletop.Number
