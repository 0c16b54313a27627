import Tabletop.Proofs.Number.Reading

/-!
Whole doubles below nine quadrillion and the integers that they hold.
-/

namespace Tabletop.Number

open Float.Model Float.Model.UnpackedFloat

variable {x : Float} {n : Int}

section Zero

/-- A double without a mantissa is zero. -/
theorem unpack_of_scaled {negative : Bool} (finite : isFinite x)
    (exact : scaled x = ⟨negative, 0, -1074⟩) : x.toModel.unpack = .zero (signOf negative) := by
  rcases finite_cases finite with ⟨sign, unpacked, zero⟩ |
    ⟨sign, mantissa, exponent, canonical, unpacked, other⟩
  · rw [exact, Scaled.mk.injEq] at zero
    rw [unpacked, zero.1]
    cases sign with
    | negative => rfl
    | positive => rfl
  · rw [exact, Scaled.mk.injEq] at other
    exact absurd other.2.1 canonical.positive.ne

theorem scaled_zero : (isFinite 0 ∧ scaled 0 = ⟨false, 0, -1074⟩) ∧
    isFinite (-0.0) ∧ scaled (-0.0) = ⟨true, 0, -1074⟩ := by
  decide +kernel

theorem unpack_zero : (0 : Float).toModel.unpack = .zero .positive :=
  unpack_of_scaled scaled_zero.1.1 scaled_zero.1.2

theorem unpack_minus_zero : (-0.0 : Float).toModel.unpack = .zero .negative :=
  unpack_of_scaled scaled_zero.2.1 scaled_zero.2.2

/-- A double is equal to zero if it is zero, with either sign. -/
theorem beq_zero_iff : x == 0 ↔ ∃ sign, x.toModel.unpack = .zero sign := by
  change (x.toModel.unpack.compare (0 : Float).toModel.unpack == some .eq) = true ↔ _
  rw [unpack_zero]
  constructor
  · intro same
    cases unpacked : x.toModel.unpack with
    | zero sign => exact ⟨sign, rfl⟩
    | notANumber =>
      rw [unpacked] at same
      cases same
    | infinity sign =>
      rw [unpacked] at same
      cases sign with
      | negative => cases same
      | positive => cases same
    | finite sign mantissa exponent positive =>
      rw [unpacked] at same
      cases sign with
      | negative => cases same
      | positive => cases same
  · rintro ⟨sign, unpacked⟩
    rw [unpacked]
    rfl

/-- Of the zeros only minus zero is not the zero that numbers without a sign are read as. -/
theorem eq_zero_of_beq (zero : x == 0) (plus : x ≠ -0.0) : x = 0 := by
  obtain ⟨sign, unpacked⟩ := beq_zero_iff.mp zero
  cases sign with
  | negative => exact absurd (eq_of_unpack_eq (unpacked.trans unpack_minus_zero.symm)) plus
  | positive => exact eq_of_unpack_eq (unpacked.trans unpack_zero.symm)

end Zero

section Bound

theorem wholeBound_scaled : isFinite wholeBound ∧ scaled wholeBound = ⟨false, 9000000000000000, 0⟩ := by
  decide +kernel

theorem isWhole_of_smallInt? (small : smallInt? x = some n) :
    isFinite x ∧ (scaled x).isWhole ∧ x.abs < wholeBound ∧ n = wholeInt x := by
  unfold smallInt? isWhole at small
  split at small
  · rename_i whole
    simp only [Bool.and_eq_true, decide_eq_true_eq] at whole
    exact ⟨whole.1.1, whole.1.2, whole.2, by cases small; rfl⟩
  · cases small

theorem unpack_wholeBound : ∃ canonical : Canonical 9000000000000000 0,
    wholeBound.toModel.unpack = canonical.signed .positive := by
  obtain ⟨finite, bound⟩ := wholeBound_scaled
  rcases finite_cases finite with ⟨sign, unpacked, zero⟩ |
    ⟨sign, mantissa, exponent, canonical, unpacked, exact⟩
  · rw [bound, Scaled.mk.injEq] at zero
    exact absurd zero.2.1 (by decide)
  · rw [bound, Scaled.mk.injEq] at exact
    obtain ⟨plus, rfl, rfl⟩ := exact
    rw [isMinus_eq_false_iff.mp plus.symm] at unpacked
    exact ⟨canonical, unpacked⟩

theorem unpack_abs {mantissa : Nat} {exponent : Int} {canonical : Canonical mantissa exponent}
    {sign : Sign} (unpacked : x.toModel.unpack = canonical.signed sign) :
    x.abs.toModel.unpack = canonical.signed .positive := by
  change UnpackedFloat.unpack Format.binary64 (UnpackedFloat.pack Format.binary64
    x.toModel.unpack.abs) = _
  rw [unpacked]
  exact unpack_pack_canonical canonical .positive

theorem unpack_neg {mantissa : Nat} {exponent : Int} {canonical : Canonical mantissa exponent}
    (unpacked : x.toModel.unpack = canonical.signed .positive) :
    x.neg.toModel.unpack = canonical.signed .negative := by
  change UnpackedFloat.unpack Format.binary64 (UnpackedFloat.pack Format.binary64
    x.toModel.unpack.neg) = _
  rw [unpacked]
  exact unpack_pack_canonical canonical .negative

/-- A double below the bound is less than 53 bits long before its point. -/
theorem abs_lt_iff {mantissa : Nat} {exponent : Int} {canonical : Canonical mantissa exponent}
    {sign : Sign} (unpacked : x.toModel.unpack = canonical.signed sign) :
    x.abs < wholeBound ↔ exponent < 0 ∨ exponent = 0 ∧ mantissa < 9000000000000000 := by
  obtain ⟨bound_canonical, bound_unpacked⟩ := unpack_wholeBound
  have compared : x.abs < wholeBound ↔
      (x.abs.toModel.unpack.compare wholeBound.toModel.unpack == some .lt) = true :=
    decide_eq_true_iff
  have lexicographic : UnpackedFloat.compare (canonical.signed .positive)
      (bound_canonical.signed .positive) =
        some ((compare exponent 0).then (compare mantissa 9000000000000000)) := rfl
  rw [compared, unpack_abs unpacked, bound_unpacked, lexicographic, beq_iff_eq, Option.some_inj,
    Ordering.then_eq_lt, Int.compare_eq_lt, Int.compare_eq_eq, Nat.compare_eq_lt]

end Bound

section Integers

/-- The whole part of a whole number is the number. -/
theorem wholePart_eq {s : Scaled} (whole : s.isWhole) : (s.wholePart : ℚ) = s.magnitude := by
  unfold Scaled.isWhole at whole
  rw [Bool.or_eq_true, decide_eq_true_eq, beq_iff_eq] at whole
  rw [Scaled.magnitude]
  by_cases above : 0 ≤ s.exponent
  · obtain ⟨places, places_eq⟩ := Int.eq_ofNat_of_zero_le above
    rw [Scaled.wholePart, if_pos above, places_eq, Int.toNat_natCast, Nat.shiftLeft_eq, zpow_natCast]
    push_cast
    rfl
  · obtain ⟨places, places_eq⟩ : ∃ places : ℕ, s.exponent = -places :=
      ⟨s.exponent.natAbs, by omega⟩
    have same := whole.resolve_left above
    rw [places_eq, neg_neg, Int.toNat_natCast, Nat.shiftLeft_eq] at same
    rw [← same, places_eq, zpow_neg, zpow_natCast]
    push_cast
    field_simp

/-- The integer that a double holds has the double's value. -/
theorem smallInt?_cases (small : smallInt? x = some n) :
    (n = 0 ∧ x == 0) ∨
    ∃ sign mantissa exponent, ∃ canonical : Canonical mantissa exponent, ∃ whole : Nat,
      x.toModel.unpack = canonical.signed sign ∧ n = signed (isMinus sign) whole ∧
        0 < whole ∧ whole < 2 ^ 53 ∧ (whole : ℚ) = mantissa * 2 ^ exponent := by
  obtain ⟨finite, whole, below, rfl⟩ := isWhole_of_smallInt? small
  rcases finite_cases finite with ⟨sign, unpacked, zero⟩ |
    ⟨sign, mantissa, exponent, canonical, unpacked, exact⟩
  · left
    refine ⟨?_, beq_zero_iff.mpr ⟨sign, unpacked⟩⟩
    have no_whole : (scaled x).wholePart = 0 := by
      simp [zero, Scaled.wholePart]
    simp [wholeInt, no_whole]
  · right
    have value := wholePart_eq whole
    rw [exact] at value
    refine ⟨sign, mantissa, exponent, canonical, (scaled x).wholePart, unpacked, ?_, ?_, ?_, ?_⟩
    · rw [wholeInt, exact]
      rfl
    · have positive : (0 : ℚ) < mantissa := by exact_mod_cast canonical.positive
      have value_positive : (0 : ℚ) < (scaled x).wholePart := by
        rw [exact, value, Scaled.magnitude]
        positivity
      exact_mod_cast value_positive
    · have mantissa_below : (mantissa : ℚ) < 2 ^ 53 := by exact_mod_cast canonical.below
      have unit : (2 : ℚ) ^ exponent ≤ 1 := by
        refine zpow_le_one_of_nonpos₀ (by norm_num) ?_
        rcases (abs_lt_iff unpacked).mp below with less | same
        · exact less.le
        · exact same.1.le
      have value_below : ((scaled x).wholePart : ℚ) < 2 ^ 53 := by
        rw [exact, value, Scaled.magnitude]
        calc (mantissa * 2 ^ exponent : ℚ) ≤ mantissa :=
              mul_le_of_le_one_right (by positivity) unit
          _ < 2 ^ 53 := mantissa_below
      exact_mod_cast value_below
    · rw [exact, value]
      rfl

theorem smallInt?_bound (small : smallInt? x = some n) : -2 ^ 53 ≤ n ∧ n < 2 ^ 53 := by
  rcases smallInt?_cases small with ⟨rfl, _⟩ | ⟨sign, _, _, _, whole, _, rfl, _, below, _⟩
  · norm_num
  · cases sign with
    | negative =>
      simp only [isMinus, signed, if_true]
      omega
    | positive =>
      simp only [isMinus, signed, Bool.false_eq_true, if_false]
      omega

theorem unpack_ofNat {whole mantissa : Nat} {exponent : Int} (positive : 0 < whole)
    (canonical : Canonical mantissa exponent) (value : (whole : ℚ) = mantissa * 2 ^ exponent) :
    (Float.ofNat whole).toModel.unpack = canonical.signed .positive := by
  refine unpack_ofScientific positive canonical ?_ ?_ ?_
  · decide
  · simp only [signed, Bool.false_eq_true, if_false]
    omega
  · simpa [signed] using RoundsTo.of_eq value

/-- The double of the integer that a double holds is that double, or zero if that is minus zero. -/
theorem ofInt_of_smallInt? (small : smallInt? x = some n) :
    Float.ofInt n = if x == 0 then 0 else x := by
  rcases smallInt?_cases small with ⟨rfl, zero⟩ |
    ⟨sign, mantissa, exponent, canonical, whole, unpacked, rfl, positive, below, value⟩
  · rw [if_pos zero]
    rfl
  · have no_zero : ¬ x == 0 := by
      rw [beq_zero_iff, unpacked]
      rintro ⟨_, same⟩
      cases same
    rw [if_neg no_zero]
    apply eq_of_unpack_eq
    have of_whole := unpack_ofNat positive canonical value
    rw [unpacked]
    cases sign with
    | negative =>
      obtain ⟨before, rfl⟩ := Nat.exists_eq_succ_of_ne_zero positive.ne'
      exact unpack_neg of_whole
    | positive => exact of_whole

theorem ne_zero_of_smallInt?_none (large : smallInt? x = none) : (x == 0) = false := by
  rw [Bool.eq_false_iff]
  intro zero
  obtain ⟨sign, unpacked⟩ := beq_zero_iff.mp zero
  have finite : isFinite x := by
    by_contra infinite
    rcases infinite_cases (Bool.eq_false_iff.mpr infinite) with ⟨_, infinity⟩ | nan
    · rw [unpacked] at infinity
      cases infinity
    · rw [unpacked] at nan
      cases nan
  have whole : (scaled x).isWhole := by
    rcases finite_cases finite with ⟨_, _, exact⟩ | ⟨_, _, _, _, other, _⟩
    · simp [exact, Scaled.isWhole, Scaled.wholePart]
    · rw [unpacked] at other
      cases other
  have small : x.abs < wholeBound := by
    obtain ⟨_, bound_unpacked⟩ := unpack_wholeBound
    have abs_unpacked : x.abs.toModel.unpack = .zero .positive := by
      change UnpackedFloat.unpack Format.binary64 (UnpackedFloat.pack Format.binary64
        x.toModel.unpack.abs) = _
      rw [unpacked]
      exact unpack_pack_zero .positive
    have compared : (x.abs.toModel.unpack.compare wholeBound.toModel.unpack == some .lt) = true := by
      rw [abs_unpacked, bound_unpacked]
      rfl
    exact decide_eq_true compared
  simp [smallInt?, isWhole, finite, whole, small] at large

end Integers
end Tabletop.Number
