import Tabletop.Proofs.Number.Rounding

/-!
Doubles and their bit patterns: what the fields of a pattern stand for, and that sign, mantissa and
exponent of a finite double are kept in its pattern.
-/

namespace Tabletop.Number

open Float.Model Float.Model.UnpackedFloat

def isMinus : Sign → Bool
  | .negative => true
  | .positive => false

theorem isMinus_eq_false_iff {sign : Sign} : isMinus sign = false ↔ sign = .positive := by
  cases sign with
  | negative => simp [isMinus]
  | positive => simp [isMinus]

theorem finite_eq {sign : Sign} {mantissa mantissa' : Nat} {exponent exponent' : Int}
    {positive : 0 < mantissa} {positive' : 0 < mantissa'} (same_mantissa : mantissa = mantissa')
    (same_exponent : exponent = exponent') :
    UnpackedFloat.finite sign mantissa exponent positive =
      .finite sign mantissa' exponent' positive' := by
  subst same_mantissa
  subst same_exponent
  rfl

section Fields

variable (bits : BitVec Format.binary64.numBits)

theorem toNat_unpackMantissa :
    (unpackMantissa bits).toNat = bits.toNat % 2 ^ 52 := by
  change (bits.toNat >>> 0) % 2 ^ 52 = _
  rw [Nat.shiftRight_zero]

theorem toNat_unpackExponent :
    (unpackExponent bits).toNat = bits.toNat / 2 ^ 52 % 2 ^ 11 := by
  change (bits.toNat >>> 52) % 2 ^ 11 = _
  rw [Nat.shiftRight_eq_div_pow]

theorem toNat_unpackSign : (unpackSign bits).toNat = bits.toNat / 2 ^ 63 % 2 := by
  change (bits.toNat >>> 63) % 2 = _
  rw [Nat.shiftRight_eq_div_pow]

theorem packComponents_unpacked :
    packComponents Format.binary64 (Sign.ofBitVec (unpackSign bits)) (unpackExponent bits)
      (unpackMantissa bits) = bits := by
  have sign : (Sign.ofBitVec (unpackSign bits)).toBitVec = unpackSign bits := by
    generalize unpackSign bits = bit
    revert bit
    decide
  apply BitVec.eq_of_toNat_eq
  rw [packComponents, sign, BitVec.toNat_append, BitVec.toNat_append, ← Nat.shiftLeft_add_eq_or_of_lt
    (BitVec.isLt _), ← Nat.shiftLeft_add_eq_or_of_lt (BitVec.isLt _), toNat_unpackMantissa,
    toNat_unpackExponent, toNat_unpackSign, Nat.shiftLeft_eq, Nat.shiftLeft_eq]
  have below := bits.isLt
  simp only [Format.numBits, Format.binary64] at below ⊢
  omega

/-- What the fields of a pattern stand for. -/
theorem unpack_cases :
    ((unpackExponent bits).toNat = 2047 ∧ (unpackMantissa bits).toNat = 0 ∧
      unpack Format.binary64 bits = .infinity (Sign.ofBitVec (unpackSign bits))) ∨
    ((unpackExponent bits).toNat = 2047 ∧ (unpackMantissa bits).toNat ≠ 0 ∧
      unpack Format.binary64 bits = .notANumber) ∨
    ((unpackExponent bits).toNat = 0 ∧ (unpackMantissa bits).toNat = 0 ∧
      unpack Format.binary64 bits = .zero (Sign.ofBitVec (unpackSign bits))) ∨
    ((unpackExponent bits).toNat = 0 ∧
      ∃ canonical : Canonical (unpackMantissa bits).toNat (-1074),
        unpack Format.binary64 bits = canonical.signed (Sign.ofBitVec (unpackSign bits))) ∨
    (0 < (unpackExponent bits).toNat ∧ (unpackExponent bits).toNat < 2047 ∧
      ∃ canonical : Canonical ((unpackMantissa bits).toNat + 2 ^ 52)
          ((unpackExponent bits).toNat - 1075),
        unpack Format.binary64 bits = canonical.signed (Sign.ofBitVec (unpackSign bits))) := by
  have mantissa_below : (unpackMantissa bits).toNat < 2 ^ 52 := (unpackMantissa bits).isLt
  have exponent_below : (unpackExponent bits).toNat < 2 ^ 11 := (unpackExponent bits).isLt
  have bias : ((Format.binary64.exponentBias : ℕ) : ℤ) = 1023 := rfl
  unfold UnpackedFloat.unpack
  dsimp only
  by_cases all_ones : unpackExponent bits = -1#_
  · have full : (unpackExponent bits).toNat = 2047 := by rw [all_ones]; rfl
    rw [if_pos all_ones]
    by_cases no_mantissa : unpackMantissa bits = 0#_
    · rw [if_pos no_mantissa]
      left
      exact ⟨full, by rw [no_mantissa]; rfl, rfl⟩
    · rw [if_neg no_mantissa]
      right
      left
      exact ⟨full, fun zero => no_mantissa (BitVec.eq_of_toNat_eq zero), rfl⟩
  · rw [if_neg all_ones]
    right
    right
    by_cases is_zero : unpackExponent bits = 0#_
    · have no_exponent : (unpackExponent bits).toNat = 0 := by rw [is_zero]; rfl
      rw [if_pos is_zero]
      by_cases no_mantissa : unpackMantissa bits = 0#_
      · rw [dif_pos no_mantissa]
        left
        exact ⟨no_exponent, by rw [no_mantissa]; rfl, rfl⟩
      · rw [dif_neg no_mantissa]
        right
        left
        have positive : 0 < (unpackMantissa bits).toNat :=
          Nat.pos_of_ne_zero fun zero => no_mantissa (BitVec.eq_of_toNat_eq zero)
        refine ⟨no_exponent, ⟨positive, by omega, by omega, by omega, by omega⟩, ?_⟩
        refine finite_eq rfl ?_
        rw [no_exponent, bias]
        rfl
    · rw [if_neg is_zero]
      right
      right
      have positive : 0 < (unpackExponent bits).toNat :=
        Nat.pos_of_ne_zero fun zero => is_zero (BitVec.eq_of_toNat_eq zero)
      have below : (unpackExponent bits).toNat ≠ 2047 :=
        fun full => all_ones (BitVec.eq_of_toNat_eq full)
      have leading : (1#1 ++ unpackMantissa bits).toNat = (unpackMantissa bits).toNat + 2 ^ 52 := by
        rw [BitVec.toNat_append, ← Nat.shiftLeft_add_eq_or_of_lt (unpackMantissa bits).isLt]
        simp [Nat.shiftLeft_eq, Nat.add_comm]
      refine ⟨positive, by omega, ⟨by omega, by omega, by omega, by omega, by omega⟩, ?_⟩
      exact finite_eq leading rfl

end Fields

section Patterns

variable {mantissa : Nat} {exponent : Int}

/-- The pattern of a finite double; the first bit of 53 is not part of it. -/
theorem pack_canonical (canonical : Canonical mantissa exponent) (sign : Sign) :
    UnpackedFloat.pack Format.binary64 (canonical.signed sign) =
      packComponents Format.binary64 sign
        (BitVec.ofNat 11 (if 2 ^ 52 ≤ mantissa then (exponent + 1075).toNat else 0))
        (BitVec.ofNat 52 mantissa) := by
  have least := canonical.least
  have greatest := canonical.greatest
  have below := canonical.below
  have bias : (exponent + (Format.binary64.exponentBias : ℕ) +
      (Format.binary64.mantissaBitsWithoutImplicit : ℕ)).toNat = (exponent + 1075).toNat := by
    have bias : ((Format.binary64.exponentBias : ℕ) : ℤ) = 1023 := rfl
    have width : ((Format.binary64.mantissaBitsWithoutImplicit : ℕ) : ℤ) = 52 := rfl
    rw [bias, width]
    congr 1
    omega
  have bits : Format.binary64.mantissaBits = 53 := by decide
  have fits : ¬ 2 ^ Format.binary64.exponentBits ≤ (exponent + 1075).toNat + 1 := by
    change ¬ 2 ^ 11 ≤ _
    omega
  unfold UnpackedFloat.pack
  simp only [bias]
  rw [if_neg fits, bits]
  by_cases full : 2 ^ 52 ≤ mantissa
  · have digits : mantissa.log2 + 1 = 53 := by
      have low := (Nat.le_log2 canonical.positive.ne').mpr full
      have high := (Nat.log2_lt canonical.positive.ne').mpr below
      omega
    rw [if_pos digits, if_pos full]
  · have digits : mantissa.log2 + 1 ≠ 53 := by
      have high := (Nat.log2_lt canonical.positive.ne').mpr (by omega : mantissa < 2 ^ 52)
      omega
    rw [if_neg digits, if_neg full]

@[simp] theorem ofBitVec_toBitVec (sign : Sign) : Sign.ofBitVec sign.toBitVec = sign := by
  cases sign with
  | negative => rfl
  | positive => rfl

theorem toNat_packComponents (sign : Sign) (field : BitVec 11) (fraction : BitVec 52) :
    (packComponents Format.binary64 sign field fraction).toNat =
      sign.toBitVec.toNat * 2 ^ 63 + field.toNat * 2 ^ 52 + fraction.toNat := by
  rw [packComponents, BitVec.toNat_append, BitVec.toNat_append, ← Nat.shiftLeft_add_eq_or_of_lt
    (BitVec.isLt _), ← Nat.shiftLeft_add_eq_or_of_lt (BitVec.isLt _), Nat.shiftLeft_eq,
    Nat.shiftLeft_eq]
  ring

@[simp] theorem unpackSign_packComponents (sign : Sign) (field : BitVec 11) (fraction : BitVec 52) :
    unpackSign (packComponents Format.binary64 sign field fraction) = sign.toBitVec := by
  apply BitVec.eq_of_toNat_eq
  rw [toNat_unpackSign, toNat_packComponents]
  have sign_below : sign.toBitVec.toNat < 2 := sign.toBitVec.isLt
  have field_below := field.isLt
  have fraction_below := fraction.isLt
  omega

/-- The pattern of a finite double says what it is. -/
theorem unpack_pack_canonical (canonical : Canonical mantissa exponent) (sign : Sign) :
    UnpackedFloat.unpack Format.binary64
        (UnpackedFloat.pack Format.binary64 (canonical.signed sign)) = canonical.signed sign := by
  have positive := canonical.positive
  have least := canonical.least
  have greatest := canonical.greatest
  have below := canonical.below
  have full := canonical.full
  rw [pack_canonical canonical]
  generalize pattern : packComponents Format.binary64 sign _ _ = bits
  have sign_eq : unpackSign bits = sign.toBitVec := by rw [← pattern, unpackSign_packComponents]
  have fraction : (unpackMantissa bits).toNat = mantissa % 2 ^ 52 := by
    rw [← pattern, unpackMantissa_packComponents, BitVec.toNat_ofNat]
  have field : (unpackExponent bits).toNat =
      (if 2 ^ 52 ≤ mantissa then (exponent + 1075).toNat else 0) % 2 ^ 11 := by
    rw [← pattern, unpackExponent_packComponents, BitVec.toNat_ofNat]
  have cases_of := unpack_cases bits
  rw [fraction, field, sign_eq, ofBitVec_toBitVec] at cases_of
  by_cases normal : 2 ^ 52 ≤ mantissa
  · rw [if_pos normal] at cases_of
    rcases cases_of with ⟨_, _⟩ | ⟨_, _⟩ | ⟨_, _⟩ | ⟨_, _⟩ | ⟨_, _, canonical', unpacked⟩
    · omega
    · omega
    · omega
    · omega
    · rw [unpacked]
      exact finite_eq (by omega) (by omega)
  · rw [if_neg normal] at cases_of
    rcases cases_of with ⟨_, _⟩ | ⟨_, _⟩ | ⟨_, _, _⟩ | ⟨_, canonical', unpacked⟩ | ⟨_, _⟩
    · omega
    · omega
    · omega
    · rw [unpacked]
      exact finite_eq (by omega) (by omega)
    · omega

theorem unpack_pack_zero (sign : Sign) :
    UnpackedFloat.unpack Format.binary64 (UnpackedFloat.pack Format.binary64 (.zero sign)) =
      .zero sign := by
  cases sign with
  | negative => rfl
  | positive => rfl

/-- A pattern is what its double is written as; of the patterns of no number, only one is a double's. -/
theorem pack_unpack {bits : BitVec Format.binary64.numBits} (valid : Format.binary64.Valid bits) :
    UnpackedFloat.pack Format.binary64 (UnpackedFloat.unpack Format.binary64 bits) = bits := by
  have parts {field : BitVec 11} {fraction : BitVec 52} (same : field = unpackExponent bits)
      (same_fraction : fraction = unpackMantissa bits) :
      packComponents Format.binary64 (Sign.ofBitVec (unpackSign bits)) field fraction = bits := by
    rw [same, same_fraction, packComponents_unpacked]
  have fraction_below : (unpackMantissa bits).toNat < 2 ^ 52 := (unpackMantissa bits).isLt
  rcases unpack_cases bits with ⟨all_ones, no_fraction, unpacked⟩ | ⟨all_ones, fraction, unpacked⟩ |
    ⟨no_field, no_fraction, unpacked⟩ | ⟨no_field, canonical, unpacked⟩ |
    ⟨some_field, field_below, canonical, unpacked⟩
  · rw [unpacked]
    exact parts (BitVec.eq_of_toNat_eq all_ones.symm) (BitVec.eq_of_toNat_eq no_fraction.symm)
  · rw [unpacked]
    have same_field : unpackExponent bits = -1#11 := BitVec.eq_of_toNat_eq all_ones
    exact (valid.eq_packedNaN same_field fun zero => fraction (by rw [zero]; rfl)).symm
  · rw [unpacked]
    exact parts (BitVec.eq_of_toNat_eq no_field.symm) (BitVec.eq_of_toNat_eq no_fraction.symm)
  · rw [unpacked, pack_canonical canonical, if_neg (by omega)]
    exact parts (BitVec.eq_of_toNat_eq no_field.symm) (by simp)
  · rw [unpacked, pack_canonical canonical, if_pos (by omega)]
    refine parts (BitVec.eq_of_toNat_eq ?_) (BitVec.eq_of_toNat_eq ?_)
    · rw [BitVec.toNat_ofNat]
      omega
    · rw [BitVec.toNat_ofNat]
      omega

end Patterns

section Doubles

/-- The bits of a double. -/
abbrev pattern (x : Float) : BitVec Format.binary64.numBits := x.toModel.toBits.toBitVec

variable {x y : Float}

/-- Doubles are the same that stand for the same. -/
theorem eq_of_unpack_eq (same : x.toModel.unpack = y.toModel.unpack) : x = y := by
  have packed (z : Float) : Float.Model.pack z.toModel.unpack = z.toModel := by
    obtain ⟨bits, valid⟩ := z.toModel
    have same : UInt64.ofBitVec (UnpackedFloat.pack Format.binary64
        (UnpackedFloat.unpack Format.binary64 bits.toBitVec)) = bits := by
      rw [pack_unpack valid]
    exact (Float.Model.mk.injEq _ _ _ _).mpr same
  have models : x.toModel = y.toModel := by rw [← packed x, same, packed y]
  exact congrArg Float.ofModel models

theorem exponentField_eq : exponentField x = (unpackExponent (pattern x)).toNat := by
  rw [toNat_unpackExponent]
  simp only [exponentField, UInt64.toNat_and, UInt64.toNat_shiftRight]
  change x.toModel.toBits.toNat >>> 52 &&& 2 ^ 11 - 1 = _
  rw [Nat.and_two_pow_sub_one_eq_mod, Nat.shiftRight_eq_div_pow]
  rfl

theorem fractionField_eq : fractionField x = (unpackMantissa (pattern x)).toNat := by
  rw [toNat_unpackMantissa]
  simp only [fractionField, UInt64.toNat_and]
  change x.toModel.toBits.toNat &&& 2 ^ 52 - 1 = _
  rw [Nat.and_two_pow_sub_one_eq_mod]
  rfl

theorem signBit_eq :
    signBit x = isMinus (Sign.ofBitVec (unpackSign (pattern x))) := by
  have place : (x.toBits >>> 63).toNat = (unpackSign (pattern x)).toNat := by
    rw [toNat_unpackSign, UInt64.toNat_shiftRight]
    change x.toModel.toBits.toNat >>> 63 = x.toModel.toBits.toNat / 2 ^ 63 % 2
    have below := x.toModel.toBits.toNat_lt
    rw [Nat.shiftRight_eq_div_pow]
    omega
  rw [signBit]
  generalize unpackSign (pattern x) = bit at *
  generalize x.toBits >>> 63 = word at *
  obtain rfl : word = UInt64.ofNat bit.toNat := by rw [← place, UInt64.ofNat_toNat]
  revert bit
  decide

/-- A finite double is zero, or its exact value is what it stands for. -/
theorem finite_cases (finite : isFinite x) :
    (∃ sign, x.toModel.unpack = .zero sign ∧ scaled x = ⟨isMinus sign, 0, -1074⟩) ∨
    ∃ sign mantissa exponent, ∃ canonical : Canonical mantissa exponent,
      x.toModel.unpack = canonical.signed sign ∧
        scaled x = ⟨isMinus sign, mantissa, exponent⟩ := by
  have below : exponentField x ≠ 0x7ff := by simpa [isFinite] using finite
  rw [scaled, signBit_eq, fractionField_eq, Format.scaled]
  rw [exponentField_eq] at below ⊢
  rcases unpack_cases (pattern x) with ⟨all_ones, _⟩ | ⟨all_ones, _⟩ |
    ⟨no_field, no_fraction, unpacked⟩ | ⟨no_field, canonical, unpacked⟩ |
    ⟨some_field, _, canonical, unpacked⟩
  · exact absurd all_ones below
  · exact absurd all_ones below
  · left
    exact ⟨_, unpacked, by rw [if_pos no_field, no_fraction]; rfl⟩
  · right
    exact ⟨_, _, _, canonical, unpacked, by rw [if_pos no_field]; rfl⟩
  · right
    refine ⟨_, _, _, canonical, unpacked, ?_⟩
    rw [if_neg some_field.ne']
    congr 1
    simp only [double]
    omega

/-- What is not finite is infinite or no number. -/
theorem infinite_cases (infinite : isFinite x = false) :
    (∃ sign, x.toModel.unpack = .infinity sign) ∨ x.toModel.unpack = .notANumber := by
  have all_ones : exponentField x = 0x7ff := by simpa [isFinite] using infinite
  rw [exponentField_eq] at all_ones
  rcases unpack_cases (pattern x) with ⟨_, _, unpacked⟩ | ⟨_, _, unpacked⟩ |
    ⟨no_field, _⟩ | ⟨no_field, _⟩ | ⟨_, below, _⟩
  · exact Or.inl ⟨_, unpacked⟩
  · exact Or.inr unpacked
  · omega
  · omega
  · omega

theorem isInf_of_isFinite (finite : isFinite x) : x.isInf = false := by
  rcases finite_cases finite with ⟨sign, unpacked, _⟩ | ⟨sign, mantissa, exponent, canonical, unpacked, _⟩
  · change x.toModel.unpack.isInf = false
    rw [unpacked]
    rfl
  · change x.toModel.unpack.isInf = false
    rw [unpacked]
    rfl

theorem isNaN_of_isFinite (finite : isFinite x) : x.isNaN = false := by
  rcases finite_cases finite with ⟨sign, unpacked, _⟩ | ⟨sign, mantissa, exponent, canonical, unpacked, _⟩
  · change x.toModel.unpack.isNaN = false
    rw [unpacked]
    rfl
  · change x.toModel.unpack.isNaN = false
    rw [unpacked]
    rfl

end Doubles
end Tabletop.Number
