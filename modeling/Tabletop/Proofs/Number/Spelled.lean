import Tabletop.Proofs.Number.Sums

/-!
Integers as they are spelled, by digits with a sign, and as doubles hold them. Main statement: where the
digits of an integer are read as a double that holds an integer, it is the same one.
-/

namespace Tabletop.Number

open Float.Model Float.Model.UnpackedFloat

variable {x y : Float} {n : Int} {mantissa : Nat} {exponent : Int}

section Digits

variable {negative : Bool} {sign digits chars : List Char}

theorem natAbs_signed (negative : Bool) (magnitude : Nat) :
    (signed negative magnitude).natAbs = magnitude := by
  cases negative with
  | false => rfl
  | true => exact Int.natAbs_neg magnitude

/-- A text is digits, with a sign or without one, and these are the integer's. -/
inductive SpellsInteger : List Char → Int → Prop where
  | digits {negative : Bool} {sign digits : List Char} (is_sign : IsSign negative sign)
    (filled : digits ≠ []) (all : ∀ c ∈ digits, c.isDigit) :
    SpellsInteger (sign ++ digits) (signed negative (natOfDigits digits))

/-- An integer of 64 bits, one of which is its sign. -/
def IsSigned64 (n : Int) : Prop := -2 ^ 63 ≤ n ∧ n < 2 ^ 63

instance (n : Int) : Decidable (IsSigned64 n) := inferInstanceAs (Decidable (_ ∧ _))

theorem natBelow?_concat (bound : Nat) (digits : List Char) (c : Char) :
    natBelow? bound (digits ++ [c]) = (natBelow? bound digits).bind fun value =>
      if value * 10 + digitValue c < bound then some (value * 10 + digitValue c) else none := by
  rw [natBelow?, natBelow?, List.foldlM_append]
  cases (digits.foldlM _ 0 : Option Nat) with
  | none => rfl
  | some value => simp

theorem natBelow?_eq_some_iff {bound value : Nat} (positive : 0 < bound) :
    natBelow? bound digits = some value ↔ value = natOfDigits digits ∧ value < bound := by
  constructor
  · intro read
    induction digits using List.reverseRecOn generalizing value with
    | nil =>
      cases read
      exact ⟨rfl, positive⟩
    | append_singleton digits c of_digits =>
      rw [natBelow?_concat, Option.bind_eq_some_iff] at read
      obtain ⟨front, front_read, read⟩ := read
      obtain ⟨rfl, _⟩ := of_digits front_read
      split at read
      · cases read
        rw [natOfDigits_concat]
        exact ⟨rfl, by assumption⟩
      · cases read
  · rintro ⟨rfl, below⟩
    exact natBelow?_of_lt below

/-- The magnitudes that integers of 64 bits have with a sign. -/
def magnitudeBound (negative : Bool) : Nat := if negative then Nat.pow 2 63 + 1 else Nat.pow 2 63

theorem magnitudeBound_pos : 0 < magnitudeBound negative := by
  cases negative with
  | false => decide
  | true => decide

theorem isSigned64_signed_iff {magnitude : Nat} :
    IsSigned64 (signed negative magnitude) ↔ magnitude < magnitudeBound negative := by
  unfold IsSigned64 signed magnitudeBound
  cases negative with
  | false =>
    simp only [Bool.false_eq_true, if_false]
    change _ ↔ magnitude < 2 ^ 63
    omega
  | true =>
    simp only [if_true]
    change _ ↔ magnitude < 2 ^ 63 + 1
    omega

theorem readSigned64?_sign (is_sign : IsSign negative sign) (filled : digits ≠ [])
    (all : ∀ c ∈ digits, c.isDigit) : readSigned64? (sign ++ digits) =
      (natBelow? (magnitudeBound negative) digits).map (signed negative) := by
  have plain : (digits.isEmpty || !digits.all Char.isDigit) = false := by
    simpa [filled] using all
  cases is_sign with
  | none =>
    obtain ⟨c, rest, rfl⟩ := List.exists_cons_of_ne_nil filled
    obtain ⟨no_minus, no_plus⟩ := ne_sign_of_isDigit (all c List.mem_cons_self)
    have unsigned : Char.isDigit c = true ∧ rest.all Char.isDigit = true := by simpa using all
    simp [readSigned64?, no_minus, no_plus, magnitudeBound, unsigned, -List.all_eq_true]
  | plus => simp [readSigned64?, plain, magnitudeBound]
  | minus => simp [readSigned64?, plain, magnitudeBound]

/-- The digits of an integer are read if it fits 64 bits. -/
theorem SpellsInteger.readSigned64? (spells : SpellsInteger chars n) :
    readSigned64? chars = if IsSigned64 n then some n else none := by
  obtain ⟨is_sign, filled, all⟩ := spells
  rw [readSigned64?_sign is_sign filled all]
  split
  · rename_i fits
    rw [natBelow?_of_lt (isSigned64_signed_iff.mp fits), Option.map_some]
  · rename_i large
    rw [Option.map_eq_none_iff, Option.eq_none_iff_forall_ne_some]
    intro value read
    obtain ⟨rfl, below⟩ := (natBelow?_eq_some_iff magnitudeBound_pos).mp read
    exact large (isSigned64_signed_iff.mpr below)

/-- What is read as an integer is spelled by digits. -/
theorem exists_spells (read : readSigned64? chars = some n) : ∃ value, SpellsInteger chars value := by
  have digits {negative : Bool} {sign unsigned : List Char} (is_sign : IsSign negative sign)
      (plain : (unsigned.isEmpty || !unsigned.all Char.isDigit) = false) :
      ∃ value, SpellsInteger (sign ++ unsigned) value := by
    rw [Bool.or_eq_false_iff, List.isEmpty_eq_false_iff, Bool.not_eq_false', List.all_eq_true] at plain
    exact ⟨_, .digits is_sign plain.1 plain.2⟩
  unfold readSigned64? at read
  split at read
  rename_i negative unsigned cut
  split at read
  · cases read
  · rename_i plain
    have plain := Bool.eq_false_iff.mpr plain
    split at cut
    · cases cut
      exact digits .minus plain
    · cases cut
      exact digits .plus plain
    · cases cut
      exact digits .none plain

theorem readSigned64?_eq_some_iff :
    readSigned64? chars = some n ↔ SpellsInteger chars n ∧ IsSigned64 n := by
  constructor
  · intro read
    obtain ⟨value, spells⟩ := exists_spells read
    rw [spells.readSigned64?] at read
    split at read
    · cases read
      exact ⟨spells, by assumption⟩
    · cases read
  · rintro ⟨spells, fits⟩
    rw [spells.readSigned64?, if_pos fits]

end Digits

section Doubles

/-- A double is an integer of a magnitude below nine quadrillion. -/
def IsIntegral (x : Float) (n : Int) : Prop := x == Float.ofInt n ∧ n.natAbs < 9000000000000000

theorem two_zpow_le_half (fraction : exponent < 0) : (2 : ℚ) ^ exponent ≤ 1 / 2 :=
  calc (2 : ℚ) ^ exponent ≤ 2 ^ (-1 : Int) := zpow_le_zpow_right₀ (by norm_num) (by omega)
    _ = 1 / 2 := by norm_num

/-- Half of a mantissa is below the bound, and one that is no fraction is compared with it as it is. -/
theorem smallInt?_natAbs_lt (small : smallInt? x = some n) : n.natAbs < 9000000000000000 := by
  obtain ⟨-, -, below, -⟩ := isWhole_of_smallInt? small
  rcases smallInt?_cases small with ⟨rfl, _⟩ |
    ⟨sign, mantissa, exponent, canonical, whole, unpacked, rfl, positive, _, value⟩
  · decide
  · rw [natAbs_signed]
    rcases (abs_lt_iff unpacked).mp below with fraction | ⟨rfl, small⟩
    · have mantissa_below : (mantissa : ℚ) < 9007199254740992 := by exact_mod_cast canonical.below
      have half := mul_le_mul_of_nonneg_left (two_zpow_le_half fraction) (Nat.cast_nonneg mantissa)
      have value_below : (whole : ℚ) < 9000000000000000 := by linarith
      exact_mod_cast value_below
    · have same : (whole : ℚ) = mantissa := by simpa using value
      have same : whole = mantissa := by exact_mod_cast same
      exact same ▸ small

/-- What is equal to a number other than zero is that number. -/
theorem eq_of_compare {u : UnpackedFloat} {canonical : Canonical mantissa exponent} {sign : Sign}
    (same : u.compare (canonical.signed sign) = some .eq) : u = canonical.signed sign := by
  cases u with
  | notANumber => cases same
  | zero _ =>
    cases sign with
    | negative => cases same
    | positive => cases same
  | infinity other =>
    cases other with
    | negative => cases same
    | positive => cases same
  | finite other m e positive =>
    cases other with
    | negative =>
      cases sign with
      | positive => cases same
      | negative =>
        have parts : ((compare e exponent).then (compare m mantissa)).swap = .eq :=
          Option.some_inj.mp same
        rw [Ordering.swap_eq_eq, Ordering.then_eq_eq, Int.compare_eq_eq, Nat.compare_eq_eq] at parts
        exact finite_eq parts.2 parts.1
    | positive =>
      cases sign with
      | negative => cases same
      | positive =>
        have parts : (compare e exponent).then (compare m mantissa) = .eq := Option.some_inj.mp same
        rw [Ordering.then_eq_eq, Int.compare_eq_eq, Nat.compare_eq_eq] at parts
        exact finite_eq parts.2 parts.1

/-- Doubles that are equal and not zero are the same. -/
theorem eq_of_beq {canonical : Canonical mantissa exponent} {sign : Sign}
    (unpacked : y.toModel.unpack = canonical.signed sign) (same : x == y) : x = y := by
  apply eq_of_unpack_eq
  change (x.toModel.unpack.compare y.toModel.unpack == some .eq) = true at same
  rw [unpacked] at same ⊢
  exact eq_of_compare (beq_iff_eq.mp same)

/-- A double other than zero is equal to itself. -/
theorem beq_self {canonical : Canonical mantissa exponent} {sign : Sign}
    (unpacked : x.toModel.unpack = canonical.signed sign) : x == x := by
  change (x.toModel.unpack.compare x.toModel.unpack == some .eq) = true
  rw [unpacked, beq_iff_eq]
  have parts : (compare exponent exponent).then (compare mantissa mantissa) = .eq := by simp
  cases sign with
  | negative => exact congrArg (fun order => some (Ordering.swap order)) parts
  | positive => exact congrArg some parts

theorem unpack_ofInt (some_unit : n ≠ 0) (below : n.natAbs < 2 ^ 53) :
    ∃ mantissa exponent, ∃ canonical : Canonical mantissa exponent, ∃ sign,
      (Float.ofInt n).toModel.unpack = canonical.signed sign := by
  cases n with
  | ofNat whole =>
    have positive : 0 < whole := Nat.pos_of_ne_zero fun zero => some_unit (congrArg Int.ofNat zero)
    exact ⟨_, _, _, _, unpack_whole positive below⟩
  | negSucc before => exact ⟨_, _, _, _, unpack_neg (unpack_whole (Nat.succ_pos before) below)⟩

/-- The integer that is found in a double is the one that it is equal to. -/
theorem smallInt?_eq_some_iff : smallInt? x = some n ↔ IsIntegral x n := by
  constructor
  · intro small
    refine ⟨?_, smallInt?_natAbs_lt small⟩
    rw [ofInt_of_smallInt? small]
    split
    · assumption
    · rcases smallInt?_cases small with ⟨_, zero⟩ | ⟨_, _, _, _, _, unpacked, _⟩
      · contradiction
      · exact beq_self unpacked
  · rintro ⟨same, small⟩
    rcases eq_or_ne n 0 with rfl | some_unit
    · by_cases minus : x = -0.0
      · rw [minus]
        exact smallInt?_zero.2
      · rw [eq_zero_of_beq same minus]
        exact smallInt?_zero.1
    · obtain ⟨_, _, _, _, unpacked⟩ := unpack_ofInt some_unit (by omega)
      rw [eq_of_beq unpacked same]
      exact smallInt?_ofInt small

end Doubles

section Agreement

variable {negative : Bool} {chars : List Char} {whole : Nat}

theorem isMinus_signOf (negative : Bool) : isMinus (signOf negative) = negative := by
  cases negative with
  | false => rfl
  | true => rfl

theorem magnitude_whole (negative : Bool) (whole : Nat) :
    (⟨negative, whole, 0⟩ : Decimal).magnitude = whole := by
  rw [Decimal.magnitude, zpow_zero, mul_one]

/-- From 2^53 on no double is below nine quadrillion. -/
theorem not_abs_lt_of_roundsTo {canonical : Canonical mantissa exponent} {sign : Sign}
    (unpacked : x.toModel.unpack = canonical.signed sign) (large : 2 ^ 53 ≤ whole)
    (rounds : RoundsTo whole mantissa exponent) : ¬ x.abs < wholeBound := by
  have large_value : (9007199254740992 : ℚ) ≤ whole := by exact_mod_cast large
  have high := rounds.high
  rw [abs_lt_iff unpacked]
  rintro (fraction | ⟨rfl, small⟩)
  · have mantissa_below : (mantissa + 1 : ℚ) ≤ 9007199254740992 := by exact_mod_cast canonical.below
    have nonneg : (0 : ℚ) ≤ mantissa + 1 / 2 := by positivity
    have half := mul_le_mul_of_nonneg_left (two_zpow_le_half fraction) nonneg
    linarith
  · have mantissa_below : (mantissa + 1 : ℚ) ≤ 9000000000000000 := by exact_mod_cast small
    rw [zpow_zero, mul_one] at high
    linarith

/-- An integer of up to 64 bits that is read as a double is found in it again or not at all. -/
theorem eq_of_smallInt?_toFloat (below : whole < 2 ^ 64)
    (small : smallInt? (⟨negative, whole, 0⟩ : Decimal).toFloat = some n) :
    n = signed negative whole := by
  obtain ⟨-, -, within, same⟩ := isWhole_of_smallInt? small
  rcases Nat.eq_zero_or_pos whole with rfl | positive
  · have zero : smallInt? (⟨negative, 0, 0⟩ : Decimal).toFloat = some (signed negative 0) := by
      cases negative with
      | false => exact smallInt?_zero.1
      | true => exact smallInt?_zero.2
    exact Option.some_inj.mp (small.symm.trans zero)
  · by_cases few : whole < 2 ^ 53
    · have unpacked := Decimal.unpack_toFloat (d := ⟨negative, whole, 0⟩) (canonical_whole positive few)
        (.of_eq (by rw [magnitude_whole, whole_eq few]))
      rw [same, (wholeInt_of_unpack positive few unpacked).2, isMinus_signOf]
    · obtain ⟨mantissa, exponent, canonical, rounds⟩ := exists_roundsTo_of_le (not_lt.mp few) below
      have unpacked := Decimal.unpack_toFloat (d := ⟨negative, whole, 0⟩) canonical
        (by rwa [magnitude_whole])
      exact absurd within (not_abs_lt_of_roundsTo unpacked (not_lt.mp few) rounds)

/-- The digits of an integer are read as the double of its magnitude with its sign. -/
theorem SpellsInteger.readFloat? (spells : SpellsInteger chars n) (below : n.natAbs < 2 ^ 64) :
    ∃ negative, n = signed negative n.natAbs ∧
      readFloat? chars = some (⟨negative, n.natAbs, 0⟩ : Decimal).toFloat := by
  obtain @⟨negative, sign, digits, is_sign, filled, all⟩ := spells
  rw [natAbs_signed] at below ⊢
  have few : natOfDigits digits < 10 ^ significantDigits :=
    below.trans (two_pow_lt_ten_pow (by decide) (by decide))
  refine ⟨negative, rfl, ?_⟩
  rw [Number.readFloat?, readWritten?_digits is_sign filled all, ofDigits_of_lt all few]
  rfl

/-- Where the digits of an integer are read as a double that is an integer below nine quadrillion, it is
the same integer. -/
theorem SpellsInteger.eq_of_isIntegral {value : Int} (spells : SpellsInteger chars value)
    (below : value.natAbs < 2 ^ 64) (read : Number.readFloat? chars = some x)
    (integral : IsIntegral x n) : n = value := by
  obtain ⟨negative, same, whole⟩ := spells.readFloat? below
  obtain rfl := Option.some_inj.mp (read.symm.trans whole)
  rw [same]
  exact eq_of_smallInt?_toFloat below (smallInt?_eq_some_iff.mpr integral)

end Agreement
end Tabletop.Number
