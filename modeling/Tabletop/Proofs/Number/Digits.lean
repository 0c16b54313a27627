import Tabletop.Number.Decimal
import Tabletop.Proofs.Text.Span
import Mathlib.Data.List.Induction
import Mathlib.Tactic.Ring

/-!
Written natural numbers and what reading their digits gives.
-/

namespace Tabletop.Number

theorem natOfDigits_eq (digits : List Char) : natOfDigits digits = Nat.ofDigitChars 10 digits 0 := by
  unfold natOfDigits digitValue
  rw [Nat.ofDigitChars_eq_foldl]
  congr 1
  funext value c
  rw [Nat.mul_comm]

@[simp] theorem natOfDigits_toDigits (n : Nat) : natOfDigits (Nat.toDigits 10 n) = n := by
  rw [natOfDigits_eq, Nat.ofDigitChars_ten_toDigits]

theorem natOfDigits_append (front back : List Char) :
    natOfDigits (front ++ back) = natOfDigits front * 10 ^ back.length + natOfDigits back := by
  rw [natOfDigits_eq, natOfDigits_eq, natOfDigits_eq, Nat.ofDigitChars_append,
    Nat.ofDigitChars_eq_ofDigitChars_zero, Nat.mul_comm]

theorem natOfDigits_concat (digits : List Char) (c : Char) :
    natOfDigits (digits ++ [c]) = natOfDigits digits * 10 + digitValue c := by
  simp [natOfDigits]

theorem isDigit_of_mem_toDigits {n : Nat} {c : Char} (is_one : c ∈ Nat.toDigits 10 n) : c.isDigit :=
  Nat.isDigit_of_mem_toDigits (by decide) (by decide) is_one

theorem ne_zero_of_digitChar {d : Nat} (small : d < 10) (positive : 0 < d) :
    d.digitChar ≠ '0' := by
  revert d
  decide

/-- A positive number is written without a zero at its front. -/
theorem head?_toDigits_ne_zero {n : Nat} (positive : 0 < n) :
    (Nat.toDigits 10 n).head? ≠ some '0' := by
  induction n using Nat.base_induction 10 (by decide) with
  | single d small =>
    rw [Nat.toDigits_of_lt_base small]
    simpa using ne_zero_of_digitChar small positive
  | digit front d small front_positive of_front =>
    rw [← Nat.toDigits_append_toDigits (by decide) front_positive small, List.head?_append]
    cases first : (Nat.toDigits 10 front).head? with
    | none => exact absurd (List.head?_eq_none_iff.mp first) Nat.toDigits_ne_nil
    | some c => simpa [first] using of_front front_positive

theorem lt_pow_length_repr (n : Nat) : n < 10 ^ (Nat.repr n).length :=
  (Nat.length_repr_le_iff Nat.length_repr_pos).mp le_rfl

/-- A positive number reaches the place of its first digit. -/
theorem pow_length_repr_le {n : Nat} (positive : 0 < n) : 10 ^ ((Nat.repr n).length - 1) ≤ n := by
  by_contra below
  have some_digit := Nat.length_repr_pos (n := n)
  rcases Nat.eq_zero_or_pos ((Nat.repr n).length - 1) with one | more
  · rw [one] at below
    omega
  · have shorter := (Nat.length_repr_le_iff more).mpr (not_le.mp below)
    omega

theorem two_pow_lt_ten_pow {a b : Nat} (some_bit : a ≠ 0) (le : a ≤ b) : 2 ^ a < 10 ^ b :=
  (Nat.pow_lt_pow_left (by decide) some_bit).trans_le (Nat.pow_le_pow_right (by decide) le)

/-- Digits are read up to a bound that their number lies below. -/
theorem natBelow?_of_lt {bound : Nat} {digits : List Char} (below : natOfDigits digits < bound) :
    natBelow? bound digits = some (natOfDigits digits) := by
  induction digits using List.reverseRecOn with
  | nil => rfl
  | append_singleton digits c of_digits =>
    rw [natOfDigits_concat] at below ⊢
    have front_below : natOfDigits digits < bound := by omega
    have front_read := of_digits front_below
    unfold natBelow? at front_read ⊢
    rw [List.foldlM_append, front_read]
    simp [below]

theorem natOfDigits_cons (c : Char) (digits : List Char) :
    natOfDigits (c :: digits) = digitValue c * 10 ^ digits.length + natOfDigits digits := by
  rw [← List.singleton_append, natOfDigits_append]
  simp [natOfDigits]

/-- Zeros at the front do not count. -/
theorem natOfDigits_dropWhile (digits : List Char) :
    natOfDigits (digits.dropWhile (· = '0')) = natOfDigits digits := by
  induction digits with
  | nil => rfl
  | cons c digits of_digits =>
    rw [List.dropWhile_cons]
    split
    · rename_i zero
      obtain rfl : c = '0' := by simpa using zero
      rw [of_digits, natOfDigits_cons]
      simp [digitValue]
    · rfl

theorem natOfDigits_replicate_zero (count : Nat) : natOfDigits (List.replicate count '0') = 0 := by
  induction count with
  | zero => rfl
  | succ count of_count =>
    rw [List.replicate_succ, natOfDigits_cons, of_count]
    simp [digitValue]

/-- The value of digits of which all are significant. -/
theorem ofDigits_eq {negative : Bool} {digits : List Char} {exponent : Int}
    (few : digits.length ≤ significantDigits) :
    Decimal.ofDigits negative digits exponent = ⟨negative, natOfDigits digits, exponent⟩ := by
  have kept : (digits.dropWhile (· = '0')).length ≤ significantDigits :=
    (List.dropWhile_sublist _).length_le.trans few
  unfold Decimal.ofDigits
  rw [List.splitAt_eq, List.take_of_length_le kept, List.drop_of_length_le kept]
  simp [natOfDigits_dropWhile]

/-- Exponents below the bound are read to their last digit. -/
theorem exponentOfDigits_of_lt {digits : List Char} (below : natOfDigits digits < exponentBound) :
    exponentOfDigits digits = natOfDigits digits := by
  induction digits using List.reverseRecOn with
  | nil => rfl
  | append_singleton digits c of_digits =>
    rw [natOfDigits_concat] at below ⊢
    have front_below : natOfDigits digits < exponentBound := by omega
    have front := of_digits front_below
    unfold exponentOfDigits at front ⊢
    rw [List.foldl_append, front]
    exact if_pos front_below

theorem digitValue_pos {c : Char} (digit : c.isDigit) (no_zero : c ≠ '0') : 0 < digitValue c := by
  have low := (Char.isDigit_iff_toNat.mp digit).1
  have other : c.toNat ≠ '0'.toNat := fun same => no_zero (Char.toNat_inj.mp same)
  change 48 ≤ c.toNat at low
  change c.toNat ≠ 48 at other
  change 0 < c.toNat - 48
  omega

/-- A number reaches the place of its first digit if that is no zero. -/
theorem pow_length_le_natOfDigits {c : Char} {rest : List Char} (digit : c.isDigit) (no_zero : c ≠ '0') :
    10 ^ rest.length ≤ natOfDigits (c :: rest) := by
  rw [natOfDigits_cons]
  have first := Nat.le_mul_of_pos_left (10 ^ rest.length) (digitValue_pos digit no_zero)
  omega

/-- The value of digits of which all are significant but for zeros at the front. -/
theorem ofDigits_of_lt {negative : Bool} {digits : List Char} {exponent : Int}
    (all : ∀ c ∈ digits, c.isDigit) (below : natOfDigits digits < 10 ^ significantDigits) :
    Decimal.ofDigits negative digits exponent = ⟨negative, natOfDigits digits, exponent⟩ := by
  have few : (digits.dropWhile (· = '0')).length ≤ significantDigits := by
    rw [← natOfDigits_dropWhile] at below
    cases kept : digits.dropWhile (· = '0') with
    | nil => exact Nat.zero_le _
    | cons c rest =>
      have first := List.head?_dropWhile_not (· = '0') digits
      have digit := all c ((List.dropWhile_sublist _).mem (kept ▸ List.mem_cons_self))
      rw [kept] at first below
      have no_zero : c ≠ '0' := by simpa using first
      have reached : 10 ^ rest.length ≤ natOfDigits (c :: rest) := pow_length_le_natOfDigits digit no_zero
      exact (Nat.pow_lt_pow_iff_right (by decide)).mp (reached.trans_lt below)
  have same : Decimal.ofDigits negative digits exponent =
      .ofDigits negative (digits.dropWhile (· = '0')) exponent := by
    rw [Decimal.ofDigits, Decimal.ofDigits, (Text.stops_dropWhile digits).dropWhile]
  rw [same, ofDigits_eq few, natOfDigits_dropWhile]

section Signs

variable {negative : Bool} {sign digits text : List Char}

/-- A number's text begins with a sign or with none; a plus sign counts as none. -/
inductive IsSign : (negative : Bool) → List Char → Prop where
  | none : IsSign false []
  | plus : IsSign false ['+']
  | minus : IsSign true ['-']

theorem ne_sign_of_isDigit {c : Char} (digit : c.isDigit) : c ≠ '-' ∧ c ≠ '+' := by
  constructor
  · rintro rfl
    cases digit
  · rintro rfl
    cases digit

/-- Behind its sign a number is read as one without a sign. -/
theorem scan_sign (is_sign : IsSign negative sign) (digit : ∃ c ∈ text.head?, c.isDigit) :
    scan (sign ++ text) = (scanUnsigned negative text).orElse fun _ => scanWord negative text := by
  cases is_sign with
  | none =>
    cases text with
    | nil => simp at digit
    | cons c rest =>
      obtain ⟨_, is_first, digit⟩ := digit
      cases is_first
      obtain ⟨no_minus, no_plus⟩ := ne_sign_of_isDigit digit
      simp [scan, no_minus, no_plus]
  | plus => rfl
  | minus => rfl

theorem exists_head?_isDigit (filled : digits ≠ []) (all : ∀ c ∈ digits, c.isDigit) :
    ∃ c ∈ digits.head?, c.isDigit := by
  obtain ⟨c, rest, rfl⟩ := List.exists_cons_of_ne_nil filled
  exact ⟨c, rfl, all c List.mem_cons_self⟩

theorem scanUnsigned_digits (filled : digits ≠ []) (all : ∀ c ∈ digits, c.isDigit) :
    scanUnsigned negative digits = some (.decimal (.ofDigits negative digits 0), []) := by
  have run : spanDigits digits = (digits, []) := by
    simpa [spanDigits] using Text.span_run all (Text.stops_nil (p := Char.isDigit))
  simp [scanUnsigned, run, filled, scanExponent?]

/-- Digits with a sign are read as their number. -/
theorem readWritten?_digits (is_sign : IsSign negative sign) (filled : digits ≠ [])
    (all : ∀ c ∈ digits, c.isDigit) :
    readWritten? (sign ++ digits) = some (.decimal (.ofDigits negative digits 0)) := by
  rw [readWritten?, scan_sign is_sign (exists_head?_isDigit filled all), scanUnsigned_digits filled all]
  rfl

end Signs
end Tabletop.Number
