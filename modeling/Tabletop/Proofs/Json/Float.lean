import Tabletop.Proofs.Json.Scalar
import Tabletop.Proofs.Number.Shortest

/-!
Doubles in JSON text are read back as they were written.
-/

namespace Tabletop.Json

open Float.Model Float.Model.UnpackedFloat

section Numerals

/-- A fraction with its point, if there is one. -/
def fractionText : Option (List Char) → List Char
  | none => []
  | some digits => '.' :: digits

/-- An exponent with its mark and its sign, if there is one. -/
def exponentText : Option (Bool × List Char) → List Char
  | none => []
  | some (negative, digits) => 'e' :: (if negative then '-' else '+') :: digits

def Numeral.text (numeral : Numeral) : List Char :=
  numeral.whole ++ (fractionText numeral.fraction ++ exponentText numeral.exponent)

/-- The parts of a numeral that JSON text can hold. -/
structure Numeral.Proper (numeral : Numeral) : Prop where
  whole : ∀ c ∈ numeral.whole, c.isDigit
  some_digit : numeral.whole ≠ []
  no_zero : numeral.whole.head? = some '0' → numeral.whole.length = 1
  fraction : ∀ digits ∈ numeral.fraction, digits ≠ [] ∧ ∀ c ∈ digits, c.isDigit
  exponent : ∀ part ∈ numeral.exponent, part.2 ≠ [] ∧ ∀ c ∈ part.2, c.isDigit

/-- The marks that stand between the digits of a numeral. -/
def marks : List Char := ['.', 'e', '+', '-']

theorem mem_fractionText {fraction : Option (List Char)}
    (proper : ∀ digits ∈ fraction, digits ≠ [] ∧ ∀ c ∈ digits, c.isDigit) :
    ∀ c ∈ fractionText fraction, c.isDigit ∨ c ∈ marks := by
  cases fraction with
  | none => simp [fractionText]
  | some digits =>
    rw [fractionText, List.forall_mem_cons]
    exact ⟨by decide, fun c is_one => .inl ((proper digits rfl).2 c is_one)⟩

theorem mem_exponentText {exponent : Option (Bool × List Char)}
    (proper : ∀ part ∈ exponent, part.2 ≠ [] ∧ ∀ c ∈ part.2, c.isDigit) :
    ∀ c ∈ exponentText exponent, c.isDigit ∨ c ∈ marks := by
  cases exponent with
  | none => simp [exponentText]
  | some part =>
    have sign : (if part.1 then '-' else '+') ∈ marks := by
      cases part.1 with
      | false => decide
      | true => decide
    rw [exponentText, List.forall_mem_cons, List.forall_mem_cons]
    exact ⟨by decide, .inr sign, fun c is_one => .inl ((proper part rfl).2 c is_one)⟩

/-- A numeral is made of digits and marks. -/
theorem Numeral.Proper.mem_text {numeral : Numeral} (proper : numeral.Proper) :
    ∀ c ∈ numeral.text, c.isDigit ∨ c ∈ marks := by
  intro c is_one
  rcases List.mem_append.mp is_one with of_whole | of_rest
  · exact .inl (proper.whole c of_whole)
  · rcases List.mem_append.mp of_rest with of_fraction | of_exponent
    · exact mem_fractionText proper.fraction c of_fraction
    · exact mem_exponentText proper.exponent c of_exponent

theorem Numeral.exists_mark {numeral : Numeral}
    (some_part : numeral.fraction.isSome ∨ numeral.exponent.isSome) :
    ∃ c ∈ numeral.text, c = '.' ∨ c = 'e' := by
  obtain ⟨whole, fraction, exponent⟩ := numeral
  rcases some_part with some_fraction | some_exponent
  · obtain ⟨digits, rfl⟩ := Option.isSome_iff_exists.mp some_fraction
    exact ⟨'.', by simp [Numeral.text, fractionText], .inl rfl⟩
  · obtain ⟨part, rfl⟩ := Option.isSome_iff_exists.mp some_exponent
    exact ⟨'e', by simp [Numeral.text, exponentText], .inr rfl⟩

theorem stops_exponentText {exponent : Option (Bool × List Char)} {rest : List Char}
    (stops : Text.Stops isNumeric rest) : Text.Stops Char.isDigit (exponentText exponent ++ rest) := by
  cases exponent with
  | none => exact stops_isDigit stops
  | some part => exact Text.stops_cons.mpr (by decide)

theorem scanExponent?_text {negative : Bool} {digits rest : List Char} (some_digit : digits ≠ [])
    (all : ∀ c ∈ digits, c.isDigit) (stops : Text.Stops isNumeric rest) :
    Number.scanExponent? (exponentText (some (negative, digits)) ++ rest) =
      some (negative, digits, rest) := by
  have run : Number.spanDigits (digits ++ rest) = (digits, rest) :=
    Text.span_run all (stops_isDigit stops)
  unfold Number.scanExponent? exponentText
  cases digits with
  | nil => exact absurd rfl some_digit
  | cons c more =>
    cases negative with
    | false =>
      simp only [Bool.false_eq_true, if_false, List.cons_append, true_or, if_true] at run ⊢
      rw [run]
    | true =>
      simp only [if_true, List.cons_append, true_or] at run ⊢
      rw [run]

theorem scan_exponentText (whole : List Char) (fraction : Option (List Char))
    {exponent : Option (Bool × List Char)} {rest : List Char}
    (proper : ∀ part ∈ exponent, part.2 ≠ [] ∧ ∀ c ∈ part.2, c.isDigit)
    (stops : Text.Stops isNumeric rest) :
    (match Number.scanExponent? (exponentText exponent ++ rest) with
      | some (negative, digits, rest) =>
        some ((⟨whole, fraction, some (negative, digits)⟩ : Numeral), rest)
      | none => match exponentText exponent ++ rest with
        | 'e' :: _ | 'E' :: _ => none
        | _ => some (⟨whole, fraction, none⟩, exponentText exponent ++ rest)) =
      some (⟨whole, fraction, exponent⟩, rest) := by
  cases exponent with
  | none =>
    simp only [exponentText, List.nil_append, scanExponent?_stopped stops]
    split
    · exact absurd (Text.stops_cons.mp stops) (by decide)
    · exact absurd (Text.stops_cons.mp stops) (by decide)
    · rfl
  | some part =>
    obtain ⟨some_digit, all⟩ := proper part rfl
    simp only [scanExponent?_text some_digit all stops]

/-- The digits before the point are the first run of digits. -/
theorem spanDigits_text {numeral : Numeral} (proper : numeral.Proper) {rest : List Char}
    (stops : Text.Stops isNumeric rest) : Number.spanDigits (numeral.text ++ rest) =
      (numeral.whole, fractionText numeral.fraction ++ (exponentText numeral.exponent ++ rest)) := by
  have after_whole : Text.Stops Char.isDigit
      (fractionText numeral.fraction ++ (exponentText numeral.exponent ++ rest)) := by
    cases numeral.fraction with
    | none => exact stops_exponentText stops
    | some digits => exact Text.stops_cons.mpr (by decide)
  rw [Numeral.text, List.append_assoc, List.append_assoc]
  exact Text.span_run proper.whole after_whole

/-- A proper numeral is scanned as it was written. -/
theorem scanNumeral?_text {numeral : Numeral} (proper : numeral.Proper) {rest : List Char}
    (stops : Text.Stops isNumeric rest) :
    scanNumeral? (numeral.text ++ rest) = some (numeral, rest) := by
  have run := spanDigits_text proper stops
  obtain ⟨whole, fraction, exponent⟩ := numeral
  have plain : (whole.isEmpty || (whole.head? = some '0' && whole.length != 1)) = false := by
    have some_digit : whole ≠ [] := proper.some_digit
    have no_zero : whole.head? = some '0' → whole.length = 1 := proper.no_zero
    simpa [some_digit] using no_zero
  have exponent_read := scan_exponentText whole fraction proper.exponent stops
  unfold scanNumeral?
  simp only [run, plain, Bool.false_eq_true, if_false]
  cases fraction with
  | none =>
    have no_point : Text.Stops (· = '.') (exponentText exponent ++ rest) := by
      cases exponent with
      | none =>
        intro c is_first
        have no_part := stops c is_first
        simp only [isNumeric, Bool.or_eq_false_iff] at no_part
        exact no_part.1.1.2
      | some part => exact Text.stops_cons.mpr (by decide)
    simp only [fractionText, List.nil_append]
    split
    · rename_i point
      rw [point] at no_point
      exact absurd (Text.stops_cons.mp no_point) (by decide)
    · exact exponent_read
  | some digits =>
    obtain ⟨some_digit, all⟩ := proper.fraction digits rfl
    have fraction_run : Number.spanDigits (digits ++ (exponentText exponent ++ rest)) =
        (digits, exponentText exponent ++ rest) :=
      Text.span_run all (stops_exponentText stops)
    cases digits with
    | nil => exact absurd rfl some_digit
    | cons c more =>
      simp only [fractionText, List.cons_append] at fraction_run ⊢
      rw [fraction_run]
      exact exponent_read

/-- The power of ten that an exponent stands for. -/
def Numeral.power (numeral : Numeral) : Int :=
  match numeral.exponent with
  | some (below, digits) => Number.signed below (Number.natOfDigits digits)
  | none => 0

def Numeral.fractionDigits (numeral : Numeral) : List Char := numeral.fraction.getD []

theorem scanExponent?_exponentText {exponent : Option (Bool × List Char)}
    (proper : ∀ part ∈ exponent, part.2 ≠ [] ∧ ∀ c ∈ part.2, c.isDigit) :
    Number.scanExponent? (exponentText exponent) = exponent.map fun part => (part.1, part.2, []) := by
  cases exponent with
  | none => rfl
  | some part =>
    obtain ⟨some_digit, all⟩ := proper part rfl
    have read : Number.scanExponent? (exponentText (some part) ++ []) = some (part.1, part.2, []) :=
      scanExponent?_text some_digit all Text.stops_nil
    rwa [List.append_nil] at read

/-- Outside JSON a proper numeral is read from its digits and its exponent, too. -/
theorem scanUnsigned_text {numeral : Numeral} (proper : numeral.Proper)
    (near : ∀ part ∈ numeral.exponent, Number.natOfDigits part.2 < Number.exponentBound)
    (negative : Bool) : Number.scanUnsigned negative numeral.text =
      some (.decimal (.ofDigits negative (numeral.whole ++ numeral.fractionDigits)
        (numeral.power - numeral.fractionDigits.length)), []) := by
  have run := spanDigits_text proper Text.stops_nil
  rw [List.append_nil, List.append_nil] at run
  have exponent_read := scanExponent?_exponentText proper.exponent
  obtain ⟨whole, fraction, exponent⟩ := numeral
  have some_digit : whole ≠ [] := proper.some_digit
  have exponent_value : ∀ part ∈ exponent, Number.exponentOfDigits part.2 = Number.natOfDigits part.2 :=
    fun part is_one => Number.exponentOfDigits_of_lt (near part is_one)
  have fraction_run : ∀ digits ∈ fraction, Number.spanDigits (digits ++ exponentText exponent) =
      (digits, exponentText exponent) := by
    rintro digits rfl
    have stops : Text.Stops Char.isDigit (exponentText exponent ++ []) :=
      stops_exponentText Text.stops_nil
    rw [List.append_nil] at stops
    exact Text.span_run (proper.fraction digits rfl).2 stops
  rw [Number.scanUnsigned, run]
  cases fraction with
  | none =>
    cases exponent with
    | none =>
      simp [some_digit, fractionText, exponentText, Number.scanExponent?, Numeral.fractionDigits,
        Numeral.power]
    | some part =>
      rw [exponentText] at exponent_read
      simp [some_digit, fractionText, exponentText, exponent_read, exponent_value, Numeral.fractionDigits,
        Numeral.power]
  | some digits =>
    have fraction_read := fraction_run digits rfl
    cases exponent with
    | none =>
      rw [exponentText, List.append_nil] at fraction_read
      simp [some_digit, fractionText, exponentText, fraction_read, Number.scanExponent?,
        Numeral.fractionDigits, Numeral.power]
    | some part =>
      simp [some_digit, fractionText, fraction_read, exponent_read, exponent_value,
        Numeral.fractionDigits, Numeral.power]

/-- The value of a numeral with a fraction or an exponent. -/
theorem value?_eq {numeral : Numeral} (negative : Bool)
    (some_part : numeral.fraction.isSome ∨ numeral.exponent.isSome)
    (near : ∀ part ∈ numeral.exponent, Number.natOfDigits part.2 < exponentCeiling)
    (few : (numeral.whole ++ numeral.fractionDigits).length ≤ Number.significantDigits) :
    numeral.value? negative = ofDecimal? ⟨negative,
      Number.natOfDigits (numeral.whole ++ numeral.fractionDigits),
      numeral.power - numeral.fractionDigits.length⟩ := by
  rw [← Number.ofDigits_eq few]
  obtain ⟨whole, fraction, exponent⟩ := numeral
  cases exponent with
  | none =>
    cases fraction with
    | none => simp at some_part
    | some digits => rfl
  | some part =>
    have read := Number.natBelow?_of_lt (near part rfl)
    cases fraction with
    | none => simp only [Numeral.value?, read]; rfl
    | some digits => simp only [Numeral.value?, read]; rfl

end Numerals

section Layouts

open Number

/-- A numeral that is read as a decimal number, sign apart. -/
structure Numeral.StandsFor (numeral : Numeral) (d : Decimal) : Prop where
  proper : numeral.Proper
  some_part : numeral.fraction.isSome ∨ numeral.exponent.isSome
  near : ∀ part ∈ numeral.exponent, natOfDigits part.2 < exponentBound
  few : (numeral.whole ++ numeral.fractionDigits).length ≤ significantDigits
  value : (natOfDigits (numeral.whole ++ numeral.fractionDigits) *
    10 ^ (numeral.power - numeral.fractionDigits.length) : ℚ) = d.magnitude

variable {d : Decimal} {digits : List Char}

/-- The digits of a decimal number are written without zeros in front. -/
structure DigitsOf (digits : List Char) (d : Decimal) : Prop where
  all : ∀ c ∈ digits, c.isDigit
  some_digit : digits ≠ []
  no_zero : digits.head? = some '0' → d.digits = 0 ∧ digits.length = 1
  value : natOfDigits digits = d.digits

theorem digitsOf_repr (d : Decimal) : DigitsOf (Nat.repr d.digits).toList d := by
  rw [Nat.toList_repr]
  refine ⟨fun c is_one => isDigit_of_mem_toDigits is_one, Nat.toDigits_ne_nil, fun zero => ?_,
    natOfDigits_toDigits _⟩
  rcases Nat.eq_zero_or_pos d.digits with none | positive
  · exact ⟨none, by rw [none]; rfl⟩
  · exact absurd zero (head?_toDigits_ne_zero positive)

theorem isDigit_of_mem_zeros {count : Nat} : ∀ c ∈ zeros count, c.isDigit := by
  intro c is_zero
  rw [List.eq_of_mem_replicate is_zero]
  rfl

theorem standsFor_whole (spelled : DigitsOf digits d) (whole : 0 ≤ d.exponent)
    (few : digits.length + d.exponent ≤ 309) (zero : d.digits = 0 → d.exponent = 0) :
    Numeral.StandsFor ⟨digits ++ zeros d.exponent.toNat, some ['0'], none⟩ d := by
  refine ⟨⟨fun c is_one => ?_, by simp [spelled.some_digit], fun zero_first => ?_, by simp,
    by simp⟩, by simp, by simp, ?_, ?_⟩
  · rcases List.mem_append.mp is_one with of_digits | of_zeros
    · exact spelled.all c of_digits
    · exact isDigit_of_mem_zeros c of_zeros
  · have first : digits.head? = some '0' := by
      rwa [List.head?_append_of_ne_nil _ spelled.some_digit] at zero_first
    obtain ⟨none, single⟩ := spelled.no_zero first
    simp [single, zero none, zeros]
  · simp [Numeral.fractionDigits, zeros, significantDigits]
    omega
  · obtain ⟨count, count_eq⟩ := Int.eq_ofNat_of_zero_le whole
    have shifted : natOfDigits (digits ++ zeros count ++ ['0']) = d.digits * 10 ^ count * 10 := by
      rw [natOfDigits_append, natOfDigits_append, zeros, natOfDigits_replicate_zero, spelled.value,
        List.length_replicate]
      rfl
    simp only [count_eq, Int.toNat_natCast, Numeral.fractionDigits, Option.getD_some, shifted,
      Numeral.power, Decimal.magnitude]
    push_cast
    rw [zpow_natCast]
    norm_num
    ring

theorem standsFor_point (spelled : DigitsOf digits d) (fraction : d.exponent < 0)
    (point : 0 < digits.length + d.exponent) (few : digits.length ≤ significantDigits)
    (positive : 0 < d.digits) :
    Numeral.StandsFor ⟨digits.take (digits.length + d.exponent).toNat,
      some (digits.drop (digits.length + d.exponent).toNat), none⟩ d := by
  obtain ⟨count, count_eq⟩ := Int.eq_ofNat_of_zero_le point.le
  rw [count_eq, Int.toNat_natCast]
  have some_whole : 0 < count := by omega
  have some_fraction : count < digits.length := by omega
  refine ⟨⟨fun c is_one => spelled.all c (List.mem_of_mem_take is_one), ?_, fun zero_first => ?_,
    ?_, by simp⟩, by simp, by simp, ?_, ?_⟩
  · simp [spelled.some_digit, some_whole.ne']
  · have first : digits.head? = some '0' := by
      rwa [List.head?_take, if_neg some_whole.ne'] at zero_first
    exact absurd (spelled.no_zero first).1 positive.ne'
  · rintro digits' same
    cases same
    exact ⟨by simpa using some_fraction, fun c is_one => spelled.all c (List.mem_of_mem_drop is_one)⟩
  · simpa [Numeral.fractionDigits] using few
  · have power : (0 - (digits.length - count : ℕ) : Int) = d.exponent := by omega
    simp [Numeral.fractionDigits, Numeral.power, spelled.value, Decimal.magnitude, ← power]

theorem standsFor_fraction (spelled : DigitsOf digits d) (least : -341 ≤ d.exponent)
    (point : digits.length + d.exponent ≤ 0) :
    Numeral.StandsFor
      ⟨['0'], some (zeros (-(digits.length + d.exponent)).toNat ++ digits), none⟩ d := by
  obtain ⟨count, count_eq⟩ : ∃ count : ℕ, digits.length + d.exponent = -count :=
    ⟨(digits.length + d.exponent).natAbs, by omega⟩
  rw [count_eq, neg_neg, Int.toNat_natCast]
  refine ⟨⟨by simp, by simp, by simp, ?_, by simp⟩, by simp, by simp, ?_, ?_⟩
  · rintro digits' same
    cases same
    refine ⟨by simp [spelled.some_digit], fun c is_one => ?_⟩
    rcases List.mem_append.mp is_one with of_zeros | of_digits
    · exact isDigit_of_mem_zeros c of_zeros
    · exact spelled.all c of_digits
  · simp [Numeral.fractionDigits, zeros, significantDigits]
    omega
  · have power : (0 - (count + digits.length : ℕ) : Int) = d.exponent := by omega
    have same : natOfDigits (['0'] ++ (zeros count ++ digits)) = d.digits := by
      rw [natOfDigits_append, natOfDigits_append, zeros, natOfDigits_replicate_zero, spelled.value]
      simp [natOfDigits, digitValue]
    have length : (zeros count ++ digits).length = count + digits.length := by simp [zeros]
    simp only [Numeral.fractionDigits, Option.getD_some, same, length, Numeral.power, power,
      Decimal.magnitude]

theorem standsFor_scientific {first : Char} {rest : List Char} (spelled : DigitsOf (first :: rest) d)
    (near : (rest.length + d.exponent).natAbs < exponentBound)
    (few : (first :: rest).length ≤ significantDigits) :
    Numeral.StandsFor ⟨[first], if rest = [] then none else some rest,
      some (decide (rest.length + d.exponent < 0),
        (Nat.repr (rest.length + d.exponent).natAbs).toList)⟩ d := by
  rw [Nat.toList_repr]
  have fraction : (if rest = [] then none else some rest).getD [] = rest := by
    split
    · rename_i nothing
      rw [nothing]
      rfl
    · rfl
  refine ⟨⟨?_, by simp, by simp, ?_, ?_⟩, by simp, ?_, ?_, ?_⟩
  · intro c is_first
    exact spelled.all c (by simp_all)
  · intro digits' same
    split at same
    · cases same
    · rename_i more
      cases same
      exact ⟨more, fun c is_one => spelled.all c (by simp [is_one])⟩
  · rintro part same
    cases same
    exact ⟨Nat.toDigits_ne_nil, fun c is_one => isDigit_of_mem_toDigits is_one⟩
  · rintro part same
    cases same
    simpa using near
  · simpa [Numeral.fractionDigits, fraction] using few
  · have power : signed (decide (rest.length + d.exponent < 0)) (rest.length + d.exponent).natAbs -
        rest.length = d.exponent := by
      unfold signed
      split
      · rename_i below
        have := of_decide_eq_true below
        omega
      · rename_i above
        have : ¬ rest.length + d.exponent < 0 := by simpa using above
        omega
    simp only [Numeral.fractionDigits, fraction, List.singleton_append, spelled.value,
      Numeral.power, natOfDigits_toDigits, power, Decimal.magnitude]

theorem exists_positional (spelled : DigitsOf digits d) (least : -341 ≤ d.exponent)
    (few : digits.length + d.exponent ≤ 309) (zero : d.digits = 0 → d.exponent = 0) :
    ∃ numeral : Numeral, numeral.StandsFor d ∧
      positionalText digits d.exponent true = numeral.text := by
  unfold positionalText
  dsimp only
  split
  · rename_i whole
    exact ⟨_, standsFor_whole spelled whole few zero, by simp [Numeral.text, fractionText, exponentText]⟩
  · rename_i fraction
    split
    · rename_i point
      have positive : 0 < d.digits := Nat.pos_of_ne_zero fun none => by have := zero none; omega
      exact ⟨_, standsFor_point spelled (not_le.mp fraction) point
        (by simp only [significantDigits]; omega) positive,
        by simp [Numeral.text, fractionText, exponentText]⟩
    · rename_i point
      exact ⟨_, standsFor_fraction spelled least (not_lt.mp point),
        by simp [Numeral.text, fractionText, exponentText]⟩

theorem exists_scientific (spelled : DigitsOf digits d)
    (places : -324 < digits.length + d.exponent ∧ digits.length + d.exponent ≤ 309)
    (least : -341 ≤ d.exponent) :
    ∃ numeral : Numeral, numeral.StandsFor d ∧
      scientificText digits d.exponent = numeral.text := by
  cases digits with
  | nil => exact absurd rfl spelled.some_digit
  | cons first rest =>
    have length : ((first :: rest).length : Int) = rest.length + 1 := by simp
    have power : (first :: rest).length + d.exponent - 1 = rest.length + d.exponent := by omega
    refine ⟨_, standsFor_scientific spelled ?_ ?_, ?_⟩
    · simp only [exponentBound]
      omega
    · simp only [significantDigits]
      omega
    · unfold scientificText
      rw [power]
      cases rest with
      | nil => simp [Numeral.text, fractionText, exponentText]
      | cons second more => simp [Numeral.text, fractionText, exponentText]

/-- A decimal number is written as a numeral that stands for it. -/
theorem exists_numeral
    (places : -324 < (Nat.repr d.digits).length + d.exponent ∧
      (Nat.repr d.digits).length + d.exponent ≤ 309)
    (least : -341 ≤ d.exponent) (zero : d.digits = 0 → d.exponent = 0) :
    ∃ numeral : Numeral, numeral.StandsFor d ∧
      (jsonLayout.text d).toList =
        (if d.negative then '-' :: numeral.text else numeral.text) := by
  have spelled := digitsOf_repr d
  have length : (Nat.repr d.digits).toList.length = (Nat.repr d.digits).length := String.length_toList
  rw [← length] at places
  obtain ⟨numeral, stands, text⟩ : ∃ numeral : Numeral, numeral.StandsFor d ∧
      (if d.digits = 0 || (-5 ≤ (Nat.repr d.digits).toList.length + d.exponent - 1 &&
        (Nat.repr d.digits).toList.length + d.exponent - 1 ≤ 15) then
        positionalText (Nat.repr d.digits).toList d.exponent true
      else scientificText (Nat.repr d.digits).toList d.exponent) = numeral.text := by
    split
    · exact exists_positional spelled least places.2 zero
    · exact exists_scientific spelled places least
  refine ⟨numeral, stands, ?_⟩
  rw [← text]
  exact String.toList_ofList

end Layouts

section Reads

variable {x : Float}

/-- A number is read with or without a minus sign if it is read after one. -/
theorem reads_of_readNumber {json : Json} {negative : Bool} {text : List Char}
    (digit : ∃ c ∈ text.head?, c.isDigit)
    (read : ∀ rest, Text.Stops isNumeric rest → readNumber negative (text ++ rest) = some (json, rest)) :
    Reads json (if negative then '-' :: text else text) := by
  intro fuel levels form rest stops
  cases negative with
  | false =>
    cases text with
    | nil => simp at digit
    | cons c more =>
      obtain ⟨_, is_first, one⟩ := digit
      cases is_first
      exact (readValue_of_isDigit one fuel levels form _).trans (read rest stops)
  | true =>
    have solid : skipGap ('-' :: (text ++ rest)) = '-' :: (text ++ rest) := rfl
    rw [if_pos rfl, List.cons_append, readValue, solid]
    exact read rest stops

theorem head?_text {numeral : Numeral} (proper : numeral.Proper) :
    ∃ c ∈ numeral.text.head?, c.isDigit := by
  have some_digit := proper.some_digit
  have all := proper.whole
  obtain ⟨whole, fraction, exponent⟩ := numeral
  cases whole with
  | nil => exact absurd rfl some_digit
  | cons c more => exact ⟨c, rfl, all c (by simp)⟩

/-- A finite double is written as a numeral, with its sign, that has the double's value. -/
theorem exists_floatText (finite : Number.isFinite x) : ∃ (numeral : Numeral) (d : Number.Decimal),
    numeral.StandsFor d ∧
      (floatText x).toList = (if d.negative then '-' :: numeral.text else numeral.text) ∧
      Number.Decimal.toFloat ⟨d.negative, Number.natOfDigits (numeral.whole ++ numeral.fractionDigits),
        numeral.power - numeral.fractionDigits.length⟩ = x := by
  obtain ⟨d, shortest⟩ : ∃ d, (Number.scaled x).shortest Number.double .toEven = d := ⟨_, rfl⟩
  obtain ⟨places, least, zero⟩ := Number.shortest_places .toEven finite shortest
  obtain ⟨numeral, stands, text⟩ := exists_numeral places least zero
  refine ⟨numeral, d, stands, ?_, Number.toFloat_of_shortest .toEven finite ?_ ?_⟩
  · rw [floatText, if_pos finite, ← text, ← shortest]
    rfl
  · rw [← shortest]
    exact Number.shortest_negative _
  · rw [shortest]
    exact stands.value

/-- A finite double is read back as it was written. -/
theorem reads_float (finite : Number.isFinite x) : Reads (.float x) (floatText x).toList := by
  obtain ⟨numeral, d, stands, written, same⟩ := exists_floatText finite
  have near : ∀ part ∈ numeral.exponent, Number.natOfDigits part.2 < exponentCeiling :=
    fun part is_one => (stands.near part is_one).trans (by decide)
  have no_infinity : x.isInf = false := Number.isInf_of_isFinite finite
  rw [written]
  refine reads_of_readNumber (head?_text stands.proper) fun rest stops => ?_
  rw [readNumber, scanNumeral?_text stands.proper stops]
  dsimp only
  rw [value?_eq d.negative stands.some_part near stands.few, ofDecimal?, same]
  simp [no_infinity]

theorem exists_sign (negative : Bool) (text : List Char) : ∃ sign, Number.IsSign negative sign ∧
    (if negative then '-' :: text else text) = sign ++ text := by
  cases negative with
  | false => exact ⟨[], .none, rfl⟩
  | true => exact ⟨['-'], .minus, rfl⟩

/-- Outside JSON a finite double's text is read as the double, too. -/
theorem readFloat?_floatText (finite : Number.isFinite x) :
    Number.readFloat? (floatText x).toList = some x := by
  obtain ⟨numeral, d, stands, written, same⟩ := exists_floatText finite
  obtain ⟨sign, is_sign, signed⟩ := exists_sign d.negative numeral.text
  rw [written, signed, Number.readFloat?, Number.readWritten?,
    Number.scan_sign is_sign (head?_text stands.proper), scanUnsigned_text stands.proper stands.near,
    Number.ofDigits_eq stands.few, ← same]
  rfl

theorem mem_floatText (finite : Number.isFinite x) :
    ∀ c ∈ (floatText x).toList, c.isDigit ∨ c ∈ marks := by
  obtain ⟨numeral, d, stands, written, _⟩ := exists_floatText finite
  have plain := stands.proper.mem_text
  rw [written]
  cases d.negative with
  | false => exact plain
  | true => exact List.forall_mem_cons.mpr ⟨by decide, plain⟩

/-- A double's text has a point or an exponent, whole or not. -/
theorem exists_mark_floatText (finite : Number.isFinite x) :
    ∃ c ∈ (floatText x).toList, c = '.' ∨ c = 'e' := by
  obtain ⟨numeral, d, stands, written, _⟩ := exists_floatText finite
  obtain ⟨c, is_one, mark⟩ := Numeral.exists_mark stands.some_part
  refine ⟨c, ?_, mark⟩
  rw [written]
  cases d.negative with
  | false => exact is_one
  | true => exact List.mem_cons_of_mem _ is_one

end Reads
end Tabletop.Json
