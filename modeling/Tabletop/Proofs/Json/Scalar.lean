import Tabletop.Json.Reader
import Tabletop.Json.Writer
import Tabletop.Proofs.Number.Digits

/-!
Strings and integers in JSON text are read back as they were written.
-/

namespace Tabletop.Json

section Strings

theorem hexValue?_hexDigit : ∀ n < 16, hexValue? (hexDigit n) = some n := by decide

theorem unit?_hexDigits {code : Nat} (small : code < 32) :
    unit? '0' '0' (hexDigit (code / 16)) (hexDigit (code % 16)) = some code := by
  have zero : hexValue? '0' = some 0 := by decide
  have high := hexValue?_hexDigit (code / 16) (by omega)
  have low := hexValue?_hexDigit (code % 16) (by omega)
  simp only [unit?, zero, high, low, Option.bind_eq_bind, Option.bind_some, Option.pure_def]
  congr 1
  omega

/-- An escaped character is read as the character. -/
theorem readString_escaped (back : List Char) (c : Char) (rest : List Char) :
    readString back (escaped c ++ rest) = readString (c :: back) rest := by
  unfold escaped
  split
  · rename_i quote
    subst quote
    rfl
  split
  · rename_i backslash
    subst backslash
    rfl
  split
  · rename_i line_feed
    subst line_feed
    rfl
  split
  · rename_i carriage_return
    subst carriage_return
    rfl
  split
  · rename_i tab
    subst tab
    rfl
  split
  · rename_i backspace
    obtain rfl : c = Char.ofNat 8 := by rw [← backspace, Char.ofNat_toNat]
    rfl
  split
  · rename_i form_feed
    obtain rfl : c = Char.ofNat 12 := by rw [← form_feed, Char.ofNat_toNat]
    rfl
  split
  · rename_i control
    have code := unit?_hexDigits control
    have no_low : isLowSurrogate c.toNat = false := by simp [isLowSurrogate]; omega
    have no_high : isHighSurrogate c.toNat = false := by simp [isHighSurrogate]; omega
    simp [readString, code, no_low, no_high, Char.ofNat_toNat]
  · rename_i no_quote no_backslash _ _ _ _ _ no_control
    simp only [List.cons_append, List.nil_append]
    rw [readString.eq_def]
    split
    · simp_all
    · simp_all
    · simp_all
    · simp_all
    · rename_i split
      cases split
      rw [if_neg no_control]

/-- A written string is read up to its closing quote. -/
theorem readString_quoted (back text rest : List Char) :
    readString back (text.flatMap escaped ++ '"' :: rest) =
      some (String.ofList (back.reverse ++ text), rest) := by
  induction text generalizing back with
  | nil => simp [readString]
  | cons c text of_text =>
    rw [List.flatMap_cons, List.append_assoc, readString_escaped, of_text, List.reverse_cons,
      List.append_assoc, List.singleton_append]

end Strings

section Integers

/-- The characters that a number may go on with. -/
def isNumeric (c : Char) : Bool := c.isDigit || c = '.' || c = 'e' || c = 'E'

theorem stops_isDigit {rest : List Char} (stops : Text.Stops isNumeric rest) :
    Text.Stops Char.isDigit rest := by
  intro c is_first
  have no_part := stops c is_first
  simp only [isNumeric, Bool.or_eq_false_iff] at no_part
  exact no_part.1.1.1

/-- No exponent follows where no number goes on. -/
theorem scanExponent?_stopped {rest : List Char} (stops : Text.Stops isNumeric rest) :
    Number.scanExponent? rest = none := by
  cases rest with
  | nil => rfl
  | cons c more =>
    have no_part := Text.stops_cons.mp stops
    simp only [isNumeric, Bool.or_eq_false_iff, decide_eq_false_iff_not] at no_part
    simp [Number.scanExponent?, no_part]

theorem scanNumeral?_toDigits (n : Nat) {rest : List Char} (stops : Text.Stops isNumeric rest) :
    scanNumeral? (Nat.toDigits 10 n ++ rest) = some (⟨Nat.toDigits 10 n, none, none⟩, rest) := by
  have run : Number.spanDigits (Nat.toDigits 10 n ++ rest) = (Nat.toDigits 10 n, rest) :=
    Text.span_run (fun c is_one => Number.isDigit_of_mem_toDigits is_one) (stops_isDigit stops)
  have plain : ((Nat.toDigits 10 n).isEmpty ||
      (Nat.toDigits 10 n).head? = some '0' && (Nat.toDigits 10 n).length != 1) = false := by
    rcases Nat.eq_zero_or_pos n with rfl | positive
    · decide
    · simp [Number.head?_toDigits_ne_zero positive]
  have no_exponent := scanExponent?_stopped stops
  unfold scanNumeral?
  simp only [run, plain]
  cases rest with
  | nil => simp [Number.scanExponent?]
  | cons c more =>
    have no_part := Text.stops_cons.mp stops
    simp only [isNumeric, Bool.or_eq_false_iff, decide_eq_false_iff_not] at no_part
    simp [no_part, no_exponent]

theorem readNumber_toDigits (negative : Bool) {n : Nat}
    (fits : n < if negative then 2 ^ 63 + 1 else 2 ^ 64) (counts : negative → 0 < n)
    {rest : List Char} (stops : Text.Stops isNumeric rest) :
    readNumber negative (Nat.toDigits 10 n ++ rest) =
      some (.int (Number.signed negative n), rest) := by
  have below : Number.natBelow? (if negative then Nat.pow 2 63 + 1 else Nat.pow 2 64)
      (Nat.toDigits 10 n) = some n := by
    have digits_fit : Number.natOfDigits (Nat.toDigits 10 n) <
        if negative then Nat.pow 2 63 + 1 else Nat.pow 2 64 := by
      rwa [Number.natOfDigits_toDigits]
    rw [Number.natBelow?_of_lt digits_fit, Number.natOfDigits_toDigits]
  have no_minus_zero : (negative && n == 0) = false := by
    cases negative with
    | false => rfl
    | true => simpa using (counts rfl).ne'
  simp [readNumber, scanNumeral?_toDigits n stops, Numeral.value?, below, no_minus_zero]

end Integers

section Reads

/-- A text that is read as a value that holds no others, whatever follows that goes on no number. -/
def Reads (json : Json) (text : List Char) : Prop :=
  ∀ (fuel levels : Nat) (form : Form) (rest : List Char), Text.Stops isNumeric rest →
    readValue (fuel + 1) levels form (text ++ rest) = some (json, rest)

theorem reads_null : Reads .null "null".toList := by
  intro fuel levels form rest _
  rfl

theorem reads_bool (value : Bool) : Reads (.bool value) (if value then "true" else "false").toList := by
  intro fuel levels form rest _
  cases value with
  | false => rfl
  | true => rfl

theorem reads_str (value : String) : Reads (.str value) (quoted value).toList := by
  intro fuel levels form rest _
  have opening : (quoted value).toList ++ rest = '"' :: (value.toList.flatMap escaped ++ '"' :: rest) := by
    simp [quoted, quotedChars]
  have solid : skipGap ('"' :: (value.toList.flatMap escaped ++ '"' :: rest)) =
      '"' :: (value.toList.flatMap escaped ++ '"' :: rest) := rfl
  rw [opening, readValue, solid]
  simp [readString_quoted]

/-- A text that begins with a digit can only be a number. -/
theorem readValue_of_isDigit {c : Char} (digit : c.isDigit) (fuel levels : Nat) (form : Form)
    (text : List Char) :
    readValue (fuel + 1) levels form (c :: text) = readNumber false (c :: text) := by
  have plain {d : Char} (other : d.isDigit = false) : c ≠ d := by
    rintro rfl
    simp [other] at digit
  have no_gap : isGap c = false := by
    simp only [isGap, Bool.or_eq_false_iff, decide_eq_false_iff_not]
    exact ⟨⟨⟨plain (by decide), plain (by decide)⟩, plain (by decide)⟩, plain (by decide)⟩
  have solid : skipGap (c :: text) = c :: text := by simp [skipGap, no_gap]
  rw [readValue, solid]
  split
  case h_8 => rfl
  all_goals
    rename_i front
    cases front
    exact absurd digit (by decide)

theorem readValue_toDigits (fuel levels : Nat) (form : Form) (n : Nat) (rest : List Char) :
    readValue (fuel + 1) levels form (Nat.toDigits 10 n ++ rest) =
      readNumber false (Nat.toDigits 10 n ++ rest) := by
  cases split : Nat.toDigits 10 n with
  | nil => exact absurd split Nat.toDigits_ne_nil
  | cons c digits =>
    have digit : c.isDigit := Number.isDigit_of_mem_toDigits (n := n) (by simp [split])
    exact readValue_of_isDigit digit fuel levels form _

/-- Integers are read back if they fit 64 bits, with a sign or without. -/
theorem reads_int {value : Int} (low : -2 ^ 63 ≤ value) (high : value < 2 ^ 64) :
    Reads (.int value) (toString value).toList := by
  intro fuel levels form rest stops
  cases value with
  | ofNat n =>
    have written : (toString (Int.ofNat n)).toList = Nat.toDigits 10 n := Nat.toList_repr
    have fits : n < 2 ^ 64 := by
      rw [Int.ofNat_eq_natCast] at high
      exact_mod_cast high
    rw [written, readValue_toDigits, readNumber_toDigits false fits (by simp) stops]
    rfl
  | negSucc n =>
    have written : (toString (Int.negSucc n)).toList = '-' :: Nat.toDigits 10 (n + 1) := by
      change ("-" ++ Nat.repr (n + 1)).toList = _
      simp
    have fits : n + 1 < 2 ^ 63 + 1 := by omega
    have read := readNumber_toDigits true (n := n + 1) fits (by simp) stops
    have solid : skipGap ('-' :: (Nat.toDigits 10 (n + 1) ++ rest)) =
        '-' :: (Nat.toDigits 10 (n + 1) ++ rest) := rfl
    rw [written, List.cons_append, readValue, solid]
    simp only [read]
    rfl

end Reads

/-- A count that fits is what its integer is taken for. -/
theorem unsigned?_int {bits count : Nat} (bounded : count < 2 ^ bits) :
    (Json.int count).unsigned? bits = some count := by
  have low : (0 : Int) ≤ count := Int.natCast_nonneg count
  have high : (count : Int) < (Nat.pow 2 bits : Nat) := Int.ofNat_lt.mpr bounded
  simp only [unsigned?, intWithin?, low, high, and_self, if_true, Option.map_some, Int.toNat_natCast]

end Tabletop.Json
