import Mathlib.Data.List.Forall2
import Tabletop.Proofs.Number.Digits
import Tabletop.Proofs.Payload.Blanks
import Tabletop.Proofs.Payload.Grammar
import Tabletop.Proofs.Text.Pieces

/-!
Written formulas: whole numbers with a sign, names, and chains of such parts with a blank on either side
of every operator. Each of these texts is read as the formula that it was written for.
-/

namespace Tabletop

namespace Text

/-- A text that neither begins nor ends with a blank. -/
structure Solid (text : List Char) : Prop where
  filled : text ≠ []
  front : Stops isBlank text
  back : Stops isBlank text.reverse

theorem Solid.of_all {text : List Char} (filled : text ≠ [])
    (none_of : ∀ c ∈ text, isBlank c = false) : Solid text where
  filled := filled
  front := stops_of_all none_of
  back := stops_of_all fun c is_one => none_of c (List.mem_reverse.mp is_one)

theorem Stops.append {p : Char → Bool} {text : List Char} (stops : Stops p text) (filled : text ≠ [])
    (more : List Char) : Stops p (text ++ more) := by
  rwa [Stops, List.head?_append_of_ne_nil text filled]

theorem Solid.append {front back : List Char} (solid : Solid front) (other : Solid back)
    (between : List Char) : Solid (front ++ (between ++ back)) where
  filled := List.append_ne_nil_of_left_ne_nil solid.filled _
  front := solid.front.append solid.filled _
  back := by
    simp only [List.reverse_append, List.append_assoc]
    exact other.back.append (by simpa using other.filled) _

theorem Solid.cons {c : Char} {text : List Char} (no_blank : isBlank c = false) (solid : Solid text) :
    Solid (c :: text) :=
  (Solid.of_all (List.cons_ne_nil c []) (by simpa using no_blank)).append solid []

/-- Nothing is trimmed off a solid text. -/
theorem Solid.trim {text : List Char} (solid : Solid text) : trim text = text := by
  rw [Text.trim, solid.front.dropWhile, solid.back.dropWhile, List.reverse_reverse]

theorem trimmed_of_solid {text : String} (solid : Solid text.toList) : trimmed text = text := by
  rw [trimmed, solid.trim, String.ofList_toList]

/-- Texts joined by a separator are the first one and the others with the separator before them. -/
theorem toList_joined (separator first : String) (rest : List String) :
    (joined separator (first :: rest)).toList =
      first.toList ++ rest.flatMap fun text => separator.toList ++ text.toList := by
  rw [joined, String.toList_intercalate, List.map_cons, intercalate_cons, List.flatMap_map]

theorem solid_joined {separator first : String} {rest : List String} (solid : Solid first.toList)
    (others : ∀ text ∈ rest, Solid text.toList) : Solid (joined separator (first :: rest)).toList := by
  rw [toList_joined]
  generalize first.toList = front at solid
  induction rest generalizing front with
  | nil => simpa using solid
  | cons text rest of_rest =>
    have grown := solid.append (others text List.mem_cons_self) separator.toList
    have whole := of_rest (fun text later => others text (List.mem_cons_of_mem _ later)) _ grown
    simpa using whole

end Text

namespace Payload.Formula

/-! ## Texts that are cut into tokens -/

section Cutting

/-- A text is empty or begins with a blank. -/
def Parted (text : List Char) : Prop := ∀ c ∈ text.head?, Text.isBlank c

variable {β γ δ : Type} {Rule : List Token → β → Prop} {Other : List Token → γ → Prop}
  {Whole : List Token → δ → Prop} {text more taken : List Char} {value : β} {other : γ} {whole : δ}
  {kind : TokenKind}

theorem Parted.stops {p : Char → Bool} (parted : Parted text)
    (plain : ∀ {c}, Text.isBlank c → p c = false) : Text.Stops p text :=
  fun c is_first => plain (parted c is_first)

theorem Parted.append (parted : Parted text) (another : Parted more) : Parted (text ++ more) := by
  cases text with
  | nil => exact another
  | cons c rest => exact parted

theorem parted_nil : Parted [] := by simp [Parted]

theorem parted_blank (text : List Char) : Parted (' ' :: text) := by
  intro c is_first
  cases is_first
  rfl

/-- A text that, before a blank or the end, is cut into tokens that spell a value by a rule. -/
def Spelled (Rule : List Token → β → Prop) (text : List Char) (value : β) : Prop :=
  ∀ ⦃rest : List Char⦄ ⦃fuel : Nat⦄ (back : List Token) (offset : Nat), Parted rest →
    (text ++ rest).length ≤ fuel → ∃ found left place, Rule found value ∧ rest.length ≤ left ∧
      scanTokens fuel back offset (text ++ rest) = scanTokens left (found.reverse ++ back) place rest

theorem spelled_nil (empty : Rule [] value) : Spelled Rule [] value :=
  fun _ _ _ offset _ within => ⟨[], _, offset, empty, within, rfl⟩

theorem Spelled.imp (spelled : Spelled Rule text value)
    (weaker : ∀ {found}, Rule found value → Other found other) : Spelled Other text other := by
  intro rest fuel back offset parted within
  obtain ⟨found, left, place, by_rule, enough, cut⟩ := spelled back offset parted within
  exact ⟨found, left, place, weaker by_rule, enough, cut⟩

/-- A blank in front takes no part. -/
theorem Spelled.blank (spelled : Spelled Rule text value) : Spelled Rule (' ' :: text) value := by
  intro rest fuel back offset parted within
  obtain ⟨fuel, rfl⟩ : ∃ left, fuel = left + 1 :=
    Nat.exists_eq_succ_of_ne_zero (Nat.ne_of_gt (Nat.lt_of_lt_of_le (by simp) within))
  exact spelled back _ parted (Nat.le_of_succ_le_succ within)

/-- A text whose front is one token. -/
theorem Spelled.token (spelled : Spelled Rule text value) (filled : taken ≠ [])
    (solid : Text.Stops Text.isBlank taken)
    (cut : ∀ rest offset, Parted rest →
      scanToken offset (taken ++ (text ++ rest)) = .ok (kind, taken, text ++ rest))
    (with_token : ∀ {offset found}, Rule found value → Whole (⟨offset, kind⟩ :: found) whole) :
    Spelled Whole (taken ++ text) whole := by
  intro rest fuel back offset parted within
  obtain ⟨c, tail, rfl⟩ := List.exists_cons_of_ne_nil filled
  obtain ⟨fuel, rfl⟩ : ∃ left, fuel = left + 1 :=
    Nat.exists_eq_succ_of_ne_zero (Nat.ne_of_gt (Nat.lt_of_lt_of_le (by simp) within))
  have enough : (text ++ rest).length ≤ fuel := by
    simp only [List.length_append, List.length_cons] at within ⊢
    omega
  -- One step of fuel cuts the token off; what is left still covers the text behind it.
  obtain ⟨found, left, place, by_rule, enough, cut_rest⟩ :=
    spelled (⟨offset, kind⟩ :: back) (offset + Text.byteSize (c :: tail)) parted enough
  refine ⟨⟨offset, kind⟩ :: found, left, place, with_token by_rule, enough, ?_⟩
  have first := cut rest offset parted
  rw [List.cons_append] at first
  rw [List.append_assoc, List.cons_append, scanTokens, if_neg (by simpa using solid), first,
    List.reverse_cons, List.append_assoc]
  exact cut_rest

theorem Spelled.append (spelled : Spelled Rule text value) (more_spelled : Spelled Other more other)
    (parted : Parted more)
    (together : ∀ {found others}, Rule found value → Other others other → Whole (found ++ others) whole) :
    Spelled Whole (text ++ more) whole := by
  intro rest fuel back offset rest_parted within
  rw [List.append_assoc] at within ⊢
  obtain ⟨found, left, place, by_rule, enough, cut⟩ :=
    spelled back offset (parted.append rest_parted) within
  obtain ⟨others, left, place, by_other, enough, cut_more⟩ :=
    more_spelled (found.reverse ++ back) place rest_parted enough
  refine ⟨found ++ others, left, place, together by_rule by_other, enough, ?_⟩
  rw [cut, cut_more, List.reverse_append, List.append_assoc]

/-- A text that is one token. -/
theorem spelled_token (filled : taken ≠ []) (solid : Text.Stops Text.isBlank taken)
    (cut : ∀ rest offset, Parted rest → scanToken offset (taken ++ rest) = .ok (kind, taken, rest))
    (by_rule : ∀ {offset}, Rule [⟨offset, kind⟩] value) : Spelled Rule taken value := by
  have nothing : Spelled (fun found (_ : Unit) => found = []) [] () := spelled_nil rfl
  have spelled : Spelled Rule (taken ++ []) value := by
    refine nothing.token filled solid cut ?_
    rintro offset _ rfl
    exact by_rule
  rwa [List.append_nil] at spelled

end Cutting

/-! ## Numbers and names -/

section Parts

theorem exponentText_parted {text : List Char} (parted : Parted text) : exponentText text = [] := by
  cases text with
  | nil => rfl
  | cons c rest =>
    have plain := (plain_of_isBlank (parted c rfl)).2.2
    simp only [continuations, List.mem_cons, not_or] at plain
    simp [exponentText, plain]

theorem isNumberPart_of_isDigit {c : Char} (digit : c.isDigit) : isNumberPart c := by
  simp [isNumberPart, digit]

/-- No blank is part of a number. -/
theorem no_blank_of_isNumberPart {c : Char} (part : isNumberPart c) : Text.isBlank c = false := by
  by_contra blank
  have plain := (plain_of_isBlank (by simpa using blank)).1
  rw [part] at plain
  cases plain

theorem no_blank_of_isNamePart {c : Char} (part : isNamePart c) : Text.isBlank c = false := by
  by_contra blank
  have plain := (plain_of_isBlank (by simpa using blank)).2.1
  rw [part] at plain
  cases plain

theorem scanToken_digits {digits rest : List Char} (filled : digits ≠ [])
    (all : ∀ c ∈ digits, c.isDigit) (few : digits.length ≤ Number.significantDigits) (offset : Nat)
    (parted : Parted rest) : scanToken offset (digits ++ rest) =
      .ok (.number ⟨false, Number.natOfDigits digits, 0⟩, digits, rest) := by
  have run : (digits ++ rest).span isNumberPart = (digits, rest) :=
    Text.span_run (fun c is_one => isNumberPart_of_isDigit (all c is_one))
      (parted.stops fun blank => (plain_of_isBlank blank).1)
  have read : Number.readWritten? digits = some (.decimal ⟨false, Number.natOfDigits digits, 0⟩) := by
    rw [← Number.ofDigits_eq few]
    exact Number.readWritten?_digits .none filled all
  have scanned : scanNumber offset (digits ++ rest) =
      .ok (.number ⟨false, Number.natOfDigits digits, 0⟩, digits, rest) := by
    rw [scanNumber, run]
    simp [exponentText_parted parted, read]
  obtain ⟨c, tail, rfl⟩ := List.exists_cons_of_ne_nil filled
  have part := isNumberPart_of_isDigit (all c List.mem_cons_self)
  rw [List.cons_append] at scanned ⊢
  rw [scanToken, if_pos part, scanned]

/-- A letter or an underscore, followed by letters, digits and underscores. -/
structure IsIdentifier (name : String) : Prop where
  starts : ∃ c ∈ name.toList.head?, isNameStart c
  goes_on : ∀ c ∈ name.toList, isNamePart c

theorem IsIdentifier.solid {name : String} (identifier : IsIdentifier name) :
    Text.Solid name.toList := by
  obtain ⟨c, is_first, _⟩ := identifier.starts
  refine .of_all ?_ fun c is_one => no_blank_of_isNamePart (identifier.goes_on c is_one)
  rintro nothing
  simp [nothing] at is_first

theorem isDigit_eq_false_of_isLetter {c : Char} (letter : Text.isLetter c) : c.isDigit = false := by
  have high : 57 < c.toNat := by
    unfold Text.isLetter at letter
    split at letter
    · have alpha : (decide (65 ≤ c.val ∧ c.val ≤ 90) || (decide (97 ≤ c.val) && decide (c.val ≤ 122))) =
          true := letter
      simp only [Bool.or_eq_true, Bool.and_eq_true, decide_eq_true_eq, UInt32.le_iff_toNat_le] at alpha
      change 57 < c.val.toNat
      rcases alpha with upper | lower
      · exact Nat.lt_of_lt_of_le (by decide) upper.1
      · exact Nat.lt_of_lt_of_le (by decide) lower.1
    · omega
  by_contra digit
  have low : c.toNat ≤ 57 := (Char.isDigit_iff_toNat.mp (by simpa using digit)).2
  omega

/-- A name does not begin as a number does. -/
theorem not_isNumberPart_of_isNameStart {c : Char} (starts : isNameStart c) : ¬ isNumberPart c := by
  simp only [isNameStart, isNumberPart, Bool.or_eq_true, decide_eq_true_eq, not_or] at starts ⊢
  rcases starts with letter | rfl
  · refine ⟨by simp [isDigit_eq_false_of_isLetter letter], ?_⟩
    rintro rfl
    cases letter
  · decide

theorem scanToken_identifier {name : String} (identifier : IsIdentifier name) {rest : List Char}
    (offset : Nat) (parted : Parted rest) :
    scanToken offset (name.toList ++ rest) = .ok (.name name, name.toList, rest) := by
  have run : (name.toList ++ rest).span isNamePart = (name.toList, rest) :=
    Text.span_run identifier.goes_on (parted.stops fun blank => (plain_of_isBlank blank).2.1)
  have bracket (inside : List Char) : rest ≠ '[' :: inside := by
    rintro rfl
    cases parted '[' rfl
  have scanned : scanName offset (name.toList ++ rest) = .ok (.name name, name.toList, rest) := by
    rw [scanName, run]
    dsimp only
    split
    · rename_i inside
      exact absurd rfl (bracket inside)
    · rw [String.ofList_toList]
  obtain ⟨c, is_first, starts⟩ := identifier.starts
  obtain ⟨tail, split⟩ := List.head?_eq_some_iff.mp is_first
  rw [split, List.cons_append] at scanned ⊢
  rw [scanToken, if_neg (not_isNumberPart_of_isNameStart starts), if_pos starts, scanned]

variable {Operand : List Token → Formula → Prop}

theorem spelled_digits {digits : List Char} (filled : digits ≠ []) (all : ∀ c ∈ digits, c.isDigit)
    (few : digits.length ≤ Number.significantDigits) :
    Spelled (IsAtom Operand) digits (.number ⟨false, Number.natOfDigits digits, 0⟩) :=
  spelled_token filled
    (Text.stops_of_all fun c is_one => no_blank_of_isNumberPart (isNumberPart_of_isDigit (all c is_one)))
    (fun _ offset parted => scanToken_digits filled all few offset parted) (.number _)

theorem IsIdentifier.spelled {name : String} (identifier : IsIdentifier name) :
    Spelled (IsAtom Operand) name.toList (.reference name) :=
  spelled_token identifier.solid.filled identifier.solid.front
    (fun _ offset parted => scanToken_identifier identifier offset parted) (.name _)

/-- A sign stands right before what it belongs to. -/
theorem Spelled.minus {text : List Char} {inner : Formula} (spelled : Spelled Operand text inner) :
    Spelled (IsUnary Operand) ('-' :: text) (.neg inner) :=
  spelled.token (List.cons_ne_nil '-' []) (by simp [Text.Stops, Text.isBlank]) (fun _ _ _ => rfl) .minus

end Parts

/-! ## Chains -/

section Chains

/-- A node over parts that are all linked alike; one alone stays what it is. -/
def chainOf {α : Type} (node : Formula → List (α × Formula) → Formula) (link : α) (first : Formula) :
    List Formula → Formula
  | [] => first
  | next :: rest => node first ((next :: rest).map (link, ·))

/-- The sum of some terms. -/
abbrev sumOf : Formula → List Formula → Formula := chainOf .sum .add

/-- The product of some factors. -/
abbrev productOf : Formula → List Formula → Formula := chainOf .product .mul

variable {α : Type} {link? : Operator → Option α} {Part : List Token → Formula → Prop} {op : Operator}
  {link : α} {mark : Char}

/-- A mark that, before a blank, is cut off as an operator. -/
def Marks (mark : Char) (op : Operator) : Prop :=
  ∀ (rest : List Char) (offset : Nat),
    scanToken offset (mark :: ' ' :: rest) = .ok (.operator op, [mark], ' ' :: rest)

theorem marks_plus : Marks '+' .plus := fun _ _ => rfl

theorem marks_times : Marks '*' .times := fun _ _ => rfl

theorem spelled_links (marks : Marks mark op) (solid : Text.isBlank mark = false)
    (links : link? op = some link) {texts : List (List Char)} {rest : List Formula}
    (parts : List.Forall₂ (Spelled Part) texts rest) :
    Spelled (IsLinks link? Part) (texts.flatMap fun text => ' ' :: mark :: ' ' :: text)
      (rest.map (link, ·)) := by
  induction parts with
  | nil => exact spelled_nil .stop
  | @cons text formula texts rest part _ of_rest =>
    have parted : Parted (texts.flatMap fun text => ' ' :: mark :: ' ' :: text) := by
      cases texts with
      | nil => exact parted_nil
      | cons text texts => exact parted_blank _
    have marked : Spelled (fun found formula => ∃ offset part, Part part formula ∧
        found = ⟨offset, .operator op⟩ :: part) ([mark] ++ ' ' :: text) formula :=
      part.blank.token (List.cons_ne_nil mark []) (by simpa using solid) (fun _ _ _ => marks _ _)
        fun by_rule => ⟨_, _, by_rule, rfl⟩
    refine marked.blank.append of_rest parted ?_
    rintro _ others ⟨offset, first, by_rule, rfl⟩ by_rest
    exact .link links by_rule by_rest

theorem spelled_chain (marks : Marks mark op) (solid : Text.isBlank mark = false)
    (links : link? op = some link) (node : Formula → List (α × Formula) → Formula) {text : List Char}
    {first : Formula} (spelled : Spelled Part text first) {texts : List (List Char)}
    {rest : List Formula} (parts : List.Forall₂ (Spelled Part) texts rest) :
    Spelled (IsChain link? node Part) (text ++ texts.flatMap fun text => ' ' :: mark :: ' ' :: text)
      (chainOf node link first rest) := by
  have others := spelled_links marks solid links parts
  cases parts with
  | nil =>
    rw [List.flatMap_nil, List.append_nil]
    exact spelled.imp .alone
  | cons part parts =>
    exact spelled.append others (parted_blank _) .chain

/-- What is made of the items of one list is related item by item. -/
theorem forall₂_map {α β γ : Type} {relation : β → γ → Prop} {items : List α} {left : α → β} {right : α → γ}
    (related : ∀ item ∈ items, relation (left item) (right item)) :
    List.Forall₂ relation (items.map left) (items.map right) := by
  rwa [List.forall₂_map_left_iff, List.forall₂_map_right_iff, List.forall₂_same]

/-- Terms joined by plus signs are a sum. -/
theorem spelled_sum {text : String} {first : Formula} {Operand : List Token → Formula → Prop}
    (spelled : Spelled (IsProduct Operand) text.toList first) {texts : List String}
    {rest : List Formula}
    (parts : List.Forall₂ (fun text => Spelled (IsProduct Operand) text.toList) texts rest) :
    Spelled (IsSum Operand) (Text.joined " + " (text :: texts)).toList (sumOf first rest) := by
  rw [Text.toList_joined]
  have chain := spelled_chain marks_plus rfl (rfl : Operator.joining? .plus = some .add) .sum spelled
    (List.forall₂_map_left_iff.mpr parts)
  rwa [List.flatMap_map] at chain

/-- Operands joined by asterisks are a product. -/
theorem spelled_product {text : String} {first : Formula} {Operand : List Token → Formula → Prop}
    (spelled : Spelled Operand text.toList first) {texts : List String} {rest : List Formula}
    (parts : List.Forall₂ (fun text => Spelled Operand text.toList) texts rest) :
    Spelled (IsProduct Operand) (Text.joined " * " (text :: texts)).toList (productOf first rest) := by
  rw [Text.toList_joined]
  have chain := spelled_chain marks_times rfl (rfl : Operator.scaling? .times = some .mul) .product
    spelled (List.forall₂_map_left_iff.mpr parts)
  rwa [List.flatMap_map] at chain

end Chains

/-! ## Whole texts -/

section Texts

/-- The formula of an integer; a minus sign is a node of its own. -/
def ofInt : Int → Formula
  | .ofNat n => .number ⟨false, n, 0⟩
  | .negSucc n => .neg (.number ⟨false, n + 1, 0⟩)

theorem spelled_nat {n : Nat} (small : n < 10 ^ Number.significantDigits)
    {Operand : List Token → Formula → Prop} :
    Spelled (IsAtom Operand) (Nat.repr n).toList (.number ⟨false, n, 0⟩) := by
  have few : (Nat.repr n).length ≤ Number.significantDigits :=
    (Nat.length_repr_le_iff (by decide)).mpr small
  have spelled : Spelled (IsAtom Operand) (Nat.toDigits 10 n)
      (.number ⟨false, Number.natOfDigits (Nat.toDigits 10 n), 0⟩) :=
    spelled_digits Nat.toDigits_ne_nil (fun _ => Number.isDigit_of_mem_toDigits)
      (by rwa [← Nat.toList_repr])
  rwa [Number.natOfDigits_toDigits, ← Nat.toList_repr] at spelled

theorem toList_negSucc (n : Nat) :
    (toString (Int.negSucc n)).toList = '-' :: (Nat.repr (n + 1)).toList := by
  simp [toString, Int.repr]

theorem spelled_int {n : Int} (small : n.natAbs < 10 ^ Number.significantDigits) (levels : Nat) :
    Spelled (IsOperand (levels + 2)) (toString n).toList (ofInt n) := by
  cases n with
  | ofNat n => exact (spelled_nat small).imp .atom
  | negSucc n =>
    have positive : Spelled (IsOperand (levels + 1)) (Nat.repr (n + 1)).toList
        (.number ⟨false, n + 1, 0⟩) := (spelled_nat small).imp .atom
    rw [toList_negSucc]
    exact positive.minus

theorem solid_nat (n : Nat) : Text.Solid (Nat.repr n).toList := by
  refine .of_all (by simp) fun c is_one => ?_
  rw [Nat.toList_repr] at is_one
  exact no_blank_of_isNumberPart (isNumberPart_of_isDigit (Number.isDigit_of_mem_toDigits is_one))

theorem solid_int (n : Int) : Text.Solid (toString n).toList := by
  cases n with
  | ofNat n => exact solid_nat n
  | negSucc n =>
    rw [toList_negSucc]
    exact (solid_nat (n + 1)).cons (by decide)

theorem IsIdentifier.spelled_operand {name : String} (identifier : IsIdentifier name) (levels : Nat) :
    Spelled (IsOperand (levels + 1)) name.toList (.reference name) :=
  identifier.spelled.imp .atom

/-- A text that is a sum is read as that sum. -/
theorem read_of_spelled {text : String} {formula : Formula}
    (spelled : Spelled (IsSum (IsOperand nestingLimit)) text.toList formula) :
    read text = .ok formula := by
  obtain ⟨found, left, place, by_rule, -, cut⟩ := spelled [] 0 parted_nil (Nat.le_refl _)
  rw [List.append_nil, List.append_nil, scanTokens_nil, List.reverse_reverse] at cut
  exact read_ok_iff.mpr ⟨found, cut, ofTokens_ok_iff.mpr by_rule⟩

theorem read_int (n : Int) (small : n.natAbs < 10 ^ Number.significantDigits) :
    read (toString n) = .ok (ofInt n) :=
  read_of_spelled ((spelled_int small 254).imp fun unary => .alone (.alone unary))

end Texts
end Payload.Formula
end Tabletop
