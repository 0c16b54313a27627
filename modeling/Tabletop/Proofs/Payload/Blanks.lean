import Tabletop.Proofs.Payload.Grammar
import Tabletop.Proofs.Text.Span
import Tabletop.Proofs.Text.Trim

/-!
Blanks around the text of a formula do not change what is read. The tokens are the same apart from
their offsets, and readers look at no offset unless they fail.
-/

namespace Tabletop.Payload.Formula

section Scanning

/-- The code points of all blanks. -/
def blankCodes : List Nat :=
  [9, 10, 11, 12, 13, 32, 0x85, 0xa0, 0x1680, 0x2000, 0x2001, 0x2002, 0x2003, 0x2004, 0x2005,
    0x2006, 0x2007, 0x2008, 0x2009, 0x200a, 0x2028, 0x2029, 0x202f, 0x205f, 0x3000]

/-- The characters that some scanner looks for after others. -/
def continuations : List Char := ['e', 'E', '-', '+', '*', '[', ']']

theorem toNat_mem_blankCodes {c : Char} (blank : Text.isBlank c) : c.toNat ∈ blankCodes := by
  simp only [Text.isBlank, Bool.or_eq_true, Bool.and_eq_true, decide_eq_true_eq] at blank
  simp only [blankCodes, List.mem_cons, List.not_mem_nil, or_false]
  omega

theorem plain_of_mem_blankCodes : ∀ code ∈ blankCodes, isNumberPart (Char.ofNat code) = false ∧
    isNamePart (Char.ofNat code) = false ∧ Char.ofNat code ∉ continuations := by
  decide +kernel

/-- No token goes on with a blank. -/
theorem plain_of_isBlank {c : Char} (blank : Text.isBlank c) :
    isNumberPart c = false ∧ isNamePart c = false ∧ c ∉ continuations := by
  have plain := plain_of_mem_blankCodes c.toNat (toNat_mem_blankCodes blank)
  rwa [Char.ofNat_toNat] at plain

theorem isNamePart_of_isNameStart {c : Char} (starts : isNameStart c) : isNamePart c := by
  simp only [isNameStart, isNamePart, Bool.or_eq_true, decide_eq_true_eq] at starts ⊢
  refine starts.imp_left fun letter => ?_
  unfold Text.isLetter at letter
  unfold Text.isLetterOrNumber
  split at letter
  · rename_i ascii
    simp [ascii, Char.isAlphanum, letter]
  · rename_i high
    simp [high, letter]

variable {blanks : List Char} (all_blank : ∀ c ∈ blanks, Text.isBlank c)
include all_blank

theorem stops_isNumberPart : Text.Stops isNumberPart blanks :=
  Text.stops_of_all fun c is_one => (plain_of_isBlank (all_blank c is_one)).1

theorem stops_isNamePart : Text.Stops isNamePart blanks :=
  Text.stops_of_all fun c is_one => (plain_of_isBlank (all_blank c is_one)).2.1

theorem stops_isDigit : Text.Stops Char.isDigit blanks := by
  refine Text.stops_of_all fun c is_one => ?_
  have no_part := (plain_of_isBlank (all_blank c is_one)).1
  simp only [isNumberPart, Bool.or_eq_false_iff] at no_part
  exact no_part.1

theorem head_not_mem_continuations {c : Char} {rest : List Char} (split : blanks = c :: rest) :
    c ∉ continuations :=
  (plain_of_isBlank (all_blank c (by simp [split]))).2.2

theorem takeWhile_isDigit_append (text : List Char) :
    (text ++ blanks).takeWhile Char.isDigit = text.takeWhile Char.isDigit :=
  Text.takeWhile_append text (stops_isDigit all_blank)

theorem exponentText_append (text : List Char) :
    exponentText (text ++ blanks) = exponentText text := by
  have no_digits := takeWhile_isDigit_append all_blank []
  match text with
  | [] =>
    cases split : blanks with
    | nil => rfl
    | cons c rest =>
      have plain := head_not_mem_continuations all_blank split
      simp only [continuations, List.mem_cons, not_or] at plain
      simp [exponentText, plain]
  | [mark] =>
    cases split : blanks with
    | nil => rfl
    | cons c rest =>
      have plain := head_not_mem_continuations all_blank split
      simp only [continuations, List.mem_cons, not_or] at plain
      rw [split] at no_digits
      simp only [List.nil_append, List.takeWhile_nil] at no_digits
      simp [exponentText, plain, no_digits]
  | mark :: c :: more =>
    simp only [List.cons_append, exponentText]
    by_cases minus : c = '-'
    · subst minus
      simp only [takeWhile_isDigit_append all_blank]
    · by_cases plus : c = '+'
      · subst plus
        simp only [takeWhile_isDigit_append all_blank]
      · have same := takeWhile_isDigit_append all_blank (c :: more)
        simp only [List.cons_append] at same
        simp [minus, plus, same]

omit all_blank in
theorem exponentText_isPrefix (text : List Char) : exponentText text <+: text := by
  have digits (unsigned : List Char) : unsigned.takeWhile Char.isDigit <+: unsigned :=
    List.takeWhile_prefix _
  cases text with
  | nil => exact List.nil_prefix
  | cons mark rest =>
    simp only [exponentText]
    split
    · split
      · exact List.nil_prefix
      · split
        · simpa using digits _
        · simpa using digits _
        · simpa using digits _
    · exact List.nil_prefix

theorem scanNumber_append {offset : Nat} {text taken after : List Char} {kind : TokenKind}
    (read : scanNumber offset text = .ok (kind, taken, after)) (other : Nat) :
    scanNumber other (text ++ blanks) = .ok (kind, taken, after ++ blanks) := by
  unfold scanNumber at read ⊢
  rw [Text.span_append text (stops_isNumberPart all_blank)]
  rw [List.span_eq_takeWhile_dropWhile] at read
  simp only [exponentText_append all_blank] at read ⊢
  split at read
  · rename_i value spelled
    have within := (exponentText_isPrefix (text.dropWhile isNumberPart)).length_le
    cases read
    simp only [List.drop_append_of_le_length within]
  · cases read

theorem scanName_append {offset : Nat} {text taken after : List Char} {kind : TokenKind}
    (read : scanName offset text = .ok (kind, taken, after)) (other : Nat) :
    scanName other (text ++ blanks) = .ok (kind, taken, after ++ blanks) := by
  unfold scanName at read ⊢
  rw [Text.span_append text (stops_isNamePart all_blank)]
  rw [List.span_eq_takeWhile_dropWhile] at read
  simp only at read ⊢
  split at read
  · rename_i inside bracket
    rw [List.span_eq_takeWhile_dropWhile] at read
    simp only at read
    split at read
    · rename_i digit digits ending found closed
      cases read
      simp only [bracket, List.cons_append, Text.span_append inside (stops_isDigit all_blank), found,
        closed]
    · cases read
  · rename_i no_bracket
    cases read
    cases rest_of : text.dropWhile isNamePart with
    | nil =>
      cases split : blanks with
      | nil => rfl
      | cons c rest =>
        have plain := head_not_mem_continuations all_blank split
        simp only [continuations, List.mem_cons, not_or] at plain
        simp [plain]
    | cons c rest =>
      have plain : c ≠ '[' := by
        rintro rfl
        exact no_bracket rest rest_of
      simp [plain]

theorem scanOperator_append {offset : Nat} {text taken after : List Char} {kind : TokenKind}
    (read : scanOperator offset text = .ok (kind, taken, after)) (other : Nat) :
    scanOperator other (text ++ blanks) = .ok (kind, taken, after ++ blanks) := by
  unfold scanOperator at read
  split at read
  case h_4 single =>
    cases read
    cases after with
    | nil =>
      cases split : blanks with
      | nil => rfl
      | cons c more =>
        have plain := head_not_mem_continuations all_blank split
        simp only [continuations, List.mem_cons, not_or] at plain
        simp [scanOperator, plain]
    | cons c more =>
      have plain : c ≠ '*' := by
        rintro rfl
        exact single more rfl
      simp [scanOperator, plain]
  all_goals cases read
  all_goals rfl

theorem scanToken_append {offset : Nat} {text taken after : List Char} {kind : TokenKind}
    (read : scanToken offset text = .ok (kind, taken, after)) (other : Nat) :
    scanToken other (text ++ blanks) = .ok (kind, taken, after ++ blanks) := by
  cases text with
  | nil => cases read
  | cons c rest =>
    simp only [scanToken, List.cons_append] at read ⊢
    by_cases part : isNumberPart c
    · simp only [part, if_true] at read ⊢
      exact scanNumber_append all_blank read other
    · by_cases starts : isNameStart c
      · simp only [part, starts, if_true, if_false, Bool.false_eq_true] at read ⊢
        exact scanName_append all_blank read other
      · simp only [part, starts, if_false, Bool.false_eq_true] at read ⊢
        exact scanOperator_append all_blank read other

omit all_blank in
theorem length_dropWhile_le (p : Char → Bool) (text : List Char) :
    (text.dropWhile p).length ≤ text.length :=
  (List.dropWhile_suffix p).length_le

omit all_blank in
theorem scanOperator_shortens {offset : Nat} {text taken after : List Char} {kind : TokenKind}
    (read : scanOperator offset text = .ok (kind, taken, after)) : after.length < text.length := by
  unfold scanOperator at read
  split at read
  all_goals cases read
  all_goals
    simp only [List.length_cons]
    omega

omit all_blank in
/-- A token takes one character at least. -/
theorem scanToken_shortens {offset : Nat} {c : Char} {rest taken after : List Char}
    {kind : TokenKind} (read : scanToken offset (c :: rest) = .ok (kind, taken, after)) :
    after.length ≤ rest.length := by
  simp only [scanToken] at read
  split at read
  · rename_i part
    unfold scanNumber at read
    rw [List.span_eq_takeWhile_dropWhile] at read
    simp only at read
    split at read
    · cases read
      rw [List.dropWhile_cons_of_pos part, List.length_drop]
      exact (Nat.sub_le _ _).trans (length_dropWhile_le isNumberPart rest)
    · cases read
  · split at read
    · rename_i starts
      have part := isNamePart_of_isNameStart starts
      unfold scanName at read
      rw [List.span_eq_takeWhile_dropWhile, List.dropWhile_cons_of_pos part] at read
      have shorter := length_dropWhile_le isNamePart rest
      simp only at read
      split at read
      · rename_i inside bracket
        rw [List.span_eq_takeWhile_dropWhile] at read
        simp only at read
        have inner := length_dropWhile_le Char.isDigit inside
        split at read
        · rename_i digit digits ending found closed
          cases read
          rw [closed] at inner
          rw [bracket] at shorter
          simp only [List.length_cons] at inner shorter
          omega
        · cases read
      · cases read
        exact shorter
    · exact Nat.le_of_lt_succ (scanOperator_shortens read)

/-- Tokens of the same kinds, wherever they stand. -/
def SameKinds (tokens others : List Token) : Prop := tokens.map Token.kind = others.map Token.kind

theorem scanTokens_blanks (fuel : Nat) (back : List Token) (offset : Nat) (text : List Char) :
    scanTokens (blanks.length + fuel) back offset (blanks ++ text) =
      scanTokens fuel back (offset + Text.byteSize blanks) text := by
  induction blanks generalizing offset with
  | nil => simp
  | cons c rest of_rest =>
    have blank := all_blank c (by simp)
    have rest_blank : ∀ c ∈ rest, Text.isBlank c := fun c is_one => all_blank c (by simp [is_one])
    rw [List.length_cons, Nat.add_right_comm, List.cons_append, scanTokens, if_pos blank,
      of_rest rest_blank, Text.byteSize_cons, Nat.add_assoc]

omit all_blank in
theorem scanTokens_nil (fuel : Nat) (back : List Token) (offset : Nat) :
    scanTokens fuel back offset [] = .ok back.reverse := by
  cases fuel with
  | zero => rfl
  | succ fuel => rfl

/-- Nothing but blanks gives no more tokens. -/
theorem scanTokens_onlyBlanks {back others : List Token} {more : Nat} (enough : blanks.length ≤ more)
    (same : SameKinds back others) (other : Nat) :
    ∃ found, scanTokens more others other blanks = .ok found ∧ SameKinds back.reverse found := by
  obtain ⟨spare, rfl⟩ := Nat.exists_eq_add_of_le enough
  have skipped := scanTokens_blanks all_blank spare others other []
  rw [List.append_nil, scanTokens_nil] at skipped
  exact ⟨_, skipped, by simpa [SameKinds] using same⟩

/-- Blanks behind a text leave its tokens as they are, from whatever offset they are counted. -/
theorem scanTokens_append {fuel : Nat} {back tokens : List Token} {offset : Nat}
    {text : List Char} (read : scanTokens fuel back offset text = .ok tokens)
    (enough : text.length ≤ fuel) {more : Nat} (more_enough : (text ++ blanks).length ≤ more)
    {others : List Token} (same : SameKinds back others) (other : Nat) :
    ∃ found, scanTokens more others other (text ++ blanks) = .ok found ∧
      SameKinds tokens found := by
  induction fuel generalizing back offset text more others other with
  | zero =>
    obtain rfl : text = [] := List.length_eq_zero_iff.mp (Nat.le_zero.mp enough)
    cases read
    exact scanTokens_onlyBlanks all_blank more_enough same other
  | succ fuel of_fuel =>
    cases text with
    | nil =>
      cases read
      exact scanTokens_onlyBlanks all_blank more_enough same other
    | cons c rest =>
      obtain ⟨more, rfl⟩ := Nat.exists_eq_add_of_le' (Nat.le_trans (by simp) more_enough : 1 ≤ more)
      have rest_enough : rest.length ≤ fuel := Nat.le_of_succ_le_succ enough
      have rest_more : (rest ++ blanks).length ≤ more := Nat.le_of_succ_le_succ more_enough
      rw [scanTokens] at read
      rw [List.cons_append, scanTokens]
      split
      · rename_i blank
        rw [if_pos blank] at read
        exact of_fuel read rest_enough rest_more same _
      · rename_i solid
        rw [if_neg solid] at read
        split at read
        · cases read
        · rename_i kind taken after scanned
          have shorter := scanToken_shortens scanned
          have again : scanToken other (c :: (rest ++ blanks)) = .ok (kind, taken, after ++ blanks) :=
            scanToken_append all_blank scanned other
          rw [again]
          refine of_fuel read (Nat.le_trans shorter rest_enough) ?_ ?_ _
          · rw [List.length_append] at rest_more ⊢
            omega
          · simpa [SameKinds] using same

end Scanning

section Reading

/-- Two readers that find the same formula in tokens of the same kinds. -/
def ReadsAlike (reader other : List Token → Reading Formula) : Prop :=
  ∀ ⦃tokens others : List Token⦄ ⦃formula : Formula⦄ ⦃rest : List Token⦄, SameKinds tokens others →
    reader tokens = .ok (formula, rest) →
      ∃ left, other others = .ok (formula, left) ∧ SameKinds rest left

theorem SameKinds.cons {token : Token} {rest others : List Token}
    (same : SameKinds (token :: rest) others) :
    ∃ offset left, others = ⟨offset, token.kind⟩ :: left ∧ SameKinds rest left := by
  cases others with
  | nil => cases same
  | cons other left =>
    obtain ⟨offset, kind⟩ := other
    simp only [SameKinds, List.map_cons, List.cons.injEq] at same
    exact ⟨offset, left, by rw [same.1], same.2⟩

theorem SameKinds.nil {others : List Token} (same : SameKinds [] others) : others = [] := by
  simpa [SameKinds] using same.symm

variable {reader other : List Token → Reading Formula} (alike : ReadsAlike reader other)
include alike

theorem links_alike {α : Type} (link? : Operator → Option α) {bound : Nat}
    {back links_found : List (α × Formula)} {tokens others rest : List Token}
    (same : SameKinds tokens others)
    (read : links link? reader bound back tokens = .ok (links_found, rest)) :
    ∃ left, links link? other bound back others = .ok (links_found, left) ∧
      SameKinds rest left := by
  induction bound generalizing back tokens others with
  | zero =>
    cases read
    exact ⟨others, rfl, same⟩
  | succ bound of_bound =>
    unfold links at read ⊢
    cases tokens with
    | nil =>
      cases read
      rw [same.nil]
      exact ⟨[], rfl, rfl⟩
    | cons token after =>
      obtain ⟨start, kind⟩ := token
      obtain ⟨offset, left, rfl, after_same⟩ := same.cons
      cases kind with
      | number value =>
        cases read
        exact ⟨_, rfl, same⟩
      | name text =>
        cases read
        exact ⟨_, rfl, same⟩
      | operator op =>
        simp only at read ⊢
        cases linked : link? op with
        | none =>
          simp only [linked] at read
          cases read
          exact ⟨_, rfl, same⟩
        | some link =>
          simp only [linked] at read ⊢
          split at read
          · rename_i value further found
            obtain ⟨left, other_found, further_same⟩ := alike after_same found
            rw [other_found]
            exact of_bound further_same read
          · cases read

theorem readChain_alike {α : Type} (link? : Operator → Option α)
    (node : Formula → List (α × Formula) → Formula) (bound : Nat) :
    ReadsAlike (readChain link? node bound reader) (readChain link? node bound other) := by
  intro tokens others formula rest same read
  unfold readChain at read ⊢
  split at read
  · cases read
  · rename_i first after found
    obtain ⟨left, other_found, after_same⟩ := alike same found
    rw [other_found]
    simp only
    split at read
    · cases read
    · rename_i further linked
      obtain ⟨left, other_linked, further_same⟩ := links_alike alike _ after_same linked
      cases read
      rw [other_linked]
      exact ⟨left, rfl, further_same⟩
    · rename_i link more further linked
      obtain ⟨left, other_linked, further_same⟩ := links_alike alike _ after_same linked
      cases read
      rw [other_linked]
      exact ⟨left, rfl, further_same⟩

theorem readSum_alike (bound : Nat) :
    ReadsAlike (readSum bound reader) (readSum bound other) := by
  have products : ReadsAlike (readProduct bound reader) (readProduct bound other) := by
    rw [readProduct_eq, readProduct_eq]
    exact readChain_alike alike Operator.scaling? .product bound
  rw [readSum_eq, readSum_eq]
  exact readChain_alike products Operator.joining? .sum bound

theorem readAtom_alike (bound : Nat) :
    ReadsAlike (readAtom bound reader) (readAtom bound other) := by
  intro tokens others formula rest same read
  unfold readAtom at read ⊢
  split at read
  · cases read
  · cases read
    obtain ⟨offset, left, rfl, rest_same⟩ := same.cons
    exact ⟨left, rfl, rest_same⟩
  · cases read
    obtain ⟨offset, left, rfl, rest_same⟩ := same.cons
    exact ⟨left, rfl, rest_same⟩
  · obtain ⟨offset, left, rfl, rest_same⟩ := same.cons
    simp only
    split at read
    · cases read
    · rename_i inner start after found
      cases read
      obtain ⟨left, other_found, after_same⟩ := readSum_alike alike bound rest_same found
      obtain ⟨offset, left, rfl, rest_same⟩ := after_same.cons
      rw [other_found]
      exact ⟨left, rfl, rest_same⟩
    · cases read
  · cases read

theorem readPower_alike (bound : Nat) :
    ReadsAlike (readPower bound reader) (readPower bound other) := by
  intro tokens others formula rest same read
  unfold readPower at read ⊢
  split at read
  · rename_i base start after found
    obtain ⟨left, other_found, after_same⟩ := readAtom_alike alike bound same found
    obtain ⟨offset, left, rfl, exponent_same⟩ := after_same.cons
    rw [other_found]
    simp only
    split at read
    · rename_i exponent further raised
      obtain ⟨left, other_raised, further_same⟩ := alike exponent_same raised
      cases read
      rw [other_raised]
      exact ⟨left, rfl, further_same⟩
    · cases read
  · rename_i no_power
    obtain ⟨left, other_found, rest_same⟩ := readAtom_alike alike bound same read
    rw [other_found]
    refine ⟨left, ?_, rest_same⟩
    split
    · rename_i raised
      cases raised
      obtain ⟨offset, after, rfl, _⟩ := SameKinds.cons rest_same.symm
      exact absurd read (no_power _ _ _)
    · rfl

omit alike in
theorem readOperand_alike (bound levels : Nat) :
    ReadsAlike (readOperand bound levels) (readOperand bound levels) := by
  induction levels with
  | zero =>
    intro tokens others formula rest same read
    cases read
  | succ levels of_levels =>
    intro tokens others formula rest same read
    unfold readOperand at read ⊢
    split at read
    · obtain ⟨offset, left, rfl, after_same⟩ := same.cons
      simp only
      split at read
      · rename_i inner further found
        obtain ⟨left, other_found, further_same⟩ := of_levels after_same found
        cases read
        rw [other_found]
        exact ⟨left, rfl, further_same⟩
      · cases read
    · obtain ⟨offset, left, rfl, after_same⟩ := same.cons
      exact of_levels after_same read
    · rename_i no_minus no_plus
      split
      · obtain ⟨offset, after, rfl, _⟩ := SameKinds.cons same.symm
        exact absurd rfl (no_minus _ _)
      · obtain ⟨offset, after, rfl, _⟩ := SameKinds.cons same.symm
        exact absurd rfl (no_plus _ _)
      · exact readPower_alike of_levels bound same read

omit alike in
theorem ofTokens_alike {tokens others : List Token} {formula : Formula}
    (same : SameKinds tokens others) (read : ofTokens tokens = .ok formula) :
    ofTokens others = .ok formula := by
  have equally_long : others.length = tokens.length := by
    simpa using congrArg List.length same.symm
  unfold ofTokens at read ⊢
  rw [equally_long]
  split at read
  · rename_i found whole
    obtain ⟨left, other_found, nothing_left⟩ :=
      readSum_alike (readOperand_alike tokens.length nestingLimit) tokens.length same whole
    cases read
    rw [other_found, nothing_left.nil]
  · cases read
  · cases read

end Reading

/-- A text with blanks around it is read as the formula that it is without them. -/
theorem read_of_trimmed {text : String} {formula : Formula}
    (trimmed_read : read (Text.trimmed text) = .ok formula) : read text = .ok formula := by
  obtain ⟨front, back, front_blank, back_blank, split⟩ := Text.trim_split text.toList
  unfold read at trimmed_read ⊢
  split at trimmed_read
  · cases trimmed_read
  · rename_i found scanned
    split at trimmed_read
    · rename_i whole
      cases trimmed_read
      unfold tokens at scanned
      rw [Text.trimmed, String.toList_ofList] at scanned
      have behind : ∃ others,
          scanTokens (Text.trim text.toList ++ back).length [] (Text.byteSize front)
            (Text.trim text.toList ++ back) = .ok others ∧ SameKinds found others :=
        scanTokens_append back_blank scanned (Nat.le_refl _) (Nat.le_refl _) rfl _
      obtain ⟨others, others_scanned, same⟩ := behind
      have around : tokens text = .ok others := by
        rw [← Nat.zero_add (Text.byteSize front), ← scanTokens_blanks front_blank,
          ← List.length_append, ← split] at others_scanned
        exact others_scanned
      simp only [around, ofTokens_alike same whole]
    · cases trimmed_read

end Tabletop.Payload.Formula
