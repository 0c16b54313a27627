import Tabletop.Proofs.Script.Cut
import Mathlib.Data.List.DropRight

/-!
Nothing of a text is lost when it is cut into tokens. The characters of the tokens and what stands
between them are the text again; between two tokens and behind the last there are blanks and whole
comments only; and the places that tokens and substitutions record are counted from the characters
before them.
-/

namespace Tabletop.Script

/-! ## Places -/

/-- The place behind a text that begins at a place. A newline begins a line, and columns count the
characters of a line. -/
def Position.behind (place : Position) (text : List Char) : Position where
  line := place.line + text.count '\n'
  column :=
    if '\n' ∈ text then (text.rtakeWhile (· ≠ '\n')).length + 1 else place.column + text.length

namespace Position

theorem behind_concat (place : Position) (text : List Char) (c : Char) :
    place.behind (text ++ [c]) = (place.behind text).advance c := by
  unfold behind advance
  by_cases newline : c = '\n'
  · subst newline
    simp [Nat.add_assoc]
  · have counted : (text ++ [c]).count '\n' = text.count '\n' := by
      rw [List.count_append, List.count_singleton, beq_eq_false_iff_ne.mpr newline]
      rfl
    have member : '\n' ∈ text ++ [c] ↔ '\n' ∈ text := by
      simp [Ne.symm newline]
    have behind_newline : (text ++ [c]).rtakeWhile (· ≠ '\n') = text.rtakeWhile (· ≠ '\n') ++ [c] :=
      List.rtakeWhile_concat_pos _ _ _ (decide_eq_true newline)
    rw [if_neg newline, counted, behind_newline]
    simp only [member, List.length_append, List.length_singleton]
    split
    · rfl
    · rw [Nat.add_assoc]

theorem after_eq_behind (place : Position) (text : List Char) :
    place.after text = place.behind text := by
  induction text using List.reverseRecOn with
  | nil => rfl
  | append_singleton text c of_text =>
    rw [after_append, of_text, behind_concat]
    rfl

theorem behind_append (place : Position) (text more : List Char) :
    (place.behind text).behind more = place.behind (text ++ more) := by
  simp only [← after_eq_behind, after_append]

end Position

/-! ## Gaps -/

/-- Neither a blank nor a comment begins a text. -/
structure Solid (text : List Char) : Prop where
  no_blank : ∀ c ∈ text.head?, ¬ Text.isBlank c
  no_line : ¬ ['/', '/'] <+: text
  no_block : ¬ ['/', '*'] <+: text

/-- What stands before a text is all blanks and comments. A line comment goes up to its newline, or up
to the end where nothing follows; a block comment goes up to the first mark that closes it. -/
inductive IsGap : (gap rest : List Char) → Prop where
  | nil {rest : List Char} (solid : Solid rest) : IsGap [] rest
  | blank {c : Char} {gap rest : List Char} (is_blank : Text.isBlank c) (others : IsGap gap rest) :
    IsGap (c :: gap) rest
  | line {comment gap rest : List Char} (one_line : '\n' ∉ comment) (others : IsGap gap rest) :
    IsGap ('/' :: '/' :: (comment ++ '\n' :: gap)) rest
  | lastLine {comment : List Char} (one_line : '\n' ∉ comment) :
    IsGap ('/' :: '/' :: comment) []
  | block {comment gap rest : List Char} (open_before : ¬ ['*', '/'] <:+: comment)
    (others : IsGap gap rest) : IsGap ('/' :: '*' :: (comment ++ '*' :: '/' :: gap)) rest

section

variable {text taken : List Char} {place : Position} {cursor : Cursor}

theorem solid_nil : Solid [] where
  no_blank := nofun
  no_line := by decide
  no_block := by decide

theorem solid_singleton {c : Char} (no_blank : ¬ Text.isBlank c) : Solid [c] where
  no_blank := by simpa using no_blank
  no_line := by simp
  no_block := by simp

theorem solid_cons {c second : Char} {after : List Char} (no_blank : ¬ Text.isBlank c)
    (no_line : ¬ (c = '/' ∧ second = '/')) (no_block : ¬ (c = '/' ∧ second = '*')) :
    Solid (c :: second :: after) where
  no_blank := by simpa using no_blank
  no_line := by simpa [eq_comm] using no_line
  no_block := by simpa [eq_comm] using no_block

theorem skipGap_inLine (c : Char) (rest : List Char) (place : Position) :
    skipGap .inLine (c :: rest) place =
      if c = '\n' then skipGap .between rest (place.advance c)
      else skipGap .inLine rest (place.advance c) := by
  rw [← apply_ite fun gap => skipGap gap rest (place.advance c)]
  rfl

theorem skipGap_inLine_cases (skipped : skipGap .inLine text place = .ok cursor) :
    ∃ comment, '\n' ∉ comment ∧ (text = comment ∧ cursor.rest = [] ∨
      ∃ rest start, text = comment ++ '\n' :: rest ∧ skipGap .between rest start = .ok cursor) := by
  induction text generalizing place with
  | nil => exact ⟨[], List.not_mem_nil, .inl ⟨rfl, skipGap_nil_rest skipped⟩⟩
  | cons c rest of_rest =>
    rw [skipGap_inLine] at skipped
    split at skipped
    · rename_i newline
      subst newline
      exact ⟨[], List.not_mem_nil, .inr ⟨rest, _, rfl, skipped⟩⟩
    · rename_i no_newline
      obtain ⟨comment, one_line, goes_on⟩ := of_rest skipped
      refine ⟨c :: comment, by simp [Ne.symm no_newline, one_line], ?_⟩
      refine goes_on.imp (And.imp_left (congrArg (c :: ·))) ?_
      exact Exists.imp fun rest => Exists.imp fun start => And.imp_left (congrArg (c :: ·))

theorem skipGap_inBlock_cases (skipped : skipGap .inBlock text place = .ok cursor) :
    ∃ comment rest start, ¬ ['*', '/'] <:+: comment ∧ text = comment ++ '*' :: '/' :: rest ∧
      skipGap .between rest start = .ok cursor := by
  induction text generalizing place with
  | nil => cases skipped
  | cons c rest of_rest =>
    cases rest with
    | nil => cases skipped
    | cons second after =>
      rw [skipGap_inBlock] at skipped
      split at skipped
      · rename_i closes
        obtain ⟨rfl, rfl⟩ := closes
        exact ⟨[], after, _, by decide, rfl, skipped⟩
      · rename_i no_close
        obtain ⟨comment, rest, start, open_before, is_text, skipped⟩ := of_rest skipped
        refine ⟨c :: comment, rest, start, ?_, congrArg (c :: ·) is_text, skipped⟩
        rw [List.infix_cons_iff]
        rintro (⟨others, begins⟩ | inside)
        · obtain ⟨rfl, is_comment⟩ := List.cons.inj begins
          rw [← is_comment] at is_text
          exact no_close ⟨rfl, (List.cons.inj is_text).1⟩
        · exact open_before inside

theorem isGap_of_skipGap (skipped : skipGap .between text place = .ok cursor) :
    ∃ gap, text = gap ++ cursor.rest ∧ IsGap gap cursor.rest := by
  induction length : text.length using Nat.strong_induction_on generalizing text place with
  | h n of_shorter =>
    subst length
    match text with
    | [] =>
      rw [skipGap_nil_rest skipped]
      exact ⟨[], rfl, .nil solid_nil⟩
    | [c] =>
      rw [skipGap_between_last] at skipped
      split at skipped
      · rename_i is_blank
        rw [skipGap_nil_rest skipped]
        exact ⟨[c], rfl, .blank is_blank (.nil solid_nil)⟩
      · rename_i no_blank
        cases skipped
        exact ⟨[], rfl, .nil (solid_singleton no_blank)⟩
    | c :: second :: after =>
      rw [skipGap_between] at skipped
      split at skipped
      · rename_i is_blank
        obtain ⟨gap, is_text, is_gap⟩ := of_shorter _ (Nat.lt_succ_self _) skipped rfl
        exact ⟨c :: gap, congrArg (c :: ·) is_text, .blank is_blank is_gap⟩
      split at skipped
      · rename_i opens
        obtain ⟨rfl, rfl⟩ := opens
        obtain ⟨comment, one_line, ⟨rfl, ended⟩ | ⟨rest, start, rfl, behind⟩⟩ :=
          skipGap_inLine_cases skipped
        · rw [ended]
          exact ⟨_, (List.append_nil _).symm, .lastLine one_line⟩
        · obtain ⟨gap, rfl, is_gap⟩ := of_shorter rest.length (by simp; omega) behind rfl
          exact ⟨_, by simp, .line one_line is_gap⟩
      split at skipped
      · rename_i opens
        obtain ⟨rfl, rfl⟩ := opens
        obtain ⟨comment, rest, start, open_before, rfl, behind⟩ := skipGap_inBlock_cases skipped
        obtain ⟨gap, rfl, is_gap⟩ := of_shorter rest.length (by simp; omega) behind rfl
        exact ⟨_, by simp, .block open_before is_gap⟩
      · rename_i no_blank no_line no_block
        cases skipped
        exact ⟨[], rfl, .nil (solid_cons no_blank no_line no_block)⟩

theorem skipGap_passes (skipped : skipGap .between text place = .ok cursor) :
    ∃ gap, Takes text place gap cursor ∧ IsGap gap cursor.rest := by
  obtain ⟨taken, takes⟩ := skipGap_takes skipped
  obtain ⟨gap, is_text, is_gap⟩ := isGap_of_skipGap skipped
  obtain rfl : gap = taken := List.append_cancel_right (is_text.symm.trans takes.1)
  exact ⟨gap, takes, is_gap⟩

/-! ## Tokens -/

/-- Characters as they are written up to an end mark, a backslash before some, and what they stand for. -/
inductive Written (ends : Char) : (written value : List Char) → Prop where
  | nil : Written ends [] []
  | escape (letter : Char) {written value : List Char} (others : Written ends written value) :
    Written ends ('\\' :: letter :: written) (unescaped letter :: value)
  | plain {c : Char} {written value : List Char} (no_escape : c ≠ '\\') (no_end : c ≠ ends)
    (others : Written ends written value) : Written ends (c :: written) (c :: value)

theorem Written.append {ends : Char} {written value more others : List Char}
    (front : Written ends written value) (back : Written ends more others) :
    Written ends (written ++ more) (value ++ others) := by
  induction front with
  | nil => exact back
  | escape letter _ of_others => exact .escape letter of_others
  | plain no_escape no_end _ of_others => exact .plain no_escape no_end of_others

theorem scanString_written {quote : Char} {back : List Char} {kind : TokenKind}
    (scanned : scanString quote back text place = .ok (kind, cursor)) :
    ∃ written value, text = written ++ quote :: cursor.rest ∧ Written quote written value ∧
      kind = .string (String.ofList (back.reverse ++ value)) := by
  fun_induction scanString quote back text place with
  | case1 | case2 | case5 => cases scanned
  | case3 back place letter after of_rest =>
    obtain ⟨written, value, rfl, is_written, rfl⟩ := of_rest scanned
    exact ⟨_, _, rfl, .escape letter is_written, by simp⟩
  | case4 back rest place _ =>
    cases scanned
    exact ⟨[], [], rfl, .nil, by rw [List.append_nil]⟩
  | case6 back c rest place no_escape no_quote _ of_rest =>
    obtain ⟨written, value, rfl, is_written, rfl⟩ := of_rest scanned
    exact ⟨_, _, rfl, .plain no_escape no_quote is_written, by simp⟩

/-- The characters of the parts of a template, one part behind the other from a place on. -/
inductive PartsWritten : Position → List Char → List TemplatePart → Prop where
  | nil (place : Position) : PartsWritten place [] []
  | text {place : Position} {written value rest : List Char} {parts : List TemplatePart}
    (is_written : Written backtick written value) (not_empty : value ≠ [])
    (others : PartsWritten (place.behind written) rest parts) :
    PartsWritten place (written ++ rest) (.text value :: parts)
  | code {place start : Position} {source rest : List Char} {parts : List TemplatePart}
    (starts : start = place.behind ['$', openBrace]) (matched : Matched source)
    (others : PartsWritten (start.behind (source ++ [closeBrace])) rest parts) :
    PartsWritten place ('$' :: openBrace :: (source ++ closeBrace :: rest)) (.code source start :: parts)

section

variable {parts more whole : List TemplatePart} {back written rest : List Char}

/-- The text before a substitution, or before the end of a template, is a part if there is any. -/
theorem partsWritten_closeText (is_written : Written backtick written back.reverse)
    (others : PartsWritten (place.behind written) rest more) :
    ∃ all, PartsWritten place (written ++ rest) all ∧
      more.reverse ++ closeText parts back = all.reverse ++ parts := by
  unfold closeText
  split
  · rename_i is_empty
    rw [List.isEmpty_iff.mp is_empty] at is_written
    cases is_written
    exact ⟨more, others, rfl⟩
  · rename_i not_empty
    rw [List.isEmpty_iff, ← List.reverse_eq_nil_iff] at not_empty
    exact ⟨_, .text is_written not_empty others, by simp⟩

theorem TemplateBody.partsWritten {here : Position} (body : TemplateBody parts back here rest whole)
    (is_written : Written backtick written back.reverse) (is_here : here = place.behind written) :
    ∃ taken all, rest = taken ++ [backtick] ∧ PartsWritten place (written ++ taken) all ∧
      whole = all.reverse ++ parts := by
  induction body generalizing place written with
  | ends parts back here =>
    obtain ⟨all, all_written, same⟩ := partsWritten_closeText is_written (.nil _)
    exact ⟨[], all, rfl, all_written, same⟩
  | @escape _ _ here back _ letter _ of_others =>
    have longer : Written backtick (written ++ ['\\', letter]) (unescaped letter :: back).reverse := by
      rw [List.reverse_cons]
      exact is_written.append (.escape letter .nil)
    have next_place : (here.advance '\\').advance letter = place.behind (written ++ ['\\', letter]) := by
      rw [is_here, ← place.behind_concat, ← place.behind_concat, List.append_assoc]
      rfl
    obtain ⟨taken, all, rfl, all_written, rfl⟩ := of_others longer next_place
    exact ⟨'\\' :: letter :: taken, all, rfl, by simpa using all_written, rfl⟩
  | @plain _ _ here back _ c no_end no_escape _ of_others =>
    have longer : Written backtick (written ++ [c]) (c :: back).reverse := by
      rw [List.reverse_cons]
      exact is_written.append (.plain no_escape no_end .nil)
    have next_place : here.advance c = place.behind (written ++ [c]) := by
      rw [is_here, place.behind_concat]
    obtain ⟨taken, all, rfl, all_written, rfl⟩ := of_others longer next_place
    exact ⟨c :: taken, all, rfl, by simpa using all_written, rfl⟩
  | @substitution _ _ here start back source _ starts matched _ of_others =>
    have next_place : (start.after source).advance closeBrace =
        (start.behind (source ++ [closeBrace])).behind [] := by
      rw [start.behind_concat, start.after_eq_behind]
      rfl
    obtain ⟨taken, behind, rfl, behind_written, rfl⟩ := of_others .nil next_place
    have here_starts : start = (place.behind written).behind ['$', openBrace] := by
      rw [starts, is_here, ← Position.after_eq_behind _ ['$', openBrace]]
      rfl
    obtain ⟨all, all_written, same⟩ :=
      partsWritten_closeText is_written (.code here_starts matched behind_written)
    refine ⟨'$' :: openBrace :: (source ++ closeBrace :: taken), all, by simp, all_written, ?_⟩
    rw [← same, List.reverse_cons, List.append_assoc]
    rfl

/-- The place that a substitution records is that of its first character. -/
theorem PartsWritten.substitution {source : List Char} {start : Position}
    (are_written : PartsWritten place text parts) (is_one : .code source start ∈ parts) :
    ∃ front behind, text = front ++ '$' :: openBrace :: (source ++ closeBrace :: behind) ∧
      start = place.behind (front ++ ['$', openBrace]) := by
  induction are_written with
  | nil => cases is_one
  | @text _ written _ _ _ _ _ _ of_others =>
    obtain ⟨front, behind, rfl, rfl⟩ := of_others ((List.mem_cons.mp is_one).resolve_left nofun)
    exact ⟨written ++ front, behind, by simp, by rw [Position.behind_append, List.append_assoc]⟩
  | @code place start' source' rest _ starts _ _ of_others =>
    rcases List.mem_cons.mp is_one with same | is_one
    · cases same
      exact ⟨[], rest, rfl, starts⟩
    · obtain ⟨front, behind, rfl, rfl⟩ := of_others is_one
      refine ⟨'$' :: openBrace :: (source' ++ closeBrace :: front), behind, by simp, ?_⟩
      rw [starts, Position.behind_append, Position.behind_append]
      simp

end

/-- The longest punctuator that begins a text. -/
def LongestPunctuator (p : String) (text : List Char) : Prop :=
  p ∈ punctuators ∧ p.toList <+: text ∧
    ∀ other ∈ punctuators, other.toList <+: text → other.length ≤ p.length

/-- As longer punctuators are tried before shorter ones, the first that fits is the longest. -/
theorem longestPunctuator_of_find?_eq_some {p : String}
    (found : punctuators.find? (fun p => p.toList.isPrefixOf text) = some p) :
    LongestPunctuator p text := by
  have sorted : punctuators.Pairwise fun p other => other.length ≤ p.length := by decide
  obtain ⟨begins, front, behind, whole, none_before⟩ := List.find?_eq_some_iff_append.mp found
  refine ⟨List.mem_of_find?_eq_some found, List.isPrefixOf_iff_prefix.mp begins, ?_⟩
  intro other is_one other_begins
  rw [whole] at is_one sorted
  rcases List.mem_append.mp is_one with is_before | is_behind
  · have fails := none_before other is_before
    rw [List.isPrefixOf_iff_prefix.mpr other_begins] at fails
    cases fails
  · rcases List.mem_cons.mp is_behind with rfl | is_behind
    · exact le_rfl
    · exact (List.pairwise_cons.mp (List.pairwise_append.mp sorted).2.1).1 other is_behind

/-- What the characters of a token at a place say. -/
def TokenKind.SaidBy (place : Position) (spelling : List Char) : TokenKind → Prop
  | .number value => Number.readFloat? spelling = some value
  | .word name => spelling = name.toList
  | .string value => ∃ quote written, (quote = '"' ∨ quote = '\'') ∧
    spelling = quote :: (written ++ [quote]) ∧ Written quote written value.toList
  | .template parts => ∃ written, spelling = backtick :: (written ++ [backtick]) ∧
    PartsWritten (place.behind [backtick]) written parts
  | .punctuator p => spelling = p.toList

theorem scanPunctuator_says {kind : TokenKind}
    (scanned : scanPunctuator text place = .ok (kind, cursor)) :
    ∃ taken, Takes text place taken cursor ∧ kind.SaidBy place taken ∧
      ∀ p, kind = .punctuator p → LongestPunctuator p text := by
  obtain ⟨p, -, takes, rfl⟩ := scanPunctuator_takes scanned
  refine ⟨_, takes, rfl, fun _ same => ?_⟩
  cases same
  unfold scanPunctuator at scanned
  split at scanned
  · rename_i found
    cases scanned
    exact longestPunctuator_of_find?_eq_some found
  · cases scanned

theorem scanKind_says {kind : TokenKind} (scanned : scanKind text place = .ok (kind, cursor)) :
    ∃ taken, Takes text place taken cursor ∧ kind.SaidBy place taken ∧
      ∀ p, kind = .punctuator p → LongestPunctuator p text := by
  unfold scanKind at scanned
  split at scanned
  · dsimp only at scanned
    split at scanned
    · rename_i value read
      cases scanned
      exact ⟨_, ⟨(numberText_append false text).symm, rfl⟩, read, by simp⟩
    · cases scanned
  · split at scanned
    · rename_i c rest _
      split at scanned
      · rw [List.span_eq_takeWhile_dropWhile] at scanned
        cases scanned
        exact ⟨_, ⟨List.takeWhile_append_dropWhile.symm, rfl⟩, String.toList_ofList.symm, by simp⟩
      split at scanned
      · rename_i is_quote
        obtain ⟨taken, takes, -⟩ := scanString_takes scanned
        obtain ⟨written, value, is_text, is_written, rfl⟩ := scanString_written scanned
        have is_taken : taken = written ++ [c] := by
          rw [takes.1, ← List.singleton_append, ← List.append_assoc] at is_text
          exact List.append_cancel_right is_text
        refine ⟨_, takes.cons, ⟨c, written, is_quote, congrArg (c :: ·) is_taken, ?_⟩, by simp⟩
        rwa [String.toList_ofList]
      split at scanned
      · rename_i is_backtick
        subst is_backtick
        obtain ⟨taken, whole, takes, body, rfl⟩ := scanTemplate_takes scanned
        have first_place : place.advance backtick = (place.behind [backtick]).behind [] :=
          (place.behind_concat [] backtick).symm
        obtain ⟨written, parts, rfl, are_written, rfl⟩ := body.partsWritten .nil first_place
        refine ⟨_, takes.cons, ⟨written, rfl, ?_⟩, by simp⟩
        rwa [List.append_nil, List.reverse_reverse]
      · exact scanPunctuator_says scanned
    · exact scanPunctuator_says scanned

/-! ## Whole texts -/

/-- The characters of a lexeme and what stands before it. -/
def Lexeme.characters (lexeme : Lexeme) : List Char := lexeme.gap ++ lexeme.spelling

/-- A lexeme of a text that begins at a place, with what stands before and behind it in the text. -/
structure Lexeme.Accounted (place : Position) (before : List Char) (lexeme : Lexeme)
    (rest : List Char) : Prop where
  gap : IsGap lexeme.gap (lexeme.spelling ++ rest)
  not_empty : lexeme.spelling ≠ []
  position : lexeme.token.position = place.behind (before ++ lexeme.gap)
  said : lexeme.token.kind.SaidBy lexeme.token.position lexeme.spelling
  substitutions : ∀ parts source start, lexeme.token.kind = .template parts →
    .code source start ∈ parts →
      ∃ front behind, lexeme.spelling = front ++ '$' :: openBrace :: (source ++ closeBrace :: behind) ∧
        start = place.behind (before ++ lexeme.gap ++ front ++ ['$', openBrace])
  longest : ∀ p, lexeme.token.kind = .punctuator p → LongestPunctuator p (lexeme.spelling ++ rest)

/-- The tokens of a text that begins at a place, with all the characters of the text. -/
structure TokenStream.Accounts (stream : TokenStream) (text : List Char) (place : Position)
    (lexemes : List Lexeme) (last : List Char) : Prop where
  whole : text = lexemes.flatMap Lexeme.characters ++ last
  tokens : stream.tokens = lexemes.map Lexeme.token
  finish : stream.finish = place.behind text
  ends : IsGap last []
  each : ∀ front lexeme others, lexemes = front ++ lexeme :: others →
    lexeme.Accounted place (front.flatMap Lexeme.characters) (others.flatMap Lexeme.characters ++ last)

theorem Lexeme.Accounted.later {before front rest : List Char} {lexeme : Lexeme}
    (accounted : lexeme.Accounted (place.behind front) before rest) :
    lexeme.Accounted place (front ++ before) rest where
  gap := accounted.gap
  not_empty := accounted.not_empty
  position := by rw [accounted.position, place.behind_append, List.append_assoc]
  said := accounted.said
  substitutions parts source start is_template is_one := by
    obtain ⟨before', behind, spelled, starts⟩ :=
      accounted.substitutions parts source start is_template is_one
    refine ⟨before', behind, spelled, ?_⟩
    rw [starts, place.behind_append]
    simp only [List.append_assoc]
  longest := accounted.longest

theorem accounted_of_scanKind {gap spelling rest : List Char} {token : Token}
    (skipped : skipGap .between (gap ++ (spelling ++ rest)) place = .ok ⟨spelling ++ rest, token.position⟩)
    (scanned : scanKind (spelling ++ rest) token.position =
      .ok (token.kind, ⟨rest, token.position.after spelling⟩)) :
    Lexeme.Accounted place [] ⟨gap, spelling, token⟩ rest := by
  obtain ⟨passed, ⟨is_text, is_place⟩, is_gap⟩ := skipGap_passes skipped
  obtain rfl : gap = passed := List.append_cancel_right is_text
  obtain ⟨taken, ⟨is_text, -⟩, said, longest⟩ := scanKind_says scanned
  obtain rfl : spelling = taken := List.append_cancel_right is_text
  obtain ⟨taken, ⟨is_text, -⟩, not_empty, -⟩ := scanKind_takes scanned
  obtain rfl : spelling = taken := List.append_cancel_right is_text
  change token.position = _ at is_place
  rw [place.after_eq_behind] at is_place
  refine ⟨is_gap, not_empty, is_place, said, ?_, longest⟩
  intro parts source start is_template is_one
  rw [is_template] at said
  obtain ⟨written, rfl, are_written⟩ := said
  obtain ⟨front, behind, rfl, starts⟩ := are_written.substitution is_one
  refine ⟨backtick :: front, behind ++ [backtick], by simp, ?_⟩
  rw [starts, is_place, Position.behind_append, Position.behind_append]
  simp

/-- Each lexeme of a cut is accounted for, the later ones from behind the earlier. -/
theorem Cut.accounts {lexemes : List Lexeme} {last : List Char} (cut : Cut text place lexemes last) :
    text = lexemes.flatMap Lexeme.characters ++ last ∧ IsGap last [] ∧
      ∀ front lexeme others, lexemes = front ++ lexeme :: others →
        lexeme.Accounted place (front.flatMap Lexeme.characters)
          (others.flatMap Lexeme.characters ++ last) := by
  induction cut with
  | last skipped =>
    obtain ⟨gap, ⟨is_text, -⟩, is_gap⟩ := skipGap_passes skipped
    rw [List.append_nil] at is_text
    subst is_text
    exact ⟨rfl, is_gap, fun front _ _ none => by simp at none⟩
  | @lexeme gap spelling rest last token others place skipped scanned _ _ of_cut =>
    obtain ⟨is_rest, is_gap, each⟩ := of_cut
    have accounted := accounted_of_scanKind skipped scanned
    have is_place : token.position.after spelling = place.behind (gap ++ spelling) := by
      rw [accounted.position, List.nil_append, Position.after_eq_behind, place.behind_append]
    refine ⟨by simp [is_rest, Lexeme.characters], is_gap, ?_⟩
    rintro (_ | ⟨first, front⟩) lexeme behind whole
    · cases whole
      rw [← is_rest]
      exact accounted
    · obtain ⟨rfl, rfl⟩ := List.cons.inj whole
      rw [is_place] at each
      exact (each front lexeme behind rfl).later

theorem finish_of_scanTokens {fuel : Nat} {back : List Token} {stream : TokenStream}
    (enough : text.length < fuel) (scanned : scanTokens fuel back text place = .ok stream) :
    stream.finish = place.after text := by
  obtain ⟨-, -, -, -, finish⟩ := cut_of_scanTokens enough scanned
  exact finish

/-- A text that gives tokens, a program or a substitution in its place, is accounted for by them. -/
theorem TokenStream.accounts_of_text {stream : TokenStream}
    (scanned : TokenStream.ofTextAt text place = .ok stream) :
    ∃ lexemes last, stream.Accounts text place lexemes last := by
  obtain ⟨lexemes, last, cut, tokens⟩ := cut_of_tokens scanned
  obtain ⟨whole, is_gap, each⟩ := cut.accounts
  have finish := finish_of_scanTokens (Nat.lt_succ_self _) scanned
  rw [place.after_eq_behind] at finish
  exact ⟨lexemes, last, whole, tokens, finish, is_gap, each⟩

/-- Comments, a newline, punctuators without a blank between them and a substitution. -/
def commentedText : List Char := "a /* b */\n>== \x60c$\x7bd\x7d\x60 // e".toList

theorem commented_text_accounted :
    ∃ stream, TokenStream.ofTextAt commentedText .start = .ok stream ∧
      stream.tokens.map Token.position = [⟨1, 1⟩, ⟨2, 1⟩, ⟨2, 3⟩, ⟨2, 5⟩] ∧ stream.finish = ⟨2, 17⟩ ∧
      ∃ lexemes last, stream.Accounts commentedText .start lexemes last := by
  have places : (TokenStream.ofTextAt commentedText .start).toOption.map
      (fun stream => (stream.tokens.map Token.position, stream.finish)) =
        some ([⟨1, 1⟩, ⟨2, 1⟩, ⟨2, 3⟩, ⟨2, 5⟩], ⟨2, 17⟩) := by decide +kernel
  cases scanned : TokenStream.ofTextAt commentedText .start with
  | error e =>
    rw [scanned] at places
    cases places
  | ok stream =>
    rw [scanned] at places
    obtain ⟨tokens, finish⟩ := Prod.mk.inj (Option.some.inj places)
    exact ⟨stream, rfl, tokens, finish, TokenStream.accounts_of_text scanned⟩

end
end Tabletop.Script
