import Tabletop.Script.Token.Scan
import Mathlib.Data.List.Induction
import Mathlib.Data.List.TakeDrop
import Mathlib.Data.List.TakeWhile

/-!
A text cut into tokens: what each token is made of, and what stands between one and the next. A template
is made of text, escapes and substitutions, in each of which braces and quotes match as the search for the
brace that ends it sees them.
-/

namespace Tabletop.Script

/-- A scanner has taken some characters of a text that begins at a place. -/
def Takes (text : List Char) (place : Position) (taken : List Char) (cursor : Cursor) : Prop :=
  text = taken ++ cursor.rest ∧ cursor.position = place.after taken

section

variable {text taken : List Char} {place : Position} {cursor : Cursor}

theorem takes_nil (text : List Char) (place : Position) : Takes text place [] ⟨text, place⟩ :=
  ⟨rfl, rfl⟩

theorem Takes.cons {c : Char} (takes : Takes text (place.advance c) taken cursor) :
    Takes (c :: text) place (c :: taken) cursor :=
  ⟨congrArg (c :: ·) takes.1, takes.2⟩

/-! ## Gaps -/

theorem skipGap_nil (gap : Gap) (position : Position) :
    skipGap gap [] position =
      if gap = .inBlock then failAt position .unterminatedComment else .ok ⟨[], position⟩ := rfl

theorem skipGap_inBlock (c second : Char) (after : List Char) (position : Position) :
    skipGap .inBlock (c :: second :: after) position =
      if c = '*' ∧ second = '/' then
        skipGap .between after ((position.advance c).advance second)
      else skipGap .inBlock (second :: after) (position.advance c) := rfl

theorem skipGap_between_last (c : Char) (position : Position) :
    skipGap .between [c] position =
      if Text.isBlank c then skipGap .between [] (position.advance c) else .ok ⟨[c], position⟩ := rfl

theorem skipGap_between (c second : Char) (after : List Char) (position : Position) :
    skipGap .between (c :: second :: after) position =
      if Text.isBlank c then skipGap .between (second :: after) (position.advance c)
      else if c = '/' ∧ second = '/' then
        skipGap .inLine after ((position.advance c).advance second)
      else if c = '/' ∧ second = '*' then
        skipGap .inBlock after ((position.advance c).advance second)
      else .ok ⟨c :: second :: after, position⟩ := rfl

theorem skipGap_nil_takes {gap : Gap} (skipped : skipGap gap [] place = .ok cursor) :
    Takes [] place [] cursor := by
  rw [skipGap_nil] at skipped
  split at skipped
  · cases skipped
  · cases skipped
    exact takes_nil [] place

theorem skipGap_nil_rest {gap : Gap} (skipped : skipGap gap [] place = .ok cursor) : cursor.rest = [] :=
  (skipGap_nil_takes skipped).1.symm

theorem skipGap_takes {gap : Gap} (skipped : skipGap gap text place = .ok cursor) :
    ∃ taken, Takes text place taken cursor := by
  induction text using List.twoStepInduction generalizing gap place with
  | nil => exact ⟨[], skipGap_nil_takes skipped⟩
  | singleton c =>
    cases gap with
    | inLine | inBlock => exact ⟨[c], (skipGap_nil_takes skipped).cons⟩
    | between =>
      rw [skipGap_between_last] at skipped
      split at skipped
      · exact ⟨[c], (skipGap_nil_takes skipped).cons⟩
      · cases skipped
        exact ⟨[], takes_nil [c] place⟩
  | cons_cons c second after of_after of_rest =>
    have one : ∀ {gap}, skipGap gap (second :: after) (place.advance c) = .ok cursor →
        ∃ taken, Takes (c :: second :: after) place taken cursor := fun skipped =>
      (of_rest second skipped).imp' (c :: ·) fun _ => Takes.cons
    have two : ∀ {gap}, skipGap gap after ((place.advance c).advance second) = .ok cursor →
        ∃ taken, Takes (c :: second :: after) place taken cursor := fun skipped =>
      (of_after skipped).imp' (c :: second :: ·) fun _ takes => takes.cons.cons
    cases gap with
    | inLine => exact one skipped
    | inBlock =>
      rw [skipGap_inBlock] at skipped
      split at skipped
      · exact two skipped
      · exact one skipped
    | between =>
      rw [skipGap_between] at skipped
      split at skipped
      · exact one skipped
      split at skipped
      · exact two skipped
      split at skipped
      · exact two skipped
      · cases skipped
        exact ⟨[], takes_nil _ place⟩

/-! ## Strings and templates -/

/-- The characters of a string behind its opening quote. -/
inductive StringBody (quote : Char) : List Char → Prop where
  | ends : StringBody quote [quote]
  | escape (letter : Char) {rest : List Char} (others : StringBody quote rest) :
    StringBody quote ('\\' :: letter :: rest)
  | plain {c : Char} {rest : List Char} (no_escape : c ≠ '\\') (no_quote : c ≠ quote)
    (others : StringBody quote rest) : StringBody quote (c :: rest)

theorem scanString_takes {quote : Char} {back : List Char} {kind : TokenKind}
    (scanned : scanString quote back text place = .ok (kind, cursor)) :
    ∃ taken, Takes text place taken cursor ∧ StringBody quote taken ∧ ∃ value, kind = .string value := by
  fun_induction scanString quote back text place with
  | case1 | case2 | case5 => cases scanned
  | case3 back place letter after of_rest =>
    obtain ⟨taken, takes, body, is_string⟩ := of_rest scanned
    exact ⟨_, takes.cons.cons, .escape letter body, is_string⟩
  | case4 back rest place _ =>
    cases scanned
    exact ⟨[quote], (takes_nil rest _).cons, .ends, _, rfl⟩
  | case6 back c rest place no_escape no_quote _ of_rest =>
    obtain ⟨taken, takes, body, is_string⟩ := of_rest scanned
    exact ⟨_, takes.cons, .plain no_escape no_quote body, is_string⟩

/-- Where the search for the brace that ends a substitution stands: among the code with so many braces
open, in a quotation or behind a backslash in one. -/
inductive BraceSearch where
  | code (braces : Nat)
  | quoted (braces : Nat) (quote : Char)
  | escaped (braces : Nat) (quote : Char)
  deriving DecidableEq, Repr

/-- The search goes past one character. -/
def BraceSearch.step : BraceSearch → Char → Option BraceSearch
  | code braces, c =>
    if c = openBrace then some (code (braces + 1))
    else if c = closeBrace then
      match braces with
      | 0 => none
      | outer + 1 => some (code outer)
    else if c = '"' ∨ c = '\'' ∨ c = backtick then some (quoted braces c)
    else some (code braces)
  | quoted braces quote, c =>
    if c = '\\' then some (escaped braces quote)
    else if c = quote then some (code braces)
    else some (quoted braces quote)
  | escaped braces quote, _ => some (quoted braces quote)

namespace BraceSearch

theorem step_open (braces : Nat) : step (.code braces) openBrace = some (.code (braces + 1)) := rfl

theorem step_quote {c : Char} (braces : Nat) (is_quote : c = '"' ∨ c = '\'' ∨ c = backtick) :
    step (.code braces) c = some (.quoted braces c) := by
  rcases is_quote with rfl | rfl | rfl <;> rfl

theorem step_code {c : Char} (braces : Nat) (no_open : c ≠ openBrace) (no_close : c ≠ closeBrace)
    (no_quote : ¬ (c = '"' ∨ c = '\'' ∨ c = backtick)) :
    step (.code braces) c = some (.code braces) := by
  unfold step
  simp only [if_neg no_open, if_neg no_close, if_neg no_quote]

theorem step_escape (braces : Nat) (quote : Char) :
    step (.quoted braces quote) '\\' = some (.escaped braces quote) := rfl

theorem step_letter (braces : Nat) (quote letter : Char) :
    step (.escaped braces quote) letter = some (.quoted braces quote) := rfl

theorem step_unquote {quote : Char} (braces : Nat) (no_escape : quote ≠ '\\') :
    step (.quoted braces quote) quote = some (.code braces) := by
  unfold step
  simp only [if_neg no_escape, if_pos]

theorem step_quoted {c quote : Char} (braces : Nat) (no_escape : c ≠ '\\') (no_quote : c ≠ quote) :
    step (.quoted braces quote) c = some (.quoted braces quote) := by
  unfold step
  simp only [if_neg no_escape, if_neg no_quote]

/-- The search goes past a text. -/
def run (state : BraceSearch) (text : List Char) : Option BraceSearch :=
  text.foldlM step state

theorem run_cons (state : BraceSearch) (c : Char) (rest : List Char) :
    state.run (c :: rest) = (state.step c).bind (run · rest) := List.foldlM_cons ..

theorem run_append (state : BraceSearch) (text more : List Char) :
    state.run (text ++ more) = (state.run text).bind (run · more) := List.foldlM_append ..

end BraceSearch

/-- The braces and quotes of a text match, whatever they stand in: the search gets to its end with no
brace and no quotation open. -/
def Matched (text : List Char) : Prop := BraceSearch.run (.code 0) text = some (.code 0)

/-- The rest of a template up to its end, from some finished parts and a text on: its characters, and
all its parts, last first. -/
inductive TemplateBody : List TemplatePart → List Char → Position → List Char →
    List TemplatePart → Prop where
  | ends (parts : List TemplatePart) (back : List Char) (place : Position) :
    TemplateBody parts back place [backtick] (closeText parts back)
  | escape {parts whole : List TemplatePart} {place : Position} {back rest : List Char} (letter : Char)
    (others : TemplateBody parts (unescaped letter :: back)
      ((place.advance '\\').advance letter) rest whole) :
    TemplateBody parts back place ('\\' :: letter :: rest) whole
  | plain {parts whole : List TemplatePart} {place : Position} {back rest : List Char} {c : Char}
    (no_end : c ≠ backtick) (no_escape : c ≠ '\\')
    (others : TemplateBody parts (c :: back) (place.advance c) rest whole) :
    TemplateBody parts back place (c :: rest) whole
  | substitution {parts whole : List TemplatePart} {place start : Position}
    {back source rest : List Char} (starts : start = (place.advance '$').advance openBrace)
    (matched : Matched source)
    (others : TemplateBody (.code source start :: closeText parts back) []
      ((start.after source).advance closeBrace) rest whole) :
    TemplateBody parts back place ('$' :: openBrace :: (source ++ closeBrace :: rest)) whole

/-- The rest of a template from within a substitution on. -/
def SubstitutionBody (parts : List TemplatePart) (start : Position) (back : List Char)
    (state : BraceSearch) (place : Position) (taken : List Char) (whole : List TemplatePart) : Prop :=
  ∃ source rest, taken = source ++ closeBrace :: rest ∧ state.run source = some (.code 0) ∧
    TemplateBody (.code (back.reverse ++ source) start :: parts) []
      ((place.after source).advance closeBrace) rest whole

/-- The rest of a template from a state of its scanner on. -/
def TemplateState.Body (parts : List TemplatePart) :
    TemplateState → Position → List Char → List TemplatePart → Prop
  | .text back => TemplateBody parts back
  | .code start braces back => SubstitutionBody parts start back (.code braces)
  | .quoted start braces back quote => SubstitutionBody parts start back (.quoted braces quote)

theorem SubstitutionBody.cons {parts whole : List TemplatePart} {start : Position}
    {back taken : List Char} {state next : BraceSearch} {c : Char} (step : state.step c = some next)
    (body : SubstitutionBody parts start (c :: back) next (place.advance c) taken whole) :
    SubstitutionBody parts start back state place (c :: taken) whole := by
  obtain ⟨source, rest, rfl, run, others⟩ := body
  refine ⟨c :: source, rest, rfl, ?_, ?_⟩
  · rw [BraceSearch.run_cons, step]
    exact run
  · rwa [List.reverse_cons, List.append_assoc] at others

theorem scanTemplate_takes {parts : List TemplatePart} {state : TemplateState} {kind : TokenKind}
    (scanned : scanTemplate parts state text place = .ok (kind, cursor)) :
    ∃ taken whole, Takes text place taken cursor ∧ state.Body parts place taken whole ∧
      kind = .template whole.reverse := by
  fun_induction scanTemplate parts state text place with
  | case1 | case2 | case3 | case5 | case15 => cases scanned
  | case4 parts rest position back next =>
    cases scanned
    exact ⟨[backtick], _, (takes_nil rest _).cons, .ends parts back _, rfl⟩
  | case6 parts c position next back no_end no_escape of_rest =>
    obtain ⟨taken, whole, takes, body, is_template⟩ := of_rest scanned
    exact ⟨_, whole, takes.cons, TemplateBody.plain no_end no_escape body, is_template⟩
  | case7 parts position back letter after next no_end of_rest =>
    obtain ⟨taken, whole, takes, body, is_template⟩ := of_rest scanned
    exact ⟨_, whole, takes.cons.cons, TemplateBody.escape letter body, is_template⟩
  | case8 parts c position next back no_end second after no_escape opens of_rest =>
    obtain ⟨rfl, rfl⟩ := opens
    obtain ⟨_, whole, takes, ⟨source, rest, rfl, matched, body⟩, is_template⟩ := of_rest scanned
    exact ⟨_, whole, takes.cons.cons, TemplateBody.substitution rfl matched body, is_template⟩
  | case9 parts c position next back no_end second after no_escape _ of_rest =>
    obtain ⟨taken, whole, takes, body, is_template⟩ := of_rest scanned
    exact ⟨_, whole, takes.cons, TemplateBody.plain no_end no_escape body, is_template⟩
  | case10 parts rest position start braces back next of_rest =>
    obtain ⟨taken, whole, takes, body, is_template⟩ := of_rest scanned
    exact ⟨_, whole, takes.cons, body.cons (BraceSearch.step_open braces), is_template⟩
  | case11 parts rest position start back next _ of_rest =>
    obtain ⟨taken, whole, takes, body, is_template⟩ := of_rest scanned
    refine ⟨_, whole, takes.cons, ⟨[], taken, rfl, rfl, ?_⟩, is_template⟩
    rw [List.append_nil]
    exact body
  | case12 parts rest position start back outer next _ of_rest =>
    obtain ⟨taken, whole, takes, body, is_template⟩ := of_rest scanned
    exact ⟨_, whole, takes.cons, body.cons rfl, is_template⟩
  | case13 parts c rest position next start braces back no_open no_close is_quote of_rest =>
    obtain ⟨taken, whole, takes, body, is_template⟩ := of_rest scanned
    exact ⟨_, whole, takes.cons, body.cons (BraceSearch.step_quote braces is_quote), is_template⟩
  | case14 parts c rest position next start braces back no_open no_close no_quote of_rest =>
    obtain ⟨taken, whole, takes, body, is_template⟩ := of_rest scanned
    have step := BraceSearch.step_code braces no_open no_close no_quote
    exact ⟨_, whole, takes.cons, body.cons step, is_template⟩
  | case16 parts position start braces back quote letter after next of_rest =>
    obtain ⟨taken, whole, takes, body, is_template⟩ := of_rest scanned
    have last := body.cons (BraceSearch.step_letter braces quote letter)
    exact ⟨_, whole, takes.cons.cons, last.cons (BraceSearch.step_escape braces quote), is_template⟩
  | case17 parts c rest position next start braces back no_escape of_rest =>
    obtain ⟨taken, whole, takes, body, is_template⟩ := of_rest scanned
    exact ⟨_, whole, takes.cons, body.cons (BraceSearch.step_unquote braces no_escape), is_template⟩
  | case18 parts c rest position next start braces back quote no_escape no_quote of_rest =>
    obtain ⟨taken, whole, takes, body, is_template⟩ := of_rest scanned
    have step := BraceSearch.step_quoted braces no_escape no_quote
    exact ⟨_, whole, takes.cons, body.cons step, is_template⟩

section

variable {parts whole : List TemplatePart} {back source : List Char} {start : Position}

theorem code_mem_closeText : .code source start ∈ closeText parts back ↔ .code source start ∈ parts := by
  unfold closeText
  split
  · exact Iff.rfl
  · simp

theorem TemplateBody.keeps (body : TemplateBody parts back place taken whole)
    (is_part : .code source start ∈ parts) : .code source start ∈ whole := by
  induction body with
  | ends => exact code_mem_closeText.mpr is_part
  | escape _ _ of_others => exact of_others is_part
  | plain _ _ _ of_others => exact of_others is_part
  | substitution _ _ _ of_others =>
    exact of_others (List.mem_cons_of_mem _ (code_mem_closeText.mpr is_part))

/-- In every substitution of a template the braces and quotes match. -/
theorem TemplateBody.matched (body : TemplateBody parts back place taken whole)
    (is_one : .code source start ∈ whole) : .code source start ∈ parts ∨ Matched source := by
  induction body with
  | ends => exact .inl (code_mem_closeText.mp is_one)
  | escape _ _ of_others => exact of_others is_one
  | plain _ _ _ of_others => exact of_others is_one
  | substitution _ matched _ of_others =>
    rcases of_others is_one with is_part | found
    · rcases List.mem_cons.mp is_part with same | is_part
      · cases same
        exact .inr matched
      · exact .inl (code_mem_closeText.mp is_part)
    · exact .inr found

end

/-! ## Tokens -/

/-- A character of a number. -/
abbrev IsNumberPart (c : Char) : Prop := c.isDigit ∨ c ∈ ['.', 'e', 'E', '+', '-']

/-- The characters of a token that stands at a place. -/
inductive Spelling (place : Position) : List Char → TokenKind → Prop where
  | number {digits : List Char} (value : Float) (parts : ∀ c ∈ digits, IsNumberPart c) :
    Spelling place digits (.number value)
  | word {word : List Char} (parts : ∀ c ∈ word, isWordPart c) :
    Spelling place word (.word (String.ofList word))
  | string {quote : Char} {body : List Char} (value : String) (is_quote : quote = '"' ∨ quote = '\'')
    (others : StringBody quote body) : Spelling place (quote :: body) (.string value)
  | template {body : List Char} {whole : List TemplatePart}
    (others : TemplateBody [] [] (place.advance backtick) body whole) :
    Spelling place (backtick :: body) (.template whole.reverse)
  | punctuator {p : String} (is_one : p ∈ punctuators) : Spelling place p.toList (.punctuator p)

theorem Spelling.matched {parts : List TemplatePart} (spelled : Spelling place text (.template parts))
    {source : List Char} {start : Position} (is_one : .code source start ∈ parts) :
    Matched source := by
  generalize same : TokenKind.template parts = kind at spelled
  cases spelled with
  | template body =>
    cases same
    exact (body.matched (List.mem_reverse.mp is_one)).resolve_left List.not_mem_nil
  | number | word | string | punctuator => cases same

theorem numberText_append (afterMark : Bool) (text : List Char) :
    (numberText afterMark text).1 ++ (numberText afterMark text).2 = text := by
  fun_induction numberText afterMark text with
  | case1 | case3 => rfl
  | case2 _ c rest _ _ digits after of_rest whole =>
    rw [of_rest] at whole
    exact congrArg (c :: ·) whole

theorem numberText_parts (afterMark : Bool) (text : List Char) :
    ∀ c ∈ (numberText afterMark text).1, IsNumberPart c := by
  fun_induction numberText afterMark text with
  | case1 | case3 => exact fun _ => List.not_mem_nil.elim
  | case2 afterMark c rest isMark is_part digits after of_rest parts =>
    rw [of_rest] at parts
    refine List.forall_mem_cons.mpr ⟨?_, parts⟩
    simp only [isMark, Bool.or_eq_true, Bool.and_eq_true, decide_eq_true_eq] at is_part
    simp only [IsNumberPart, List.mem_cons, List.not_mem_nil]
    tauto

theorem numberText_ne_nil (starts : startsNumber text = true) : (numberText false text).1 ≠ [] := by
  cases text with
  | nil => cases starts
  | cons c rest =>
    have is_part : (c.isDigit || c = '.') = true := by
      rw [startsNumber, Bool.or_eq_true, Bool.and_eq_true] at starts
      rw [Bool.or_eq_true]
      exact starts.imp_right And.left
    unfold numberText
    dsimp only
    rw [is_part]
    exact List.cons_ne_nil _ _

theorem isWordPart_of_isWordStart {c : Char} (starts : isWordStart c) : isWordPart c := by
  have letter : Text.isLetter c → Text.isLetterOrNumber c := by
    unfold Text.isLetter Text.isLetterOrNumber
    split
    · exact fun alpha => by simp [Char.isAlphanum, alpha]
    · exact fun alphabetic => by simp [alphabetic]
  simp only [isWordStart, isWordPart, Bool.or_eq_true] at starts ⊢
  exact starts.imp_left (Or.imp_left letter)

theorem scanPunctuator_takes {kind : TokenKind}
    (scanned : scanPunctuator text place = .ok (kind, cursor)) :
    ∃ p ∈ punctuators, Takes text place p.toList cursor ∧ kind = .punctuator p := by
  unfold scanPunctuator at scanned
  split at scanned
  · rename_i p found
    cases scanned
    refine ⟨p, List.mem_of_find?_eq_some found, ⟨?_, rfl⟩, rfl⟩
    have starts := List.find?_some found
    rw [← String.length_toList]
    exact List.prefix_iff_eq_append.mp (List.isPrefixOf_iff_prefix.mp starts) |>.symm
  · cases scanned

theorem scanKind_takes {kind : TokenKind} (scanned : scanKind text place = .ok (kind, cursor)) :
    ∃ taken, Takes text place taken cursor ∧ taken ≠ [] ∧ Spelling place taken kind := by
  have punctuated : scanPunctuator text place = .ok (kind, cursor) →
      ∃ taken, Takes text place taken cursor ∧ taken ≠ [] ∧ Spelling place taken kind := by
    intro scanned
    obtain ⟨p, is_one, takes, rfl⟩ := scanPunctuator_takes scanned
    have not_empty : ∀ p ∈ punctuators, p.toList ≠ [] := by decide
    exact ⟨_, takes, not_empty p is_one, .punctuator is_one⟩
  unfold scanKind at scanned
  split at scanned
  · rename_i starts
    dsimp only at scanned
    split at scanned
    · cases scanned
      exact ⟨_, ⟨(numberText_append false text).symm, rfl⟩, numberText_ne_nil starts,
        .number _ (numberText_parts false text)⟩
    · cases scanned
  · split at scanned
    · rename_i c rest _
      split at scanned
      · rename_i starts
        rw [List.span_eq_takeWhile_dropWhile] at scanned
        cases scanned
        refine ⟨_, ⟨List.takeWhile_append_dropWhile.symm, rfl⟩, ?_,
          .word fun _ => List.mem_takeWhile_imp⟩
        rw [List.takeWhile_cons_of_pos (isWordPart_of_isWordStart starts)]
        exact List.cons_ne_nil _ _
      split at scanned
      · rename_i is_quote
        obtain ⟨taken, takes, others, value, rfl⟩ := scanString_takes scanned
        exact ⟨_, takes.cons, List.cons_ne_nil _ _, .string value is_quote others⟩
      split at scanned
      · rename_i is_backtick
        subst is_backtick
        obtain ⟨taken, whole, takes, others, rfl⟩ := scanTemplate_takes scanned
        exact ⟨_, takes.cons, List.cons_ne_nil _ _, .template others⟩
      · exact punctuated scanned
    · exact punctuated scanned

/-! ## Whole texts -/

/-- A token, its characters and what stands before it. -/
structure Lexeme where
  gap : List Char
  spelling : List Char
  token : Token

/-- A text from a place on is cut into lexemes and what stands behind the last. -/
inductive Cut : List Char → Position → List Lexeme → List Char → Prop where
  | last {last : List Char} {place finish : Position}
    (skipped : skipGap .between last place = .ok ⟨[], finish⟩) : Cut last place [] last
  | lexeme {gap spelling rest last : List Char} {token : Token} {others : List Lexeme}
    {place : Position}
    (skipped : skipGap .between (gap ++ (spelling ++ rest)) place =
      .ok ⟨spelling ++ rest, token.position⟩)
    (scanned : scanKind (spelling ++ rest) token.position =
      .ok (token.kind, ⟨rest, token.position.after spelling⟩))
    (spelled : Spelling token.position spelling token.kind)
    (cut : Cut rest (token.position.after spelling) others last) :
    Cut (gap ++ (spelling ++ rest)) place (⟨gap, spelling, token⟩ :: others) last

theorem scanTokens_token {fuel : Nat} {tokens : List Token} {c : Char} {rest : List Char}
    {start : Position} {kind : TokenKind} (skipped : skipGap .between text place = .ok ⟨c :: rest, start⟩)
    (scanned : scanKind (c :: rest) start = .ok (kind, cursor)) :
    scanTokens (fuel + 1) tokens text place =
      scanTokens fuel (⟨start, kind⟩ :: tokens) cursor.rest cursor.position := by
  rw [scanTokens, skipped]
  dsimp only
  rw [scanned]

/-- Tokens are scanned up to the end, or one more of them behind a gap and then the rest. -/
theorem scanTokens_cases {fuel : Nat} {back : List Token} {stream : TokenStream}
    (scanned : scanTokens (fuel + 1) back text place = .ok stream) :
    (∃ finish, skipGap .between text place = .ok ⟨[], finish⟩ ∧ stream = ⟨back.reverse, finish⟩) ∨
    ∃ gap spelling rest token, text = gap ++ (spelling ++ rest) ∧ spelling ≠ [] ∧
      skipGap .between text place = .ok ⟨spelling ++ rest, token.position⟩ ∧
      scanKind (spelling ++ rest) token.position =
        .ok (token.kind, ⟨rest, token.position.after spelling⟩) ∧
      Spelling token.position spelling token.kind ∧
      scanTokens fuel (token :: back) rest (token.position.after spelling) = .ok stream := by
  cases skipped : skipGap .between text place with
  | error e =>
    rw [scanTokens, skipped] at scanned
    cases scanned
  | ok cursor =>
    obtain ⟨rest, start⟩ := cursor
    cases rest with
    | nil =>
      rw [scanTokens, skipped] at scanned
      cases scanned
      exact .inl ⟨start, rfl, rfl⟩
    | cons c rest =>
      cases kinds : scanKind (c :: rest) start with
      | error e =>
        rw [scanTokens, skipped] at scanned
        dsimp only at scanned
        rw [kinds] at scanned
        cases scanned
      | ok found =>
        obtain ⟨kind, ⟨left, finish⟩⟩ := found
        rw [scanTokens_token skipped kinds] at scanned
        obtain ⟨gap, is_gap, -⟩ := skipGap_takes skipped
        obtain ⟨spelling, ⟨is_spelling, rfl⟩, not_empty, spelled⟩ := scanKind_takes kinds
        dsimp only at is_gap is_spelling
        rw [is_spelling] at is_gap kinds ⊢
        exact .inr ⟨gap, spelling, left, ⟨start, kind⟩, is_gap, not_empty, rfl, kinds, spelled, scanned⟩

/-- As every token takes a character, there is fuel enough for all of them. -/
theorem cut_of_scanTokens {fuel : Nat} {back : List Token} {stream : TokenStream}
    (enough : text.length < fuel) (scanned : scanTokens fuel back text place = .ok stream) :
    ∃ lexemes last, Cut text place lexemes last ∧
      stream.tokens = back.reverse ++ lexemes.map Lexeme.token ∧
      stream.finish = place.after text := by
  induction fuel generalizing back text place with
  | zero => exact absurd enough (Nat.not_lt_zero _)
  | succ fuel of_fuel =>
    obtain ⟨finish, skipped, rfl⟩ |
      ⟨gap, spelling, rest, token, rfl, not_empty, skipped, kinds, spelled, more⟩ :=
        scanTokens_cases scanned
    · obtain ⟨taken, is_text, is_place⟩ := skipGap_takes skipped
      obtain rfl : text = taken := is_text.trans (List.append_nil taken)
      exact ⟨[], text, .last skipped, (List.append_nil _).symm, is_place⟩
    · have shorter : rest.length < fuel := by
        have positive := List.length_pos_iff.mpr not_empty
        simp only [List.length_append] at enough
        omega
      obtain ⟨lexemes, last, cut, tokens, finish⟩ := of_fuel shorter more
      obtain ⟨taken, is_text, is_place⟩ := skipGap_takes skipped
      obtain rfl : gap = taken := List.append_cancel_right is_text
      refine ⟨⟨gap, spelling, token⟩ :: lexemes, last, .lexeme skipped kinds spelled cut, ?_, ?_⟩
      · rw [tokens, List.reverse_cons, List.append_assoc]
        rfl
      · rw [finish, Position.after_append, Position.after_append]
        exact congrArg (fun start : Position => (start.after spelling).after rest) is_place

/-- A text that gives tokens is cut into them. -/
theorem cut_of_tokens {stream : TokenStream}
    (scanned : TokenStream.ofTextAt text place = .ok stream) :
    ∃ lexemes last, Cut text place lexemes last ∧ stream.tokens = lexemes.map Lexeme.token := by
  obtain ⟨lexemes, last, cut, tokens, -⟩ := cut_of_scanTokens (Nat.lt_succ_self _) scanned
  exact ⟨lexemes, last, cut, tokens⟩

end
end Tabletop.Script
