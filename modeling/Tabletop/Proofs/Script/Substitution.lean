import Tabletop.Proofs.Script.Cut
import Tabletop.Proofs.Script.Following.Grammar

/-!
Expressions as the only substitution of a template. The end of a substitution is searched for among raw
characters, so a text is substituted whole exactly if its braces and quotes match there; what is then read
is the text's own tree. They match in every expression with no mark in its comments and no backtick in a
substitution of its templates.
-/

namespace Tabletop.Script

/-- A text as the only substitution of a template. -/
def substituted (text : List Char) : List Char :=
  backtick :: '$' :: openBrace :: (text ++ [closeBrace, backtick])

/-- Where the substituted text stands if the template stands at a place. -/
def substitutionStart (place : Position) : Position :=
  ((place.advance backtick).advance '$').advance openBrace

/-- The characters that the search for the end of a substitution looks at outside quotations. -/
def marks : List Char := [openBrace, closeBrace, '"', '\'', backtick]

def Unmarked (text : List Char) : Prop := ∀ c ∈ text, c ∉ marks

instance (text : List Char) : Decidable (Unmarked text) := List.decidableBAll _ text

/-- No mark stands in front of a token, and no backtick in a substitution of one. -/
structure Lexeme.Plain (lexeme : Lexeme) : Prop where
  gap : Unmarked lexeme.gap
  substitutions : ∀ parts source start, lexeme.token.kind = .template parts →
    .code source start ∈ parts → backtick ∉ source

/-! ## Searching in a template -/

section

variable {parts : List TemplatePart} {start place : Position} {back text : List Char}

/-- The rest of a template from where the search for the end of a substitution stands. -/
def resume (parts : List TemplatePart) (start : Position) (back : List Char) :
    BraceSearch → List Char → Position → Scan TokenKind
  | .code braces, text, place => scanTemplate parts (.code start braces back) text place
  | .quoted braces quote, text, place =>
    scanTemplate parts (.quoted start braces back quote) text place
  | .escaped _ _, [], place => failAt place .unterminatedString
  | .escaped braces quote, letter :: after, place =>
    scanTemplate parts (.quoted start braces (letter :: back) quote) after (place.advance letter)

theorem resume_step {state next : BraceSearch} {c : Char} (step : state.step c = some next)
    (rest : List Char) : resume parts start back state (c :: rest) place =
      resume parts start (c :: back) next rest (place.advance c) := by
  cases state with
  | code braces =>
    unfold BraceSearch.step at step
    rw [resume, scanTemplate_code]
    dsimp only at step
    split at step
    · rename_i opens
      cases step
      rw [if_pos opens, resume]
    split at step
    · rename_i no_open closes
      cases braces with
      | zero => cases step
      | succ outer =>
        cases step
        rw [if_neg no_open, if_pos closes, resume]
    split at step
    · rename_i no_open no_close is_quote
      cases step
      rw [if_neg no_open, if_neg no_close, if_pos is_quote, resume]
    · rename_i no_open no_close no_quote
      cases step
      rw [if_neg no_open, if_neg no_close, if_neg no_quote, resume]
  | quoted braces quote =>
    unfold BraceSearch.step at step
    rw [resume, scanTemplate_quoted]
    dsimp only at step
    split at step
    · rename_i escapes
      cases step
      rw [if_pos escapes]
      cases rest <;> rfl
    split at step
    · rename_i no_escape ends
      cases step
      rw [if_neg no_escape, if_pos ends, resume]
    · rename_i no_escape no_end
      cases step
      rw [if_neg no_escape, if_neg no_end, resume]
  | escaped braces quote =>
    cases step
    rfl

theorem resume_run {state next : BraceSearch} (run : state.run text = some next) (rest : List Char) :
    resume parts start back state (text ++ rest) place =
      resume parts start (text.reverse ++ back) next rest (place.after text) := by
  induction text generalizing state back place with
  | nil =>
    cases run
    rfl
  | cons c others of_others =>
    rw [BraceSearch.run_cons, Option.bind_eq_some_iff] at run
    obtain ⟨between, step, run⟩ := run
    rw [List.cons_append, resume_step step, of_others run, List.reverse_cons, List.append_assoc]
    rfl

/-- A text whose braces and quotes match is substituted whole. -/
theorem scanTemplate_substituted (matched : Matched text) :
    scanTemplate [] (.text []) ('$' :: openBrace :: (text ++ [closeBrace, backtick]))
        (place.advance backtick) =
      .ok (.template [.code text (substitutionStart place)],
        ⟨[], place.after (substituted text)⟩) := by
  have opens : scanTemplate [] (.text []) ('$' :: openBrace :: (text ++ [closeBrace, backtick]))
      (place.advance backtick) =
      resume [] (substitutionStart place) [] (.code 0) (text ++ [closeBrace, backtick])
        (substitutionStart place) := rfl
  have ends : place.after (substituted text) =
      (((substitutionStart place).after text).advance closeBrace).advance backtick := by
    rw [substituted, Position.after_cons, Position.after_cons, Position.after_cons,
      Position.after_append]
    rfl
  rw [opens, resume_run matched, ends, List.append_nil]
  change Except.ok (TokenKind.template [.code text.reverse.reverse _], _) = _
  rw [List.reverse_reverse]

theorem scanKind_substituted (matched : Matched text) :
    scanKind (substituted text) place =
      .ok (.template [.code text (substitutionStart place)],
        ⟨[], place.after (substituted text)⟩) :=
  scanTemplate_substituted matched

theorem ofTextAt_substituted (matched : Matched text) :
    TokenStream.ofTextAt (substituted text) place =
      .ok ⟨[⟨place, .template [.code text (substitutionStart place)]⟩],
        place.after (substituted text)⟩ := by
  have skipped : skipGap .between (substituted text) place = .ok ⟨substituted text, place⟩ := rfl
  exact (scanTokens_token skipped (scanKind_substituted matched)).trans rfl

end

/-! ## Reading a template alone -/

namespace Reader

variable {levels : Levels} {place finish : Position} {parts : List TemplatePart}
  {found : List Piece}

theorem primary_template (read : pieces levels parts = .ok found) (others : List Token) :
    primary levels ⟨⟨place, .template parts⟩ :: others, finish⟩ =
      .ok (.template found, ⟨others, finish⟩) := by
  have lifted : (liftM (pieces levels parts) : Reader (List Piece)) ⟨others, finish⟩ =
      .ok (found, ⟨others, finish⟩) := by
    rw [read]
    rfl
  exact bind_eq_ok_iff.mpr ⟨place, _, rfl, bind_eq_ok_iff.mpr ⟨some (.template parts), _, rfl,
    bind_eq_ok_iff.mpr ⟨(), _, rfl, bind_eq_ok_iff.mpr ⟨found, _, lifted, rfl⟩⟩⟩⟩

theorem stepped_template (read : pieces levels parts = .ok found) :
    stepped levels ⟨[⟨place, .template parts⟩], finish⟩ = .ok (.template found, ⟨[], finish⟩) := by
  have of_callee : callee levels ⟨[⟨place, .template parts⟩], finish⟩ =
      .ok (.template found, ⟨[], finish⟩) :=
    bind_eq_ok_iff.mpr ⟨_, _, primary_template read [], suffixes_stop levels _ rfl rfl rfl⟩
  refine bind_eq_ok_iff.mpr ⟨place, _, rfl, bind_eq_ok_iff.mpr ⟨_, _, of_callee,
    bind_eq_ok_iff.mpr ⟨finish, _, rfl, ?_⟩⟩⟩
  split <;> rfl

theorem operandBody_template (read : pieces levels parts = .ok found) :
    operandBody levels ⟨[⟨place, .template parts⟩], finish⟩ =
      .ok (.template found, ⟨[], finish⟩) :=
  bind_eq_ok_iff.mpr ⟨false, _, rfl, bind_eq_ok_iff.mpr ⟨false, _, rfl,
    bind_eq_ok_iff.mpr ⟨false, _, rfl, bind_eq_ok_iff.mpr ⟨false, _, rfl,
      bind_eq_ok_iff.mpr ⟨false, _, rfl, bind_eq_ok_iff.mpr ⟨false, _, rfl,
        stepped_template read⟩⟩⟩⟩⟩⟩

theorem takeOperator_ended {α : Type} (table : List (String × α)) :
    takeOperator table ⟨[], finish⟩ = .ok (none, ⟨[], finish⟩) := by
  induction table with
  | nil => rfl
  | cons entry rest of_rest => exact bind_eq_ok_iff.mpr ⟨false, _, take_of_not rfl, of_rest⟩

/-- No operator follows where the tokens end. -/
theorem chain_ended {α : Type} {table : List (String × α)} {combine : α → Expr → Expr → Expr}
    {next : Levels → Reader Expr} {stream : TokenStream} {expr : Expr}
    (read : next levels stream = .ok (expr, ⟨[], finish⟩)) :
    chain table combine next levels stream = .ok (expr, ⟨[], finish⟩) := by
  refine bind_eq_ok_iff.mpr ⟨expr, _, read, ?_⟩
  cases levels <;> exact bind_eq_ok_iff.mpr ⟨none, _, takeOperator_ended table, rfl⟩

theorem assignmentBody_template (read : pieces levels parts = .ok found) :
    assignmentBody (levelAbove levels :: levels) ⟨[⟨place, .template parts⟩], finish⟩ =
      .ok (.template found, ⟨[], finish⟩) := by
  have power : powerBody (levelAbove levels :: levels) ⟨[⟨place, .template parts⟩], finish⟩ =
      .ok (.template found, ⟨[], finish⟩) :=
    bind_eq_ok_iff.mpr ⟨_, _, operandBody_template read, bind_eq_ok_iff.mpr ⟨false, _, rfl, rfl⟩⟩
  have chained : disjunction (levelAbove levels :: levels) ⟨[⟨place, .template parts⟩], finish⟩ =
      .ok (.template found, ⟨[], finish⟩) :=
    chain_ended (chain_ended (chain_ended (chain_ended (chain_ended (chain_ended power)))))
  have conditioned : conditional (levelAbove levels :: levels) ⟨[⟨place, .template parts⟩], finish⟩ =
      .ok (.template found, ⟨[], finish⟩) :=
    bind_eq_ok_iff.mpr ⟨_, _, chained, bind_eq_ok_iff.mpr ⟨false, _, rfl, rfl⟩⟩
  exact bind_eq_ok_iff.mpr ⟨_, _, rfl, bind_eq_ok_iff.mpr ⟨_, _, conditioned,
    bind_eq_ok_iff.mpr ⟨none, _, rfl, rfl⟩⟩⟩

/-- The only substitution of a template is read two levels deeper than the template. -/
theorem wholeExpression_substituted {count : Nat} {text : List Char} {tree : Expr}
    (matched : Matched text)
    (read : wholeExpression (levelsOf count) text (substitutionStart place) = .ok tree) :
    wholeExpression (levelsOf (count + 2)) (substituted text) place =
      .ok (.template [.code tree]) := by
  have of_pieces : pieces (levelsOf count) [.code text (substitutionStart place)] =
      .ok [.code tree] := by
    rw [pieces, read]
    rfl
  exact wholeExpression_eq_ok_iff.mpr
    ⟨_, _, ofTextAt_substituted matched, assignmentBody_template of_pieces, rfl⟩

end Reader

/-! ## Substituting parts of a text -/

section

variable {braces : Nat} {place : Position} {text : List Char}

open BraceSearch Reader

theorem forall_marks {p : Char → Prop} : (∀ c ∈ marks, p c) ↔
    p openBrace ∧ p closeBrace ∧ p '"' ∧ p '\'' ∧ p backtick := by
  simp [marks]

theorem run_unmarked (unmarked : Unmarked text) :
    run (.code braces) text = some (.code braces) := by
  induction text with
  | nil => rfl
  | cons c rest of_rest =>
    obtain ⟨first, others⟩ := List.forall_mem_cons.mp unmarked
    simp only [marks, List.mem_cons, List.not_mem_nil, or_false, not_or] at first
    obtain ⟨no_open, no_close, no_quote⟩ := first
    rw [run_cons, step_code braces no_open no_close (by tauto)]
    exact of_rest others

theorem run_stringBody {quote : Char} (no_escape : quote ≠ '\\') (body : StringBody quote text) :
    run (.quoted braces quote) text = some (.code braces) := by
  induction body with
  | ends =>
    rw [run_cons, step_unquote braces no_escape]
    rfl
  | escape letter _ of_others =>
    rw [run_cons, step_escape]
    exact of_others
  | plain no_escape no_quote _ of_others =>
    rw [run_cons, step_quoted braces no_escape no_quote]
    exact of_others

/-- A substitution in a template that is searched is a part of its quotation. -/
theorem run_quoted {quote : Char} (no_quote : quote ∉ text) {state : BraceSearch}
    (inside : state = .quoted braces quote ∨ state = .escaped braces quote) :
    ∃ last, state.run text = some last ∧
      (last = .quoted braces quote ∨ last = .escaped braces quote) := by
  induction text generalizing state with
  | nil => exact ⟨state, rfl, inside⟩
  | cons c rest of_rest =>
    have first : c ≠ quote := (List.ne_of_not_mem_cons no_quote).symm
    have others := List.not_mem_of_not_mem_cons no_quote
    obtain ⟨next, step, inside⟩ : ∃ next, state.step c = some next ∧
        (next = .quoted braces quote ∨ next = .escaped braces quote) := by
      rcases inside with rfl | rfl
      · by_cases escapes : c = '\\'
        · subst escapes
          exact ⟨_, rfl, .inr rfl⟩
        · exact ⟨_, step_quoted braces escapes first, .inl rfl⟩
      · exact ⟨_, rfl, .inl rfl⟩
    rw [run_cons, step]
    exact of_rest others inside

theorem run_templateBody {parts whole : List TemplatePart} {back taken : List Char}
    (body : TemplateBody parts back place taken whole)
    (no_template : ∀ source start, .code source start ∈ whole → backtick ∉ source) :
    run (.quoted braces backtick) taken = some (.code braces) := by
  induction body with
  | ends => rfl
  | escape letter _ of_others => exact of_others no_template
  | plain no_end no_escape _ of_others =>
    rw [run_cons, step_quoted braces no_escape no_end]
    exact of_others no_template
  | substitution _ _ others of_others =>
    -- The search may be behind a backslash where the substitution ends, but not behind its brace.
    have inner := no_template _ _ (others.keeps List.mem_cons_self)
    obtain ⟨last, run_source, inside⟩ := @run_quoted braces _ _ inner _ (.inl rfl)
    have leaves : last.step closeBrace = some (.quoted braces backtick) := by
      rcases inside with rfl | rfl <;> rfl
    have opens : step (.quoted braces backtick) '$' = some (.quoted braces backtick) ∧
        step (.quoted braces backtick) openBrace = some (.quoted braces backtick) := ⟨rfl, rfl⟩
    rw [run_cons, opens.1, Option.bind_some, run_cons, opens.2, Option.bind_some, run_append,
      run_source, Option.bind_some, run_cons, leaves]
    exact of_others no_template

/-- The search turns as many braces as the token that it goes past. -/
theorem run_spelling {kind : TokenKind} {others : List Token} (spelled : Spelling place text kind)
    (no_template : ∀ parts source start, kind = .template parts → .code source start ∈ parts →
      backtick ∉ source)
    (balanced : Balanced braces (⟨place, kind⟩ :: others)) :
    ∃ after, run (.code braces) text = some (.code after) ∧ Balanced after others := by
  cases spelled with
  | number value parts =>
    refine ⟨braces, run_unmarked fun c is_one marked => ?_, balanced⟩
    have no_part : ∀ c ∈ marks, ¬ IsNumberPart c := forall_marks.mpr (by decide)
    exact no_part c marked (parts c is_one)
  | word parts =>
    refine ⟨braces, run_unmarked fun c is_one marked => ?_, balanced⟩
    have no_part : ∀ c ∈ marks, ¬ isWordPart c := forall_marks.mpr (by decide)
    exact no_part c marked (parts c is_one)
  | @string quote _ value is_quote body =>
    refine ⟨braces, ?_, balanced⟩
    have no_escape : quote ≠ '\\' := by rcases is_quote with rfl | rfl <;> decide
    rw [run_cons, step_quote braces (is_quote.imp_right .inl)]
    exact run_stringBody no_escape body
  | template body =>
    refine ⟨braces, ?_, balanced⟩
    rw [run_cons, step_quote braces (.inr (.inr rfl))]
    exact run_templateBody body fun source start is_one =>
      no_template _ source start rfl (List.mem_reverse.mpr is_one)
  | @punctuator p is_one =>
    have kinds : ∀ p ∈ punctuators,
        p = "\x7b" ∨ p = "\x7d" ∨ NoBrace p ∧ Unmarked p.toList := by
      decide
    rcases kinds p is_one with rfl | rfl | ⟨plain, unmarked⟩
    · exact ⟨braces + 1, rfl, balanced⟩
    · rw [Balanced] at balanced
      obtain ⟨outer, rfl, balanced⟩ := balanced
      exact ⟨outer, rfl, balanced⟩
    · refine ⟨braces, run_unmarked unmarked, ?_⟩
      have no_open : isPunctuator "\x7b" (some (.punctuator p)) = false := beq_false_of_ne plain.1
      have no_close : isPunctuator "\x7d" (some (.punctuator p)) = false := beq_false_of_ne plain.2
      rw [Balanced, no_open, no_close] at balanced
      exact balanced

/-- In a text that is cut plainly, braces and quotes match if the braces among its tokens do. -/
theorem run_cut {lexemes : List Lexeme} {last : List Char} (cut : Cut text place lexemes last)
    (plain : ∀ lexeme ∈ lexemes, lexeme.Plain) (unmarked : Unmarked last)
    (balanced : Balanced braces (lexemes.map Lexeme.token)) :
    run (.code braces) text = some (.code 0) := by
  induction cut generalizing braces with
  | last =>
    obtain rfl : braces = 0 := balanced
    exact run_unmarked unmarked
  | lexeme _ _ spelled _ of_cut =>
    obtain ⟨first, others⟩ := List.forall_mem_cons.mp plain
    obtain ⟨after, run_first, balanced⟩ := run_spelling spelled first.substitutions balanced
    rw [run_append, run_unmarked first.gap, Option.bind_some, run_append, run_first]
    exact of_cut others unmarked balanced

end

/-! ## The result -/

/-- If the braces and quotes of an expression match, it is read as the only substitution of a template, in
any place, as long as two more levels are allowed. They match if no mark stands between its tokens and no
backtick in a substitution of one of its templates. In no other case the text is substituted whole. -/
theorem substitution_reads_matched {count : Nat} (fewer : count + 2 ≤ nestingLimit) {text : List Char}
    {place : Position} {tree : Expr}
    (read : Reader.wholeExpression (Reader.levelsOf count) text place = .ok tree) :
    (∃ lexemes last, Cut text place lexemes last ∧
      ((∀ lexeme ∈ lexemes, lexeme.Plain) → Unmarked last → Matched text)) ∧
    ∀ place', (Matched text → Expr.readAt (String.ofList (substituted text)) place' =
        .ok (.template [.code tree])) ∧
      ((∃ finish, TokenStream.ofTextAt (substituted text) place' =
        .ok ⟨[⟨place', .template [.code text (substitutionStart place')]⟩], finish⟩) ↔
          Matched text) := by
  obtain ⟨stream, -, tokens, -, -⟩ := Reader.wholeExpression_eq_ok_iff.mp read
  obtain ⟨lexemes, last, cut, same⟩ := cut_of_tokens tokens
  have balanced := Reader.balanced_of_wholeExpression read tokens
  rw [same] at balanced
  refine ⟨⟨lexemes, last, cut, fun plain unmarked => run_cut cut plain unmarked balanced⟩,
    fun place' => ⟨fun matched => ?_, fun ⟨finish, tokens⟩ => ?_, fun matched =>
      ⟨_, ofTextAt_substituted matched⟩⟩⟩
  · have inner := Reader.wholeExpression_deeper (Nat.le_refl count) (substitutionStart place') read
    have outer := Reader.wholeExpression_substituted matched inner
    rw [Expr.readAt, String.toList_ofList]
    exact Reader.wholeExpression_deeper fewer place' outer
  · obtain ⟨lexemes, last, cut, same⟩ := cut_of_tokens tokens
    generalize substituted text = template at cut
    cases cut with
    | last => cases same
    | lexeme _ _ spelled _ =>
      obtain ⟨rfl, -⟩ := List.cons.inj same
      exact spelled.matched List.mem_cons_self

theorem exists_tree {levels : Levels} {text : List Char} {place : Position}
    (accepted : (Reader.wholeExpression levels text place).toOption.isSome = true) :
    ∃ tree, Reader.wholeExpression levels text place = .ok tree := by
  cases read : Reader.wholeExpression levels text place with
  | error e =>
    rw [read] at accepted
    cases accepted
  | ok tree => exact ⟨tree, rfl⟩

theorem wholeExpression_eq_error {levels : Levels} {text : List Char} {place : Position} {e : SourceError}
    (refused : (Reader.wholeExpression levels text place).map (fun _ => ()) = .error e) :
    Reader.wholeExpression levels text place = .error e := by
  cases read : Reader.wholeExpression levels text place with
  | error other =>
    rw [read] at refused
    exact congrArg Except.error (Except.error.inj refused)
  | ok tree =>
    rw [read] at refused
    cases refused

/-- An object with a brace in a string and a template that substitutes a name. -/
def bracedObject : List Char :=
  [openBrace, 'a', ':', '"', closeBrace, '"', ',', 'b', ':', '['] ++ substituted ['x'] ++
    [']', closeBrace]

theorem substitution_reads_matched_object :
    ∃ tree, Reader.wholeExpression (Reader.levelsOf 60) bracedObject .start = .ok tree ∧
      Matched bracedObject ∧
      Expr.readAt (String.ofList (substituted bracedObject)) .start = .ok (.template [.code tree]) := by
  obtain ⟨tree, read⟩ := @exists_tree (Reader.levelsOf 60) bracedObject .start (by decide +kernel)
  have matched : Matched bracedObject := by
    unfold Matched
    decide +kernel
  have fewer : 60 + 2 ≤ nestingLimit := by decide
  exact ⟨tree, read, matched, ((substitution_reads_matched fewer read).2 .start).1 matched⟩

/-- A template whose substitution is a template. -/
def nestedTemplate : List Char := substituted [backtick, closeBrace, backtick]

def bracedComment : List Char := ['1', ' ', '/', '*', ' ', closeBrace, ' ', '*', '/']

/-- Neither is read as a substitution: the search takes the second backtick of a template for the end of
a quotation, and it looks into comments. -/
theorem unmatched_substitutions_refused :
    (∃ tree, Reader.wholeExpression (Reader.levelsOf 60) nestedTemplate .start = .ok tree) ∧
      Expr.readAt (String.ofList (substituted nestedTemplate)) .start =
        .error ⟨⟨1, 8⟩, .unterminatedString⟩ ∧
    (∃ tree, Reader.wholeExpression (Reader.levelsOf 60) bracedComment .start = .ok tree) ∧
      Expr.readAt (String.ofList (substituted bracedComment)) .start =
        .error ⟨⟨1, 9⟩, .unterminatedComment⟩ := by
  refine ⟨exists_tree (by decide +kernel), ?_, exists_tree (by decide +kernel), ?_⟩
  · rw [Expr.readAt, String.toList_ofList]
    exact wholeExpression_eq_error (by decide +kernel)
  · rw [Expr.readAt, String.toList_ofList]
    exact wholeExpression_eq_error (by decide +kernel)

end Tabletop.Script
