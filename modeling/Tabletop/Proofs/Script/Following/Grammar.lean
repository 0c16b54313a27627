import Tabletop.Proofs.Script.Following

/-!
What can be read under a number of levels can be read in any place and under more levels, as the same
tree. A reader of the grammar takes braces in pairs, so all braces of a text that is read as an expression
are closed.
-/

namespace Tabletop.Script

namespace Reader

variable {α : Type} {low high : Nat}

/-- The readers of a level are followed by those of another. -/
structure LevelFollows (low high : Nat) (level level' : Level) : Prop where
  statement : Follows low high 0 0 level.statement level'.statement
  assignment : Follows low high 0 0 level.assignment level'.assignment
  operand : Follows low high 0 0 level.operand level'.operand
  power : Follows low high 0 0 level.power level'.power

/-- Each level is followed by the one in its place, of which there may be more. -/
inductive LevelsFollow (low high : Nat) : Levels → Levels → Prop where
  | nil (levels : Levels) : LevelsFollow low high [] levels
  | cons {level level' : Level} {deeper deeper' : Levels} (first : LevelFollows low high level level')
    (rest : LevelsFollow low high deeper deeper') :
    LevelsFollow low high (level :: deeper) (level' :: deeper')

/-- Where no member, key or call follows, nothing is read. -/
theorem suffixes_stop (levels : Levels) (expr : Expr) {stream : TokenStream}
    (no_dot : isPunctuator "." (stream.tokens.head?.map Token.kind) = false)
    (no_key : isPunctuator "[" (stream.tokens.head?.map Token.kind) = false)
    (no_call : isPunctuator "(" (stream.tokens.head?.map Token.kind) = false) :
    suffixes levels expr stream = .ok (expr, stream) := by
  cases levels with
  | nil =>
    refine bind_eq_ok_iff.mpr ⟨_, stream, rfl, ?_⟩
    rw [no_dot, no_key, no_call]
    rfl
  | cons level deeper =>
    unfold suffixes
    exact bind_eq_ok_iff.mpr ⟨false, stream, take_of_not no_dot, bind_eq_ok_iff.mpr
      ⟨false, stream, take_of_not no_key, bind_eq_ok_iff.mpr
        ⟨false, stream, take_of_not no_call, rfl⟩⟩⟩

/-- A token that is no template is the same kind of token anywhere. -/
theorem exists_cons_of_moves {tokens rest' : List Token} {place' : Position} {kind : TokenKind}
    (moves : List.Forall₂ (Token.Moves low high) tokens (⟨place', kind⟩ :: rest'))
    (no_template : ∀ parts, kind ≠ .template parts) :
    ∃ place rest, tokens = ⟨place, kind⟩ :: rest ∧ List.Forall₂ (Token.Moves low high) rest rest' := by
  obtain ⟨⟨place, other⟩, rest, first, others, rfl⟩ := List.forall₂_cons_right_iff.mp moves
  cases first.kind with
  | template => exact absurd rfl (no_template _)
  | _ => exact ⟨place, rest, rfl, others⟩

theorem moves_symm {tokens tokens' : List Token}
    (moves : List.Forall₂ (Token.Moves low high) tokens tokens') :
    List.Forall₂ (Token.Moves high low) tokens' tokens := by
  refine List.Forall₂.flip (moves.imp fun token token' moves => ?_)
  obtain ⟨place, kind⟩ := token
  obtain ⟨place', kind'⟩ := token'
  refine ⟨moves.position.symm, ?_⟩
  cases moves.kind with
  | template parts =>
    refine .template (List.Forall₂.flip (parts.imp fun part part' moves => ?_))
    cases moves with
    | text value => exact .text value
    | code source places => exact .code source places.symm
  | number value => exact .number value
  | string value => exact .string value
  | word name => exact .word name
  | punctuator text => exact .punctuator text

theorem parametersAhead_of_moves {tokens tokens' : List Token}
    (moves : List.Forall₂ (Token.Moves low high) tokens tokens')
    (ahead : parametersAhead tokens' = true) : parametersAhead tokens = true := by
  fun_induction parametersAhead tokens' generalizing tokens with
  | case1 =>
    obtain ⟨_, _, rfl, second⟩ := exists_cons_of_moves moves nofun
    obtain ⟨_, _, rfl, -⟩ := exists_cons_of_moves second nofun
    rfl
  | case2 _ _ _ rest of_rest =>
    obtain ⟨_, _, rfl, second⟩ := exists_cons_of_moves moves nofun
    obtain ⟨_, _, rfl, others⟩ := exists_cons_of_moves second nofun
    have inside := of_rest others ahead
    exact inside
  | case3 =>
    obtain ⟨_, _, rfl, second⟩ := exists_cons_of_moves moves nofun
    obtain ⟨_, _, rfl, third⟩ := exists_cons_of_moves second nofun
    obtain ⟨_, _, rfl, -⟩ := exists_cons_of_moves third nofun
    rfl
  | case4 => cases ahead

theorem arrowAhead_of_moves {tokens tokens' : List Token}
    (moves : List.Forall₂ (Token.Moves low high) tokens tokens')
    (ahead : arrowAhead tokens' = true) : arrowAhead tokens = true := by
  unfold arrowAhead at ahead
  split at ahead
  · obtain ⟨_, _, rfl, second⟩ := exists_cons_of_moves moves nofun
    obtain ⟨_, _, rfl, -⟩ := exists_cons_of_moves second nofun
    rfl
  · obtain ⟨_, _, rfl, others⟩ := exists_cons_of_moves moves nofun
    exact parametersAhead_of_moves others ahead
  · cases ahead

theorem arrowAhead_moves {tokens tokens' : List Token}
    (moves : List.Forall₂ (Token.Moves low high) tokens tokens') :
    arrowAhead tokens' = arrowAhead tokens :=
  Bool.eq_iff_iff.mpr ⟨arrowAhead_of_moves moves, arrowAhead_of_moves (moves_symm moves)⟩

/-- The head of a loop over items or keys is made of two words. -/
theorem iterationHead?_eq_some {tokens : List Token} {head : String × Bool}
    (found : iterationHead? tokens = some head) : ∃ place name second word rest,
      tokens = ⟨place, .word name⟩ :: ⟨second, .word word⟩ :: rest ∧
        ∀ place' second' rest', iterationHead?
          (⟨place', .word name⟩ :: ⟨second', .word word⟩ :: rest') = some head := by
  unfold iterationHead? at found
  split at found
  · cases found
    exact ⟨_, _, _, _, _, rfl, fun _ _ _ => rfl⟩
  · cases found
    exact ⟨_, _, _, _, _, rfl, fun _ _ _ => rfl⟩
  · cases found

theorem iterationHead?_of_moves {tokens tokens' : List Token} {head : String × Bool}
    (moves : List.Forall₂ (Token.Moves low high) tokens tokens')
    (found : iterationHead? tokens' = some head) : iterationHead? tokens = some head := by
  obtain ⟨_, _, _, _, _, rfl, same⟩ := iterationHead?_eq_some found
  obtain ⟨_, _, rfl, second⟩ := exists_cons_of_moves moves nofun
  obtain ⟨_, _, rfl, -⟩ := exists_cons_of_moves second nofun
  exact same _ _ _

theorem iterationHead?_moves {tokens tokens' : List Token}
    (moves : List.Forall₂ (Token.Moves low high) tokens tokens') :
    iterationHead? tokens' = iterationHead? tokens :=
  Option.ext fun _ => ⟨iterationHead?_of_moves moves, iterationHead?_of_moves (moves_symm moves)⟩

theorem isDeclarationWord_moves {kind kind' : Option TokenKind}
    (moves : Option.Rel (TokenKind.Moves low high) kind kind') :
    isDeclarationWord kind' = isDeclarationWord kind := by
  unfold isDeclarationWord
  rw [isKeyword_moves moves, isKeyword_moves moves, isKeyword_moves moves]

theorem exists_word_of_isDeclarationWord {kind : Option TokenKind}
    (seen : isDeclarationWord kind = true) : ∃ name, kind = some (.word name) := by
  unfold isDeclarationWord at seen
  simp only [Bool.or_eq_true] at seen
  obtain (seen | seen) | seen := seen <;> exact ⟨_, eq_of_isKeyword seen⟩

/-- What stands behind the word that begins a declaration, where there is one. -/
theorem behindDeclarationWord_moves {stream stream' : TokenStream} (declares : Bool)
    (moves : stream.Moves low high stream') :
    List.Forall₂ (Token.Moves low high) (if declares then stream.tokens.tail else stream.tokens)
      (if declares then stream'.tokens.tail else stream'.tokens) := by
  split
  · rw [← List.drop_one, ← List.drop_one]
    exact List.forall₂_drop 1 moves.tokens
  · exact moves.tokens

theorem balanced_of_behindDeclarationWord {kind : Option TokenKind} {stream : TokenStream}
    (head : Heads kind stream) (braces : Nat)
    (balanced : Balanced braces
      (if isDeclarationWord kind then stream.tokens.tail else stream.tokens)) :
    Balanced braces stream.tokens := by
  split at balanced
  · rename_i declares
    obtain ⟨name, rfl⟩ := exists_word_of_isDeclarationWord declares
    exact balanced_tail head balanced
  · exact balanced

section Levels

variable {levels levels' : Levels} (follow : LevelsFollow low high levels levels')

include follow

theorem follows_nested {read : Level → Reader α}
    (follows : ∀ {level level'}, LevelFollows low high level level' →
      Follows low high 0 0 (read level) (read level')) :
    Follows low high 0 0 (nested levels read) (nested levels' read) := by
  cases follow with
  | nil => exact follows_fail _
  | cons first => exact follows first

theorem follows_statement : Follows low high 0 0 (statement levels) (statement levels') :=
  follows_nested follow LevelFollows.statement

theorem follows_assignment : Follows low high 0 0 (assignment levels) (assignment levels') :=
  follows_nested follow LevelFollows.assignment

theorem follows_operand : Follows low high 0 0 (operand levels) (operand levels') :=
  follows_nested follow LevelFollows.operand

/-! ## Blocks and functions -/

theorem follows_statementsBefore {bound bound' : List Token} (back : List Stmt)
    (same : bound.length = bound'.length) :
    Follows low high 1 0 (statementsBefore levels bound back)
      (statementsBefore levels' bound' back) := by
  have stmt := (follows_statement follow).inside
  induction bound generalizing bound' back with
  | nil =>
    obtain rfl := List.eq_nil_of_length_eq_zero same.symm
    unfold statementsBefore
    refine follows_peek fun kind kind' moves => ?_
    cases moves with
    | none => exact follows_fail _
    | some moves =>
      dsimp only
      rw [isPunctuator_moves (.some moves)]
      split
      · rename_i seen
        cases eq_of_isPunctuator seen
        exact (follows_skip turns_close).map _
      · exact stmt.at.bind fun _ => follows_fail _
  | cons token bound of_bound =>
    obtain ⟨token', bound', rfl⟩ := List.exists_cons_of_length_eq_add_one same.symm
    unfold statementsBefore
    refine follows_peek fun kind kind' moves => ?_
    cases moves with
    | none => exact follows_fail _
    | some moves =>
      dsimp only
      rw [isPunctuator_moves (.some moves)]
      split
      · rename_i seen
        cases eq_of_isPunctuator seen
        exact (follows_skip turns_close).map _
      · exact stmt.at.bind fun _ => of_bound _ (Nat.succ.inj same)

theorem follows_block : Follows low high 0 0 (block levels) (block levels') :=
  (follows_expect_turns "\x7b" turns_open).bind fun _ => follows_remaining fun _ _ same =>
    follows_statementsBefore follow [] same

theorem follows_functionRest (named : Bool) :
    Follows low high 0 0 (functionRest levels named) (functionRest levels' named) := by
  have rest := fun name : Option String => follows_parameters.bind fun params =>
    (follows_block follow).map fun body => FunctionDef.mk name params (.block body)
  unfold functionRest
  refine follows_peek fun kind kind' moves => ?_
  cases moves with
  | none =>
    dsimp only
    split
    · exact (follows_fail _).bind rest
    · exact (follows_pure none).bind rest
  | some moves =>
    cases moves with
    | word name => exact (follows_skip (turns_word 0 name)).bind fun _ => (follows_pure _).bind rest
    | number | string | template | punctuator =>
      dsimp only
      split
      · exact (follows_fail _).bind rest
      · exact (follows_pure none).bind rest

/-! ## Templates -/

theorem wholeExpression_follows {text : List Char} {place place' : Position} {expr : Expr}
    (moves : place.Moves low high place') (read : wholeExpression levels text place = .ok expr) :
    wholeExpression levels' text place' = .ok expr := by
  obtain ⟨stream, rest, cut, of_tokens, none_left⟩ := wholeExpression_eq_ok_iff.mp read
  have same := ofTextAt_moves text moves
  rw [cut] at same
  obtain ⟨stream', cut', stream_moves⟩ := same
  obtain ⟨-, rest', of_tokens', rest_moves⟩ :=
    follows_assignment follow stream stream' expr rest trivial stream_moves of_tokens
  have none_left' := rest_moves.tokens
  rw [none_left, List.forall₂_nil_left_iff] at none_left'
  exact wholeExpression_eq_ok_iff.mpr ⟨stream', rest', cut', of_tokens', none_left'⟩

theorem pieces_follow {parts parts' : List TemplatePart} {found : List Piece}
    (moves : List.Forall₂ (TemplatePart.Moves low high) parts parts')
    (read : pieces levels parts = .ok found) : pieces levels' parts' = .ok found := by
  induction moves generalizing found with
  | nil => exact read
  | cons part _ of_rest =>
    cases part with
    | text value =>
      obtain ⟨more, of_more, rfl⟩ := pieces_text_eq_ok_iff.mp read
      exact pieces_text_eq_ok_iff.mpr ⟨more, of_rest of_more, rfl⟩
    | code source place =>
      obtain ⟨expr, whole, more, of_more, rfl⟩ := pieces_code_eq_ok_iff.mp read
      exact pieces_code_eq_ok_iff.mpr
        ⟨expr, wholeExpression_follows follow place whole, more, of_rest of_more, rfl⟩

/-! ## Operands -/

theorem follows_property : Follows low high 0 0 (property levels) (property levels') := by
  have assigned := follows_assignment follow
  have valued := fun key : String => (follows_expect ":" (by decide)).bind fun _ => assigned.map fun value =>
    Property.fixed key value
  have unknown : ∀ {kind : Option TokenKind} {reader' : Reader Property},
      FollowsFrom low high (Heads kind) 0 0 (do skip; fail .expectedPropertyKey) reader' :=
    follows_of_fails (bind_fails fun _ => fail_ne_ok _)
  unfold property
  refine follows_peek fun kind kind' moves => ?_
  cases moves with
  | none => exact unknown
  | some moves =>
    cases moves with
    | template => exact unknown
    | word name =>
      exact (follows_skip (turns_word 0 name)).bind fun _ =>
        follows_if_take (by decide) (assigned.map _) (follows_pure _)
    | string key => exact (follows_skip (turns_plain 0 rfl rfl)).bind fun _ => valued key
    | number value => exact (follows_skip (turns_plain 0 rfl rfl)).bind fun _ => valued _
    | punctuator text =>
      by_cases bracket : text = "["
      · subst bracket
        exact (follows_skip (turns_text 0 (by decide))).bind fun _ => assigned.bind fun key =>
          (follows_expect "]" (by decide)).bind fun _ =>
            (follows_expect ":" (by decide)).bind fun _ => assigned.map _
      · split
        case h_4 same => exact absurd (TokenKind.punctuator.inj (Option.some.inj same)) bracket
        case h_5 => exact unknown
        all_goals injections

theorem follows_primary : Follows low high 0 0 (primary levels) (primary levels') := by
  have assigned := follows_assignment follow
  unfold primary
  refine follows_position fun start start' starts => follows_peek fun kind kind' moves => ?_
  cases moves with
  | none => exact follows_fail _
  | some moves =>
    cases moves with
    | number value => exact (follows_skip (turns_plain 0 rfl rfl)).map _
    | string value => exact (follows_skip (turns_plain 0 rfl rfl)).map _
    | template parts =>
      exact (follows_skip (turns_plain 0 rfl rfl)).bind fun _ =>
        (follows_lift fun found read => pieces_follow follow parts read).map _
    | word name =>
      refine (follows_skip (turns_word 0 name)).bind fun _ => ?_
      split
      case h_4 | h_5 | h_6 | h_7 | h_9 => exact follows_pure _
      case h_8 => exact (follows_functionRest follow false).map _
      all_goals contradiction
    | punctuator text =>
      by_cases opens : text = "\x7b"
      · subst opens
        exact (follows_skip turns_open).bind fun _ =>
          (follows_separated_brace (follows_property follow)).map _
      by_cases closes : text = "\x7d"
      · subst closes
        exact follows_of_fails (bind_fails fun _ _ _ _ read => nomatch read)
      refine (follows_skip (turns_text 0 ⟨opens, closes⟩)).bind fun _ => ?_
      split
      case h_10 => exact assigned.bind fun expr => (follows_expect ")" (by decide)).map _
      case h_11 => exact (follows_separated assigned "]" (by decide)).map _
      case h_12 same => exact absurd (TokenKind.punctuator.inj same) opens
      case h_13 => exact follows_throw _
      all_goals contradiction

theorem follows_suffixes (expr : Expr) :
    Follows low high 0 0 (suffixes levels expr) (suffixes levels' expr) := by
  induction follow generalizing expr with
  | nil levels' =>
    intro stream stream' value rest _ moves read
    obtain ⟨kind, middle, peeked, read⟩ := bind_eq_ok_iff.mp read
    cases peeked
    have same := isPunctuator_moves (head_moves moves)
    split at read
    · cases read
    · rename_i stops
      cases read
      simp only [Bool.or_eq_true, not_or, Bool.not_eq_true] at stops
      obtain ⟨⟨no_dot, no_key⟩, no_call⟩ := stops
      rw [← same] at no_dot no_key no_call
      exact ⟨fun _ balanced => balanced, stream', suffixes_stop levels' expr no_dot no_key no_call,
        moves⟩
  | cons level deeper of_deeper =>
    have assigned := follows_assignment deeper
    unfold suffixes
    refine follows_if_take (by decide) (follows_identifier.bind fun name => of_deeper _) ?_
    refine follows_if_take (by decide) (assigned.bind fun key =>
      (follows_expect "]" (by decide)).bind fun _ => of_deeper _) ?_
    exact follows_if_take (by decide) ((follows_separated assigned ")" (by decide)).bind
      fun arguments => of_deeper _) (follows_pure expr)

theorem follows_callee : Follows low high 0 0 (callee levels) (callee levels') :=
  (follows_primary follow).bind fun expr => follows_suffixes follow expr

theorem follows_stepped : Follows low high 0 0 (stepped levels) (stepped levels') := by
  refine follows_position fun start start' starts => (follows_callee follow).bind fun expr =>
    follows_position fun here here' heres => ?_
  unfold Position.Moves at starts heres
  by_cases same : here.line = start.line
  · rw [if_pos same, if_pos (by omega)]
    exact follows_if_take (by decide) (follows_pure _)
      (follows_if_take (by decide) (follows_pure _) (follows_pure _))
  · rw [if_neg same, if_neg (by omega)]
    exact follows_pure expr

theorem follows_operandBody : Follows low high 0 0 (operandBody levels) (operandBody levels') := by
  have inside := follows_operand follow
  unfold operandBody
  refine follows_if_take (by decide) (inside.map _) ?_
  refine follows_if_take (by decide) (inside.map _) ?_
  refine follows_if_take (by decide) (inside.map _) ?_
  refine follows_if_takeWord (inside.map _) ?_
  refine follows_if_take (by decide) (inside.map _) ?_
  exact follows_if_take (by decide) (inside.map _) (follows_stepped follow)

/-! ## Operators -/

theorem follows_powerBody : Follows low high 0 0 (powerBody levels) (powerBody levels') :=
  (follows_operand follow).bind fun _ =>
    follows_if_take (by decide) ((follows_nested follow LevelFollows.power).map _) (follows_pure _)

theorem follows_links {table : List (String × α)} (combine : α → Expr → Expr → Expr)
    {next : Levels → Reader Expr} (plain : ∀ entry ∈ table, NoBrace entry.1)
    (follows : ∀ {levels levels'}, LevelsFollow low high levels levels' →
      Follows low high 0 0 (next levels) (next levels')) (left : Expr) :
    Follows low high 0 0 (links table combine next levels left)
      (links table combine next levels' left) := by
  have operator : Follows low high 0 0 (takeOperator table) (takeOperator table) :=
    follows_takeOperator table plain
  induction follow generalizing left with
  | nil levels' =>
    cases levels' with
    | nil =>
      refine operator.bind fun found => ?_
      cases found with
      | none => exact follows_pure left
      | some op => exact follows_fail _
    | cons level' deeper' =>
      refine operator.bind fun found => ?_
      cases found with
      | none => exact follows_pure left
      | some op => exact follows_fail _
  | cons level deeper of_deeper =>
    refine operator.bind fun found => ?_
    cases found with
    | none => exact follows_pure left
    | some op => exact (follows deeper).bind fun right => of_deeper _

theorem follows_chain {table : List (String × α)} (combine : α → Expr → Expr → Expr)
    {next : Levels → Reader Expr}
    (follows : ∀ {levels levels'}, LevelsFollow low high levels levels' →
      Follows low high 0 0 (next levels) (next levels'))
    (plain : ∀ entry ∈ table, NoBrace entry.1) :
    Follows low high 0 0 (chain table combine next levels) (chain table combine next levels') :=
  (follows follow).bind fun left => follows_links follow combine plain follows left

theorem follows_disjunction :
    Follows low high 0 0 (disjunction levels) (disjunction levels') := by
  refine follows_chain follow Expr.logical (fun follow => ?_) (by decide)
  refine follows_chain follow Expr.logical (fun follow => ?_) (by decide)
  refine follows_chain follow Expr.binary (fun follow => ?_) (by decide)
  refine follows_chain follow Expr.binary (fun follow => ?_) (by decide)
  refine follows_chain follow Expr.binary (fun follow => ?_) (by decide)
  exact follows_chain follow Expr.binary follows_powerBody (by decide)

theorem follows_conditional :
    Follows low high 0 0 (conditional levels) (conditional levels') := by
  have assigned := follows_assignment follow
  exact (follows_disjunction follow).bind fun test =>
    follows_if_take (by decide) (assigned.bind fun yes =>
        (follows_expect ":" (by decide)).bind fun _ => assigned.map _)
      (follows_pure test)

/-! ## Arrows and assignments -/

theorem follows_arrow : Follows low high 0 0 (arrow levels) (arrow levels') := by
  have made : ∀ {starts} params body, FollowsFrom low high starts 0 0
      (pure (Expr.function (.mk none params body)) : Reader Expr) (pure _) :=
    fun params body => follows_pure _
  refine follows_arrowHead.bind fun params => ?_
  exact follows_if_sees ((follows_block follow).at.bind fun body => (follows_pure _).bind (made params))
    ((follows_assignment follow).bind fun value => (follows_pure _).bind (made params))

theorem follows_assignmentBody :
    Follows low high 0 0 (assignmentBody levels) (assignmentBody levels') := by
  have assigned := follows_assignment follow
  refine follows_get fun stream stream' _ moves => ?_
  rw [arrowAhead_moves moves.tokens]
  split
  · exact (follows_arrow follow).at
  · refine (follows_conditional follow).at.bind fun target => follows_peek fun kind kind' moves => ?_
    simp only [isPunctuator_moves moves]
    split
    · exact follows_pure target
    · rename_i entry op found
      have is_next : isPunctuator entry kind = true :=
        List.find?_some (p := fun entry : String × Option BinaryOp => isPunctuator entry.1 kind) found
      have seen := eq_of_isPunctuator is_next
      have plain : ∀ entry ∈ assignmentOperators, NoBrace entry.1 := by decide
      subst seen
      split
      · exact (follows_skip (turns_text 0 (plain _ (List.mem_of_find?_eq_some found)))).bind fun _ =>
          assigned.map _
      · exact follows_fail _

/-! ## Statements -/

theorem follows_bindings {bound bound' : List Token} (back : List Binding)
    (same : bound.length = bound'.length) :
    Follows low high 0 0 (bindings levels bound back) (bindings levels' bound' back) := by
  have assigned := follows_assignment follow
  have comma : ∀ {yes yes' no no' : Reader (List Binding)}, Follows low high 0 0 yes yes' →
      Follows low high 0 0 no no' → Follows low high 0 0 (do if ← take "," then yes else no)
        (do if ← take "," then yes' else no') := fun yes no => follows_if_take (by decide) yes no
  induction bound generalizing bound' back with
  | nil =>
    obtain rfl := List.eq_nil_of_length_eq_zero same.symm
    rw [bindings_eq, bindings_eq]
    refine follows_identifier.bind fun name => ?_
    have rest : ∀ init : Option Expr, Follows low high 0 0 _ _ := fun init =>
      comma (follows_pure (Binding.mk name init :: back).reverse)
        (follows_pure (Binding.mk name init :: back).reverse)
    exact follows_if_take (by decide) (assigned.bind fun value => (follows_pure _).bind rest)
      ((follows_pure _).bind rest)
  | cons token bound of_bound =>
    obtain ⟨token', bound', rfl⟩ := List.exists_cons_of_length_eq_add_one same.symm
    rw [bindings_eq, bindings_eq]
    refine follows_identifier.bind fun name => ?_
    have rest : ∀ init : Option Expr, Follows low high 0 0 _ _ := fun init =>
      comma (of_bound (Binding.mk name init :: back) (Nat.succ.inj same))
        (follows_pure (Binding.mk name init :: back).reverse)
    exact follows_if_take (by decide) (assigned.bind fun value => (follows_pure _).bind rest)
      ((follows_pure _).bind rest)

theorem follows_declaration (name : String) :
    FollowsFrom low high (Heads (some (.word name))) 0 0 (declaration levels)
      (declaration levels') :=
  (follows_skip (turns_word 0 name)).bind fun _ => follows_remaining fun _ _ same =>
    (follows_bindings follow [] same).map _

theorem follows_optionalBefore (close : String) (plain : NoBrace close) :
    Follows low high 0 0 (optionalBefore levels close) (optionalBefore levels' close) := by
  have rest : ∀ value : Option Expr, Follows low high 0 0
      (do expect close; return value) (do expect close; return value) :=
    fun value => (follows_expect close plain).map _
  exact follows_if_sees ((follows_pure _).bind rest)
    ((follows_assignment follow).bind fun value => (follows_pure _).bind rest)

theorem follows_condition : Follows low high 0 0 (condition levels) (condition levels') :=
  (follows_expect "(" (by decide)).bind fun _ => (follows_assignment follow).bind fun _ =>
    (follows_expect ")" (by decide)).map _

theorem follows_returnRest {line line' : Nat} (lines : line + high = line' + low) :
    Follows low high 0 0 (returnRest levels line) (returnRest levels' line') := by
  have rest : ∀ value : Option Expr, Follows low high 0 0
      (do endStatement; return Stmt.ret value) (do endStatement; return Stmt.ret value) :=
    fun value => follows_endStatement.map _
  refine follows_position fun here here' heres => follows_peek fun kind kind' moves => ?_
  have ends : kind'.isNone = kind.isNone := by cases moves <;> rfl
  have later : decide (line' < here'.line) = decide (line < here.line) := by
    unfold Position.Moves at heres
    rw [decide_eq_decide]
    omega
  refine follows_ite ?_ (fun _ => (follows_pure _).bind rest)
    ((follows_assignment follow).at.bind fun value => (follows_pure _).bind rest)
  rw [later, ends, isPunctuator_moves moves, isPunctuator_moves moves]

theorem follows_forStatement :
    Follows low high 0 0 (forStatement levels) (forStatement levels') := by
  have assigned := follows_assignment follow
  have stmt := follows_statement follow
  have counted : ∀ init : Option Stmt, Follows low high 0 0
      (do
        expect ";"
        let test ← optionalBefore levels ";"
        let update ← optionalBefore levels ")"
        let body ← statement levels
        return Stmt.forLoop init test update body)
      (do
        expect ";"
        let test ← optionalBefore levels' ";"
        let update ← optionalBefore levels' ")"
        let body ← statement levels'
        return Stmt.forLoop init test update body) :=
    fun init => (follows_expect ";" (by decide)).bind fun _ =>
      (follows_optionalBefore follow ";" (by decide)).bind fun test =>
      (follows_optionalBefore follow ")" (by decide)).bind fun update => stmt.map _
  refine (follows_expect "(" (by decide)).bind fun _ => follows_peek fun kind kind' kinds => ?_
  rw [isDeclarationWord_moves kinds]
  refine follows_get fun stream stream' head moves => ?_
  have ahead := behindDeclarationWord_moves (isDeclarationWord kind) moves
  have balanced_ahead := balanced_of_behindDeclarationWord head
  dsimp only
  generalize (if isDeclarationWord kind then stream.tokens.tail else stream.tokens) = tokens
    at ahead balanced_ahead ⊢
  generalize (if isDeclarationWord kind then stream'.tokens.tail else stream'.tokens) = tokens'
    at ahead ⊢
  rw [iterationHead?_moves ahead]
  split
  · rename_i name isOf found
    obtain ⟨_, _, _, _, rest, rfl, -⟩ := iterationHead?_eq_some found
    have taken : ∀ braces, Balanced (0 + braces) { stream with tokens := rest }.tokens →
        Balanced (0 + braces) stream.tokens :=
      fun braces balanced => balanced_ahead _ (balanced_word (balanced_word balanced))
    have moves_on : TokenStream.Moves low high { stream with tokens := rest }
        { stream' with tokens := tokens'.drop 2 } :=
      ⟨List.forall₂_drop 2 ahead, moves.finish⟩
    exact (follows_set taken moves_on).bind fun _ =>
      assigned.bind fun target => (follows_expect ")" (by decide)).bind fun _ => stmt.map _
  · refine follows_if_sees ((follows_pure _).bind counted) ?_
    refine follows_ite rfl (fun declared => ?_) ?_
    · obtain ⟨name, rfl⟩ := exists_word_of_isDeclarationWord declared
      have declares : FollowsFrom low high (· = stream) 0 0 (declaration levels)
          (declaration levels') :=
        (follows_declaration follow name).narrow fun _ is_this => is_this ▸ head
      exact declares.bind fun init => (follows_pure _).bind counted
    · exact assigned.at.bind fun value => (follows_pure _).bind counted

theorem follows_statementBody :
    Follows low high 0 0 (statementBody levels) (statementBody levels') := by
  have assigned := follows_assignment follow
  have stmt := follows_statement follow
  refine follows_position fun start start' starts => follows_peek fun kind kind' moves => ?_
  have words := isKeyword_moves moves
  refine follows_ite (isPunctuator_moves moves ";") (fun seen => ?_) ?_
  · cases eq_of_isPunctuator seen
    exact (follows_skip (turns_text 0 (by decide))).map _
  refine follows_ite (isPunctuator_moves moves "\x7b") (fun _ => (follows_block follow).at.map _) ?_
  refine follows_ite (isDeclarationWord_moves moves) (fun seen => ?_) ?_
  · obtain ⟨name, rfl⟩ := exists_word_of_isDeclarationWord seen
    exact (follows_declaration follow name).bind fun declared => follows_endStatement.map _
  refine follows_ite (words "function") (fun seen => ?_) ?_
  · cases eq_of_isKeyword seen
    exact (follows_skip (turns_word 0 _)).bind fun _ => (follows_functionRest follow true).map _
  refine follows_ite (words "if") (fun seen => ?_) ?_
  · cases eq_of_isKeyword seen
    exact (follows_skip (turns_word 0 _)).bind fun _ => (follows_condition follow).bind fun test =>
      stmt.bind fun yes => follows_if_takeWord (stmt.map _) (follows_pure _)
  refine follows_ite (words "for") (fun seen => ?_) ?_
  · cases eq_of_isKeyword seen
    exact (follows_skip (turns_word 0 _)).bind fun _ => follows_forStatement follow
  refine follows_ite (words "while") (fun seen => ?_) ?_
  · cases eq_of_isKeyword seen
    exact (follows_skip (turns_word 0 _)).bind fun _ => (follows_condition follow).bind fun test =>
      stmt.map _
  refine follows_ite (words "return") (fun seen => ?_) ?_
  · cases eq_of_isKeyword seen
    exact (follows_skip (turns_word 0 _)).bind fun _ => follows_returnRest follow starts
  refine follows_ite (words "break") (fun seen => ?_) ?_
  · cases eq_of_isKeyword seen
    exact (follows_skip (turns_word 0 _)).bind fun _ => follows_endStatement.map _
  refine follows_ite (words "continue") (fun seen => ?_) ?_
  · cases eq_of_isKeyword seen
    exact (follows_skip (turns_word 0 _)).bind fun _ => follows_endStatement.map _
  · exact assigned.at.bind fun value => follows_endStatement.map _

theorem levelAbove_follows : LevelFollows low high (levelAbove levels) (levelAbove levels') :=
  ⟨follows_statementBody follow, follows_assignmentBody follow, follows_operandBody follow,
    follows_powerBody follow⟩

end Levels

theorem levelsOf_follow {count count' : Nat} (fewer : count ≤ count') :
    LevelsFollow low high (levelsOf count) (levelsOf count') := by
  induction count generalizing count' with
  | zero => exact .nil _
  | succ count of_count =>
    obtain ⟨count', rfl⟩ := Nat.exists_eq_succ_of_ne_zero (Nat.ne_zero_of_lt fewer)
    have deeper := of_count (Nat.le_of_succ_le_succ fewer)
    exact .cons (levelAbove_follows deeper) deeper

/-- What can be read under a number of levels can be read in any place under no fewer levels. -/
theorem wholeExpression_deeper {count count' : Nat} (fewer : count ≤ count') {text : List Char}
    {place : Position} (place' : Position) {expr : Expr}
    (read : wholeExpression (levelsOf count) text place = .ok expr) :
    wholeExpression (levelsOf count') text place' = .ok expr :=
  wholeExpression_follows (levelsOf_follow fewer) (place.moves place') read

/-- All braces of a text that is read as an expression are closed. -/
theorem balanced_of_wholeExpression {count : Nat} {text : List Char} {place : Position} {expr : Expr}
    (read : wholeExpression (levelsOf count) text place = .ok expr) {stream : TokenStream}
    (cut : TokenStream.ofTextAt text place = .ok stream) : Balanced 0 stream.tokens := by
  obtain ⟨_, rest, cut', of_tokens, none_left⟩ := wholeExpression_eq_ok_iff.mp read
  obtain rfl := Except.ok.inj (cut.symm.trans cut')
  have same := ofTextAt_moves text (place.moves place)
  rw [cut] at same
  obtain ⟨stream', -, moves⟩ := same
  have follows := follows_assignment (levelsOf_follow (Nat.le_refl count)) stream stream' expr rest
    trivial moves of_tokens
  refine follows.1 0 ?_
  rw [none_left]
  rfl

end Reader
end Tabletop.Script
