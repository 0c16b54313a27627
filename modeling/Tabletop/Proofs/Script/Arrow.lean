import Tabletop.Proofs.Script.Following.Grammar

/-!
Functions written with an arrow. Main statement: looking ahead sees an arrow function exactly where the
head of one can be read, so no function is read as an expression in parentheses, and no expression as a
function.
-/

namespace Tabletop.Script

/-- The stream that has some tokens more in front. -/
def TokenStream.behind (stream : TokenStream) (tokens : List Token) : TokenStream :=
  ⟨tokens ++ stream.tokens, stream.finish⟩

theorem TokenStream.behind_append (stream : TokenStream) (tokens more : List Token) :
    stream.behind (tokens ++ more) = (stream.behind more).behind tokens := by
  unfold TokenStream.behind
  rw [List.append_assoc]

theorem TokenStream.eq_of_behind {stream other : TokenStream} {first second : Token}
    (same : stream.behind [first] = other.behind [second]) : stream = other := by
  obtain ⟨tokens, finish⟩ := stream
  obtain ⟨others, finish'⟩ := other
  cases same
  rfl

namespace Reader

/-- Parameters with commas between them, up to the closing parenthesis; the last one may have a comma
behind it too. -/
inductive ParameterTokens : List Token → List String → Prop where
  | none (place : Position) : ParameterTokens [⟨place, .punctuator ")"⟩] []
  | last (place behind : Position) (name : String) :
    ParameterTokens [⟨place, .word name⟩, ⟨behind, .punctuator ")"⟩] [name]
  | more (place behind : Position) (name : String) {rest : List Token} {names : List String}
    (others : ParameterTokens rest names) :
    ParameterTokens (⟨place, .word name⟩ :: ⟨behind, .punctuator ","⟩ :: rest) (name :: names)

/-- The head of an arrow function: its parameters, in parentheses unless it is a single one, and the
arrow. -/
inductive HeadTokens : List Token → List String → Prop where
  | single (place arrow : Position) (name : String) :
    HeadTokens [⟨place, .word name⟩, ⟨arrow, .punctuator "=>"⟩] [name]
  | several (place arrow : Position) {tokens : List Token} {names : List String}
    (params : ParameterTokens tokens names) :
    HeadTokens (⟨place, .punctuator "("⟩ :: (tokens ++ [⟨arrow, .punctuator "=>"⟩])) names

/-! ## Looking ahead -/

theorem parametersAhead_iff {tokens : List Token} : parametersAhead tokens = true ↔
    ∃ params names arrow rest, ParameterTokens params names ∧
      tokens = params ++ ⟨arrow, .punctuator "=>"⟩ :: rest := by
  constructor
  · intro ahead
    fun_induction parametersAhead tokens with
    | case1 place arrow rest => exact ⟨_, _, arrow, rest, .none place, rfl⟩
    | case2 place name behind rest of_rest =>
      obtain ⟨params, names, arrow, others, is_list, rfl⟩ := of_rest ahead
      exact ⟨_, _, arrow, others, .more place behind name is_list, rfl⟩
    | case3 place name behind arrow rest => exact ⟨_, _, arrow, rest, .last place behind name, rfl⟩
    | case4 => cases ahead
  · rintro ⟨params, names, arrow, rest, is_list, rfl⟩
    induction is_list with
    | none => rfl
    | last => rfl
    | more place behind name others of_others => exact of_others

theorem arrowAhead_iff {tokens : List Token} : arrowAhead tokens = true ↔
    ∃ head params rest, HeadTokens head params ∧ tokens = head ++ rest := by
  constructor
  · intro ahead
    unfold arrowAhead at ahead
    split at ahead
    · rename_i place name arrow rest
      exact ⟨_, _, rest, .single place arrow name, rfl⟩
    · rename_i place rest
      obtain ⟨params, names, arrow, rest, is_list, rfl⟩ := parametersAhead_iff.mp ahead
      exact ⟨_, _, rest, .several place arrow is_list, by simp⟩
    · cases ahead
  · rintro ⟨head, params, rest, is_head, rfl⟩
    cases is_head with
    | single => rfl
    | several place arrow is_list =>
      exact parametersAhead_iff.mpr ⟨_, _, arrow, rest, is_list, by simp⟩

/-! ## Reading -/

theorem take_behind (text : String) (place : Position) (rest : TokenStream) :
    take text (rest.behind [⟨place, .punctuator text⟩]) = .ok (true, rest) := by
  have seen : isPunctuator text (some (.punctuator text)) = true := beq_self_eq_true text
  refine bind_eq_ok_iff.mpr ⟨true, rest.behind [⟨place, .punctuator text⟩], ?_, rfl⟩
  rw [← seen]
  rfl

theorem take_eq_true_iff {text : String} {stream rest : TokenStream} :
    take text stream = .ok (true, rest) ↔ ∃ place, stream = rest.behind [⟨place, .punctuator text⟩] := by
  constructor
  · intro taken
    obtain ⟨tokens, finish⟩ := stream
    cases seen : isPunctuator text (tokens.head?.map Token.kind) with
    | false =>
      rw [take_of_not seen] at taken
      cases taken
    | true =>
      obtain ⟨⟨place, kind⟩, others, rfl⟩ : ∃ token others, tokens = token :: others := by
        cases tokens with
        | nil => cases seen
        | cons token others => exact ⟨token, others, rfl⟩
      obtain rfl : kind = .punctuator text := Option.some.inj (eq_of_isPunctuator seen)
      have all := (take_behind text place ⟨others, finish⟩).symm.trans taken
      cases all
      exact ⟨place, rfl⟩
  · rintro ⟨place, rfl⟩
    exact take_behind text place rest

theorem expect_eq_ok_iff {text : String} {stream rest : TokenStream} :
    expect text stream = .ok ((), rest) ↔
      ∃ place, stream = rest.behind [⟨place, .punctuator text⟩] := by
  unfold expect
  rw [bind_eq_ok_iff, ← take_eq_true_iff]
  constructor
  · rintro ⟨taken, middle, of_take, read⟩
    cases taken with
    | false => exact absurd read (fail_ne_ok _ _ _ _)
    | true =>
      cases read
      exact of_take
  · intro of_take
    exact ⟨true, rest, of_take, rfl⟩

theorem identifier_eq_ok_iff {name : String} {stream rest : TokenStream} :
    identifier stream = .ok (name, rest) ↔ ∃ place, stream = rest.behind [⟨place, .word name⟩] := by
  constructor
  · intro read
    obtain ⟨tokens, finish⟩ := stream
    cases tokens with
    | nil => cases read
    | cons token others =>
      obtain ⟨place, kind⟩ := token
      cases kind with
      | word word =>
        cases read
        exact ⟨place, rfl⟩
      | number | string | template | punctuator => cases read
  · rintro ⟨place, rfl⟩
    rfl

theorem eq_of_take_false {text : String} {stream after : TokenStream}
    (read : take text stream = .ok (false, after)) : after = stream := by
  obtain ⟨seen, middle, of_sees, read⟩ := bind_eq_ok_iff.mp read
  cases of_sees
  split at read
  · cases read
  · cases read
    rfl

/-- Items end before what closes them, behind the last of them, or behind a comma, after which there may
be more. -/
theorem itemsBefore_cases {α : Type} {close : String} {item : Reader α} {bound : List Token}
    {back items : List α} {stream middle : TokenStream}
    (read : itemsBefore close item bound back stream = .ok (items, middle)) :
    (items = back.reverse ∧ middle = stream) ∨
    ∃ value behind, item stream = .ok (value, behind) ∧
      ((items = (value :: back).reverse ∧ middle = behind) ∨
      ∃ after, take "," behind = .ok (true, after) ∧
        ((items = (value :: back).reverse ∧ middle = after) ∨
        ∃ token others, bound = token :: others ∧
          itemsBefore close item others (value :: back) after = .ok (items, middle))) := by
  unfold itemsBefore at read
  obtain ⟨seen, _, of_sees, read⟩ := bind_eq_ok_iff.mp read
  cases of_sees
  split at read
  · cases read
    exact .inl ⟨rfl, rfl⟩
  · obtain ⟨value, behind, of_item, read⟩ := bind_eq_ok_iff.mp read
    obtain ⟨taken, after, of_take, read⟩ := bind_eq_ok_iff.mp read
    refine .inr ⟨value, behind, of_item, ?_⟩
    cases taken with
    | false =>
      cases read
      exact .inl ⟨rfl, eq_of_take_false of_take⟩
    | true =>
      refine .inr ⟨after, of_take, ?_⟩
      cases bound with
      | nil =>
        cases read
        exact .inl ⟨rfl, rfl⟩
      | cons token others => exact .inr ⟨token, others, rfl, read⟩

/-- Whatever bound there is, what is read before a closing parenthesis are parameters. -/
theorem parameterTokens_of_itemsBefore {bound : List Token} {back items : List String}
    {stream middle rest : TokenStream}
    (read : itemsBefore ")" identifier bound back stream = .ok (items, middle))
    (closes : expect ")" middle = .ok ((), rest)) :
    ∃ params names, ParameterTokens params names ∧ items = back.reverse ++ names ∧
      stream = rest.behind params := by
  obtain ⟨closing, rfl⟩ := expect_eq_ok_iff.mp closes
  obtain ⟨rfl, rfl⟩ | ⟨name, behind, of_identifier, ended⟩ := itemsBefore_cases read
  · exact ⟨_, _, .none closing, (List.append_nil _).symm, rfl⟩
  obtain ⟨place, rfl⟩ := identifier_eq_ok_iff.mp of_identifier
  obtain ⟨rfl, rfl⟩ | ⟨after, of_comma, ended⟩ := ended
  · exact ⟨_, _, .last place closing name, List.reverse_cons, rfl⟩
  obtain ⟨comma, rfl⟩ := take_eq_true_iff.mp of_comma
  obtain ⟨rfl, rfl⟩ | ⟨token, others, rfl, others_read⟩ := ended
  · exact ⟨_, _, .more place comma name (.none closing), List.reverse_cons, rfl⟩
  · obtain ⟨params, names, is_list, rfl, rfl⟩ := parameterTokens_of_itemsBefore others_read closes
    exact ⟨_, _, .more place comma name is_list, by simp, rfl⟩
termination_by bound.length

theorem itemsBefore_parameters {params bound : List Token} {names : List String}
    (back : List String) (is_list : ParameterTokens params names) (enough : params.length ≤ bound.length)
    (rest : TokenStream) :
    ∃ middle, itemsBefore ")" identifier bound back (rest.behind params) =
        .ok (back.reverse ++ names, middle) ∧ expect ")" middle = .ok ((), rest) := by
  have closes : ∀ closing, expect ")" (rest.behind [⟨closing, .punctuator ")"⟩]) = .ok ((), rest) :=
    fun closing => expect_eq_ok_iff.mpr ⟨closing, rfl⟩
  induction is_list generalizing bound back with
  | none place =>
    refine ⟨_, ?_, closes place⟩
    unfold itemsBefore
    rw [List.append_nil]
    exact bind_eq_ok_iff.mpr ⟨true, _, rfl, rfl⟩
  | last place behind name =>
    refine ⟨_, ?_, closes behind⟩
    unfold itemsBefore
    rw [← List.reverse_cons]
    exact bind_eq_ok_iff.mpr ⟨false, _, rfl, bind_eq_ok_iff.mpr
      ⟨name, _, rfl, bind_eq_ok_iff.mpr ⟨false, _, rfl, rfl⟩⟩⟩
  | more place behind name others of_others =>
    cases bound with
    | nil => exact absurd enough (Nat.not_succ_le_zero _)
    | cons token bound =>
      obtain ⟨middle, of_items, closed⟩ := of_others (name :: back)
        (Nat.le_of_succ_le (Nat.le_of_succ_le_succ enough))
      refine ⟨middle, ?_, closed⟩
      unfold itemsBefore
      rw [List.reverse_cons, List.append_assoc] at of_items
      exact bind_eq_ok_iff.mpr ⟨false, _, rfl, bind_eq_ok_iff.mpr
        ⟨name, _, rfl, bind_eq_ok_iff.mpr ⟨true, _, rfl, of_items⟩⟩⟩

theorem parameters_eq_ok_iff {stream rest : TokenStream} {names : List String} :
    parameters stream = .ok (names, rest) ↔ ∃ place params, ParameterTokens params names ∧
      stream = rest.behind (⟨place, .punctuator "("⟩ :: params) := by
  unfold parameters separated
  constructor
  · intro read
    obtain ⟨_, inside, opens, inside_read⟩ := bind_eq_ok_iff.mp read
    obtain ⟨place, rfl⟩ := expect_eq_ok_iff.mp opens
    obtain ⟨bound, _, ⟨⟩, list_read⟩ := bind_eq_ok_iff.mp inside_read
    obtain ⟨items, middle, of_items, closed⟩ := bind_eq_ok_iff.mp list_read
    obtain ⟨_, after, closes, ⟨⟩⟩ := bind_eq_ok_iff.mp closed
    obtain ⟨params, _, is_list, rfl, rfl⟩ := parameterTokens_of_itemsBefore of_items closes
    exact ⟨place, params, is_list, rfl⟩
  · rintro ⟨place, params, is_list, rfl⟩
    have enough : params.length ≤ (rest.behind params).tokens.length := by
      simp [TokenStream.behind]
    obtain ⟨middle, of_items, closes⟩ := itemsBefore_parameters [] is_list enough rest
    exact bind_eq_ok_iff.mpr ⟨(), _, expect_eq_ok_iff.mpr ⟨place, rfl⟩, bind_eq_ok_iff.mpr
      ⟨_, _, rfl, bind_eq_ok_iff.mpr ⟨_, middle, of_items, bind_eq_ok_iff.mpr
        ⟨(), rest, closes, rfl⟩⟩⟩⟩

/-- The head of an arrow function is read exactly where its tokens are. -/
theorem arrowHead_eq_ok_iff {stream rest : TokenStream} {params : List String} :
    arrowHead stream = .ok (params, rest) ↔
      ∃ head, HeadTokens head params ∧ stream = rest.behind head := by
  constructor
  · intro read
    obtain ⟨opens, _, ⟨⟩, params_read⟩ := bind_eq_ok_iff.mp read
    split at params_read
    · obtain ⟨names, middle, of_params, closed⟩ := bind_eq_ok_iff.mp params_read
      obtain ⟨_, after, of_arrow, ⟨⟩⟩ := bind_eq_ok_iff.mp closed
      obtain ⟨arrow, rfl⟩ := expect_eq_ok_iff.mp of_arrow
      obtain ⟨place, params, is_list, rfl⟩ := parameters_eq_ok_iff.mp of_params
      exact ⟨_, .several place arrow is_list,
        (rest.behind_append (⟨place, .punctuator "("⟩ :: params) [⟨arrow, .punctuator "=>"⟩]).symm⟩
    · obtain ⟨name, middle, of_name, closed⟩ := bind_eq_ok_iff.mp params_read
      obtain ⟨_, _, ⟨⟩, arrow_read⟩ := bind_eq_ok_iff.mp closed
      obtain ⟨_, after, of_arrow, ⟨⟩⟩ := bind_eq_ok_iff.mp arrow_read
      obtain ⟨arrow, rfl⟩ := expect_eq_ok_iff.mp of_arrow
      obtain ⟨place, rfl⟩ := identifier_eq_ok_iff.mp of_name
      exact ⟨_, .single place arrow name, rfl⟩
  · rintro ⟨head, is_head, rfl⟩
    cases is_head with
    | single place arrow name => rfl
    | several place arrow is_list =>
      rename_i tokens
      have params_read : parameters ((rest.behind [⟨arrow, .punctuator "=>"⟩]).behind
          (⟨place, .punctuator "("⟩ :: tokens)) = .ok (params, rest.behind [⟨arrow, .punctuator "=>"⟩]) :=
        parameters_eq_ok_iff.mpr ⟨place, tokens, is_list, rfl⟩
      have same : rest.behind (⟨place, .punctuator "("⟩ :: (tokens ++ [⟨arrow, .punctuator "=>"⟩])) =
          (rest.behind [⟨arrow, .punctuator "=>"⟩]).behind (⟨place, .punctuator "("⟩ :: tokens) :=
        rest.behind_append (⟨place, .punctuator "("⟩ :: tokens) [⟨arrow, .punctuator "=>"⟩]
      rw [same]
      exact bind_eq_ok_iff.mpr ⟨true, _, rfl, bind_eq_ok_iff.mpr ⟨params, _, params_read, bind_eq_ok_iff.mpr
        ⟨(), rest, expect_eq_ok_iff.mpr ⟨arrow, rfl⟩, rfl⟩⟩⟩

/-! ## Expressions -/

/-- Wherever a reader gets to from a stream, it is a good place. -/
def Leaves {α : Type} (good : TokenStream → Prop) (reader : Reader α) (stream : TokenStream) : Prop :=
  ∀ value rest, reader stream = .ok (value, rest) → good rest

/-- Punctuators that no expression goes on with. -/
abbrev stops : List String := [")", ",", "=>"]

/-- The next token is a punctuator that no expression goes on with. -/
def Stopped (stream : TokenStream) : Prop :=
  ∃ text ∈ stops, stream.tokens.head?.map Token.kind = some (.punctuator text)

section Rules

variable {α β : Type} {good : TokenStream → Prop} {stream : TokenStream}

theorem Leaves.bind {between : TokenStream → Prop} {first : Reader α} {next : α → Reader β}
    (leaves : Leaves between first stream)
    (rest : ∀ value middle, between middle → Leaves good (next value) middle) :
    Leaves good (first >>= next) stream := by
  intro result left read
  obtain ⟨value, middle, of_first, of_next⟩ := bind_eq_ok_iff.mp read
  exact rest value middle (leaves value middle of_first) result left of_next

theorem leaves_pure {value : α} (is_good : good stream) : Leaves good (pure value) stream := by
  intro result rest read
  cases read
  exact is_good

theorem Leaves.map {first : Reader α} {made : α → β} (leaves : Leaves good first stream) :
    Leaves good (first >>= fun value => pure (made value)) stream :=
  leaves.bind fun _ _ is_good => leaves_pure is_good

theorem leaves_fail (problem : Problem) : Leaves good (fail problem : Reader α) stream :=
  fun _ _ read => absurd read (fail_ne_ok _ _ _ _)

theorem leaves_position : Leaves (stream = ·) position stream := by
  intro value rest read
  cases read
  rfl

theorem leaves_peek {next : Option TokenKind → Reader α}
    (leaves : Leaves good (next (stream.tokens.head?.map Token.kind)) stream) :
    Leaves good (peek >>= next) stream := leaves

theorem leaves_skip {next : Unit → Reader α}
    (leaves : Leaves good (next ()) { stream with tokens := stream.tokens.tail }) :
    Leaves good (skip >>= next) stream := leaves

/-- A punctuator that does not come next is not taken. -/
theorem leaves_if_take {text : String} {yes no : Reader α}
    (other : isPunctuator text (stream.tokens.head?.map Token.kind) = false)
    (leaves : Leaves good no stream) : Leaves good (do if ← take text then yes else no) stream := by
  intro value rest read
  obtain ⟨taken, middle, of_take, read⟩ := bind_eq_ok_iff.mp read
  rw [take_of_not other] at of_take
  cases of_take
  exact leaves value rest read

theorem leaves_if_takeWord {text : String} {yes no : Reader α}
    (of_yes : isKeyword text (stream.tokens.head?.map Token.kind) = true →
      Leaves good yes { stream with tokens := stream.tokens.tail })
    (of_no : Leaves good no stream) :
    Leaves good (do if ← takeWord text then yes else no) stream := by
  intro value rest read
  obtain ⟨taken, middle, of_take, read⟩ := bind_eq_ok_iff.mp read
  obtain ⟨seen, _, ⟨⟩, of_take⟩ := bind_eq_ok_iff.mp of_take
  split at of_take
  · rename_i seen
    cases of_take
    exact of_yes seen value rest read
  · cases of_take
    exact of_no value rest read

theorem leaves_expect {text : String}
    (other : isPunctuator text (stream.tokens.head?.map Token.kind) = false) :
    Leaves good (expect text) stream :=
  leaves_if_take other (leaves_fail _)

theorem Stopped.sees_eq_false (stopped : Stopped stream) {text : String} (goes_on : text ∉ stops) :
    isPunctuator text (stream.tokens.head?.map Token.kind) = false := by
  obtain ⟨other, is_stop, next⟩ := stopped
  rw [next]
  exact beq_eq_false_iff_ne.mpr fun same => goes_on (same ▸ is_stop)

theorem takeOperator_of_stopped (stopped : Stopped stream) {table : List (String × α)}
    (operators : ∀ entry ∈ table, entry.1 ∉ stops) : takeOperator table stream = .ok (none, stream) := by
  induction table with
  | nil => rfl
  | cons entry rest of_rest =>
    obtain ⟨first, others⟩ := List.forall_mem_cons.mp operators
    unfold takeOperator
    exact bind_eq_ok_iff.mpr ⟨false, stream, take_of_not (stopped.sees_eq_false first), of_rest others⟩

theorem links_of_stopped (stopped : Stopped stream) {table : List (String × α)}
    (operators : ∀ entry ∈ table, entry.1 ∉ stops) (combine : α → Expr → Expr → Expr)
    (next : Levels → Reader Expr) (levels : Levels) (left : Expr) :
    links table combine next levels left stream = .ok (left, stream) := by
  cases levels <;>
    exact bind_eq_ok_iff.mpr ⟨none, stream, takeOperator_of_stopped stopped operators, rfl⟩

variable (all_stopped : ∀ stream, good stream → Stopped stream)

include all_stopped

theorem leaves_chain {table : List (String × α)} (operators : ∀ entry ∈ table, entry.1 ∉ stops)
    (combine : α → Expr → Expr → Expr) {next : Levels → Reader Expr} {levels : Levels}
    (leaves : Leaves good (next levels) stream) :
    Leaves good (chain table combine next levels) stream := by
  refine leaves.bind fun left middle is_good => ?_
  intro value rest read
  rw [links_of_stopped (all_stopped middle is_good) operators] at read
  cases read
  exact is_good

theorem leaves_conditional {levels : Levels} (leaves : Leaves good (operand levels) stream) :
    Leaves good (conditional levels) stream := by
  have power : Leaves good (powerBody levels) stream :=
    leaves.bind fun base middle is_good =>
      leaves_if_take ((all_stopped middle is_good).sees_eq_false (by decide)) (leaves_pure is_good)
  have operators : Leaves good (disjunction levels) stream := by
    refine leaves_chain all_stopped (by decide) Expr.logical ?_
    refine leaves_chain all_stopped (by decide) Expr.logical ?_
    refine leaves_chain all_stopped (by decide) Expr.binary ?_
    refine leaves_chain all_stopped (by decide) Expr.binary ?_
    refine leaves_chain all_stopped (by decide) Expr.binary ?_
    exact leaves_chain all_stopped (by decide) Expr.binary power
  exact operators.bind fun test middle is_good =>
    leaves_if_take ((all_stopped middle is_good).sees_eq_false (by decide)) (leaves_pure is_good)

theorem leaves_stepped {levels : Levels} (leaves : Leaves good (primary levels) stream) :
    Leaves good (stepped levels) stream := by
  have callees : Leaves good (callee levels) stream := by
    refine leaves.bind fun expr middle is_good => ?_
    have stopped := all_stopped middle is_good
    intro value rest read
    rw [suffixes_stop levels expr (stopped.sees_eq_false (by decide))
      (stopped.sees_eq_false (by decide)) (stopped.sees_eq_false (by decide))] at read
    cases read
    exact is_good
  refine leaves_position.bind fun start _ same => ?_
  subst same
  refine callees.bind fun expr middle is_good => leaves_position.bind fun here _ same => ?_
  subst same
  have stopped := all_stopped middle is_good
  split
  · exact leaves_if_take (stopped.sees_eq_false (by decide))
      (leaves_if_take (stopped.sees_eq_false (by decide)) (leaves_pure is_good))
  · exact leaves_pure is_good

theorem leaves_operandBody {levels : Levels}
    (plain : ∀ text ∈ ["!", "-", "+", "++", "--"],
      isPunctuator text (stream.tokens.head?.map Token.kind) = false)
    (of_typeof : isKeyword "typeof" (stream.tokens.head?.map Token.kind) = true →
      Leaves good (operand levels) { stream with tokens := stream.tokens.tail })
    (leaves : Leaves good (primary levels) stream) : Leaves good (operandBody levels) stream := by
  refine leaves_if_take (plain _ (by decide)) ?_
  refine leaves_if_take (plain _ (by decide)) ?_
  refine leaves_if_take (plain _ (by decide)) ?_
  refine leaves_if_takeWord (fun seen => (of_typeof seen).map) ?_
  refine leaves_if_take (plain _ (by decide)) ?_
  refine leaves_if_take (plain _ (by decide)) ?_
  exact leaves_stepped all_stopped leaves

end Rules

/-! ## What looks like the start of a function -/

theorem leaves_primary_word {levels : Levels} {stream : TokenStream} (stopped : Stopped stream)
    (place : Position) (name : String) :
    Leaves (stream = ·) (primary levels) (stream.behind [⟨place, .word name⟩]) := by
  have no_function : Leaves (stream = ·) (functionRest levels false) stream := by
    intro value rest read
    obtain ⟨kind, _, ⟨⟩, kind_read⟩ := bind_eq_ok_iff.mp read
    have no_opening : Leaves (fun _ => False) (expect "(") stream :=
      leaves_expect (stopped.sees_eq_false (by decide))
    obtain ⟨text, -, head⟩ := stopped
    rw [head] at kind_read
    obtain ⟨_, _, ⟨⟩, params_read⟩ := bind_eq_ok_iff.mp kind_read
    obtain ⟨_, _, of_params, -⟩ := bind_eq_ok_iff.mp params_read
    obtain ⟨_, _, opens, -⟩ := bind_eq_ok_iff.mp of_params
    exact (no_opening _ _ opens).elim
  unfold primary
  refine leaves_position.bind fun start _ same => ?_
  subst same
  refine leaves_peek (leaves_skip ?_)
  split
  case h_4 | h_5 | h_6 | h_7 | h_9 => exact leaves_pure rfl
  case h_8 => exact no_function.map
  all_goals contradiction

theorem leaves_primary_stopped {levels : Levels} {stream : TokenStream} (stopped : Stopped stream) :
    Leaves (fun _ => False) (primary levels) stream := by
  intro value rest read
  obtain ⟨text, is_stop, head⟩ := stopped
  obtain ⟨start, _, ⟨⟩, kind_read⟩ := bind_eq_ok_iff.mp read
  obtain ⟨kind, _, ⟨⟩, value_read⟩ := bind_eq_ok_iff.mp kind_read
  rw [head] at value_read
  obtain ⟨_, _, ⟨⟩, value_read⟩ := bind_eq_ok_iff.mp value_read
  simp only [stops, List.mem_cons, List.not_mem_nil, or_false] at is_stop
  obtain rfl | rfl | rfl := is_stop <;> cases value_read

theorem leaves_primary_parenthesis {good inside : TokenStream → Prop} {levels : Levels}
    {stream : TokenStream} (place : Position) (leaves : Leaves inside (expression levels) stream)
    (closes : ∀ middle, inside middle → Leaves good (expect ")") middle) :
    Leaves good (primary levels) (stream.behind [⟨place, .punctuator "("⟩]) := by
  intro value rest read
  obtain ⟨start, _, ⟨⟩, kind_read⟩ := bind_eq_ok_iff.mp read
  obtain ⟨kind, _, ⟨⟩, value_read⟩ := bind_eq_ok_iff.mp kind_read
  obtain ⟨_, _, ⟨⟩, value_read⟩ := bind_eq_ok_iff.mp value_read
  exact leaves.bind (fun expr middle is_inside => (closes middle is_inside).map) value rest value_read

theorem find_operator_eq_none {kind : Option TokenKind}
    (no_operator : ∀ entry ∈ assignmentOperators, isPunctuator entry.1 kind = false) :
    (assignmentOperators.find? fun entry => isPunctuator entry.1 kind) = none :=
  List.find?_eq_none.mpr fun entry is_one => Bool.eq_false_iff.mp (no_operator entry is_one)

section Levels

variable {good : TokenStream → Prop} {stream : TokenStream}

theorem leaves_operand (leaves : ∀ count, Leaves good (operandBody (levelsOf count)) stream)
    (count : Nat) : Leaves good (operand (levelsOf count)) stream := by
  cases count with
  | zero => exact leaves_fail _
  | succ count => exact leaves count

theorem leaves_assignment (all_stopped : ∀ stream, good stream → Stopped stream)
    (no_arrow : arrowAhead stream.tokens = false)
    (leaves : ∀ count, Leaves good (conditional (levelsOf count)) stream) (count : Nat) :
    Leaves good (assignment (levelsOf count)) stream := by
  cases count with
  | zero => exact leaves_fail _
  | succ count =>
    change Leaves good (assignmentBody (levelsOf count)) stream
    intro value rest read
    obtain ⟨_, _, ⟨⟩, read⟩ := bind_eq_ok_iff.mp read
    rw [no_arrow] at read
    refine (leaves count).bind (fun target middle is_good => leaves_peek ?_) value rest read
    have operators : ∀ entry ∈ assignmentOperators, entry.1 ∉ stops := by decide
    rw [find_operator_eq_none fun entry is_one =>
      (all_stopped middle is_good).sees_eq_false (operators entry is_one)]
    exact leaves_pure is_good

/-- No operand starts with what no expression goes on with. -/
theorem leaves_operand_stopped (stopped : Stopped stream) (count : Nat) :
    Leaves (fun _ => False) (operand (levelsOf count)) stream := by
  refine leaves_operand (fun count => leaves_operandBody (fun _ => False.elim) ?_ ?_
    (leaves_primary_stopped stopped)) count
  · have others : ∀ text ∈ ["!", "-", "+", "++", "--"], text ∉ stops := by decide
    exact fun text is_one => stopped.sees_eq_false (others text is_one)
  · obtain ⟨text, -, head⟩ := stopped
    rw [head]
    exact fun is_word => nomatch is_word

theorem leaves_expression_stopped (stopped : Stopped stream) (no_arrow : arrowAhead stream.tokens = false)
    (count : Nat) : Leaves (fun _ => False) (expression (levelsOf count)) stream :=
  leaves_assignment (fun _ => False.elim) no_arrow (fun count =>
    leaves_conditional (fun _ => False.elim) (leaves_operand_stopped stopped count)) count

/-- A single word before what no expression goes on with is all of an expression. -/
theorem leaves_conditional_word (stopped : Stopped stream) (place : Position) (name : String)
    (count : Nat) :
    Leaves (stream = ·) (conditional (levelsOf count)) (stream.behind [⟨place, .word name⟩]) := by
  have all_stopped : ∀ other, stream = other → Stopped other := fun _ same => same ▸ stopped
  refine leaves_conditional all_stopped (leaves_operand (fun count =>
    leaves_operandBody all_stopped ?_ ?_ (leaves_primary_word stopped place name)) count)
  · exact fun text is_one => rfl
  · exact fun _ value rest read => (leaves_operand_stopped stopped count value rest read).elim

/-- Parameters in parentheses are one word in parentheses, or no expression. -/
theorem leaves_primary_parameters {params : List Token} {names : List String}
    (is_list : ParameterTokens params names) (place : Position) (count : Nat) :
    Leaves (stream = ·) (primary (levelsOf count))
      (stream.behind (⟨place, .punctuator "("⟩ :: params)) := by
  have goes : ∀ {inside : TokenStream → Prop}, Leaves inside (expression (levelsOf count)) (stream.behind params) →
      (∀ middle, inside middle → Leaves (stream = ·) (expect ")") middle) →
      Leaves (stream = ·) (primary (levelsOf count)) (stream.behind (⟨place, .punctuator "("⟩ :: params)) :=
    fun leaves closes => leaves_primary_parenthesis place leaves closes
  have word : ∀ {inside : TokenStream} (first : Position) (name : String), Stopped inside →
      arrowAhead (inside.behind [⟨first, .word name⟩]).tokens = false →
      Leaves (inside = ·) (expression (levelsOf count)) (inside.behind [⟨first, .word name⟩]) :=
    fun first name stopped no_arrow => leaves_assignment (by rintro _ rfl; exact stopped) no_arrow
      (leaves_conditional_word stopped first name) count
  cases is_list with
  | none closing =>
    have stopped : Stopped (stream.behind [⟨closing, .punctuator ")"⟩]) := ⟨")", by decide, rfl⟩
    exact goes (leaves_expression_stopped stopped rfl count) fun _ => False.elim
  | last first closing name =>
    have stopped : Stopped (stream.behind [⟨closing, .punctuator ")"⟩]) := ⟨")", by decide, rfl⟩
    refine goes (word first name stopped rfl) ?_
    rintro _ rfl value rest read
    obtain ⟨_, same⟩ := expect_eq_ok_iff.mp read
    exact TokenStream.eq_of_behind same
  | more first comma name others =>
    rename_i rest names
    have stopped : Stopped (stream.behind (⟨comma, .punctuator ","⟩ :: rest)) := ⟨",", by decide, rfl⟩
    refine goes (word first name stopped rfl) ?_
    rintro _ rfl
    exact leaves_expect rfl

theorem leaves_conditional_parameters (stopped : Stopped stream) {params : List Token}
    {names : List String} (is_list : ParameterTokens params names) (place : Position) (count : Nat) :
    Leaves (stream = ·) (conditional (levelsOf count))
      (stream.behind (⟨place, .punctuator "("⟩ :: params)) := by
  have all_stopped : ∀ other, stream = other → Stopped other := fun _ same => same ▸ stopped
  have no_sign : ∀ text ∈ ["!", "-", "+", "++", "--"],
      isPunctuator text (some (.punctuator "(")) = false := by decide
  refine leaves_conditional all_stopped (leaves_operand (fun count =>
    leaves_operandBody all_stopped ?_ ?_ (leaves_primary_parameters is_list place count)) count)
  · exact no_sign
  · exact fun is_word => nomatch is_word

/-- The head of an arrow function is read as an expression up to its arrow, or not at all. -/
theorem leaves_conditional_head {head : List Token} {params : List String}
    (is_head : HeadTokens head params) (count : Nat) :
    Leaves (Heads (some (.punctuator "=>"))) (conditional (levelsOf count)) (stream.behind head) := by
  have at_arrow : ∀ place, Stopped (stream.behind [⟨place, .punctuator "=>"⟩]) :=
    fun place => ⟨"=>", by decide, rfl⟩
  intro value rest read
  cases is_head with
  | single place arrow name =>
    obtain rfl := leaves_conditional_word (at_arrow arrow) place name count value rest read
    rfl
  | several place arrow is_list =>
    rw [← List.cons_append, TokenStream.behind_append] at read
    obtain rfl := leaves_conditional_parameters (at_arrow arrow) is_list place count value rest read
    rfl

end Levels

/-! ## The choice between the two -/

theorem arrowAhead_iff_arrowHead {stream : TokenStream} : arrowAhead stream.tokens = true ↔
    ∃ params rest, arrowHead stream = .ok (params, rest) := by
  rw [arrowAhead_iff]
  constructor
  · rintro ⟨head, params, rest, is_head, tokens⟩
    exact ⟨params, ⟨rest, stream.finish⟩, arrowHead_eq_ok_iff.mpr ⟨head, is_head, by
      unfold TokenStream.behind
      rw [← tokens]⟩⟩
  · rintro ⟨params, rest, read⟩
    obtain ⟨head, is_head, rfl⟩ := arrowHead_eq_ok_iff.mp read
    exact ⟨head, params, rest.tokens, is_head, rfl⟩

theorem assignmentBody_of_arrowAhead {levels : Levels} {stream : TokenStream}
    (ahead : arrowAhead stream.tokens = true) : assignmentBody levels stream = arrow levels stream := by
  change (if arrowAhead stream.tokens then arrow levels else _ : Reader Expr) stream = _
  rw [ahead]
  rfl

theorem assignmentBody_of_conditional {levels : Levels} {stream rest : TokenStream} {expr : Expr}
    (no_arrow : arrowAhead stream.tokens = false) (read : conditional levels stream = .ok (expr, rest))
    (no_operator : ∀ entry ∈ assignmentOperators, ¬ Heads (some (.punctuator entry.1)) rest) :
    assignmentBody levels stream = .ok (expr, rest) := by
  refine bind_eq_ok_iff.mpr ⟨stream, stream, rfl, ?_⟩
  rw [no_arrow]
  refine bind_eq_ok_iff.mpr ⟨expr, rest, read, bind_eq_ok_iff.mpr ⟨_, rest, rfl, ?_⟩⟩
  rw [find_operator_eq_none fun entry is_one =>
    Bool.eq_false_iff.mpr fun seen => no_operator entry is_one (eq_of_isPunctuator seen)]
  rfl

/-- An arrow function is seen ahead exactly where its head can be read, and that is where its tokens
stand. So what can be read as a function is read as it, and what can be read as an expression, if no arrow
follows, is not taken for a function: it is read as that expression, unless something is assigned to it. -/
theorem arrow_heads_are_foreseen (stream : TokenStream) :
    (arrowAhead stream.tokens = true ↔ ∃ params rest, arrowHead stream = .ok (params, rest)) ∧
    (∀ params rest, arrowHead stream = .ok (params, rest) ↔
      ∃ head, HeadTokens head params ∧ stream = rest.behind head) ∧
    ∀ count,
      (∀ function rest, arrow (levelsOf count) stream = .ok (function, rest) →
        assignmentBody (levelsOf count) stream = .ok (function, rest)) ∧
      ∀ expr rest, conditional (levelsOf count) stream = .ok (expr, rest) →
        ¬ Heads (some (.punctuator "=>")) rest →
        arrowAhead stream.tokens = false ∧
          ((∀ entry ∈ assignmentOperators, ¬ Heads (some (.punctuator entry.1)) rest) →
            assignmentBody (levelsOf count) stream = .ok (expr, rest)) := by
  refine ⟨arrowAhead_iff_arrowHead, fun params rest => arrowHead_eq_ok_iff, fun count => ⟨?_, ?_⟩⟩
  · intro function rest read
    obtain ⟨params, middle, of_head, -⟩ := bind_eq_ok_iff.mp read
    rw [assignmentBody_of_arrowAhead (arrowAhead_iff_arrowHead.mpr ⟨params, middle, of_head⟩)]
    exact read
  · intro expr rest read no_arrow
    have not_ahead : arrowAhead stream.tokens = false := by
      refine Bool.eq_false_iff.mpr fun ahead => ?_
      obtain ⟨params, middle, of_head⟩ := arrowAhead_iff_arrowHead.mp ahead
      obtain ⟨head, is_head, rfl⟩ := arrowHead_eq_ok_iff.mp of_head
      exact no_arrow (leaves_conditional_head is_head count expr rest read)
    exact ⟨not_ahead, assignmentBody_of_conditional not_ahead read⟩

/-- Two parameters with a comma behind the last one, and one of them in parentheses that is added to
something. -/
theorem arrow_heads_are_foreseen_listed :
    let place := Position.start
    let word (name : String) : Token := ⟨place, .word name⟩
    let mark (text : String) : Token := ⟨place, .punctuator text⟩
    let function : TokenStream :=
      ⟨[mark "(", word "a", mark ",", word "b", mark ",", mark ")", mark "=>", word "a"], place⟩
    let sum : TokenStream := ⟨[mark "(", word "a", mark ")", mark "+", word "b", mark ")"], place⟩
    let closed : TokenStream := ⟨[mark ")"], place⟩
    let made : Expr := .function (.mk none ["a", "b"] (.value (.name "a")))
    let added : Expr := .binary .add (.name "a") (.name "b")
    arrowAhead function.tokens = true ∧
      arrow (levelsOf 3) function = .ok (made, ⟨[], place⟩) ∧
      assignmentBody (levelsOf 3) function = .ok (made, ⟨[], place⟩) ∧
      conditional (levelsOf 3) sum = .ok (added, closed) ∧
      ¬ Heads (some (.punctuator "=>")) closed ∧ arrowAhead sum.tokens = false ∧
      assignmentBody (levelsOf 3) sum = .ok (added, closed) := by
  intro place word mark function sum closed made added
  obtain ⟨ahead, -, of_function⟩ := arrow_heads_are_foreseen function
  obtain ⟨-, -, of_sum⟩ := arrow_heads_are_foreseen sum
  have made_read : arrow (levelsOf 3) function = .ok (made, ⟨[], place⟩) := rfl
  have added_read : conditional (levelsOf 3) sum = .ok (added, closed) := rfl
  have no_arrow : ¬ Heads (some (.punctuator "=>")) closed := by simp [Heads, closed, mark]
  have no_operator : ∀ entry ∈ assignmentOperators, ¬ Heads (some (.punctuator entry.1)) closed := by
    simp [assignmentOperators, Heads, closed, mark]
  obtain ⟨not_ahead, sum_read⟩ := (of_sum 3).2 added closed added_read no_arrow
  exact ⟨ahead.mpr ⟨["a", "b"], ⟨[word "a"], place⟩, rfl⟩, made_read,
    (of_function 3).1 made ⟨[], place⟩ made_read, added_read, no_arrow, not_ahead,
    sum_read no_operator⟩

end Reader
end Tabletop.Script
