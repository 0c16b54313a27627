import Tabletop.Proofs.Script.Moved
import Tabletop.Proofs.Script.Reading

/-!
Readers that are followed by others: what the first reads from a text, the second reads from the same
text in another place. The braces that a reader takes are counted along the way, as the readers that may
be followed are the ones whose braces close what they open.
-/

namespace Tabletop.Script

open Reader

/-- The tokens close all braces that they open, and so many that are open before. -/
def Balanced : (braces : Nat) → List Token → Prop
  | braces, [] => braces = 0
  | braces, token :: rest =>
    if isPunctuator "\x7b" (some token.kind) then Balanced (braces + 1) rest
    else if isPunctuator "\x7d" (some token.kind) then
      ∃ outer, braces = outer + 1 ∧ Balanced outer rest
    else Balanced braces rest

/-- With `before` braces open, a token leaves `after` of them open. -/
def TokenKind.Turns (before after : Nat) (kind : TokenKind) : Prop :=
  ∀ braces place rest, Balanced (after + braces) rest →
    Balanced (before + braces) (⟨place, kind⟩ :: rest)

theorem turns_open : TokenKind.Turns 0 1 (.punctuator "\x7b") := by
  intro braces place rest balanced
  have opens : isPunctuator "\x7b" (some (.punctuator "\x7b")) = true := by decide
  rw [Nat.zero_add, Balanced]
  dsimp only
  rw [if_pos opens, Nat.add_comm]
  exact balanced

theorem turns_close : TokenKind.Turns 1 0 (.punctuator "\x7d") := by
  intro braces place rest balanced
  have no_open : ¬ isPunctuator "\x7b" (some (.punctuator "\x7d")) = true := by decide
  have closes : isPunctuator "\x7d" (some (.punctuator "\x7d")) = true := by decide
  rw [Balanced]
  dsimp only
  rw [if_neg no_open, if_pos closes]
  exact ⟨braces, Nat.add_comm 1 braces, by rwa [Nat.zero_add] at balanced⟩

/-- No other token opens or closes a brace. -/
theorem turns_plain {kind : TokenKind} (before : Nat)
    (no_open : isPunctuator "\x7b" (some kind) = false)
    (no_close : isPunctuator "\x7d" (some kind) = false) : kind.Turns before before := by
  intro braces place rest balanced
  rw [Balanced, no_open, no_close]
  exact balanced

/-- No brace, which is a side condition on every punctuator that a reader takes. -/
abbrev NoBrace (text : String) : Prop := text ≠ "\x7b" ∧ text ≠ "\x7d"

theorem turns_text {text : String} (before : Nat) (plain : NoBrace text) :
    (TokenKind.punctuator text).Turns before before :=
  turns_plain before (beq_false_of_ne plain.1) (beq_false_of_ne plain.2)

theorem turns_word (before : Nat) (name : String) : (TokenKind.word name).Turns before before :=
  turns_plain before rfl rfl

namespace Reader

/-- From streams that start in a certain way, `after` braces being open where the first reader ends if
`before` were open, the second reader gives what the first one gives, from the same text in another
place. -/
def FollowsFrom {α : Type} (low high : Nat) (starts : TokenStream → Prop) (before after : Nat)
    (reader reader' : Reader α) : Prop :=
  ∀ stream stream' value rest, starts stream → stream.Moves low high stream' →
    reader stream = .ok (value, rest) →
    (∀ braces, Balanced (after + braces) rest.tokens → Balanced (before + braces) stream.tokens) ∧
    ∃ rest', reader' stream' = .ok (value, rest') ∧ rest.Moves low high rest'

abbrev Follows {α : Type} (low high before after : Nat) (reader reader' : Reader α) : Prop :=
  FollowsFrom low high (fun _ => True) before after reader reader'

/-- The next token, or the end. -/
def Heads (kind : Option TokenKind) (stream : TokenStream) : Prop :=
  stream.tokens.head?.map Token.kind = kind

theorem balanced_word {braces : Nat} {place : Position} {name : String} {rest : List Token}
    (balanced : Balanced braces rest) : Balanced braces (⟨place, .word name⟩ :: rest) :=
  turns_word braces name 0 place rest balanced

theorem balanced_tail {braces : Nat} {name : String} {stream : TokenStream}
    (head : Heads (some (.word name)) stream) (balanced : Balanced braces stream.tokens.tail) :
    Balanced braces stream.tokens := by
  obtain ⟨tokens, finish⟩ := stream
  cases tokens with
  | nil => cases head
  | cons token rest =>
    obtain ⟨place, kind⟩ := token
    cases head
    exact balanced_word balanced

section Rules

variable {α β : Type} {low high before between after : Nat} {starts : TokenStream → Prop}

theorem FollowsFrom.at {reader reader' : Reader α}
    (follows : FollowsFrom low high (fun _ => True) before after reader reader') :
    FollowsFrom low high starts before after reader reader' :=
  fun stream stream' value rest _ => follows stream stream' value rest trivial

theorem FollowsFrom.narrow {fewer : TokenStream → Prop} {reader reader' : Reader α}
    (follows : FollowsFrom low high starts before after reader reader')
    (narrower : ∀ stream, fewer stream → starts stream) :
    FollowsFrom low high fewer before after reader reader' :=
  fun stream stream' value rest start =>
    follows stream stream' value rest (narrower stream start)

theorem follows_pure (value : α) :
    FollowsFrom low high starts before before (pure value : Reader α) (pure value) := by
  intro stream stream' result rest _ moves read
  cases read
  exact ⟨fun _ balanced => balanced, stream', rfl, moves⟩

theorem FollowsFrom.bind {first first' : Reader α} {next next' : α → Reader β}
    (follows : FollowsFrom low high starts before between first first')
    (rest : ∀ value, Follows low high between after (next value) (next' value)) :
    FollowsFrom low high starts before after (first >>= next) (first' >>= next') := by
  intro stream stream' result left start moves read
  obtain ⟨value, middle, of_first, of_next⟩ := bind_eq_ok_iff.mp read
  obtain ⟨taken, middle', of_first', middle_moves⟩ :=
    follows stream stream' value middle start moves of_first
  obtain ⟨taken_then, left', of_next', left_moves⟩ :=
    rest value middle middle' result left trivial middle_moves of_next
  exact ⟨fun braces balanced => taken braces (taken_then braces balanced), left',
    bind_eq_ok_iff.mpr ⟨value, middle', of_first', of_next'⟩, left_moves⟩

theorem FollowsFrom.map {first first' : Reader α}
    (follows : FollowsFrom low high starts before after first first') (result : α → β) :
    FollowsFrom low high starts before after (first >>= fun value => Pure.pure (result value))
      (first' >>= fun value => Pure.pure (result value)) :=
  follows.bind fun value => follows_pure (result value)

/-- What is read inside one more pair of braces. -/
theorem FollowsFrom.inside {reader reader' : Reader α}
    (follows : FollowsFrom low high starts before after reader reader') :
    FollowsFrom low high starts (before + 1) (after + 1) reader reader' := by
  intro stream stream' value rest start moves read
  obtain ⟨taken, left⟩ := follows stream stream' value rest start moves read
  refine ⟨fun braces => ?_, left⟩
  rw [Nat.add_right_comm before, Nat.add_right_comm after]
  exact taken (braces + 1)

/-- A reader that gives nothing is followed by any. -/
theorem follows_of_fails {reader reader' : Reader α}
    (fails : ∀ stream value rest, reader stream ≠ .ok (value, rest)) :
    FollowsFrom low high starts before after reader reader' :=
  fun stream _ value rest _ _ read => absurd read (fails stream value rest)

theorem fail_ne_ok (problem : Problem) (stream : TokenStream) (value : α) (rest : TokenStream) :
    (fail problem : Reader α) stream ≠ .ok (value, rest) := by
  intro read
  cases read

theorem follows_fail (problem : Problem) {reader' : Reader α} :
    FollowsFrom low high starts before after (fail problem) reader' :=
  follows_of_fails (fail_ne_ok problem)

theorem follows_throw (error : SourceError) {reader' : Reader α} :
    FollowsFrom low high starts before after (throw error) reader' :=
  follows_of_fails fun _ _ _ read => nomatch read

/-- A choice that is made alike. -/
theorem follows_ite {seen seen' : Bool} {yes yes' no no' : Reader α} (same : seen' = seen)
    (of_yes : seen = true → FollowsFrom low high starts before after yes yes')
    (of_no : FollowsFrom low high starts before after no no') :
    FollowsFrom low high starts before after (if seen then yes else no)
      (if seen' then yes' else no') := by
  subst same
  cases seen' with
  | true => exact of_yes rfl
  | false => exact of_no

theorem follows_lift {read read' : Except SourceError α}
    (same : ∀ value, read = .ok value → read' = .ok value) :
    FollowsFrom low high starts before before (liftM read : Reader α) (liftM read') := by
  intro stream stream' value rest _ moves lifted
  cases read with
  | error e => cases lifted
  | ok result =>
    cases lifted
    rw [same _ rfl]
    exact ⟨fun _ balanced => balanced, stream', rfl, moves⟩

theorem bind_fails {first : Reader α} {next : α → Reader β}
    (fails : ∀ value stream result rest, next value stream ≠ .ok (result, rest))
    (stream : TokenStream) (result : β) (rest : TokenStream) :
    (first >>= next) stream ≠ .ok (result, rest) := by
  intro read
  obtain ⟨value, middle, -, of_next⟩ := bind_eq_ok_iff.mp read
  exact fails value middle result rest of_next

/-! ## Looking at the tokens -/

theorem follows_get {next next' : TokenStream → Reader β}
    (rest : ∀ stream stream', starts stream → stream.Moves low high stream' →
      FollowsFrom low high (· = stream) before after (next stream) (next' stream')) :
    FollowsFrom low high starts before after (get >>= next) (get >>= next') :=
  fun stream stream' result left start moves read =>
    rest stream stream' start moves stream stream' result left rfl moves read

theorem follows_set {stream changed changed' : TokenStream}
    (taken : ∀ braces, Balanced (after + braces) changed.tokens →
      Balanced (before + braces) stream.tokens)
    (moves : changed.Moves low high changed') :
    FollowsFrom low high (· = stream) before after (set changed) (set changed') := by
  rintro _ stream' value rest rfl _ read
  cases read
  exact ⟨taken, changed', rfl, moves⟩

theorem follows_position {next next' : Position → Reader β}
    (rest : ∀ place place', place.Moves low high place' →
      Follows low high before after (next place) (next' place')) :
    Follows low high before after (position >>= next) (position >>= next') := by
  unfold position
  rw [bind_assoc, bind_assoc]
  refine follows_get fun stream stream' _ moves => ?_
  obtain ⟨tokens, finish⟩ := stream
  obtain ⟨tokens', finish'⟩ := stream'
  simp only [pure_bind]
  cases moves.tokens with
  | nil => exact (rest _ _ moves.finish).at
  | cons token => exact (rest _ _ token.position).at

theorem head_moves {stream stream' : TokenStream} (moves : stream.Moves low high stream') :
    Option.Rel (TokenKind.Moves low high) (stream.tokens.head?.map Token.kind)
      (stream'.tokens.head?.map Token.kind) := by
  obtain ⟨tokens, finish⟩ := stream
  obtain ⟨tokens', finish'⟩ := stream'
  cases moves.tokens with
  | nil => exact .none
  | cons token => exact .some token.kind

theorem follows_peek {next next' : Option TokenKind → Reader β}
    (rest : ∀ kind kind', Option.Rel (TokenKind.Moves low high) kind kind' →
      FollowsFrom low high (Heads kind) before after (next kind) (next' kind')) :
    Follows low high before after (peek >>= next) (peek >>= next') :=
  fun stream stream' result left _ moves read =>
    rest _ _ (head_moves moves) stream stream' result left rfl moves read

theorem follows_remaining {next next' : List Token → Reader β}
    (rest : ∀ bound bound', bound.length = bound'.length →
      Follows low high before after (next bound) (next' bound')) :
    Follows low high before after (remaining >>= next) (remaining >>= next') :=
  fun stream stream' result left _ moves read =>
    rest _ _ moves.tokens.length_eq stream stream' result left trivial moves read

/-! ## Single tokens -/

theorem isPunctuator_moves {kind kind' : Option TokenKind}
    (moves : Option.Rel (TokenKind.Moves low high) kind kind') (text : String) :
    isPunctuator text kind' = isPunctuator text kind := by
  cases moves with
  | none => rfl
  | some moves => cases moves <;> rfl

theorem isKeyword_moves {kind kind' : Option TokenKind}
    (moves : Option.Rel (TokenKind.Moves low high) kind kind') (text : String) :
    isKeyword text kind' = isKeyword text kind := by
  cases moves with
  | none => rfl
  | some moves => cases moves <;> rfl

theorem eq_of_isPunctuator {text : String} {kind : Option TokenKind}
    (seen : isPunctuator text kind = true) : kind = some (.punctuator text) := by
  unfold isPunctuator at seen
  split at seen
  · rw [beq_iff_eq] at seen
    rw [seen]
  · cases seen

theorem eq_of_isKeyword {text : String} {kind : Option TokenKind}
    (seen : isKeyword text kind = true) : kind = some (.word text) := by
  unfold isKeyword at seen
  split at seen
  · rw [beq_iff_eq] at seen
    rw [seen]
  · cases seen

theorem follows_skip {kind : TokenKind} (turns : kind.Turns before after) :
    FollowsFrom low high (Heads (some kind)) before after skip skip := by
  intro stream stream' value rest head moves read
  cases read
  obtain ⟨tokens, finish⟩ := stream
  obtain ⟨tokens', finish'⟩ := stream'
  cases moves.tokens with
  | nil => cases head
  | cons token others =>
    cases head
    exact ⟨fun braces => turns braces _ _, _, rfl, others, moves.finish⟩

theorem take_of_not {text : String} {stream : TokenStream}
    (other : isPunctuator text (stream.tokens.head?.map Token.kind) = false) :
    take text stream = .ok (false, stream) := by
  refine bind_eq_ok_iff.mpr ⟨false, stream, ?_, rfl⟩
  rw [← other]
  rfl

theorem follows_if_sees {text : String} {yes yes' no no' : Reader β}
    (of_yes : FollowsFrom low high (Heads (some (.punctuator text))) before after yes yes')
    (of_no : FollowsFrom low high starts before after no no') :
    FollowsFrom low high starts before after (do if ← sees text then yes else no)
      (do if ← sees text then yes' else no') := by
  intro stream stream' value rest start moves read
  obtain ⟨seen, middle, of_sees, read⟩ := bind_eq_ok_iff.mp read
  cases of_sees
  have same := isPunctuator_moves (head_moves moves) text
  have choice : FollowsFrom low high (· = stream) before after
      (if isPunctuator text (stream.tokens.head?.map Token.kind) then yes else no)
      (if isPunctuator text (stream'.tokens.head?.map Token.kind) then yes' else no') :=
    follows_ite same (fun seen => of_yes.narrow fun _ is_this => is_this ▸ eq_of_isPunctuator seen)
      (of_no.narrow fun _ is_this => is_this ▸ start)
  obtain ⟨taken, rest', read', moves⟩ := choice stream stream' value rest rfl moves read
  exact ⟨taken, rest', bind_eq_ok_iff.mpr ⟨_, stream', rfl, read'⟩, moves⟩

theorem follows_if_seesWord {text : String} {yes yes' no no' : Reader β}
    (of_yes : FollowsFrom low high (Heads (some (.word text))) before after yes yes')
    (of_no : Follows low high before after no no') :
    Follows low high before after (do if ← seesWord text then yes else no)
      (do if ← seesWord text then yes' else no') := by
  unfold seesWord
  simp only [bind_assoc, pure_bind]
  refine follows_peek fun kind kind' moves => ?_
  rw [isKeyword_moves moves]
  split
  · rename_i seen
    rw [eq_of_isKeyword seen]
    exact of_yes
  · exact of_no.at

/-- A punctuator that is taken if it comes next. -/
theorem follows_if_turns {text : String} {yes yes' no no' : Reader β}
    (turns : (TokenKind.punctuator text).Turns before between)
    (of_yes : Follows low high between after yes yes') (of_no : Follows low high before after no no') :
    Follows low high before after (do if ← take text then yes else no)
      (do if ← take text then yes' else no') := by
  have taken : ∀ yes no : Reader β, (do if ← take text then yes else no) =
      (do if ← sees text then do skip; yes else no) := by
    intro yes no
    unfold take
    rw [bind_assoc]
    refine bind_congr fun seen => ?_
    cases seen <;> simp
  rw [taken, taken]
  exact follows_if_sees ((follows_skip turns).bind fun _ => of_yes) of_no

theorem follows_if_take {text : String} {yes yes' no no' : Reader β}
    (plain : NoBrace text) (of_yes : Follows low high before after yes yes')
    (of_no : Follows low high before after no no') :
    Follows low high before after (do if ← take text then yes else no)
      (do if ← take text then yes' else no') :=
  follows_if_turns (turns_text before plain) of_yes of_no

theorem follows_if_takeWord {text : String} {yes yes' no no' : Reader β}
    (of_yes : Follows low high before after yes yes') (of_no : Follows low high before after no no') :
    Follows low high before after (do if ← takeWord text then yes else no)
      (do if ← takeWord text then yes' else no') := by
  have taken : ∀ yes no : Reader β, (do if ← takeWord text then yes else no) =
      (do if ← seesWord text then do skip; yes else no) := by
    intro yes no
    unfold takeWord
    rw [bind_assoc]
    refine bind_congr fun seen => ?_
    cases seen <;> simp
  rw [taken, taken]
  exact follows_if_seesWord ((follows_skip (turns_word before text)).bind fun _ => of_yes) of_no

theorem follows_expect_turns (text : String) (turns : (TokenKind.punctuator text).Turns before after) :
    Follows low high before after (expect text) (expect text) :=
  follows_if_turns turns (follows_pure ()) (follows_fail _)

theorem follows_expect (text : String) (plain : NoBrace text) :
    Follows low high before before (expect text) (expect text) :=
  follows_if_take plain (follows_pure ()) (follows_fail _)

theorem follows_identifier : Follows low high before before identifier identifier := by
  refine follows_peek fun kind kind' moves => ?_
  cases moves with
  | none => exact follows_fail _
  | some moves =>
    cases moves with
    | word name => exact (follows_skip (turns_word before name)).map _
    | number | string | template | punctuator => exact follows_fail _

theorem follows_endStatement : Follows low high before before endStatement endStatement := by
  have taken : endStatement = (do if ← take ";" then pure () else pure ()) := by
    unfold endStatement
    refine bind_congr fun taken => ?_
    cases taken <;> rfl
  rw [taken]
  exact follows_if_take (by decide) (follows_pure ()) (follows_pure ())

theorem follows_takeOperator (table : List (String × α))
    (plain : ∀ entry ∈ table, NoBrace entry.1) :
    Follows low high before before (takeOperator table) (takeOperator table) := by
  induction table with
  | nil => exact follows_pure none
  | cons entry rest of_rest =>
    obtain ⟨first, others⟩ := List.forall_mem_cons.mp plain
    exact follows_if_take first (follows_pure _) (of_rest others)

/-! ## Lists -/

section Lists

variable {item item' : Reader α} (follows : Follows low high 0 0 item item')

include follows

theorem follows_itemsBefore (close : String) {bound bound' : List Token} (back : List α)
    (same : bound.length = bound'.length) :
    Follows low high 0 0 (itemsBefore close item bound back)
      (itemsBefore close item' bound' back) := by
  induction bound generalizing bound' back with
  | nil =>
    obtain rfl := List.eq_nil_of_length_eq_zero same.symm
    unfold itemsBefore
    exact follows_if_sees (follows_pure _) (follows.bind fun value =>
      follows_if_take (by decide) (follows_pure _) (follows_pure _))
  | cons token bound of_bound =>
    obtain ⟨token', bound', rfl⟩ := List.exists_cons_of_length_eq_add_one same.symm
    unfold itemsBefore
    exact follows_if_sees (follows_pure _) (follows.bind fun value =>
      follows_if_take (by decide) (of_bound _ (Nat.succ.inj same)) (follows_pure _))

/-- Items and what closes them. -/
theorem follows_separated (close : String) (plain : NoBrace close) :
    Follows low high 0 0 (separated close item) (separated close item') :=
  follows_remaining fun _ _ same => (follows_itemsBefore follows close [] same).bind fun _ =>
    (follows_expect close plain).map _

theorem follows_separated_brace :
    Follows low high 1 0 (separated "\x7d" item) (separated "\x7d" item') :=
  follows_remaining fun _ _ same =>
    (follows_itemsBefore follows "\x7d" [] same).inside.bind fun _ =>
      (follows_expect_turns "\x7d" turns_close).map _

end Lists

theorem follows_parameters : Follows low high 0 0 parameters parameters :=
  (follows_expect "(" (by decide)).bind fun _ => follows_separated follows_identifier ")" (by decide)

theorem follows_arrowHead : Follows low high 0 0 arrowHead arrowHead := by
  have rest : ∀ params : List String, Follows low high 0 0
      (do expect "=>"; return params) (do expect "=>"; return params) :=
    fun params => (follows_expect "=>" (by decide)).map _
  exact follows_if_sees (follows_parameters.at.bind rest)
    (follows_identifier.bind fun name => (follows_pure _).bind rest)

end Rules

end Reader
end Tabletop.Script
