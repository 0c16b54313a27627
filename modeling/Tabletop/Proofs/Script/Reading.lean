import Tabletop.Script.Tree.Grammar
import Tabletop.Proofs.Attempt
import Tabletop.Proofs.Script.Fits.Token
import Mathlib.Data.List.Infix
import Mathlib.Data.Option.Basic

/-!
What readers give, taken one by one: from tokens that fit a limit a reader gives a good value and leaves
tokens that fit. Single tokens and lists of items are read here.
-/

namespace Tabletop.Script.Reader

variable {α β : Type} {limit : Nat}

/-- From tokens that fit a reader gives a good value and leaves tokens that fit. -/
def Gives (limit : Nat) (good : α → Prop) (reader : Reader α) : Prop :=
  ∀ stream value rest, stream.Fits limit → reader stream = .ok (value, rest) →
    good value ∧ rest.Fits limit

/-- A reader of which it does not matter here what it gives. -/
abbrev Passes (limit : Nat) (reader : Reader α) : Prop := reader.Gives limit fun _ => True

theorem bind_eq_ok_iff {first : Reader α} {next : α → Reader β} {stream rest : TokenStream}
    {result : β} : (first >>= next) stream = .ok (result, rest) ↔
      ∃ value middle, first stream = .ok (value, middle) ∧
        next value middle = .ok (result, rest) := by
  change (first stream >>= fun read => next read.1 read.2) = _ ↔ _
  rw [Except.bind_eq_ok_iff, Prod.exists]

/-- A text is one expression if its tokens are, up to the last. -/
theorem wholeExpression_eq_ok_iff {levels : Levels} {text : List Char} {place : Position}
    {expr : Expr} : wholeExpression levels text place = .ok expr ↔
      ∃ stream rest, TokenStream.ofTextAt text place = .ok stream ∧
        assignment levels stream = .ok (expr, rest) ∧ rest.tokens = [] := by
  unfold wholeExpression
  simp only [Except.bind_eq_ok_iff, Prod.exists]
  constructor
  · rintro ⟨stream, cut, whole, rest, read, ended⟩
    split at ended
    · rename_i none_left
      cases ended
      exact ⟨stream, rest, cut, read, none_left⟩
    · cases ended
  · rintro ⟨stream, rest, cut, read, none_left⟩
    refine ⟨stream, cut, expr, rest, read, ?_⟩
    rw [none_left]
    rfl

theorem pieces_text_eq_ok_iff {levels : Levels} {value : List Char} {rest : List TemplatePart}
    {found : List Piece} : pieces levels (.text value :: rest) = .ok found ↔
      ∃ more, pieces levels rest = .ok more ∧ .text (String.ofList value) :: more = found := by
  simp only [pieces, Except.bind_eq_ok_iff, pure, Except.pure, Except.ok.injEq]

theorem pieces_code_eq_ok_iff {levels : Levels} {source : List Char} {place : Position}
    {rest : List TemplatePart} {found : List Piece} :
    pieces levels (.code source place :: rest) = .ok found ↔
      ∃ expr, wholeExpression levels source place = .ok expr ∧
        ∃ more, pieces levels rest = .ok more ∧ .code expr :: more = found := by
  simp only [pieces, Except.bind_eq_ok_iff, pure, Except.pure, Except.ok.injEq]

section Rules

variable {good : α → Prop} {better : β → Prop}

theorem Gives.pure {value : α} (is_good : good value) : Gives limit good (pure value) := by
  intro stream result rest fits read
  cases read
  exact ⟨is_good, fits⟩

theorem passes_pure (value : α) : Passes limit (Pure.pure value) := .pure trivial

theorem Gives.bind {first : Reader α} {next : α → Reader β} (gives : first.Gives limit good)
    (rest : ∀ value, good value → (next value).Gives limit better) :
    (first >>= next).Gives limit better := by
  intro stream result left fits read
  obtain ⟨value, middle, of_first, of_next⟩ := bind_eq_ok_iff.mp read
  obtain ⟨is_good, middle_fits⟩ := gives stream value middle fits of_first
  exact rest value is_good middle result left middle_fits of_next

theorem Gives.throw (error : SourceError) : Gives limit good (throw error) :=
  fun _ _ _ _ read => nomatch read

theorem Gives.lift {read : Except SourceError α} (is_good : ∀ value, read = .ok value → good value) :
    Gives limit good (liftM read : Reader α) := by
  intro stream value rest fits lifted
  cases read with
  | error e => cases lifted
  | ok result =>
    cases lifted
    exact ⟨is_good _ rfl, fits⟩

theorem Gives.ite {test : Prop} [Decidable test] {yes no : Reader α} (of_yes : yes.Gives limit good)
    (of_no : no.Gives limit good) : (if test then yes else no).Gives limit good := by
  split
  · exact of_yes
  · exact of_no

theorem Gives.mono {reader : Reader α} {weaker : α → Prop} (gives : reader.Gives limit good)
    (weaken : ∀ value, good value → weaker value) : reader.Gives limit weaker :=
  fun stream value rest fits read =>
    ⟨weaken value (gives stream value rest fits read).1, (gives stream value rest fits read).2⟩

theorem Gives.passes {reader : Reader α} (gives : reader.Gives limit good) : reader.Passes limit :=
  gives.mono fun _ _ => trivial

/-- What is given is made of what a reader gives. -/
theorem Gives.map {first : Reader α} (gives : first.Gives limit good) {result : α → β}
    (made : ∀ value, good value → better (result value)) :
    (first >>= fun value => Pure.pure (result value)).Gives limit better :=
  gives.bind fun value is_good => .pure (made value is_good)

theorem gives_get : Gives limit (TokenStream.Fits limit) get := by
  intro stream value rest fits read
  cases read
  exact ⟨fits, fits⟩

/-- A reader that passes over tokens. -/
theorem passes_modify {change : TokenStream → TokenStream}
    (fewer : ∀ stream, (change stream).tokens ⊆ stream.tokens) :
    Passes limit (modify change) := by
  intro stream value rest fits read
  cases read
  exact ⟨trivial, fun token is_one => fits token (fewer stream is_one)⟩

theorem passes_set {stream : TokenStream} (fits : stream.Fits limit) : Passes limit (set stream) := by
  intro _ value rest _ read
  cases read
  exact ⟨trivial, fits⟩

end Rules

/-! ## Single tokens -/

theorem passes_position : position.Passes limit := gives_get.map fun _ _ => trivial

theorem passes_fail {good : α → Prop} (problem : Problem) : (fail problem).Gives limit good :=
  passes_position.bind fun _ _ => .throw _

theorem gives_peek : peek.Gives limit fun kind => ∀ found ∈ kind, found.Fits limit := by
  refine gives_get.map fun stream fits found is_found => ?_
  obtain ⟨token, is_first, rfl⟩ := Option.mem_map.mp is_found
  exact fits token (List.mem_of_mem_head? is_first)

theorem passes_skip : skip.Passes limit := passes_modify fun stream => stream.tokens.tail_subset

theorem passes_remaining : remaining.Passes limit := gives_get.map fun _ _ => trivial

theorem passes_sees (text : String) : (sees text).Passes limit := gives_peek.map fun _ _ => trivial

theorem passes_seesWord (text : String) : (seesWord text).Passes limit :=
  gives_peek.map fun _ _ => trivial

theorem passes_take (text : String) : (take text).Passes limit := by
  refine (passes_sees text).bind fun seen _ => ?_
  split
  · exact passes_skip.map fun _ _ => trivial
  · exact .pure trivial

theorem passes_takeWord (text : String) : (takeWord text).Passes limit := by
  refine (passes_seesWord text).bind fun seen _ => ?_
  split
  · exact passes_skip.map fun _ _ => trivial
  · exact .pure trivial

theorem passes_expect (text : String) : (expect text).Passes limit := by
  refine (passes_take text).bind fun taken _ => ?_
  split
  · exact .pure trivial
  · exact passes_fail _

theorem passes_identifier : identifier.Passes limit := by
  refine gives_peek.bind fun kind _ => ?_
  split
  · exact passes_skip.map fun _ _ => trivial
  · exact passes_fail _

theorem passes_endStatement : endStatement.Passes limit := (passes_take ";").map fun _ _ => trivial

theorem passes_takeOperator (table : List (String × α)) : (takeOperator table).Passes limit := by
  induction table with
  | nil => exact passes_pure none
  | cons entry rest of_rest =>
    unfold takeOperator
    refine (passes_take entry.1).bind fun taken _ => ?_
    split
    · exact passes_pure _
    · exact of_rest

/-! ## Lists -/

section Lists

variable {good : α → Prop} {item : Reader α}

theorem all_reverse {back : List α} (all : ∀ value ∈ back, good value) :
    ∀ value ∈ back.reverse, good value :=
  fun value is_one => all value (List.mem_reverse.mp is_one)

theorem all_cons {value : α} {back : List α} (is_good : good value) (all : ∀ value ∈ back, good value) :
    ∀ other ∈ value :: back, good other :=
  List.forall_mem_cons.mpr ⟨is_good, all⟩

theorem gives_itemsBefore (close : String) (gives : item.Gives limit good) (bound : List Token)
    {back : List α} (all : ∀ value ∈ back, good value) :
    (itemsBefore close item bound back).Gives limit fun items => ∀ value ∈ items, good value := by
  induction bound generalizing back with
  | nil =>
    unfold itemsBefore
    refine (passes_sees close).bind fun seen _ => ?_
    split
    · exact .pure (all_reverse all)
    · refine gives.bind fun value is_good => (passes_take ",").bind fun more _ => ?_
      split
      · exact .pure (all_reverse (all_cons is_good all))
      · exact .pure (all_reverse (all_cons is_good all))
  | cons token bound of_bound =>
    unfold itemsBefore
    refine (passes_sees close).bind fun seen _ => ?_
    split
    · exact .pure (all_reverse all)
    · refine gives.bind fun value is_good => (passes_take ",").bind fun more _ => ?_
      split
      · exact of_bound (all_cons is_good all)
      · exact .pure (all_reverse (all_cons is_good all))

theorem gives_separated (close : String) (gives : item.Gives limit good) :
    (separated close item).Gives limit fun items => ∀ value ∈ items, good value :=
  passes_remaining.bind fun bound _ => (gives_itemsBefore close gives bound (by simp)).bind
    fun items all => (passes_expect close).bind fun _ _ => .pure all

theorem passes_parameters : parameters.Passes limit :=
  (passes_expect "(").bind fun _ _ => (gives_separated ")" passes_identifier).passes

theorem passes_arrowHead : arrowHead.Passes limit := by
  have rest : ∀ params : List String, Passes limit (do
      expect "=>"
      return params) := fun params => (passes_expect "=>").map fun _ _ => trivial
  refine (passes_sees "(").bind fun parenthesis _ => ?_
  dsimp only
  split
  · exact passes_parameters.bind fun params _ => rest params
  · exact passes_identifier.bind fun name _ => (passes_pure _).bind fun params _ => rest params

end Lists

/-- Bindings unfolded, whatever their bound. -/
theorem bindings_eq (levels : Levels) (bound : List Token) (back : List Binding) :
    bindings levels bound back = (do
      let name ← identifier
      let init ← do
        if ← take "=" then
          let value ← assignment levels
          pure (some value)
        else pure none
      let back := Binding.mk name init :: back
      if ← take "," then
        match bound with
        | [] => return back.reverse
        | _ :: bound => bindings levels bound back
      else return back.reverse) := by
  cases bound <;> rfl

end Tabletop.Script.Reader
