import Tabletop.Proofs.Script.Cut
import Mathlib.Data.List.Forall2

/-!
The same text at another place. It is cut into the same tokens there, as many lines further down, or up,
as the text itself.
-/

namespace Tabletop.Script

/-- Places in a text that begins on line `low` and in the same text where it begins on line `high`. -/
def Position.Moves (low high : Nat) (place place' : Position) : Prop :=
  place.line + high = place'.line + low

inductive TemplatePart.Moves (low high : Nat) : TemplatePart → TemplatePart → Prop where
  | text (value : List Char) : Moves low high (.text value) (.text value)
  | code (source : List Char) {place place' : Position} (moves : place.Moves low high place') :
    Moves low high (.code source place) (.code source place')

inductive TokenKind.Moves (low high : Nat) : TokenKind → TokenKind → Prop where
  | number (value : Float) : Moves low high (.number value) (.number value)
  | string (value : String) : Moves low high (.string value) (.string value)
  | template {parts parts' : List TemplatePart}
    (moves : List.Forall₂ (TemplatePart.Moves low high) parts parts') :
    Moves low high (.template parts) (.template parts')
  | word (name : String) : Moves low high (.word name) (.word name)
  | punctuator (text : String) : Moves low high (.punctuator text) (.punctuator text)

structure Token.Moves (low high : Nat) (token token' : Token) : Prop where
  position : token.position.Moves low high token'.position
  kind : token.kind.Moves low high token'.kind

structure TokenStream.Moves (low high : Nat) (stream stream' : TokenStream) : Prop where
  tokens : List.Forall₂ (Token.Moves low high) stream.tokens stream'.tokens
  finish : stream.finish.Moves low high stream'.finish

structure Cursor.Moves (low high : Nat) (cursor cursor' : Cursor) : Prop where
  rest : cursor'.rest = cursor.rest
  position : cursor.position.Moves low high cursor'.position

/-- What can be read in one place can be read in the other. -/
def ReadAlike {α : Type} (alike : α → α → Prop) :
    Except SourceError α → Except SourceError α → Prop
  | .ok value, read => ∃ value', read = .ok value' ∧ alike value value'
  | .error _, _ => True

section

variable {low high : Nat} {place place' : Position}

theorem Position.moves (place place' : Position) : place.Moves place.line place'.line place' :=
  Nat.add_comm place.line place'.line

theorem Position.Moves.advance (moves : place.Moves low high place') (c : Char) :
    (place.advance c).Moves low high (place'.advance c) := by
  unfold Position.Moves at moves ⊢
  unfold Position.advance
  split
  · dsimp only
    omega
  · exact moves

theorem Position.Moves.after (moves : place.Moves low high place') (text : List Char) :
    (place.after text).Moves low high (place'.after text) := by
  induction text generalizing place place' with
  | nil => exact moves
  | cons c rest of_rest => exact of_rest (moves.advance c)

theorem Cursor.Moves.at (moves : place.Moves low high place') (rest : List Char) :
    Cursor.Moves low high ⟨rest, place⟩ ⟨rest, place'⟩ := ⟨rfl, moves⟩

/-! ## Gaps -/

theorem skipGap_nil_moves (gap : Gap) (moves : place.Moves low high place') :
    ReadAlike (Cursor.Moves low high) (skipGap gap [] place) (skipGap gap [] place') := by
  rw [skipGap_nil, skipGap_nil]
  split
  · trivial
  · exact ⟨_, rfl, .at moves []⟩

theorem skipGap_moves (gap : Gap) (text : List Char) (moves : place.Moves low high place') :
    ReadAlike (Cursor.Moves low high) (skipGap gap text place) (skipGap gap text place') := by
  induction text using List.twoStepInduction generalizing gap place place' with
  | nil => exact skipGap_nil_moves gap moves
  | singleton c =>
    cases gap with
    | inLine | inBlock => exact skipGap_nil_moves _ (moves.advance c)
    | between =>
      rw [skipGap_between_last, skipGap_between_last]
      split
      · exact skipGap_nil_moves .between (moves.advance c)
      · exact ⟨_, rfl, .at moves [c]⟩
  | cons_cons c second after of_after of_rest =>
    have one := moves.advance c
    have two := one.advance second
    cases gap with
    | inLine => exact of_rest second _ one
    | inBlock =>
      rw [skipGap_inBlock, skipGap_inBlock]
      split
      · exact of_after .between two
      · exact of_rest second .inBlock one
    | between =>
      rw [skipGap_between, skipGap_between]
      split
      · exact of_rest second .between one
      split
      · exact of_after .inLine two
      split
      · exact of_after .inBlock two
      · exact ⟨_, rfl, .at moves (c :: second :: after)⟩

/-! ## Tokens -/

/-- What two scanners have read, and what they have left. -/
def ScanMoves (low high : Nat) (found found' : TokenKind × Cursor) : Prop :=
  found.1.Moves low high found'.1 ∧ found.2.Moves low high found'.2

theorem scanString_cons (quote : Char) (back : List Char) (c : Char) (rest : List Char)
    (place : Position) : scanString quote back (c :: rest) place =
      if c = '\\' then
        match rest with
        | [] => failAt (place.advance c) .unterminatedEscape
        | letter :: after =>
          scanString quote (unescaped letter :: back) after ((place.advance c).advance letter)
      else if c = quote then
        .ok (.string (String.ofList back.reverse), ⟨rest, place.advance c⟩)
      else if c = '\n' then failAt (place.advance c) .unterminatedString
      else scanString quote (c :: back) rest (place.advance c) := by
  cases rest <;> rfl

theorem scanString_moves (quote : Char) (back text : List Char) (moves : place.Moves low high place') :
    ReadAlike (ScanMoves low high) (scanString quote back text place)
      (scanString quote back text place') := by
  induction text using List.twoStepInduction generalizing back place place' with
  | nil => trivial
  | singleton c =>
    rw [scanString_cons _ _ _ _ place, scanString_cons _ _ _ _ place']
    split
    · trivial
    split
    · exact ⟨_, rfl, .string _, .at (moves.advance c) []⟩
    split
    · trivial
    · trivial
  | cons_cons c second after of_after of_rest =>
    rw [scanString_cons _ _ _ _ place, scanString_cons _ _ _ _ place']
    split
    · exact of_after _ ((moves.advance c).advance second)
    split
    · exact ⟨_, rfl, .string _, .at (moves.advance c) _⟩
    split
    · trivial
    · exact of_rest second _ (moves.advance c)

section Template

variable (parts : List TemplatePart) (place : Position)

theorem scanTemplate_text_last (back : List Char) (c : Char) :
    scanTemplate parts (.text back) [c] place =
      if c = backtick then
        .ok (.template (closeText parts back).reverse, ⟨[], place.advance c⟩)
      else if c = '\\' then failAt (place.advance c) .unterminatedEscape
      else scanTemplate parts (.text (c :: back)) [] (place.advance c) := rfl

theorem scanTemplate_text (back : List Char) (c second : Char) (after : List Char) :
    scanTemplate parts (.text back) (c :: second :: after) place =
      if c = backtick then
        .ok (.template (closeText parts back).reverse, ⟨second :: after, place.advance c⟩)
      else if c = '\\' then
        scanTemplate parts (.text (unescaped second :: back)) after
          ((place.advance c).advance second)
      else if c = '$' ∧ second = openBrace then
        scanTemplate (closeText parts back) (.code ((place.advance c).advance second) 0 []) after
          ((place.advance c).advance second)
      else scanTemplate parts (.text (c :: back)) (second :: after) (place.advance c) := rfl

theorem scanTemplate_code (start : Position) (braces : Nat) (back : List Char) (c : Char)
    (rest : List Char) : scanTemplate parts (.code start braces back) (c :: rest) place =
      if c = openBrace then
        scanTemplate parts (.code start (braces + 1) (c :: back)) rest (place.advance c)
      else if c = closeBrace then
        match braces with
        | 0 => scanTemplate (.code back.reverse start :: parts) (.text []) rest (place.advance c)
        | outer + 1 => scanTemplate parts (.code start outer (c :: back)) rest (place.advance c)
      else if c = '"' ∨ c = '\'' ∨ c = backtick then
        scanTemplate parts (.quoted start braces (c :: back) c) rest (place.advance c)
      else scanTemplate parts (.code start braces (c :: back)) rest (place.advance c) := rfl

theorem scanTemplate_quoted (start : Position) (braces : Nat) (back : List Char) (quote c : Char)
    (rest : List Char) : scanTemplate parts (.quoted start braces back quote) (c :: rest) place =
      if c = '\\' then
        match rest with
        | [] => failAt (place.advance c) .unterminatedString
        | letter :: after =>
          scanTemplate parts (.quoted start braces (letter :: c :: back) quote) after
            ((place.advance c).advance letter)
      else if c = quote then
        scanTemplate parts (.code start braces (c :: back)) rest (place.advance c)
      else scanTemplate parts (.quoted start braces (c :: back) quote) rest (place.advance c) := by
  cases rest <;> rfl

end Template

inductive TemplateState.Moves (low high : Nat) : TemplateState → TemplateState → Prop where
  | text (back : List Char) : Moves low high (.text back) (.text back)
  | code {start start' : Position} (moves : start.Moves low high start') (braces : Nat)
    (back : List Char) : Moves low high (.code start braces back) (.code start' braces back)
  | quoted {start start' : Position} (moves : start.Moves low high start') (braces : Nat)
    (back : List Char) (quote : Char) :
    Moves low high (.quoted start braces back quote) (.quoted start' braces back quote)

theorem closeText_moves {parts parts' : List TemplatePart}
    (moves : List.Forall₂ (TemplatePart.Moves low high) parts parts') (back : List Char) :
    List.Forall₂ (TemplatePart.Moves low high) (closeText parts back) (closeText parts' back) := by
  unfold closeText
  split
  · exact moves
  · exact .cons (.text _) moves

theorem scanTemplate_nil_moves {parts parts' : List TemplatePart} {state state' : TemplateState}
    (state_moves : state.Moves low high state') :
    ReadAlike (ScanMoves low high) (scanTemplate parts state [] place)
      (scanTemplate parts' state' [] place') := by
  cases state_moves <;> trivial

theorem scanTemplate_moves {parts parts' : List TemplatePart} {state state' : TemplateState}
    (text : List Char) (parts_move : List.Forall₂ (TemplatePart.Moves low high) parts parts')
    (state_moves : state.Moves low high state') (moves : place.Moves low high place') :
    ReadAlike (ScanMoves low high) (scanTemplate parts state text place)
      (scanTemplate parts' state' text place') := by
  induction text using List.twoStepInduction generalizing parts parts' state state' place place' with
  | nil => exact scanTemplate_nil_moves state_moves
  | singleton c =>
    have one := moves.advance c
    cases state_moves with
    | text back =>
      rw [scanTemplate_text_last parts place, scanTemplate_text_last parts' place']
      split
      · exact ⟨_, rfl, .template (List.forall₂_reverse_iff.mpr (closeText_moves parts_move back)),
          .at one []⟩
      split
      · trivial
      · trivial
    | code start braces back =>
      rw [scanTemplate_code parts place, scanTemplate_code parts' place']
      split
      · trivial
      split
      · cases braces <;> trivial
      split
      · trivial
      · trivial
    | quoted start braces back quote =>
      rw [scanTemplate_quoted parts place, scanTemplate_quoted parts' place']
      split
      · trivial
      split
      · trivial
      · trivial
  | cons_cons c second after of_after of_rest =>
    have one := moves.advance c
    have two := one.advance second
    cases state_moves with
    | text back =>
      rw [scanTemplate_text parts place, scanTemplate_text parts' place']
      split
      · exact ⟨_, rfl, .template (List.forall₂_reverse_iff.mpr (closeText_moves parts_move back)),
          .at one _⟩
      split
      · exact of_after parts_move (.text _) two
      split
      · exact of_after (closeText_moves parts_move back) (.code two 0 []) two
      · exact of_rest second parts_move (.text _) one
    | code start braces back =>
      rw [scanTemplate_code parts place, scanTemplate_code parts' place']
      split
      · exact of_rest second parts_move (.code start _ _) one
      split
      · cases braces with
        | zero => exact of_rest second (.cons (.code _ start) parts_move) (.text _) one
        | succ outer => exact of_rest second parts_move (.code start _ _) one
      split
      · exact of_rest second parts_move (.quoted start _ _ _) one
      · exact of_rest second parts_move (.code start _ _) one
    | quoted start braces back quote =>
      rw [scanTemplate_quoted parts place, scanTemplate_quoted parts' place']
      split
      · exact of_after parts_move (.quoted start _ _ _) two
      split
      · exact of_rest second parts_move (.code start _ _) one
      · exact of_rest second parts_move (.quoted start _ _ _) one

theorem scanPunctuator_moves (text : List Char) (moves : place.Moves low high place') :
    ReadAlike (ScanMoves low high) (scanPunctuator text place) (scanPunctuator text place') := by
  unfold scanPunctuator
  split
  · exact ⟨_, rfl, .punctuator _, .at (moves.after _) _⟩
  · trivial

theorem scanKind_moves (text : List Char) (moves : place.Moves low high place') :
    ReadAlike (ScanMoves low high) (scanKind text place) (scanKind text place') := by
  unfold scanKind
  split
  · dsimp only
    split
    · exact ⟨_, rfl, .number _, .at (moves.after _) _⟩
    · trivial
  · split
    · rename_i c rest _
      split
      · exact ⟨_, rfl, .word _, .at (moves.after _) _⟩
      split
      · exact scanString_moves c [] rest (moves.advance c)
      split
      · exact scanTemplate_moves rest .nil (.text []) (moves.advance c)
      · exact scanPunctuator_moves _ moves
    · exact scanPunctuator_moves _ moves

theorem scanTokens_moves (fuel : Nat) {back back' : List Token} (text : List Char)
    (back_moves : List.Forall₂ (Token.Moves low high) back back')
    (moves : place.Moves low high place') :
    ReadAlike (TokenStream.Moves low high) (scanTokens fuel back text place)
      (scanTokens fuel back' text place') := by
  induction fuel generalizing back back' text place place' with
  | zero => exact ⟨_, rfl, List.forall₂_reverse_iff.mpr back_moves, moves⟩
  | succ fuel of_fuel =>
    have skips := skipGap_moves .between text moves
    rw [scanTokens, scanTokens]
    cases skipped : skipGap .between text place with
    | error e => trivial
    | ok cursor =>
      rw [skipped] at skips
      obtain ⟨⟨rest, start'⟩, skipped', ⟨same, starts⟩⟩ := skips
      obtain ⟨_, start⟩ := cursor
      obtain rfl := same
      rw [skipped']
      cases rest with
      | nil => exact ⟨_, rfl, List.forall₂_reverse_iff.mpr back_moves, starts⟩
      | cons c rest =>
        have scans := scanKind_moves (c :: rest) starts
        dsimp only
        cases scanned : scanKind (c :: rest) start with
        | error e => trivial
        | ok found =>
          rw [scanned] at scans
          obtain ⟨⟨kind', ⟨_, after'⟩⟩, scanned', kind_moves, ⟨same, after_moves⟩⟩ := scans
          obtain ⟨kind, ⟨left, after⟩⟩ := found
          change _ = left at same
          subst same
          rw [scanned']
          exact of_fuel _ (.cons ⟨starts, kind_moves⟩ back_moves) after_moves

/-- A text gives the same tokens in any place. -/
theorem ofTextAt_moves (text : List Char) (moves : place.Moves low high place') :
    ReadAlike (TokenStream.Moves low high) (TokenStream.ofTextAt text place)
      (TokenStream.ofTextAt text place') :=
  scanTokens_moves _ text .nil moves

end
end Tabletop.Script
