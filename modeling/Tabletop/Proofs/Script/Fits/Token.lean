import Tabletop.Proofs.Script.Lexemes
import Tabletop.Proofs.Text.Size

/-!
The strings of tokens take no more bytes than the text that was cut into them. What the characters of a
token say takes no more than the characters do.
-/

namespace Tabletop.Script

/-- Tokens whose text takes no more bytes than a limit; of a template, the text of what is substituted. -/
def TokenKind.Fits (limit : Nat) : TokenKind → Prop
  | .string value => value.utf8ByteSize ≤ limit
  | .word name => name.utf8ByteSize ≤ limit
  | .template parts => ∀ source position, .code source position ∈ parts → Text.byteSize source ≤ limit
  | .number _ | .punctuator _ => True

def TokenStream.Fits (limit : Nat) (stream : TokenStream) : Prop :=
  ∀ token ∈ stream.tokens, token.kind.Fits limit

section

variable {limit : Nat}

theorem utf8Size_unescaped_le (c : Char) : (unescaped c).utf8Size ≤ c.utf8Size := by
  have positive := c.utf8Size_pos
  unfold unescaped
  repeat' split
  all_goals first | exact Nat.le_refl _ | exact positive

theorem Written.byteSize_le {ends : Char} {written value : List Char}
    (is_written : Written ends written value) : Text.byteSize value ≤ Text.byteSize written := by
  induction is_written with
  | nil => exact Nat.le_refl _
  | escape letter _ of_others =>
    have smaller := utf8Size_unescaped_le letter
    simp only [Text.byteSize_cons]
    omega
  | plain _ _ _ of_others =>
    simp only [Text.byteSize_cons]
    omega

theorem TokenKind.SaidBy.fits {place : Position} {spelling : List Char} {kind : TokenKind}
    (said : kind.SaidBy place spelling) (fits : Text.byteSize spelling ≤ limit) :
    kind.Fits limit := by
  cases kind with
  | number _ | punctuator _ => trivial
  | word name =>
    rw [said, ← Text.utf8ByteSize_eq_byteSize] at fits
    exact fits
  | string value =>
    obtain ⟨quote, written, -, rfl, is_written⟩ := said
    have smaller := is_written.byteSize_le
    simp only [Text.byteSize_cons, Text.byteSize_append] at fits
    rw [TokenKind.Fits, Text.utf8ByteSize_eq_byteSize]
    omega
  | template parts =>
    obtain ⟨written, rfl, are_written⟩ := said
    intro source start is_one
    obtain ⟨front, behind, rfl, -⟩ := are_written.substitution is_one
    simp only [Text.byteSize_cons, Text.byteSize_append] at fits
    omega

theorem ofTextAt_fits {text : List Char} {position : Position} {stream : TokenStream}
    (fits : Text.byteSize text ≤ limit) (scanned : TokenStream.ofTextAt text position = .ok stream) :
    stream.Fits limit := by
  obtain ⟨lexemes, last, cut, tokens⟩ := cut_of_tokens scanned
  obtain ⟨rfl, -, each⟩ := cut.accounts
  intro token is_one
  rw [tokens] at is_one
  obtain ⟨lexeme, is_lexeme, rfl⟩ := List.mem_map.mp is_one
  obtain ⟨front, others, rfl⟩ := List.append_of_mem is_lexeme
  refine (each front lexeme others rfl).said.fits (Nat.le_trans ?_ fits)
  simp only [List.flatMap_append, List.flatMap_cons, Lexeme.characters, Text.byteSize_append]
  omega

end
end Tabletop.Script
