import Mathlib.Data.List.Forall2
import TexFigure.Proofs.Readings
/-!
# Names of one meaning

What a name stands for is all that the grammar asks of it, unless it has to name it in a fault. So
tokens can be replaced by names of the same meaning, one by one, and the reading goes through the
same steps: tokens that correspond one to one are a coupling at every place, and as it can be
turned round, both lists are parsed to the same expression or neither of them is parsed.

> `parse_of_synonymous`: tokens of one meaning are the same expression, or none on both sides.
-/

namespace TexFigure.Expression

/-- Tokens that are the same, or names of the same meaning. -/
inductive Synonymous : Token → Token → Prop
  | same (token : Token) : Synonymous token token
  | name (backslash : Bool) {word word' : Text} (h : meaningOf? word = meaningOf? word') :
    Synonymous (.name backslash word) (.name backslash word')

/-- Tokens that correspond one to one. -/
abbrev AreSynonymous : List Token → List Token → Prop := List.Forall₂ Synonymous

/-- Tokens of one meaning are read alike where an operand is due. -/
theorem Synonymous.alike {token token' : Token} (h : Synonymous token token') :
    Alike token token' := by
  cases h with
  | same => exact .same _
  | name backslash h => exact .name backslash backslash h

/-- Whether a factor can start at a name depends on its backslash, which names of one meaning share.
-/
theorem Synonymous.startsFactor_eq {token token' : Token} (h : Synonymous token token') :
    token.startsFactor = token'.startsFactor := by
  cases h <;> rfl

theorem Synonymous.symm {token token' : Token} (h : Synonymous token token') :
    Synonymous token' token := by
  cases h with
  | same => exact .same _
  | name backslash h => exact .name backslash h.symm

theorem AreSynonymous.symm {tokens tokens' : List Token} (h : AreSynonymous tokens tokens') :
    AreSynonymous tokens' tokens := by
  induction h with
  | nil => exact .nil
  | cons htoken _ ih => exact .cons htoken.symm ih

/-- Tokens of one meaning can be read side by side, whether an operand ends in front of them or
not. -/
theorem coupling_synonymous : Coupling false fun _ => AreSynonymous where
  length_eq h := h.length_eq
  heads {behind _ _} h := by
    cases h with
    | nil => exact .nil behind
    | cons htoken hrest =>
      cases behind with
      | false => exact .due htoken.alike hrest
      | true => exact .behind htoken.alike htoken.startsFactor_eq (.cons htoken hrest) hrest

/-- Tokens of one meaning are parsed to the same expression, or not at all. -/
theorem parse_of_synonymous {tokens tokens' : List Token} (h : AreSynonymous tokens tokens')
    (expression : Expression) : parse tokens = .ok expression ↔ parse tokens' = .ok expression := by
  have hparse {tokens tokens' : List Token} (h : AreSynonymous tokens tokens')
      (hparse : parse tokens = .ok expression) : parse tokens' = .ok expression := by
    rcases coupling_synonymous.parse h hparse with ⟨-, hsame⟩ | ⟨hmisplaced, -⟩
    · exact hsame
    · cases hmisplaced
  exact ⟨hparse h, hparse h.symm⟩

end TexFigure.Expression
