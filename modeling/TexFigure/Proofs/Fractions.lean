import TexFigure.Formula.Write
import TexFigure.Proofs.Operators
/-!
# Fractions and roots are read back

A fraction is a command with two arguments in braces, a root one with an index in brackets, unless
the index is empty, and an argument in braces. The arguments stand directly behind each other, so
each is read from the place where the one before it ended, and what matters is that every argument
ends where it was written to end. An argument ends at the first brace behind a balanced content. The
index ends at the first bracket outside all brace groups that closes none of its own, so it may hold
pairs of brackets, and any brackets at all inside braces.

> `readFraction?_append`, `readRoot?_append`: whatever follows the arguments is left alone.
> `readAs?_write_root`: a root comes back with its index trimmed.
> `read_write_fractions`: so fractions, and roots with a trimmed index, come back as they are.
-/

namespace TexFigure

open Source

namespace Formula

section
variable {numerator denominator index radicand : Text}

/-- A fraction is read from its two arguments. -/
theorem readFraction?_append (hnumerator : IsBalanced numerator)
    (hdenominator : IsBalanced denominator) (after : Text) :
    readFraction? ("\\frac" ++ (Text.braced numerator ++ (Text.braced denominator ++ after))) =
      some (fraction numerator denominator) := by
  have hcommand : afterCommand? "\\frac" ("\\frac" ++
        (Text.braced numerator ++ (Text.braced denominator ++ after))) =
      some (Text.braced numerator ++ (Text.braced denominator ++ after)) :=
    @afterCommand?_append "frac" _ rfl
  rw [readFraction?, hcommand, Option.bind_eq_bind, Option.bind_some,
    argument?_braced hnumerator]
  dsimp only
  rw [Option.bind_eq_bind, Option.bind_some, argument?_braced hdenominator]
  rfl

/-- A root without brackets is read from its argument. -/
theorem readRoot?_square (hradicand : IsBalanced radicand) (after : Text) :
    readRoot? ("\\sqrt" ++ (Text.braced radicand ++ after)) = some (root [] radicand) := by
  have hcommand : afterCommand? "\\sqrt" ("\\sqrt" ++ (Text.braced radicand ++ after)) =
      some (Text.braced radicand ++ after) :=
    @afterCommand?_append "sqrt" _ rfl
  have hindex : brackets? (Text.braced radicand ++ after) = none := rfl
  rw [readRoot?, hcommand, Option.bind_eq_bind, Option.bind_some, hindex, Option.getD_none]
  dsimp only
  rw [argument?_braced hradicand]
  rfl

/-- A root is read from its index and its argument. -/
theorem readRoot?_append (hindex : IsBracketContent index) (hradicand : IsBalanced radicand)
    (after : Text) :
    readRoot? ("\\sqrt" ++ (Text.bracketed index ++ (Text.braced radicand ++ after))) =
      some (root (Text.trim index) radicand) := by
  have hcommand : afterCommand? "\\sqrt" ("\\sqrt" ++
        (Text.bracketed index ++ (Text.braced radicand ++ after))) =
      some (Text.bracketed index ++ (Text.braced radicand ++ after)) :=
    @afterCommand?_append "sqrt" _ rfl
  rw [readRoot?, hcommand, Option.bind_eq_bind, Option.bind_some, brackets?_bracketed hindex,
    Option.getD_some]
  dsimp only
  rw [argument?_braced hradicand]
  rfl

theorem readAs?_write_fraction (hnumerator : IsBalanced numerator)
    (hdenominator : IsBalanced denominator) :
    readAs? .fraction (fraction numerator denominator).write =
      some (fraction numerator denominator) := by
  have hread := readFraction?_append hnumerator hdenominator []
  rw [List.append_nil, ← List.append_assoc] at hread
  exact hread

/-- The two tags of a root are read alike. -/
theorem readAs?_tag_root (index radicand text : Text) :
    readAs? (root index radicand).tag text = readRoot? text := by
  rw [tag]
  split <;> rfl

/-- A written root is read as the root with its index trimmed. -/
theorem readAs?_write_root (hindex : IsBracketContent index) (hradicand : IsBalanced radicand) :
    readAs? (root index radicand).tag (root index radicand).write =
      some (root (Text.trim index) radicand) := by
  rw [readAs?_tag_root, write_root]
  cases index with
  | nil =>
    have hread := readRoot?_square hradicand []
    rwa [List.append_nil] at hread
  | cons c index =>
    have hread := readRoot?_append hindex hradicand []
    rwa [List.append_nil, ← List.append_assoc] at hread

end

/-- A fraction is read back from its written form when its parts are balanced. So is a root whose
radicand is balanced and whose index is trimmed and has its brackets in pairs or inside braces, as
the empty index of a square root has. -/
theorem read_write_fractions :
    (∀ numerator denominator, IsBalanced numerator → IsBalanced denominator →
      read .fraction (fraction numerator denominator).write = fraction numerator denominator) ∧
    ∀ index radicand, Text.IsTrimmed index → IsBracketContent index → IsBalanced radicand →
      read (root index radicand).tag (root index radicand).write = root index radicand := by
  constructor
  · intro numerator denominator hnumerator hdenominator
    rw [read, readAs?_write_fraction hnumerator hdenominator, Option.getD_some]
  · intro index radicand htrimmed hindex hradicand
    rw [read, readAs?_write_root hindex hradicand, Option.getD_some, Text.trim_eq_self htrimmed]

/-- Escaped braces, a line break in front of a group and a bracket that is not closed in a fraction,
and roots with a closing bracket inside a group of their index, with brackets of its own, and with
no index. -/
theorem read_write_fractions_nested :
    let numerator : Text := "\\\x7b\\frac\x7ba\x7d\x7bb\x7d\\\\\x7b[\x7d"
    let index : Text := "\x7b]\x7d[n]\\]"
    (IsBalanced numerator ∧
      read .fraction (fraction numerator []).write = fraction numerator []) ∧
    (IsBracketContent index ∧ read .nthRoot (root index "]x[").write = root index "]x[") ∧
    read .squareRoot (root [] " [3]\x7bx\x7d").write = root [] " [3]\x7bx\x7d" := by
  intro numerator index
  have hnumerator : IsBalanced numerator := by decide
  have hindex : IsBracketContent index := by decide
  refine ⟨⟨hnumerator, ?_⟩, ⟨hindex, ?_⟩, ?_⟩
  · exact read_write_fractions.1 numerator [] hnumerator (by decide)
  · exact read_write_fractions.2 index "]x[" (by decide) hindex (by decide)
  · exact read_write_fractions.2 [] " [3]\x7bx\x7d" (by decide) (by decide) (by decide)

end Formula

end TexFigure
