import TexFigure.Formula.Write
import TexFigure.Proofs.Readability
/-!
# Derivatives are read back

A derivative is written as a fraction that has the mark alone in its numerator, with the function
behind it. It is read from the first fraction of the fragment. That is the written one, whatever
fractions the function holds, and everything behind it is taken for the function: nothing is asked
of the function, not even that its braces close. The variable stands inside a group that ends at
the first brace, escaped or not, so it must hold none.

> `readAs?_write_derivative`: a derivative comes back with both fields trimmed.
> `read_write_derivative`: so one with trimmed fields comes back as it is.
-/

namespace TexFigure

open Source

namespace Formula

/-- Half of a derivative is the trimmed text behind its mark, up to the brace that closes it. -/
theorem derivativePart?_braced {first : Char} (mark : Text) (hfirst : isBlank first = false)
    {inside : Text} (hinside : isBraceFree inside = true) (after : Text) :
    derivativePart? (first :: mark) (Text.braced (first :: mark ++ inside) ++ after) =
      some (Text.trim inside, after) := by
  have htext : Text.braced (first :: mark ++ inside) ++ after =
      '{' :: (first :: mark ++ (inside ++ '}' :: after)) := by
    simp [Text.braced]
  have hmark : wordBehindBlanks? (first :: mark) (first :: mark ++ (inside ++ '}' :: after)) =
      some (inside ++ '}' :: after) := by
    rw [wordBehindBlanks?, List.cons_append, Text.trimStart_cons hfirst, ← List.cons_append,
      Text.isPrefixOf?_append]
  have hname : inside.all (fun c => !(c == '{' || c == '}')) = true := by
    refine List.all_eq_true.mpr fun c hc => ?_
    simpa using ne_brace_of_isBraceFree hinside hc
  have hclose : ∀ c ∈ ('}' :: after).head?, (!(c == '{' || c == '}')) = false := by
    intro c hc
    rw [← Option.some.inj hc]
    rfl
  obtain ⟨htake, hdrop⟩ := Text.takeWhile_append hname hclose
  rw [htext]
  simp only [derivativePart?, hmark, hdrop, htake]

/-- A fraction with a mark alone in its numerator is a derivative of what stands behind it. -/
theorem readDerivative?_append (first : Char) (mark : Text) (hfirst : isBlank first = false)
    {inside : Text} (hinside : isBraceFree inside = true) (isPartial : Bool) (trailing : Text) :
    readDerivative? (first :: mark) isPartial
        ("\\frac" ++ (Text.braced (first :: mark) ++
          (Text.braced (first :: mark ++ inside) ++ trailing))) =
      some (derivative (Text.trim trailing) (Text.trim inside) isPartial) := by
  have hnil : isBraceFree [] = true := rfl
  have hnumerator := derivativePart?_braced mark hfirst hnil
    (Text.braced (first :: mark ++ inside) ++ trailing)
  rw [List.append_nil] at hnumerator
  have hdenominator := derivativePart?_braced mark hfirst hinside trailing
  rw [readDerivative?, Text.cut?_prefix, Option.bind_eq_bind, Option.bind_some]
  simp only [hnumerator, hdenominator, Option.bind_some]
  rfl

/-- What stands behind a written derivative is its function, with the blanks at its end gone. -/
theorem trim_trailing (func : Text) : Text.trim (Text.trimEnd (' ' :: func)) = Text.trim func := by
  rw [Text.trim_trimEnd, Text.trim_cons_blank (by decide)]

/-- A written derivative is read as the derivative with both fields trimmed. -/
theorem readAs?_write_derivative (func : Text) {var : Text} (hvar : isBraceFree var = true)
    (isPartial : Bool) :
    readAs? (derivative func var isPartial).tag (derivative func var isPartial).write =
      some (derivative (Text.trim func) (Text.trim var) isPartial) := by
  cases isPartial with
  | false =>
    have hwrite : (derivative func var false).write =
        Text.trimEnd (("\\frac" ++ Text.braced "d") ++
          (Text.braced ("d" ++ var) ++ ' ' :: func)) := by
      simp [write_derivative, Text.braced]
    have hread := readDerivative?_append 'd' [] (by decide) hvar false
      (Text.trimEnd (' ' :: func))
    rw [hwrite, Text.trimEnd_append_braced, List.append_assoc, ← trim_trailing func]
    exact hread
  | true =>
    have hwrite : (derivative func var true).write =
        Text.trimEnd (("\\frac" ++ Text.braced "\\partial") ++
          (Text.braced ("\\partial" ++ ' ' :: var) ++ ' ' :: func)) := by
      simp [write_derivative, Text.braced]
    have hspaced : isBraceFree (' ' :: var) = true := hvar
    have hname : Text.trim (' ' :: var) = Text.trim var := Text.trim_cons_blank (by decide) var
    have hread := readDerivative?_append '\\' "partial" (by decide) hspaced true
      (Text.trimEnd (' ' :: func))
    rw [hwrite, Text.trimEnd_append_braced, List.append_assoc, ← trim_trailing func,
      ← hname]
    exact hread

/-- A derivative with trimmed fields is read back from its written form when its variable holds no
brace. Its function is any text beside that. -/
theorem read_write_derivative {func var : Text} {isPartial : Bool} (hvar : Text.IsTrimmed var)
    (hfree : isBraceFree var = true) (hfunc : Text.IsTrimmed func) :
    read (derivative func var isPartial).tag (derivative func var isPartial).write =
      derivative func var isPartial := by
  rw [read, readAs?_write_derivative func hfree, Option.getD_some, Text.trim_eq_self hfunc,
    Text.trim_eq_self hvar]

/-- A function that holds derivatives, a line end and a brace that is not closed, and one that is
empty. -/
theorem read_write_derivative_nested :
    let func : Text := "\\frac\x7bd\x7d\x7bdt\x7d\n\\partial \x7bf"
    (Text.IsTrimmed func ∧
      read .partialDerivative (derivative func "x_1" true).write = derivative func "x_1" true) ∧
    read .derivative (derivative [] "\\theta" false).write = derivative [] "\\theta" false := by
  intro func
  have hfunc : Text.IsTrimmed func := by decide
  have hname : Text.IsTrimmed "x_1" := by decide
  have hcommand : Text.IsTrimmed "\\theta" := by decide
  have hnil : Text.IsTrimmed [] := by decide
  refine ⟨⟨hfunc, ?_⟩, ?_⟩
  · exact @read_write_derivative func _ true hname rfl hfunc
  · exact @read_write_derivative _ _ false hcommand rfl hnil

end Formula

end TexFigure
