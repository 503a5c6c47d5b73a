import TexFigure.Formula.Read
import TexFigure.Proofs.Occurrence
/-!
# Operators with scripts

An operator is written in front of its scripts, and a body follows them. The scripts are read in a
loop that takes anything for a script that looks like one, so it ends at a body only when that is
none of these things (`IsBody`).

> `readScripts_lower`, `readScripts_upper`, `readScripts_end`: the loop takes a balanced script in
> braces as it stands, and ends at a body; `readScripts_lower_argument` and
> `readScripts_upper_argument` say it of any argument. `readOperator?_append`: behind the command
> of an operator, this is what is read.
-/

namespace TexFigure

open Source

namespace Source

/-- Blanks in front of a text are skipped with those that it starts with. -/
theorem skipBlanks_append {blanks : Text} (h : blanks.all isAsciiBlank) (text : Text) :
    Text.skipBlanks (blanks ++ text) = Text.skipBlanks text :=
  List.dropWhile_append_of_pos (List.all_eq_true.mp h)

/-- A group in braces is an argument of a command. -/
theorem argument?_braced {content : Text} (h : IsBalanced content) (after : Text) :
    argument? (Text.braced content ++ after) = some (content, after) := by
  have hskip : Text.skipBlanks (Text.braced content ++ after) =
      '{' :: (content ++ '}' :: after) := by
    simp [Text.skipBlanks, Text.braced, isAsciiBlank]
  rw [argument?, hskip]
  exact congrArg some (braceContent_append h after)

/-- A command in front of a text is found there when no letter follows it. -/
theorem afterCommand?_append {word after : Text} (h : beginsWithLetter after = false) :
    afterCommand? ('\\' :: word) ('\\' :: word ++ after) = some after := by
  rw [List.cons_append, afterCommand?, cutAtCommand, ← List.cons_append,
    Text.isPrefixOf?_append]
  simp [h]

end Source

namespace Formula

/-- A body of an operator: a trimmed text that does not begin as a script does. -/
structure IsBody (text : Text) : Prop where
  trimmed : Text.IsTrimmed text
  noScript : text.head? ≠ some '_' ∧ text.head? ≠ some '^'
  noLimits : ¬"\\limits".toList <+: text

/-! ## Reading scripts -/

section
variable {rounds : Nat} {scripts : Scripts} {content blanks rest after : Text}

/-- A mark behind blanks starts the script that its argument is. -/
theorem readScripts_lower_argument (hblanks : blanks.all isAsciiBlank)
    (h : argument? rest = some (content, after)) :
    readScripts (rounds + 1) scripts (blanks ++ '_' :: rest) =
      readScripts rounds { scripts with lower := content } after := by
  have hskip : Text.skipBlanks (blanks ++ '_' :: rest) = '_' :: rest :=
    skipBlanks_append hblanks _
  have hmarker : "\\limits".toList.isPrefixOf? ('_' :: rest) = none := rfl
  rw [readScripts, hskip, hmarker]
  simp only [h]

theorem readScripts_upper_argument (hblanks : blanks.all isAsciiBlank)
    (h : argument? rest = some (content, after)) :
    readScripts (rounds + 1) scripts (blanks ++ '^' :: rest) =
      readScripts rounds { scripts with upper := content } after := by
  have hskip : Text.skipBlanks (blanks ++ '^' :: rest) = '^' :: rest :=
    skipBlanks_append hblanks _
  have hmarker : "\\limits".toList.isPrefixOf? ('^' :: rest) = none := rfl
  rw [readScripts, hskip, hmarker]
  simp only [h]

theorem readScripts_lower (h : IsBalanced content) :
    readScripts (rounds + 1) scripts ('_' :: Text.braced content ++ after) =
      readScripts rounds { scripts with lower := content } after :=
  have hblanks : ([] : Text).all isAsciiBlank := rfl
  readScripts_lower_argument hblanks (argument?_braced h after)

theorem readScripts_upper (h : IsBalanced content) :
    readScripts (rounds + 1) scripts ('^' :: Text.braced content ++ after) =
      readScripts rounds { scripts with upper := content } after :=
  have hblanks : ([] : Text).all isAsciiBlank := rfl
  readScripts_upper_argument hblanks (argument?_braced h after)

/-- The marker `\limits` behind blanks takes a turn and changes no script. -/
theorem readScripts_limits (hblanks : blanks.all isAsciiBlank) :
    readScripts (rounds + 1) scripts (blanks ++ ("\\limits" ++ after)) =
      readScripts rounds scripts after := by
  have hskip : Text.skipBlanks (blanks ++ ("\\limits" ++ after)) = "\\limits" ++ after :=
    skipBlanks_append hblanks _
  rw [readScripts, hskip, Text.isPrefixOf?_append]

/-- The scripts end at a text that does not begin as one behind its blanks. -/
theorem readScripts_end {text : Text}
    (hscript : (Text.skipBlanks text).head? ≠ some '_' ∧ (Text.skipBlanks text).head? ≠ some '^')
    (hlimits : ¬"\\limits".toList <+: Text.skipBlanks text) :
    readScripts rounds scripts text = (scripts, text) := by
  cases rounds with
  | zero => rfl
  | succ rounds =>
    rw [readScripts, Text.isPrefixOf?_eq_none hlimits]
    split
    next heq => cases heq
    next heq => rw [heq] at hscript; simp at hscript
    next heq => rw [heq] at hscript; simp at hscript
    next => rfl

end

/-- An operator at the front of a fragment is read as the scripts that the loop finds behind its
command, and the trimmed rest. -/
theorem readOperator?_append (word : Text) {after rest : Text} {scripts : Scripts}
    (hafter : beginsWithLetter after = false)
    (hscripts : readScripts 4 ⟨[], []⟩ after = (scripts, rest)) :
    readOperator? ('\\' :: word) ('\\' :: word ++ after) = some (scripts, Text.trim rest) := by
  rw [readOperator?, afterCommand?_append hafter, Option.map_some, hscripts]

end Formula

end TexFigure
