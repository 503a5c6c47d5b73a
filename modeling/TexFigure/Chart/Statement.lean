import TexFigure.Chart.Basic
import TexFigure.Expression.Rename
import TexFigure.Source.Command
/-!
# Statements of an axis body

The body of an axis is a sequence of statements with noise between them. `statements` reads it
from front to back: series, legend lists and commands that mean nothing to a chart. What stands
between them is passed over, comments included. Nothing is looked up here, so the statements of a
body depend on its text alone.
-/

namespace TexFigure.Chart

open Source

/-- What a series plots. -/
inductive Payload
  /-- Coordinates, behind the keyword. -/
  | coordinates (body : Text)
  /-- A table: its options and its content. -/
  | table (options content : Text)
  /-- A function, in the spelling of a user; never empty. -/
  | function (expression : Text)
  deriving DecidableEq, Repr

/-- One statement of an axis body. -/
inductive Statement
  /-- A series with its options, what it plots, and the legend that directly follows it. -/
  | series (isSurface : Bool) (options : Text) (payload : Option Payload) (legend : Option Text)
  /-- Legends for the series so far. -/
  | legends (labels : Text)
  /-- Another command, with its backslash. -/
  | unknown (name : Text)
  deriving DecidableEq, Repr

/-! ## The end of a series -/

/-- Cut at the first semicolon outside braces, brackets and parentheses. A group that never
closes takes in the rest of the text. -/
def cutAtSemicolon (parens : Nat) (escaped : Bool) (text : Text) : Text × Text :=
  match text with
  | [] => ([], [])
  | c :: rest =>
    if c = '{' then
      match _h : cutAtBrace 0 escaped (c :: rest) with
      | none => (c :: rest, [])
      | some (inside, after) =>
        (inside ++ '}' :: (cutAtSemicolon parens false after).1,
          (cutAtSemicolon parens false after).2)
    else if c = '[' then
      match _h : cutAtBracket 0 0 escaped (c :: rest) with
      | none => (c :: rest, [])
      | some (inside, after) =>
        (inside ++ ']' :: (cutAtSemicolon parens false after).1,
          (cutAtSemicolon parens false after).2)
    else if c = ';' ∧ parens = 0 then ([], rest)
    else
      let parens := if c = '(' then parens + 1 else if c = ')' then parens - 1 else parens
      let cut := cutAtSemicolon parens (escapes escaped c) rest
      (c :: cut.1, cut.2)
termination_by text.length
decreasing_by
  · have := congrArg List.length (cutAtBrace_eq _h)
    simp at this ⊢
    omega
  · have := congrArg List.length (cutAtBracket_eq _h)
    simp at this ⊢
    omega
  · simp

/-- What follows a semicolon is no longer than the text. -/
theorem length_cutAtSemicolon_le (parens : Nat) (escaped : Bool) (text : Text) :
    (cutAtSemicolon parens escaped text).2.length ≤ text.length := by
  fun_induction cutAtSemicolon parens escaped text with
  | case1 => simp
  | case2 => simp
  | case3 parens escaped rest inside after h ih =>
    have := congrArg List.length (cutAtBrace_eq h)
    simp at this ih ⊢
    omega
  | case4 => simp
  | case5 parens escaped rest inside after _ h ih =>
    have := congrArg List.length (cutAtBracket_eq h)
    simp at this ih ⊢
    omega
  | case6 => simp
  | case7 parens escaped c rest _ _ _ _ _ ih =>
    simp only [List.length_cons]
    exact Nat.le_succ_of_le ih

/-! ## Series -/

/-- Drop a mark from the front of a text. -/
def dropMark (mark : Char) (text : Text) : Text :=
  if text.head? = some mark then text.drop 1 else text

/-- Dropping a mark does not lengthen a text. -/
theorem length_dropMark_le (mark : Char) (text : Text) :
    (dropMark mark text).length ≤ text.length := by
  unfold dropMark
  split <;> simp

/-- What is plotted, trimmed and without the command that closes an area. -/
def trimPayload (text : Text) : Text :=
  let payload := Text.trim text
  if closing.isSuffixOf payload then Text.trim (payload.take (payload.length - closing.length))
  else payload

/-- The content of the group at the front of a text, or the text when there is none. -/
def contentOrAll (text : Text) : Text :=
  match text with
  | '{' :: rest => (braceContent rest).1
  | text => text

/-- Read what a series plots; nothing when a function is blank. -/
def readPayload? (payload : Text) : Option Payload :=
  match "coordinates".toList.isPrefixOf? payload, "table".toList.isPrefixOf? payload with
  | some rest, _ => some (.coordinates (((nextGroup? false rest).map (·.1)).getD []))
  | none, some rest =>
    let options := ((brackets? rest).map (·.1)).getD []
    let content := ((group? (afterBrackets rest)).map (·.1)).getD (Text.trim (afterBrackets rest))
    some (.table options content)
  | none, none =>
    let expression := Expression.toUser (Text.trim (contentOrAll payload))
    if expression.isEmpty then none else some (.function expression)

/-- The legend entry that directly follows a series. -/
def readLegend? (text : Text) : Option (Text × Text) :=
  ("\\addlegendentry".toList.isPrefixOf? (Text.skipBlanks text)).bind group?

/-- What follows a legend entry is no longer than the text. -/
theorem length_readLegend?_le {text legend after : Text}
    (h : readLegend? text = some (legend, after)) : after.length ≤ text.length := by
  obtain ⟨rest, hprefix, hgroup⟩ := Option.bind_eq_some_iff.1 h
  have hrest := congrArg List.length (Text.isPrefixOf?_eq_some.1 hprefix)
  have hskip := length_skipBlanks_le text
  have hafter := length_leadingGroup?_lt hgroup
  rw [List.length_append] at hrest
  omega

/-- The place behind the marks of a series command. -/
def afterMarks (text : Text) : Text := dropMark '+' (dropMark '3' text)

/-- What a series plots, and what follows its semicolon. -/
def seriesBody (text : Text) : Text × Text :=
  cutAtSemicolon 0 false (afterBrackets (afterMarks text))

/-- Read a series behind its command. A legend entry belongs to it only when it plots
something. -/
def readSeries (text : Text) : Statement × Text :=
  let isSurface := text.head? == some '3'
  let options := ((brackets? (afterMarks text)).map (·.1)).getD []
  match readPayload? (trimPayload (seriesBody text).1), readLegend? (seriesBody text).2 with
  | none, _ => (.series isSurface options none none, (seriesBody text).2)
  | some payload, none => (.series isSurface options (some payload) none, (seriesBody text).2)
  | some payload, some (legend, after) =>
    (.series isSurface options (some payload) (some (Text.trim legend)), after)

/-- What follows a series is no longer than the text. -/
theorem length_readSeries_le (text : Text) : (readSeries text).2.length ≤ text.length := by
  have hmarks : (afterMarks text).length ≤ text.length :=
    Nat.le_trans (length_dropMark_le _ _) (length_dropMark_le _ _)
  have hbody : (seriesBody text).2.length ≤ text.length :=
    Nat.le_trans (length_cutAtSemicolon_le _ _ _)
      (Nat.le_trans (length_afterBrackets_le _) hmarks)
  simp only [readSeries]
  split
  next => exact hbody
  next => exact hbody
  next hlegend => exact Nat.le_trans (length_readLegend?_le hlegend) hbody

/-! ## Other commands -/

/-- Pass over bracket and brace groups. -/
def skipArguments (text : Text) : Text :=
  match _h : brackets? text with
  | some (_, after) => skipArguments after
  | none =>
    match _h' : group? text with
    | some (_, after) => skipArguments after
    | none => text
termination_by text.length
decreasing_by
  · exact length_leadingBrackets?_lt _h
  · exact length_leadingGroup?_lt _h'

/-- Passing over arguments does not lengthen a text. -/
theorem length_skipArguments_le (text : Text) : (skipArguments text).length ≤ text.length := by
  fun_induction skipArguments text with
  | case1 text _ after h ih =>
    exact Nat.le_trans ih (Nat.le_of_lt (length_leadingBrackets?_lt h))
  | case2 text _ _ after h' ih =>
    exact Nat.le_trans ih (Nat.le_of_lt (length_leadingGroup?_lt h'))
  | case3 => exact Nat.le_refl _

/-- The drawing commands, which run to a semicolon. -/
def drawingCommands : List Text := ["draw", "node", "fill", "path"]

/-- Read a command that means nothing to a chart, behind its backslash, with all that belongs
to it. -/
def readUnknown (text : Text) : Statement × Text :=
  let name := text.takeWhile isLetter
  let rest := text.dropWhile isLetter
  let after :=
    if drawingCommands.contains name then (cutAtSemicolon 0 false rest).2 else skipArguments rest
  (.unknown ('\\' :: name), after)

/-- What follows a command is no longer than the text. -/
theorem length_readUnknown_le (text : Text) : (readUnknown text).2.length ≤ text.length := by
  have hrest := (List.dropWhile_sublist (l := text) isLetter).length_le
  simp only [readUnknown]
  split
  next => exact Nat.le_trans (length_cutAtSemicolon_le _ _ _) hrest
  next => exact Nat.le_trans (length_skipArguments_le _) hrest

/-- What follows the first line feed. -/
def afterLine (text : Text) : Text := (text.dropWhile (· != '\n')).drop 1

/-- Passing over a line does not lengthen a text. -/
theorem length_afterLine_le (text : Text) : (afterLine text).length ≤ text.length := by
  have := (List.dropWhile_sublist (l := text) (· != '\n')).length_le
  simp only [afterLine, List.length_drop]
  omega

/-! ## The body -/

/-- The statement behind a backslash, if there is one, and what follows. -/
def readStatement (text : Text) : Option Statement × Text :=
  match "addplot".toList.isPrefixOf? text, "legend\x7b".toList.isPrefixOf? text with
  | some rest, _ => (some (readSeries rest).1, (readSeries rest).2)
  | none, some rest => (some (.legends (braceContent rest).1), (braceContent rest).2)
  | none, none =>
    if beginsWithLetter text then (some (readUnknown text).1, (readUnknown text).2)
    else (none, text)

/-- What follows a statement is no longer than the text. -/
theorem length_readStatement_le (text : Text) : (readStatement text).2.length ≤ text.length := by
  unfold readStatement
  split
  next rest h =>
    have htext := congrArg List.length (Text.isPrefixOf?_eq_some.1 h)
    have hrest := length_readSeries_le rest
    rw [List.length_append] at htext
    exact Nat.le_trans hrest (by omega)
  next rest _ h =>
    have htext := congrArg List.length (Text.isPrefixOf?_eq_some.1 h)
    have hrest := length_braceContent_le rest
    rw [List.length_append] at htext
    exact Nat.le_trans hrest (by omega)
  next =>
    split
    next => exact length_readUnknown_le text
    next => exact Nat.le_refl _

/-- The statements of an axis body, in order. -/
def statements (text : Text) : List Statement :=
  match text with
  | [] => []
  | c :: rest =>
    if c = '%' then statements (afterLine rest)
    else if c = '\\' then (readStatement rest).1.toList ++ statements (readStatement rest).2
    else statements rest
termination_by text.length
decreasing_by
  · exact Nat.lt_succ_of_le (length_afterLine_le rest)
  · exact Nat.lt_succ_of_le (length_readStatement_le rest)
  · exact Nat.lt_succ_self _

end TexFigure.Chart
