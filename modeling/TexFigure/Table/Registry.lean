import TexFigure.Source.Command
import TexFigure.Table.Rows
/-!
# Named tables

A registry holds tables by name, in the order in which the names were first given. Tables are
defined in a source text by `\pgfplotstableread{rows}\name`, with options in brackets before the
rows if need be, and the name with or without braces. A definition whose name is no name is
passed over.
-/

namespace TexFigure.Table

open Source

/-- Tables by name. -/
abbrev Registry := List (Text × Text)

/-- Add a table; a name that is there already keeps its place and takes the new rows. -/
def Registry.insert (name rows : Text) : Registry → Registry
  | [] => [(name, rows)]
  | (other, old) :: rest =>
    if other = name then (name, rows) :: rest else (other, old) :: Registry.insert name rows rest

/-- The rows of a table. -/
def Registry.find? (registry : Registry) (name : Text) : Option Text := registry.lookup name

/-- The command that defines a table. -/
def readCommand : Text := "\\pgfplotstableread"

/-- The name behind the rows of a definition, in braces or to the end of its letters, and what
follows it. -/
def definedName (text : Text) : Text × Text :=
  match text with
  | [] => ([], [])
  | '{' :: rest => ((Text.trim (braceContent rest).1), (braceContent rest).2)
  | c :: rest => (c :: rest.takeWhile isNameChar, rest.dropWhile isNameChar)

/-- What follows a name is no longer than the text. -/
theorem length_definedName_le (text : Text) : (definedName text).2.length ≤ text.length := by
  unfold definedName
  split
  next => simp
  next rest =>
    have := length_braceContent_le rest
    simp only [List.length_cons]
    omega
  next c rest _ =>
    have := (List.dropWhile_sublist (l := rest) isNameChar).length_le
    simp only [List.length_cons]
    omega

/-- One step through a source text: the definition behind a command, if it is one, and what
follows. -/
def readDefinition (afterCommand : Text) : Option (Text × Text) × Text :=
  match group? (afterBrackets afterCommand) with
  | none => (none, afterBrackets afterCommand)
  | some (rows, after) =>
    match tableName? (definedName (Text.skipBlanks after)).1 with
    | some name => (some (name, normalizeRows rows), (definedName (Text.skipBlanks after)).2)
    | none => (none, Text.skipBlanks after)

/-- A step does not lengthen the text. -/
theorem length_readDefinition_le (afterCommand : Text) :
    (readDefinition afterCommand).2.length ≤ afterCommand.length := by
  have hbody := length_afterBrackets_le afterCommand
  unfold readDefinition
  split
  next => exact hbody
  next rows after hgroup =>
    have hafter := length_leadingGroup?_lt hgroup
    have hskip := length_skipBlanks_le after
    have hname := length_definedName_le (Text.skipBlanks after)
    split
    next => simp only; omega
    next => simp only; omega

/-- The definitions of a source text, in order. -/
def definitions (text : Text) : List (Text × Text) :=
  match _h : afterCommand? readCommand text with
  | none => []
  | some after =>
    (readDefinition after).1.toList ++ definitions (readDefinition after).2
termination_by text.length
decreasing_by
  have hafter := length_afterCommand?_le _h
  have hstep := length_readDefinition_le after
  have hname : readCommand.length = 18 := rfl
  omega

/-- The tables that a source text defines. -/
def collect (text : Text) : Registry :=
  (definitions text).foldl (fun registry (name, rows) => registry.insert name rows) []

end TexFigure.Table
