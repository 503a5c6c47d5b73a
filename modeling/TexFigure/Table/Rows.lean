import TexFigure.Decimal.Reader
/-!
# Rows of data

Data are kept as text, one row to a line. Cells are separated by commas; in a row without commas
by semicolons, and in a row with neither by blanks. Comments, blank lines and the row terminator
of a table body are no part of the data.
-/

namespace TexFigure.Table

/-- Drop double backslashes from the front of a reversed line. -/
def dropTerminators : Text → Text
  | '\\' :: '\\' :: rest => dropTerminators rest
  | line => line

/-- A line of a table body without its row terminators and the blanks around it. -/
def trimLine (line : Text) : Text :=
  Text.trimEnd (dropTerminators (Text.trim line).reverse).reverse

/-- Whether a trimmed line holds data: it is not blank and no comment. -/
def isDataLine (line : Text) : Bool :=
  match line with
  | [] => false
  | c :: _ => c != '%' && c != '#'

/-- The lines that hold data. -/
def rowLines (rows : Text) : List Text :=
  ((Text.lines rows).map trimLine).filter isDataLine

/-- The canonical text of rows: one to a line. -/
def normalizeRows (rows : Text) : Text := Text.join ['\n'] (rowLines rows)

/-- The cells of a row, trimmed. -/
def splitRow (line : Text) : List Text :=
  if ',' ∈ line then (Text.splitOn ',' line).map Text.trim
  else if ';' ∈ line then (Text.splitOn ';' line).map Text.trim
  else Text.words line

/-- Whether data name a file: one token that is no number and holds no separator. -/
def isFileReference (rows : Text) : Bool :=
  let token := Text.trim rows
  !token.isEmpty && !token.any (fun c => isBlank c || c == ',' || c == ';')
    && (Decimal.readFloat? token).isNone

/-- Whether a character belongs to the name of a table. -/
def isNameChar (c : Char) : Bool := c.isAlpha || c == '@'

/-- The name of a table, when a text is one control sequence. -/
def tableName? (content : Text) : Option Text :=
  match Text.trim content with
  | '\\' :: name => if !name.isEmpty && name.all isNameChar then some name else none
  | _ => none

end TexFigure.Table
