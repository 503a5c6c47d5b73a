import TexFigure.Table.Rows
/-!
# Points of a table

A column is selected by a name of the header or by its index, which counts from zero. A row
without a number in its `y` cell gives no point; without one in its `x` cell it stands at the
number of its row.
-/

namespace TexFigure.Table

/-- The index of a column: that of the last header cell of its name, else the number that it
writes, else the default. -/
def columnIndex (selector : Text) (header : List Text) (default : Nat) : Nat :=
  let selector := Text.trim selector
  if selector.isEmpty then default
  else
    match header.reverse.idxOf? selector with
    | some fromEnd => header.length - 1 - fromEnd
    | none => (Decimal.readNat? (Nat.pow 2 64) selector).getD default

/-- The point of a row. -/
def rowPoint? (xIndex yIndex row : Nat) (line : Text) : Option (Float × Float) := do
  let cells := splitRow line
  let y ← Decimal.readFloat? (← cells[yIndex]?)
  let x := (cells[xIndex]?.bind Decimal.readFloat?).getD (Float.ofNat row)
  return (x, y)

/-- The points of a table. -/
def points (rows xColumn yColumn : Text) (hasHeader : Bool) : List (Float × Float) :=
  let (header, lines) : List Text × List Text :=
    match hasHeader, rowLines rows with
    | true, first :: lines => (splitRow first, lines)
    | _, lines => ([], lines)
  let xIndex := columnIndex xColumn header 0
  let yIndex := columnIndex yColumn header 1
  lines.zipIdx.filterMap fun (line, row) => rowPoint? xIndex yIndex row line

end TexFigure.Table
