import TexFigure.Arithmetic.Double
import TexFigure.Chart.Basic
import TexFigure.Decimal.Notation
import TexFigure.Decimal.Reader
/-!
# Strokes

Widths of lines are written as dimensions, and dashes are multiples of the width.
-/

namespace TexFigure.Preview

/-- The lengths of dashes and gaps, in line widths. -/
def dashes : LineStyle → List Float
  | .solid => []
  | .dashed => [3.0, 3.0]
  | .dotted => [1.0, 2.0]
  | .dashdotted => [3.0, 2.0, 1.0, 2.0]

/-- The dashes and gaps of a line; nothing for a solid one. Lines thinner than one pixel have the
dashes of a line of one pixel. -/
def dashArray? (style : LineStyle) (width : Float) : Option Text :=
  let width := Double.maximum width 1.0
  match dashes style with
  | [] => none
  | lengths => some (Text.join " " (lengths.map fun length => Decimal.brief (length * width)))

/-- Units of length, in points. A number without a unit counts points. -/
def units : List (Text × Float) := [
  ("", 1.0), ("pt", 1.0), ("bp", 72.27 / 72.0), ("px", 0.75), ("mm", 2.845276),
  ("cm", 28.452756), ("in", 72.27), ("em", 10.0), ("ex", 4.3)]

/-- A length in points, if a text is a number and a unit that is known. -/
def points? (dimension : Text) : Option Float := do
  let dimension := Text.trim dimension
  let value ← Decimal.readFloat? (Text.trim (dimension.takeWhile (!·.isAlpha)))
  let factor ← units.lookup (Text.trim (dimension.dropWhile (!·.isAlpha)))
  return value * factor

end TexFigure.Preview
