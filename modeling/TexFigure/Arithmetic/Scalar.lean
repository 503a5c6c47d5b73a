import TexFigure.Arithmetic.Double
/-!
# Scalars

Layouts are computed in doubles, and their laws hold of exact numbers. A scalar is a number of
either kind: it has the four operations, literals, an order, and the way to whole numbers and
back that placing ticks takes.
-/

namespace TexFigure

/-- A number that a layout can be computed in. -/
class Scalar (α : Type) extends Add α, Sub α, Mul α, Div α, OfScientific α where
  /-- The smaller of two numbers. -/
  minimum : α → α → α
  /-- The larger of two numbers. -/
  maximum : α → α → α
  /-- The distance of a number from zero. -/
  abs : α → α
  /-- Whether the first number is at most the second. -/
  atMost : α → α → Bool
  /-- Whether a number is finite. -/
  isFinite : α → Bool
  /-- The largest power of ten that is at most a positive number. -/
  decade : α → α
  /-- The least whole number that is at least a number. -/
  ceiling : α → Int
  /-- The largest whole number that is at most a number. -/
  floor : α → Int
  /-- A whole number. -/
  ofInt : Int → α

instance : Scalar Float where
  minimum := Double.minimum
  maximum := Double.maximum
  abs := Float.abs
  atMost a b := a ≤ b
  isFinite := Float.isFinite
  decade x := Double.power 10.0 (Double.toInt x.log10.floor)
  ceiling x := Double.toInt x.ceil
  floor x := Double.toInt x.floor
  ofInt := Float.ofInt

end TexFigure
