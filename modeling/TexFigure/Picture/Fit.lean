import TexFigure.Shape.Outline
/-!
# Fitting a picture

A picture is moved and scaled, by one factor in both directions, so that its extent with a padding
fills the drawing and stands in its middle. Upwards in the picture is downwards in the drawing.
-/

namespace TexFigure.Picture

/-- A mapping from the plane of a picture to a drawing. -/
structure Fit (α : Type) where
  scale : α
  /-- Where the upper left corner of the padded extent comes to stand. -/
  origin : Point α
  /-- The upper left corner of the padded extent. -/
  corner : Point α

namespace Fit

variable {α : Type} [Scalar α]

/-- The extent of a picture that shows nothing. -/
def unitBox : Box α := ⟨⟨0.0, 0.0⟩, ⟨1.0, 1.0⟩⟩

/-- The extent of boxes: the unit box when there are none, or when their width is not finite. -/
def extent (boxes : List (Box α)) : Box α :=
  match Box.hull? boxes with
  | none => unitBox
  | some box =>
    if Scalar.isFinite box.low.x && Scalar.isFinite box.high.x then box else unitBox

/-- A box with a padding on every side. -/
def pad (padding : α) (box : Box α) : Box α :=
  ⟨⟨box.low.x - padding, box.low.y - padding⟩, ⟨box.high.x + padding, box.high.y + padding⟩⟩

/-- The mapping that fits a box into a drawing; a box thinner than a billionth counts as one of a
billionth. -/
def ofBox (box : Box α) (width height : α) : Fit α :=
  let boxWidth := Scalar.maximum (box.high.x - box.low.x) (1e-9 : α)
  let boxHeight := Scalar.maximum (box.high.y - box.low.y) (1e-9 : α)
  let scale := Scalar.minimum (width / boxWidth) (height / boxHeight)
  { scale
    origin := ⟨(width - boxWidth * scale) / (2.0 : α), (height - boxHeight * scale) / (2.0 : α)⟩
    corner := ⟨box.low.x, box.high.y⟩ }

/-- The mapping that fits boxes with a padding into a drawing. -/
def ofBoxes (boxes : List (Box α)) (width height padding : α) : Fit α :=
  ofBox (pad padding (extent boxes)) width height

/-- The place of a point. -/
def place (fit : Fit α) (point : Point α) : Point α :=
  ⟨fit.origin.x + (point.x - fit.corner.x) * fit.scale,
    fit.origin.y + (fit.corner.y - point.y) * fit.scale⟩

/-- A length in the drawing. -/
def length (fit : Fit α) (length : α) : α := length * fit.scale

end Fit

end TexFigure.Picture
