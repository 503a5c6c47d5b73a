import TexFigure.Chart.Basic
/-!
# Shapes

A figure is a list of shapes in drawing order. The position of a shape is the centre of a circle
or regular polygon, the lower left corner of a rectangle, square or triangle, and the origin of
the vertices of a free polygon. A shape without a setting leaves it to its default.
-/

namespace TexFigure

/-- A point of the plane. -/
structure Point (α : Type) where
  x : α
  y : α
  deriving DecidableEq, BEq, Repr

namespace Shape

/-- The form of a shape and its dimensions. -/
inductive Form
  | circle (radius : Float)
  | rectangle (width height : Float)
  | square (side : Float)
  | triangle (base height : Float)
  | regularPolygon (sides : Nat) (radius : Float)
  | customPolygon (vertices : List (Point Float))

end Shape

/-- One shape of a figure. -/
structure Shape where
  id : Nat
  form : Shape.Form
  position : Point Float := ⟨0.0, 0.0⟩
  fill : Option Text := none
  stroke : Option Text := none
  lineWidth : Option Float := none
  lineStyle : Option LineStyle := none
  opacity : Option Float := none
  /-- Degrees, counter-clockwise. -/
  rotation : Option Float := none
  shadow : Bool := false
  label : Option Text := none

/-- The name under which a shape is shown to a user. -/
def Shape.name (id : Nat) : Text := "shape-" ++ Nat.toDigits 10 id

/-- The shapes of an editing session, and the least identity for a new one. -/
structure Figure where
  shapes : List Shape := []
  nextId : Nat := 0

namespace Figure

/-- Append a plain shape under a fresh identity. -/
def add (form : Shape.Form) (position : Point Float) (figure : Figure) : Nat × Figure :=
  let id := Identity.fresh figure.nextId (figure.shapes.map (·.id))
  (id, { shapes := figure.shapes ++ [{ id, form, position }], nextId := Identity.next id })

/-- The shape of an identity. -/
def find? (id : Nat) (figure : Figure) : Option Shape := figure.shapes.find? (·.id == id)

/-- Remove the shape of an identity. -/
def remove (id : Nat) (figure : Figure) : Figure :=
  { figure with shapes := figure.shapes.eraseP (·.id == id) }

/-- Put another shape in the place of the shape of an identity. -/
def replace (id : Nat) (shape : Shape) (figure : Figure) : Figure :=
  { figure with shapes := Identity.modifyFirst (·.id == id) (fun _ => shape) figure.shapes }

end Figure

end TexFigure
