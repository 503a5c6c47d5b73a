import TexFigure.Arithmetic.Scalar
import TexFigure.Shape.Basic
/-!
# Outlines

Every shape has an outline, which is a circle, a rectangle or a polygon, and a centre that it is
turned about. Its extent is the smallest box that holds the turned outline; a polygon without
vertices has none. Upwards is the direction of growing `y`.
-/

namespace TexFigure

/-- A box with sides along the axes, by its lower left and upper right corner. -/
structure Box (α : Type) where
  low : Point α
  high : Point α
  deriving DecidableEq, Repr

/-- A turn, by its cosine and sine. -/
structure Turn (α : Type) where
  cosine : α
  sine : α

section

variable {α : Type} [Scalar α]

/-- The smallest box that holds two boxes. -/
def Box.union (a b : Box α) : Box α :=
  { low := ⟨Scalar.minimum a.low.x b.low.x, Scalar.minimum a.low.y b.low.y⟩
    high := ⟨Scalar.maximum a.high.x b.high.x, Scalar.maximum a.high.y b.high.y⟩ }

/-- The smallest box that holds several boxes. -/
def Box.hull? : List (Box α) → Option (Box α)
  | [] => none
  | first :: rest => some (rest.foldl Box.union first)

/-- Turn a point about a pivot. -/
def Turn.apply (turn : Turn α) (pivot point : Point α) : Point α :=
  let dx := point.x - pivot.x
  let dy := point.y - pivot.y
  ⟨pivot.x + dx * turn.cosine - dy * turn.sine, pivot.y + dx * turn.sine + dy * turn.cosine⟩

/-- The outline of a shape before it is turned. -/
inductive Outline (α : Type)
  | circle (centre : Point α) (radius : α)
  | rectangle (corner : Point α) (width height : α)
  | polygon (vertices : List (Point α))

namespace Outline

/-- Whether an outline is a polygon without vertices. -/
def isEmpty {β : Type} : Outline β → Bool
  | polygon vertices => vertices.isEmpty
  | _ => false

/-- The smallest box that holds points. -/
def boxOfPoints? (points : List (Point α)) : Option (Box α) :=
  Box.hull? (points.map fun point => ⟨point, point⟩)

/-- The smallest box that holds an outline turned about a pivot. -/
def extent? (outline : Outline α) (pivot : Point α) (turn : Turn α) : Option (Box α) :=
  match outline with
  | circle centre radius =>
    let r := Scalar.abs radius
    some ⟨⟨centre.x - r, centre.y - r⟩, ⟨centre.x + r, centre.y + r⟩⟩
  | rectangle corner width height =>
    boxOfPoints? <| List.map (turn.apply pivot)
      [corner, ⟨corner.x + width, corner.y⟩, ⟨corner.x + width, corner.y + height⟩,
        ⟨corner.x, corner.y + height⟩]
  | polygon vertices => boxOfPoints? (vertices.map (turn.apply pivot))

end Outline

end

namespace Shape

/-- The corners of a regular polygon. It has three at least; an odd number of them puts one at
the top, and an even number puts a level side there. -/
def regularVertices (centre : Point Float) (sides : Nat) (radius : Float) : List (Point Float) :=
  let n := max sides 3
  let step := 360.0 / Float.ofNat n
  let start := if n % 2 = 1 then 90.0 else 90.0 - step / 2.0
  (List.range n).map fun k =>
    let angle := Double.radians (start + step * Float.ofNat k)
    ⟨centre.x + radius * angle.cos, centre.y + radius * angle.sin⟩

/-- The outline of a form at a position. -/
def Form.outline (form : Form) (position : Point Float) : Outline Float :=
  match form with
  | .circle radius => .circle position radius
  | .rectangle width height => .rectangle position width height
  | .square side => .rectangle position side side
  | .triangle base height =>
    .polygon [position, ⟨position.x + base, position.y⟩,
      ⟨position.x + base / 2.0, position.y + height⟩]
  | .regularPolygon sides radius => .polygon (regularVertices position sides radius)
  | .customPolygon vertices =>
    .polygon (vertices.map fun vertex => ⟨position.x + vertex.x, position.y + vertex.y⟩)

/-- The outline of a shape. -/
def outline (shape : Shape) : Outline Float := shape.form.outline shape.position

/-- The mean of points, or a point that stands in when there are none. -/
def meanPoint (default : Point Float) (points : List (Point Float)) : Point Float :=
  let mean (numbers : List Float) : Float := numbers.foldl (· + ·) 0.0 / Float.ofNat numbers.length
  if points.isEmpty then default else ⟨mean (points.map (·.x)), mean (points.map (·.y))⟩

/-- The centre of a shape, where its label stands: that of a polygon is the mean of its vertices,
and that of a regular one its position. -/
def centre (shape : Shape) : Point Float :=
  match shape.form, shape.outline with
  | .regularPolygon .., _ => shape.position
  | _, .circle centre _ => centre
  | _, .rectangle corner width height => ⟨corner.x + width / 2.0, corner.y + height / 2.0⟩
  | _, .polygon vertices => meanPoint shape.position vertices

/-- The turn of a shape. -/
def turn (shape : Shape) : Turn Float :=
  let angle := Double.radians (shape.rotation.getD 0.0)
  ⟨angle.cos, angle.sin⟩

/-- The smallest box that holds a shape, if it has vertices. -/
def extent? (shape : Shape) : Option (Box Float) :=
  shape.outline.extent? shape.centre shape.turn

end Shape

end TexFigure
