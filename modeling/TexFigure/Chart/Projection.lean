import TexFigure.Chart.Frame
import TexFigure.Color.Basic
/-!
# Surfaces in space

A surface is sampled on a grid and cut into quadrilaterals, which are projected along the
direction of view and drawn from the farthest to the nearest. The box of the three axes is a
unit cube, scaled to fit its region whatever the direction.
-/

namespace TexFigure.Chart

open Preview (Options)

/-! ## Colour maps -/

/-- The colours that a map passes through at equal steps: the first, the second, and the rest. -/
structure ColorMap where
  first : Color
  second : Color
  rest : List Color

/-- The colour map of a name; the last one stands for every other name. -/
def colorMap (name : Text) : ColorMap :=
  if name = "viridis" then
    ⟨.solid 68.0 1.0 84.0, .solid 59.0 82.0 139.0,
      [.solid 33.0 145.0 140.0, .solid 94.0 201.0 98.0, .solid 253.0 231.0 37.0]⟩
  else if name = "jet" then
    ⟨.solid 0.0 0.0 128.0, .solid 0.0 0.0 255.0,
      [.solid 0.0 255.0 255.0, .solid 255.0 255.0 0.0, .solid 255.0 0.0 0.0,
        .solid 128.0 0.0 0.0]⟩
  else if name = "cool" then
    ⟨.solid 255.0 255.0 255.0, .solid 0.0 128.0 255.0, [.solid 255.0 0.0 255.0]⟩
  else if name = "blackwhite" then ⟨.solid 0.0 0.0 0.0, .solid 255.0 255.0 255.0, []⟩
  else if name = "bluered" then
    ⟨.solid 0.0 0.0 180.0, .solid 0.0 255.0 255.0,
      [.solid 100.0 255.0 0.0, .solid 255.0 255.0 0.0, .solid 255.0 0.0 0.0,
        .solid 128.0 0.0 0.0]⟩
  else if name = "hot2" then
    ⟨.solid 0.0 0.0 0.0, .solid 255.0 0.0 0.0,
      [.solid 255.0 255.0 0.0, .solid 255.0 255.0 255.0]⟩
  else
    ⟨.solid 0.0 0.0 255.0, .solid 255.0 255.0 0.0,
      [.solid 255.0 128.0 0.0, .solid 255.0 0.0 0.0]⟩

namespace ColorMap

/-- The two neighbouring colours at an index; the last two behind the end. -/
def neighbours (first second : Color) : List Color → Nat → Color × Color
  | [], _ => (first, second)
  | _, 0 => (first, second)
  | third :: rest, index + 1 => neighbours second third rest index

/-- The colour at a part of the way, from 0 to 1; at the start for a part that is not finite. -/
def color (map : ColorMap) (part : Float) : Color :=
  let part := if part.isFinite then Double.clamp 0.0 1.0 part else 0.0
  let steps := map.rest.length + 1
  let scaled := part * Float.ofNat steps
  let index := min (Double.toInt scaled.floor).toNat (steps - 1)
  let share := scaled - Float.ofNat index
  let (a, b) := neighbours map.first map.second map.rest index
  .solid (a.red + (b.red - a.red) * share) (a.green + (b.green - a.green) * share)
    (a.blue + (b.blue - a.blue) * share)

end ColorMap

/-! ## Grids -/

/-- A point in space, in the units of the axes. -/
structure Spot where
  x : Float
  y : Float
  z : Float

/-- The samples of a surface, in rows of equal `y`. -/
structure Grid where
  style : SurfaceStyle
  colormap : Text
  xs : List Float
  ys : List Float
  rows : List (List Spot)

namespace Grid

/-- The grid of a surface, if its expression compiles. -/
def ofSurface? (surface : Surface) (options : Options) : Option Grid :=
  match Expression.compile surface.expression with
  | .error _ => none
  | .ok expression =>
    let n := max (min surface.samples options.maxSurfaceSamples) 2
    let xs := (List.range n).map (step surface.domainX n)
    let ys := (List.range n).map (step surface.domainY n)
    let rows := ys.map fun y => xs.map fun x => ⟨x, y, expression.eval x y⟩
    some ⟨surface.plotStyle, surface.colormap, xs, ys, rows⟩

/-- The finite heights of a grid. -/
def heights (grid : Grid) : List Float :=
  (grid.rows.flatMap fun row => row.map (·.z)).filter Float.isFinite

/-- The corners of the quadrilaterals of a grid, each around its edge. -/
def cells (grid : Grid) : List (List Spot) :=
  (adjacent grid.rows).flatMap fun (near, far) =>
    ((adjacent near).zip (adjacent far)).map fun ((a, b), (d, c)) => [a, b, c, d]

end Grid

/-! ## The projection -/

/-- A number at its share of a range, counted from the middle. -/
def share (range : Domain) (x : Float) : Float := (x - range.1) / (range.2 - range.1) - 0.5

/-- A direction of view. -/
structure View where
  cosAzimuth : Float
  sinAzimuth : Float
  cosElevation : Float
  sinElevation : Float

namespace View

/-- The direction of view of a drawing. -/
def ofOptions (options : Options) : View :=
  let azimuth := Double.radians options.viewAzimuth
  let elevation := Double.radians options.viewElevation
  ⟨azimuth.cos, azimuth.sin, elevation.cos, elevation.sin⟩

/-- The place of a point of the unit cube before scaling, upwards positive. -/
def place (view : View) (u v w : Float) : Float × Float :=
  (u * view.cosAzimuth + v * view.sinAzimuth,
    -u * view.sinAzimuth * view.sinElevation + v * view.cosAzimuth * view.sinElevation
      + w * view.cosElevation)

/-- How near a point of the unit cube is to the viewer. -/
def nearness (view : View) (u v w : Float) : Float :=
  u * view.sinAzimuth * view.cosElevation - v * view.cosAzimuth * view.cosElevation
    + w * view.sinElevation

/-- The places of the corners of the unit cube. -/
def corners (view : View) : List (Float × Float) :=
  let ends := [-0.5, 0.5]
  ends.flatMap fun u => ends.flatMap fun v => ends.map fun w => view.place u v w

end View

/-- The mapping of a chart in space. -/
structure Projection where
  view : View
  x : Domain
  y : Domain
  z : Domain
  scale : Float
  centre : Float × Float

namespace Projection

/-- The mapping that fits the unit cube into a region. -/
def ofRanges (view : View) (x y z : Domain) (region : Region) : Projection :=
  let (left, right) := hull (view.corners.map (·.1))
  let (low, high) := hull (view.corners.map (·.2))
  let scale := Double.minimum (region.width / (right - left)) (region.height / (high - low))
  { view, x, y, z, scale
    centre := (region.left + region.width / 2.0 - (left + right) / 2.0 * scale,
      region.top + region.height / 2.0 + (low + high) / 2.0 * scale) }

/-- The place of a point. -/
def place (p : Projection) (spot : Spot) : Float × Float :=
  let (across, up) := p.view.place (share p.x spot.x) (share p.y spot.y) (share p.z spot.z)
  (p.centre.1 + across * p.scale, p.centre.2 - up * p.scale)

/-- How near a point is to the viewer. -/
def nearness (p : Projection) (spot : Spot) : Float :=
  p.view.nearness (share p.x spot.x) (share p.y spot.y) (share p.z spot.z)

end Projection

/-! ## Quadrilaterals -/

/-- A quadrilateral as it is drawn. -/
structure Quad where
  nearness : Float
  corners : List (Float × Float)
  fill : Option Text
  stroke : Text

/-- A key that orders doubles as the line of numbers does, with minus zero before zero and a value
that is not a number before all. -/
def orderKey (x : Float) : Int :=
  let bits : Nat := x.toBits.toNat
  if x.isNaN then -(Nat.pow 2 64 : Nat)
  else if bits < Nat.pow 2 63 then bits
  else (Nat.pow 2 63 : Nat) - 1 - (bits : Int)

/-- The quadrilateral of a cell, if its corners are finite. It is judged near or far, and
coloured, by its middle. -/
def quad? (p : Projection) (grid : Grid) (cell : List Spot) : Option Quad :=
  match cell with
  | [a, b, c, d] =>
    if !a.z.isFinite || !b.z.isFinite || !c.z.isFinite || !d.z.isFinite then none
    else
      let height := (a.z + b.z + c.z + d.z) / 4.0
      let middle : Spot := ⟨(a.x + b.x) / 2.0, (a.y + d.y) / 2.0, height⟩
      let shade := ((colorMap grid.colormap).color ((height - p.z.1) / (p.z.2 - p.z.1))).hex
      let (fill, stroke) : Option Text × Text := match grid.style with
        | .surf => (some shade, "#333333")
        | .mesh => (none, shade)
      some ⟨p.nearness middle, [a, b, c, d].map p.place, fill, stroke⟩
  | _ => none

/-- The quadrilaterals of several surfaces, from the farthest to the nearest. -/
def quads (p : Projection) (grids : List Grid) : List Quad :=
  (grids.flatMap fun grid => grid.cells.filterMap (quad? p grid)).mergeSort
    fun a b => orderKey a.nearness ≤ orderKey b.nearness

end TexFigure.Chart
