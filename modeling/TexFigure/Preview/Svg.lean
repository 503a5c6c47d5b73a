import TexFigure.Decimal.Notation
import TexFigure.Preview.Options
import TexFigure.Preview.Xml
/-!
# Drawings

The elements that previews are made of. Coordinates and lengths are written with at most three
places.
-/

namespace TexFigure.Preview

open Decimal (brief)

/-- The attributes of an element, each a name and a value. -/
abbrev Attributes := List (Text × Text)

/-- A coordinate of a drawing. -/
abbrev Place := Float × Float

/-- A list of points. -/
def writePlaces (places : List Place) : Text :=
  Text.join " " (places.map fun (x, y) => brief x ++ ',' :: brief y)

/-- A rectangle. -/
def rect (x y width height : Float) (attributes : Attributes) : Xml :=
  .leaf "rect" <|
    ("x", brief x) :: ("y", brief y) :: ("width", brief width) :: ("height", brief height)
      :: attributes

/-- A circle. -/
def circle (x y radius : Float) (attributes : Attributes) : Xml :=
  .leaf "circle" (("cx", brief x) :: ("cy", brief y) :: ("r", brief radius) :: attributes)

/-- A line between two points. -/
def line (x1 y1 x2 y2 : Float) (attributes : Attributes) : Xml :=
  .leaf "line" <|
    ("x1", brief x1) :: ("y1", brief y1) :: ("x2", brief x2) :: ("y2", brief y2) :: attributes

/-- A text. -/
def label (x y size : Float) (attributes : Attributes) (content : Text) : Xml :=
  .element "text"
    (("x", brief x) :: ("y", brief y) :: ("font-size", brief size)
      :: ("font-family", "sans-serif") :: attributes)
    [.text content]

/-- The colour and width of a stroke. -/
def stroke (color width : Text) : Attributes := [("stroke", color), ("stroke-width", width)]

/-- A drawing of a size, on a background if there is one. -/
def svg (viewport : Viewport) (background : Option Text) (content : List Xml) : Xml :=
  let width := brief viewport.width
  let height := brief viewport.height
  .element "svg"
    [("xmlns", "http://www.w3.org/2000/svg"), ("width", width), ("height", height),
      ("viewBox", "0 0 " ++ width ++ " " ++ height)]
    ((background.toList.map fun color =>
      .leaf "rect" [("x", "0"), ("y", "0"), ("width", width), ("height", height), ("fill", color)])
      ++ content)

end TexFigure.Preview
