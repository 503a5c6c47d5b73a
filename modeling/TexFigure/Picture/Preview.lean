import TexFigure.Color.Token
import TexFigure.Picture.Fit
import TexFigure.Picture.Write
import TexFigure.Preview.Label
import TexFigure.Preview.Stroke
import TexFigure.Preview.Svg
/-!
# The preview of shapes

Every shape with an outline becomes a group with its identity, in the order of the list. When one
shape is selected the others stand back: they keep their outline and lose every other setting.
-/

namespace TexFigure.Picture

open Preview
open Decimal (brief)

/-- A shape as it is drawn, with the stroke that it has when it names none. -/
structure Drawn where
  shape : Shape
  defaultStroke : Text

namespace Drawn

/-- A shape without settings other than those of its outline. -/
def bare (shape : Shape) : Shape :=
  { id := shape.id, form := shape.form, position := shape.position, rotation := shape.rotation }

/-- A shape that keeps its settings if it is selected, or if none is. -/
def ofShape (selected : Option Nat) (options : Options) (shape : Shape) : Drawn :=
  if selected.any (· != shape.id) then ⟨bare shape, options.mutedStroke⟩
  else ⟨shape, "#000000"⟩

end Drawn

/-- The points of a line to the unit of a picture. -/
def pointsPerUnit : Float := 28.452756

/-- The colour of a token and its opacity, where it lets something through. -/
def paint (default : Text) (token : Option Text) : Text × Option Float :=
  match Shape.given? token with
  | none => (default, none)
  | some token =>
    let color := Color.ofToken .opacity token
    (color.hex, Shape.opacity? (some color.alpha))

/-- A number as an attribute, if there is one. -/
def numberAttribute (name : Text) (value : Option Float) : Attributes :=
  value.toList.map fun value => (name, brief value)

/-- The mapping of a picture to a drawing. -/
abbrev View := Fit Float

/-- The place of a point in a drawing. -/
def viewPlace (view : View) (point : Point Float) : Place :=
  let place := view.place point
  (place.x, place.y)

/-- The width of the stroke of a shape, in pixels. -/
def strokeWidth (view : View) (shape : Shape) : Float :=
  Double.maximum
    (view.length (shape.lineWidth.getD Shape.defaultLineWidth / pointsPerUnit)) 0.5

/-- The rotation of a shape, which is clockwise in a drawing. -/
def turnAttribute (view : View) (shape : Shape) : Attributes :=
  let (x, y) := viewPlace view shape.centre
  shape.degrees?.toList.map fun degrees =>
    ("transform", "rotate(" ++ brief (-degrees) ++ " " ++ brief x ++ " " ++ brief y ++ ")")

/-- The attributes of the outline of a shape. -/
def look (view : View) (drawn : Drawn) : Attributes :=
  let shape := drawn.shape
  let (fill, fillOpacity) := paint "none" shape.fill
  let (strokeColor, strokeOpacity) := paint drawn.defaultStroke shape.stroke
  let width := strokeWidth view shape
  let dashes : Attributes :=
    ((shape.lineStyle.bind (dashArray? · width)).map fun dashes =>
      (("stroke-dasharray".toList, dashes) : Text × Text)).toList
  let shadow : Attributes := if shape.shadow then [("filter", "url(#shadow)")] else []
  ("fill", fill) :: (stroke strokeColor (brief width)
    ++ numberAttribute "fill-opacity" fillOpacity
    ++ numberAttribute "stroke-opacity" strokeOpacity
    ++ dashes
    ++ numberAttribute "opacity" (Shape.opacity? shape.opacity)
    ++ shadow
    ++ turnAttribute view shape)

/-- An outline in a drawing. -/
def drawOutline (view : View) (attributes : Attributes) : Outline Float → Xml
  | .circle centre radius =>
    let (x, y) := viewPlace view centre
    circle x y (view.length radius.abs) attributes
  | .rectangle corner width height =>
    let (x, y) := viewPlace view
      ⟨Double.minimum corner.x (corner.x + width), Double.maximum corner.y (corner.y + height)⟩
    rect x y (view.length width.abs) (view.length height.abs) attributes
  | .polygon vertices =>
    .leaf "polygon" (("points", writePlaces (vertices.map (viewPlace view))) :: attributes)

/-- The label of a shape at its centre. -/
def drawLabel (view : View) (options : Options) (shape : Shape) : List Xml :=
  let (x, y) := viewPlace view shape.centre
  shape.label?.toList.map fun content =>
    label x y options.fontSize [("text-anchor", "middle"), ("dominant-baseline", "central")]
      (plainLabel content)

/-- The group of a shape; nothing for a polygon without vertices. -/
def drawShape (view : View) (options : Options) (drawn : Drawn) : List Xml :=
  let shape := drawn.shape
  if shape.outline.isEmpty then []
  else
    [.element "g" [("id", Shape.name shape.id)]
      (drawOutline view (look view drawn) shape.outline :: drawLabel view options shape)]

/-- The definition of the shadow that shapes refer to. -/
def shadowFilter : Xml :=
  .element "defs" []
    [.element "filter" [("id", "shadow"), ("x", "-20%"), ("y", "-20%"), ("width", "140%"),
        ("height", "140%")]
      [.leaf "feDropShadow" [("dx", "2"), ("dy", "2"), ("stdDeviation", "1.5"),
        ("flood-color", "#000000"), ("flood-opacity", "0.35")]]]

/-- The drawing of shapes. -/
def draw (shapes : List Shape) (viewport : Viewport) (selected : Option Nat) (options : Options) :
    Xml :=
  let drawn := shapes.map (Drawn.ofShape selected options)
  let view : View := Fit.ofBoxes (drawn.filterMap (·.shape.extent?)) viewport.width viewport.height
    options.shapePadding
  let shadow := if drawn.any (·.shape.shadow) then [shadowFilter] else []
  svg viewport (some options.background) (shadow ++ drawn.flatMap (drawShape view options))

/-- The preview of shapes, as a text. -/
def render (shapes : List Shape) (viewport : Viewport) (selected : Option Nat)
    (options : Options) : Text :=
  (draw shapes viewport selected options).write

end TexFigure.Picture
