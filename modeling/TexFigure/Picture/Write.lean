import TexFigure.Picture.Command
import TexFigure.Shape.Outline
import TexFigure.Source.Split
/-!
# Pictures of shapes

Every shape becomes one command, with a second one for its label; a regular polygon is a node and
holds its label itself. A polygon without vertices becomes nothing. Only settings that differ from
their default are written.
-/

namespace TexFigure

open Decimal (brief)

namespace Shape

/-- A setting that is not blank. -/
def given? (setting : Option Text) : Option Text := setting.filter (!Text.isBlankText ·)

/-- The label of a shape, when it is not empty. -/
def label? (shape : Shape) : Option Text := shape.label.filter (!·.isEmpty)

/-- An opacity that lets something through, zero at least. -/
def opacity? (opacity : Option Float) : Option Float :=
  (opacity.filter (· < 1.0)).map (Double.maximum · 0.0)

/-- The degrees that a shape is turned by, when there are any. -/
def degrees? (shape : Shape) : Option Float := shape.rotation.filter (· != 0.0)

/-- The width of lines that ask for none, in points. -/
def defaultLineWidth : Float := 0.4

/-- A width of lines that is not the default. -/
def lineWidth? (shape : Shape) : Option Float :=
  shape.lineWidth.filter fun width => (width - defaultLineWidth).abs > 1e-9

end Shape

namespace Picture

/-- The options of a shape, where `turned` writes its rotation. -/
def options (turned : Float → Text) (shape : Shape) : List Text :=
  let fill : Option Text := (Shape.given? shape.fill).map fun color =>
    "fill=" ++ Source.optionValue color
  let stroke : Option Text := (Shape.given? shape.stroke).map fun color =>
    "draw=" ++ Source.optionValue color
  let width : Option Text := shape.lineWidth?.map fun width =>
    "line width=" ++ brief width ++ "pt"
  let style : Option Text := (shape.lineStyle.filter (· != .solid)).map LineStyle.keyword
  let opacity : Option Text := (Shape.opacity? shape.opacity).map fun opacity =>
    "opacity=" ++ brief opacity
  let shadow : Option Text := if shape.shadow then some "drop shadow" else none
  [fill, stroke, width, style, opacity, shape.degrees?.map turned, shadow].filterMap id

/-- A rotation about the centre of a shape. -/
def turnedAbout (centre : Point Float) (degrees : Float) : Text :=
  "rotate around=" ++ Text.braced (brief degrees ++ ":" ++ coordinate centre)

/-- The rotation of a node, which stands at its centre. -/
def turnedNode (degrees : Float) : Text := "rotate=" ++ brief degrees

/-- The path of an outline; nothing for a polygon without vertices. -/
def path? : Outline Float → Option Text
  | .circle centre radius => some (coordinate centre ++ " circle (" ++ brief radius ++ ")")
  | .rectangle corner width height =>
    some (coordinate corner ++ " rectangle "
      ++ coordinate ⟨corner.x + width, corner.y + height⟩)
  | .polygon vertices =>
    if vertices.isEmpty then none
    else some (Text.join " -- " (vertices.map coordinate) ++ " -- cycle")

/-- The options that make a node a regular polygon. -/
def polygonOptions (sides : Nat) (radius : Float) : List Text := [
  "draw", "regular polygon", "regular polygon sides=" ++ Decimal.nat (max sides 3),
  "minimum size=" ++ brief (radius * 2.0) ++ "cm"]

/-- The commands of a shape. -/
def commands (shape : Shape) : List Command :=
  match shape.form with
  | .regularPolygon sides radius =>
    [.node (polygonOptions sides radius ++ options turnedNode shape) shape.position
      (shape.label.getD [])]
  | _ =>
    match path? shape.outline with
    | none => []
    | some path =>
      .draw (options (turnedAbout shape.centre) shape) path
        :: (shape.label?.map (Command.node [] shape.centre)).toList

/-- The picture of shapes, in their order. -/
def write (shapes : List Shape) : Text := writePicture (shapes.flatMap commands)

end Picture

end TexFigure
