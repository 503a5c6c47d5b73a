import TexFigure.Chart.Document
import TexFigure.Shape.Basic
/-!
# Shapes as JSON

The form of a shape is a variant whose fields are all required. Of the other fields only the
identity is; a setting that is absent or null is left to its default.
-/

namespace TexFigure

open Json

/-- Write a point. -/
def Point.encode (point : Point Float) : Json := obj [("x", float point.x), ("y", float point.y)]

/-- Read a point. -/
def Point.decode? (value : Json) : Option (Point Float) := do
  let fields ← record? ["x", "y"] value
  return { x := ← required float? fields "x", y := ← required float? fields "y" }

namespace Shape

/-- Write the form of a shape. -/
def Form.encode : Form → Json
  | .circle radius => variant "circle" [("radius", float radius)]
  | .rectangle width height =>
    variant "rectangle" [("width", float width), ("height", float height)]
  | .square side => variant "square" [("side", float side)]
  | .triangle base height => variant "triangle" [("base", float base), ("height", float height)]
  | .regularPolygon sides radius =>
    variant "regular-polygon" [("sides", count sides), ("radius", float radius)]
  | .customPolygon vertices =>
    variant "custom-polygon" [("vertices", arr (vertices.map Point.encode))]

/-- How the fields of each form are read. -/
def Form.forms : List (Text × (Json → Option Form)) := [
  ("circle", fun value => do
    let fields ← record? ["radius"] value
    return .circle (← required float? fields "radius")),
  ("rectangle", fun value => do
    let fields ← record? ["width", "height"] value
    return .rectangle (← required float? fields "width") (← required float? fields "height")),
  ("square", fun value => do
    let fields ← record? ["side"] value
    return .square (← required float? fields "side")),
  ("triangle", fun value => do
    let fields ← record? ["base", "height"] value
    return .triangle (← required float? fields "base") (← required float? fields "height")),
  ("regular-polygon", fun value => do
    let fields ← record? ["sides", "radius"] value
    return .regularPolygon (← required count32? fields "sides")
      (← required float? fields "radius")),
  ("custom-polygon", fun value => do
    let fields ← record? ["vertices"] value
    return .customPolygon (← required (list? Point.decode?) fields "vertices"))]

/-- Read the form of a shape. -/
def Form.decode? (value : Json) : Option Form := do
  let (form, fields) ← variant? value
  (← Form.forms.lookup form) fields

/-- Write a shape. -/
def encode (shape : Shape) : Json :=
  obj [("id", count shape.id), ("kind", shape.form.encode), ("position", shape.position.encode),
    ("fill", nullable str shape.fill), ("stroke", nullable str shape.stroke),
    ("line_width", nullable float shape.lineWidth),
    ("line_style", nullable (fun style => str style.keyword) shape.lineStyle),
    ("opacity", nullable float shape.opacity), ("rotation", nullable float shape.rotation),
    ("shadow", bool shape.shadow), ("label", nullable str shape.label)]

/-- Read a shape. -/
def decode? (value : Json) : Option Shape := do
  let fields ← record? ["id", "kind", "position", "fill", "stroke", "line_width", "line_style",
    "opacity", "rotation", "shadow", "label"] value
  return {
    id := ← required count32? fields "id"
    form := ← required Form.decode? fields "kind"
    position := ← optional ⟨0.0, 0.0⟩ Point.decode? fields "position"
    fill := ← optional none (nullable? text?) fields "fill"
    stroke := ← optional none (nullable? text?) fields "stroke"
    lineWidth := ← optional none (nullable? float?) fields "line_width"
    lineStyle := ← optional none (nullable? (choice? LineStyle.ofKeyword?)) fields "line_style"
    opacity := ← optional none (nullable? float?) fields "opacity"
    rotation := ← optional none (nullable? float?) fields "rotation"
    shadow := ← optional false flag? fields "shadow"
    label := ← optional none (nullable? text?) fields "label" }

end Shape

/-- Write a figure. -/
def Figure.encode (figure : Figure) : Json :=
  obj [("shapes", arr (figure.shapes.map Shape.encode)), ("next_id", count figure.nextId)]

/-- Read a figure. -/
def Figure.decode? (value : Json) : Option Figure := do
  let fields ← record? ["shapes", "next_id"] value
  return {
    shapes := ← required (list? Shape.decode?) fields "shapes"
    nextId := ← optional 0 count32? fields "next_id" }

end TexFigure
