import TexFigure.Chart.Basic
import TexFigure.Json.Record
/-!
# Charts as JSON

Every setting of an axis and of a style has a default, and so have the parts of a chart. What a
series draws is a variant whose fields are all required.
-/

namespace TexFigure

open Json

/-- The line style of a keyword. -/
def LineStyle.ofKeyword? (keyword : Text) : Option LineStyle :=
  LineStyle.all.find? (·.keyword == keyword)

namespace Chart

/-- The way of drawing data of a name. -/
def DataType.ofName? (name : Text) : Option DataType := DataType.all.find? (·.name == name)

/-- The surface style of a keyword. -/
def SurfaceStyle.ofKeyword? (keyword : Text) : Option SurfaceStyle :=
  SurfaceStyle.all.find? (·.keyword == keyword)

/-- Write the settings of an axis. -/
def Axis.encode (axis : Axis) : Json :=
  obj [("title", str axis.title), ("xlabel", str axis.xlabel), ("ylabel", str axis.ylabel),
    ("zlabel", str axis.zlabel), ("xmin", str axis.xmin), ("xmax", str axis.xmax),
    ("ymin", str axis.ymin), ("ymax", str axis.ymax), ("grid", str axis.grid),
    ("legend_pos", str axis.legendPos), ("width", str axis.width), ("height", str axis.height)]

/-- Read the settings of an axis. -/
def Axis.decode? (value : Json) : Option Axis := do
  let fields ← record? ["title", "xlabel", "ylabel", "zlabel", "xmin", "xmax", "ymin", "ymax",
    "grid", "legend_pos", "width", "height"] value
  return {
    title := ← optional [] text? fields "title"
    xlabel := ← optional [] text? fields "xlabel"
    ylabel := ← optional [] text? fields "ylabel"
    zlabel := ← optional [] text? fields "zlabel"
    xmin := ← optional [] text? fields "xmin"
    xmax := ← optional [] text? fields "xmax"
    ymin := ← optional [] text? fields "ymin"
    ymax := ← optional [] text? fields "ymax"
    grid := ← optional [] text? fields "grid"
    legendPos := ← optional [] text? fields "legend_pos"
    width := ← optional [] text? fields "width"
    height := ← optional [] text? fields "height" }

/-- Write a style. -/
def Style.encode (style : Style) : Json :=
  obj [("color", str style.color), ("line_width", str style.lineWidth),
    ("line_style", str style.lineStyle.keyword), ("marker", str style.marker),
    ("legend", str style.legend)]

/-- Read a style. -/
def Style.decode? (value : Json) : Option Style := do
  let fields ← record? ["color", "line_width", "line_style", "marker", "legend"] value
  return {
    color := ← optional [] text? fields "color"
    lineWidth := ← optional [] text? fields "line_width"
    lineStyle := ← optional .solid (choice? LineStyle.ofKeyword?) fields "line_style"
    marker := ← optional [] text? fields "marker"
    legend := ← optional [] text? fields "legend" }

/-- Write what a series draws. -/
def Kind.encode : Kind → Json
  | .curve c =>
    variant "function2d" [("expression", str c.expression), ("domain", range c.domain),
      ("samples", count c.samples)]
  | .surface s =>
    variant "function3d" [("expression", str s.expression), ("domain_x", range s.domainX),
      ("domain_y", range s.domainY), ("samples", count s.samples),
      ("plot_style", str s.plotStyle.keyword), ("colormap", str s.colormap)]
  | .data d =>
    variant "data" [("chart_type", str d.dataType.name), ("data", str d.rows),
      ("x_column", str d.xColumn), ("y_column", str d.yColumn), ("has_header", bool d.hasHeader)]

/-- How the fields of each form are read. -/
def Kind.forms : List (Text × (Json → Option Kind)) := [
  ("function2d", fun value => do
    let fields ← record? ["expression", "domain", "samples"] value
    return .curve {
      expression := ← required text? fields "expression"
      domain := ← required range? fields "domain"
      samples := ← required count32? fields "samples" }),
  ("function3d", fun value => do
    let fields ← record? ["expression", "domain_x", "domain_y", "samples", "plot_style",
      "colormap"] value
    return .surface {
      expression := ← required text? fields "expression"
      domainX := ← required range? fields "domain_x"
      domainY := ← required range? fields "domain_y"
      samples := ← required count32? fields "samples"
      plotStyle := ← required (choiceInVariant? SurfaceStyle.ofKeyword?) fields "plot_style"
      colormap := ← required text? fields "colormap" }),
  ("data", fun value => do
    let fields ← record? ["chart_type", "data", "x_column", "y_column", "has_header"] value
    return .data {
      dataType := ← required (choiceInVariant? DataType.ofName?) fields "chart_type"
      rows := ← required text? fields "data"
      xColumn := ← required text? fields "x_column"
      yColumn := ← required text? fields "y_column"
      hasHeader := ← required flag? fields "has_header" })]

/-- Read what a series draws. -/
def Kind.decode? (value : Json) : Option Kind := do
  let (form, fields) ← variant? value
  (← Kind.forms.lookup form) fields

/-- Write a series. -/
def Series.encode (series : Series) : Json :=
  obj [("id", count series.id), ("style", series.style.encode), ("kind", series.kind.encode)]

/-- Read a series. -/
def Series.decode? (value : Json) : Option Series := do
  let fields ← record? ["id", "style", "kind"] value
  return {
    id := ← required count32? fields "id"
    style := ← optional {} Style.decode? fields "style"
    kind := ← required Kind.decode? fields "kind" }

/-- Write a chart. -/
def encode (chart : Chart) : Json :=
  obj [("axis", chart.axis.encode), ("plots", arr (chart.series.map Series.encode)),
    ("next_id", count chart.nextId)]

/-- Read a chart. -/
def decode? (value : Json) : Option Chart := do
  let fields ← record? ["axis", "plots", "next_id"] value
  return {
    axis := ← optional {} Axis.decode? fields "axis"
    series := ← optional [] (list? Series.decode?) fields "plots"
    nextId := ← optional 0 count32? fields "next_id" }

end Chart

end TexFigure
