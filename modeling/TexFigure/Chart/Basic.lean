import TexFigure.Identity
import TexFigure.Text.Basic
/-!
# Charts

A chart is an axis and its series in drawing order. Settings are kept as the texts in which they
are written; an empty text leaves the setting to its default. Every series has an identity that
editing preserves.
-/

namespace TexFigure

/-- How a line is broken into dashes. -/
inductive LineStyle
  | solid | dashed | dotted | dashdotted
  deriving DecidableEq, Repr

namespace LineStyle

/-- Every line style. -/
def all : List LineStyle := [solid, dashed, dotted, dashdotted]

/-- The option that selects a line style. -/
def keyword : LineStyle → Text
  | solid => "solid"
  | dashed => "dashed"
  | dotted => "dotted"
  | dashdotted => "dashdotted"

end LineStyle

namespace Chart

/-- The settings of an axis. -/
structure Axis where
  title : Text := []
  xlabel : Text := []
  ylabel : Text := []
  zlabel : Text := []
  xmin : Text := []
  xmax : Text := []
  ymin : Text := []
  ymax : Text := []
  grid : Text := []
  legendPos : Text := []
  width : Text := []
  height : Text := []
  deriving DecidableEq, Repr

/-- The settings that every kind of series shares. -/
structure Style where
  color : Text := []
  lineWidth : Text := []
  lineStyle : LineStyle := .solid
  marker : Text := []
  legend : Text := []
  deriving DecidableEq, Repr

/-- How rows of data are drawn. -/
inductive DataType
  | line | scatter | bar | area
  deriving DecidableEq, Repr

/-- How a surface is drawn. -/
inductive SurfaceStyle
  | surf | mesh
  deriving DecidableEq, Repr

namespace DataType

/-- Every way of drawing data. -/
def all : List DataType := [line, scatter, bar, area]

/-- The name of a way of drawing data. -/
def name : DataType → Text
  | line => "line"
  | scatter => "scatter"
  | bar => "bar"
  | area => "area"

/-- The options that select a way of drawing data; a line needs none. -/
def flags : DataType → List Text
  | line => []
  | scatter => ["only marks"]
  | bar => ["ybar"]
  | area => ["area style"]

end DataType

namespace SurfaceStyle

/-- Every surface style. -/
def all : List SurfaceStyle := [surf, mesh]

/-- The option that selects a surface style. -/
def keyword : SurfaceStyle → Text
  | surf => "surf"
  | mesh => "mesh"

end SurfaceStyle

/-- The command that closes the area under a series. -/
def closing : Text := "\\closedcycle"

/-- An interval of an axis, from its first bound to its second. -/
abbrev Domain := Float × Float

/-- A function of one variable. -/
structure Curve where
  expression : Text
  domain : Domain
  samples : Nat
  deriving BEq

/-- A function of two variables. -/
structure Surface where
  expression : Text
  domainX : Domain
  domainY : Domain
  samples : Nat
  plotStyle : SurfaceStyle
  colormap : Text
  deriving BEq

/-- A surface over the default domain. -/
def Surface.ofExpression (expression : Text) : Surface :=
  ⟨expression, (-2.0, 2.0), (-2.0, 2.0), 25, .surf, []⟩

/-- Rows of data; empty column names select the first two columns. -/
structure Data where
  dataType : DataType
  rows : Text
  xColumn : Text
  yColumn : Text
  hasHeader : Bool
  deriving BEq, DecidableEq

/-- What a series draws. -/
inductive Kind
  | curve (curve : Curve)
  | surface (surface : Surface)
  | data (data : Data)
  deriving BEq

namespace Kind

/-- A curve over the default domain. -/
def ofCurve (expression : Text) : Kind := .curve ⟨expression, (-5.0, 5.0), 100⟩

/-- A surface over the default domain. -/
def ofSurface (expression : Text) : Kind := .surface (.ofExpression expression)

/-- Rows of data with default columns. -/
def ofRows (dataType : DataType) (rows : Text) : Kind := .data ⟨dataType, rows, [], [], false⟩

end Kind

/-- A series of a chart. -/
structure Series where
  id : Nat
  style : Style
  kind : Kind
  deriving BEq

/-- The name under which a series is shown to a user. -/
def Series.label (id : Nat) : Text := "series-" ++ Nat.toDigits 10 id

end Chart

/-- An axis with its series in drawing order, and the least identity for a new series. -/
structure Chart where
  axis : Chart.Axis := {}
  series : List Chart.Series := []
  nextId : Nat := 0
  deriving BEq

namespace Chart

/-- Append a series under a fresh identity. -/
def push (style : Style) (kind : Kind) (chart : Chart) : Nat × Chart :=
  let id := Identity.fresh chart.nextId (chart.series.map (·.id))
  (id, { chart with series := chart.series ++ [⟨id, style, kind⟩], nextId := Identity.next id })

/-- The series of an identity. -/
def find? (id : Nat) (chart : Chart) : Option Series := chart.series.find? (·.id == id)

/-- Remove the series of an identity. -/
def remove (id : Nat) (chart : Chart) : Chart :=
  { chart with series := chart.series.eraseP (·.id == id) }

/-- Change the style and kind of the series of an identity. -/
def modify (id : Nat) (f : Series → Series) (chart : Chart) : Chart :=
  { chart with series := Identity.modifyFirst (·.id == id) f chart.series }

/-- Move the series of an identity to an index, or to the end when there are fewer series. -/
def move (id index : Nat) (chart : Chart) : Chart :=
  match chart.find? id with
  | none => chart
  | some series =>
    let others := chart.series.eraseP (·.id == id)
    { chart with series := others.take index ++ series :: others.drop index }

/-- Whether a series carries a legend. -/
def hasLegend (chart : Chart) : Bool :=
  chart.series.any fun series => !Text.isBlankText series.style.legend

end Chart

end TexFigure
