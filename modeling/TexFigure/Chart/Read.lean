import TexFigure.Chart.Loss
import TexFigure.Chart.Options
import TexFigure.Chart.Statement
import TexFigure.Table.Coordinates
import TexFigure.Table.Registry
/-!
# Reading a chart

A chart is read from the first axis environment of a source text: its options, and the statements
of its body, taken one after another. Reading is lenient. What a chart does not keep is recorded
as a loss, also when there is no chart in the end.

A table named in a series is looked up among the definitions of the source text, then in the
registry. The registry decides about the rows of such series and about nothing else.
-/

namespace TexFigure.Chart

open Source

/-- Why a source text holds no chart. -/
inductive Missing
  | axis | series
  deriving DecidableEq, Repr

/-- What is said about a missing chart. -/
def Missing.message : Missing → Text
  | axis => "No axis environment found"
  | series => "Axis environment contains no recognized series"

/-- A chart in the making, and what was dropped so far. -/
structure Reading where
  chart : Chart
  losses : List Loss

/-- The domain of a function that sets none. -/
def defaultDomain : Domain := (-5.0, 5.0)

/-- The number of samples of a function that sets none. -/
def defaultSamples : Nat := 25

/-- Where tables are looked up: in the definitions of the source text, then in the registry. -/
structure Tables where
  defined : Table.Registry
  registry : Table.Registry

/-- The rows of a table. -/
def Tables.find? (tables : Tables) (name : Text) : Option Text :=
  (tables.defined.find? name).or (tables.registry.find? name)

/-- The rows of a table's content, and the name of a table that was not found. -/
def tableRows (tables : Tables) (content : Text) : Text × Option Text :=
  match Table.tableName? content with
  | some name =>
    match tables.find? name with
    | some rows => (rows, none)
    | none => (Text.trim content, some name)
  | none =>
    if Table.isFileReference content then (Text.trim content, none)
    else (Table.normalizeRows content, none)

/-- Several losses of one kind at one place. -/
def lossesOf (kind : Loss.Kind) (place : Loss.Place) (names : List Text) : List Loss :=
  names.map fun name => ⟨kind, name, place⟩

/-- What a series draws, and what is dropped for it. -/
def kindOf (tables : Tables) (place : Loss.Place) (isSurface : Bool) (options : SeriesOptions) :
    Payload → Kind × List Loss
  | .coordinates body =>
    (.ofRows (options.dataType.getD .line) (Table.parseCoordinates body), [])
  | .table tableOptions content =>
    let (settings, dropped) := readOptions TableOptions.addOption {} tableOptions
    let (rows, missing) := tableRows tables content
    (.data ⟨options.dataType.getD .line, rows, settings.xColumn, settings.yColumn,
        settings.hasHeader⟩,
      lossesOf .unknownOption place dropped ++ lossesOf .unresolvedTable place missing.toList)
  | .function expression =>
    let domain := options.domain.getD defaultDomain
    let samples := options.samples.getD defaultSamples
    let kind : Kind :=
      if isSurface then
        .surface ⟨expression, domain, options.yDomain.getD domain, samples,
          options.surface.getD .surf, options.colormap⟩
      else .curve ⟨expression, domain, samples⟩
    (kind, lossesOf .unknownOption place (options.dataType.toList.flatMap DataType.flags))

/-- Give labels to series in order, where they have none. -/
def applyLegends : List Series → List Text → List Series
  | series :: rest, label :: labels =>
    let style := if series.style.legend.isEmpty then { series.style with legend := label }
      else series.style
    { series with style } :: applyLegends rest labels
  | rest, _ => rest

namespace Reading

/-- Take one statement. -/
def take (tables : Tables) (reading : Reading) : Statement → Reading
  | .series isSurface optionText payload legend =>
    let place := Loss.Place.series (reading.chart.series.length + 1)
    let (options, dropped) := readOptions SeriesOptions.addOption {} optionText
    let losses := reading.losses ++ lossesOf .unknownOption place dropped
    match payload with
    | none =>
      { reading with losses := losses ++ lossesOf .emptyPayload place ["\\addplot"] }
    | some payload =>
      let (kind, more) := kindOf tables place isSurface options payload
      let style := { options.style with legend := legend.getD [] }
      { chart := (reading.chart.push style kind).2, losses := losses ++ more }
  | .legends labels =>
    let series := applyLegends reading.chart.series (splitOptions labels)
    { reading with chart := { reading.chart with series } }
  | .unknown name =>
    { reading with losses := reading.losses ++ lossesOf .unknownCommand .axis [name] }

end Reading

/-- The options and the body of the first axis environment. The body goes on to the end of the
text when the environment is not closed. -/
def axisEnvironment? (code : Text) : Option (Text × Text) :=
  (Text.cut? code "\\begin\x7baxis\x7d").map fun (_, after) =>
    let body := afterBrackets after
    (((brackets? after).map (·.1)).getD [],
      ((Text.cut? body "\\end\x7baxis\x7d").map (·.1)).getD body)

/-- Read a chart with a registry of tables: the chart or why there is none, and what was
dropped. -/
def readReport (registry : Table.Registry) (code : Text) : Except Missing Chart × List Loss :=
  match axisEnvironment? code with
  | none => (.error .axis, [])
  | some (options, body) =>
    let (axis, dropped) := readOptions Axis.addOption {} options
    let tables : Tables := ⟨Table.collect code, registry⟩
    let start : Reading := ⟨{ axis }, lossesOf .unknownOption .axis dropped⟩
    let reading := (statements body).foldl (Reading.take tables) start
    (if reading.chart.series.isEmpty then .error .series else .ok reading.chart, reading.losses)

/-- Read a chart with a registry of tables. -/
def readWith (registry : Table.Registry) (code : Text) : Except Missing Chart :=
  (readReport registry code).1

/-- Read a chart. -/
def read (code : Text) : Except Missing Chart := readWith [] code

end TexFigure.Chart
