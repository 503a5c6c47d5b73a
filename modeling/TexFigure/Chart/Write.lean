import TexFigure.Chart.Basic
import TexFigure.Decimal.Notation
import TexFigure.Expression.Rename
import TexFigure.Source.Split
import TexFigure.Table.Coordinates
/-!
# The canonical code of a chart

Every chart has one written form, a picture with one axis. Settings that are blank are left out.
Labels stand in braces; other values do so only when they need it. A legend position is written
exactly when a series has a legend.
-/

namespace TexFigure.Chart

open Source

/-- A key and a value. -/
def setting (key value : Text) : Text := key ++ '=' :: value

/-- An option for a value that is not blank. -/
def optionFor (key value : Text) : List Text :=
  if Text.isBlankText value then [] else [setting key (optionValue value)]

/-- An option for a label that is not empty; the label stands in braces as it is. -/
def labelFor (key value : Text) : List Text :=
  if value.isEmpty then [] else [setting key (Text.braced value)]

/-- The legend position of a chart with legends. -/
def legendPosition (position : Text) : Text :=
  let position := Text.trim position
  setting "legend pos" (optionValue (if position.isEmpty then "north east" else position))

/-- The options of an axis. -/
def axisOptions (chart : Chart) : List Text :=
  let axis := chart.axis
  labelFor "title" axis.title ++ labelFor "xlabel" axis.xlabel ++ labelFor "ylabel" axis.ylabel
    ++ labelFor "zlabel" axis.zlabel ++ optionFor "xmin" axis.xmin ++ optionFor "xmax" axis.xmax
    ++ optionFor "ymin" axis.ymin ++ optionFor "ymax" axis.ymax ++ optionFor "grid" axis.grid
    ++ (if chart.hasLegend then [legendPosition axis.legendPos] else [])
    ++ optionFor "width" axis.width ++ optionFor "height" axis.height

/-- The options of a style. A marker named `none` is left out, since that is how its absence is
written. -/
def styleOptions (style : Style) : List Text :=
  optionFor "color" style.color ++ optionFor "line width" style.lineWidth
    ++ (if style.lineStyle = .solid then [] else [style.lineStyle.keyword])
    ++ (if Text.trim style.marker = "none" then [] else optionFor "mark" style.marker)

/-- A domain. -/
def writeDomain (domain : Domain) : Text :=
  Decimal.plain domain.1 ++ ':' :: Decimal.plain domain.2

/-- The number of samples, one at least. -/
def writeSamples (samples : Nat) : Text := setting "samples" (Decimal.nat (max samples 1))

/-- The function of a series; a blank one is written as zero. -/
def writeFunction (expression : Text) : Text :=
  let expression := Text.trim expression
  Text.braced (if expression.isEmpty then "0" else Expression.toCode expression)

/-- An option list in brackets, when there are options. -/
def writeOptions (options : List Text) : Text :=
  if options.isEmpty then [] else Text.bracketed (Text.join ", " options)

/-- The options of a table. -/
def tableOptions (data : Data) : List Text :=
  let column (key selector : Text) : List Text :=
    if selector.isEmpty then [] else [setting key (optionValue selector)]
  column (if data.hasHeader then "x" else "x index") data.xColumn
    ++ column (if data.hasHeader then "y" else "y index") data.yColumn
    ++ (if data.hasHeader then [] else [setting "header" "false"])
    ++ (if ',' ∈ data.rows then [setting "col sep" "comma"] else [])

/-- The rows of a series: coordinates, or a table when the rows are a file or a column is
selected. -/
def writeRows (data : Data) : Text :=
  let isFile := Table.isFileReference data.rows
  if data.xColumn.isEmpty ∧ data.yColumn.isEmpty ∧ isFile = false then
    "coordinates " ++ Text.braced (Table.formatCoordinates data.rows data.hasHeader)
  else
    let content :=
      if isFile then Text.trim data.rows else '\n' :: Table.normalizeRows data.rows ++ ['\n']
    "table" ++ writeOptions (tableOptions data) ++ ' ' :: Text.braced content

/-- The command, the options and the payload of a series. -/
def seriesParts (series : Series) : Text × List Text × Text :=
  match series.kind with
  | .curve curve =>
    ("\\addplot",
      styleOptions series.style
        ++ [setting "domain" (writeDomain curve.domain), writeSamples curve.samples],
      writeFunction curve.expression)
  | .surface surface =>
    ("\\addplot3",
      surface.plotStyle.keyword :: styleOptions series.style
        ++ [setting "domain" (writeDomain surface.domainX),
          setting "y domain" (writeDomain surface.domainY), writeSamples surface.samples]
        ++ (if Text.isBlankText surface.colormap then []
          else ["colormap/" ++ Text.trim surface.colormap]),
      writeFunction surface.expression)
  | .data data =>
    ("\\addplot",
      data.dataType.flags ++ styleOptions series.style,
      writeRows data ++ (if data.dataType = .area then ' ' :: closing else []))

/-- A legend entry. -/
def writeLegend (legend : Text) : Text := "\\addlegendentry" ++ Text.braced legend ++ "\n"

/-- A series, with its legend on a line of its own. -/
def writeSeries (series : Series) : Text :=
  let (command, options, payload) := seriesParts series
  let legend := Text.trim series.style.legend
  command ++ writeOptions options ++ ' ' :: payload ++ ";\n"
    ++ (if legend.isEmpty then [] else writeLegend legend)

/-- One option of an axis, on a line of its own. -/
def writeAxisOption (option : Text) : Text := "    " ++ option ++ ",\n"

/-- The line that opens the axis, with one option to a line. -/
def writeAxis (options : List Text) : Text :=
  if options.isEmpty then "\\begin\x7baxis\x7d\n"
  else "\\begin\x7baxis\x7d[\n" ++ options.flatMap writeAxisOption ++ "]\n"

/-- The canonical code of a chart. -/
def write (chart : Chart) : Text :=
  "\\begin\x7btikzpicture\x7d\n" ++ writeAxis chart.axisOptions
    ++ chart.series.flatMap writeSeries ++ "\\end\x7baxis\x7d\n\\end\x7btikzpicture\x7d"

end TexFigure.Chart
