import TexFigure.Chart.Projection
import TexFigure.Color.Token
import TexFigure.Preview.Label
import TexFigure.Preview.Stroke
import TexFigure.Preview.Svg
/-!
# The preview of a chart

A chart is drawn in its frame, with ticks, labels and a legend. One surface among its series
makes it a chart in space, which shows the surfaces alone. Settings that cannot be read are
passed over, so that every chart has a drawing.
-/

namespace TexFigure.Chart

open Preview
open Decimal (brief)

/-! ## The look of a series -/

/-- The colour of a series: its own, or that of its turn. -/
def seriesColor (series : Series) (index : Nat) (options : Options) : Text :=
  let token := if series.style.color.isEmpty then options.cycleColor index else series.style.color
  (Color.ofToken .white token).hex

/-- The width of the stroke of a series, in pixels. -/
def strokeWidth (series : Series) : Float :=
  match points? series.style.lineWidth with
  | some width => Double.maximum (width * 2.0) 0.5
  | none => 1.5

/-- The dashes of a line. -/
def dashAttributes (style : LineStyle) (width : Float) : Attributes :=
  (dashArray? style width).toList.map fun dashes => ("stroke-dasharray", dashes)

/-- The colour, width and dashes of the stroke of a series. -/
def strokeOf (drawn : Drawn) : Attributes :=
  stroke drawn.color (brief drawn.strokeWidth)
    ++ dashAttributes drawn.series.style.lineStyle drawn.strokeWidth

/-- The radius of a marker, in pixels. -/
def markerRadius : Float := 3.0

/-- A thin black stroke. -/
def blackStroke : Attributes := stroke "#000000" "1"

/-- The series that leave a trace. -/
def drawnSeries (chart : Chart) (options : Options) : List Drawn :=
  chart.series.zipIdx.filterMap fun (series, index) =>
    (Trace.ofKind? series.kind).map fun trace =>
      ⟨series, seriesColor series index options, strokeWidth series, trace⟩

/-! ## Traces -/

/-- Whether a marker is filled with the colour of its series; hollow markers show the
background. -/
def isFilled (marker : Text) : Bool :=
  marker.isEmpty || marker.getLast? == some '*' || marker == ['x'] || marker == ['+']

/-- A marker at a place. -/
def drawMarker (drawn : Drawn) (options : Options) (place : Place) : Xml :=
  let marker := drawn.series.style.marker
  let fill := if isFilled marker then drawn.color else options.background
  let attributes : Attributes := ("fill", fill) :: stroke drawn.color "1"
  if "square".toList.isPrefixOf marker then
    rect (place.1 - markerRadius) (place.2 - markerRadius) (markerRadius * 2.0)
      (markerRadius * 2.0) attributes
  else circle place.1 place.2 markerRadius attributes

/-- A segment of a curve, when it has two points at least. -/
def drawSegment (frame : Frame) (drawn : Drawn) (segment : List Sample) : List Xml :=
  let join : Attributes := [("stroke-linejoin", "round")]
  if segment.length < 2 then []
  else
    [.leaf "polyline" <|
      ("points", writePlaces (segment.map frame.place)) :: ("fill", "none")
        :: (strokeOf drawn ++ join)]

/-- A curve, with markers when the series has one. -/
def drawCurve (frame : Frame) (drawn : Drawn) (options : Options) (segments : List (List Sample)) :
    List Xml :=
  let marker := Text.trim drawn.series.style.marker
  let markers :=
    if marker.isEmpty ∨ marker = "none" then []
    else segments.flatten.map fun sample => drawMarker drawn options (frame.place sample)
  segments.flatMap (drawSegment frame drawn) ++ markers

/-- The least distance between neighbours that do not coincide; infinite when there are none. -/
def leastGap (places : List Float) : Float :=
  let sorted := places.mergeSort fun a b => orderKey a ≤ orderKey b
  (((adjacent sorted).map fun (a, b) => b - a).filter (0.0 < ·)).foldl Double.minimum
    (1.0 / 0.0)

/-- The bars of one series, which share the room at each point with those of `count` series. -/
def drawBars (frame : Frame) (drawn : Drawn) (index count : Nat) (points : List Sample) :
    List Xml :=
  let gap := leastGap (points.map fun sample => frame.atX sample.1)
  let group := if gap.isFinite then gap * 0.7 else frame.region.width * 0.2
  let width := Double.minimum (group / Float.ofNat (max count 1)) 40.0
  let offset := (Float.ofNat index - (Float.ofNat count - 1.0) / 2.0) * width
  let base := frame.atY frame.zeroLine
  points.map fun (x, y) =>
    let top := frame.atY y
    rect (frame.atX x + offset - width / 2.0) (Double.minimum top base) width (base - top).abs
      (("fill", drawn.color) :: ("fill-opacity", "0.8") :: strokeOf drawn)

/-- The area between points and the zero line. -/
def drawArea (frame : Frame) (drawn : Drawn) (points : List Sample) : List Xml :=
  match points.head?, points.getLast? with
  | some first, some last =>
    let outline := points ++ [(last.1, frame.zeroLine), (first.1, frame.zeroLine)]
    [.leaf "polygon" <|
      ("points", writePlaces (outline.map frame.place)) :: ("fill", drawn.color)
        :: ("fill-opacity", "0.3") :: strokeOf drawn]
  | _, _ => []

/-- The traces of all series; `barIndex` counts the series of bars drawn before. -/
def drawTraces (frame : Frame) (options : Options) (barCount : Nat) :
    (barIndex : Nat) → List Drawn → List Xml
  | _, [] => []
  | barIndex, drawn :: rest =>
    match drawn.trace with
    | .curve segments =>
      drawCurve frame drawn options segments ++ drawTraces frame options barCount barIndex rest
    | .scatter points =>
      points.map (fun sample => drawMarker drawn options (frame.place sample))
        ++ drawTraces frame options barCount barIndex rest
    | .bars points =>
      drawBars frame drawn barIndex barCount points
        ++ drawTraces frame options barCount (barIndex + 1) rest
    | .area points =>
      drawArea frame drawn points ++ drawTraces frame options barCount barIndex rest

/-! ## Plane charts -/

/-- The lines of the grid. -/
def drawGrid (frame : Frame) (xTicks yTicks : List Float) : List Xml :=
  let region := frame.region
  let attributes := stroke "#e0e0e0" "1"
  xTicks.map (fun x => line (frame.atX x) region.top (frame.atX x) region.bottom attributes)
    ++ yTicks.map fun y => line region.left (frame.atY y) region.right (frame.atY y) attributes

/-- The ticks of both axes with their numbers. -/
def drawTicks (frame : Frame) (size : Float) (xTicks yTicks : List Float) : List Xml :=
  let region := frame.region
  let horizontal := xTicks.flatMap fun x =>
    [line (frame.atX x) region.bottom (frame.atX x) (region.bottom - 4.0) blackStroke,
      label (frame.atX x) (region.bottom + size + 4.0) size [("text-anchor", "middle")] (brief x)]
  let vertical := yTicks.flatMap fun y =>
    [line region.left (frame.atY y) (region.left + 4.0) (frame.atY y) blackStroke,
      label (region.left - 4.0) (frame.atY y + size * 0.35) size [("text-anchor", "end")]
        (brief y)]
  horizontal ++ vertical

/-- Whether an axis asks for a grid. -/
def hasGrid (axis : Axis) : Bool :=
  axis.grid == "major".toList || axis.grid == "both".toList || axis.grid == "minor".toList

/-- The rectangle of a region. -/
def regionRect (region : Region) (attributes : Attributes) : Xml :=
  rect region.left region.top region.width region.height attributes

/-- A plane chart in its region. -/
def drawPlane (chart : Chart) (region : Region) (options : Options) : List Xml :=
  let drawn := drawnSeries chart options
  let frame := Frame.ofDrawn chart.axis drawn region
  let xTicks := ticks frame.x.1 frame.x.2 5
  let yTicks := ticks frame.y.1 frame.y.2 5
  let clip : Xml :=
    .element "defs" [] [.element "clipPath" [("id", "plot-area")] [regionRect region []]]
  let barCount := drawn.countP (·.trace.isBars)
  clip :: (if hasGrid chart.axis then drawGrid frame xTicks yTicks else [])
    ++ regionRect region (("fill", "none") :: blackStroke)
    :: drawTicks frame (options.fontSize * 0.8) xTicks yTicks
    ++ [.element "g" [("clip-path", "url(#plot-area)")]
      (drawTraces frame options barCount 0 drawn)]

/-! ## Charts in space -/

/-- One axis from the corner of the box to its end, with the number and the label of the end. -/
def drawAxis (p : Projection) (options : Options) (finish : Spot) (name : Text) (number : Float) :
    List Xml :=
  let size := options.fontSize * 0.8
  let (startX, startY) := p.place ⟨p.x.1, p.y.1, p.z.1⟩
  let (x, y) := p.place finish
  line startX startY x y blackStroke
    :: label x (y + size) size [("text-anchor", "middle")] (brief number)
    :: (if name.isEmpty then []
      else [label (x + 6.0) (y - 4.0) options.fontSize [("text-anchor", "start")]
        (plainLabel name)])

/-- The three axes. -/
def drawAxes (axis : Axis) (p : Projection) (options : Options) : List Xml :=
  drawAxis p options ⟨p.x.2, p.y.1, p.z.1⟩ axis.xlabel p.x.2
    ++ drawAxis p options ⟨p.x.1, p.y.2, p.z.1⟩ axis.ylabel p.y.2
    ++ drawAxis p options ⟨p.x.1, p.y.1, p.z.2⟩ axis.zlabel p.z.2

/-- A quadrilateral. -/
def drawQuad (quad : Quad) : Xml :=
  .leaf "polygon" <|
    ("points", writePlaces quad.corners) :: ("fill", quad.fill.getD "none")
      :: stroke quad.stroke (if quad.fill.isSome then "0.3" else "1")

/-- The grid of a series, if it is a surface. -/
def gridOf? (options : Options) (series : Series) : Option Grid :=
  match series.kind with
  | .surface surface => Grid.ofSurface? surface options
  | _ => none

/-- A chart in space in its region. -/
def drawSpace (chart : Chart) (region : Region) (options : Options) : List Xml :=
  let grids := chart.series.filterMap (gridOf? options)
  let axis := chart.axis
  let x := axisRange axis.xmin axis.xmax (hull (grids.flatMap (·.xs)))
  let y := axisRange axis.ymin axis.ymax (hull (grids.flatMap (·.ys)))
  let z := saneRange (hull (grids.flatMap Grid.heights))
  let p := Projection.ofRanges (.ofOptions options) x y z region
  drawAxes axis p options ++ (quads p grids).map drawQuad

/-! ## Labels -/

/-- The title of a chart. -/
def drawTitle (axis : Axis) (region : Region) (options : Options) : List Xml :=
  if axis.title.isEmpty then []
  else
    [label (region.left + region.width / 2.0) (options.fontSize * 1.5) (options.fontSize * 1.1)
      [("font-weight", "bold"), ("text-anchor", "middle")] (plainLabel axis.title)]

/-- The labels of the axes of a plane chart. -/
def drawAxisLabels (axis : Axis) (viewport : Viewport) (region : Region) (options : Options) :
    List Xml :=
  let size := options.fontSize
  let below := if axis.xlabel.isEmpty then []
    else [label (region.left + region.width / 2.0) (viewport.height - size * 0.6) size
      [("text-anchor", "middle")] (plainLabel axis.xlabel)]
  let x := size * 1.2
  let y := region.top + region.height / 2.0
  let turn : Text := "rotate(-90 " ++ brief x ++ " " ++ brief y ++ ")"
  let beside := if axis.ylabel.isEmpty then []
    else [label x y size [("text-anchor", "middle"), ("transform", turn)]
      (plainLabel axis.ylabel)]
  below ++ beside

/-! ## The legend -/

/-- The sample of a series in the legend, a marker or a piece of its line. -/
def drawSample (series : Series) (color : Text) (x y : Float) : Xml :=
  let lineSample :=
    let width := strokeWidth series
    line (x + 6.0) y (x + 26.0) y
      (stroke color (brief width) ++ dashAttributes series.style.lineStyle width)
  match series.kind with
  | .data data =>
    if data.dataType = .scatter then circle (x + 16.0) y markerRadius [("fill", color)]
    else lineSample
  | _ => lineSample

/-- The legend of the series that have an entry, inside the corner that its position names. -/
def drawLegend (chart : Chart) (region : Region) (options : Options) : List Xml :=
  let entries := chart.series.zipIdx.filter fun (series, _) => !series.style.legend.isEmpty
  if entries.isEmpty then []
  else
    let size := options.fontSize
    let row := size * 1.4
    let longest := (entries.map fun (series, _) =>
      (plainLabel series.style.legend).length).foldl max 0
    let width := Float.ofNat longest * size * 0.6 + 36.0
    let height := Float.ofNat entries.length * row + 8.0
    let position := chart.axis.legendPos
    let x := if "west".toList.isSuffixOf position then region.left + 6.0
      else region.right - width - 6.0
    let y := if "south".toList.isPrefixOf position then region.bottom - height - 6.0
      else region.top + 6.0
    let box := rect x y width height
      (("fill", options.background) :: stroke "#000000" "0.5")
    let rows := entries.zipIdx.flatMap fun ((series, index), number) =>
      let middle := y + 4.0 + row * (Float.ofNat number + 0.5)
      [drawSample series (seriesColor series index options) x middle,
        label (x + 32.0) (middle + size * 0.35) size [] (plainLabel series.style.legend)]
    [.element "g" [("class", "legend")] (box :: rows)]

/-! ## The drawing -/

/-- Whether a series is a surface. -/
def isSurface (series : Series) : Bool :=
  match series.kind with
  | .surface _ => true
  | _ => false

/-- The drawing of a chart. -/
def draw (chart : Chart) (viewport : Viewport) (options : Options) : Xml :=
  let region := Region.ofChart chart.axis viewport options
  let inSpace := chart.series.any isSurface
  let body :=
    if inSpace then drawSpace chart region options else drawPlane chart region options
  let labels :=
    if inSpace then [] else drawAxisLabels chart.axis viewport region options
  svg viewport (some options.background)
    (body ++ drawTitle chart.axis region options ++ labels ++ drawLegend chart region options)

/-- The preview of a chart, as a text. -/
def render (chart : Chart) (viewport : Viewport) (options : Options) : Text :=
  (draw chart viewport options).write

end TexFigure.Chart
