import TexFigure.Chart.Ticks
import TexFigure.Chart.Trace
import TexFigure.Preview.Options
/-!
# The frame of a chart

The region that a chart is drawn in, inside the space for its labels, and the mapping from the
units of the axes to the pixels of the region. Upwards in the chart is downwards in pixels.
-/

namespace TexFigure.Chart

open Preview (Options Viewport)

/-- A region of a drawing, in pixels. -/
structure Region where
  left : Float
  top : Float
  width : Float
  height : Float

namespace Region

/-- The right edge. -/
def right (region : Region) : Float := region.left + region.width

/-- The lower edge. -/
def bottom (region : Region) : Float := region.top + region.height

/-- The region inside the labels of an axis. -/
def ofChart (axis : Axis) (viewport : Viewport) (options : Options) : Region :=
  let size := options.fontSize
  let top := if axis.title.isEmpty then size else size * 2.5
  let bottom := size * (if axis.xlabel.isEmpty then 2.0 else 3.5)
  let left := size * (if axis.ylabel.isEmpty then 3.5 else 5.0)
  let right := size * 1.5
  { left
    top
    width := Double.maximum (viewport.width - left - right) 1.0
    height := Double.maximum (viewport.height - top - bottom) 1.0 }

end Region

/-- A series and its trace, with the colour and width of its stroke. -/
structure Drawn where
  series : Series
  color : Text
  strokeWidth : Float
  trace : Trace

/-- The mapping of a plane chart. -/
structure Frame where
  region : Region
  x : Domain
  y : Domain

namespace Frame

/-- The horizontal place of a number. -/
def atX (frame : Frame) (x : Float) : Float :=
  frame.region.left + (x - frame.x.1) / (frame.x.2 - frame.x.1) * frame.region.width

/-- The vertical place of a number. -/
def atY (frame : Frame) (y : Float) : Float :=
  frame.region.bottom - (y - frame.y.1) / (frame.y.2 - frame.y.1) * frame.region.height

/-- The place of a point. -/
def place (frame : Frame) (sample : Sample) : Float × Float :=
  (frame.atX sample.1, frame.atY sample.2)

/-- The height of the zero line, or of the bound nearest to it. -/
def zeroLine (frame : Frame) : Float := Double.clamp frame.y.1 frame.y.2 0.0

/-- The horizontal numbers of a series: the bounds of its domain and its points. -/
def horizontal (drawn : Drawn) : List Float :=
  let domain := match drawn.series.kind with
    | .curve c => [c.domain.1, c.domain.2]
    | _ => []
  domain ++ drawn.trace.points.map (·.1)

/-- The vertical numbers of a series; bars and areas reach to zero. -/
def vertical (drawn : Drawn) : List Float :=
  drawn.trace.points.map (·.2) ++ (if drawn.trace.standsOnZero then [0.0] else [])

/-- Room for the bars at both ends of a range. -/
def padBars (range : Domain) : Domain :=
  let (low, high) := range
  let pad := Double.maximum ((high - low) * 0.1) 0.5
  if low ≤ high then (low - pad, high + pad) else range

/-- The mapping of a chart, from the settings of its axis and its series. -/
def ofDrawn (axis : Axis) (drawn : List Drawn) (region : Region) : Frame :=
  let x := hull (drawn.flatMap horizontal)
  let y := hull (drawn.flatMap vertical)
  let x := if drawn.any (·.trace.isBars) then padBars x else x
  { region, x := axisRange axis.xmin axis.xmax x, y := axisRange axis.ymin axis.ymax y }

end Frame

end TexFigure.Chart
