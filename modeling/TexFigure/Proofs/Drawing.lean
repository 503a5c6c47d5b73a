import TexFigure.Chart.Preview
import TexFigure.Picture.Preview
import TexFigure.Proofs.Markup
/-!
# Previews are well formed

Every part of a preview, on every path through the drawing of charts and shapes, has tags and
attributes with proper names; so the whole preview is written as one `svg` element, whatever the
titles, labels, colours, markers and options hold.

The lemmas follow the drawing functions, from the elements of `Preview.Svg` up to `Chart.draw` and
`Picture.draw`. A function that only puts others together is opened where it is used.
-/

namespace TexFigure

open Preview Markup

/-- All of several parts are named. -/
def AllNamed (parts : List Xml) : Prop := ∀ part ∈ parts, IsNamed part

@[simp] theorem allNamed_nil : AllNamed [] := List.forall_mem_nil _

@[simp] theorem allNamed_cons {part : Xml} {parts : List Xml} :
    AllNamed (part :: parts) ↔ IsNamed part ∧ AllNamed parts :=
  List.forall_mem_cons

@[simp] theorem allNamed_append {parts parts' : List Xml} :
    AllNamed (parts ++ parts') ↔ AllNamed parts ∧ AllNamed parts' :=
  List.forall_mem_append

/-- Parts that are drawn one for each item are named when the drawing of any item is. -/
theorem allNamed_map {α : Type} {draw : α → Xml} {items : List α}
    (h : ∀ item, IsNamed (draw item)) : AllNamed (items.map draw) := by
  intro part hpart
  obtain ⟨item, -, rfl⟩ := List.mem_map.mp hpart
  exact h item

/-- Parts that are drawn several for each item are named when those of any item are. -/
theorem allNamed_flatMap {α : Type} {draw : α → List Xml} {items : List α}
    (h : ∀ item, AllNamed (draw item)) : AllNamed (items.flatMap draw) := by
  intro part hpart
  obtain ⟨item, -, hmem⟩ := List.mem_flatMap.mp hpart
  exact h item part hmem

@[simp] theorem hasNames_append {attributes attributes' : Attributes} :
    hasNames (attributes ++ attributes') = (hasNames attributes && hasNames attributes') :=
  List.all_append

@[simp] theorem hasNames_cons {pair : Text × Text} {attributes : Attributes} :
    hasNames (pair :: attributes) = (isName pair.1 && hasNames attributes) :=
  List.all_cons

/-! ## Elements -/

namespace Preview

/-- The elements add attributes of their own in front of those that they are given. Their own have
proper names, so only the others have to be asked for. -/
theorem isNamed_rect {x y width height : Float} {attributes : Attributes}
    (h : hasNames attributes) : IsNamed (rect x y width height attributes) :=
  .leaf rfl h

theorem isNamed_circle {x y radius : Float} {attributes : Attributes}
    (h : hasNames attributes) : IsNamed (circle x y radius attributes) :=
  .leaf rfl h

theorem isNamed_line {x1 y1 x2 y2 : Float} {attributes : Attributes}
    (h : hasNames attributes) : IsNamed (line x1 y1 x2 y2 attributes) :=
  .leaf rfl h

/-- A label holds its text as content and not in an attribute; the text may be any. -/
theorem isNamed_label {x y size : Float} {attributes : Attributes} {content : Text}
    (h : hasNames attributes) : IsNamed (label x y size attributes content) :=
  .element rfl h (by simpa using IsNamed.text content)

@[simp] theorem hasNames_stroke (color width : Text) : hasNames (stroke color width) = true := rfl

/-- A drawing of named parts is named, with or without a background. -/
theorem isNamed_svg {viewport : Viewport} {background : Option Text} {content : List Xml}
    (h : AllNamed content) : IsNamed (svg viewport background content) := by
  refine .element rfl rfl (allNamed_append.mpr ⟨?_, h⟩)
  exact allNamed_map fun _ => .leaf rfl rfl

end Preview

/-! ## Charts -/

namespace Chart

/-- A dashed line has one attribute more than a solid one. -/
theorem hasNames_dashAttributes (style : LineStyle) (width : Float) :
    hasNames (dashAttributes style width) = true := by
  unfold dashAttributes
  cases dashArray? style width with
  | none => rfl
  | some dashes => rfl

/-- Width, colour and dashes of a series may be any texts, as they stand in the values only. -/
theorem hasNames_strokeOf (drawn : Drawn) : hasNames (strokeOf drawn) = true := by
  rw [strokeOf, hasNames_append, hasNames_stroke, hasNames_dashAttributes]
  rfl

/-- A marker is a square or a circle, whatever text names it. -/
theorem isNamed_drawMarker (drawn : Drawn) (options : Options) (place : Place) :
    IsNamed (drawMarker drawn options place) := by
  unfold drawMarker
  dsimp only
  split
  · exact isNamed_rect rfl
  · exact isNamed_circle rfl

/-- A segment is a polyline, or nothing when it has fewer than two points. -/
theorem allNamed_drawSegment (frame : Frame) (drawn : Drawn) (segment : List Sample) :
    AllNamed (drawSegment frame drawn segment) := by
  unfold drawSegment
  split
  · exact allNamed_nil
  · refine allNamed_cons.mpr ⟨.leaf rfl ?_, allNamed_nil⟩
    rw [hasNames_cons, hasNames_cons, hasNames_append, hasNames_strokeOf]
    rfl

/-- A curve is its segments and, with a marker, one mark for each sample. -/
theorem allNamed_drawCurve (frame : Frame) (drawn : Drawn) (options : Options)
    (segments : List (List Sample)) : AllNamed (drawCurve frame drawn options segments) := by
  unfold drawCurve
  refine allNamed_append.mpr ⟨allNamed_flatMap (allNamed_drawSegment frame drawn), ?_⟩
  split
  · exact allNamed_nil
  · exact allNamed_map fun _ => isNamed_drawMarker drawn options _

/-- Bars are rectangles, whose fill and stroke are those of the series. -/
theorem allNamed_drawBars (frame : Frame) (drawn : Drawn) (index count : Nat)
    (points : List Sample) : AllNamed (drawBars frame drawn index count points) := by
  unfold drawBars
  refine allNamed_map ?_
  rintro ⟨x, y⟩
  refine isNamed_rect ?_
  rw [hasNames_cons, hasNames_cons, hasNames_strokeOf]
  rfl

/-- An area is one polygon, or nothing when there are no points. -/
theorem allNamed_drawArea (frame : Frame) (drawn : Drawn) (points : List Sample) :
    AllNamed (drawArea frame drawn points) := by
  unfold drawArea
  split
  · refine allNamed_cons.mpr ⟨.leaf rfl ?_, allNamed_nil⟩
    rw [hasNames_cons, hasNames_cons, hasNames_cons, hasNames_strokeOf]
    rfl
  · exact allNamed_nil

/-- Every kind of trace is named, so the traces of any series are, by induction on the series. -/
theorem allNamed_drawTraces (frame : Frame) (options : Options) (barCount : Nat) :
    ∀ (drawn : List Drawn) (barIndex : Nat),
      AllNamed (drawTraces frame options barCount barIndex drawn) := by
  intro drawn
  induction drawn with
  | nil => intro barIndex; exact allNamed_nil
  | cons drawn rest ih =>
    intro barIndex
    rw [drawTraces]
    cases drawn.trace with
    | curve segments =>
      exact allNamed_append.mpr ⟨allNamed_drawCurve frame drawn options segments, ih barIndex⟩
    | scatter points =>
      exact allNamed_append.mpr
        ⟨allNamed_map fun _ => isNamed_drawMarker drawn options _, ih barIndex⟩
    | bars points =>
      -- bars are counted, so the series behind them start from another index
      exact allNamed_append.mpr
        ⟨allNamed_drawBars frame drawn barIndex barCount points, ih (barIndex + 1)⟩
    | area points =>
      exact allNamed_append.mpr ⟨allNamed_drawArea frame drawn points, ih barIndex⟩

/-- The grid is a line for each tick. -/
theorem allNamed_drawGrid (frame : Frame) (xTicks yTicks : List Float) :
    AllNamed (drawGrid frame xTicks yTicks) :=
  allNamed_append.mpr
    ⟨allNamed_map fun _ => isNamed_line rfl, allNamed_map fun _ => isNamed_line rfl⟩

/-- Each tick is a line with a label, in both directions. -/
theorem allNamed_drawTicks (frame : Frame) (size : Float) (xTicks yTicks : List Float) :
    AllNamed (drawTicks frame size xTicks yTicks) := by
  have htick : ∀ {x1 y1 x2 y2 x y : Float} {anchor content : Text},
      AllNamed [line x1 y1 x2 y2 blackStroke,
        label x y size [("text-anchor", anchor)] content] := by
    intros
    exact allNamed_cons.mpr ⟨isNamed_line rfl, allNamed_cons.mpr ⟨isNamed_label rfl, allNamed_nil⟩⟩
  exact allNamed_append.mpr ⟨allNamed_flatMap fun _ => htick, allNamed_flatMap fun _ => htick⟩

/-- The plane of a chart is named: the definition of its clip, the grid if there is one, the frame
with its ticks, and the traces of all series. -/
theorem allNamed_drawPlane (chart : Chart) (region : Region) (options : Options) :
    AllNamed (drawPlane chart region options) := by
  -- the definition of the plot area stands in front of all that is clipped by it
  have hclip : IsNamed (.element "defs" []
      [.element "clipPath" [("id", "plot-area")] [regionRect region []]]) := by
    refine .element rfl rfl (allNamed_cons.mpr ⟨.element rfl rfl ?_, allNamed_nil⟩)
    exact allNamed_cons.mpr ⟨isNamed_rect rfl, allNamed_nil⟩
  unfold drawPlane
  simp only [allNamed_append, allNamed_cons]
  refine ⟨⟨⟨hclip, ?_⟩, isNamed_rect rfl, allNamed_drawTicks _ _ _ _⟩, ?_, allNamed_nil⟩
  · split
    · exact allNamed_drawGrid _ _ _
    · exact allNamed_nil
  · exact .element rfl rfl (allNamed_drawTraces _ _ _ _ _)

/-- An axis in space is a line with a number, and with a label unless its name is empty. -/
theorem allNamed_drawAxis (p : Projection) (options : Options) (finish : Spot) (name : Text)
    (number : Float) : AllNamed (drawAxis p options finish name number) := by
  unfold drawAxis
  refine allNamed_cons.mpr ⟨isNamed_line rfl, allNamed_cons.mpr ⟨isNamed_label rfl, ?_⟩⟩
  split
  · exact allNamed_nil
  · exact allNamed_cons.mpr ⟨isNamed_label rfl, allNamed_nil⟩

/-- A chart in space is named: its three axes, and the pieces of its surfaces. -/
theorem allNamed_drawSpace (chart : Chart) (region : Region) (options : Options) :
    AllNamed (drawSpace chart region options) := by
  unfold drawSpace drawAxes
  simp only [allNamed_append]
  refine ⟨⟨⟨?_, ?_⟩, ?_⟩, allNamed_map fun quad => .leaf rfl rfl⟩ <;>
    exact allNamed_drawAxis _ _ _ _ _

/-- A title is a label, or nothing when it is blank. -/
theorem allNamed_drawTitle (axis : Axis) (region : Region) (options : Options) :
    AllNamed (drawTitle axis region options) := by
  unfold drawTitle
  split
  · exact allNamed_nil
  · exact allNamed_cons.mpr ⟨isNamed_label rfl, allNamed_nil⟩

/-- Each of the labels along the axes is drawn or left out on its own. -/
theorem allNamed_drawAxisLabels (axis : Axis) (viewport : Viewport) (region : Region)
    (options : Options) : AllNamed (drawAxisLabels axis viewport region options) := by
  unfold drawAxisLabels
  refine allNamed_append.mpr ⟨?_, ?_⟩
  · split
    · exact allNamed_nil
    · exact allNamed_cons.mpr ⟨isNamed_label rfl, allNamed_nil⟩
  · split
    · exact allNamed_nil
    · exact allNamed_cons.mpr ⟨isNamed_label rfl, allNamed_nil⟩

/-- In the legend scattered points are shown by a marker, all other series by a piece of their line.
-/
theorem isNamed_drawSample (series : Series) (color : Text) (x y : Float) :
    IsNamed (drawSample series color x y) := by
  have hline : IsNamed (line (x + 6.0) y (x + 26.0) y
      (stroke color (Decimal.brief (strokeWidth series))
        ++ dashAttributes series.style.lineStyle (strokeWidth series))) :=
    isNamed_line (by rw [hasNames_append, hasNames_stroke, hasNames_dashAttributes]; rfl)
  unfold drawSample
  dsimp only
  -- only scattered points are shown by a marker, all other series by a line
  split
  · split
    · exact isNamed_circle rfl
    · exact hline
  · exact hline

/-- A legend is a box with a sample and a label for each series that has an entry, or nothing. -/
theorem allNamed_drawLegend (chart : Chart) (region : Region) (options : Options) :
    AllNamed (drawLegend chart region options) := by
  unfold drawLegend
  dsimp only
  split
  · exact allNamed_nil
  · refine allNamed_cons.mpr ⟨.element rfl rfl ?_, allNamed_nil⟩
    refine allNamed_cons.mpr ⟨isNamed_rect rfl, allNamed_flatMap fun _ => ?_⟩
    exact allNamed_cons.mpr
      ⟨isNamed_drawSample _ _ _ _, allNamed_cons.mpr ⟨isNamed_label rfl, allNamed_nil⟩⟩

/-- The drawing of a chart is named, on a plane and in space. -/
theorem isNamed_draw (chart : Chart) (viewport : Viewport) (options : Options) :
    IsNamed (draw chart viewport options) := by
  unfold draw
  refine isNamed_svg ?_
  simp only [allNamed_append]
  refine ⟨⟨⟨?_, allNamed_drawTitle _ _ _⟩, ?_⟩, allNamed_drawLegend _ _ _⟩
  · split
    · exact allNamed_drawSpace _ _ _
    · exact allNamed_drawPlane _ _ _
  · split
    · exact allNamed_nil
    · exact allNamed_drawAxisLabels _ _ _ _

end Chart

/-! ## Shapes -/

namespace Picture

/-- An attribute that is left out when there is no number has its name from the drawing. -/
theorem hasNames_numberAttribute (name : Text) (h : isName name) (value : Option Float) :
    hasNames (numberAttribute name value) = true := by
  cases value with
  | none => rfl
  | some value => exact Bool.and_eq_true_iff.mpr ⟨h, rfl⟩

theorem hasNames_turnAttribute (view : View) (shape : Shape) :
    hasNames (turnAttribute view shape) = true := by
  unfold turnAttribute
  cases shape.degrees? with
  | none => rfl
  | some degrees => rfl

/-- The look of a shape, with those of its settings that are there. -/
theorem hasNames_look (view : View) (drawn : Drawn) : hasNames (look view drawn) = true := by
  have hdashes : hasNames ((((drawn.shape.lineStyle.bind
      (dashArray? · (strokeWidth view drawn.shape))).map fun dashes =>
        (("stroke-dasharray".toList, dashes) : Text × Text)).toList)) = true := by
    cases drawn.shape.lineStyle.bind (dashArray? · (strokeWidth view drawn.shape)) with
    | none => rfl
    | some dashes => rfl
  have hshadow :
      hasNames (if drawn.shape.shadow then [("filter", "url(#shadow)")] else []) = true := by
    cases drawn.shape.shadow <;> rfl
  unfold look
  simp only [hasNames_cons, hasNames_append, hasNames_stroke, hasNames_turnAttribute, hdashes,
    hshadow, hasNames_numberAttribute "fill-opacity" rfl,
    hasNames_numberAttribute "stroke-opacity" rfl, hasNames_numberAttribute "opacity" rfl]
  rfl

/-- An outline of any kind takes the attributes over as they are. -/
theorem isNamed_drawOutline (view : View) {attributes : Attributes} (h : hasNames attributes)
    (outline : Outline Float) : IsNamed (drawOutline view attributes outline) := by
  cases outline with
  | circle centre radius => exact isNamed_circle h
  | rectangle corner width height => exact isNamed_rect h
  | polygon vertices => exact .leaf rfl h

theorem allNamed_drawLabel (view : View) (options : Options) (shape : Shape) :
    AllNamed (drawLabel view options shape) :=
  allNamed_map fun _ => isNamed_label rfl

/-- A shape is a group of its outline and its label, or nothing for a polygon without vertices. -/
theorem allNamed_drawShape (view : View) (options : Options) (drawn : Drawn) :
    AllNamed (drawShape view options drawn) := by
  unfold drawShape
  dsimp only
  split
  · exact allNamed_nil
  · refine allNamed_cons.mpr ⟨.element rfl rfl ?_, allNamed_nil⟩
    exact allNamed_cons.mpr
      ⟨isNamed_drawOutline _ (hasNames_look _ _) _, allNamed_drawLabel _ _ _⟩

theorem isNamed_shadowFilter : IsNamed shadowFilter := by
  refine .element rfl rfl (allNamed_cons.mpr ⟨.element rfl rfl ?_, allNamed_nil⟩)
  exact allNamed_cons.mpr ⟨.leaf rfl rfl, allNamed_nil⟩

/-- The drawing of shapes is named, with any of them selected or none. -/
theorem isNamed_draw (shapes : List Shape) (viewport : Viewport) (selected : Option Nat)
    (options : Options) : IsNamed (draw shapes viewport selected options) := by
  unfold draw
  refine isNamed_svg (allNamed_append.mpr ⟨?_, allNamed_flatMap (allNamed_drawShape _ _)⟩)
  split
  · exact allNamed_cons.mpr ⟨isNamed_shadowFilter, allNamed_nil⟩
  · exact allNamed_nil

end Picture

/-- Every preview, of a chart and of shapes, is a single well-formed `svg` element. -/
theorem element_svg_render :
    (∀ (chart : Chart) (viewport : Viewport) (options : Options),
      Element "svg" (chart.render viewport options)) ∧
    ∀ (shapes : List Shape) (viewport : Viewport) (selected : Option Nat) (options : Options),
      Element "svg" (Picture.render shapes viewport selected options) :=
  ⟨fun chart viewport options => (Chart.isNamed_draw chart viewport options).element_write,
    fun shapes viewport selected options =>
      (Picture.isNamed_draw shapes viewport selected options).element_write⟩

end TexFigure
