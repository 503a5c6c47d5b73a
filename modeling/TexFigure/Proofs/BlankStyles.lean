import TexFigure.Chart.Write
import TexFigure.Proofs.Drawing
import TexFigure.Proofs.Telling
import TexFigure.Proofs.Trimming
/-!
# Blank style texts

A colour, a line width, a marker or a legend that is blank is meant to be none. The code of a chart
asks each of these texts trimmed, and so do the strokes of a preview and the markers of a curve; but
the colour of a series, the markers of scattered points and the rows of a legend are left out only
when they are empty. A blank colour is one that is not known, and shows black where the series would
have its turn; blank points are hollow; a blank legend has a row.

So a chart whose blank style texts are emptied (`cleared`) keeps its code (`write_cleared`), and its
preview may change. What changes is followed through the drawing, part by part (`Tells`).

> `write_render_cleared`: the code stays the same, and the preview does exactly when it shows none
> of the blank texts (`HidesBlanks`).
-/

namespace TexFigure.Chart

open Preview Markup

/-! ## Clearing -/

/-- A text, emptied when it is blank. -/
def emptied (text : Text) : Text := if Text.isBlankText text then [] else text

/-- A style whose blank texts are emptied. -/
def Style.cleared (style : Style) : Style :=
  { style with
    color := emptied style.color
    lineWidth := emptied style.lineWidth
    marker := emptied style.marker
    legend := emptied style.legend }

/-- A series whose blank style texts are emptied. -/
def Series.cleared (series : Series) : Series := { series with style := series.style.cleared }

/-- A chart whose blank style texts are emptied. -/
def cleared (chart : Chart) : Chart := { chart with series := chart.series.map Series.cleared }

/-- Whether a text is blank but not empty. -/
def IsSpaces (text : Text) : Prop := text ≠ [] ∧ Text.isBlankText text = true

instance (text : Text) : Decidable (IsSpaces text) := inferInstanceAs (Decidable (_ ∧ _))

theorem emptied_eq_nil {text : Text} (h : Text.isBlankText text = true) : emptied text = [] :=
  if_pos h

/-- Only a text of blanks is changed, and an empty one is no such text. -/
theorem emptied_eq_self {text : Text} (h : ¬IsSpaces text) : emptied text = text := by
  unfold emptied
  split
  next hblank =>
    by_contra hne
    exact h ⟨Ne.symm hne, hblank⟩
  next => rfl

theorem isBlankText_emptied (text : Text) :
    Text.isBlankText (emptied text) = Text.isBlankText text := by
  unfold emptied
  split
  next hblank => exact hblank.symm
  next => rfl

/-- An emptied text is empty where the text was blank, so that asking one way or the other no longer
makes a difference. -/
theorem isEmpty_emptied (text : Text) : (emptied text).isEmpty = Text.isBlankText text := by
  unfold emptied
  split
  next hblank => exact hblank.symm
  next hblank =>
    have hne : text ≠ [] := by
      rintro rfl
      exact hblank rfl
    simp [hne, hblank]

/-- Trimming does not tell an emptied text from the text, which is why the code of a chart does not.
-/
theorem trim_emptied (text : Text) : Text.trim (emptied text) = Text.trim text := by
  unfold emptied
  split
  next hblank => exact (Text.trim_eq_nil_iff.mpr hblank).symm
  next => rfl

/-! ## The code -/

/-- A blank value has no option, as an empty one has none. -/
theorem optionFor_emptied (key value : Text) :
    optionFor key (emptied value) = optionFor key value := by
  unfold optionFor
  rw [isBlankText_emptied]
  split
  next => rfl
  next hblank => rw [emptied_eq_self fun h => hblank h.2]

theorem styleOptions_cleared (style : Style) : styleOptions style.cleared = styleOptions style := by
  rw [styleOptions]
  show optionFor "color" (emptied style.color) ++ optionFor "line width" (emptied style.lineWidth)
      ++ (if style.lineStyle = .solid then [] else [style.lineStyle.keyword])
      ++ (if Text.trim (emptied style.marker) = "none" then []
        else optionFor "mark" (emptied style.marker)) = _
  rw [optionFor_emptied, optionFor_emptied, optionFor_emptied, trim_emptied]
  rfl

/-- All that is written of a style is asked trimmed: its options, and the legend behind the plot. -/
theorem writeSeries_cleared (series : Series) :
    writeSeries series.cleared = writeSeries series := by
  have hparts : seriesParts series.cleared = seriesParts series := by
    unfold seriesParts
    simp only [Series.cleared, styleOptions_cleared]
  have hlegend : Text.trim series.cleared.style.legend = Text.trim series.style.legend :=
    trim_emptied series.style.legend
  simp only [writeSeries, hparts, hlegend]

/-- A legend position is written when a series has a legend that is not blank. -/
theorem axisOptions_cleared (chart : Chart) : chart.cleared.axisOptions = chart.axisOptions := by
  have hlegend : chart.cleared.hasLegend = chart.hasLegend := by
    simp only [hasLegend, cleared, List.any_map]
    refine congrArg (List.any chart.series) (funext fun series => ?_)
    exact congrArg (!·) (isBlankText_emptied series.style.legend)
  have haxis : chart.cleared.axis = chart.axis := rfl
  unfold axisOptions
  rw [hlegend, haxis]

/-- The code of a chart shows no blank style text. -/
theorem write_cleared (chart : Chart) : write chart.cleared = write chart := by
  have hseries : chart.cleared.series.flatMap writeSeries = chart.series.flatMap writeSeries := by
    simp only [cleared, List.flatMap_map, writeSeries_cleared]
  unfold write
  rw [axisOptions_cleared, hseries]

/-! ## Traces -/

/-- What is drawn of a series with its blank style texts emptied, in the colour that it has then. -/
def Drawn.cleared (drawn : Drawn) (color : Text) : Drawn :=
  { drawn with series := drawn.series.cleared, color := color }

/-- Whether a trace shows the colour of a series with a marker. -/
def Trace.ShowsColor (marker : Text) : Trace → Prop
  | .curve segments =>
    (∃ segment ∈ segments, 2 ≤ segment.length) ∨
      (Text.trim marker ≠ [] ∧ Text.trim marker ≠ "none") ∧ segments.flatten ≠ []
  | .scatter points | .bars points | .area points => points ≠ []

/-- Whether a trace is one of scattered points, and not empty. -/
def Trace.ShowsPoints : Trace → Prop
  | .scatter points => points ≠ []
  | _ => False

/-- Whether a series is drawn the same in another colour once its blank style texts are emptied. -/
structure Drawn.KeepsLook (drawn : Drawn) (color : Text) (options : Options) : Prop where
  color : drawn.trace.ShowsColor drawn.series.style.marker → drawn.color = color
  marker : IsSpaces drawn.series.style.marker → drawn.trace.ShowsPoints →
    options.background = drawn.color

section
variable {options : Options} {frame : Frame} {drawn : Drawn} {color : Text}

/-- The look of a marker. -/
def markerLook (fill color : Text) : Attributes := ("fill", fill) :: stroke color "1"

/-- A marker is a leaf with a fill and a stroke, and of the same shape when it is emptied. -/
theorem exists_drawMarker (drawn : Drawn) (color : Text) (options : Options) (place : Place) :
    ∃ (name : Text) (before : Attributes),
      drawMarker drawn options place = .leaf name (before ++ markerLook
        (if isFilled drawn.series.style.marker then drawn.color else options.background)
        drawn.color) ∧
      drawMarker (drawn.cleared color) options place = .leaf name (before ++ markerLook
        (if isFilled (emptied drawn.series.style.marker) then color else options.background)
        color) := by
  have hshape : "square".toList.isPrefixOf (emptied drawn.series.style.marker) =
      "square".toList.isPrefixOf drawn.series.style.marker := by
    by_cases hspaces : IsSpaces drawn.series.style.marker
    · have hsquare : ¬"square".toList <+: drawn.series.style.marker := fun hprefix =>
        absurd hspaces.2 (Bool.eq_false_iff.mp (Text.isBlankText_of_infix hprefix.isInfix rfl))
      rw [emptied_eq_nil hspaces.2,
        Bool.eq_false_iff.mpr (mt List.isPrefixOf_iff_prefix.mp hsquare)]
      rfl
    · rw [emptied_eq_self hspaces]
  have hshape' : "square".toList.isPrefixOf (drawn.cleared color).series.style.marker =
      "square".toList.isPrefixOf drawn.series.style.marker := hshape
  unfold drawMarker
  simp only [hshape']
  split
  next => exact ⟨"rect", [_, _, _, _], rfl, rfl⟩
  next => exact ⟨"circle", [_, _, _], rfl, rfl⟩

/-- A blank marker is hollow, unlike an empty one. -/
theorem not_isFilled_of_spaces {marker : Text} (h : IsSpaces marker) : isFilled marker = false := by
  obtain ⟨hne, hblank⟩ := h
  have hmem {c : Char} (hc : isBlank c = false) : c ∉ marker := fun hin =>
    absurd (List.all_eq_true.mp hblank c hin) (Bool.eq_false_iff.mp hc)
  have hlast : marker.getLast? ≠ some '*' := fun heq =>
    hmem rfl (List.mem_of_getLast? heq)
  have hcross : marker ≠ ['x'] ∧ marker ≠ ['+'] := by
    constructor <;> rintro rfl
    · exact hmem (c := 'x') rfl List.mem_cons_self
    · exact hmem (c := '+') rfl List.mem_cons_self
  simp [isFilled, hne, hlast, hcross]

/-- A marker tells the colour of its series, and a blank one that of the background as well. -/
theorem tells_drawMarker (place : Place) :
    Tells (drawn.color = color ∧
        (IsSpaces drawn.series.style.marker → options.background = drawn.color))
      [drawMarker drawn options place] [drawMarker (drawn.cleared color) options place] := by
  obtain ⟨name, before, hdrawn, hcleared⟩ := exists_drawMarker drawn color options place
  rw [hdrawn, hcleared]
  refine (Tells.leaf₂ name "fill" "stroke" before [("stroke-width", "1")]).congr ?_
  by_cases hspaces : IsSpaces drawn.series.style.marker
  · have hhollow := not_isFilled_of_spaces hspaces
    have hfilled : isFilled (emptied drawn.series.style.marker) = true := by
      rw [emptied_eq_nil hspaces.2]
      rfl
    simp only [hhollow, hfilled, if_true, Bool.false_eq_true, if_false, hspaces, true_imp_iff]
    constructor
    · rintro ⟨hfill, hstroke⟩
      exact ⟨hstroke, hfill.trans hstroke.symm⟩
    · rintro ⟨hstroke, hfill⟩
      exact ⟨hfill.trans hstroke, hstroke⟩
  · rw [emptied_eq_self hspaces]
    cases isFilled drawn.series.style.marker <;> simp [hspaces]

/-- A line needs two points: a shorter one is not drawn and tells nothing. -/
theorem tells_drawSegment (segment : List Sample) :
    Tells (2 ≤ segment.length → drawn.color = color) (drawSegment frame drawn segment)
      (drawSegment frame (drawn.cleared color) segment) := by
  unfold drawSegment
  by_cases hshort : segment.length < 2
  · simp only [if_pos hshort]
    exact (Tells.refl []).congr
      ⟨fun _ hlong => absurd hlong (Nat.not_le.mpr hshort), fun _ => trivial⟩
  · simp only [if_neg hshort]
    have hleaf := @Tells.leaf drawn.color color "polyline" "stroke"
      [("points", writePlaces (segment.map frame.place)), ("fill", "none")]
      fun _ => ("stroke-width", Decimal.brief drawn.strokeWidth) ::
        (dashAttributes drawn.series.style.lineStyle drawn.strokeWidth ++
          ([("stroke-linejoin", "round")] : Attributes))
    exact hleaf.congr ⟨fun heq _ => heq, fun h => h (Nat.not_lt.mp hshort)⟩

theorem forall_mem_iff {α : Type} {items : List α} {p : Prop} :
    (∀ item ∈ items, p) ↔ (items ≠ [] → p) := by
  constructor
  · intro h hne
    obtain ⟨item, hitem⟩ := List.exists_mem_of_ne_nil items hne
    exact h item hitem
  · intro h item hitem
    exact h (List.ne_nil_of_mem hitem)

/-- Bars and areas show no marker, so that they tell their colour when they have points. -/
theorem keepsLook_iff {points : List Sample}
    (htrace : drawn.trace = .bars points ∨ drawn.trace = .area points) :
    drawn.KeepsLook color options ↔ (points ≠ [] → drawn.color = color) := by
  have hshows : drawn.trace.ShowsColor drawn.series.style.marker ↔ points ≠ [] := by
    rcases htrace with h | h <;> rw [h] <;> rfl
  have hpoints : ¬drawn.trace.ShowsPoints := by
    rcases htrace with h | h <;> rw [h] <;> exact id
  constructor
  · intro h hne
    exact h.color (hshows.mpr hne)
  · intro h
    exact ⟨fun hcolor => h (hshows.mp hcolor), fun _ hmarker => absurd hmarker hpoints⟩

/-- A curve asks its marker trimmed. A blank marker is no marker before and after, so that only the
colour of the curve can be told. -/
theorem tells_drawCurve {segments : List (List Sample)} (htrace : drawn.trace = .curve segments) :
    Tells (drawn.KeepsLook color options) (drawCurve frame drawn options segments)
      (drawCurve frame (drawn.cleared color) options segments) := by
  have hkeeps : drawn.KeepsLook color options ↔
      ((∃ segment ∈ segments, 2 ≤ segment.length) ∨
        (Text.trim drawn.series.style.marker ≠ [] ∧ Text.trim drawn.series.style.marker ≠ "none") ∧
          segments.flatten ≠ [] → drawn.color = color) := by
    constructor
    · intro h
      have hcolor := h.color
      rwa [htrace] at hcolor
    · intro h
      refine ⟨by rwa [htrace], fun _ hpoints => ?_⟩
      rw [htrace] at hpoints
      exact hpoints.elim
  have hsegments := @Tells.flatMap _ (drawSegment frame drawn)
    (drawSegment frame (drawn.cleared color)) _ segments
    fun segment _ => tells_drawSegment segment
  have hmarker : Text.trim (drawn.cleared color).series.style.marker =
      Text.trim drawn.series.style.marker := trim_emptied _
  unfold drawCurve
  rw [hkeeps]
  simp only [hmarker, List.isEmpty_iff]
  by_cases hnone : Text.trim drawn.series.style.marker = [] ∨
      Text.trim drawn.series.style.marker = "none"
  · rw [if_pos hnone, if_pos hnone]
    refine (hsegments.append (Tells.refl [])).congr ?_
    constructor
    · rintro ⟨h, -⟩ (⟨segment, hmem, hlong⟩ | ⟨hmarked, -⟩)
      · exact h segment hmem hlong
      · exact absurd hnone (not_or.mpr hmarked)
    · intro h
      exact ⟨fun segment hmem hlong => h (Or.inl ⟨segment, hmem, hlong⟩), trivial⟩
  · rw [if_neg hnone, if_neg hnone]
    have hspaces : ¬IsSpaces drawn.series.style.marker := fun h =>
      hnone (Or.inl (Text.trim_eq_nil_iff.mpr h.2))
    have hmarkers := @Tells.map _ (fun sample => drawMarker drawn options (frame.place sample))
      (fun sample => drawMarker (drawn.cleared color) options (frame.place sample)) _
      segments.flatten fun sample _ => tells_drawMarker (frame.place sample)
    refine (hsegments.append hmarkers).congr ?_
    constructor
    · rintro ⟨h, h'⟩ (⟨segment, hmem, hlong⟩ | ⟨-, hne⟩)
      · exact h segment hmem hlong
      · obtain ⟨sample, hsample⟩ := List.exists_mem_of_ne_nil _ hne
        exact (h' sample hsample).1
    · intro h
      refine ⟨fun segment hmem hlong => h (Or.inl ⟨segment, hmem, hlong⟩), fun sample hsample => ?_⟩
      exact ⟨h (Or.inr ⟨not_or.mp hnone, List.ne_nil_of_mem hsample⟩), fun h => absurd h hspaces⟩

/-- Each bar is filled and outlined in the colour of its series. -/
theorem tells_drawBars {points : List Sample} (htrace : drawn.trace = .bars points)
    (index count : Nat) :
    Tells (drawn.KeepsLook color options) (drawBars frame drawn index count points)
      (drawBars frame (drawn.cleared color) index count points) := by
  rw [keepsLook_iff (Or.inl htrace)]
  unfold drawBars
  refine (Tells.map fun sample _ => ?_).congr forall_mem_iff
  exact Tells.leaf "rect" "fill" [_, _, _, _] fun color => ("fill-opacity", "0.8") ::
    (stroke color (Decimal.brief drawn.strokeWidth) ++
      dashAttributes drawn.series.style.lineStyle drawn.strokeWidth)

/-- An area is one polygon in the colour of its series, when it has a point. -/
theorem tells_drawArea {points : List Sample} (htrace : drawn.trace = .area points) :
    Tells (drawn.KeepsLook color options) (drawArea frame drawn points)
      (drawArea frame (drawn.cleared color) points) := by
  rw [keepsLook_iff (Or.inr htrace)]
  cases points with
  | nil => exact (Tells.refl []).congr (by simp)
  | cons first rest =>
    unfold drawArea
    rw [List.head?_cons, List.getLast?_cons]
    have hleaf := @Tells.leaf drawn.color color "polygon" "fill"
      [("points", writePlaces ((first :: rest ++ [((rest.getLast?.getD first).1, frame.zeroLine),
        (first.1, frame.zeroLine)]).map frame.place))]
      fun color => ("fill-opacity", "0.3") ::
        (stroke color (Decimal.brief drawn.strokeWidth) ++
          dashAttributes drawn.series.style.lineStyle drawn.strokeWidth)
    exact hleaf.congr ⟨fun heq _ => heq, fun h => h (List.cons_ne_nil _ _)⟩

/-- Every point of a scatter plot has a marker, whatever its series names: a blank one is hollow. -/
theorem tells_drawScatter {points : List Sample} (htrace : drawn.trace = .scatter points) :
    Tells (drawn.KeepsLook color options)
      (points.map fun sample => drawMarker drawn options (frame.place sample))
      (points.map fun sample => drawMarker (drawn.cleared color) options (frame.place sample)) := by
  have hmarkers := @Tells.map _ (fun sample => drawMarker drawn options (frame.place sample))
    (fun sample => drawMarker (drawn.cleared color) options (frame.place sample)) _ points
    fun sample _ => tells_drawMarker (frame.place sample)
  refine hmarkers.congr (forall_mem_iff.trans ?_)
  have hpoints : drawn.trace.ShowsPoints ↔ points ≠ [] := by rw [htrace]; rfl
  have hcolor : drawn.trace.ShowsColor drawn.series.style.marker ↔ points ≠ [] := by
    rw [htrace]; rfl
  constructor
  · intro h
    exact ⟨fun hshows => (h (hcolor.mp hshows)).1,
      fun hspaces hshows => (h (hpoints.mp hshows)).2 hspaces⟩
  · intro h hne
    exact ⟨h.color (hcolor.mpr hne), fun hspaces => h.marker hspaces (hpoints.mpr hne)⟩

/-- The traces tell whether every series keeps its look, by induction on the series. -/
theorem tells_drawTraces (frame : Frame) (options : Options) (count : Nat)
    (pairs : List (Drawn × Text)) (index : Nat) :
    Tells (∀ pair ∈ pairs, pair.1.KeepsLook pair.2 options)
      (drawTraces frame options count index (pairs.map (·.1)))
      (drawTraces frame options count index (pairs.map fun pair => pair.1.cleared pair.2)) := by
  induction pairs generalizing index with
  | nil => exact (Tells.refl []).congr (by simp)
  | cons first rest ih =>
    have hcleared : (first.1.cleared first.2).trace = first.1.trace := rfl
    refine Tells.congr ?_ (@List.forall_mem_cons _ _ first rest).symm
    rw [List.map_cons, List.map_cons, drawTraces, drawTraces]
    cases htrace : first.1.trace with
    | curve segments =>
      simp only [hcleared, htrace]
      exact (tells_drawCurve htrace).append (ih index)
    | scatter points =>
      simp only [hcleared, htrace]
      exact (tells_drawScatter htrace).append (ih index)
    | bars points =>
      simp only [hcleared, htrace]
      exact (tells_drawBars htrace index count).append (ih (index + 1))
    | area points =>
      simp only [hcleared, htrace]
      exact (tells_drawArea htrace).append (ih index)

end

/-! ## Bodies -/

/-- A blank token has no colour, so that it stands for black. -/
theorem ofToken_blank {token : Text} (h : Text.isBlankText token = true) :
    Color.ofToken .white token = Color.black := by
  have htrim : Text.trim token = [] := Text.trim_eq_nil_iff.mpr h
  rw [Color.ofToken, Color.ofToken?, htrim]
  rfl

/-- The colour of a series stays the same unless it is blank, and then black gives way to the colour
of its turn. -/
theorem seriesColor_cleared_iff (series : Series) (index : Nat) (options : Options) :
    seriesColor series index options = seriesColor series.cleared index options ↔
      (IsSpaces series.style.color →
        Color.black.hex = (Color.ofToken .white (options.cycleColor index)).hex) := by
  have hcolor : series.cleared.style.color = emptied series.style.color := rfl
  rw [seriesColor, seriesColor, hcolor]
  by_cases hspaces : IsSpaces series.style.color
  · rw [emptied_eq_nil hspaces.2]
    simp only [List.isEmpty_iff, hspaces.1, if_false, if_true, ofToken_blank hspaces.2, hspaces,
      true_imp_iff]
  · rw [emptied_eq_self hspaces]
    simp [hspaces]

/-- A blank line width gives the usual stroke, as an empty one does. -/
theorem strokeWidth_cleared (series : Series) :
    strokeWidth series.cleared = strokeWidth series := by
  have hpoints : points? series.cleared.style.lineWidth = points? series.style.lineWidth := by
    show points? (emptied series.style.lineWidth) = _
    rw [points?, points?, trim_emptied]
  rw [strokeWidth, strokeWidth, hpoints]

/-- What is drawn of each series that leaves a trace, and the colour of the series once its blank
style texts are emptied. -/
def drawnPairs (chart : Chart) (options : Options) : List (Drawn × Text) :=
  chart.series.zipIdx.filterMap fun (series, index) =>
    (Trace.ofKind? series.kind).map fun trace =>
      (⟨series, seriesColor series index options, strokeWidth series, trace⟩,
        seriesColor series.cleared index options)

theorem zipIdx_cleared (chart : Chart) :
    chart.cleared.series.zipIdx = chart.series.zipIdx.map fun (series, index) =>
      (series.cleared, index) := by
  rw [cleared, List.zipIdx_map]
  rfl

section
variable {chart : Chart} {options : Options}

/-- What is drawn of a chart and of the cleared chart is one list, seen from both sides. A series
leaves its trace by its kind, and keeps its place in the list, which gives it its turn of the
colours. -/
theorem drawnSeries_eq (chart : Chart) (options : Options) :
    drawnSeries chart options = (drawnPairs chart options).map (·.1) ∧
      drawnSeries chart.cleared options =
        (drawnPairs chart options).map fun pair => pair.1.cleared pair.2 := by
  constructor
  · simp only [drawnSeries, drawnPairs, List.map_filterMap, Option.map_map]
    rfl
  · simp only [drawnSeries, drawnPairs, zipIdx_cleared, List.filterMap_map, List.map_filterMap,
      Option.map_map]
    refine congrArg (List.filterMap · chart.series.zipIdx) (funext fun entry => ?_)
    show (Trace.ofKind? entry.1.kind).map (fun trace => (⟨entry.1.cleared,
      seriesColor entry.1.cleared entry.2 options, strokeWidth entry.1.cleared, trace⟩ : Drawn)) = _
    rw [strokeWidth_cleared]
    rfl

/-- The mapping of a chart depends on what its series draw, not on how they look. -/
theorem ofDrawn_cleared (axis : Axis) (pairs : List (Drawn × Text)) (region : Region) :
    Frame.ofDrawn axis (pairs.map fun pair => pair.1.cleared pair.2) region =
      Frame.ofDrawn axis (pairs.map (·.1)) region := by
  simp only [Frame.ofDrawn, List.flatMap_map, List.any_map]
  rfl

/-- A plane chart tells whether every series that leaves a trace keeps its look. -/
theorem tells_drawPlane (region : Region) :
    Tells (∀ pair ∈ drawnPairs chart options, pair.1.KeepsLook pair.2 options)
      (drawPlane chart region options) (drawPlane chart.cleared region options) := by
  obtain ⟨hdrawn, hcleared⟩ := drawnSeries_eq chart options
  have hframe : Frame.ofDrawn chart.cleared.axis (drawnSeries chart.cleared options) region =
      Frame.ofDrawn chart.axis (drawnSeries chart options) region := by
    rw [hdrawn, hcleared]
    exact ofDrawn_cleared chart.axis _ region
  have hcount : (drawnSeries chart.cleared options).countP (·.trace.isBars) =
      (drawnSeries chart options).countP (·.trace.isBars) := by
    rw [hdrawn, hcleared, List.countP_map, List.countP_map]
    rfl
  have htraces := tells_drawTraces (Frame.ofDrawn chart.axis (drawnSeries chart options) region)
    options ((drawnSeries chart options).countP (·.trace.isBars)) (drawnPairs chart options) 0
  rw [← hdrawn, ← hcleared] at htraces
  unfold drawPlane
  simp only [hframe, hcount]
  exact ((Tells.refl _).append (htraces.element "g" _)).congr (iff_of_eq (true_and _))

/-- A chart in space draws its surfaces, which take no colour, width or marker from the style. -/
theorem drawSpace_cleared (region : Region) :
    drawSpace chart.cleared region options = drawSpace chart region options := by
  have hgrids : chart.cleared.series.filterMap (gridOf? options) =
      chart.series.filterMap (gridOf? options) := by
    rw [cleared, List.filterMap_map]
    rfl
  have haxis : chart.cleared.axis = chart.axis := rfl
  unfold drawSpace
  rw [hgrids, haxis]

end

/-! ## Legends -/

/-- The entries of a legend. -/
def legendEntries (chart : Chart) : List (Series × Nat) :=
  chart.series.zipIdx.filter fun (series, _) => !series.style.legend.isEmpty

section
variable {chart : Chart} {options : Options}

/-- A sample tells the colour of its series. -/
theorem tells_drawSample (series : Series) (color color' : Text) (x y : Float) :
    Tells (color = color') [drawSample series color x y]
      [drawSample series.cleared color' x y] := by
  have hline : Tells (color = color')
      [line (x + 6.0) y (x + 26.0) y (stroke color (Decimal.brief (strokeWidth series)) ++
        dashAttributes series.style.lineStyle (strokeWidth series))]
      [line (x + 6.0) y (x + 26.0) y (stroke color' (Decimal.brief (strokeWidth series)) ++
        dashAttributes series.style.lineStyle (strokeWidth series))] :=
    Tells.leaf "line" "stroke" [_, _, _, _] fun _ =>
      ("stroke-width", Decimal.brief (strokeWidth series)) ::
        dashAttributes series.style.lineStyle (strokeWidth series)
  have hkind : series.cleared.kind = series.kind := rfl
  have hstyle : series.cleared.style.lineStyle = series.style.lineStyle := rfl
  unfold drawSample
  simp only [strokeWidth_cleared, hkind, hstyle]
  cases series.kind with
  | curve | surface => exact hline
  | data data =>
    by_cases hscatter : data.dataType = .scatter
    · simp only [hscatter, if_true]
      exact Tells.leaf "circle" "fill" [_, _, _] fun _ => []
    · simp only [hscatter, if_false]
      exact hline

theorem forall_mem_zipIdx {α : Type} {items : List α} {p : α → Prop} :
    (∀ item ∈ items.zipIdx, p item.1) ↔ ∀ item ∈ items, p item := by
  have hmap := @List.forall_mem_map _ _ Prod.fst items.zipIdx p
  rw [List.zipIdx_map_fst] at hmap
  exact hmap.symm

/-- A sample in a legend is one tag, a line or a circle. -/
theorem length_tags_drawSample (series : Series) (color : Text) (x y : Float) :
    (drawSample series color x y).tags.length = 1 := by
  unfold drawSample
  cases series.kind with
  | curve | surface => rfl
  | data data =>
    dsimp only
    split <;> rfl

theorem length_tagsOfAll_flatMap {α : Type} {draw : α → List Xml} {count : Nat}
    (h : ∀ item, (Xml.tagsOfAll (draw item)).length = count) (items : List α) :
    (Xml.tagsOfAll (items.flatMap draw)).length = count * items.length := by
  induction items with
  | nil => rfl
  | cons first rest ih =>
    rw [List.flatMap_cons, Xml.tagsOfAll_append, List.length_append, h, ih, List.length_cons,
      Nat.mul_succ, Nat.add_comm]

/-- A legend has the tags of its group and its box, and those of its entries. -/
theorem length_tagsOfAll_drawLegend (chart : Chart) (region : Region) (options : Options) :
    (Xml.tagsOfAll (drawLegend chart region options)).length =
      if (legendEntries chart).length = 0 then 0 else 3 + 3 * (legendEntries chart).length := by
  have hentries : (chart.series.zipIdx.filter fun (series, _) => !series.style.legend.isEmpty) =
      legendEntries chart := rfl
  unfold drawLegend
  simp only [hentries]
  cases legendEntries chart with
  | nil => rfl
  | cons first rest =>
    have hbox {x y width height : Float} {attributes : Attributes} :
        (rect x y width height attributes).tags.length = 1 := rfl
    rw [if_neg (show ¬(first :: rest).isEmpty = true by simp),
      if_neg (show ¬(first :: rest).length = 0 by simp), Xml.tagsOfAll, Xml.tagsOfAll, Xml.tags,
      Xml.tagsOfAll]
    rw [List.append_nil, List.length_cons, List.length_append, List.length_append,
      @length_tagsOfAll_flatMap _ _ 3, hbox, List.length_zipIdx, List.length_singleton]
    · omega
    · intro item
      rw [Xml.tagsOfAll, List.length_append, length_tags_drawSample]
      rfl

/-- The entries of the legend of a chart whose blank style texts are emptied are those that are not
blank. -/
theorem legendEntries_cleared (chart : Chart) :
    legendEntries chart.cleared =
      ((legendEntries chart).filter fun entry => !Text.isBlankText entry.1.style.legend).map
        fun entry => (entry.1.cleared, entry.2) := by
  rw [legendEntries, legendEntries, zipIdx_cleared, List.filter_map, List.filter_filter]
  refine congrArg (List.map _) (List.filter_congr fun (series, index) _ => ?_)
  show (!(emptied series.style.legend).isEmpty) =
    (!Text.isBlankText series.style.legend && !series.style.legend.isEmpty)
  rw [isEmpty_emptied]
  cases series.style.legend with
  | nil => rfl
  | cons c rest => exact (Bool.and_true _).symm

/-- The row of a legend entry that is not blank tells the colour of its series. -/
theorem tells_row {series : Series} (h : ¬IsSpaces series.style.legend) (color color' : Text)
    (x y labelX labelY size : Float) :
    Tells (color = color')
      [drawSample series color x y, label labelX labelY size [] (plainLabel series.style.legend)]
      [drawSample series.cleared color' x y,
        label labelX labelY size [] (plainLabel series.cleared.style.legend)] := by
  have hlabel : series.cleared.style.legend = series.style.legend := emptied_eq_self h
  rw [hlabel]
  exact ((tells_drawSample series color color' x y).append (Tells.refl [_])).congr
    (iff_of_eq (and_true _))

/-- A legend without blank entries tells the colours of its series. -/
theorem tells_drawLegend (h : ∀ entry ∈ chart.series.zipIdx, ¬IsSpaces entry.1.style.legend)
    (region : Region) :
    Tells (∀ entry ∈ legendEntries chart,
        seriesColor entry.1 entry.2 options = seriesColor entry.1.cleared entry.2 options)
      (drawLegend chart region options) (drawLegend chart.cleared region options) := by
  have hdef (chart : Chart) :
      (chart.series.zipIdx.filter fun (series, _) => !series.style.legend.isEmpty) =
        legendEntries chart := rfl
  have hentries : legendEntries chart.cleared =
      (legendEntries chart).map fun entry => (entry.1.cleared, entry.2) := by
    rw [legendEntries_cleared, List.filter_eq_self.mpr]
    intro entry hentry
    obtain ⟨hmem, hne⟩ := List.mem_filter.mp hentry
    have hnot : ¬Text.isBlankText entry.1.style.legend = true := fun hblank =>
      h entry hmem ⟨by simpa using hne, hblank⟩
    simpa using hnot
  have hlabel : ∀ entry ∈ legendEntries chart,
      entry.1.cleared.style.legend = entry.1.style.legend := fun entry hentry =>
    emptied_eq_self (h entry (List.mem_filter.mp hentry).1)
  have haxis : chart.cleared.axis = chart.axis := rfl
  unfold drawLegend
  simp only [hdef, hentries, haxis, List.isEmpty_map, List.length_map, List.map_map,
    List.zipIdx_map, List.flatMap_map]
  have hlongest : (legendEntries chart).map
      ((fun entry => (plainLabel entry.1.style.legend).length) ∘
        fun entry => (entry.1.cleared, entry.2)) =
      (legendEntries chart).map fun entry => (plainLabel entry.1.style.legend).length := by
    refine List.map_congr_left fun entry hentry => ?_
    rw [Function.comp_apply, hlabel entry hentry]
  simp only [hlongest]
  by_cases hempty : (legendEntries chart).isEmpty = true
  · rw [if_pos hempty, if_pos hempty, List.isEmpty_iff.mp hempty]
    exact (Tells.refl []).congr (by simp)
  · rw [if_neg hempty, if_neg hempty]
    have hmembers : (∀ item ∈ (legendEntries chart).zipIdx,
        seriesColor item.1.1 item.1.2 options = seriesColor item.1.1.cleared item.1.2 options) ↔
        ∀ entry ∈ legendEntries chart,
          seriesColor entry.1 entry.2 options = seriesColor entry.1.cleared entry.2 options :=
      @forall_mem_zipIdx _ (legendEntries chart) fun entry =>
        seriesColor entry.1 entry.2 options = seriesColor entry.1.cleared entry.2 options
    refine ((Tells.cons (Tells.flatMap fun item hitem => ?_) _).element "g" _).congr hmembers
    have hmem : item.1 ∈ legendEntries chart := List.fst_mem_of_mem_zipIdx hitem
    exact tells_row (h item.1 (List.mem_filter.mp hmem).1) _ _ _ _ _ _ _

end

/-! ## The preview -/

/-- Whether the drawing of a chart shows the colour of a series, in its legend or, on a plane, in
the trace of the series. -/
def ShowsColor (chart : Chart) (series : Series) : Prop :=
  series.style.legend ≠ [] ∨
    chart.series.any isSurface = false ∧
      ∃ trace, Trace.ofKind? series.kind = some trace ∧ trace.ShowsColor series.style.marker

/-- Whether the drawing of a chart shows scattered points of a series. -/
def ShowsPoints (chart : Chart) (series : Series) : Prop :=
  chart.series.any isSurface = false ∧
    ∃ trace, Trace.ofKind? series.kind = some trace ∧ trace.ShowsPoints

/-- Whether a preview shows no blank style text: no legend is blank, a blank colour is not shown or
the series has its turn in black, and the points of a blank marker are not shown or drawn in the
colour of the background. -/
structure HidesBlanks (chart : Chart) (options : Options) : Prop where
  legend : ∀ series ∈ chart.series, ¬IsSpaces series.style.legend
  color : ∀ entry ∈ chart.series.zipIdx, IsSpaces entry.1.style.color →
    chart.ShowsColor entry.1 →
      Color.black.hex = (Color.ofToken .white (options.cycleColor entry.2)).hex
  marker : ∀ entry ∈ chart.series.zipIdx, IsSpaces entry.1.style.marker →
    chart.ShowsPoints entry.1 → options.background = seriesColor entry.1 entry.2 options

/-- What is drawn above the legend. -/
def drawAbove (chart : Chart) (viewport : Viewport) (options : Options) : List Xml :=
  let region := Region.ofChart chart.axis viewport options
  let inSpace := chart.series.any isSurface
  (if inSpace then drawSpace chart region options else drawPlane chart region options)
    ++ drawTitle chart.axis region options
    ++ (if inSpace then [] else drawAxisLabels chart.axis viewport region options)

section
variable {chart : Chart} {viewport : Viewport} {options : Options}

theorem mem_drawnPairs {pair : Drawn × Text} :
    pair ∈ drawnPairs chart options ↔
      ∃ entry ∈ chart.series.zipIdx, ∃ trace, Trace.ofKind? entry.1.kind = some trace ∧
        pair = (⟨entry.1, seriesColor entry.1 entry.2 options, strokeWidth entry.1, trace⟩,
          seriesColor entry.1.cleared entry.2 options) := by
  rw [drawnPairs, List.mem_filterMap]
  refine exists_congr fun entry => and_congr_right fun _ => ?_
  rw [Option.map_eq_some_iff]
  exact exists_congr fun trace => and_congr_right fun _ => eq_comm

/-- What a preview shows of blank style texts is what its legend and its traces tell. -/
theorem hidesBlanks_iff :
    chart.HidesBlanks options ↔
      (∀ entry ∈ chart.series.zipIdx, ¬IsSpaces entry.1.style.legend) ∧
      (chart.series.any isSurface = false →
        ∀ pair ∈ drawnPairs chart options, pair.1.KeepsLook pair.2 options) ∧
      ∀ entry ∈ legendEntries chart,
        seriesColor entry.1 entry.2 options = seriesColor entry.1.cleared entry.2 options := by
  have hlegends := @forall_mem_zipIdx _ chart.series fun series => ¬IsSpaces series.style.legend
  constructor
  · intro h
    refine ⟨hlegends.mpr h.legend, fun hplane pair hpair => ?_, fun entry hentry => ?_⟩
    · obtain ⟨entry, hentry, trace, htrace, rfl⟩ := mem_drawnPairs.mp hpair
      constructor
      · intro hshows
        exact (seriesColor_cleared_iff _ _ _).mpr fun hspaces =>
          h.color entry hentry hspaces (Or.inr ⟨hplane, trace, htrace, hshows⟩)
      · intro hspaces hshows
        exact h.marker entry hentry hspaces ⟨hplane, trace, htrace, hshows⟩
    · obtain ⟨hmem, hne⟩ := List.mem_filter.mp hentry
      exact (seriesColor_cleared_iff _ _ _).mpr fun hspaces =>
        h.color entry hmem hspaces (Or.inl (by simpa using hne))
  · rintro ⟨hlegend, hplane, hentries⟩
    refine ⟨hlegends.mp hlegend, fun entry hentry hspaces hshows => ?_,
      fun entry hentry hspaces hshows => ?_⟩
    · rcases hshows with hne | ⟨hflat, trace, htrace, hshows⟩
      · have hmem : entry ∈ legendEntries chart :=
          List.mem_filter.mpr ⟨hentry, by simpa using hne⟩
        exact (seriesColor_cleared_iff _ _ _).mp (hentries entry hmem) hspaces
      · have hkeeps := hplane hflat _ (mem_drawnPairs.mpr ⟨entry, hentry, trace, htrace, rfl⟩)
        exact (seriesColor_cleared_iff _ _ _).mp (hkeeps.color hshows) hspaces
    · obtain ⟨hflat, trace, htrace, hshows⟩ := hshows
      exact (hplane hflat _ (mem_drawnPairs.mpr ⟨entry, hentry, trace, htrace, rfl⟩)).marker
        hspaces hshows

/-- A chart in space tells nothing of blank style texts above its legend. -/
theorem tells_drawAbove :
    Tells (chart.series.any isSurface = false →
        ∀ pair ∈ drawnPairs chart options, pair.1.KeepsLook pair.2 options)
      (drawAbove chart viewport options) (drawAbove chart.cleared viewport options) := by
  have haxis : chart.cleared.axis = chart.axis := rfl
  have hsurface : chart.cleared.series.any isSurface = chart.series.any isSurface := by
    rw [cleared, List.any_map]
    rfl
  unfold drawAbove
  simp only [haxis, hsurface]
  cases hspace : chart.series.any isSurface with
  | true =>
    simp only [if_true, drawSpace_cleared]
    exact (Tells.refl _).congr (by simp)
  | false =>
    simp only [Bool.false_eq_true, if_false]
    exact (((tells_drawPlane _).append (Tells.refl _)).append (Tells.refl _)).congr (by simp)

/-- What is drawn on the background. -/
def drawContent (chart : Chart) (viewport : Viewport) (options : Options) : List Xml :=
  drawAbove chart viewport options ++
    drawLegend chart (Region.ofChart chart.axis viewport options) options

/-- What is drawn is the background with the content on it. -/
theorem draw_eq (chart : Chart) (viewport : Viewport) (options : Options) :
    draw chart viewport options =
      svg viewport (some options.background) (drawContent chart viewport options) := rfl

/-- Previews that are the same have the same tags on their backgrounds. -/
theorem tagsOfAll_drawContent {chart' : Chart}
    (h : render chart' viewport options = render chart viewport options) :
    Xml.tagsOfAll (drawContent chart' viewport options) =
      Xml.tagsOfAll (drawContent chart viewport options) := by
  have htags (chart : Chart) :
      Markup.tags (render chart viewport options) = (draw chart viewport options).tags := by
    have hwrite := (isNamed_draw chart viewport options).tags_write []
    rw [List.append_nil, show Markup.tags [] = [] from rfl, List.append_nil] at hwrite
    exact hwrite
  have hsvg : (draw chart' viewport options).tags = (draw chart viewport options).tags := by
    rw [← htags, ← htags, h]
  rw [draw_eq, draw_eq, svg, svg, Xml.tags, Xml.tags, Xml.tagsOfAll_append,
    Xml.tagsOfAll_append] at hsvg
  exact List.append_cancel_left (List.append_cancel_right (List.cons.inj hsvg).2)

/-- Each blank legend has a row in one preview and none in the other, so that previews with the same
tags have no blank legend. -/
theorem not_isSpaces_legend
    (h : Xml.tagsOfAll (drawContent chart viewport options) =
      Xml.tagsOfAll (drawContent chart.cleared viewport options)) :
    ∀ entry ∈ chart.series.zipIdx, ¬IsSpaces entry.1.style.legend := by
  have hlength := congrArg List.length h
  rw [drawContent, drawContent, Xml.tagsOfAll_append, Xml.tagsOfAll_append, List.length_append,
    List.length_append, tells_drawAbove.length] at hlength
  have hrows := Nat.add_left_cancel hlength
  rw [length_tagsOfAll_drawLegend, length_tagsOfAll_drawLegend, legendEntries_cleared,
    List.length_map] at hrows
  have hkept : ((legendEntries chart).filter
      fun entry => !Text.isBlankText entry.1.style.legend).length =
        (legendEntries chart).length := by
    split at hrows <;> split at hrows <;> omega
  intro entry hentry hspaces
  have hmem : entry ∈ legendEntries chart :=
    List.mem_filter.mpr ⟨hentry, by simpa using hspaces.1⟩
  have hshown := List.length_filter_eq_length_iff.mp hkept entry hmem
  rw [hspaces.2] at hshown
  cases hshown

/-- Emptying the blank style texts of a chart leaves its code as it is, and its preview exactly when
that shows none of them. -/
theorem write_render_cleared (chart : Chart) (viewport : Viewport) (options : Options) :
    write chart.cleared = write chart ∧
      (render chart.cleared viewport options = render chart viewport options ↔
        chart.HidesBlanks options) := by
  refine ⟨write_cleared chart, ?_⟩
  rw [hidesBlanks_iff]
  have habove := @tells_drawAbove chart viewport options
  constructor
  · intro hrender
    have htags := tagsOfAll_drawContent hrender.symm
    have hlegend := not_isSpaces_legend htags
    exact ⟨hlegend, (habove.append (tells_drawLegend hlegend _)).seen htags⟩
  · rintro ⟨hlegend, htold⟩
    have hcontent : drawContent chart viewport options =
        drawContent chart.cleared viewport options :=
      (habove.append (tells_drawLegend hlegend _)).same htold
    rw [render, render, draw_eq, draw_eq, hcontent]

/-- A blank legend has a row of its own in the preview. -/
theorem render_cleared_blank_legend :
    let chart : Chart := { series := [⟨0, { legend := " " }, .ofCurve "x"⟩], nextId := 1 }
    render chart.cleared .default {} ≠ render chart .default {} := by
  intro chart heq
  have hlegend := not_isSpaces_legend (tagsOfAll_drawContent heq.symm)
  exact hlegend _ List.mem_cons_self (by decide)

end

end TexFigure.Chart
