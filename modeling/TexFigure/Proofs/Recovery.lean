import TexFigure.Proofs.Stability
/-!
# A chart in canonical form is recovered from its code

A chart in canonical form is its own canonical chart, up to the identities of its series, which
count from zero when they are read: every setting is trimmed, no default stands in for one, and
rows have the form in which they are read. So nothing changes on any of the ways that a setting
takes into the code and back.
-/

namespace TexFigure.Chart

open Source

/-! ## Canonical form -/

/-- A text that is written as it is. -/
structure IsKept (text : Text) : Prop where
  trimmed : Text.IsTrimmed text
  quiet : IsQuiet text

instance (text : Text) : Decidable (IsKept text) :=
  decidable_of_iff (Text.IsTrimmed text ∧ IsQuiet text)
    ⟨fun h => ⟨h.1, h.2⟩, fun h => ⟨h.trimmed, h.quiet⟩⟩

/-- Rows in the form in which they are read. -/
inductive Data.IsCanonical (data : Data) : Prop
  /-- Pairs of cells, without a header. -/
  | coordinates (pairs : List Table.Pair) (hpairs : ∀ pair ∈ pairs, Table.IsPair pair)
    (hrows : data.rows = Text.join ['\n'] (pairs.map Table.Pair.row))
    (hcolumns : data.xColumn = [] ∧ data.yColumn = []) (hheader : data.hasHeader = false)
  /-- A table of which a column is selected. -/
  | table (hcolumns : data.xColumn ≠ [] ∨ data.yColumn ≠ [])
    (hfile : Table.isFileReference data.rows = false)
    (hrows : Table.normalizeRows data.rows = data.rows) (hplain : data.rows.all Table.isPlainData)
  /-- The name of a file. -/
  | file (hfile : Table.isFileReference data.rows = true)
    (hname : Table.tableName? data.rows = none)

/-- A function in the spelling of a user. -/
structure IsFunction (expression : Text) : Prop where
  nonempty : expression ≠ []
  noCall : ¬Expression.HasCall "ln" expression

/-- A kind that is read as it is. -/
def Kind.IsCanonical : Kind → Prop
  | .curve c =>
    IsFunction c.expression ∧ IsExact c.domain ∧ 1 ≤ c.samples ∧ c.samples < Nat.pow 2 32
  | .surface s =>
    IsFunction s.expression ∧ IsExact s.domainX ∧ IsExact s.domainY ∧ 1 ≤ s.samples ∧
      s.samples < Nat.pow 2 32 ∧ ',' ∉ s.colormap ∧ '=' ∉ s.colormap
  | .data d => d.IsCanonical

/-- A chart in canonical form. -/
structure IsCanonical (chart : Chart) : Prop where
  nonempty : chart.series ≠ []
  texts : ∀ text ∈ chart.texts, IsKept text
  legendPos : chart.axis.legendPos ≠ [] ↔ ∃ series ∈ chart.series, series.style.legend ≠ []
  marker : ∀ series ∈ chart.series, series.style.marker ≠ "none"
  kind : ∀ series ∈ chart.series, series.kind.IsCanonical

theorem IsKept.trim_eq {text : Text} (h : IsKept text) : Text.trim text = text :=
  Text.trim_eq_self h.trimmed

theorem IsKept.quiet_trim {text : Text} (h : IsKept text) : IsQuiet (Text.trim text) := by
  rw [h.trim_eq]
  exact h.quiet

/-- A text that is kept is trimmed, so that a blank one is empty. -/
theorem IsKept.isBlankText_iff {text : Text} (h : IsKept text) :
    Text.isBlankText text = true ↔ text = [] := by
  rw [← Text.trim_eq_nil_iff, h.trim_eq]

/-! ## What a series plots -/

/-- A function in the spelling of a user comes back in it. -/
theorem shownFunction_eq {expression : Text} (h : IsKept expression)
    (hfunction : IsFunction expression) : shownFunction expression = expression := by
  have htext : functionText expression = expression := by
    rw [functionText, h.trim_eq]
    exact if_neg fun hempty => hfunction.nonempty (List.isEmpty_iff.mp hempty)
  rw [shownFunction, htext, Expression.toUser_toCode hfunction.noCall]

section
variable {data : Data}

/-- A selector that is kept is empty or selects something. -/
theorem IsKept.isSelector {selector : Text} (h : IsKept selector) : IsSelector selector := by
  by_cases hempty : selector = []
  · exact Or.inl hempty
  · exact Or.inr (Bool.eq_false_iff.mpr fun hblank => hempty (h.isBlankText_iff.mp hblank))

/-- Rows in canonical form are read back as they are. -/
theorem Data.IsCanonical.recovered (h : data.IsCanonical)
    (htexts : ∀ text ∈ (Kind.data data).texts, IsKept text) :
    data.IsSound ∧ data.canonical = data := by
  simp only [Kind.texts, List.forall_mem_cons] at htexts
  obtain ⟨hrows, hxColumn, hyColumn, -⟩ := htexts
  obtain ⟨dataType, rows, xColumn, yColumn, hasHeader⟩ := data
  have hx := And.intro hxColumn.quiet_trim hxColumn.isSelector
  have hy := And.intro hyColumn.quiet_trim hyColumn.isSelector
  cases h with
  | coordinates pairs hpairs heq hcolumns hheader =>
    simp only at heq hcolumns hheader
    obtain ⟨rfl, rfl⟩ := hcolumns
    subst heq hheader
    have hfile := isFileReference_rows hpairs
    have hcoordinates : Data.isCoordinates ⟨dataType,
        Text.join ['\n'] (pairs.map Table.Pair.row), [], [], false⟩ = true := by
      simp [Data.isCoordinates, hfile]
    have hformat := Table.formatCoordinates_join hpairs
    refine ⟨⟨hx, hy, fun _ => hrows.quiet_trim, fun _ => ⟨pairs, hpairs, hformat, ?_⟩, ?_⟩, ?_⟩
    · rw [hformat]
      exact (Table.isNested_coordinates hpairs hrows.quiet.nested).isBalanced
    · intro _ hnot
      rw [hcoordinates] at hnot
      cases hnot
    · rw [Data.canonical, if_pos hcoordinates]
      simp only [hformat, Table.parseCoordinates_join hpairs]
  | table hcolumns hfile heq hplain =>
    have hcoordinates :
        Data.isCoordinates ⟨dataType, rows, xColumn, yColumn, hasHeader⟩ = false := by
      rcases hcolumns with hne | hne <;> simp [Data.isCoordinates, hne]
    refine ⟨⟨hx, hy, fun _ => hrows.quiet_trim, fun h => ?_, fun _ _ => ⟨hplain, ?_⟩⟩, ?_⟩
    · rw [hcoordinates] at h
      cases h
    · exact hrows.quiet.nested
    · rw [Data.canonical, hcoordinates, if_neg Bool.false_ne_true]
      simp only at hfile heq
      simp only [hfile, heq, hxColumn.trim_eq, hyColumn.trim_eq, Bool.false_eq_true, if_false]
  | file hfile hname =>
    have hcoordinates :
        Data.isCoordinates ⟨dataType, rows, xColumn, yColumn, hasHeader⟩ = false := by
      simp only at hfile
      simp [Data.isCoordinates, hfile]
    refine ⟨⟨hx, hy, fun _ => hrows.quiet_trim, fun h => ?_, fun hnot => ?_⟩, ?_⟩
    · rw [hcoordinates] at h
      cases h
    · rw [hfile] at hnot
      cases hnot
    · rw [Data.canonical, hcoordinates, if_neg Bool.false_ne_true]
      simp only at hfile
      simp only [hfile, hrows.trim_eq, hxColumn.trim_eq, hyColumn.trim_eq, if_true]

end

/-- A kind in canonical form is read back as it is. -/
theorem Kind.IsCanonical.recovered {kind : Kind} (h : kind.IsCanonical)
    (htexts : ∀ text ∈ kind.texts, IsKept text) : kind.IsSound ∧ kind.canonical = kind := by
  cases kind with
  | curve c =>
    simp only [Kind.texts, List.forall_mem_cons] at htexts
    obtain ⟨hfunction, hdomain, hpos, hsamples⟩ := h
    refine ⟨⟨htexts.1.quiet_trim, hdomain, hsamples⟩, ?_⟩
    simp only [Kind.canonical, shownFunction_eq htexts.1 hfunction, Nat.max_eq_left hpos]
  | surface s =>
    simp only [Kind.texts, List.forall_mem_cons] at htexts
    obtain ⟨hexpression, hcolormap, -⟩ := htexts
    obtain ⟨hfunction, hdomainX, hdomainY, hpos, hsamples, hchars⟩ := h
    refine ⟨⟨hexpression.quiet_trim, hdomainX, hdomainY, hsamples, hcolormap.quiet_trim, hchars⟩,
      ?_⟩
    simp only [Kind.canonical, shownFunction_eq hexpression hfunction, Nat.max_eq_left hpos,
      hcolormap.trim_eq]
  | data d =>
    obtain ⟨hsound, heq⟩ := Data.IsCanonical.recovered h htexts
    exact ⟨hsound, by rw [Kind.canonical, heq]⟩

/-! ## Settings -/

/-- Every marker is kept but `none`, which is written as no marker. -/
theorem shownMarker_eq {marker : Text} (h : IsKept marker) (hname : marker ≠ "none") :
    shownMarker marker = marker := by
  rw [shownMarker, h.trim_eq]
  exact if_neg hname

/-- A style of texts that are kept is read back as it is. -/
theorem canonical_style {style : Style} (h : ∀ text ∈ style.values, IsKept text)
    (hmarker : style.marker ≠ "none") : style.canonical = style := by
  simp only [Style.values, List.forall_mem_cons] at h
  obtain ⟨hcolor, hlineWidth, hmark, hlegend, -⟩ := h
  obtain ⟨color, lineWidth, lineStyle, marker, legend⟩ := style
  simp only [Style.canonical, Style.kept, shownMarker_eq hmark hmarker, hcolor.trim_eq,
    hlineWidth.trim_eq, hlegend.trim_eq]

/-- Only an empty position is shown as the usual one. -/
theorem shownPosition_eq {position : Text} (h : IsKept position) (hne : position ≠ []) :
    shownPosition position = position := by
  rw [shownPosition, h.trim_eq]
  exact if_neg fun hempty => hne (List.isEmpty_iff.mp hempty)

/-- An axis of texts that are kept is read back as it is, if it has a legend position just when
there is a legend. -/
theorem canonical_axis {axis : Axis} {hasLegend : Bool} (h : ∀ text ∈ axis.values, IsKept text)
    (hlegend : hasLegend = true ↔ axis.legendPos ≠ []) : axis.canonical hasLegend = axis := by
  simp only [Axis.values, List.forall_mem_cons] at h
  obtain ⟨hxmin, hxmax, hymin, hymax, hgrid, hlegendPos, hwidth, hheight, -⟩ := h
  -- the position is lost without a legend, and made up with one when it is empty
  have hposition : (if hasLegend then shownPosition axis.legendPos else []) = axis.legendPos := by
    split
    next htrue => exact shownPosition_eq hlegendPos (hlegend.mp htrue)
    next hfalse => exact (not_ne_iff.mp fun hne => hfalse (hlegend.mpr hne)).symm
  rw [Axis.canonical, hposition, hxmin.trim_eq, hxmax.trim_eq, hymin.trim_eq, hymax.trim_eq,
    hgrid.trim_eq, hwidth.trim_eq, hheight.trim_eq]

/-! ## The chart -/

section
variable {chart : Chart}

/-- A series of a chart in canonical form is read back as it is. -/
theorem IsCanonical.recovered_series (h : chart.IsCanonical) {series : Series}
    (hseries : series ∈ chart.series) :
    series.IsSound ∧ series.style.canonical = series.style ∧
      series.kind.canonical = series.kind := by
  have htexts : ∀ text ∈ series.texts, IsKept text := fun text htext =>
    h.texts text (List.mem_append_right _ (List.mem_flatMap.mpr ⟨series, hseries, htext⟩))
  obtain ⟨hstyle, hkind⟩ := List.forall_mem_append.mp htexts
  obtain ⟨hsound, heq⟩ := (h.kind series hseries).recovered hkind
  exact ⟨⟨fun text htext => (hstyle text htext).quiet_trim, hsound⟩,
    canonical_style hstyle (h.marker series hseries), heq⟩

/-- A chart in canonical form has a legend position just when it has a legend. -/
theorem IsCanonical.hasLegend_iff (h : chart.IsCanonical) :
    chart.hasLegend = true ↔ chart.axis.legendPos ≠ [] := by
  rw [h.legendPos, hasLegend, List.any_eq_true]
  refine exists_congr fun series => and_congr_right fun hseries => ?_
  have hlegend : IsKept series.style.legend := by
    refine h.texts _ (List.mem_append_right _ (List.mem_flatMap.mpr ⟨series, hseries, ?_⟩))
    simp [Series.texts, Style.values]
  rw [Bool.not_eq_true', Bool.eq_false_iff, ne_eq, ne_eq, hlegend.isBlankText_iff]

/-- A chart in canonical form meets all that is asked of a chart that is read back. -/
theorem IsCanonical.isSound (h : chart.IsCanonical) : chart.IsSound where
  nonempty := h.nonempty
  labels := fun text htext =>
    (h.texts text (List.mem_append_left _ (List.mem_append_left _ htext))).quiet
  values := fun text htext =>
    (h.texts text (List.mem_append_left _ (List.mem_append_right _ htext))).quiet_trim
  series := fun _ hseries => (h.recovered_series hseries).1

/-- The parts of series that are numbered, when each is read back as it is. -/
theorem map_numbered {series : List Series}
    (h : ∀ s ∈ series, s.style.canonical = s.style ∧ s.kind.canonical = s.kind) (count : Nat) :
    (numbered count series).map (·.style) = series.map (·.style) ∧
      (numbered count series).map (·.kind) = series.map (·.kind) ∧
      (numbered count series).map (·.id) =
        (List.range' count series.length).map (min · Identity.last) := by
  induction series generalizing count with
  | nil => exact ⟨rfl, rfl, rfl⟩
  | cons first rest ih =>
    rw [List.forall_mem_cons] at h
    obtain ⟨⟨hstyle, hkind⟩, hrest⟩ := h
    obtain ⟨hstyles, hkinds, hids⟩ := ih hrest (count + 1)
    simp only [numbered_cons, List.map_cons, hstyles, hkinds, hids, Series.canonical, hstyle, hkind,
      List.length_cons, List.range'_succ, and_self]

/-- A chart in canonical form is recovered from its code: its axis, the styles and the kinds of its
series in their order, and identities that count the series as far as 32 bits reach. -/
theorem read_write_of_isCanonical (h : chart.IsCanonical) :
    ∃ reopened, read (write chart) = .ok reopened ∧ reopened.axis = chart.axis ∧
      reopened.series.map (·.style) = chart.series.map (·.style) ∧
      reopened.series.map (·.kind) = chart.series.map (·.kind) ∧
      reopened.series.map (·.id) = (List.range chart.series.length).map (min · Identity.last) ∧
      reopened.nextId = min chart.series.length Identity.last ∧
      (chart.series.length ≤ Identity.last →
        reopened.series.map (·.id) = List.range chart.series.length ∧
          reopened.nextId = chart.series.length) := by
  obtain ⟨hstyles, hkinds, hids⟩ := map_numbered (fun series hseries =>
    (h.recovered_series hseries).2) 0
  rw [← List.range_eq_range'] at hids
  have hread : read (write chart) = .ok chart.canonical := by
    rw [read, readWith, readReport_write h.isSound]
  have haxis : chart.axis.canonical chart.hasLegend = chart.axis :=
    canonical_axis (fun text htext =>
      h.texts text (List.mem_append_left _ (List.mem_append_right _ htext))) h.hasLegend_iff
  -- as far as identities reach, the bound on them does nothing
  refine ⟨chart.canonical, hread, haxis, hstyles, hkinds, hids, rfl, fun hbound => ⟨?_, ?_⟩⟩
  · refine hids.trans ((List.map_congr_left fun id hid => ?_).trans (List.map_id _))
    have := List.mem_range.mp hid
    exact Nat.min_eq_left (by omega)
  · exact Nat.min_eq_left hbound

end

/-- A chart in canonical form with a series of each kind and rows of each form. -/
def recoverable : Chart where
  axis := { title := "Growth, in [mm]", xmin := "0", legendPos := "south east" }
  series := [
    ⟨4, { color := "blue", legend := "sine" }, .curve ⟨"sin(x) + log(2)", (-5.0, 5.0), 100⟩⟩,
    ⟨4, {}, .surface ⟨"x*y", (0.0, 1.0), (-2.5, 2.5), 25, .mesh, "viridis"⟩⟩,
    ⟨0, { marker := "*" }, .data ⟨.bar, "1,2\n3,4", [], [], false⟩⟩,
    ⟨1, {}, .data ⟨.line, "t, v\n0, 1", "t", "v", true⟩⟩,
    ⟨2, {}, .data ⟨.area, "measured.csv", "0", [], false⟩⟩]

theorem read_write_recoverable : recoverable.IsCanonical ∧
    ∃ reopened, read (write recoverable) = .ok reopened ∧ reopened.axis = recoverable.axis ∧
      reopened.series.map (·.id) = [0, 1, 2, 3, 4] ∧ reopened.nextId = 5 := by
  have hfunction {expression : Text} (hne : expression ≠ [])
      (hcontains : Text.contains expression "ln" = false) : IsFunction expression :=
    ⟨hne, fun hcall => by
      rw [Text.contains_iff.mpr (Expression.infix_of_hasCall hcall)] at hcontains
      cases hcontains⟩
  have hcanonical : recoverable.IsCanonical := by
    have hlegend : recoverable.axis.legendPos ≠ [] ↔
        ∃ series ∈ recoverable.series, series.style.legend ≠ [] :=
      ⟨fun _ => ⟨_, List.mem_cons_self, by decide⟩, fun _ => by decide⟩
    have hcurve : (Kind.curve ⟨"sin(x) + log(2)", (-5.0, 5.0), 100⟩).IsCanonical :=
      ⟨hfunction (by decide) (by decide), by decide +kernel, by decide, by decide⟩
    have hsurface :
        (Kind.surface ⟨"x*y", (0.0, 1.0), (-2.5, 2.5), 25, .mesh, "viridis"⟩).IsCanonical :=
      ⟨hfunction (by decide) (by decide), by decide +kernel⟩
    have hcoordinates : (Kind.data ⟨.bar, "1,2\n3,4", [], [], false⟩).IsCanonical :=
      .coordinates [("1", "2"), ("3", "4")] (by decide) rfl ⟨rfl, rfl⟩ rfl
    have htable : (Kind.data ⟨.line, "t, v\n0, 1", "t", "v", true⟩).IsCanonical :=
      .table (Or.inl (by decide)) (by decide +kernel) (by decide +kernel) (by decide)
    have hfile : (Kind.data ⟨.area, "measured.csv", "0", [], false⟩).IsCanonical :=
      .file (by decide +kernel) (by decide +kernel)
    refine ⟨by decide, by decide +kernel, hlegend, by decide +kernel, ?_⟩
    exact List.forall_mem_cons.mpr ⟨hcurve, List.forall_mem_cons.mpr ⟨hsurface,
      List.forall_mem_cons.mpr ⟨hcoordinates, List.forall_mem_cons.mpr ⟨htable,
        List.forall_mem_cons.mpr ⟨hfile, List.forall_mem_nil _⟩⟩⟩⟩⟩
  obtain ⟨reopened, hread, haxis, -, -, -, -, hnumbers⟩ := read_write_of_isCanonical hcanonical
  obtain ⟨hids, hnextId⟩ := hnumbers (by decide)
  exact ⟨hcanonical, reopened, hread, haxis, hids, hnextId⟩

end TexFigure.Chart
