import TexFigure.Proofs.Reopening
/-!
# The canonical code of a chart is stable

A chart is written as its canonical chart is (`write_canonical`), so reading the code of a chart
and writing what was read gives the same code. Each setting that comes back changed comes back in
the form in which it was written: trimmed, with the legend position that was shown, in the spelling
of a user that is respelled as before, or as the rows of the coordinates.

The texts have to be quiet in the form in which they are written. Coordinates keep two cells of a
row, which can open a group that a dropped cell closes, and trimming can lay bare a backslash that
escaped a blank; in both cases what is read has another code.
-/

namespace TexFigure.Chart

open Source

/-! ## Settings -/

theorem optionValue_trim (value : Text) : optionValue (Text.trim value) = optionValue value := by
  simp only [optionValue, Text.trim_trim]

/-- An option is written of the trimmed value. -/
theorem optionFor_trim (key value : Text) :
    optionFor key (Text.trim value) = optionFor key value := by
  rw [optionFor, optionFor, Text.isBlankText_trim, optionValue_trim]

/-- A position that was shown is shown as it is. -/
theorem shownPosition_shownPosition (position : Text) :
    shownPosition (shownPosition position) = shownPosition position := by
  have hne : (Text.trim (shownPosition position)).isEmpty = false := by
    rw [Text.isEmpty_trim, not_isBlankText_shownPosition]
  rw [shownPosition, hne, trim_shownPosition]
  rfl

theorem legendPosition_shownPosition (position : Text) :
    legendPosition (shownPosition position) = legendPosition position := by
  have heq (position : Text) :
      legendPosition position = setting "legend pos" (optionValue (shownPosition position)) := rfl
  rw [heq, heq, shownPosition_shownPosition]

/-- A blank legend comes back empty, and is no legend either way. -/
theorem hasLegend_canonical (chart : Chart) : chart.canonical.hasLegend = chart.hasLegend := by
  have hany (count : Nat) (series : List Series) :
      (numbered count series).any (fun series => !Text.isBlankText series.style.legend) =
        series.any (fun series => !Text.isBlankText series.style.legend) := by
    induction series generalizing count with
    | nil => rfl
    | cons first rest ih =>
      rw [numbered_cons, List.any_cons, List.any_cons, ih]
      exact congrArg (fun blank => !blank || _) (Text.isBlankText_trim first.style.legend)
  exact hany 0 chart.series

/-- The axis that is read back is written as the axis was. -/
theorem axisOptions_canonical (chart : Chart) :
    chart.canonical.axisOptions = chart.axisOptions := by
  have hposition : (if chart.hasLegend then
        [legendPosition (chart.axis.canonical chart.hasLegend).legendPos] else []) =
      if chart.hasLegend then [legendPosition chart.axis.legendPos] else [] := by
    split
    next h =>
      simp only [Axis.canonical, h, if_true, legendPosition_shownPosition]
    next => rfl
  simp only [axisOptions, hasLegend_canonical]
  rw [show chart.canonical.axis = chart.axis.canonical chart.hasLegend from rfl, hposition]
  simp only [Axis.canonical, optionFor_trim]

section
variable {data : Data}

/-- The rows of pairs name no file. -/
theorem isFileReference_rows {pairs : List Table.Pair} (h : ∀ pair ∈ pairs, Table.IsPair pair) :
    Table.isFileReference (Text.join ['\n'] (pairs.map Table.Pair.row)) = false := by
  rw [Bool.eq_false_iff, ne_eq, Table.isFileReference_iff]
  rintro ⟨word, hwords, hcomma, -, -⟩
  cases pairs with
  | nil => cases hwords
  | cons pair rest =>
    -- every row has a comma, and the only word would have it too
    have hmem : ',' ∈ Text.join ['\n'] ((pair :: rest).map Table.Pair.row) := by
      cases rest <;> simp [Text.join, Table.Pair.row]
    refine hcomma ?_
    have hflat := Text.flatten_words (Text.join ['\n'] ((pair :: rest).map Table.Pair.row))
    rw [hwords, List.flatten_singleton] at hflat
    rw [hflat]
    exact List.mem_filter.mpr ⟨hmem, rfl⟩

theorem isEmpty_trim_selector {selector : Text} (h : IsSelector selector) :
    (Text.trim selector).isEmpty = selector.isEmpty := by
  rcases h with rfl | h
  · rfl
  · cases selector with
    | nil => cases h
    | cons c rest => rw [Text.isEmpty_trim, h, List.isEmpty_cons]

/-- The rows of a table are read back with their words, and stand between the same braces again. -/
theorem tableContent_canonical
    (hplain : Table.isFileReference data.rows = false → data.rows.all Table.isPlainData)
    {rows : Text} (hrows : (if Table.isFileReference data.rows then Text.trim data.rows
      else Table.normalizeRows data.rows) = rows) (xColumn yColumn : Text) :
    Text.words rows = Text.words data.rows ∧
      tableContent ⟨data.dataType, rows, xColumn, yColumn, data.hasHeader⟩ = tableContent data := by
  have hwords : Text.words rows = Text.words data.rows := by
    rw [← hrows]
    split
    next => exact Text.words_trim data.rows
    next hfile => exact Table.words_normalizeRows (hplain (Bool.not_eq_true _ ▸ hfile))
  refine ⟨hwords, ?_⟩
  unfold tableContent
  rw [Table.isFileReference_congr hwords, ← hrows]
  split
  next => rw [Text.trim_trim]
  next hfile =>
    have hunescaped := Table.unescaped_of_isPlainData (hplain (Bool.not_eq_true _ ▸ hfile))
    rw [Table.normalizeRows_normalizeRows hunescaped]

/-- The rows that are read from a text are written as the coordinates of its pairs. -/
theorem writeRows_parseCoordinates {pairs : List Table.Pair}
    (h : ∀ pair ∈ pairs, Table.IsPair pair) {body : Text}
    (hbody : Table.innermost body = pairs.map Table.Pair.row) (dataType : DataType) :
    writeRows ⟨dataType, Table.parseCoordinates body, [], [], false⟩ =
      "coordinates " ++ Text.braced (Text.join [' '] (pairs.map Table.Pair.coordinate)) := by
  rw [Table.parseCoordinates_eq (fun pair hpair => (h pair hpair).isRowPair) hbody, writeRows_eq]
  have hstill : Data.isCoordinates ⟨dataType,
      Text.join ['\n'] (pairs.map Table.Pair.row), [], [], false⟩ = true := by
    simp [Data.isCoordinates, isFileReference_rows h]
  rw [if_pos hstill]
  simp only [Table.formatCoordinates_join h]

end

/-! ## The chart -/

/-- The texts of what a series draws. -/
def Kind.texts : Kind → List Text
  | .curve c => [c.expression]
  | .surface s => [s.expression, s.colormap]
  | .data d => [d.rows, d.xColumn, d.yColumn]

/-- The texts of a series. -/
def Series.texts (series : Series) : List Text := series.style.values ++ series.kind.texts

/-- What is asked of a series besides its texts: bounds that are read back, a number of samples of
32 bits, a colormap that is one option, columns with names, and rows whose characters mean nothing
to coordinates and to comments. -/
def Kind.IsPlain : Kind → Prop
  | .curve c => IsExact c.domain ∧ c.samples < Nat.pow 2 32
  | .surface s =>
    IsExact s.domainX ∧ IsExact s.domainY ∧ s.samples < Nat.pow 2 32 ∧ ',' ∉ s.colormap ∧
      '=' ∉ s.colormap
  | .data d =>
    IsSelector d.xColumn ∧ IsSelector d.yColumn ∧
      (Table.isFileReference d.rows = false → d.rows.all Table.isRowChar)

instance : DecidablePred Kind.IsPlain
  | .curve _ => inferInstanceAs (Decidable (_ ∧ _))
  | .surface _ => inferInstanceAs (Decidable (_ ∧ _))
  | .data _ => inferInstanceAs (Decidable (_ ∧ _))

/-- Whether rows that are written as coordinates leave no group open and close none. -/
def Kind.HasBalancedCoordinates : Kind → Prop
  | .data d => d.isCoordinates = true → IsBalanced (Table.formatCoordinates d.rows d.hasHeader)
  | _ => True

instance : DecidablePred Kind.HasBalancedCoordinates
  | .curve _ => isTrue trivial
  | .surface _ => isTrue trivial
  | .data _ => inferInstanceAs (Decidable (_ → _))

/-- The texts of a chart. -/
def texts (chart : Chart) : List Text :=
  chart.axis.labels ++ chart.axis.values ++ chart.series.flatMap Series.texts

/-- Whether a chart has series, and only such as are plain. -/
def IsPlain (chart : Chart) : Prop :=
  chart.series ≠ [] ∧ ∀ series ∈ chart.series, series.kind.IsPlain

instance (chart : Chart) : Decidable chart.IsPlain := inferInstanceAs (Decidable (_ ∧ _))

/-- A chart whose texts are quiet in the form in which they are written: the labels as they stand,
the others trimmed, and rows as coordinates where they are written as such. -/
structure IsWellFormed (chart : Chart) : Prop where
  plain : chart.IsPlain
  labels : ∀ text ∈ chart.axis.labels, IsQuiet text
  trimmed : ∀ text ∈ chart.axis.values ++ chart.series.flatMap Series.texts,
    IsQuiet (Text.trim text)
  coordinates : ∀ series ∈ chart.series, series.kind.HasBalancedCoordinates

/-- The groups of a text nest when they do without the blanks at its ends. -/
theorem isNested_of_trim {text : Text} (h : IsNested (Text.trim text)) : IsNested text := by
  have hblanks {blanks : Text} (hblanks : blanks.all isBlank) : IsNested blanks := by
    refine isNested_of_plain (List.all_eq_true.mpr fun c hc => ?_)
    have hblank := List.all_eq_true.mp hblanks c hc
    have hne {d : Char} (hd : isBlank d = false) : c ≠ d := by
      rintro rfl
      rw [hblank] at hd
      cases hd
    exact isPlain_iff.mpr ⟨hne rfl, hne rfl, hne rfl, hne rfl, hne rfl⟩
  obtain ⟨before, after, heq, hbefore, hafter⟩ := Text.exists_trim text
  rw [heq]
  exact ((hblanks hbefore).append h).append (hblanks hafter)

/-- A plain series with quiet texts and balanced coordinates is sound. -/
theorem isSound_series {series : Series} (hplain : series.kind.IsPlain)
    (htexts : ∀ text ∈ series.texts, IsQuiet (Text.trim text))
    (hcoordinates : series.kind.HasBalancedCoordinates) : series.IsSound := by
  obtain ⟨id, style, kind⟩ := series
  obtain ⟨hstyle, hkind⟩ := List.forall_mem_append.mp htexts
  refine ⟨hstyle, ?_⟩
  cases kind with
  | curve c =>
    simp only [Kind.texts, List.forall_mem_cons] at hkind
    exact ⟨hkind.1, hplain⟩
  | surface s =>
    simp only [Kind.texts, List.forall_mem_cons] at hkind
    obtain ⟨hexpression, hcolormap, -⟩ := hkind
    obtain ⟨hdomainX, hdomainY, hsamples, hchars⟩ := hplain
    exact ⟨hexpression, hdomainX, hdomainY, hsamples, hcolormap, hchars⟩
  | data d =>
    simp only [Kind.texts, List.forall_mem_cons] at hkind
    obtain ⟨hrows, hxColumn, hyColumn, -⟩ := hkind
    obtain ⟨hselectX, hselectY, hchars⟩ := hplain
    refine ⟨⟨hxColumn, hselectX⟩, ⟨hyColumn, hselectY⟩, fun _ => hrows, fun h => ?_, fun h _ => ?_⟩
    · obtain ⟨pairs, hpairs, heq⟩ :=
        Table.exists_pairs (hchars (Data.not_isFileReference h)) d.hasHeader
      exact ⟨pairs, hpairs, heq, hcoordinates h⟩
    · refine ⟨List.all_eq_true.mpr fun c hc => ?_, isNested_of_trim hrows.nested⟩
      have hrow := List.all_eq_true.mp (hchars h) c hc
      simp only [Table.isRowChar, Bool.and_eq_true] at hrow
      exact hrow.1.1

/-- What is asked of a well-formed chart is what reading back its code needs. -/
theorem IsWellFormed.isSound {chart : Chart} (h : chart.IsWellFormed) : chart.IsSound := by
  obtain ⟨⟨hnonempty, hplain⟩, hlabels, htrimmed, hcoordinates⟩ := h
  obtain ⟨hvalues, htexts⟩ := List.forall_mem_append.mp htrimmed
  refine ⟨hnonempty, hlabels, hvalues, fun series hseries => ?_⟩
  refine isSound_series (hplain series hseries) (fun text htext => htexts text ?_)
    (hcoordinates series hseries)
  exact List.mem_flatMap.mpr ⟨series, hseries, htext⟩

/-- A chart with a series of each kind, whose last series names a table that is defined nowhere. One
of its labels ends in an escaped blank, which is not trimmed. -/
def mixed : Chart where
  axis := { title := "Growth, in [mm]", xlabel := "t\\ ", xmin := " 0 ", legendPos := "south east" }
  series := [
    ⟨3, { color := "blue", legend := "sine" }, .curve ⟨"sin(x) + ln(2)", (-5.0, 5.0), 0⟩⟩,
    ⟨3, { marker := "none" }, .surface ⟨" ", (0.0, 1.0), (-2.5, 2.5), 25, .mesh, "viridis"⟩⟩,
    ⟨1, {}, .ofRows .area "1 2\n\n3;4"⟩,
    ⟨0, {}, .data ⟨.line, "t, v\n0, 1", "t", "v", true⟩⟩,
    ⟨7, { lineStyle := .dotted }, .ofRows .scatter "\\measured"⟩]
  nextId := 8

end TexFigure.Chart
