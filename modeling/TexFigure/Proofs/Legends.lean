import TexFigure.Proofs.Noise
import TexFigure.Proofs.SharedDepth
/-!
# Lists of legends

A list of legends stands behind the series that it labels, and its labels are meant to be
positional: the first is for the first series, and a blank one leaves its series without a label. A
series with a legend of its own keeps that.

The list is read as a list of options is, and there blank entries are dropped. The labels behind a
blank one move up by one series each (`readReport_labelled`).

> `readReport_legendList_iff`: the labels stand where they are meant to exactly when at the place of
> every series without a legend of its own the labels that are not blank have what all of them have.

For the labels alone this says that blank ones come last (`forall_shownLabels_iff`).
-/

namespace TexFigure.Chart

open Source

/-! ## Labels by position -/

/-- A series with a label, if it has no legend of its own. -/
def Series.labelled (series : Series) (label : Option Text) : Series :=
  { series with
    style :=
      { series.style with
        legend := if series.style.legend = [] then label.getD [] else series.style.legend } }

/-- A reading whose series are given labels by their positions. -/
def Reading.labelled (reading : Reading) (labels : List Text) : Reading :=
  { reading with
    chart :=
      { reading.chart with
        series := reading.chart.series.mapIdx fun i series => series.labelled labels[i]? } }

theorem Series.labelled_none (series : Series) : series.labelled none = series := by
  have hlegend : (if series.style.legend = [] then (none : Option Text).getD []
      else series.style.legend) = series.style.legend := by
    split
    next h => exact h.symm
    next => rfl
  rw [Series.labelled, hlegend]

/-- Two labels make the same of a series when it has a legend of its own or they read the same. -/
theorem Series.labelled_eq_iff {series : Series} {first second : Option Text} :
    series.labelled first = series.labelled second ↔
      (series.style.legend = [] → first.getD [] = second.getD []) := by
  constructor
  · intro heq hempty
    have hlegend := congrArg (·.style.legend) heq
    simpa only [Series.labelled, if_pos hempty] using hlegend
  · intro hsame
    by_cases hempty : series.style.legend = []
    · simp only [Series.labelled, if_pos hempty, hsame hempty]
    · simp only [Series.labelled, if_neg hempty]

/-- Labels are given by position. -/
theorem applyLegends_eq_mapIdx (series : List Series) (labels : List Text) :
    applyLegends series labels = series.mapIdx fun i series => series.labelled labels[i]? := by
  induction series generalizing labels with
  | nil => cases labels <;> rfl
  | cons first rest ih =>
    cases labels with
    | nil =>
      refine List.ext_getElem? fun i => ?_
      rw [List.getElem?_mapIdx]
      simp [applyLegends, Series.labelled_none]
    | cons label labels =>
      have hfirst : (if first.style.legend.isEmpty then { first.style with legend := label }
          else first.style) = (first.labelled (some label)).style := by
        unfold Series.labelled
        simp only [List.isEmpty_iff]
        split <;> rfl
      rw [List.mapIdx_cons, applyLegends, ih]
      simp only [hfirst]
      rfl

/-! ## The labels of a list -/

/-- The text of a list of legends. -/
def legendList (entries : List Text) : Text :=
  '\\' :: ("legend\x7b".toList ++ (Text.join "," entries ++ ['}']))

/-- The labels of a list that are not blank. -/
def shownLabels (entries : List Text) : List Text :=
  (entries.map Text.trim).filter (!·.isEmpty)

section
variable {entries : List Text}

theorem isNested_join_commas (h : ∀ entry ∈ entries, IsItem ',' entry) :
    IsNested (Text.join "," entries) := by
  induction entries with
  | nil => rfl
  | cons first rest ih =>
    rw [List.forall_mem_cons] at h
    have hfirst : IsNested first := walk?_nestStep_of_itemStep h.1
    cases rest with
    | nil => rwa [Text.join_singleton]
    | cons next rest =>
      have hcomma : IsNested [','] := isNested_of_plain rfl
      rw [join_commas, ← List.singleton_append]
      exact hfirst.append (hcomma.append (ih h.2))

/-- Entries with commas between them are read back, the blank ones too. -/
theorem splitTopLevel_join_commas (h : ∀ entry ∈ entries, IsItem ',' entry) (hne : entries ≠ []) :
    splitTopLevel ',' (Text.join "," entries) = entries := by
  induction entries with
  | nil => exact absurd rfl hne
  | cons first rest ih =>
    rw [List.forall_mem_cons] at h
    cases rest with
    | nil =>
      rw [Text.join_singleton]
      exact splitTopLevel_whole (walk?_depthStep h.1)
    | cons next rest =>
      rw [join_commas, splitTopLevel_part rfl (walk?_depthStep h.1),
        ih h.2 (List.cons_ne_nil _ _)]

/-- A list of legends is read as its labels that are not blank. -/
theorem splitOptions_join_commas (h : ∀ entry ∈ entries, IsItem ',' entry) :
    splitOptions (Text.join "," entries) = shownLabels entries := by
  cases entries with
  | nil => rfl
  | cons first rest =>
    rw [splitOptions, splitTopLevel_join_commas h (List.cons_ne_nil _ _)]
    rfl

theorem shownLabels_eq_nil_iff :
    shownLabels entries = [] ↔ ∀ entry ∈ entries, Text.isBlankText entry = true := by
  simp [shownLabels, Text.trim_eq_nil_iff]

/-- For the labels alone, each stands at its place exactly when no blank one stands in front of one
that is not. -/
theorem forall_shownLabels_iff :
    (∀ i : Nat, (shownLabels entries)[i]?.getD [] = (entries.map Text.trim)[i]?.getD []) ↔
      entries.Pairwise fun entry later =>
        Text.isBlankText entry = true → Text.isBlankText later = true := by
  induction entries with
  | nil => simp [shownLabels]
  | cons first rest ih =>
    rw [List.pairwise_cons]
    by_cases hblank : Text.isBlankText first = true
    · have hnil : Text.trim first = [] := Text.trim_eq_nil_iff.mpr hblank
      have hshown : shownLabels (first :: rest) = shownLabels rest := by simp [shownLabels, hnil]
      rw [hshown, List.map_cons, hnil]
      constructor
      · intro hplace
        -- no label but a blank one can stand at the place of the first
        have hfirst : (shownLabels rest)[0]?.getD [] = [] := hplace 0
        have hnone : shownLabels rest = [] := by
          cases hlabels : shownLabels rest with
          | nil => rfl
          | cons label labels =>
            have hlabel : label ∈ shownLabels rest := hlabels ▸ List.mem_cons_self
            rw [hlabels] at hfirst
            obtain rfl : label = [] := hfirst
            simp [shownLabels] at hlabel
        have hblanks := shownLabels_eq_nil_iff.mp hnone
        exact ⟨fun entry hentry _ => hblanks entry hentry,
          List.pairwise_of_forall_mem_list fun _ _ entry hentry _ => hblanks entry hentry⟩
      · rintro ⟨hblanks, -⟩ i
        have hrest : ∀ entry ∈ rest, Text.isBlankText entry = true := fun entry hentry =>
          hblanks entry hentry hblank
        have hlabels : rest.map Text.trim = List.replicate rest.length [] :=
          List.eq_replicate_iff.mpr ⟨List.length_map _, by
            simpa [Text.trim_eq_nil_iff] using hrest⟩
        rw [shownLabels_eq_nil_iff.mpr hrest, hlabels, ← List.replicate_succ,
          List.getElem?_replicate]
        split <;> rfl
    · have hne : Text.trim first ≠ [] := mt Text.trim_eq_nil_iff.mp hblank
      have hshown : shownLabels (first :: rest) = Text.trim first :: shownLabels rest := by
        simp [shownLabels, hne]
      rw [hshown, List.map_cons]
      constructor
      · intro hplace
        exact ⟨fun _ _ h => absurd h hblank, ih.mp fun i => hplace (i + 1)⟩
      · rintro ⟨-, hrest⟩ i
        cases i with
        | zero => rfl
        | succ i => exact ih.mpr hrest i

end

/-! ## Reading a list -/

/-- Whether a text behind a body is read by itself. A series without its semicolon, a group that
stays open and a comment without the end of its line would take it in. -/
def IsSetOff (body rest : Text) : Prop :=
  statements (body ++ rest) = statements body ++ statements rest

instance (body rest : Text) : Decidable (IsSetOff body rest) := inferInstanceAs (Decidable (_ = _))

/-- What is read of a body. -/
def bodyReading (tables : Tables) (options body : Text) : Reading :=
  (statements body).foldl (Reading.take tables) (startReading options)

/-- Any text that stands apart is set off from a body of pieces. -/
theorem isSetOff_writeItems {items : List Item} (h : ∀ item ∈ items, item.IsSound) {rest : Text}
    (hrest : IsApart rest) : IsSetOff (writeItems items) rest := by
  rw [IsSetOff, statements_append_writeItems h hrest, statements_items h]

section
variable {registry : Table.Registry} {code options body trailing : Text} {entries : List Text}

theorem statements_legendList (h : ∀ entry ∈ entries, IsItem ',' entry) (trailing : Text) :
    statements (legendList entries ++ trailing) =
      .legends (Text.join "," entries) :: statements trailing := by
  have hnested := isNested_join_commas h
  have htext : legendList entries ++ trailing =
      '\\' :: ("legend\x7b".toList ++ (Text.join "," entries ++ '}' :: trailing)) := by
    simp [legendList]
  have hnone : "addplot".toList.isPrefixOf?
      ("legend\x7b".toList ++ (Text.join "," entries ++ '}' :: trailing)) = none := rfl
  rw [htext, statements_command, readStatement, hnone, Text.isPrefixOf?_append]
  simp only [braceContent_append hnested.isBalanced]
  rfl

/-- The labels that are not blank are given to the series in order. -/
theorem readReport_labelled
    (hcode : axisEnvironment? code = some (options, body ++ (legendList entries ++ trailing)))
    (hbody : IsSetOff body (legendList entries ++ trailing))
    (hentries : ∀ entry ∈ entries, IsItem ',' entry) (htrailing : statements trailing = []) :
    readReport registry code =
      ((bodyReading ⟨Table.collect code, registry⟩ options body).labelled
        (shownLabels entries)).outcome := by
  have hstatements : statements (body ++ (legendList entries ++ trailing)) =
      statements body ++ [.legends (Text.join "," entries)] := by
    rw [hbody, statements_legendList hentries, htrailing]
  have htake (reading : Reading) :
      reading.take ⟨Table.collect code, registry⟩ (.legends (Text.join "," entries)) =
        reading.labelled (shownLabels entries) := by
    rw [Reading.take, splitOptions_join_commas hentries, applyLegends_eq_mapIdx]
    rfl
  rw [readReport, hcode]
  simp only [hstatements, List.foldl_append, List.foldl_cons, List.foldl_nil]
  rw [← startReading, htake]
  rfl

/-- Two lists of labels come to the same when each series without a legend of its own finds the same
in both. -/
theorem outcome_labelled_eq_iff {reading : Reading} {first second : List Text} :
    (reading.labelled first).outcome = (reading.labelled second).outcome ↔
      ∀ (i : Nat) (series : Series), reading.chart.series[i]? = some series →
        series.style.legend = [] → first[i]?.getD [] = second[i]?.getD [] := by
  have hseries : (reading.labelled first).outcome = (reading.labelled second).outcome ↔
      (reading.labelled first).chart.series = (reading.labelled second).chart.series := by
    constructor
    · intro heq
      by_cases hnone : reading.chart.series = []
      · simp only [Reading.labelled, hnone, List.mapIdx_nil]
      · have hread (labels : List Text) : (reading.labelled labels).outcome =
            (.ok (reading.labelled labels).chart, reading.losses) := by
          rw [Reading.outcome, if_neg]
          · rfl
          · simpa [Reading.labelled] using hnone
        rw [hread, hread] at heq
        exact congrArg Chart.series (Except.ok.inj (congrArg Prod.fst heq))
    · intro heq
      rw [show reading.labelled first = reading.labelled second from
        congrArg (fun series => (⟨{ reading.chart with series }, reading.losses⟩ : Reading)) heq]
  rw [hseries, Reading.labelled, Reading.labelled, List.ext_getElem?_iff]
  simp only [List.getElem?_mapIdx]
  refine forall_congr' fun i => ?_
  cases reading.chart.series[i]? with
  | none => simp
  | some series => simp [Series.labelled_eq_iff]

/-- The labels of a list that are not blank are given to the series in order, and a series with a
legend of its own keeps it. The labels stand where the list has them exactly when at the place of
each other series the labels that are not blank have what all of them have. -/
theorem readReport_legendList_iff
    (hcode : axisEnvironment? code = some (options, body ++ (legendList entries ++ trailing)))
    (hbody : IsSetOff body (legendList entries ++ trailing))
    (hentries : ∀ entry ∈ entries, IsItem ',' entry) (htrailing : statements trailing = []) :
    let reading := bodyReading ⟨Table.collect code, registry⟩ options body
    readReport registry code = (reading.labelled (shownLabels entries)).outcome ∧
      (readReport registry code = (reading.labelled (entries.map Text.trim)).outcome ↔
        ∀ (i : Nat) (series : Series), reading.chart.series[i]? = some series →
          series.style.legend = [] →
            (shownLabels entries)[i]?.getD [] = (entries.map Text.trim)[i]?.getD []) := by
  intro reading
  have hread := @readReport_labelled registry _ _ _ _ _ hcode hbody hentries htrailing
  refine ⟨hread, ?_⟩
  rw [hread]
  exact outcome_labelled_eq_iff

/-- A series with a legend of its own between two that take theirs from the list, where the last
label is blank. -/
theorem readReport_legendList_blank_last :
    let items : List Item := [
      .series ⟨0, {}, .ofRows .line "1 2"⟩, .blank '\n',
      .series ⟨0, { legend := "own" }, .ofRows .line "3 4"⟩,
      .comment " two labels for three series",
      .series ⟨0, {}, .ofRows .scatter "5 6"⟩]
    let entries : List Text := ["\x7ba, b\x7d", " c ", "\t"]
    let code := inAxis [] (some "xmin=0") (writeItems items ++ (legendList entries ++ "\n")) []
    let reading := bodyReading ⟨Table.collect code, []⟩ "xmin=0" (writeItems items)
    (∀ item ∈ items, item.IsSound) ∧ (∀ entry ∈ entries, IsItem ',' entry) ∧
      readReport [] code = (reading.labelled (entries.map Text.trim)).outcome := by
  intro items entries code reading
  have hitems : ∀ item ∈ items, item.IsSound := by decide +kernel
  have hentries : ∀ entry ∈ entries, IsItem ',' entry := by decide
  have hcode : axisEnvironment? code =
      some ("xmin=0".toList, writeItems items ++ (legendList entries ++ "\n")) := by decide +kernel
  have hbody : IsSetOff (writeItems items) (legendList entries ++ "\n") := by
    refine isSetOff_writeItems hitems (isApart_of_head (Or.inl rfl) ?_)
    rintro ⟨after, hafter⟩
    simp at hafter
  have htrailing : statements "\n" = [] := by decide +kernel
  have hplace : ∀ i : Nat,
      (shownLabels entries)[i]?.getD [] = (entries.map Text.trim)[i]?.getD [] :=
    forall_shownLabels_iff.mpr (by decide)
  refine ⟨hitems, hentries, ?_⟩
  exact (@readReport_legendList_iff [] _ _ _ _ _ hcode hbody hentries htrailing).2.mpr
    fun i _ _ _ => hplace i

/-- A blank label is dropped, and the label behind it moves to the first of two series. -/
theorem readReport_legendList_blank_first :
    let body : Text := "\\addplot \x7bx\x7d;\\addplot \x7bx^2\x7d;"
    let entries : List Text := ["", "b"]
    let code := inAxis [] none (body ++ legendList entries) []
    let reading := bodyReading ⟨Table.collect code, []⟩ [] body
    axisEnvironment? code = some ([], body ++ legendList entries) ∧
      IsSetOff body (legendList entries) ∧ (∀ entry ∈ entries, IsItem ',' entry) ∧
      reading.chart.series.map (·.style.legend) = [[], []] ∧
      readReport [] code ≠ (reading.labelled (entries.map Text.trim)).outcome := by
  intro body entries code reading
  refine ⟨by decide +kernel, by decide +kernel, by decide, by decide +kernel, fun heq => ?_⟩
  have hlegends := congrArg
    (fun report : Except Missing Chart × List Loss =>
      report.1.toOption.map fun chart => chart.series.map (·.style.legend)) heq
  revert hlegends
  decide +kernel

end

end TexFigure.Chart
