import TexFigure.Proofs.Identities
import TexFigure.Proofs.Payload
import TexFigure.Proofs.TableDefinitions
/-!
# The code of a chart is read back

Each series that is written is one statement of the axis body, with its options, its payload and
its legend (`statements_flatMap`), and the reader takes these statements one after another under
the identities that count them (`foldl_take`). Nothing before or between them ends the axis or
defines a table, because what is written is silent.

> `readReport_write`: the code of a sound chart is read as its canonical chart, and all that is
> dropped are the names of tables that are defined nowhere.
-/

namespace TexFigure.Chart

open Source

/-! ## One series -/

/-- A payload behind the options, as the series writes it. -/
theorem payload_spec {series : Series} (h : series.IsSound) :
    ∃ text, IsPayload text series.kind.payload ∧
      ((seriesParts series).2.2 = text ∨ (seriesParts series).2.2 = text ++ ' ' :: closing) := by
  obtain ⟨id, style, kind⟩ := series
  obtain ⟨-, hkind⟩ := h
  cases kind with
  | curve curve => exact ⟨_, isPayload_function hkind.1, Or.inl rfl⟩
  | surface surface => exact ⟨_, isPayload_function hkind.1, Or.inl rfl⟩
  | data data =>
    -- the outline of an area is closed behind its rows, outside the payload
    refine ⟨_, isPayload_rows hkind, ?_⟩
    show writeRows data ++ (if _ then _ else _) = _ ∨ writeRows data ++ (if _ then _ else _) = _
    split
    next => exact Or.inr rfl
    next => exact Or.inl (List.append_nil _)

/-- What stands between the options of a series and its semicolon. -/
structure IsBody (text : Text) (payload : Payload) : Prop where
  passed : IsPassed (' ' :: text)
  noBrackets : ∀ after, brackets? (' ' :: (text ++ after)) = none
  silent : IsSilent text
  read : readPayload? (trimPayload (' ' :: text)) = some payload

/-- A payload is what stands there, by itself and with the command that closes an area. -/
theorem IsPayload.isBody {text : Text} {payload : Payload} (htext : IsPayload text payload) :
    IsBody text payload ∧ IsBody (text ++ ' ' :: closing) payload := by
  have hblank : IsPassed [' '] := isPassed_word (by decide) (by decide)
  have hbrackets (after : Text) : brackets? (' ' :: (text ++ after)) = none := by
    obtain ⟨c, rest, rfl⟩ := List.exists_cons_of_ne_nil htext.ne_nil
    obtain ⟨hc, hbracket⟩ := htext.first c rfl
    have hskip : Text.skipBlanks (' ' :: (c :: rest ++ after)) = c :: (rest ++ after) := by
      have hc' : ¬isAsciiBlank c = true := by simp [not_isAsciiBlank hc]
      rw [Text.skipBlanks, List.dropWhile_cons_of_pos rfl]
      exact List.dropWhile_cons_of_neg hc'
    rw [brackets?, leadingBrackets?, hskip]
    split
    next heq => exact absurd (List.cons.inj heq).1 hbracket
    next => rfl
  refine ⟨⟨hblank.append htext.passed, hbrackets, htext.silent, ?_⟩, ?_⟩
  · rw [trimPayload_payload htext]
    exact htext.read
  · -- an area: the command that closes the outline is cut off before the payload is read
    refine ⟨hblank.append (htext.passed.append isPassed_closing), fun after => ?_, ?_, ?_⟩
    · rw [List.append_assoc]
      exact hbrackets _
    · have hclosing : IsSilent ('\\' :: ('c' :: "losedcycle".toList ++ [])) :=
        IsSilent.command ⟨by decide, by decide⟩ (by decide)
          (isSilent_of_unescaped List.not_mem_nil)
      exact htext.silent.append_cons (c := ' ') (by decide) hclosing
    · rw [trimPayload_area htext]
      exact htext.read

/-- What each kind of series plots can stand between its options and its semicolon. -/
theorem isBody_payload {series : Series} (h : series.IsSound) :
    IsBody (seriesParts series).2.2 series.kind.payload := by
  obtain ⟨text, htext, heq | heq⟩ := payload_spec h
  · rw [heq]
    exact htext.isBody.1
  · rw [heq]
    exact htext.isBody.2

/-- The mark behind the command of a series. -/
def Kind.mark (kind : Kind) : Text := if kind.isSurface then "3" else []

/-- The legend of a series on its line, when there is one. -/
def legendLine (legend : Text) : Text :=
  if (Text.trim legend).isEmpty then [] else writeLegend (Text.trim legend)

/-- A series is written part by part: the command, its mark, the options, the payload and the
legend. -/
theorem writeSeries_eq (series : Series) :
    writeSeries series =
      "\\addplot".toList ++ (series.kind.mark ++ (writeOptions (seriesParts series).2.1 ++
        ' ' :: ((seriesParts series).2.2 ++
          ';' :: '\n' :: legendLine series.style.legend))) := by
  have happend (command options payload legend : Text) :
      command ++ options ++ ' ' :: payload ++ ";\n".toList ++ legend =
        command ++ (options ++ ' ' :: (payload ++ ';' :: '\n' :: legend)) := by
    simp only [List.append_assoc, List.cons_append]
    rfl
  obtain ⟨id, style, kind⟩ := series
  cases kind with
  | curve curve => exact happend _ _ _ _
  | surface surface => exact happend _ _ _ _
  | data data => exact happend _ _ _ _

/-- The statement of a series. -/
def Series.statement (series : Series) : Statement :=
  .series series.kind.isSurface (Text.join ", " (seriesParts series).2.1)
    (some series.kind.payload)
    (if (Text.trim series.style.legend).isEmpty then none
      else some (Text.trim series.style.legend))

/-! ## Reading one series -/

section
variable {series : Series}

/-- Options in their brackets are quiet when each is. -/
theorem isQuiet_writeOptions {options : List Text} (h : ∀ option ∈ options, IsQuiet option) :
    IsQuiet (writeOptions options) := by
  unfold writeOptions
  split
  next => exact isQuiet_nil
  next => exact (isQuiet_join h).bracketed

/-- What stands behind the command of a series starts with neither of its marks. -/
theorem head?_writeOptions (options : List Text) (after : Text) :
    (writeOptions options ++ ' ' :: after).head? = some '[' ∨
      (writeOptions options ++ ' ' :: after).head? = some ' ' := by
  unfold writeOptions
  split
  next => exact Or.inr rfl
  next => exact Or.inl rfl

/-- The mark of a surface is read back, and no mark is made out of what stands behind it. -/
theorem afterMarks_mark (kind : Kind) {text : Text}
    (h : text.head? = some '[' ∨ text.head? = some ' ') :
    afterMarks (kind.mark ++ text) = text ∧
      ((kind.mark ++ text).head? == some '3') = kind.isSurface := by
  have hdrop {mark : Char} (hmark : mark ≠ '[' ∧ mark ≠ ' ') : dropMark mark text = text := by
    refine if_neg fun heq => ?_
    rcases h with h | h <;> rw [h] at heq
    · exact hmark.1 (Option.some.inj heq).symm
    · exact hmark.2 (Option.some.inj heq).symm
  unfold Kind.mark afterMarks
  cases kind.isSurface with
  | true => exact ⟨hdrop ⟨by decide, by decide⟩, rfl⟩
  | false =>
    refine ⟨?_, ?_⟩
    · show dropMark '+' (dropMark '3' text) = text
      rw [hdrop ⟨by decide, by decide⟩, hdrop ⟨by decide, by decide⟩]
    · show (text.head? == some '3') = false
      rcases h with h | h <;> rw [h] <;> rfl

/-- A text that goes on with another series, if it goes on at all. -/
def GoesOn (rest : Text) : Prop := rest = [] ∨ "\\addplot".toList <+: rest

/-- The legend of a series is found behind its semicolon. -/
theorem readLegend?_legendLine {legend : Text} (h : IsQuiet (Text.trim legend)) (rest : Text) :
    (Text.trim legend).isEmpty = true ∧ legendLine legend = [] ∨
      (Text.trim legend).isEmpty = false ∧
        readLegend? ('\n' :: (legendLine legend ++ rest)) =
          some (Text.trim legend, '\n' :: rest) := by
  unfold legendLine
  split
  next hempty => exact Or.inl ⟨hempty, rfl⟩
  next hempty =>
    refine Or.inr ⟨Bool.not_eq_true _ ▸ hempty, ?_⟩
    have hskip : Text.skipBlanks ('\n' :: (writeLegend (Text.trim legend) ++ rest)) =
        "\\addlegendentry".toList ++ (Text.braced (Text.trim legend) ++ '\n' :: rest) := by
      show "\\addlegendentry".toList ++ Text.braced (Text.trim legend) ++ ['\n'] ++ rest = _
      simp only [List.append_assoc, List.singleton_append]
    rw [readLegend?, hskip, Text.isPrefixOf?_append]
    exact group?_braced h.nested.isBalanced _

/-- No legend is found where the next series starts. -/
theorem readLegend?_goesOn {rest : Text} (h : GoesOn rest) : readLegend? ('\n' :: rest) = none := by
  rcases h with rfl | ⟨after, rfl⟩
  · rfl
  · have hskip : Text.skipBlanks ('\n' :: ("\\addplot".toList ++ after)) =
        "\\addplot".toList ++ after := rfl
    have hother : "\\addlegendentry".toList.isPrefixOf? ("\\addplot".toList ++ after) = none := by
      refine Text.isPrefixOf?_eq_none fun hprefix => ?_
      obtain ⟨behind, heq⟩ := hprefix
      simp at heq
    rw [readLegend?, hskip, hother]
    rfl

/-- The reader of a series finds its mark and its options, and cuts what follows them at a
semicolon. -/
theorem seriesBody_writeOptions (kind : Kind) {options : List Text}
    (hoptions : ∀ option ∈ options, IsQuiet option) {text : Text}
    (htext : brackets? (' ' :: text) = none) :
    ((kind.mark ++ (writeOptions options ++ ' ' :: text)).head? == some '3') = kind.isSurface ∧
      ((brackets? (afterMarks (kind.mark ++ (writeOptions options ++ ' ' :: text)))).map (·.1)).getD
        [] = Text.join ", " options ∧
      seriesBody (kind.mark ++ (writeOptions options ++ ' ' :: text)) =
        cutAtSemicolon 0 false (' ' :: text) := by
  obtain ⟨hmarks, hsurface⟩ := afterMarks_mark kind (head?_writeOptions options text)
  obtain ⟨hread, hafter⟩ := brackets?_writeOptions (isQuiet_join hoptions).nested htext
  rw [seriesBody, hmarks, hafter]
  exact ⟨hsurface, hread, rfl⟩

/-- A series is read back behind its command, up to the end of its last line. -/
theorem readSeries_parts (h : series.IsSound) {rest : Text}
    (hrest : readLegend? ('\n' :: rest) = none) :
    readSeries (series.kind.mark ++ (writeOptions (seriesParts series).2.1 ++
        ' ' :: ((seriesParts series).2.2 ++
          ';' :: '\n' :: (legendLine series.style.legend ++ rest)))) =
      (series.statement, '\n' :: rest) := by
  have hbody := isBody_payload h
  obtain ⟨hsurface, hoptions, hcutAt⟩ := seriesBody_writeOptions series.kind
    (keeps_seriesOptions h).quiet
    (hbody.noBrackets (';' :: '\n' :: (legendLine series.style.legend ++ rest)))
  have hcut := cutAtSemicolon_append hbody.passed
    ('\n' :: (legendLine series.style.legend ++ rest))
  rw [List.cons_append] at hcut
  rw [readSeries, hcutAt, hsurface, hoptions, hcut]
  simp only [hbody.read]
  have hlegend := h.style series.style.legend (by simp [Style.values])
  unfold Series.statement
  rcases readLegend?_legendLine hlegend rest with ⟨hempty, hline⟩ | ⟨hempty, hread⟩
  · -- without a legend the reader looks at the next series, which must not pass for one
    rw [hline, List.nil_append, hrest, if_pos hempty]
  · rw [hread, if_neg (by rw [hempty]; exact Bool.false_ne_true)]
    simp only [Text.trim_trim]

/-! ## All series -/

/-- A command is read as one statement. -/
theorem statements_command (text : Text) :
    statements ('\\' :: text) =
      (readStatement text).1.toList ++ statements (readStatement text).2 := by
  rw [statements, if_neg (by decide), if_pos rfl]

/-- A line feed is passed over between statements. -/
theorem statements_lineFeed (text : Text) : statements ('\n' :: text) = statements text := by
  rw [statements, if_neg (by decide), if_neg (by decide)]

/-- A series is read back as one statement. -/
theorem statements_writeSeries (h : series.IsSound) {rest : Text}
    (hrest : readLegend? ('\n' :: rest) = none) :
    statements (writeSeries series ++ rest) = series.statement :: statements rest := by
  have htext : writeSeries series ++ rest =
      '\\' :: ("addplot".toList ++ (series.kind.mark ++ (writeOptions (seriesParts series).2.1 ++
        ' ' :: ((seriesParts series).2.2 ++
          ';' :: '\n' :: (legendLine series.style.legend ++ rest))))) := by
    rw [writeSeries_eq]
    simp only [List.append_assoc, List.cons_append]
    rfl
  rw [htext, statements_command, readStatement, Text.isPrefixOf?_append]
  simp only [readSeries_parts h hrest, statements_lineFeed]
  rfl

/-- Behind a series there is another one, or nothing more. -/
theorem goesOn_flatMap (series : List Series) : GoesOn (series.flatMap writeSeries) := by
  cases series with
  | nil => exact Or.inl rfl
  | cons first rest =>
    refine Or.inr ?_
    rw [List.flatMap_cons, writeSeries_eq, List.append_assoc]
    exact List.prefix_append _ _

/-- Series are read back one after another. -/
theorem statements_flatMap {series : List Series} (h : ∀ s ∈ series, s.IsSound) :
    statements (series.flatMap writeSeries) = series.map Series.statement := by
  induction series with
  | nil => rw [List.flatMap_nil, statements, List.map_nil]
  | cons first rest ih =>
    rw [List.forall_mem_cons] at h
    have hrest := readLegend?_goesOn (goesOn_flatMap rest)
    rw [List.flatMap_cons, statements_writeSeries h.1 hrest, ih h.2, List.map_cons]

/-- What is written for a series has neither phrase. -/
theorem silent_writeSeries (h : series.IsSound) {rest : Text} (hrest : IsSilent rest) :
    IsSilent (writeSeries series ++ rest) := by
  have hlegend : IsSilent (legendLine series.style.legend ++ rest) := by
    unfold legendLine
    split
    next => exact hrest
    next =>
      have hquiet := (h.style series.style.legend (by simp [Style.values])).braced
      have hline : IsSilent (Text.braced (Text.trim series.style.legend) ++ '\n' :: rest) :=
        hquiet.silent.append_cons (by decide) hrest
      have hcommand : IsSilent ('\\' :: ('a' :: "ddlegendentry".toList ++
          (Text.braced (Text.trim series.style.legend) ++ '\n' :: rest))) :=
        IsSilent.command ⟨by decide, by decide⟩ (by decide) hline
      have htext : writeLegend (Text.trim series.style.legend) ++ rest =
          '\\' :: ('a' :: "ddlegendentry".toList ++
            (Text.braced (Text.trim series.style.legend) ++ '\n' :: rest)) := by
        show "\\addlegendentry".toList ++ Text.braced (Text.trim series.style.legend) ++ ['\n'] ++
          rest = _
        simp only [List.append_assoc, List.singleton_append]
        rfl
      rwa [htext]
  have hmark : '\\' ∉ 'a' :: ("ddplot".toList ++ series.kind.mark) := by
    unfold Kind.mark
    cases series.kind.isSurface <;> decide
  have hbody : IsSilent (writeOptions (seriesParts series).2.1 ++ ' ' ::
      ((seriesParts series).2.2 ++ ';' :: '\n' :: (legendLine series.style.legend ++ rest))) := by
    refine (isQuiet_writeOptions (keeps_seriesOptions h).quiet).silent.append_cons (by decide) ?_
    exact (isBody_payload h).silent.append_cons (by decide)
      (@IsSilent.behind ['\n'] _ (by decide) hlegend)
  have hcommand := IsSilent.command ⟨by decide, by decide⟩ hmark hbody
  have htext : writeSeries series ++ rest =
      '\\' :: ('a' :: ("ddplot".toList ++ series.kind.mark) ++
        (writeOptions (seriesParts series).2.1 ++ ' ' ::
          ((seriesParts series).2.2 ++
            ';' :: '\n' :: (legendLine series.style.legend ++ rest)))) := by
    rw [writeSeries_eq]
    simp only [List.append_assoc, List.cons_append]
    rfl
  rwa [htext]

theorem silent_flatMap {series : List Series} (h : ∀ s ∈ series, s.IsSound) {rest : Text}
    (hrest : IsSilent rest) : IsSilent (series.flatMap writeSeries ++ rest) := by
  induction series with
  | nil => exact hrest
  | cons first others ih =>
    rw [List.forall_mem_cons] at h
    rw [List.flatMap_cons, List.append_assoc]
    exact silent_writeSeries h.1 (ih h.2)

end

/-! ## Taking the series -/

/-- The style that is read back. -/
def Style.canonical (style : Style) : Style := { style.kept with legend := Text.trim style.legend }

/-- A series as it is read back at a position. -/
def Series.canonical (series : Series) (position : Nat) : Series :=
  ⟨min position Identity.last, series.style.canonical, series.kind.canonical⟩

/-- Series as they are read back behind `count` others. -/
def numbered (count : Nat) (series : List Series) : List Series :=
  (series.zipIdx count).map fun (series, position) => series.canonical position

/-- The names of missing tables that are recorded behind `count` series. -/
def missingTables (count : Nat) (series : List Series) : List Loss :=
  (series.zipIdx count).flatMap fun (series, position) =>
    lossesOf .unresolvedTable (.series (position + 1)) series.kind.tableNames

theorem numbered_cons (count : Nat) (first : Series) (rest : List Series) :
    numbered count (first :: rest) = first.canonical count :: numbered (count + 1) rest := rfl

theorem missingTables_cons (count : Nat) (first : Series) (rest : List Series) :
    missingTables count (first :: rest) =
      lossesOf .unresolvedTable (.series (count + 1)) first.kind.tableNames ++
        missingTables (count + 1) rest := rfl

/-- A chart whose series are numbered in order. -/
structure IsNumbered (chart : Chart) : Prop where
  ids : chart.series.map (·.id) = (List.range chart.series.length).map (min · Identity.last)
  nextId : chart.nextId = min chart.series.length Identity.last

/-- When the identities below a count are in use, the next one is the count, as far as identities
reach. -/
theorem fresh_range (n : Nat) :
    Identity.fresh (min n Identity.last) ((List.range n).map (min · Identity.last)) =
      min n Identity.last := by
  -- no successor of an identity in use passes the count
  refine Identity.fresh_eq_counter fun id hid => ?_
  obtain ⟨position, hposition, rfl⟩ := List.mem_map.mp hid
  rw [List.mem_range] at hposition
  unfold Identity.next
  omega

/-- One more series is numbered behind the others. -/
theorem IsNumbered.push {chart : Chart} (h : IsNumbered chart) (style : Style) (kind : Kind) :
    (chart.push style kind).2 =
        ⟨chart.axis,
          chart.series ++ [⟨min chart.series.length Identity.last, style, kind⟩],
          min (chart.series.length + 1) Identity.last⟩ ∧
      IsNumbered (chart.push style kind).2 := by
  have hfresh : Identity.fresh chart.nextId (chart.series.map (·.id)) =
      min chart.series.length Identity.last := by
    rw [h.ids, h.nextId, fresh_range]
  have hnext : Identity.next (min chart.series.length Identity.last) =
      min (chart.series.length + 1) Identity.last := by
    unfold Identity.next
    omega
  have heq : (chart.push style kind).2 =
      ⟨chart.axis, chart.series ++ [⟨min chart.series.length Identity.last, style, kind⟩],
        min (chart.series.length + 1) Identity.last⟩ := by
    rw [Chart.push, hfresh, hnext]
  refine ⟨heq, ?_⟩
  rw [heq]
  refine ⟨?_, by simp⟩
  simp [h.ids, List.range_succ]

/-- A statement adds the series that it stands for. -/
theorem take_statement {series : Series} (h : series.IsSound) (reading : Reading) :
    reading.take noTables series.statement =
      ⟨(reading.chart.push series.style.canonical series.kind.canonical).2,
        reading.losses ++
          lossesOf .unresolvedTable (.series (reading.chart.series.length + 1))
            series.kind.tableNames⟩ := by
  have hlegend : ((if (Text.trim series.style.legend).isEmpty then none
      else some (Text.trim series.style.legend)).getD []) = Text.trim series.style.legend := by
    split
    next hempty => exact (List.isEmpty_iff.mp hempty).symm
    next => rfl
  have hstyle : series.keptOptions.style = series.style.kept := by
    unfold Series.keptOptions
    split <;> rfl
  unfold Series.statement Reading.take
  simp only [(keeps_seriesOptions h).readOptions_join, kindOf_payload h, hlegend, hstyle]
  rw [show lossesOf .unknownOption (.series (reading.chart.series.length + 1)) [] = [] from rfl,
    List.append_nil]
  rfl

/-- The statements of series add them in order. -/
theorem foldl_take {series : List Series} (h : ∀ s ∈ series, s.IsSound) {reading : Reading}
    (hnumbered : IsNumbered reading.chart) :
    (series.map Series.statement).foldl (Reading.take noTables) reading =
      ⟨⟨reading.chart.axis, reading.chart.series ++ numbered reading.chart.series.length series,
          min (reading.chart.series.length + series.length) Identity.last⟩,
        reading.losses ++ missingTables reading.chart.series.length series⟩ := by
  induction series generalizing reading with
  | nil =>
    obtain ⟨⟨axis, before, nextId⟩, losses⟩ := reading
    simp [numbered, missingTables, ← hnumbered.nextId]
  | cons first rest ih =>
    rw [List.forall_mem_cons] at h
    -- the induction carries the numbering: the next statement counts from the series before it
    obtain ⟨hpush, hnext⟩ := hnumbered.push first.style.canonical first.kind.canonical
    rw [hpush] at hnext
    have hcount : reading.chart.series.length + 1 + rest.length =
        reading.chart.series.length + (first :: rest).length := by
      rw [List.length_cons]
      omega
    rw [List.map_cons, List.foldl_cons, take_statement h.1, hpush, ih h.2 hnext, numbered_cons,
      missingTables_cons]
    simp only [List.length_append, List.length_singleton, List.append_assoc, hcount]
    rfl

/-! ## The axis environment -/

/-- The phrase that starts an axis. -/
def axisStart : Text := "\\begin\x7baxis\x7d"

/-- The options of an axis between their brackets, one to a line. -/
def axisText (options : List Text) : Text :=
  if options.isEmpty then [] else '\n' :: options.flatMap writeAxisOption

/-- What stands between the phrase that starts an axis and the first series. -/
def axisHead (options : List Text) : Text :=
  if options.isEmpty then [] else Text.bracketed (axisText options)

/-- What stands behind the phrase that ends an axis. -/
def afterAxis : Text := "\n\\end\x7btikzpicture\x7d"

/-- What stands in front of the phrase that starts an axis. -/
def beforeAxis : Text := "\\begin\x7btikzpicture\x7d\n"

/-- The brackets of an axis are written with its options only. -/
theorem writeAxis_eq (options : List Text) :
    writeAxis options = axisStart ++ (axisHead options ++ ['\n']) := by
  unfold axisHead axisText
  have hbrackets (lines : Text) :
      "\\begin\x7baxis\x7d[\n".toList ++ lines ++ "]\n".toList =
        axisStart ++ (Text.bracketed ('\n' :: lines) ++ ['\n']) := by
    show axisStart ++ ['[', '\n'] ++ lines ++ [']', '\n'] = _
    simp only [Text.bracketed, List.append_assoc, List.cons_append, List.nil_append]
  cases options with
  | nil => rfl
  | cons option rest => exact hbrackets _

/-- A chart is written around its axis, with the series in order between the options and the end. -/
theorem write_eq (chart : Chart) :
    write chart = beforeAxis ++ axisStart ++ (axisHead chart.axisOptions ++ '\n' ::
      (chart.series.flatMap writeSeries ++ axisEnd ++ afterAxis)) := by
  show beforeAxis ++ writeAxis chart.axisOptions ++ chart.series.flatMap writeSeries ++
    (axisEnd ++ afterAxis) = _
  rw [writeAxis_eq]
  simp only [List.append_assoc, List.cons_append, List.nil_append]

/-- A line of an axis is read as its option. -/
theorem splitOptions_axisOption {option : Text} (h : IsOption option) (rest : Text) :
    splitOptions (writeAxisOption option ++ rest) = option :: splitOptions rest := by
  have htext : writeAxisOption option ++ rest =
      ' ' :: ' ' :: ' ' :: ' ' :: (option ++ ',' :: '\n' :: rest) := by
    show [' ', ' ', ' ', ' '] ++ option ++ [',', '\n'] ++ rest = _
    simp only [List.append_assoc, List.cons_append, List.nil_append]
  rw [htext, splitOptions_blank rfl, splitOptions_blank rfl, splitOptions_blank rfl,
    splitOptions_blank rfl, splitOptions_cons_append h, splitOptions_blank rfl]

/-- The options of an axis are read back from their lines, the last of which ends in a comma as
well. -/
theorem splitOptions_axisText {options : List Text} (h : ∀ option ∈ options, IsOption option) :
    splitOptions (axisText options) = options := by
  have hlines : splitOptions (options.flatMap writeAxisOption) = options := by
    induction options with
    | nil => rfl
    | cons option rest ih =>
      rw [List.forall_mem_cons] at h
      rw [List.flatMap_cons, splitOptions_axisOption h.1, ih h.2]
  unfold axisText
  split
  next hempty =>
    rw [List.isEmpty_iff.mp hempty]
    rfl
  next => rw [splitOptions_blank rfl, hlines]

/-- The commas and line feeds around the options keep them apart. -/
theorem isQuiet_axisText {options : List Text} (h : ∀ option ∈ options, IsQuiet option) :
    IsQuiet (axisText options) := by
  have hlines : IsQuiet (options.flatMap writeAxisOption) := by
    induction options with
    | nil => exact isQuiet_nil
    | cons option rest ih =>
      rw [List.forall_mem_cons] at h
      have htext : writeAxisOption option ++ rest.flatMap writeAxisOption =
          [' ', ' ', ' ', ' '] ++ (option ++ ',' :: (['\n'] ++ rest.flatMap writeAxisOption)) := by
        show [' ', ' ', ' ', ' '] ++ option ++ [',', '\n'] ++ _ = _
        simp only [List.append_assoc, List.cons_append, List.nil_append]
      rw [List.flatMap_cons, htext]
      exact (h.1.append_cons (c := ',') rfl ((ih h.2).behind (by decide))).behind (by decide)
  unfold axisText
  split
  next => exact isQuiet_nil
  next => exact @IsQuiet.behind ['\n'] _ rfl hlines

theorem isQuiet_axisHead {options : List Text} (h : ∀ option ∈ options, IsQuiet option) :
    IsQuiet (axisHead options) := by
  unfold axisHead
  split
  next => exact isQuiet_nil
  next => exact (isQuiet_axisText h).bracketed

/-- The options of an axis in their brackets, when there are any. -/
def writeHead (options : Option Text) : Text := (options.map Text.bracketed).getD []

/-- A body between the phrases of an axis, with other text around the axis. -/
def inAxis (before : Text) (options : Option Text) (body after : Text) : Text :=
  before ++ axisStart ++ (writeHead options ++ (body ++ axisEnd ++ after))

/-- The options and the body of the first axis are found. -/
theorem axisEnvironment?_inAxis {before body after : Text} {options : Option Text}
    (hbefore : ¬axisStart <:+: before) (hoptions : ∀ text ∈ options, IsNested text)
    (hbody : ¬axisEnd <:+: body) (hbrackets : brackets? (body ++ axisEnd ++ after) = none) :
    axisEnvironment? (inAxis before options body after) = some (options.getD [], body) := by
  obtain ⟨start, hstart, hstart'⟩ : ∃ word : Text, axisStart = '\\' :: word ∧ '\\' ∉ word :=
    ⟨_, rfl, by decide⟩
  obtain ⟨ending, hending, hending'⟩ := axisEnd_eq
  have hopen : Text.cut? (inAxis before options body after) axisStart =
      some (before, writeHead options ++ (body ++ axisEnd ++ after)) := by
    rw [inAxis, hstart]
    exact Text.cut?_append hstart' (hstart ▸ hbefore) _
  have hclose : Text.cut? (body ++ axisEnd ++ after) axisEnd = some (body, after) := by
    rw [hending]
    exact Text.cut?_append hending' (hending ▸ hbody) after
  -- without options the reader looks for brackets where the body starts, and finds none
  have hhead : ((brackets? (writeHead options ++ (body ++ axisEnd ++ after))).map (·.1)).getD [] =
        options.getD [] ∧
      afterBrackets (writeHead options ++ (body ++ axisEnd ++ after)) =
        body ++ axisEnd ++ after := by
    cases options with
    | none =>
      show ((brackets? (body ++ axisEnd ++ after)).map _).getD [] = [] ∧
        afterBrackets (body ++ axisEnd ++ after) = _
      rw [afterBrackets, hbrackets]
      exact ⟨rfl, rfl⟩
    | some text =>
      show ((brackets? (Text.bracketed text ++ _)).map _).getD [] = text ∧
        afterBrackets (Text.bracketed text ++ _) = _
      rw [afterBrackets, brackets?_bracketed (hoptions text rfl).isBracketContent]
      exact ⟨rfl, rfl⟩
  show (Text.cut? _ axisStart).map _ = _
  rw [hopen, Option.map_some]
  simp only [hhead.1, hhead.2]
  show some (_, ((Text.cut? _ axisEnd).map _).getD _) = _
  rw [hclose]
  rfl

/-- The options that stand in brackets: an axis without options has no brackets either. -/
def shownOptions (options : List Text) : Option Text :=
  if options.isEmpty then none else some (axisText options)

/-- Whether there are brackets makes no difference to the options that are read. -/
theorem shownOptions_spec (options : List Text) :
    writeHead (shownOptions options) = axisHead options ∧
      (shownOptions options).getD [] = axisText options := by
  unfold shownOptions axisHead
  split
  next hempty =>
    rw [List.isEmpty_iff.mp hempty]
    exact ⟨rfl, rfl⟩
  next => exact ⟨rfl, rfl⟩

/-- The options and the body of the axis that is written are found. -/
theorem axisEnvironment?_write {options : List Text}
    (hoptions : ∀ option ∈ options, IsQuiet option) {body : Text} (hbody : IsSilent body)
    (hbrackets : ∀ after, brackets? ('\n' :: (body ++ after)) = none) :
    axisEnvironment? (beforeAxis ++ axisStart ++
        (axisHead options ++ '\n' :: (body ++ axisEnd ++ afterAxis))) =
      some (axisText options, '\n' :: body) := by
  have hbefore : ¬axisStart <:+: beforeAxis := by
    rw [← Text.contains_iff]
    decide
  have hsilent : IsSilent ('\n' :: body) := @IsSilent.behind ['\n'] _ (by decide) hbody
  have hnone := hbrackets (axisEnd ++ afterAxis)
  rw [← List.append_assoc] at hnone
  have hnested : ∀ text ∈ shownOptions options, IsNested text := by
    intro text htext
    unfold shownOptions at htext
    split at htext
    next => cases htext
    next =>
      obtain rfl : axisText options = text := Option.some.inj htext
      exact (isQuiet_axisText hoptions).nested
  have hfound := axisEnvironment?_inAxis hbefore hnested hsilent.1 hnone
  rw [inAxis, (shownOptions_spec options).1, (shownOptions_spec options).2] at hfound
  exact hfound

/-! ## The chart -/

/-- A chart that is read back. -/
structure IsSound (chart : Chart) : Prop where
  nonempty : chart.series ≠ []
  labels : ∀ text ∈ chart.axis.labels, IsQuiet text
  values : ∀ text ∈ chart.axis.values, IsQuiet (Text.trim text)
  series : ∀ series ∈ chart.series, series.IsSound

/-- The chart that is read back. -/
def canonical (chart : Chart) : Chart :=
  ⟨chart.axis.canonical chart.hasLegend, numbered 0 chart.series,
    min chart.series.length Identity.last⟩

section
variable {chart : Chart}

/-- The series of a chart are written silently. -/
theorem IsSound.silent (h : chart.IsSound) : IsSilent (chart.series.flatMap writeSeries) := by
  have hsilent := silent_flatMap h.series (isSilent_of_unescaped List.not_mem_nil)
  rwa [List.append_nil] at hsilent

/-- A text without the command that defines a table defines none. -/
theorem collect_eq_nil {text : Text} (h : ¬Table.readCommand <:+: text) :
    Table.collect text = [] := by
  rw [Table.collect, Table.definitions_eq_nil h]
  rfl

/-- The code of a chart defines no table. -/
theorem collect_write (h : chart.IsSound) : Table.collect (write chart) = [] := by
  have hoptions := (keeps_axisOptions h.labels h.values).quiet
  have hhead : IsSilent (axisHead chart.axisOptions ++ '\n' :: chart.series.flatMap writeSeries) :=
    (isQuiet_axisHead hoptions).silent.append_cons (by decide) h.silent
  have hfront : IsSilent ('\\' :: ('b' :: "egin\x7btikzpicture\x7d\n".toList ++
      '\\' :: ('b' :: "egin\x7baxis\x7d".toList ++
        (axisHead chart.axisOptions ++ '\n' :: chart.series.flatMap writeSeries)))) :=
    IsSilent.command ⟨by decide, by decide⟩ (by decide)
      (IsSilent.command ⟨by decide, by decide⟩ (by decide) hhead)
  have hcode : write chart =
      '\\' :: ('b' :: "egin\x7btikzpicture\x7d\n".toList ++
        '\\' :: ('b' :: "egin\x7baxis\x7d".toList ++
          (axisHead chart.axisOptions ++ '\n' :: chart.series.flatMap writeSeries))) ++
      (axisEnd ++ afterAxis) := by
    rw [write_eq]
    show beforeAxis ++ axisStart ++ _ = beforeAxis ++ (axisStart ++ _) ++ _
    simp only [List.append_assoc, List.cons_append]
  have hnot : ¬Table.readCommand <:+: write chart := by
    rw [hcode]
    intro hin
    -- the phrases that end the picture are no definition, and none reaches into them
    rcases Text.infix_append_backslash (by decide) hin with hin | hin
    · exact hfront.2 hin
    · exact absurd (Text.contains_iff.mpr hin) (by decide)
  exact collect_eq_nil hnot

/-- The code of a sound chart is read as its canonical chart, and all that is dropped are the names
of tables that are defined nowhere. -/
theorem readReport_write (h : chart.IsSound) :
    readReport [] (write chart) = (.ok chart.canonical, missingTables 0 chart.series) := by
  have hkeeps := keeps_axisOptions h.labels h.values
  have hbrackets (after : Text) :
      brackets? ('\n' :: (chart.series.flatMap writeSeries ++ after)) = none := by
    obtain ⟨first, rest, heq⟩ := List.exists_cons_of_ne_nil h.nonempty
    rw [heq, List.flatMap_cons, writeSeries_eq]
    rfl
  have henvironment : axisEnvironment? (write chart) =
      some (axisText chart.axisOptions, '\n' :: chart.series.flatMap writeSeries) := by
    rw [write_eq]
    exact axisEnvironment?_write hkeeps.quiet h.silent hbrackets
  have haxis : readOptions Axis.addOption {} (axisText chart.axisOptions) =
      (chart.axis.canonical chart.hasLegend, []) := by
    rw [readOptions_eq, splitOptions_axisText hkeeps.option, hkeeps.fold]
  have hstart : IsNumbered { axis := chart.axis.canonical chart.hasLegend } := ⟨rfl, rfl⟩
  have hfold := @foldl_take _ h.series ⟨{ axis := chart.axis.canonical chart.hasLegend }, []⟩ hstart
  -- the axis reports nothing, so that the losses are those of the series
  rw [readReport, henvironment]
  simp only [haxis, collect_write h, statements_lineFeed, statements_flatMap h.series]
  show (_, _) = _
  rw [show (⟨[], []⟩ : Tables) = noTables from rfl,
    show lossesOf .unknownOption .axis [] = [] from rfl, hfold]
  simp only [List.nil_append, List.length_nil, Nat.zero_add]
  have hnonempty : (numbered 0 chart.series).isEmpty = false := by
    obtain ⟨first, rest, heq⟩ := List.exists_cons_of_ne_nil h.nonempty
    rw [heq]
    rfl
  rw [hnonempty]
  rfl

end

end TexFigure.Chart
