import TexFigure.Proofs.Unclosed
/-!
# Charts of one series of rows

The rows of a series are written as coordinates or as a table, and what decides which is whether the
columns are selected: a selector of blanks counts as one. It is read back trimmed, and then it
counts as none. So the code of a chart with such a selector is not that of the chart which is read
from it.

> `write_read_write_iff`: the code of a chart with one series of rows comes back exactly when no
> selector is blank, the options of the table nest, and the coordinates close no group that they do
> not open.

The rows nest and have neither parentheses nor escapes nor comments, and the selectors nest. Even
so the last two conditions can fail, since a coordinate keeps two cells of a row and an option is
trimmed.
-/

namespace TexFigure.Chart

open Source

/-! ## Silent code -/

theorem IsSilent.of_infix {text text' : Text} (h : IsSilent text') (hin : text <:+: text') :
    IsSilent text :=
  ⟨fun hend => h.1 (hend.trans hin), fun hread => h.2 (hread.trans hin)⟩

/-- A setting with a quiet value is silent, also where trimming the value lays bare an escape. -/
theorem isSilent_writeSetting {s : Text × Text} (hkey : '\\' ∉ s.1) (hvalue : IsQuiet s.2) :
    IsSilent (writeSetting s) := by
  have htrim : IsSilent (Text.trim s.2) := hvalue.silent.of_infix (Text.infix_trim s.2)
  have hvalue' : IsSilent (optionValue s.2) := by
    rcases optionValue_cases s.2 with heq | ⟨heq, -⟩
    · obtain ⟨escaped, hwalk⟩ := exists_walk_trim hvalue.nested
      have hbraces : walk? braceStep 0 false (Text.trim s.2) = some (0, escaped) :=
        walk?_follow (List.count '}') braceStep_of_nestStep hwalk
      have hclose : IsSilent (Text.trim s.2 ++ ['}']) :=
        htrim.append_brace hbraces (isSilent_of_unescaped List.not_mem_nil)
      rw [heq]
      exact @IsSilent.behind ['{'] _ (by decide) hclose
    · rwa [heq]
  have htext : writeSetting s = (s.1 ++ ['=']) ++ optionValue s.2 := by
    simp [writeSetting, setting]
  rw [htext]
  exact IsSilent.behind (by simp [hkey]) hvalue'

theorem isSilent_join_settings {keyed : List (Text × Text)} (hkeys : ∀ s ∈ keyed, '\\' ∉ s.1)
    (hvalues : ∀ s ∈ keyed, IsQuiet s.2) :
    IsSilent (Text.join ", " (keyed.map writeSetting)) := by
  induction keyed with
  | nil => exact isSilent_of_unescaped List.not_mem_nil
  | cons s rest ih =>
    rw [List.forall_mem_cons] at hkeys hvalues
    have hfirst := isSilent_writeSetting hkeys.1 hvalues.1
    cases rest with
    | nil =>
      rw [List.map_singleton, Text.join_singleton]
      exact hfirst
    | cons next rest =>
      rw [join_settings]
      exact hfirst.append_cons (c := ',') (by decide)
        (@IsSilent.behind [' '] _ (by decide) (ih hkeys.2 hvalues.2))

/-! ## Rows -/

/-- Rows in the text of a series, with columns: they nest and have neither parentheses nor escapes
nor comments, and the columns are quiet. -/
structure Data.IsInline (data : Data) : Prop where
  xColumn : IsQuiet data.xColumn
  yColumn : IsQuiet data.yColumn
  noFile : Table.isFileReference data.rows = false
  chars : data.rows.all Table.isRowChar
  nested : IsNested data.rows

/-- Whether rows are written as they were when they have been read back: coordinates close no group
that they do not open, and a table has no blank selector and options that nest. -/
def Data.IsRestored (data : Data) : Prop :=
  (data.isCoordinates = true →
      (walk? braceStep 0 false (Table.formatCoordinates data.rows data.hasHeader)).isSome = true) ∧
    (data.isCoordinates = false → IsSelector data.xColumn ∧ IsSelector data.yColumn ∧
      IsNested (Text.join ", " (tableOptions data)))

instance (data : Data) : Decidable data.IsInline :=
  decidable_of_iff
    (IsQuiet data.xColumn ∧ IsQuiet data.yColumn ∧ Table.isFileReference data.rows = false ∧
      data.rows.all Table.isRowChar ∧ IsNested data.rows)
    ⟨fun h => ⟨h.1, h.2.1, h.2.2.1, h.2.2.2.1, h.2.2.2.2⟩,
      fun h => ⟨h.xColumn, h.yColumn, h.noFile, h.chars, h.nested⟩⟩

instance (data : Data) : Decidable data.IsRestored :=
  inferInstanceAs (Decidable (_ ∧ _))

/-- The rows that a series is read back with, where no table is defined. -/
structure Data.IsReadBack (data reread : Data) : Prop where
  dataType : reread.dataType = data.dataType
  read : ∃ payload, IsReadAs (writeRows data ++ areaEnd data.dataType ++ ";\n".toList) payload ∧
    ∀ place, (kindOf noTables place false
      { dataType := if data.dataType = .line then none else some data.dataType } payload).1 =
        .data reread

section
variable {data : Data}

theorem Data.IsInline.plain (h : data.IsInline) : data.rows.all Table.isPlainData := by
  refine List.all_eq_true.mpr fun c hc => ?_
  have hrow := List.all_eq_true.mp h.chars c hc
  simp only [Table.isRowChar, Bool.and_eq_true] at hrow
  exact hrow.1.1

theorem Data.IsInline.content (h : data.IsInline) : IsQuiet (tableContent data) :=
  isQuiet_tableContent (fun hfile => absurd (h.noFile ▸ hfile) Bool.false_ne_true)
    fun _ => ⟨h.plain, h.nested⟩

theorem isReadBack_coordinates {body : Text}
    (h : IsReadAs (writeRows data ++ areaEnd data.dataType ++ ";\n".toList) (.coordinates body)) :
    data.IsReadBack ⟨data.dataType, Table.parseCoordinates body, [], [], false⟩ :=
  ⟨rfl, _, h, fun _ => congrArg (fun t => Kind.data ⟨t, _, _, _, _⟩) (getD_dataType data.dataType)⟩

theorem isReadBack_table {text content : Text} {options : TableOptions} {rows : Text}
    (h : IsReadAs (writeRows data ++ areaEnd data.dataType ++ ";\n".toList) (.table text content))
    (hoptions : (readOptions TableOptions.addOption {} text).1 = options)
    (hrows : (tableRows noTables content).1 = rows) :
    data.IsReadBack ⟨data.dataType, rows, options.xColumn, options.yColumn, options.hasHeader⟩ := by
  subst hoptions hrows
  exact ⟨rfl, _, h, fun _ => congrArg (fun t => Kind.data ⟨t, _, _, _, _⟩)
    (getD_dataType data.dataType)⟩

/-- A text without parentheses behind coordinates changes nothing. -/
theorem innermost_append {body rest : Text} (hrest : ')' ∉ rest) :
    Table.innermost (body ++ rest) = Table.innermost body := by
  obtain ⟨current, happend⟩ := Table.exists_innermostFrom_append none body
  have hlength := Table.length_innermostFrom_le current rest
  rw [List.count_eq_zero.mpr hrest, Nat.le_zero, List.length_eq_zero_iff] at hlength
  rw [Table.innermost, happend, hlength, List.append_nil]
  rfl

/-- The start of coordinates up to a brace has fewer pairs than the whole. -/
theorem exists_take_innermost {pairs : List Table.Pair} (hbare : ∀ pair ∈ pairs, pair.IsBare)
    {inside after : Text}
    (h : Text.join [' '] (pairs.map Table.Pair.coordinate) = inside ++ '}' :: after) :
    ∃ n < pairs.length, Table.innermost inside = (pairs.take n).map Table.Pair.row := by
  obtain ⟨current, happend⟩ := Table.exists_innermostFrom_append none inside
  have hinner := Table.innermost_join hbare
  rw [h, Table.innermost, happend] at hinner
  refine ⟨(Table.innermost inside).length, ?_, ?_⟩
  · -- the whole has one closing parenthesis to a pair, and ends in one behind the brace
    have hcount := congrArg (List.count ')') h
    have hzero : (pairs.map fun pair => pair.row.count ')').sum = 0 := by
      rw [List.sum_eq_zero_iff_forall_eq_nat]
      intro n hn
      obtain ⟨pair, hpair, rfl⟩ := List.mem_map.mp hn
      exact List.count_eq_zero.mpr (hbare pair hpair).2
    rw [Table.count_paren_coordinates (Or.inr rfl), hzero, List.count_append,
      List.count_cons_of_ne (by decide)] at hcount
    have hinside := Table.length_innermostFrom_le none inside
    have hafter : 0 < after.count ')' := by
      have hne : pairs ≠ [] := by
        rintro rfl
        simp [Text.join] at h
      have hlast := Table.getLast?_coordinates hne
      rw [h, List.getLast?_append_cons] at hlast
      cases after with
      | nil => cases hlast
      | cons c rest =>
        rw [List.getLast?_cons_cons] at hlast
        exact List.count_pos_iff.mpr (List.mem_of_getLast? hlast)
    rw [Table.innermost]
    omega
  · rw [List.map_take, ← hinner]
    exact List.take_left.symm

/-- Coordinates that close no group too many are read back whole, at most with a text behind them
that has no parenthesis. -/
theorem exists_isReadAs_coordinates {body : Text} {final : Nat × Bool}
    (hwalk : walk? braceStep 0 false body = some final) (hslash : '\\' ∉ body)
    (dataType : DataType) :
    ∃ rest, ')' ∉ rest ∧
      IsReadAs ("coordinates ".toList ++ Text.braced body ++ areaEnd dataType ++ ";\n".toList)
        (.coordinates (body ++ rest)) := by
  by_cases hbalanced : IsBalanced body
  · refine ⟨[], List.not_mem_nil, ?_⟩
    rw [List.append_nil]
    exact (isPayload_coordinates hbalanced hslash).isReadAs dataType
  · refine ⟨'}' :: (areaEnd dataType ++ [';']), ?_, ?_⟩
    · cases dataType <;> decide
    · rw [List.append_assoc "coordinates ".toList]
      exact isReadAs_openCoordinates hwalk hbalanced dataType

/-- Coordinates that are read up to a brace in them are not written as before: the pairs behind the
brace are lost. -/
theorem writeRows_ne_of_cut {pairs : List Table.Pair} (hpairs : ∀ pair ∈ pairs, Table.IsPair pair)
    {inside after : Text}
    (h : Text.join [' '] (pairs.map Table.Pair.coordinate) = inside ++ '}' :: after)
    (dataType : DataType) :
    writeRows ⟨dataType, Table.parseCoordinates inside, [], [], false⟩ ≠
      "coordinates ".toList ++ Text.braced (Text.join [' '] (pairs.map Table.Pair.coordinate)) := by
  intro heq
  obtain ⟨n, hn, htake⟩ := exists_take_innermost (fun pair hpair => (hpairs pair hpair).isBare) h
  have htaken : ∀ pair ∈ pairs.take n, Table.IsPair pair := fun pair hpair =>
    hpairs pair (List.mem_of_mem_take hpair)
  rw [writeRows_parseCoordinates htaken htake] at heq
  have hcoordinates := List.append_cancel_right (List.cons.inj (List.append_cancel_left heq)).2
  have hwhole := Table.eq_of_coordinates_eq
    (fun pair hpair => ⟨(hpairs pair hpair).isRowPair, (hpairs pair hpair).isBare⟩)
    (fun pair hpair => ⟨(htaken pair hpair).isRowPair, (htaken pair hpair).isBare⟩) hcoordinates
  have hlength := congrArg List.length hwhole
  rw [List.length_take] at hlength
  omega

/-- Rows that are written as coordinates are read back, and are written as before unless the
coordinates close a group that they do not open. -/
theorem exists_readBack_coordinates (h : data.IsInline) (hcoordinates : data.isCoordinates = true) :
    ∃ reread, data.IsReadBack reread ∧ (writeRows reread = writeRows data ↔ data.IsRestored) := by
  obtain ⟨pairs, hpairs, heq⟩ := Table.exists_pairs h.chars data.hasHeader
  have hslash := Table.unescaped_coordinates hpairs
  have hwrite : writeRows data =
      "coordinates ".toList ++ Text.braced (Text.join [' '] (pairs.map Table.Pair.coordinate)) := by
    rw [writeRows_eq, if_pos hcoordinates, heq]
  have hrestored : data.IsRestored ↔ (walk? braceStep 0 false
      (Text.join [' '] (pairs.map Table.Pair.coordinate))).isSome = true := by
    rw [← heq]
    exact ⟨fun h => h.1 hcoordinates,
      fun h => ⟨fun _ => h, fun hnot => absurd (hcoordinates ▸ hnot) Bool.true_eq_false.mp⟩⟩
  rcases walk_or_cut 0 false (Text.join [' '] (pairs.map Table.Pair.coordinate))
    with ⟨final, hwalk⟩ | ⟨inside, after, hcut, hinside⟩
  · obtain ⟨rest, hrest, hread⟩ := exists_isReadAs_coordinates hwalk hslash data.dataType
    have hinner := Table.innermost_join fun pair hpair => (hpairs pair hpair).isBare
    rw [← hwrite] at hread
    refine ⟨_, isReadBack_coordinates hread, iff_of_true ?_ (hrestored.mpr ?_)⟩
    · rw [hwrite]
      exact writeRows_parseCoordinates hpairs ((innermost_append hrest).trans hinner) data.dataType
    · rw [hwalk]
      rfl
  · have hafter : '\\' ∉ after := by
      intro hmem
      rw [cutAtBrace_eq hcut] at hslash
      exact hslash (List.mem_append_right _ (List.mem_cons_of_mem _ hmem))
    have hread := isReadAs_overClosed hcut hinside hafter data.dataType
    rw [← List.append_assoc "coordinates ".toList, ← hwrite] at hread
    refine ⟨_, isReadBack_coordinates hread, iff_of_false (fun hsame => ?_) fun h => ?_⟩
    · exact writeRows_ne_of_cut hpairs (cutAtBrace_eq hcut) data.dataType (hsame.trans hwrite)
    · rw [hrestored, cutAtBrace_eq hcut, walk?_append, hinside] at h
      cases h

/-- The options of a table are silent. -/
theorem isSilent_tableOptions (hx : IsQuiet data.xColumn) (hy : IsQuiet data.yColumn) :
    IsSilent (Text.join ", " (tableOptions data)) := by
  have hkeys : '\\' ∉ xKey data.hasHeader ∧ '\\' ∉ yKey data.hasHeader := by
    cases data.hasHeader <;> decide
  rw [tableOptions_eq]
  refine isSilent_join_settings (fun s hs => ?_) fun s hs => ?_
  · rcases mem_tableSettings hs with rfl | rfl | hs
    · exact hkeys.1
    · exact hkeys.2
    · rcases mem_fixedSettings hs with rfl | rfl <;> decide
  · rcases mem_tableSettings hs with rfl | rfl | hs
    · exact hx
    · exact hy
    · rcases mem_fixedSettings hs with rfl | rfl <;> decide

/-- Options that do not nest take in the table, and a column then takes in a semicolon more than
there is in the rows and their columns. -/
theorem exists_readBack_open (h : data.IsInline) (htable : data.isCoordinates = false)
    (hopen : ¬IsNested (Text.join ", " (tableOptions data))) :
    ∃ reread, data.IsReadBack reread ∧ writeRows reread ≠ writeRows data := by
  obtain ⟨hx, hy, -, -, -⟩ := id h
  have hcontent := h.content.nested
  obtain ⟨hkeys, hvalues⟩ := tableSettings_spec hx.nested hy.nested
  obtain ⟨final, hwalk, hfinal⟩ := exists_walk_settings (fun s hs => (hkeys s hs).1) hvalues
  rw [← tableOptions_eq] at hwalk
  have hread : IsReadAs (writeRows data ++ areaEnd data.dataType ++ ";\n".toList)
      (.table (Text.join ", " (tableOptions data) ++
        behindOptions (tableContent data) data.dataType) []) := by
    have htext : writeRows data ++ areaEnd data.dataType = "table".toList ++
        (writeOptions (tableOptions data) ++ ' ' :: Text.braced (tableContent data) ++
          areaEnd data.dataType) := by
      rw [writeRows_eq, htable]
      simp only [Bool.false_eq_true, if_false, List.append_assoc]
    rw [htext]
    exact isReadAs_openOptions hwalk hfinal hopen hcontent data.dataType
  have hnoDelimiter : ∀ c ∈ areaEnd data.dataType ++ [';'], isDelimiter c = false ∧ c ≠ ',' := by
    intro c hc
    rcases List.mem_append.mp hc with hc | hc
    · obtain ⟨hdelimiter, hcomma, -⟩ := (areaEnd_spec data.dataType).1 c hc
      exact ⟨hdelimiter, hcomma⟩
    · cases List.mem_singleton.mp hc
      exact ⟨rfl, by decide⟩
  have hcommas : ∀ depth escaped, ∃ final, walk? (depthStep ',') depth escaped
      (behindOptions (tableContent data) data.dataType) = some final :=
    exists_walk_behind hcontent hnoDelimiter
  have hlast : ∃ init, behindOptions (tableContent data) data.dataType = init ++ [';'] :=
    ⟨']' :: ' ' :: (Text.braced (tableContent data) ++ areaEnd data.dataType),
      by simp [behindOptions]⟩
  obtain ⟨options, hback, hcount⟩ :=
    readOptions_behind hx.nested hy.nested hopen hcommas hlast
  have hbehind : (behindOptions (tableContent data) data.dataType).count ';' =
      (tableContent data).count ';' + 1 := by
    have hend := List.count_eq_zero.mpr (not_mem_areaEnd (c := ';') (Or.inr rfl) data.dataType)
    simp [behindOptions, Text.braced, hend]
  refine ⟨_, isReadBack_table hread hback rfl, writeRows_ne_of_count htable ?_⟩
  omega

/-- Rows that are written as a table are read back, and are written as before unless a selector is
blank or the options do not nest. -/
theorem exists_readBack_table (h : data.IsInline) (htable : data.isCoordinates = false) :
    ∃ reread, data.IsReadBack reread ∧ (writeRows reread = writeRows data ↔ data.IsRestored) := by
  obtain ⟨hx, hy, hfile, -, -⟩ := id h
  have hrestored : data.IsRestored ↔ IsSelector data.xColumn ∧ IsSelector data.yColumn ∧
      IsNested (Text.join ", " (tableOptions data)) :=
    ⟨fun h => h.2 htable, fun h => ⟨fun hnot => absurd (htable ▸ hnot) Bool.false_ne_true,
      fun _ => h⟩⟩
  by_cases hoptions : IsNested (Text.join ", " (tableOptions data))
  · have hread : IsReadAs (writeRows data ++ areaEnd data.dataType ++ ";\n".toList)
        (.table (Text.join ", " (tableOptions data)) (tableContent data)) := by
      rw [writeRows_eq, htable]
      exact (isPayload_table ⟨hoptions, isSilent_tableOptions hx hy⟩ h.content).isReadAs
        data.dataType
    have hback : (tableRows noTables (tableContent data)).1 = Table.normalizeRows data.rows := by
      rw [tableRows_tableContent fun _ => h.plain, hfile]
      rfl
    refine ⟨_, isReadBack_table hread
      (congrArg Prod.fst (readOptions_tableOptions hx.nested hy.nested hoptions)) hback, ?_⟩
    rw [hrestored, writeRows_trimmed_iff hfile h.plain htable]
    exact ⟨fun h => ⟨h.1, h.2, hoptions⟩, fun h => ⟨h.1, h.2.1⟩⟩
  · obtain ⟨reread, hback, hne⟩ := exists_readBack_open h htable hoptions
    exact ⟨reread, hback, iff_of_false hne fun h => hoptions (hrestored.mp h).2.2⟩

/-- Rows in the text of a series are read back. -/
theorem exists_readBack (h : data.IsInline) :
    ∃ reread, data.IsReadBack reread ∧ (writeRows reread = writeRows data ↔ data.IsRestored) := by
  cases hcoordinates : data.isCoordinates with
  | true => exact exists_readBack_coordinates h hcoordinates
  | false => exact exists_readBack_table h hcoordinates

/-- What is written of rows is silent. -/
theorem isSilent_writeRows (h : data.IsInline) {rest : Text} (hrest : IsSilent rest) :
    IsSilent (writeRows data ++ rest) := by
  rw [writeRows_eq]
  split
  next hcoordinates =>
    obtain ⟨pairs, hpairs, heq⟩ := Table.exists_pairs h.chars data.hasHeader
    refine IsSilent.behind ?_ hrest
    rw [heq]
    simp [Text.braced, Table.unescaped_coordinates hpairs]
  next =>
    have hbehind : IsSilent (' ' :: (Text.braced (tableContent data) ++ rest)) := by
      have hclose := h.content.silent.append_brace h.content.nested.isBalanced hrest
      rw [Text.braced, List.append_assoc]
      exact @IsSilent.behind [' ', '{'] _ (by decide) hclose
    have hoptions : IsSilent (writeOptions (tableOptions data) ++
        ' ' :: (Text.braced (tableContent data) ++ rest)) := by
      unfold writeOptions
      split
      next => exact hbehind
      next =>
        have hclose := (isSilent_tableOptions h.xColumn h.yColumn).append_cons (c := ']')
          (by decide) hbehind
        have hopen := @IsSilent.behind ['['] _ (by decide) hclose
        rw [Text.bracketed, List.append_assoc]
        exact hopen
    rw [List.append_assoc, List.append_assoc]
    exact IsSilent.behind (by decide) hoptions

end

/-! ## The chart -/

section
variable {data : Data}

/-- A series of rows in the default style has a flag at most. -/
theorem writeSeries_data (id : Nat) (data : Data) :
    writeSeries ⟨id, {}, .data data⟩ = "\\addplot".toList ++ (writeOptions data.dataType.flags ++
      ' ' :: (writeRows data ++ areaEnd data.dataType ++ ";\n".toList)) := by
  have hoptions : (seriesParts ⟨id, {}, .data data⟩).2.1 = data.dataType.flags :=
    List.append_nil _
  rw [writeSeries_eq, hoptions]
  rfl

/-- A series of rows in the default style is silent. -/
theorem isSilent_writeSeries_data (h : data.IsInline) (id : Nat) :
    IsSilent (writeSeries ⟨id, {}, .data data⟩) := by
  have hend : IsSilent (areaEnd data.dataType ++ ";\n".toList) := by
    cases data.dataType <;> decide
  have hrows := (isQuiet_writeOptions (keeps_dataType data.dataType).quiet).silent.append_cons
    (c := ' ') (by decide) (isSilent_writeRows h hend)
  rw [writeSeries_data, List.append_assoc (writeRows data)]
  show IsSilent ('\\' :: ('a' :: "ddplot".toList ++ _))
  exact IsSilent.command ⟨by decide, by decide⟩ (by decide) hrows

/-- A series of rows is read back, and what is left behind it means nothing. -/
theorem filter_statements_data {payload : Payload}
    (h : IsReadAs (writeRows data ++ areaEnd data.dataType ++ ";\n".toList) payload) (id : Nat) :
    (statements ('\n' :: writeSeries ⟨id, {}, .data data⟩)).filter (!·.isUnknown) =
      [.series false (Text.join ", " data.dataType.flags) (some payload) none] := by
  have hbrackets : brackets? (' ' :: (writeRows data ++ areaEnd data.dataType ++ ";\n".toList)) =
      none := by
    rw [writeRows_eq]
    split
    next => rfl
    next => rfl
  obtain ⟨hsurface, hoptions, hbody⟩ := seriesBody_writeOptions (.data data)
    (keeps_dataType data.dataType).quiet hbrackets
  have hread : readSeries (writeOptions data.dataType.flags ++
      ' ' :: (writeRows data ++ areaEnd data.dataType ++ ";\n".toList)) =
        (.series false (Text.join ", " data.dataType.flags) (some payload) none,
          (cutAtSemicolon 0 false
            (' ' :: (writeRows data ++ areaEnd data.dataType ++ ";\n".toList))).2) := by
    rw [show (Kind.data data).mark = [] from rfl, List.nil_append] at hsurface hoptions hbody
    rw [readSeries, hsurface, hoptions, hbody, h.read, h.noLegend]
    rfl
  have hunknown : (statements (cutAtSemicolon 0 false
      (' ' :: (writeRows data ++ areaEnd data.dataType ++ ";\n".toList))).2).filter
        (!·.isUnknown) = [] := by
    refine List.filter_eq_nil_iff.mpr fun statement hmem => ?_
    rw [h.unknown statement hmem]
    exact Bool.false_ne_true
  rw [writeSeries_data, statements_lineFeed]
  show (statements ('\\' :: ("addplot".toList ++ _))).filter _ = _
  rw [statements_command, readStatement, Text.isPrefixOf?_append]
  simp only [hread]
  rw [List.filter_append, hunknown]
  rfl

/-- The options of an axis in brackets leave the series alone. -/
theorem isAround_shownOptions {options : List Text} (h : ∀ option ∈ options, IsQuiet option) :
    IsAround beforeAxis (shownOptions options) := by
  have hquiet : ∀ text ∈ shownOptions options, IsQuiet text := by
    intro text htext
    unfold shownOptions at htext
    split at htext
    next => cases htext
    next =>
      cases htext
      exact isQuiet_axisText h
  refine ⟨?_, ?_, fun text htext => (hquiet text htext).nested,
    fun text htext => (hquiet text htext).silent.2⟩
  · rw [← Text.contains_iff]
    decide
  · rw [← Text.contains_iff]
    decide

section
variable {chart : Chart} {id : Nat} {reread : Data}

/-- A series in the default style has no legend. -/
theorem not_hasLegend_sole (hseries : chart.series = [⟨id, {}, .data data⟩]) :
    chart.hasLegend = false := by
  rw [hasLegend, hseries]
  rfl

/-- A chart with one series of rows is read back with the rows that are read back. -/
theorem read_write_sole (hseries : chart.series = [⟨id, {}, .data data⟩])
    (hlabels : ∀ text ∈ chart.axis.labels, IsQuiet text)
    (hvalues : ∀ text ∈ chart.axis.values, IsQuiet (Text.trim text)) (hdata : data.IsInline)
    (hread : data.IsReadBack reread) :
    read (write chart) = .ok ⟨chart.axis.canonical false, [⟨0, {}, .data reread⟩], 1⟩ := by
  have hkeeps := keeps_axisOptions hlabels hvalues
  rw [not_hasLegend_sole hseries] at hkeeps
  obtain ⟨hdataType, payload, hpayload, hkind⟩ := hread
  have hcode : write chart = inAxis beforeAxis (shownOptions chart.axisOptions)
      ('\n' :: writeSeries ⟨id, {}, .data data⟩) afterAxis := by
    rw [write_eq, inAxis, (shownOptions_spec chart.axisOptions).1, hseries, List.flatMap_singleton]
    rfl
  have hsilent : IsSilent ('\n' :: writeSeries ⟨id, {}, .data data⟩) :=
    @IsSilent.behind ['\n'] _ (by decide) (isSilent_writeSeries_data hdata id)
  have hbrackets : brackets? ('\n' :: writeSeries ⟨id, {}, .data data⟩ ++ axisEnd ++ afterAxis) =
      none := by
    rw [writeSeries_data]
    rfl
  have htables : Table.collect afterAxis = [] := by
    refine collect_eq_nil ?_
    rw [← Text.contains_iff]
    decide
  have hreport := @readReport_inAxis_eq [] _ _ _ afterAxis (isAround_shownOptions hkeeps.quiet)
    hsilent hbrackets
  have haxis : startReading ((shownOptions chart.axisOptions).getD []) =
      ⟨{ axis := chart.axis.canonical false }, []⟩ := by
    rw [(shownOptions_spec chart.axisOptions).2, startReading, readOptions_eq,
      splitOptions_axisText hkeeps.option, hkeeps.fold]
    rfl
  rw [htables, haxis, Reading.outcome] at hreport
  have hchart := @chart_foldl noTables ⟨{ axis := chart.axis.canonical false }, []⟩ _ rfl
    (statements ('\n' :: writeSeries ⟨id, {}, .data data⟩))
  rw [filter_statements_data hpayload] at hchart
  have htake : (Reading.take noTables ⟨{ axis := chart.axis.canonical false }, []⟩
      (.series false (Text.join ", " data.dataType.flags) (some payload) none)).chart =
        ⟨chart.axis.canonical false, [⟨0, {}, .data reread⟩], 1⟩ := by
    simp only [Reading.take, (keeps_dataType data.dataType).readOptions_join, hkind]
    rfl
  rw [List.foldl_cons, List.foldl_nil, htake] at hchart
  rw [read, readWith, hcode, hreport, show (⟨[], []⟩ : Tables) = noTables from rfl, hchart]
  rfl

/-- Charts with one series of rows each, on the same axis, have the same code when their rows are
written alike. -/
theorem write_sole_iff (hseries : chart.series = [⟨id, {}, .data data⟩])
    (htype : reread.dataType = data.dataType) :
    write ⟨chart.axis.canonical false, [⟨0, {}, .data reread⟩], 1⟩ = write chart ↔
      writeRows reread = writeRows data := by
  have hoptions : axisOptions ⟨chart.axis.canonical false, [⟨0, {}, .data reread⟩], 1⟩ =
      chart.axisOptions := by
    rw [← axisOptions_canonical chart, canonical, not_hasLegend_sole hseries, hseries]
    rfl
  rw [write_eq, write_eq, hoptions, hseries, List.flatMap_singleton, List.flatMap_singleton,
    writeSeries_data, writeSeries_data, htype]
  constructor
  · intro heq
    have hbody := (List.cons.inj (List.append_cancel_left (List.append_cancel_left heq))).2
    have hseries := List.append_cancel_right (List.append_cancel_right hbody)
    have hrows := (List.cons.inj (List.append_cancel_left (List.append_cancel_left hseries))).2
    exact List.append_cancel_right (List.append_cancel_right hrows)
  · intro heq
    rw [heq]

/-- The code of a chart with one series of rows in the default style is read as a chart, and this
has the same code exactly when the rows are restored. -/
theorem write_read_write_iff (hseries : chart.series = [⟨id, {}, .data data⟩])
    (hlabels : ∀ text ∈ chart.axis.labels, IsQuiet text)
    (hvalues : ∀ text ∈ chart.axis.values, IsQuiet (Text.trim text)) (hdata : data.IsInline) :
    ∃ reopened, read (write chart) = .ok reopened ∧
      (write reopened = write chart ↔ data.IsRestored) := by
  obtain ⟨reread, hread, hrestored⟩ := exists_readBack hdata
  refine ⟨_, read_write_sole hseries hlabels hvalues hdata hread, ?_⟩
  rw [write_sole_iff hseries hread.dataType]
  exact hrestored

end

end

/-- Columns of an area that are selected by name, one of them with a blank in front of its name. -/
def namedColumns : Data := ⟨.area, "t,v\n1,2\n3,4", " t", "v", true⟩

/-- A chart of them, with a title and a range. -/
def titledArea : Chart where
  axis := { title := "Speed, measured", xmin := " 0" }
  series := [⟨3, {}, .data namedColumns⟩]
  nextId := 4

/-- The code of such a chart comes back. -/
theorem write_read_write_named :
    (∀ text ∈ titledArea.axis.labels, IsQuiet text) ∧
      (∀ text ∈ titledArea.axis.values, IsQuiet (Text.trim text)) ∧ namedColumns.IsInline ∧
      ∃ reopened, read (write titledArea) = .ok reopened ∧
        write reopened = write titledArea := by
  have hlabels : ∀ text ∈ titledArea.axis.labels, IsQuiet text := by decide +kernel
  have hvalues : ∀ text ∈ titledArea.axis.values, IsQuiet (Text.trim text) := by decide +kernel
  have hinline : namedColumns.IsInline := by decide +kernel
  obtain ⟨reopened, hread, hwrite⟩ :=
    @write_read_write_iff namedColumns titledArea 3 rfl hlabels hvalues hinline
  exact ⟨hlabels, hvalues, hinline, reopened, hread, hwrite.mpr (by decide +kernel)⟩

/-- A chart of rows alone. -/
def sole (data : Data) : Chart where
  series := [⟨0, {}, .data data⟩]
  nextId := 1

/-- Two columns of which the first is selected by a blank. -/
def blankSelector : Data := ⟨.line, "1 2\n3 4", " ", [], false⟩

/-- A selector that ends in an escaped blank. Trimming leaves the escape, which takes the brace that
is to close the option. -/
def escapedBlank : Data := ⟨.line, "1 2\n3 4", "a,b\\ ", [], false⟩

/-- A group that is opened in a third cell, which coordinates drop, and closed in a first one. -/
def splitGroup : Data := ⟨.line, "1 2 \x7b\n3\x7d 4", [], [], false⟩

theorem exists_write_ne_of_code {chart : Chart}
    (h : ((read (write chart)).toOption.map fun reopened => write reopened == write chart) =
      some false) :
    ∃ reopened, read (write chart) = .ok reopened ∧ write reopened ≠ write chart := by
  cases hread : read (write chart) with
  | error error => simp [hread, Except.toOption] at h
  | ok reopened => exact ⟨reopened, rfl, by simpa [hread, Except.toOption] using h⟩

/-- Each condition of the law is needed: the code changes with a blank selector, with a selector
that is left with an escape, and with a group that is closed in another row. -/
theorem write_read_write_ne :
    (blankSelector.IsInline ∧ ∃ reopened, read (write (sole blankSelector)) = .ok reopened ∧
      write reopened ≠ write (sole blankSelector)) ∧
    (escapedBlank.IsInline ∧ ∃ reopened, read (write (sole escapedBlank)) = .ok reopened ∧
      write reopened ≠ write (sole escapedBlank)) ∧
    (splitGroup.IsInline ∧ ∃ reopened, read (write (sole splitGroup)) = .ok reopened ∧
      write reopened ≠ write (sole splitGroup)) :=
  ⟨⟨by decide +kernel, exists_write_ne_of_code (by decide +kernel)⟩,
    ⟨by decide +kernel, exists_write_ne_of_code (by decide +kernel)⟩,
    ⟨by decide +kernel, exists_write_ne_of_code (by decide +kernel)⟩⟩

end TexFigure.Chart
