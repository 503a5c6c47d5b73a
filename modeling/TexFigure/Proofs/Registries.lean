import Mathlib.Data.List.Forall2
import TexFigure.Proofs.Noise
/-!
# Tables from elsewhere

A registry is asked for the rows of a table when a series plots no more than a name and the source
text does not define it. It decides about nothing else: how a text is read depends on the text alone
up to that, and what is recorded for a series counts the series before it, not their rows.

Structure: two readings of the same statements are kept in step (`InStep`), where one chart is the
other with rows supplied; a single reading shows the rows of its tables and records the tables that
are missing (`Tabulated`). Each is preserved by a statement, and so by a run of them.

> `readReport_registries`: with two registries a source text is read as the same chart but for such
> rows, or as none for the same reason, and the losses are the same but for the tables that one of
> them lacks.
-/

namespace TexFigure.Chart

open Source

/-! ## Tables that a text does not define -/

/-- What a statement plots. -/
def Statement.payloads : Statement → List Payload
  | .series _ _ payload _ => payload.toList
  | .legends _ | .unknown _ => []

/-- What the series of a source text plot, in order. -/
def payloads (code : Text) : List Payload :=
  match axisEnvironment? code with
  | none => []
  | some (_, body) => (statements body).flatMap Statement.payloads

/-- The name of the table that is plotted, when a payload is no more than that. -/
def Payload.tableName? : Payload → Option Text
  | .table _ content => Table.tableName? content
  | .coordinates _ | .function _ => none

/-- The name of the table that is plotted, when it is not defined. -/
def Payload.outsideTable? (defined : Table.Registry) (payload : Payload) : Option Text :=
  payload.tableName?.filter fun name => (defined.find? name).isNone

/-- The tables that the series of a source text ask a registry for. -/
def outsideTables (code : Text) : List (Option Text) :=
  (payloads code).map (Payload.outsideTable? (Table.collect code))

/-- What a registry gives for a name; a name that it lacks stands for itself. -/
def registryRows (registry : Table.Registry) (name : Text) : Text :=
  (registry.find? name).getD ('\\' :: name)

/-- Whether a kind of series shows the rows of the table that its payload names: those defined in
the source text, or else those of the registry. -/
def Draws (defined registry : Table.Registry) (payload : Payload) (kind : Kind) : Prop :=
  ∀ name ∈ payload.tableName?, ∃ data, kind = .data data ∧
    data.rows = (defined.find? name).getD (registryRows registry name)

/-- Rows of data taken from a registry, when a name is given. -/
def Kind.supply (registry : Table.Registry) (name : Option Text) (kind : Kind) : Kind :=
  match name, kind with
  | some name, .data d => .data { d with rows := registryRows registry name }
  | _, kind => kind

/-- Without a name a kind stays as it is. -/
theorem Kind.supply_none (registry : Table.Registry) (kind : Kind) :
    kind.supply registry none = kind := rfl

/-- Series with rows taken from a registry where names are given. -/
def supplySeries (registry : Table.Registry) : List (Option Text) → List Series → List Series
  | name :: names, series :: rest =>
    { series with kind := series.kind.supply registry name } :: supplySeries registry names rest
  | _, rest => rest

/-- A chart with rows taken from a registry where names are given. -/
def supply (registry : Table.Registry) (names : List (Option Text)) (chart : Chart) : Chart :=
  { chart with series := supplySeries registry names chart.series }

/-! ## Missing tables among the losses -/

/-- The losses that are missing tables. -/
def unresolvedTables (losses : List Loss) : List Loss := losses.filter (·.kind = .unresolvedTable)

/-- The losses that are no missing tables. -/
def otherLosses (losses : List Loss) : List Loss := losses.filter (·.kind ≠ .unresolvedTable)

/-- One loss for each series whose table a registry lacks. -/
def absentTables (registry : Table.Registry) (names : List (Option Text)) : List Loss :=
  names.zipIdx.flatMap fun (name, index) =>
    lossesOf .unresolvedTable (.series (index + 1))
      (name.filter fun name => (registry.find? name).isNone).toList

theorem unresolvedTables_append (losses losses' : List Loss) :
    unresolvedTables (losses ++ losses') = unresolvedTables losses ++ unresolvedTables losses' := by
  simp only [unresolvedTables, List.filter_append]

theorem otherLosses_append (losses losses' : List Loss) :
    otherLosses (losses ++ losses') = otherLosses losses ++ otherLosses losses' := by
  simp only [otherLosses, List.filter_append]

/-- Losses of one kind are all missing tables or none. -/
theorem unresolvedTables_lossesOf (kind : Loss.Kind) (place : Loss.Place) (names : List Text) :
    unresolvedTables (lossesOf kind place names) =
      if kind = .unresolvedTable then lossesOf kind place names else [] := by
  split
  next h => simp [unresolvedTables, lossesOf, h]
  next h => simp [unresolvedTables, lossesOf, h]

theorem otherLosses_unresolvedTable (place : Loss.Place) (names : List Text) :
    otherLosses (lossesOf .unresolvedTable place names) = [] := by
  simp [otherLosses, lossesOf]

/-- A series more is looked up by its own name, and counted behind the others. -/
theorem absentTables_append_singleton (registry : Table.Registry) (names : List (Option Text))
    (name : Option Text) :
    absentTables registry (names ++ [name]) = absentTables registry names ++
      lossesOf .unresolvedTable (.series (names.length + 1))
        (name.filter fun name => (registry.find? name).isNone).toList := by
  simp [absentTables, List.zipIdx_append]

/-! ## What a payload is drawn as -/

/-- A table is named by a control sequence and nothing else, blanks aside. -/
theorem trim_of_tableName? {content name : Text} (h : Table.tableName? content = some name) :
    Text.trim content = '\\' :: name := by
  unfold Table.tableName? at h
  split at h
  next heq =>
    split at h
    next =>
      obtain rfl := Option.some.inj h
      exact heq
    next => cases h
  next => cases h

section
variable (defined registry first second : Table.Registry)

/-- The rows of a name are those that are defined, or else those of the registry. -/
theorem tableRows_name {content name : Text} (h : Table.tableName? content = some name) :
    tableRows ⟨defined, registry⟩ content =
      ((defined.find? name).getD (registryRows registry name),
        ((some name).filter fun name => (defined.find? name).isNone).filter
          fun name => (registry.find? name).isNone) := by
  rw [tableRows, h]
  simp only [Tables.find?, registryRows]
  cases hdefined : defined.find? name with
  | some rows => simp [Option.filter_some, hdefined]
  | none =>
    cases hregistry : registry.find? name with
    | some rows => simp [Option.filter_some, hdefined, hregistry]
    | none => simp [Option.filter_some, hdefined, hregistry, trim_of_tableName? h]

variable (place : Loss.Place) (isSurface : Bool) (options : SeriesOptions) (payload : Payload)

/-- A payload is drawn with the rows of its table, and recorded when there are none. -/
theorem kindOf_draws :
    Draws defined registry payload (kindOf ⟨defined, registry⟩ place isSurface options payload).1 ∧
      unresolvedTables (kindOf ⟨defined, registry⟩ place isSurface options payload).2 =
        lossesOf .unresolvedTable place ((payload.outsideTable? defined).filter
          fun name => (registry.find? name).isNone).toList := by
  cases payload with
  | coordinates body => exact ⟨nofun, rfl⟩
  | function expression => exact ⟨nofun, unresolvedTables_lossesOf .unknownOption _ _⟩
  | table tableOptions content =>
    have hlosses : unresolvedTables
        (kindOf ⟨defined, registry⟩ place isSurface options (.table tableOptions content)).2 =
          lossesOf .unresolvedTable place (tableRows ⟨defined, registry⟩ content).2.toList := by
      show unresolvedTables (lossesOf _ _ _ ++ lossesOf _ _ _) = _
      rw [unresolvedTables_append, unresolvedTables_lossesOf, unresolvedTables_lossesOf,
        if_neg (by decide), if_pos rfl, List.nil_append]
      rfl
    rw [hlosses, Payload.outsideTable?, Payload.tableName?]
    cases hname : Table.tableName? content with
    | none =>
      refine ⟨fun name hmem => ?_, ?_⟩
      · rw [Payload.tableName?, hname] at hmem
        cases hmem
      · rw [tableRows_of_no_name hname]
        rfl
    | some name =>
      refine ⟨fun other hmem => ⟨_, rfl, ?_⟩, ?_⟩
      · rw [Payload.tableName?, hname] at hmem
        obtain rfl := Option.some.inj hmem
        show (tableRows ⟨defined, registry⟩ content).1 = _
        rw [tableRows_name defined registry hname]
      · rw [tableRows_name defined registry hname]

/-- With another registry a payload is drawn with rows of that one, where the source text leaves the
table to it. -/
theorem kindOf_registries :
    (kindOf ⟨defined, second⟩ place isSurface options payload).1 =
        (kindOf ⟨defined, first⟩ place isSurface options payload).1.supply second
          (payload.outsideTable? defined) ∧
      otherLosses (kindOf ⟨defined, second⟩ place isSurface options payload).2 =
        otherLosses (kindOf ⟨defined, first⟩ place isSurface options payload).2 := by
  cases payload with
  | coordinates body => exact ⟨(Kind.supply_none second _).symm, rfl⟩
  | function expression => exact ⟨(Kind.supply_none second _).symm, rfl⟩
  | table tableOptions content =>
    have hothers (tables : Tables) :
        otherLosses (kindOf tables place isSurface options (.table tableOptions content)).2 =
          otherLosses (lossesOf .unknownOption place
            (readOptions TableOptions.addOption {} tableOptions).2) := by
      show otherLosses (_ ++ lossesOf _ _ _) = _
      rw [otherLosses_append, otherLosses_unresolvedTable, List.append_nil]
      rfl
    refine ⟨?_, (hothers _).trans (hothers _).symm⟩
    have hkind (tables : Tables) :
        (kindOf tables place isSurface options (.table tableOptions content)).1 =
          .data ⟨options.dataType.getD .line, (tableRows tables content).1,
            (readOptions TableOptions.addOption {} tableOptions).1.xColumn,
            (readOptions TableOptions.addOption {} tableOptions).1.yColumn,
            (readOptions TableOptions.addOption {} tableOptions).1.hasHeader⟩ := rfl
    rw [hkind, hkind, Payload.outsideTable?, Payload.tableName?]
    cases hname : Table.tableName? content with
    | none =>
      rw [tableRows_of_no_name hname, tableRows_of_no_name hname]
      exact (Kind.supply_none second _).symm
    | some name =>
      rw [tableRows_name defined second hname, tableRows_name defined first hname]
      cases hdefined : defined.find? name with
      | some rows => simp [Option.filter_some, hdefined, Kind.supply]
      | none => simp [Option.filter_some, hdefined, Kind.supply]

end

/-! ## Series with rows supplied -/

section
variable (registry : Table.Registry) {names : List (Option Text)}

/-- Series keep their identities when rows are supplied. -/
theorem map_id_supplySeries (names : List (Option Text)) (series : List Series) :
    (supplySeries registry names series).map (·.id) = series.map (·.id) := by
  induction series generalizing names with
  | nil => cases names <;> rfl
  | cons first rest ih =>
    cases names with
    | nil => rfl
    | cons name names => exact congrArg (first.id :: ·) (ih names)

theorem length_supplySeries (names : List (Option Text)) (series : List Series) :
    (supplySeries registry names series).length = series.length := by
  have h := congrArg List.length (map_id_supplySeries registry names series)
  rwa [List.length_map, List.length_map] at h

/-- A series more has rows supplied by its own name. -/
theorem supplySeries_append {series : List Series} (h : series.length = names.length)
    (names' : List (Option Text)) (series' : List Series) :
    supplySeries registry (names ++ names') (series ++ series') =
      supplySeries registry names series ++ supplySeries registry names' series' := by
  induction series generalizing names with
  | nil =>
    obtain rfl := List.length_eq_zero_iff.mp h.symm
    rfl
  | cons first rest ih =>
    cases names with
    | nil => cases h
    | cons name names => exact congrArg (_ :: ·) (ih (Nat.succ.inj h))

/-- Labels are given whatever the rows are. -/
theorem supplySeries_applyLegends (names : List (Option Text)) (series : List Series)
    (labels : List Text) :
    supplySeries registry names (applyLegends series labels) =
      applyLegends (supplySeries registry names series) labels := by
  induction series generalizing names labels with
  | nil => cases labels <;> cases names <;> rfl
  | cons first rest ih =>
    cases names with
    | nil => cases labels <;> rfl
    | cons name names =>
      cases labels with
      | nil => rfl
      | cons label labels => exact congrArg (_ :: ·) (ih names labels)

/-- Labels leave what is drawn. -/
theorem map_kind_applyLegends (series : List Series) (labels : List Text) :
    (applyLegends series labels).map (·.kind) = series.map (·.kind) := by
  induction series generalizing labels with
  | nil => cases labels <;> rfl
  | cons first rest ih =>
    cases labels with
    | nil => rfl
    | cons label labels => exact congrArg (first.kind :: ·) (ih labels)

/-- A series is appended under the same identity whatever the rows of the others are. -/
theorem supply_push {chart : Chart} (h : chart.series.length = names.length) (name : Option Text)
    (style : Style) (kind : Kind) :
    ((supply registry names chart).push style (kind.supply registry name)).2 =
      supply registry (names ++ [name]) (chart.push style kind).2 := by
  rw [supply, supply, push, push]
  simp only [map_id_supplySeries, supplySeries_append registry h]
  rfl

end

/-! ## Taking the statements -/

/-- A reading in step with another one whose registry supplies the rows of given tables. -/
structure InStep (second : Table.Registry) (names : List (Option Text))
    (reading reading' : Reading) : Prop where
  count : reading.chart.series.length = names.length
  chart : reading'.chart = supply second names reading.chart
  others : otherLosses reading'.losses = otherLosses reading.losses

/-- A reading with the rows of its tables and with a loss for each that is missing. -/
structure Tabulated (defined registry : Table.Registry) (payloads : List Payload)
    (reading : Reading) : Prop where
  kinds : List.Forall₂ (Draws defined registry) payloads (reading.chart.series.map (·.kind))
  missing : unresolvedTables reading.losses =
    absentTables registry (payloads.map (Payload.outsideTable? defined))

section
variable {defined registry second : Table.Registry}

/-- What a series adds to a reading. -/
theorem take_series (tables : Tables) (reading : Reading) (isSurface : Bool) (optionText : Text)
    (payload : Payload) (legend : Option Text) :
    reading.take tables (.series isSurface optionText (some payload) legend) =
      let place := Loss.Place.series (reading.chart.series.length + 1)
      let options := readOptions SeriesOptions.addOption {} optionText
      let drawn := kindOf tables place isSurface options.1 payload
      { chart := (reading.chart.push { options.1.style with legend := legend.getD [] } drawn.1).2
        losses := reading.losses ++ lossesOf .unknownOption place options.2 ++ drawn.2 } := rfl

/-- Readings in step have read the same number of series. -/
theorem InStep.length_eq {names : List (Option Text)} {reading reading' : Reading}
    (h : InStep second names reading reading') :
    reading'.chart.series.length = reading.chart.series.length := by
  rw [h.chart]
  exact length_supplySeries second names _

/-- A statement keeps two readings in step. -/
theorem InStep.take {names : List (Option Text)} {reading reading' : Reading}
    (h : InStep second names reading reading') (defined first : Table.Registry)
    (statement : Statement) :
    InStep second (names ++ statement.payloads.map (Payload.outsideTable? defined))
      (reading.take ⟨defined, first⟩ statement) (reading'.take ⟨defined, second⟩ statement) := by
  cases statement with
  | unknown name =>
    rw [Statement.payloads, List.map_nil, List.append_nil]
    refine ⟨h.count, h.chart, ?_⟩
    show otherLosses (_ ++ _) = otherLosses (_ ++ _)
    rw [otherLosses_append, otherLosses_append, h.others]
  | legends labels =>
    rw [Statement.payloads, List.map_nil, List.append_nil]
    refine ⟨?_, ?_, h.others⟩
    · have hkinds := congrArg List.length
        (map_kind_applyLegends reading.chart.series (splitOptions labels))
      rw [List.length_map, List.length_map, h.count] at hkinds
      exact hkinds
    · show ({ reading'.chart with
        series := applyLegends reading'.chart.series (splitOptions labels) } : Chart) = _
      rw [h.chart, supply, supply]
      show _ = ({ reading.chart with
        series := supplySeries second names (applyLegends reading.chart.series _) } : Chart)
      rw [supplySeries_applyLegends]
  | series isSurface optionText payload legend =>
    cases payload with
    | none =>
      show InStep second (names ++ []) _ _
      rw [List.append_nil]
      refine ⟨h.count, h.chart, ?_⟩
      show otherLosses (_ ++ _ ++ _) = otherLosses (_ ++ _ ++ _)
      simp only [otherLosses_append, h.others, h.length_eq]
    | some payload =>
      -- the place of a loss counts the series, so that it is the same for both
      rw [take_series, take_series, h.length_eq]
      obtain ⟨hkind, hothers⟩ := kindOf_registries defined first second
        (.series (reading.chart.series.length + 1)) isSurface
        (readOptions SeriesOptions.addOption {} optionText).1 payload
      refine ⟨?_, ?_, ?_⟩
      · show (_ ++ [_]).length = (names ++ [_]).length
        rw [List.length_append, List.length_append, h.count]
        rfl
      · show (reading'.chart.push _ _).2 = supply second (names ++ [_]) _
        rw [hkind, h.chart, supply_push second h.count]
      · show otherLosses (_ ++ _ ++ _) = otherLosses (_ ++ _ ++ _)
        simp only [otherLosses_append, h.others, hothers]

/-- A run of statements keeps two readings in step. -/
theorem InStep.foldl {names : List (Option Text)} {reading reading' : Reading}
    (h : InStep second names reading reading') (defined first : Table.Registry)
    (statements : List Statement) :
    InStep second
      (names ++ (statements.flatMap Statement.payloads).map (Payload.outsideTable? defined))
      (statements.foldl (Reading.take ⟨defined, first⟩) reading)
      (statements.foldl (Reading.take ⟨defined, second⟩) reading') := by
  induction statements generalizing names reading reading' with
  | nil =>
    rw [List.flatMap_nil, List.map_nil, List.append_nil]
    exact h
  | cons statement rest ih =>
    rw [List.flatMap_cons, List.map_append, ← List.append_assoc]
    exact ih (h.take defined first statement)

/-- Readings in step have a chart both or none. -/
theorem InStep.outcome {names : List (Option Text)} {reading reading' : Reading}
    (h : InStep second names reading reading') :
    reading'.outcome.1 = reading.outcome.1.map (supply second names) := by
  rw [Reading.outcome, Reading.outcome]
  simp only [List.isEmpty_iff_length_eq_zero, h.length_eq]
  split
  next => rfl
  next => exact congrArg Except.ok h.chart

/-- A statement adds the rows of its table, or a loss. -/
theorem Tabulated.take {payloads : List Payload} {reading : Reading}
    (h : Tabulated defined registry payloads reading) (statement : Statement) :
    Tabulated defined registry (payloads ++ statement.payloads)
      (reading.take ⟨defined, registry⟩ statement) := by
  have hcount : reading.chart.series.length = payloads.length := by
    rw [h.kinds.length_eq, List.length_map]
  cases statement with
  | unknown name =>
    rw [Statement.payloads, List.append_nil]
    refine ⟨h.kinds, ?_⟩
    show unresolvedTables (_ ++ _) = _
    rw [unresolvedTables_append, unresolvedTables_lossesOf, if_neg (by decide), List.append_nil,
      h.missing]
  | legends labels =>
    rw [Statement.payloads, List.append_nil]
    refine ⟨?_, h.missing⟩
    show List.Forall₂ _ _ ((applyLegends reading.chart.series _).map (·.kind))
    rw [map_kind_applyLegends]
    exact h.kinds
  | series isSurface optionText payload legend =>
    cases payload with
    | none =>
      show Tabulated defined registry (payloads ++ []) _
      rw [List.append_nil]
      refine ⟨h.kinds, ?_⟩
      show unresolvedTables (_ ++ _ ++ _) = _
      simp only [unresolvedTables_append, unresolvedTables_lossesOf, h.missing, reduceCtorEq,
        if_false, List.append_nil]
    | some payload =>
      rw [take_series]
      obtain ⟨hdraws, hmissing⟩ := kindOf_draws defined registry
        (.series (reading.chart.series.length + 1)) isSurface
        (readOptions SeriesOptions.addOption {} optionText).1 payload
      refine ⟨?_, ?_⟩
      · show List.Forall₂ _ (payloads ++ [payload]) ((reading.chart.series ++ [_]).map Series.kind)
        rw [List.map_append]
        exact List.rel_append h.kinds (.cons hdraws .nil)
      · show unresolvedTables (_ ++ _ ++ _) = absentTables registry ((payloads ++ [payload]).map _)
        rw [unresolvedTables_append, unresolvedTables_append, unresolvedTables_lossesOf,
          if_neg (by decide), List.append_nil, h.missing, hmissing, List.map_append]
        show _ = absentTables registry (_ ++ [_])
        rw [absentTables_append_singleton, List.length_map, hcount]

/-- A run of statements adds the rows of its tables, or losses. -/
theorem Tabulated.foldl {payloads : List Payload} {reading : Reading}
    (h : Tabulated defined registry payloads reading) (statements : List Statement) :
    Tabulated defined registry (payloads ++ statements.flatMap Statement.payloads)
      (statements.foldl (Reading.take ⟨defined, registry⟩) reading) := by
  induction statements generalizing payloads reading with
  | nil =>
    rw [List.flatMap_nil, List.append_nil]
    exact h
  | cons statement rest ih =>
    rw [List.flatMap_cons, ← List.append_assoc]
    exact ih (h.take statement)

end

/-! ## A source text with two registries -/

section
variable (code : Text) (registry first second : Table.Registry)

/-- Where a text holds no axis, nothing is read of it. -/
theorem readReport_of_no_axis (h : axisEnvironment? code = none) :
    readReport registry code = (.error .axis, []) := by
  rw [readReport, h]

/-- What is read of the first axis, statement by statement. -/
theorem readReport_of_axis {options body : Text}
    (h : axisEnvironment? code = some (options, body)) :
    readReport registry code =
      ((statements body).foldl (Reading.take ⟨Table.collect code, registry⟩)
        (startReading options)).outcome := by
  rw [readReport, h]
  rfl

/-- The payloads of a code are those of the statements in its axis. -/
theorem payloads_of_axis {options body : Text} (h : axisEnvironment? code = some (options, body)) :
    payloads code = (statements body).flatMap Statement.payloads := by
  rw [payloads, h]

/-- With another registry the chart is the same but for the rows that are supplied, and the losses
are the same but for missing tables. -/
theorem readReport_inStep :
    readWith second code = (readWith first code).map (supply second (outsideTables code)) ∧
      otherLosses (readReport second code).2 = otherLosses (readReport first code).2 := by
  rw [readWith, readWith]
  cases haxis : axisEnvironment? code with
  | none =>
    rw [readReport_of_no_axis code first haxis, readReport_of_no_axis code second haxis]
    exact ⟨rfl, rfl⟩
  | some environment =>
    obtain ⟨options, body⟩ := environment
    have hstart : InStep second [] (startReading options) (startReading options) := ⟨rfl, rfl, rfl⟩
    have hrun := hstart.foldl (Table.collect code) first (statements body)
    rw [List.nil_append, ← payloads_of_axis code haxis] at hrun
    rw [readReport_of_axis code first haxis, readReport_of_axis code second haxis]
    exact ⟨hrun.outcome, hrun.others⟩

/-- The series of the chart show the rows of their tables, and the missing tables are those that the
registry lacks. -/
theorem readReport_tabulated :
    (∀ chart, readWith registry code = .ok chart →
      List.Forall₂ (Draws (Table.collect code) registry) (payloads code)
        (chart.series.map (·.kind))) ∧
      unresolvedTables (readReport registry code).2 =
        absentTables registry (outsideTables code) := by
  rw [readWith, outsideTables]
  cases haxis : axisEnvironment? code with
  | none =>
    rw [readReport_of_no_axis code registry haxis, payloads, haxis]
    refine ⟨fun chart hchart => ?_, rfl⟩
    cases hchart
  | some environment =>
    obtain ⟨options, body⟩ := environment
    have hstart : Tabulated (Table.collect code) registry [] (startReading options) :=
      ⟨.nil, unresolvedTables_lossesOf .unknownOption _ _⟩
    have hrun := hstart.foldl (statements body)
    rw [List.nil_append, ← payloads_of_axis code haxis] at hrun
    rw [readReport_of_axis code registry haxis]
    refine ⟨fun chart hchart => ?_, hrun.missing⟩
    rw [Reading.outcome] at hchart
    split at hchart
    next => cases hchart
    next =>
      obtain rfl := Except.ok.inj hchart
      exact hrun.kinds

/-- A registry decides about the rows of tables that the source text does not define, and about
nothing else. With two registries a source text is read as no chart for the same reason (so that
reading it again without any tells the reason), or as charts that differ in such rows only, those of
a table that the source text defines coming from there. The losses differ in missing tables only, of
which there is one for each series whose table the registry lacks. -/
theorem readReport_registries :
    (∀ missing, readWith first code = .error missing ↔ readWith second code = .error missing) ∧
    readWith second code = (readWith first code).map (supply second (outsideTables code)) ∧
    (∀ chart, readWith first code = .ok chart →
      List.Forall₂ (Draws (Table.collect code) first) (payloads code)
        (chart.series.map (·.kind))) ∧
    otherLosses (readReport second code).2 = otherLosses (readReport first code).2 ∧
    unresolvedTables (readReport first code).2 = absentTables first (outsideTables code) := by
  obtain ⟨hchart, hothers⟩ := readReport_inStep code first second
  obtain ⟨hdraws, habsent⟩ := readReport_tabulated code first
  refine ⟨fun missing => ?_, hchart, hdraws, hothers, habsent⟩
  rw [hchart]
  cases readWith first code with
  | error reason => exact Iff.rfl
  | ok chart => exact ⟨nofun, nofun⟩

end

/-- A chart that shows a table of its own, one that a registry may hold, and one that none does. -/
def tabulated : Text :=
  "\\pgfplotstableread\x7b1 2\x7d\\own" ++ "\\begin\x7baxis\x7d" ++
    "\\addplot table\x7b\\own\x7d;" ++ "\\addplot[wide]table\x7b\\held\x7d;" ++
    "\\addplot table\x7b\\lost\x7d;" ++ "\\end\x7baxis\x7d"

/-- A registry with rows for two of its tables. -/
def holding : Table.Registry := [("own", "9 9"), ("held", "5 6")]

theorem readReport_registries_tabulated :
    readWith [] tabulated =
      (readWith holding tabulated).map
        (supply [] [none, some ("held" : Text), some ("lost" : Text)]) ∧
    (∃ chart, readWith holding tabulated = .ok chart ∧
      List.Forall₂ (Draws [("own", "1 2")] holding) (payloads tabulated)
        (chart.series.map (·.kind))) ∧
    otherLosses (readReport [] tabulated).2 = [⟨.unknownOption, "wide", .series 2⟩] ∧
    unresolvedTables (readReport holding tabulated).2 =
      [⟨.unresolvedTable, "lost", .series 3⟩] := by
  obtain ⟨-, hchart, hdraws, hothers, habsent⟩ := readReport_registries tabulated holding []
  have houtside : outsideTables tabulated = [none, some ("held" : Text), some ("lost" : Text)] := by
    decide +kernel
  have hcollect : Table.collect tabulated = [(("own" : Text), ("1 2" : Text))] := by
    decide +kernel
  rw [houtside] at hchart habsent
  rw [hcollect] at hdraws
  refine ⟨hchart, ?_, ?_, habsent⟩
  · cases hread : readWith holding tabulated with
    | ok chart => exact ⟨chart, rfl, hdraws chart hread⟩
    | error missing =>
      have hok : (readWith holding tabulated).isOk = true := by decide +kernel
      rw [hread] at hok
      cases hok
  · rw [hothers]
    decide +kernel

end TexFigure.Chart
