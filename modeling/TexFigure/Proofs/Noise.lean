import TexFigure.Proofs.Pieces
/-!
# Series with other statements around them

A chart is made of its series alone, and a command that means nothing to it is a loss and nothing
else. One statement that means nothing leaves the chart as it is, so that a run makes the chart of
the other statements (`chart_foldl`); and the commands that it records are its own
(`unknownCommands_foldl`). With the pieces of a body for statements, this says that the series are
read as if nothing stood between them:

> `readReport_inAxis`: the chart is that of the series alone, and the unknown commands among the
> losses are those of the pieces in order.

The series have to be well-formed as those of a stable chart are: one whose coordinates open a group
takes in what follows it (`unknownCommand_taken_in`).
-/

namespace TexFigure.Chart

open Source

/-! ## Tables of the text around -/

/-- A command is first found behind a character that it does not hold, when it does not occur in
front of it. -/
theorem afterCommand?_behind {name text : Text} {c : Char} (hc : c ∉ name)
    (h : ¬name <:+: text) (after : Text) :
    afterCommand? name (text ++ c :: after) = afterCommand? name after := by
  have hpass {before : Text} (hbefore : ¬name <:+: before) :
      name.isPrefixOf? (before ++ c :: after) = none :=
    Text.isPrefixOf?_eq_none fun hprefix =>
      hbefore (Text.prefix_of_prefix_append_cons hc hprefix).isInfix
  induction text with
  | nil =>
    have hnone := hpass h
    rw [List.nil_append] at hnone ⊢
    rw [afterCommand?, cutAtCommand, hnone, Option.map_map]
    rfl
  | cons d text ih =>
    have htext : ¬name <:+: text := fun hin => h (hin.trans (List.suffix_cons d text).isInfix)
    have hnone := hpass h
    rw [List.cons_append] at hnone ⊢
    rw [← ih htext, afterCommand?, cutAtCommand, hnone, Option.map_map]
    rfl

/-- The tables of a text are those behind such a character. -/
theorem collect_behind {text : Text} {c : Char} (hc : c ∉ Table.readCommand)
    (h : ¬Table.readCommand <:+: text) (after : Text) :
    Table.collect (text ++ c :: after) = Table.collect after := by
  have hfound := afterCommand?_behind hc h after
  have hdefinitions : Table.definitions (text ++ c :: after) = Table.definitions after := by
    rw [Table.definitions, Table.definitions]
    split
    next hnone =>
      rw [hfound] at hnone
      split
      next => rfl
      next heq =>
        rw [hnone] at heq
        cases heq
    next behind hsome =>
      rw [hfound] at hsome
      split
      next heq =>
        rw [hsome] at heq
        cases heq
      next heq =>
        rw [hsome] at heq
        cases heq
        rfl
  rw [Table.collect, hdefinitions]
  rfl

/-! ## Taking the statements -/

/-- Whether a statement means nothing to a chart. -/
def Statement.isUnknown : Statement → Bool
  | .unknown _ => true
  | _ => false

/-- What is lost with a statement that means nothing to a chart. -/
def Statement.unknownLosses : Statement → List Loss
  | .unknown name => [⟨.unknownCommand, name, .axis⟩]
  | _ => []

/-- The losses that are unknown commands. -/
def unknownCommands (losses : List Loss) : List Loss := losses.filter (·.kind = .unknownCommand)

theorem unknownCommands_lossesOf {kind : Loss.Kind} (h : kind ≠ .unknownCommand)
    (place : Loss.Place) (names : List Text) :
    unknownCommands (lossesOf kind place names) = [] := by
  refine List.filter_eq_nil_iff.mpr fun loss hloss => ?_
  obtain ⟨name, -, rfl⟩ := List.mem_map.mp hloss
  simpa using h

theorem unknownCommands_append (losses losses' : List Loss) :
    unknownCommands (losses ++ losses') = unknownCommands losses ++ unknownCommands losses' := by
  simp only [unknownCommands, List.filter_append]

section
variable {tables : Tables}

/-- What is dropped for a payload is no command. -/
theorem unknownCommands_kindOf (place : Loss.Place) (isSurface : Bool) (options : SeriesOptions)
    (payload : Payload) :
    unknownCommands (kindOf tables place isSurface options payload).2 = [] := by
  cases payload with
  | coordinates body => rfl
  | table tableOptions content =>
    show unknownCommands (_ ++ _) = []
    rw [unknownCommands_append, unknownCommands_lossesOf (by decide),
      unknownCommands_lossesOf (by decide)]
    rfl
  | function expression => exact unknownCommands_lossesOf (by decide) _ _

/-- A statement records an unknown command only when it is one. -/
theorem unknownCommands_take (reading : Reading) (statement : Statement) :
    unknownCommands (reading.take tables statement).losses =
      unknownCommands reading.losses ++ statement.unknownLosses := by
  cases statement with
  | series isSurface options payload legend =>
    cases payload with
    | none =>
      show unknownCommands (_ ++ _ ++ _) = _ ++ []
      rw [unknownCommands_append, unknownCommands_append, unknownCommands_lossesOf (by decide),
        unknownCommands_lossesOf (by decide)]
      simp
    | some payload =>
      have hlosses :
          (reading.take tables (.series isSurface options (some payload) legend)).losses =
          reading.losses ++ lossesOf .unknownOption (.series (reading.chart.series.length + 1))
              (readOptions SeriesOptions.addOption {} options).2 ++
            (kindOf tables (.series (reading.chart.series.length + 1)) isSurface
              (readOptions SeriesOptions.addOption {} options).1 payload).2 := rfl
      rw [hlosses, unknownCommands_append, unknownCommands_append, unknownCommands_kindOf,
        unknownCommands_lossesOf (by decide)]
      simp [Statement.unknownLosses]
  | legends labels => exact (List.append_nil _).symm
  | unknown name => exact unknownCommands_append _ _

/-- The unknown commands of a run are those of its statements in order. -/
theorem unknownCommands_foldl (reading : Reading) (statements : List Statement) :
    unknownCommands (statements.foldl (Reading.take tables) reading).losses =
      unknownCommands reading.losses ++ statements.flatMap Statement.unknownLosses := by
  induction statements generalizing reading with
  | nil => simp
  | cons first rest ih =>
    rw [List.foldl_cons, ih, unknownCommands_take, List.flatMap_cons, List.append_assoc]

/-- What a statement makes of a chart does not depend on what was dropped. -/
theorem chart_take_congr {reading reading' : Reading} (h : reading.chart = reading'.chart)
    (statement : Statement) :
    (reading.take tables statement).chart = (reading'.take tables statement).chart := by
  obtain ⟨chart, losses⟩ := reading
  obtain ⟨chart', losses'⟩ := reading'
  obtain rfl : chart = chart' := h
  cases statement with
  | series isSurface options payload legend => cases payload <;> rfl
  | legends labels => rfl
  | unknown name => rfl

/-- A run makes the chart of its statements without those that mean nothing. -/
theorem chart_foldl {reading reading' : Reading} (h : reading.chart = reading'.chart)
    (statements : List Statement) :
    (statements.foldl (Reading.take tables) reading).chart =
      ((statements.filter (!·.isUnknown)).foldl (Reading.take tables) reading').chart := by
  induction statements generalizing reading reading' with
  | nil => exact h
  | cons first rest ih =>
    by_cases hunknown : first.isUnknown = true
    · -- the chart stays as it is, whichever way the losses grow
      have hsame : (reading.take tables first).chart = reading'.chart := by
        cases first with
        | unknown name => exact h
        | series => cases hunknown
        | legends => cases hunknown
      rw [List.foldl_cons, List.filter_cons_of_neg (by simp [hunknown])]
      exact ih hsame
    · rw [List.foldl_cons, List.filter_cons_of_pos (by simp [hunknown]), List.foldl_cons]
      exact ih (chart_take_congr h first)

end

/-! ## The axis around a body -/

/-- Text around a body that leaves it alone: in front of it no other axis starts and no table is
defined, and the groups of the options nest. -/
structure IsAround (before : Text) (options : Option Text) : Prop where
  noAxis : ¬axisStart <:+: before
  noTable : ¬Table.readCommand <:+: before
  nested : ∀ text ∈ options, IsNested text
  noTableInside : ∀ text ∈ options, ¬Table.readCommand <:+: text

instance (before : Text) (options : Option Text) : Decidable (IsAround before options) :=
  decidable_of_iff
    ((Text.contains before axisStart = false ∧ Text.contains before Table.readCommand = false) ∧
      ∀ text ∈ options, IsNested text ∧ Text.contains text Table.readCommand = false)
    (by
      simp only [← Bool.not_eq_true, Text.contains_iff]
      constructor
      · rintro ⟨⟨hnoAxis, hnoTable⟩, hinside⟩
        exact ⟨hnoAxis, hnoTable, fun text ht => (hinside text ht).1,
          fun text ht => (hinside text ht).2⟩
      · intro h
        exact ⟨⟨h.noAxis, h.noTable⟩, fun text ht => ⟨h.nested text ht, h.noTableInside text ht⟩⟩)

/-- What is read before the first statement of a body. -/
def startReading (options : Text) : Reading :=
  ⟨{ axis := (readOptions Axis.addOption {} options).1 },
    lossesOf .unknownOption .axis (readOptions Axis.addOption {} options).2⟩

/-- What is reported behind the last statement. -/
def Reading.outcome (reading : Reading) : Except Missing Chart × List Loss :=
  (if reading.chart.series.isEmpty then .error .series else .ok reading.chart, reading.losses)

section
variable {registry : Table.Registry} {before : Text} {options : Option Text} {body after : Text}

/-- Tables are defined behind the axis only. -/
theorem collect_inAxis (haround : IsAround before options) (hbody : ¬Table.readCommand <:+: body) :
    Table.collect (inAxis before options body after) = Table.collect after := by
  have hnot {text word : Text} (htext : ¬Table.readCommand <:+: text)
      (hword : ¬Table.readCommand <:+: '\\' :: word) :
      ¬Table.readCommand <:+: text ++ '\\' :: word := fun hin =>
    (Text.infix_append_backslash (by decide) hin).elim htext hword
  have hstart : axisStart = '\\' :: "begin\x7baxis".toList ++ ['}'] := rfl
  have hend : axisEnd = '\\' :: "end\x7baxis".toList ++ ['}'] := rfl
  -- the last brace of each phrase is where the search for definitions can go on
  have hopen : ¬Table.readCommand <:+: before ++ '\\' :: "begin\x7baxis".toList :=
    hnot haround.noTable fun hin => absurd (Text.contains_iff.mpr hin) (by decide)
  have hclose : ¬Table.readCommand <:+: body ++ '\\' :: "end\x7baxis".toList :=
    hnot hbody fun hin => absurd (Text.contains_iff.mpr hin) (by decide)
  have hhead (rest : Text) : Table.collect (writeHead options ++ rest) = Table.collect rest := by
    cases options with
    | none => rfl
    | some text =>
      have hinside : ¬Table.readCommand <:+: '[' :: text := fun hin =>
        haround.noTableInside text rfl (Text.infix_of_infix_cons (by decide) hin)
      rw [← collect_behind (c := ']') (by decide) hinside rest]
      show Table.collect ('[' :: text ++ [']'] ++ rest) = _
      rw [List.append_assoc]
      rfl
  calc Table.collect (inAxis before options body after)
      = Table.collect ((before ++ '\\' :: "begin\x7baxis".toList) ++
          '}' :: (writeHead options ++ (body ++ axisEnd ++ after))) := by
        rw [inAxis, hstart]
        simp only [List.append_assoc, List.cons_append, List.nil_append]
    _ = Table.collect ((body ++ '\\' :: "end\x7baxis".toList) ++ '}' :: after) := by
        rw [collect_behind (by decide) hopen, hhead, hend]
        simp only [List.append_assoc, List.cons_append, List.nil_append]
    _ = Table.collect after := collect_behind (by decide) hclose after

/-- The statements of a body are taken one after another. -/
theorem readReport_inAxis_eq (haround : IsAround before options) (hbody : IsSilent body)
    (hbrackets : brackets? (body ++ axisEnd ++ after) = none) :
    readReport registry (inAxis before options body after) =
      ((statements body).foldl (Reading.take ⟨Table.collect after, registry⟩)
        (startReading (options.getD []))).outcome := by
  rw [readReport, axisEnvironment?_inAxis haround.noAxis haround.nested hbody.1 hbrackets]
  simp only [collect_inAxis haround hbody.2]
  rfl

end

/-! ## The series of a body -/

section
variable {items : List Item}

theorem filter_statements (items : List Item) :
    (items.filterMap Item.statement?).filter (!·.isUnknown) =
      (items.filterMap Item.series?).map Series.statement := by
  induction items with
  | nil => rfl
  | cons item rest ih =>
    cases item with
    | series s => exact congrArg (s.statement :: ·) ih
    | command name arguments => exact ih
    | comment line => exact ih
    | drawing name text => exact ih
    | blank c => exact ih

theorem unknownLosses_statements (items : List Item) :
    (items.filterMap Item.statement?).flatMap Statement.unknownLosses =
      lossesOf .unknownCommand .axis (items.filterMap Item.unknown?) := by
  induction items with
  | nil => rfl
  | cons item rest ih =>
    cases item with
    | series s => exact ih
    | command name arguments => exact congrArg (⟨.unknownCommand, '\\' :: name, .axis⟩ :: ·) ih
    | comment line => exact ih
    | drawing name text => exact congrArg (⟨.unknownCommand, '\\' :: name, .axis⟩ :: ·) ih
    | blank c => exact ih

/-- No brackets are found where a body of pieces starts. -/
theorem brackets?_writeItems (h : ∀ item ∈ items, item.IsSound) (after : Text) :
    brackets? (writeItems items ++ axisEnd ++ after) = none := by
  have hapart := isApart_writeItems h
  refine brackets?_eq_none ?_
  rw [List.append_assoc, Text.skipBlanks, List.dropWhile_append]
  split
  next => exact fun heq => by cases heq
  next hne =>
    have hnil : (writeItems items).dropWhile isAsciiBlank ≠ [] :=
      fun heq => hne (List.isEmpty_iff.mpr heq)
    rw [List.head?_append_of_ne_nil _ hnil]
    exact hapart.head_ne (by decide)

section
variable {registry : Table.Registry} {before after : Text} {options : Option Text}

/-- The statements of the pieces are taken one after another. -/
theorem readReport_writeItems (haround : IsAround before options)
    (hitems : ∀ item ∈ items, item.IsSound) (hsilent : ∀ item ∈ items, IsSilent item.write) :
    readReport registry (inAxis before options (writeItems items) after) =
      ((items.filterMap Item.statement?).foldl (Reading.take ⟨Table.collect after, registry⟩)
        (startReading (options.getD []))).outcome := by
  have hread := @readReport_inAxis_eq registry _ _ _ after haround
    (isSilent_writeItems hitems hsilent) (brackets?_writeItems hitems after)
  rw [statements_items hitems] at hread
  exact hread

/-- The chart of a body is that of its series alone. -/
theorem readReport_series (haround : IsAround before options)
    (hitems : ∀ item ∈ items, item.IsSound) (hsilent : ∀ item ∈ items, IsSilent item.write) :
    (readReport registry (inAxis before options (writeItems items) after)).1 =
      (((items.filterMap Item.series?).map Series.statement).foldl
        (Reading.take ⟨Table.collect after, registry⟩)
          (startReading (options.getD []))).outcome.1 := by
  have hchart := @chart_foldl ⟨Table.collect after, registry⟩ (startReading (options.getD []))
    _ rfl (items.filterMap Item.statement?)
  rw [filter_statements] at hchart
  rw [readReport_writeItems haround hitems hsilent, Reading.outcome, hchart]
  rfl

theorem isSound_of_mem {series : Series} (hitems : ∀ item ∈ items, item.IsSound)
    (h : series ∈ items.filterMap Item.series?) :
    (Item.series series).IsSound ∧ series.IsSound := by
  obtain ⟨item, hitem, heq⟩ := List.mem_filterMap.mp h
  have hsound := hitems item hitem
  cases item with
  | series s =>
    obtain rfl : s = series := Option.some.inj heq
    exact ⟨hsound, isSound_series hsound.1 hsound.2.1 hsound.2.2⟩
  | command => cases heq
  | comment => cases heq
  | drawing => cases heq
  | blank => cases heq

/-- A body of sound pieces is read as the chart of its series alone, each with its own style, kind
and legend when no tables are defined elsewhere, and the unknown commands among the losses are those
of its pieces in order. -/
theorem readReport_inAxis (haround : IsAround before options)
    (hitems : ∀ item ∈ items, item.IsSound) (hsilent : ∀ item ∈ items, IsSilent item.write) :
    (readReport registry (inAxis before options (writeItems items) after)).1 =
        (readReport registry (inAxis before options
          ((items.filterMap Item.series?).flatMap writeSeries) after)).1 ∧
      unknownCommands (readReport registry (inAxis before options (writeItems items) after)).2 =
        lossesOf .unknownCommand .axis (items.filterMap Item.unknown?) ∧
      (registry = [] → ¬Table.readCommand <:+: after → items.filterMap Item.series? ≠ [] →
        (readReport registry (inAxis before options (writeItems items) after)).1 =
          .ok ⟨(readOptions Axis.addOption {} (options.getD [])).1,
            numbered 0 (items.filterMap Item.series?),
            min (items.filterMap Item.series?).length Identity.last⟩) := by
  have hchart := @readReport_series items registry before after options haround hitems hsilent
  refine ⟨?_, ?_, fun hregistry hafter hne => ?_⟩
  · -- the series alone are pieces too
    have halone : ∀ item ∈ (items.filterMap Item.series?).map Item.series, item.IsSound := by
      intro item hitem
      obtain ⟨series, hseries, rfl⟩ := List.mem_map.mp hitem
      exact (isSound_of_mem hitems hseries).1
    have hsilentAlone : ∀ item ∈ (items.filterMap Item.series?).map Item.series,
        IsSilent item.write := by
      intro item hitem
      obtain ⟨series, hseries, rfl⟩ := List.mem_map.mp hitem
      have hsilent := silent_writeSeries (isSound_of_mem hitems hseries).2
        (isSilent_of_unescaped (List.not_mem_nil (a := '\\')))
      rwa [List.append_nil] at hsilent
    have hread := @readReport_series _ registry before after options haround halone hsilentAlone
    have hsame : ((items.filterMap Item.series?).map Item.series).filterMap Item.series? =
        items.filterMap Item.series? := by
      rw [List.filterMap_map]
      exact List.filterMap_some
    rw [writeItems, List.flatMap_map, hsame] at hread
    rw [hchart]
    exact hread.symm
  · rw [readReport_writeItems haround hitems hsilent]
    show unknownCommands (Reading.losses (List.foldl _ _ _)) = _
    rw [unknownCommands_foldl, unknownLosses_statements]
    show unknownCommands (lossesOf _ _ _) ++ _ = _
    rw [unknownCommands_lossesOf (by decide), List.nil_append]
  · have hseries : ∀ s ∈ items.filterMap Item.series?, s.IsSound := fun s hs =>
      (isSound_of_mem hitems hs).2
    have hstart : IsNumbered (startReading (options.getD [])).chart := ⟨rfl, rfl⟩
    have hnonempty : (numbered 0 (items.filterMap Item.series?)).isEmpty = false := by
      obtain ⟨first, rest, heq⟩ := List.exists_cons_of_ne_nil hne
      rw [heq]
      rfl
    rw [hchart, hregistry, collect_eq_nil hafter, show (⟨[], []⟩ : Tables) = noTables from rfl,
      foldl_take hseries hstart, Reading.outcome]
    simp only [startReading, List.nil_append, List.length_nil, Nat.zero_add, hnonempty]
    rfl

end

end

/-- A body with commands, a comment and a drawing around a curve and an area. -/
def edited : List Item := [
  .blank '\n',
  .command "pgfplotsset" [⟨[], false, "compat=1.18"⟩, ⟨" ", true, "a=[b], \x7b[c]\x7d"⟩],
  .series ⟨4, { color := "blue", legend := "sine" }, .curve ⟨"sin(x) + ln(2)", (-5.0, 5.0), 0⟩⟩,
  .comment " rows of \\measured \x7b(",
  .drawing "draw" "[->] (0,0) -- (1;2, \x7b3;4\x7d) \\\\",
  .command "relax" [],
  .series ⟨4, {}, .ofRows .area "1 2\n\n3;4"⟩,
  .blank ' ']

theorem readReport_edited :
    (IsAround beforeAxis (some "xmin=0") ∧ (∀ item ∈ edited, item.IsSound) ∧
      ∀ item ∈ edited, IsSilent item.write) ∧
    (readReport [] (inAxis beforeAxis (some "xmin=0") (writeItems edited) afterAxis)).1 =
        (readReport [] (inAxis beforeAxis (some "xmin=0")
          ((edited.filterMap Item.series?).flatMap writeSeries) afterAxis)).1 ∧
      unknownCommands
          (readReport [] (inAxis beforeAxis (some "xmin=0") (writeItems edited) afterAxis)).2 =
        lossesOf .unknownCommand .axis ["\\pgfplotsset", "\\draw", "\\relax"] ∧
      (readReport [] (inAxis beforeAxis (some "xmin=0") (writeItems edited) afterAxis)).1 =
        .ok ⟨(readOptions Axis.addOption {} "xmin=0").1,
          numbered 0 (edited.filterMap Item.series?), 2⟩ := by
  have haround : IsAround beforeAxis (some "xmin=0") := by decide
  have hitems : ∀ item ∈ edited, item.IsSound := by decide +kernel
  have hsilent : ∀ item ∈ edited, IsSilent item.write := by decide +kernel
  have hafter : ¬Table.readCommand <:+: afterAxis := by
    rw [← Text.contains_iff]
    decide
  obtain ⟨halone, hlosses, hread⟩ := readReport_inAxis haround hitems hsilent
  exact ⟨⟨haround, hitems, hsilent⟩, halone, hlosses,
    hread rfl hafter (List.cons_ne_nil _ _)⟩

/-- A series whose coordinates open a group takes in the command behind it, although its rows
nest. -/
theorem unknownCommand_taken_in :
    let series : Series := ⟨0, {}, .ofRows .line "\x7b1,2,3\x7d"⟩
    let items : List Item := [.series series, .command "foo" []]
    series.kind.IsPlain ∧ (∀ text ∈ series.texts, IsQuiet text) ∧
      (Item.command "foo" []).IsSound ∧ (∀ item ∈ items, IsSilent item.write) ∧
        unknownCommands (readReport [] (inAxis [] none (writeItems items) [])).2 ≠
          lossesOf .unknownCommand .axis (items.filterMap Item.unknown?) := by
  decide +kernel

end TexFigure.Chart
