import TexFigure.Proofs.Settings
import TexFigure.Proofs.Stability
/-!
# Selected columns

The options of a table are settings: a column for each selector that is not empty, and two with
fixed values. Where they nest, the columns come back trimmed (`readOptions_tableOptions`). Where
they do not, the bracket in front of them is never closed, and the reader takes all that follows for
a part of the options. The last option then ends in what follows the table
(`exists_splitOptions_behind`), and it is a column (`readOptions_behind`).

Whether the rows are then written as before is told from how often a character occurs in them.
A blank selector has an option in front and none behind, so that an equals sign is lost
(`writeRows_trimmed_iff`); a column that takes in what follows also takes in the semicolon of the
series (`writeRows_ne_of_count`).
-/

namespace TexFigure

namespace Source

open Chart (setting)

/-! ## Settings with a text behind them -/

section
variable {keyed : List (Text × Text)}

/-- A setting nests when its value does once it is trimmed. -/
theorem isNested_writeSetting_iff {s : Text × Text} (hkey : IsSettingKey s.1)
    (hvalue : IsNested s.2) : IsNested (writeSetting s) ↔ IsNested (Text.trim s.2) := by
  have hwalk : walk? nestStep [] false (writeSetting s) =
      walk? nestStep [] false (optionValue s.2) :=
    walk?_setting (fun c hc e => nestStep_of_not_isDelimiter (hkey.chars c hc).2.2 [] e)
      (fun e => nestStep_of_not_isDelimiter rfl [] e) false _
  rw [IsNested, hwalk]
  rcases optionValue_cases_of_nested hvalue with ⟨heq, hnested | hopen⟩ | ⟨heq, -⟩
  · rw [heq]
    exact iff_of_true hnested.braced hnested
  · refine iff_of_false (fun h => ?_) hopen.2
    have hleft : walk? nestStep [] false (optionValue s.2) = some (['}'], false) :=
      walk?_nestStep_of_itemStep (walk?_of_leavesOpen hvalue hopen)
    rw [hleft] at h
    cases h
  · rw [heq]
    rfl

/-- Behind a setting that leaves no group open, what it escapes is the comma in front of the
next. -/
theorem walk?_join_settings {s next : Text × Text} {escaped : Bool}
    (h : walk? (itemStep ',') [] false (writeSetting s) = some ([], escaped))
    (rest : List (Text × Text)) :
    walk? nestStep [] false (Text.join ", " ((s :: next :: rest).map writeSetting)) =
      walk? nestStep [] false (Text.join ", " ((next :: rest).map writeSetting)) := by
  rw [join_settings, walk?_append, walk?_nestStep_of_itemStep h]
  cases escaped <;> rfl

/-- The groups of settings on one line stay in order, and what they leave open is a brace. -/
theorem exists_walk_settings (hkeys : ∀ s ∈ keyed, IsSettingKey s.1)
    (hvalues : ∀ s ∈ keyed, IsNested s.2) :
    ∃ final, walk? nestStep [] false (Text.join ", " (keyed.map writeSetting)) = some final ∧
      (final.1 = [] ∨ '}' ∈ final.1) := by
  induction keyed with
  | nil => exact ⟨([], false), rfl, Or.inl rfl⟩
  | cons s rest ih =>
    rcases walk_join_cases hkeys hvalues with ⟨-, final, hwalk, hfinal⟩ | ⟨-, e, hwalk⟩
    · exact ⟨final, walk?_nestStep_of_itemStep hwalk, Or.inr hfinal⟩
    · cases rest with
      | nil =>
        rw [List.map_singleton, Text.join_singleton]
        exact ⟨_, walk?_nestStep_of_itemStep hwalk, Or.inl rfl⟩
      | cons next rest =>
        rw [walk?_join_settings hwalk]
        exact ih (List.forall_mem_cons.mp hkeys).2 (List.forall_mem_cons.mp hvalues).2

/-- Settings on one line nest exactly when none leaves its braces open and the last escapes nothing
behind it. -/
theorem isNested_join_settings_iff (hkeys : ∀ s ∈ keyed, IsSettingKey s.1)
    (hvalues : ∀ s ∈ keyed, IsNested s.2) :
    IsNested (Text.join ", " (keyed.map writeSetting)) ↔
      (∀ s ∈ keyed, ¬LeavesOpen s.2) ∧ ∀ s ∈ keyed.getLast?, IsNested (Text.trim s.2) := by
  induction keyed with
  | nil => exact iff_of_true rfl ⟨fun s hs => (List.not_mem_nil hs).elim, fun s hs => by cases hs⟩
  | cons s rest ih =>
    rcases walk_join_cases hkeys hvalues with ⟨hopen, final, hwalk, hfinal⟩ | ⟨hopen, e, hwalk⟩
    · -- nothing behind the open group closes it
      refine iff_of_false (fun h => ?_) fun h => h.1 s List.mem_cons_self hopen
      rw [IsNested, walk?_nestStep_of_itemStep hwalk] at h
      exact List.ne_nil_of_mem hfinal (Prod.mk.inj (Option.some.inj h)).1
    · rw [List.forall_mem_cons] at hkeys hvalues
      cases rest with
      | nil =>
        rw [List.map_singleton, Text.join_singleton, isNested_writeSetting_iff hkeys.1 hvalues.1]
        refine ⟨fun h => ⟨fun t ht => ?_, fun t ht => ?_⟩, fun h => h.2 s rfl⟩
        · rw [List.mem_singleton.mp ht]
          exact hopen
        · cases ht
          exact h
      | cons next rest =>
        rw [IsNested, walk?_join_settings hwalk, List.getLast?_cons_cons]
        refine (ih hkeys.2 hvalues.2).trans ⟨fun h => ⟨?_, h.2⟩, fun h => ⟨?_, h.2⟩⟩
        · exact List.forall_mem_cons.mpr ⟨hopen, h.1⟩
        · exact (List.forall_mem_cons.mp h.1).2

theorem exists_join_settings (s : Text × Text) (rest : List (Text × Text)) :
    ∃ middle : Text, Text.join ", " ((s :: rest).map writeSetting) = writeSetting s ++ middle := by
  cases rest with
  | nil => exact ⟨[], by rw [List.map_singleton, Text.join_singleton, List.append_nil]⟩
  | cons next rest => exact ⟨_, join_settings s next rest⟩

/-- Settings that stand in one part are one option with the text behind them: they start and end
with a character that is no blank. -/
theorem splitOptions_join_behind {s : Text × Text} {rest : List (Text × Text)}
    {final : List Char × Bool} {behind : Text}
    (hwalk : walk? (itemStep ',') [] false (Text.join ", " ((s :: rest).map writeSetting)) =
      some final) (hkey : IsSettingKey s.1)
    (hbehind : ∀ depth escaped, ∃ final, walk? (depthStep ',') depth escaped behind = some final)
    (hlast : ∃ c, behind.getLast? = some c ∧ isBlank c = false) :
    splitOptions (Text.join ", " ((s :: rest).map writeSetting) ++ behind) =
      [Text.join ", " ((s :: rest).map writeSetting) ++ behind] := by
  obtain ⟨final', hfinal⟩ := hbehind final.1.length final.2
  obtain ⟨c, hc, hblank⟩ := hlast
  obtain ⟨middle, hjoin⟩ := exists_join_settings s rest
  obtain ⟨hfront, hfrontNe⟩ := isTrimmed_writeSetting hkey
  have hne : Text.join ", " ((s :: rest).map writeSetting) ≠ [] := by
    rw [hjoin]
    exact List.append_ne_nil_of_left_ne_nil hfrontNe _
  have hbehindNe : behind ≠ [] := by
    intro heq
    rw [heq] at hc
    cases hc
  refine @splitOptions_whole _ final' ?_ (Text.isTrimmed_append ?_ ?_ hne hbehindNe)
    (List.append_ne_nil_of_left_ne_nil hne _)
  · have hdepth := walk?_depthStep hwalk
    rw [List.length_nil] at hdepth
    rw [walk?_append, hdepth]
    exact hfinal
  · rw [hjoin, List.head?_append_of_ne_nil _ hfrontNe]
    exact hfront.1
  · rw [hc]
    intro d hd
    cases hd
    exact hblank

/-- A text that follows settings and has no comma on the ground goes to the first of them that
leaves its braces open, together with all settings between, or else to the last. -/
theorem exists_splitOptions_behind (hne : keyed ≠ []) (hkeys : ∀ s ∈ keyed, IsSettingKey s.1)
    (hvalues : ∀ s ∈ keyed, IsNested s.2) {behind : Text}
    (hbehind : ∀ depth escaped, ∃ final, walk? (depthStep ',') depth escaped behind = some final)
    (hlast : ∃ c, behind.getLast? = some c ∧ isBlank c = false) :
    ∃ before s after, keyed = before ++ s :: after ∧ (∀ t ∈ before, ¬LeavesOpen t.2) ∧
      (LeavesOpen s.2 ∨ after = []) ∧
      splitOptions (Text.join ", " (keyed.map writeSetting) ++ behind) =
        before.map writeSetting ++
          [Text.join ", " ((s :: after).map writeSetting) ++ behind] := by
  induction keyed with
  | nil => exact absurd rfl hne
  | cons s rest ih =>
    rw [List.forall_mem_cons] at hkeys hvalues
    rcases walk_join_cases (List.forall_mem_cons.mpr hkeys) (List.forall_mem_cons.mpr hvalues)
      with ⟨hopen, final, hwalk, -⟩ | ⟨hopen, e, hwalk⟩
    · exact ⟨[], s, rest, rfl, fun t ht => (List.not_mem_nil ht).elim, Or.inl hopen,
        splitOptions_join_behind hwalk hkeys.1 hbehind hlast⟩
    · cases rest with
      | nil =>
        rw [← Text.join_singleton ", ".toList (writeSetting s)] at hwalk
        exact ⟨[], s, [], rfl, fun t ht => (List.not_mem_nil ht).elim, Or.inr rfl,
          @splitOptions_join_behind s [] _ _ hwalk hkeys.1 hbehind hlast⟩
      | cons next rest =>
        obtain ⟨htrim, hne'⟩ := isTrimmed_writeSetting hkeys.1
        obtain ⟨before, last, after, heq, hbefore, htaken, hsplit⟩ :=
          ih (List.cons_ne_nil _ _) hkeys.2 hvalues.2
        refine ⟨s :: before, last, after, by rw [heq]; rfl,
          List.forall_mem_cons.mpr ⟨hopen, hbefore⟩, htaken, ?_⟩
        rw [join_settings, List.append_assoc, List.cons_append,
          splitOptions_part (walk?_depthStep hwalk) htrim hne', List.cons_append,
          splitOptions_blank rfl, hsplit]
        rfl

end

/-! ## Counting characters of settings -/

section
variable {c : Char}

/-- A character that is no blank occurs in a trimmed text as often as in the text. -/
theorem count_trim (hc : isBlank c = false) (text : Text) :
    (Text.trim text).count c = text.count c := by
  have hblanks {blanks : Text} (hblanks : blanks.all isBlank) : blanks.count c = 0 := by
    refine List.count_eq_zero.mpr fun hmem => ?_
    have hblank := List.all_eq_true.mp hblanks c hmem
    rw [hc] at hblank
    cases hblank
  obtain ⟨before, after, heq, hbefore, hafter⟩ := Text.exists_trim text
  conv_rhs => rw [heq]
  rw [List.count_append, List.count_append, hblanks hbefore, hblanks hafter, Nat.zero_add,
    Nat.add_zero]

/-- Whether a character is none of those that an option list adds to its values. -/
def IsCounted (c : Char) : Prop := isBlank c = false ∧ c ∉ "\x7b\x7d[],".toList

instance : DecidablePred IsCounted := fun _ => inferInstanceAs (Decidable (_ ∧ _))

theorem count_optionValue (hc : IsCounted c) (value : Text) :
    (optionValue value).count c = value.count c := by
  obtain ⟨hblank, hne⟩ := hc
  rw [← count_trim hblank value]
  rcases optionValue_cases value with heq | ⟨heq, -⟩
  · have hbraces : c ≠ '{' ∧ c ≠ '}' := by
      constructor <;> rintro rfl <;> exact hne (by decide)
    rw [heq, Text.braced, List.count_append, List.count_cons, List.count_singleton]
    simp [hbraces.1.symm, hbraces.2.symm]
  · rw [heq]

/-- What a character counts in a setting whose value stands as it is. -/
def settingCount (c : Char) (s : Text × Text) : Nat := (setting s.1 []).count c + s.2.count c

/-- What a character counts in settings on one line. -/
theorem count_join_settings (hc : IsCounted c) (keyed : List (Text × Text)) :
    (Text.join ", " (keyed.map writeSetting)).count c = (keyed.map (settingCount c)).sum := by
  have hseparator : c ∉ ", ".toList := by
    intro hmem
    rcases List.mem_cons.mp hmem with rfl | hmem
    · exact hc.2 (by decide)
    · rw [List.mem_singleton.mp hmem] at hc
      cases hc.1
  have hsetting (s : Text × Text) : (writeSetting s).count c = settingCount c s := by
    have htext : writeSetting s = setting s.1 [] ++ optionValue s.2 := by
      simp [writeSetting, setting]
    rw [htext, List.count_append, count_optionValue hc, settingCount]
  rw [Text.count_join hseparator, List.map_map]
  exact congrArg List.sum (List.map_congr_left fun s _ => hsetting s)

/-- A setting with more text behind it is read as its key and all of that text. -/
theorem exists_keyValue_behind {s : Text × Text} (hkey : IsSettingKey s.1)
    (after : List (Text × Text)) {behind : Text} (hlast : ∃ init, behind = init ++ [';']) :
    ∃ value, keyValue (Text.join ", " ((s :: after).map writeSetting) ++ behind) = (s.1, value) ∧
      s.1.count ';' + value.count ';' =
        (Text.join ", " ((s :: after).map writeSetting)).count ';' + behind.count ';' := by
  obtain ⟨middle, hjoin⟩ := exists_join_settings s after
  obtain ⟨init, rfl⟩ := hlast
  have htext : writeSetting s ++ middle ++ (init ++ [';']) =
      s.1 ++ '=' :: (optionValue s.2 ++ middle ++ init ++ [';']) := by
    simp [writeSetting, setting]
  have hequals : '=' ∉ s.1 := fun hmem => (hkey.chars _ hmem).2.1 rfl
  refine ⟨Text.trim (optionValue s.2 ++ middle ++ init ++ [';']), ?_, ?_⟩
  · rw [hjoin, htext, keyValue_append hequals hkey.trimmed, stripBraces_concat rfl (by decide)]
  · have hequals : List.count ';' ('=' :: (optionValue s.2 ++ middle ++ init ++ [';'])) =
        (optionValue s.2 ++ middle ++ init ++ [';']).count ';' :=
      List.count_cons_of_ne (by decide)
    rw [hjoin, count_trim rfl, ← hequals]
    exact (List.count_append.symm.trans (congrArg (List.count ';') htext.symm)).trans
      List.count_append

end

end Source

namespace Chart

open Source

/-! ## The settings of a table -/

/-- The key of the first column. -/
def xKey (hasHeader : Bool) : Text := if hasHeader then "x" else "x index"

/-- The key of the second column. -/
def yKey (hasHeader : Bool) : Text := if hasHeader then "y" else "y index"

/-- A column as a setting, when it is selected. -/
def columnSetting (key selector : Text) : List (Text × Text) :=
  if selector.isEmpty then [] else [(key, selector)]

/-- The setting of a table without a header. -/
def headerSetting (hasHeader : Bool) : List (Text × Text) :=
  if hasHeader then [] else [("header", "false")]

/-- The setting of a table whose cells are separated by commas. -/
def separatorSetting (rows : Text) : List (Text × Text) :=
  if ',' ∈ rows then [("col sep", "comma")] else []

/-- The settings of a table that select no column. -/
def fixedSettings (data : Data) : List (Text × Text) :=
  headerSetting data.hasHeader ++ separatorSetting data.rows

/-- The settings of a table. -/
def tableSettings (data : Data) : List (Text × Text) :=
  columnSetting (xKey data.hasHeader) data.xColumn ++
    columnSetting (yKey data.hasHeader) data.yColumn ++ fixedSettings data

theorem isSettingKey_xKey (hasHeader : Bool) :
    IsSettingKey (xKey hasHeader) ∧ ';' ∉ xKey hasHeader := by
  cases hasHeader <;> decide

theorem isSettingKey_yKey (hasHeader : Bool) :
    IsSettingKey (yKey hasHeader) ∧ ';' ∉ yKey hasHeader := by
  cases hasHeader <;> decide

section
variable {data : Data}

theorem tableOptions_eq (data : Data) :
    tableOptions data = (tableSettings data).map writeSetting := by
  have hcolumn (key selector : Text) : (columnSetting key selector).map writeSetting =
      if selector.isEmpty then [] else [setting key (optionValue selector)] := by
    unfold columnSetting
    split <;> rfl
  have hheader : (headerSetting data.hasHeader).map writeSetting =
      if data.hasHeader then [] else [setting "header" "false"] := by
    unfold headerSetting
    split <;> rfl
  have hseparator : (separatorSetting data.rows).map writeSetting =
      if ',' ∈ data.rows then [setting "col sep" "comma"] else [] := by
    unfold separatorSetting
    split <;> rfl
  rw [tableSettings, fixedSettings, List.map_append, List.map_append, List.map_append, hcolumn,
    hcolumn, hheader, hseparator, ← List.append_assoc]
  rfl

theorem mem_fixedSettings {s : Text × Text} (h : s ∈ fixedSettings data) :
    s = ("header".toList, "false".toList) ∨ s = ("col sep".toList, "comma".toList) := by
  unfold fixedSettings headerSetting separatorSetting at h
  rcases List.mem_append.mp h with h | h
  · split at h
    next => cases h
    next => exact Or.inl (List.mem_singleton.mp h)
  · split at h
    next => exact Or.inr (List.mem_singleton.mp h)
    next => cases h

theorem mem_tableSettings {s : Text × Text} (h : s ∈ tableSettings data) :
    s = (xKey data.hasHeader, data.xColumn) ∨ s = (yKey data.hasHeader, data.yColumn) ∨
      s ∈ fixedSettings data := by
  unfold tableSettings columnSetting at h
  rcases List.mem_append.mp h with h | h
  · rcases List.mem_append.mp h with h | h
    · split at h
      next => cases h
      next => exact Or.inl (List.mem_singleton.mp h)
    · split at h
      next => cases h
      next => exact Or.inr (Or.inl (List.mem_singleton.mp h))
  · exact Or.inr (Or.inr h)

/-- The settings of a table can stand in an option list, as far as their keys go. -/
theorem tableSettings_spec (hx : IsNested data.xColumn) (hy : IsNested data.yColumn) :
    (∀ s ∈ tableSettings data, IsSettingKey s.1 ∧ ';' ∉ s.1) ∧
      ∀ s ∈ tableSettings data, IsNested s.2 := by
  constructor
  · intro s hs
    rcases mem_tableSettings hs with rfl | rfl | hs
    · exact isSettingKey_xKey data.hasHeader
    · exact isSettingKey_yKey data.hasHeader
    · rcases mem_fixedSettings hs with rfl | rfl <;> decide
  · intro s hs
    rcases mem_tableSettings hs with rfl | rfl | hs
    · exact hx
    · exact hy
    · rcases mem_fixedSettings hs with rfl | rfl <;> decide

end

/-! ## Reading the options of a table -/

section
variable {options : TableOptions} {dropped : List Text} {option value selector : Text}
  {hasHeader : Bool}

theorem takeOption_x (h : keyValue option = (xKey hasHeader, value)) :
    takeOption TableOptions.addOption (options, dropped) option =
      ({ options with xColumn := value }, dropped) := by
  rw [takeOption, TableOptions.addOption, h]
  cases hasHeader <;> rfl

theorem takeOption_y (h : keyValue option = (yKey hasHeader, value)) :
    takeOption TableOptions.addOption (options, dropped) option =
      ({ options with yColumn := value }, dropped) := by
  rw [takeOption, TableOptions.addOption, h]
  cases hasHeader <;> rfl

/-- The first column is read back trimmed; without a setting it stays empty. -/
theorem foldl_x (h : IsNested selector) (hstart : options.xColumn = []) :
    ((columnSetting (xKey hasHeader) selector).map writeSetting).foldl
        (takeOption TableOptions.addOption) (options, dropped) =
      ({ options with xColumn := Text.trim selector }, dropped) := by
  unfold columnSetting
  split
  next hempty =>
    rw [List.isEmpty_iff.mp hempty, show Text.trim [] = options.xColumn from hstart.symm]
    rfl
  next =>
    have hkey := (isSettingKey_xKey hasHeader).1
    exact takeOption_x (@keyValue_writeSetting (xKey hasHeader, selector) hkey h)

/-- The second column is read back trimmed; without a setting it stays empty. -/
theorem foldl_y (h : IsNested selector) (hstart : options.yColumn = []) :
    ((columnSetting (yKey hasHeader) selector).map writeSetting).foldl
        (takeOption TableOptions.addOption) (options, dropped) =
      ({ options with yColumn := Text.trim selector }, dropped) := by
  unfold columnSetting
  split
  next hempty =>
    rw [List.isEmpty_iff.mp hempty, show Text.trim [] = options.yColumn from hstart.symm]
    rfl
  next =>
    have hkey := (isSettingKey_yKey hasHeader).1
    exact takeOption_y (@keyValue_writeSetting (yKey hasHeader, selector) hkey h)

/-- The header is read back, and the separator changes nothing. -/
theorem foldl_fixed (data : Data) (hstart : options.hasHeader = true) :
    ((fixedSettings data).map writeSetting).foldl (takeOption TableOptions.addOption)
        (options, dropped) = ({ options with hasHeader := data.hasHeader }, dropped) := by
  have hseparator (options : TableOptions) :
      ((separatorSetting data.rows).map writeSetting).foldl (takeOption TableOptions.addOption)
        (options, dropped) = (options, dropped) := by
    unfold separatorSetting
    split <;> rfl
  obtain ⟨xColumn, yColumn, header⟩ := options
  obtain rfl : header = true := hstart
  rw [fixedSettings, List.map_append, List.foldl_append]
  cases data.hasHeader with
  | true => exact hseparator ⟨xColumn, yColumn, true⟩
  | false => exact hseparator ⟨xColumn, yColumn, false⟩

end

section
variable {data : Data}

/-- Options that nest are read back, with trimmed columns. -/
theorem readOptions_tableOptions (hx : IsNested data.xColumn) (hy : IsNested data.yColumn)
    (h : IsNested (Text.join ", " (tableOptions data))) :
    readOptions TableOptions.addOption {} (Text.join ", " (tableOptions data)) =
      (⟨Text.trim data.xColumn, Text.trim data.yColumn, data.hasHeader⟩, []) := by
  obtain ⟨hkeys, hvalues⟩ := tableSettings_spec hx hy
  have hkeys' := fun s hs => (hkeys s hs).1
  rw [tableOptions_eq] at h ⊢
  obtain ⟨hclosed, -⟩ := (isNested_join_settings_iff hkeys' hvalues).mp h
  rw [readOptions_eq, splitOptions_settings hkeys' hvalues fun s hs =>
    hclosed s ((List.dropLast_subset _) hs)]
  unfold tableSettings
  rw [List.map_append, List.map_append, List.foldl_append, List.foldl_append, foldl_x hx rfl,
    foldl_y hy rfl, foldl_fixed data rfl]

theorem columnSetting_cases (key selector : Text) :
    columnSetting key selector = [] ∨ columnSetting key selector = [(key, selector)] := by
  unfold columnSetting
  split
  next => exact Or.inl rfl
  next => exact Or.inr rfl

/-- A setting in the middle of those of a table that is no fixed one is one of the columns. -/
theorem column_cases {before after : List (Text × Text)} {s : Text × Text}
    (h : tableSettings data = before ++ s :: after) (hs : s ∉ fixedSettings data) :
    before = [] ∧ s = (xKey data.hasHeader, data.xColumn) ∧
        after = columnSetting (yKey data.hasHeader) data.yColumn ++ fixedSettings data ∨
      before = columnSetting (xKey data.hasHeader) data.xColumn ∧
        s = (yKey data.hasHeader, data.yColumn) ∧ after = fixedSettings data := by
  have hfixed {before : List (Text × Text)} (heq : fixedSettings data = before ++ s :: after) :
      False := by
    refine hs ?_
    rw [heq]
    exact List.mem_append_right _ List.mem_cons_self
  unfold tableSettings at h
  rcases columnSetting_cases (xKey data.hasHeader) data.xColumn with hx | hx
  · rcases columnSetting_cases (yKey data.hasHeader) data.yColumn with hy | hy
    · rw [hx, hy] at h
      exact (hfixed h).elim
    · rw [hx, hy] at h
      cases before with
      | nil =>
        obtain ⟨hs, hafter⟩ := List.cons.inj h
        exact Or.inr ⟨hx.symm, hs.symm, hafter.symm⟩
      | cons t before => exact (hfixed (List.cons.inj h).2).elim
  · rw [hx] at h
    cases before with
    | nil =>
      obtain ⟨hs, hafter⟩ := List.cons.inj h
      exact Or.inl ⟨rfl, hs.symm, hafter.symm⟩
    | cons t before =>
      obtain ⟨hfirst, hrest⟩ := List.cons.inj h
      rcases columnSetting_cases (yKey data.hasHeader) data.yColumn with hy | hy
      · rw [hy] at hrest
        exact (hfixed hrest).elim
      · rw [hy] at hrest
        cases before with
        | nil =>
          obtain ⟨hs, hafter⟩ := List.cons.inj hrest
          exact Or.inr ⟨by rw [hx, hfirst], hs.symm, hafter.symm⟩
        | cons t' before => exact (hfixed (List.cons.inj hrest).2).elim

/-- What a character counts in a column; one that is not selected has nothing to count. -/
theorem sum_columnSetting (c : Char) (key selector : Text) :
    ((columnSetting key selector).map (settingCount c)).sum =
      if selector.isEmpty then 0 else settingCount c (key, selector) := by
  unfold columnSetting
  split
  next => rfl
  next => rfl

theorem settingCount_semicolon {key : Text} (hkey : ';' ∉ key) (value : Text) :
    settingCount ';' (key, value) = value.count ';' := by
  have hzero : (setting key []).count ';' = 0 := List.count_eq_zero.mpr (by simp [setting, hkey])
  rw [settingCount, hzero, Nat.zero_add]

/-- The semicolons of a column are those of its selector. -/
theorem sum_semicolons_column {key : Text} (hkey : ';' ∉ key) (selector : Text) :
    ((columnSetting key selector).map (settingCount ';')).sum = selector.count ';' := by
  rw [sum_columnSetting, settingCount_semicolon hkey]
  split
  next hempty =>
    rw [List.isEmpty_iff.mp hempty]
    rfl
  next => rfl

theorem sum_semicolons_fixed (data : Data) :
    ((fixedSettings data).map (settingCount ';')).sum = 0 := by
  rw [List.sum_eq_zero_iff_forall_eq_nat]
  intro n hn
  obtain ⟨s, hs, rfl⟩ := List.mem_map.mp hn
  rcases mem_fixedSettings hs with rfl | rfl <;> decide

/-- The semicolons of the settings of a table are those of its selectors. -/
theorem sum_semicolons (data : Data) :
    ((tableSettings data).map (settingCount ';')).sum =
      data.xColumn.count ';' + data.yColumn.count ';' := by
  rw [tableSettings, List.map_append, List.map_append, List.sum_append, List.sum_append,
    sum_semicolons_column (isSettingKey_xKey data.hasHeader).2,
    sum_semicolons_column (isSettingKey_yKey data.hasHeader).2, sum_semicolons_fixed, Nat.add_zero]

/-- Where the options of a table do not nest, the setting that takes in what follows is no fixed
one: at the end that would leave no group open. -/
theorem not_mem_fixedSettings_of_open (hx : IsNested data.xColumn) (hy : IsNested data.yColumn)
    (hopen : ¬IsNested (Text.join ", " ((tableSettings data).map writeSetting)))
    {before after : List (Text × Text)} {s : Text × Text}
    (heq : tableSettings data = before ++ s :: after) (hbefore : ∀ t ∈ before, ¬LeavesOpen t.2)
    (htaken : LeavesOpen s.2 ∨ after = []) : s ∉ fixedSettings data := by
  intro hs
  obtain ⟨hkeys, hvalues⟩ := tableSettings_spec hx hy
  have hplain : ¬LeavesOpen s.2 ∧ IsNested (Text.trim s.2) := by
    rcases mem_fixedSettings hs with rfl | rfl <;> decide
  obtain rfl := htaken.resolve_left hplain.1
  refine hopen ((isNested_join_settings_iff (fun s hs => (hkeys s hs).1) hvalues).mpr ?_)
  rw [heq, List.getLast?_concat]
  refine ⟨List.forall_mem_append.mpr ⟨hbefore, ?_⟩, fun t ht => ?_⟩
  · intro t ht
    rw [List.mem_singleton.mp ht]
    exact hplain.1
  · cases ht
    exact hplain.2

/-- Options that do not nest take in the text behind them, semicolons and all: it goes to a
column. -/
theorem readOptions_behind (hx : IsNested data.xColumn) (hy : IsNested data.yColumn)
    (hopen : ¬IsNested (Text.join ", " (tableOptions data))) {behind : Text}
    (hbehind : ∀ depth escaped, ∃ final, walk? (depthStep ',') depth escaped behind = some final)
    (hlast : ∃ init, behind = init ++ [';']) :
    ∃ options : TableOptions,
      (readOptions TableOptions.addOption {}
        (Text.join ", " (tableOptions data) ++ behind)).1 = options ∧
      options.xColumn.count ';' + options.yColumn.count ';' =
        data.xColumn.count ';' + data.yColumn.count ';' + behind.count ';' := by
  obtain ⟨hkeys, hvalues⟩ := tableSettings_spec hx hy
  have hkeys' := fun s hs => (hkeys s hs).1
  rw [tableOptions_eq] at hopen ⊢
  have hne : tableSettings data ≠ [] := by
    intro heq
    rw [heq] at hopen
    exact hopen rfl
  obtain ⟨before, s, after, heq, hbefore, htaken, hsplit⟩ :=
    exists_splitOptions_behind hne hkeys' hvalues hbehind (by
      obtain ⟨init, rfl⟩ := hlast
      exact ⟨';', List.getLast?_concat, rfl⟩)
  have hmem : s ∈ tableSettings data := by
    rw [heq]
    exact List.mem_append_right _ List.mem_cons_self
  have hs := not_mem_fixedSettings_of_open hx hy hopen heq hbefore htaken
  obtain ⟨value, hvalue, hcount⟩ := exists_keyValue_behind (hkeys' s hmem) after hlast
  rw [List.count_eq_zero.mpr (hkeys s hmem).2, count_join_settings (by decide), List.map_cons,
    List.sum_cons] at hcount
  rw [readOptions_eq, hsplit, List.foldl_append, List.foldl_cons, List.foldl_nil]
  rcases column_cases heq hs with ⟨rfl, rfl, rfl⟩ | ⟨rfl, rfl, rfl⟩
  · rw [List.map_nil, List.foldl_nil, takeOption_x hvalue]
    refine ⟨_, rfl, ?_⟩
    rw [settingCount_semicolon (isSettingKey_xKey data.hasHeader).2, List.map_append,
      List.sum_append, sum_semicolons_column (isSettingKey_yKey data.hasHeader).2,
      sum_semicolons_fixed] at hcount
    show value.count ';' + 0 = _
    omega
  · rw [foldl_x hx rfl, takeOption_y hvalue]
    refine ⟨_, rfl, ?_⟩
    rw [settingCount_semicolon (isSettingKey_yKey data.hasHeader).2, sum_semicolons_fixed] at hcount
    show (Text.trim data.xColumn).count ';' + value.count ';' = _
    rw [count_trim rfl]
    omega

/-! ## Writing the rows of a table -/

/-- What a character counts in the rows of a table. -/
theorem count_writeRows {c : Char} (hc : IsCounted c) (h : data.isCoordinates = false) :
    (writeRows data).count c =
      "table".toList.count c + (Text.join ", " (tableOptions data)).count c +
        (tableContent data).count c := by
  have hne {d : Char} (hd : d ∈ "\x7b\x7d[],".toList) : d ≠ c := by
    rintro rfl
    exact hc.2 hd
  have hblank : ' ' ≠ c := by
    rintro rfl
    cases hc.1
  have hoptions : (writeOptions (tableOptions data)).count c =
      (Text.join ", " (tableOptions data)).count c := by
    unfold writeOptions
    split
    next hempty =>
      rw [List.isEmpty_iff.mp hempty]
      rfl
    next => simp [Text.bracketed, hne]
  rw [writeRows_eq, if_neg (by rw [h]; exact Bool.false_ne_true), List.count_append,
    List.count_append, hoptions]
  simp [Text.braced, hne, hblank]

/-- Rows that are written as a table is have not become coordinates. -/
theorem not_isCoordinates_of_writeRows_eq {other : Data} (h : data.isCoordinates = false)
    (heq : writeRows other = writeRows data) : other.isCoordinates = false := by
  rw [Bool.eq_false_iff]
  intro hcoordinates
  rw [writeRows_eq, writeRows_eq, if_pos hcoordinates,
    if_neg (by rw [h]; exact Bool.false_ne_true)] at heq
  cases heq

/-- Trimming the selector of a column loses an equals sign when the selector is blank, and none
otherwise. -/
theorem sum_equals_trim {key : Text} (hkey : 1 ≤ (setting key []).count '=') (selector : Text) :
    IsSelector selector ∧
        ((columnSetting key (Text.trim selector)).map (settingCount '=')).sum =
          ((columnSetting key selector).map (settingCount '=')).sum ∨
      ((columnSetting key (Text.trim selector)).map (settingCount '=')).sum <
        ((columnSetting key selector).map (settingCount '=')).sum := by
  rw [sum_columnSetting, sum_columnSetting, Text.isEmpty_trim, settingCount, settingCount,
    count_trim rfl]
  cases selector with
  | nil => exact Or.inl ⟨Or.inl rfl, rfl⟩
  | cons d rest =>
    cases hblank : Text.isBlankText (d :: rest) with
    | false => exact Or.inl ⟨Or.inr hblank, rfl⟩
    | true =>
      refine Or.inr ?_
      simp only [if_true, List.isEmpty_cons, Bool.false_eq_true, if_false]
      omega

/-- Rows with trimmed selectors are written as the rows are exactly when no selector is blank. -/
theorem writeRows_trimmed_iff (hfile : Table.isFileReference data.rows = false)
    (hplain : data.rows.all Table.isPlainData) (h : data.isCoordinates = false) :
    writeRows ⟨data.dataType, Table.normalizeRows data.rows, Text.trim data.xColumn,
        Text.trim data.yColumn, data.hasHeader⟩ = writeRows data ↔
      IsSelector data.xColumn ∧ IsSelector data.yColumn := by
  obtain ⟨hwords, hcontent⟩ := tableContent_canonical (fun _ => hplain)
    (if_neg (by rw [hfile]; exact Bool.false_ne_true)) (Text.trim data.xColumn)
    (Text.trim data.yColumn)
  have hfile' : Table.isFileReference (Table.normalizeRows data.rows) = false := by
    rw [← hfile]
    exact Table.isFileReference_congr hwords
  have hcomma : (',' ∈ Table.normalizeRows data.rows) = (',' ∈ data.rows) :=
    propext (Table.mem_iff_of_words hwords rfl)
  generalize hdata : (⟨data.dataType, Table.normalizeRows data.rows, Text.trim data.xColumn,
    Text.trim data.yColumn, data.hasHeader⟩ : Data) = trimmed at hcontent ⊢
  constructor
  · intro heq
    have htable := not_isCoordinates_of_writeRows_eq h heq
    have hequals := congrArg (List.count '=') heq
    rw [count_writeRows (by decide) htable, count_writeRows (by decide) h, hcontent,
      tableOptions_eq, tableOptions_eq, count_join_settings (by decide),
      count_join_settings (by decide)] at hequals
    have hfixed : fixedSettings trimmed = fixedSettings data := by
      rw [← hdata]
      simp only [fixedSettings, separatorSetting, hcomma]
    simp only [tableSettings, List.map_append, List.sum_append, hfixed] at hequals
    simp only [← hdata] at hequals
    have hkeys : 1 ≤ (setting (xKey data.hasHeader) []).count '=' ∧
        1 ≤ (setting (yKey data.hasHeader) []).count '=' := by
      cases data.hasHeader <;> decide
    -- no column gains an equals sign, so that none has lost one
    rcases sum_equals_trim hkeys.1 data.xColumn with ⟨hselectX, hxEq⟩ | hxLt
    · rcases sum_equals_trim hkeys.2 data.yColumn with ⟨hselectY, -⟩ | hyLt
      · exact ⟨hselectX, hselectY⟩
      · omega
    · rcases sum_equals_trim hkeys.2 data.yColumn with ⟨-, hyEq⟩ | hyLt <;> omega
  · rintro ⟨hselectX, hselectY⟩
    have hoptions : tableOptions trimmed = tableOptions data := by
      rw [← hdata]
      simp only [tableOptions, isEmpty_trim_selector hselectX, isEmpty_trim_selector hselectY,
        optionValue_trim, hcomma]
    have hstill : trimmed.isCoordinates = false := by
      rw [← h, ← hdata]
      simp only [Data.isCoordinates, isEmpty_trim_selector hselectX,
        isEmpty_trim_selector hselectY, hfile, hfile']
    rw [writeRows_eq, writeRows_eq, hstill, h, hcontent, hoptions]
    rfl

/-- Without rows, columns that have taken in the semicolon of the series are not written as the
rows. -/
theorem writeRows_ne_of_count (h : data.isCoordinates = false) {options : TableOptions}
    (hcount : data.xColumn.count ';' + data.yColumn.count ';' + (tableContent data).count ';' <
      options.xColumn.count ';' + options.yColumn.count ';') :
    writeRows ⟨data.dataType, [], options.xColumn, options.yColumn, options.hasHeader⟩ ≠
      writeRows data := by
  intro heq
  have htable := not_isCoordinates_of_writeRows_eq h heq
  have hsemicolons := congrArg (List.count ';') heq
  rw [count_writeRows (by decide) htable, count_writeRows (by decide) h, tableOptions_eq,
    tableOptions_eq, count_join_settings (by decide), count_join_settings (by decide),
    sum_semicolons, sum_semicolons] at hsemicolons
  simp only at hsemicolons
  omega

end

end Chart

end TexFigure
