import TexFigure.Chart.Options
import TexFigure.Chart.Write
import TexFigure.Proofs.Numerals
import TexFigure.Proofs.Quiet
/-!
# Written options are read back

`Keeps add s options s'` says that a list of options leads a reader from the settings `s` to `s'`
without dropping one, and that it can be written as an option list. Lists are put together with
`Keeps.append`, from one lemma for each way in which an option is written: a label, a value that
is left out when it is blank, a value that is always there, and a flag.

Settings come back trimmed, except for labels, which come back as they are.
-/

namespace TexFigure.Chart

open Source

/-! ## Options that are kept -/

/-- Read one option behind others, as `readOptions` does. -/
def takeOption {α : Type} (add : α → Text → Except Text α) (read : α × List Text)
    (option : Text) : α × List Text :=
  match add read.1 option with
  | .ok settings => (settings, read.2)
  | .error name => (read.1, read.2 ++ [name])

/-- Options are read one after another, and the ones that are dropped are kept aside. -/
theorem readOptions_eq {α : Type} (add : α → Text → Except Text α) (start : α) (options : Text) :
    readOptions add start options = (splitOptions options).foldl (takeOption add) (start, []) :=
  rfl

/-- Options that can stand in a list and that are read, one after another, without a loss. -/
structure Keeps {α : Type} (add : α → Text → Except Text α) (start : α) (options : List Text)
    (final : α) : Prop where
  option : ∀ option ∈ options, IsOption option
  quiet : ∀ option ∈ options, IsQuiet option
  fold : ∀ dropped, options.foldl (takeOption add) (start, dropped) = (final, dropped)

section
variable {α : Type} {add : α → Text → Except Text α} {start middle final : α}

theorem Keeps.nil : Keeps add start [] start :=
  ⟨by simp, by simp, fun _ => rfl⟩

/-- Lists that are kept one behind the other are kept as one list. -/
theorem Keeps.append {options options' : List Text} (h : Keeps add start options middle)
    (h' : Keeps add middle options' final) : Keeps add start (options ++ options') final := by
  refine ⟨?_, ?_, fun dropped => ?_⟩
  · exact List.forall_mem_append.mpr ⟨h.option, h'.option⟩
  · exact List.forall_mem_append.mpr ⟨h.quiet, h'.quiet⟩
  · rw [List.foldl_append, h.fold, h'.fold]

/-- A single option that is taken is kept. -/
theorem Keeps.one {option : Text} (hoption : IsOption option) (hquiet : IsQuiet option)
    (h : add start option = .ok final) : Keeps add start [option] final := by
  refine ⟨by simpa using hoption, by simpa using hquiet, fun dropped => ?_⟩
  rw [List.foldl_cons, List.foldl_nil, takeOption, h]

/-- Options that are kept are read back from their list on one line. -/
theorem Keeps.readOptions_join {options : List Text} (h : Keeps add start options final) :
    readOptions add start (Text.join ", " options) = (final, []) := by
  rw [readOptions_eq, splitOptions_join h.option, h.fold]

/-! ## Keys and values -/

/-- A key of an option, or a flag: a trimmed text of plain characters. -/
structure IsKey (key : Text) : Prop where
  chars : key.all fun c => isPlain c && c != ',' && c != '='
  trimmed : Text.trim key = key
  nonempty : key ≠ []

instance (key : Text) : Decidable (IsKey key) :=
  decidable_of_iff
    ((key.all fun c => isPlain c && c != ',' && c != '=') = true ∧ Text.trim key = key ∧ key ≠ [])
    ⟨fun h => ⟨h.1, h.2.1, h.2.2⟩, fun h => ⟨h.chars, h.trimmed, h.nonempty⟩⟩

/-- A key has no group, bracket or escape. -/
theorem IsKey.plain {key : Text} (h : IsKey key) : key.all isPlain :=
  List.all_eq_true.mpr fun c hc => by
    have := List.all_eq_true.mp h.chars c hc
    simp only [Bool.and_eq_true] at this
    exact this.1.1

/-- A key ends at the first equals sign of its option, and does not end the option. -/
theorem IsKey.not_mem {key : Text} (h : IsKey key) : ',' ∉ key ∧ '=' ∉ key :=
  ⟨fun hmem => absurd (List.all_eq_true.mp h.chars _ hmem) (by decide),
    fun hmem => absurd (List.all_eq_true.mp h.chars _ hmem) (by decide)⟩

/-- A flag can stand in an option list. -/
theorem IsKey.isOption {key : Text} (h : IsKey key) : IsOption key where
  item := isItem_of_not_mem (isNested_of_plain h.plain) h.not_mem.1
  trimmed := Text.trim_eq_self_iff.mp h.trimmed
  nonempty := h.nonempty

/-- A key and a value can stand in an option list when the value can. -/
theorem isOption_setting {key value : Text} (hkey : IsKey key) (hvalue : IsOption value) :
    IsOption (setting key value) where
  item := by
    have hfront : IsItem ',' (key ++ ['=']) := by
      refine isItem_of_not_mem (isNested_of_plain ?_) ?_
      · rw [List.all_append, hkey.plain]
        rfl
      · simp [hkey.not_mem.1]
    have h := hfront.append hvalue.item
    rwa [List.append_assoc] at h
  trimmed := by
    have hkeyTrimmed := Text.trim_eq_self_iff.mp hkey.trimmed
    refine Text.isTrimmed_append hkeyTrimmed.1 ?_ hkey.nonempty (List.cons_ne_nil _ _)
    obtain ⟨last, hlast⟩ := Option.ne_none_iff_exists'.mp
      (fun h => hvalue.nonempty (List.getLast?_eq_none_iff.mp h))
    rw [List.getLast?_cons, hlast]
    exact fun c hc => hvalue.trimmed.2 c (hlast.trans hc)
  nonempty := by simp [setting]

theorem isQuiet_setting {key value : Text} (hkey : IsKey key) (hvalue : IsQuiet value) :
    IsQuiet (setting key value) :=
  (isQuiet_of_plain hkey.plain).append_cons (c := '=') rfl hvalue

/-- A key and a value that are read as they were meant. -/
theorem keeps_setting {key value text : Text} (hkey : IsKey key) (hoption : IsOption text)
    (hquiet : IsQuiet text) (htext : stripBraces text = value)
    (hadd : ∀ option, keyValue option = (key, value) → '=' ∈ option →
      add start option = .ok final) :
    Keeps add start [setting key text] final := by
  refine .one (isOption_setting hkey hoption) (isQuiet_setting hkey hquiet) (hadd _ ?_ ?_)
  · rw [setting, keyValue_append hkey.not_mem.2 (Text.trim_eq_self_iff.mp hkey.trimmed), htext]
  · simp [setting]

/-- A nested text in braces is an option value: a comma in the group does not end the option. -/
theorem isOption_braced {text : Text} (h : IsNested text) : IsOption (Text.braced text) where
  item := isItem_braced rfl h
  trimmed := isTrimmed_braced text
  nonempty := List.cons_ne_nil _ _

/-- A label is read back as it is; an empty one is left out. -/
theorem keeps_labelFor {key value : Text} (hkey : IsKey key) (hquiet : IsQuiet value)
    (hadd : ∀ option, keyValue option = (key, value) → '=' ∈ option →
      add start option = .ok final)
    (hempty : value = [] → final = start) : Keeps add start (labelFor key value) final := by
  unfold labelFor
  split
  next h =>
    rw [hempty (List.isEmpty_iff.mp h)]
    exact .nil
  next =>
    exact keeps_setting hkey (isOption_braced hquiet.nested) hquiet.braced
      (stripBraces_braced hquiet.nested.isBalanced) hadd

/-- A value that is not blank can stand in an option list as it is written. -/
theorem isOption_optionValue {value : Text} (h : IsNested (Text.trim value))
    (hblank : Text.isBlankText value = false) : IsOption (optionValue value) where
  item := isItem_optionValue h
  trimmed := isTrimmed_optionValue value
  nonempty := optionValue_ne_nil hblank

/-- A value is read back trimmed. -/
theorem keeps_optionValue {key value : Text} (hkey : IsKey key)
    (hquiet : IsQuiet (Text.trim value)) (hblank : Text.isBlankText value = false)
    (hadd : ∀ option, keyValue option = (key, Text.trim value) → '=' ∈ option →
      add start option = .ok final) :
    Keeps add start [setting key (optionValue value)] final :=
  keeps_setting hkey (isOption_optionValue hquiet.nested hblank) (isQuiet_optionValue hquiet)
    (stripBraces_optionValue hquiet.nested.isBalanced) hadd

/-- A value is read back trimmed; a blank one is left out. -/
theorem keeps_optionFor {key value : Text} (hkey : IsKey key) (hquiet : IsQuiet (Text.trim value))
    (hadd : ∀ option, keyValue option = (key, Text.trim value) → '=' ∈ option →
      add start option = .ok final)
    (hempty : Text.trim value = [] → final = start) :
    Keeps add start (optionFor key value) final := by
  unfold optionFor
  split
  next h =>
    rw [hempty (Text.trim_eq_nil_iff.mpr h)]
    exact .nil
  next h => exact keeps_optionValue hkey hquiet (Bool.not_eq_true _ ▸ h) hadd

/-- A flag is read back. -/
theorem keeps_flag {flag : Text} (hflag : IsKey flag) (h : add start flag = .ok final) :
    Keeps add start [flag] final :=
  .one hflag.isOption (isQuiet_of_plain hflag.plain) h

end

/-! ## The axis -/

/-- The texts of an axis that are written as they are. -/
def Axis.labels (axis : Axis) : List Text := [axis.title, axis.xlabel, axis.ylabel, axis.zlabel]

/-- The texts of an axis that are written trimmed. -/
def Axis.values (axis : Axis) : List Text :=
  [axis.xmin, axis.xmax, axis.ymin, axis.ymax, axis.grid, axis.legendPos, axis.width, axis.height]

/-- The position at which legends are shown. -/
def shownPosition (position : Text) : Text :=
  if (Text.trim position).isEmpty then "north east" else Text.trim position

/-- The axis that is read back. -/
def Axis.canonical (hasLegend : Bool) (axis : Axis) : Axis where
  title := axis.title
  xlabel := axis.xlabel
  ylabel := axis.ylabel
  zlabel := axis.zlabel
  xmin := Text.trim axis.xmin
  xmax := Text.trim axis.xmax
  ymin := Text.trim axis.ymin
  ymax := Text.trim axis.ymax
  grid := Text.trim axis.grid
  legendPos := if hasLegend then shownPosition axis.legendPos else []
  width := Text.trim axis.width
  height := Text.trim axis.height

/-- A legend is shown at its own position, trimmed, or at the usual one. -/
theorem shownPosition_cases (position : Text) :
    shownPosition position = "north east" ∨
      shownPosition position = Text.trim position ∧ Text.isBlankText position = false := by
  unfold shownPosition
  split
  next => exact Or.inl rfl
  next h =>
    rw [Text.isEmpty_trim, Bool.not_eq_true] at h
    exact Or.inr ⟨rfl, h⟩

/-- Positions are shown trimmed, and so they come back as they were shown. -/
theorem trim_shownPosition (position : Text) :
    Text.trim (shownPosition position) = shownPosition position := by
  rcases shownPosition_cases position with h | ⟨h, -⟩ <;> rw [h]
  · decide
  · exact Text.trim_trim position

theorem not_isBlankText_shownPosition (position : Text) :
    Text.isBlankText (shownPosition position) = false := by
  rcases shownPosition_cases position with h | ⟨h, hblank⟩ <;> rw [h]
  · decide
  · rwa [Text.isBlankText_trim]

theorem isQuiet_shownPosition {position : Text} (h : IsQuiet (Text.trim position)) :
    IsQuiet (shownPosition position) := by
  rcases shownPosition_cases position with heq | ⟨heq, -⟩ <;> rw [heq]
  · exact isQuiet_of_plain (by decide)
  · exact h

/-- The labels of an axis are read back. -/
theorem keeps_labels {axis : Axis} (h : ∀ text ∈ axis.labels, IsQuiet text) :
    Keeps Axis.addOption {}
      (labelFor "title" axis.title ++ labelFor "xlabel" axis.xlabel ++ labelFor "ylabel" axis.ylabel
        ++ labelFor "zlabel" axis.zlabel)
      { title := axis.title, xlabel := axis.xlabel, ylabel := axis.ylabel,
        zlabel := axis.zlabel } := by
  simp only [Axis.labels, List.forall_mem_cons] at h
  obtain ⟨htitle, hxlabel, hylabel, hzlabel, -⟩ := h
  -- each option is read behind those before it, whose settings it leaves alone
  have title : Keeps Axis.addOption {} (labelFor "title" axis.title) { title := axis.title } :=
    keeps_labelFor (by decide) htitle (fun _ h _ => by rw [Axis.addOption, h]; rfl)
      (fun h => by rw [h])
  have xlabel : Keeps Axis.addOption { title := axis.title } (labelFor "xlabel" axis.xlabel)
      { title := axis.title, xlabel := axis.xlabel } :=
    keeps_labelFor (by decide) hxlabel (fun _ h _ => by rw [Axis.addOption, h]; rfl)
      (fun h => by rw [h])
  have ylabel : Keeps Axis.addOption { title := axis.title, xlabel := axis.xlabel }
      (labelFor "ylabel" axis.ylabel)
      { title := axis.title, xlabel := axis.xlabel, ylabel := axis.ylabel } :=
    keeps_labelFor (by decide) hylabel (fun _ h _ => by rw [Axis.addOption, h]; rfl)
      (fun h => by rw [h])
  have zlabel : Keeps Axis.addOption
      { title := axis.title, xlabel := axis.xlabel, ylabel := axis.ylabel }
      (labelFor "zlabel" axis.zlabel)
      { title := axis.title, xlabel := axis.xlabel, ylabel := axis.ylabel,
        zlabel := axis.zlabel } :=
    keeps_labelFor (by decide) hzlabel (fun _ h _ => by rw [Axis.addOption, h]; rfl)
      (fun h => by rw [h])
  exact ((title.append xlabel).append ylabel).append zlabel

/-- The bounds of an axis are read back behind other settings. -/
theorem keeps_bounds {axis start : Axis} (h : ∀ text ∈ axis.values, IsQuiet (Text.trim text))
    (hstart : start.xmin = [] ∧ start.xmax = [] ∧ start.ymin = [] ∧ start.ymax = []) :
    Keeps Axis.addOption start
      (optionFor "xmin" axis.xmin ++ optionFor "xmax" axis.xmax ++ optionFor "ymin" axis.ymin
        ++ optionFor "ymax" axis.ymax)
      { start with
        xmin := Text.trim axis.xmin, xmax := Text.trim axis.xmax, ymin := Text.trim axis.ymin,
        ymax := Text.trim axis.ymax } := by
  simp only [Axis.values, List.forall_mem_cons] at h
  obtain ⟨hxmin, hxmax, hymin, hymax, -⟩ := h
  obtain ⟨hnoXmin, hnoXmax, hnoYmin, hnoYmax⟩ := hstart
  have xmin : Keeps Axis.addOption start (optionFor "xmin" axis.xmin)
      { start with xmin := Text.trim axis.xmin } :=
    keeps_optionFor (by decide) hxmin (fun _ h _ => by rw [Axis.addOption, h]; rfl)
      (fun h => by rw [h, ← hnoXmin])
  have xmax : Keeps Axis.addOption { start with xmin := Text.trim axis.xmin }
      (optionFor "xmax" axis.xmax)
      { start with xmin := Text.trim axis.xmin, xmax := Text.trim axis.xmax } :=
    keeps_optionFor (by decide) hxmax (fun _ h _ => by rw [Axis.addOption, h]; rfl)
      (fun h => by rw [h, ← hnoXmax])
  have ymin : Keeps Axis.addOption
      { start with xmin := Text.trim axis.xmin, xmax := Text.trim axis.xmax }
      (optionFor "ymin" axis.ymin)
      { start with
        xmin := Text.trim axis.xmin, xmax := Text.trim axis.xmax, ymin := Text.trim axis.ymin } :=
    keeps_optionFor (by decide) hymin (fun _ h _ => by rw [Axis.addOption, h]; rfl)
      (fun h => by rw [h, ← hnoYmin])
  have ymax : Keeps Axis.addOption
      { start with
        xmin := Text.trim axis.xmin, xmax := Text.trim axis.xmax, ymin := Text.trim axis.ymin }
      (optionFor "ymax" axis.ymax)
      { start with
        xmin := Text.trim axis.xmin, xmax := Text.trim axis.xmax, ymin := Text.trim axis.ymin,
        ymax := Text.trim axis.ymax } :=
    keeps_optionFor (by decide) hymax (fun _ h _ => by rw [Axis.addOption, h]; rfl)
      (fun h => by rw [h, ← hnoYmax])
  exact ((xmin.append xmax).append ymin).append ymax

/-- The grid, the legend position and the lengths of an axis are read back behind other settings. -/
theorem keeps_frame {axis start : Axis} (h : ∀ text ∈ axis.values, IsQuiet (Text.trim text))
    (hasLegend : Bool)
    (hstart : start.grid = [] ∧ start.legendPos = [] ∧ start.width = [] ∧ start.height = []) :
    Keeps Axis.addOption start
      (optionFor "grid" axis.grid ++ (if hasLegend then [legendPosition axis.legendPos] else [])
        ++ optionFor "width" axis.width ++ optionFor "height" axis.height)
      { start with
        grid := Text.trim axis.grid,
        legendPos := if hasLegend then shownPosition axis.legendPos else [],
        width := Text.trim axis.width, height := Text.trim axis.height } := by
  simp only [Axis.values, List.forall_mem_cons] at h
  obtain ⟨-, -, -, -, hgrid, hposition, hwidth, hheight, -⟩ := h
  obtain ⟨hnoGrid, hnoPosition, hnoWidth, hnoHeight⟩ := hstart
  -- the position is written only with a legend, and what stands for it is never blank
  generalize hshown : (if hasLegend then shownPosition axis.legendPos else []) = shown
  have grid : Keeps Axis.addOption start (optionFor "grid" axis.grid)
      { start with grid := Text.trim axis.grid } :=
    keeps_optionFor (by decide) hgrid (fun _ h _ => by rw [Axis.addOption, h]; rfl)
      (fun h => by rw [h, ← hnoGrid])
  have position : Keeps Axis.addOption { start with grid := Text.trim axis.grid }
      (if hasLegend then [legendPosition axis.legendPos] else [])
      { start with grid := Text.trim axis.grid, legendPos := shown } := by
    rw [← hshown]
    split
    next =>
      have htrim := trim_shownPosition axis.legendPos
      have hquiet : IsQuiet (Text.trim (shownPosition axis.legendPos)) := by
        rw [htrim]
        exact isQuiet_shownPosition hposition
      refine keeps_optionValue (by decide) hquiet (not_isBlankText_shownPosition _) ?_
      intro option h _
      change keyValue option = (_, Text.trim (shownPosition axis.legendPos)) at h
      rw [Axis.addOption, h, htrim]
      rfl
    next =>
      rw [← hnoPosition]
      exact .nil
  have width : Keeps Axis.addOption
      { start with grid := Text.trim axis.grid, legendPos := shown }
      (optionFor "width" axis.width)
      { start with
        grid := Text.trim axis.grid, legendPos := shown, width := Text.trim axis.width } :=
    keeps_optionFor (by decide) hwidth (fun _ h _ => by rw [Axis.addOption, h]; rfl)
      (fun h => by rw [h, ← hnoWidth])
  have height : Keeps Axis.addOption
      { start with
        grid := Text.trim axis.grid, legendPos := shown, width := Text.trim axis.width }
      (optionFor "height" axis.height)
      { start with
        grid := Text.trim axis.grid, legendPos := shown, width := Text.trim axis.width,
        height := Text.trim axis.height } :=
    keeps_optionFor (by decide) hheight (fun _ h _ => by rw [Axis.addOption, h]; rfl)
      (fun h => by rw [h, ← hnoHeight])
  exact ((grid.append position).append width).append height

/-- The options of an axis lead to its canonical settings. -/
theorem keeps_axisOptions {chart : Chart} (hlabels : ∀ text ∈ chart.axis.labels, IsQuiet text)
    (hvalues : ∀ text ∈ chart.axis.values, IsQuiet (Text.trim text)) :
    Keeps Axis.addOption {} chart.axisOptions (chart.axis.canonical chart.hasLegend) := by
  have h := ((keeps_labels hlabels).append (keeps_bounds hvalues ⟨rfl, rfl, rfl, rfl⟩)).append
    (keeps_frame hvalues chart.hasLegend ⟨rfl, rfl, rfl, rfl⟩)
  simpa only [axisOptions, Axis.canonical, List.append_assoc] using h

/-! ## Values of a series -/

section
open Expression Decimal

/-- The characters of a written domain. -/
theorem mem_writeDomain {domain : Domain} (h : domain.1.isFinite = true ∧ domain.2.isFinite = true)
    {c : Char} (hc : c ∈ writeDomain domain) : c = '-' ∨ c = ':' ∨ isMantissa c = true := by
  rcases List.mem_append.mp hc with hc | hc
  · rcases mem_plain h.1 hc with hc | hc
    · exact Or.inl hc
    · exact Or.inr (Or.inr hc)
  · rcases List.mem_cons.mp hc with hc | hc
    · exact Or.inr (Or.inl hc)
    · rcases mem_plain h.2 hc with hc | hc
      · exact Or.inl hc
      · exact Or.inr (Or.inr hc)

/-- Whether a character needs no braces in a value. -/
def isBare (c : Char) : Bool := !isBlank c && isPlain c && c != ','

/-- A text of digits, points and few other characters needs no braces as a value. -/
theorem stripBraces_bare {text : Text} (hne : text ≠ []) (hbare : text.all isBare) :
    stripBraces text = text ∧ IsOption text ∧ IsQuiet text := by
  have h (c : Char) (hc : c ∈ text) : isBlank c = false ∧ isPlain c = true ∧ c ≠ ',' := by
    simpa [isBare, and_assoc] using List.all_eq_true.mp hbare c hc
  have hplain : text.all isPlain := List.all_eq_true.mpr fun c hc => (h c hc).2.1
  have htrim : Text.IsTrimmed text :=
    ⟨fun c hc => (h c (List.mem_of_mem_head? hc)).1, fun c hc => (h c (List.mem_of_getLast? hc)).1⟩
  refine ⟨?_, ⟨?_, htrim, hne⟩, isQuiet_of_plain hplain⟩
  · have hbare : isFullyBraced text = false := by
      cases text with
      | nil => rfl
      | cons c rest =>
        have hc := (isPlain_iff.mp (h c List.mem_cons_self).2.1).1
        unfold isFullyBraced
        split
        next heq => exact absurd (List.cons.inj heq).1 hc
        next => rfl
    rw [stripBraces, Text.trim_eq_self htrim, hbare]
    rfl
  · exact isItem_of_not_mem (isNested_of_plain hplain) fun hmem => (h _ hmem).2.2 rfl

theorem isBare_of_isMantissa {c : Char} (h : isMantissa c = true) : isBare c = true := by
  have hne {d : Char} (hd : isMantissa d = false) : c ≠ d := by
    rintro rfl
    rw [h] at hd
    cases hd
  have hplain : isPlain c = true :=
    isPlain_iff.mpr ⟨hne rfl, hne rfl, hne rfl, hne rfl, hne rfl⟩
  have hcomma : c ≠ ',' := hne rfl
  simp [isBare, not_isBlank_of_isMantissa h, hplain, hcomma]

/-- A domain is written without braces, so that nothing is stripped from it on reading. -/
theorem bare_writeDomain {domain : Domain}
    (h : domain.1.isFinite = true ∧ domain.2.isFinite = true) :
    stripBraces (writeDomain domain) = writeDomain domain ∧ IsOption (writeDomain domain) ∧
      IsQuiet (writeDomain domain) := by
  refine stripBraces_bare (by simp [writeDomain]) (List.all_eq_true.mpr fun c hc => ?_)
  rcases mem_writeDomain h hc with rfl | rfl | hc
  · rfl
  · rfl
  · exact isBare_of_isMantissa hc

theorem bare_digits (n : Nat) :
    stripBraces (digits n) = digits n ∧ IsOption (digits n) ∧ IsQuiet (digits n) :=
  stripBraces_bare (digits_ne_nil n) (List.all_eq_true.mpr fun _ hc =>
    isBare_of_isMantissa (isMantissa_of_isDigit (isDigit_of_mem_digits hc)))

/-- Whether the bounds of a domain are finite and are read back from what is written for them. -/
def IsExact (domain : Domain) : Prop :=
  ∀ x ∈ [domain.1, domain.2], x.isFinite = true ∧ readFloat? (plain x) = some x

instance (domain : Domain) : Decidable (IsExact domain) :=
  inferInstanceAs (Decidable (∀ x ∈ [domain.1, domain.2], _))

theorem IsExact.isFinite {domain : Domain} (h : IsExact domain) :
    domain.1.isFinite = true ∧ domain.2.isFinite = true :=
  ⟨(h domain.1 (by simp)).1, (h domain.2 (by simp)).1⟩

/-- An exact domain is read back. -/
theorem domain?_writeDomain {domain : Domain} (h : IsExact domain) :
    domain? (writeDomain domain) = some domain := by
  have hbound {x : Float} (hx : x.isFinite = true) :
      Text.trim (plain x) = plain x ∧ ':' ∉ plain x := by
    have hchar (c : Char) (hc : c ∈ plain x) : isBlank c = false ∧ c ≠ ':' := by
      rcases mem_plain hx hc with rfl | hc
      · decide
      · refine ⟨not_isBlank_of_isMantissa hc, ?_⟩
        rintro rfl
        cases hc
    refine ⟨Text.trim_eq_self ⟨?_, ?_⟩, fun hmem => (hchar _ hmem).2 rfl⟩
    · exact fun c hc => (hchar c (List.mem_of_mem_head? hc)).1
    · exact fun c hc => (hchar c (List.mem_of_getLast? hc)).1
  obtain ⟨hlow, hlowRead⟩ := h domain.1 (by simp)
  obtain ⟨hhigh, hhighRead⟩ := h domain.2 (by simp)
  have hcut : Text.cut? (writeDomain domain) [':'] = some (plain domain.1, plain domain.2) :=
    Text.cut?_char (hbound hlow).2 (plain domain.2)
  rw [domain?, hcut]
  show (constant? (Text.trim (plain domain.1))).bind _ = _
  rw [(hbound hlow).1, constant?_plain hlow hlowRead]
  show (constant? (Text.trim (plain domain.2))).bind _ = _
  rw [(hbound hhigh).1, constant?_plain hhigh hhighRead]
  rfl

/-- A positive number of samples is read back. -/
theorem samples?_digits {n : Nat} (hpos : 0 < n) (h : n < Nat.pow 2 32) :
    samples? (digits n) = some n := by
  have htrim : Text.trim (digits n) = digits n := Text.trim_eq_self (bare_digits n).2.1.trimmed
  rw [samples?, htrim, readNat?_digits h]
  exact if_pos hpos

end

/-! ## The options of a series -/

/-- The keywords that are read before settings. -/
def flagKeys : List Text :=
  ["no markers", "no marks", "only marks", "ybar", "area style", "surf", "mesh"]

/-- An option with another key and an equals sign is a setting. -/
theorem addOption_eq_addSetting {options : SeriesOptions} {option key value : Text}
    (h : keyValue option = (key, value)) (hmem : '=' ∈ option) (hkey : key ∉ flagKeys) :
    options.addOption option = options.addSetting option key value := by
  simp only [flagKeys, List.mem_cons, not_or] at hkey
  obtain ⟨h1, h2, h3, h4, h5, h6, h7, -⟩ := hkey
  rw [SeriesOptions.addOption, h]
  simp only
  rw [if_neg (not_or.mpr ⟨h1, h2⟩), if_neg h3, if_neg h4, if_neg h5, if_neg h6, if_neg h7,
    if_pos hmem]

/-- The texts of a style, which are written trimmed. -/
def Style.values (style : Style) : List Text :=
  [style.color, style.lineWidth, style.marker, style.legend]

/-- The marker that is read back; the one that is named `none` is no marker. -/
def shownMarker (marker : Text) : Text :=
  if Text.trim marker = "none" then [] else Text.trim marker

/-- The style that is read back from options; a legend is no option. -/
def Style.kept (style : Style) : Style where
  color := Text.trim style.color
  lineWidth := Text.trim style.lineWidth
  lineStyle := style.lineStyle
  marker := shownMarker style.marker

/-- The flag of a line style is read back. -/
theorem addOption_lineStyle (options : SeriesOptions) (lineStyle : LineStyle) :
    options.addOption lineStyle.keyword =
      .ok { options with style := { options.style with lineStyle } } := by
  cases lineStyle <;> rfl

/-- The options of a style lead to what is kept of it. -/
theorem keeps_styleOptions {style : Style} (h : ∀ text ∈ style.values, IsQuiet (Text.trim text))
    {start : SeriesOptions} (hstart : start.style = {}) :
    Keeps SeriesOptions.addOption start (styleOptions style)
      { start with style := style.kept } := by
  simp only [Style.values, List.forall_mem_cons] at h
  obtain ⟨hcolor, hlineWidth, hmarker, -⟩ := h
  obtain ⟨startStyle, dataType, surface, domain, yDomain, samples, colormap⟩ := start
  obtain rfl := hstart
  have color : Keeps SeriesOptions.addOption
      ⟨{}, dataType, surface, domain, yDomain, samples, colormap⟩ (optionFor "color" style.color)
      ⟨{ color := Text.trim style.color }, dataType, surface, domain, yDomain, samples,
        colormap⟩ :=
    keeps_optionFor (by decide) hcolor
      (fun _ h hmem => (addOption_eq_addSetting h hmem (by decide)).trans rfl)
      (fun h => by rw [h])
  have lineWidth : Keeps SeriesOptions.addOption
      ⟨{ color := Text.trim style.color }, dataType, surface, domain, yDomain, samples, colormap⟩
      (optionFor "line width" style.lineWidth)
      ⟨{ color := Text.trim style.color, lineWidth := Text.trim style.lineWidth }, dataType,
        surface, domain, yDomain, samples, colormap⟩ :=
    keeps_optionFor (by decide) hlineWidth
      (fun _ h hmem => (addOption_eq_addSetting h hmem (by decide)).trans rfl)
      (fun h => by rw [h])
  have lineStyle : Keeps SeriesOptions.addOption
      ⟨{ color := Text.trim style.color, lineWidth := Text.trim style.lineWidth }, dataType,
        surface, domain, yDomain, samples, colormap⟩
      (if style.lineStyle = .solid then [] else [style.lineStyle.keyword])
      ⟨{ color := Text.trim style.color, lineWidth := Text.trim style.lineWidth,
         lineStyle := style.lineStyle }, dataType, surface, domain, yDomain, samples,
        colormap⟩ := by
    split
    next h =>
      rw [h]
      exact .nil
    next =>
      refine keeps_flag ?_ (addOption_lineStyle _ _)
      cases style.lineStyle <;> decide
  have marker : Keeps SeriesOptions.addOption
      ⟨{ color := Text.trim style.color, lineWidth := Text.trim style.lineWidth,
         lineStyle := style.lineStyle }, dataType, surface, domain, yDomain, samples, colormap⟩
      (if Text.trim style.marker = "none" then [] else optionFor "mark" style.marker)
      ⟨style.kept, dataType, surface, domain, yDomain, samples, colormap⟩ := by
    -- a marker that is named `none` is written as no option at all
    unfold Style.kept shownMarker
    split
    next => exact .nil
    next hne =>
      refine keeps_optionFor (by decide) hmarker (fun _ h hmem => ?_) (fun h => by rw [h])
      refine (addOption_eq_addSetting h hmem (by decide)).trans ?_
      show Except.ok (SeriesOptions.mk (Style.mk _ _ _ (if _ then _ else _) _) _ _ _ _ _ _) = _
      rw [if_neg hne]
  exact ((color.append lineWidth).append lineStyle).append marker

/-- A value that needs no braces is read back when the reader of settings takes it. -/
theorem keeps_bare {start final : SeriesOptions} {key text : Text} (hkey : IsKey key)
    (hother : key ∉ flagKeys)
    (hbare : stripBraces text = text ∧ IsOption text ∧ IsQuiet text)
    (hadd : ∀ option, start.addSetting option key text = .ok final) :
    Keeps SeriesOptions.addOption start [setting key text] final :=
  keeps_setting hkey hbare.2.1 hbare.2.2 hbare.1 fun option h hmem =>
    (addOption_eq_addSetting h hmem hother).trans (hadd option)

section
variable {start : SeriesOptions} {domain : Domain}

theorem keeps_domain (h : IsExact domain) :
    Keeps SeriesOptions.addOption start [setting "domain" (writeDomain domain)]
      { start with domain := some domain } := by
  refine keeps_bare (by decide) (by decide) (bare_writeDomain h.isFinite) fun option => ?_
  unfold SeriesOptions.addSetting
  rw [if_neg (by decide), if_neg (by decide), if_neg (by decide), if_neg (by decide), if_pos rfl,
    domain?_writeDomain h]

theorem keeps_yDomain (h : IsExact domain) :
    Keeps SeriesOptions.addOption start [setting "y domain" (writeDomain domain)]
      { start with yDomain := some domain } := by
  refine keeps_bare (by decide) (by decide) (bare_writeDomain h.isFinite) fun option => ?_
  unfold SeriesOptions.addSetting
  rw [if_neg (by decide), if_neg (by decide), if_neg (by decide), if_neg (by decide),
    if_neg (by decide), if_pos rfl, domain?_writeDomain h]

/-- Samples are counted from one: a count of zero comes back as one. -/
theorem keeps_samples {samples : Nat} (h : samples < Nat.pow 2 32) :
    Keeps SeriesOptions.addOption start [writeSamples samples]
      { start with samples := some (max samples 1) } := by
  have hbound : max samples 1 < Nat.pow 2 32 := Nat.max_lt.mpr ⟨h, by decide⟩
  refine keeps_bare (by decide) (by decide) (bare_digits (max samples 1)) fun option => ?_
  unfold SeriesOptions.addSetting
  rw [if_neg (by decide), if_neg (by decide), if_neg (by decide), if_pos rfl,
    show samples? (Decimal.nat (max samples 1)) = some (max samples 1) from
      samples?_digits (by omega) hbound]

end

/-- A colormap without separators is read back trimmed. -/
theorem keeps_colormap {start : SeriesOptions} {colormap : Text}
    (hquiet : IsQuiet (Text.trim colormap)) (hchars : ',' ∉ colormap ∧ '=' ∉ colormap)
    (hstart : start.colormap = []) :
    Keeps SeriesOptions.addOption start
      (if Text.isBlankText colormap then [] else ["colormap/" ++ Text.trim colormap])
      { start with colormap := Text.trim colormap } := by
  split
  next h =>
    rw [Text.trim_eq_nil_iff.mpr h, ← hstart]
    exact .nil
  next hblank =>
    have hsubset : ∀ c ∈ Text.trim colormap, c ∈ colormap := fun c hc =>
      (Text.infix_trim colormap).subset hc
    have hne : Text.trim colormap ≠ [] := fun h => hblank (Text.trim_eq_nil_iff.mp h)
    have htrim := Text.isTrimmed_trim colormap
    have hoption : IsOption ("colormap/" ++ Text.trim colormap) := by
      refine ⟨?_, ?_, List.append_ne_nil_of_right_ne_nil _ hne⟩
      · refine isItem_of_not_mem ((isNested_of_plain (by decide)).append hquiet.nested) ?_
        rw [List.mem_append, not_or]
        exact ⟨by decide, fun h => hchars.1 (hsubset _ h)⟩
      · have hfront : Text.IsTrimmed "colormap/" := by decide
        exact Text.isTrimmed_append hfront.1 htrim.2 (by decide) hne
    have hequals : '=' ∉ "colormap/".toList ++ Text.trim colormap := by
      rw [List.mem_append, not_or]
      exact ⟨by decide, fun h => hchars.2 (hsubset _ h)⟩
    refine .one hoption (hquiet.behind (by decide)) ?_
    -- without an equals sign the option is read as a flag, which none of the keywords is
    have hkey := keyValue_flag hequals hoption.trimmed
    have hother {word : Text} (h : word.head? ≠ some 'c') :
        "colormap/".toList ++ Text.trim colormap ≠ word := by
      rintro rfl
      exact h rfl
    rw [SeriesOptions.addOption, hkey]
    simp only
    rw [if_neg (not_or.mpr ⟨hother (by decide), hother (by decide)⟩), if_neg (hother (by decide)),
      if_neg (hother (by decide)), if_neg (hother (by decide)), if_neg (hother (by decide)),
      if_neg (hother (by decide)), if_neg hequals, SeriesOptions.addFlag, dropPhrase?,
      Text.isPrefixOf?_append]

/-! ## The options of a table -/

/-- Whether a column is selected by a name or not at all. -/
def IsSelector (selector : Text) : Prop := selector = [] ∨ Text.isBlankText selector = false

instance (selector : Text) : Decidable (IsSelector selector) :=
  inferInstanceAs (Decidable (_ ∨ _))

/-- A column is read back trimmed; an empty one is left out. -/
theorem keeps_column {start final : TableOptions} {key selector : Text} (hkey : IsKey key)
    (hquiet : IsQuiet (Text.trim selector))
    (hselector : IsSelector selector)
    (hadd : ∀ option, keyValue option = (key, Text.trim selector) →
      start.addOption option = .ok final)
    (hempty : selector = [] → final = start) :
    Keeps TableOptions.addOption start
      (if selector.isEmpty then [] else [setting key (optionValue selector)]) final := by
  split
  next h =>
    rw [hempty (List.isEmpty_iff.mp h)]
    exact .nil
  next h =>
    have hblank := hselector.resolve_left fun heq => h (List.isEmpty_iff.mpr heq)
    exact keeps_optionValue hkey hquiet hblank fun option hoption _ => hadd option hoption

/-- The options of a table lead to its columns and its header. -/
theorem keeps_tableOptions {data : Data} (hx : IsQuiet (Text.trim data.xColumn))
    (hy : IsQuiet (Text.trim data.yColumn)) (hselectX : IsSelector data.xColumn)
    (hselectY : IsSelector data.yColumn) :
    Keeps TableOptions.addOption {} (tableOptions data)
      ⟨Text.trim data.xColumn, Text.trim data.yColumn, data.hasHeader⟩ := by
  obtain ⟨dataType, rows, xColumn, yColumn, hasHeader⟩ := data
  have bare {text : Text} (h : stripBraces text = text ∧ IsOption text ∧ IsQuiet text)
      {start final : TableOptions} {key : Text} (hkey : IsKey key)
      (hadd : ∀ option, keyValue option = (key, text) → start.addOption option = .ok final) :
      Keeps TableOptions.addOption start [setting key text] final :=
    keeps_setting hkey h.2.1 h.2.2 h.1 fun option hoption _ => hadd option hoption
  have xColumnKept : Keeps TableOptions.addOption {}
      (if xColumn.isEmpty then []
        else [setting (if hasHeader then "x" else "x index") (optionValue xColumn)])
      { xColumn := Text.trim xColumn } := by
    refine keeps_column ?_ hx hselectX (fun option h => ?_) (by rintro rfl; rfl)
    · cases hasHeader <;> decide
    · rw [TableOptions.addOption, h]
      cases hasHeader <;> rfl
  have yColumnKept : Keeps TableOptions.addOption { xColumn := Text.trim xColumn }
      (if yColumn.isEmpty then []
        else [setting (if hasHeader then "y" else "y index") (optionValue yColumn)])
      { xColumn := Text.trim xColumn, yColumn := Text.trim yColumn } := by
    refine keeps_column ?_ hy hselectY (fun option h => ?_) (by rintro rfl; rfl)
    · cases hasHeader <;> decide
    · rw [TableOptions.addOption, h]
      cases hasHeader <;> rfl
  have headerKept : Keeps TableOptions.addOption
      { xColumn := Text.trim xColumn, yColumn := Text.trim yColumn }
      (if hasHeader then [] else [setting "header" "false"])
      ⟨Text.trim xColumn, Text.trim yColumn, hasHeader⟩ := by
    cases hasHeader with
    | true => exact .nil
    | false =>
      refine bare (stripBraces_bare (by decide) (by decide)) (by decide) fun option h => ?_
      rw [TableOptions.addOption, h]
      rfl
  have separatorKept : Keeps TableOptions.addOption
      ⟨Text.trim xColumn, Text.trim yColumn, hasHeader⟩
      (if ',' ∈ rows then [setting "col sep" "comma"] else [])
      ⟨Text.trim xColumn, Text.trim yColumn, hasHeader⟩ := by
    -- the separator is written for the typesetter and changes nothing here
    split
    next =>
      refine bare (stripBraces_bare (by decide) (by decide)) (by decide) fun option h => ?_
      rw [TableOptions.addOption, h]
      rfl
    next => exact .nil
  exact ((xColumnKept.append yColumnKept).append headerKept).append separatorKept

end TexFigure.Chart
