import TexFigure.Chart.Write
import TexFigure.Proofs.OptionList
/-!
# Settings read back

A list of settings, keys with their values, is written on one line with `optionValue` around every
value. A value may hold whatever nests: where it holds a comma or an equals sign, or is one group,
it is written in braces, and one pair of braces is taken off when it is read.

Trimming can leave a value with a last backslash that escaped a blank before (`a,b\ `). In braces
this backslash escapes the closing one, the group stays open, and the settings that follow are
taken for a part of it (`LeavesOpen`). Only behind the last value does this do no harm, since a
group that never closes is read as one that closes at the end of the text.

The line is followed as a walk over its groups: a setting is a part of its own when the walk ends
on the ground, and no text behind one that leaves its braces open brings the walk down again
(`walk_join_cases`).
-/

namespace TexFigure.Source

open Chart (setting)

/-! ## Keys and values -/

/-- A key of a setting: trimmed and not empty, without a comma, an equals sign or a delimiter. -/
structure IsSettingKey (key : Text) : Prop where
  chars : ∀ c ∈ key, c ≠ ',' ∧ c ≠ '=' ∧ isDelimiter c = false
  trimmed : Text.IsTrimmed key
  nonempty : key ≠ []

instance (key : Text) : Decidable (IsSettingKey key) :=
  decidable_of_iff
    ((key.all fun c => c != ',' && c != '=' && !isDelimiter c) = true ∧ Text.IsTrimmed key ∧
      key ≠ [])
    ⟨fun h => ⟨by simpa [and_assoc] using h.1, h.2.1, h.2.2⟩,
      fun h => ⟨by simpa [and_assoc] using h.chars, h.trimmed, h.nonempty⟩⟩

/-- A setting as it stands in an option list. -/
def writeSetting (keyed : Text × Text) : Text := setting keyed.1 (optionValue keyed.2)

/-- Whether a value is put in braces of which it escapes the closing one. -/
def LeavesOpen (value : Text) : Prop :=
  (',' ∈ Text.trim value ∨ '=' ∈ Text.trim value) ∧ ¬IsNested (Text.trim value)

instance (value : Text) : Decidable (LeavesOpen value) :=
  inferInstanceAs (Decidable (_ ∧ _))

theorem isPlain_of_isBlank {c : Char} (h : isBlank c = true) : isPlain c = true := by
  refine isPlain_iff.mpr ⟨?_, ?_, ?_, ?_, ?_⟩ <;>
  · rintro rfl
    cases h

/-- The step at a character that opens and closes nothing. -/
theorem nestStep_of_not_isDelimiter {c : Char} (h : isDelimiter c = false) (awaited : List Char)
    (escaped : Bool) : nestStep awaited escaped c = some awaited := by
  simp only [isDelimiter, Bool.or_eq_false_iff, beq_eq_false_iff_ne] at h
  simp [nestStep, h]

/-- The groups of a nested text close when it is trimmed; only its last blank may have been
escaped. -/
theorem exists_walk_trim {value : Text} (h : IsNested value) :
    ∃ escaped, walk? nestStep [] false (Text.trim value) = some ([], escaped) := by
  obtain ⟨before, after, heq, hbefore, hafter⟩ := Text.exists_trim value
  have hplain : before.all isPlain := by
    refine List.all_eq_true.mpr fun c hc => ?_
    exact isPlain_of_isBlank (List.all_eq_true.mp hbefore c hc)
  rw [IsNested, heq, List.append_assoc, walk?_append, walk?_nestStep_of_plain hplain] at h
  change walk? nestStep [] false (Text.trim value ++ after) = _ at h
  rw [walk?_append] at h
  obtain ⟨⟨awaited, escaped⟩, htrim, hrest⟩ := Option.bind_eq_some_iff.mp h
  -- the blanks behind the trimmed text leave its groups as they are
  have hstill : ∀ c ∈ after, ∀ e, nestStep awaited e c = some awaited := by
    intro c hc e
    have hc := isPlain_of_isBlank (List.all_eq_true.mp hafter c hc)
    rw [isPlain, Bool.and_eq_true, Bool.not_eq_true'] at hc
    exact nestStep_of_not_isDelimiter hc.1 awaited e
  obtain ⟨escaped', hafter⟩ := walk?_of_still hstill escaped
  obtain ⟨rfl, -⟩ := Prod.mk.inj (Option.some.inj (hafter.symm.trans hrest))
  exact ⟨escaped, htrim⟩

/-- A text that is one group ends in a brace, which escapes nothing. -/
theorem isNested_of_isFullyBraced {text : Text} {escaped : Bool}
    (hwalk : walk? nestStep [] false text = some ([], escaped)) (h : isFullyBraced text = true) :
    IsNested text := by
  unfold isFullyBraced at h
  split at h
  next rest =>
    rw [Bool.and_eq_true, beq_iff_eq] at h
    obtain ⟨init, hinit⟩ := List.getLast?_eq_some_iff.mp h.1
    have hlast : '{' :: rest = ('{' :: init) ++ ['}'] := by rw [hinit, List.cons_append]
    rw [hlast] at hwalk ⊢
    obtain rfl := not_escaped_of_walk?_concat (by decide) hwalk
    exact hwalk
  next => cases h

/-- A nested value that is written in braces leaves them open unless it is nested when it is
trimmed. -/
theorem optionValue_cases_of_nested {value : Text} (h : IsNested value) :
    (optionValue value = Text.braced (Text.trim value) ∧
        (IsNested (Text.trim value) ∨ LeavesOpen value)) ∨
      optionValue value = Text.trim value ∧ ',' ∉ Text.trim value ∧ '=' ∉ Text.trim value := by
  obtain ⟨escaped, hwalk⟩ := exists_walk_trim h
  by_cases hmem : ',' ∈ Text.trim value ∨ '=' ∈ Text.trim value
  · refine Or.inl ⟨if_pos (hmem.imp_right Or.inl), ?_⟩
    by_cases hnested : IsNested (Text.trim value)
    · exact Or.inl hnested
    · exact Or.inr ⟨hmem, hnested⟩
  · rw [not_or] at hmem
    by_cases hbraced : isFullyBraced (Text.trim value) = true
    · exact Or.inl ⟨if_pos (Or.inr (Or.inr hbraced)),
        Or.inl (isNested_of_isFullyBraced hwalk hbraced)⟩
    · exact Or.inr ⟨if_neg (by simp [hmem, hbraced]), hmem⟩

/-! ## Walks over settings -/

/-- A value that does not leave its braces open is written without an open group. -/
theorem exists_walk_of_closed {value : Text} (h : IsNested value) (hclosed : ¬LeavesOpen value) :
    ∃ escaped, walk? (itemStep ',') [] false (optionValue value) = some ([], escaped) := by
  obtain ⟨escaped, hwalk⟩ := exists_walk_trim h
  rcases optionValue_cases_of_nested h with ⟨heq, hnested⟩ | ⟨heq, hcomma, -⟩
  · rw [heq]
    exact ⟨false, isItem_braced rfl (hnested.resolve_right hclosed)⟩
  · rw [heq, walk?_itemStep_of_not_mem hcomma]
    exact ⟨escaped, hwalk⟩

/-- A value that leaves its braces open is written with an open group. -/
theorem walk?_of_leavesOpen {value : Text} (h : IsNested value) (hopen : LeavesOpen value) :
    walk? (itemStep ',') [] false (optionValue value) = some (['}'], false) := by
  obtain ⟨escaped, hwalk⟩ := exists_walk_trim h
  -- it is not nested only because something escapes what follows it
  obtain rfl : escaped = true := by
    cases escaped with
    | false => exact absurd hwalk hopen.2
    | true => rfl
  have hbraced : optionValue value = Text.braced (Text.trim value) :=
    if_pos (hopen.1.imp_right Or.inl)
  rw [hbraced]
  refine walk?_cons_eq_some.mpr ⟨['}'], itemStep_open rfl, ?_⟩
  show walk? (itemStep ',') ['}'] false (Text.trim value ++ ['}']) = some (['}'], false)
  rw [walk?_append, walk?_itemStep_inside hwalk '}' []]
  rfl

/-- The walk over a setting is the walk over its value, when the key lets it stand still. -/
theorem walk?_setting {σ : Type} {step : σ → Bool → Char → Option σ} {state : σ} {key : Text}
    (hkey : ∀ c ∈ key, ∀ e, step state e c = some state)
    (hequals : ∀ e, step state e '=' = some state) (escaped : Bool) (value : Text) :
    walk? step state escaped (setting key value) = walk? step state false value := by
  obtain ⟨escaped', hwalk⟩ := walk?_of_still hkey escaped
  rw [setting, walk?_append, hwalk]
  show walk? step state escaped' ('=' :: value) = _
  rw [walk?, hequals]
  rfl

theorem walk?_writeSetting {keyed : Text × Text} (hkey : IsSettingKey keyed.1)
    (awaited : List Char) (escaped : Bool) :
    walk? (itemStep ',') awaited escaped (writeSetting keyed) =
      walk? (itemStep ',') awaited false (optionValue keyed.2) := by
  have hstill {c : Char} (hcomma : c ≠ ',') (hc : isDelimiter c = false) (e : Bool) :
      itemStep ',' awaited e c = some awaited := by
    rw [itemStep, if_neg (fun h => hcomma h.2), nestStep_of_not_isDelimiter hc]
  refine walk?_setting (fun c hc e => ?_) (fun e => ?_) escaped _
  · obtain ⟨hcomma, -, hdelimiter⟩ := hkey.chars c hc
    exact hstill hcomma hdelimiter e
  · exact hstill (by decide) rfl e

theorem join_settings (first next : Text × Text) (rest : List (Text × Text)) :
    Text.join ", " ((first :: next :: rest).map writeSetting) =
      writeSetting first ++ ',' :: ' ' :: Text.join ", " ((next :: rest).map writeSetting) :=
  join_cons_cons _ _ _

/-- Settings behind an open group never close it. -/
theorem exists_walk_join {keyed : List (Text × Text)}
    (hkeys : ∀ s ∈ keyed, IsSettingKey s.1) (hvalues : ∀ s ∈ keyed, IsNested s.2)
    {awaited : List Char} (hopen : '}' ∈ awaited) (escaped : Bool) :
    ∃ final, walk? (itemStep ',') awaited escaped (Text.join ", " (keyed.map writeSetting)) =
      some final ∧ '}' ∈ final.1 := by
  induction keyed generalizing awaited escaped with
  | nil => exact ⟨(awaited, escaped), rfl, hopen⟩
  | cons s rest ih =>
    rw [List.forall_mem_cons] at hkeys hvalues
    obtain ⟨d, outer, rfl⟩ := List.exists_cons_of_ne_nil (List.ne_nil_of_mem hopen)
    -- the walk over the value, whatever it leaves open, happens inside the open group
    obtain ⟨inner, escaped', hvalue⟩ : ∃ inner escaped',
        walk? nestStep [] false (optionValue s.2) = some (inner, escaped') := by
      by_cases hopen : LeavesOpen s.2
      · exact ⟨_, _, walk?_nestStep_of_itemStep (walk?_of_leavesOpen hvalues.1 hopen)⟩
      · obtain ⟨e, hwalk⟩ := exists_walk_of_closed hvalues.1 hopen
        exact ⟨_, _, walk?_nestStep_of_itemStep hwalk⟩
    have hsetting : walk? (itemStep ',') (d :: outer) escaped (writeSetting s) =
        some (inner ++ d :: outer, escaped') := by
      rw [walk?_writeSetting hkeys.1]
      exact walk?_itemStep_inside hvalue d outer
    have hinside : '}' ∈ inner ++ d :: outer := List.mem_append_right _ hopen
    cases rest with
    | nil =>
      rw [List.map_singleton, Text.join_singleton]
      exact ⟨_, hsetting, hinside⟩
    | cons next rest =>
      have hstep (c : Char) (hc : isDelimiter c = false) (e : Bool) :
          itemStep ',' (inner ++ d :: outer) e c = some (inner ++ d :: outer) := by
        rw [itemStep, if_neg (fun h => List.ne_nil_of_mem hinside h.1),
          nestStep_of_not_isDelimiter hc]
      obtain ⟨final, hrest, hfinal⟩ := ih hkeys.2 hvalues.2 hinside false
      refine ⟨final, ?_, hfinal⟩
      rw [join_settings, walk?_append, hsetting]
      show walk? (itemStep ',') (inner ++ d :: outer) escaped' (',' :: ' ' :: _) = _
      rw [walk?, hstep ',' rfl]
      show walk? (itemStep ',') (inner ++ d :: outer) (escapes escaped' ',') (' ' :: _) = _
      rw [walk?, hstep ' ' rfl]
      exact hrest

/-- The first of several settings decides how the walk over them goes: no group is open behind it,
or all of them stand in the group that it leaves open. -/
theorem walk_join_cases {s : Text × Text} {rest : List (Text × Text)}
    (hkeys : ∀ t ∈ s :: rest, IsSettingKey t.1) (hvalues : ∀ t ∈ s :: rest, IsNested t.2) :
    (LeavesOpen s.2 ∧ ∃ final, walk? (itemStep ',') [] false
        (Text.join ", " ((s :: rest).map writeSetting)) = some final ∧ '}' ∈ final.1) ∨
      ¬LeavesOpen s.2 ∧
        ∃ escaped, walk? (itemStep ',') [] false (writeSetting s) = some ([], escaped) := by
  rw [List.forall_mem_cons] at hkeys hvalues
  rw [walk?_writeSetting hkeys.1]
  by_cases hopen : LeavesOpen s.2
  · refine Or.inl ⟨hopen, ?_⟩
    have hwalk := walk?_of_leavesOpen hvalues.1 hopen
    rw [← walk?_writeSetting hkeys.1 [] false] at hwalk
    cases rest with
    | nil =>
      rw [List.map_singleton, Text.join_singleton]
      exact ⟨_, hwalk, List.mem_singleton_self '}'⟩
    | cons next rest =>
      obtain ⟨final, hrest, hfinal⟩ :=
        exists_walk_join hkeys.2 hvalues.2 (List.mem_singleton_self '}') false
      refine ⟨final, ?_, hfinal⟩
      rw [join_settings, walk?_append, hwalk]
      exact hrest
  · exact Or.inr ⟨hopen, exists_walk_of_closed hvalues.1 hopen⟩

/-! ## Reading -/

/-- A setting is trimmed and not empty. -/
theorem isTrimmed_writeSetting {keyed : Text × Text} (hkey : IsSettingKey keyed.1) :
    Text.IsTrimmed (writeSetting keyed) ∧ writeSetting keyed ≠ [] := by
  refine ⟨Text.isTrimmed_append hkey.trimmed.1 ?_ hkey.nonempty (List.cons_ne_nil _ _),
    by simp [writeSetting, setting]⟩
  intro c hc
  rw [List.getLast?_cons] at hc
  cases hlast : (optionValue keyed.2).getLast? with
  | none =>
    rw [hlast] at hc
    cases hc
    rfl
  | some last =>
    rw [hlast] at hc
    exact (isTrimmed_optionValue keyed.2).2 c (hlast.trans hc)

/-- A setting is read as its key and its trimmed value, also one that leaves its braces open. -/
theorem keyValue_writeSetting {keyed : Text × Text} (hkey : IsSettingKey keyed.1)
    (hvalue : IsNested keyed.2) :
    keyValue (writeSetting keyed) = (keyed.1, Text.trim keyed.2) := by
  obtain ⟨escaped, hwalk⟩ := exists_walk_trim hvalue
  have hequals : '=' ∉ keyed.1 := fun hmem => (hkey.chars _ hmem).2.1 rfl
  have hbraces : walk? braceStep 0 false (Text.trim keyed.2) = some (0, escaped) :=
    walk?_follow (List.count '}') braceStep_of_nestStep hwalk
  rw [writeSetting, setting, keyValue_append hequals hkey.trimmed,
    stripBraces_optionValue_of_walk hbraces]

section
variable {keyed : List (Text × Text)}

/-- Settings of which none but the last leaves its braces open are options one by one. -/
theorem splitOptions_settings (hkeys : ∀ s ∈ keyed, IsSettingKey s.1)
    (hvalues : ∀ s ∈ keyed, IsNested s.2) (hclosed : ∀ s ∈ keyed.dropLast, ¬LeavesOpen s.2) :
    splitOptions (Text.join ", " (keyed.map writeSetting)) = keyed.map writeSetting := by
  induction keyed with
  | nil => rfl
  | cons s rest ih =>
    have hcases := walk_join_cases hkeys hvalues
    rw [List.forall_mem_cons] at hkeys hvalues
    obtain ⟨htrimmed, hne⟩ := isTrimmed_writeSetting hkeys.1
    cases rest with
    | nil =>
      -- the last setting is one part whether its group closes or not
      obtain ⟨final, hwalk⟩ : ∃ final,
          walk? (itemStep ',') [] false (writeSetting s) = some final := by
        rw [List.map_singleton, Text.join_singleton] at hcases
        rcases hcases with ⟨-, final, hwalk, -⟩ | ⟨-, e, hwalk⟩
        · exact ⟨final, hwalk⟩
        · exact ⟨_, hwalk⟩
      rw [List.map_singleton, Text.join, List.intercalate_singleton]
      exact splitOptions_whole (walk?_depthStep hwalk) htrimmed hne
    | cons next rest =>
      rw [List.dropLast_cons_cons, List.forall_mem_cons] at hclosed
      obtain ⟨-, e, hwalk⟩ := hcases.resolve_left fun h => hclosed.1 h.1
      rw [join_settings, splitOptions_part (walk?_depthStep hwalk) htrimmed hne,
        splitOptions_blank rfl, ih hkeys.2 hvalues.2 hclosed.2, ← List.map_cons]

/-- A setting that leaves its braces open takes in the settings behind it. -/
theorem length_splitOptions_lt (hkeys : ∀ s ∈ keyed, IsSettingKey s.1)
    (hvalues : ∀ s ∈ keyed, IsNested s.2) (hopen : ∃ s ∈ keyed.dropLast, LeavesOpen s.2) :
    (splitOptions (Text.join ", " (keyed.map writeSetting))).length < keyed.length := by
  induction keyed with
  | nil =>
    obtain ⟨s, hs, -⟩ := hopen
    cases hs
  | cons s rest ih =>
    have hcases := walk_join_cases hkeys hvalues
    rw [List.forall_mem_cons] at hkeys hvalues
    cases rest with
    | nil =>
      obtain ⟨t, ht, -⟩ := hopen
      cases ht
    | cons next rest =>
      rcases hcases with ⟨-, final, hwhole, -⟩ | ⟨hfirst, e, hwalk⟩
      · -- the walk never comes back to the ground, so that there is one part only
        rw [splitOptions, splitTopLevel_whole (walk?_depthStep hwhole)]
        refine Nat.lt_of_le_of_lt (List.length_filter_le _ _) ?_
        simp
      · rw [List.dropLast_cons_cons] at hopen
        obtain ⟨t, ht, htopen⟩ := hopen
        have htail : t ∈ (next :: rest).dropLast := by
          rcases List.mem_cons.mp ht with rfl | ht
          · exact absurd htopen hfirst
          · exact ht
        obtain ⟨htrimmed, hne⟩ := isTrimmed_writeSetting hkeys.1
        rw [join_settings, splitOptions_part (walk?_depthStep hwalk) htrimmed hne,
          splitOptions_blank rfl, List.length_cons, List.length_cons]
        have := ih hkeys.2 hvalues.2 ⟨t, htail, htopen⟩
        omega

/-- Settings on one line are read back, each with its value trimmed, exactly when none but the
last leaves its braces open. -/
theorem map_keyValue_splitOptions_iff (hkeys : ∀ s ∈ keyed, IsSettingKey s.1)
    (hvalues : ∀ s ∈ keyed, IsNested s.2) :
    (splitOptions (Text.join ", " (keyed.map writeSetting))).map keyValue =
        keyed.map (fun s => (s.1, Text.trim s.2)) ↔
      ∀ s ∈ keyed.dropLast, ¬LeavesOpen s.2 := by
  constructor
  · intro h s hs hopen
    have hlength := congrArg List.length h
    have hlt := length_splitOptions_lt hkeys hvalues ⟨s, hs, hopen⟩
    rw [List.length_map, List.length_map] at hlength
    omega
  · intro hclosed
    rw [splitOptions_settings hkeys hvalues hclosed, List.map_map]
    exact List.map_congr_left fun s hs => keyValue_writeSetting (hkeys s hs) (hvalues s hs)

end

/-- Values with commas, equals signs and groups, the last of which leaves its braces open. -/
def axisSettings : List (Text × Text) :=
  [("title", " \x7ba, b\x7d [c] "), ("x\\", "\x7bu\x7d\x7bv\x7d"), ("label", "\x7bf=1\x7d "),
    ("fill", "a,b\\ ")]

theorem map_keyValue_splitOptions_axis :
    (∀ s ∈ axisSettings, IsSettingKey s.1) ∧ (∀ s ∈ axisSettings, IsNested s.2) ∧
      (splitOptions (Text.join ", " (axisSettings.map writeSetting))).map keyValue =
        axisSettings.map (fun s => (s.1, Text.trim s.2)) := by
  have hkeys : ∀ s ∈ axisSettings, IsSettingKey s.1 := by decide
  have hvalues : ∀ s ∈ axisSettings, IsNested s.2 := by decide
  exact ⟨hkeys, hvalues, (map_keyValue_splitOptions_iff hkeys hvalues).mpr (by decide)⟩

/-- A value that leaves its braces open takes in the setting behind it. -/
theorem map_keyValue_splitOptions_open :
    let keyed : List (Text × Text) := [("k", "a,b\\ "), ("m", "c")]
    (∀ s ∈ keyed, IsSettingKey s.1) ∧ (∀ s ∈ keyed, IsNested s.2) ∧
      (splitOptions (Text.join ", " (keyed.map writeSetting))).map keyValue ≠
        keyed.map (fun s => (s.1, Text.trim s.2)) := by
  decide

end TexFigure.Source
