import TexFigure.Proofs.Settings
/-!
# Brackets inside brace groups

A grouped option keeps its commas and its brackets inside brace groups, where brackets are plain
text: the half-open interval of `title={[0,1)}` is a fine title. Joined with commas, grouped
options have their separators outside all groups, and a reader that counts braces and brackets
apart would find them there.

The splitter counts both in one depth. A bracket that stays open inside its braces leaves the depth
above the ground, and the separator behind the option is passed over; a bracket that closes nothing
brings the depth to the ground too early, and a comma inside the braces is taken for a separator.

> `splitOptions_join_commas_iff`: grouped options are read back exactly when neither happens.

What goes wrong is seen at the first option that comes back, which is then too short
(`head?_splitOptions_of_cut`) or too long (`head?_splitOptions_of_open`).
-/

namespace TexFigure.Source

/-! ## Grouped options -/

/-- A step over braces that refuses a comma or a bracket outside of them. -/
def groupedStep (depth : Nat) (escaped : Bool) (c : Char) : Option Nat :=
  if depth = 0 ∧ (c = ',' ∨ c = '[' ∨ c = ']') then none else braceStep depth escaped c

/-- An option whose braces are balanced and whose commas and brackets stand inside its braces. -/
structure IsGrouped (option : Text) : Prop where
  grouped : walk? groupedStep 0 false option = some (0, false)
  trimmed : Text.IsTrimmed option
  nonempty : option ≠ []

instance (option : Text) : Decidable (IsGrouped option) :=
  decidable_of_iff
    (walk? groupedStep 0 false option = some (0, false) ∧ Text.IsTrimmed option ∧ option ≠ [])
    ⟨fun h => ⟨h.1, h.2.1, h.2.2⟩, fun h => ⟨h.grouped, h.trimmed, h.nonempty⟩⟩

/-- Whether the depth of braces and brackets together is above the ground at every comma. -/
def IsUncut (option : Text) : Prop := (walk? (depthStep ',') 0 false option).isSome

/-- Whether that depth comes back to the ground behind the option as well. -/
def IsLevel (option : Text) : Prop := walk? (depthStep ',') 0 false option = some (0, false)

instance (option : Text) : Decidable (IsUncut option) := inferInstanceAs (Decidable (_ = _))

instance (option : Text) : Decidable (IsLevel option) := inferInstanceAs (Decidable (_ = _))

/-! ## Walks -/

section
variable {σ τ : Type} {step : σ → Bool → Char → Option σ} {step' : τ → Bool → Char → Option τ}

/-- A walk that stops does so at a character, in front of which it arrives. -/
theorem exists_refused {state : σ} {escaped : Bool} {text : Text}
    (h : walk? step state escaped text = none) :
    ∃ before c after, text = before ++ c :: after ∧ ∃ state' escaped',
      walk? step state escaped before = some (state', escaped') ∧
        step state' escaped' c = none := by
  induction text generalizing state escaped with
  | nil => cases h
  | cons c rest ih =>
    cases hstep : step state escaped c with
    | none => exact ⟨[], c, rest, rfl, state, escaped, rfl, hstep⟩
    | some next =>
      rw [walk?, hstep, Option.bind_some] at h
      obtain ⟨before, d, after, rfl, state', escaped', hwalk, hrefused⟩ := ih h
      exact ⟨c :: before, d, after, rfl, state', escaped',
        walk?_cons_eq_some.mpr ⟨next, hstep, hwalk⟩, hrefused⟩

/-- What escapes the next character depends on the text alone. -/
theorem escaped_eq {state state' : σ} {other other' : τ} {escaped first second : Bool} {text : Text}
    (h : walk? step state escaped text = some (state', first))
    (h' : walk? step' other escaped text = some (other', second)) : first = second := by
  induction text generalizing state other escaped with
  | nil =>
    cases h
    cases h'
    rfl
  | cons c rest ih =>
    obtain ⟨next, -, hrest⟩ := walk?_cons_eq_some.mp h
    obtain ⟨next', -, hrest'⟩ := walk?_cons_eq_some.mp h'
    exact ih hrest hrest'

end

/-! ## The first option that comes back -/

section
variable {option : Text}

/-- In front of a comma a grouped option is not blank, since a brace has been opened there. -/
theorem not_isBlankText_before {before after : Text} (h : IsGrouped (before ++ ',' :: after)) :
    Text.isBlankText before = false := by
  rw [Bool.eq_false_iff]
  intro hblank
  have hstill : ∀ c ∈ before, ∀ escaped, groupedStep 0 escaped c = some 0 := by
    intro c hc escaped
    have hblank := List.all_eq_true.mp hblank c hc
    have hplain := isPlain_iff.mp (isPlain_of_isBlank hblank)
    have hcomma : c ≠ ',' := by
      rintro rfl
      cases hblank
    simp [groupedStep, braceStep, hplain, hcomma]
  obtain ⟨escaped, hbefore⟩ := walk?_of_still hstill false
  have hwalk := h.grouped
  rw [walk?_append, hbefore] at hwalk
  -- the comma would stand outside all braces
  cases hwalk

/-- Of an option that is cut inside, a part comes back that is too short. -/
theorem head?_splitOptions_of_cut (h : IsGrouped option) (hcut : ¬IsUncut option) (rest : Text) :
    (splitOptions (option ++ rest)).head? ≠ some option := by
  rw [IsUncut, Option.not_isSome_iff_eq_none] at hcut
  obtain ⟨before, c, after, rfl, depth, escaped, hwalk, hrefused⟩ := exists_refused hcut
  obtain ⟨rfl, rfl⟩ : depth = 0 ∧ c = ',' := by
    rw [depthStep] at hrefused
    split at hrefused
    next hc => exact ⟨hc.1, hc.2.1⟩
    next => cases hrefused
  have hblank := not_isBlankText_before h
  have hne : Text.trim before ≠ [] := by rw [ne_eq, Text.trim_eq_nil_iff, hblank]; decide
  have hfirst : splitOptions (before ++ ',' :: after ++ rest) =
      Text.trim before :: splitOptions (after ++ rest) := by
    rw [List.append_assoc, List.cons_append, splitOptions, splitTopLevel_part rfl hwalk,
      List.map_cons, List.filter_cons_of_pos (by simpa using hne)]
    rfl
  rw [hfirst, List.head?_cons, ne_eq, Option.some.injEq]
  intro heq
  have hle := (Text.infix_trim before).length_le
  have hlength := congrArg List.length heq
  rw [List.length_append, List.length_cons] at hlength
  omega

/-- Trimming takes nothing off a trimmed text and the comma behind it. -/
theorem trim_append_comma (htrimmed : Text.IsTrimmed option) (hne : option ≠ []) (rest : Text) :
    Text.trim (option ++ ',' :: rest) = option ++ ',' :: Text.trimEnd rest := by
  obtain ⟨c, tail, rfl⟩ := List.exists_cons_of_ne_nil hne
  rw [Text.trim, List.cons_append, Text.trimStart_cons (htrimmed.1 c rfl), ← List.cons_append,
    Text.trimEnd_append_cons (by rfl)]

/-- An option that does not come back to the ground takes in the comma behind it. -/
theorem head?_splitOptions_of_open (h : IsGrouped option) (huncut : IsUncut option)
    (hopen : ¬IsLevel option) (rest : Text) :
    (splitOptions (option ++ ',' :: rest)).head? ≠ some option := by
  obtain ⟨⟨depth, escaped⟩, hwalk⟩ := Option.isSome_iff_exists.mp huncut
  obtain rfl : escaped = false := escaped_eq hwalk h.grouped
  have hdepth : depth ≠ 0 := by
    rintro rfl
    exact hopen hwalk
  obtain ⟨part, parts, hparts⟩ : ∃ part parts,
      splitAtDepth ',' depth false (',' :: rest) = (',' :: part) :: parts := by
    rw [splitAtDepth, if_neg (fun hc => hdepth hc.1)]
    cases splitAtDepth ',' (groupDepth depth false ',') (escapes false ',') rest with
    | nil => exact ⟨[], [], rfl⟩
    | cons part parts => exact ⟨part, parts, rfl⟩
  have hsplit : splitTopLevel ',' (option ++ ',' :: rest) = (option ++ ',' :: part) :: parts := by
    rw [splitTopLevel, splitAtDepth_walk hwalk, hparts, foldr_consToFirst]
  rw [splitOptions, hsplit, List.map_cons, trim_append_comma h.trimmed h.nonempty,
    List.filter_cons_of_pos (by simp), List.head?_cons, ne_eq, Option.some.injEq]
  intro heq
  have hlength := congrArg List.length heq
  rw [List.length_append, List.length_cons] at hlength
  omega

end

/-! ## All options -/

theorem join_commas (first next : Text) (rest : List Text) :
    Text.join "," (first :: next :: rest) = first ++ ',' :: Text.join "," (next :: rest) := by
  rw [Text.join_cons_cons]
  rfl

/-- Grouped options with commas between them are read back exactly when the depth of braces and
brackets together is above the ground at each of their commas, and comes back to it behind each
option but the last. -/
theorem splitOptions_join_commas_iff {options : List Text} (h : ∀ o ∈ options, IsGrouped o) :
    splitOptions (Text.join "," options) = options ↔
      (∀ o ∈ options, IsUncut o) ∧ ∀ o ∈ options.dropLast, IsLevel o := by
  induction options with
  | nil => exact ⟨fun _ => by simp, fun _ => rfl⟩
  | cons first rest ih =>
    rw [List.forall_mem_cons] at h
    cases rest with
    | nil =>
      rw [Text.join, List.intercalate_singleton]
      constructor
      · intro hsplit
        refine ⟨List.forall_mem_singleton.mpr ?_, by simp⟩
        by_contra hcut
        refine head?_splitOptions_of_cut h.1 hcut [] ?_
        rw [List.append_nil, hsplit]
        rfl
      · rintro ⟨huncut, -⟩
        obtain ⟨final, hwalk⟩ := Option.isSome_iff_exists.mp (huncut first List.mem_cons_self)
        exact splitOptions_whole hwalk h.1.trimmed h.1.nonempty
    | cons next rest =>
      rw [join_commas, List.dropLast_cons_cons]
      constructor
      · intro hsplit
        have hhead : (splitOptions (first ++ ',' :: Text.join "," (next :: rest))).head? =
            some first := by
          rw [hsplit]
          rfl
        -- a first option that comes back as it is has been cut at the comma behind it
        have huncut : IsUncut first := by
          by_contra hcut
          exact head?_splitOptions_of_cut h.1 hcut _ hhead
        have hlevel : IsLevel first := by
          by_contra hopen
          exact head?_splitOptions_of_open h.1 huncut hopen _ hhead
        rw [splitOptions_part hlevel h.1.trimmed h.1.nonempty] at hsplit
        obtain ⟨huncuts, hlevels⟩ := (ih h.2).mp (List.cons.inj hsplit).2
        exact ⟨List.forall_mem_cons.mpr ⟨huncut, huncuts⟩,
          List.forall_mem_cons.mpr ⟨hlevel, hlevels⟩⟩
      · rintro ⟨huncuts, hlevels⟩
        obtain ⟨hlevel, hlevels⟩ := List.forall_mem_cons.mp hlevels
        rw [splitOptions_part hlevel h.1.trimmed h.1.nonempty,
          (ih h.2).mpr ⟨(List.forall_mem_cons.mp huncuts).2, hlevels⟩]

/-- Options with brackets that nest, that close nothing, and that stay open behind the last. -/
theorem splitOptions_join_commas_brackets :
    let options : List Text :=
      ["title=\x7bA, [B]\x7d", "note=\x7b]\x7d", "grid", "label=\x7b[0,1)\x7d"]
    (∀ o ∈ options, IsGrouped o) ∧ splitOptions (Text.join "," options) = options := by
  intro options
  have hgrouped : ∀ o ∈ options, IsGrouped o := by decide
  exact ⟨hgrouped, (splitOptions_join_commas_iff hgrouped).mpr (by decide)⟩

/-- An interval in braces takes in the option behind it. -/
theorem splitOptions_join_commas_interval :
    let options : List Text := ["title=\x7b[0,1)\x7d", "xmin=0"]
    (∀ o ∈ options, IsGrouped o) ∧ splitOptions (Text.join "," options) ≠ options := by
  decide

end TexFigure.Source
