import TexFigure.Proofs.Nesting
import TexFigure.Proofs.Trimming
import TexFigure.Proofs.Occurrence
/-!
# Option lists

An item is a text that a splitter at a separator leaves in one piece: its groups nest, and the
separator stands inside them only (`IsItem`). Items are put together from nested texts without the
separator and from nested texts in braces, and a list of trimmed items is read back from either of
its two layouts, on one line (`splitOptions_join`) or with a line for each
(`splitOptions_cons_append`).

The value of an option comes back from `optionValue` trimmed (`stripBraces_optionValue`), and what
it is written as is an item whatever the value holds (`isItem_optionValue`).
-/

namespace TexFigure.Source

/-! ## Items -/

/-- A step over braces and brackets that refuses a separator outside them. -/
def itemStep (separator : Char) (awaited : List Char) (escaped : Bool) (c : Char) :
    Option (List Char) :=
  if awaited = [] ∧ c = separator then none else nestStep awaited escaped c

/-- Whether a text is nested with a separator inside its groups only. -/
def IsItem (separator : Char) (text : Text) : Prop :=
  walk? (itemStep separator) [] false text = some ([], false)

instance (separator : Char) (text : Text) : Decidable (IsItem separator text) :=
  inferInstanceAs (Decidable (_ = _))

section
variable {separator : Char}

theorem nestStep_of_itemStep {awaited next : List Char} {escaped : Bool} {c : Char}
    (h : itemStep separator awaited escaped c = some next) :
    nestStep awaited escaped c = some next := by
  unfold itemStep at h
  split at h
  next => cases h
  next => exact h

theorem walk?_nestStep_of_itemStep {awaited awaited' : List Char} {escaped escaped' : Bool}
    {text : Text}
    (h : walk? (itemStep separator) awaited escaped text = some (awaited', escaped')) :
    walk? nestStep awaited escaped text = some (awaited', escaped') :=
  walk?_follow id nestStep_of_itemStep h

theorem IsItem.append {text text' : Text} (h : IsItem separator text)
    (h' : IsItem separator text') : IsItem separator (text ++ text') := by
  unfold IsItem at h ⊢
  rw [walk?_append, h]
  exact h'

/-- A separator inside a group is passed over like any character. -/
theorem itemStep_inside (d : Char) (outer : List Char) {awaited next : List Char} {escaped : Bool}
    {c : Char} (h : nestStep awaited escaped c = some next) :
    itemStep separator (awaited ++ d :: outer) escaped c = some (next ++ d :: outer) := by
  rw [itemStep, if_neg (by simp)]
  exact nestStep_append (d :: outer) h

/-- A separator is passed over wherever a group is open. -/
theorem walk?_itemStep_inside {inner : List Char} {escaped escaped' : Bool} {text : Text}
    (h : walk? nestStep [] escaped text = some (inner, escaped')) (d : Char) (outer : List Char) :
    walk? (itemStep separator) (d :: outer) escaped text = some (inner ++ d :: outer, escaped') :=
  walk?_follow (· ++ d :: outer) (itemStep_inside d outer) h

/-- The step at an opening brace, which is no separator. -/
theorem itemStep_open (hseparator : isDelimiter separator = false) :
    itemStep separator [] false '{' = some ['}'] := by
  rw [itemStep, if_neg (by rintro ⟨-, rfl⟩; cases hseparator)]
  rfl

/-- A nested text in braces is an item. -/
theorem isItem_braced (hseparator : isDelimiter separator = false) {text : Text}
    (h : IsNested text) : IsItem separator (Text.braced text) := by
  refine walk?_cons_eq_some.mpr ⟨['}'], itemStep_open hseparator, ?_⟩
  show walk? (itemStep separator) ['}'] false (text ++ ['}']) = some ([], false)
  rw [walk?_append, walk?_itemStep_inside h '}' []]
  show walk? (itemStep separator) ['}'] false ['}'] = some ([], false)
  rw [walk?, itemStep, if_neg (by simp)]
  rfl

/-- Without the separator the steps are those over braces and brackets. -/
theorem walk?_itemStep_of_not_mem {text : Text} (hmem : separator ∉ text) (awaited : List Char)
    (escaped : Bool) :
    walk? (itemStep separator) awaited escaped text = walk? nestStep awaited escaped text := by
  refine walk?_congr (fun c hc awaited escaped => ?_) awaited escaped
  rw [itemStep, if_neg]
  rintro ⟨-, rfl⟩
  exact hmem hc

/-- A nested text without the separator is an item. -/
theorem isItem_of_not_mem {text : Text} (h : IsNested text) (hmem : separator ∉ text) :
    IsItem separator text := by
  rw [IsItem, walk?_itemStep_of_not_mem hmem]
  exact h

end

/-! ## Splitting -/

/-- A text in front of several parts goes to the first of them. -/
theorem foldr_consToFirst (text part : Text) (parts : List Text) :
    text.foldr Text.consToFirst (part :: parts) = (text ++ part) :: parts := by
  induction text with
  | nil => rfl
  | cons c rest ih =>
    rw [List.foldr_cons, ih]
    rfl

/-- The depth behind a character as a splitter counts it, in braces and brackets alike. A step
refuses a separator on the ground. -/
def depthStep (separator : Char) (depth : Nat) (escaped : Bool) (c : Char) : Option Nat :=
  if depth = 0 ∧ c = separator ∧ isDelimiter c = false then none
  else some (groupDepth depth escaped c)

/-- The depth is the number of closing delimiters that are awaited. -/
theorem depthStep_of_itemStep {separator : Char} {awaited next : List Char} {escaped : Bool}
    {c : Char} (h : itemStep separator awaited escaped c = some next) :
    depthStep separator awaited.length escaped c = some next.length := by
  -- a separator on the ground is a step that the walk refuses
  have hpass : ¬(awaited.length = 0 ∧ c = separator ∧ isDelimiter c = false) := by
    rintro ⟨hlength, rfl, -⟩
    rw [itemStep, if_pos ⟨List.length_eq_zero_iff.mp hlength, rfl⟩] at h
    cases h
  have hdepth : groupDepth awaited.length escaped c = next.length := by
    have hstep := nestStep_of_itemStep h
    unfold nestStep at hstep
    unfold groupDepth
    cases awaited with
    | nil => grind
    | cons d awaited => grind
  rw [depthStep, if_neg hpass, hdepth]

theorem walk?_depthStep {separator : Char} {awaited awaited' : List Char} {escaped escaped' : Bool}
    {text : Text}
    (h : walk? (itemStep separator) awaited escaped text = some (awaited', escaped')) :
    walk? (depthStep separator) awaited.length escaped text = some (awaited'.length, escaped') :=
  walk?_follow List.length depthStep_of_itemStep h

theorem splitAtDepth_walk {separator : Char} {depth depth' : Nat} {escaped escaped' : Bool}
    {text : Text}
    (h : walk? (depthStep separator) depth escaped text = some (depth', escaped')) (rest : Text) :
    splitAtDepth separator depth escaped (text ++ rest) =
      text.foldr Text.consToFirst (splitAtDepth separator depth' escaped' rest) := by
  induction text generalizing depth escaped with
  | nil =>
    cases h
    rfl
  | cons c text ih =>
    obtain ⟨next, hnext, hrest⟩ := walk?_cons_eq_some.mp h
    rw [List.cons_append, splitAtDepth, List.foldr_cons]
    rw [depthStep] at hnext
    split at hnext
    next => cases hnext
    next hpass => rw [if_neg hpass, Option.some.inj hnext, ih hrest]

/-- A part ends at the separator behind its groups, also where that is escaped. -/
theorem splitTopLevel_part {separator : Char} (hseparator : isPlain separator) {text : Text}
    {escaped : Bool} (h : walk? (depthStep separator) 0 false text = some (0, escaped))
    (rest : Text) :
    splitTopLevel separator (text ++ separator :: rest) =
      text :: splitTopLevel separator rest := by
  obtain ⟨hdelimiter, hslash⟩ := Bool.and_eq_true_iff.mp hseparator
  have hescapes : escapes escaped separator = false := by
    rw [escapes, beq_eq_false_iff_ne.mpr (bne_iff_ne.mp hslash), Bool.false_and]
  rw [splitTopLevel, splitAtDepth_walk h (separator :: rest), splitAtDepth,
    if_pos ⟨rfl, rfl, by simpa using hdelimiter⟩, foldr_consToFirst, List.append_nil, hescapes]
  rfl

/-- A text is one part when no separator stands outside its groups, closed or not. -/
theorem splitTopLevel_whole {separator : Char} {text : Text} {final : Nat × Bool}
    (h : walk? (depthStep separator) 0 false text = some final) :
    splitTopLevel separator text = [text] := by
  have hsplit := splitAtDepth_walk h []
  rw [List.append_nil] at hsplit
  rw [splitTopLevel, hsplit, splitAtDepth, foldr_consToFirst, List.append_nil]

/-! ## Options -/

/-- An item that stands in an option list as it is: trimmed, and not empty. -/
structure IsOption (option : Text) : Prop where
  item : IsItem ',' option
  trimmed : Text.IsTrimmed option
  nonempty : option ≠ []

/-- A part in front of the others is the first option. -/
theorem splitOptions_part {part : Text} {escaped : Bool}
    (h : walk? (depthStep ',') 0 false part = some (0, escaped)) (htrimmed : Text.IsTrimmed part)
    (hne : part ≠ []) (rest : Text) :
    splitOptions (part ++ ',' :: rest) = part :: splitOptions rest := by
  rw [splitOptions, splitTopLevel_part rfl h, List.map_cons, Text.trim_eq_self htrimmed,
    List.filter_cons_of_pos (by simpa using hne)]
  rfl

/-- An option in front of the others is the first. -/
theorem splitOptions_cons_append {option : Text} (h : IsOption option) (rest : Text) :
    splitOptions (option ++ ',' :: rest) = option :: splitOptions rest :=
  splitOptions_part (walk?_depthStep h.item) h.trimmed h.nonempty rest

/-- A text without a comma outside its groups is one option. -/
theorem splitOptions_whole {text : Text} {final : Nat × Bool}
    (h : walk? (depthStep ',') 0 false text = some final) (htrimmed : Text.IsTrimmed text)
    (hne : text ≠ []) : splitOptions text = [text] := by
  rw [splitOptions, splitTopLevel_whole h, List.map_singleton, Text.trim_eq_self htrimmed]
  exact List.filter_cons_of_pos (by simpa using hne)

theorem splitOptions_option {option : Text} (h : IsOption option) :
    splitOptions option = [option] :=
  splitOptions_whole (walk?_depthStep h.item) h.trimmed h.nonempty

/-- A blank in front of an option list means nothing. -/
theorem splitOptions_blank {c : Char} (hblank : isAsciiBlank c = true) (text : Text) :
    splitOptions (c :: text) = splitOptions text := by
  have hc : c ≠ ',' ∧ isPlain c := by
    simp only [isAsciiBlank, Bool.or_eq_true, beq_iff_eq] at hblank
    rcases hblank with (((h | h) | h) | h) | h <;> subst h <;> decide
  have hplain := isPlain_iff.mp hc.2
  have hsplit : splitTopLevel ',' (c :: text) = Text.consToFirst c (splitTopLevel ',' text) := by
    rw [splitTopLevel, splitAtDepth, if_neg (fun h => hc.1 h.2.1)]
    rw [show groupDepth 0 false c = 0 by simp [groupDepth, hplain],
      show escapes false c = false by simp [escapes, hplain]]
    rfl
  rw [splitOptions, splitOptions, hsplit]
  have htrim := Text.trim_cons_blank (isBlank_of_isAsciiBlank hblank)
  -- the blank goes to the first part and is trimmed away there
  cases splitTopLevel ',' text with
  | nil =>
    rw [Text.consToFirst, List.map_singleton, htrim]
    rfl
  | cons part parts => rw [Text.consToFirst, List.map_cons, htrim, List.map_cons]

theorem join_cons_cons (option next : Text) (rest : List Text) :
    Text.join ", " (option :: next :: rest) =
      option ++ ',' :: ' ' :: Text.join ", " (next :: rest) := by
  rw [Text.join_cons_cons]
  rfl

/-- Options on one line are read back. -/
theorem splitOptions_join {options : List Text} (h : ∀ option ∈ options, IsOption option) :
    splitOptions (Text.join ", " options) = options := by
  induction options with
  | nil => rfl
  | cons option rest ih =>
    rw [List.forall_mem_cons] at h
    cases rest with
    | nil =>
      rw [Text.join_singleton]
      exact splitOptions_option h.1
    | cons next rest =>
      rw [join_cons_cons, splitOptions_cons_append h.1, splitOptions_blank rfl, ih h.2]

/-! ## Values -/

/-- A text in braces is trimmed. -/
theorem isTrimmed_braced (text : Text) : Text.IsTrimmed (Text.braced text) := by
  constructor
  · intro c hc
    cases hc
    rfl
  · intro c hc
    rw [Text.braced, List.cons_append, List.getLast?_cons, List.getLast?_concat] at hc
    cases hc
    rfl

theorem stripBraces_braced_of_walk {text : Text} {escaped : Bool}
    (h : walk? braceStep 0 false text = some (0, escaped)) :
    stripBraces (Text.braced text) = text := by
  rw [stripBraces, Text.trim_eq_self (isTrimmed_braced text)]
  show (if isFullyBraced (Text.braced text) then (text ++ ['}']).dropLast else _) = text
  rw [if_pos (isFullyBraced_braced h), List.dropLast_concat]

theorem stripBraces_braced {text : Text} (h : IsBalanced text) :
    stripBraces (Text.braced text) = text :=
  stripBraces_braced_of_walk h

/-- A value that ends in no brace is no group. -/
theorem stripBraces_concat {c : Char} (hblank : isBlank c = false) (hc : c ≠ '}') (value : Text) :
    stripBraces (value ++ [c]) = Text.trim (value ++ [c]) := by
  have hbraced : isFullyBraced (Text.trim (value ++ [c])) = false := by
    rw [Text.trim_concat hblank]
    unfold isFullyBraced
    split
    next rest heq =>
      rw [Bool.and_eq_false_iff]
      refine Or.inl (beq_eq_false_iff_ne.mpr fun hlast => ?_)
      obtain ⟨init, rfl⟩ := List.getLast?_eq_some_iff.mp hlast
      rw [← List.cons_append] at heq
      exact hc (List.cons.inj (List.append_inj_right' heq rfl)).1
    next => rfl
  rw [stripBraces, hbraced]
  rfl

/-- The value of an option stands in braces, or as it is when it holds no comma and is no group. -/
theorem optionValue_cases (value : Text) :
    optionValue value = Text.braced (Text.trim value) ∨
      optionValue value = Text.trim value ∧ ',' ∉ Text.trim value ∧
        isFullyBraced (Text.trim value) = false := by
  by_cases h : ',' ∈ Text.trim value ∨ '=' ∈ Text.trim value ∨ isFullyBraced (Text.trim value)
  · exact Or.inl (if_pos h)
  · refine Or.inr ⟨if_neg h, fun hmem => h (Or.inl hmem), ?_⟩
    exact Bool.eq_false_iff.mpr fun hbraced => h (Or.inr (Or.inr hbraced))

/-- The value of an option is read back trimmed, also when it ends in an escape. -/
theorem stripBraces_optionValue_of_walk {value : Text} {escaped : Bool}
    (h : walk? braceStep 0 false (Text.trim value) = some (0, escaped)) :
    stripBraces (optionValue value) = Text.trim value := by
  rcases optionValue_cases value with heq | ⟨heq, -, hbraced⟩
  · rw [heq, stripBraces_braced_of_walk h]
  · rw [heq, stripBraces, Text.trim_trim, hbraced]
    rfl

theorem stripBraces_optionValue {value : Text} (h : IsBalanced (Text.trim value)) :
    stripBraces (optionValue value) = Text.trim value :=
  stripBraces_optionValue_of_walk h

theorem isItem_optionValue {value : Text} (h : IsNested (Text.trim value)) :
    IsItem ',' (optionValue value) := by
  rcases optionValue_cases value with heq | ⟨heq, hcomma, -⟩
  · rw [heq]
    exact isItem_braced rfl h
  · rw [heq]
    exact isItem_of_not_mem h hcomma

theorem isTrimmed_optionValue (value : Text) : Text.IsTrimmed (optionValue value) := by
  rcases optionValue_cases value with heq | ⟨heq, -, -⟩
  · rw [heq]
    exact isTrimmed_braced _
  · rw [heq]
    exact Text.isTrimmed_trim value

/-- The value of an option is not empty unless it is blank. -/
theorem optionValue_ne_nil {value : Text} (h : Text.isBlankText value = false) :
    optionValue value ≠ [] := by
  rcases optionValue_cases value with heq | ⟨heq, -, -⟩
  · rw [heq]
    exact List.cons_ne_nil _ _
  · rw [heq, ne_eq, Text.trim_eq_nil_iff, h]
    exact Bool.false_ne_true

/-- The key of an option ends at its first equals sign. -/
theorem keyValue_append {key : Text} (hkey : '=' ∉ key) (htrim : Text.IsTrimmed key)
    (value : Text) : keyValue (key ++ '=' :: value) = (key, stripBraces value) := by
  rw [keyValue, Text.cut?_char hkey]
  show (Text.trim key, stripBraces value) = _
  rw [Text.trim_eq_self htrim]

/-- An option without an equals sign is a flag. -/
theorem keyValue_flag {option : Text} (h : '=' ∉ option) (htrim : Text.IsTrimmed option) :
    keyValue option = (option, []) := by
  rw [keyValue, Text.cut?_char_eq_none h]
  show (Text.trim option, []) = _
  rw [Text.trim_eq_self htrim]

end TexFigure.Source
