import TexFigure.Source.Split
/-!
# Balanced and nested texts

What it means that the groups of a text close, stated without the scanners: `IsBalanced` looks at
braces, `IsNested` at braces and brackets, which have to close in the order opposite to that in
which they open. Both are runs of a walk (`walk?`) that refuses a closing delimiter without its
opening one, and both ask that the text do not end on an escaping backslash.

A scanner that walks over a balanced or nested text comes out in the state in which it went in.
The lemmas say this for the cuts at a brace and at a bracket:

> `braceContent_append`: a balanced text in braces is the content of its group.
> `brackets?_bracketed`: a text in brackets is the content of its group when its braces are balanced
> and so are its brackets outside the braces (`IsBracketContent`), as in a nested text.
-/

namespace TexFigure.Source

/-! ## Walks -/

/-- Walk over a text. A step is told whether its character is escaped, and may refuse it; the
answer is the state behind the text and whether the next character is escaped. -/
def walk? {σ : Type} (step : σ → Bool → Char → Option σ) (state : σ) (escaped : Bool) :
    Text → Option (σ × Bool)
  | [] => some (state, escaped)
  | c :: rest =>
    (step state escaped c).bind fun next => walk? step next (escapes escaped c) rest

section
variable {σ τ : Type} {step : σ → Bool → Char → Option σ}

theorem walk?_cons_eq_some {state : σ} {escaped : Bool} {c : Char} {rest : Text}
    {final : σ × Bool} :
    walk? step state escaped (c :: rest) = some final ↔
      ∃ next, step state escaped c = some next ∧
        walk? step next (escapes escaped c) rest = some final :=
  Option.bind_eq_some_iff

/-- A walk over two texts goes on behind the first where that ended. -/
theorem walk?_append (state : σ) (escaped : Bool) (text text' : Text) :
    walk? step state escaped (text ++ text') =
      (walk? step state escaped text).bind fun (next, escaped') =>
        walk? step next escaped' text' := by
  induction text generalizing state escaped with
  | nil => rfl
  | cons c rest ih =>
    rw [List.cons_append, walk?, walk?]
    -- a step that refuses the character ends both walks
    cases step state escaped c with
    | none => rfl
    | some next => exact ih next (escapes escaped c)

/-- A walk is followed by any walk whose steps follow its steps. -/
theorem walk?_follow {step' : τ → Bool → Char → Option τ} (f : σ → τ)
    (hstep : ∀ {s e c s'}, step s e c = some s' → step' (f s) e c = some (f s'))
    {s s' : σ} {e e' : Bool} {text : Text} (h : walk? step s e text = some (s', e')) :
    walk? step' (f s) e text = some (f s', e') := by
  induction text generalizing s e with
  | nil =>
    cases h
    rfl
  | cons c rest ih =>
    obtain ⟨next, hnext, hrest⟩ := walk?_cons_eq_some.mp h
    exact walk?_cons_eq_some.mpr ⟨f next, hstep hnext, ih hrest⟩

/-- A walk stands still on characters that leave its state alone and escape nothing. -/
theorem walk?_of_idle {state : σ} {text : Text}
    (h : ∀ c ∈ text, step state false c = some state ∧ c ≠ '\\') :
    walk? step state false text = some (state, false) := by
  induction text with
  | nil => rfl
  | cons c rest ih =>
    obtain ⟨hstep, hne⟩ := h c List.mem_cons_self
    refine walk?_cons_eq_some.mpr ⟨state, hstep, ?_⟩
    rw [escapes, beq_eq_false_iff_ne.mpr hne, Bool.false_and]
    exact ih fun d hd => h d (List.mem_cons_of_mem _ hd)

/-- A walk stands still on characters that leave its state alone whether they are escaped or not. -/
theorem walk?_of_still {state : σ} {text : Text}
    (h : ∀ c ∈ text, ∀ escaped, step state escaped c = some state) (escaped : Bool) :
    ∃ escaped', walk? step state escaped text = some (state, escaped') := by
  induction text generalizing escaped with
  | nil => exact ⟨escaped, rfl⟩
  | cons c rest ih =>
    rw [List.forall_mem_cons] at h
    obtain ⟨escaped', hrest⟩ := ih h.2 (escapes escaped c)
    exact ⟨escaped', walk?_cons_eq_some.mpr ⟨state, h.1 escaped, hrest⟩⟩

/-- Walks are the same when their steps are the same on the characters of the text. -/
theorem walk?_congr {step' : σ → Bool → Char → Option σ} {text : Text}
    (h : ∀ c ∈ text, ∀ state escaped, step state escaped c = step' state escaped c) (state : σ)
    (escaped : Bool) : walk? step state escaped text = walk? step' state escaped text := by
  induction text generalizing state escaped with
  | nil => rfl
  | cons c rest ih =>
    rw [List.forall_mem_cons] at h
    rw [walk?, walk?, h.1]
    exact congrArg _ (funext fun next => ih h.2 next (escapes escaped c))

/-- A walk that stands still on a backslash and on what it escapes passes over them together. -/
theorem walk?_backslash {state : σ} {c : Char} (hslash : step state false '\\' = some state)
    (hc : step state true c = some state) (rest : Text) :
    walk? step state false ('\\' :: c :: rest) = walk? step state false rest := by
  have hescapes : escapes true c = false := by simp [escapes]
  rw [walk?, hslash, Option.bind_some, show escapes false '\\' = true from rfl, walk?, hc,
    Option.bind_some, hescapes]

/-- What follows a character other than a backslash is not escaped. -/
theorem not_escaped_of_walk?_concat {state state' : σ} {escaped escaped' : Bool} {text : Text}
    {c : Char} (hc : c ≠ '\\')
    (h : walk? step state escaped (text ++ [c]) = some (state', escaped')) : escaped' = false := by
  rw [walk?_append] at h
  obtain ⟨⟨next, e⟩, -, hlast⟩ := Option.bind_eq_some_iff.mp h
  obtain ⟨_, -, hnil⟩ := walk?_cons_eq_some.mp hlast
  have hescaped : escapes e c = escaped' := congrArg Prod.snd (Option.some.inj hnil)
  rw [← hescaped]
  simp [escapes, hc]

end

/-- Texts by the steps of a reader that takes a backslash together with what it escapes. -/
theorem escape_induction {motive : Text → Prop} (nil : motive []) (slash : motive ['\\'])
    (escaped : ∀ c rest, motive rest → motive ('\\' :: c :: rest))
    (cons : ∀ c rest, c ≠ '\\' → motive rest → motive (c :: rest)) (text : Text) :
    motive text := by
  induction hlength : text.length using Nat.strongRecOn generalizing text with
  | ind length ih =>
    subst hlength
    cases text with
    | nil => exact nil
    | cons c rest =>
      by_cases hc : c = '\\'
      · subst hc
        cases rest with
        | nil => exact slash
        | cons d rest =>
          have hshorter : rest.length < ('\\' :: d :: rest).length := by
            rw [List.length_cons, List.length_cons]
            omega
          exact escaped d rest (ih rest.length hshorter rest rfl)
      · have hshorter : rest.length < (c :: rest).length := by
          rw [List.length_cons]
          omega
        exact cons c rest hc (ih rest.length hshorter rest rfl)

/-! ## Balanced braces -/

/-- The number of open brace groups behind a character. -/
def braceStep (depth : Nat) (escaped : Bool) (c : Char) : Option Nat :=
  if escaped then some depth
  else if c = '{' then some (depth + 1)
  else if c = '}' then (if depth = 0 then none else some (depth - 1))
  else some depth

/-- Whether the unescaped braces of a text close each other and nothing behind the text is
escaped by it. -/
def IsBalanced (text : Text) : Prop := walk? braceStep 0 false text = some (0, false)

instance (text : Text) : Decidable (IsBalanced text) :=
  inferInstanceAs (Decidable (_ = _))

/-- A step that is not refused changes the depth as the scanners count it. -/
theorem braceDepth_of_braceStep {depth next : Nat} {escaped : Bool} {c : Char}
    (h : braceStep depth escaped c = some next) : braceDepth depth escaped c = next := by
  unfold braceStep at h
  unfold braceDepth
  grind

/-- Groups around a text do not change its steps. -/
theorem braceStep_add (outer : Nat) {depth next : Nat} {escaped : Bool} {c : Char}
    (h : braceStep depth escaped c = some next) :
    braceStep (depth + outer) escaped c = some (next + outer) := by
  unfold braceStep at h ⊢
  grind

/-- A balanced text leaves every depth as it is. -/
theorem IsBalanced.walk {text : Text} (h : IsBalanced text) (depth : Nat) :
    walk? braceStep depth false text = some (depth, false) := by
  have hfollow := walk?_follow (· + depth) (braceStep_add depth) h
  rwa [Nat.zero_add] at hfollow

theorem IsBalanced.append {text text' : Text} (h : IsBalanced text) (h' : IsBalanced text') :
    IsBalanced (text ++ text') := by
  unfold IsBalanced at h ⊢
  rw [walk?_append, h]
  exact h'

theorem IsBalanced.braced {text : Text} (h : IsBalanced text) : IsBalanced (Text.braced text) := by
  show walk? braceStep 1 false (text ++ ['}']) = some (0, false)
  rw [walk?_append, h.walk 1]
  rfl

/-- Whether a text has no brace, escaped or not. -/
def isBraceFree (text : Text) : Bool := text.all fun c => c != '{' && c != '}'

theorem ne_brace_of_isBraceFree {text : Text} (h : isBraceFree text) {c : Char} (hc : c ∈ text) :
    c ≠ '{' ∧ c ≠ '}' := by
  simpa using List.all_eq_true.mp h c hc

/-- A text without braces leaves every depth as it is. -/
theorem walk?_braceStep_of_isBraceFree {text : Text} (h : isBraceFree text) (depth : Nat)
    (escaped : Bool) :
    ∃ escaped', walk? braceStep depth escaped text = some (depth, escaped') := by
  refine walk?_of_still (fun c hc e => ?_) escaped
  obtain ⟨hopen, hclose⟩ := ne_brace_of_isBraceFree h hc
  simp [braceStep, hopen, hclose]

/-! ## Nested braces and brackets -/

/-- The closing delimiters that are awaited behind a character, innermost first. -/
def nestStep (awaited : List Char) (escaped : Bool) (c : Char) : Option (List Char) :=
  if escaped then some awaited
  else if c = '{' then some ('}' :: awaited)
  else if c = '[' then some (']' :: awaited)
  else if c = '}' ∨ c = ']' then
    if awaited.head? = some c then some awaited.tail else none
  else some awaited

/-- Whether the unescaped braces and brackets of a text close each other in proper nesting and
nothing behind the text is escaped by it. -/
def IsNested (text : Text) : Prop := walk? nestStep [] false text = some ([], false)

instance (text : Text) : Decidable (IsNested text) :=
  inferInstanceAs (Decidable (_ = _))

/-- Groups around a text do not change its steps. -/
theorem nestStep_append (outer : List Char) {awaited next : List Char} {escaped : Bool} {c : Char}
    (h : nestStep awaited escaped c = some next) :
    nestStep (awaited ++ outer) escaped c = some (next ++ outer) := by
  unfold nestStep at h ⊢
  cases awaited with
  | nil => grind
  | cons d awaited => grind

/-- A nested text leaves every stack of groups as it is. -/
theorem IsNested.walk {text : Text} (h : IsNested text) (outer : List Char) :
    walk? nestStep outer false text = some (outer, false) :=
  walk?_follow (· ++ outer) (nestStep_append outer) h

theorem IsNested.append {text text' : Text} (h : IsNested text) (h' : IsNested text') :
    IsNested (text ++ text') := by
  unfold IsNested at h ⊢
  rw [walk?_append, h]
  exact h'

theorem IsNested.braced {text : Text} (h : IsNested text) : IsNested (Text.braced text) := by
  show walk? nestStep ['}'] false (text ++ ['}']) = some ([], false)
  rw [walk?_append, h.walk ['}']]
  rfl

theorem IsNested.bracketed {text : Text} (h : IsNested text) :
    IsNested (Text.bracketed text) := by
  show walk? nestStep [']'] false (text ++ [']']) = some ([], false)
  rw [walk?_append, h.walk [']']]
  rfl

/-- The depth of the braces is the number of closing braces that are awaited. -/
theorem braceStep_of_nestStep {awaited next : List Char} {escaped : Bool} {c : Char}
    (h : nestStep awaited escaped c = some next) :
    braceStep (awaited.count '}') escaped c = some (next.count '}') := by
  unfold nestStep at h
  unfold braceStep
  cases awaited with
  | nil => grind
  | cons d awaited => grind

/-- Braces that nest with brackets are balanced without them. -/
theorem IsNested.isBalanced {text : Text} (h : IsNested text) : IsBalanced text :=
  walk?_follow (List.count '}') braceStep_of_nestStep h

/-- Whether a character neither opens nor closes nor escapes anything. -/
def isPlain (c : Char) : Bool := !isDelimiter c && c != '\\'

theorem isPlain_iff {c : Char} :
    isPlain c = true ↔ c ≠ '{' ∧ c ≠ '}' ∧ c ≠ '[' ∧ c ≠ ']' ∧ c ≠ '\\' := by
  simp only [isPlain, isDelimiter, Bool.and_eq_true, Bool.not_eq_true', Bool.or_eq_false_iff,
    beq_eq_false_iff_ne, bne_iff_ne]
  grind

theorem walk?_nestStep_of_plain {text : Text} (h : text.all isPlain) (awaited : List Char) :
    walk? nestStep awaited false text = some (awaited, false) := by
  refine walk?_of_idle fun c hc => ?_
  have hplain := isPlain_iff.mp (List.all_eq_true.mp h c hc)
  exact ⟨by simp [nestStep, hplain], hplain.2.2.2.2⟩

theorem isNested_of_plain {text : Text} (h : text.all isPlain) : IsNested text :=
  walk?_nestStep_of_plain h []

/-- Characters that open and close nothing can be left out of a text that escapes nothing. -/
theorem walk?_nestStep_filter {p : Char → Bool} (hp : ∀ c, isDelimiter c = true → p c = true)
    {text : Text} (h : '\\' ∉ text) (awaited : List Char) :
    walk? nestStep awaited false text = walk? nestStep awaited false (text.filter p) := by
  induction text generalizing awaited with
  | nil => rfl
  | cons c rest ih =>
    rw [List.mem_cons, not_or] at h
    have hescapes : escapes false c = false := by simp [escapes, Ne.symm h.1]
    rw [List.filter_cons]
    split
    next =>
      rw [walk?, walk?, hescapes]
      exact congrArg _ (funext fun next => ih h.2 next)
    next hc =>
      -- a character that is left out is no delimiter, so the walk stands still on it
      have hplain : isDelimiter c = false := Bool.eq_false_iff.mpr fun hd => hc (hp c hd)
      have hstep : nestStep awaited false c = some awaited := by
        have := isPlain_iff.mp (show isPlain c = true by simp [isPlain, hplain, Ne.symm h.1])
        simp [nestStep, this]
      rw [walk?, hstep, hescapes]
      exact ih h.2 awaited

/-- The groups of two texts that escape nothing nest alike when their delimiters do. -/
theorem isNested_congr {p : Char → Bool} (hp : ∀ c, isDelimiter c = true → p c = true)
    {text text' : Text} (h : '\\' ∉ text) (h' : '\\' ∉ text')
    (hfilter : text.filter p = text'.filter p) : IsNested text ↔ IsNested text' := by
  rw [IsNested, IsNested, walk?_nestStep_filter hp h, walk?_nestStep_filter hp h', hfilter]

/-! ## Cutting at a brace -/

/-- The cut at a brace passes over whatever a walk passes over. -/
theorem cutAtBrace_walk {depth depth' : Nat} {escaped escaped' : Bool} {text : Text}
    (h : walk? braceStep depth escaped text = some (depth', escaped')) (rest : Text) :
    cutAtBrace (depth + 1) escaped (text ++ rest) =
      (cutAtBrace (depth' + 1) escaped' rest).map fun (inside, after) =>
        (text ++ inside, after) := by
  induction text generalizing depth escaped with
  | nil =>
    cases h
    simp
  | cons c text ih =>
    obtain ⟨next, hnext, hrest⟩ := walk?_cons_eq_some.mp h
    -- the walk would have refused the brace at which the cut ends
    have hpass : ¬(depth + 1 = 1 ∧ escaped = false ∧ c = '}') := by
      rintro ⟨hdepth, rfl, rfl⟩
      obtain rfl : depth = 0 := by omega
      cases hnext
    have hdepth : braceDepth (depth + 1) escaped c = next + 1 :=
      braceDepth_of_braceStep (braceStep_add 1 hnext)
    rw [List.cons_append, cutAtBrace, if_neg hpass, hdepth, ih hrest]
    simp only [Option.map_map]
    rfl

/-- A text that never closes more groups than it opens is walked over; any other is cut at the first
brace that closes one too many. -/
theorem walk_or_cut (depth : Nat) (escaped : Bool) (text : Text) :
    (∃ final, walk? braceStep depth escaped text = some final) ∨
      ∃ inside after, cutAtBrace (depth + 1) escaped text = some (inside, after) ∧
        walk? braceStep depth escaped inside = some (0, false) := by
  induction text generalizing depth escaped with
  | nil => exact Or.inl ⟨_, rfl⟩
  | cons c rest ih =>
    by_cases hclose : depth = 0 ∧ escaped = false ∧ c = '}'
    · obtain ⟨rfl, rfl, rfl⟩ := hclose
      exact Or.inr ⟨[], rest, rfl, rfl⟩
    · obtain ⟨next, hnext⟩ : ∃ next, braceStep depth escaped c = some next := by
        rw [← Option.isSome_iff_exists]
        unfold braceStep
        grind
      have hdepth := braceDepth_of_braceStep (braceStep_add 1 hnext)
      rcases ih next (escapes escaped c) with ⟨final, hwalk⟩ | ⟨inside, after, hcut, hwalk⟩
      · exact Or.inl ⟨final, walk?_cons_eq_some.mpr ⟨next, hnext, hwalk⟩⟩
      · refine Or.inr ⟨c :: inside, after, ?_, walk?_cons_eq_some.mpr ⟨next, hnext, hwalk⟩⟩
        rw [cutAtBrace, if_neg fun h => hclose ⟨by omega, h.2⟩, hdepth, hcut]
        rfl

/-- The first closing brace behind a balanced text closes the group around it. -/
theorem cutAtBrace_append {text : Text} (h : IsBalanced text) (after : Text) :
    cutAtBrace 1 false (text ++ '}' :: after) = some (text, after) := by
  have hcut := cutAtBrace_walk h ('}' :: after)
  rw [show (0 + 1 : Nat) = 1 from rfl] at hcut
  rw [hcut, cutAtBrace, if_pos ⟨rfl, rfl, rfl⟩]
  simp

theorem braceContent_append {text : Text} (h : IsBalanced text) (after : Text) :
    braceContent (text ++ '}' :: after) = (text, after) := by
  rw [braceContent, cutAtBrace_append h]
  rfl

/-- The first group of a text is the one in front. -/
theorem nextGroup?_braced {text : Text} (h : IsBalanced text) (after : Text) :
    nextGroup? false (Text.braced text ++ after) = some (text, after) := by
  have htext : Text.braced text ++ after = '{' :: (text ++ '}' :: after) := by simp [Text.braced]
  rw [nextGroup?, htext, afterOpenBrace?, if_pos ⟨rfl, rfl⟩, Option.map_some,
    braceContent_append h]

/-- A balanced text in braces is read as a group. -/
theorem group?_braced {text : Text} (h : IsBalanced text) (after : Text) :
    group? (Text.braced text ++ after) = some (text, after) := by
  have hskip : Text.skipBlanks (Text.braced text ++ after) = Text.braced text ++ after := by
    simp [Text.skipBlanks, Text.braced, isAsciiBlank]
  have hhead : (Text.braced text ++ after).head? = some '{' := by simp [Text.braced]
  rw [group?, leadingGroup?, hskip, if_pos hhead]
  exact nextGroup?_braced h after

/-- Braces around a text whose own braces close are one group from the first character to the
last, also when the text escapes the closing one: a group that never closes ends with the text. -/
theorem isFullyBraced_braced {text : Text} {escaped : Bool}
    (h : walk? braceStep 0 false text = some (0, escaped)) :
    isFullyBraced (Text.braced text) = true := by
  have hcut := cutAtBrace_walk h ['}']
  show ((text ++ ['}']).getLast? == some '}'
    && ((cutAtBrace (0 + 1) false (text ++ ['}'])).map (·.2.isEmpty)).getD true) = true
  rw [hcut, List.getLast?_concat]
  cases escaped <;> rfl

/-! ## Cutting at a bracket -/

/-- The numbers of open brace groups and of open brackets outside them behind a character. -/
def bracketStep (groups : Nat × Nat) (escaped : Bool) (c : Char) : Option (Nat × Nat) :=
  let (braces, brackets) := groups
  if escaped then some groups
  else if c = '{' then some (braces + 1, brackets)
  else if c = '}' then (if braces = 0 then none else some (braces - 1, brackets))
  else if braces ≠ 0 then some groups
  else if c = '[' then some (braces, brackets + 1)
  else if c = ']' then (if brackets = 0 then none else some (braces, brackets - 1))
  else some groups

/-- Whether the unescaped braces of a text close each other, its unescaped brackets outside them do
so too, and nothing behind the text is escaped by it. Brackets inside braces are plain
characters. -/
def IsBracketContent (text : Text) : Prop :=
  walk? bracketStep (0, 0) false text = some ((0, 0), false)

instance (text : Text) : Decidable (IsBracketContent text) :=
  inferInstanceAs (Decidable (_ = _))

/-- The cut at a bracket passes over whatever a walk passes over. -/
theorem cutAtBracket_walk {groups groups' : Nat × Nat} {escaped escaped' : Bool} {text : Text}
    (h : walk? bracketStep groups escaped text = some (groups', escaped')) (rest : Text) :
    cutAtBracket (groups.2 + 1) groups.1 escaped (text ++ rest) =
      (cutAtBracket (groups'.2 + 1) groups'.1 escaped' rest).map
        fun (inside, after) => (text ++ inside, after) := by
  induction text generalizing groups escaped with
  | nil =>
    cases h
    simp
  | cons c text ih =>
    obtain ⟨next, hnext, hrest⟩ := walk?_cons_eq_some.mp h
    -- a bracket that the walk accepts closes one that is open inside
    have hpass : ¬(groups.2 + 1 = 1 ∧ groups.1 = 0 ∧ escaped = false ∧ c = ']') := by
      rintro ⟨hopen, hbraces, rfl, rfl⟩
      have hbrackets : groups.2 = 0 := by omega
      simp [bracketStep, hbraces, hbrackets] at hnext
    have hbraces : braceDepth groups.1 escaped c = next.1 := by
      unfold bracketStep at hnext
      unfold braceDepth
      grind
    have hbrackets : bracketDepth (groups.2 + 1) groups.1 escaped c = next.2 + 1 := by
      unfold bracketStep at hnext
      unfold bracketDepth
      grind
    rw [List.cons_append, cutAtBracket, if_neg hpass, hbraces, hbrackets, ih hrest]
    simp only [Option.map_map]
    rfl

/-- The first closing bracket that belongs to no pair of the text in front of it closes the group
around that text. -/
theorem cutAtBracket_append {text : Text} (h : IsBracketContent text) (after : Text) :
    cutAtBracket 1 0 false (text ++ ']' :: after) = some (text, after) := by
  have hcut := cutAtBracket_walk h (']' :: after)
  rw [show ((0, 0) : Nat × Nat).2 + 1 = 1 from rfl] at hcut
  rw [hcut, cutAtBracket, if_pos ⟨rfl, rfl, rfl, rfl⟩]
  simp

/-- The brackets that are open outside all brace groups. -/
def openBrackets : List Char → Nat
  | [] => 0
  | c :: outer =>
    if c = ']' ∧ outer.count '}' = 0 then openBrackets outer + 1 else openBrackets outer

/-- Braces and brackets that nest are counted by what is awaited. -/
theorem bracketStep_of_nestStep {awaited next : List Char} {escaped : Bool} {c : Char}
    (h : nestStep awaited escaped c = some next) :
    bracketStep (awaited.count '}', openBrackets awaited) escaped c =
      some (next.count '}', openBrackets next) := by
  unfold nestStep at h
  unfold bracketStep
  cases awaited with
  | nil => grind [openBrackets]
  | cons d awaited => grind [openBrackets]

/-- A nested text can stand in brackets. -/
theorem IsNested.isBracketContent {text : Text} (h : IsNested text) : IsBracketContent text :=
  walk?_follow (fun awaited : List Char => (awaited.count '}', openBrackets awaited))
    bracketStep_of_nestStep h

theorem escapedBehindBlanks_false (text : Text) : escapedBehindBlanks false text = false := by
  cases text <;> rfl

/-- A blank in front of a group means nothing. -/
theorem group?_blank {c : Char} (h : isAsciiBlank c = true) (text : Text) :
    group? (c :: text) = group? text := by
  have hskip : Text.skipBlanks (c :: text) = Text.skipBlanks text := List.dropWhile_cons_of_pos h
  simp only [group?, leadingGroup?, hskip, escapedBehindBlanks_false]

theorem brackets?_blank {c : Char} (h : isAsciiBlank c = true) (text : Text) :
    brackets? (c :: text) = brackets? text := by
  have hskip : Text.skipBlanks (c :: text) = Text.skipBlanks text := List.dropWhile_cons_of_pos h
  simp only [brackets?, leadingBrackets?, hskip, escapedBehindBlanks_false]

theorem brackets?_eq_none {text : Text} (h : (Text.skipBlanks text).head? ≠ some '[') :
    brackets? text = none := by
  rw [brackets?, leadingBrackets?]
  split
  next heq =>
    rw [heq] at h
    exact absurd rfl h
  next => rfl

/-- A text in brackets whose own brackets are closed or stand inside braces is read as a group. -/
theorem brackets?_bracketed {text : Text} (h : IsBracketContent text) (after : Text) :
    brackets? (Text.bracketed text ++ after) = some (text, after) := by
  have hskip : Text.skipBlanks (Text.bracketed text ++ after) = '[' :: (text ++ ']' :: after) := by
    simp [Text.skipBlanks, Text.bracketed, isAsciiBlank]
  rw [brackets?, leadingBrackets?, hskip]
  show some ((cutAtBracket 1 0 false (text ++ ']' :: after)).getD _) = _
  rw [cutAtBracket_append h]
  rfl

end TexFigure.Source
