import TexFigure.Formula.Classify
import TexFigure.Formula.Write
import TexFigure.Proofs.Occurrence
/-!
# What stands at a command

The written form of a formula is put together from fields and the text around them, so a search
through it may find something across the seam between the two. What stands at a command is never
found there (`MarkedBy`): it starts at the backslash and ends before a seam does. This holds of the
commands themselves and of the phrases that open a matrix, a partial derivative and a root with an
index.

> `MarkedBy.exists_field`: what stands at a command that a formula is not written with, and is
> found in the written formula, is found in one of the fields.
-/

namespace TexFigure

open Source

namespace Formula

/-- The texts that a formula is made of. -/
def fields : Formula → List Text
  | fraction numerator denominator => [numerator, denominator]
  | root index radicand => [index, radicand]
  | superscript base exponent => [base, exponent]
  | subscript base script => [base, script]
  | integral lower upper integrand var => [lower, upper, integrand, var]
  | doubleIntegral domain integrand area => [domain, integrand, area]
  | bigOperator _ var lower upper expression => [var, lower, upper, expression]
  | limit var approaches expression => [var, approaches, expression]
  | derivative func var _ => [func, var]
  | matrix _ _ cells _ => cells.flatten
  | generic raw => [raw]

/-! ## What stands at a command -/

/-- The characters that stand between the fields of a formula, besides braces. -/
def isSeam (c : Char) : Bool := c == ' ' || c == '^' || c == '_' || c == '=' || c == ']'

/-- A property that a text has where a command stands. It is lost neither by dropping what comes
before the command nor by cutting the text at a seam. -/
structure MarkedBy (word : Text) (p : Text → Prop) : Prop where
  nil : ¬p []
  skip : ∀ {c : Char} {text : Text}, c ≠ '\\' → p (c :: text) → p text
  pass : ∀ (other : Text) {text : Text}, other.all isLetter → other ≠ word →
    beginsWithLetter text = false → p ('\\' :: (other ++ text)) → p text
  split : ∀ {c : Char} {before after : Text}, isSeam c → p (before ++ c :: after) →
    p before ∨ p after
  close : ∀ {before after : Text}, IsBalanced before → p (before ++ '}' :: after) →
    p before ∨ p after
  ofTrimEnd : ∀ {text : Text}, p (Text.trimEnd text) → p text

/-- A seam ends the name of a command and begins none. -/
theorem not_isLetter_of_isSeam {c : Char} (h : isSeam c) : isLetter c = false ∧ c ≠ '\\' := by
  simp only [isSeam, Bool.or_eq_true, beq_iff_eq] at h
  rcases h with (((rfl | rfl) | rfl) | rfl) | rfl <;> decide

/-- Blanks behind a text do not make it go on with a letter. -/
theorem beginsWithLetter_append_blanks {text blanks : Text} (hblanks : blanks.all isBlank) :
    beginsWithLetter (text ++ blanks) = beginsWithLetter text := by
  cases blanks with
  | nil => rw [List.append_nil]
  | cons c blanks =>
    exact beginsWithLetter_append
      (not_isLetter_of_isBlank (List.all_eq_true.mp hblanks c List.mem_cons_self)) blanks

/-- A command does not begin at a character other than a backslash. -/
theorem hasCommand_of_cons {word text : Text} {c : Char} (hword : '\\' ∉ word) (hc : c ≠ '\\')
    (h : hasCommand ('\\' :: word) (c :: text) = true) :
    hasCommand ('\\' :: word) text = true := by
  obtain ⟨before, after, htext, hafter⟩ := (hasCommand_iff hword).mp h
  cases before with
  | nil => exact absurd (List.cons.inj htext).1 hc
  | cons d before =>
    exact (hasCommand_iff hword).mpr ⟨before, after, (List.cons.inj htext).2, hafter⟩

/-- Nor does it begin in a word without backslashes. -/
theorem hasCommand_of_append {word before text : Text} (hword : '\\' ∉ word)
    (hbefore : '\\' ∉ before) (h : hasCommand ('\\' :: word) (before ++ text) = true) :
    hasCommand ('\\' :: word) text = true := by
  induction before with
  | nil => exact h
  | cons c before ih =>
    rw [List.mem_cons, not_or] at hbefore
    exact ih hbefore.2 (hasCommand_of_cons hword (Ne.symm hbefore.1) h)

theorem not_mem_of_all_isLetter {word : Text} (h : word.all isLetter) : '\\' ∉ word := by
  intro hmem
  cases List.all_eq_true.mp h _ hmem

/-- A command marks the texts in which it occurs. -/
theorem markedBy_hasCommand {word : Text} (hword : word.all isLetter) :
    MarkedBy word (fun text => hasCommand ('\\' :: word) text = true) := by
  have hslash := not_mem_of_all_isLetter hword
  refine ⟨by simp [hasCommand, cutAtCommand], hasCommand_of_cons hslash, ?_, ?_, ?_, ?_⟩
  · intro other text hother hne htext h
    obtain ⟨before, after, heq, hafter⟩ := (hasCommand_iff hslash).mp h
    cases before with
    | nil =>
      -- a command is read with all its letters, so it is not another one
      have hnames : other ++ text = word ++ after := by simpa using heq
      exact absurd (eq_of_append_eq hother hword htext hafter hnames) hne
    | cons d before =>
      refine hasCommand_of_append hslash (not_mem_of_all_isLetter hother) ?_
      exact (hasCommand_iff hslash).mpr ⟨before, after, (List.cons.inj heq).2, hafter⟩
  · intro c before after hc h
    obtain ⟨hletter, hne⟩ := not_isLetter_of_isSeam hc
    exact hasCommand_append_cons hword hletter hne h
  · intro before after _ h
    exact hasCommand_append_cons hword rfl (by decide) h
  · intro text h
    obtain ⟨blanks, htext, hblanks⟩ := Text.exists_trimEnd text
    obtain ⟨before, after, htrim, hafter⟩ := (hasCommand_iff hslash).mp h
    refine (hasCommand_iff hslash).mpr ⟨before, after ++ blanks, ?_, ?_⟩
    · rw [← List.append_assoc, ← htrim, ← htext]
    · rw [beginsWithLetter_append_blanks hblanks, hafter]

/-- A phrase that goes on behind the name of a command marks the texts in which it occurs, when it
holds no seam and does not reach over the brace behind a balanced text. -/
theorem markedBy_phrase {word rest : Text} (hword : word.all isLetter) (hne : rest ≠ [])
    (hrest : beginsWithLetter rest = false) (hseam : rest.all (!isSeam ·))
    (hclose : ∀ {before after : Text}, IsBalanced before →
      '\\' :: word ++ rest <:+: before ++ '}' :: after →
      '\\' :: word ++ rest <:+: before ∨ '\\' :: word ++ rest <:+: after) :
    MarkedBy word (fun text => '\\' :: word ++ rest <:+: text) := by
  refine ⟨by simp, Text.infix_of_infix_cons, ?_, ?_, hclose, ?_⟩
  · intro other text hother hother' htext h
    rcases List.infix_cons_iff.mp h with ⟨t, ht⟩ | h
    · have hnames : other ++ text = word ++ (rest ++ t) := by simpa using ht.symm
      have hrest' : beginsWithLetter (rest ++ t) = false := by
        obtain ⟨c, rest, rfl⟩ := List.exists_cons_of_ne_nil hne
        exact hrest
      exact absurd (eq_of_append_eq hother hword htext hrest' hnames) hother'
    · exact Text.infix_of_infix_append (not_mem_of_all_isLetter hother) h
  · intro c before after hc h
    obtain ⟨hletter, hslash⟩ := not_isLetter_of_isSeam hc
    refine Text.infix_append_cons ?_ h
    rw [List.mem_append, List.mem_cons]
    rintro ((rfl | hmem) | hmem)
    · exact hslash rfl
    · rw [List.all_eq_true.mp hword _ hmem] at hletter
      cases hletter
    · simpa [hc] using List.all_eq_true.mp hseam _ hmem
  · intro text h
    exact h.trans (Text.trimEnd_isPrefix text).isInfix

/-- Where one of several phrases of a command stands is marked by the command. -/
theorem MarkedBy.exists {α : Type} {word : Text} {p : α → Text → Prop}
    (h : ∀ a, MarkedBy word (p a)) : MarkedBy word (fun text => ∃ a, p a text) where
  nil := fun ⟨a, ha⟩ => (h a).nil ha
  skip := fun hc ⟨a, ha⟩ => ⟨a, (h a).skip hc ha⟩
  pass := fun other _ hother hne htext ⟨a, ha⟩ => ⟨a, (h a).pass other hother hne htext ha⟩
  split := fun hc ⟨a, ha⟩ => ((h a).split hc ha).imp (⟨a, ·⟩) (⟨a, ·⟩)
  close := fun hbefore ⟨a, ha⟩ => ((h a).close hbefore ha).imp (⟨a, ·⟩) (⟨a, ·⟩)
  ofTrimEnd := fun ⟨a, ha⟩ => ⟨a, (h a).ofTrimEnd ha⟩

/-! ## Constructs by their commands -/

/-- The name of the command that the construct of a tag stands at. -/
def Tag.word : Tag → Text
  | matrix => "begin"
  | partialDerivative | derivative | fraction => "frac"
  | doubleIntegral => "iint"
  | integral => "int"
  | sum => "sum"
  | product => "prod"
  | limit => "lim"
  | nthRoot | squareRoot => "sqrt"
  | superscript | subscript | generic => []

/-- A search at every place of a text is one over the ends of the text. -/
theorem anySuffix_iff {p : Text → Bool} {text : Text} :
    anySuffix p text = true ↔ ∃ rest, rest <:+ text ∧ p rest = true := by
  induction text with
  | nil => simp [anySuffix]
  | cons c text ih => simp [anySuffix, ih, List.suffix_cons_iff, or_and_right, exists_or]

/-- What opens a matrix. -/
def matrixOpening (delimiter : Delimiter) : Text :=
  '\\' :: "begin".toList ++ Text.braced delimiter.environment

/-- A matrix is shown by one of the phrases that open an environment of it. -/
theorem shows_matrix_iff {text : Text} :
    shows text .matrix = true ↔ ∃ delimiter, matrixOpening delimiter <:+: text := by
  have hbegin : ∀ rest, (matrixBegin? rest).isSome = true ↔
      ∃ delimiter, matrixOpening delimiter <+: rest := by
    intro rest
    rw [matrixBegin?, List.findSome?_isSome_iff]
    simp only [Option.isSome_map, Text.isPrefixOf?_isSome]
    constructor
    · rintro ⟨delimiter, -, h⟩
      exact ⟨delimiter, h⟩
    · rintro ⟨delimiter, h⟩
      exact ⟨delimiter, by cases delimiter <;> decide, h⟩
  rw [shows, anySuffix_iff]
  simp only [hbegin, List.infix_iff_prefix_suffix]
  constructor
  · rintro ⟨rest, hsuffix, delimiter, hprefix⟩
    exact ⟨delimiter, rest, hprefix, hsuffix⟩
  · rintro ⟨delimiter, rest, hprefix, hsuffix⟩
    exact ⟨rest, hsuffix, delimiter, hprefix⟩

/-- The phrase that opens a matrix ends in a brace of its own, which might be the one behind a
balanced text. It is not: the text would leave the brace open that belongs to it. -/
theorem markedBy_matrix : MarkedBy "begin" (fun text => shows text .matrix = true) := by
  simp only [shows_matrix_iff]
  refine MarkedBy.exists fun delimiter => markedBy_phrase rfl (by simp [Text.braced]) rfl ?_ ?_
  · cases delimiter <;> decide
  · intro before after hbefore h
    have hinside : isBraceFree delimiter.environment := by cases delimiter <;> decide
    have hphrase : '\\' :: "begin".toList ++ Text.braced delimiter.environment
        = "\\begi".toList ++ ['n'] ++ '{' :: delimiter.environment ++ ['}'] := by
      cases delimiter <;> rfl
    rw [hphrase] at h ⊢
    exact infix_append_brace (by decide) (by decide) hinside hbefore h

/-- The constructs before the scripts stand at commands, all but the derivative. -/
theorem markedBy_shows {tag : Tag} (hderivative : tag ≠ .derivative) (hscript : tag.word ≠ []) :
    MarkedBy tag.word (fun text => shows text tag = true) := by
  have hbrace : ∀ {phrase before after : Text}, '}' ∉ phrase →
      phrase <:+: before ++ '}' :: after → phrase <:+: before ∨ phrase <:+: after :=
    fun hmem h => Text.infix_append_cons hmem h
  cases tag with
  | matrix => exact markedBy_matrix
  | partialDerivative =>
    simp only [shows, Text.contains_iff]
    exact markedBy_phrase rfl (List.cons_ne_nil _ _) rfl rfl fun _ => hbrace (by decide)
  | derivative => exact absurd rfl hderivative
  | nthRoot =>
    simp only [shows, Text.contains_iff]
    exact markedBy_phrase rfl (List.cons_ne_nil _ _) rfl rfl fun _ => hbrace (by decide)
  | superscript => exact absurd rfl hscript
  | subscript => exact absurd rfl hscript
  | generic => exact absurd rfl hscript
  | fraction => exact markedBy_hasCommand rfl
  | doubleIntegral => exact markedBy_hasCommand rfl
  | integral => exact markedBy_hasCommand rfl
  | sum => exact markedBy_hasCommand rfl
  | product => exact markedBy_hasCommand rfl
  | limit => exact markedBy_hasCommand rfl
  | squareRoot => exact markedBy_hasCommand rfl

/-! ## Fields -/

/-- The names of the commands that a formula of a tag is written with, besides those of its
fields. -/
def Tag.commands : Tag → List Text
  | matrix => ["begin", "end"]
  | partialDerivative => ["frac", "partial"]
  | derivative | fraction => ["frac"]
  | doubleIntegral => ["iint", []]
  | integral => ["int", []]
  | sum => ["sum"]
  | product => ["prod"]
  | limit => ["lim", "to"]
  | nthRoot | squareRoot => ["sqrt"]
  | superscript | subscript | generic => []

section
variable {word : Text} {p : Text → Prop}

/-- What a group and the text behind it show is shown by the content or by what is behind. -/
theorem MarkedBy.group (h : MarkedBy word p) {content rest : Text} (hcontent : IsBalanced content)
    (hp : p (Text.braced content ++ rest)) : p content ∨ p rest := by
  have htext : Text.braced content ++ rest = '{' :: (content ++ '}' :: rest) := by
    simp [Text.braced]
  rw [htext] at hp
  exact h.close hcontent (h.skip (by decide) hp)

/-- What a group shows is shown by its content. -/
theorem MarkedBy.braced (h : MarkedBy word p) {content : Text} (hcontent : IsBalanced content)
    (hp : p (Text.braced content)) : p content := by
  rw [← List.append_nil (Text.braced content)] at hp
  exact (h.group hcontent hp).resolve_right h.nil

/-- A base is written in a group or as it stands, in front of the mark of its script. -/
theorem MarkedBy.base (h : MarkedBy word p) {base rest : Text} {c : Char} (hbase : IsBalanced base)
    (hc : isSeam c) (hp : p (writeBase base ++ c :: rest)) : p base ∨ p rest := by
  unfold writeBase at hp
  split at hp
  · exact (h.group hbase hp).imp_right (h.skip (not_isLetter_of_isSeam hc).2)
  · exact h.split hc hp

/-- Both parts of a fraction are groups, directly behind its command. -/
theorem MarkedBy.fraction (h : MarkedBy word p) {numerator denominator : Text}
    (hn : IsBalanced numerator) (hd : IsBalanced denominator) (hword : "frac".toList ≠ word)
    (hp : p (Formula.fraction numerator denominator).write) : p numerator ∨ p denominator := by
  have hgroups : p (Text.braced numerator ++ Text.braced denominator) :=
    h.pass "frac" rfl hword rfl (by simpa [write_fraction] using hp)
  exact (h.group hn hgroups).imp_right (h.braced hd)

/-- The index of a root need not be balanced: it ends at a bracket, which is a seam. -/
theorem MarkedBy.root (h : MarkedBy word p) {index radicand : Text}
    (hr : IsBalanced radicand) (hword : "sqrt".toList ≠ word)
    (hp : p (Formula.root index radicand).write) : p index ∨ p radicand := by
  rw [write_root] at hp
  split at hp
  · exact Or.inr (h.braced hr (h.pass "sqrt" rfl hword rfl hp))
  · have hgroups : p ('[' :: (index ++ ']' :: Text.braced radicand)) :=
      h.pass "sqrt" rfl hword rfl (by simpa [Text.bracketed] using hp)
    exact (h.split rfl (h.skip (by decide) hgroups)).imp_right (h.braced hr)

/-- Between the limits, which are groups, and the variable, which has nothing behind it, stands the
integrand with a seam on both sides. The thin space is a command of its own, without a name. -/
theorem MarkedBy.integral (h : MarkedBy word p) {lower upper integrand var : Text}
    (hl : IsBalanced lower) (hu : IsBalanced upper) (hword : "int".toList ≠ word)
    (hword' : [] ≠ word) (hp : p (Formula.integral lower upper integrand var).write) :
    p lower ∨ p upper ∨ p integrand ∨ p var := by
  have hlimits : p ('_' :: (Text.braced lower ++ '^' :: (Text.braced upper ++ ' ' :: (integrand
      ++ ' ' :: '\\' :: ',' :: ' ' :: 'd' :: var)))) :=
    h.pass "int" rfl hword rfl (by simpa [write_integral] using hp)
  refine (h.group hl (h.skip (by decide) hlimits)).imp_right fun hp => ?_
  refine (h.group hu (h.skip (by decide) hp)).imp_right fun hp => ?_
  refine (h.split rfl (h.skip (by decide) hp)).imp_right fun hp => ?_
  have hvar : p (',' :: ' ' :: 'd' :: var) := h.pass [] rfl hword' rfl hp
  exact h.skip (by decide) (h.skip (by decide) (h.skip (by decide) hvar))

/-- In a double integral the area takes the place of the variable. -/
theorem MarkedBy.doubleIntegral (h : MarkedBy word p) {domain integrand area : Text}
    (hd : IsBalanced domain) (hword : "iint".toList ≠ word) (hword' : [] ≠ word)
    (hp : p (Formula.doubleIntegral domain integrand area).write) :
    p domain ∨ p integrand ∨ p area := by
  have hlimits : p ('_' :: (Text.braced domain ++ ' ' :: (integrand
      ++ ' ' :: '\\' :: ',' :: ' ' :: 'd' :: area))) :=
    h.pass "iint" rfl hword rfl (by simpa [write_doubleIntegral] using hp)
  refine (h.group hd (h.skip (by decide) hlimits)).imp_right fun hp => ?_
  refine (h.split rfl (h.skip (by decide) hp)).imp_right fun hp => ?_
  have harea : p (',' :: ' ' :: 'd' :: area) := h.pass [] rfl hword' rfl hp
  exact h.skip (by decide) (h.skip (by decide) (h.skip (by decide) harea))

/-- The variable and the lower limit share a group, with an equals sign between them for a seam. -/
theorem MarkedBy.bigOperator (h : MarkedBy word p) {operator : Operator}
    {var lower upper expression : Text} (hv : IsBalanced var) (hl : IsBalanced lower)
    (hu : IsBalanced upper) (hword : operator.command.tail ≠ word)
    (hp : p (Formula.bigOperator operator var lower upper expression).write) :
    p var ∨ p lower ∨ p upper ∨ p expression := by
  have hunder : ∀ rest, p (Text.braced (if var.isEmpty then lower else var ++ "=" ++ lower)
      ++ rest) → p var ∨ p lower ∨ p rest := by
    intro rest hp
    split at hp
    · exact Or.inr (h.group hl hp)
    · have heq : IsBalanced "=" := by decide
      rcases h.group ((hv.append heq).append hl) hp with hp | hp
      · rw [List.append_assoc] at hp
        exact (h.split rfl hp).imp_right Or.inl
      · exact Or.inr (Or.inr hp)
  have hlimits : p ('_' :: (Text.braced (if var.isEmpty then lower else var ++ "=" ++ lower)
      ++ '^' :: (Text.braced upper ++ ' ' :: expression))) := by
    rw [write_bigOperator] at hp
    refine h.pass operator.command.tail (by cases operator <;> rfl) hword rfl ?_
    have htext := h.ofTrimEnd hp
    cases operator <;> simpa [Operator.command] using htext
  -- each field is left at its closing brace, the last at the end of the text
  refine (hunder _ (h.skip (by decide) hlimits)).imp_right fun hp => hp.imp_right fun hp => ?_
  exact (h.group hu (h.skip (by decide) hp)).imp_right (h.skip (by decide))

/-- The arrow of a limit is a command, between the variable and what it approaches. -/
theorem MarkedBy.limit (h : MarkedBy word p) {var approaches expression : Text}
    (hv : IsBalanced var) (ha : IsBalanced approaches) (hword : "lim".toList ≠ word)
    (hword' : "to".toList ≠ word)
    (hp : p (Formula.limit var approaches expression).write) :
    p var ∨ p approaches ∨ p expression := by
  have hto : IsBalanced " \\to " := by decide
  rw [write_limit] at hp
  have hunder : p ('_' :: (Text.braced (var ++ " \\to " ++ approaches) ++ ' ' :: expression)) :=
    h.pass "lim" rfl hword rfl (by simpa using h.ofTrimEnd hp)
  rcases h.group ((hv.append hto).append ha) (h.skip (by decide) hunder) with hp | hp
  · rw [List.append_assoc] at hp
    refine (h.split rfl hp).imp_right fun hp => Or.inl ?_
    exact h.skip (by decide) (h.pass "to" rfl hword' rfl hp)
  · exact Or.inr (Or.inr (h.skip (by decide) hp))

/-- The variable of a derivative comes in front of its function, in the denominator. -/
theorem MarkedBy.derivative (h : MarkedBy word p) {func var : Text} {isPartial : Bool}
    (hv : IsBalanced var) (hword : "frac".toList ≠ word)
    (hword' : isPartial = true → "partial".toList ≠ word)
    (hp : p (Formula.derivative func var isPartial).write) : p func ∨ p var := by
  have hbehind : ∀ {rest : Text}, p (var ++ '}' :: ' ' :: rest) → p rest ∨ p var := fun hp =>
    ((h.close hv hp).imp_right (h.skip (by decide))).symm
  rw [write_derivative] at hp
  cases isPartial with
  | true =>
    -- the two commands of the quotient are passed one after the other
    have hnumerator : p ('{' :: '\\' :: ("partial".toList
        ++ '}' :: '{' :: '\\' :: ("partial".toList ++ ' ' :: (var ++ '}' :: ' ' :: func)))) :=
      h.pass "frac" rfl hword rfl (by simpa [Text.braced] using h.ofTrimEnd hp)
    have hdenominator : p ('}' :: '{' :: '\\' :: ("partial".toList
        ++ ' ' :: (var ++ '}' :: ' ' :: func))) :=
      h.pass "partial" rfl (hword' rfl) rfl (h.skip (by decide) hnumerator)
    have hvar : p (' ' :: (var ++ '}' :: ' ' :: func)) :=
      h.pass "partial" rfl (hword' rfl) rfl (h.skip (by decide) (h.skip (by decide) hdenominator))
    exact hbehind (h.skip (by decide) hvar)
  | false =>
    have hgroups : p (Text.braced "d" ++ '{' :: 'd' :: (var ++ '}' :: ' ' :: func)) :=
      h.pass "frac" rfl hword rfl (by simpa [Text.braced] using h.ofTrimEnd hp)
    have hvar : p ("d\x7d\x7bd".toList ++ (var ++ '}' :: ' ' :: func)) := h.skip (by decide) hgroups
    exact hbehind (h.skip (by decide) (h.skip (by decide) (h.skip (by decide)
      (h.skip (by decide) hvar))))

/-- What stands at a command that a formula is not written with is found in one of the fields when
it is found in the written formula. -/
theorem MarkedBy.exists_field (h : MarkedBy word p) {formula : Formula}
    (hbalanced : ∀ field ∈ formula.fields, IsBalanced field) (hword : word ∉ formula.tag.commands)
    (htag : formula.tag ≠ .matrix) (hp : p formula.write) : ∃ field ∈ formula.fields, p field := by
  cases formula with
  | fraction numerator denominator =>
    simp only [fields, List.forall_mem_cons] at hbalanced
    simp only [tag, Tag.commands, List.mem_singleton] at hword
    obtain ⟨hn, hd, -⟩ := hbalanced
    simpa [fields] using h.fraction hn hd (Ne.symm hword) hp
  | root index radicand =>
    simp only [fields, List.forall_mem_cons] at hbalanced
    have hcommands : (Formula.root index radicand).tag.commands = ["sqrt".toList] := by
      rw [tag]
      split <;> rfl
    rw [hcommands, List.mem_singleton] at hword
    obtain ⟨-, hr, -⟩ := hbalanced
    simpa [fields] using h.root hr (Ne.symm hword) hp
  | superscript base exponent =>
    simp only [fields, List.forall_mem_cons] at hbalanced
    obtain ⟨hb, he, -⟩ := hbalanced
    rw [write_superscript, List.append_assoc] at hp
    simpa [fields] using (h.base hb rfl hp).imp_right (h.braced he)
  | subscript base script =>
    simp only [fields, List.forall_mem_cons] at hbalanced
    obtain ⟨hb, hs, -⟩ := hbalanced
    rw [write_subscript, List.append_assoc] at hp
    simpa [fields] using (h.base hb rfl hp).imp_right (h.braced hs)
  | integral lower upper integrand var =>
    simp only [fields, List.forall_mem_cons] at hbalanced
    simp only [tag, Tag.commands, List.mem_cons, not_or] at hword
    obtain ⟨hl, hu, -⟩ := hbalanced
    simpa [fields] using h.integral hl hu (Ne.symm hword.1) (Ne.symm hword.2.1) hp
  | doubleIntegral domain integrand area =>
    simp only [fields, List.forall_mem_cons] at hbalanced
    simp only [tag, Tag.commands, List.mem_cons, not_or] at hword
    obtain ⟨hd, -⟩ := hbalanced
    simpa [fields] using h.doubleIntegral hd (Ne.symm hword.1) (Ne.symm hword.2.1) hp
  | bigOperator operator var lower upper expression =>
    simp only [fields, List.forall_mem_cons] at hbalanced
    obtain ⟨hv, hl, hu, -⟩ := hbalanced
    have hname : operator.command.tail ≠ word := by
      rintro rfl
      exact hword (by cases operator <;> exact List.mem_singleton_self _)
    simpa [fields] using h.bigOperator hv hl hu hname hp
  | limit var approaches expression =>
    simp only [fields, List.forall_mem_cons] at hbalanced
    simp only [tag, Tag.commands, List.mem_cons, not_or] at hword
    obtain ⟨hv, ha, -⟩ := hbalanced
    simpa [fields] using h.limit hv ha (Ne.symm hword.1) (Ne.symm hword.2.1) hp
  | derivative func var isPartial =>
    simp only [fields, List.forall_mem_cons] at hbalanced
    obtain ⟨-, hv, -⟩ := hbalanced
    cases isPartial with
    | true =>
      simp only [tag, Tag.commands, List.mem_cons, not_or] at hword
      simpa [fields] using h.derivative hv (Ne.symm hword.1) (fun _ => Ne.symm hword.2.1) hp
    | false =>
      simp only [tag, Tag.commands, List.mem_singleton] at hword
      simpa [fields] using h.derivative hv (Ne.symm hword) (fun h => by cases h) hp
  | matrix rows cols cells delimiter => exact absurd rfl htag
  | generic raw => exact ⟨raw, List.mem_singleton_self _, hp⟩

end

end Formula

end TexFigure
