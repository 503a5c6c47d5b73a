import TexFigure.Proofs.Marking
/-!
# The class of a written formula

Classification searches a whole text, so the written form of a formula may show a construct in any
of its fields or across the seam between a field and the text around it. For the constructs that
are asked for before the formula's own, seams never matter (`MarkedBy`): each of them stands at
a command, and what it asks for ends before a seam does. So a written formula whose fields
show no earlier construct is classified as what it is.

The derivative is the exception. It is found by its braces, escaped or not, and an escaped brace
in a numerator can stand for the end of the numerator:

> A written formula is classified as what it is, unless it is a fraction whose numerator has the
> form of a derivative of its own (`IsTorn`).
-/

namespace TexFigure

open Source

namespace Formula

/-- The tags that classification asks for before a tag. -/
def Tag.before (tag : Tag) : List Tag := Tag.all.takeWhile (· ≠ tag)

/-- A text is classified as a tag when it shows the construct of the tag and of none before. -/
theorem classify_eq_iff {text : Text} {tag : Tag} (htag : tag ≠ .generic) :
    classify text = tag ↔
      shows text tag = true ∧ ∀ earlier ∈ tag.before, shows text earlier = false := by
  have hall : Tag.all = tag.before ++ tag :: (Tag.all.dropWhile (· ≠ tag)).tail := by
    cases tag <;> rfl
  constructor
  · intro h
    unfold classify at h
    cases hfind : Tag.all.find? (shows text) with
    | none =>
      rw [hfind] at h
      exact absurd h.symm htag
    | some found =>
      rw [hfind] at h
      obtain rfl : found = tag := h
      -- what the search passed over are the tags before the one that it found
      obtain ⟨hshows, front, back, hsplit, hfront⟩ := List.find?_eq_some_iff_append.mp hfind
      have hbefore : found.before = front := by
        rw [Tag.before, hsplit, List.takeWhile_append_of_pos, List.takeWhile_cons_of_neg]
        · simp
        · simp
        · intro earlier hmem
          simp only [decide_eq_true_eq]
          rintro rfl
          simpa [hshows] using hfront _ hmem
      refine ⟨hshows, fun earlier hmem => ?_⟩
      rw [hbefore] at hmem
      simpa using hfront earlier hmem
  · rintro ⟨hshows, hbefore⟩
    unfold classify
    rw [hall, List.find?_append, List.find?_eq_none.mpr (by simpa using hbefore),
      List.find?_cons_of_pos hshows]
    rfl

/-! ## Derivatives -/

/-- Whether a text starts with `d` and a name, blanks aside. -/
def IsDifferential (text : Text) : Prop :=
  ∃ rest, Text.trimStart text = 'd' :: rest ∧ beginsWithName (Text.trimStart rest) = true

/-- Whether a text starts like the quotient of a derivative behind its first brace: with `d` and no
brace up to the seam of a fraction, and with a differential behind it. -/
def IsQuotient (text : Text) : Prop :=
  ∃ inside rest, Text.trimStart text = 'd' :: inside ++ '}' :: '{' :: rest ∧
    isBraceFree inside = true ∧ IsDifferential rest

/-- What opens a fraction. -/
def fractionOpening : Text := '\\' :: "frac".toList ++ ['{']

theorem wordBehindBlanks?_d_iff {text rest : Text} :
    wordBehindBlanks? "d" text = some rest ↔ Text.trimStart text = 'd' :: rest :=
  Text.isPrefixOf?_eq_some

/-- What stands before the first brace of a text, when that brace closes a group. -/
theorem dropWhile_eq_brace_iff {text rest : Text} :
    text.dropWhile (fun c => !(c == '{' || c == '}')) = '}' :: rest ↔
      ∃ inside, text = inside ++ '}' :: rest ∧ isBraceFree inside = true := by
  constructor
  · intro h
    refine ⟨text.takeWhile fun c => !(c == '{' || c == '}'), ?_, ?_⟩
    · rw [← h, List.takeWhile_append_dropWhile]
    · refine List.all_eq_true.mpr fun c hc => ?_
      simpa using List.mem_takeWhile_imp hc
  · rintro ⟨inside, rfl, hinside⟩
    rw [List.dropWhile_append_of_pos]
    · rfl
    · intro c hc
      simpa using ne_brace_of_isBraceFree hinside hc

/-- The pattern of a derivative, as the shape of a text: a fraction whose numerator starts with `d`
and whose denominator starts with a differential. -/
theorem beginsWithDerivative_iff {text : Text} :
    beginsWithDerivative text = true ↔
      ∃ body, text = fractionOpening ++ body ∧ IsQuotient body := by
  have hgetD : ∀ found : Option Bool, found.getD false = true ↔ found = some true := by
    intro found
    cases found <;> simp
  rw [beginsWithDerivative, hgetD]
  simp only [Option.bind_eq_bind, Option.bind_eq_some_iff, wordBehindBlanks?_d_iff,
    Text.isPrefixOf?_eq_some, Option.pure_def, Option.some.injEq]
  constructor
  · rintro ⟨body, rfl, behind, hstart, rest, hseam, var, hvar, hname⟩
    obtain ⟨inside, rfl, hinside⟩ := dropWhile_eq_brace_iff.mp hseam
    exact ⟨body, rfl, inside, rest, hstart, hinside, var, hvar, hname⟩
  · rintro ⟨body, rfl, inside, rest, hstart, hinside, var, hvar, hname⟩
    exact ⟨body, rfl, _, hstart, rest, dropWhile_eq_brace_iff.mpr ⟨inside, rfl, hinside⟩, var, hvar,
      hname⟩

/-- A derivative is looked for at every place of a text. -/
theorem shows_derivative_iff {text : Text} :
    shows text .derivative = true ↔
      ∃ body, fractionOpening ++ body <:+ text ∧ IsQuotient body := by
  rw [shows, anySuffix_iff]
  simp only [beginsWithDerivative_iff]
  constructor
  · rintro ⟨_, hsuffix, body, rfl, hbody⟩
    exact ⟨body, hsuffix, hbody⟩
  · rintro ⟨body, hsuffix, hbody⟩
    exact ⟨_, hsuffix, body, rfl, hbody⟩

/-- A quotient is a fraction. -/
theorem shows_fraction_of_derivative {text : Text} (h : shows text .derivative = true) :
    shows text .fraction = true := by
  obtain ⟨body, ⟨before, htext⟩, -⟩ := shows_derivative_iff.mp h
  show hasCommand ('\\' :: "frac".toList) text = true
  refine (hasCommand_iff (by decide)).mpr ⟨before, '{' :: body, ?_, rfl⟩
  rw [← htext]
  simp [fractionOpening]

/-- What starts a text with a brace behind it is no blank. -/
theorem trimStart_append_brace {text after rest : Text} {c : Char} (hc : c ≠ '}')
    (h : Text.trimStart (text ++ '}' :: after) = c :: rest) :
    ∃ rest', Text.trimStart text = c :: rest' ∧ rest = rest' ++ '}' :: after := by
  rw [Text.trimStart, List.dropWhile_append] at h
  split at h
  · rw [List.dropWhile_cons_of_neg (by decide)] at h
    exact absurd (List.cons.inj h).1.symm hc
  · next hne =>
    rw [Text.trimStart]
    cases hstart : text.dropWhile isBlank with
    | nil => simp [hstart] at hne
    | cons d rest' =>
      rw [hstart] at h
      obtain ⟨rfl, hrest⟩ := List.cons.inj h
      exact ⟨rest', rfl, hrest.symm⟩

/-- A name is a letter, or a command of at least one letter. -/
theorem beginsWithName_iff {text : Text} :
    beginsWithName text = true ↔
      ∃ c rest, isLetter c = true ∧ (text = c :: rest ∨ text = '\\' :: c :: rest) := by
  constructor
  · intro h
    unfold beginsWithName at h
    split at h
    next rest =>
      cases rest with
      | nil => cases h
      | cons c rest => exact ⟨c, rest, h, Or.inr rfl⟩
    next =>
      cases text with
      | nil => cases h
      | cons c rest => exact ⟨c, rest, h, Or.inl rfl⟩
  · rintro ⟨c, rest, hc, rfl | rfl⟩
    · unfold beginsWithName
      split
      next heq =>
        obtain ⟨rfl, -⟩ := List.cons.inj heq
        cases hc
      next => exact hc
    · exact hc

/-- A name that starts a text with a brace behind it stands before the brace. -/
theorem beginsWithName_append_brace {text after : Text}
    (h : beginsWithName (Text.trimStart (text ++ '}' :: after)) = true) :
    beginsWithName (Text.trimStart text) = true := by
  obtain ⟨c, rest, hc, hstart | hstart⟩ := beginsWithName_iff.mp h
  · obtain ⟨rest', htext, -⟩ := trimStart_append_brace (by rintro rfl; cases hc) hstart
    exact beginsWithName_iff.mpr ⟨c, rest', hc, Or.inl htext⟩
  · obtain ⟨rest', htext, hrest⟩ := trimStart_append_brace (by decide) hstart
    cases rest' with
    | nil =>
      obtain ⟨rfl, -⟩ := List.cons.inj hrest
      cases hc
    | cons d rest' =>
      obtain ⟨rfl, -⟩ := List.cons.inj hrest
      exact beginsWithName_iff.mpr ⟨c, rest', hc, Or.inr htext⟩

/-- A differential with a brace behind it stands before the brace. -/
theorem IsDifferential.of_append_brace {text after : Text}
    (h : IsDifferential (text ++ '}' :: after)) : IsDifferential text := by
  obtain ⟨rest, hstart, hname⟩ := h
  obtain ⟨rest', htext, rfl⟩ := trimStart_append_brace (by decide) hstart
  exact ⟨rest', htext, beginsWithName_append_brace hname⟩

/-- A quotient with a brace behind it stands before the brace, or the brace is its first and a
differential stands behind it. -/
theorem IsQuotient.of_append_brace {text after : Text} (h : IsQuotient (text ++ '}' :: after)) :
    IsQuotient text ∨
      (∃ inside, Text.trimStart text = 'd' :: inside ∧ isBraceFree inside = true) ∧
        ∃ rest, after = '{' :: rest ∧ IsDifferential rest := by
  obtain ⟨inside, rest, hstart, hinside, hrest⟩ := h
  obtain ⟨body, htext, hbody⟩ := trimStart_append_brace (by decide) hstart
  rcases List.append_eq_append_iff.mp hbody with ⟨u, hu, hafter⟩ | ⟨u, hu, hafter⟩
  · cases u with
    | nil =>
      rw [List.append_nil] at hu
      exact Or.inr ⟨⟨body, htext, hu ▸ hinside⟩, rest, (List.cons.inj hafter).2.symm, hrest⟩
    | cons c u =>
      -- the seam of the quotient starts before the brace, so it ends before it
      obtain ⟨rfl, hseam⟩ := List.cons.inj hafter
      cases u with
      | nil => cases (List.cons.inj hseam).1
      | cons d u =>
        obtain ⟨rfl, rfl⟩ := List.cons.inj hseam
        refine Or.inl ⟨inside, u, ?_, hinside, hrest.of_append_brace⟩
        rw [htext, hu, List.cons_append]
  · cases u with
    | nil =>
      rw [List.append_nil] at hu
      exact Or.inr ⟨⟨body, htext, hu ▸ hinside⟩, rest, (List.cons.inj hafter).2, hrest⟩
    | cons c u =>
      obtain ⟨rfl, -⟩ := List.cons.inj hafter
      rw [hu] at hinside
      exact absurd rfl (ne_brace_of_isBraceFree hinside (by simp)).2

/-- The blanks before a text are no braces. -/
theorem isBraceFree_of_trimStart {text : Text} (h : isBraceFree (Text.trimStart text) = true) :
    isBraceFree text = true := by
  refine List.all_eq_true.mpr fun c hc => ?_
  rw [← List.takeWhile_append_dropWhile (p := isBlank) (l := text), List.mem_append] at hc
  rcases hc with hc | hc
  · have hblank := List.mem_takeWhile_imp hc
    have hopen : c ≠ '{' := by rintro rfl; cases hblank
    have hclose : c ≠ '}' := by rintro rfl; cases hblank
    simp [hopen, hclose]
  · exact List.all_eq_true.mp h c hc

/-- A derivative in a text with a brace behind a balanced part is found in the part or behind it:
the brace that opens its numerator closes in the part. -/
theorem shows_derivative_append_brace {before after : Text} (hbefore : IsBalanced before)
    (h : shows (before ++ '}' :: after) .derivative = true) :
    shows before .derivative = true ∨ shows after .derivative = true := by
  simp only [shows_derivative_iff] at h ⊢
  obtain ⟨body, ⟨s, hs⟩, hbody⟩ := h
  rcases List.append_eq_append_iff.mp hs.symm with ⟨u, hu, hopening⟩ | ⟨u, hu, hopening⟩
  · cases u with
    | nil => cases (List.cons.inj hopening).1
    | cons c u =>
      obtain ⟨-, hafter⟩ := List.cons.inj hopening
      exact Or.inr ⟨body, ⟨u, hafter.symm⟩, hbody⟩
  · -- the derivative starts in the part before the brace, and so does its numerator
    obtain ⟨v, hv, rfl⟩ : ∃ v, u = fractionOpening ++ v ∧ body = v ++ '}' :: after := by
      rcases List.append_eq_append_iff.mp hopening with ⟨v, hv, hrest⟩ | ⟨v, hv, hrest⟩
      · exact ⟨v, hv, hrest⟩
      · cases v with
        | nil => exact ⟨[], by rw [hv, List.append_nil, List.append_nil], hrest.symm⟩
        | cons c v =>
          have hmem : '}' ∈ fractionOpening := by
            rw [hv, (List.cons.inj hrest).1]
            simp
          exact absurd hmem (by decide)
    rcases hbody.of_append_brace with hquotient | ⟨⟨inside, hstart, hinside⟩, -⟩
    · exact Or.inl ⟨v, ⟨s, by rw [hu, hv]⟩, hquotient⟩
    · -- a numerator without braces up to the brace would leave its own group open
      exfalso
      have hfree : isBraceFree v = true :=
        isBraceFree_of_trimStart (by rw [hstart]; exact hinside)
      refine not_suffix_of_isBalanced "\\fra" hbefore (show 'c' ≠ '\\' by decide) hfree ⟨s, ?_⟩
      rw [hu, hv]
      simp [fractionOpening]

/-- A derivative starts at a backslash, so that it is not found at any other character. -/
theorem shows_derivative_of_cons {c : Char} {text : Text} (hc : c ≠ '\\')
    (h : shows (c :: text) .derivative = true) : shows text .derivative = true := by
  simp only [shows_derivative_iff] at h ⊢
  obtain ⟨body, hsuffix, hbody⟩ := h
  rcases List.suffix_cons_iff.mp hsuffix with heq | hsuffix
  · exact absurd (List.cons.inj heq).1.symm hc
  · exact ⟨body, hsuffix, hbody⟩

/-- A derivative behind a text without backslashes is found in what follows the text. -/
theorem shows_derivative_of_append {before text : Text} (hbefore : '\\' ∉ before)
    (h : shows (before ++ text) .derivative = true) : shows text .derivative = true := by
  induction before with
  | nil => exact h
  | cons c before ih =>
    rw [List.mem_cons, not_or] at hbefore
    exact ih hbefore.2 (shows_derivative_of_cons (Ne.symm hbefore.1) h)

/-! What stands before a brace is not changed by the brace and what is behind it. -/

theorem trimStart_append_cons {text rest : Text} {c : Char} (h : Text.trimStart text = c :: rest)
    (after : Text) : Text.trimStart (text ++ after) = c :: (rest ++ after) := by
  rw [Text.trimStart] at h ⊢
  rw [List.dropWhile_append, h]
  rfl

theorem beginsWithName_trimStart_append {text : Text}
    (h : beginsWithName (Text.trimStart text) = true) (after : Text) :
    beginsWithName (Text.trimStart (text ++ after)) = true := by
  obtain ⟨c, rest, hc, htext | htext⟩ := beginsWithName_iff.mp h
  · exact beginsWithName_iff.mpr
      ⟨c, rest ++ after, hc, Or.inl (trimStart_append_cons htext after)⟩
  · exact beginsWithName_iff.mpr
      ⟨c, rest ++ after, hc, Or.inr (trimStart_append_cons htext after)⟩

/-- A differential is told by its beginning alone. -/
theorem IsDifferential.append {text : Text} (h : IsDifferential text) (after : Text) :
    IsDifferential (text ++ after) := by
  obtain ⟨rest, hstart, hname⟩ := h
  exact ⟨rest ++ after, trimStart_append_cons hstart after,
    beginsWithName_trimStart_append hname after⟩

/-- A quotient is told by its beginning alone, up to the name of its variable. -/
theorem IsQuotient.append {text : Text} (h : IsQuotient text) (after : Text) :
    IsQuotient (text ++ after) := by
  obtain ⟨inside, rest, hstart, hinside, hrest⟩ := h
  refine ⟨inside, rest ++ after, ?_, hinside, hrest.append after⟩
  rw [List.cons_append] at hstart
  rw [trimStart_append_cons hstart after]
  simp

/-! ## Scripts -/

/-- The text around the fields of a script does not put the mark of the other script together. -/
theorem not_infix_script {mark other : Char} (hne : mark ≠ other) (hmark : mark ≠ '{')
    (hmark' : mark ≠ '}') (hother : other ≠ '{') {base script : Text}
    (hbase : ¬[mark, '{'] <:+: base) (hscript : ¬[mark, '{'] <:+: script) :
    ¬[mark, '{'] <:+: writeBase base ++ other :: Text.braced script := by
  have hgroup : ∀ {content : Text}, ¬[mark, '{'] <:+: content →
      ¬[mark, '{'] <:+: Text.braced content := by
    intro content hcontent h
    rcases Text.infix_append_cons (by simp [hmark'.symm])
      (Text.infix_of_infix_cons hmark.symm h) with h | h
    · exact hcontent h
    · simp at h
  intro h
  rcases Text.infix_append_cons (by simp [hne.symm, hother]) h with h | h
  · unfold writeBase at h
    split at h
    · exact hgroup hbase h
    · exact hbase h
  · exact hgroup hscript h

/-! ## Written formulas -/

/-- What the fields of a formula must not look like besides: a numerator of a partial derivative,
the two parts of a derivative, the other script. A derivative needs a name for its variable. -/
def HasOwnForm : Formula → Prop
  | fraction numerator denominator =>
    ¬"\\partial".toList <+: numerator ∧
      ¬((∃ rest, Text.trimStart numerator = 'd' :: rest ∧ isBraceFree rest = true) ∧
        IsDifferential denominator)
  | derivative _ var false => beginsWithName (Text.trimStart var) = true
  | superscript base exponent => ¬"_\x7b".toList <:+: base ∧ ¬"_\x7b".toList <:+: exponent
  | subscript base script => ¬"^\x7b".toList <:+: base ∧ ¬"^\x7b".toList <:+: script
  | generic _ => False
  | _ => True

/-- A formula whose fields are balanced, show no construct that is asked for before its own, and
have no other's form. -/
structure IsPlain (formula : Formula) : Prop where
  balanced : ∀ field ∈ formula.fields, IsBalanced field
  earlier : ∀ field ∈ formula.fields, ∀ tag ∈ formula.tag.before, shows field tag = false
  form : formula.HasOwnForm

/-- Whether a formula is a fraction whose numerator is a quotient of its own: an escaped brace in
it is taken for its end. -/
def IsTorn : Formula → Prop
  | fraction numerator _ => IsQuotient numerator
  | _ => False

/-- A command that is followed by no letter is found in front. -/
theorem hasCommand_self {word rest : Text} (hword : '\\' ∉ word)
    (hrest : beginsWithLetter rest = false) :
    hasCommand ('\\' :: word) ('\\' :: (word ++ rest)) = true :=
  (hasCommand_iff hword).mpr ⟨[], rest, rfl, hrest⟩

/-- A plain formula shows its own construct. -/
theorem IsPlain.shows_tag {formula : Formula} (h : formula.IsPlain) :
    shows formula.write formula.tag = true := by
  have hform := h.form
  cases formula with
  | fraction numerator denominator =>
    rw [write_fraction, List.append_assoc]
    exact hasCommand_self (by decide) rfl
  | root index radicand =>
    rw [write_root, tag]
    split
    · exact hasCommand_self (by decide) rfl
    · refine Text.contains_iff.mpr ⟨[], index ++ ']' :: Text.braced radicand, ?_⟩
      simp [Text.bracketed]
  | superscript base exponent =>
    rw [write_superscript, List.append_assoc]
    refine Bool.and_eq_true_iff.mpr ⟨?_, ?_⟩
    · exact Text.contains_iff.mpr ⟨writeBase base, exponent ++ ['}'], by simp [Text.braced]⟩
    · rw [Bool.not_eq_true', Bool.eq_false_iff]
      intro hcontains
      exact not_infix_script (by decide) (by decide) (by decide) (by decide) hform.1 hform.2
        (Text.contains_iff.mp hcontains)
  | subscript base script =>
    rw [write_subscript, List.append_assoc]
    refine Bool.and_eq_true_iff.mpr ⟨?_, ?_⟩
    · exact Text.contains_iff.mpr ⟨writeBase base, script ++ ['}'], by simp [Text.braced]⟩
    · rw [Bool.not_eq_true', Bool.eq_false_iff]
      intro hcontains
      exact not_infix_script (by decide) (by decide) (by decide) (by decide) hform.1 hform.2
        (Text.contains_iff.mp hcontains)
  | integral lower upper integrand var =>
    rw [write_integral]
    simp only [List.append_assoc]
    exact hasCommand_self (by decide) rfl
  | doubleIntegral domain integrand area =>
    rw [write_doubleIntegral]
    simp only [List.append_assoc]
    exact hasCommand_self (by decide) rfl
  | bigOperator operator var lower upper expression =>
    rw [write_bigOperator]
    simp only [List.append_assoc]
    cases operator with
    | sum =>
      show hasCommand _ (Text.trimEnd ("\\sum".toList ++ '_' :: _)) = true
      rw [Text.trimEnd_append_cons (by decide)]
      exact hasCommand_self (by decide) rfl
    | product =>
      show hasCommand _ (Text.trimEnd ("\\prod".toList ++ '_' :: _)) = true
      rw [Text.trimEnd_append_cons (by decide)]
      exact hasCommand_self (by decide) rfl
  | limit var approaches expression =>
    rw [write_limit]
    simp only [List.append_assoc]
    show hasCommand _ (Text.trimEnd ("\\lim".toList ++ '_' :: _)) = true
    rw [Text.trimEnd_append_cons (by decide)]
    exact hasCommand_self (by decide) rfl
  | derivative func var isPartial =>
    rw [write_derivative]
    cases isPartial with
    | true =>
      have htext : ∀ rest : Text, "\\frac\x7b\\partial\x7d" ++ Text.braced ("\\partial " ++ var)
          ++ " " ++ rest = "\\frac\x7b\\partial".toList ++ '}' ::
            (Text.braced ("\\partial " ++ var) ++ ' ' :: rest) := by
        intro rest
        simp
      rw [if_pos rfl, htext, Text.trimEnd_append_cons (by decide)]
      exact Text.contains_iff.mpr ⟨[], _, rfl⟩
    | false =>
      have htext : "\\frac\x7bd\x7d" ++ Text.braced ("d" ++ var) ++ " " ++ func
          = fractionOpening ++ "d\x7d\x7bd".toList ++ var ++ '}' :: (' ' :: func) := by
        simp [fractionOpening, Text.braced]
      have hvar : beginsWithName (Text.trimStart var) = true := hform
      rw [if_neg (by decide), htext, Text.trimEnd_append_cons (by decide), List.append_assoc,
        List.append_assoc]
      refine shows_derivative_iff.mpr ⟨_, List.suffix_refl _, [], _, rfl, rfl, ?_⟩
      exact ⟨_, rfl, beginsWithName_trimStart_append hvar _⟩
  | matrix rows cols cells delimiter =>
    refine shows_matrix_iff.mpr ⟨delimiter, List.IsPrefix.isInfix ?_⟩
    rw [write_matrix]
    unfold inEnvironment
    rw [List.append_assoc, List.append_assoc]
    exact List.prefix_append _ _
  | generic raw => exact hform.elim

/-- The constructs that stand at a command of a formula and are asked for before its own. -/
theorem mem_commands_of_before {tag earlier : Tag} (htag : tag ≠ .generic)
    (h : earlier ∈ tag.before) (hderivative : earlier ≠ .derivative)
    (hword : earlier.word ∈ tag.commands ∨ earlier.word = []) :
    (tag, earlier) ∈ [(Tag.fraction, Tag.partialDerivative), (.derivative, .partialDerivative),
      (.squareRoot, .nthRoot), (.subscript, .superscript)] := by
  revert htag h hderivative hword
  cases tag <;> cases earlier <;> decide

theorem markedBy_partial :
    MarkedBy "frac" (fun text => shows text .partialDerivative = true) :=
  markedBy_shows (show Tag.partialDerivative ≠ .derivative by decide) (List.cons_ne_nil _ _)

theorem markedBy_fraction : MarkedBy "frac" (fun text => shows text .fraction = true) :=
  markedBy_shows (show Tag.fraction ≠ .derivative by decide) (List.cons_ne_nil _ _)

theorem markedBy_nthRoot : MarkedBy "sqrt" (fun text => shows text .nthRoot = true) :=
  markedBy_shows (show Tag.nthRoot ≠ .derivative by decide) (List.cons_ne_nil _ _)

/-- A fraction that shows a partial derivative shows it in a field, or its numerator starts like
that of one. -/
theorem shows_partial_of_fraction {numerator denominator : Text}
    (hn : IsBalanced numerator) (hd : IsBalanced denominator)
    (h : shows (fraction numerator denominator).write .partialDerivative = true) :
    "\\partial".toList <+: numerator ∨ shows numerator .partialDerivative = true ∨
      shows denominator .partialDerivative = true := by
  have htext : (fraction numerator denominator).write
      = '\\' :: ("frac".toList ++ (Text.braced numerator ++ Text.braced denominator)) := by
    rw [write_fraction]
    simp
  rw [htext] at h
  rcases List.infix_cons_iff.mp (Text.contains_iff.mp h) with hprefix | hinfix
  · have hstart : "\\partial".toList <+: numerator ++ '}' :: Text.braced denominator := by
      simpa [Text.braced] using hprefix
    exact Or.inl (Text.prefix_of_prefix_append_cons (by decide) hstart)
  · have hgroups := Text.contains_iff.mpr (Text.infix_of_infix_append (by decide) hinfix)
    exact Or.inr ((markedBy_partial.group hn hgroups).imp_right (markedBy_partial.braced hd))

/-- A derivative that shows a partial derivative shows it in a field. -/
theorem shows_partial_of_derivative {func var : Text} (hv : IsBalanced var)
    (h : shows (derivative func var false).write .partialDerivative = true) :
    shows func .partialDerivative = true ∨ shows var .partialDerivative = true := by
  rw [write_derivative] at h
  have htrim := Text.contains_iff.mp (markedBy_partial.ofTrimEnd h)
  have htext : "\\frac\x7bd\x7d" ++ Text.braced ("d" ++ var) ++ " " ++ func
      = '\\' :: ("frac\x7bd\x7d\x7bd".toList ++ (var ++ '}' :: ' ' :: func)) := by
    simp [Text.braced]
  rw [if_neg (by decide), htext] at htrim
  rcases List.infix_cons_iff.mp htrim with hprefix | hinfix
  · simp at hprefix
  · have hvar := Text.contains_iff.mpr (Text.infix_of_infix_append (by decide) hinfix)
    exact ((markedBy_partial.close hv hvar).imp_right (markedBy_partial.skip (by decide))).symm

/-- A square root that shows a root with an index shows it in its radicand. -/
theorem shows_nthRoot_of_squareRoot {radicand : Text} (hr : IsBalanced radicand)
    (h : shows (root [] radicand).write .nthRoot = true) : shows radicand .nthRoot = true := by
  have htext : (root [] radicand).write = '\\' :: ("sqrt".toList ++ Text.braced radicand) := rfl
  rw [htext] at h
  rcases List.infix_cons_iff.mp (Text.contains_iff.mp h) with hprefix | hinfix
  · simp [Text.braced] at hprefix
  · exact markedBy_nthRoot.braced hr
      (Text.contains_iff.mpr (Text.infix_of_infix_append (by decide) hinfix))

/-- A subscript does not show a superscript. -/
theorem not_shows_superscript_of_subscript (base script : Text) :
    shows (subscript base script).write .superscript = false := by
  have hmark : Text.contains (subscript base script).write "_\x7b" = true :=
    Text.contains_iff.mpr ⟨writeBase base, script ++ ['}'], by simp [write_subscript, Text.braced]⟩
  rw [shows, hmark]
  simp

/-- A fraction that shows a derivative shows it in a field, or is one itself, or is torn. -/
theorem shows_derivative_of_fraction {numerator denominator : Text}
    (hn : IsBalanced numerator) (hd : IsBalanced denominator)
    (h : shows (fraction numerator denominator).write .derivative = true) :
    IsQuotient numerator ∨
      ((∃ rest, Text.trimStart numerator = 'd' :: rest ∧ isBraceFree rest = true) ∧
        IsDifferential denominator) ∨
      shows numerator .derivative = true ∨ shows denominator .derivative = true := by
  have htext : (fraction numerator denominator).write
      = '\\' :: ("frac\x7b".toList ++ (numerator ++ '}' :: Text.braced denominator)) := by
    rw [write_fraction]
    simp [Text.braced]
  rw [htext] at h
  obtain ⟨body, hsuffix, hbody⟩ := shows_derivative_iff.mp h
  rcases List.suffix_cons_iff.mp hsuffix with heq | hsuffix
  · -- the fraction itself is taken for the quotient
    have hbody' : body = numerator ++ '}' :: Text.braced denominator := by
      simpa [fractionOpening] using heq
    rw [hbody'] at hbody
    refine hbody.of_append_brace.imp_right fun hquotient => ?_
    obtain ⟨hinside, rest, hrest, hdifferential⟩ := hquotient
    rw [← (List.cons.inj hrest).2] at hdifferential
    exact Or.inl ⟨hinside, hdifferential.of_append_brace⟩
  · refine Or.inr (Or.inr ?_)
    have hfields := shows_derivative_of_append (by decide)
      (shows_derivative_iff.mpr ⟨body, hsuffix, hbody⟩)
    refine (shows_derivative_append_brace hn hfields).imp_right fun hgroup => ?_
    have hdenominator : shows (denominator ++ '}' :: []) .derivative = true :=
      shows_derivative_of_cons (by decide) hgroup
    exact (shows_derivative_append_brace hd hdenominator).resolve_right (by decide)

/-! ## Tags and constructs -/

theorem eq_fraction_of_tag {formula : Formula} (h : formula.tag = .fraction) :
    ∃ numerator denominator, formula = fraction numerator denominator := by
  unfold tag at h
  split at h <;> grind

theorem eq_derivative_of_tag {formula : Formula} (h : formula.tag = .derivative) :
    ∃ func var, formula = derivative func var false := by
  unfold tag at h
  split at h <;> grind

theorem eq_root_of_tag {formula : Formula} (h : formula.tag = .squareRoot) :
    ∃ index radicand, formula = root index radicand ∧ index = [] := by
  unfold tag at h
  split at h <;> grind [List.isEmpty_iff]

theorem eq_subscript_of_tag {formula : Formula} (h : formula.tag = .subscript) :
    ∃ base script, formula = subscript base script := by
  unfold tag at h
  split at h <;> grind

theorem eq_generic_of_tag {formula : Formula} (h : formula.tag = .generic) :
    ∃ raw, formula = generic raw := by
  unfold tag at h
  split at h <;> grind

theorem IsPlain.tag_ne_generic {formula : Formula} (h : formula.IsPlain) :
    formula.tag ≠ .generic := by
  intro htag
  obtain ⟨raw, rfl⟩ := eq_generic_of_tag htag
  exact h.form.elim

/-- No field of a plain formula shows a construct that is asked for before its own. -/
theorem IsPlain.not_exists_field {formula : Formula} (h : formula.IsPlain) {earlier : Tag}
    (hearlier : earlier ∈ formula.tag.before) :
    ¬∃ field ∈ formula.fields, shows field earlier = true := by
  rintro ⟨field, hfield, hfound⟩
  rw [h.earlier field hfield earlier hearlier] at hfound
  cases hfound

theorem IsPlain.not_shows_derivative {formula : Formula} (h : formula.IsPlain)
    (htorn : ¬formula.IsTorn) (hearlier : .derivative ∈ formula.tag.before) :
    shows formula.write .derivative = false := by
  rw [Bool.eq_false_iff]
  intro hshows
  by_cases htag : formula.tag = .fraction
  · obtain ⟨numerator, denominator, rfl⟩ := eq_fraction_of_tag htag
    have hbalanced := h.balanced
    simp only [fields, List.forall_mem_cons] at hbalanced
    rcases shows_derivative_of_fraction hbalanced.1 hbalanced.2.1 hshows with hq | hq | hq
    · exact htorn hq
    · exact h.form.2 hq
    · exact h.not_exists_field hearlier (by simpa [fields] using hq)
  · -- a construct that comes later is no fraction, and what shows a derivative shows a fraction
    have hfraction : .fraction ∈ formula.tag.before ∧ Tag.fraction.word ∉ formula.tag.commands
        ∧ formula.tag ≠ .matrix := by
      revert hearlier htag
      cases formula.tag <;> decide
    refine h.not_exists_field hfraction.1 ?_
    exact markedBy_fraction.exists_field h.balanced hfraction.2.1 hfraction.2.2
      (shows_fraction_of_derivative hshows)

/-- A plain formula that is not torn shows no construct that is asked for before its own. -/
theorem IsPlain.not_shows_before {formula : Formula} (h : formula.IsPlain)
    (htorn : ¬formula.IsTorn) {earlier : Tag} (hearlier : earlier ∈ formula.tag.before) :
    shows formula.write earlier = false := by
  by_cases hderivative : earlier = .derivative
  · subst hderivative
    exact h.not_shows_derivative htorn hearlier
  rw [Bool.eq_false_iff]
  intro hshows
  refine h.not_exists_field hearlier ?_
  have hbalanced := h.balanced
  by_cases hword : earlier.word ∈ formula.tag.commands ∨ earlier.word = []
  · -- the four pairs of constructs that share a command or have none
    have hmem := mem_commands_of_before h.tag_ne_generic hearlier hderivative hword
    simp only [List.mem_cons, Prod.mk.injEq, List.not_mem_nil, or_false] at hmem
    rcases hmem with ⟨htag, rfl⟩ | ⟨htag, rfl⟩ | ⟨htag, rfl⟩ | ⟨htag, rfl⟩
    · obtain ⟨numerator, denominator, rfl⟩ := eq_fraction_of_tag htag
      simp only [fields, List.forall_mem_cons] at hbalanced
      have hfields := shows_partial_of_fraction hbalanced.1 hbalanced.2.1 hshows
      simpa [fields] using hfields.resolve_left h.form.1
    · obtain ⟨func, var, rfl⟩ := eq_derivative_of_tag htag
      simp only [fields, List.forall_mem_cons] at hbalanced
      simpa [fields] using shows_partial_of_derivative hbalanced.2.1 hshows
    · obtain ⟨_, radicand, rfl, rfl⟩ := eq_root_of_tag htag
      simp only [fields, List.forall_mem_cons] at hbalanced
      exact ⟨radicand, by simp [fields], shows_nthRoot_of_squareRoot hbalanced.2.1 hshows⟩
    · obtain ⟨base, script, rfl⟩ := eq_subscript_of_tag htag
      rw [not_shows_superscript_of_subscript] at hshows
      cases hshows
  · rw [not_or] at hword
    have hmatrix : formula.tag ≠ .matrix := by
      intro htag
      rw [htag] at hearlier
      cases hearlier
    exact (markedBy_shows hderivative hword.2).exists_field hbalanced hword.1 hmatrix hshows

/-- A plain formula is classified as what it is, unless it is a torn fraction. -/
theorem classify_write_iff {formula : Formula} (h : formula.IsPlain) :
    classify formula.write = formula.tag ↔ ¬formula.IsTorn := by
  rw [classify_eq_iff h.tag_ne_generic]
  constructor
  · rintro ⟨-, hbefore⟩ htorn
    cases formula with
    | fraction numerator denominator =>
      -- a torn fraction shows a derivative, which is asked for first
      have hshows : shows (fraction numerator denominator).write .derivative = true := by
        refine shows_derivative_iff.mpr ⟨numerator ++ '}' :: Text.braced denominator, ?_,
          IsQuotient.append htorn _⟩
        rw [write_fraction]
        exact ⟨[], by simp [fractionOpening, Text.braced]⟩
      have hmem : Tag.derivative ∈ Tag.fraction.before := by decide
      rw [hbefore .derivative hmem] at hshows
      cases hshows
    | _ => exact htorn.elim
  · intro htorn
    exact ⟨h.shows_tag, fun earlier hearlier => h.not_shows_before htorn hearlier⟩

/-- A sum over a letter that is no differential is a fraction. -/
theorem classify_write_sum_over_letter :
    IsPlain (fraction "\\sum_\x7bi\x7d^\x7bn\x7d x_\x7bi\x7d" "d") ∧
      classify (fraction "\\sum_\x7bi\x7d^\x7bn\x7d x_\x7bi\x7d" "d").write = .fraction := by
  have hplain : IsPlain (fraction "\\sum_\x7bi\x7d^\x7bn\x7d x_\x7bi\x7d" "d") := by
    refine ⟨by decide, by decide, by decide, ?_⟩
    rintro ⟨-, rest, hstart, hname⟩
    obtain ⟨-, hrest⟩ := List.cons.inj hstart
    rw [← hrest] at hname
    cases hname
  have hwhole : ¬IsTorn (fraction "\\sum_\x7bi\x7d^\x7bn\x7d x_\x7bi\x7d" "d") := by
    rintro ⟨inside, rest, hstart, -⟩
    cases (List.cons.inj hstart).1
  exact ⟨hplain, (classify_write_iff hplain).mpr hwhole⟩

/-- An escaped brace in a numerator ends it for the derivative: a plain fraction is classified as
a derivative. -/
theorem classify_torn_numerator :
    IsPlain (fraction "d\\\x7d\x7bdx\x7d" "1") ∧
      classify (fraction "d\\\x7d\x7bdx\x7d" "1").write ≠
        (fraction "d\\\x7d\x7bdx\x7d" "1").tag := by
  refine ⟨⟨by decide, by decide, by decide, ?_⟩, by decide⟩
  rintro ⟨-, rest, hstart, -⟩
  cases hstart

end Formula

end TexFigure
