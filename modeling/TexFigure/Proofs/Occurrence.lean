import TexFigure.Proofs.Nesting
import TexFigure.Proofs.Trimming
import TexFigure.Source.Command
/-!
# Where a phrase occurs

An occurrence of a phrase in a text that is put together from parts lies in one of the parts or
covers a seam between them. What covers a seam has to hold the characters of the seam
(`infix_append_cons_cases`), and this rules most seams out: a phrase that starts with a backslash
and has no other cannot reach over a backslash, and one without a character cannot reach over that
character. The closing brace behind a balanced text is the one seam that needs more
(`not_suffix_of_isBalanced`).

Searches for phrases and for commands are described by these occurrences.
-/

namespace TexFigure

namespace Text

/-! ## Seams -/

/-- An occurrence in two texts with a character between them lies in one of them or covers the
character. -/
theorem infix_append_cons_cases {phrase before after : Text} {c : Char}
    (h : phrase <:+: before ++ c :: after) :
    phrase <:+: before ∨ phrase <:+: after ∨
      ∃ left right, phrase = left ++ c :: right ∧ left <:+ before ∧ right <+: after := by
  obtain ⟨s, t, heq⟩ := h
  rw [List.append_assoc] at heq
  rcases List.append_eq_append_iff.mp heq with ⟨u, hbefore, hrest⟩ | ⟨u, hs, hrest⟩
  · -- the occurrence starts before the seam
    rcases List.append_eq_append_iff.mp hrest with ⟨v, hu, -⟩ | ⟨v, hphrase, hafter⟩
    · exact Or.inl ⟨s, v, by rw [hbefore, hu, List.append_assoc]⟩
    · cases v with
      | nil =>
        rw [List.append_nil] at hphrase
        exact Or.inl ⟨s, [], by rw [hbefore, hphrase, List.append_nil]⟩
      | cons d v =>
        obtain ⟨rfl, hright⟩ := List.cons.inj hafter
        exact Or.inr (Or.inr ⟨u, v, hphrase, ⟨s, hbefore.symm⟩, ⟨t, hright.symm⟩⟩)
  · -- the occurrence starts at the seam or behind it
    cases u with
    | nil =>
      cases phrase with
      | nil => exact Or.inl List.nil_infix
      | cons d phrase =>
        obtain ⟨rfl, hright⟩ := List.cons.inj hrest
        exact Or.inr (Or.inr ⟨[], phrase, rfl, List.nil_suffix, ⟨t, hright.symm⟩⟩)
    | cons d u =>
      obtain ⟨rfl, hright⟩ := List.cons.inj hrest
      refine Or.inr (Or.inl ⟨u, t, ?_⟩)
      rw [List.append_assoc]
      exact hright.symm

/-- A phrase without a character does not reach over it. -/
theorem infix_append_cons {phrase before after : Text} {c : Char} (hc : c ∉ phrase)
    (h : phrase <:+: before ++ c :: after) : phrase <:+: before ∨ phrase <:+: after := by
  rcases infix_append_cons_cases h with h | h | ⟨left, right, rfl, -, -⟩
  · exact Or.inl h
  · exact Or.inr h
  · simp at hc

/-- A phrase without a character that starts a text with it starts what stands before it. -/
theorem prefix_of_prefix_append_cons {phrase before after : Text} {c : Char} (hc : c ∉ phrase)
    (h : phrase <+: before ++ c :: after) : phrase <+: before := by
  obtain ⟨t, ht⟩ := h
  rcases List.append_eq_append_iff.mp ht with ⟨u, hbefore, -⟩ | ⟨u, hphrase, hafter⟩
  · exact ⟨u, hbefore.symm⟩
  · cases u with
    | nil => exact ⟨[], by rw [hphrase, List.append_nil, List.append_nil]⟩
    | cons d u =>
      rw [hphrase, (List.cons.inj hafter).1] at hc
      simp at hc

/-- A phrase whose only backslash is its first character does not reach over a backslash. -/
theorem infix_append_backslash {phrase before after : Text} (hphrase : '\\' ∉ phrase.tail)
    (h : phrase <:+: before ++ '\\' :: after) :
    phrase <:+: before ∨ phrase <:+: '\\' :: after := by
  rcases infix_append_cons_cases h with h | h | ⟨left, right, rfl, -, ⟨t, rfl⟩⟩
  · exact Or.inl h
  · exact Or.inr (h.trans (List.suffix_cons _ _).isInfix)
  · -- a phrase that covers the backslash starts there, with the only one that it has
    cases left with
    | nil => exact Or.inr ⟨[], t, rfl⟩
    | cons d left => simp at hphrase

/-- A phrase that starts with another character than a text occurs behind that character. -/
theorem infix_of_infix_cons {first c : Char} {phrase text : Text} (hc : c ≠ first)
    (h : first :: phrase <:+: c :: text) : first :: phrase <:+: text := by
  rcases List.infix_cons_iff.mp h with h | h
  · exact absurd (List.cons_prefix_cons.mp h).1.symm hc
  · exact h

/-- A phrase that starts with a backslash occurs behind the characters that are none. -/
theorem infix_of_infix_append {phrase before text : Text} (hbefore : '\\' ∉ before)
    (h : '\\' :: phrase <:+: before ++ text) : '\\' :: phrase <:+: text := by
  induction before with
  | nil => exact h
  | cons c before ih =>
    rw [List.mem_cons, not_or] at hbefore
    exact ih hbefore.2 (infix_of_infix_cons (Ne.symm hbefore.1) h)

/-! ## Searching for a phrase -/

theorem isPrefixOf?_isSome {phrase text : Text} :
    (phrase.isPrefixOf? text).isSome = true ↔ phrase <+: text := by
  constructor
  · intro h
    obtain ⟨rest, hrest⟩ := Option.isSome_iff_exists.mp h
    exact ⟨rest, (isPrefixOf?_eq_some.mp hrest).symm⟩
  · rintro ⟨rest, rfl⟩
    rw [isPrefixOf?_eq_some.mpr rfl]
    rfl

theorem isPrefixOf?_append (phrase rest : Text) :
    phrase.isPrefixOf? (phrase ++ rest) = some rest :=
  isPrefixOf?_eq_some.mpr rfl

theorem isPrefixOf?_eq_none {phrase text : Text} (h : ¬phrase <+: text) :
    phrase.isPrefixOf? text = none := by
  rw [← isPrefixOf?_isSome] at h
  exact Option.not_isSome_iff_eq_none.mp h

/-- A text contains a phrase exactly when the phrase occurs in it. -/
theorem contains_iff {text phrase : Text} : contains text phrase = true ↔ phrase <:+: text := by
  induction text with
  | nil =>
    rw [contains, splitAtFirst, Option.isSome_map, isPrefixOf?_isSome]
    rw [List.prefix_nil, List.infix_nil]
  | cons c rest ih =>
    rw [List.infix_cons_iff, ← ih, ← isPrefixOf?_isSome, contains, splitAtFirst]
    cases phrase.isPrefixOf? (c :: rest) with
    | none => simp [contains]
    | some after => simp

/-- A reader that accepts a text stops in front of it. -/
theorem splitAtFirst_here {α : Type} {accept : Text → Option α} {text : Text} {a : α}
    (h : accept text = some a) : splitAtFirst accept text = some ([], a) := by
  cases text with
  | nil => rw [splitAtFirst, h, Option.map_some]
  | cons c rest => rw [splitAtFirst, h]

/-- The first place that a reader accepts lies behind a text none of whose suffixes it accepts. -/
theorem splitAtFirst_append {α : Type} {accept : Text → Option α} {before rest : Text} {a : α}
    (haccept : accept rest = some a)
    (hreject : ∀ suffix, suffix ≠ [] → suffix <:+ before → accept (suffix ++ rest) = none) :
    splitAtFirst accept (before ++ rest) = some (before, a) := by
  induction before with
  | nil => exact splitAtFirst_here haccept
  | cons c before ih =>
    have hnone := hreject (c :: before) (List.cons_ne_nil c before) List.suffix_rfl
    have hrest := ih fun suffix hne hsuffix =>
      hreject suffix hne (hsuffix.trans (List.suffix_cons c before))
    rw [List.cons_append] at hnone ⊢
    rw [splitAtFirst, hnone, hrest, Option.map_some]

/-- A phrase at the front of a text is where the text is cut. -/
theorem cut?_prefix (phrase rest : Text) : cut? (phrase ++ rest) phrase = some ([], rest) :=
  splitAtFirst_here (isPrefixOf?_append phrase rest)

/-- A text is not cut at a phrase that it does not hold. -/
theorem cut?_eq_none {phrase text : Text} (h : ¬phrase <:+: text) : cut? text phrase = none := by
  rw [← contains_iff] at h
  exact Option.not_isSome_iff_eq_none.mp h

/-- A cut is made at a phrase whose first character it does not repeat, when the text before it
does not hold the phrase. -/
theorem cut?_append {first : Char} {phrase text : Text} (hfirst : first ∉ phrase)
    (h : ¬first :: phrase <:+: text) (after : Text) :
    cut? (text ++ first :: phrase ++ after) (first :: phrase) = some (text, after) := by
  induction text with
  | nil =>
    show splitAtFirst _ (first :: (phrase ++ after)) = _
    rw [splitAtFirst, ← List.cons_append, isPrefixOf?_append]
  | cons c rest ih =>
    have hrest : ¬first :: phrase <:+: rest := fun hrest =>
      h (hrest.trans (List.suffix_cons _ _).isInfix)
    -- an earlier start would put the first character inside the phrase or the phrase in the text
    have hpass : ¬first :: phrase <+: c :: (rest ++ first :: phrase ++ after) := by
      intro hprefix
      obtain ⟨rfl, htail⟩ := List.cons_prefix_cons.mp hprefix
      obtain ⟨t, htail⟩ := htail
      rw [List.append_assoc] at htail
      rcases List.append_eq_append_iff.mp htail with ⟨u, hu, -⟩ | ⟨u, hu, hfirst'⟩
      · exact h ⟨[], u, by rw [hu]; rfl⟩
      · cases u with
        | nil => exact h ⟨[], [], by rw [hu]; simp⟩
        | cons d u =>
          rw [(List.cons.inj hfirst').1, hu] at hfirst
          simp at hfirst
    show splitAtFirst _ (c :: (rest ++ first :: phrase ++ after)) = _
    rw [splitAtFirst, isPrefixOf?_eq_none hpass]
    have hcut := ih hrest
    rw [cut?] at hcut
    simp only [hcut, Option.map_some]

/-- A phrase does not occur in a text that lacks one of its characters. -/
theorem not_infix_of_not_mem {c : Char} {phrase text : Text} (hc : c ∈ phrase) (h : c ∉ text) :
    ¬phrase <:+: text := by
  intro hoccurs
  exact h (hoccurs.subset hc)

/-- A text is cut at the first place where a character stands. -/
theorem cut?_char {c : Char} {text : Text} (h : c ∉ text) (rest : Text) :
    cut? (text ++ c :: rest) [c] = some (text, rest) := by
  have hcut := cut?_append List.not_mem_nil (not_infix_of_not_mem List.mem_cons_self h) rest
  rwa [List.append_assoc] at hcut

theorem cut?_char_eq_none {c : Char} {text : Text} (h : c ∉ text) : cut? text [c] = none :=
  cut?_eq_none (not_infix_of_not_mem List.mem_cons_self h)

end Text

namespace Source

/-! ## The brace behind a balanced text -/

/-- A text whose groups close does not end inside a brace group, whatever it escapes behind it. -/
theorem not_suffix_of_isBalanced (left : Text) {text inside : Text} {c : Char} {last : Bool}
    (h : walk? braceStep 0 false text = some (0, last)) (hc : c ≠ '\\')
    (hinside : isBraceFree inside) : ¬left ++ [c] ++ '{' :: inside <:+ text := by
  rintro ⟨s, rfl⟩
  rw [← List.append_assoc, ← List.append_assoc, walk?_append] at h
  obtain ⟨⟨depth, escaped⟩, hbefore, hgroup⟩ := Option.bind_eq_some_iff.mp h
  obtain rfl := not_escaped_of_walk?_concat hc hbefore
  obtain ⟨next, hopen, hrest⟩ := walk?_cons_eq_some.mp hgroup
  -- the brace opens a group, and what is inside leaves it open
  obtain rfl : depth + 1 = next := Option.some.inj hopen
  obtain ⟨escaped', hwalk⟩ := walk?_braceStep_of_isBraceFree hinside (depth + 1) (escapes false '{')
  rw [hwalk] at hrest
  cases hrest

/-- A phrase that ends with the closing brace of a group does not reach over the brace behind a
text whose groups close. -/
theorem infix_append_brace {left inside before after : Text} {c : Char} {last : Bool}
    (hc : c ≠ '\\') (hleft : '}' ∉ left ++ [c]) (hinside : isBraceFree inside)
    (hbefore : walk? braceStep 0 false before = some (0, last))
    (h : left ++ [c] ++ '{' :: inside ++ ['}'] <:+: before ++ '}' :: after) :
    left ++ [c] ++ '{' :: inside ++ ['}'] <:+: before ∨
      left ++ [c] ++ '{' :: inside ++ ['}'] <:+: after := by
  have hnot : '}' ∉ left ++ [c] ++ '{' :: inside := by
    rw [List.mem_append, List.mem_cons]
    rintro (hmem | hmem | hmem)
    · exact hleft hmem
    · cases hmem
    · exact (ne_brace_of_isBraceFree hinside hmem).2 rfl
  rcases Text.infix_append_cons_cases h with h | h | ⟨l, r, heq, hl, -⟩
  · exact Or.inl h
  · exact Or.inr h
  · -- the phrase covers the brace with its own, the last of its characters
    exfalso
    rcases List.append_eq_append_iff.mp heq with ⟨u, hu, hr⟩ | ⟨u, hu, hr⟩
    · cases u with
      | nil =>
        rw [List.append_nil] at hu
        exact not_suffix_of_isBalanced left hbefore hc hinside (hu ▸ hl)
      | cons d u => simp at hr
    · cases u with
      | nil =>
        rw [List.append_nil] at hu
        exact not_suffix_of_isBalanced left hbefore hc hinside (hu ▸ hl)
      | cons d u =>
        obtain ⟨rfl, -⟩ := List.cons.inj hr
        rw [hu] at hnot
        simp at hnot

/-! ## Searching for a command -/

theorem not_isLetter_of_isBlank {c : Char} (h : isBlank c) : isLetter c = false := by
  have hnat : c.toNat = c.val.toNat := rfl
  rw [Bool.eq_false_iff]
  intro hletter
  change (decide (c.val ≥ 'A'.val ∧ c.val ≤ 'Z'.val) ||
    decide (c.val ≥ 'a'.val) && decide (c.val ≤ 'z'.val)) = true at hletter
  simp only [Bool.or_eq_true, Bool.and_eq_true, decide_eq_true_eq, UInt32.le_iff_toNat_le,
    ge_iff_le] at hletter
  simp only [isBlank, Bool.or_eq_true, Bool.and_eq_true, decide_eq_true_eq, beq_iff_eq, hnat] at h
  have hA : 'A'.val.toNat = 65 := rfl
  have hZ : 'Z'.val.toNat = 90 := rfl
  have ha : 'a'.val.toNat = 97 := rfl
  have hz : 'z'.val.toNat = 122 := rfl
  omega

theorem beginsWithLetter_append {text : Text} {c : Char} (hc : isLetter c = false) (rest : Text) :
    beginsWithLetter (text ++ c :: rest) = beginsWithLetter text := by
  cases text with
  | nil => simp [beginsWithLetter, hc]
  | cons d text => rfl

/-- The letters at the front of a text are those of a name when no letter follows it. -/
theorem span_isLetter_append {word text : Text} (hword : word.all isLetter)
    (htext : beginsWithLetter text = false) :
    (word ++ text).takeWhile isLetter = word ∧ (word ++ text).dropWhile isLetter = text := by
  refine Text.takeWhile_append hword ?_
  intro c hc
  rw [beginsWithLetter, show text.head? = some c from hc] at htext
  exact htext

/-- Names that no letter follows are the same when they start the same text. -/
theorem eq_of_append_eq {word word' text text' : Text} (hword : word.all isLetter)
    (hword' : word'.all isLetter) (htext : beginsWithLetter text = false)
    (htext' : beginsWithLetter text' = false) (h : word ++ text = word' ++ text') :
    word = word' := by
  rw [← (span_isLetter_append hword htext).1, h, (span_isLetter_append hword' htext').1]

theorem cutAtCommand_eq_none {name text : Text} (h : ¬name <:+: text) (skip : Nat) :
    cutAtCommand name skip text = none := by
  cases hcut : cutAtCommand name skip text with
  | none => rfl
  | some cut => exact absurd ⟨cut.1, cut.2, (cutAtCommand_eq hcut).symm⟩ h

/-- No letter follows the command that a text is cut at. -/
theorem not_beginsWithLetter_of_cutAtCommand {name text before after : Text} {skip : Nat}
    (h : cutAtCommand name skip text = some (before, after)) : beginsWithLetter after = false := by
  induction text generalizing skip before with
  | nil =>
    cases skip <;> simp only [cutAtCommand] at h <;> split at h <;> cases h <;> rfl
  | cons c rest ih =>
    cases skip with
    | succ skip =>
      obtain ⟨⟨b, a⟩, hcut, heq⟩ := Option.map_eq_some_iff.mp h
      obtain ⟨-, rfl⟩ := Prod.mk.inj heq
      exact ih hcut
    | zero =>
      rw [cutAtCommand] at h
      split at h
      next tail htail =>
        split at h
        next =>
          obtain ⟨⟨b, a⟩, hcut, heq⟩ := Option.map_eq_some_iff.mp h
          obtain ⟨-, rfl⟩ := Prod.mk.inj heq
          exact ih hcut
        next hletter =>
          obtain ⟨-, rfl⟩ := Prod.mk.inj (Option.some.inj h)
          exact Bool.eq_false_iff.mpr hletter
      next =>
        obtain ⟨⟨b, a⟩, hcut, heq⟩ := Option.map_eq_some_iff.mp h
        obtain ⟨-, rfl⟩ := Prod.mk.inj heq
        exact ih hcut

/-- The search finds an occurrence that no letter follows, once it has passed over what it skips:
names do not overlap when they hold no other backslash than their first. -/
theorem cutAtCommand_isSome {word : Text} (hword : '\\' ∉ word) {text before after : Text}
    (htext : text = before ++ ('\\' :: word) ++ after) (hafter : beginsWithLetter after = false)
    {skip : Nat} (hskip : skip ≤ before.length) :
    (cutAtCommand ('\\' :: word) skip text).isSome = true := by
  -- what is skipped lies before the occurrence: this carries the induction
  induction text generalizing before skip with
  | nil => simp at htext
  | cons c rest ih =>
    cases before with
    | nil =>
      obtain rfl : skip = 0 := by simpa using hskip
      rw [htext, List.nil_append, List.cons_append, cutAtCommand, ← List.cons_append,
        Text.isPrefixOf?_append]
      simp [hafter]
    | cons d before =>
      obtain ⟨rfl, hrest⟩ := List.cons.inj htext
      cases skip with
      | succ skip =>
        rw [cutAtCommand, Option.isSome_map]
        exact ih hrest (by simpa using hskip)
      | zero =>
        rw [cutAtCommand]
        split
        next tail htail =>
          split
          next =>
            -- the name stands here too but a letter follows, and it ends before the occurrence
            rw [Option.isSome_map]
            refine ih hrest ?_
            have heq : before ++ ('\\' :: word ++ after) = word ++ tail := by
              rw [← List.append_assoc]
              exact hrest.symm.trans (List.cons.inj (Text.isPrefixOf?_eq_some.mp htail)).2
            rcases List.append_eq_append_iff.mp heq with ⟨u, hu, hrest'⟩ | ⟨u, hu, -⟩
            · cases u with
              | nil => simp [hu]
              | cons x u =>
                rw [hu, ← (List.cons.inj hrest').1] at hword
                simp at hword
            · simp [hu]
          next => rfl
        next =>
          rw [Option.isSome_map]
          exact ih hrest (Nat.zero_le _)

/-- A command occurs exactly where its name stands with no letter behind it. -/
theorem hasCommand_iff {word text : Text} (hword : '\\' ∉ word) :
    hasCommand ('\\' :: word) text = true ↔
      ∃ before after, text = before ++ ('\\' :: word) ++ after ∧
        beginsWithLetter after = false := by
  constructor
  · intro h
    obtain ⟨⟨before, after⟩, hcut⟩ := Option.isSome_iff_exists.mp h
    exact ⟨before, after, cutAtCommand_eq hcut, not_beginsWithLetter_of_cutAtCommand hcut⟩
  · rintro ⟨before, after, htext, hafter⟩
    exact cutAtCommand_isSome hword htext hafter (Nat.zero_le _)

/-- A command does not reach over a character that is no letter. -/
theorem hasCommand_append_cons {word before after : Text} {c : Char} (hword : word.all isLetter)
    (hc : isLetter c = false) (hne : c ≠ '\\')
    (h : hasCommand ('\\' :: word) (before ++ c :: after) = true) :
    hasCommand ('\\' :: word) before = true ∨ hasCommand ('\\' :: word) after = true := by
  have hslash : '\\' ∉ word := fun hmem => by cases List.all_eq_true.mp hword _ hmem
  have hnot : c ∉ '\\' :: word := by
    rw [List.mem_cons]
    rintro (rfl | hmem)
    · exact hne rfl
    · rw [List.all_eq_true.mp hword _ hmem] at hc
      cases hc
  simp only [hasCommand_iff hslash] at h ⊢
  obtain ⟨s, t, heq, ht⟩ := h
  rcases List.append_eq_append_iff.mp heq with ⟨u, hs, hrest⟩ | ⟨u, hbefore, htail⟩
  · -- the name ends at the character or behind it, and then starts behind it too
    cases u with
    | nil => exact Or.inl ⟨s, [], by rw [List.append_nil, hs, List.append_nil], rfl⟩
    | cons d u =>
      obtain ⟨rfl, hafter⟩ := List.cons.inj hrest
      rcases List.append_eq_append_iff.mp hs with ⟨v, hbefore, hname⟩ | ⟨v, hs', hname⟩
      · exact absurd (by rw [hname]; simp) hnot
      · cases v with
        | nil =>
          rw [List.nil_append] at hname
          exact absurd (by rw [← hname]; simp) hnot
        | cons x v =>
          obtain ⟨rfl, hu⟩ := List.cons.inj hname
          exact Or.inr ⟨v, t, by rw [hafter, hu]; rfl, ht⟩
  · refine Or.inl ⟨s, u, hbefore, ?_⟩
    rwa [htail, beginsWithLetter_append hc] at ht

end Source

end TexFigure
