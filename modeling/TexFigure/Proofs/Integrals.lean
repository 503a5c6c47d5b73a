import TexFigure.Formula.Write
import TexFigure.Proofs.Operators
/-!
# Integrals are read back

An integral is written with its differential behind a thin space, and read by looking for the first
place at which a differential closes the fragment. The integrand is any text, and may be full of
places that look like the beginning of a differential. None of them is one: what the reader passes
over in front of a differential (`IsGap`) holds one spacing command at most, and an earlier place
has the written one still before it (`ne_gap`).

> `read_write_integrals`: an integral and a double integral are read back from their written form.
-/

namespace TexFigure

namespace Text

/-- Blanks in front of a trimmed text are passed over, up to what stands behind the text when it is
empty. -/
theorem dropWhile_space {p : Char → Bool} {text : Text} (tail : Text) (hspace : p ' ' = true)
    (hp : ∀ c, isBlank c = false → p c = false) (htext : IsTrimmed text)
    (htail : ∀ c ∈ tail.head?, isBlank c = false) :
    (' ' :: (text ++ ' ' :: tail)).dropWhile p =
      if text.isEmpty then tail else text ++ ' ' :: tail := by
  rw [List.dropWhile_cons_of_pos hspace]
  cases text with
  | nil =>
    rw [List.nil_append, List.dropWhile_cons_of_pos hspace]
    have hnil : ([] : Text).all p := rfl
    exact (takeWhile_append hnil fun c hc => hp c (htail c hc)).2
  | cons c text =>
    have hc : ¬p c = true := by simp [hp c (htext.1 c rfl)]
    exact List.dropWhile_cons_of_neg hc

/-- Trimming goes over a text that is empty to what stands behind it. -/
theorem trim_space {text tail : Text} (htext : IsTrimmed text) (htail : IsTrimmed tail)
    (hne : tail ≠ []) :
    trim (' ' :: (text ++ ' ' :: tail)) = if text.isEmpty then tail else text ++ ' ' :: tail := by
  have hstart (before text : Text) (hbefore : before.all isBlank) (htext : IsTrimmed text) :
      trim (before ++ text) = text := by
    have htrim := trim_blanks hbefore (show ([] : Text).all isBlank from rfl) text
    rwa [List.append_nil, trim_eq_self htext] at htrim
  cases text with
  | nil => exact hstart [' ', ' '] tail rfl htail
  | cons c text =>
    refine hstart [' '] _ rfl (isTrimmed_append htext.1 ?_ (List.cons_ne_nil _ _) (by simp))
    rw [List.getLast?_cons_of_ne_nil hne]
    exact htail.2

end Text

namespace Formula

open Source

/-! ## Gaps -/

/-- What may stand in front of a differential: blanks, with one spacing command among them or
without. -/
inductive IsGap : Text → Prop
  | blanks {before : Text} : before.all isBlank → IsGap before
  | spaced {before after : Text} {c : Char} :
      before.all isBlank → c ∈ [',', ';', ':', '!'] → after.all isBlank →
      IsGap (before ++ '\\' :: c :: after)

/-- One word without blanks, up to the blanks behind it. -/
def IsLastWord (text : Text) : Prop :=
  ∃ word after, text = word ++ after ∧ (∀ c ∈ word, isBlank c = false) ∧ after.all isBlank

/-- Behind a gap, one word closes the text. -/
def ClosesWithWord (text : Text) : Prop :=
  ∃ gap rest, IsGap gap ∧ text = gap ++ rest ∧ IsLastWord rest

/-- Up to the end of a spacing command there is a gap. -/
theorem exists_gap_of_spacing? {text rest : Text} (h : spacing? text = some rest) :
    ∃ gap, IsGap gap ∧ text = gap ++ rest := by
  obtain ⟨before, htext, hbefore⟩ := Text.exists_trimStart text
  unfold spacing? at h
  split at h
  next c behind heq =>
    split at h
    next hc =>
      obtain ⟨after, hbehind, hafter⟩ := Text.exists_trimStart behind
      refine ⟨before ++ '\\' :: c :: after,
        .spaced hbefore (List.contains_iff_mem.mp hc) hafter, ?_⟩
      rw [← Option.some.inj h, List.append_assoc, List.cons_append, List.cons_append, ← hbehind,
        ← heq]
      exact htext
    next => cases h
  next => cases h

/-- A gap holds one spacing command at most, so it does not reach over the last character of a
text and a spacing command behind it. -/
theorem ne_gap {gap suffix behind : Text} (hgap : IsGap gap) (hne : suffix ≠ [])
    (hlast : ∀ c ∈ suffix.getLast?, isBlank c = false) :
    gap ≠ suffix ++ ' ' :: '\\' :: behind := by
  have hslash : isBlank '\\' = false := rfl
  intro heq
  cases hgap with
  | blanks hbefore =>
    rw [heq, List.all_append, List.all_cons, List.all_cons, hslash] at hbefore
    simp at hbefore
  | @spaced before after c hbefore hc hafter =>
    have hmem := List.all_eq_true.mp hbefore
    rcases List.append_eq_append_iff.mp heq with ⟨u, hsuffix, hrest⟩ | ⟨u, hsuffix, hrest⟩
    · cases u with
      | nil => exact absurd (List.cons.inj hrest).1 (by decide)
      | cons x u =>
        obtain ⟨-, hrest⟩ := List.cons.inj hrest
        cases u with
        | nil =>
          -- the command would be a backslash and the blank
          rw [(List.cons.inj hrest).1] at hc
          exact absurd hc (by decide)
        | cons y u =>
          -- the second backslash would stand among the blanks
          have hbehind : after = u ++ ' ' :: '\\' :: behind := (List.cons.inj hrest).2
          rw [hbehind, List.all_append, List.all_cons, List.all_cons, hslash] at hafter
          simp at hafter
    · -- the last character of the text would be a blank
      have hmemLast := List.getLast_mem hne
      have hblank := hmem (suffix.getLast hne) (hsuffix ▸ List.mem_append_left u hmemLast)
      rw [hlast _ (List.getLast?_eq_some_getLast hne)] at hblank
      cases hblank

/-- A word that closes a text has no more than a gap before it, so none does when a thin space and
a word stand behind a text that ends with no blank. -/
theorem not_closesWithWord {suffix tail : Text} (hne : suffix ≠ [])
    (hlast : ∀ c ∈ suffix.getLast?, isBlank c = false) (htail : tail ≠ [])
    (hword : ∀ c ∈ tail, isBlank c = false) :
    ¬ClosesWithWord (suffix ++ " \\, ".toList ++ tail) := by
  rintro ⟨gap, _, hgap, heq, word, after, rfl, hplain, hafter⟩
  -- no blank stands behind the last word
  rw [← List.append_assoc] at heq
  have hnil : after = [] := by
    by_contra hafterNe
    have hend := congrArg List.getLast? heq
    rw [List.getLast?_append_of_ne_nil _ htail, List.getLast?_append_of_ne_nil _ hafterNe,
      List.getLast?_eq_some_getLast htail, List.getLast?_eq_some_getLast hafterNe] at hend
    have hblank := List.all_eq_true.mp hafter _ (List.getLast_mem hafterNe)
    rw [← Option.some.inj hend, hword _ (List.getLast_mem htail)] at hblank
    cases hblank
  rw [hnil, List.append_nil] at heq
  -- so the gap goes on to the beginning of the last word
  obtain ⟨u, hu⟩ : ∃ u, gap = suffix ++ " \\, ".toList ++ u := by
    rcases List.append_eq_append_iff.mp heq with ⟨u, hu, -⟩ | ⟨u, hu, hrest⟩
    · exact ⟨u, hu⟩
    · rcases List.eq_nil_or_concat' u with rfl | ⟨u, c, rfl⟩
      · exact ⟨[], by rw [hu, List.append_nil, List.append_nil]⟩
      · -- otherwise the word would hold the blank in front of it
        have hc : ' ' = c := by
          have hend := congrArg List.getLast? hu
          rw [← List.append_assoc, List.getLast?_concat,
            List.getLast?_append_of_ne_nil _ (show " \\, ".toList ≠ [] by decide)] at hend
          exact Option.some.inj hend
        have hplainSpace := hplain c (hrest ▸ List.mem_append_left tail (by simp))
        rw [← hc] at hplainSpace
        cases hplainSpace
  have hreach : gap = suffix ++ ' ' :: '\\' :: ([',', ' '] ++ u) := by
    rw [hu, List.append_assoc]
    rfl
  exact ne_gap hgap hne hlast hreach

/-! ## Differentials and area elements -/

/-- The variable of a differential: letters, or a backslash and letters. -/
inductive IsVariable : Text → Prop
  | letters {name : Text} : name ≠ [] → name.all isLetter → IsVariable name
  | command {name : Text} : name ≠ [] → name.all isLetter → IsVariable ('\\' :: name)

/-- A text that is a word of a class of characters without blanks, up to blanks, behind some more
characters that are none. -/
theorem isLastWord_append {p : Char → Bool} (hp : ∀ c, p c = true → isBlank c = false)
    (front : Text) {text : Text} (hfront : ∀ c ∈ front, isBlank c = false)
    (h : Text.isBlankText (text.dropWhile p)) : IsLastWord (front ++ text) := by
  refine ⟨front ++ text.takeWhile p, text.dropWhile p, ?_, ?_, h⟩
  · rw [List.append_assoc, List.takeWhile_append_dropWhile]
  · intro c hc
    rcases List.mem_append.mp hc with hc | hc
    · exact hfront c hc
    · exact hp c (List.mem_takeWhile_imp hc)

theorem isBlank_of_all {text : Text} (h : text.all (!isBlank ·)) :
    ∀ c ∈ text, isBlank c = false := by
  intro c hc
  simpa using List.all_eq_true.mp h c hc

theorem isBlank_of_isLetter {c : Char} (h : isLetter c = true) : isBlank c = false := by
  by_contra hblank
  rw [not_isLetter_of_isBlank (Bool.not_eq_false _ ▸ hblank)] at h
  cases h

/-- A differential is `d` and a name, and nothing but blanks may follow it. -/
theorem isLastWord_of_differentialVariable? {text var : Text}
    (h : differentialVariable? text = some var) : IsLastWord text := by
  have hclosed {name : Text} (front : Text) (hfront : ∀ c ∈ front, isBlank c = false)
      (h : (beginsWithLetter name && Text.isBlankText (name.dropWhile isLetter)) = true) :=
    isLastWord_append (fun c => isBlank_of_isLetter) front hfront (Bool.and_eq_true_iff.mp h).2
  unfold differentialVariable? at h
  split at h
  next rest =>
    split at h
    next mark name hrest =>
      split at h
      next hcond =>
        split at hrest
        next =>
          obtain ⟨rfl, rfl⟩ := Prod.mk.inj hrest
          exact hclosed ['d', '\\'] (isBlank_of_all rfl) hcond
        next =>
          obtain ⟨rfl, rfl⟩ := Prod.mk.inj hrest
          exact hclosed ['d'] (isBlank_of_all rfl) hcond
      next => cases h
  next => cases h

/-- An area is what stands behind a `d` up to a blank, and nothing but blanks may follow it. -/
theorem isLastWord_of_areaToken? {text area : Text} (h : areaToken? text = some area) :
    IsLastWord text := by
  unfold areaToken? at h
  split at h
  next rest =>
    dsimp only at h
    split at h
    next => cases h
    next hcond =>
      rw [Bool.or_eq_true, not_or, Bool.not_eq_true', Bool.not_eq_false] at hcond
      exact isLastWord_append (fun c hc => by simpa using hc) ['d'] (isBlank_of_all rfl) hcond.2
  next => cases h

/-- Without a spacing command the blanks in front are the gap. -/
theorem exists_gap_of_trimStart (text : Text) :
    ∃ gap, IsGap gap ∧ text = gap ++ Text.trimStart text := by
  obtain ⟨blanks, htext, hblanks⟩ := Text.exists_trimStart text
  exact ⟨blanks, .blanks hblanks, htext⟩

/-- A differential closes the text that it is read from. -/
theorem closesWithWord_of_differential? {text var : Text} (h : differential? text = some var) :
    ClosesWithWord text := by
  unfold differential? at h
  cases hspacing : spacing? text with
  | some rest =>
    rw [hspacing, Option.getD_some] at h
    obtain ⟨gap, hgap, htext⟩ := exists_gap_of_spacing? hspacing
    exact ⟨gap, rest, hgap, htext, isLastWord_of_differentialVariable? h⟩
  | none =>
    rw [hspacing, Option.getD_none] at h
    obtain ⟨gap, hgap, htext⟩ := exists_gap_of_trimStart text
    exact ⟨gap, _, hgap, htext, isLastWord_of_differentialVariable? h⟩

/-- An area element closes the text that it is read from. -/
theorem closesWithWord_of_areaElement? {text area : Text} (h : areaElement? text = some area) :
    ClosesWithWord text := by
  unfold areaElement? at h
  split at h
  next rest hspacing =>
    obtain ⟨gap, hgap, htext⟩ := exists_gap_of_spacing? hspacing
    exact ⟨gap, rest, hgap, htext, isLastWord_of_areaToken? h⟩
  next =>
    split at h
    next =>
      obtain ⟨gap, hgap, htext⟩ := exists_gap_of_trimStart text
      exact ⟨gap, _, hgap, htext, isLastWord_of_areaToken? h⟩
    next => cases h

/-- Letters up to the end of a text are a name there. -/
theorem isName_letters {name : Text} (hne : name ≠ []) (hname : name.all isLetter) :
    (beginsWithLetter name && Text.isBlankText (name.dropWhile isLetter)) = true ∧
      name.takeWhile isLetter = name := by
  have hletters := List.all_eq_true.mp hname
  have hnil : name.dropWhile isLetter = [] := List.dropWhile_eq_nil_iff.mpr hletters
  refine ⟨?_, List.takeWhile_eq_self_iff.mpr hletters⟩
  rw [hnil, Text.isBlankText, List.all_nil, Bool.and_true]
  cases name with
  | nil => exact absurd rfl hne
  | cons c name => exact hletters c List.mem_cons_self

/-- A variable is read back behind its `d`. -/
theorem differentialVariable?_cons {var : Text} (h : IsVariable var) :
    differentialVariable? ('d' :: var) = some var := by
  cases h with
  | letters hne hname =>
    obtain ⟨hcond, hword⟩ := isName_letters hne hname
    rw [differentialVariable?, if_pos hcond, hword, List.nil_append]
    intro name heq
    rw [heq] at hname
    cases hname
  | @command name hne hname =>
    obtain ⟨hcond, hword⟩ := isName_letters hne hname
    show (if (beginsWithLetter name && Text.isBlankText (name.dropWhile isLetter)) = true then
      some (['\\'] ++ name.takeWhile isLetter) else none) = _
    rw [if_pos hcond, hword]
    rfl

/-- An area is read back behind its `d`. -/
theorem areaToken?_cons {area : Text} (hne : area ≠ []) (h : ∀ c ∈ area, isBlank c = false) :
    areaToken? ('d' :: area) = some area := by
  have hplain : ∀ c ∈ area, (!isBlank c) = true := fun c hc => by rw [h c hc]; rfl
  have hword := List.takeWhile_eq_self_iff.mpr hplain
  have hnil := List.dropWhile_eq_nil_iff.mpr hplain
  rw [areaToken?]
  simp [hword, hnil, hne, Text.isBlankText]

/-- Behind a thin space, with a blank in front of it or without, the text goes on as it is. -/
theorem spacing?_thin {before tail : Text} (hbefore : before = [] ∨ before = [' '])
    (htail : ∀ c ∈ tail.head?, isBlank c = false) :
    spacing? (before ++ "\\, ".toList ++ tail) = some tail := by
  have hstart : Text.trimStart (before ++ "\\, ".toList ++ tail) = "\\, ".toList ++ tail := by
    rcases hbefore with rfl | rfl <;> rfl
  have hrest : Text.trimStart (' ' :: tail) = tail :=
    (Text.takeWhile_append (show [' '].all isBlank from rfl) htail).2
  unfold spacing?
  rw [hstart]
  show (if _ then some (Text.trimStart (' ' :: tail)) else none) = _
  rw [if_pos (by decide), hrest]

/-! ## Bodies -/

/-- A body as it is written behind the scripts: between blanks, with a word behind a thin space. -/
def writtenBody (body word : Text) : Text := ' ' :: (body ++ ' ' :: ("\\, ".toList ++ word))

/-- The same without the blanks in front of it, of which there are two when the body is empty. -/
def trimmedBody (body word : Text) : Text :=
  if body.isEmpty then "\\, ".toList ++ word else body ++ ' ' :: ("\\, ".toList ++ word)

/-- What a reader of closing words finds behind an integrand is the word that was written there. -/
theorem splitAtFirst_trimmedBody {accept : Text → Option Text} {integrand tail word : Text}
    (hclosed : ∀ {text word}, accept text = some word → ClosesWithWord text)
    (haccept : ∀ before, before = [] ∨ before = [' '] →
      accept (before ++ "\\, ".toList ++ tail) = some word)
    (hintegrand : Text.IsTrimmed integrand) (htail : tail ≠ [])
    (hword : ∀ c ∈ tail, isBlank c = false) :
    Text.splitAtFirst accept (trimmedBody integrand tail) = some (integrand, word) := by
  unfold trimmedBody
  split
  next hempty =>
    rw [List.isEmpty_iff.mp hempty]
    have hreject : ∀ suffix : Text, suffix ≠ [] → suffix <:+ [] →
        accept (suffix ++ ("\\, ".toList ++ tail)) = none :=
      fun suffix hne hsuffix => absurd (List.suffix_nil.mp hsuffix) hne
    exact Text.splitAtFirst_append (haccept [] (Or.inl rfl)) hreject
  next =>
    refine Text.splitAtFirst_append (haccept [' '] (Or.inr rfl)) fun suffix hne hsuffix => ?_
    have hlast : ∀ c ∈ suffix.getLast?, isBlank c = false := by
      intro c hc
      obtain ⟨before, rfl⟩ := hsuffix
      exact hintegrand.2 c (by rwa [List.getLast?_append_of_ne_nil _ hne])
    have hnot := not_closesWithWord hne hlast htail hword
    rw [List.append_assoc] at hnot
    exact Option.eq_none_iff_forall_ne_some.mpr fun word h => hnot (hclosed h)

/-- The area is cut off at the thin space. The body is not taken for an area as a whole, since there
are blanks in it with more behind them. -/
theorem cutAtArea?_trimmedBody {integrand tail area : Text}
    (haccept : ∀ before, before = [] ∨ before = [' '] →
      areaElement? (before ++ "\\, ".toList ++ tail) = some area)
    (hintegrand : Text.IsTrimmed integrand) (htail : tail ≠ [])
    (hword : ∀ c ∈ tail, isBlank c = false) :
    cutAtArea? (trimmedBody integrand tail) = some (integrand, area) := by
  have hnone : areaToken? (trimmedBody integrand tail) = none := by
    unfold trimmedBody
    split
    next => rfl
    next hne =>
      have hnot := not_closesWithWord (mt List.isEmpty_iff.mpr hne) hintegrand.2 htail hword
      rw [List.append_assoc] at hnot
      refine Option.eq_none_iff_forall_ne_some.mpr fun area h => hnot ?_
      exact ⟨[], _, .blanks rfl, rfl, isLastWord_of_areaToken? h⟩
  rw [cutAtArea?, hnone]
  exact splitAtFirst_trimmedBody closesWithWord_of_areaElement? haccept hintegrand htail hword

/-- The scripts in front of a body end there, also when the body is empty and a thin space stands
in its place. -/
theorem readScripts_writtenBody {rounds : Nat} {scripts : Scripts} {body tail : Text}
    (h : IsBody body) :
    readScripts rounds scripts (writtenBody body tail) = (scripts, writtenBody body tail) := by
  have hskip : Text.skipBlanks (writtenBody body tail) = trimmedBody body tail :=
    Text.dropWhile_space _ rfl (fun c => not_isAsciiBlank) h.trimmed fun c hc => by
      rw [← Option.some.inj hc]
      rfl
  rw [trimmedBody] at hskip
  apply readScripts_end
  · rw [hskip]
    split
    next => exact ⟨by simp, by simp⟩
    next hne =>
      rw [List.head?_append_of_ne_nil _ (mt List.isEmpty_iff.mpr hne)]
      exact h.noScript
  · rw [hskip]
    split
    next =>
      rintro ⟨t, ht⟩
      cases ht
    next =>
      intro hprefix
      exact h.noLimits (Text.prefix_of_prefix_append_cons (by decide) hprefix)

/-- The rest behind the scripts, once it is trimmed. -/
theorem trim_writtenBody {body tail : Text} (h : IsBody body) (htail : tail ≠ [])
    (hword : ∀ c ∈ tail, isBlank c = false) :
    Text.trim (writtenBody body tail) = trimmedBody body tail := by
  refine Text.trim_space h.trimmed (Text.isTrimmed_append ?_ ?_ (by decide) htail) (by simp)
  · intro c hc
    rw [← Option.some.inj hc]
    rfl
  · intro c hc
    exact hword c (List.mem_of_getLast? hc)

/-! ## Reading back -/

theorem isBlank_of_isVariable {var : Text} (h : IsVariable var) : ∀ c ∈ var, isBlank c = false := by
  have hletters {name : Text} (hname : name.all isLetter) : ∀ c ∈ name, isBlank c = false :=
    fun c hc => isBlank_of_isLetter (List.all_eq_true.mp hname c hc)
  cases h with
  | letters _ hname => exact hletters hname
  | command _ hname =>
    intro c hc
    rcases List.mem_cons.mp hc with rfl | hc
    · rfl
    · exact hletters hname c hc

theorem isBlank_differential {word : Text} (h : ∀ c ∈ word, isBlank c = false) :
    ∀ c ∈ 'd' :: word, isBlank c = false := by
  intro c hc
  rcases List.mem_cons.mp hc with rfl | hc
  · rfl
  · exact h c hc

/-- An integral is read back as its construct. No gap begins in the integrand, since it would reach
over the last character of the integrand to the thin space behind it. -/
theorem readAs?_write_integral {lower upper integrand var : Text} (hlower : IsBalanced lower)
    (hupper : IsBalanced upper) (hintegrand : IsBody integrand) (hvar : IsVariable var) :
    readAs? .integral (integral lower upper integrand var).write =
      some (integral lower upper integrand var) := by
  have hplain := isBlank_differential (isBlank_of_isVariable hvar)
  have htail : 'd' :: var ≠ [] := List.cons_ne_nil _ _
  have hscripts : readScripts 4 ⟨[], []⟩ ('_' :: Text.braced lower ++ ('^' :: Text.braced upper ++
        writtenBody integrand ('d' :: var))) =
      (⟨lower, upper⟩, writtenBody integrand ('d' :: var)) := by
    rw [readScripts_lower hlower, readScripts_upper hupper, readScripts_writtenBody hintegrand]
  have hoperator := readOperator?_append "int" rfl hscripts
  have haccept : ∀ before : Text, before = [] ∨ before = [' '] →
      differential? (before ++ "\\, ".toList ++ 'd' :: var) = some var := by
    intro before hbefore
    rw [differential?, spacing?_thin hbefore (fun c hc => hplain c (List.mem_of_head? hc)),
      Option.getD_some, differentialVariable?_cons hvar]
  have hwrite : (integral lower upper integrand var).write =
      '\\' :: "int".toList ++ ('_' :: Text.braced lower ++ ('^' :: Text.braced upper ++
        writtenBody integrand ('d' :: var))) := by
    simp [write_integral, writtenBody]
  show readIntegral? _ = _
  rw [readIntegral?, hwrite]
  show (readOperator? ('\\' :: "int".toList) _).map _ = _
  rw [hoperator, Option.map_some, trim_writtenBody hintegrand htail hplain]
  dsimp only
  rw [splitAtFirst_trimmedBody closesWithWord_of_differential? haccept hintegrand.trimmed htail
    hplain]
  dsimp only
  rw [Text.trim_eq_self hintegrand.trimmed]

/-- A double integral is read back as its construct, with any word as its area. -/
theorem readAs?_write_doubleIntegral {domain integrand area : Text} (hdomain : IsBalanced domain)
    (hintegrand : IsBody integrand) (hne : area ≠ []) (harea : ∀ c ∈ area, isBlank c = false) :
    readAs? .doubleIntegral (doubleIntegral domain integrand area).write =
      some (doubleIntegral domain integrand area) := by
  have hplain := isBlank_differential harea
  have htail : 'd' :: area ≠ [] := List.cons_ne_nil _ _
  have hscripts : readScripts 4 ⟨[], []⟩
        ('_' :: Text.braced domain ++ writtenBody integrand ('d' :: area)) =
      (⟨domain, []⟩, writtenBody integrand ('d' :: area)) := by
    rw [readScripts_lower hdomain, readScripts_writtenBody hintegrand]
  have hoperator := readOperator?_append "iint" rfl hscripts
  have haccept : ∀ before : Text, before = [] ∨ before = [' '] →
      areaElement? (before ++ "\\, ".toList ++ 'd' :: area) = some area := by
    intro before hbefore
    rw [areaElement?, spacing?_thin hbefore (fun c hc => hplain c (List.mem_of_head? hc))]
    exact areaToken?_cons hne harea
  have hwrite : (doubleIntegral domain integrand area).write =
      '\\' :: "iint".toList ++
        ('_' :: Text.braced domain ++ writtenBody integrand ('d' :: area)) := by
    simp [write_doubleIntegral, writtenBody]
  show readDoubleIntegral? _ = _
  rw [readDoubleIntegral?, hwrite]
  show (readOperator? ('\\' :: "iint".toList) _).map _ = _
  rw [hoperator, Option.map_some, trim_writtenBody hintegrand htail hplain]
  dsimp only
  rw [cutAtArea?_trimmedBody haccept hintegrand.trimmed htail hplain]
  dsimp only
  rw [Text.trim_eq_self hintegrand.trimmed]

/-- An integral is read back from its written form when its limits are balanced, its variable is a
name or a command, and its integrand, which is any text beside that, is trimmed and does not begin
as a script does. So is a double integral, whose area element is any word. -/
theorem read_write_integrals :
    (∀ lower upper integrand var, IsBalanced lower → IsBalanced upper → IsBody integrand →
      IsVariable var → read .integral (integral lower upper integrand var).write =
        integral lower upper integrand var) ∧
    ∀ domain integrand area, IsBalanced domain → IsBody integrand → area ≠ [] →
      (∀ c ∈ area, isBlank c = false) →
      read .doubleIntegral (doubleIntegral domain integrand area).write =
        doubleIntegral domain integrand area := by
  constructor
  · intro lower upper integrand var hlower hupper hintegrand hvar
    rw [read, readAs?_write_integral hlower hupper hintegrand hvar, Option.getD_some]
  · intro domain integrand area hdomain hintegrand hne harea
    rw [read, readAs?_write_doubleIntegral hdomain hintegrand hne harea, Option.getD_some]

/-- An integrand full of differentials that do not close the fragment, with a brace that is not
closed, and one that is empty. -/
theorem read_write_integrals_nested :
    IsBody "\\, dx d \\, dy\x7b".toList ∧
    read .integral (integral "0" "\x7b1\x7d" "\\, dx d \\, dy\x7b" "\\xi").write =
      integral "0" "\x7b1\x7d" "\\, dx d \\, dy\x7b" "\\xi" ∧
    read .doubleIntegral (doubleIntegral "D" [] "x\\,dy").write =
      doubleIntegral "D" [] "x\\,dy" := by
  have hbody : IsBody "\\, dx d \\, dy\x7b".toList := ⟨by decide, by decide, by decide⟩
  refine ⟨hbody, ?_, ?_⟩
  · exact read_write_integrals.1 _ _ _ _ (by decide) (by decide) hbody
      (.command (by decide) (by decide))
  · exact read_write_integrals.2 _ _ _ (by decide) ⟨by decide, by decide, by decide⟩ (by decide)
      (isBlank_of_all rfl)

end Formula

end TexFigure
