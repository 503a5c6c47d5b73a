import TexFigure.Proofs.OptionList
/-!
# Splitting at phrases

Parts that are joined by a phrase come back from `splitOutsideBraces` when the splitter passes over
each of them whatever follows (`PassesOver`). That a part is not split when it stands alone does not
give this: it may end in a backslash that escapes the phrase behind it, or in the first half of the
phrase. A blank behind the part rules both out, since the phrases here hold none
(`passesOver_append_blank`): the backslash escapes the blank, and the phrase does not reach over it.
So parts are written between blanks (`padded`), which are the blanks around the separators of the
join and around the whole of it (`padded_join`).

> `splitOutsideBraces_join`: parts that are passed over are read back from their join.
-/

namespace TexFigure.Source

section
variable {phrase : Text}

/-! ## Steps of the splitter -/

/-- Whether the splitter cuts in front of a text: an unescaped phrase begins there, outside all
groups. -/
def CutsHere (phrase : Text) (depth : Nat) (escaped : Bool) (text : Text) : Prop :=
  depth = 0 ∧ escaped = false ∧ phrase <+: text

theorem cutsHere_iff {depth : Nat} {escaped : Bool} {text : Text} :
    (depth = 0 ∧ escaped = false ∧ phrase.isPrefixOf text = true) ↔
      CutsHere phrase depth escaped text := by
  rw [List.isPrefixOf_iff_prefix]
  rfl

/-- What begins with the phrase outside all groups is cut there. -/
theorem splitAtPhrase_here {depth : Nat} {escaped : Bool} {c : Char} {rest : Text}
    (h : CutsHere phrase depth escaped (c :: rest)) :
    splitAtPhrase phrase 0 depth escaped (c :: rest) =
      [] :: splitAtPhrase phrase (phrase.length - 1) 0 (escapes escaped c) rest := by
  rw [splitAtPhrase.eq_def]
  exact if_pos (cutsHere_iff.mpr h)

theorem splitAtPhrase_cons {depth : Nat} {escaped : Bool} {c : Char} {rest : Text}
    (hpass : ¬CutsHere phrase depth escaped (c :: rest)) (hc : c ≠ '\\') :
    splitAtPhrase phrase 0 depth escaped (c :: rest) =
      Text.consToFirst c (splitAtPhrase phrase 0 (braceDepth depth false c) false rest) := by
  rw [splitAtPhrase.eq_def]
  dsimp only
  rw [if_neg (mt cutsHere_iff.mp hpass), if_neg hc]

/-- A backslash goes into a part together with what it escapes. -/
theorem splitAtPhrase_pair {depth : Nat} {escaped : Bool} {c : Char} {rest : Text}
    (hpass : ¬CutsHere phrase depth escaped ('\\' :: c :: rest)) :
    splitAtPhrase phrase 0 depth escaped ('\\' :: c :: rest) =
      Text.consToFirst '\\' (Text.consToFirst c
        (splitAtPhrase phrase 0 depth (escapes (escapes escaped '\\') c) rest)) := by
  rw [splitAtPhrase, if_neg (mt cutsHere_iff.mp hpass), if_pos rfl]

theorem splitAtPhrase_slash {depth : Nat} {escaped : Bool}
    (hpass : ¬CutsHere phrase depth escaped ['\\']) :
    splitAtPhrase phrase 0 depth escaped ['\\'] = [['\\']] := by
  rw [splitAtPhrase, if_neg (mt cutsHere_iff.mp hpass), if_pos rfl]

/-- A backslash that is not escaped escapes what it is taken together with, and nothing else. -/
theorem escapes_pair (c : Char) : escapes (escapes false '\\') c = false := by
  simp [escapes]

/-- The characters of a phrase are left out. -/
theorem splitAtPhrase_skip (front rest : Text) (depth : Nat) (escaped : Bool) :
    splitAtPhrase phrase front.length depth escaped (front ++ rest) =
      splitAtPhrase phrase 0 depth (front.foldl escapes escaped) rest := by
  induction front generalizing escaped with
  | nil => rfl
  | cons c front ih =>
    rw [List.length_cons, List.cons_append, splitAtPhrase, ih]
    rfl

/-- A phrase ends the part in front of it, and the next part begins behind the phrase. -/
theorem splitAtPhrase_cut (hne : phrase ≠ []) (rest : Text) :
    splitAtPhrase phrase 0 0 false (phrase ++ rest) =
      [] :: splitAtPhrase phrase 0 0 (phrase.foldl escapes false) rest := by
  obtain ⟨c, front, rfl⟩ := List.exists_cons_of_ne_nil hne
  have hhere : CutsHere (c :: front) 0 false (c :: (front ++ rest)) :=
    ⟨rfl, rfl, List.prefix_append _ _⟩
  exact (splitAtPhrase_here hhere).trans (congrArg _ (splitAtPhrase_skip front rest 0 _))

theorem consToFirst_ne_nil (c : Char) (parts : List Text) : Text.consToFirst c parts ≠ [] := by
  cases parts with
  | nil => exact List.cons_ne_nil _ _
  | cons part parts => exact List.cons_ne_nil _ _

/-- A split text has a first part. -/
theorem splitAtPhrase_ne_nil (skip depth : Nat) (escaped : Bool) (text : Text) :
    splitAtPhrase phrase skip depth escaped text ≠ [] := by
  fun_induction splitAtPhrase phrase skip depth escaped text with
  | case1 => exact List.cons_ne_nil _ _
  | case2 depth escaped c rest more ih => exact ih
  | case3 => exact List.cons_ne_nil _ _
  | case4 => exact List.cons_ne_nil _ _
  | case5 => exact consToFirst_ne_nil _ _
  | case6 => exact consToFirst_ne_nil _ _

/-! ## Parts that are passed over -/

/-- What is in one piece does not begin with the phrase outside all groups. -/
theorem not_cutsHere_of_whole {depth : Nat} {c : Char} {rest : Text}
    (h : splitAtPhrase phrase 0 depth false (c :: rest) = [c :: rest]) :
    ¬CutsHere phrase depth false (c :: rest) := by
  intro hhere
  rw [splitAtPhrase_here hhere] at h
  cases h

/-- What stands behind the first character of a text in one piece is in one piece too. -/
theorem eq_singleton_of_consToFirst {c : Char} {rest : Text} {parts : List Text}
    (hne : parts ≠ []) (h : Text.consToFirst c parts = [c :: rest]) : parts = [rest] := by
  cases parts with
  | nil => exact absurd rfl hne
  | cons part parts =>
    obtain ⟨hpart, rfl⟩ := List.cons.inj h
    rw [(List.cons.inj hpart).2]

/-- A blank behind a text is where no phrase without blanks begins that did not begin before. -/
theorem not_cutsHere_append_blank (hblank : ' ' ∉ phrase) {depth : Nat} {text : Text}
    (h : ¬CutsHere phrase depth false text) (rest : Text) :
    ¬CutsHere phrase depth false (text ++ ' ' :: rest) := by
  rintro ⟨hdepth, -, hbegins⟩
  exact h ⟨hdepth, rfl, Text.prefix_of_prefix_append_cons hblank hbegins⟩

/-- The splitter passes over a text in one piece and the blank behind it. -/
theorem splitAtPhrase_append_blank (hne : phrase ≠ []) (hblank : ' ' ∉ phrase) {text : Text}
    {depth depth' : Nat} {escaped : Bool}
    (hwalk : walk? braceStep depth false text = some (depth', escaped))
    (hwhole : splitAtPhrase phrase 0 depth false text = [text]) (rest : Text) :
    splitAtPhrase phrase 0 depth false (text ++ ' ' :: rest) =
      (text ++ [' ']).foldr Text.consToFirst (splitAtPhrase phrase 0 depth' false rest) := by
  induction text using escape_induction generalizing depth with
  | nil =>
    obtain ⟨rfl, -⟩ := Prod.mk.inj (Option.some.inj hwalk)
    have hpass : ¬CutsHere phrase depth false [] := by
      intro h
      exact hne (List.prefix_nil.mp h.2.2)
    exact splitAtPhrase_cons (not_cutsHere_append_blank hblank hpass rest) (by decide)
  | slash =>
    -- the backslash escapes the blank
    obtain ⟨rfl, -⟩ := Prod.mk.inj (Option.some.inj hwalk)
    have hahead : ¬CutsHere phrase depth false ('\\' :: ' ' :: rest) :=
      not_cutsHere_append_blank hblank (not_cutsHere_of_whole hwhole) rest
    rw [List.singleton_append, splitAtPhrase_pair hahead, escapes_pair]
    rfl
  | escaped c text ih =>
    have hpass := not_cutsHere_of_whole hwhole
    have hrest : walk? braceStep depth false text = some (depth', escaped) := by
      rw [← hwalk, walk?_backslash rfl rfl]
    rw [splitAtPhrase_pair hpass, escapes_pair] at hwhole
    have hbehind := eq_singleton_of_consToFirst (consToFirst_ne_nil _ _) hwhole
    have htail := eq_singleton_of_consToFirst (splitAtPhrase_ne_nil _ _ _ _) hbehind
    have hahead : ¬CutsHere phrase depth false ('\\' :: c :: (text ++ ' ' :: rest)) :=
      not_cutsHere_append_blank hblank hpass rest
    rw [List.cons_append, List.cons_append, splitAtPhrase_pair hahead, escapes_pair, ih hrest htail]
    rfl
  | cons c text hc ih =>
    have hpass := not_cutsHere_of_whole hwhole
    obtain ⟨next, hstep, hrest⟩ := walk?_cons_eq_some.mp hwalk
    have hescapes : escapes false c = false := by simp [escapes, hc]
    rw [hescapes] at hrest
    rw [splitAtPhrase_cons hpass hc, braceDepth_of_braceStep hstep] at hwhole
    have htail := eq_singleton_of_consToFirst (splitAtPhrase_ne_nil _ _ _ _) hwhole
    have hahead : ¬CutsHere phrase depth false (c :: (text ++ ' ' :: rest)) :=
      not_cutsHere_append_blank hblank hpass rest
    rw [List.cons_append, splitAtPhrase_cons hahead hc, braceDepth_of_braceStep hstep,
      ih hrest htail]
    rfl

/-- Whether the splitter puts a text into one part whatever follows it. -/
def PassesOver (phrase text : Text) : Prop :=
  ∀ rest, splitOutsideBraces phrase (text ++ rest) =
    text.foldr Text.consToFirst (splitOutsideBraces phrase rest)

theorem PassesOver.append {text text' : Text} (h : PassesOver phrase text)
    (h' : PassesOver phrase text') : PassesOver phrase (text ++ text') := by
  intro rest
  rw [List.append_assoc, h, h', List.foldr_append]

/-- A text with a blank behind it is passed over when it is in one piece and its braces close, also
when it escapes what follows it. -/
theorem passesOver_append_blank (hne : phrase ≠ []) (hblank : ' ' ∉ phrase) {text : Text}
    {escaped : Bool} (hwalk : walk? braceStep 0 false text = some (0, escaped))
    (hwhole : splitOutsideBraces phrase text = [text]) : PassesOver phrase (text ++ [' ']) := by
  intro rest
  rw [List.append_assoc]
  exact splitAtPhrase_append_blank hne hblank hwalk hwhole rest

/-- A character that is not the first of the phrase and opens, closes and escapes nothing is passed
over. -/
theorem passesOver_singleton {first c : Char} (hc : isPlain c = true) (hne : c ≠ first) :
    PassesOver (first :: phrase) [c] := by
  intro rest
  obtain ⟨hopen, hclose, -, -, hslash⟩ := isPlain_iff.mp hc
  have hpass : ¬CutsHere (first :: phrase) 0 false (c :: rest) := by
    rintro ⟨-, -, hbegins⟩
    exact hne (List.cons_prefix_cons.mp hbegins).1.symm
  have hdepth : braceDepth 0 false c = 0 := by simp [braceDepth, hopen, hclose]
  have hsplit := splitAtPhrase_cons hpass hslash
  rw [hdepth] at hsplit
  exact hsplit

/-! ## Joined parts -/

theorem PassesOver.join {separator : Text} (hseparator : PassesOver phrase separator)
    {parts : List Text} (h : ∀ part ∈ parts, PassesOver phrase part) :
    PassesOver phrase (Text.join separator parts) := by
  induction parts with
  | nil => exact fun rest => rfl
  | cons part rest ih =>
    rw [List.forall_mem_cons] at h
    cases rest with
    | nil =>
      rw [Text.join_singleton]
      exact h.1
    | cons next rest =>
      rw [Text.join_cons_cons]
      exact h.1.append (hseparator.append (ih h.2))

theorem PassesOver.split {text : Text} (h : PassesOver phrase text) :
    splitOutsideBraces phrase text = [text] := by
  have hsplit := h []
  rw [List.append_nil] at hsplit
  rw [hsplit, show splitOutsideBraces phrase [] = [[]] from rfl, foldr_consToFirst,
    List.append_nil]

/-- A part ends at the phrase behind it, when the phrase does not escape what follows. -/
theorem PassesOver.split_append {text : Text} (h : PassesOver phrase text) (hne : phrase ≠ [])
    (hescapes : phrase.foldl escapes false = false) (rest : Text) :
    splitOutsideBraces phrase (text ++ (phrase ++ rest)) =
      text :: splitOutsideBraces phrase rest := by
  have hphrase := splitAtPhrase_cut hne rest
  rw [hescapes] at hphrase
  rw [h, splitOutsideBraces, hphrase, foldr_consToFirst, List.append_nil]
  rfl

/-- Parts that are passed over are read back from their join. -/
theorem splitOutsideBraces_join (hne : phrase ≠ []) (hescapes : phrase.foldl escapes false = false)
    {parts : List Text} (hparts : parts ≠ []) (h : ∀ part ∈ parts, PassesOver phrase part) :
    splitOutsideBraces phrase (Text.join phrase parts) = parts := by
  induction parts with
  | nil => exact absurd rfl hparts
  | cons part rest ih =>
    rw [List.forall_mem_cons] at h
    cases rest with
    | nil =>
      rw [Text.join_singleton]
      exact h.1.split
    | cons next rest =>
      rw [Text.join_cons_cons, h.1.split_append hne hescapes, ih (List.cons_ne_nil _ _) h.2]

/-- A part occurs in the join. -/
theorem infix_join {separator part : Text} {parts : List Text} (h : part ∈ parts) :
    part <:+: Text.join separator parts := by
  induction parts with
  | nil => cases h
  | cons first rest ih =>
    cases rest with
    | nil =>
      obtain rfl := List.mem_singleton.mp h
      exact ⟨[], [], by simp [Text.join_singleton]⟩
    | cons next rest =>
      rw [Text.join_cons_cons]
      rcases List.mem_cons.mp h with rfl | hrest
      · exact (List.prefix_append _ _).isInfix
      · rw [← List.append_assoc]
        exact (ih hrest).trans (List.suffix_append _ _).isInfix

/-! ## Parts between blanks -/

/-- A part with a blank before it and one behind it. -/
def padded (part : Text) : Text := ' ' :: part ++ [' ']

/-- Blanks around a join whose separators stand between blanks are blanks around every part. -/
theorem padded_join (separator : Text) {parts : List Text} (hparts : parts ≠ []) :
    padded (Text.join (padded separator) parts) = Text.join separator (parts.map padded) := by
  induction parts with
  | nil => exact absurd rfl hparts
  | cons part rest ih =>
    cases rest with
    | nil => rw [List.map_singleton, Text.join_singleton, Text.join_singleton]
    | cons next rest =>
      have hrest := ih (List.cons_ne_nil _ _)
      rw [List.map_cons] at hrest
      rw [List.map_cons, List.map_cons, Text.join_cons_cons, Text.join_cons_cons, ← hrest]
      simp [padded]

/-- A phrase without blanks lies in the part that stands between them. -/
theorem infix_of_infix_padded (hne : phrase ≠ []) (hblank : ' ' ∉ phrase) {part : Text}
    (h : phrase <:+: padded part) : phrase <:+: part := by
  rcases Text.infix_append_cons hblank (show phrase <:+: [] ++ ' ' :: (part ++ [' ']) from h) with
    hnil | hrest
  · exact absurd (List.infix_nil.mp hnil) hne
  · rcases Text.infix_append_cons hblank hrest with hpart | hnil
    · exact hpart
    · exact absurd (List.infix_nil.mp hnil) hne

/-- A phrase without blanks lies in one of the parts, or in the separator. -/
theorem not_infix_join (hne : phrase ≠ []) (hblank : ' ' ∉ phrase) {separator : Text}
    (hseparator : ¬phrase <:+: separator) {parts : List Text}
    (h : ∀ part ∈ parts, ¬phrase <:+: part) :
    ¬phrase <:+: Text.join (padded separator) parts := by
  intro hoccurs
  induction parts with
  | nil => exact hne (List.infix_nil.mp hoccurs)
  | cons part rest ih =>
    rw [List.forall_mem_cons] at h
    cases rest with
    | nil =>
      rw [Text.join_singleton] at hoccurs
      exact h.1 hoccurs
    | cons next rest =>
      have htext : Text.join (padded separator) (part :: next :: rest) =
          part ++ ' ' :: (separator ++ ' ' :: Text.join (padded separator) (next :: rest)) := by
        rw [Text.join_cons_cons]
        simp [padded]
      rw [htext] at hoccurs
      rcases Text.infix_append_cons hblank hoccurs with hpart | hbehind
      · exact h.1 hpart
      · rcases Text.infix_append_cons hblank hbehind with hmiddle | hrest
        · exact hseparator hmiddle
        · exact ih h.2 hrest

/-- A text in one piece whose braces close is passed over between blanks, also when it escapes the
blank behind it. -/
theorem passesOver_padded (hne : phrase ≠ []) (hblank : ' ' ∉ phrase) {text : Text}
    (hclosed : (walk? braceStep 0 false text).map Prod.fst = some 0)
    (hwhole : splitOutsideBraces phrase text = [text]) : PassesOver phrase (padded text) := by
  obtain ⟨⟨depth, escaped⟩, hwalk, rfl⟩ := Option.map_eq_some_iff.mp hclosed
  have hfront : PassesOver phrase ([] ++ [' ']) :=
    passesOver_append_blank hne hblank (show walk? braceStep 0 false [] = some (0, false) from rfl)
      rfl
  exact hfront.append (passesOver_append_blank hne hblank hwalk hwhole)

end

end TexFigure.Source
