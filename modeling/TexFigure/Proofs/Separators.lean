import TexFigure.Proofs.Phrases
import TexFigure.Proofs.Splitting
/-!
# Separators

Splitting loses nothing but the separators, and leaves none to split at: the parts of a text, joined
again, are the text, and each of them comes back as the one part of itself. The second holds where a
part is read in isolation as it was read in the text, which asks that a separator do not escape what
follows it; the depth is zero on both sides of every cut, whether groups close or not.

The splitter at phrases goes over a text in strides that `phrase_induction` names: a phrase is cut
at, a backslash is taken together with the next character, any other character is taken alone. As a
loop over bytes it takes two bytes with a backslash, and so comes to stand inside a character, where
no phrase begins (`not_beginsAt_inside`), or behind the end of the text.

> `join_splitAtDepth`, `join_splitAtPhrase`: joined parts are the text.
> `splitTopLevel_of_mem`, `splitOutsideBraces_of_mem`: a part is not split again.
> `splitOutsideBraces_eq`: every cut of the loop over bytes is at a character boundary of the text,
> and it gives what the splitter of characters gives.
-/

namespace TexFigure

namespace Source

/-! ## Joined parts -/

section
variable {separator : Text} {parts : List Text}

theorem join_consToFirst (c : Char) (hne : parts ≠ []) :
    Text.join separator (Text.consToFirst c parts) = c :: Text.join separator parts := by
  obtain ⟨first, others, rfl⟩ := List.exists_cons_of_ne_nil hne
  cases others with
  | nil => rw [Text.consToFirst, Text.join_singleton, Text.join_singleton]
  | cons next others =>
    rw [Text.consToFirst, Text.join_cons_cons, Text.join_cons_cons]
    rfl

theorem join_nil_cons (hne : parts ≠ []) :
    Text.join separator ([] :: parts) = separator ++ Text.join separator parts := by
  obtain ⟨first, others, rfl⟩ := List.exists_cons_of_ne_nil hne
  exact Text.join_cons_cons separator [] first others

end

/-! ## Splitting at depth -/

theorem splitAtDepth_ne_nil (separator : Char) (depth : Nat) (escaped : Bool) (text : Text) :
    splitAtDepth separator depth escaped text ≠ [] := by
  cases text with
  | nil => exact List.cons_ne_nil _ _
  | cons c rest =>
    rw [splitAtDepth]
    split
    next => exact List.cons_ne_nil _ _
    next => exact consToFirst_ne_nil _ _

theorem join_splitAtDepth (separator : Char) (depth : Nat) (escaped : Bool) (text : Text) :
    Text.join [separator] (splitAtDepth separator depth escaped text) = text := by
  induction text generalizing depth escaped with
  | nil => exact Text.join_singleton _ _
  | cons c rest ih =>
    rw [splitAtDepth]
    split
    next hcut =>
      rw [join_nil_cons (splitAtDepth_ne_nil _ _ _ _), ih, hcut.2.1]
      rfl
    next => rw [join_consToFirst c (splitAtDepth_ne_nil _ _ _ _), ih]

/-- No part holds a separator outside its groups: the first as it goes on from the depth at which
the splitter is, the others from the ground. -/
theorem exists_splitAtDepth {separator : Char} (hslash : separator ≠ '\\') (depth : Nat)
    (escaped : Bool) (text : Text) :
    ∃ first others, splitAtDepth separator depth escaped text = first :: others ∧
      (∃ final, walk? (depthStep separator) depth escaped first = some final) ∧
      ∀ part ∈ others, ∃ final, walk? (depthStep separator) 0 false part = some final := by
  induction text generalizing depth escaped with
  | nil => exact ⟨[], [], rfl, ⟨_, rfl⟩, by simp⟩
  | cons c rest ih =>
    rw [splitAtDepth]
    split
    next hcut =>
      -- the next part begins behind a separator, as a text begins: on the ground and not escaped
      have hescapes : escapes escaped c = false := by simp [escapes, hcut.2.1, hslash]
      obtain ⟨first, others, hsplit, hfirst, hothers⟩ := ih 0 (escapes escaped c)
      rw [hescapes] at hfirst
      rw [hsplit]
      exact ⟨[], first :: others, rfl, ⟨_, rfl⟩, List.forall_mem_cons.mpr ⟨hfirst, hothers⟩⟩
    next hpass =>
      obtain ⟨first, others, hsplit, ⟨final, hfirst⟩, hothers⟩ :=
        ih (groupDepth depth escaped c) (escapes escaped c)
      rw [hsplit]
      exact ⟨c :: first, others, rfl,
        ⟨final, walk?_cons_eq_some.mpr ⟨_, if_neg hpass, hfirst⟩⟩, hothers⟩

/-- A part is the one part of itself. -/
theorem splitTopLevel_of_mem {separator : Char} (hslash : separator ≠ '\\') {text part : Text}
    (h : part ∈ splitTopLevel separator text) : splitTopLevel separator part = [part] := by
  obtain ⟨first, others, hsplit, hfirst, hothers⟩ := exists_splitAtDepth hslash 0 false text
  have hparts : ∀ part ∈ first :: others,
      ∃ final, walk? (depthStep separator) 0 false part = some final :=
    List.forall_mem_cons.mpr ⟨hfirst, hothers⟩
  rw [splitTopLevel, hsplit] at h
  obtain ⟨final, hwalk⟩ := hparts part h
  exact splitTopLevel_whole hwalk

/-! ## Splitting at phrases -/

section
variable {phrase text : Text}

/-- Texts by the strides of the splitter at phrases. -/
theorem phrase_induction (hne : phrase ≠ []) {motive : Nat → Bool → Text → Prop}
    (nil : ∀ depth escaped, motive depth escaped [])
    (cut : ∀ rest, motive 0 (phrase.foldl escapes false) rest → motive 0 false (phrase ++ rest))
    (slash : ∀ depth escaped, ¬CutsHere phrase depth escaped ['\\'] → motive depth escaped ['\\'])
    (pair : ∀ depth escaped c rest, ¬CutsHere phrase depth escaped ('\\' :: c :: rest) →
      motive depth (escapes (escapes escaped '\\') c) rest →
        motive depth escaped ('\\' :: c :: rest))
    (cons : ∀ depth escaped c rest, ¬CutsHere phrase depth escaped (c :: rest) → c ≠ '\\' →
      motive (braceDepth depth false c) false rest → motive depth escaped (c :: rest))
    (depth : Nat) (escaped : Bool) (text : Text) : motive depth escaped text := by
  induction hlength : text.length using Nat.strongRecOn generalizing depth escaped text with
  | ind length ih =>
    subst hlength
    by_cases hhere : CutsHere phrase depth escaped text
    · obtain ⟨rfl, rfl, rest, rfl⟩ := hhere
      have hpos := List.length_pos_iff.mpr hne
      exact cut rest (ih rest.length (by rw [List.length_append]; omega) _ _ rest rfl)
    · cases text with
      | nil => exact nil depth escaped
      | cons c rest =>
        by_cases hc : c = '\\'
        · subst hc
          cases rest with
          | nil => exact slash depth escaped hhere
          | cons d rest =>
            have hshorter : rest.length < ('\\' :: d :: rest).length := by
              rw [List.length_cons, List.length_cons]
              omega
            exact pair depth escaped d rest hhere (ih rest.length hshorter _ _ rest rfl)
        · have hshorter : rest.length < (c :: rest).length := Nat.lt_succ_self _
          exact cons depth escaped c rest hhere hc (ih rest.length hshorter _ _ rest rfl)

theorem join_splitAtPhrase (hne : phrase ≠ []) (depth : Nat) (escaped : Bool) (text : Text) :
    Text.join phrase (splitAtPhrase phrase 0 depth escaped text) = text := by
  induction depth, escaped, text using phrase_induction hne with
  | nil depth escaped => exact Text.join_singleton _ _
  | cut rest ih => rw [splitAtPhrase_cut hne, join_nil_cons (splitAtPhrase_ne_nil _ _ _ _), ih]
  | slash depth escaped hpass => rw [splitAtPhrase_slash hpass, Text.join_singleton]
  | pair depth escaped c rest hpass ih =>
    rw [splitAtPhrase_pair hpass, join_consToFirst '\\' (consToFirst_ne_nil _ _),
      join_consToFirst c (splitAtPhrase_ne_nil _ _ _ _), ih]
  | cons depth escaped c rest hpass hc ih =>
    rw [splitAtPhrase_cons hpass hc, join_consToFirst c (splitAtPhrase_ne_nil _ _ _ _), ih]

/-- A phrase that begins a text begins every longer one. -/
theorem CutsHere.mono {depth : Nat} {escaped : Bool} {first : Text} (hfirst : first <+: text)
    (h : CutsHere phrase depth escaped first) : CutsHere phrase depth escaped text := by
  obtain ⟨hdepth, hescaped, hbegins⟩ := h
  exact ⟨hdepth, hescaped, hbegins.trans hfirst⟩

/-- Each part is in one piece: the first, which begins the text, as it goes on from the depth at
which the splitter is, the others from the ground. -/
theorem exists_splitAtPhrase (hne : phrase ≠ []) (hescapes : phrase.foldl escapes false = false)
    (depth : Nat) (escaped : Bool) (text : Text) (hescaped : escaped = false) :
    ∃ first others, splitAtPhrase phrase 0 depth escaped text = first :: others ∧
      first <+: text ∧ splitAtPhrase phrase 0 depth escaped first = [first] ∧
      ∀ part ∈ others, splitOutsideBraces phrase part = [part] := by
  induction depth, escaped, text using phrase_induction hne with
  | nil depth escaped => exact ⟨[], [], rfl, List.prefix_refl _, rfl, by simp⟩
  | cut rest ih =>
    obtain ⟨first, others, hsplit, -, hfirst, hothers⟩ := ih hescapes
    rw [hescapes] at hsplit hfirst
    refine ⟨[], first :: others, ?_, List.nil_prefix, rfl, ?_⟩
    · rw [splitAtPhrase_cut hne, hescapes, hsplit]
    · exact List.forall_mem_cons.mpr ⟨hfirst, hothers⟩
  | slash depth escaped hpass =>
    have hsplit := splitAtPhrase_slash hpass
    exact ⟨['\\'], [], hsplit, List.prefix_refl _, hsplit, by simp⟩
  | pair depth escaped c rest hpass ih =>
    subst hescaped
    obtain ⟨first, others, hsplit, hbegins, hfirst, hothers⟩ := ih (escapes_pair c)
    have hlonger : '\\' :: c :: first <+: '\\' :: c :: rest :=
      (List.prefix_append_right_inj ['\\', c]).mpr hbegins
    refine ⟨'\\' :: c :: first, others, ?_, hlonger, ?_, hothers⟩
    · rw [splitAtPhrase_pair hpass, hsplit]
      rfl
    · rw [splitAtPhrase_pair (mt (CutsHere.mono hlonger) hpass), hfirst]
      rfl
  | cons depth escaped c rest hpass hc ih =>
    obtain ⟨first, others, hsplit, hbegins, hfirst, hothers⟩ := ih rfl
    have hlonger : c :: first <+: c :: rest := (List.prefix_cons_inj c).mpr hbegins
    refine ⟨c :: first, others, ?_, hlonger, ?_, hothers⟩
    · rw [splitAtPhrase_cons hpass hc, hsplit]
      rfl
    · rw [splitAtPhrase_cons (mt (CutsHere.mono hlonger) hpass) hc, hfirst]
      rfl

/-- A part is the one part of itself, when the phrase does not escape what follows it. -/
theorem splitOutsideBraces_of_mem (hne : phrase ≠ [])
    (hescapes : phrase.foldl escapes false = false) {part : Text}
    (h : part ∈ splitOutsideBraces phrase text) : splitOutsideBraces phrase part = [part] := by
  obtain ⟨first, others, hsplit, -, hfirst, hothers⟩ :=
    exists_splitAtPhrase hne hescapes 0 false text rfl
  have hparts : ∀ part ∈ first :: others, splitOutsideBraces phrase part = [part] :=
    List.forall_mem_cons.mpr ⟨hfirst, hothers⟩
  rw [splitOutsideBraces, hsplit] at h
  exact hparts part h

end

end Source

namespace Checked

open Text Source

/-! ## Phrases by bytes -/

section
variable {text rest phrase word : Text} {pos : Nat} {escaped : Bool} {c : Char}

/-- Whether the bytes of a phrase stand at an offset. -/
def beginsAt (phrase text : Text) (offset : Nat) : Bool :=
  (bytes phrase).isPrefixOf ((bytes text).drop offset)

theorem bytes_cons (c : Char) (text : Text) :
    bytes (c :: text) = String.utf8EncodeChar c ++ bytes text := rfl

theorem bytes_append (text text' : Text) : bytes (text ++ text') = bytes text ++ bytes text' :=
  List.flatMap_append

theorem Stands.drop_bytes (h : Stands text pos escaped rest) :
    (bytes text).drop pos = bytes rest := by
  obtain ⟨before, rfl, rfl, -⟩ := h
  rw [bytes_append, ← length_bytes, List.drop_left]

/-- The bytes of a text tell its first character. -/
theorem eq_of_utf8EncodeChar_append {c d : Char} {behind behind' : List UInt8}
    (h : String.utf8EncodeChar c ++ behind = String.utf8EncodeChar d ++ behind') : c = d := by
  have hc := @ByteArray.utf8DecodeChar?_utf8EncodeChar_append behind.toByteArray c
  have hd := @ByteArray.utf8DecodeChar?_utf8EncodeChar_append behind'.toByteArray d
  rw [← List.toByteArray_append] at hc hd
  rw [h, hd] at hc
  exact (Option.some.inj hc).symm

/-- The bytes of a phrase begin those of a text where the phrase begins the text. -/
theorem bytes_prefix_iff : bytes phrase <+: bytes text ↔ phrase <+: text := by
  constructor
  · intro h
    induction phrase generalizing text with
    | nil => exact List.nil_prefix
    | cons c phrase ih =>
      obtain ⟨behind, hbehind⟩ := h
      rw [bytes_cons, List.append_assoc] at hbehind
      cases text with
      | nil =>
        have hlength := congrArg List.length hbehind
        have := c.utf8Size_pos
        rw [List.length_append, String.length_utf8EncodeChar] at hlength
        simp [bytes] at hlength
        omega
      | cons d text =>
        obtain rfl := eq_of_utf8EncodeChar_append hbehind
        exact (List.prefix_cons_inj c).mpr (ih ⟨behind, List.append_cancel_left hbehind⟩)
  · rintro ⟨rest, rfl⟩
    rw [bytes_append]
    exact List.prefix_append _ _

theorem Stands.beginsAt_iff (h : Stands text pos escaped rest) :
    beginsAt phrase text pos = true ↔ phrase <+: rest := by
  rw [beginsAt, h.drop_bytes, List.isPrefixOf_iff_prefix, bytes_prefix_iff]

/-- No phrase begins inside a character. -/
theorem Stands.not_beginsAt_inside (h : Stands text pos escaped (c :: rest)) (hne : phrase ≠ [])
    {n : Nat} (hpos : 0 < n) (hn : n < c.utf8Size) : ¬beginsAt phrase text (pos + n) = true := by
  intro hbegins
  obtain ⟨d, phrase, rfl⟩ := List.exists_cons_of_ne_nil hne
  obtain ⟨behind, hbehind⟩ := List.isPrefixOf_iff_prefix.mp hbegins
  rw [← List.drop_drop, h.drop_bytes, bytes_cons, bytes_cons, List.append_assoc] at hbehind
  have hlength : n < (String.utf8EncodeChar c).length := by rwa [String.length_utf8EncodeChar]
  have hfirst : 0 < (String.utf8EncodeChar d).length := by
    rw [String.length_utf8EncodeChar]
    exact d.utf8Size_pos
  have hbyte : (String.utf8EncodeChar d)[0] = (String.utf8EncodeChar c)[n] := by
    have hget := congrArg (·[0]?) hbehind
    simp only [List.getElem?_drop, Nat.add_zero] at hget
    rw [List.getElem?_append_left hfirst, List.getElem?_append_left hlength,
      List.getElem?_eq_getElem hfirst, List.getElem?_eq_getElem hlength] at hget
    exact Option.some.inj hget
  -- a character has its one first byte in front
  have hzero : n = 0 := by
    rw [← @UInt8.isUTF8FirstByte_getElem_utf8EncodeChar c n hlength, ← hbyte]
    exact UInt8.isUTF8FirstByte_getElem_utf8EncodeChar.mpr rfl
  omega

/-! ## The loop over bytes -/

/-- One turn of a splitter at phrases outside braces. A backslash takes the byte behind it along,
which may be the first of several, or lie behind the end of the text. -/
def phraseTurn (phrase text : Text) (state : Splitting) (pos : Nat) (byte : Char) :
    Except Fault (Turn Splitting Splitting) := do
  let escaped ← isEscaped text pos
  if state.depth = 0 ∧ escaped = false ∧ beginsAt phrase text pos then
    let part ← slice text state.start pos
    let next := pos + byteSize phrase
    .ok (.go { state with parts := state.parts ++ [part], start := next } next)
  else if byte = '\\' then .ok (.go state (min (pos + 2) (byteSize text)))
  else .ok (.go { state with depth := braceDepth state.depth false byte } (pos + 1))

/-- The parts of a text from a state of the splitter on. -/
def phrasesFrom (phrase text : Text) (state : Splitting) (pos : Nat) :
    Except Fault (List Text) := do
  let final ← scan text id (phraseTurn phrase text) state pos
  let last ← suffix text (min final.start (byteSize text))
  .ok (final.parts ++ [last])

/-- The parts of a text between the unescaped occurrences of a phrase outside brace groups. -/
def splitOutsideBraces (phrase text : Text) : Except Fault (List Text) :=
  phrasesFrom phrase text ⟨[], 0, 0⟩ 0

/-- The parts of a text between the separators outside braces and brackets. -/
def splitTopLevel (separator : Char) (text : Text) : Except Fault (List Text) :=
  splitFrom separator text ⟨[], 0, 0⟩ 0

theorem splitTopLevel_eq {separator : Char} (hseparator : separator.utf8Size = 1) (text : Text) :
    splitTopLevel separator text = .ok (Source.splitTopLevel separator text) :=
  @splitFrom_eq text text [] false separator ⟨[], 0, 0⟩ hseparator (stands_zero text)

section
variable {state : Splitting}

/-- A phrase outside all groups ends the part that began at the start. -/
theorem phraseTurn_cut (h : Stands text state.start escaped (word ++ (phrase ++ rest)))
    (hescaped : word.foldl escapes escaped = false) (hdepth : state.depth = 0) (byte : Char) :
    phraseTurn phrase text state (state.start + byteSize word) byte =
      .ok (.go ⟨state.parts ++ [word], 0, state.start + byteSize word + byteSize phrase⟩
        (state.start + byteSize word + byteSize phrase)) := by
  have hhere := h.append
  have hbegins : beginsAt phrase text (state.start + byteSize word) = true :=
    hhere.beginsAt_iff.mpr (List.prefix_append _ _)
  rw [phraseTurn, hhere.isEscaped_eq, ok_bind, hescaped, if_pos ⟨hdepth, rfl, hbegins⟩, h.slice_eq,
    ok_bind, hdepth]

/-- Where no phrase is cut at, a backslash is told from other characters. -/
theorem phraseTurn_pass (h : Stands text pos escaped (c :: rest))
    (hpass : ¬CutsHere phrase state.depth escaped (c :: rest)) (byte : Char) :
    phraseTurn phrase text state pos byte =
      if byte = '\\' then .ok (.go state (min (pos + 2) (byteSize text)))
      else .ok (.go { state with depth := braceDepth state.depth false byte } (pos + 1)) := by
  rw [phraseTurn, h.isEscaped_eq, ok_bind, if_neg]
  rintro ⟨hdepth, hescaped, hbegins⟩
  exact hpass ⟨hdepth, hescaped, h.beginsAt_iff.mp hbegins⟩

/-- The splitter passes over what is left of a character behind its first byte. -/
theorem scan_phraseTurn_inside (hne : phrase ≠ []) (h : Stands text pos escaped (c :: rest)) :
    scan text id (phraseTurn phrase text) state (pos + 1) =
      scan text id (phraseTurn phrase text) state (pos + c.utf8Size) := by
  refine scan_inside h fun n byte hpos hn hbyte => ?_
  have hle := h.next.le
  obtain ⟨escaped', hescaped⟩ := exists_isEscaped (show pos + n ≤ byteSize text by omega)
  have hbegins : ¬(state.depth = 0 ∧ escaped' = false ∧ beginsAt phrase text (pos + n) = true) :=
    fun hcut => h.not_beginsAt_inside hne hpos hn hcut.2.2
  rw [phraseTurn, hescaped, ok_bind, if_neg hbegins, if_neg (long_ne hbyte).2.2.2.2.2.2.1,
    braceDepth_long hbyte]

/-- The splitter takes a backslash and the character behind it. -/
theorem scan_phraseTurn_pair (hne : phrase ≠ []) (h : Stands text pos escaped ('\\' :: c :: rest))
    (hpass : ¬CutsHere phrase state.depth escaped ('\\' :: c :: rest)) :
    scan text id (phraseTurn phrase text) state pos =
      scan text id (phraseTurn phrase text) state (pos + (1 + c.utf8Size)) := by
  have hbehind := h.next_ascii rfl
  have hpos := c.utf8Size_pos
  have hle := hbehind.next.le
  have hturn : phraseTurn phrase text state pos '\\' = .ok (.go state (pos + 1 + 1)) := by
    rw [phraseTurn_pass h hpass, if_pos rfl, Nat.min_eq_left (by omega)]
  rw [scan_go h rfl hturn (by omega) (by omega), scan_phraseTurn_inside hne hbehind, Nat.add_assoc]

/-- The splitter takes any other character alone. -/
theorem scan_phraseTurn_cons (hne : phrase ≠ []) (h : Stands text pos escaped (c :: rest))
    (hpass : ¬CutsHere phrase state.depth escaped (c :: rest)) (hc : c ≠ '\\') :
    scan text id (phraseTurn phrase text) state pos =
      scan text id (phraseTurn phrase text)
        { state with depth := braceDepth state.depth false c } (pos + c.utf8Size) := by
  have hturn (byte : Char) (halike : Alike byte c) : phraseTurn phrase text state pos byte =
      .ok (.go { state with depth := braceDepth state.depth false c } (pos + 1)) := by
    have hslash : byte ≠ '\\' := mt (halike.eq_iff rfl).mp hc
    have hdepth : braceDepth state.depth false byte = braceDepth state.depth false c := by
      have hopen : byte = '{' ↔ c = '{' := halike.eq_iff rfl
      have hclose : byte = '}' ↔ c = '}' := halike.eq_iff rfl
      simp only [braceDepth, hopen, hclose]
    rw [phraseTurn_pass h hpass, if_neg hslash, hdepth]
  have hlt := h.lt
  rw [scan_go_alike h hturn (by omega) (by omega), scan_phraseTurn_inside hne h]

/-- The splitter is at a place behind a part that it has not cut off yet. -/
theorem phrasesFrom_eq (hne : phrase ≠ []) {depth : Nat} {escaped' : Bool}
    (h : Stands text state.start escaped (word ++ rest)) (hdepth : state.depth = depth)
    (hescaped : word.foldl escapes escaped = escaped') :
    phrasesFrom phrase text state (state.start + byteSize word) =
      .ok (state.parts ++ word.foldr consToFirst
        (splitAtPhrase phrase 0 depth escaped' rest)) := by
  -- `word` is the part that is read since the last cut; it grows with every stride but a cut
  induction depth, escaped', rest using phrase_induction hne generalizing state escaped word with
  | nil depth escaped' =>
    have hlast := h.suffix_eq
    rw [phrasesFrom, scan_end h.append, ok_bind, splitAtPhrase, foldr_consToFirst]
    simp only [id, Nat.min_eq_left h.le, hlast, ok_bind]
  | cut rest ih =>
    have hhere := h.append
    have hnext := hhere.append
    obtain ⟨c, front, hphrase⟩ := List.exists_cons_of_ne_nil hne
    have hsize := byteSize_pos hne
    have hturn := phraseTurn_cut h hescaped hdepth
    have hrest := @ih [] _ ⟨state.parts ++ [word], 0, _⟩ hnext rfl
      (congrArg (phrase.foldl escapes) hescaped)
    rw [hphrase] at hhere
    rw [byteSize_nil, Nat.add_zero] at hrest
    rw [phrasesFrom, scan_go_alike hhere (fun byte _ => hturn byte) (by omega) hnext.le,
      ← phrasesFrom, hrest, splitAtPhrase_cut hne, foldr_consToFirst]
    simp
  | slash depth escaped' hpass =>
    -- two bytes on from the last backslash would be behind the end
    have hhere := h.append
    have hlast := h.suffix_eq
    have hend : state.start + byteSize word + 1 = byteSize text := hhere.add_byteSize
    rw [← hdepth, ← hescaped] at hpass
    have hturn : phraseTurn phrase text state (state.start + byteSize word) '\\' =
        .ok (.go state (byteSize text)) := by
      rw [phraseTurn_pass hhere hpass, if_pos rfl, Nat.min_eq_right (by omega)]
    rw [phrasesFrom, scan_go hhere rfl hturn (by omega) (Nat.le_refl _), scan_end (stands_end text),
      ok_bind, splitAtPhrase_slash (by rwa [hdepth, hescaped] at hpass), foldr_consToFirst]
    simp only [id, Nat.min_eq_left h.le, hlast, ok_bind]
  | pair depth escaped' c rest hpass ih =>
    subst hdepth hescaped
    have hjoined : Stands text state.start escaped ((word ++ ['\\', c]) ++ rest) := by simpa using h
    have hsize : state.start + byteSize (word ++ ['\\', c]) =
        state.start + byteSize word + (1 + c.utf8Size) := by
      rw [byteSize_append, ← Nat.add_assoc]
      rfl
    have hrest := ih hjoined rfl (by simp)
    rw [hsize] at hrest
    rw [phrasesFrom, scan_phraseTurn_pair hne h.append hpass, ← phrasesFrom,
      splitAtPhrase_pair hpass]
    simpa using hrest
  | cons depth escaped' c rest hpass hc ih =>
    subst hdepth hescaped
    have hescapes : (word ++ [c]).foldl escapes escaped = false := by simp [escapes, hc]
    have hjoined : Stands text state.start escaped ((word ++ [c]) ++ rest) := by simpa using h
    have hrest :=
      @ih _ _ { state with depth := braceDepth state.depth false c } hjoined rfl hescapes
    rw [byteSize_append, ← Nat.add_assoc] at hrest
    rw [phrasesFrom, scan_phraseTurn_cons hne h.append hpass hc, ← phrasesFrom,
      splitAtPhrase_cons hpass hc]
    simpa using hrest

theorem splitOutsideBraces_eq (hne : phrase ≠ []) (text : Text) :
    splitOutsideBraces phrase text = .ok (Source.splitOutsideBraces phrase text) :=
  @phrasesFrom_eq text text phrase [] false ⟨[], 0, 0⟩ hne 0 false (stands_zero text) rfl rfl

end

end

end Checked

namespace Source

/-- Splitting loses nothing and is complete. The parts of any text, split at commas or at any
phrase, are the text again when they are joined; no turn of the loops over bytes is stuck, and no
cut that they make is inside a character or outside of the text; and a part is not split again at
commas, at ampersands, or at double backslashes. -/
theorem split_lossless (phrase text : Text) (hphrase : phrase ≠ []) :
    (Checked.splitTopLevel ',' text = .ok (splitTopLevel ',' text) ∧
      Text.join [','] (splitTopLevel ',' text) = text) ∧
    (Checked.splitOutsideBraces phrase text = .ok (splitOutsideBraces phrase text) ∧
      Text.join phrase (splitOutsideBraces phrase text) = text) ∧
    (∀ part ∈ splitTopLevel ',' text, splitTopLevel ',' part = [part]) ∧
    (∀ part ∈ splitOutsideBraces "&" text, splitOutsideBraces "&" part = [part]) ∧
    ∀ part ∈ splitOutsideBraces "\\\\" text, splitOutsideBraces "\\\\" part = [part] := by
  refine ⟨⟨?_, ?_⟩, ⟨?_, ?_⟩, fun part h => ?_, fun part h => ?_, fun part h => ?_⟩
  · exact Checked.splitTopLevel_eq rfl text
  · exact join_splitAtDepth ',' 0 false text
  · exact Checked.splitOutsideBraces_eq hphrase text
  · exact join_splitAtPhrase hphrase 0 false text
  · exact splitTopLevel_of_mem (by decide) h
  · exact splitOutsideBraces_of_mem (by decide) rfl h
  · exact splitOutsideBraces_of_mem (by decide) rfl h

/-- A closing brace without its opening one, a backslash in front of a character of two bytes, and
one at the end of the text. -/
theorem split_lossless_multibyte :
    let phrase : Text := "é"
    let text : Text := "\x7daé\\éb\x7bé\x7dé\\"
    let parts : List Text := ["\x7da", "\\éb\x7bé\x7d", "\\"]
    phrase ≠ [] ∧ Checked.splitOutsideBraces phrase text = .ok parts ∧
      Text.join phrase parts = text := by
  intro phrase text parts
  have hsplit : splitOutsideBraces phrase text = parts := by decide +kernel
  obtain ⟨-, ⟨hloop, hjoin⟩, -⟩ := split_lossless phrase text (by decide)
  rw [hsplit] at hloop hjoin
  exact ⟨by decide, hloop, hjoin⟩

end Source

end TexFigure
