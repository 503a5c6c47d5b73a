import TexFigure.Proofs.Splitting
/-!
# Closing braces

Where a brace group ends, said by counting and not by scanning. A brace counts unless an odd run of
backslashes stands right before it (`EscapesNext`), and a group ends at the brace that brings the
number of its open braces back to zero for the first time (`IsGroup`). A text need not hold such a
brace (`NeverCloses`); the search for it then answers the last offset, which is that of a brace also
where the text merely ends in one.

> `isGroup_iff`, `cutAtBrace_eq_some_iff`: a group is a balanced text in braces, and the cut at a
> brace finds its end.

> `matchingBrace_groupAt`: the group around a balanced text is found by offset, at any place that
> is not escaped; one that never closes is searched through to the last offset.

> `isFullyBraced_nextGroupAt_iff`: an unclosed group is taken for a closed one exactly when its text
> ends in a closing brace.
-/

namespace TexFigure.Source

open Text (byteSize)

/-! ## Counting braces -/

/-- The length of the run of backslashes at the end of a text. -/
def trailingSlashes (text : Text) : Nat := (text.reverse.takeWhile (· == '\\')).length

/-- Whether a text escapes the character behind it: the backslashes of an even run escape each
other. -/
def EscapesNext (text : Text) : Prop := trailingSlashes text % 2 = 1

instance (text : Text) : Decidable (EscapesNext text) := inferInstanceAs (Decidable (_ = _))

/-- What a character behind a text adds to the number of open braces. -/
def braceWeight (front : Text) (c : Char) : Int :=
  if EscapesNext front then 0 else if c = '{' then 1 else if c = '}' then -1 else 0

/-- How many more braces a text opens than it closes, where it stands behind `front`. -/
def surplus (front : Text) : Text → Int
  | [] => 0
  | c :: rest => braceWeight front c + surplus (front ++ [c]) rest

section
variable {front text rest : Text} {c : Char}

theorem trailingSlashes_concat (text : Text) (c : Char) :
    trailingSlashes (text ++ [c]) = if c = '\\' then trailingSlashes text + 1 else 0 := by
  simp only [trailingSlashes, List.reverse_append, List.reverse_singleton, List.singleton_append,
    List.takeWhile_cons, beq_iff_eq]
  split <;> rfl

/-- Whether a character is escaped, as it is passed on from the characters before it, is told by the
run right before it. -/
theorem foldl_escapes_iff (text : Text) : text.foldl escapes false = true ↔ EscapesNext text := by
  induction text using List.reverseRecOn with
  | nil => decide
  | append_singleton text c ih =>
    rw [List.foldl_append, List.foldl_cons, List.foldl_nil, EscapesNext, trailingSlashes_concat]
    rw [EscapesNext] at ih
    by_cases hc : c = '\\'
    · subst hc
      rw [if_pos rfl, escapes, beq_self_eq_true, Bool.true_and, Bool.not_eq_true',
        ← Bool.not_eq_true, ih]
      omega
    · simp [escapes, hc]

theorem foldl_escapes_of_not (h : ¬EscapesNext front) : front.foldl escapes false = false :=
  Bool.eq_false_iff.mpr (mt (foldl_escapes_iff front).mp h)

/-- A run of backslashes does not reach over another character. -/
theorem escapesNext_append_cons (hc : c ≠ '\\') (front text : Text) :
    EscapesNext (front ++ c :: text) ↔ EscapesNext text := by
  have hescapes : escapes (front.foldl escapes false) c = false := by simp [escapes, hc]
  rw [← foldl_escapes_iff, ← foldl_escapes_iff, List.foldl_append, List.foldl_cons, hescapes]

theorem surplus_concat (front text : Text) (c : Char) :
    surplus front (text ++ [c]) = surplus front text + braceWeight (front ++ text) c := by
  induction text generalizing front with
  | nil => simp [surplus]
  | cons d text ih =>
    rw [List.cons_append, surplus, ih, surplus, List.append_assoc, List.singleton_append]
    omega

/-- Behind an opening brace braces count alike whatever stands before it. -/
theorem surplus_append_cons (hc : c ≠ '\\') (front before text : Text) :
    surplus (front ++ c :: before) text = surplus before text := by
  induction text generalizing before with
  | nil => rfl
  | cons d text ih =>
    have hweight : braceWeight (front ++ c :: before) d = braceWeight before d := by
      rw [braceWeight, braceWeight, if_congr (escapesNext_append_cons hc front before) rfl rfl]
    have hrest := ih (before ++ [d])
    rw [← List.cons_append, ← List.append_assoc] at hrest
    rw [surplus, surplus, hweight, hrest]

theorem surplus_opening (hfront : ¬EscapesNext front) (text : Text) :
    surplus front ('{' :: text) = 1 + surplus [] text := by
  have hweight : braceWeight front '{' = 1 := by simp [braceWeight, hfront]
  rw [surplus, hweight, surplus_append_cons (by decide)]

/-! ## Balanced texts by counting -/

theorem foldl_escapes_of_walk? {σ : Type} {step : σ → Bool → Char → Option σ} {state state' : σ}
    {escaped escaped' : Bool} (h : walk? step state escaped text = some (state', escaped')) :
    escaped' = text.foldl escapes escaped := by
  induction text generalizing state escaped with
  | nil =>
    cases h
    rfl
  | cons c rest ih =>
    obtain ⟨next, -, hrest⟩ := walk?_cons_eq_some.mp h
    exact ih hrest

/-- A step changes the depth by the weight of its character. -/
theorem braceStep_eq_some_iff {depth next : Nat} {front : Text} :
    braceStep depth (front.foldl escapes false) c = some next ↔
      (next : Int) = depth + braceWeight front c := by
  unfold braceStep braceWeight
  rw [if_congr (foldl_escapes_iff front) rfl rfl]
  grind

/-- A walk over braces goes through a text exactly when no beginning of it closes more than it
opens. -/
theorem walk?_braceStep_eq_some_iff {depth : Nat} {escaped : Bool} :
    walk? braceStep 0 false text = some (depth, escaped) ↔
      surplus [] text = depth ∧ escaped = text.foldl escapes false ∧
        ∀ start, start <+: text → 0 ≤ surplus [] start := by
  -- at its end a text grows by one character and by one beginning, which is the text itself
  induction text using List.reverseRecOn generalizing depth escaped with
  | nil =>
    constructor
    · intro h
      cases h
      refine ⟨rfl, rfl, fun start hstart => ?_⟩
      rw [List.prefix_nil.mp hstart]
      exact Int.le_refl 0
    · rintro ⟨hdepth, rfl, -⟩
      rw [← Int.natCast_inj.mp hdepth]
      rfl
  | append_singleton text c ih =>
    constructor
    · intro h
      have hescaped := foldl_escapes_of_walk? h
      rw [walk?_append] at h
      obtain ⟨⟨before, escaped'⟩, hwalk, hlast⟩ := Option.bind_eq_some_iff.mp h
      obtain ⟨hbefore, rfl, hstarts⟩ := ih.mp hwalk
      obtain ⟨next, hstep, hnil⟩ := walk?_cons_eq_some.mp hlast
      cases hnil
      have hsurplus : surplus [] (text ++ [c]) = depth := by
        rw [surplus_concat, hbefore, braceStep_eq_some_iff.mp hstep, List.nil_append]
      refine ⟨hsurplus, hescaped, fun start hstart => ?_⟩
      rcases List.prefix_concat_iff.mp hstart with rfl | hshorter
      · omega
      · exact hstarts start hshorter
    · rintro ⟨hdepth, rfl, hstarts⟩
      have hbefore := hstarts text (List.prefix_append text [c])
      have hwalk := ih.mpr ⟨(Int.toNat_of_nonneg hbefore).symm, rfl, fun start hstart =>
        hstarts start (hstart.trans (List.prefix_append text [c]))⟩
      have hstep : braceStep (surplus [] text).toNat (text.foldl escapes false) c = some depth := by
        rw [braceStep_eq_some_iff, Int.toNat_of_nonneg hbefore, ← hdepth, surplus_concat,
          List.nil_append]
      rw [walk?_append, hwalk, List.foldl_append]
      exact walk?_cons_eq_some.mpr ⟨depth, hstep, rfl⟩

/-- A text is balanced when it closes as many braces as it opens, no beginning of it closes more,
and it escapes nothing behind it. -/
theorem isBalanced_iff :
    IsBalanced text ↔
      surplus [] text = 0 ∧ (∀ start, start <+: text → 0 ≤ surplus [] start) ∧
        ¬EscapesNext text := by
  rw [IsBalanced, walk?_braceStep_eq_some_iff, ← foldl_escapes_iff, Bool.not_eq_true]
  tauto

/-! ## Groups -/

/-- `group` stands behind `front` from a brace that opens it to the brace that brings the number of
its open braces back to zero for the first time. -/
structure IsGroup (front group : Text) : Prop where
  opens : group.head? = some '{'
  active : ¬EscapesNext front
  returns : surplus front group = 0
  first : ∀ start, start <+: group → start ≠ [] → start ≠ group → 0 < surplus front start

/-- Whether no brace in a text closes the group that is opened right before it, behind `front`. -/
def NeverCloses (front text : Text) : Prop :=
  ∀ group, group <+: '{' :: text → ¬IsGroup front group

theorem surplus_braced (hfront : ¬EscapesNext front) (htext : ¬EscapesNext text) :
    surplus front (Text.braced text) = surplus [] text := by
  have hclose : braceWeight text '}' = -1 := by simp [braceWeight, htext]
  rw [Text.braced, List.cons_append, surplus_opening hfront, surplus_concat, List.nil_append,
    hclose]
  omega

/-- Inside a group no beginning closes more than it opens, since the group would end there. -/
theorem IsGroup.surplus_nonneg {start : Text} (h : IsGroup front ('{' :: text))
    (hstart : start <+: text) (hne : start ≠ text) : 0 ≤ surplus [] start := by
  have hpos := h.first ('{' :: start) ((List.prefix_cons_inj '{').mpr hstart)
    (List.cons_ne_nil '{' start) (fun heq => hne (List.cons.inj heq).2)
  rw [surplus_opening h.active] at hpos
  omega

/-- A group is a balanced text in braces. -/
theorem isGroup_iff {group : Text} :
    IsGroup front group ↔
      ¬EscapesNext front ∧ ∃ inside, group = Text.braced inside ∧ IsBalanced inside := by
  constructor
  · intro h
    obtain ⟨tail, rfl⟩ := List.head?_eq_some_iff.mp h.opens
    have hreturns := h.returns
    rw [surplus_opening h.active] at hreturns
    -- the count comes back to zero with the last character, which is a closing brace
    rcases List.eq_nil_or_concat' tail with rfl | ⟨inside, c, rfl⟩
    · cases hreturns
    have hstarts (start : Text) (hstart : start <+: inside) : 0 ≤ surplus [] start := by
      refine h.surplus_nonneg (hstart.trans (List.prefix_append inside [c])) ?_
      rintro rfl
      have hlength := hstart.length_le
      rw [List.length_append] at hlength
      exact absurd hlength (by simp)
    have hinside := hstarts inside (List.prefix_refl inside)
    rw [surplus_concat, List.nil_append] at hreturns
    have hlast : ¬EscapesNext inside ∧ c = '}' ∧ surplus [] inside = 0 := by
      unfold braceWeight at hreturns
      grind
    obtain ⟨hescapes, rfl, hzero⟩ := hlast
    exact ⟨h.active, inside, rfl, isBalanced_iff.mpr ⟨hzero, hstarts, hescapes⟩⟩
  · rintro ⟨hfront, inside, rfl, hinside⟩
    obtain ⟨hzero, hstarts, hescapes⟩ := isBalanced_iff.mp hinside
    refine ⟨rfl, hfront, (surplus_braced hfront hescapes).trans hzero,
      fun start hstart hne hne' => ?_⟩
    rcases List.prefix_concat_iff.mp hstart with heq | hstart
    · exact absurd heq hne'
    rcases List.prefix_cons_iff.mp hstart with rfl | ⟨start, rfl, hinside⟩
    · exact absurd rfl hne
    · rw [surplus_opening hfront]
      have := hstarts start hinside
      omega

/-! ## The cut at a brace -/

theorem cutAtBrace_eq_some_iff {inside after : Text} :
    cutAtBrace 1 false text = some (inside, after) ↔
      text = inside ++ '}' :: after ∧ IsBalanced inside := by
  constructor
  · intro h
    refine ⟨cutAtBrace_eq h, ?_⟩
    rcases walk_or_cut 0 false text with ⟨final, hwalk⟩ | ⟨inside', after', hcut, hwalk⟩
    · have hcut := cutAtBrace_walk hwalk []
      rw [List.append_nil, h] at hcut
      cases hcut
    · obtain ⟨rfl, rfl⟩ := Prod.mk.inj (Option.some.inj (h.symm.trans hcut))
      exact hwalk
  · rintro ⟨rfl, hinside⟩
    exact cutAtBrace_append hinside after

/-- The cut finds no brace exactly where none closes the group. -/
theorem cutAtBrace_eq_none_iff (hfront : ¬EscapesNext front) :
    cutAtBrace 1 false text = none ↔ NeverCloses front text := by
  constructor
  · intro h group hgroup hclosed
    obtain ⟨-, inside, rfl, hinside⟩ := isGroup_iff.mp hclosed
    obtain ⟨after, hafter⟩ := hgroup
    obtain rfl : inside ++ '}' :: after = text := by simpa [Text.braced] using hafter
    rw [cutAtBrace_append hinside] at h
    cases h
  · intro h
    by_contra hne
    obtain ⟨⟨inside, after⟩, hcut⟩ := Option.ne_none_iff_exists'.mp hne
    obtain ⟨rfl, hinside⟩ := cutAtBrace_eq_some_iff.mp hcut
    exact h (Text.braced inside) ⟨after, by simp [Text.braced]⟩
      (isGroup_iff.mpr ⟨hfront, inside, rfl, hinside⟩)

/-! ## Groups by offset -/

theorem stands_front (h : ¬EscapesNext front) (text : Text) :
    Checked.Stands (front ++ text) (byteSize front) false text :=
  ⟨front, rfl, rfl, (foldl_escapes_of_not h).symm⟩

/-- The search for a closing brace looks for the end of the group that is opened where it begins. -/
theorem matchingBrace_opening (hfront : ¬EscapesNext front) (text : Text) :
    matchingBrace (front ++ '{' :: text) (byteSize front) =
      ((cutAtBrace 1 false text).map fun cut => byteSize front + 1 + byteSize cut.1).getD
        (lastOffset (front ++ '{' :: text)) := by
  have hstands := stands_front hfront ('{' :: text)
  have hloop := Checked.closingBrace_eq_matchingBrace hstands
  rw [Checked.closingBrace_open hstands] at hloop
  exact (Except.ok.inj hloop).symm

/-- The place behind an offset lies in front of whatever stands behind the offset. -/
theorem exists_advance_append (goal : Nat) (before rest : Text) (offset : Nat) (escaped : Bool)
    (h : goal ≤ offset + byteSize before) :
    ∃ passed kept, before = passed ++ kept ∧ goal ≤ offset + byteSize passed ∧
      Place.advance goal (before ++ rest) offset escaped =
        ⟨kept ++ rest, offset + byteSize passed, passed.foldl escapes escaped⟩ := by
  induction before generalizing offset escaped with
  | nil =>
    refine ⟨[], [], rfl, h, ?_⟩
    cases rest with
    | nil => rfl
    | cons c rest => exact if_pos h
  | cons c before ih =>
    by_cases hgoal : goal ≤ offset
    · exact ⟨[], c :: before, rfl, hgoal, if_pos hgoal⟩
    · rw [Checked.byteSize_cons, ← Nat.add_assoc] at h
      obtain ⟨passed, kept, rfl, hle, hadvance⟩ := ih _ (escapes escaped c) h
      have hsize : offset + byteSize (c :: passed) = offset + c.utf8Size + byteSize passed :=
        (Nat.add_assoc _ _ _).symm
      refine ⟨c :: passed, kept, rfl, by rwa [hsize], ?_⟩
      rw [List.cons_append, Place.advance, if_neg hgoal, hadvance, hsize]
      rfl

/-- `front` ends where the first unescaped opening brace at or behind an offset stands, and `rest`
is what follows that brace. -/
structure IsFirstOpening (text : Text) (offset : Nat) (front rest : Text) : Prop where
  split : text = front ++ '{' :: rest
  active : ¬EscapesNext front
  behind : offset ≤ byteSize front
  first : ∀ front' rest', text = front' ++ '{' :: rest' → ¬EscapesNext front' →
    offset ≤ byteSize front' → byteSize front ≤ byteSize front'

/-- The search for an opening brace passes over a text in which all of them are escaped. -/
theorem afterOpenBrace?_append {kept : Text} {escaped : Bool}
    (hkept : ∀ before behind, kept = before ++ '{' :: behind →
      before.foldl escapes escaped = true)
    (hlast : kept.foldl escapes escaped = false) (rest : Text) :
    afterOpenBrace? escaped (kept ++ '{' :: rest) = some rest := by
  induction kept generalizing escaped with
  | nil => exact if_pos ⟨hlast, rfl⟩
  | cons c kept ih =>
    have hpass : ¬(escaped = false ∧ c = '{') := by
      rintro ⟨rfl, rfl⟩
      cases hkept [] kept rfl
    rw [List.cons_append, afterOpenBrace?, if_neg hpass]
    exact ih (fun before behind heq => hkept (c :: before) behind (congrArg (c :: ·) heq)) hlast

/-- The first group at or behind an offset begins at the first unescaped opening brace there. -/
theorem nextGroupAt_of_isFirstOpening {offset : Nat} (h : IsFirstOpening text offset front rest) :
    nextGroupAt text offset = withOffset text (some (braceContent rest)) := by
  obtain ⟨passed, kept, rfl, hle, hadvance⟩ :=
    exists_advance_append offset front ('{' :: rest) 0 false (by simpa using h.behind)
  rw [Nat.zero_add] at hle
  have hkept (before behind : Text) (heq : kept = before ++ '{' :: behind) :
      before.foldl escapes (passed.foldl escapes false) = true := by
    rw [← List.foldl_append, foldl_escapes_iff]
    by_contra hactive
    -- an unescaped brace in between would be an earlier opening
    have hsplit := h.split
    have hearlier := h.first (passed ++ before) (behind ++ '{' :: rest)
      (by rw [hsplit, heq]; simp) hactive (by rw [Checked.byteSize_append]; omega)
    rw [heq, Checked.byteSize_append, Checked.byteSize_append, Checked.byteSize_append,
      Checked.byteSize_cons] at hearlier
    have := Char.utf8Size_pos '{'
    omega
  have hlast : kept.foldl escapes (passed.foldl escapes false) = false := by
    rw [← List.foldl_append]
    exact foldl_escapes_of_not h.active
  rw [nextGroupAt, Place.ofOffset, h.split, hadvance, nextGroup?,
    afterOpenBrace?_append hkept hlast, Option.map_some]

/-! ## Groups that do not close -/

/-- What is left of an unclosed group is the whole of it unless it ends in the delimiter. -/
theorem unclosed_eq_self_iff {delimiter : Char} :
    unclosed delimiter text = text ↔ text.getLast? ≠ some delimiter := by
  unfold unclosed
  split
  next hlast =>
    refine iff_of_false (fun heq => ?_) (not_not_intro hlast)
    obtain ⟨init, rfl⟩ := List.getLast?_eq_some_iff.mp hlast
    simp at heq
  next hlast => exact iff_of_true rfl hlast

/-- A text that is cut at the end of its group is that group when nothing is left behind it. -/
theorem isGroup_opening_iff {inside after : Text}
    (hcut : cutAtBrace 1 false text = some (inside, after)) :
    IsGroup [] ('{' :: text) ↔ after = [] := by
  obtain ⟨rfl, hinside⟩ := cutAtBrace_eq_some_iff.mp hcut
  constructor
  · intro h
    obtain ⟨-, inside', htext, hinside'⟩ := isGroup_iff.mp h
    have htail : inside ++ '}' :: after = inside' ++ ['}'] := (List.cons.inj htext).2
    rw [htail, cutAtBrace_append hinside'] at hcut
    exact (Prod.mk.inj (Option.some.inj hcut)).2.symm
  · rintro rfl
    exact isGroup_iff.mpr ⟨by decide, inside, rfl, hinside⟩

/-- What counts as one group is a group, or ends in a closing brace without closing. -/
theorem isFullyBraced_iff (text : Text) :
    isFullyBraced text = true ↔
      IsGroup [] text ∨
        ∃ rest, text = '{' :: rest ∧ NeverCloses [] rest ∧ rest.getLast? = some '}' := by
  by_cases hhead : text.head? = some '{'
  · obtain ⟨rest, rfl⟩ := List.head?_eq_some_iff.mp hhead
    have hnone : cutAtBrace 1 false rest = none ↔ NeverCloses [] rest :=
      cutAtBrace_eq_none_iff (by decide)
    rw [isFullyBraced, Bool.and_eq_true_iff, beq_iff_eq]
    cases hcut : cutAtBrace 1 false rest with
    | none =>
      have hnever := hnone.mp hcut
      have hgroup : ¬IsGroup [] ('{' :: rest) := hnever _ (List.prefix_refl _)
      simp [hgroup, hnever]
    | some cut =>
      obtain ⟨inside, after⟩ := cut
      have hnever : ¬NeverCloses [] rest := by simp [← hnone, hcut]
      obtain ⟨hrest, -⟩ := cutAtBrace_eq_some_iff.mp hcut
      have hlast : after = [] → rest.getLast? = some '}' := by
        rintro rfl
        rw [hrest, List.getLast?_concat]
      simpa [isGroup_opening_iff hcut, hnever] using hlast
  · refine iff_of_false (fun h => ?_) (not_or.mpr ⟨fun h => hhead h.opens, ?_⟩)
    · obtain ⟨inside, rfl⟩ := Checked.exists_inside_of_isFullyBraced h
      exact hhead rfl
    · rintro ⟨rest, rfl, -⟩
      exact hhead rfl

end

/-! ## The ends of groups -/

/-- Matching a brace is exact on balanced groups. Behind any text that does not escape it, a group
around a balanced content ends at the brace behind that content, and is read as that content; the
search for the end of a group that never closes answers the last offset. The loops over bytes, which
look for an escape backwards, answer the same. -/
theorem matchingBrace_groupAt (front : Text) (hfront : ¬EscapesNext front) :
    (∀ content after, IsBalanced content →
      matchingBrace (front ++ (Text.braced content ++ after)) (byteSize front) =
          byteSize front + 1 + byteSize content ∧
        groupAt (front ++ (Text.braced content ++ after)) (byteSize front) =
          some (content, byteSize front + byteSize content + 2)) ∧
    (∀ rest, NeverCloses front rest →
      matchingBrace (front ++ '{' :: rest) (byteSize front) =
        byteSize (front ++ '{' :: rest) - 1) ∧
    ∀ rest,
      Checked.closingBrace (front ++ '{' :: rest) 0 (byteSize front) =
          .ok (matchingBrace (front ++ '{' :: rest) (byteSize front)) ∧
        Checked.group (front ++ '{' :: rest) (byteSize front) =
          .ok (groupAt (front ++ '{' :: rest) (byteSize front)) := by
  refine ⟨fun content after hcontent => ⟨?_, ?_⟩, fun rest hrest => ?_, fun rest => ?_⟩
  · have htext : Text.braced content ++ after = '{' :: (content ++ '}' :: after) := by
      simp [Text.braced]
    rw [htext, matchingBrace_opening hfront, cutAtBrace_append hcontent]
    rfl
  · have hstands := stands_front hfront (Text.braced content ++ after)
    have hbehind := hstands.append.offsetOf_eq
    have hsize : byteSize (Text.braced content) = byteSize content + 2 :=
      Checked.byteSize_braced content []
    rw [groupAt, hstands.ofOffset, if_neg (Nat.lt_irrefl _)]
    show withOffset _ (group? (Text.braced content ++ after)) = _
    rw [group?_braced hcontent, withOffset, Option.map_some]
    simp only [hbehind, hsize, Nat.add_assoc]
  · rw [matchingBrace_opening hfront, (cutAtBrace_eq_none_iff hfront).mpr hrest]
    rfl
  · have hstands := stands_front hfront ('{' :: rest)
    exact ⟨Checked.closingBrace_eq_matchingBrace hstands, Checked.group_eq hstands⟩

/-- A group with a group inside and an escaped brace, behind two backslashes; and one that is left
open although it ends in the brace of an inner group. -/
theorem matchingBrace_groupAt_nested :
    let front : Text := "a\\\\"
    let content : Text := "b\\\x7d\x7bé\x7d"
    let rest : Text := "d\x7be\x7d"
    ¬EscapesNext front ∧ IsBalanced content ∧ NeverCloses front rest ∧
      matchingBrace (front ++ (Text.braced content ++ "\x7d")) 3 = 11 ∧
      groupAt (front ++ (Text.braced content ++ "\x7d")) 3 = some (content, 12) ∧
      matchingBrace (front ++ '{' :: rest) 3 = 7 := by
  intro front content rest
  have hfront : ¬EscapesNext front := by decide
  have hcontent : IsBalanced content := by decide
  have hrest : NeverCloses front rest := (cutAtBrace_eq_none_iff hfront).mp rfl
  obtain ⟨hclosed, hopen, -⟩ := matchingBrace_groupAt front hfront
  obtain ⟨hmatch, hgroup⟩ := hclosed content "\x7d" hcontent
  exact ⟨hfront, hcontent, hrest, hmatch, hgroup, hopen rest hrest⟩

/-- An unclosed group is taken for a closed one exactly when its text ends in a closing brace. A
text counts as one group from its first character to its last when it is one, or when it opens one
that never closes and ends in a closing brace; and the first group at or behind an offset, if it
never closes, has for its content all that follows its opening brace, without a closing brace at the
end. -/
theorem isFullyBraced_nextGroupAt_iff (text : Text) :
    (isFullyBraced text = true ↔
      IsGroup [] text ∨
        ∃ rest, text = '{' :: rest ∧ NeverCloses [] rest ∧ rest.getLast? = some '}') ∧
    ∀ offset front rest, IsFirstOpening text offset front rest → NeverCloses front rest →
      nextGroupAt text offset = some (unclosed '}' rest, byteSize text) ∧
        (nextGroupAt text offset = some (rest, byteSize text) ↔ rest.getLast? ≠ some '}') := by
  refine ⟨isFullyBraced_iff text, fun offset front rest hopening hnever => ?_⟩
  have hcut := (cutAtBrace_eq_none_iff hopening.active).mpr hnever
  have hgroup : nextGroupAt text offset = some (unclosed '}' rest, byteSize text) := by
    rw [nextGroupAt_of_isFirstOpening hopening, braceContent, hcut]
    rfl
  refine ⟨hgroup, ?_⟩
  rw [hgroup, Option.some.injEq, Prod.mk.injEq, and_iff_left rfl, unclosed_eq_self_iff]

/-- From inside a character and over an escaped brace, to a group whose last brace is escaped. -/
theorem isFullyBraced_nextGroupAt_escaped :
    let text : Text := "é\\\x7b\x7bc\\\x7d"
    let front : Text := "é\\\x7b"
    let rest : Text := "c\\\x7d"
    IsFirstOpening text 1 front rest ∧ NeverCloses front rest ∧
      nextGroupAt text 1 = some ("c\\".toList, 8) ∧ nextGroupAt text 1 ≠ some (rest, 8) := by
  intro text front rest
  have hopening : IsFirstOpening text 1 front rest := by
    refine ⟨rfl, by decide, by decide, fun front' rest' htext hactive _ => ?_⟩
    have hchars : 'é' :: '\\' :: '{' :: '{' :: rest = front' ++ '{' :: rest' := htext
    rcases front' with _ | ⟨a, _ | ⟨b, _ | ⟨c, tail⟩⟩⟩
    · cases hchars
    · cases hchars
    · cases hchars
      exact absurd (by decide) hactive
    · obtain ⟨rfl, rfl, rfl, -⟩ :
          'é' = a ∧ '\\' = b ∧ '{' = c ∧ '{' :: rest = tail ++ '{' :: rest' := by
        simpa using hchars
      show byteSize front ≤ byteSize (front ++ tail)
      rw [Checked.byteSize_append]
      exact Nat.le_add_right _ _
  have hnever : NeverCloses front rest := (cutAtBrace_eq_none_iff hopening.active).mp rfl
  obtain ⟨hgroup, hiff⟩ := (isFullyBraced_nextGroupAt_iff text).2 1 front rest hopening hnever
  exact ⟨hopening, hnever, hgroup, fun heq => hiff.mp heq rfl⟩

/-- The brace of an inner group is taken for that of the outer one, which never closes. -/
theorem isFullyBraced_unclosed :
    let text : Text := "\x7b\x7ba\x7d"
    let rest : Text := "\x7ba\x7d"
    isFullyBraced text = true ∧ ¬IsGroup [] text ∧
      IsFirstOpening text 0 [] rest ∧ NeverCloses [] rest ∧
      nextGroupAt text 0 ≠ some (rest, byteSize text) := by
  intro text rest
  have hnever : NeverCloses [] rest := (cutAtBrace_eq_none_iff (by decide)).mp rfl
  exact ⟨by decide, hnever text (List.prefix_refl text),
    ⟨rfl, by decide, Nat.le_refl 0, fun _ _ _ _ _ => Nat.zero_le _⟩, hnever, by decide⟩

end TexFigure.Source
