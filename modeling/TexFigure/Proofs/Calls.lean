import TexFigure.Expression.Rename
import TexFigure.Proofs.Occurrence
/-!
# Calls in a text

A text is made up of outermost calls, of names that are not called, and of other characters, and
`calls_induction` is the induction over these. A name is called when a closed argument in
parentheses directly follows it, where closed means that the parentheses close each other
(`IsClosed`).

Replacing calls by calls keeps the calls of a text apart from each other and from what stands
between them, so that a second replacement finds exactly the calls of the first
(`mapCalls_mapCalls`). Where no call is changed, nothing is (`mapCalls_of_not_hasCall`).
-/

namespace TexFigure.Expression

/-! ## Parentheses -/

/-- The number of open parentheses behind a character. -/
def parenStep (depth : Nat) (c : Char) : Option Nat :=
  if c = '(' then some (depth + 1)
  else if c = ')' then (if depth = 0 then none else some (depth - 1))
  else some depth

/-- Whether the parentheses of a text close each other. -/
def IsClosed (text : Text) : Prop := text.foldlM parenStep 0 = some 0

instance (text : Text) : Decidable (IsClosed text) := inferInstanceAs (Decidable (_ = _))

theorem foldlM_parenStep_cons {depth final : Nat} {c : Char} {rest : Text} :
    (c :: rest).foldlM parenStep depth = some final ↔
      ∃ next, parenStep depth c = some next ∧ rest.foldlM parenStep next = some final := by
  rw [List.foldlM_cons]
  exact Option.bind_eq_some_iff

/-- Parentheses around a text do not change its steps. -/
theorem IsClosed.walk {text : Text} (h : IsClosed text) (depth : Nat) :
    text.foldlM parenStep depth = some depth := by
  -- a walk between any two depths, since the text inside is not closed at every character
  suffices ∀ {inner final : Nat}, text.foldlM parenStep inner = some final →
      text.foldlM parenStep (inner + depth) = some (final + depth) by
    simpa using this h
  clear h
  induction text with
  | nil =>
    intro inner final h
    cases h
    rfl
  | cons c rest ih =>
    intro inner final h
    obtain ⟨next, hstep, hrest⟩ := foldlM_parenStep_cons.mp h
    refine foldlM_parenStep_cons.mpr ⟨next + depth, ?_, ih hrest⟩
    unfold parenStep at hstep ⊢
    grind

theorem IsClosed.append {text text' : Text} (h : IsClosed text) (h' : IsClosed text') :
    IsClosed (text ++ text') := by
  rw [IsClosed, List.foldlM_append, h]
  exact h'

/-- The depth at which the cut at a parenthesis goes on behind a character. -/
theorem cutAtParen_cons {depth next : Nat} {c : Char} (h : parenStep depth c = some next)
    (rest : Text) :
    cutAtParen (depth + 1) (c :: rest) =
      (cutAtParen (next + 1) rest).map fun (inside, after) => (c :: inside, after) := by
  have hpass : ¬(c = ')' ∧ depth + 1 = 1) := by
    rintro ⟨rfl, hdepth⟩
    obtain rfl : depth = 0 := by omega
    cases h
  have hdepth : (if c = '(' then depth + 1 + 1 else if c = ')' then depth + 1 - 1 else depth + 1)
      = next + 1 := by
    unfold parenStep at h
    grind
  rw [cutAtParen, if_neg hpass]
  simp only [hdepth]

/-- The only step that is refused is a parenthesis that closes nothing. -/
theorem eq_of_parenStep_eq_none {depth : Nat} {c : Char} (h : parenStep depth c = none) :
    c = ')' ∧ depth = 0 := by
  unfold parenStep at h
  grind

/-- The cut at a parenthesis passes over whatever a walk passes over. -/
theorem cutAtParen_walk {depth depth' : Nat} {text : Text}
    (h : text.foldlM parenStep depth = some depth') (rest : Text) :
    cutAtParen (depth + 1) (text ++ rest) =
      (cutAtParen (depth' + 1) rest).map fun (inside, after) => (text ++ inside, after) := by
  induction text generalizing depth with
  | nil =>
    cases h
    simp
  | cons c text ih =>
    obtain ⟨next, hstep, hrest⟩ := foldlM_parenStep_cons.mp h
    rw [List.cons_append, cutAtParen_cons hstep, ih hrest]
    simp only [Option.map_map]
    rfl

/-- The first closing parenthesis behind a closed text closes the group around it. -/
theorem cutAtParen_append {text : Text} (h : IsClosed text) (after : Text) :
    cutAtParen 1 (text ++ ')' :: after) = some (text, after) := by
  have hcut := cutAtParen_walk h (')' :: after)
  rw [show (0 + 1 : Nat) = 1 from rfl] at hcut
  rw [hcut, cutAtParen, if_pos ⟨rfl, rfl⟩]
  simp

/-- What a cut takes is a walk down to the ground. -/
theorem foldlM_of_cutAtParen {depth : Nat} {text inside after : Text}
    (h : cutAtParen (depth + 1) text = some (inside, after)) :
    inside.foldlM parenStep depth = some 0 := by
  induction text generalizing depth inside with
  | nil => cases h
  | cons c rest ih =>
    cases hstep : parenStep depth c with
    | none =>
      -- the cut ends here, and only on the ground
      obtain ⟨rfl, rfl⟩ := eq_of_parenStep_eq_none hstep
      rw [cutAtParen, if_pos ⟨rfl, rfl⟩] at h
      cases h
      rfl
    | some next =>
      rw [cutAtParen_cons hstep] at h
      obtain ⟨⟨i, a⟩, hcut, heq⟩ := Option.map_eq_some_iff.mp h
      obtain ⟨rfl, rfl⟩ := Prod.mk.inj heq
      exact foldlM_parenStep_cons.mpr ⟨next, hstep, ih hcut⟩

/-- The argument of a call is closed. -/
theorem isClosed_of_cutAtParen {text inside after : Text}
    (h : cutAtParen 1 text = some (inside, after)) : IsClosed inside :=
  @foldlM_of_cutAtParen 0 _ _ _ h

/-- Nothing is cut exactly when no parenthesis closes more than was opened. -/
theorem cutAtParen_eq_none_iff {depth : Nat} {text : Text} :
    cutAtParen (depth + 1) text = none ↔ (text.foldlM parenStep depth).isSome = true := by
  induction text generalizing depth with
  | nil => exact iff_of_true rfl rfl
  | cons c rest ih =>
    cases hstep : parenStep depth c with
    | none =>
      obtain ⟨rfl, rfl⟩ := eq_of_parenStep_eq_none hstep
      rw [cutAtParen, if_pos ⟨rfl, rfl⟩, List.foldlM_cons, hstep]
      exact iff_of_false (by simp) (by simp)
    | some next =>
      rw [cutAtParen_cons hstep, Option.map_eq_none_iff, ih, List.foldlM_cons, hstep]
      rfl

/-! ## Calls -/

/-- Whether a text is a name: a letter and characters that continue it. -/
def IsName : Text → Prop
  | [] => False
  | c :: rest => c.isAlpha = true ∧ rest.all continuesName = true

theorem continuesName_of_isAlpha {c : Char} (h : c.isAlpha = true) : continuesName c = true := by
  simp [continuesName, Char.isAlphanum, h]

/-- Every character of a name continues one. -/
theorem IsName.continues {name : Text} (h : IsName name) {c : Char} (hc : c ∈ name) :
    continuesName c = true := by
  cases name with
  | nil => cases hc
  | cons d rest =>
    rcases List.mem_cons.mp hc with rfl | hc
    · exact continuesName_of_isAlpha h.1
    · exact List.all_eq_true.mp h.2 c hc

/-- A character that continues no name is in none. -/
theorem IsName.not_mem {name : Text} (h : IsName name) {c : Char}
    (hc : continuesName c = false) : c ∉ name := fun hmem => by
  rw [h.continues hmem] at hc
  cases hc

theorem isName_takeWhile {c : Char} (h : c.isAlpha = true) (rest : Text) :
    IsName (c :: rest.takeWhile continuesName) :=
  ⟨h, List.all_takeWhile⟩

/-- Whether a text does not go on with a name that stands before it. -/
def StandsApart (text : Text) : Prop := ∀ c ∈ text.head?, continuesName c = false

theorem StandsApart.not_isAlpha {c : Char} {rest : Text} (h : StandsApart (c :: rest)) :
    c.isAlpha = false := by
  rw [← Bool.not_eq_true]
  intro halpha
  have hc := h c rfl
  rw [continuesName_of_isAlpha halpha] at hc
  cases hc

theorem standsApart_dropWhile (text : Text) : StandsApart (text.dropWhile continuesName) := by
  intro c hc
  have h := List.head?_dropWhile_not continuesName text
  rw [show (text.dropWhile continuesName).head? = some c from hc] at h
  exact h

section
variable {onCall : Text → Text → Text}

theorem mapCalls_nil : mapCalls onCall [] = [] := by
  rw [mapCalls]

/-- A character that starts no name is kept. -/
theorem mapCalls_cons {c : Char} (h : c.isAlpha = false) (rest : Text) :
    mapCalls onCall (c :: rest) = c :: mapCalls onCall rest := by
  rw [mapCalls, if_neg (by simp [h])]

/-- A call is replaced. -/
theorem mapCalls_writeCall {name argument : Text} (hname : IsName name)
    (hargument : IsClosed argument) (rest : Text) :
    mapCalls onCall (writeCall name argument ++ rest) =
      onCall name argument ++ mapCalls onCall rest := by
  cases name with
  | nil => exact hname.elim
  | cons c name =>
    have happart : StandsApart ('(' :: (argument ++ ')' :: rest)) := by
      intro d hd
      cases hd
      rfl
    obtain ⟨htake, hdrop⟩ := Text.takeWhile_append hname.2 happart
    have hcall : callArgument? ('(' :: (argument ++ ')' :: rest)) = some (argument, rest) :=
      cutAtParen_append hargument rest
    have htext : writeCall (c :: name) argument ++ rest
        = c :: (name ++ '(' :: (argument ++ ')' :: rest)) := by
      simp [writeCall]
    rw [htext, mapCalls, if_pos hname.1]
    simp only [htake, hdrop]
    split
    next found after hfound =>
      rw [hdrop, hcall] at hfound
      cases hfound
      rfl
    next hnone =>
      rw [hdrop, hcall] at hnone
      cases hnone

/-- A name that is not called is kept. -/
theorem mapCalls_name {name rest : Text} (hname : IsName name) (hrest : StandsApart rest)
    (hcall : callArgument? rest = none) :
    mapCalls onCall (name ++ rest) = name ++ mapCalls onCall rest := by
  cases name with
  | nil => exact hname.elim
  | cons c name =>
    obtain ⟨htake, hdrop⟩ := Text.takeWhile_append hname.2 hrest
    rw [List.cons_append, mapCalls, if_pos hname.1]
    simp only [htake, hdrop]
    split
    next found after hfound =>
      rw [hdrop, hcall] at hfound
      cases hfound
    next => rfl

end

/-- A text is empty, or starts with a call, with a name that is not called, or with a character
that starts no name. -/
theorem calls_induction {motive : Text → Prop} (nil : motive [])
    (call : ∀ name argument rest, IsName name → IsClosed argument → motive rest →
      motive (writeCall name argument ++ rest))
    (name : ∀ name rest, IsName name → StandsApart rest → callArgument? rest = none →
      motive rest → motive (name ++ rest))
    (other : ∀ c rest, c.isAlpha = false → motive rest → motive (c :: rest)) (text : Text) :
    motive text := by
  -- the cases are those in which `mapCalls` calls itself, whatever it does with a call
  fun_induction mapCalls writeCall text with
  | case1 => exact nil
  | case2 c rest halpha word argument after h ih =>
    have hrest : rest.dropWhile continuesName = '(' :: (argument ++ ')' :: after) := by
      unfold callArgument? at h
      split at h
      next inner heq => rw [heq, cutAtParen_eq h]
      next => cases h
    have htext : c :: rest = writeCall word argument ++ after := by
      conv_lhs => rw [← List.takeWhile_append_dropWhile (p := continuesName) (l := rest), hrest]
      simp [writeCall, word]
    rw [htext]
    refine call word argument after (isName_takeWhile halpha rest) ?_ ih
    rw [hrest] at h
    exact isClosed_of_cutAtParen h
  | case3 c rest halpha word h ih =>
    have htext : c :: rest = word ++ rest.dropWhile continuesName := by
      rw [List.cons_append, List.takeWhile_append_dropWhile]
    rw [htext]
    exact name word _ (isName_takeWhile halpha rest) (standsApart_dropWhile rest) h ih
  | case4 c rest halpha ih => exact other c rest (Bool.eq_false_iff.mpr halpha) ih

/-! ## Calls that are replaced by calls -/

/-- A call leaves every depth as it is. -/
theorem isClosed_writeCall {name argument : Text} (hname : IsName name)
    (hargument : IsClosed argument) : IsClosed (writeCall name argument) := by
  have hsilent : IsClosed name := by
    have hnot (c : Char) (hc : c ∈ name) : parenStep 0 c = some 0 := by
      have hopen : c ≠ '(' := by
        rintro rfl
        exact hname.not_mem rfl hc
      have hclose : c ≠ ')' := by
        rintro rfl
        exact hname.not_mem rfl hc
      rw [parenStep, if_neg hopen, if_neg hclose]
    clear hname
    induction name with
    | nil => rfl
    | cons c rest ih =>
      refine foldlM_parenStep_cons.mpr ⟨0, hnot c List.mem_cons_self, ?_⟩
      exact ih fun d hd => hnot d (List.mem_cons_of_mem _ hd)
  rw [writeCall, List.append_assoc]
  refine hsilent.append ?_
  show (argument ++ [')']).foldlM parenStep 1 = some 0
  rw [List.foldlM_append, hargument.walk 1]
  rfl

/-- Whether every call is replaced by a call. -/
def KeepsCalls (onCall : Text → Text → Text) : Prop :=
  ∀ ⦃name argument : Text⦄, IsName name → IsClosed argument →
    ∃ name' argument', IsName name' ∧ IsClosed argument' ∧
      onCall name argument = writeCall name' argument'

theorem keepsCalls_writeCall : KeepsCalls writeCall := fun name argument hname hargument =>
  ⟨name, argument, hname, hargument, rfl⟩

section
variable {onCall onCall' : Text → Text → Text}

/-- Replacing calls by calls leaves the parentheses as they are. -/
theorem foldlM_mapCalls (h : KeepsCalls onCall) (text : Text) (depth : Nat) :
    (mapCalls onCall text).foldlM parenStep depth = text.foldlM parenStep depth := by
  induction text using calls_induction generalizing depth with
  | nil => rw [mapCalls_nil]
  | call name argument rest hname hargument ih =>
    obtain ⟨name', argument', hname', hargument', heq⟩ := h hname hargument
    rw [mapCalls_writeCall hname hargument, heq, List.foldlM_append, List.foldlM_append,
      (isClosed_writeCall hname hargument).walk, (isClosed_writeCall hname' hargument').walk]
    exact ih depth
  | name name rest hname happart hcall ih =>
    rw [mapCalls_name hname happart hcall, List.foldlM_append, List.foldlM_append]
    exact congrArg _ (funext ih)
  | other c rest halpha ih =>
    rw [mapCalls_cons halpha, List.foldlM_cons, List.foldlM_cons]
    exact congrArg _ (funext ih)

theorem isClosed_mapCalls (h : KeepsCalls onCall) {text : Text} (htext : IsClosed text) :
    IsClosed (mapCalls onCall text) := by
  rw [IsClosed, foldlM_mapCalls h]
  exact htext

/-- A name that is not called stays so when the text behind it is respelled. -/
theorem standsApart_mapCalls (h : KeepsCalls onCall) {text : Text} (happart : StandsApart text)
    (hcall : callArgument? text = none) :
    StandsApart (mapCalls onCall text) ∧ callArgument? (mapCalls onCall text) = none := by
  cases text with
  | nil =>
    rw [mapCalls_nil]
    exact ⟨happart, hcall⟩
  | cons c rest =>
    -- the first character stays, and the parentheses behind it close as they did
    rw [mapCalls_cons happart.not_isAlpha]
    refine ⟨happart, ?_⟩
    unfold callArgument? at hcall ⊢
    split at hcall
    next inner heq =>
      obtain ⟨rfl, rfl⟩ := List.cons.inj heq
      rw [@cutAtParen_eq_none_iff 0] at hcall
      exact cutAtParen_eq_none_iff.mpr (by rwa [foldlM_mapCalls h])
    next hopen =>
      split
      next inner heq => exact absurd (by rw [(List.cons.inj heq).1]) (hopen rest)
      next => rfl

/-- Respelling twice is respelling each call twice. -/
theorem mapCalls_mapCalls (h : KeepsCalls onCall) (text : Text) :
    mapCalls onCall' (mapCalls onCall text) =
      mapCalls (fun name argument => mapCalls onCall' (onCall name argument)) text := by
  induction text using calls_induction with
  | nil => simp only [mapCalls_nil]
  | call name argument rest hname hargument ih =>
    obtain ⟨name', argument', hname', hargument', heq⟩ := h hname hargument
    have hsplit (rest : Text) : mapCalls onCall' (writeCall name' argument' ++ rest) =
        onCall' name' argument' ++ mapCalls onCall' rest :=
      mapCalls_writeCall hname' hargument' rest
    have hone : mapCalls onCall' (writeCall name' argument') = onCall' name' argument' := by
      rw [← List.append_nil (writeCall name' argument'), hsplit, mapCalls_nil, List.append_nil]
    rw [mapCalls_writeCall hname hargument, mapCalls_writeCall hname hargument, heq, hsplit, hone,
      ih]
  | name name rest hname happart hcall ih =>
    obtain ⟨happart', hcall'⟩ := standsApart_mapCalls h happart hcall
    rw [mapCalls_name hname happart hcall, mapCalls_name hname happart' hcall', ih,
      mapCalls_name hname happart hcall]
  | other c rest halpha ih =>
    rw [mapCalls_cons halpha, mapCalls_cons halpha, ih, mapCalls_cons halpha]

/-- A text that is one call is replaced as a whole. -/
theorem mapCalls_call {name argument : Text} (hname : IsName name)
    (hargument : IsClosed argument) :
    mapCalls onCall (writeCall name argument) = onCall name argument := by
  have h : mapCalls onCall (writeCall name argument ++ []) =
      onCall name argument ++ mapCalls onCall [] := mapCalls_writeCall hname hargument []
  rwa [mapCalls_nil, List.append_nil, List.append_nil] at h

/-- Calls that are replaced twice are replaced by calls. -/
theorem KeepsCalls.twice (h : KeepsCalls onCall) (h' : KeepsCalls onCall') :
    KeepsCalls fun name argument => mapCalls onCall' (onCall name argument) := by
  intro name argument hname hargument
  obtain ⟨name', argument', hname', hargument', heq⟩ := h hname hargument
  simp only [heq, mapCalls_call hname' hargument']
  exact h' hname' hargument'

/-- What happens to names and closed arguments decides what happens to a text. -/
theorem mapCalls_congr
    (h : ∀ name argument, IsName name → IsClosed argument →
      onCall name argument = onCall' name argument) (text : Text) :
    mapCalls onCall text = mapCalls onCall' text := by
  induction text using calls_induction with
  | nil => simp only [mapCalls_nil]
  | call name argument rest hname hargument ih =>
    rw [mapCalls_writeCall hname hargument, mapCalls_writeCall hname hargument,
      h name argument hname hargument, ih]
  | name name rest hname happart hcall ih =>
    rw [mapCalls_name hname happart hcall, mapCalls_name hname happart hcall, ih]
  | other c rest halpha ih => rw [mapCalls_cons halpha, mapCalls_cons halpha, ih]

/-- Calls that are replaced by themselves stay. -/
theorem mapCalls_self (text : Text) : mapCalls writeCall text = text := by
  induction text using calls_induction with
  | nil => exact mapCalls_nil
  | call name argument rest hname hargument ih => rw [mapCalls_writeCall hname hargument, ih]
  | name name rest hname happart hcall ih => rw [mapCalls_name hname happart hcall, ih]
  | other c rest halpha ih => rw [mapCalls_cons halpha, ih]

end

/-! ### The ends of a text -/

theorem getLast?_writeCall (name argument : Text) :
    (writeCall name argument).getLast? = some ')' := by
  rw [writeCall, List.getLast?_concat]

section
variable {onCall : Text → Text → Text}

/-- A text ends in the same character when its calls are replaced by calls. -/
theorem getLast?_mapCalls (h : KeepsCalls onCall) (text : Text) :
    (mapCalls onCall text).getLast? = text.getLast? := by
  induction text using calls_induction with
  | nil => rw [mapCalls_nil]
  | call name argument rest hname hargument ih =>
    obtain ⟨name', argument', -, -, heq⟩ := h hname hargument
    rw [mapCalls_writeCall hname hargument, heq, List.getLast?_append, List.getLast?_append, ih,
      getLast?_writeCall, getLast?_writeCall]
  | name name rest hname happart hcall ih =>
    rw [mapCalls_name hname happart hcall, List.getLast?_append, List.getLast?_append, ih]
  | other c rest halpha ih => rw [mapCalls_cons halpha, List.getLast?_cons, List.getLast?_cons, ih]

theorem not_isBlank_of_isName {name rest : Text} (h : IsName name) :
    ∀ c ∈ (name ++ rest).head?, isBlank c = false := by
  intro c hc
  cases name with
  | nil => exact h.elim
  | cons d name =>
    cases hc
    rw [← Bool.not_eq_true]
    intro hblank
    have := h.1.symm.trans (Source.not_isLetter_of_isBlank hblank)
    cases this

/-- A text starts with no blank when its calls are replaced by calls and it did not before. -/
theorem head?_mapCalls (h : KeepsCalls onCall) {text : Text}
    (htext : ∀ c ∈ text.head?, isBlank c = false) :
    ∀ c ∈ (mapCalls onCall text).head?, isBlank c = false := by
  induction text using calls_induction with
  | nil => rwa [mapCalls_nil]
  | call name argument rest hname hargument ih =>
    obtain ⟨name', argument', hname', -, heq⟩ := h hname hargument
    rw [mapCalls_writeCall hname hargument, heq, writeCall, List.append_assoc, List.append_assoc]
    exact not_isBlank_of_isName hname'
  | name name rest hname happart hcall ih =>
    rw [mapCalls_name hname happart hcall]
    exact not_isBlank_of_isName hname
  | other c rest halpha ih =>
    rw [mapCalls_cons halpha]
    exact htext

end

/-! ## Texts without a call -/

/-- Whether a name is called in a text, on any level: it stands before a closed argument in
parentheses, and is not the end of a longer name. -/
def HasCall (name text : Text) : Prop :=
  ∃ before argument after, text = before ++ writeCall name argument ++ after ∧
    IsClosed argument ∧ ∀ c ∈ before.rtakeWhile continuesName, c.isAlpha = false

theorem mem_rtakeWhile_append {p : Char → Bool} {text text' : Text} {c : Char}
    (h : c ∈ (text ++ text').rtakeWhile p) :
    c ∈ text.rtakeWhile p ∨ c ∈ text'.rtakeWhile p := by
  rw [List.rtakeWhile, List.mem_reverse, List.reverse_append, List.takeWhile_append] at h
  rw [List.rtakeWhile, List.rtakeWhile, List.mem_reverse, List.mem_reverse]
  split at h
  next hall =>
    rcases List.mem_append.mp h with h | h
    · refine Or.inr ?_
      rwa [(List.takeWhile_prefix p).eq_of_length hall]
    · exact Or.inl h
  next => exact Or.inr h

/-- A call is found again behind a text that does not end in a name. -/
theorem HasCall.behind {name text : Text} (h : HasCall name text) (before : Text)
    (hbefore : ∀ c ∈ before.rtakeWhile continuesName, c.isAlpha = false) (after : Text) :
    HasCall name (before ++ text ++ after) := by
  obtain ⟨s, argument, t, rfl, hargument, hs⟩ := h
  refine ⟨before ++ s, argument, t ++ after, by simp, hargument, ?_⟩
  intro c hc
  rcases mem_rtakeWhile_append hc with hc | hc
  · exact hbefore c hc
  · exact hs c hc

/-- No name ends behind a character that continues none. -/
theorem rtakeWhile_concat_of_apart {c : Char} (h : continuesName c = false) (text : Text) :
    (text ++ [c]).rtakeWhile continuesName = [] :=
  List.rtakeWhile_concat_neg _ _ _ (by simp [h])

/-- A call does not start at a character that starts no name. -/
theorem HasCall.of_cons {name rest : Text} {c : Char} (hname : IsName name)
    (hc : c.isAlpha = false) (h : HasCall name (c :: rest)) : HasCall name rest := by
  obtain ⟨before, argument, after, heq, hargument, hbefore⟩ := h
  cases before with
  | nil =>
    cases name with
    | nil => exact hname.elim
    | cons d name =>
      obtain ⟨rfl, -⟩ := List.cons.inj heq
      rw [hname.1] at hc
      cases hc
  | cons d before =>
    obtain ⟨rfl, rfl⟩ := List.cons.inj heq
    refine ⟨before, argument, after, rfl, hargument, fun x hx => hbefore x ?_⟩
    rw [List.rtakeWhile, List.mem_reverse] at hx ⊢
    rw [List.reverse_cons, List.takeWhile_append]
    split
    next => exact List.mem_append.mpr (Or.inl ((List.takeWhile_sublist _).subset hx))
    next => exact hx

theorem not_hasCall_nil {name : Text} : ¬HasCall name [] := by
  rintro ⟨before, argument, after, heq, -, -⟩
  simp [writeCall] at heq

/-- What is called occurs. -/
theorem infix_of_hasCall {name text : Text} (h : HasCall name text) : name <:+: text := by
  obtain ⟨before, argument, after, rfl, -, -⟩ := h
  exact ⟨before, '(' :: argument ++ [')'] ++ after, by simp [writeCall]⟩

/-- Calls of other names stay when they stay wherever nothing of the name is called. -/
theorem mapCalls_of_not_hasCall {onCall : Text → Text → Text} {target : Text}
    (htarget : IsName target)
    (hcall : ∀ name argument, IsName name → IsClosed argument → name ≠ target →
      ¬HasCall target argument → onCall name argument = writeCall name argument)
    {text : Text} (h : ¬HasCall target text) : mapCalls onCall text = text := by
  induction text using calls_induction with
  | nil => exact mapCalls_nil
  | call name argument rest hname hargument ih =>
    -- a call of the name here, in the argument or behind it would be one in the text
    have hne : name ≠ target := by
      rintro rfl
      exact h ⟨[], argument, rest, rfl, hargument, by simp⟩
    have hinside : ¬HasCall target argument := by
      intro hin
      have hbehind := hin.behind (name ++ ['('])
        (by rw [rtakeWhile_concat_of_apart rfl]; simp) (')' :: rest)
      exact h (by simpa [writeCall] using hbehind)
    have hrest : ¬HasCall target rest := by
      intro hin
      have hbehind := hin.behind (name ++ '(' :: argument ++ [')'])
        (by rw [rtakeWhile_concat_of_apart rfl]; simp) []
      exact h (by simpa [writeCall] using hbehind)
    rw [mapCalls_writeCall hname hargument, hcall name argument hname hargument hne hinside,
      ih hrest]
  | name name rest hname happart hnone ih =>
    have hrest : ¬HasCall target rest := by
      intro hin
      cases rest with
      | nil => exact not_hasCall_nil hin
      | cons c rest =>
        -- the call starts behind the character that ends the name
        have hbehind := (hin.of_cons htarget happart.not_isAlpha).behind (name ++ [c])
          (by rw [rtakeWhile_concat_of_apart (happart c rfl)]; simp) []
        exact h (by simpa using hbehind)
    rw [mapCalls_name hname happart hnone, ih hrest]
  | other c rest halpha ih =>
    have hrest : ¬HasCall target rest := by
      intro hin
      have hbehind := hin.behind [c]
        (fun d hd => by
          obtain rfl := List.mem_singleton.mp ((List.rtakeWhile_suffix _ _).subset hd)
          exact halpha) []
      exact h (by simpa using hbehind)
    rw [mapCalls_cons halpha, ih hrest]

end TexFigure.Expression
