import TexFigure.Chart.Read
import TexFigure.Proofs.Splitting
/-!
# A chart read by byte offset

The reader of charts once more, as loops over the byte offsets of a source text. Its positions come
back from searches that answer the last byte where a group never closes, from steps of one byte, and
from offsets that are cut down to the length of the text.

> `readReport_in_bounds`: none of that ever reads or cuts outside of the text or inside a character,
> every turn of every loop moves on, and what is read is what the reader of characters reads. The
> same holds of the option lists.

Structure: every reader has a lemma that takes it from a place of the text to a place further on,
with the answer that the reader of characters gives. A loop is taken from place to place by
induction on what is left of the text.
-/

namespace TexFigure.Checked

open Text Source Chart

variable {text rest word : Text} {pos : Nat} {escaped : Bool} {c : Char}

/-! ## The end of a series -/

/-- One turn of the search for the semicolon behind a series. The state counts open parentheses. -/
def seriesEndTurn (text : Text) (parens pos : Nat) (byte : Char) : Except Fault (Turn Nat Nat) := do
  if byte = '{' then
    let close ← closingBrace text 0 pos
    .ok (.go parens (close + 1))
  else if byte = '[' then
    let close ← closingBracket text (0, 0) pos
    .ok (.go parens (close + 1))
  else if byte = ';' ∧ parens = 0 then .ok (.stop pos)
  else
    .ok (.go (if byte = '(' then parens + 1 else if byte = ')' then parens - 1 else parens)
      (pos + 1))

/-- The offset of the semicolon that ends a series, outside braces, brackets and parentheses. -/
def seriesEnd (text : Text) : Nat → Nat → Except Fault Nat :=
  scan text (fun _ => byteSize text) (seriesEndTurn text)

section
variable {parens : Nat}

/-- A group that never closes takes the search to the end. -/
theorem seriesEnd_unclosed (h : Stands text pos escaped (c :: rest)) (hc : c.utf8Size = 1)
    (hturn : seriesEndTurn text parens pos c = .ok (.go parens (lastOffset text + 1))) :
    seriesEnd text parens pos = .ok (pos + byteSize (c :: rest)) := by
  have hlt := h.lt
  have hlast : lastOffset text + 1 = byteSize text := by
    unfold lastOffset
    omega
  rw [hlast] at hturn
  rw [h.add_byteSize, seriesEnd, scan_go h hc hturn hlt (Nat.le_refl _)]
  exact scan_end (stands_end text)

/-- A group that closes is passed over. -/
theorem seriesEnd_closed (close : Char) (hclose : close.utf8Size = 1 ∧ close ≠ '\\')
    {inside after : Text} (h : Stands text pos escaped (c :: rest)) (hc : c.utf8Size = 1)
    (hrest : c :: rest = inside ++ close :: after)
    (hturn : seriesEndTurn text parens pos c = .ok (.go parens (pos + byteSize inside + 1))) :
    Stands text (pos + byteSize inside + 1) false after ∧
      seriesEnd text parens pos = seriesEnd text parens (pos + byteSize inside + 1) := by
  have hafter := (hrest ▸ h).append.behind hclose
  exact ⟨hafter, scan_go h hc hturn (by omega) hafter.le⟩

end

/-- The search for the end of a series goes as far as the cut does, by induction on the strides of
the cut: over a closed group, over a character, or to the end of the text with a group that never
closes. -/
theorem seriesEnd_eq (h : Stands text pos escaped rest) (parens : Nat) :
    seriesEnd text parens pos = .ok (pos + byteSize (cutAtSemicolon parens escaped rest).1) := by
  fun_induction cutAtSemicolon parens escaped rest generalizing pos with
  | case1 parens escaped =>
    have hend := h.add_byteSize
    rw [hend]
    exact scan_end h
  | case2 parens escaped rest hcut =>
    refine seriesEnd_unclosed h rfl ?_
    rw [seriesEndTurn, if_pos rfl, closingBrace_eq h, hcut]
    rfl
  | case3 parens escaped rest inside after hcut ih =>
    have hturn : seriesEndTurn text parens pos '{' =
        .ok (.go parens (pos + byteSize inside + 1)) := by
      rw [seriesEndTurn, if_pos rfl, closingBrace_eq h, hcut]
      rfl
    obtain ⟨hafter, hend⟩ :=
      seriesEnd_closed '}' ⟨rfl, by decide⟩ h rfl (cutAtBrace_eq hcut) hturn
    rw [hend, ih hafter, byteSize_append, byteSize_cons, show '}'.utf8Size = 1 from rfl]
    simp only [Nat.add_assoc]
  | case4 parens escaped rest _ hcut =>
    refine seriesEnd_unclosed h rfl ?_
    rw [seriesEndTurn, if_neg (by decide), if_pos rfl, closingBracket_eq h, hcut]
    rfl
  | case5 parens escaped rest inside after _ hcut ih =>
    have hturn : seriesEndTurn text parens pos '[' =
        .ok (.go parens (pos + byteSize inside + 1)) := by
      rw [seriesEndTurn, if_neg (by decide), if_pos rfl, closingBracket_eq h, hcut]
      rfl
    obtain ⟨hafter, hend⟩ :=
      seriesEnd_closed ']' ⟨rfl, by decide⟩ h rfl (cutAtBracket_eq hcut) hturn
    rw [hend, ih hafter, byteSize_append, byteSize_cons, show ']'.utf8Size = 1 from rfl]
    simp only [Nat.add_assoc]
  | case6 parens escaped c rest hbrace hbracket hstop =>
    obtain ⟨rfl, rfl⟩ := hstop
    exact scan_stop h rfl rfl
  | case7 parens escaped c rest hbrace hbracket hstop parens' cut =>
    rename_i ih
    have hpass : seriesEnd text parens pos = seriesEnd text parens' (pos + c.utf8Size) := by
      refine scan_pass h (fun _ => ?_) (fun hc => ⟨?_, fun pos byte _ hbyte => ?_⟩)
      · rw [seriesEndTurn, if_neg hbrace, if_neg hbracket, if_neg hstop]
        rfl
      · simp [parens', long_ne hc]
      · simp [seriesEndTurn, long_ne hbyte]
    rw [hpass, ih h.next, byteSize_cons, Nat.add_assoc]

/-- A series ends at a semicolon, which is passed over, or with the text. -/
theorem cutAtSemicolon_cases (parens : Nat) (escaped : Bool) (text : Text) :
    text = (cutAtSemicolon parens escaped text).1 ++ ';' :: (cutAtSemicolon parens escaped text).2 ∨
      text = (cutAtSemicolon parens escaped text).1 ∧
        (cutAtSemicolon parens escaped text).2 = [] := by
  fun_induction cutAtSemicolon parens escaped text with
  | case1 => exact Or.inr ⟨rfl, rfl⟩
  | case2 => exact Or.inr ⟨rfl, rfl⟩
  | case3 parens escaped rest inside after hcut ih =>
    rw [cutAtBrace_eq hcut]
    rcases ih with ih | ⟨ih, hnil⟩
    · exact Or.inl (by rw [List.append_assoc, List.cons_append, ← ih])
    · exact Or.inr ⟨by rw [← ih], hnil⟩
  | case4 => exact Or.inr ⟨rfl, rfl⟩
  | case5 parens escaped rest inside after _ hcut ih =>
    rw [cutAtBracket_eq hcut]
    rcases ih with ih | ⟨ih, hnil⟩
    · exact Or.inl (by rw [List.append_assoc, List.cons_append, ← ih])
    · exact Or.inr ⟨by rw [← ih], hnil⟩
  | case6 parens escaped c rest hbrace hbracket hstop =>
    exact Or.inl (by rw [hstop.1]; rfl)
  | case7 parens escaped c rest hbrace hbracket hstop parens' cut =>
    rename_i ih
    rcases ih with ih | ⟨ih, hnil⟩
    · exact Or.inl (congrArg (c :: ·) ih)
    · exact Or.inr ⟨congrArg (c :: ·) ih, hnil⟩

/-- The place behind the semicolon of a series, or the end. -/
theorem seriesEnd_spec (h : Clear text pos rest) :
    ∃ last, seriesEnd text 0 pos = .ok last ∧ pos ≤ last ∧
      slice text pos last = .ok (cutAtSemicolon 0 false rest).1 ∧
        Clear text (min (last + 1) (byteSize text)) (cutAtSemicolon 0 false rest).2 := by
  obtain ⟨escaped, hstands, hescaped⟩ := h
  have hescape : cutAtSemicolon 0 escaped rest = cutAtSemicolon 0 false rest := by
    rcases hescaped with rfl | rfl
    · rfl
    · rw [cutAtSemicolon, cutAtSemicolon]
  have hend := seriesEnd_eq hstands 0
  rw [hescape] at hend
  refine ⟨_, hend, Nat.le_add_right _ _, ?_⟩
  rcases cutAtSemicolon_cases 0 false rest with hcut | ⟨hcut, hnil⟩
  · generalize cutAtSemicolon 0 false rest = cut at hcut ⊢
    subst hcut
    have hnext := hstands.append.behind ⟨rfl, by decide⟩
    rw [Nat.min_eq_left hnext.le]
    exact ⟨hstands.slice_eq, hnext.clear⟩
  · have hwhole : Stands text pos escaped (rest ++ []) := by simpa using hstands
    have hslice := hwhole.slice_eq
    rw [hstands.add_byteSize] at hslice
    rw [← hcut, hnil, hstands.add_byteSize, Nat.min_eq_right (Nat.le_succ _)]
    exact ⟨hslice, clear_end text⟩

/-! ## Arguments -/

/-- One turn of a pass over arguments. -/
def skipArgumentsTurn (text : Text) (pos : Nat) : Except Fault (Turn Unit Nat) := do
  match ← brackets text pos with
  | some (_, after) => .ok (.go () after)
  | none =>
    match ← group text pos with
    | some (_, after) => .ok (.go () after)
    | none => .ok (.stop pos)

/-- The offset behind the bracket and brace groups that directly follow an offset. -/
def skipArguments (text : Text) : Nat → Except Fault Nat :=
  loop text (fun _ => skipArgumentsTurn text) ()

/-- Arguments are passed over one by one, each of them by a reader that moves on. -/
theorem skipArguments_spec (h : Clear text pos rest) :
    ∃ next, skipArguments text pos = .ok next ∧ pos ≤ next ∧
      Clear text next (Chart.skipArguments rest) := by
  fun_induction Chart.skipArguments rest generalizing pos with
  | case1 rest content after hbrackets ih =>
    obtain ⟨answer, hanswer, hanswers⟩ := exists_brackets h
    rw [hbrackets] at hanswers
    cases hanswers with
    | some clear lt =>
      obtain ⟨next, hnext, hle, hclear⟩ := ih clear
      refine ⟨next, ?_, by omega, hclear⟩
      rw [← hnext]
      exact loop_go (by rw [skipArgumentsTurn, hanswer]; rfl) lt clear.le
  | case2 rest hbrackets content after hgroup ih =>
    obtain ⟨answer, hanswer, hanswers⟩ := exists_brackets h
    obtain ⟨answer', hanswer', hanswers'⟩ := exists_group h
    rw [hbrackets] at hanswers
    rw [hgroup] at hanswers'
    cases hanswers with
    | none =>
    cases hanswers' with
    | some clear lt =>
      obtain ⟨next, hnext, hle, hclear⟩ := ih clear
      refine ⟨next, ?_, by omega, hclear⟩
      rw [← hnext]
      exact loop_go (by simp only [skipArgumentsTurn, hanswer, hanswer', ok_bind]) lt clear.le
  | case3 rest hbrackets hgroup =>
    obtain ⟨answer, hanswer, hanswers⟩ := exists_brackets h
    obtain ⟨answer', hanswer', hanswers'⟩ := exists_group h
    rw [hbrackets] at hanswers
    rw [hgroup] at hanswers'
    cases hanswers with
    | none =>
    cases hanswers' with
    | none =>
      exact ⟨pos, loop_stop (by simp only [skipArgumentsTurn, hanswer, hanswer', ok_bind]),
        Nat.le_refl _, h⟩

/-- The content of the brackets at an offset, empty when there are none, and the offset behind. -/
def optionsAt (text : Text) (pos : Nat) : Except Fault (Text × Nat) := do
  let answer ← brackets text pos
  .ok (answer.getD ([], pos))

/-- Options that are not there are empty, and leave the place as it is. -/
theorem optionsAt_spec (h : Clear text pos rest) :
    ∃ next, optionsAt text pos = .ok (((brackets? rest).map (·.1)).getD [], next) ∧ pos ≤ next ∧
      Clear text next (afterBrackets rest) := by
  obtain ⟨answer, hanswer, hanswers⟩ := exists_brackets h
  unfold optionsAt afterBrackets
  rw [hanswer, ok_bind]
  cases hbrackets : brackets? rest with
  | none =>
    rw [hbrackets] at hanswers
    cases hanswers with
    | none => exact ⟨pos, rfl, Nat.le_refl _, h⟩
  | some cut =>
    rw [hbrackets] at hanswers
    cases hanswers with
    | some clear lt => exact ⟨_, rfl, Nat.le_of_lt lt, clear⟩

/-! ## What a series plots -/

/-- The options and the content of a table, behind its keyword. -/
def tablePayload (text : Text) : Except Fault Payload := do
  let (options, start) ← optionsAt text 0
  match ← group text start with
  | some (content, _) => .ok (.table options content)
  | none =>
    let content ← suffix text start
    .ok (.table options (trim content))

/-- The content of the first group of a text that begins with a brace, or the whole of another
text. -/
def contentOrAll? (text : Text) : Except Fault (Option Text) :=
  if text.head? = some '{' then do
    let answer ← nextGroup text 0
    .ok (answer.map (·.1))
  else .ok (some text)

/-- What a series plots; nothing when a function is blank. -/
def payload? (text : Text) : Except Fault (Option Payload) :=
  match "coordinates".toList.isPrefixOf? text, "table".toList.isPrefixOf? text with
  | some rest, _ => do
    let answer ← nextGroup rest 0
    .ok (some (.coordinates ((answer.map (·.1)).getD [])))
  | none, some rest => do
    let payload ← tablePayload rest
    .ok (some payload)
  | none, none => do
    match ← contentOrAll? text with
    | none => .ok none
    | some text =>
      let expression := Expression.toUser (trim text)
      .ok (if expression.isEmpty then none else some (.function expression))

/-- An answer has the content that the characters give; the place behind it is not asked for here.
-/
theorem Answers.content {answer : Option (Text × Text)} {answer' : Option (Text × Nat)}
    (h : Answers text pos answer answer') : answer'.map (·.1) = answer.map (·.1) := by
  cases h <;> rfl

/-- The rows of a table stand in a group, or are all that is left behind the options. -/
theorem tablePayload_eq (text : Text) :
    tablePayload text = .ok (.table (((brackets? text).map (·.1)).getD [])
      (((group? (afterBrackets text)).map (·.1)).getD (trim (afterBrackets text)))) := by
  obtain ⟨start, hoptions, -, hclear⟩ := optionsAt_spec (stands_zero text).clear
  obtain ⟨answer, hanswer, hanswers⟩ := exists_group hclear
  obtain ⟨escaped, hstands, -⟩ := id hclear
  simp only [tablePayload, hoptions, hanswer, ok_bind]
  cases hgroup : group? (afterBrackets text) with
  | none =>
    rw [hgroup] at hanswers
    cases hanswers with
    | none => simp [hstands.suffix_eq]
  | some cut =>
    rw [hgroup] at hanswers
    cases hanswers with
    | some clear lt => rfl

/-- A text that begins with a brace has a group, so this never answers that there is none. -/
theorem contentOrAll?_eq (text : Text) :
    contentOrAll? text = .ok (some (contentOrAll text)) := by
  unfold contentOrAll?
  by_cases hbrace : text.head? = some '{'
  · obtain ⟨rest, rfl⟩ := List.head?_eq_some_iff.mp hbrace
    obtain ⟨answer, hanswer, hanswers⟩ := exists_nextGroup (stands_zero ('{' :: rest))
    rw [if_pos hbrace, hanswer, ok_bind, hanswers.content]
    rfl
  · rw [if_neg hbrace]
    unfold contentOrAll
    split
    next => exact absurd rfl hbrace
    next => rfl

/-- What a series plots is told from its first word, and each kind is read from the start of a text.
-/
theorem payload?_eq (text : Text) : payload? text = .ok (readPayload? text) := by
  unfold payload? readPayload?
  cases "coordinates".toList.isPrefixOf? text with
  | some rest =>
    obtain ⟨answer, hanswer, hanswers⟩ := exists_nextGroup (stands_zero rest)
    simp only [hanswer, ok_bind, hanswers.content]
  | none =>
    cases "table".toList.isPrefixOf? text with
    | some rest => simp only [tablePayload_eq, ok_bind]
    | none => simp only [contentOrAll?_eq, ok_bind]

/-! ## Series -/

/-- The offset behind a mark, if it stands at an offset. -/
def behindMark (mark : Char) (text : Text) (pos : Nat) : Except Fault Nat := do
  let rest ← suffix text pos
  .ok (if rest.head? = some mark then pos + 1 else pos)

/-- The offset behind the marks of a series command. -/
def behindMarks (text : Text) (pos : Nat) : Except Fault Nat := do
  let pos ← behindMark '3' text pos
  behindMark '+' text pos

/-- The legend entry that directly follows a series, and the offset behind it. -/
def legend? (text : Text) (pos : Nat) : Except Fault (Option (Text × Nat)) := do
  let first ← skipBlanks text pos
  let rest ← suffix text first
  match "\\addlegendentry".toList.isPrefixOf? rest with
  | some _ => group text (first + byteSize "\\addlegendentry")
  | none => .ok none

/-- A series whose command begins at an offset, and the offset behind it. -/
def series (text : Text) (start : Nat) : Except Fault (Statement × Nat) := do
  let rest ← suffix text (start + byteSize "\\addplot")
  let isSurface := rest.head? == some '3'
  let pos ← behindMarks text (start + byteSize "\\addplot")
  let (options, after) ← optionsAt text pos
  let last ← seriesEnd text 0 after
  let body ← slice text after last
  let next := min (last + 1) (byteSize text)
  match ← payload? (trimPayload body) with
  | none => .ok (.series isSurface options none none, next)
  | some payload =>
    match ← legend? text next with
    | none => .ok (.series isSurface options (some payload) none, next)
    | some (legend, after) =>
      .ok (.series isSurface options (some payload) (some (trim legend)), after)

/-- A mark is passed over where it stands. -/
theorem behindMark_spec (mark : Char) (hmark : mark.utf8Size = 1 ∧ mark ≠ '\\')
    (h : Stands text pos false rest) :
    ∃ next, behindMark mark text pos = .ok next ∧ pos ≤ next ∧
      Stands text next false (dropMark mark rest) := by
  unfold behindMark dropMark
  rw [h.suffix_eq, ok_bind]
  by_cases hhead : rest.head? = some mark
  · obtain ⟨after, rfl⟩ := List.head?_eq_some_iff.mp hhead
    rw [if_pos hhead, if_pos hhead]
    exact ⟨_, rfl, Nat.le_succ pos, h.behind hmark⟩
  · rw [if_neg hhead, if_neg hhead]
    exact ⟨_, rfl, Nat.le_refl pos, h⟩

/-- The marks of a series command stand in one order, and each may be absent. -/
theorem behindMarks_spec (h : Stands text pos false rest) :
    ∃ next, behindMarks text pos = .ok next ∧ pos ≤ next ∧
      Clear text next (afterMarks rest) := by
  obtain ⟨first, hfirst, hle, hstands⟩ := behindMark_spec '3' ⟨rfl, by decide⟩ h
  obtain ⟨next, hnext, hle', hmarks⟩ := behindMark_spec '+' ⟨rfl, by decide⟩ hstands
  rw [behindMarks, hfirst, ok_bind]
  exact ⟨next, hnext, Nat.le_trans hle hle', hmarks.clear⟩

/-- A legend entry is looked for behind blanks; the place stays in front of them when there is none.
-/
theorem legend?_spec (h : Clear text pos rest) :
    ∃ answer, legend? text pos = .ok answer ∧ Answers text pos (readLegend? rest) answer := by
  obtain ⟨first, hfirst, hle, hclear⟩ := exists_skipBlanks h
  obtain ⟨escaped, hstands, -⟩ := id hclear
  unfold legend? readLegend?
  rw [hfirst, ok_bind, hstands.suffix_eq, ok_bind]
  cases hfront : "\\addlegendentry".toList.isPrefixOf? (Text.skipBlanks rest) with
  | none => exact ⟨none, rfl, .none⟩
  | some after =>
    rw [Text.isPrefixOf?_eq_some.mp hfront] at hstands
    have hbehind := hstands.behind_word 'y' ⟨rfl, by decide⟩
    obtain ⟨answer, hanswer, hanswers⟩ := exists_group hbehind.clear
    exact ⟨answer, hanswer, hanswers.mono (by omega)⟩

/-- A series is read from its command to the place behind its semicolon and its legend entry. That
place is further on also when the series never ends, as the command itself has been passed over. -/
theorem series_spec (h : Stands text pos escaped ("\\addplot".toList ++ rest)) :
    ∃ next, series text pos = .ok ((readSeries rest).1, next) ∧ pos < next ∧
      Clear text next (readSeries rest).2 := by
  have hname := h.behind_word 't' ⟨rfl, by decide⟩
  have hsize : byteSize "\\addplot" = 8 := rfl
  obtain ⟨start, hstart, hleStart, hmarks⟩ := behindMarks_spec hname
  obtain ⟨after, hoptions, hleAfter, hclear⟩ := optionsAt_spec hmarks
  obtain ⟨last, hlast, hleLast, hslice, hnext⟩ := seriesEnd_spec hclear
  obtain ⟨answer, hanswer, hanswers⟩ := legend?_spec hnext
  have hlt : pos < min (last + 1) (byteSize text) := by
    have := hclear.le
    omega
  change slice text after last = .ok (seriesBody rest).1 at hslice
  change Clear text _ (seriesBody rest).2 at hnext
  change Answers text _ (readLegend? (seriesBody rest).2) answer at hanswers
  unfold series readSeries
  simp only [hname.suffix_eq, hstart, hoptions, hlast, hslice, payload?_eq, ok_bind]
  cases readPayload? (trimPayload (seriesBody rest).1) with
  | none => exact ⟨_, rfl, hlt, hnext⟩
  | some payload =>
    simp only [hanswer, ok_bind]
    cases hlegend : readLegend? (seriesBody rest).2 with
    | none =>
      rw [hlegend] at hanswers
      cases hanswers with
      | none => exact ⟨_, rfl, hlt, hnext⟩
    | some legend =>
      rw [hlegend] at hanswers
      cases hanswers with
      | some clear lt => exact ⟨_, rfl, Nat.lt_trans hlt lt, clear⟩

/-! ## Other commands -/

/-- A command that means nothing to a chart, with all that belongs to it, and the offset behind. -/
def unknown (text : Text) (start : Nat) : Except Fault (Statement × Nat) := do
  let rest ← suffix text (start + 1)
  let nameEnd := start + 1 + byteSize (rest.takeWhile isLetter)
  let name ← slice text start (max nameEnd (start + 1))
  if (drawingCommands.map ('\\' :: ·)).contains name then
    let last ← seriesEnd text 0 nameEnd
    .ok (.unknown name, min (last + 1) (byteSize text))
  else
    let next ← skipArguments text nameEnd
    .ok (.unknown name, next)

/-- The name of a command, with its backslash, and the place behind it. -/
theorem Stands.commandName (h : Stands text pos escaped ('\\' :: rest))
    (hletter : beginsWithLetter rest = true) :
    slice text pos (max (pos + 1 + byteSize (rest.takeWhile isLetter)) (pos + 1)) =
        .ok ('\\' :: rest.takeWhile isLetter) ∧
      Stands text (pos + 1 + byteSize (rest.takeWhile isLetter)) false
        (rest.dropWhile isLetter) := by
  have hne : rest.takeWhile isLetter ≠ [] := by
    cases rest with
    | nil => cases hletter
    | cons c rest =>
      rw [List.takeWhile_cons_of_pos (by simpa [beginsWithLetter] using hletter)]
      exact List.cons_ne_nil _ _
  obtain ⟨last, hlast⟩ : ∃ last, (rest.takeWhile isLetter).getLast? = some last :=
    ⟨_, List.getLast?_eq_some_getLast hne⟩
  have hslash : last ≠ '\\' := by
    intro heq
    have hletter := List.all_eq_true.mp List.all_takeWhile last (List.mem_of_getLast? hlast)
    rw [heq] at hletter
    cases hletter
  have hword : ('\\' :: rest.takeWhile isLetter).getLast? = some last := by
    rw [List.getLast?_cons, hlast]
    rfl
  have hsplit : ('\\' :: rest.takeWhile isLetter) ++ rest.dropWhile isLetter = '\\' :: rest :=
    congrArg ('\\' :: ·) List.takeWhile_append_dropWhile
  rw [← hsplit] at h
  have hslice := h.slice_eq
  have hbehind := h.behind_word last ⟨hword, hslash⟩
  have hsize : pos + byteSize ('\\' :: rest.takeWhile isLetter) =
      pos + 1 + byteSize (rest.takeWhile isLetter) :=
    (Nat.add_assoc pos 1 _).symm
  rw [hsize] at hslice hbehind
  rw [Nat.max_eq_left (Nat.le_add_right _ _)]
  exact ⟨hslice, hbehind⟩

/-- A command that means nothing to the reader is passed over with its arguments. Its name has a
letter, so the place moves on. -/
theorem unknown_spec (h : Stands text pos escaped ('\\' :: rest))
    (hletter : beginsWithLetter rest = true) :
    ∃ next, unknown text pos = .ok ((readUnknown rest).1, next) ∧ pos < next ∧
      Clear text next (readUnknown rest).2 := by
  have hrest := h.next_ascii rfl
  obtain ⟨hname, hbehind⟩ := h.commandName hletter
  have hdrawing : (drawingCommands.map ('\\' :: ·)).contains ('\\' :: rest.takeWhile isLetter) =
      drawingCommands.contains (rest.takeWhile isLetter) := by
    simp
  unfold unknown readUnknown
  simp only [hrest.suffix_eq, ok_bind, hname, hdrawing]
  by_cases hcontains : drawingCommands.contains (rest.takeWhile isLetter) = true
  · obtain ⟨last, hlast, hle, -, hnext⟩ := seriesEnd_spec hbehind.clear
    have hlt := h.lt
    simp only [if_pos hcontains, hlast, ok_bind]
    exact ⟨_, rfl, by omega, hnext⟩
  · obtain ⟨next, hskip, hle, hnext⟩ := skipArguments_spec hbehind.clear
    simp only [if_neg hcontains, hskip, ok_bind]
    exact ⟨_, rfl, by omega, hnext⟩

/-! ## The body of an axis -/

/-- The offset behind the line feed that ends a comment, or behind the text. -/
def commentEnd (text : Text) (pos : Nat) : Except Fault Nat := do
  let rest ← suffix text pos
  match cut? rest ['\n'] with
  | some (line, _) => .ok (pos + byteSize line + 1)
  | none => .ok (byteSize text)

/-- One turn through the body of an axis. The state is the chart in the making. -/
def bodyTurn (tables : Tables) (text : Text) (reading : Reading) (pos : Nat) (byte : Char) :
    Except Fault (Turn Reading Reading) := do
  if byte = '%' then
    let next ← commentEnd text pos
    .ok (.go reading next)
  else if byte = '\\' then
    let rest ← suffix text pos
    match "\\addplot".toList.isPrefixOf? rest, "\\legend\x7b".toList.isPrefixOf? rest with
    | some _, _ =>
      let (statement, next) ← series text pos
      .ok (.go (reading.take tables statement) next)
    | none, some _ =>
      match ← group text (pos + byteSize "\\legend") with
      | some (labels, next) => .ok (.go (reading.take tables (.legends labels)) next)
      | none => .ok (.go reading (pos + 1))
    | none, none =>
      let behind ← suffix text (pos + 1)
      if beginsWithLetter behind then
        let (statement, next) ← unknown text pos
        .ok (.go (reading.take tables statement) next)
      else .ok (.go reading (pos + 1))
  else .ok (.go reading (pos + 1))

/-- The body of an axis, read from a chart in the making on. -/
def body (tables : Tables) (text : Text) : Reading → Nat → Except Fault Reading :=
  scan text id (bodyTurn tables text)

theorem cut?_line (text : Text) :
    cut? text ['\n'] =
      match text.dropWhile (· != '\n') with
      | [] => none
      | _ :: after => some (text.takeWhile (· != '\n'), after) := by
  induction text with
  | nil => rfl
  | cons c text ih =>
    rw [cut?, splitAtFirst]
    by_cases hc : c = '\n'
    · subst hc
      rfl
    · have hpass : (c != '\n') = true := by simpa using hc
      have hfront : ['\n'].isPrefixOf? (c :: text) = none :=
        if_neg (by simpa using Ne.symm hc)
      rw [@List.dropWhile_cons_of_pos _ (· != '\n') _ _ hpass,
        @List.takeWhile_cons_of_pos _ (· != '\n') _ _ hpass, hfront]
      rw [cut?] at ih
      simp only [ih]
      cases text.dropWhile (· != '\n') <;> rfl

/-- A comment is passed over with the end of its line, or ends with the text. -/
theorem commentEnd_spec (h : Stands text pos escaped ('%' :: rest)) :
    ∃ next escaped', commentEnd text pos = .ok next ∧ pos < next ∧
      Stands text next escaped' (afterLine rest) := by
  have hdrop : ('%' :: rest).dropWhile (· != '\n') = rest.dropWhile (· != '\n') := rfl
  unfold commentEnd afterLine
  rw [h.suffix_eq, ok_bind, cut?_line, hdrop]
  cases hline : rest.dropWhile (· != '\n') with
  | nil => exact ⟨_, _, rfl, h.lt, stands_end text⟩
  | cons c after =>
    have hsplit := @List.takeWhile_append_dropWhile _ (· != '\n') ('%' :: rest)
    obtain rfl : c = '\n' := by
      have hhead := List.head?_dropWhile_not (· != '\n') rest
      rw [hline] at hhead
      simpa using hhead
    rw [hdrop, hline] at hsplit
    rw [← hsplit] at h
    have hbehind := h.append.behind ⟨rfl, by decide⟩
    exact ⟨_, _, rfl, by omega, hbehind⟩

/-- A turn at a backslash takes the statement behind it. -/
theorem bodyTurn_statement (tables : Tables) (reading : Reading)
    (h : Stands text pos escaped ('\\' :: rest)) :
    ∃ next escaped', bodyTurn tables text reading pos '\\' =
        .ok (.go ((readStatement rest).1.toList.foldl (Reading.take tables) reading) next) ∧
      pos < next ∧ Stands text next escaped' (readStatement rest).2 := by
  have hseries : "\\addplot".toList.isPrefixOf? ('\\' :: rest) =
      "addplot".toList.isPrefixOf? rest := rfl
  have hlegends : "\\legend\x7b".toList.isPrefixOf? ('\\' :: rest) =
      "legend\x7b".toList.isPrefixOf? rest := rfl
  have hnext := h.next_ascii rfl
  rw [bodyTurn, if_neg (by decide), if_pos rfl, h.suffix_eq, ok_bind, hseries, hlegends,
    readStatement]
  cases hplot : "addplot".toList.isPrefixOf? rest with
  | some after =>
    rw [Text.isPrefixOf?_eq_some.mp hplot] at h
    obtain ⟨next, hseries, hlt, escaped', hstands, -⟩ := @series_spec _ after _ _ h
    simp only [hseries, ok_bind]
    exact ⟨next, escaped', rfl, hlt, hstands⟩
  | none =>
    cases hlegend : "legend\x7b".toList.isPrefixOf? rest with
    | some after =>
      have hname : Stands text pos escaped ("\\legend".toList ++ '{' :: after) := by
        rw [Text.isPrefixOf?_eq_some.mp hlegend] at h
        exact h
      have hbehind := hname.behind_word 'd' ⟨rfl, by decide⟩
      obtain ⟨answer, hanswer, hanswers⟩ := exists_group hbehind.clear
      rw [show group? ('{' :: after) = some (braceContent after) from rfl] at hanswers
      rcases hcontent : braceContent after with ⟨labels, behind⟩
      rw [hcontent] at hanswers
      cases hanswers with
      | some clear lt =>
        obtain ⟨escaped', hstands, -⟩ := clear
        simp only [hanswer, ok_bind, hcontent]
        exact ⟨_, escaped', rfl, Nat.lt_of_le_of_lt (Nat.le_add_right _ _) lt, hstands⟩
    | none =>
      simp only [hnext.suffix_eq, ok_bind]
      by_cases hletter : beginsWithLetter rest = true
      · obtain ⟨next, hunknown, hlt, escaped', hstands, -⟩ := unknown_spec h hletter
        simp only [if_pos hletter, hunknown, ok_bind]
        exact ⟨next, escaped', rfl, hlt, hstands⟩
      · simp only [if_neg hletter]
        exact ⟨pos + 1, _, rfl, Nat.lt_succ_self pos, hnext⟩

/-- The loop over the body of an axis takes the statements that the reader of characters lists, in
their order. -/
theorem body_eq (tables : Tables) (reading : Reading) (h : Stands text pos escaped rest) :
    body tables text reading pos = .ok ((statements rest).foldl (Reading.take tables) reading) := by
  -- a statement takes in many characters, so the induction is on the recursion of the reader
  fun_induction statements rest generalizing pos escaped reading with
  | case1 => exact scan_end h
  | case2 rest ih =>
    obtain ⟨next, escaped', hnext, hlt, hstands⟩ := commentEnd_spec h
    rw [← ih reading hstands]
    exact scan_go h rfl (by rw [bodyTurn, if_pos rfl, hnext]; rfl) hlt hstands.le
  | case3 rest _ ih =>
    obtain ⟨next, escaped', hturn, hlt, hstands⟩ := bodyTurn_statement tables reading h
    rw [List.foldl_append, ← ih _ hstands]
    exact scan_go h rfl hturn hlt hstands.le
  | case4 c rest hpercent hslash ih =>
    rw [← ih reading h.next]
    refine scan_pass h (fun _ => ?_) (fun hc => ⟨rfl, fun pos byte _ hbyte => ?_⟩)
    · rw [bodyTurn, if_neg hpercent, if_neg hslash]
    · simp [bodyTurn, long_ne hbyte]

/-- The options and the body of the first axis environment. -/
def axisEnvironment? (code : Text) : Except Fault (Option (Text × Text)) :=
  match cut? code "\\begin\x7baxis\x7d" with
  | none => .ok none
  | some (before, _) => do
    let (options, start) ← optionsAt code (byteSize before + byteSize "\\begin\x7baxis\x7d")
    let rest ← suffix code start
    let last := match cut? rest "\\end\x7baxis\x7d" with
      | some (inside, _) => start + byteSize inside
      | none => byteSize code
    let body ← slice code start last
    .ok (some (options, body))

/-- The environment is found by the first occurrences of its two ends, and what stands between them
is cut out at the offsets that these are found at. -/
theorem axisEnvironment?_eq (code : Text) :
    axisEnvironment? code = .ok (Chart.axisEnvironment? code) := by
  unfold axisEnvironment? Chart.axisEnvironment?
  cases hbegin : cut? code "\\begin\x7baxis\x7d" with
  | none => rfl
  | some cut =>
    obtain ⟨before, after⟩ := cut
    have hcode := stands_zero code
    nth_rewrite 2 [cut?_eq_some hbegin] at hcode
    have hname := hcode.append.behind_word '\x7d' ⟨rfl, by decide⟩
    rw [Nat.zero_add] at hname
    obtain ⟨start, hoptions, hle, escaped, hstart, -⟩ := optionsAt_spec hname.clear
    simp only [hoptions, ok_bind, hstart.suffix_eq]
    cases hend : cut? (afterBrackets after) "\\end\x7baxis\x7d" with
    | none =>
      have hwhole : Stands code start escaped (afterBrackets after ++ []) := by simpa using hstart
      have hslice := hwhole.slice_eq
      rw [hstart.add_byteSize] at hslice
      simp only [hslice, ok_bind, Option.map_some, hend, Option.map_none, Option.getD_none]
    | some cut =>
      obtain ⟨inside, behind⟩ := cut
      rw [cut?_eq_some hend] at hstart
      simp only [hstart.slice_eq, ok_bind, Option.map_some, hend, Option.getD_some]

/-! ## Tables -/

/-- The name of a table at an offset, in braces or to the end of its letters, and the offset
behind. -/
def definedName (text : Text) (pos : Nat) : Except Fault (Option (Text × Nat)) :=
  if byteAt? text pos = some '{' then do
    let answer ← group text pos
    .ok (answer.map fun (name, after) => (trim name, after))
  else do
    let rest ← suffix text pos
    let last := pos + byteSize (rest.take 1 ++ (rest.drop 1).takeWhile Table.isNameChar)
    let name ← slice text pos last
    .ok (some (name, last))

/-- One turn through the definitions of tables. The state is the registry so far. -/
def collectTurn (code : Text) (registry : Table.Registry) (start : Nat) :
    Except Fault (Turn Table.Registry Table.Registry) := do
  match ← command Table.readCommand code start with
  | none => .ok (.stop registry)
  | some first =>
    let (_, pos) ← optionsAt code (first + byteSize Table.readCommand)
    match ← group code pos with
    | none => .ok (.go registry pos)
    | some (rows, after) =>
      let pos ← skipBlanks code after
      match ← definedName code pos with
      | none => .ok (.go registry (max pos (first + 1)))
      | some (name, last) =>
        match Table.tableName? name with
        | some key => .ok (.go (registry.insert key (Table.normalizeRows rows)) last)
        | none => .ok (.go registry (max pos (first + 1)))

/-- The tables that a source text defines. -/
def collect (code : Text) : Except Fault Table.Registry := loop code (collectTurn code) [] 0

/-- The name of a defined table is in a group, or is whatever stands there and the letters behind
it. So there always is one, if only an empty one, and it may have to be refused later. -/
theorem definedName_spec (h : Clear text pos rest) :
    ∃ next, definedName text pos = .ok (some ((Table.definedName rest).1, next)) ∧ pos ≤ next ∧
      ∃ escaped, Stands text next escaped (Table.definedName rest).2 := by
  obtain ⟨escaped, hstands, -⟩ := id h
  unfold definedName
  rw [if_congr (hstands.byteAt?_eq_some rfl) rfl rfl]
  by_cases hbrace : rest.head? = some '{'
  · obtain ⟨after, rfl⟩ := List.head?_eq_some_iff.mp hbrace
    obtain ⟨answer, hanswer, hanswers⟩ := exists_group h
    rw [show group? ('{' :: after) = some (braceContent after) from rfl] at hanswers
    rcases hcontent : braceContent after with ⟨name, behind⟩
    rw [hcontent] at hanswers
    cases hanswers with
    | some clear lt =>
      obtain ⟨escaped', hbehind, -⟩ := clear
      simp only [if_pos hbrace, hanswer, ok_bind, Table.definedName, hcontent]
      exact ⟨_, rfl, Nat.le_of_lt lt, escaped', hbehind⟩
  · -- the first character belongs to the name whatever it is
    have hname : (Table.definedName rest).1 =
        rest.take 1 ++ (rest.drop 1).takeWhile Table.isNameChar ∧
        (Table.definedName rest).1 ++ (Table.definedName rest).2 = rest := by
      unfold Table.definedName
      split
      next => exact ⟨rfl, rfl⟩
      next => exact absurd rfl hbrace
      next => simp
    rw [if_neg hbrace, hstands.suffix_eq, ok_bind, ← hname.1]
    rw [← hname.2] at hstands
    have hslice := hstands.slice_eq
    exact ⟨_, by simp only [hslice, ok_bind], Nat.le_add_right _ _, _, hstands.append⟩

section
variable {code : Text}

/-- A turn takes the definition behind the next command. -/
theorem collectTurn_spec (h : Stands code pos escaped rest) (registry : Table.Registry) :
    match afterCommand? Table.readCommand rest with
    | none => collectTurn code registry pos = .ok (.stop registry)
    | some after => ∃ next escaped', collectTurn code registry pos =
          .ok (.go ((Table.readDefinition after).1.toList.foldl
            (fun registry (name, rows) => registry.insert name rows) registry) next) ∧
        pos < next ∧ Stands code next escaped' (Table.readDefinition after).2 := by
  have hcommand := command_eq (show Table.readCommand ≠ [] by decide) h
  have hsize : byteSize Table.readCommand = 18 := rfl
  unfold afterCommand? collectTurn
  rw [hcommand, ok_bind]
  cases hcut : cutAtCommand Table.readCommand 0 rest with
  | none => rfl
  | some cut =>
    obtain ⟨before, after⟩ := cut
    rw [cutAtCommand_eq hcut, List.append_assoc] at h
    have hname := h.append.behind_word 'd' ⟨rfl, by decide⟩
    obtain ⟨start, hoptions, hle, hstart⟩ := optionsAt_spec hname.clear
    obtain ⟨answer, hanswer, hanswers⟩ := exists_group hstart
    simp only [Option.map_some, hoptions, hanswer, ok_bind, Table.readDefinition]
    cases hgroup : group? (afterBrackets after) with
    | none =>
      rw [hgroup] at hanswers
      obtain ⟨escaped', hstands, -⟩ := hstart
      cases hanswers with
      | none => exact ⟨start, escaped', rfl, by omega, hstands⟩
    | some cut =>
      rw [hgroup] at hanswers
      cases hanswers with
      | some clear lt =>
        obtain ⟨first, hfirst, hleFirst, hclear⟩ := exists_skipBlanks clear
        obtain ⟨next, hnext, hleNext, escaped', hstands⟩ := definedName_spec hclear
        obtain ⟨escaped'', hblanks, -⟩ := id hclear
        simp only [hfirst, hnext, ok_bind]
        cases Table.tableName? (Table.definedName (Text.skipBlanks _)).1 with
        | none =>
          rw [Nat.max_eq_left (by omega)]
          exact ⟨first, escaped'', rfl, by omega, hblanks⟩
        | some key => exact ⟨next, escaped', rfl, by omega, hstands⟩

/-- The loop over all definitions of tables inserts those that the reader of characters lists. A
definition that goes wrong still moves the place on, behind its command. -/
theorem collect_from (h : Stands code pos escaped rest) (registry : Table.Registry) :
    loop code (collectTurn code) registry pos =
      .ok ((Table.definitions rest).foldl
        (fun registry (name, rows) => registry.insert name rows) registry) := by
  fun_induction Table.definitions rest generalizing pos escaped registry with
  | case1 rest hnone =>
    have hturn := collectTurn_spec h registry
    rw [hnone] at hturn
    exact loop_stop hturn
  | case2 rest after hafter ih =>
    have hturn := collectTurn_spec h registry
    rw [hafter] at hturn
    obtain ⟨next, escaped', hturn, hlt, hstands⟩ := hturn
    rw [List.foldl_append, ← ih hstands]
    exact loop_go hturn hlt hstands.le

end

theorem collect_eq (code : Text) : collect code = .ok (Table.collect code) :=
  collect_from (stands_zero code) []

/-! ## The chart -/

/-- Read a chart with a registry of tables: the chart or why there is none, and what was
dropped. -/
def readReport (registry : Table.Registry) (code : Text) :
    Except Fault (Except Missing Chart × List Loss) := do
  match ← axisEnvironment? code with
  | none => .ok (.error .axis, [])
  | some (options, inside) =>
    let (axis, dropped) := readOptions Axis.addOption {} options
    let defined ← collect code
    let reading ← body ⟨defined, registry⟩ inside
      ⟨{ axis }, lossesOf .unknownOption .axis dropped⟩ 0
    .ok (if reading.chart.series.isEmpty then .error .series else .ok reading.chart,
      reading.losses)

/-- A chart is read from its environment, its tables and its body, each read without a fault. -/
theorem readReport_eq (registry : Table.Registry) (code : Text) :
    readReport registry code = .ok (Chart.readReport registry code) := by
  unfold readReport Chart.readReport
  rw [axisEnvironment?_eq, ok_bind]
  cases Chart.axisEnvironment? code with
  | none => rfl
  | some environment =>
    obtain ⟨options, inside⟩ := environment
    simp only [collect_eq, ok_bind, body_eq _ _ (stands_zero inside)]

/-- A chart is read by byte offset without a fault, from every text and with every registry, and so
are the option lists in it: no read and no cut is out of bounds or off a character boundary, and
every turn of every loop moves on. What is read is what the reader of characters reads. -/
theorem readReport_in_bounds (registry : Table.Registry) (code : Text) :
    readReport registry code = .ok (Chart.readReport registry code) ∧
      (∀ text, splitOptions text = .ok (Source.splitOptions text)) ∧
        ∀ option, keyValue option = .ok (Source.keyValue option) :=
  ⟨readReport_eq registry code, splitOptions_eq, keyValue_eq⟩

end TexFigure.Checked
