import TexFigure.Proofs.Access
import TexFigure.Proofs.Occurrence
/-!
# Scanning by byte offset

The readers of groups and of control sequences once more, as loops over the bytes of a text: they
find the places where they cut by counting, and cut there.

> `exists_group`, `exists_brackets`: a group is read at a place of the text as it is read off the
> front of what is left there, and the offset that comes back is a place further on.

> `nextGroup_eq`, `group_eq`, `brackets_eq`, `command_eq_commandAt`: at a place of the text the
> loops answer what the readers of `Source` answer that find their place by an offset.
-/

namespace TexFigure.Checked

open Text Source

variable {text rest word : Text} {pos : Nat} {escaped : Bool} {c : Char}

/-! ## Long characters -/

/-- What the loops test for is ASCII. -/
theorem long_ne (h : 1 < c.utf8Size) :
    c ≠ '{' ∧ c ≠ '}' ∧ c ≠ '[' ∧ c ≠ ']' ∧ c ≠ '(' ∧ c ≠ ')' ∧ c ≠ '\\' ∧ c ≠ ';' ∧ c ≠ '%' :=
  ⟨ne_of_long h rfl, ne_of_long h rfl, ne_of_long h rfl, ne_of_long h rfl, ne_of_long h rfl,
    ne_of_long h rfl, ne_of_long h rfl, ne_of_long h rfl, ne_of_long h rfl⟩

/-- The delimiters are ASCII, so they are none of the bytes inside a long character. -/
theorem isDelimiter_long (h : 1 < c.utf8Size) : isDelimiter c = false := by
  simp [isDelimiter, long_ne h]

/-- Neither do those bytes change a depth. -/
theorem braceDepth_long (h : 1 < c.utf8Size) (depth : Nat) :
    braceDepth depth escaped c = depth := by
  simp [braceDepth, long_ne h]

theorem bracketDepth_long (h : 1 < c.utf8Size) (depth braces : Nat) :
    bracketDepth depth braces escaped c = depth := by
  simp [bracketDepth, long_ne h]

/-- A token separator is one byte, and escapes nothing. -/
theorem utf8Size_of_isAsciiBlank (h : isAsciiBlank c = true) : c.utf8Size = 1 ∧ c ≠ '\\' := by
  simp only [isAsciiBlank, Bool.or_eq_true, beq_iff_eq] at h
  rcases h with (((h | h) | h) | h) | h <;> subst h <;> decide

/-! ## Blanks -/

/-- The offset of the first byte at or behind an offset that is no token separator. -/
def skipBlanks (text : Text) (pos : Nat) : Except Fault Nat :=
  scan text (fun _ => byteSize text)
    (fun _ pos byte => .ok (if isAsciiBlank byte then .go () (pos + 1) else .stop pos))
    () (min pos (byteSize text))

/-- A place where an argument may begin: one that is not escaped, or the end. -/
def Clear (text : Text) (pos : Nat) (rest : Text) : Prop :=
  ∃ escaped, Stands text pos escaped rest ∧ (escaped = false ∨ rest = [])

/-- A place that is not escaped is one where an argument may begin. -/
theorem Stands.clear (h : Stands text pos false rest) : Clear text pos rest :=
  ⟨false, h, Or.inl rfl⟩

/-- A place behind an ASCII character is not escaped, unless that is a backslash. -/
theorem Stands.behind (hc : c.utf8Size = 1 ∧ c ≠ '\\') (h : Stands text pos escaped (c :: rest)) :
    Stands text (pos + 1) false rest := by
  have hrest := h.next_ascii hc.1
  rwa [show escapes escaped c = false by simp [escapes, hc.2]] at hrest

/-- A place behind a word is not escaped, unless the word ends in a backslash. -/
theorem Stands.behind_word (last : Char) (hlast : word.getLast? = some last ∧ last ≠ '\\')
    (h : Stands text pos escaped (word ++ rest)) :
    Stands text (pos + byteSize word) false rest := by
  obtain ⟨init, rfl⟩ := List.getLast?_eq_some_iff.mp hlast.1
  have hrest := h.append
  rwa [List.foldl_append, List.foldl_cons, List.foldl_nil,
    show escapes _ last = false by simp [escapes, hlast.2]] at hrest

theorem Clear.le (h : Clear text pos rest) : pos ≤ byteSize text := by
  obtain ⟨escaped, hstands, -⟩ := h
  exact hstands.le

/-- Where something is left, such a place is not escaped. -/
theorem Clear.stands (h : Clear text pos (c :: rest)) : Stands text pos false (c :: rest) := by
  obtain ⟨escaped, hstands, rfl | hnil⟩ := h
  · exact hstands
  · cases hnil

/-- The end of a text is one of its places. -/
theorem stands_end (text : Text) : Stands text (byteSize text) (text.foldl escapes false) [] :=
  ⟨text, (List.append_nil text).symm, rfl, rfl⟩

theorem clear_end (text : Text) : Clear text (byteSize text) [] := ⟨_, stands_end text, Or.inr rfl⟩

/-- The loop over token separators comes to the place that is left when they are dropped. -/
theorem exists_skipBlanks (h : Clear text pos rest) :
    ∃ next, skipBlanks text pos = .ok next ∧ pos ≤ next ∧
      Clear text next (Text.skipBlanks rest) := by
  unfold skipBlanks
  rw [Nat.min_eq_left h.le]
  induction rest generalizing pos with
  | nil =>
    obtain ⟨escaped, hstands, -⟩ := id h
    exact ⟨_, scan_end hstands, h.le, clear_end text⟩
  | cons c rest ih =>
    have hstands := h.stands
    by_cases hc : isAsciiBlank c = true
    · have hascii := utf8Size_of_isAsciiBlank hc
      have hnext := hstands.behind hascii
      obtain ⟨next, hscan, hle, hclear⟩ := ih hnext.clear
      refine ⟨next, ?_, by omega, by rwa [Text.skipBlanks, List.dropWhile_cons_of_pos hc]⟩
      rw [← hscan]
      exact scan_go hstands hascii.1 (by rw [if_pos hc]) (by omega) hnext.le
    · refine ⟨pos, ?_, Nat.le_refl _, by rwa [Text.skipBlanks, List.dropWhile_cons_of_neg hc]⟩
      apply scan_stop_alike hstands
      intro byte halike
      have hblank : ¬isAsciiBlank byte = true := by
        rcases halike with rfl | ⟨hbyte, -⟩
        · exact hc
        · intro hblank
          have := utf8Size_of_isAsciiBlank hblank
          omega
      rw [if_neg hblank]

/-! ## Groups -/

/-- The offset of the first brace at or behind an offset that opens a group. -/
def openBrace (text : Text) : Nat → Except Fault (Option Nat) :=
  scan text (fun _ => none)
    (fun _ pos byte => do
      if byte = '{' then
        if ← isEscaped text pos then .ok (.go () (pos + 1)) else .ok (.stop (some pos))
      else .ok (.go () (pos + 1)))
    ()

/-- The search for an opening brace stops at the one behind which the group begins, or finds none.
An escaped brace is passed over in both. -/
theorem openBrace_spec (h : Stands text pos escaped rest) :
    match afterOpenBrace? escaped rest with
    | none => openBrace text pos = .ok none
    | some after => ∃ first, openBrace text pos = .ok (some first) ∧ pos ≤ first ∧
        Stands text first false ('{' :: after) := by
  induction rest generalizing pos escaped with
  | nil => exact scan_end h
  | cons c rest ih =>
    rw [afterOpenBrace?]
    by_cases hopen : escaped = false ∧ c = '{'
    · obtain ⟨rfl, rfl⟩ := hopen
      rw [if_pos ⟨rfl, rfl⟩]
      refine ⟨pos, scan_stop h rfl ?_, Nat.le_refl _, h⟩
      rw [if_pos rfl, h.isEscaped_eq]
      rfl
    · rw [if_neg hopen]
      have hpass : openBrace text pos = openBrace text (pos + c.utf8Size) := by
        refine scan_pass h (fun hc => ?_) (fun hc => ⟨rfl, fun pos byte _ hbyte => ?_⟩)
        · rw [h.isEscaped_eq, ok_bind]
          split
          next hbrace =>
            rw [if_pos (by simpa [hbrace] using hopen)]
          next => rfl
        · rw [if_neg (ne_of_long hbyte rfl)]
      rw [hpass]
      have hrest := ih h.next
      cases hafter : afterOpenBrace? (escapes escaped c) rest with
      | none => simpa [hafter] using hrest
      | some after =>
        rw [hafter] at hrest
        obtain ⟨first, hfirst, hle, hstands⟩ := hrest
        exact ⟨first, hfirst, by omega, hstands⟩

/-- The offset of the brace that closes the group opened at an offset, or of the last byte. -/
def closingBrace (text : Text) : Nat → Nat → Except Fault Nat :=
  scan text (fun _ => lastOffset text) fun depth pos byte => do
    if byte = '{' ∨ byte = '}' then
      let escaped ← isEscaped text pos
      if depth = 1 ∧ escaped = false ∧ byte = '}' then .ok (.stop pos)
      else .ok (.go (braceDepth depth escaped byte) (pos + 1))
    else .ok (.go depth (pos + 1))

/-- The search for a closing brace goes as far as the cut at the brace does, and answers the last
offset where the cut finds none. The loop asks for an escape at braces only, and counts them alike.
-/
theorem closingBrace_eq (h : Stands text pos escaped rest) (depth : Nat) :
    closingBrace text depth pos =
      .ok (((cutAtBrace depth escaped rest).map fun cut => pos + byteSize cut.1).getD
        (lastOffset text)) := by
  induction rest generalizing pos escaped depth with
  | nil => exact scan_end h
  | cons c rest ih =>
    rw [cutAtBrace]
    by_cases hclose : depth = 1 ∧ escaped = false ∧ c = '}'
    · obtain ⟨rfl, rfl, rfl⟩ := hclose
      rw [if_pos ⟨rfl, rfl, rfl⟩]
      refine scan_stop h rfl ?_
      rw [if_pos (Or.inr rfl), h.isEscaped_eq]
      rfl
    · rw [if_neg hclose]
      have hpass : closingBrace text depth pos =
          closingBrace text (braceDepth depth escaped c) (pos + c.utf8Size) := by
        refine scan_pass h (fun _ => ?_)
          (fun hc => ⟨braceDepth_long hc depth, fun pos byte _ hbyte => ?_⟩)
        · by_cases hbrace : c = '{' ∨ c = '}'
          · rw [if_pos hbrace, h.isEscaped_eq, ok_bind, if_neg hclose]
          · obtain ⟨hopen, hclose⟩ := not_or.mp hbrace
            rw [if_neg hbrace]
            simp [braceDepth, hopen, hclose]
        · simp [long_ne hbyte]
      rw [hpass, ih h.next]
      cases cutAtBrace (braceDepth depth escaped c) (escapes escaped c) rest with
      | none => rfl
      | some cut => simp [Nat.add_assoc]

/-- The offset of the bracket that closes the brackets opened at an offset, or of the last byte. The
state counts brackets and braces. -/
def closingBracket (text : Text) : Nat × Nat → Nat → Except Fault Nat :=
  scan text (fun _ => lastOffset text) fun (depth, braces) pos byte => do
    let escaped ← isEscaped text pos
    if depth = 1 ∧ braces = 0 ∧ escaped = false ∧ byte = ']' then .ok (.stop pos)
    else
      .ok (.go (bracketDepth depth braces escaped byte, braceDepth braces escaped byte) (pos + 1))

/-- The search for a closing bracket goes as far as the cut at the bracket does. It counts braces as
well, as brackets inside them do not count. -/
theorem closingBracket_eq (h : Stands text pos escaped rest) (depth braces : Nat) :
    closingBracket text (depth, braces) pos =
      .ok (((cutAtBracket depth braces escaped rest).map fun cut => pos + byteSize cut.1).getD
        (lastOffset text)) := by
  induction rest generalizing pos escaped depth braces with
  | nil => exact scan_end h
  | cons c rest ih =>
    rw [cutAtBracket]
    by_cases hclose : depth = 1 ∧ braces = 0 ∧ escaped = false ∧ c = ']'
    · obtain ⟨rfl, rfl, rfl, rfl⟩ := hclose
      rw [if_pos ⟨rfl, rfl, rfl, rfl⟩]
      refine scan_stop h rfl ?_
      simp only [h.isEscaped_eq]
      rfl
    · rw [if_neg hclose]
      have hpass : closingBracket text (depth, braces) pos =
          closingBracket text (bracketDepth depth braces escaped c, braceDepth braces escaped c)
            (pos + c.utf8Size) := by
        refine scan_pass h (fun _ => ?_) (fun hc => ⟨?_, fun pos byte hpos hbyte => ?_⟩)
        · simp only [h.isEscaped_eq, ok_bind, if_neg hclose]
        · rw [bracketDepth_long hc, braceDepth_long hc]
        · obtain ⟨escaped, hescaped⟩ := exists_isEscaped (Nat.le_of_lt hpos)
          simp [hescaped, long_ne hbyte, bracketDepth_long hbyte, braceDepth_long hbyte]
      rw [hpass, ih h.next]
      cases cutAtBracket (bracketDepth depth braces escaped c) (braceDepth braces escaped c)
          (escapes escaped c) rest with
      | none => rfl
      | some cut => simp [Nat.add_assoc]

/-- What a reader of groups answers: a content, and a place further on. -/
inductive Answers (text : Text) (pos : Nat) : Option (Text × Text) → Option (Text × Nat) → Prop
  | none : Answers text pos none none
  | some {content after : Text} {next : Nat} (clear : Clear text next after) (lt : pos < next) :
    Answers text pos (some (content, after)) (some (content, next))

/-- A place further on from a later place is further on from an earlier one. -/
theorem Answers.mono {start : Nat} {answer : Option (Text × Text)} {answer' : Option (Text × Nat)}
    (h : Answers text start answer answer') (hle : pos ≤ start) :
    Answers text pos answer answer' := by
  cases h with
  | none => exact .none
  | some clear lt => exact .some clear (Nat.lt_of_le_of_lt hle lt)

/-- The first brace group at or behind an offset, and the offset behind it. -/
def nextGroup (text : Text) (pos : Nat) : Except Fault (Option (Text × Nat)) := do
  match ← openBrace text pos with
  | none => .ok none
  | some first =>
    let close ← closingBrace text 0 first
    let byte ← byteAt text close
    if close ≤ first ∨ byte ≠ '}' then
      let content ← suffix text (first + 1)
      .ok (some (content, byteSize text))
    else
      let content ← slice text (first + 1) close
      .ok (some (content, close + 1))

/-- The brace group that stands at an offset, behind blanks at most, and the offset behind it. -/
def group (text : Text) (pos : Nat) : Except Fault (Option (Text × Nat)) := do
  let start ← skipBlanks text pos
  if byteAt? text start = some '{' then nextGroup text start else .ok none

/-- The bracket group that stands at an offset, behind blanks at most, and the offset behind it. -/
def brackets (text : Text) (pos : Nat) : Except Fault (Option (Text × Nat)) := do
  let start ← skipBlanks text pos
  if byteAt? text start = some '[' then
    let close ← closingBracket text (0, 0) start
    if byteAt? text close = some ']' then
      let content ← slice text (start + 1) close
      .ok (some (content, close + 1))
    else
      let content ← suffix text (start + 1)
      .ok (some (content, byteSize text))
  else .ok none

/-- The last byte of a text that goes on tells whether the text ends in an ASCII character. -/
theorem Stands.exists_last (h : Stands text pos escaped (c :: rest)) :
    ∃ byte, byteAt? text (lastOffset text) = some byte ∧
      ∀ a : Char, a.utf8Size = 1 → (byte = a ↔ (c :: rest).getLast? = some a) := by
  obtain ⟨init, last, hinit⟩ : ∃ init last, c :: rest = init ++ [last] :=
    ⟨_, _, (List.dropLast_append_getLast (List.cons_ne_nil c rest)).symm⟩
  rw [hinit] at h ⊢
  have hlast := h.append
  have hpos := last.utf8Size_pos
  have hoffset : lastOffset text = pos + byteSize init + (last.utf8Size - 1) := by
    have hsize := hlast.add_byteSize
    rw [byteSize_cons, byteSize_nil] at hsize
    unfold lastOffset
    omega
  obtain ⟨byte, hbyte, halike⟩ := hlast.exists_byteAt? (Nat.sub_lt hpos Nat.one_pos)
  refine ⟨byte, by rwa [hoffset], ?_⟩
  intro a ha
  simp [halike.eq_iff ha]

/-- A group that closes is cut out between its delimiters. -/
theorem Stands.closed {opening closing : Char} {inside after : Text}
    (hopening : opening.utf8Size = 1) (hclosing : closing.utf8Size = 1 ∧ closing ≠ '\\')
    (h : Stands text pos escaped (opening :: (inside ++ closing :: after))) :
    slice text (pos + 1) (pos + 1 + byteSize inside) = .ok inside ∧
      byteAt? text (pos + 1 + byteSize inside) = some closing ∧
        Clear text (pos + 1 + byteSize inside + 1) after := by
  have hinside := h.next_ascii hopening
  exact ⟨hinside.slice_eq, hinside.append.byteAt?_eq hclosing.1,
    (hinside.append.behind hclosing).clear⟩

/-- Where the search for a closing delimiter ends: at one, which the cut finds or which is the last
character, or at a last byte that is none. -/
theorem Stands.closing_cases {opening : Char} (closing : Char) {cut : Option (Text × Text)}
    (hopening : opening.utf8Size = 1)
    (hclosing : closing.utf8Size = 1 ∧ closing ≠ '\\') (hne : opening ≠ closing)
    (h : Stands text pos escaped (opening :: rest))
    (hcut : ∀ inside after, cut = some (inside, after) → rest = inside ++ closing :: after)
    {close : Nat}
    (hclose : close = (cut.map fun cut => pos + 1 + byteSize cut.1).getD (lastOffset text)) :
    (∃ inside after, cut.getD (unclosed closing rest, []) = (inside, after) ∧
      pos < close ∧ slice text (pos + 1) close = .ok inside ∧
        byteAt? text close = some closing ∧ Clear text (close + 1) after) ∨
    (cut.getD (unclosed closing rest, []) = (rest, []) ∧
      ∃ byte, byteAt? text close = some byte ∧ byte ≠ closing) := by
  have hlt : ∀ n, pos < pos + 1 + n := fun n => by omega
  cases cut with
  | some cut =>
    obtain ⟨inside, after⟩ := cut
    subst hclose
    rw [hcut inside after rfl] at h
    exact Or.inl ⟨inside, after, rfl, hlt _, h.closed hopening hclosing⟩
  | none =>
    obtain rfl : close = lastOffset text := hclose
    by_cases hlast : rest.getLast? = some closing
    · -- a group that never closes ends before a closing delimiter in last place
      obtain ⟨inside, rfl⟩ := List.getLast?_eq_some_iff.mp hlast
      have hclosed := h.closed hopening hclosing
      have hoffset : lastOffset text = pos + 1 + byteSize inside := by
        have hsize := h.add_byteSize
        simp only [byteSize_cons, byteSize_append, byteSize_nil] at hsize
        unfold lastOffset
        omega
      refine Or.inl ⟨inside, [], ?_, by rw [hoffset]; exact hlt _, by rwa [hoffset]⟩
      simp [unclosed]
    · obtain ⟨byte, hbyte, hiff⟩ := h.exists_last
      refine Or.inr ⟨by simp [unclosed, hlast], byte, hbyte, ?_⟩
      intro heq
      have hget := (hiff closing hclosing.1).mp heq
      cases rest with
      | nil => exact hne (Option.some.inj hget)
      | cons c rest => exact hlast (by rwa [List.getLast?_cons_cons] at hget)

/-- From the opening brace on, the search begins with that brace, which it counts. -/
theorem closingBrace_open (h : Stands text pos false ('{' :: rest)) :
    closingBrace text 0 pos =
      .ok (((cutAtBrace 1 false rest).map fun cut => pos + 1 + byteSize cut.1).getD
        (lastOffset text)) := by
  have hcut : cutAtBrace 0 false ('{' :: rest) =
      (cutAtBrace 1 false rest).map fun cut => ('{' :: cut.1, cut.2) := rfl
  have hsize : ∀ inside, byteSize ('{' :: inside) = 1 + byteSize inside := fun _ => rfl
  rw [closingBrace_eq h, hcut]
  cases cutAtBrace 1 false rest with
  | none => rfl
  | some cut => simp [hsize, Nat.add_assoc]

/-- From the opening bracket on, the search begins with that bracket, which it counts. -/
theorem closingBracket_open (h : Stands text pos false ('[' :: rest)) :
    closingBracket text (0, 0) pos =
      .ok (((cutAtBracket 1 0 false rest).map fun cut => pos + 1 + byteSize cut.1).getD
        (lastOffset text)) := by
  have hcut : cutAtBracket 0 0 false ('[' :: rest) =
      (cutAtBracket 1 0 false rest).map fun cut => ('[' :: cut.1, cut.2) := rfl
  have hsize : ∀ inside, byteSize ('[' :: inside) = 1 + byteSize inside := fun _ => rfl
  rw [closingBracket_eq h, hcut]
  cases cutAtBracket 1 0 false rest with
  | none => rfl
  | some cut => simp [hsize, Nat.add_assoc]

/-- The next group is read at an offset as it is read off what is left there. The loop tells a group
that never closes by the last byte, so what it takes for the closing brace may be another one; the
reader of characters makes up for that with `unclosed`. -/
theorem exists_nextGroup (h : Stands text pos escaped rest) :
    ∃ answer, nextGroup text pos = .ok answer ∧
      Answers text pos (nextGroup? escaped rest) answer := by
  have hopen := openBrace_spec h
  unfold nextGroup nextGroup?
  cases hafter : afterOpenBrace? escaped rest with
  | none =>
    rw [hafter] at hopen
    exact ⟨none, by rw [show openBrace text pos = .ok none from hopen]; rfl, .none⟩
  | some after =>
    rw [hafter] at hopen
    obtain ⟨first, hfirst, hle, hstands⟩ := hopen
    simp only [hfirst, ok_bind, closingBrace_open hstands, Option.map_some, braceContent]
    rcases hstands.closing_cases '}' rfl ⟨rfl, by decide⟩ (by decide)
      (fun inside after hcut => cutAtBrace_eq hcut) rfl with
      ⟨inside, behind, hcontent, hlt, hslice, hbyte, hclear⟩ | ⟨hcontent, byte, hbyte, hne⟩
    · rw [hcontent, byteAt_of_byteAt? hbyte, ok_bind, if_neg (by simp; omega), hslice]
      exact ⟨_, rfl, .some hclear (by omega)⟩
    · have hrest := hstands.next_ascii rfl
      have hlt := hstands.lt
      rw [hcontent, byteAt_of_byteAt? hbyte, ok_bind, if_pos (Or.inr hne), hrest.suffix_eq]
      exact ⟨_, rfl, .some (clear_end text) (by omega)⟩

/-- A group is read at an offset as it is read off what is left there. -/
theorem exists_group (h : Clear text pos rest) :
    ∃ answer, group text pos = .ok answer ∧ Answers text pos (group? rest) answer := by
  obtain ⟨start, hstart, hle, hclear⟩ := exists_skipBlanks h
  obtain ⟨escaped, hstands, -⟩ := id hclear
  unfold group
  rw [hstart, ok_bind, group?, leadingGroup?, escapedBehindBlanks_false,
    if_congr (hstands.byteAt?_eq_some rfl) rfl rfl]
  by_cases hhead : (Text.skipBlanks rest).head? = some '{'
  · rw [if_pos hhead, if_pos hhead]
    obtain ⟨after, hafter⟩ := List.head?_eq_some_iff.mp hhead
    rw [hafter] at hclear ⊢
    obtain ⟨answer, hanswer, hanswers⟩ := exists_nextGroup hclear.stands
    exact ⟨answer, hanswer, hanswers.mono hle⟩
  · rw [if_neg hhead, if_neg hhead]
    exact ⟨none, rfl, .none⟩

/-- Brackets that open have a content, closed or not. -/
theorem brackets?_open {after : Text} (h : Text.skipBlanks rest = '[' :: after) :
    brackets? rest = some ((cutAtBracket 1 0 false after).getD (unclosed ']' after, [])) := by
  unfold brackets? leadingBrackets?
  rw [h, escapedBehindBlanks_false]
  rfl

/-- Brackets are read at an offset as they are read off what is left there. -/
theorem exists_brackets (h : Clear text pos rest) :
    ∃ answer, brackets text pos = .ok answer ∧ Answers text pos (brackets? rest) answer := by
  obtain ⟨start, hstart, hle, hclear⟩ := exists_skipBlanks h
  obtain ⟨escaped, hstands, -⟩ := id hclear
  unfold brackets
  rw [hstart, ok_bind, if_congr (hstands.byteAt?_eq_some rfl) rfl rfl]
  by_cases hhead : (Text.skipBlanks rest).head? = some '['
  · obtain ⟨after, hafter⟩ := List.head?_eq_some_iff.mp hhead
    rw [hafter] at hclear
    have hopen := hclear.stands
    rw [if_pos hhead, brackets?_open hafter, closingBracket_open hopen, ok_bind]
    rcases hopen.closing_cases ']' rfl ⟨rfl, by decide⟩ (by decide)
      (fun inside after hcut => cutAtBracket_eq hcut) rfl with
      ⟨inside, behind, hcontent, hlt, hslice, hbyte, hclear⟩ | ⟨hcontent, byte, hbyte, hne⟩
    · rw [hcontent, if_pos hbyte, hslice]
      exact ⟨_, rfl, .some hclear (by omega)⟩
    · have hrest := hopen.next_ascii rfl
      have hlt := hopen.lt
      rw [hcontent, hbyte, if_neg (by simpa using hne), hrest.suffix_eq]
      exact ⟨_, rfl, .some (clear_end text) (by omega)⟩
  · rw [if_neg hhead, brackets?_eq_none hhead]
    exact ⟨none, rfl, .none⟩

/-! ## Commands -/

/-- One turn of the search for a command. -/
def commandTurn (name text : Text) (pos : Nat) : Except Fault (Turn Unit (Option Nat)) :=
  if byteSize text < pos then .ok (.stop none)
  else do
    let rest ← suffix text pos
    match cut? rest name with
    | none => .ok (.stop none)
    | some (before, _) =>
      let first := pos + byteSize before
      let behind ← suffix text (first + byteSize name)
      if beginsWithLetter behind then .ok (.go () (first + byteSize name))
      else .ok (.stop (some first))

/-- The offset of the first whole occurrence of a command at or behind an offset. -/
def command (name text : Text) : Nat → Except Fault (Option Nat) :=
  loop text (fun _ => commandTurn name text) ()

section
variable {name before after : Text}

/-- The search skips the characters of a name that goes on, and finds no command in them. -/
theorem cutAtCommand_skip (name word rest : Text) :
    cutAtCommand name word.length (word ++ rest) =
      (cutAtCommand name 0 rest).map fun cut => (word ++ cut.1, cut.2) := by
  induction word with
  | nil => simp
  | cons c word ih =>
    rw [List.cons_append, List.length_cons, cutAtCommand, ih, Option.map_map]
    rfl

/-- A cut at a phrase loses only the phrase. -/
theorem cut?_eq_some (h : cut? rest name = some (before, after)) :
    rest = before ++ (name ++ after) := by
  induction rest generalizing before with
  | nil =>
    obtain ⟨a, hfront, heq⟩ := Option.map_eq_some_iff.mp h
    cases heq
    rw [List.nil_append]
    exact isPrefixOf?_eq_some.mp hfront
  | cons c rest ih =>
    rw [cut?, splitAtFirst] at h
    split at h
    next a hfront =>
      cases h
      rw [List.nil_append]
      exact isPrefixOf?_eq_some.mp hfront
    next =>
      obtain ⟨⟨before, after⟩, hcut, heq⟩ := Option.map_eq_some_iff.mp h
      cases heq
      rw [ih hcut]
      rfl

/-- A search for a command finds the first occurrence of its name, or goes on behind it. -/
theorem cutAtCommand_of_cut? (hname : name ≠ []) (h : cut? rest name = some (before, after)) :
    cutAtCommand name 0 rest =
      if beginsWithLetter after then
        (cutAtCommand name 0 after).map fun cut => (before ++ name ++ cut.1, cut.2)
      else some (before, after) := by
  induction rest generalizing before with
  | nil =>
    cases name with
    | nil => exact absurd rfl hname
    | cons d name => cases h
  | cons c rest ih =>
    rw [cut?, splitAtFirst] at h
    rw [cutAtCommand]
    split at h
    next a hfront =>
      cases h
      obtain ⟨d, name, rfl⟩ := List.exists_cons_of_ne_nil hname
      obtain ⟨hd, htail⟩ := List.cons.inj (isPrefixOf?_eq_some.mp hfront)
      have hrest : rest = name ++ after := htail
      subst hd hrest
      simp only [hfront, List.length_cons, Nat.add_sub_cancel, cutAtCommand_skip, Option.map_map]
      rfl
    next hfront =>
      obtain ⟨⟨before, after⟩, hcut, heq⟩ := Option.map_eq_some_iff.mp h
      cases heq
      rw [hfront, ih hcut]
      simp only
      split
      next => simp [Function.comp_def]
      next => rfl

/-- One turn of the search goes to the next occurrence of the name, and behind it when the name goes
on. -/
theorem commandTurn_eq (h : Stands text pos escaped rest) :
    commandTurn name text pos =
      match cut? rest name with
      | none => .ok (.stop none)
      | some (before, after) =>
        if beginsWithLetter after then .ok (.go () (pos + byteSize before + byteSize name))
        else .ok (.stop (some (pos + byteSize before))) := by
  rw [commandTurn, if_neg (Nat.not_lt.mpr h.le), h.suffix_eq, ok_bind]
  cases hcut : cut? rest name with
  | none => rfl
  | some cut =>
    rw [cut?_eq_some hcut] at h
    simp only [h.append.append.suffix_eq, ok_bind]

/-- The search for a command goes as far as the cut at the command does, by strong induction on what
is left, as a turn passes over more than one character. -/
theorem command_eq (hname : name ≠ []) (h : Stands text pos escaped rest) :
    command name text pos =
      .ok ((cutAtCommand name 0 rest).map fun cut => pos + byteSize cut.1) := by
  induction hlength : rest.length using Nat.strong_induction_on generalizing pos escaped rest with
  | _ length ih =>
  have hturn := @commandTurn_eq _ _ _ _ name h
  cases hcut : cut? rest name with
  | none =>
    have hnone : ¬name <:+: rest := by
      rw [← contains_iff, contains, ← cut?, hcut]
      decide
    rw [hcut] at hturn
    rw [cutAtCommand_eq_none hnone]
    exact loop_stop hturn
  | some cut =>
    obtain ⟨before, after⟩ := cut
    have hrest := cut?_eq_some hcut
    rw [cutAtCommand_of_cut? hname hcut]
    simp only [hcut] at hturn
    split at hturn
    next hletter =>
      rw [hrest] at h
      have hafter := h.append.append
      have hsize := byteSize_pos hname
      have hshort : after.length < length := by
        have := List.length_pos_iff.mpr hname
        simp only [← hlength, hrest, List.length_append]
        omega
      have hgo : command name text pos =
          command name text (pos + byteSize before + byteSize name) :=
        loop_go hturn (by omega) hafter.le
      rw [if_pos hletter, hgo, ih _ hshort hafter rfl, Option.map_map]
      simp [Function.comp_def, Nat.add_assoc]
    next hletter =>
      rw [if_neg hletter]
      exact loop_stop hturn

end

/-! ## Offsets

At a place of the text the readers agree with those that find the place first. -/

/-- At a place of a text the search answers the offset that matches its brace. -/
theorem closingBrace_eq_matchingBrace (h : Stands text pos escaped rest) :
    closingBrace text 0 pos = .ok (matchingBrace text pos) := by
  rw [closingBrace_eq h, matchingBrace, h.ofOffset]
  cases hcut : cutAtBrace 0 escaped rest with
  | none => rfl
  | some cut =>
    obtain ⟨inside, after⟩ := cut
    rw [cutAtBrace_eq hcut] at h
    have hafter := (h.append.next_ascii rfl).offsetOf_eq
    simp [hafter]

theorem closingBracket_eq_matchingBracket (h : Stands text pos escaped rest) :
    closingBracket text (0, 0) pos = .ok (matchingBracket text pos) := by
  rw [closingBracket_eq h, matchingBracket, h.ofOffset]
  cases hcut : cutAtBracket 0 0 escaped rest with
  | none => rfl
  | some cut =>
    obtain ⟨inside, after⟩ := cut
    rw [cutAtBracket_eq hcut] at h
    have hafter := (h.append.next_ascii rfl).offsetOf_eq
    simp [hafter]

/-- An answer is the one that the characters give, with the offset at which the rest begins. -/
theorem Answers.eq_withOffset {answer : Option (Text × Text)} {answer' : Option (Text × Nat)}
    (h : Answers text pos answer answer') : answer' = withOffset text answer := by
  cases h with
  | none => rfl
  | some clear lt =>
    obtain ⟨escaped, hstands, -⟩ := clear
    simp only [withOffset, Option.map_some, hstands.offsetOf_eq]

/-- The next group at a place of a text, with the offset behind it. -/
theorem nextGroup_eq (h : Stands text pos escaped rest) :
    nextGroup text pos = .ok (nextGroupAt text pos) := by
  obtain ⟨answer, hanswer, hanswers⟩ := exists_nextGroup h
  rw [hanswer, hanswers.eq_withOffset, nextGroupAt, h.ofOffset]

/-- The group that stands at a place of a text, when that is not escaped. -/
theorem group_eq (h : Stands text pos false rest) :
    group text pos = .ok (groupAt text pos) := by
  obtain ⟨answer, hanswer, hanswers⟩ := exists_group h.clear
  rw [hanswer, hanswers.eq_withOffset, groupAt, h.ofOffset]
  exact congrArg Except.ok (if_neg (Nat.lt_irrefl pos)).symm

/-- The brackets that stand at a place of a text, when that is not escaped. -/
theorem brackets_eq (h : Stands text pos false rest) :
    brackets text pos = .ok (bracketsAt text pos) := by
  obtain ⟨answer, hanswer, hanswers⟩ := exists_brackets h.clear
  rw [hanswer, hanswers.eq_withOffset, bracketsAt, h.ofOffset]
  exact congrArg Except.ok (if_neg (Nat.lt_irrefl pos)).symm

theorem command_eq_commandAt {name : Text} (hname : name ≠ [])
    (h : Stands text pos escaped rest) :
    command name text pos = .ok (commandAt name text pos) := by
  rw [command_eq hname h, commandAt, h.ofOffset, if_neg (Nat.not_lt.mpr h.le)]

end TexFigure.Checked
