import TexFigure.Proofs.OptionList
import TexFigure.Proofs.Scanning
/-!
# Option lists by byte offset

The splitter of option lists and the reader of their values, as loops over the bytes of a text.

> `splitOptions_eq`, `keyValue_eq`: every cut that they make is at a character boundary of the text,
> and they give what the readers of characters give.
-/

namespace TexFigure.Checked

open Text Source

variable {text rest word : Text} {pos : Nat} {escaped : Bool} {c : Char}

/-! ## Option lists -/

/-- The parts that a splitter has cut off, the depth it is at, and where its next part begins. -/
structure Splitting where
  parts : List Text
  depth : Nat
  start : Nat

/-- One turn of a splitter at a separator outside braces and brackets. -/
def splitTurn (separator : Char) (text : Text) (state : Splitting) (pos : Nat) (byte : Char) :
    Except Fault (Turn Splitting Splitting) := do
  if isDelimiter byte then
    let escaped ← isEscaped text pos
    .ok (.go { state with depth := groupDepth state.depth escaped byte } (pos + 1))
  else if state.depth = 0 ∧ byte = separator then
    let part ← slice text state.start pos
    .ok (.go { state with parts := state.parts ++ [part], start := pos + 1 } (pos + 1))
  else .ok (.go state (pos + 1))

/-- The parts of a text from a state of the splitter on. -/
def splitFrom (separator : Char) (text : Text) (state : Splitting) (pos : Nat) :
    Except Fault (List Text) := do
  let final ← scan text id (splitTurn separator text) state pos
  let last ← suffix text final.start
  .ok (final.parts ++ [last])

/-- The options of a comma separated list, trimmed, without the empty ones. -/
def splitOptions (text : Text) : Except Fault (List Text) := do
  let parts ← splitFrom ',' text ⟨[], 0, 0⟩ 0
  .ok ((parts.map trim).filter (!·.isEmpty))

/-- Only delimiters change the depth. -/
theorem groupDepth_of_not_isDelimiter (h : isDelimiter c = false) (depth : Nat) :
    groupDepth depth escaped c = depth := by
  simp only [isDelimiter, Bool.or_eq_false_iff, beq_eq_false_iff_ne] at h
  simp [groupDepth, h]

section
variable {separator : Char} {state : Splitting}

/-- A separator at depth zero ends the part that began at the start. -/
theorem splitTurn_separator (h : Stands text state.start escaped (word ++ separator :: rest))
    (hdepth : state.depth = 0) (hdelimiter : isDelimiter separator = false) :
    splitTurn separator text state (state.start + byteSize word) separator =
      .ok (.go ⟨state.parts ++ [word], 0, state.start + byteSize word + 1⟩
        (state.start + byteSize word + 1)) := by
  rw [splitTurn, if_neg (by simp [hdelimiter]), if_pos ⟨hdepth, rfl⟩, h.slice_eq, ok_bind, hdepth]

/-- Any other character changes the depth at most. -/
theorem scan_splitTurn (hseparator : separator.utf8Size = 1)
    (h : Stands text pos escaped (c :: rest))
    (hcut : ¬(state.depth = 0 ∧ c = separator ∧ isDelimiter c = false)) :
    scan text id (splitTurn separator text) state pos =
      scan text id (splitTurn separator text)
        { state with depth := groupDepth state.depth escaped c } (pos + c.utf8Size) := by
  refine scan_pass h (fun _ => ?_) (fun hc => ⟨?_, fun pos byte _ hbyte => ?_⟩)
  · by_cases hdelimiter : isDelimiter c = true
    · rw [splitTurn, if_pos hdelimiter, h.isEscaped_eq, ok_bind]
    · rw [Bool.not_eq_true] at hdelimiter
      rw [splitTurn, if_neg (by simp [hdelimiter]), if_neg (by simpa [hdelimiter] using hcut),
        groupDepth_of_not_isDelimiter hdelimiter]
  · rw [groupDepth_of_not_isDelimiter (isDelimiter_long hc)]
  · rw [splitTurn, if_neg (by simp [isDelimiter_long hbyte]),
      if_neg (fun heq => ne_of_long hbyte hseparator heq.2)]

/-- The splitter is at a place behind a part that it has not cut off yet. -/
theorem splitFrom_eq (hseparator : separator.utf8Size = 1)
    (h : Stands text state.start escaped (word ++ rest)) :
    splitFrom separator text state (state.start + byteSize word) =
      .ok (state.parts ++ word.foldr consToFirst
        (splitAtDepth separator state.depth (word.foldl escapes escaped) rest)) := by
  induction rest generalizing state escaped word with
  | nil =>
    have hlast := h.suffix_eq
    rw [splitFrom, scan_end h.append, ok_bind, splitAtDepth, foldr_consToFirst]
    simp only [id, hlast, ok_bind]
  | cons c rest ih =>
    have hstands := h.append
    rw [splitAtDepth]
    by_cases hcut : state.depth = 0 ∧ c = separator ∧ isDelimiter c = false
    · obtain ⟨hdepth, rfl, hdelimiter⟩ := hcut
      have hturn := splitTurn_separator h hdepth hdelimiter
      have hnext := hstands.next_ascii hseparator
      have hrest :=
        @ih [] _ ⟨state.parts ++ [word], 0, state.start + byteSize word + 1⟩ hnext
      rw [byteSize_nil, Nat.add_zero] at hrest
      rw [splitFrom, scan_go hstands hseparator hturn (by omega) hnext.le, ← splitFrom, hrest,
        if_pos ⟨hdepth, rfl, hdelimiter⟩, foldr_consToFirst]
      simp
    · -- the character joins the part
      have hjoined : Stands text state.start escaped ((word ++ [c]) ++ rest) := by simpa using h
      have hrest := @ih _ _
        { state with depth := groupDepth state.depth (word.foldl escapes escaped) c } hjoined
      rw [byteSize_append, byteSize_cons, byteSize_nil, Nat.add_zero, ← Nat.add_assoc] at hrest
      rw [splitFrom, scan_splitTurn hseparator hstands hcut, ← splitFrom, hrest, if_neg hcut]
      simp

end

/-- Options are split without a fault, into those that the splitter of texts gives. -/
theorem splitOptions_eq (text : Text) : splitOptions text = .ok (Source.splitOptions text) := by
  have h := @splitFrom_eq text text [] false ',' ⟨[], 0, 0⟩ rfl (stands_zero text)
  rw [byteSize_nil, Nat.zero_add] at h
  rw [splitOptions, h]
  rfl

/-! ## Values -/

/-- Whether a text is one brace group from its first byte to its last. -/
def isFullyBraced (text : Text) : Except Fault Bool :=
  if 2 ≤ byteSize text ∧ text.head? = some '{' ∧ text.getLast? = some '}' then do
    let close ← closingBrace text 0 0
    .ok (close == byteSize text - 1)
  else .ok false

/-- Remove one pair of braces when they enclose the whole of a trimmed text. -/
def stripBraces (text : Text) : Except Fault Text := do
  if ← isFullyBraced (trim text) then slice (trim text) 1 (byteSize (trim text) - 1)
  else .ok (trim text)

/-- An option's key and its value without one pair of enclosing braces. -/
def keyValue (option : Text) : Except Fault (Text × Text) :=
  match cut? option ['='] with
  | some (before, _) => do
    let key ← slice option 0 (byteSize before)
    let rest ← suffix option (byteSize before + 1)
    let value ← stripBraces (trim rest)
    .ok (trim key, value)
  | none => .ok (trim option, [])

/-- Braces are one byte each. -/
theorem byteSize_braced (inside after : Text) :
    byteSize ('{' :: (inside ++ '}' :: after)) = byteSize inside + 2 + byteSize after := by
  show 1 + byteSize (inside ++ '}' :: after) = _
  rw [byteSize_append]
  show 1 + (byteSize inside + (1 + byteSize after)) = _
  omega

/-- A fully braced text begins and ends in a brace, which are not the same. -/
theorem exists_inside_of_isFullyBraced (h : Source.isFullyBraced text = true) :
    ∃ inside, text = '{' :: (inside ++ ['}']) := by
  unfold Source.isFullyBraced at h
  split at h
  next rest =>
    obtain ⟨inside, rfl⟩ :=
      List.getLast?_eq_some_iff.mp (beq_iff_eq.mp (Bool.and_eq_true_iff.mp h).1)
    exact ⟨inside, rfl⟩
  next => cases h

/-- The byte of the closing brace is the last one just when nothing stands behind the group. -/
theorem isFullyBraced_eq (text : Text) : isFullyBraced text = .ok (Source.isFullyBraced text) := by
  unfold isFullyBraced
  by_cases hends : 2 ≤ byteSize text ∧ text.head? = some '{' ∧ text.getLast? = some '}'
  · rw [if_pos hends]
    obtain ⟨hsize, hhead, hlast⟩ := hends
    obtain ⟨rest, rfl⟩ := List.head?_eq_some_iff.mp hhead
    have hrest : rest.getLast? = some '}' := by
      cases rest with
      | nil => cases hlast
      | cons c rest => rwa [List.getLast?_cons_cons] at hlast
    rw [closingBrace_open (stands_zero _), ok_bind, Source.isFullyBraced, hrest]
    cases hcut : cutAtBrace 1 false rest with
    | none => simp [lastOffset]
    | some cut =>
      obtain ⟨inside, after⟩ := cut
      have hiff : 0 + 1 + byteSize inside = byteSize ('{' :: rest) - 1 ↔ after = [] := by
        rw [cutAtBrace_eq hcut, byteSize_braced, ← byteSize_eq_zero]
        omega
      simp only [Option.map_some, Option.getD_some, beq_self_eq_true, Bool.true_and]
      exact congrArg Except.ok (Bool.eq_iff_iff.mpr (by rw [beq_iff_eq, hiff, List.isEmpty_iff]))
  · rw [if_neg hends]
    cases hbraced : Source.isFullyBraced text with
    | false => rfl
    | true =>
      obtain ⟨inside, rfl⟩ := exists_inside_of_isFullyBraced hbraced
      have hsize := byteSize_braced inside []
      have hlast : ('{' :: (inside ++ ['}'])).getLast? = some '}' := by
        rw [← List.cons_append]
        exact List.getLast?_concat
      exact absurd ⟨by omega, rfl, hlast⟩ hends

/-- The braces that are cut off are one byte at each end of a text that has both. -/
theorem stripBraces_eq (text : Text) : stripBraces text = .ok (Source.stripBraces text) := by
  rw [stripBraces, isFullyBraced_eq, ok_bind, Source.stripBraces]
  by_cases hbraced : Source.isFullyBraced (trim text) = true
  · obtain ⟨inside, hinside⟩ := exists_inside_of_isFullyBraced hbraced
    rw [if_pos hbraced, if_pos hbraced, hinside]
    have hsize : byteSize ('{' :: (inside ++ ['}'])) - 1 = 1 + byteSize inside := by
      rw [byteSize_braced, byteSize_nil]
      omega
    obtain ⟨hslice, -⟩ :=
      (stands_zero ('{' :: (inside ++ ['}']))).closed rfl ⟨rfl, by decide⟩
    rw [Nat.zero_add] at hslice
    rw [hsize, hslice]
    simp
  · rw [if_neg hbraced, if_neg hbraced]

/-- The equals sign is one byte, and what stands behind it begins at the next. -/
theorem keyValue_eq (option : Text) : keyValue option = .ok (Source.keyValue option) := by
  unfold keyValue Source.keyValue
  cases hcut : cut? option ['='] with
  | none => rfl
  | some cut =>
    obtain ⟨before, after⟩ := cut
    obtain rfl : option = before ++ ('=' :: after) := cut?_eq_some hcut
    have hkey := stands_zero (before ++ '=' :: after)
    have hvalue := hkey.append.next_ascii rfl
    have hslice := hkey.slice_eq
    rw [Nat.zero_add] at hslice hvalue
    simp only [hslice, hvalue.suffix_eq, ok_bind, stripBraces_eq, Source.stripBraces, trim_trim]

end TexFigure.Checked
