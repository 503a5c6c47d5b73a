import TexFigure.Text.Basic
/-!
# Groups in a source text

A backslash escapes the character after it, so an even run of backslashes escapes nothing.
Escaped braces and brackets are plain characters; the others open and close groups. A reader
that meets a group which never closes takes the rest of the text for its content, except that a
closing delimiter in last place is left out of it.

Every function here reads a suffix of some text. `escaped` says whether the first character of
that suffix stands behind an odd run of backslashes.
-/

namespace TexFigure.Source

/-- Whether the character after `c` is escaped, given whether `c` is. -/
def escapes (escaped : Bool) (c : Char) : Bool := c == '\\' && !escaped

/-- The brace depth behind a character. A closing brace at depth zero changes nothing. -/
def braceDepth (depth : Nat) (escaped : Bool) (c : Char) : Nat :=
  if escaped then depth
  else if c = '{' then depth + 1
  else if c = '}' then depth - 1
  else depth

/-- Cut at the first unescaped closing brace that leaves depth one: what stands before it, and
what follows it. -/
def cutAtBrace (depth : Nat) (escaped : Bool) : Text → Option (Text × Text)
  | [] => none
  | c :: rest =>
    if depth = 1 ∧ escaped = false ∧ c = '}' then some ([], rest)
    else
      (cutAtBrace (braceDepth depth escaped c) (escapes escaped c) rest).map
        fun (inside, after) => (c :: inside, after)

/-- The bracket depth behind a character that stands inside `braces` brace groups: brackets
inside a brace group do not count. -/
def bracketDepth (depth braces : Nat) (escaped : Bool) (c : Char) : Nat :=
  if escaped ∨ braces ≠ 0 then depth
  else if c = '[' then depth + 1
  else if c = ']' then depth - 1
  else depth

/-- Cut at the first unescaped closing bracket outside all brace groups that leaves bracket
depth one. -/
def cutAtBracket (depth braces : Nat) (escaped : Bool) : Text → Option (Text × Text)
  | [] => none
  | c :: rest =>
    if depth = 1 ∧ braces = 0 ∧ escaped = false ∧ c = ']' then some ([], rest)
    else
      (cutAtBracket (bracketDepth depth braces escaped c) (braceDepth braces escaped c)
        (escapes escaped c) rest).map fun (inside, after) => (c :: inside, after)

/-- A cut at a brace loses only that brace. -/
theorem cutAtBrace_eq {depth : Nat} {escaped : Bool} {text inside after : Text}
    (h : cutAtBrace depth escaped text = some (inside, after)) :
    text = inside ++ '}' :: after := by
  induction text generalizing depth escaped inside with
  | nil => simp [cutAtBrace] at h
  | cons c rest ih =>
    rw [cutAtBrace] at h
    split at h
    next hc => simp_all
    next =>
      obtain ⟨⟨i, a⟩, hcut, heq⟩ := Option.map_eq_some_iff.1 h
      simp only [Prod.mk.injEq] at heq
      obtain ⟨rfl, rfl⟩ := heq
      rw [ih hcut]
      rfl

/-- A cut at a bracket loses only that bracket. -/
theorem cutAtBracket_eq {depth braces : Nat} {escaped : Bool} {text inside after : Text}
    (h : cutAtBracket depth braces escaped text = some (inside, after)) :
    text = inside ++ ']' :: after := by
  induction text generalizing depth braces escaped inside with
  | nil => simp [cutAtBracket] at h
  | cons c rest ih =>
    rw [cutAtBracket] at h
    split at h
    next hc => simp_all
    next =>
      obtain ⟨⟨i, a⟩, hcut, heq⟩ := Option.map_eq_some_iff.1 h
      simp only [Prod.mk.injEq] at heq
      obtain ⟨rfl, rfl⟩ := heq
      rw [ih hcut]
      rfl

/-- The content of a group that never closes. -/
def unclosed (delimiter : Char) (content : Text) : Text :=
  if content.getLast? = some delimiter then content.dropLast else content

/-- The content of a brace group whose opening brace has just been read, and what follows its
closing brace. -/
def braceContent (afterOpen : Text) : Text × Text :=
  (cutAtBrace 1 false afterOpen).getD (unclosed '}' afterOpen, [])

/-- What follows a brace group is no longer than the text behind its opening brace. -/
theorem length_braceContent_le (afterOpen : Text) :
    (braceContent afterOpen).2.length ≤ afterOpen.length := by
  unfold braceContent
  cases h : cutAtBrace 1 false afterOpen with
  | none => simp
  | some cut =>
    obtain ⟨inside, after⟩ := cut
    have := congrArg List.length (cutAtBrace_eq h)
    simp at this ⊢
    omega

/-- What follows the first unescaped opening brace. -/
def afterOpenBrace? (escaped : Bool) : Text → Option Text
  | [] => none
  | c :: rest =>
    if escaped = false ∧ c = '{' then some rest
    else afterOpenBrace? (escapes escaped c) rest

/-- What follows an opening brace is shorter than the text. -/
theorem length_afterOpenBrace?_lt {escaped : Bool} {text after : Text}
    (h : afterOpenBrace? escaped text = some after) : after.length < text.length := by
  induction text generalizing escaped with
  | nil => simp [afterOpenBrace?] at h
  | cons c rest ih =>
    rw [afterOpenBrace?] at h
    split at h
    next => simp_all
    next => exact Nat.lt_succ_of_lt (ih h)

/-- The first brace group anywhere in a text: its content, and what follows it. -/
def nextGroup? (escaped : Bool) (text : Text) : Option (Text × Text) :=
  (afterOpenBrace? escaped text).map braceContent

/-- Whether the first character behind the blanks of a text is escaped. -/
def escapedBehindBlanks (escaped : Bool) (text : Text) : Bool :=
  match text with
  | [] => escaped
  | c :: _ => escaped && !isAsciiBlank c

/-- A brace group that stands first, behind blanks at most. -/
def leadingGroup? (escaped : Bool) (text : Text) : Option (Text × Text) :=
  if (Text.skipBlanks text).head? = some '{' then
    nextGroup? (escapedBehindBlanks escaped text) (Text.skipBlanks text)
  else none

/-- A bracket group that stands first, behind blanks at most. -/
def leadingBrackets? (escaped : Bool) (text : Text) : Option (Text × Text) :=
  match Text.skipBlanks text with
  | '[' :: rest =>
    let behind := escapedBehindBlanks escaped text
    some <| (cutAtBracket (bracketDepth 0 0 behind '[') 0 false rest).getD (unclosed ']' rest, [])
  | _ => none

/-- What follows a brace group is shorter than the text. -/
theorem length_nextGroup?_lt {escaped : Bool} {text content after : Text}
    (h : nextGroup? escaped text = some (content, after)) : after.length < text.length := by
  obtain ⟨open', hopen, hcontent⟩ := Option.map_eq_some_iff.1 h
  have := length_braceContent_le open'
  rw [hcontent] at this
  exact Nat.lt_of_le_of_lt this (length_afterOpenBrace?_lt hopen)

/-- Skipping blanks does not lengthen a text. -/
theorem length_skipBlanks_le (text : Text) : (Text.skipBlanks text).length ≤ text.length :=
  (List.dropWhile_sublist isAsciiBlank).length_le

/-- What follows a leading brace group is shorter than the text. -/
theorem length_leadingGroup?_lt {escaped : Bool} {text content after : Text}
    (h : leadingGroup? escaped text = some (content, after)) : after.length < text.length := by
  unfold leadingGroup? at h
  split at h
  next => exact Nat.lt_of_lt_of_le (length_nextGroup?_lt h) (length_skipBlanks_le text)
  next => simp at h

/-- What follows leading brackets is shorter than the text. -/
theorem length_leadingBrackets?_lt {escaped : Bool} {text content after : Text}
    (h : leadingBrackets? escaped text = some (content, after)) : after.length < text.length := by
  have hle := length_skipBlanks_le text
  unfold leadingBrackets? at h
  split at h
  next rest hstart =>
    rw [hstart] at hle
    simp only [Option.some.injEq] at h
    cases hcut :
        cutAtBracket (bracketDepth 0 0 (escapedBehindBlanks escaped text) '[') 0 false rest with
    | none =>
      rw [hcut] at h
      simp only [Option.getD_none, Prod.mk.injEq] at h
      rw [← h.2]
      simp at hle ⊢
      omega
    | some cut =>
      obtain ⟨inside, behind⟩ := cut
      have := congrArg List.length (cutAtBracket_eq hcut)
      rw [hcut] at h
      simp only [Option.getD_some, Prod.mk.injEq] at h
      rw [h.2] at this
      simp at this hle
      omega
  next => simp at h

/-- A brace group that stands first behind blanks, read from a place that is not escaped. -/
abbrev group? (text : Text) : Option (Text × Text) := leadingGroup? false text

/-- A bracket group that stands first behind blanks, read from a place that is not escaped. -/
abbrev brackets? (text : Text) : Option (Text × Text) := leadingBrackets? false text

/-- What follows the bracket group of a text, if it starts with one. -/
def afterBrackets (text : Text) : Text := ((brackets? text).map (·.2)).getD text

/-- Passing over brackets does not lengthen a text. -/
theorem length_afterBrackets_le (text : Text) : (afterBrackets text).length ≤ text.length := by
  unfold afterBrackets
  cases h : brackets? text with
  | none => simp
  | some cut =>
    obtain ⟨content, after⟩ := cut
    exact Nat.le_of_lt (length_leadingBrackets?_lt h)

/-- Whether a text is one brace group from its first character to its last. A text that starts
with a brace which never closes counts when it ends in a brace. -/
def isFullyBraced : Text → Bool
  | '{' :: rest =>
    rest.getLast? == some '}' && ((cutAtBrace 1 false rest).map (·.2.isEmpty)).getD true
  | _ => false

/-- Remove one pair of braces when they enclose the whole of a trimmed text. -/
def stripBraces (text : Text) : Text :=
  let trimmed := Text.trim text
  if isFullyBraced trimmed then (trimmed.drop 1).dropLast else trimmed

end TexFigure.Source
