import TexFigure.Source.Group
/-!
# Control sequences

A control sequence is a backslash and letters. A search for one looks for the whole name: `\int`
does not occur in `\intercal`.
-/

namespace TexFigure.Source

/-- Whether a character is an ASCII letter. -/
abbrev isLetter (c : Char) : Bool := c.isAlpha

/-- Whether a text begins with an ASCII letter. -/
def beginsWithLetter (text : Text) : Bool := text.head?.any isLetter

/-- Cut at the first occurrence of a name that no letter follows: what stands before it, and
what follows it. Occurrences that a letter follows do not overlap the ones tried after them; the
number counts the characters of such an occurrence that are still to be passed over. -/
def cutAtCommand (name : Text) : Nat → Text → Option (Text × Text)
  | _, [] => if name = [] then some ([], []) else none
  | skip + 1, c :: rest =>
    (cutAtCommand name skip rest).map fun (before, after) => (c :: before, after)
  | 0, c :: rest =>
    match name.isPrefixOf? (c :: rest) with
    | some after =>
      if beginsWithLetter after then
        (cutAtCommand name (name.length - 1) rest).map
          fun (before, after) => (c :: before, after)
      else some ([], after)
    | none => (cutAtCommand name 0 rest).map fun (before, after) => (c :: before, after)

/-- A cut at a command loses only its name. -/
theorem cutAtCommand_eq {name : Text} {skip : Nat} {text before after : Text}
    (h : cutAtCommand name skip text = some (before, after)) : text = before ++ name ++ after := by
  induction text generalizing skip before with
  | nil =>
    cases skip <;> simp only [cutAtCommand] at h <;> split at h <;> simp_all
  | cons c rest ih =>
    cases skip with
    | succ skip =>
      obtain ⟨⟨b, a⟩, hcut, heq⟩ := Option.map_eq_some_iff.1 h
      simp only [Prod.mk.injEq] at heq
      obtain ⟨rfl, rfl⟩ := heq
      rw [ih hcut]
      rfl
    | zero =>
      rw [cutAtCommand] at h
      split at h
      next tail htail =>
        split at h
        next =>
          obtain ⟨⟨b, a⟩, hcut, heq⟩ := Option.map_eq_some_iff.1 h
          simp only [Prod.mk.injEq] at heq
          obtain ⟨rfl, rfl⟩ := heq
          rw [ih hcut]
          rfl
        next =>
          simp only [Option.some.injEq, Prod.mk.injEq] at h
          obtain ⟨rfl, rfl⟩ := h
          rw [List.nil_append]
          exact Text.isPrefixOf?_eq_some.1 htail
      next =>
        obtain ⟨⟨b, a⟩, hcut, heq⟩ := Option.map_eq_some_iff.1 h
        simp only [Prod.mk.injEq] at heq
        obtain ⟨rfl, rfl⟩ := heq
        rw [ih hcut]
        rfl

/-- What follows the first whole occurrence of a command. -/
def afterCommand? (name text : Text) : Option Text :=
  (cutAtCommand name 0 text).map (·.2)

/-- What follows a command is shorter than the text by the command at least. -/
theorem length_afterCommand?_le {name text after : Text}
    (h : afterCommand? name text = some after) : after.length + name.length ≤ text.length := by
  obtain ⟨⟨before, a⟩, hcut, rfl⟩ := Option.map_eq_some_iff.1 h
  have := congrArg List.length (cutAtCommand_eq hcut)
  simp at this ⊢
  omega

/-- Whether a command occurs. -/
def hasCommand (name text : Text) : Bool := (cutAtCommand name 0 text).isSome

/-- One argument of a command: a brace group, a control sequence, or a single character. -/
def argument? (text : Text) : Option (Text × Text) :=
  match Text.skipBlanks text with
  | [] => none
  | '{' :: rest => some (braceContent rest)
  | '\\' :: rest =>
    match rest.takeWhile isLetter, rest with
    | [], [] => some (['\\'], [])
    | [], c :: after => some (['\\', c], after)
    | name, _ => some ('\\' :: name, rest.dropWhile isLetter)
  | c :: rest => some ([c], rest)

end TexFigure.Source
