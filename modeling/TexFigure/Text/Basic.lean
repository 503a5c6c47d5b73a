import TexFigure.Text.Blank
/-!
# Texts: searching, cutting and joining

`splitAtFirst` is the one search: it tries a reader at every suffix, from the longest, and stops
at the first that it accepts. Cutting at a character, containing a phrase and replacing one are
all built on the first place where something begins.
-/

namespace TexFigure.Text

/-- The length of a text in bytes of UTF-8. -/
def byteSize : Text → Nat
  | [] => 0
  | c :: rest => c.utf8Size + byteSize rest

/-- A text between a pair of braces. -/
def braced (text : Text) : Text := '{' :: text ++ ['}']

/-- A text between a pair of brackets. -/
def bracketed (text : Text) : Text := '[' :: text ++ [']']

/-- A phrase and what follows it make up the text that it stands in front of. -/
theorem isPrefixOf?_eq_some {phrase text rest : Text} :
    phrase.isPrefixOf? text = some rest ↔ text = phrase ++ rest := by
  induction phrase generalizing text with
  | nil =>
    show some text = some rest ↔ text = rest
    simp
  | cons c phrase ih =>
    cases text with
    | nil =>
      show none = some rest ↔ [] = c :: phrase ++ rest
      simp
    | cons d text =>
      show (if c == d then phrase.isPrefixOf? text else none) = some rest ↔ _
      split
      next h => simp [beq_iff_eq.1 h, ih]
      next h =>
        simp only [List.cons_append, List.cons.injEq, reduceCtorEq, false_iff, not_and]
        exact fun heq _ => h (beq_iff_eq.2 heq.symm)

/-- The first suffix that a reader accepts: what stands before it, and the reader's answer. -/
def splitAtFirst {α : Type} (accept : Text → Option α) : Text → Option (Text × α)
  | [] => (accept []).map (([], ·))
  | c :: rest =>
    match accept (c :: rest) with
    | some a => some ([], a)
    | none => (splitAtFirst accept rest).map fun (before, a) => (c :: before, a)

/-- Whether a phrase occurs in a text. -/
def contains (text phrase : Text) : Bool :=
  (splitAtFirst phrase.isPrefixOf? text).isSome

/-- Cut at the first occurrence of a phrase: the parts before and after it. -/
def cut? (text phrase : Text) : Option (Text × Text) :=
  splitAtFirst phrase.isPrefixOf? text

/-- Put a character in front of the first of several parts. -/
def consToFirst (c : Char) : List Text → List Text
  | [] => [[c]]
  | part :: parts => (c :: part) :: parts

/-- Cut at every character of a class; the parts between, empty ones included. -/
def splitWhere (cutsAt : Char → Bool) : Text → List Text
  | [] => [[]]
  | c :: rest =>
    if cutsAt c then [] :: splitWhere cutsAt rest
    else consToFirst c (splitWhere cutsAt rest)

/-- Cut at every occurrence of one character. -/
def splitOn (separator : Char) (text : Text) : List Text :=
  splitWhere (· == separator) text

/-- The words of a text: its maximal runs without a blank. -/
def words (text : Text) : List Text :=
  (splitWhere isBlank text).filter (!·.isEmpty)

/-- Drop one carriage return at the end of a line. -/
def dropReturn (line : Text) : Text :=
  if line.getLast? = some '\r' then line.dropLast else line

/-- The lines of a text. A line feed ends a line, together with one carriage return before it;
a last line without a line feed counts unless it is empty. -/
def lines (text : Text) : List Text :=
  match (splitOn '\n' text).reverse with
  | [] => []
  | last :: ended => (ended.map dropReturn).reverse ++ (if last.isEmpty then [] else [last])

/-- Write parts one after another with a separator between them. -/
def join (separator : Text) (parts : List Text) : Text := separator.intercalate parts

theorem join_singleton (separator part : Text) : join separator [part] = part :=
  List.intercalate_singleton

theorem join_cons_cons (separator part next : Text) (rest : List Text) :
    join separator (part :: next :: rest) =
      part ++ (separator ++ join separator (next :: rest)) := by
  rw [join, List.intercalate_cons_cons, List.append_assoc]
  rfl

/-- Replace a phrase wherever it occurs, from the left; occurrences do not overlap. The number
counts the characters of an occurrence that are still to be passed over. -/
def replaceFrom (phrase replacement : Text) : Nat → Text → Text
  | _, [] => []
  | skip + 1, _ :: rest => replaceFrom phrase replacement skip rest
  | 0, c :: rest =>
    if phrase.isPrefixOf (c :: rest) then
      replacement ++ replaceFrom phrase replacement (phrase.length - 1) rest
    else c :: replaceFrom phrase replacement 0 rest

/-- Replace every occurrence of a phrase that is not empty. -/
def replace (phrase replacement text : Text) : Text := replaceFrom phrase replacement 0 text

/-- Lower-case the ASCII letters. -/
def toLower (text : Text) : Text := text.map Char.toLower

end TexFigure.Text
