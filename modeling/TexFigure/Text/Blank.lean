/-!
# Blank characters

Two classes of blank. `isBlank` is the Unicode property White_Space: it decides what trimming
removes and where words end. `isAsciiBlank` is the smaller class that separates the tokens of a
source text: space, tab, line feed, form feed and carriage return, but no vertical tab.
-/

namespace TexFigure

/-- A text is its list of characters: every reader peels characters off the front. -/
abbrev Text := List Char

instance : Coe String Text := ⟨String.toList⟩

/-- The Unicode property White_Space. -/
def isBlank (c : Char) : Bool :=
  let n := c.toNat
  (9 ≤ n && n ≤ 13) || n == 0x20 || n == 0x85 || n == 0xA0 || n == 0x1680
    || (0x2000 ≤ n && n ≤ 0x200A) || n == 0x2028 || n == 0x2029 || n == 0x202F
    || n == 0x205F || n == 0x3000

/-- Space, tab, line feed, form feed, carriage return. -/
def isAsciiBlank (c : Char) : Bool :=
  c == ' ' || c == '\t' || c == '\n' || c == '\x0c' || c == '\r'

/-- Every blank that separates tokens is also trimmed. -/
theorem isBlank_of_isAsciiBlank {c : Char} (h : isAsciiBlank c = true) : isBlank c = true := by
  simp only [isAsciiBlank, Bool.or_eq_true, beq_iff_eq] at h
  rcases h with (((h | h) | h) | h) | h <;> subst h <;> decide

/-- What trimming leaves is no separator of tokens. -/
theorem not_isAsciiBlank {c : Char} (h : isBlank c = false) : isAsciiBlank c = false := by
  by_cases hc : isAsciiBlank c = true
  · rw [isBlank_of_isAsciiBlank hc] at h
    cases h
  · exact Bool.eq_false_iff.mpr hc

namespace Text

/-- The text without its leading blanks. -/
def trimStart (text : Text) : Text := text.dropWhile isBlank

/-- The text without its trailing blanks. -/
def trimEnd (text : Text) : Text := (text.reverse.dropWhile isBlank).reverse

/-- The text without blanks at either end. -/
def trim (text : Text) : Text := trimEnd (trimStart text)

/-- Whether a text is empty or consists of blanks. -/
def isBlankText (text : Text) : Bool := text.all isBlank

/-- What follows the token separators at the front of a text. -/
def skipBlanks (text : Text) : Text := text.dropWhile isAsciiBlank

end Text

end TexFigure
