import TexFigure.Decimal.Reader
/-!
# Tokens of an expression

Blanks separate tokens and mean nothing else. A number is a run of digits and points, with an
exponent only when digits follow the mark (so `2e` is a number and a name). A name starts with a
letter, or with a backslash and goes on with letters and digits. Any other character is a token
of its own.
-/

namespace TexFigure.Expression

/-- A token; a name keeps whether it was written with a backslash. -/
inductive Token
  | number (digits : Text)
  | name (backslash : Bool) (word : Text)
  | symbol (c : Char)
  deriving DecidableEq, Repr

/-- The first character of a token. -/
def Token.first : Token → Char
  | .number digits => digits.headD ' '
  | .name backslash word => if backslash then '\\' else word.headD ' '
  | .symbol c => c

/-- A token and where it stands: the counts of characters before it and up to its end. -/
structure Lexeme where
  token : Token
  start : Nat
  stop : Nat
  deriving DecidableEq, Repr

/-- Whether a character belongs to the mantissa of a number. -/
def isMantissa (c : Char) : Bool := c.isDigit || c == '.'

/-- The length of an exponent at the front of a text: its mark, perhaps a sign, and digits. -/
def exponentLength : Text → Nat
  | mark :: rest =>
    let signLength := match rest with
      | '+' :: _ | '-' :: _ => 1
      | _ => 0
    let digits := (rest.drop signLength).takeWhile Char.isDigit
    if (mark == 'e' || mark == 'E') && !digits.isEmpty then 1 + signLength + digits.length else 0
  | [] => 0

/-- The length of the number at the front of a text. -/
def numberLength (text : Text) : Nat :=
  let mantissa := (text.takeWhile isMantissa).length
  mantissa + exponentLength (text.drop mantissa)

/-- The token that starts with a character, and its length less one. -/
def readToken (c : Char) (rest : Text) : Token × Nat :=
  if isMantissa c then
    let length := numberLength (c :: rest)
    (.number ((c :: rest).take length), length - 1)
  else if c = '\\' then
    let word := rest.takeWhile Char.isAlphanum
    (.name true word, word.length)
  else if c.isAlpha then
    let word := rest.takeWhile Char.isAlphanum
    (.name false (c :: word), word.length)
  else (.symbol c, 0)

/-- The tokens of a text that begins behind `position` characters. The characters of a token
that was read are passed over; `skip` counts them. -/
def lexFrom : (skip position : Nat) → Text → List Lexeme
  | _, _, [] => []
  | skip + 1, position, _ :: rest => lexFrom skip (position + 1) rest
  | 0, position, c :: rest =>
    if isBlank c then lexFrom 0 (position + 1) rest
    else
      let (token, more) := readToken c rest
      ⟨token, position, position + more + 1⟩ :: lexFrom more (position + 1) rest

/-- The tokens of a text. -/
def lex (source : Text) : List Lexeme := lexFrom 0 0 source

end TexFigure.Expression
