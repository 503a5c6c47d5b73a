import TexFigure.Text.Basic
/-!
# Reading numbers

A numeral is a sign, digits with at most one point among or around them, and an exponent. It is
read as the double nearest to its value. The words for infinity and for a value that is not a
number are read in any letter case. There are no blanks, no separators between digits and no
other bases.
-/

namespace TexFigure.Decimal

/-- The whole number that digits write. -/
def ofDigits (digits : Text) : Nat :=
  digits.foldl (fun n c => 10 * n + (c.toNat - '0'.toNat)) 0

/-- A written number: its digits before and behind the point, and its exponent. -/
structure Numeral where
  negative : Bool
  whole : Text
  fraction : Text
  exponent : Int
  deriving DecidableEq, Repr

/-- Put a sign on a double. -/
def withSign (negative : Bool) (x : Float) : Float := if negative then -x else x

/-- The double nearest to `coefficient * 10 ^ exponent`. Beyond the range of doubles the exponent
decides alone. -/
def nearestFloat (coefficient : Nat) (exponent : Int) : Float :=
  let size := (Nat.toDigits 10 coefficient).length + exponent
  if coefficient = 0 ∨ size < -400 then 0.0
  else if 400 < size then 1.0 / 0.0
  else Float.ofScientific coefficient (exponent < 0) exponent.natAbs

/-- The double nearest to a numeral. -/
def Numeral.toFloat (n : Numeral) : Float :=
  withSign n.negative <|
    nearestFloat (ofDigits (n.whole ++ n.fraction)) (n.exponent - n.fraction.length)

/-- Read an optional sign: whether it is a minus, and the rest. -/
def readSign : Text → Bool × Text
  | '-' :: rest => (true, rest)
  | '+' :: rest => (false, rest)
  | text => (false, text)

/-- Read an exponent up to the end of the text; no text is the exponent zero. -/
def readExponent? : Text → Option Int
  | [] => some 0
  | mark :: rest =>
    let (negative, digits) := readSign rest
    if (mark == 'e' || mark == 'E') && !digits.isEmpty && digits.all Char.isDigit then
      some (if negative then -(ofDigits digits : Int) else ofDigits digits)
    else none

/-- Read a numeral that fills the whole text. -/
def readNumeral? (text : Text) : Option Numeral := do
  let (negative, body) := readSign text
  let whole := body.takeWhile Char.isDigit
  let (fraction, rest) := match body.dropWhile Char.isDigit with
    | '.' :: rest => (rest.takeWhile Char.isDigit, rest.dropWhile Char.isDigit)
    | rest => ([], rest)
  if whole.isEmpty && fraction.isEmpty then none
  else
    let exponent ← readExponent? rest
    return ⟨negative, whole, fraction, exponent⟩

/-- Read a word for infinity or for a value that is not a number. -/
def readWord? (text : Text) : Option Float :=
  let (negative, word) := readSign text
  let word := Text.toLower word
  if word = "inf" ∨ word = "infinity" then some (withSign negative (1.0 / 0.0))
  else if word = "nan" then some (withSign negative (0.0 / 0.0))
  else none

/-- Read a double. -/
def readFloat? (text : Text) : Option Float :=
  ((readNumeral? text).map Numeral.toFloat).orElse fun _ => readWord? text

/-- Read a whole number below a bound, with an optional plus sign. -/
def readNat? (bound : Nat) (text : Text) : Option Nat :=
  let digits := match text with
    | '+' :: rest => rest
    | text => text
  if !digits.isEmpty && digits.all Char.isDigit && ofDigits digits < bound then
    some (ofDigits digits)
  else none

end TexFigure.Decimal
