import TexFigure.Text.Basic
import TexFigure.Decimal.Shortest
/-!
# Written numbers

The layouts in which numbers are written. `plain` is the one of all generated code and drawings:
the shortest digits that read back, in positional notation whatever the exponent, without a
fraction when there is none. The others serve answers with a fixed number of digits and the
numbers of JSON documents.
-/

namespace TexFigure.Decimal

/-- The decimal digits of a whole number. -/
def digits (n : Nat) : Text := Nat.toDigits 10 n

/-- Positional notation of `coefficient * 10 ^ exponent`, with a point only before digits. -/
def positional (value : Decimal) : Text :=
  let digits := digits value.coefficient
  if 0 ≤ value.exponent then digits ++ List.replicate value.exponent.toNat '0'
  else
    let places := (-value.exponent).toNat
    let padded := List.replicate (places + 1 - digits.length) '0' ++ digits
    padded.take (padded.length - places) ++ '.' :: padded.drop (padded.length - places)

/-- The exponent of the leading digit. -/
def leadingExponent (value : Decimal) : Int :=
  digitCount value.coefficient - 1 + value.exponent

/-- One digit, the others behind a point, and the exponent of the leading digit. -/
def scientific (mark : Int → Text) (value : Decimal) : Text :=
  let mantissa := match digits value.coefficient with
    | first :: second :: rest => first :: '.' :: second :: rest
    | short => short
  mantissa ++ mark value.leadingExponent

/-- A whole number with a minus sign when it is negative. -/
def signed (n : Int) : Text := if n < 0 then '-' :: digits n.natAbs else digits n.natAbs

/-- Write a double: its sign, and what `finite` makes of its magnitude. A value that is not a
number has no sign. -/
def layOut (finite : Nat → Int → Text) (x : Float) : Text :=
  let sign : Text := if isNegative x then ['-'] else []
  match magnitude x with
  | .nan => "NaN"
  | .infinite => sign ++ "inf"
  | .finite significand exponent => sign ++ finite significand exponent

/-- The shortest digits that read back, in positional notation. -/
def plain : Float → Text :=
  layOut fun significand exponent =>
    if significand = 0 then ['0'] else positional (shortest .up significand exponent)

/-- Twelve significant digits and an exponent. -/
def twelveDigits : Float → Text :=
  layOut fun significand exponent =>
    if significand = 0 then "0.00000000000e0"
    else scientific (fun e => 'e' :: signed e) (roundToDigits 12 (ofBinary significand exponent))

/-- A fixed number of places behind the point, a half rounded to the even neighbour. -/
def fixed (places : Nat) : Float → Text :=
  layOut fun significand exponent =>
    positional (roundTo (-places) (ofBinary significand exponent))

/-- Drop the zeros that end a fraction, and the point with the last of its digits. -/
def dropTrailingZeros (text : Text) : Text :=
  match text.reverse.dropWhile (· == '0') with
  | '.' :: rest => rest.reverse
  | rest => rest.reverse

/-- At most three places behind the point, the form of coordinates and lengths: no zeros that end
a fraction, no sign of zero, and zero for a value that is not finite. A half is rounded away from
zero. -/
def brief (x : Float) : Text :=
  let rounded := (x * 1000.0).round / 1000.0
  if x.isFinite = false ∨ rounded == 0.0 then ['0'] else dropTrailingZeros (fixed 3 rounded)

/-- A number of a JSON document: positional with a fraction from 0.00001 up to sixteen digits
before the point, otherwise with a signed exponent. -/
def documentNumber : Float → Text :=
  layOut fun significand exponent =>
    if significand = 0 then "0.0"
    else
      let value := shortest .even significand exponent
      let leading := value.leadingExponent
      if leading < -5 ∨ 16 ≤ leading then
        scientific (fun e => if 0 ≤ e then "e+" ++ digits e.toNat else 'e' :: signed e) value
      else if 0 ≤ value.exponent then positional value ++ ".0"
      else positional value

/-- A whole number. -/
def nat (n : Nat) : Text := digits n

end TexFigure.Decimal
