import TexFigure.Decimal.Binary
/-!
# Arithmetic on doubles

Operations on doubles whose rules matter at the edges: the smaller and the larger of two numbers
pass over a value that is not a number, a whole power is a product of repeated squares, a
remainder is exact and has the sign of the dividend, and a number is cut to a whole one within
the bounds of the target.
-/

namespace TexFigure.Double

/-- The smaller of two numbers; of two equal ones the first, and a value that is not a number is
passed over. -/
def minimum (a b : Float) : Float := if b < a ∨ a.isNaN then b else a

/-- The larger of two numbers; of two equal ones the first, and a value that is not a number is
passed over. -/
def maximum (a b : Float) : Float := if a < b ∨ a.isNaN then b else a

/-- The nearest number within bounds; a value that is not a number stays as it is. -/
def clamp (low high x : Float) : Float :=
  if x < low then low else if high < x then high else x

/-- The product of `x` to the powers of two that make up `n`, on top of `product`; `rounds`
bounds the number of binary digits of `n`. -/
def powerOnto (product x : Float) (n : Nat) : (rounds : Nat) → Float
  | 0 => product
  | rounds + 1 =>
    let product := if n % 2 = 1 then product * x else product
    if n / 2 = 0 then product else powerOnto product (x * x) (n / 2) rounds

/-- A whole power by repeated squaring; a negative one is the reciprocal of the positive. -/
def power (x : Float) (n : Int) : Float :=
  let product := powerOnto 1.0 x n.natAbs (n.natAbs + 1)
  if n < 0 then 1.0 / product else product

/-- The exact remainder of `a` divided by `b`, with the sign of `a`. -/
def remainder (a b : Float) : Float :=
  match Decimal.magnitude a, Decimal.magnitude b with
  | .finite m p, .finite n q =>
    if n = 0 then 0.0 / 0.0
    else if m = 0 then a
    else
      let unit := min p q
      let rest := m * Nat.pow 2 (p - unit).toNat % (n * Nat.pow 2 (q - unit).toNat)
      let size := (Float.ofNat rest).scaleB unit
      if Decimal.isNegative a then -size else size
  | .finite .., .infinite => a
  | _, _ => 0.0 / 0.0

/-- Cut the fraction off a number and bound it to 64 bits with a sign; zero for a value that is
not a number. -/
def toInt (x : Float) : Int := x.toInt64.toInt

/-- An angle in radians, given in degrees. -/
def radians (degrees : Float) : Float := degrees * (3.14159265358979323846264338327950288 / 180.0)

/-- An angle in degrees, given in radians. -/
def degrees (radians : Float) : Float := radians * 57.2957795130823208767981548141051703

end TexFigure.Double
