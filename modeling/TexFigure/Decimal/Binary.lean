/-!
# Doubles as binary fractions

A finite double is a whole number times a power of two. This module takes a double apart into
that form and gives its exact decimal expansion, which always ends: two divides ten.
-/

namespace TexFigure

/-- What a double stands for, its sign apart. -/
inductive Magnitude
  | nan
  | infinite
  /-- The value `significand * 2 ^ exponent`. -/
  | finite (significand : Nat) (exponent : Int)
  deriving DecidableEq, Repr

/-- A decimal number `coefficient * 10 ^ exponent`. -/
structure Decimal where
  coefficient : Nat
  exponent : Int
  deriving DecidableEq, Repr

namespace Decimal

/-- Whether the sign bit of a double is set. -/
def isNegative (x : Float) : Bool := x.toBits >>> 63 == 1

/-- Take a double apart: 11 bits of exponent, 52 of fraction, and a leading one that is stored
only for the smallest exponent, where it is absent. -/
def magnitude (x : Float) : Magnitude :=
  let bits : Nat := x.toBits.toNat % Nat.pow 2 63
  let biased : Nat := bits / Nat.pow 2 52
  let fraction : Nat := bits % Nat.pow 2 52
  if biased = 2047 then
    if fraction = 0 then .infinite else .nan
  else if biased = 0 then .finite fraction (-1074)
  else .finite (Nat.pow 2 52 + fraction) ((biased : Int) - 1075)

/-- The exact decimal form of `significand * 2 ^ exponent`: a half is five tenths. -/
def ofBinary (significand : Nat) (exponent : Int) : Decimal :=
  if 0 ≤ exponent then ⟨significand * Nat.pow 2 exponent.toNat, 0⟩
  else ⟨significand * Nat.pow 5 (-exponent).toNat, exponent⟩

/-- The number of decimal digits of a whole number; zero has one. -/
def digitCount (n : Nat) : Nat := (Nat.toDigits 10 n).length

/-- Divide and round to the nearest whole number, a half to the even neighbour. -/
def divideToEven (n divisor : Nat) : Nat :=
  let quotient := n / divisor
  let twice := 2 * (n % divisor)
  if divisor < twice ∨ (twice = divisor ∧ quotient % 2 = 1) then quotient + 1 else quotient

/-- Round to a whole multiple of `10 ^ exponent`, a half to the even neighbour. -/
def roundTo (exponent : Int) (value : Decimal) : Decimal :=
  if value.exponent ≤ exponent then
    ⟨divideToEven value.coefficient (Nat.pow 10 (exponent - value.exponent).toNat), exponent⟩
  else ⟨value.coefficient * Nat.pow 10 (value.exponent - exponent).toNat, exponent⟩

/-- Round to a number of significant digits, a half to the even neighbour. A number that rounds
up to the next power of ten keeps the number of its digits. -/
def roundToDigits (count : Nat) (value : Decimal) : Decimal :=
  let rounded := roundTo (digitCount value.coefficient + value.exponent - count) value
  if digitCount rounded.coefficient = count + 1 then
    ⟨rounded.coefficient / 10, rounded.exponent + 1⟩
  else rounded

end Decimal

end TexFigure
