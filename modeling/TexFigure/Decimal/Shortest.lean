import TexFigure.Decimal.Binary
/-!
# The shortest decimal that reads back

The reals that round to a finite double form an interval around it, which includes its ends
exactly when the significand is even. The shortest decimal is a point of the coarsest decimal grid
that meets the interval; of two such points it is the one nearer to the double, and at equal
distance a rule decides.
-/

namespace TexFigure.Decimal

/-- Which of two equally near decimals is taken. -/
inductive Tie
  | up | even
  deriving DecidableEq, Repr

/-- An interval of whole numbers around a value, with or without its ends. -/
structure Interval where
  low : Nat
  value : Nat
  high : Nat
  closed : Bool

namespace Interval

/-- Whether a number belongs to the interval. -/
def holds (i : Interval) (n : Nat) : Bool :=
  if i.closed then i.low ≤ n && n ≤ i.high else i.low < n && n < i.high

/-- The neighbour of the value on the grid of multiples of `step` that belongs to the interval,
as a count of steps; the nearer one where both do. -/
def nearest? (i : Interval) (tie : Tie) (step : Nat) : Option Nat :=
  let below := i.value / step
  let above := below + 1
  match i.holds (below * step), i.holds (above * step) with
  | true, false => some below
  | false, true => some above
  | false, false => none
  | true, true =>
    let fromBelow := i.value - below * step
    let fromAbove := above * step - i.value
    if fromBelow < fromAbove then some below
    else if fromAbove < fromBelow then some above
    else match tie with
      | .up => some above
      | .even => if below % 2 = 0 then some below else some above

/-- The nearest point of the coarsest grid, among steps of `10 ^ places` and finer, that meets
the interval; the value itself lies on the finest. -/
def coarsest (i : Interval) (tie : Tie) : (places : Nat) → Decimal
  | 0 => ⟨i.value, 0⟩
  | places + 1 =>
    match i.nearest? tie (Nat.pow 10 (places + 1)) with
    | some count => ⟨count, places + 1⟩
    | none => i.coarsest tie places

end Interval

/-- The interval that rounds to `significand * 2 ^ exponent`, in quarters of the last binary
place, each written as a whole number of powers of ten. Below a power of two the next double is
only half as far away. -/
def roundingInterval (significand : Nat) (exponent : Int) : Interval × Int :=
  let quarter := ofBinary 1 (exponent - 2)
  let below := if significand = Nat.pow 2 52 then 1 else 2
  ({ low := (4 * significand - below) * quarter.coefficient
     value := 4 * significand * quarter.coefficient
     high := (4 * significand + 2) * quarter.coefficient
     closed := significand % 2 = 0 },
   quarter.exponent)

/-- The shortest decimal that reads back as `significand * 2 ^ exponent`, for a significand that
is not zero. -/
def shortest (tie : Tie) (significand : Nat) (exponent : Int) : Decimal :=
  let (interval, unit) := roundingInterval significand exponent
  let found := interval.coarsest tie (digitCount interval.value)
  ⟨found.coefficient, found.exponent + unit⟩

end TexFigure.Decimal
