import TexFigure.Arithmetic.Scalar
import TexFigure.Chart.Basic
import TexFigure.Expression.Compile
/-!
# Ticks

Ticks stand at the multiples of a step that is one, two, five or ten times a power of ten, the
least of these that keeps to the wanted number of ticks. Bounds count as reached when they are
missed by a billionth of a step.
-/

namespace TexFigure.Chart

variable {α : Type} [Scalar α]

/-- The step of ticks that are not closer than `raw`. -/
def tickStep (raw : α) : α :=
  let decade := Scalar.decade raw
  let steps : List α := [1.0 * decade, 2.0 * decade, 5.0 * decade, 10.0 * decade]
  (steps.find? (Scalar.atMost raw ·)).getD (10.0 * decade)

/-- The multiples of a step between two of its counts. -/
def multiples (step : α) (first last : Int) : List α :=
  (List.range (last - first + 1).toNat).map fun (k : Nat) =>
    Scalar.ofInt (first + (k : Int)) * step

/-- Ticks from a lower to a higher bound, about `target` of them. -/
def ticks (low high : α) (target : Nat) : List α :=
  let span := high - low
  if Scalar.isFinite span && !Scalar.atMost span (0.0 : α) then
    let step := tickStep (span / Scalar.ofInt (max target 1))
    multiples step (Scalar.ceiling (low / step - (1e-9 : α)))
      (Scalar.floor (high / step + (1e-9 : α)))
  else [low]

/-- A range with a lower bound below its higher one: a point is widened, and a range that is
empty or not finite goes from zero to one. -/
def saneRange (range : Domain) : Domain :=
  let (low, high) := range
  if !low.isFinite || !high.isFinite || high < low then (0.0, 1.0)
  else if high - low < 1e-12 then (low - 1.0, high + 1.0)
  else (low, high)

/-- The smallest range that holds numbers; infinite when there are none. -/
def hull (values : List Float) : Domain :=
  values.foldl (fun (low, high) value => (Double.minimum low value, Double.maximum high value))
    (1.0 / 0.0, -1.0 / 0.0)

/-- The bound that a setting gives, if it is a constant. -/
def bound? (setting : Text) : Option Float :=
  if Text.isBlankText setting then none else Expression.constant? setting

/-- The range of an axis: that of its settings, and of the data where they give none. -/
def axisRange (low high : Text) (data : Domain) : Domain :=
  saneRange ((bound? low).getD data.1, (bound? high).getD data.2)

end TexFigure.Chart
