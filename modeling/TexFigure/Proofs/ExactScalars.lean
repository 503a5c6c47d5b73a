import Mathlib.Data.Int.Log
import Mathlib.Data.Rat.Floor
import Mathlib.Tactic.Linarith
import TexFigure.Arithmetic.Scalar
/-!
# Exact scalars

Rational numbers are scalars too: nothing is rounded, every number is finite, and the largest power
of ten that is at most a number is that power. The way to whole numbers is cut to 64 bits as it is
for doubles, so a layout in exact numbers still has to show that it stays within them.
-/

namespace TexFigure.Scalar

/-- A whole number bounded to 64 bits with a sign. -/
def cutToWord (n : Int) : Int := max (-9223372036854775808) (min n 9223372036854775807)

instance : Scalar ℚ where
  minimum := min
  maximum := max
  abs x := |x|
  atMost a b := decide (a ≤ b)
  isFinite _ := true
  decade x := 10 ^ Int.log 10 x
  ceiling x := cutToWord ⌈x⌉
  floor x := cutToWord ⌊x⌋
  ofInt n := n

theorem cutToWord_of_abs_le {n : Int} (h : |n| ≤ 9223372036854775807) : cutToWord n = n := by
  obtain ⟨hlow, hhigh⟩ := abs_le.mp h
  unfold cutToWord
  omega

/-- A number of moderate size is rounded up without being cut. -/
theorem ceiling_eq {x : ℚ} (h : |x| ≤ 2 ^ 62) : Scalar.ceiling x = ⌈x⌉ := by
  obtain ⟨hlow, hhigh⟩ := abs_le.mp h
  refine cutToWord_of_abs_le (abs_le.mpr ⟨Int.le_ceil_iff.mpr ?_, Int.ceil_le.mpr ?_⟩)
  · push_cast
    linarith
  · push_cast
    linarith

/-- A number of moderate size is rounded down without being cut. -/
theorem floor_eq {x : ℚ} (h : |x| ≤ 2 ^ 62) : Scalar.floor x = ⌊x⌋ := by
  obtain ⟨hlow, hhigh⟩ := abs_le.mp h
  refine cutToWord_of_abs_le (abs_le.mpr ⟨Int.le_floor.mpr ?_, Int.floor_le_iff.mpr ?_⟩)
  · push_cast
    linarith
  · push_cast
    linarith

end TexFigure.Scalar
