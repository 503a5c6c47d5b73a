import TexFigure.Proofs.Rounding
/-!
# Magnitudes of results

What is known of a sum, a difference or a product before its last bits are: a bound of it, when the
bound is a double (`AtMost.add`, `AtMost.sub`, `AtMost.mul`), and its sign (`sign?_mul`,
`sign?_div`). With one and with zero nothing is rounded, so that the result is one of the numbers,
or zero. A number that is cut to a range is one of the ends or stays as it is (`clamp_cases`).
-/

namespace TexFigure.Double

open Float.Model Float.Model.UnpackedFloat

/-! ## Bounds of results -/

variable {u v : UnpackedFloat} {q r t : ℚ}

/-- Only numbers that are not negative are at most anything. -/
theorem AtMost.nonneg (h : AtMost r u) : 0 ≤ r := by
  unfold AtMost at h
  split at h
  next => exact h
  next m e hm => exact (mul_nonneg m.cast_nonneg (zpow_nonneg two_pos.le e)).trans h.2
  next => exact h.elim

theorem AtMost.mono (h : AtMost q u) (hle : q ≤ r) : AtMost r u := by
  unfold AtMost at h ⊢
  split at h
  next => exact h.trans hle
  next => exact ⟨h.1, h.2.trans hle⟩
  next => exact h.elim

/-- A bounded number is zero, or it has a significand. -/
theorem AtMost.cases (h : AtMost r u) :
    u = .zero .positive ∨
      ∃ m e hm, u = .finite .positive m e hm ∧ Canonical m e ∧ m * 2 ^ e ≤ r := by
  unfold AtMost at h
  split at h
  next => exact Or.inl rfl
  next m e hm => exact Or.inr ⟨m, e, hm, rfl, h⟩
  next => exact h.elim

/-- A number with all bits of the format is not shifted to the left. -/
theorem target_of_bits {m : Nat} {e : Int} (h : 2 ^ 52 ≤ m ∨ e ≤ -1074) : e ≤ target m e := by
  unfold target
  rcases h with h | h
  · have hlog : 52 ≤ m.log2 := (Nat.le_log2 (by omega)).mpr h
    omega
  · omega

/-- A product stays below a double that the product of the bounds stays below. -/
theorem AtMost.mul (hu : AtMost q u) (hv : AtMost r v) (ht : IsDouble t) (h : q * r ≤ t) :
    AtMost t (UnpackedFloat.mul .binary64 u v) := by
  have hzero : AtMost t (.zero .positive) := (mul_nonneg hu.nonneg hv.nonneg).trans h
  obtain rfl | ⟨m, d, hm, rfl, hcanonical, hle⟩ := hu.cases
  · obtain rfl | ⟨n, e, hn, rfl, -, -⟩ := hv.cases <;> exact hzero
  · obtain rfl | ⟨n, e, hn, rfl, hcanonical', hle'⟩ := hv.cases
    · exact hzero
    · refine roundWithAccuracy_atMost (Nat.mul_pos hm hn) (target_of_bits ?_) ht ?_
      · rcases hcanonical.leading with hlead | hleast
        · exact Or.inl (hlead.trans (Nat.le_mul_of_pos_right m hn))
        · rcases hcanonical'.leading with hlead | hleast'
          · exact Or.inl (hlead.trans (Nat.le_mul_of_pos_left n hm))
          · exact Or.inr (by omega)
      · refine le_trans ?_ h
        calc ((m * n : Nat) : ℚ) * 2 ^ (d + e) = m * 2 ^ d * (n * 2 ^ e) := by
              rw [Nat.cast_mul, zpow_add₀ two_ne_zero]
              ring
          _ ≤ q * r := mul_le_mul hle hle' (mul_nonneg n.cast_nonneg (zpow_nonneg two_pos.le e))
              hu.nonneg

/-- Normalising rounds once, so it does not pass a double either. -/
theorem normalize_atMost {n : Int} {e : Int} (hn : 0 ≤ n) (ht : IsDouble t)
    (h : (n : ℚ) * 2 ^ e ≤ t) : AtMost t (UnpackedFloat.normalize .binary64 n e .positive) := by
  obtain ⟨m, rfl⟩ := Int.eq_ofNat_of_zero_le hn
  cases m with
  | zero => exact le_trans (by simp) h
  | succ m => exact round_atMost (Nat.succ_pos m) ht h

/-- A sum is computed on the smaller of the two exponents, exactly, and then normalised. -/
theorem add_finite (m n : Nat) (d e : Int) (hm : 0 < m) (hn : 0 < n) :
    UnpackedFloat.add .binary64 (.finite .positive m d hm) (.finite .positive n e hn) =
      UnpackedFloat.normalize .binary64
        (m * 2 ^ (d - min d e).toNat + n * 2 ^ (e - min d e).toNat : Nat) (min d e) .positive := by
  rw [← Nat.shiftLeft_eq, ← Nat.shiftLeft_eq, Int.natCast_add]
  rfl

/-- So is a difference, which may come out negative on the way. -/
theorem sub_finite (m n : Nat) (d e : Int) (hm : 0 < m) (hn : 0 < n) :
    UnpackedFloat.sub .binary64 (.finite .positive m d hm) (.finite .positive n e hn) =
      UnpackedFloat.normalize .binary64
        ((m * 2 ^ (d - min d e).toNat : Nat) - (n * 2 ^ (e - min d e).toNat : Nat))
        (min d e) .positive := by
  rw [← Nat.shiftLeft_eq, ← Nat.shiftLeft_eq]
  rfl

/-- A sum stays below a double that the sum of the bounds stays below. -/
theorem AtMost.add (hu : AtMost q u) (hv : AtMost r v) (ht : IsDouble t) (h : q + r ≤ t) :
    AtMost t (UnpackedFloat.add .binary64 u v) := by
  obtain rfl | ⟨m, d, hm, rfl, -, hle⟩ := hu.cases
  · obtain rfl | ⟨n, e, hn, rfl, -, -⟩ := hv.cases
    · exact (add_nonneg hu.nonneg hv.nonneg).trans h
    · exact hv.mono (by linarith [hu.nonneg])
  · obtain rfl | ⟨n, e, hn, rfl, -, hle'⟩ := hv.cases
    · exact hu.mono (by linarith [hv.nonneg])
    · rw [mul_pow_sub m (min_le_left d e)] at hle
      rw [mul_pow_sub n (min_le_right d e)] at hle'
      rw [add_finite]
      refine normalize_atMost (Int.natCast_nonneg _) ht ?_
      rw [Int.cast_natCast, Nat.cast_add, add_mul]
      linarith

/-- A difference that is not negative is at most the number that was lessened. -/
theorem AtMost.sub {m : Nat} {d : Int} (hm : 0 < m) (hu : AtMost t (.finite .positive m d hm))
    (hv : AtMost (m * 2 ^ d) v) (ht : IsDouble t) :
    AtMost t (UnpackedFloat.sub .binary64 (.finite .positive m d hm) v) := by
  obtain rfl | ⟨n, e, hn, rfl, -, hle⟩ := hv.cases
  · exact hu
  · rw [mul_pow_sub m (min_le_left d e), mul_pow_sub n (min_le_right d e), mul_pow_le_iff] at hle
    have hu := hu.2
    rw [mul_pow_sub m (min_le_left d e)] at hu
    rw [sub_finite, ← Int.ofNat_sub hle]
    refine normalize_atMost (Int.natCast_nonneg _) ht (le_trans ?_ hu)
    rw [Int.cast_natCast, mul_pow_le_iff]
    exact Nat.sub_le _ _

/-! ## Results that stay exact -/

theorem one_parts : parts 1.0 = .finite .positive (2 ^ 52) (-52) (by decide) := rfl

theorem zero_parts : parts 0.0 = .zero .positive := rfl

/-- Arithmetic on doubles takes the parts, computes with them and puts the result together. -/
theorem mul_eq (x y : Float) :
    x * y = ofParts (UnpackedFloat.mul .binary64 (parts x) (parts y)) := rfl

theorem add_eq (x y : Float) :
    x + y = ofParts (UnpackedFloat.add .binary64 (parts x) (parts y)) := rfl

theorem sub_eq (x y : Float) :
    x - y = ofParts (UnpackedFloat.sub .binary64 (parts x) (parts y)) := rfl

theorem div_eq (x y : Float) :
    x / y = ofParts (UnpackedFloat.div .binary64 (parts x) (parts y)) := rfl

variable {x y : Float}

/-- A product with one needs no rounding. -/
theorem mul_one_of_atMost (h : AtMost r (parts x)) : x * 1.0 = x := by
  have hmul : UnpackedFloat.mul .binary64 (parts x) (parts 1.0) = parts x := by
    obtain hx | ⟨m, e, hm, hx, hcanonical, -⟩ := h.cases
    · rw [hx]
      rfl
    · rw [hx]
      exact roundWithAccuracy_shifted .positive hm hcanonical 52
  rw [mul_eq, hmul, ofParts_parts]

/-- A zero has the sign that it gives to the product. -/
theorem mul_zero_of_atMost {sign : Sign} (h : AtMost r (parts x)) (hy : parts y = .zero sign) :
    parts (x * y) = .zero sign := by
  have hmul : UnpackedFloat.mul .binary64 (parts x) (parts y) = .zero sign := by
    rw [hy]
    obtain hx | ⟨m, e, hm, hx, -⟩ := h.cases <;> rw [hx] <;> cases sign <;> rfl
  rw [mul_eq, hmul]
  exact parts_ofParts trivial

/-- Zero is neutral in sums of what is not negative. It is not in general: the negative zero would
become positive. -/
theorem add_zero_of_atMost (h : AtMost r (parts x)) : x + 0.0 = x := by
  have hadd : UnpackedFloat.add .binary64 (parts x) (parts 0.0) = parts x := by
    obtain hx | ⟨m, e, hm, hx, -⟩ := h.cases <;> rw [hx] <;> rfl
  rw [add_eq, hadd, ofParts_parts]

theorem zero_add_of_atMost {sign : Sign} (hx : parts x = .zero sign) (h : AtMost r (parts y)) :
    x + y = y := by
  have hadd : UnpackedFloat.add .binary64 (parts x) (parts y) = parts y := by
    rw [hx]
    obtain hy | ⟨m, e, hm, hy, -⟩ := h.cases <;> rw [hy] <;> cases sign <;> rfl
  rw [add_eq, hadd, ofParts_parts]

theorem one_sub_zero {sign : Sign} (hx : parts x = .zero sign) : 1.0 - x = 1.0 := by
  have hsub : UnpackedFloat.sub .binary64 (parts 1.0) (parts x) = parts 1.0 := by
    rw [hx]
    rfl
  rw [sub_eq, hsub, ofParts_parts]

/-- A result that is bounded by a double is held as it is. -/
theorem AtMost.ofParts (ht : IsDouble t) (h : AtMost t u) : AtMost t (parts (ofParts u)) := by
  rwa [parts_ofParts (inFormat_of_atMost ht h)]

/-- Whole numbers up to the bits of the significand are doubles. -/
theorem isDouble_natCast {n : Nat} (h : n < 2 ^ 53) : IsDouble n :=
  ⟨n, 0, h, by decide, by decide, by simp⟩

theorem one_atMost : AtMost 1 (parts 1.0) := by
  rw [one_parts]
  exact ⟨⟨by norm_num, by norm_num, Or.inl (by norm_num)⟩, by norm_num⟩

/-- What is left of one beside a share is a share again. -/
theorem one_sub_atMost (h : AtMost 1 (parts x)) : AtMost 1 (parts (1.0 - x)) := by
  have hone : IsDouble 1 := by exact_mod_cast isDouble_natCast (show 1 < 2 ^ 53 by norm_num)
  have hbound := one_atMost
  rw [one_parts] at hbound
  rw [sub_eq, one_parts]
  refine AtMost.ofParts hone ?_
  refine AtMost.sub _ hbound (h.mono ?_) hone
  norm_num

/-! ## Cutting to a range -/

/-- Doubles are compared by their parts. -/
theorem lt_iff : x < y ↔ (parts x).compare (parts y) = some .lt := by
  show decide (_ = true) = true ↔ _
  rw [decide_eq_true_iff]
  show ((parts x).compare (parts y) == some Ordering.lt) = true ↔ _
  rw [beq_iff_eq]

/-- A number that is not below zero. -/
theorem cases_of_not_lt_zero (hx : sign? (parts x) ≠ none) (h : ¬x < 0.0) :
    parts x = .infinity .positive ∨ (∃ sign, parts x = .zero sign) ∨
      ∃ m e hm, parts x = .finite .positive m e hm := by
  rw [lt_iff, zero_parts] at h
  cases hparts : parts x with
  | notANumber =>
    rw [hparts] at hx
    exact absurd rfl hx
  | infinity sign =>
    rw [hparts] at h
    cases sign with
    | negative => exact absurd rfl h
    | positive => exact Or.inl rfl
  | zero sign => exact Or.inr (Or.inl ⟨sign, rfl⟩)
  | finite sign m e hm =>
    rw [hparts] at h
    cases sign with
    | negative => exact absurd rfl h
    | positive => exact Or.inr (Or.inr ⟨m, e, hm, rfl⟩)

/-- Positive numbers are compared by their exponents and then by their significands. -/
theorem lt_iff_of_finite {m n : Nat} {d e : Int} {hm : 0 < m} {hn : 0 < n}
    (hx : parts x = .finite .positive n d hn) (hy : parts y = .finite .positive m e hm) :
    x < y ↔ d < e ∨ d = e ∧ n < m := by
  rw [lt_iff, hx, hy]
  show some ((compare d e).then (compare n m)) = some .lt ↔ _
  rw [Option.some_inj, Ordering.then_eq_lt, compare_lt_iff_lt, compare_eq_iff_eq,
    compare_lt_iff_lt]

theorem le_iff : x ≤ y ↔ ∃ order, (parts x).compare (parts y) = some order ∧ order.isLE := by
  show decide (_ = true) = true ↔ _
  rw [decide_eq_true_iff]
  show ((parts x).compare (parts y)).any (·.isLE) = true ↔ _
  rw [Option.any_eq_true]

/-- What is at least a positive number has no smaller significand and exponent. -/
theorem cases_of_le {n : Nat} {d : Int} {hn : 0 < n} (hx : parts x = .finite .positive n d hn)
    (h : x ≤ y) :
    parts y = .infinity .positive ∨
      ∃ m e hm, parts y = .finite .positive m e hm ∧ (d < e ∨ d = e ∧ n ≤ m) := by
  rw [le_iff, hx] at h
  obtain ⟨order, horder, hle⟩ := h
  cases hparts : parts y with
  | notANumber =>
    rw [hparts] at horder
    cases horder
  | infinity sign =>
    cases sign with
    | positive => exact Or.inl rfl
    | negative =>
      rw [hparts] at horder
      cases horder
      cases hle
  | zero sign =>
    rw [hparts] at horder
    cases horder
    cases hle
  | finite sign m e hm =>
    rw [hparts] at horder
    cases sign with
    | negative =>
      cases horder
      cases hle
    | positive =>
      refine Or.inr ⟨m, e, hm, rfl, ?_⟩
      obtain rfl := Option.some.inj horder
      rw [Ordering.isLE_then_iff_or, compare_lt_iff_lt, compare_eq_iff_eq, Std.isLE_compare] at hle
      exact hle

section
variable {high : Float} {n : Nat} {d : Int} {hn : 0 < n}
  (hhigh : parts high = .finite .positive n d hn)
include hhigh

/-- A number that is cut to the range from zero is one of the ends, or it stays as it is and has
no larger significand and exponent than the upper end. -/
theorem clamp_cases (hx : sign? (parts x) ≠ none) :
    clamp 0.0 high x = 0.0 ∨ clamp 0.0 high x = high ∨
      clamp 0.0 high x = x ∧ ((∃ sign, parts x = .zero sign) ∨
        ∃ m e hm, parts x = .finite .positive m e hm ∧ (e < d ∨ e = d ∧ m ≤ n)) := by
  rw [clamp]
  by_cases hlow : x < 0.0
  · exact Or.inl (if_pos hlow)
  rw [if_neg hlow]
  by_cases htop : high < x
  · exact Or.inr (Or.inl (if_pos htop))
  rw [if_neg htop]
  refine Or.inr (Or.inr ⟨rfl, ?_⟩)
  obtain hparts | hzero | ⟨m, e, hm, hparts⟩ := cases_of_not_lt_zero hx hlow
  · rw [lt_iff, hhigh, hparts] at htop
    exact absurd rfl htop
  · exact Or.inl hzero
  · rw [lt_iff_of_finite hhigh hparts] at htop
    exact Or.inr ⟨m, e, hm, hparts, by omega⟩

/-- A number from the upper end on is cut to it. -/
theorem clamp_of_le (h : high ≤ x) : clamp 0.0 high x = high := by
  have hlow : ¬x < 0.0 := by
    rw [lt_iff, zero_parts]
    obtain hx | ⟨m, e, hm, hx, -⟩ := cases_of_le hhigh h <;> rw [hx] <;> rintro ⟨⟩
  rw [clamp, if_neg hlow]
  by_cases htop : high < x
  · exact if_pos htop
  rw [if_neg htop]
  obtain hx | ⟨m, e, hm, hx, hle⟩ := cases_of_le hhigh h
  · rw [lt_iff, hhigh, hx] at htop
    exact absurd rfl htop
  · rw [lt_iff_of_finite hhigh hx] at htop
    refine eq_of_parts ?_
    rw [hx, hhigh]
    exact finite_congr (by omega) (by omega)

/-- A zero stays as it is. -/
theorem clamp_of_zero {sign : Sign} (hx : parts x = .zero sign) : clamp 0.0 high x = x := by
  have hlow : ¬x < 0.0 := by
    rw [lt_iff, zero_parts, hx]
    rintro ⟨⟩
  have htop : ¬high < x := by
    rw [lt_iff, hhigh, hx]
    rintro ⟨⟩
  rw [clamp, if_neg hlow, if_neg htop]

/-- A number up to zero is cut to a zero, whose sign may be a minus. -/
theorem clamp_of_le_zero (h : x ≤ 0.0) : ∃ sign, parts (clamp 0.0 high x) = .zero sign := by
  by_cases hlow : x < 0.0
  · rw [clamp, if_pos hlow]
    exact ⟨.positive, rfl⟩
  · obtain ⟨order, horder, hle⟩ := le_iff.mp h
    rw [zero_parts] at horder
    have hsign : sign? (parts x) ≠ none := by
      intro hnone
      cases hparts : parts x <;> rw [hparts] at hnone horder <;> cases hnone
      cases horder
    obtain hparts | ⟨sign, hparts⟩ | ⟨m, e, hm, hparts⟩ := cases_of_not_lt_zero hsign hlow
    · rw [hparts] at horder
      cases horder
      cases hle
    · rw [clamp_of_zero hhigh hparts]
      exact ⟨sign, hparts⟩
    · rw [hparts] at horder
      cases horder
      cases hle

end

/-! ## Signs of results -/

/-- Rounding keeps the sign, also where it goes to zero or to infinity. -/
theorem sign?_roundWithAccuracy (sign : Sign) (m : Nat) (e : Int) (accuracy : Accuracy) :
    sign? (roundWithAccuracy .binary64 sign m e accuracy) = some sign := by
  unfold roundWithAccuracy
  dsimp only
  split <;> rfl

/-- A number above zero. -/
def isPositive : UnpackedFloat → Bool
  | .finite .positive .. => true
  | _ => false

theorem eq_finite_of_isPositive (h : isPositive v) : ∃ m e hm, v = .finite .positive m e hm := by
  unfold isPositive at h
  split at h
  next m e hm => exact ⟨m, e, hm, rfl⟩
  next => cases h

/-- A positive factor keeps the sign. -/
theorem sign?_mul (h : isPositive v) : sign? (UnpackedFloat.mul .binary64 u v) = sign? u := by
  obtain ⟨m, e, hm, rfl⟩ := eq_finite_of_isPositive h
  cases u with
  | notANumber => rfl
  | infinity sign | zero sign => cases sign <;> rfl
  | finite sign => exact (sign?_roundWithAccuracy _ _ _ _).trans (by cases sign <;> rfl)

/-- So does a positive divisor. -/
theorem sign?_div (h : isPositive v) : sign? (UnpackedFloat.div .binary64 u v) = sign? u := by
  obtain ⟨m, e, hm, rfl⟩ := eq_finite_of_isPositive h
  cases u with
  | notANumber => rfl
  | infinity sign | zero sign => cases sign <;> rfl
  | finite sign => exact (sign?_roundWithAccuracy _ _ _ _).trans (by cases sign <;> rfl)

end TexFigure.Double
