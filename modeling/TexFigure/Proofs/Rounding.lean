import TexFigure.Proofs.Doubles
/-!
# Rounding

A result that has more bits than a double is rounded: its significand is shifted until it has 53
bits, or as far as the smallest exponent allows, and goes to one of the two whole numbers next to
it. So rounding never crosses a double: what is at most a double is still at most that double when
it is rounded (`roundWithAccuracy_atMost`), and what has the bits of a double stays as it is
(`roundWithAccuracy_shifted`).
-/

namespace TexFigure.Double

open Float.Model Float.Model.UnpackedFloat

/-! ## Shifting -/

/-- A significand shifted to the right, with a round bit and a sticky bit for what is lost. -/
def shifted (m k : Nat) : ExtendedMantissa :=
  ExtendedMantissa.ofMantissaAndAccuracy m .exact >>> k

theorem shifted_succ (m k : Nat) : shifted m (k + 1) = (shifted m k).shiftRightOne := rfl

/-- Shifting loses the low bits, and keeps the quotient. -/
theorem mantissa_shifted (m k : Nat) : (shifted m k).mantissa = m / 2 ^ k := by
  induction k with
  | zero => exact (Nat.div_one m).symm
  | succ k ih =>
    rw [shifted_succ, ExtendedMantissa.shiftRightOne, ih, Nat.div_div_eq_div_mul, pow_succ]

/-- Nothing is lost of a multiple. -/
theorem shifted_mul (n k : Nat) : shifted (n * 2 ^ k) k = ⟨n, false, false⟩ := by
  induction k generalizing n with
  | zero =>
    rw [pow_zero, mul_one]
    rfl
  | succ k ih =>
    rw [shifted_succ, pow_succ', ← mul_assoc, ih]
    simp [ExtendedMantissa.shiftRightOne]

/-- The whole number that is taken for `m / 2 ^ k`. -/
def rounded (m k : Nat) : Nat := (shifted m k).roundedMantissa

/-- A multiple is taken as it is. -/
theorem rounded_mul (n k : Nat) : rounded (n * 2 ^ k) k = n := by
  rw [rounded, shifted_mul]
  rfl

/-- Rounding goes to one of the two neighbours, whatever is known about what was lost. -/
theorem roundToNearestEven_mem (m : Nat) (accuracy : Accuracy) :
    m ≤ accuracy.roundToNearestEven m ∧ accuracy.roundToNearestEven m ≤ m + 1 := by
  cases accuracy with
  | exact => exact ⟨Nat.le_refl m, Nat.le_succ m⟩
  | inexact order =>
    cases order with
    | lt => exact ⟨Nat.le_refl m, Nat.le_succ m⟩
    | eq =>
      show m ≤ m + m % 2 ∧ m + m % 2 ≤ m + 1
      omega
    | gt => exact ⟨Nat.le_succ m, Nat.le_refl _⟩

/-- So the number that is taken is the quotient or the next one. -/
theorem rounded_mem (m k : Nat) : m / 2 ^ k ≤ rounded m k ∧ rounded m k ≤ m / 2 ^ k + 1 := by
  have hmem := roundToNearestEven_mem (shifted m k).mantissa (shifted m k).accuracy
  rw [mantissa_shifted] at hmem
  rwa [rounded, ExtendedMantissa.roundedMantissa, mantissa_shifted]

/-- Rounding does not pass a whole number above. -/
theorem rounded_le {m n k : Nat} (h : m ≤ n * 2 ^ k) : rounded m k ≤ n := by
  rcases h.lt_or_eq with hlt | rfl
  · have hquotient : m / 2 ^ k < n := Nat.div_lt_of_lt_mul (by rwa [mul_comm])
    exact (rounded_mem m k).2.trans hquotient
  · exact (rounded_mul n k).le

/-- Rounding does not pass a whole number below. -/
theorem le_rounded {m n k : Nat} (h : n * 2 ^ k ≤ m) : n ≤ rounded m k :=
  ((Nat.le_div_iff_mul_le (Nat.two_pow_pos k)).mpr h).trans (rounded_mem m k).1

/-! ## Rounding to the format -/

/-- The exponent that a number has in the format. -/
def target (m : Nat) (e : Int) : Int := max (m.log2 + e - 52) (-1074)

/-- The exponent that the format asks for, in terms of the number of bits. -/
theorem targetExponent_eq (m : Nat) (e : Int) :
    Format.binary64.targetExponent (totalExponent m e) = target m e := by
  simp only [Format.targetExponent, totalExponent, target, Format.mantissaBits, Format.minExponent]
  congr 1
  omega

/-- What keeps to the format stays at its exponent. -/
theorem target_eq {m : Nat} {e : Int} (hm : 0 < m) (h : Canonical m e) : target m e = e := by
  have hbits : m.log2 < 53 := (Nat.log2_lt hm.ne').mpr h.bits
  have hleast := h.least
  rcases h.leading with hlead | hleast
  · have hlog : 52 ≤ m.log2 := (Nat.le_log2 hm.ne').mpr hlead
    unfold target
    omega
  · unfold target
    omega

theorem log2_mul_pow {m : Nat} (hm : 0 < m) (k : Nat) : (m * 2 ^ k).log2 = m.log2 + k := by
  rw [Nat.log2_eq_iff (Nat.mul_pos hm (Nat.two_pow_pos k)).ne', Nat.pow_add, Nat.add_right_comm,
    Nat.pow_add]
  exact ⟨Nat.mul_le_mul_right _ (Nat.log2_self_le hm.ne'),
    Nat.mul_lt_mul_of_pos_right Nat.lt_log2_self (Nat.two_pow_pos k)⟩

/-- A significand is shifted as far as the exponent has to rise. -/
theorem shiftToTargetExponent_eq (m : Nat) (e : Int) :
    shiftToTargetExponent .binary64 m e .exact =
      (shifted m (target m e - e).toNat, e + (target m e - e).toNat) := by
  rw [shiftToTargetExponent, targetExponent_eq]
  rfl

/-- A shifted significand has at most the bits of the format, or is the next power of two, which is
one bit more. -/
theorem rounded_target_le {m : Nat} {e : Int} (h : e ≤ target m e) :
    rounded m (target m e - e).toNat ≤ 2 ^ 53 := by
  refine rounded_le ?_
  rw [← Nat.pow_add]
  refine Nat.lt_log2_self.le.trans (Nat.pow_le_pow_right two_pos ?_)
  unfold target at h ⊢
  omega

/-- What the two shifts of a rounding come to: the second only takes in a carry. -/
theorem roundWithAccuracy_eq (sign : Sign) {m : Nat} {e : Int} (h : e ≤ target m e) :
    let r := rounded m (target m e - e).toNat
    roundWithAccuracy .binary64 sign m e .exact =
      if r < 2 ^ 53 then
        if hpos : r = 0 then .zero sign
        else .finite sign r (target m e) (Nat.pos_of_ne_zero hpos)
      else .finite sign (2 ^ 52) (target m e + 1) (Nat.two_pow_pos 52) := by
  intro r
  have hle : r ≤ 2 ^ 53 := rounded_target_le h
  have hleast : -1074 ≤ target m e := Int.le_max_right _ _
  have hexponent : e + (target m e - e).toNat = target m e := by omega
  unfold roundWithAccuracy
  rw [shiftToTargetExponent_eq, hexponent]
  dsimp only
  rw [shiftToTargetExponent_eq,
    show (shifted m (target m e - e).toNat).roundedMantissa = r from rfl]
  by_cases hlt : r < 2 ^ 53
  · have hstay : (target r (target m e) - target m e).toNat = 0 := by
      have hlog : r.log2 < 53 := by
        by_cases hzero : r = 0
        · rw [hzero]
          decide
        · exact (Nat.log2_lt hzero).mpr hlt
      have hle : target r (target m e) ≤ target m e := max_le (by omega) hleast
      omega
    rw [hstay, if_pos hlt, Int.natCast_zero, Int.add_zero]
    rfl
  · obtain heq : r = 2 ^ 53 := by omega
    have hcarry : (target r (target m e) - target m e).toNat = 1 := by
      rw [heq, target, Nat.log2_two_pow]
      omega
    rw [hcarry, if_neg hlt, heq, show 2 ^ 53 = 2 ^ 52 * 2 ^ 1 from rfl, shifted_mul]
    rfl

/-! ## Bounds -/

/-- A number that is a double: it has at most 53 bits, between the smallest and the largest
exponent. -/
def IsDouble (r : ℚ) : Prop :=
  ∃ (m : Nat) (e : Int), m < 2 ^ 53 ∧ -1074 ≤ e ∧ e ≤ 971 ∧ r = m * 2 ^ e

/-- A number without a minus sign that is at most a bound. -/
def AtMost (r : ℚ) : UnpackedFloat → Prop
  | .zero .positive => 0 ≤ r
  | .finite .positive m e _ => Canonical m e ∧ m * 2 ^ e ≤ r
  | _ => False

theorem mul_pow_le_iff {m n : Nat} (e : Int) : (m : ℚ) * 2 ^ e ≤ n * 2 ^ e ↔ m ≤ n := by
  rw [mul_le_mul_iff_left₀ (zpow_pos two_pos e), Nat.cast_le]

theorem mul_pow_mono {m n : Nat} {d e : Int} (h : m ≤ n) (h' : e ≤ d) :
    (m : ℚ) * 2 ^ e ≤ n * 2 ^ d :=
  mul_le_mul (Nat.cast_le.mpr h) (zpow_le_zpow_right₀ one_le_two h') (zpow_nonneg two_pos.le e)
    n.cast_nonneg

/-- The same number with a smaller exponent. -/
theorem mul_pow_sub (m : Nat) {e t : Int} (h : e ≤ t) :
    (m : ℚ) * 2 ^ t = (m * 2 ^ (t - e).toNat : Nat) * 2 ^ e := by
  rw [Nat.cast_mul, Nat.cast_pow, Nat.cast_two, mul_assoc, ← zpow_natCast,
    ← zpow_add₀ two_ne_zero]
  congr 2
  omega

/-- A double is smaller than any number that has the leading bit at a larger exponent. -/
theorem lt_of_lt_target {m n : Nat} {d e : Int} (hm : 0 < m) (hn : n < 2 ^ 53) (hd : -1074 ≤ d)
    (h : d < target m e) : (n : ℚ) * 2 ^ d < m * 2 ^ e := by
  have hexponent : 53 + d ≤ m.log2 + e := by
    unfold target at h
    omega
  calc (n : ℚ) * 2 ^ d < 2 ^ (53 : Int) * 2 ^ d := by
        refine mul_lt_mul_of_pos_right ?_ (zpow_pos two_pos d)
        exact_mod_cast hn
    _ = 2 ^ (53 + d) := (zpow_add₀ two_ne_zero _ _).symm
    _ ≤ 2 ^ (m.log2 + e) := zpow_le_zpow_right₀ one_le_two hexponent
    _ = 2 ^ m.log2 * 2 ^ e := by rw [zpow_add₀ two_ne_zero, zpow_natCast]
    _ ≤ m * 2 ^ e := by
        refine mul_le_mul_of_nonneg_right ?_ (zpow_nonneg two_pos.le e)
        exact_mod_cast Nat.log2_self_le hm.ne'

/-- The rounded significand does not pass a double. -/
theorem rounded_mul_le {m : Nat} {e : Int} (hm : 0 < m) (h : e ≤ target m e) {r : ℚ}
    (hr : IsDouble r) (hle : m * 2 ^ e ≤ r) :
    rounded m (target m e - e).toNat * 2 ^ target m e ≤ r := by
  obtain ⟨n, d, hn, hd, -, rfl⟩ := hr
  by_cases hdt : target m e ≤ d
  · rw [mul_pow_sub n hdt, mul_pow_sub _ h, mul_pow_le_iff] at hle
    rw [mul_pow_sub n hdt, mul_pow_le_iff]
    exact rounded_le hle
  · exact absurd hle (lt_of_lt_target hm hn hd (by omega)).not_ge

/-- Unless it is that power, it keeps to the format with its exponent. -/
theorem canonical_rounded {m : Nat} {e : Int} (hm : 0 < m) (h : e ≤ target m e)
    (hlt : rounded m (target m e - e).toNat < 2 ^ 53) :
    Canonical (rounded m (target m e - e).toNat) (target m e) := by
  refine ⟨hlt, le_max_right _ _, ?_⟩
  by_cases hleast : target m e = -1074
  · exact Or.inr hleast
  · refine Or.inl (le_rounded ?_)
    rw [← Nat.pow_add]
    refine (Nat.pow_le_pow_right two_pos ?_).trans (Nat.log2_self_le hm.ne')
    unfold target at h hleast ⊢
    omega

/-- Rounding does not pass a double. -/
theorem roundWithAccuracy_atMost {m : Nat} {e : Int} (hm : 0 < m) (h : e ≤ target m e) {r : ℚ}
    (hr : IsDouble r) (hle : m * 2 ^ e ≤ r) :
    AtMost r (roundWithAccuracy .binary64 .positive m e .exact) := by
  have hrounded := rounded_mul_le hm h hr hle
  rw [roundWithAccuracy_eq _ h]
  split
  next hlt =>
    split
    next => exact (mul_nonneg m.cast_nonneg (zpow_nonneg two_pos.le e)).trans hle
    next => exact ⟨canonical_rounded hm h hlt, hrounded⟩
  next hcarry =>
    have heq : rounded m (target m e - e).toNat = 2 ^ 53 :=
      le_antisymm (rounded_target_le h) (not_lt.mp hcarry)
    have hleast : -1074 ≤ target m e := le_max_right _ _
    refine ⟨⟨by norm_num, by omega, Or.inl le_rfl⟩, le_trans (le_of_eq ?_) hrounded⟩
    rw [heq, zpow_add_one₀ two_ne_zero]
    push_cast
    ring

/-- What has the bits of a double stays as it is. -/
theorem roundWithAccuracy_shifted (sign : Sign) {m : Nat} {e : Int} (hm : 0 < m)
    (h : Canonical m e) (k : Nat) :
    roundWithAccuracy .binary64 sign (m * 2 ^ k) (e - k) .exact = .finite sign m e hm := by
  have htarget : target (m * 2 ^ k) (e - k) = e := by
    have hsame := target_eq hm h
    rw [target] at hsame ⊢
    rw [log2_mul_pow hm]
    push_cast
    omega
  have hk : (e - (e - k)).toNat = k := by omega
  rw [roundWithAccuracy_eq _ (by omega), htarget, hk, rounded_mul, if_pos h.bits,
    dif_neg hm.ne']

/-- A number may be given more bits before it is rounded. -/
theorem round_atMost {m : Nat} {e : Int} (hm : 0 < m) {r : ℚ} (hr : IsDouble r)
    (hle : m * 2 ^ e ≤ r) : AtMost r (UnpackedFloat.round .binary64 .positive m e) := by
  rw [UnpackedFloat.round, targetExponent_eq, decreaseExponent]
  dsimp only
  rw [Nat.shiftLeft_eq]
  refine roundWithAccuracy_atMost (Nat.mul_pos hm (Nat.two_pow_pos _)) ?_ hr ?_
  · unfold target
    rw [log2_mul_pow hm]
    push_cast
    omega
  · have hk : (e - (e - (e - target m e).toNat)).toNat = (e - target m e).toNat := by omega
    have hsame := mul_pow_sub m (show e - (e - target m e).toNat ≤ e by omega)
    rw [hk] at hsame
    exact hsame.symm.trans_le hle

/-- A number that is at most a double has the exponents of doubles. -/
theorem inFormat_of_atMost {u : UnpackedFloat} {r : ℚ} (hr : IsDouble r) (h : AtMost r u) :
    InFormat u := by
  unfold AtMost at h
  split at h
  next => trivial
  next m e hm =>
    refine ⟨h.1, ?_⟩
    by_contra htop
    obtain ⟨n, d, hn, hleast, hd, rfl⟩ := hr
    have hexponent := target_eq hm h.1
    exact absurd h.2 (lt_of_lt_target hm hn hleast (by omega)).not_ge
  next => exact h.elim

end TexFigure.Double
