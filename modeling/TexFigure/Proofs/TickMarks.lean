import Mathlib.Tactic.Linarith
import Mathlib.Tactic.Positivity
import TexFigure.Chart.Ticks
import TexFigure.Proofs.ExactScalars
/-!
# Ticks are complete and few

In exact numbers the ticks of a range are all multiples of one step that lie in the range, or miss
it by at most a billionth of the step (`ticks_complete`). The step is the least of one, two, five
and ten times the decade of the wanted distance that is not below that distance. The ladder never
more than doubles or, from two to five, grows by half as much again as that, so the step stays below
two and a half times the wanted distance (`tickStep_spec`), and the number of ticks follows from
that.

Both bounds are at most `2 ^ 53` times as large as the range is wide, which holds of any two
doubles. The counts of the step then fit into 64 bits (`abs_count_le`).
-/

namespace TexFigure.Chart

/-! ## The step -/

/-- The step, with the operations of rational numbers. -/
theorem tickStep_eq (raw : ℚ) :
    tickStep raw =
      let decade : ℚ := 10 ^ Int.log 10 raw
      if raw ≤ decade then decade
      else if raw ≤ 2 * decade then 2 * decade
      else if raw ≤ 5 * decade then 5 * decade
      else 10 * decade := by
  have hone : (1.0 : ℚ) = 1 := by norm_num
  have htwo : (2.0 : ℚ) = 2 := by norm_num
  have hfive : (5.0 : ℚ) = 5 := by norm_num
  have hten : (10.0 : ℚ) = 10 := by norm_num
  have hsteps : tickStep raw =
      let decade : ℚ := 10 ^ Int.log 10 raw
      (([1.0 * decade, 2.0 * decade, 5.0 * decade, 10.0 * decade].find?
        fun step => decide (raw ≤ step)).getD (10.0 * decade)) := rfl
  rw [hsteps]
  simp only [hone, htwo, hfive, hten, one_mul, List.find?]
  split_ifs with hdecade hdouble hfifth
  · simp only [hdecade, decide_true, Option.getD_some]
  · simp only [hdecade, hdouble, decide_true, decide_false, Option.getD_some]
  · simp only [hdecade, hdouble, hfifth, decide_true, decide_false, Option.getD_some]
  · simp only [hdecade, hdouble, hfifth, decide_false]
    cases decide (raw ≤ 10 * 10 ^ Int.log 10 raw) <;> rfl

/-- The step is on the ladder, and between the wanted distance and two and a half times that. -/
theorem tickStep_spec {raw : ℚ} (hraw : 0 < raw) :
    (∃ m ∈ ([1, 2, 5, 10] : List ℚ), ∃ k : ℤ, tickStep raw = m * 10 ^ k) ∧
      raw ≤ tickStep raw ∧ tickStep raw < 5 / 2 * raw := by
  have hlow : (10 : ℚ) ^ Int.log 10 raw ≤ raw := by
    have h := Int.zpow_log_le_self (b := 10) (by decide) hraw
    rwa [Nat.cast_ofNat] at h
  have hhigh : raw < 10 * 10 ^ Int.log 10 raw := by
    have h := Int.lt_zpow_succ_log_self (b := 10) (by decide) raw
    rwa [Nat.cast_ofNat, zpow_add_one₀ (by norm_num), mul_comm] at h
  have hmem : ∀ m ∈ ([1, 2, 5, 10] : List ℚ), tickStep raw = m * 10 ^ Int.log 10 raw →
      ∃ m ∈ ([1, 2, 5, 10] : List ℚ), ∃ k : ℤ, tickStep raw = m * 10 ^ k :=
    fun m hm heq => ⟨m, hm, _, heq⟩
  have hstep := tickStep_eq raw
  simp only at hstep
  split_ifs at hstep with hdecade hdouble hfifth
  · refine ⟨hmem 1 (by simp) (by rw [hstep, one_mul]), ?_, ?_⟩
    · rwa [hstep]
    · rw [hstep]
      linarith
  · refine ⟨hmem 2 (by simp) hstep, ?_, ?_⟩
    · rwa [hstep]
    · rw [hstep]
      linarith
  · -- the longest stride of the ladder, from just above two to five
    refine ⟨hmem 5 (by simp) hstep, ?_, ?_⟩
    · rwa [hstep]
    · rw [hstep]
      linarith
  · refine ⟨hmem 10 (by simp) hstep, ?_, ?_⟩
    · rw [hstep]
      exact hhigh.le
    · rw [hstep]
      linarith

/-! ## Multiples -/

section
variable {step : ℚ} {first last : ℤ}

theorem multiples_eq (step : ℚ) (first last : ℤ) :
    multiples step first last =
      (List.range (last - first + 1).toNat).map fun (k : ℕ) => ((first + k : ℤ) : ℚ) * step := rfl

theorem length_multiples : (multiples step first last).length = (last - first + 1).toNat := by
  rw [multiples_eq, List.length_map, List.length_range]

/-- The counts of the multiples are the whole numbers from the first to the last. -/
theorem mem_multiples_iff {x : ℚ} :
    x ∈ multiples step first last ↔ ∃ k : ℤ, first ≤ k ∧ k ≤ last ∧ x = k * step := by
  rw [multiples_eq, List.mem_map]
  constructor
  · rintro ⟨i, hi, rfl⟩
    rw [List.mem_range] at hi
    exact ⟨first + i, by omega, by omega, rfl⟩
  · rintro ⟨k, hfirst, hlast, rfl⟩
    refine ⟨(k - first).toNat, List.mem_range.mpr (by omega), ?_⟩
    have hk : first + ((k - first).toNat : ℤ) = k := by omega
    rw [hk]

/-- The multiples whose counts are in reach of two bounds are those that are themselves in reach. -/
theorem mem_multiples_reach_iff {low high slack x : ℚ} (hstep : 0 < step) :
    x ∈ multiples step ⌈low / step - slack⌉ ⌊high / step + slack⌋ ↔
      (∃ k : ℤ, x = k * step) ∧ low - slack * step ≤ x ∧ x ≤ high + slack * step := by
  have hfirst (k : ℤ) : ⌈low / step - slack⌉ ≤ k ↔ low - slack * step ≤ k * step := by
    rw [Int.ceil_le, sub_le_iff_le_add, div_le_iff₀ hstep, add_mul, sub_le_iff_le_add]
  have hlast (k : ℤ) : k ≤ ⌊high / step + slack⌋ ↔ k * step ≤ high + slack * step := by
    rw [Int.le_floor, ← sub_le_iff_le_add, le_div_iff₀ hstep, sub_mul, sub_le_iff_le_add]
  rw [mem_multiples_iff]
  constructor
  · rintro ⟨k, hk, hk', rfl⟩
    exact ⟨⟨k, rfl⟩, (hfirst k).mp hk, (hlast k).mp hk'⟩
  · rintro ⟨⟨k, rfl⟩, hk, hk'⟩
    exact ⟨k, (hfirst k).mpr hk, (hlast k).mpr hk', rfl⟩

/-- The multiples of a positive step grow. -/
theorem pairwise_multiples (hstep : 0 < step) :
    (multiples step first last).Pairwise (· < ·) := by
  rw [multiples_eq, List.pairwise_map]
  refine List.pairwise_lt_range.imp ?_
  intro i j hij
  refine mul_lt_mul_of_pos_right ?_ hstep
  exact Int.cast_lt.mpr (by omega)

end

/-! ## Ticks -/

section
variable {low high : ℚ} {target : ℕ}

/-- A bound that is not too large for the width of the range has a moderate count of the step. -/
theorem abs_count_le {bound step : ℚ} (htarget : 1 ≤ target) (hmost : target ≤ 500)
    (hlt : low < high) (hbound : |bound| ≤ 2 ^ 53 * (high - low))
    (hstep : (high - low) / target ≤ step) : |bound / step| ≤ 2 ^ 53 * 500 := by
  have htarget' : (0 : ℚ) < target := by exact_mod_cast htarget
  have hmost' : (target : ℚ) ≤ 500 := by exact_mod_cast hmost
  have hspan : 0 < high - low := sub_pos.mpr hlt
  have hpos : 0 < step := (div_pos hspan htarget').trans_le hstep
  have hspan_le : high - low ≤ 500 * step := by
    rw [div_le_iff₀ htarget'] at hstep
    have h : step * target ≤ step * 500 := mul_le_mul_of_nonneg_left hmost' hpos.le
    linarith
  rw [abs_div, abs_of_pos hpos, div_le_iff₀ hpos]
  linarith

/-- The ticks of a range, with the operations of rational numbers. -/
theorem ticks_of_lt (hlt : low < high) (htarget : 1 ≤ target) :
    let step := tickStep ((high - low) / target)
    ticks low high target =
      multiples step (Scalar.ceiling (low / step - 1 / 1000000000))
        (Scalar.floor (high / step + 1 / 1000000000)) := by
  intro step
  have hbillionth : (1e-9 : ℚ) = 1 / 1000000000 := by norm_num
  have hcount : ((max (target : ℤ) 1 : ℤ) : ℚ) = target := by
    rw [max_eq_left (by exact_mod_cast htarget), Int.cast_natCast]
  have hspan : (true && !decide (high - low ≤ (0.0 : ℚ))) = true := by
    have hzero : (0.0 : ℚ) = 0 := by norm_num
    rw [hzero, decide_eq_false (not_le.mpr (sub_pos.mpr hlt))]
    rfl
  have hticks : ticks low high target =
      let step := tickStep ((high - low) / ((max (target : ℤ) 1 : ℤ) : ℚ))
      multiples step (Scalar.ceiling (low / step - (1e-9 : ℚ)))
        (Scalar.floor (high / step + (1e-9 : ℚ))) := if_pos hspan
  rw [hticks, hcount, hbillionth]

/-- Between bounds that are not too large the ticks are the multiples of the step, from the first to
the last count that its billionth lets in. -/
theorem ticks_eq (hlt : low < high) (hlow : |low| ≤ 2 ^ 53 * (high - low))
    (hhigh : |high| ≤ 2 ^ 53 * (high - low)) (htarget : 1 ≤ target) (hmost : target ≤ 500) :
    let step := tickStep ((high - low) / target)
    ticks low high target =
      multiples step ⌈low / step - 1 / 1000000000⌉ ⌊high / step + 1 / 1000000000⌋ := by
  intro step
  have hraw : 0 < (high - low) / target :=
    div_pos (sub_pos.mpr hlt) (by exact_mod_cast htarget)
  have hstep : (high - low) / target ≤ step := (tickStep_spec hraw).2.1
  rw [ticks_of_lt hlt htarget, Scalar.ceiling_eq, Scalar.floor_eq]
  · have hmoderate := abs_le.mp (abs_count_le htarget hmost hlt hhigh hstep)
    exact abs_le.mpr ⟨by linarith [hmoderate.1], by linarith [hmoderate.2]⟩
  · have hmoderate := abs_le.mp (abs_count_le htarget hmost hlt hlow hstep)
    exact abs_le.mpr ⟨by linarith [hmoderate.1], by linarith [hmoderate.2]⟩

/-- How many whole numbers there are from one number to another. -/
theorem length_between {a b : ℚ} {least most : ℕ} (hleast : (least : ℚ) ≤ b - a)
    (hmost : b - a < most + 1) :
    least ≤ (⌊b⌋ - ⌈a⌉ + 1).toNat ∧ (⌊b⌋ - ⌈a⌉ + 1).toNat ≤ most + 1 := by
  have hceil_lt : (⌈a⌉ : ℚ) < a + 1 := Int.ceil_lt_add_one a
  have hle_ceil : a ≤ ⌈a⌉ := Int.le_ceil a
  have hfloor_le : (⌊b⌋ : ℚ) ≤ b := Int.floor_le b
  have hlt_floor : b < ⌊b⌋ + 1 := Int.lt_floor_add_one b
  have hlower : (least : ℤ) < ⌊b⌋ - ⌈a⌉ + 2 := by
    have h : (least : ℚ) < ⌊b⌋ - ⌈a⌉ + 2 := by linarith
    exact_mod_cast h
  have hupper : ⌊b⌋ - ⌈a⌉ < (most : ℤ) + 1 := by
    have h : (⌊b⌋ - ⌈a⌉ : ℚ) < most + 1 := by linarith
    exact_mod_cast h
  omega

/-- A range is at most as many steps wide as ticks are wanted, and at least two fifths of that. -/
theorem width_bounds (target : ℕ) {raw step : ℚ} (hraw : 0 < raw) (hleast : raw ≤ step)
    (hless : step < 5 / 2 * raw) :
    (target : ℚ) / (5 / 2) ≤ raw * target / step ∧ raw * target / step ≤ target := by
  have hstep : 0 < step := hraw.trans_le hleast
  have htarget : (0 : ℚ) ≤ target := Nat.cast_nonneg target
  constructor
  · have hmul : target * step ≤ target * (5 / 2 * raw) :=
      mul_le_mul_of_nonneg_left hless.le htarget
    rw [div_le_div_iff₀ (by norm_num) hstep]
    linarith
  · have hmul : target * raw ≤ target * step := mul_le_mul_of_nonneg_left hleast htarget
    rw [div_le_iff₀ hstep]
    linarith

/-- The ticks of a range are, in their order, all multiples of a step on the ladder that reach the
range to a billionth of the step, and there are about as many as wanted. -/
theorem ticks_complete (hlt : low < high) (hlow : |low| ≤ 2 ^ 53 * (high - low))
    (hhigh : |high| ≤ 2 ^ 53 * (high - low)) (htarget : 1 ≤ target) (hmost : target ≤ 500) :
    let raw := (high - low) / target
    ∃ step : ℚ, (∃ m ∈ ([1, 2, 5, 10] : List ℚ), ∃ k : ℤ, step = m * 10 ^ k) ∧
      raw ≤ step ∧ step < 5 / 2 * raw ∧
      (ticks low high target).Pairwise (· < ·) ∧
      (∀ x, x ∈ ticks low high target ↔
        (∃ k : ℤ, x = k * step) ∧
          low - 1 / 1000000000 * step ≤ x ∧ x ≤ high + 1 / 1000000000 * step) ∧
      ⌊(target : ℚ) / (5 / 2)⌋₊ ≤ (ticks low high target).length ∧
      (ticks low high target).length ≤ target + 1 := by
  intro raw
  have htarget' : (0 : ℚ) < target := by exact_mod_cast htarget
  have hraw : 0 < raw := div_pos (sub_pos.mpr hlt) htarget'
  obtain ⟨hladder, hleast, hless⟩ := tickStep_spec hraw
  have hstep : 0 < tickStep raw := hraw.trans_le hleast
  have hspan : raw * target = high - low := div_mul_cancel₀ _ htarget'.ne'
  refine ⟨tickStep raw, hladder, hleast, hless, ?_⟩
  rw [ticks_eq hlt hlow hhigh htarget hmost]
  refine ⟨pairwise_multiples hstep, fun x => mem_multiples_reach_iff hstep, ?_⟩
  -- the width of the range, counted in steps, lies between the bounds on the number of ticks
  obtain ⟨hwide, hnarrow⟩ := width_bounds target hraw hleast hless
  rw [hspan, sub_div] at hwide hnarrow
  have hfloor : ((⌊(target : ℚ) / (5 / 2)⌋₊ : ℕ) : ℚ) ≤ target / (5 / 2) :=
    Nat.floor_le (by positivity)
  rw [length_multiples]
  exact length_between (by linarith) (by linarith)

/-- A range around zero, whose bounds are no multiples of the step. -/
theorem ticks_complete_aroundZero :
    (-7 / 2 : ℚ) < 7 ∧ |(-7 / 2 : ℚ)| ≤ 2 ^ 53 * (7 - -7 / 2) ∧
      |(7 : ℚ)| ≤ 2 ^ 53 * (7 - -7 / 2) ∧ 1 ≤ 5 ∧ 5 ≤ 500 ∧
      ∃ step : ℚ, 21 / 10 ≤ step ∧ step < 21 / 4 ∧
        (∀ k : ℤ, -7 / 2 ≤ k * step → k * step ≤ 7 → k * step ∈ ticks (-7 / 2 : ℚ) 7 5) ∧
        (ticks (-7 / 2 : ℚ) 7 5).length ≤ 6 := by
  have hlt : (-7 / 2 : ℚ) < 7 := by norm_num
  have hlow : |(-7 / 2 : ℚ)| ≤ 2 ^ 53 * (7 - -7 / 2) := abs_le.mpr ⟨by norm_num, by norm_num⟩
  have hhigh : |(7 : ℚ)| ≤ 2 ^ 53 * (7 - -7 / 2) := abs_le.mpr ⟨by norm_num, by norm_num⟩
  have htarget : 1 ≤ 5 := by decide
  have hmost : 5 ≤ 500 := by decide
  refine ⟨hlt, hlow, hhigh, htarget, hmost, ?_⟩
  obtain ⟨step, -, hleast, hless, -, hmem, -, hlength⟩ :=
    ticks_complete hlt hlow hhigh htarget hmost
  norm_num at hleast hless
  refine ⟨step, hleast, hless, ?_, hlength⟩
  intro k hfirst hlast
  exact (hmem _).mpr ⟨⟨k, rfl⟩, by linarith, by linarith⟩

end

end TexFigure.Chart
