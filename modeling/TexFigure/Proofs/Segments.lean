import Mathlib.Data.List.Chain
import TexFigure.Chart.Trace
/-!
# The segments of a curve

A curve is drawn in segments, the runs of its samples with a finite value. Samples are told apart by
their places here and not by what they are: two samples may well be the same point, where the domain
is a point or the steps are too small for a double.

> `sampleCurve_segments`: the places of the segments are those of the finite samples, in order, each
> segment consists of consecutive places, and two neighbours that are both finite are never parted.

The run at the front is the one that may still grow, so the facts about runs follow from what one
more member in front does to it: it joins the run (`runs_cons_of_pos`) or ends it
(`cutRuns_cons_of_neg`).
-/

namespace TexFigure.Chart

section
variable {α β : Type} {p : α → Bool} {a b : α} {members : List α}

/-! ## One more member in front -/

theorem cutRuns_cons_of_pos (h : p a = true) :
    cutRuns p (a :: members) = (a :: (cutRuns p members).1, (cutRuns p members).2) := by
  simp only [cutRuns, h, if_true]

/-- A member that fails the test leaves the run at the front empty. -/
theorem cutRuns_cons_of_neg (h : p a = false) :
    cutRuns p (a :: members) = ([], runs p members) := by
  simp only [cutRuns, h, Bool.false_eq_true, if_false]
  rfl

theorem runs_cons_of_pos (h : p a = true) :
    runs p (a :: members) = (a :: (cutRuns p members).1) :: (cutRuns p members).2 := by
  rw [runs, cutRuns_cons_of_pos h]
  rfl

/-- A member that fails the test is in no run. -/
theorem runs_cons_of_neg (h : p a = false) : runs p (a :: members) = runs p members := by
  rw [runs, cutRuns_cons_of_neg h]
  rfl

/-- The run at the front, unless it is empty, and the others are the runs. -/
theorem runs_cases (p : α → Bool) (members : List α) :
    (cutRuns p members).1 = [] ∧ runs p members = (cutRuns p members).2 ∨
      (cutRuns p members).1 ≠ [] ∧
        runs p members = (cutRuns p members).1 :: (cutRuns p members).2 := by
  by_cases hfront : (cutRuns p members).1 = []
  · refine Or.inl ⟨hfront, ?_⟩
    simp only [runs, hfront, List.isEmpty_nil, if_true]
  · refine Or.inr ⟨hfront, ?_⟩
    simp only [runs, List.isEmpty_iff, hfront, if_false]

/-- Every run, but for the one at the front, is still a run when a member is put in front. -/
theorem exists_run_cons {run : List α} (a : α) (h : run ∈ runs p members) :
    ∃ longer ∈ runs p (a :: members), run <:+: longer := by
  cases ha : p a with
  | false =>
    rw [runs_cons_of_neg ha]
    exact ⟨run, h, List.infix_rfl⟩
  | true =>
    rw [runs_cons_of_pos ha]
    rcases runs_cases p members with ⟨-, heq⟩ | ⟨-, heq⟩
    · rw [heq] at h
      exact ⟨run, List.mem_cons_of_mem _ h, List.infix_rfl⟩
    · rw [heq] at h
      rcases List.mem_cons.mp h with rfl | hlater
      · exact ⟨_, List.mem_cons_self, List.infix_cons List.infix_rfl⟩
      · exact ⟨run, List.mem_cons_of_mem _ hlater, List.infix_rfl⟩

/-! ## What runs are -/

/-- Nothing but the members without the property is left out, and the order is kept. -/
theorem flatten_runs (p : α → Bool) (members : List α) :
    (runs p members).flatten = members.filter p := by
  have hcut : ∀ members : List α,
      (cutRuns p members).1 ++ (cutRuns p members).2.flatten = (runs p members).flatten := by
    intro members
    rcases runs_cases p members with ⟨hfront, heq⟩ | ⟨-, heq⟩
    · rw [heq, hfront, List.nil_append]
    · rw [heq, List.flatten_cons]
  induction members with
  | nil => rfl
  | cons a rest ih =>
    cases ha : p a with
    | false => rw [runs_cons_of_neg ha, ih, List.filter_cons_of_neg (Bool.eq_false_iff.mp ha)]
    | true =>
      rw [runs_cons_of_pos ha, List.flatten_cons, List.cons_append, hcut, ih,
        List.filter_cons_of_pos ha]

/-- No run is empty. -/
theorem nil_not_mem_runs (p : α → Bool) (members : List α) : [] ∉ runs p members := by
  induction members with
  | nil => exact List.not_mem_nil
  | cons a rest ih =>
    cases ha : p a with
    | false => rwa [runs_cons_of_neg ha]
    | true =>
      have hlater : [] ∉ (cutRuns p rest).2 := by
        rcases runs_cases p rest with ⟨-, heq⟩ | ⟨-, heq⟩
        · rwa [← heq]
        · rw [heq] at ih
          exact fun h => ih (List.mem_cons_of_mem _ h)
      rw [runs_cons_of_pos ha]
      exact List.not_mem_cons_of_ne_of_not_mem (List.cons_ne_nil _ _).symm hlater

/-- The run at the front begins the list, and the others lie in it. -/
theorem cutRuns_infix (p : α → Bool) (members : List α) :
    (cutRuns p members).1 <+: members ∧ ∀ run ∈ (cutRuns p members).2, run <:+: members := by
  induction members with
  | nil => exact ⟨List.prefix_rfl, List.forall_mem_nil _⟩
  | cons a rest ih =>
    obtain ⟨hfront, hlater⟩ := ih
    cases ha : p a with
    | true =>
      rw [cutRuns_cons_of_pos ha]
      exact ⟨List.cons_prefix_cons.mpr ⟨rfl, hfront⟩,
        fun run h => List.infix_cons (hlater run h)⟩
    | false =>
      rw [cutRuns_cons_of_neg ha]
      refine ⟨List.nil_prefix, fun run h => List.infix_cons ?_⟩
      rcases runs_cases p rest with ⟨-, heq⟩ | ⟨-, heq⟩
      · exact hlater run (heq ▸ h)
      · rw [heq] at h
        rcases List.mem_cons.mp h with rfl | h
        · exact hfront.isInfix
        · exact hlater run h

/-- The members of a run stand next to each other in the list. -/
theorem infix_of_mem_runs {run : List α} (h : run ∈ runs p members) : run <:+: members := by
  obtain ⟨hfront, hlater⟩ := cutRuns_infix p members
  rcases runs_cases p members with ⟨-, heq⟩ | ⟨-, heq⟩
  · exact hlater run (heq ▸ h)
  · rw [heq] at h
    rcases List.mem_cons.mp h with rfl | h
    · exact hfront.isInfix
    · exact hlater run h

/-- Two neighbours with the property stand in one run, next to each other. -/
theorem exists_run_of_infix (h : [a, b] <:+: members) (ha : p a = true) (hb : p b = true) :
    ∃ run ∈ runs p members, [a, b] <:+: run := by
  induction members with
  | nil => cases List.eq_nil_of_infix_nil h
  | cons c rest ih =>
    rcases List.infix_cons_iff.mp h with hprefix | hrest
    · obtain ⟨rfl, tail, rfl⟩ := List.cons_prefix_cons.mp hprefix
      rw [runs_cons_of_pos ha, List.singleton_append, cutRuns_cons_of_pos hb]
      exact ⟨_, List.mem_cons_self, (List.prefix_append [a, b] _).isInfix⟩
    · obtain ⟨run, hrun, hinfix⟩ := ih hrest
      obtain ⟨longer, hlonger, hrun⟩ := exists_run_cons c hrun
      exact ⟨longer, hlonger, hinfix.trans hrun⟩

/-- Whether a list is cut at the members or at what is made of them is the same. -/
theorem runs_map (g : β → α) (p : α → Bool) (places : List β) :
    runs p (places.map g) = (runs (fun place => p (g place)) places).map (List.map g) := by
  have hcut : cutRuns p (places.map g) =
      ((cutRuns (fun place => p (g place)) places).1.map g,
        (cutRuns (fun place => p (g place)) places).2.map (List.map g)) := by
    induction places with
    | nil => rfl
    | cons place rest ih =>
      rw [List.map_cons, cutRuns, cutRuns, ih]
      simp only [List.isEmpty_map]
      split
      · rfl
      · split <;> rfl
  rw [runs, runs, hcut]
  simp only [List.isEmpty_map]
  split <;> rfl

end

/-! ## Places in a curve -/

/-- The places from zero up to `n` are cut into segments at those that are not kept. -/
structure IsCutAt (kept : Nat → Bool) (n : Nat) (segments : List (List Nat)) : Prop where
  /-- The segments hold the places that are kept, in order. -/
  flatten : segments.flatten = (List.range n).filter kept
  nonempty : ∀ segment ∈ segments, segment ≠ []
  /-- The members of a segment follow each other. -/
  consecutive : ∀ segment ∈ segments, segment.IsChain fun i j => j = i + 1
  /-- Two places that are kept and follow each other do so in a segment. -/
  together : ∀ i, i + 1 < n → kept i = true → kept (i + 1) = true →
    ∃ segment ∈ segments, [i, i + 1] <:+: segment

/-- The places of a range are consecutive. -/
theorem isChain_range' (start length : Nat) :
    (List.range' start length).IsChain fun i j => j = i + 1 := by
  induction length generalizing start with
  | zero => exact List.IsChain.nil
  | succ length ih =>
    rw [List.range'_succ]
    cases length with
    | zero => exact List.isChain_singleton _
    | succ length =>
      rw [List.range'_succ]
      exact List.isChain_cons_cons.mpr ⟨rfl, ih (start + 1)⟩

/-- Neighbouring places stand side by side in a range. -/
theorem infix_range {i n : Nat} (h : i + 1 < n) : [i, i + 1] <:+: List.range n := by
  have hback : List.range' i 2 ++ List.range' (i + 2) (n - (i + 2)) = List.range' i (n - i) := by
    rw [List.range'_append_1]
    congr 1
    omega
  have hfront : List.range' 0 i ++ List.range' i (n - i) = List.range' 0 n := by
    have h := List.range'_append_1 (s := 0) (m := i) (n := n - i)
    rwa [Nat.zero_add, Nat.add_sub_cancel' (by omega)] at h
  refine ⟨List.range' 0 i, List.range' (i + 2) (n - (i + 2)), ?_⟩
  rw [List.range_eq_range', ← hfront, ← hback, List.append_assoc]
  rfl

/-- The runs of places are such a cut. -/
theorem isCutAt_runs (kept : Nat → Bool) (n : Nat) : IsCutAt kept n (runs kept (List.range n)) where
  flatten := flatten_runs kept (List.range n)
  nonempty segment h hnil := nil_not_mem_runs kept (List.range n) (hnil ▸ h)
  consecutive segment h := by
    have hrange : (List.range n).IsChain fun i j => j = i + 1 := by
      rw [List.range_eq_range']
      exact isChain_range' 0 n
    exact hrange.infix (infix_of_mem_runs h)
  together i hi hfirst hsecond := exists_run_of_infix (infix_range hi) hfirst hsecond

/-- A curve of a function consists of segments that are cut exactly at the samples without a finite
value. -/
theorem sampleCurve_segments (f : Float → Float) (domain : Domain) (samples : Nat) :
    let n := min (max samples 2) 1000
    let place (i : Nat) : Float :=
      domain.1 + (domain.2 - domain.1) * Float.ofNat i / Float.ofNat (n - 1)
    ∃ segments, IsCutAt (fun i => (f (place i)).isFinite) n segments ∧
      sampleCurve f domain samples =
        segments.map (List.map fun i => (place i, f (place i))) := by
  intro n place
  refine ⟨_, isCutAt_runs (fun i => (f (place i)).isFinite) n, ?_⟩
  exact runs_map (fun i => (place i, f (place i))) (fun sample => sample.2.isFinite)
    (List.range n)

end TexFigure.Chart
