import Mathlib.Data.List.Nodup
import Mathlib.Data.List.Perm.Subperm
import TexFigure.Chart.Basic
import TexFigure.Proofs.Identities
/-!
# Identities of series over an editing session

A session is a list of edits, run on a chart. From an empty chart on, the counter lies above every
identity in use (`IsTidy`), so that every series is handed the counter, and the identities handed
out over a run are the numbers from the first counter to the last, each of them once
(`run_handsOut`). This holds as long as 32 bits can count the pushes.

What an edit of one series does to the others needs no such condition: it leaves them as they are,
in their order, and a chart without the series is left as it is altogether (`OnlyTouches`).
-/

namespace TexFigure.Chart

/-! ## Sessions -/

/-- The identities of the series of a chart, in drawing order. -/
def ids (chart : Chart) : List Nat := chart.series.map (·.id)

/-- The series of a chart beside that of an identity, in drawing order. -/
def others (id : Nat) (chart : Chart) : List Series := chart.series.filter fun s => !(s.id == id)

/-- A series with its style and its kind changed. -/
def restyle (f : Style → Kind → Style × Kind) (series : Series) : Series :=
  ⟨series.id, (f series.style series.kind).1, (f series.style series.kind).2⟩

/-- Change the style and the kind of the series of an identity. -/
def change (id : Nat) (f : Style → Kind → Style × Kind) (chart : Chart) : Chart :=
  chart.modify id (restyle f)

/-- A step of an editing session. -/
inductive Edit
  | push (style : Style) (kind : Kind)
  | remove (id : Nat)
  | move (id index : Nat)
  | change (id : Nat) (f : Style → Kind → Style × Kind)

namespace Edit

/-- The identities that an edit hands out, and the chart behind it. -/
def apply : Edit → Chart → List Nat × Chart
  | push style kind, chart => ([(chart.push style kind).1], (chart.push style kind).2)
  | remove id, chart => ([], chart.remove id)
  | move id index, chart => ([], chart.move id index)
  | change id f, chart => ([], chart.change id f)

/-- The number of series that an edit appends. -/
def pushes : Edit → Nat
  | push _ _ => 1
  | remove _ | move _ _ | change _ _ => 0

end Edit

/-- The identities that a session hands out, in order, and the chart behind it. -/
def run : List Edit → Chart → List Nat × Chart
  | [], chart => ([], chart)
  | edit :: rest, chart =>
    ((edit.apply chart).1 ++ (run rest (edit.apply chart).2).1, (run rest (edit.apply chart).2).2)

/-- The number of series that a session appends. -/
def pushCount : List Edit → Nat
  | [] => 0
  | edit :: rest => edit.pushes + pushCount rest

/-! ## What an edit leaves alone -/

/-- What holds of an edit of the series of an identity: it changes neither the other series nor
their order nor anything else of the chart, and nothing at all when there is no such series. -/
structure OnlyTouches (id : Nat) (chart edited : Chart) : Prop where
  others : edited.others id = chart.others id
  axis : edited.axis = chart.axis
  nextId : edited.nextId = chart.nextId
  absent : id ∉ chart.ids → edited = chart

section
variable {chart : Chart} {id index : Nat}

/-- No series has an identity that is not in use. -/
theorem ne_of_not_mem_ids (h : id ∉ chart.ids) : ∀ s ∈ chart.series, ¬(s.id == id) = true := by
  intro s hs heq
  exact h (List.mem_map.mpr ⟨s, hs, beq_iff_eq.mp heq⟩)

/-- What is not in a chart is not found in it. -/
theorem find?_eq_none (h : id ∉ chart.ids) : chart.find? id = none :=
  List.find?_eq_none.mpr (ne_of_not_mem_ids h)

/-- Removing a series leaves the others, in order. -/
theorem onlyTouches_remove : OnlyTouches id chart (chart.remove id) where
  others := Identity.filter_eraseP (p := fun s : Series => s.id == id) chart.series
  axis := rfl
  nextId := rfl
  absent := by
    intro h
    rw [remove, List.eraseP_of_forall_not (ne_of_not_mem_ids h)]

/-- A series is moved by taking it out and putting it in again, at the end if the place is beyond
it. -/
theorem move_of_find?_eq_some {series : Series} (h : chart.find? id = some series) :
    chart.move id index =
      { chart with
        series := (chart.series.eraseP (·.id == id)).take index ++
          series :: (chart.series.eraseP (·.id == id)).drop index } := by
  rw [move, h]

/-- Moving a series leaves the others, in order. -/
theorem onlyTouches_move : OnlyTouches id chart (chart.move id index) := by
  cases hfind : chart.find? id with
  | none =>
    have heq : chart.move id index = chart := by rw [move, hfind]
    rw [heq]
    exact ⟨rfl, rfl, rfl, fun _ => rfl⟩
  | some series =>
    rw [move_of_find?_eq_some hfind]
    obtain ⟨_, _, _, _, hid⟩ := Identity.exists_of_find? hfind
    refine ⟨?_, rfl, rfl, ?_⟩
    · exact (Identity.filter_take_cons_drop (p := fun s : Series => s.id == id) hid _ index).trans
        (Identity.filter_eraseP chart.series)
    · intro h
      rw [find?_eq_none h] at hfind
      cases hfind

theorem onlyTouches_change (f : Style → Kind → Style × Kind) :
    OnlyTouches id chart (chart.change id f) where
  others := Identity.filter_modifyFirst (p := fun s : Series => s.id == id) (f := restyle f)
    (fun _ => rfl) chart.series
  axis := rfl
  nextId := rfl
  absent := by
    intro h
    rw [change, modify, Identity.modifyFirst_of_forall_not (ne_of_not_mem_ids h)]

/-- A moved series stands at the index, or behind the others when there are fewer. -/
theorem getElem?_move {series : Series} (h : chart.find? id = some series) :
    (chart.move id index).series[min index (chart.series.length - 1)]? = some series := by
  rw [move_of_find?_eq_some h]
  obtain ⟨before, behind, heq, herase, -⟩ := Identity.exists_of_find? h
  have hlength : chart.series.length - 1 = (chart.series.eraseP (·.id == id)).length := by
    rw [herase, heq, List.length_append, List.length_append, List.length_cons]
    omega
  rw [hlength]
  exact Identity.getElem?_take_cons_drop series _ index

/-- Moving rearranges the series. -/
theorem move_perm : (chart.move id index).series.Perm chart.series := by
  cases hfind : chart.find? id with
  | none => rw [move, hfind]
  | some series =>
    rw [move_of_find?_eq_some hfind]
    obtain ⟨before, behind, heq, herase, -⟩ := Identity.exists_of_find? hfind
    refine (Identity.take_cons_drop_perm series _ index).trans ?_
    rw [herase, heq]
    exact List.perm_middle.symm

/-- Changing a series does not change which one it is. -/
theorem ids_change (f : Style → Kind → Style × Kind) : (chart.change id f).ids = chart.ids :=
  Identity.map_modifyFirst (f := restyle f) (fun _ => rfl) chart.series

end

/-! ## Identities are handed out once -/

/-- A chart whose series have identities of their own, all below the counter. -/
structure IsTidy (chart : Chart) : Prop where
  distinct : chart.ids.Nodup
  below : ∀ id ∈ chart.ids, id < chart.nextId

/-- Fewer series, or the same in another order, are tidy under the same counter. -/
theorem IsTidy.of_subperm {chart edited : Chart} (h : IsTidy chart)
    (hids : edited.ids.Subperm chart.ids) (hnextId : edited.nextId = chart.nextId) :
    IsTidy edited where
  distinct := by
    obtain ⟨ids, hperm, hsublist⟩ := hids
    exact hperm.nodup_iff.mp (h.distinct.sublist hsublist)
  below := by
    intro id hid
    rw [hnextId]
    exact h.below id (List.Subperm.subset hids hid)

/-- A push hands out the counter, which moves on by one. -/
theorem IsTidy.push {chart : Chart} (h : IsTidy chart) (hroom : chart.nextId < Identity.last)
    (style : Style) (kind : Kind) :
    (chart.push style kind).1 = chart.nextId ∧
      (chart.push style kind).2.nextId = chart.nextId + 1 ∧
      IsTidy (chart.push style kind).2 := by
  have hfresh : (chart.push style kind).1 = chart.nextId := by
    refine Identity.fresh_eq_counter ?_
    intro id hid
    exact Identity.next_le_of_lt (h.below id hid)
  have hnext : (chart.push style kind).2.nextId = chart.nextId + 1 := by
    show Identity.next (chart.push style kind).1 = _
    rw [hfresh, Identity.next_eq_succ hroom]
  have hids : (chart.push style kind).2.ids = chart.ids ++ [chart.nextId] := by
    rw [← hfresh]
    exact List.map_append
  refine ⟨hfresh, hnext, ?_, ?_⟩
  · -- the counter is none of the identities that lie below it
    rw [hids, List.nodup_append]
    refine ⟨h.distinct, List.nodup_singleton _, ?_⟩
    intro id hid new hnew
    have := h.below id hid
    rw [List.mem_singleton] at hnew
    omega
  · intro id hid
    rw [hnext]
    rw [hids, List.mem_append, List.mem_singleton] at hid
    rcases hid with hid | rfl
    · have := h.below id hid
      omega
    · omega

/-- One edit hands out the counter when it is a push, and nothing otherwise. -/
theorem IsTidy.apply {chart : Chart} (h : IsTidy chart) (edit : Edit)
    (hroom : chart.nextId + edit.pushes ≤ Identity.last) :
    (edit.apply chart).1 = List.range' chart.nextId edit.pushes ∧
      (edit.apply chart).2.nextId = chart.nextId + edit.pushes ∧
      IsTidy (edit.apply chart).2 := by
  cases edit with
  | push style kind =>
    obtain ⟨hid, hnext, htidy⟩ := h.push (Nat.lt_of_succ_le hroom) style kind
    exact ⟨congrArg ([·]) hid, hnext, htidy⟩
  | remove id =>
    refine ⟨rfl, rfl, h.of_subperm ?_ rfl⟩
    exact (List.eraseP_sublist.map _).subperm
  | move id index =>
    have hnext : (chart.move id index).nextId = chart.nextId := onlyTouches_move.nextId
    exact ⟨rfl, hnext, h.of_subperm (move_perm.map _).subperm hnext⟩
  | change id f =>
    have hids : (chart.change id f).ids = chart.ids := ids_change f
    exact ⟨rfl, rfl, h.of_subperm (List.Perm.of_eq hids).subperm rfl⟩

/-- A session hands out the counter, number after number. -/
theorem run_handsOut {edits : List Edit} {chart : Chart} (h : IsTidy chart)
    (hroom : chart.nextId + pushCount edits ≤ Identity.last) :
    (run edits chart).1 = List.range' chart.nextId (pushCount edits) ∧
      IsTidy (run edits chart).2 := by
  induction edits generalizing chart with
  | nil => exact ⟨rfl, h⟩
  | cons edit rest ih =>
    rw [pushCount] at hroom
    obtain ⟨hhanded, hnext, htidy⟩ := h.apply edit (by omega)
    obtain ⟨hlater, hfinal⟩ := ih htidy (by omega)
    -- the counter has moved on by what was handed out, so the later numbers follow on
    refine ⟨?_, hfinal⟩
    rw [run, hhanded, hlater, hnext, pushCount]
    exact List.range'_append_1

/-- An empty chart is tidy. -/
theorem isTidy_empty (axis : Axis) : IsTidy { axis } where
  distinct := List.nodup_nil
  below := by
    intro id hid
    cases hid

/-- A removed identity is not in use any more. -/
theorem not_mem_ids_remove {chart : Chart} (h : chart.ids.Nodup) (id : Nat) :
    id ∉ (chart.remove id).ids := by
  have hids : (chart.remove id).ids = chart.ids.erase id := by
    rw [List.erase_eq_eraseP', ids, ids, List.eraseP_map]
    rfl
  rw [hids]
  exact h.not_mem_erase

/-- Over every session from an empty chart in which 32 bits count the pushes: no identity is handed
out twice, and the identities in the chart are distinct and below the counter. A removal, a move or
a change of one series leaves the others alone, and the whole chart when there is no such series;
and a moved series stands at its index, or behind the others when there are fewer. -/
theorem identities_of_run {axis : Axis} {edits : List Edit} {handed : List Nat} {chart : Chart}
    (hpushes : pushCount edits < Identity.last) (hrun : run edits { axis } = (handed, chart)) :
    handed.Nodup ∧
      chart.ids.Nodup ∧
      (∀ id ∈ chart.ids, id < chart.nextId) ∧
      (∀ id, OnlyTouches id chart (chart.remove id) ∧ id ∉ (chart.remove id).ids) ∧
      (∀ id index, OnlyTouches id chart (chart.move id index) ∧
        (chart.move id index).series.length = chart.series.length ∧
        ∀ series, chart.find? id = some series →
          (chart.move id index).series[min index (chart.series.length - 1)]? = some series) ∧
      ∀ id f, OnlyTouches id chart (chart.change id f) ∧ (chart.change id f).ids = chart.ids := by
  have hroom : ({ axis } : Chart).nextId + pushCount edits ≤ Identity.last := by
    show 0 + pushCount edits ≤ _
    omega
  obtain ⟨hhanded, htidy⟩ := run_handsOut (isTidy_empty axis) hroom
  rw [hrun] at hhanded htidy
  refine ⟨?_, htidy.distinct, htidy.below, ?_, ?_, ?_⟩
  · -- the numbers from the first counter on are distinct
    show handed.Nodup
    rw [show handed = _ from hhanded]
    exact List.nodup_range'
  · intro id
    exact ⟨onlyTouches_remove, not_mem_ids_remove htidy.distinct id⟩
  · intro id index
    exact ⟨onlyTouches_move, move_perm.length_eq, fun _ => getElem?_move⟩
  · intro id f
    exact ⟨onlyTouches_change f, ids_change f⟩

/-- A session that removes the newest series before it appends another one: the identity of the
removed series is not used again. -/
theorem identities_of_run_newest_removed :
    ∃ edits chart,
      edits = [.push {} (.ofCurve "x"), .push {} (.ofCurve "x^2"), .remove 1,
        .push {} (.ofCurve "x^3"), .move 2 0] ∧
      pushCount edits < Identity.last ∧ run edits {} = ([0, 1, 2], chart) ∧
      chart.ids = [2, 0] ∧ chart.ids.Nodup ∧ (∀ id ∈ chart.ids, id < chart.nextId) ∧
      ∀ index, chart.move 1 index = chart := by
  refine ⟨_, _, rfl, by decide, rfl, rfl, ?_⟩
  obtain ⟨-, hdistinct, hbelow, -, hmove, -⟩ := @identities_of_run {}
    [.push {} (.ofCurve "x"), .push {} (.ofCurve "x^2"), .remove 1, .push {} (.ofCurve "x^3"),
      .move 2 0] _ _ (by decide) rfl
  exact ⟨hdistinct, hbelow, fun index => (hmove 1 index).1.absent (by decide)⟩

end TexFigure.Chart
