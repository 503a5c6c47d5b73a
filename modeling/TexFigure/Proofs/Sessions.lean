import Mathlib.Data.List.Induction
import TexFigure.Proofs.Identities
import TexFigure.Shape.Document
/-!
# Identities of shapes over an editing session

A session adds, removes and changes the shapes of a figure, which may have been loaded with
identities beyond its counter. Its first addition passes whatever is left of those (`firstNew`), and
from then on the identities are handed out in order: the invariant (`IsTidy`) counts them, also past
the last identity, at which the counter stops.

Before the first addition only the shapes themselves tell of identities beyond the counter, so that
one which is removed is forgotten. It comes back when the session has added enough shapes.

> `forall_add_ne_iff`: the identity of a new shape is none that has been in use since the figure was
> loaded, unless a shape was loaded with it or the last identity has been handed out.
-/

namespace TexFigure.Figure

/-! ## Sessions -/

/-- The identities of the shapes of a figure, in drawing order. -/
def ids (figure : Figure) : List Nat := figure.shapes.map (·.id)

/-- Change a shape, but for its identity. -/
def change (id : Nat) (f : Shape → Shape) (figure : Figure) : Figure :=
  match figure.find? id with
  | some shape => figure.replace id { f shape with id }
  | none => figure

/-- A step of an editing session. -/
inductive Edit
  | add (form : Shape.Form) (position : Point Float)
  | remove (id : Nat)
  | change (id : Nat) (f : Shape → Shape)

namespace Edit

/-- The figure behind an edit. -/
def apply : Edit → Figure → Figure
  | add form position, figure => (figure.add form position).2
  | remove id, figure => figure.remove id
  | change id f, figure => figure.change id f

/-- Whether an edit adds a shape. -/
def isAdd : Edit → Bool
  | add _ _ => true
  | remove _ | change _ _ => false

theorem exists_of_isAdd {edit : Edit} (h : edit.isAdd = true) :
    ∃ form position, edit = add form position := by
  cases edit with
  | add form position => exact ⟨form, position, rfl⟩
  | remove | change => cases h

end Edit

/-- The figure behind a session. -/
def run : List Edit → Figure → Figure
  | [], figure => figure
  | edit :: rest, figure => run rest (edit.apply figure)

/-- The number of shapes that a session adds. -/
def addCount (edits : List Edit) : Nat := edits.countP Edit.isAdd

/-- The edits of a session before its first addition. -/
def opening (edits : List Edit) : List Edit := edits.takeWhile (!·.isAdd)

theorem addCount_append (edits edits' : List Edit) :
    addCount (edits ++ edits') = addCount edits + addCount edits' :=
  List.countP_append

theorem addCount_of_not_isAdd {edit : Edit} (h : edit.isAdd = false) : addCount [edit] = 0 :=
  List.countP_cons_of_neg (by simp [h])

theorem addCount_cons_add (form : Shape.Form) (position : Point Float) (edits : List Edit) :
    addCount (.add form position :: edits) = addCount edits + 1 :=
  List.countP_cons_of_pos rfl

theorem run_append (edits edits' : List Edit) (figure : Figure) :
    run (edits ++ edits') figure = run edits' (run edits figure) := by
  induction edits generalizing figure with
  | nil => rfl
  | cons edit rest ih => exact ih (edit.apply figure)

/-! ## Edits without an addition -/

theorem ids_change (id : Nat) (f : Shape → Shape) (figure : Figure) :
    (figure.change id f).ids = figure.ids := by
  unfold change
  split
  next shape =>
    refine Identity.map_modifyFirst_of_pos (fun a ha => ?_) figure.shapes
    exact (beq_iff_eq.mp ha).symm
  next => rfl

/-- An edit that adds nothing brings no identity into use and leaves the counter alone. The counter
is left alone even where the edit removes the shape that alone told of an identity beyond it. -/
theorem apply_of_not_isAdd {edit : Edit} (h : edit.isAdd = false) (figure : Figure) :
    (edit.apply figure).ids ⊆ figure.ids ∧ (edit.apply figure).nextId = figure.nextId := by
  cases edit with
  | add form position => cases h
  | remove id => exact ⟨(List.eraseP_sublist.map _).subset, rfl⟩
  | change id f =>
    have hids : (figure.change id f).ids = figure.ids := ids_change id f figure
    have hnextId : (figure.change id f).nextId = figure.nextId := by
      unfold change
      split <;> rfl
    exact ⟨hids ▸ List.Subset.refl figure.ids, hnextId⟩

/-- Without an addition no identity is new, and the counter stays. -/
theorem run_of_not_isAdd {edits : List Edit} (h : ∀ edit ∈ edits, edit.isAdd = false)
    (figure : Figure) :
    (run edits figure).ids ⊆ figure.ids ∧ (run edits figure).nextId = figure.nextId := by
  induction edits generalizing figure with
  | nil => exact ⟨List.Subset.refl _, rfl⟩
  | cons edit rest ih =>
    obtain ⟨hedit, hrest⟩ := List.forall_mem_cons.mp h
    obtain ⟨hids, hnextId⟩ := ih hrest (edit.apply figure)
    obtain ⟨hids', hnextId'⟩ := apply_of_not_isAdd hedit figure
    exact ⟨List.Subset.trans hids hids', hnextId.trans hnextId'⟩

/-! ## Behind the first addition -/

/-- A figure behind an addition, when the identities below a count have been handed out or passed:
the counter is the count, or the last identity if the count is beyond it. -/
structure IsTidy (count : Nat) (figure : Figure) : Prop where
  counter : figure.nextId = min count Identity.last
  below : count ≤ Identity.last → ∀ id ∈ figure.ids, id < count

section
variable {figure : Figure} {count : Nat} (form : Shape.Form) (position : Point Float)

/-- A new shape stands last. -/
theorem ids_add : (figure.add form position).2.ids =
    figure.ids ++ [(figure.add form position).1] :=
  List.map_append

/-- An addition leaves a figure tidy, whether it was or not: a new identity passes all in use. -/
theorem isTidy_add (figure : Figure) :
    IsTidy ((figure.add form position).1 + 1) (figure.add form position).2 where
  counter := rfl
  below := by
    intro hroom id hid
    rw [ids_add, List.mem_append, List.mem_singleton] at hid
    rcases hid with hid | rfl
    · have hnext : Identity.next id ≤ (figure.add form position).1 := Identity.next_le_fresh hid
      exact Nat.lt_succ_of_lt (Identity.lt_of_next_le hnext hroom)
    · exact Nat.lt_succ_self _

/-- A tidy figure hands out its counter. -/
theorem IsTidy.add_fst (h : IsTidy count figure) :
    (figure.add form position).1 = min count Identity.last := by
  refine (Identity.fresh_eq_counter fun id hid => ?_).trans h.counter
  rw [h.counter]
  refine Nat.le_min.mpr ⟨?_, Identity.next_le_last id⟩
  rcases Nat.lt_or_ge Identity.last count with hpast | hroom
  · exact Nat.le_trans (Identity.next_le_last id) (Nat.le_of_lt hpast)
  · exact Identity.next_le_of_lt (h.below hroom id hid)

/-- An addition to a tidy figure counts one identity more, also where the counter has stopped. -/
theorem IsTidy.add (h : IsTidy count figure) : IsTidy (count + 1) (figure.add form position).2 := by
  have htidy := isTidy_add form position figure
  rw [h.add_fst form position] at htidy
  rcases Nat.lt_or_ge Identity.last count with hpast | hroom
  · have hcounter := htidy.counter
    exact ⟨by omega, fun hroom => by omega⟩
  · rwa [Nat.min_eq_left hroom] at htidy

end

section
variable {figure : Figure} {count : Nat}

/-- One edit keeps a figure tidy, and counts the identity that it hands out. -/
theorem IsTidy.apply (h : IsTidy count figure) (edit : Edit) :
    IsTidy (count + addCount [edit]) (edit.apply figure) := by
  cases hadd : edit.isAdd with
  | false =>
    obtain ⟨hids, hnextId⟩ := apply_of_not_isAdd hadd figure
    rw [addCount_of_not_isAdd hadd, Nat.add_zero]
    exact ⟨hnextId.trans h.counter, fun hroom id hid => h.below hroom id (hids hid)⟩
  | true =>
    obtain ⟨form, position, rfl⟩ := Edit.exists_of_isAdd hadd
    exact h.add form position

/-- A session keeps a figure tidy, and counts all identities that it hands out. -/
theorem IsTidy.run (h : IsTidy count figure) (edits : List Edit) :
    IsTidy (count + addCount edits) (run edits figure) := by
  induction edits generalizing count figure with
  | nil => exact h
  | cons edit rest ih =>
    have hcount : addCount (edit :: rest) = addCount [edit] + addCount rest :=
      addCount_append [edit] rest
    rw [hcount, ← Nat.add_assoc]
    exact ih (h.apply edit)

end

/-! ## The first addition -/

theorem isAdd_of_mem_opening {edits : List Edit} {edit : Edit} (h : edit ∈ opening edits) :
    edit.isAdd = false := by
  simpa using List.all_eq_true.mp List.all_takeWhile edit h

theorem addCount_opening (edits : List Edit) : addCount (opening edits) = 0 := by
  refine List.countP_eq_zero.mpr fun edit hedit => ?_
  simp [isAdd_of_mem_opening hedit]

/-- An edit that adds nothing belongs to the opening. -/
theorem opening_cons {edit : Edit} (h : edit.isAdd = false) (edits : List Edit) :
    opening (edit :: edits) = edit :: opening edits :=
  List.takeWhile_cons_of_pos (by simp [h])

/-- An addition ends the opening, if it has not ended before. -/
theorem opening_append_add (edits : List Edit) (form : Shape.Form) (position : Point Float)
    (rest : List Edit) : opening (edits ++ .add form position :: rest) = opening edits := by
  induction edits with
  | nil => rfl
  | cons edit edits ih =>
    cases hadd : edit.isAdd with
    | true =>
      obtain ⟨form, position, rfl⟩ := Edit.exists_of_isAdd hadd
      rfl
    | false => rw [List.cons_append, opening_cons hadd, opening_cons hadd, ih]

/-- A session is all opening, or its opening ends at the first addition. -/
theorem opening_cases (edits : List Edit) :
    opening edits = edits ∨
      ∃ form position rest, edits = opening edits ++ .add form position :: rest := by
  induction edits with
  | nil => exact Or.inl rfl
  | cons edit edits ih =>
    cases hadd : edit.isAdd with
    | true =>
      obtain ⟨form, position, rfl⟩ := Edit.exists_of_isAdd hadd
      exact Or.inr ⟨form, position, edits, rfl⟩
    | false =>
      rw [opening_cons hadd]
      rcases ih with ih | ⟨form, position, rest, ih⟩
      · exact Or.inl (congrArg (edit :: ·) ih)
      · exact Or.inr ⟨form, position, rest, congrArg (edit :: ·) ih⟩

/-- Edits that add nothing are opening edits throughout. -/
theorem opening_of_addCount {edits : List Edit} (h : addCount edits = 0) :
    opening edits = edits := by
  rcases opening_cases edits with hopening | ⟨form, position, rest, hedits⟩
  · exact hopening
  · rw [hedits, addCount_append, addCount_cons_add] at h
    cases h

/-- Behind the opening edits comes the first addition, when there is one. -/
theorem exists_first_add {edits : List Edit} (h : 0 < addCount edits) :
    ∃ form position rest, edits = opening edits ++ .add form position :: rest := by
  rcases opening_cases edits with hopening | hadd
  · rw [← hopening, addCount_opening] at h
    cases h
  · exact hadd

/-- The first identity that a session hands out: it lies above the counter and above whatever the
opening has left in use. -/
def firstNew (edits : List Edit) (figure : Figure) : Nat :=
  Identity.fresh figure.nextId (run (opening edits) figure).ids

section
variable {figure : Figure} {edits : List Edit}

/-- The opening of a session brings no identity into use: what it leaves was loaded. -/
theorem run_opening (edits : List Edit) (figure : Figure) :
    (run (opening edits) figure).ids ⊆ figure.ids ∧
      (run (opening edits) figure).nextId = figure.nextId :=
  run_of_not_isAdd (fun _ => isAdd_of_mem_opening) figure

/-- An addition behind the opening of a session hands out the first new identity. -/
theorem add_opening_fst (edits : List Edit) (figure : Figure) (form : Shape.Form)
    (position : Point Float) :
    ((run (opening edits) figure).add form position).1 = firstNew edits figure :=
  congrArg (Identity.fresh · _) (run_opening edits figure).2

theorem firstNew_le_last (h : figure.nextId ≤ Identity.last) (edits : List Edit) :
    firstNew edits figure ≤ Identity.last :=
  Identity.fresh_le h fun id _ => Identity.next_le_last id

/-- A session that goes on has the same first new identity, once its first addition is made. -/
theorem firstNew_eq_of_addCount {earlier : List Edit} (hadd : 0 < addCount earlier)
    (h : earlier <+: edits) : firstNew earlier figure = firstNew edits figure := by
  obtain ⟨later, rfl⟩ := h
  obtain ⟨form, position, rest, hearlier⟩ := exists_first_add hadd
  have hopening : opening (earlier ++ later) = opening earlier := by
    rw [hearlier, List.append_assoc, List.cons_append, opening_append_add, opening_append_add]
  rw [firstNew, firstNew, hopening]

/-- A session that has made an addition is tidy: it has handed out an identity for each. -/
theorem isTidy_run (h : 0 < addCount edits) (figure : Figure) :
    IsTidy (firstNew edits figure + addCount edits) (run edits figure) := by
  obtain ⟨form, position, rest, hedits⟩ := exists_first_add h
  have hcount : addCount edits = 1 + addCount rest := by
    rw [hedits, addCount_append, addCount_opening, addCount_cons_add, Nat.zero_add, Nat.add_comm]
  have hrun : run edits figure = run rest ((run (opening edits) figure).add form position).2 :=
    (congrArg (run · figure) hedits).trans (run_append _ _ _)
  have htidy := (isTidy_add form position (run (opening edits) figure)).run rest
  rwa [add_opening_fst, Nat.add_assoc, ← hcount, ← hrun] at htidy

/-- All other additions of a session come before its last one. -/
theorem exists_last_add (h : 0 < addCount edits) :
    ∃ before form position rest, edits = before ++ .add form position :: rest ∧
      addCount edits = addCount before + 1 := by
  induction edits using List.reverseRecOn with
  | nil => cases h
  | append_singleton edits edit ih =>
    have hcount := addCount_append edits [edit]
    cases hadd : edit.isAdd with
    | true =>
      obtain ⟨form, position, rfl⟩ := Edit.exists_of_isAdd hadd
      exact ⟨edits, form, position, [], rfl, hcount⟩
    | false =>
      rw [addCount_of_not_isAdd hadd, Nat.add_zero] at hcount
      obtain ⟨before, form, position, rest, rfl, hbefore⟩ := ih (hcount ▸ h)
      exact ⟨before, form, position, rest ++ [edit], by simp, hcount.trans hbefore⟩

/-! ## New identities -/

/-- A session hands out the numbers from the first new identity on, one after the other, and the
last identity for all numbers beyond it. -/
theorem add_run_fst (hcounter : figure.nextId ≤ Identity.last) (edits : List Edit)
    (form : Shape.Form) (position : Point Float) :
    ((run edits figure).add form position).1 =
      min (firstNew edits figure + addCount edits) Identity.last := by
  rcases Nat.eq_zero_or_pos (addCount edits) with hnone | hadd
  · rw [hnone, Nat.add_zero, Nat.min_eq_left (firstNew_le_last hcounter edits),
      ← add_opening_fst edits figure form position, opening_of_addCount hnone]
  · exact (isTidy_run hadd figure).add_fst form position

/-- What has been in use at some point of a session was loaded, or lies below the number that the
session comes to. -/
theorem mem_ids_run_cases {earlier : List Edit} {id : Nat} (hearlier : earlier <+: edits)
    (hid : id ∈ (run earlier figure).ids)
    (hroom : firstNew edits figure + addCount edits ≤ Identity.last) :
    id ∈ figure.ids ∨ id < firstNew edits figure + addCount edits := by
  rcases Nat.eq_zero_or_pos (addCount earlier) with hnone | hadd
  · rw [← opening_of_addCount hnone] at hid
    exact Or.inl ((run_opening earlier figure).1 hid)
  · have htidy := isTidy_run hadd figure
    have hcount : addCount earlier ≤ addCount edits := hearlier.sublist.countP_le
    rw [firstNew_eq_of_addCount hadd hearlier] at htidy
    have := htidy.below (by omega) id hid
    exact Or.inr (by omega)

/-- Where the numbers have passed the last identity, it has been handed out, at the latest by the
addition before. -/
theorem exists_last_mem (hcounter : figure.nextId ≤ Identity.last)
    (hpast : Identity.last < firstNew edits figure + addCount edits) :
    ∃ earlier, earlier <+: edits ∧ Identity.last ∈ (run earlier figure).ids := by
  have hadd : 0 < addCount edits := by
    have := firstNew_le_last hcounter edits
    omega
  obtain ⟨before, form, position, rest, hedits, hcount⟩ := exists_last_add hadd
  have hbefore : firstNew before figure = firstNew edits figure := by
    rw [hedits, firstNew, firstNew, opening_append_add]
  have hnew := add_run_fst hcounter before form position
  rw [hbefore, Nat.min_eq_right (by omega)] at hnew
  refine ⟨before ++ [.add form position], ⟨rest, by simp [hedits]⟩, ?_⟩
  rw [run_append]
  show _ ∈ ((run before figure).add form position).2.ids
  rw [ids_add, hnew]
  exact List.mem_append_right _ (List.mem_singleton_self _)

end

/-! ## Loaded figures -/

theorem lt_of_count? {bound n : Nat} {value : Json} (h : Json.count? bound value = some n) :
    n < bound := by
  unfold Json.count? at h
  split at h
  next number =>
    obtain ⟨⟨hnonneg, hlt⟩, hn⟩ := Option.ite_none_right_eq_some.mp h
    obtain rfl := Option.some.inj hn
    omega
  next => cases h

/-- Reading a figure gives a counter of 32 bits, also where the document holds none. -/
theorem nextId_le_of_decode? {value : Json} {figure : Figure} (h : decode? value = some figure) :
    figure.nextId ≤ Identity.last := by
  obtain ⟨fields, -, h⟩ := Option.bind_eq_some_iff.mp h
  obtain ⟨shapes, -, h⟩ := Option.bind_eq_some_iff.mp h
  obtain ⟨nextId, hnextId, h⟩ := Option.bind_eq_some_iff.mp h
  obtain rfl := Option.some.inj h
  unfold Json.optional at hnextId
  split at hnextId
  next =>
    obtain rfl := Option.some.inj hnextId
    exact Nat.zero_le _
  next => exact Nat.le_pred_of_lt (lt_of_count? hnextId)

/-- The numbers of a session do not pass the last identity when it is shorter than half of them, the
identities of the figure are in the lower half and its counter leaves room. -/
theorem firstNew_add_le {figure : Figure} {edits : List Edit}
    (hids : ∀ id ∈ figure.ids, id < Nat.pow 2 31) (hlength : edits.length < Nat.pow 2 31)
    (hroom : figure.nextId + addCount edits ≤ Identity.last) :
    firstNew edits figure + addCount edits ≤ Identity.last := by
  have hfirst : firstNew edits figure ≤ max figure.nextId (Nat.pow 2 31) := by
    refine Identity.fresh_le (Nat.le_max_left _ _) fun id hid => ?_
    have hloaded := hids id ((run_opening edits figure).1 hid)
    exact Nat.le_trans (Identity.next_le_of_lt hloaded) (Nat.le_max_right _ _)
  have hadds : addCount edits ≤ edits.length := List.countP_le_length
  have hlast : Nat.pow 2 31 + Nat.pow 2 31 = Identity.last + 1 := rfl
  omega

/-- The identity of a new shape, exactly. In a figure that was read from any document, after any
session, it is none that has been in use at any point since, unless the numbers have passed the last
identity or a shape was loaded with it. Such a shape has been removed before the first addition, as
the first new identity lies above all that are left. The numbers do not pass the last identity in a
session of fewer than half of them, when the identities of the figure are in the lower half and its
counter leaves room. -/
theorem forall_add_ne_iff {value : Json} {figure : Figure} (hdecode : decode? value = some figure)
    (edits : List Edit) (form : Shape.Form) (position : Point Float) :
    ((run edits figure).add form position).1 =
        min (firstNew edits figure + addCount edits) Identity.last ∧
      ((∀ earlier, earlier <+: edits →
          ∀ id ∈ (run earlier figure).ids, ((run edits figure).add form position).1 ≠ id) ↔
        firstNew edits figure + addCount edits ≤ Identity.last ∧
          firstNew edits figure + addCount edits ∉ figure.ids) ∧
      ((∀ id ∈ figure.ids, id < Nat.pow 2 31) → edits.length < Nat.pow 2 31 →
        figure.nextId + addCount edits ≤ Identity.last →
          firstNew edits figure + addCount edits ≤ Identity.last) := by
  have hcounter := nextId_le_of_decode? hdecode
  have hnew := add_run_fst hcounter edits form position
  refine ⟨hnew, ⟨fun h => ?_, ?_⟩, fun hids hlength hroom => ?_⟩
  · have hroom : firstNew edits figure + addCount edits ≤ Identity.last := by
      by_contra hpast
      rw [Nat.min_eq_right (by omega)] at hnew
      obtain ⟨earlier, hearlier, hlast⟩ := exists_last_mem hcounter (Nat.lt_of_not_le hpast)
      exact h earlier hearlier Identity.last hlast hnew
    rw [Nat.min_eq_left hroom] at hnew
    exact ⟨hroom, fun hloaded => h [] List.nil_prefix _ hloaded hnew⟩
  · rintro ⟨hroom, hloaded⟩ earlier hearlier id hid rfl
    rw [Nat.min_eq_left hroom] at hnew
    rw [hnew] at hid
    rcases mem_ids_run_cases hearlier hid hroom with hmem | hlt
    · exact hloaded hmem
    · exact Nat.lt_irrefl _ hlt
  · exact firstNew_add_le hids hlength hroom

/-- Of two shapes that are loaded without a counter, the one beyond the other is removed first. The
second new shape has an identity of its own, although the first one has been removed again; the
third one has that of the shape that was loaded. -/
theorem forall_add_ne_iff_loaded :
    let value : Json := .obj [("shapes", .arr [
      .obj [("id", .int 5), ("kind", Json.variant "circle" [("radius", .float 1.0)])],
      .obj [("id", .int 2), ("kind", Json.variant "square" [("side", .float 1.0)])]])]
    let edits : List Edit := [.remove 5, .add (.circle 1.0) ⟨0.0, 0.0⟩, .remove 3]
    let longer : List Edit := edits ++ [.add (.square 1.0) ⟨0.0, 0.0⟩]
    ∃ figure, decode? value = some figure ∧
      (∀ earlier, earlier <+: edits → ∀ id ∈ (run earlier figure).ids,
        ((run edits figure).add (.square 1.0) ⟨0.0, 0.0⟩).1 ≠ id) ∧
      ((run longer figure).add (.circle 1.0) ⟨0.0, 0.0⟩).1 = 5 ∧
      ¬∀ earlier, earlier <+: longer → ∀ id ∈ (run earlier figure).ids,
        ((run longer figure).add (.circle 1.0) ⟨0.0, 0.0⟩).1 ≠ id := by
  intro value edits longer
  have hdecode : decode? value = some
      { shapes := [{ id := 5, form := .circle 1.0 }, { id := 2, form := .square 1.0 }] } := rfl
  obtain ⟨-, hshort, -⟩ := forall_add_ne_iff hdecode edits (.square 1.0) ⟨0.0, 0.0⟩
  obtain ⟨hnew, hlong, -⟩ := forall_add_ne_iff hdecode longer (.circle 1.0) ⟨0.0, 0.0⟩
  refine ⟨_, hdecode, hshort.mpr (by decide), hnew, fun h => ?_⟩
  exact (hlong.mp h).2 (by decide)

/-- The identity of a shape that is removed before the first addition is handed out again. -/
theorem not_forall_add_ne_removed :
    ¬∀ (value : Json) (figure : Figure), decode? value = some figure → figure.ids.Nodup →
      (∀ id ∈ figure.ids, id < Nat.pow 2 31) →
      ∀ (edits : List Edit) (form : Shape.Form) (position : Point Float),
        edits.length + 1 < Nat.pow 2 31 →
        ∀ earlier, earlier <+: edits → ∀ id ∈ (run earlier figure).ids,
          ((run edits figure).add form position).1 ≠ id := by
  intro h
  refine h (.obj [("shapes", .arr [
      .obj [("id", .int 0), ("kind", Json.variant "circle" [("radius", .float 1.0)])]])])
    { shapes := [{ id := 0, form := .circle 1.0 }] } rfl (by decide) (by decide)
    [.remove 0] (.circle 1.0) ⟨0.0, 0.0⟩ (by decide) [] List.nil_prefix 0 (by decide) ?_
  decide

end TexFigure.Figure
