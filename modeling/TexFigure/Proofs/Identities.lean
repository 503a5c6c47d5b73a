import Mathlib.Data.List.Basic
import TexFigure.Identity
/-!
# Members of a list by identity

A new identity is the counter as long as the counter lies above everything in use
(`fresh_eq_counter`), so that identities are handed out in order. Removing, moving and changing
the first member of a list with a property leaves the members without it alone, in their order.
-/

namespace TexFigure.Identity

/-! ## New identities -/

/-- The greatest of several numbers does not pass a bound of all of them. -/
theorem foldl_max_le {numbers : List Nat} {bound : Nat} (h : ∀ n ∈ numbers, n ≤ bound)
    {start : Nat} (hstart : start ≤ bound) : numbers.foldl max start ≤ bound := by
  induction numbers generalizing start with
  | nil => exact hstart
  | cons n rest ih =>
    rw [List.forall_mem_cons] at h
    exact ih h.2 (Nat.max_le.mpr ⟨hstart, h.1⟩)

/-- A new identity does not pass a bound of the counter and of what follows those in use. -/
theorem fresh_le {counter bound : Nat} {inUse : List Nat} (hcounter : counter ≤ bound)
    (h : ∀ id ∈ inUse, next id ≤ bound) : fresh counter inUse ≤ bound := by
  refine Nat.max_le.mpr ⟨hcounter, foldl_max_le ?_ (Nat.zero_le bound)⟩
  intro n hn
  obtain ⟨id, hid, rfl⟩ := List.mem_map.mp hn
  exact h id hid

theorem counter_le_fresh (counter : Nat) (inUse : List Nat) : counter ≤ fresh counter inUse :=
  Nat.le_max_left _ _

/-- Nothing that follows an identity in use passes the counter, so the counter is handed out. -/
theorem fresh_eq_counter {counter : Nat} {inUse : List Nat}
    (h : ∀ id ∈ inUse, next id ≤ counter) : fresh counter inUse = counter :=
  Nat.le_antisymm (fresh_le (Nat.le_refl counter) h) (counter_le_fresh counter inUse)

theorem next_le_of_lt {id counter : Nat} (h : id < counter) : next id ≤ counter := by
  unfold next
  omega

theorem next_le_last (id : Nat) : next id ≤ last := Nat.min_le_right _ _

theorem next_eq_succ {id : Nat} (h : id < last) : next id = id + 1 := by
  unfold next
  omega

/-- An identity lies below whatever does not come before the one that follows it. The last of all
follows itself, and is left out. -/
theorem lt_of_next_le {id bound : Nat} (h : next id ≤ bound) (hbound : bound < last) :
    id < bound := by
  unfold next at h
  omega

theorem le_foldl_max (numbers : List Nat) (start : Nat) :
    start ≤ numbers.foldl max start ∧ ∀ n ∈ numbers, n ≤ numbers.foldl max start := by
  induction numbers generalizing start with
  | nil => exact ⟨Nat.le_refl start, List.forall_mem_nil _⟩
  | cons n rest ih =>
    obtain ⟨hstart, hrest⟩ := ih (max start n)
    obtain ⟨hle, hn⟩ := Nat.max_le.mp hstart
    exact ⟨hle, List.forall_mem_cons.mpr ⟨hn, hrest⟩⟩

/-- A new identity does not come before any that follows one in use. -/
theorem next_le_fresh {counter id : Nat} {inUse : List Nat} (hid : id ∈ inUse) :
    next id ≤ fresh counter inUse := by
  have hmem : next id ∈ inUse.map next := List.mem_map_of_mem hid
  have hnext := (le_foldl_max (inUse.map next) 0).2 _ hmem
  exact Nat.le_trans hnext (Nat.le_max_right _ _)

/-! ## The first member with a property -/

section
variable {α : Type} {p : α → Bool} {members : List α}

/-- The first member with a property stands between those before it and those behind it. -/
theorem exists_of_find? {member : α} (h : members.find? p = some member) :
    ∃ before behind, members = before ++ member :: behind ∧
      members.eraseP p = before ++ behind ∧ p member = true := by
  obtain ⟨hmember, before, behind, rfl, hbefore⟩ := List.find?_eq_some_iff_append.mp h
  refine ⟨before, behind, rfl, ?_, hmember⟩
  have hpass : ∀ a ∈ before, ¬p a = true := by
    intro a ha
    simpa using hbefore a ha
  rw [List.eraseP_append_right _ hpass, List.eraseP_cons_of_pos hmember]

/-- Removing the first member with a property leaves the members without it. -/
theorem filter_eraseP (members : List α) :
    (members.eraseP p).filter (!p ·) = members.filter (!p ·) := by
  induction members with
  | nil => rfl
  | cons a rest ih =>
    by_cases ha : p a = true
    · rw [List.eraseP_cons_of_pos ha, List.filter_cons_of_neg (by simp [ha])]
    · rw [List.eraseP_cons_of_neg ha, List.filter_cons_of_pos (by simp [ha]),
        List.filter_cons_of_pos (by simp [ha]), ih]

/-- A change that keeps the property leaves the members without it. -/
theorem filter_modifyFirst {f : α → α} (hf : ∀ a, p (f a) = p a) (members : List α) :
    (modifyFirst p f members).filter (!p ·) = members.filter (!p ·) := by
  induction members with
  | nil => rfl
  | cons a rest ih =>
    rw [modifyFirst]
    by_cases ha : p a = true
    · rw [if_pos ha, List.filter_cons_of_neg (by simp [hf, ha]),
        List.filter_cons_of_neg (by simp [ha])]
    · rw [if_neg ha, List.filter_cons_of_pos (by simp [ha]),
        List.filter_cons_of_pos (by simp [ha]), ih]

/-- A change keeps whatever it keeps of the members with the property. -/
theorem map_modifyFirst_of_pos {β : Type} {f : α → α} {g : α → β}
    (hf : ∀ a, p a = true → g (f a) = g a) (members : List α) :
    (modifyFirst p f members).map g = members.map g := by
  induction members with
  | nil => rfl
  | cons a rest ih =>
    rw [modifyFirst]
    by_cases ha : p a = true
    · rw [if_pos ha, List.map_cons, List.map_cons, hf a ha]
    · rw [if_neg ha, List.map_cons, List.map_cons, ih]

/-- A change keeps whatever it keeps of every member. -/
theorem map_modifyFirst {β : Type} {f : α → α} {g : α → β} (hf : ∀ a, g (f a) = g a)
    (members : List α) : (modifyFirst p f members).map g = members.map g :=
  map_modifyFirst_of_pos (fun a _ => hf a) members

theorem modifyFirst_of_forall_not {f : α → α} (h : ∀ a ∈ members, ¬p a = true) :
    modifyFirst p f members = members := by
  induction members with
  | nil => rfl
  | cons a rest ih =>
    rw [List.forall_mem_cons] at h
    rw [modifyFirst, if_neg h.1, ih h.2]

/-- Putting a member with a property among others leaves the members without it. -/
theorem filter_take_cons_drop {member : α} (h : p member = true) (members : List α) (index : Nat) :
    (members.take index ++ member :: members.drop index).filter (!p ·) =
      members.filter (!p ·) := by
  rw [List.filter_append, List.filter_cons_of_neg (by simp [h]), ← List.filter_append,
    List.take_append_drop]

/-- A member that is put among others stands at its index, or behind them when there are fewer. -/
theorem getElem?_take_cons_drop (member : α) (members : List α) (index : Nat) :
    (members.take index ++ member :: members.drop index)[min index members.length]? =
      some member := by
  have hlength : (members.take index).length = min index members.length := List.length_take
  rw [List.getElem?_append_right (by omega), hlength, Nat.sub_self]
  rfl

/-- Putting a member among others is a rearrangement of having it in front of them. -/
theorem take_cons_drop_perm (member : α) (members : List α) (index : Nat) :
    (members.take index ++ member :: members.drop index).Perm (member :: members) := by
  have h : (members.take index ++ member :: members.drop index).Perm
      (member :: (members.take index ++ members.drop index)) := List.perm_middle
  rwa [List.take_append_drop] at h

end

end TexFigure.Identity
