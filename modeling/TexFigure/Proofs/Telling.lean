import TexFigure.Proofs.Tags
/-!
# Drawings told apart by their tags

A drawing that depends on a few values is written the same for other values under some condition:
that the values are the same, or that they show nowhere. `Tells` says more than that the drawings
are the same under it. Their tags alone are the same only then, and there are as many of them in any
case; so the parts of a drawing tell their conditions independently of each other
(`Tells.append`, `Tells.flatMap`, `Tells.element`).

What a leaf tells are the values of its attributes, because each of them is found in its tag
(`value_eq_of_startTag`).
-/

namespace TexFigure

namespace Markup

/-! ## Values -/

/-- The five characters with their references. -/
def referenceTable : List (Char × Text) :=
  [('&', "&amp;"), ('<', "&lt;"), ('>', "&gt;"), ('"', "&quot;"), ('\'', "&apos;")]

/-- A character is escaped by a reference of the table or stands for itself, the ampersand excepted,
which starts every reference. -/
theorem escapeChar_spec (c : Char) :
    (c, Xml.escapeChar c) ∈ referenceTable ∨ Xml.escapeChar c = [c] ∧ c ≠ '&' := by
  by_cases h : c ∈ ['&', '<', '>', '"', '\'']
  · left
    simp only [List.mem_cons, List.not_mem_nil, or_false] at h
    rcases h with rfl | rfl | rfl | rfl | rfl <;> decide
  · right
    simp only [List.mem_cons, List.not_mem_nil, or_false, not_or] at h
    obtain ⟨hamp, hlt, hgt, hquot, hapos⟩ := h
    rw [Xml.escapeChar, if_neg hamp, if_neg hlt, if_neg hgt, if_neg hquot, if_neg hapos]
    exact ⟨rfl, hamp⟩

/-- What a character is written as can be told from what follows. -/
theorem escapeChar_append_inj {c d : Char} {rest rest' : Text}
    (h : Xml.escapeChar c ++ rest = Xml.escapeChar d ++ rest') : c = d ∧ rest = rest' := by
  have hamp : ∀ pair ∈ referenceTable, ∃ name, pair.2 = '&' :: name := by
    simp [referenceTable]
  -- no reference starts like another one
  have htable : ∀ pair ∈ referenceTable, ∀ pair' ∈ referenceTable,
      pair.2 <+: pair'.2 → pair = pair' := by decide
  rcases escapeChar_spec c with hc | ⟨hc, hnot⟩
  · rcases escapeChar_spec d with hd | ⟨hd, hnot'⟩
    · have heq : (c, Xml.escapeChar c) = (d, Xml.escapeChar d) := by
        have hprefix : Xml.escapeChar d <+: Xml.escapeChar c ++ rest := ⟨rest', h.symm⟩
        rcases List.prefix_or_prefix_of_prefix (List.prefix_append _ rest) hprefix with hle | hle
        · exact htable _ hc _ hd hle
        · exact (htable _ hd _ hc hle).symm
      obtain ⟨rfl, -⟩ := Prod.mk.inj heq
      exact ⟨rfl, List.append_cancel_left h⟩
    · obtain ⟨name, hname⟩ := hamp _ hc
      dsimp only at hname
      rw [hname, hd] at h
      exact absurd (List.cons.inj h).1.symm hnot'
  · rcases escapeChar_spec d with hd | ⟨hd, -⟩
    · obtain ⟨name, hname⟩ := hamp _ hd
      dsimp only at hname
      rw [hname, hc] at h
      exact absurd (List.cons.inj h).1 hnot
    · rw [hc, hd] at h
      exact List.cons.inj h

/-- Different texts are escaped differently. -/
theorem escape_injective : Function.Injective Xml.escape := by
  have hne (c : Char) (text : Text) : Xml.escape (c :: text) ≠ [] := by
    rw [Xml.escape, List.flatMap_cons]
    rcases escapeChar_cases c with hmem | ⟨heq, -, -⟩
    · intro hnil
      rw [(List.append_eq_nil_iff.mp hnil).1] at hmem
      exact absurd hmem (by decide)
    · simp [heq]
  intro text
  induction text with
  | nil =>
    intro text' h
    cases text' with
    | nil => rfl
    | cons d text' => exact absurd h.symm (hne d text')
  | cons c text ih =>
    intro text' h
    cases text' with
    | nil => exact absurd h (hne c text)
    | cons d text' =>
      obtain ⟨rfl, hrest⟩ := escapeChar_append_inj (h : Xml.escapeChar c ++ Xml.escape text = _)
      rw [ih hrest]

/-- A value is found in a tag behind the same attributes, whatever comes next. -/
theorem value_eq_of_startTag {name key value value' close close' : Text}
    {before after after' : List (Text × Text)}
    (h : Xml.startTag name (before ++ (key, value) :: after) ++ close =
      Xml.startTag name (before ++ (key, value') :: after') ++ close') : value = value' := by
  have htake (value rest : Text) :
      (Xml.escape value ++ '"' :: rest).takeWhile (· != '"') = Xml.escape value := by
    rw [List.takeWhile_append_of_pos, List.takeWhile_cons_of_neg (by decide), List.append_nil]
    intro c hc
    exact bne_iff_ne.mpr fun heq => not_mem_escape (by decide) value (heq ▸ hc)
  simp only [Xml.startTag, List.flatMap_append, List.flatMap_cons, Xml.writeAttribute,
    List.append_assoc, List.cons_append, List.append_cancel_left_eq, List.cons.injEq,
    true_and] at h
  have hescape : Xml.escape value = Xml.escape value' :=
    (htake value _).symm.trans ((congrArg (List.takeWhile (· != '"')) h).trans (htake value' _))
  exact escape_injective hescape

/-! ## Drawings that tell a condition -/

/-- Two drawings that are the same exactly under a condition. They have as many tags in any case,
and their tags alone are the same only under the condition. -/
structure Tells (condition : Prop) (parts parts' : List Xml) : Prop where
  length : (Xml.tagsOfAll parts).length = (Xml.tagsOfAll parts').length
  same : condition → parts = parts'
  seen : Xml.tagsOfAll parts = Xml.tagsOfAll parts' → condition

namespace Tells

variable {condition other : Prop} {parts parts' others others' : List Xml}

/-- What is drawn the same on both sides tells nothing. -/
theorem refl (parts : List Xml) : Tells True parts parts := ⟨rfl, fun _ => rfl, fun _ => trivial⟩

/-- A condition can be exchanged for an equivalent one. -/
theorem congr (h : Tells condition parts parts') (hiff : condition ↔ other) :
    Tells other parts parts' :=
  ⟨h.length, fun ho => h.same (hiff.mpr ho), fun heq => hiff.mp (h.seen heq)⟩

/-- Drawings one behind the other tell both conditions: with as many tags on both sides, the tags of
one are not taken for those of the other. -/
theorem append (h : Tells condition parts parts') (h' : Tells other others others') :
    Tells (condition ∧ other) (parts ++ others) (parts' ++ others') := by
  refine ⟨?_, fun hboth => ?_, fun heq => ?_⟩
  · rw [Xml.tagsOfAll_append, Xml.tagsOfAll_append, List.length_append, List.length_append,
      h.length, h'.length]
  · rw [h.same hboth.1, h'.same hboth.2]
  · rw [Xml.tagsOfAll_append, Xml.tagsOfAll_append] at heq
    obtain ⟨hparts, hothers⟩ := List.append_inj heq h.length
    exact ⟨h.seen hparts, h'.seen hothers⟩

/-- A part in front of both tells nothing. -/
theorem cons (h : Tells condition parts parts') (part : Xml) :
    Tells condition (part :: parts) (part :: parts') := by
  refine ⟨?_, fun hc => by rw [h.same hc], fun heq => ?_⟩
  · rw [Xml.tagsOfAll, Xml.tagsOfAll, List.length_append, List.length_append, h.length]
  · rw [Xml.tagsOfAll, Xml.tagsOfAll] at heq
    exact h.seen (List.append_cancel_left heq)

/-- Items tell what each of them tells. -/
theorem flatMap {α : Type} {draw draw' : α → List Xml} {condition : α → Prop} {items : List α}
    (h : ∀ item ∈ items, Tells (condition item) (draw item) (draw' item)) :
    Tells (∀ item ∈ items, condition item) (items.flatMap draw) (items.flatMap draw') := by
  induction items with
  | nil => exact (refl []).congr (by simp)
  | cons first rest ih =>
    rw [List.forall_mem_cons] at h
    exact (h.1.append (ih h.2)).congr List.forall_mem_cons.symm

theorem map {α : Type} {draw draw' : α → Xml} {condition : α → Prop} {items : List α}
    (h : ∀ item ∈ items, Tells (condition item) [draw item] [draw' item]) :
    Tells (∀ item ∈ items, condition item) (items.map draw) (items.map draw') := by
  rw [List.map_eq_flatMap, List.map_eq_flatMap]
  exact flatMap h

/-- An element tells what its children tell. -/
theorem element (h : Tells condition parts parts') (name : Text) (attributes : List (Text × Text)) :
    Tells condition [.element name attributes parts] [.element name attributes parts'] := by
  refine ⟨?_, fun hc => by rw [h.same hc], fun heq => ?_⟩
  · simp [Xml.tagsOfAll, Xml.tags, h.length]
  · simp only [Xml.tagsOfAll, Xml.tags, List.append_nil, List.cons.injEq, true_and] at heq
    exact h.seen (List.append_inj_left heq h.length)

/-- A leaf tells one value among its attributes. -/
theorem leaf {value value' : Text} (name key : Text) (before : List (Text × Text))
    (after : Text → List (Text × Text)) :
    Tells (value = value') [.leaf name (before ++ (key, value) :: after value)]
      [.leaf name (before ++ (key, value') :: after value')] :=
  ⟨rfl, fun heq => by rw [heq], fun heq => value_eq_of_startTag (List.cons.inj heq).1⟩

/-- A leaf tells two values that stand side by side. -/
theorem leaf₂ {value value' second second' : Text} (name key key' : Text)
    (before after : List (Text × Text)) :
    Tells (value = value' ∧ second = second')
      [.leaf name (before ++ (key, value) :: (key', second) :: after)]
      [.leaf name (before ++ (key, value') :: (key', second') :: after)] := by
  refine ⟨rfl, fun heq => by rw [heq.1, heq.2], fun heq => ?_⟩
  obtain rfl : value = value' := value_eq_of_startTag (List.cons.inj heq).1
  -- the second value stands behind the same attributes now
  have hsecond := (List.cons.inj heq).1
  rw [List.append_cons before (key, value) ((key', second) :: after),
    List.append_cons before (key, value) ((key', second') :: after)] at hsecond
  exact ⟨rfl, value_eq_of_startTag hsecond⟩

end Tells

end Markup

end TexFigure
