import Mathlib.Tactic.Linarith
import TexFigure.Picture.Fit
import TexFigure.Proofs.ExactScalars
/-!
# A picture fits its drawing

In exact numbers the drawing of a picture shows all of it: every point of the extent of every shape
comes to lie in the drawing (`place_ofBoxes`). The extents are those of arbitrary outlines under
arbitrary turns, whose cosine and sine need not even belong to an angle.

In each direction a point stands at the offset of the picture plus its distance from the corner, in
pixels. The distance is at most what the box counts as, and the scale is small enough for that to
fit, so nothing depends on whether the box is degenerate (`within_drawing`); only the margins do,
which are the same on opposite sides where the box counts as what it is (`IsCentred`).
-/

namespace TexFigure

/-! ## Boxes that hold boxes -/

namespace Box

/-- A box holds a point, its sides included. -/
structure Holds (box : Box ℚ) (point : Point ℚ) : Prop where
  left : box.low.x ≤ point.x
  right : point.x ≤ box.high.x
  bottom : box.low.y ≤ point.y
  top : point.y ≤ box.high.y

theorem Holds.union_left {box : Box ℚ} {point : Point ℚ} (h : box.Holds point) (other : Box ℚ) :
    (box.union other).Holds point where
  left := (min_le_left _ _).trans h.left
  right := h.right.trans (le_max_left _ _)
  bottom := (min_le_left _ _).trans h.bottom
  top := h.top.trans (le_max_left _ _)

theorem Holds.union_right {box : Box ℚ} {point : Point ℚ} (h : box.Holds point) (other : Box ℚ) :
    (other.union box).Holds point where
  left := (min_le_right _ _).trans h.left
  right := h.right.trans (le_max_right _ _)
  bottom := (min_le_right _ _).trans h.bottom
  top := h.top.trans (le_max_right _ _)

/-- What the first box holds stays in the union with any more boxes. -/
theorem Holds.foldl_union {first : Box ℚ} {point : Point ℚ} (h : first.Holds point)
    (rest : List (Box ℚ)) : (rest.foldl Box.union first).Holds point := by
  induction rest generalizing first with
  | nil => exact h
  | cons next rest ih => exact ih (h.union_left next)

/-- The hull of boxes holds what one of them holds. -/
theorem Holds.hull {box : Box ℚ} {point : Point ℚ} {boxes : List (Box ℚ)} (h : box.Holds point)
    (hbox : box ∈ boxes) : ∃ hull, Box.hull? boxes = some hull ∧ hull.Holds point := by
  cases boxes with
  | nil => cases hbox
  | cons first rest =>
    refine ⟨_, rfl, ?_⟩
    induction rest generalizing first with
    | nil => rwa [List.mem_singleton.mp hbox] at h
    | cons next rest ih =>
      rw [List.foldl_cons]
      rcases List.mem_cons.mp hbox with rfl | hbox
      · exact (h.union_left next).foldl_union rest
      · rcases List.mem_cons.mp hbox with rfl | hbox
        · exact (h.union_right first).foldl_union rest
        · exact ih _ (List.mem_cons_of_mem _ hbox)

theorem exists_hull {box : Box ℚ} {boxes : List (Box ℚ)} (hbox : box ∈ boxes) :
    ∃ hull, Box.hull? boxes = some hull := by
  cases boxes with
  | nil => cases hbox
  | cons first rest => exact ⟨_, rfl⟩

end Box

/-! ## Turned outlines -/

/-- An outline with the turn that it stands in. -/
structure Turned (α : Type) where
  outline : Outline α
  pivot : Point α
  turn : Turn α

/-- The smallest box that holds a turned outline, if it has vertices. -/
def Turned.extent? {α : Type} [Scalar α] (turned : Turned α) : Option (Box α) :=
  turned.outline.extent? turned.pivot turned.turn

/-- The extent of a shape is that of its outline, turned about its centre. -/
theorem extent?_eq_turned (shape : Shape) :
    shape.extent? = (Turned.mk shape.outline shape.centre shape.turn).extent? := rfl

namespace Picture.Fit

/-! ## One direction -/

/-- The least size that a side of a box counts as. -/
def leastSide : ℚ := 1 / 1000000000

/-- What is drawn of a length within the counted one stays between the ends of the drawing. -/
theorem within_drawing {total counted scale distance : ℚ} (hscale : 0 ≤ scale)
    (hfit : counted * scale ≤ total) (hdistance : 0 ≤ distance) (hcounted : distance ≤ counted) :
    0 ≤ (total - counted * scale) / 2 + distance * scale ∧
      (total - counted * scale) / 2 + distance * scale ≤ total := by
  have hlow : 0 ≤ distance * scale := mul_nonneg hdistance hscale
  have hhigh : distance * scale ≤ counted * scale := mul_le_mul_of_nonneg_right hcounted hscale
  constructor
  · linarith
  · linarith

/-- The fit of a box, with the operations of rational numbers. -/
theorem ofBox_eq (box : Box ℚ) (width height : ℚ) :
    ofBox box width height =
      let boxWidth := max (box.high.x - box.low.x) leastSide
      let boxHeight := max (box.high.y - box.low.y) leastSide
      let scale := min (width / boxWidth) (height / boxHeight)
      { scale
        origin := ⟨(width - boxWidth * scale) / 2, (height - boxHeight * scale) / 2⟩
        corner := ⟨box.low.x, box.high.y⟩ } := by
  have hside : (1e-9 : ℚ) = leastSide := by norm_num [leastSide]
  have htwo : (2.0 : ℚ) = 2 := by norm_num
  unfold ofBox
  simp only [← hside, ← htwo]
  rfl

theorem place_eq (fit : Fit ℚ) (point : Point ℚ) :
    fit.place point = ⟨fit.origin.x + (point.x - fit.corner.x) * fit.scale,
      fit.origin.y + (fit.corner.y - point.y) * fit.scale⟩ := rfl

/-- Distances are drawn at one scale, with upwards turned downwards. -/
theorem place_sub (fit : Fit ℚ) (p q : Point ℚ) :
    (fit.place q).x - (fit.place p).x = fit.scale * (q.x - p.x) ∧
      (fit.place q).y - (fit.place p).y = -(fit.scale * (q.y - p.y)) := by
  simp only [place_eq]
  constructor
  · ring
  · ring

/-- What is higher up is drawn higher up. -/
theorem place_lt {fit : Fit ℚ} {p q : Point ℚ} (hscale : 0 < fit.scale) (hpq : p.y < q.y) :
    (fit.place q).y < (fit.place p).y := by
  have hdrop : 0 < fit.scale * (q.y - p.y) := mul_pos hscale (sub_pos.mpr hpq)
  linarith [(place_sub fit p q).2]

theorem leastSide_pos : 0 < leastSide := by norm_num [leastSide]

section
variable {box : Box ℚ} {width height : ℚ}

/-- The scale is positive, and in both directions the counted side fits into the drawing. -/
theorem scale_spec (box : Box ℚ) (hwidth : 1 ≤ width) (hheight : 1 ≤ height) :
    0 < (ofBox box width height).scale ∧
      max (box.high.x - box.low.x) leastSide * (ofBox box width height).scale ≤ width ∧
      max (box.high.y - box.low.y) leastSide * (ofBox box width height).scale ≤ height := by
  rw [ofBox_eq]
  have hx : 0 < max (box.high.x - box.low.x) leastSide := lt_max_of_lt_right leastSide_pos
  have hy : 0 < max (box.high.y - box.low.y) leastSide := lt_max_of_lt_right leastSide_pos
  refine ⟨lt_min (div_pos (by linarith) hx) (div_pos (by linarith) hy), ?_, ?_⟩
  · rw [mul_comm, ← le_div_iff₀ hx]
    exact min_le_left _ _
  · rw [mul_comm, ← le_div_iff₀ hy]
    exact min_le_right _ _

/-- Every point of a box is placed in the drawing. -/
theorem place_ofBox (hwidth : 1 ≤ width) (hheight : 1 ≤ height) {point : Point ℚ}
    (h : box.Holds point) :
    (Box.mk ⟨0, 0⟩ ⟨width, height⟩).Holds ((ofBox box width height).place point) := by
  obtain ⟨hscale, hx, hy⟩ := scale_spec box hwidth hheight
  have hright : point.x - box.low.x ≤ max (box.high.x - box.low.x) leastSide :=
    le_max_of_le_left (by linarith [h.right])
  have hdown : box.high.y - point.y ≤ max (box.high.y - box.low.y) leastSide :=
    le_max_of_le_left (by linarith [h.bottom])
  rw [ofBox_eq] at hscale hx hy ⊢
  obtain ⟨hleft, hright⟩ := within_drawing hscale.le hx (sub_nonneg.mpr h.left) hright
  obtain ⟨htop, hbottom⟩ := within_drawing hscale.le hy (sub_nonneg.mpr h.top) hdown
  exact ⟨hleft, hright, htop, hbottom⟩

/-- A box is in the middle of a drawing when its margins on opposite sides are the same. -/
structure IsCentred (fit : Fit ℚ) (box : Box ℚ) (width height : ℚ) : Prop where
  sides : (fit.place box.low).x = width - (fit.place box.high).x
  ends : (fit.place box.high).y = height - (fit.place box.low).y

/-- A box that is not thinner than the least side stands in the middle. -/
theorem isCentred_ofBox (hx : leastSide ≤ box.high.x - box.low.x)
    (hy : leastSide ≤ box.high.y - box.low.y) :
    IsCentred (ofBox box width height) box width height := by
  rw [ofBox_eq, max_eq_left hx, max_eq_left hy]
  constructor
  · simp only [place_eq]
    ring
  · simp only [place_eq]
    ring

end

/-! ## Pictures -/

section
variable {padding : ℚ} {boxes : List (Box ℚ)}

/-- The hull of boxes is the extent of a picture; that of no boxes is the unit box. -/
theorem extent_eq (boxes : List (Box ℚ)) : extent boxes = (Box.hull? boxes).getD unitBox := by
  unfold extent
  cases Box.hull? boxes with
  | none => rfl
  | some box => rfl

theorem holds_pad {box : Box ℚ} {point : Point ℚ} (hpadding : 0 ≤ padding) (h : box.Holds point) :
    (Fit.pad padding box).Holds point where
  left := (sub_le_self _ hpadding).trans h.left
  right := h.right.trans (le_add_of_nonneg_right hpadding)
  bottom := (sub_le_self _ hpadding).trans h.bottom
  top := h.top.trans (le_add_of_nonneg_right hpadding)

/-- What one of the boxes holds, the padded extent holds. -/
theorem holds_extent {box : Box ℚ} {point : Point ℚ} (hpadding : 0 ≤ padding) (hbox : box ∈ boxes)
    (h : box.Holds point) : (Fit.pad padding (extent boxes)).Holds point := by
  obtain ⟨hull, heq, hhull⟩ := h.hull hbox
  rw [extent_eq, heq, Option.getD_some]
  exact holds_pad hpadding hhull

/-- A picture is fitted as the padded hull of its boxes. -/
theorem ofBoxes_eq {hull : Box ℚ} (h : Box.hull? boxes = some hull) (width height : ℚ) :
    ofBoxes boxes width height padding = ofBox (Fit.pad padding hull) width height := by
  show ofBox (Fit.pad padding (extent boxes)) width height = _
  rw [extent_eq, h, Option.getD_some]

end

/-- The picture of shapes with an extent lies in its drawing, at one scale in both directions and
with upwards turned downwards, and in its middle unless the padded extent is too thin. -/
theorem place_ofBoxes (shapes : List (Turned ℚ)) {width height padding : ℚ}
    (hextent : ∃ shape ∈ shapes, (Turned.extent? shape).isSome) (hwidth : 1 ≤ width)
    (hheight : 1 ≤ height) (hpadding : 0 ≤ padding) :
    let boxes := shapes.filterMap Turned.extent?
    let fit := ofBoxes boxes width height padding
    (∀ box ∈ boxes, ∀ point, box.Holds point →
      (Box.mk ⟨0, 0⟩ ⟨width, height⟩).Holds (fit.place point)) ∧
    0 < fit.scale ∧
    (∀ p q, (fit.place q).x - (fit.place p).x = fit.scale * (q.x - p.x) ∧
      (fit.place q).y - (fit.place p).y = -(fit.scale * (q.y - p.y))) ∧
    (∀ p q, p.y < q.y → (fit.place q).y < (fit.place p).y) ∧
    ∃ hull, Box.hull? boxes = some hull ∧
      let padded : Box ℚ := ⟨⟨hull.low.x - padding, hull.low.y - padding⟩,
        ⟨hull.high.x + padding, hull.high.y + padding⟩⟩
      1 / 1000000000 ≤ padded.high.x - padded.low.x →
      1 / 1000000000 ≤ padded.high.y - padded.low.y →
        IsCentred fit padded width height := by
  intro boxes fit
  obtain ⟨hscale, -, -⟩ := scale_spec (Fit.pad padding (extent boxes)) hwidth hheight
  refine ⟨?_, hscale, place_sub fit, fun p q hpq => place_lt hscale hpq, ?_⟩
  · intro box hbox point hpoint
    exact place_ofBox hwidth hheight (holds_extent hpadding hbox hpoint)
  · obtain ⟨shape, hshape, hsome⟩ := hextent
    obtain ⟨box, hbox⟩ := Option.isSome_iff_exists.mp hsome
    obtain ⟨hull, hhull⟩ := Box.exists_hull (List.mem_filterMap.mpr ⟨shape, hshape, hbox⟩)
    refine ⟨hull, hhull, ?_⟩
    intro padded hx hy
    have hfit : fit = ofBox padded width height := ofBoxes_eq hhull width height
    rw [hfit]
    exact isCentred_ofBox hx hy

/-- A polygon without vertices and a rectangle of negative height that is turned. -/
theorem place_ofBoxes_turned :
    let shapes : List (Turned ℚ) :=
      [⟨.polygon [], ⟨0, 0⟩, ⟨1, 0⟩⟩, ⟨.rectangle ⟨0, 0⟩ 2 (-1), ⟨1, -1 / 2⟩, ⟨3 / 5, 4 / 5⟩⟩]
    (∃ shape ∈ shapes, (Turned.extent? shape).isSome) ∧ (1 : ℚ) ≤ 200 ∧ (1 : ℚ) ≤ 100 ∧
      (0 : ℚ) ≤ 1 / 2 ∧
      (Box.mk ⟨0, 0⟩ ⟨200, 100⟩).Holds
        ((ofBoxes (shapes.filterMap Turned.extent?) 200 100 (1 / 2)).place ⟨1, 3 / 5⟩) := by
  intro shapes
  have hextent : ∃ shape ∈ shapes, (Turned.extent? shape).isSome :=
    ⟨_, List.mem_cons_of_mem _ List.mem_cons_self, rfl⟩
  have hbox : (Box.mk ⟨0, -8 / 5⟩ ⟨2, 3 / 5⟩ : Box ℚ) ∈ shapes.filterMap Turned.extent? := by
    decide +kernel
  refine ⟨hextent, by norm_num, by norm_num, by norm_num, ?_⟩
  refine (place_ofBoxes shapes hextent (by norm_num) (by norm_num) (by norm_num)).1 _ hbox _ ?_
  constructor <;> norm_num

end Picture.Fit

end TexFigure
