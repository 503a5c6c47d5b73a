import Mathlib.Data.List.Forall2
import TexFigure.Picture.Preview
/-!
# A selected shape stands alone

When an identity is selected, a shape that does not have it keeps its outline and nothing else. The
preview is drawn from what is left of the shapes (`Drawn.ofShape`): the place of everything, the
definition of the shadow and the group of each shape. So a setting of another shape cannot show
anywhere once it is shown to be gone from there.

> `render_of_alikeInFocus`: the settings of shapes that are not selected do not change the preview.
-/

namespace TexFigure.Picture

open Preview

/-- Whether two shapes have the same outline under the same identity, and are the same altogether if
that identity is the selected one. -/
structure AlikeInFocus (selected : Nat) (shape shape' : Shape) : Prop where
  id : shape.id = shape'.id
  form : shape.form = shape'.form
  position : shape.position = shape'.position
  rotation : shape.rotation = shape'.rotation
  whole : shape.id = selected → shape = shape'

/-- What is drawn of a shape depends on its outline when another identity is selected. -/
theorem AlikeInFocus.ofShape_eq {selected : Nat} {shape shape' : Shape}
    (h : AlikeInFocus selected shape shape') (options : Options) :
    Drawn.ofShape (some selected) options shape = Drawn.ofShape (some selected) options shape' := by
  by_cases hid : shape.id = selected
  · rw [h.whole hid]
  · have hbare : Drawn.bare shape = Drawn.bare shape' := by
      rw [Drawn.bare, Drawn.bare, h.id, h.form, h.position, h.rotation]
    have hother : (some selected).any (· != shape.id) = true := by
      simpa using Ne.symm hid
    rw [Drawn.ofShape, Drawn.ofShape, ← h.id, if_pos hother, if_pos hother, hbare]

/-- The same is drawn of two lists whose shapes are alike in order. -/
theorem map_ofShape_eq {selected : Nat} {shapes shapes' : List Shape}
    (h : List.Forall₂ (AlikeInFocus selected) shapes shapes') (options : Options) :
    shapes.map (Drawn.ofShape (some selected) options) =
      shapes'.map (Drawn.ofShape (some selected) options) := by
  induction h with
  | nil => rfl
  | cons hshape _ ih => rw [List.map_cons, List.map_cons, hshape.ofShape_eq, ih]

/-- With an identity selected, the preview of two lists of shapes is the same when the shapes have
the same identities and outlines in order, and those of the selected identity are the same
altogether: fill, stroke, line, opacity, shadow and label of any other shape show nowhere. -/
theorem render_of_alikeInFocus {selected : Nat} {shapes shapes' : List Shape}
    (h : List.Forall₂ (AlikeInFocus selected) shapes shapes') (viewport : Viewport)
    (options : Options) :
    render shapes viewport (some selected) options =
      render shapes' viewport (some selected) options := by
  have hdrawn := map_ofShape_eq h options
  rw [render, render, draw, draw]
  simp only [hdrawn]

/-- Two shapes of the selected identity, one of them with a shadow, and between them another one
that loses every setting. -/
theorem render_of_alikeInFocus_unpainted :
    let first : Shape := { id := 1, form := .square 2.0, fill := some "red", shadow := true }
    let plain : Shape := { id := 0, form := .circle 1.0, rotation := some 30.0 }
    let painted : Shape :=
      { plain with
        fill := some "green", stroke := some "blue!50", lineWidth := some 3.0,
        lineStyle := some .dashed, opacity := some 0.5, shadow := true, label := some "$a<b$" }
    let last : Shape := { id := 1, form := .customPolygon [], label := some "c" }
    List.Forall₂ (AlikeInFocus 1) [first, painted, last] [first, plain, last] ∧
      render [first, painted, last] .default (some 1) {} =
        render [first, plain, last] .default (some 1) {} := by
  intro first plain painted last
  have hfirst : AlikeInFocus 1 first first := ⟨rfl, rfl, rfl, rfl, fun _ => rfl⟩
  have hpainted : AlikeInFocus 1 painted plain :=
    ⟨rfl, rfl, rfl, rfl, fun h => absurd h Nat.zero_ne_one⟩
  have hlast : AlikeInFocus 1 last last := ⟨rfl, rfl, rfl, rfl, fun _ => rfl⟩
  have halike : List.Forall₂ (AlikeInFocus 1) [first, painted, last] [first, plain, last] :=
    .cons hfirst (.cons hpainted (.cons hlast .nil))
  exact ⟨halike, render_of_alikeInFocus halike .default {}⟩

end TexFigure.Picture
