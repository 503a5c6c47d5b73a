import Mathlib.Data.List.Forall2
import TexFigure.Proofs.Drawing
import TexFigure.Proofs.Numerals
import TexFigure.Proofs.Tags
/-!
# Pictures and previews show the same shapes

A picture and a preview are written independently of each other, from the outline of a shape and its
settings. Both leave out the polygons without vertices (`isShown`) and show the others in their
order: as a block of commands in the picture, and as a group in the preview. A label stands in both
or in none.

> `write_render_agree`: the blocks of a picture and the groups that are found in the text of a
> preview belong to the same shapes, one by one.
-/

namespace TexFigure

namespace Picture

open Preview Markup

/-- Whether a shape is shown: it is not a polygon without vertices. -/
def isShown (shape : Shape) : Bool :=
  match shape.form with
  | .customPolygon vertices => !vertices.isEmpty
  | _ => true

/-- The block of a shape in the text of a picture. -/
def code (shape : Shape) : Text := (commands shape).flatMap Command.write

/-- A regular polygon has three vertices at least, whatever number of sides it is given. -/
theorem regularVertices_ne_nil (centre : Point Float) (sides : Nat) (radius : Float) :
    Shape.regularVertices centre sides radius ≠ [] := by
  intro h
  have hlength := congrArg List.length h
  rw [Shape.regularVertices, List.length_map, List.length_range, List.length_nil] at hlength
  omega

/-- The shapes that are not shown are those whose outline is empty. -/
theorem isEmpty_outline (shape : Shape) : shape.outline.isEmpty = !isShown shape := by
  unfold Shape.outline isShown
  cases shape.form with
  | circle | rectangle | square | triangle => rfl
  | regularPolygon sides radius =>
    exact List.isEmpty_eq_false_iff.mpr (regularVertices_ne_nil _ sides radius)
  | customPolygon vertices => simp [Shape.Form.outline, Outline.isEmpty]

/-! ## Blocks of a picture -/

theorem write_ne_nil (command : Command) : command.write ≠ [] := by
  cases command with
  | draw options path =>
    rw [Command.write_draw]
    exact List.append_ne_nil_of_right_ne_nil _ (by decide)
  | node options place content =>
    rw [Command.write_node]
    exact List.append_ne_nil_of_right_ne_nil _ (by decide)

/-- How a node ends that holds a label. -/
def labelEnd (label : Text) : Text := " " ++ Text.braced label ++ ";\n"

/-- A node ends in its label, behind any options and any place. -/
theorem labelEnd_suffix_node (options : List Text) (place : Point Float) (label : Text) :
    labelEnd label <:+ (Command.node options place label).write :=
  ⟨"\\node" ++ Command.writeOptions options ++ " at " ++ coordinate place, by
    rw [Command.write_node, labelEnd]
    simp only [List.append_assoc]⟩

theorem path?_eq_none (outline : Outline Float) : path? outline = none ↔ outline.isEmpty := by
  cases outline with
  | circle | rectangle => exact ⟨nofun, nofun⟩
  | polygon vertices => cases vertices <;> simp [path?, Outline.isEmpty]

/-- What a shape becomes: a regular polygon a node, another one that is shown a path and then a node
for its label, and one that is not shown nothing. -/
theorem commands_cases (shape : Shape) :
    (isShown shape = false ∧ commands shape = []) ∨
      (isShown shape = true ∧ ∃ options place,
        commands shape = [.node options place (shape.label.getD [])]) ∨
      (isShown shape = true ∧ ∃ options path, commands shape =
        .draw options path :: (shape.label?.map (Command.node [] shape.centre)).toList) := by
  unfold commands
  split
  next hform => exact Or.inr (Or.inl ⟨by rw [isShown, hform], _, _, rfl⟩)
  next =>
    have hempty := path?_eq_none shape.outline
    rw [isEmpty_outline, Bool.not_eq_true'] at hempty
    split
    next hpath => exact Or.inl ⟨hempty.mp hpath, rfl⟩
    next path hpath =>
      refine Or.inr (Or.inr ⟨?_, _, _, rfl⟩)
      rw [← Bool.not_eq_false]
      intro hshown
      rw [hempty.mpr hshown] at hpath
      cases hpath

/-- The block of a shape is empty exactly when the shape is not shown. -/
theorem code_ne_nil_iff (shape : Shape) : code shape ≠ [] ↔ isShown shape = true := by
  rw [code]
  rcases commands_cases shape with ⟨hshown, h⟩ | ⟨hshown, _, _, h⟩ | ⟨hshown, _, _, h⟩
  · simp [hshown, h]
  · simp [hshown, h, write_ne_nil]
  · simp [hshown, h, write_ne_nil]

/-- A shape that is shown has its label at the end of its block. -/
theorem labelEnd_suffix_code {shape : Shape} {label : Text} (hshown : isShown shape)
    (hlabel : shape.label? = some label) : labelEnd label <:+ code shape := by
  have hgiven : shape.label.getD [] = label := by
    rw [(Option.filter_eq_some_iff.mp hlabel).1, Option.getD_some]
  rw [code]
  rcases commands_cases shape with ⟨hhidden, -⟩ | ⟨-, options, place, h⟩ | ⟨-, options, path, h⟩
  · rw [hhidden] at hshown
    cases hshown
  · rw [h, hgiven, List.flatMap_singleton]
    exact labelEnd_suffix_node options place label
  · rw [h, hlabel, List.flatMap_cons]
    exact (labelEnd_suffix_node [] shape.centre label).trans (by simp)

/-- Shapes that are not shown have no commands, so the text of a picture is that of the others. -/
theorem flatMap_filter_isShown (shapes : List Shape) :
    (shapes.filter isShown).flatMap code = (shapes.flatMap commands).flatMap Command.write := by
  induction shapes with
  | nil => rfl
  | cons shape shapes ih =>
    rw [List.flatMap_cons, List.flatMap_append, ← ih, List.filter_cons]
    split
    next => rfl
    next hhidden =>
      have hnil := mt (code_ne_nil_iff shape).mp hhidden
      rw [ne_eq, Decidable.not_not, code] at hnil
      rw [hnil, List.nil_append]

/-! ## Groups of a preview -/

/-- The group of a shape as it is drawn. -/
def group (drawn : Drawn) : Group := ⟨Shape.name drawn.shape.id, drawn.shape.label?.isSome⟩

/-- The name of a shape holds none of the characters that are escaped. -/
theorem mem_name (id : Nat) {c : Char} (h : c ∈ Shape.name id) :
    c ∉ ['&', '<', '>', '"', '\''] := by
  intro hmem
  rcases List.mem_append.mp h with h | h
  · have hnone : ("shape-".toList.all fun c =>
        !(['&', '<', '>', '"', '\''].contains c)) = true := by decide
    have hplain := List.all_eq_true.mp hnone c h
    rw [List.contains_iff_mem.mpr hmem] at hplain
    cases hplain
  · have hnone : (['&', '<', '>', '"', '\''].all (!·.isDigit)) = true := by decide
    have hplain := List.all_eq_true.mp hnone c hmem
    rw [Decimal.isDigit_of_mem_digits h] at hplain
    cases hplain

/-- An outline is one tag, which is neither of a group nor of a text. -/
theorem tags_drawOutline (view : View) (attributes : Preview.Attributes)
    (outline : Outline Float) : ∃ tag, (drawOutline view attributes outline).tags = [tag] ∧
      tag.head? ≠ some 'g' ∧ tag ≠ "/g".toList ∧ "text ".toList.isPrefixOf tag = false := by
  cases outline with
  | circle | rectangle | polygon => exact ⟨_, rfl, nofun, nofun, rfl⟩

/-- A label is the start tag and the end tag of a text element. -/
theorem tagsOfAll_drawLabel (view : View) (options : Options) (shape : Shape) :
    (shape.label? = none ∧ Xml.tagsOfAll (drawLabel view options shape) = []) ∨
      ∃ rest, shape.label?.isSome ∧
        Xml.tagsOfAll (drawLabel view options shape) =
          ["text ".toList ++ rest, "/text".toList] := by
  unfold drawLabel
  cases shape.label? with
  | none => exact Or.inl ⟨rfl, rfl⟩
  | some content => exact Or.inr ⟨_, rfl, rfl⟩

/-- Inside the group of a shape there is no other group, and a text element when the shape has a
label. -/
theorem inside_group (view : View) (options : Options) (drawn : Drawn) :
    let inside := Xml.tagsOfAll (drawOutline view (look view drawn) drawn.shape.outline ::
      drawLabel view options drawn.shape)
    (∀ tag ∈ inside, tag.head? ≠ some 'g') ∧ "/g".toList ∉ inside ∧
      inside.any ("text ".toList.isPrefixOf ·) = drawn.shape.label?.isSome := by
  obtain ⟨tag, houtline, hgroup, hend, htext⟩ :=
    tags_drawOutline view (look view drawn) drawn.shape.outline
  dsimp only
  rw [Xml.tagsOfAll, houtline]
  rcases tagsOfAll_drawLabel view options drawn.shape with ⟨hlabel, htags⟩ | ⟨rest, hlabel, htags⟩
  · rw [htags, hlabel]
    exact ⟨by simp [hgroup], by simpa using Ne.symm hend, by simpa using htext⟩
  · rw [htags, hlabel]
    exact ⟨by simp [hgroup], by simpa using Ne.symm hend, by simp⟩

/-- The groups that are found in a drawing of shapes are those of the shapes that are shown. -/
theorem groups_drawShapes (view : View) (options : Options) (drawn : List Drawn)
    (rest : List Text) :
    groups (Xml.tagsOfAll (drawn.flatMap (drawShape view options)) ++ rest) =
      (drawn.filter (isShown ·.shape)).map group ++ groups rest := by
  induction drawn with
  | nil => rfl
  | cons first drawn ih =>
    rw [List.flatMap_cons, Xml.tagsOfAll_append, List.append_assoc, List.filter_cons, drawShape,
      isEmpty_outline]
    cases isShown first.shape with
    | false => exact ih
    | true =>
      obtain ⟨hstart, hend, htext⟩ := inside_group view options first
      have hgroup := groups_group (fun c => mem_name first.shape.id) hstart hend
        (Xml.tagsOfAll (drawn.flatMap (drawShape view options)) ++ rest)
      rw [htext, ih] at hgroup
      show groups (Xml.tags _ ++ [] ++ _) = _
      rw [List.append_nil]
      exact hgroup

/-- Above the groups there is the drawing, with its background and the shadow that shapes refer to,
and no group among them. -/
theorem groups_render (shapes : List Shape) (viewport : Viewport) (selected : Option Nat)
    (options : Options) :
    groups (tags (render shapes viewport selected options)) =
      ((shapes.map (Drawn.ofShape selected options)).filter (isShown ·.shape)).map group := by
  have hwrite := (isNamed_draw shapes viewport selected options).tags_write []
  rw [List.append_nil, show tags [] = [] from rfl, List.append_nil] at hwrite
  have hshadow (drawn : List Drawn) : ∀ tag ∈ Xml.tagsOfAll
      (if drawn.any (·.shape.shadow) then [shadowFilter] else []), tag.head? ≠ some 'g' := by
    split
    next => decide
    next => exact List.forall_mem_nil _
  rw [render, hwrite, draw, svg, Xml.tags, Xml.tagsOfAll_append, Xml.tagsOfAll_append]
  show groups (_ :: ([_] ++ (_ ++ _) ++ ["/svg".toList])) = _
  rw [groups_cons, List.append_assoc, List.append_assoc, groups_append,
    groups_append (hshadow _), groups_drawShapes]
  · exact List.append_nil _
  · intro tag htag
    rw [List.mem_singleton.mp htag]
    show some 'r' ≠ some 'g'
    decide
  · show some 's' ≠ some 'g'
    decide

/-- Whether the block of a shape in a picture and a group of a preview belong together: the group
has the name of the shape, and it holds a text exactly when the shape has a label, not empty, that
stands at the end of the block. -/
structure Agrees (shape : Shape) (group : Group) : Prop where
  id : group.id = Shape.name shape.id
  label : group.hasText = true ↔
    ∃ label, label ≠ [] ∧ shape.label = some label ∧ labelEnd label <:+ code shape

theorem agrees_group {shape : Shape} (hshown : isShown shape) (options : Options) :
    Agrees shape (group (Drawn.ofShape none options shape)) := by
  refine ⟨rfl, ?_⟩
  show shape.label?.isSome = true ↔ _
  constructor
  · intro hlabel
    obtain ⟨label, hlabel⟩ := Option.isSome_iff_exists.mp hlabel
    obtain ⟨hgiven, hne⟩ := Option.filter_eq_some_iff.mp hlabel
    exact ⟨label, by simpa using hne, hgiven, labelEnd_suffix_code hshown hlabel⟩
  · rintro ⟨label, hne, hgiven, -⟩
    rw [Shape.label?, hgiven]
    simp [Option.filter, hne]

/-- A picture and a preview show the same shapes in the same order. The picture has a block, not
empty, for each shape that is shown and nothing for the others. The preview of any size, under any
options and with any shape selected or none, has a group for each of the same shapes; and when none
is selected, the labels agree too. -/
theorem write_render_agree (shapes : List Shape) (viewport : Viewport) (selected : Option Nat)
    (options : Options) :
    write shapes = "\\begin\x7btikzpicture\x7d\n" ++ (shapes.filter isShown).flatMap code
      ++ "\\end\x7btikzpicture\x7d" ∧
    (∀ shape, code shape ≠ [] ↔ isShown shape = true) ∧
    (groups (tags (render shapes viewport selected options))).map (·.id) =
      (shapes.filter isShown).map (Shape.name ·.id) ∧
    List.Forall₂ Agrees (shapes.filter isShown)
      (groups (tags (render shapes viewport none options))) := by
  have hshown (selected : Option Nat) (shape : Shape) :
      isShown (Drawn.ofShape selected options shape).shape = isShown shape := by
    unfold Drawn.ofShape
    split <;> rfl
  have hgroups (selected : Option Nat) :
      groups (tags (render shapes viewport selected options)) =
        (shapes.filter isShown).map (group <| Drawn.ofShape selected options ·) := by
    rw [groups_render, List.filter_map, List.map_map]
    exact congrArg (List.map _) (List.filter_congr fun shape _ => hshown selected shape)
  refine ⟨?_, code_ne_nil_iff, ?_, ?_⟩
  · rw [flatMap_filter_isShown]
    rfl
  · rw [hgroups, List.map_map]
    refine List.map_congr_left fun shape _ => ?_
    show Shape.name (Drawn.ofShape selected options shape).shape.id = _
    unfold Drawn.ofShape
    split <;> rfl
  · rw [hgroups, List.forall₂_map_right_iff, List.forall₂_same]
    intro shape hmem
    exact agrees_group (List.mem_filter.mp hmem).2 options

end Picture

end TexFigure
