import TexFigure.Chart.Document
import TexFigure.Formula.Document
import TexFigure.Preview.Options
import TexFigure.Proofs.Abridging
import TexFigure.Shape.Document
/-!
# Documents are read back

Formulas, charts, figures, lists of shapes and options are read back from what they are written as,
and from whatever is left of it when fields that hold their default are left out, at any depth. Each
kind of document comes with the table of its defaults; no name stands for fields with different
defaults within one kind.

The only condition is that counts fit their fields (`IsSized`): they have 32 bits, and 64 in the
size of a matrix.

> `roundTrips_documents`: all kinds of documents together.
-/

namespace TexFigure

open Json

/-! ## Formulas -/

namespace Formula

/-- The fields of a formula that have a default. -/
def defaults : Record := [("delimiter", str Delimiter.paren.name)]

/-- Whether the size of a matrix fits its fields. -/
def IsSized : Formula → Prop
  | matrix rows cols _ _ => rows < Nat.pow 2 64 ∧ cols < Nat.pow 2 64
  | _ => True

/-- Names tell the operators apart, so each is read back from its name. -/
theorem ofName?_operator (operator : Operator) :
    Operator.ofName? operator.name = some operator := by
  cases operator <;> rfl

theorem ofName?_delimiter (delimiter : Delimiter) :
    Delimiter.ofName? delimiter.name = some delimiter := by
  cases delimiter <;> rfl

/-- A formula is read from whatever is left of its written form. Only a matrix has a field with a
default, and only a matrix has counts. -/
theorem reads (formula : Formula) (h : formula.IsSized) :
    Reads defaults decode? formula.encode formula := by
  have text (value : Text) : Reads defaults text? (str value) value := reads_text value
  cases formula with
  | fraction numerator denominator =>
    refine reads_variant rfl rfl (by decide) rfl rfl fun fields h => ?_
    rw [h.required "numerator" rfl rfl (text numerator),
      h.required "denominator" rfl rfl (text denominator)]
    rfl
  | root index radicand =>
    refine reads_variant rfl rfl (by decide) rfl rfl fun fields h => ?_
    rw [h.required "index" rfl rfl (text index), h.required "radicand" rfl rfl (text radicand)]
    rfl
  | superscript base exponent =>
    refine reads_variant rfl rfl (by decide) rfl rfl fun fields h => ?_
    rw [h.required "base" rfl rfl (text base), h.required "exponent" rfl rfl (text exponent)]
    rfl
  | subscript base script =>
    refine reads_variant rfl rfl (by decide) rfl rfl fun fields h => ?_
    rw [h.required "base" rfl rfl (text base), h.required "subscript" rfl rfl (text script)]
    rfl
  | integral lower upper integrand var =>
    refine reads_variant rfl rfl (by decide) rfl rfl fun fields h => ?_
    rw [h.required "lower" rfl rfl (text lower), h.required "upper" rfl rfl (text upper),
      h.required "integrand" rfl rfl (text integrand), h.required "variable" rfl rfl (text var)]
    rfl
  | doubleIntegral domain integrand area =>
    refine reads_variant rfl rfl (by decide) rfl rfl fun fields h => ?_
    rw [h.required "domain" rfl rfl (text domain),
      h.required "integrand" rfl rfl (text integrand), h.required "area" rfl rfl (text area)]
    rfl
  | bigOperator operator var lower upper expression =>
    refine reads_variant rfl rfl (by decide) rfl rfl fun fields h => ?_
    rw [h.required "kind" rfl rfl (reads_choiceInVariant (ofName?_operator operator)),
      h.required "variable" rfl rfl (text var), h.required "lower" rfl rfl (text lower),
      h.required "upper" rfl rfl (text upper),
      h.required "expression" rfl rfl (text expression)]
    rfl
  | limit var approaches expression =>
    refine reads_variant rfl rfl (by decide) rfl rfl fun fields h => ?_
    rw [h.required "variable" rfl rfl (text var),
      h.required "approaches" rfl rfl (text approaches),
      h.required "expression" rfl rfl (text expression)]
    rfl
  | derivative func var isPartial =>
    refine reads_variant rfl rfl (by decide) rfl rfl fun fields h => ?_
    rw [h.required "func" rfl rfl (text func), h.required "variable" rfl rfl (text var),
      h.required "is_partial" rfl rfl (reads_flag isPartial)]
    rfl
  | matrix rows cols cells delimiter =>
    have hcells : Reads defaults (list? (list? text?))
        (arr (cells.map fun row => arr (row.map str))) cells :=
      reads_list _ fun row _ => reads_list _ fun cell _ => text cell
    have hvalid : areValid (cells.map fun row => arr (row.map str)) = true :=
      areValid_map fun row _ => areValid_map fun _ _ => rfl
    refine reads_variant rfl rfl (by decide) ?_ rfl fun fields h' => ?_
    · show (areValid _ && true) = true
      rw [hvalid]
      rfl
    · rw [h'.required "rows" rfl rfl (reads_count64 h.1),
        h'.required "cols" rfl rfl (reads_count64 h.2), h'.required "cells" rfl rfl hcells,
        h'.optional "delimiter" rfl rfl (reads_choiceInVariant (ofName?_delimiter .paren))
          (reads_choiceInVariant (ofName?_delimiter delimiter))]
      rfl
  | generic raw =>
    refine reads_variant rfl rfl (by decide) rfl rfl fun fields h => ?_
    rw [h.required "raw" rfl rfl (text raw)]
    rfl

end Formula

/-! ## Charts -/

/-- Each line style is read back from its keyword. -/
theorem LineStyle.ofKeyword?_keyword (style : LineStyle) :
    ofKeyword? style.keyword = some style := by
  cases style <;> rfl

namespace Chart

/-- The fields of a chart, of its axis and of its series that have a default. -/
def defaults : Record := [("axis", Axis.encode {}), ("plots", arr []), ("next_id", count 0),
  ("style", Style.encode {}), ("line_style", str LineStyle.solid.keyword), ("title", str []),
  ("xlabel", str []), ("ylabel", str []), ("zlabel", str []), ("xmin", str []), ("xmax", str []),
  ("ymin", str []), ("ymax", str []), ("grid", str []), ("legend_pos", str []), ("width", str []),
  ("height", str []), ("color", str []), ("line_width", str []), ("marker", str []),
  ("legend", str [])]

/-- Whether the number of samples fits its field. -/
def Kind.IsSized : Kind → Prop
  | curve c => c.samples < Nat.pow 2 32
  | surface s => s.samples < Nat.pow 2 32
  | data _ => True

/-- Whether identities and numbers of samples fit their fields. -/
structure IsSized (chart : Chart) : Prop where
  series : ∀ series ∈ chart.series, series.id < Nat.pow 2 32 ∧ series.kind.IsSized
  nextId : chart.nextId < Nat.pow 2 32

theorem ofName?_dataType (dataType : DataType) :
    DataType.ofName? dataType.name = some dataType := by
  cases dataType <;> rfl

/-- Each style of a surface is read back from its keyword. -/
theorem ofKeyword?_surfaceStyle (style : SurfaceStyle) :
    SurfaceStyle.ofKeyword? style.keyword = some style := by
  cases style <;> rfl

/-- An axis is read from any of its fields, as the default of each is the empty text. -/
theorem reads_axis (axis : Axis) : Reads defaults Axis.decode? axis.encode axis := by
  have text (value : Text) : Reads defaults text? (str value) value := reads_text value
  refine reads_record rfl (by decide) fun fields h => ?_
  rw [h.optional "title" rfl rfl (text []) (text axis.title),
    h.optional "xlabel" rfl rfl (text []) (text axis.xlabel),
    h.optional "ylabel" rfl rfl (text []) (text axis.ylabel),
    h.optional "zlabel" rfl rfl (text []) (text axis.zlabel),
    h.optional "xmin" rfl rfl (text []) (text axis.xmin),
    h.optional "xmax" rfl rfl (text []) (text axis.xmax),
    h.optional "ymin" rfl rfl (text []) (text axis.ymin),
    h.optional "ymax" rfl rfl (text []) (text axis.ymax),
    h.optional "grid" rfl rfl (text []) (text axis.grid),
    h.optional "legend_pos" rfl rfl (text []) (text axis.legendPos),
    h.optional "width" rfl rfl (text []) (text axis.width),
    h.optional "height" rfl rfl (text []) (text axis.height)]
  rfl

/-- A style is read from any of its fields; the line is solid when nothing is said of it. -/
theorem reads_style (style : Style) : Reads defaults Style.decode? style.encode style := by
  have text (value : Text) : Reads defaults text? (str value) value := reads_text value
  refine reads_record rfl (by decide) fun fields h => ?_
  rw [h.optional "color" rfl rfl (text []) (text style.color),
    h.optional "line_width" rfl rfl (text []) (text style.lineWidth),
    h.optional "line_style" rfl rfl (reads_choice (LineStyle.ofKeyword?_keyword .solid))
      (reads_choice style.lineStyle.ofKeyword?_keyword),
    h.optional "marker" rfl rfl (text []) (text style.marker),
    h.optional "legend" rfl rfl (text []) (text style.legend)]
  rfl

/-- What a series draws has no defaults, so all of its fields have to be there. -/
theorem reads_kind (kind : Kind) (h : kind.IsSized) :
    Reads defaults Kind.decode? kind.encode kind := by
  have text (value : Text) : Reads defaults text? (str value) value := reads_text value
  cases kind with
  | curve c =>
    refine reads_variant rfl rfl (by decide) rfl rfl fun fields h' => ?_
    rw [h'.required "expression" rfl rfl (text c.expression),
      h'.required "domain" rfl rfl (reads_range c.domain),
      h'.required "samples" rfl rfl (reads_count32 h)]
    rfl
  | surface s =>
    refine reads_variant rfl rfl (by decide) rfl rfl fun fields h' => ?_
    rw [h'.required "expression" rfl rfl (text s.expression),
      h'.required "domain_x" rfl rfl (reads_range s.domainX),
      h'.required "domain_y" rfl rfl (reads_range s.domainY),
      h'.required "samples" rfl rfl (reads_count32 h),
      h'.required "plot_style" rfl rfl
        (reads_choiceInVariant (ofKeyword?_surfaceStyle s.plotStyle)),
      h'.required "colormap" rfl rfl (text s.colormap)]
    rfl
  | data d =>
    refine reads_variant rfl rfl (by decide) rfl rfl fun fields h' => ?_
    rw [h'.required "chart_type" rfl rfl (reads_choiceInVariant (ofName?_dataType d.dataType)),
      h'.required "data" rfl rfl (text d.rows), h'.required "x_column" rfl rfl (text d.xColumn),
      h'.required "y_column" rfl rfl (text d.yColumn),
      h'.required "has_header" rfl rfl (reads_flag d.hasHeader)]
    rfl

/-- A series is read with its style or without it, and never without its identity. -/
theorem reads_series (series : Series) (hid : series.id < Nat.pow 2 32)
    (hkind : series.kind.IsSized) : Reads defaults Series.decode? series.encode series := by
  refine reads_record rfl (by decide) fun fields h => ?_
  rw [h.required "id" rfl rfl (reads_count32 hid),
    h.optional "style" rfl rfl (reads_style {}) (reads_style series.style),
    h.required "kind" rfl rfl (reads_kind series.kind hkind)]
  rfl

/-- A chart is read from whatever is left of its written form. The counter may be left out with the
others when it is zero, as in a chart that has handed out no identity. -/
theorem reads (chart : Chart) (h : chart.IsSized) :
    Reads defaults decode? chart.encode chart := by
  have hseries : Reads defaults (list? Series.decode?) (arr (chart.series.map Series.encode))
      chart.series :=
    reads_list _ fun series hmem =>
      reads_series series (h.series series hmem).1 (h.series series hmem).2
  refine reads_record rfl (by decide) fun fields h' => ?_
  rw [h'.optional "axis" rfl rfl (reads_axis {}) (reads_axis chart.axis),
    h'.optional "plots" rfl rfl
      (reads_list Series.encode (List.forall_mem_nil _)) hseries,
    h'.optional "next_id" rfl rfl (reads_count32 (by decide)) (reads_count32 h.nextId)]
  rfl

end Chart

/-! ## Shapes -/

namespace Shape

/-- The fields of a figure and of its shapes that have a default. -/
def defaults : Record := [("next_id", count 0), ("position", Point.encode ⟨0.0, 0.0⟩),
  ("fill", null), ("stroke", null), ("line_width", null), ("line_style", null), ("opacity", null),
  ("rotation", null), ("shadow", bool false), ("label", null)]

/-- Whether the number of sides fits its field. -/
def Form.IsSized : Form → Prop
  | regularPolygon sides _ => sides < Nat.pow 2 32
  | _ => True

/-- Whether the identity and the number of sides fit their fields. -/
structure IsSized (shape : Shape) : Prop where
  id : shape.id < Nat.pow 2 32
  form : shape.form.IsSized

theorem reads_point (point : Point Float) :
    Reads defaults Point.decode? point.encode point := by
  refine reads_record rfl (by decide) fun fields h => ?_
  rw [h.required "x" rfl rfl (reads_float point.x), h.required "y" rfl rfl (reads_float point.y)]
  rfl

/-- The form of a shape has no defaults. The vertices of a polygon are read one by one. -/
theorem reads_form (form : Form) (h : form.IsSized) :
    Reads defaults Form.decode? form.encode form := by
  have float (value : Float) : Reads defaults float? (float value) value := reads_float value
  cases form with
  | circle radius =>
    refine reads_variant rfl rfl (by decide) rfl rfl fun fields h' => ?_
    rw [h'.required "radius" rfl rfl (float radius)]
    rfl
  | rectangle width height =>
    refine reads_variant rfl rfl (by decide) rfl rfl fun fields h' => ?_
    rw [h'.required "width" rfl rfl (float width), h'.required "height" rfl rfl (float height)]
    rfl
  | square side =>
    refine reads_variant rfl rfl (by decide) rfl rfl fun fields h' => ?_
    rw [h'.required "side" rfl rfl (float side)]
    rfl
  | triangle base height =>
    refine reads_variant rfl rfl (by decide) rfl rfl fun fields h' => ?_
    rw [h'.required "base" rfl rfl (float base), h'.required "height" rfl rfl (float height)]
    rfl
  | regularPolygon sides radius =>
    refine reads_variant rfl rfl (by decide) rfl rfl fun fields h' => ?_
    rw [h'.required "sides" rfl rfl (reads_count32 h), h'.required "radius" rfl rfl (float radius)]
    rfl
  | customPolygon vertices =>
    have hvertices : Reads defaults (list? Point.decode?) (arr (vertices.map Point.encode))
        vertices := reads_list _ fun vertex _ => reads_point vertex
    have hvalid : areValid (vertices.map Point.encode) = true := areValid_map fun _ _ => rfl
    refine reads_variant rfl rfl (by decide) ?_ rfl fun fields h' => ?_
    · show (areValid _ && true) = true
      rw [hvalid]
      rfl
    · rw [h'.required "vertices" rfl rfl hvertices]
      rfl

/-- A shape is read from its identity and its form, with those of its settings that are left. A
setting that is null is one that is absent. -/
theorem reads (shape : Shape) (h : shape.IsSized) :
    Reads defaults decode? shape.encode shape := by
  have text : ∀ value, Reads defaults (nullable? text?) (nullable str value) value :=
    reads_nullable rfl reads_text
  have float : ∀ value, Reads defaults (nullable? float?) (nullable float value) value :=
    reads_nullable rfl reads_float
  have style : ∀ value, Reads defaults (nullable? (choice? LineStyle.ofKeyword?))
      (nullable (fun style : LineStyle => str style.keyword) value) value :=
    reads_nullable rfl fun style => reads_choice style.ofKeyword?_keyword
  refine reads_record rfl (by decide) fun fields h' => ?_
  rw [h'.required "id" rfl rfl (reads_count32 h.id),
    h'.required "kind" rfl rfl (reads_form shape.form h.form),
    h'.optional "position" rfl rfl (reads_point ⟨0.0, 0.0⟩) (reads_point shape.position),
    h'.optional "fill" rfl rfl (text none) (text shape.fill),
    h'.optional "stroke" rfl rfl (text none) (text shape.stroke),
    h'.optional "line_width" rfl rfl (float none) (float shape.lineWidth),
    h'.optional "line_style" rfl rfl (style none) (style shape.lineStyle),
    h'.optional "opacity" rfl rfl (float none) (float shape.opacity),
    h'.optional "rotation" rfl rfl (float none) (float shape.rotation),
    h'.optional "shadow" rfl rfl (reads_flag false) (reads_flag shape.shadow),
    h'.optional "label" rfl rfl (text none) (text shape.label)]
  rfl

/-- A list of shapes is read as the shapes that it holds, each with what is left of it. -/
theorem reads_shapes {shapes : List Shape} (h : ∀ shape ∈ shapes, shape.IsSized) :
    Reads defaults (list? decode?) (arr (shapes.map encode)) shapes :=
  reads_list _ fun shape hmem => reads shape (h shape hmem)

end Shape

namespace Figure

/-- Whether identities and numbers of sides fit their fields. -/
structure IsSized (figure : Figure) : Prop where
  shapes : ∀ shape ∈ figure.shapes, shape.IsSized
  nextId : figure.nextId < Nat.pow 2 32

/-- A figure is read with its counter or, when that is zero, without it. -/
theorem reads (figure : Figure) (h : figure.IsSized) :
    Reads Shape.defaults decode? figure.encode figure := by
  refine reads_record rfl (by decide) fun fields h' => ?_
  rw [h'.required "shapes" rfl rfl (Shape.reads_shapes h.shapes),
    h'.optional "next_id" rfl rfl (reads_count32 (by decide)) (reads_count32 h.nextId)]
  rfl

end Figure

/-! ## Options -/

namespace Preview.Options

/-- The options, which all have a default. -/
def defaults : Record := [("shape_padding", float 0.5), ("muted_stroke", str "#cccccc"),
  ("background", str "white"), ("font_size", float 12.0),
  ("palette", arr (defaultPalette.map str)), ("view_azimuth", float 25.0),
  ("view_elevation", float 30.0), ("max_surface_samples", count 30)]

/-- Options are read from any of them, down to none. -/
theorem reads (options : Options) (h : options.maxSurfaceSamples < Nat.pow 2 32) :
    Reads defaults decode? options.encode options := by
  have palette (colors : List Text) : Reads defaults (list? text?) (arr (colors.map str)) colors :=
    reads_list _ fun color _ => reads_text color
  refine reads_record rfl (by decide) fun fields h' => ?_
  rw [h'.optional "shape_padding" rfl rfl (reads_float 0.5) (reads_float options.shapePadding),
    h'.optional "muted_stroke" rfl rfl (reads_text _) (reads_text options.mutedStroke),
    h'.optional "background" rfl rfl (reads_text _) (reads_text options.background),
    h'.optional "font_size" rfl rfl (reads_float 12.0) (reads_float options.fontSize),
    h'.optional "palette" rfl rfl (palette defaultPalette) (palette options.palette),
    h'.optional "view_azimuth" rfl rfl (reads_float 25.0) (reads_float options.viewAzimuth),
    h'.optional "view_elevation" rfl rfl (reads_float 30.0) (reads_float options.viewElevation),
    h'.optional "max_surface_samples" rfl rfl (reads_count32 (by decide)) (reads_count32 h)]
  rfl

end Preview.Options

/-! ## All documents -/

/-- Whether a document is read back from what it is written as, and from whatever is left of that
when fields that hold their default are left out. -/
structure RoundTrips {α : Type} (defaults : Record) (encode : α → Json)
    (decode? : Json → Option α) (a : α) : Prop where
  whole : decode? (encode a) = some a
  abridged : ∀ value, Abridges defaults (encode a) value → decode? value = some a

/-- What is read from any abridged form is read from the whole one, which leaves nothing out. -/
theorem Json.Reads.roundTrips {α : Type} {defaults : Record} {encode : α → Json}
    {decode? : Json → Option α} {a : α} (h : Reads defaults decode? (encode a) a) :
    RoundTrips defaults encode decode? a :=
  ⟨h (encode a) (.refl (encode a)), h⟩

/-- Formulas, charts with their counter, figures, lists of shapes and options round-trip, whole and
with fields left out that hold their default. -/
theorem roundTrips_documents :
    (∀ formula : Formula, formula.IsSized →
      RoundTrips Formula.defaults Formula.encode Formula.decode? formula) ∧
    (∀ chart : Chart, chart.IsSized →
      RoundTrips Chart.defaults Chart.encode Chart.decode? chart) ∧
    (∀ figure : Figure, figure.IsSized →
      RoundTrips Shape.defaults Figure.encode Figure.decode? figure) ∧
    (∀ shapes : List Shape, (∀ shape ∈ shapes, shape.IsSized) →
      RoundTrips Shape.defaults (fun shapes => arr (shapes.map Shape.encode))
        (list? Shape.decode?) shapes) ∧
    ∀ options : Preview.Options, options.maxSurfaceSamples < Nat.pow 2 32 →
      RoundTrips Preview.Options.defaults Preview.Options.encode Preview.Options.decode?
        options := by
  refine ⟨?_, ?_, ?_, ?_, ?_⟩
  · intro formula h
    exact (formula.reads h).roundTrips
  · intro chart h
    exact (chart.reads h).roundTrips
  · intro figure h
    exact (figure.reads h).roundTrips
  · intro shapes h
    have hreads := Shape.reads_shapes h
    exact ⟨hreads _ (.refl _), hreads⟩
  · intro options h
    exact (options.reads h).roundTrips

/-- A chart of which the axis and the style of its series are left out, a figure without its counter
and with a shape that has no settings, and options of which nothing is left. -/
theorem roundTrips_documents_abridged :
    Formula.decode? (variant "matrix" [("rows", int 1), ("cols", int 1),
      ("cells", arr [arr [str "x"]])]) = some (.matrix 1 1 [["x"]] .paren) ∧
    Chart.decode? (obj [("plots", arr [obj [("id", int 2), ("kind", variant "data"
        [("chart_type", str "bar"), ("data", str "1 2"), ("x_column", str []),
          ("y_column", str []), ("has_header", bool false)])]]), ("next_id", int 3)]) =
      some { series := [⟨2, {}, .ofRows .bar "1 2"⟩], nextId := 3 } ∧
    Figure.decode? (obj [("shapes", arr [obj [("id", int 7),
        ("kind", variant "circle" [("radius", float 1.0)])]])]) =
      some { shapes := [{ id := 7, form := .circle 1.0 }] } ∧
    list? Shape.decode? (arr [obj [("id", int 7),
        ("kind", variant "circle" [("radius", float 1.0)]), ("label", str "a")]]) =
      some [{ id := 7, form := .circle 1.0, label := some "a" }] ∧
    Preview.Options.decode? (obj []) = some {} := by
  obtain ⟨formulas, charts, figures, shapes, options⟩ := roundTrips_documents
  have hcircle (label : Option Text) : Shape.IsSized { id := 7, form := .circle 1.0, label } :=
    ⟨show 7 < Nat.pow 2 32 by decide, trivial⟩
  refine ⟨?_, ?_, ?_, ?_, ?_⟩
  · refine (formulas (.matrix 1 1 [["x"]] .paren) ⟨by decide, by decide⟩).abridged _ ?_
    exact ⟨_, rfl, .keep rfl <| .keep rfl <| .keep rfl <| .keep (.refl _) <| .leave rfl rfl⟩
  · have hsized : Chart.IsSized { series := [⟨2, {}, .ofRows .bar "1 2"⟩], nextId := 3 } :=
      ⟨by simp [Chart.Kind.ofRows, Chart.Kind.IsSized], by decide⟩
    refine (charts _ hsized).abridged _ ?_
    refine ⟨_, rfl, .leave rfl <| .keep ⟨_, rfl, _, _, rfl, ?_, rfl⟩ <| .keep rfl rfl⟩
    exact ⟨_, rfl, .keep rfl <| .leave rfl <| .keep (.refl _) rfl⟩
  · have hsized : Figure.IsSized { shapes := [{ id := 7, form := .circle 1.0 }] } :=
      ⟨List.forall_mem_singleton.mpr (hcircle none), by decide⟩
    refine (figures _ hsized).abridged _ ?_
    refine ⟨_, rfl, .keep ⟨_, rfl, _, _, rfl, ?_, rfl⟩ <| .leave rfl rfl⟩
    exact ⟨_, rfl, .keep rfl <| .keep (.refl _) <| .leave rfl <| .leave rfl <| .leave rfl <|
      .leave rfl <| .leave rfl <| .leave rfl <| .leave rfl <| .leave rfl <| .leave rfl rfl⟩
  · have hsized := List.forall_mem_singleton.mpr (hcircle (some "a"))
    refine (shapes _ hsized).abridged _ ⟨_, rfl, _, _, rfl, ?_, rfl⟩
    exact ⟨_, rfl, .keep rfl <| .keep (.refl _) <| .leave rfl <| .leave rfl <| .leave rfl <|
      .leave rfl <| .leave rfl <| .leave rfl <| .leave rfl <| .leave rfl <| .keep rfl rfl⟩
  · refine (options {} (by decide)).abridged _ ?_
    exact ⟨_, rfl, .leave rfl <| .leave rfl <| .leave rfl <| .leave rfl <| .leave rfl <|
      .leave rfl <| .leave rfl <| .leave rfl rfl⟩

end TexFigure
