import TexFigure.Arithmetic.Double
import TexFigure.Json.Record
/-!
# Options of a preview

A preview has a size in pixels, one at least in each direction, and options that all have a
default.
-/

namespace TexFigure.Preview

open Json

/-- The size of a drawing. -/
structure Viewport where
  width : Float
  height : Float

/-- A size, raised to one pixel where it is smaller or no number. -/
def Viewport.ofSize (width height : Float) : Viewport :=
  ⟨Double.maximum width 1.0, Double.maximum height 1.0⟩

/-- The size of a drawing that asks for none. -/
def Viewport.default : Viewport := ⟨400.0, 300.0⟩

/-- The colours that series take in turn. -/
def defaultPalette : List Text := ["blue", "red", "brown!60!black", "black", "teal", "orange"]

/-- The look of a drawing. -/
structure Options where
  /-- The space around the shapes of a figure, in its own units. -/
  shapePadding : Float := 0.5
  /-- The stroke of shapes that stand back behind a selected one. -/
  mutedStroke : Text := "#cccccc"
  background : Text := "white"
  fontSize : Float := 12.0
  palette : List Text := defaultPalette
  /-- The direction of view, in degrees around the upright axis. -/
  viewAzimuth : Float := 25.0
  /-- The direction of view, in degrees above the ground. -/
  viewElevation : Float := 30.0
  /-- The largest number of samples in each direction of a surface. -/
  maxSurfaceSamples : Nat := 30

namespace Options

/-- The colour of a series without a colour of its own. -/
def cycleColor (options : Options) (index : Nat) : Text :=
  options.palette.getD (index % options.palette.length) "blue"

/-- Write options. -/
def encode (options : Options) : Json :=
  obj [("shape_padding", float options.shapePadding), ("muted_stroke", str options.mutedStroke),
    ("background", str options.background), ("font_size", float options.fontSize),
    ("palette", arr (options.palette.map str)), ("view_azimuth", float options.viewAzimuth),
    ("view_elevation", float options.viewElevation),
    ("max_surface_samples", count options.maxSurfaceSamples)]

/-- Read options; each has its default. -/
def decode? (value : Json) : Option Options := do
  let default : Options := {}
  let fields ← record? ["shape_padding", "muted_stroke", "background", "font_size", "palette",
    "view_azimuth", "view_elevation", "max_surface_samples"] value
  return {
    shapePadding := ← optional default.shapePadding float? fields "shape_padding"
    mutedStroke := ← optional default.mutedStroke text? fields "muted_stroke"
    background := ← optional default.background text? fields "background"
    fontSize := ← optional default.fontSize float? fields "font_size"
    palette := ← optional default.palette (list? text?) fields "palette"
    viewAzimuth := ← optional default.viewAzimuth float? fields "view_azimuth"
    viewElevation := ← optional default.viewElevation float? fields "view_elevation"
    maxSurfaceSamples :=
      ← optional default.maxSurfaceSamples count32? fields "max_surface_samples" }

end Options

end TexFigure.Preview
