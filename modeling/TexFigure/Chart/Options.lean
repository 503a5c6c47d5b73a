import TexFigure.Chart.Basic
import TexFigure.Color.Token
import TexFigure.Expression.Compile
import TexFigure.Source.Split
/-!
# Options of an axis and of a series

Options are read one after another; a later one replaces an earlier one. An option that is not
known, or whose value does not fit, is named in the answer instead of being kept.
-/

namespace TexFigure.Chart

open Source

/-- Read options one after another: what they set, and the names of those that were dropped. -/
def readOptions {α : Type} (add : α → Text → Except Text α) (start : α) (options : Text) :
    α × List Text :=
  (splitOptions options).foldl (fun (settings, dropped) option =>
    match add settings option with
    | .ok settings => (settings, dropped)
    | .error name => (settings, dropped ++ [name])) (start, [])

/-! ## The axis -/

/-- Add an option to the settings of an axis. -/
def Axis.addOption (axis : Axis) (option : Text) : Except Text Axis :=
  let (key, value) := keyValue option
  if key = "title" then .ok { axis with title := value }
  else if key = "xlabel" then .ok { axis with xlabel := value }
  else if key = "ylabel" then .ok { axis with ylabel := value }
  else if key = "zlabel" then .ok { axis with zlabel := value }
  else if key = "xmin" then .ok { axis with xmin := value }
  else if key = "xmax" then .ok { axis with xmax := value }
  else if key = "ymin" then .ok { axis with ymin := value }
  else if key = "ymax" then .ok { axis with ymax := value }
  else if key = "grid" then .ok { axis with grid := value }
  else if key = "legend pos" then .ok { axis with legendPos := value }
  else if key = "width" then .ok { axis with width := value }
  else if key = "height" then .ok { axis with height := value }
  else .error key

/-! ## A series -/

/-- The options of a series, before what it plots decides which of them count. -/
structure SeriesOptions where
  style : Style := {}
  dataType : Option DataType := none
  surface : Option SurfaceStyle := none
  domain : Option Domain := none
  yDomain : Option Domain := none
  samples : Option Nat := none
  colormap : Text := []

/-- The line widths that have a name, in points. -/
def namedWidths : List (Text × Text) := [
  ("ultra thin", "0.1pt"), ("very thin", "0.2pt"), ("thin", "0.4pt"), ("semithick", "0.6pt"),
  ("thick", "0.8pt"), ("very thick", "1.2pt"), ("ultra thick", "1.6pt")]

/-- Drop a phrase from the front of a text. -/
def dropPhrase? (phrase text : Text) : Option Text := phrase.isPrefixOf? text

/-- The line style of a flag, dense and loose dashes alike. -/
def lineStyleOfFlag? (flag : Text) : Option LineStyle :=
  let base := ((dropPhrase? "densely " flag).or (dropPhrase? "loosely " flag)).getD flag
  if base = "solid" then some .solid
  else if base = "dashed" then some .dashed
  else if base = "dotted" then some .dotted
  else if base = "dashdotted" ∨ base = "dash dot" then some .dashdotted
  else none

/-- A domain, two constant expressions with a colon between them. -/
def domain? (value : Text) : Option Domain := do
  let (low, high) ← Text.cut? value [':']
  return (← Expression.constant? (Text.trim low), ← Expression.constant? (Text.trim high))

/-- A number of samples, which is not zero. -/
def samples? (value : Text) : Option Nat := do
  let n ← Decimal.readNat? (Nat.pow 2 32) (Text.trim value)
  if 0 < n then return n else none

namespace SeriesOptions

/-- Add a flag, an option without a value. -/
def addFlag (options : SeriesOptions) (flag : Text) : Except Text SeriesOptions :=
  match dropPhrase? "colormap/" flag with
  | some colormap => .ok { options with colormap }
  | none =>
    match namedWidths.lookup flag with
    | some lineWidth => .ok { options with style := { options.style with lineWidth } }
    | none =>
      match lineStyleOfFlag? flag with
      | some lineStyle => .ok { options with style := { options.style with lineStyle } }
      | none =>
        if Color.isToken flag then
          .ok { options with style := { options.style with color := flag } }
        else .error flag

/-- Add an option with a value; `option` is the text of both. -/
def addSetting (options : SeriesOptions) (option key value : Text) : Except Text SeriesOptions :=
  if key = "color" ∨ key = "draw" then
    .ok { options with style := { options.style with color := value } }
  else if key = "line width" then
    .ok { options with style := { options.style with lineWidth := value } }
  else if key = "mark" then
    let marker : Text := if value = "none" then [] else value
    .ok { options with style := { options.style with marker } }
  else if key = "samples" then
    match samples? value with
    | some n => .ok { options with samples := some n }
    | none => .error option
  else if key = "domain" then
    match domain? value with
    | some domain => .ok { options with domain := some domain }
    | none => .error option
  else if key = "y domain" then
    match domain? value with
    | some domain => .ok { options with yDomain := some domain }
    | none => .error option
  else if key = "colormap name" then .ok { options with colormap := value }
  else .error key

/-- Add an option. Some mean the same with a value and without. -/
def addOption (options : SeriesOptions) (option : Text) : Except Text SeriesOptions :=
  let (key, value) := keyValue option
  if key = "no markers" ∨ key = "no marks" then
    .ok { options with style := { options.style with marker := [] } }
  else if key = "only marks" then .ok { options with dataType := some .scatter }
  else if key = "ybar" then .ok { options with dataType := some .bar }
  else if key = "area style" then .ok { options with dataType := some .area }
  else if key = "surf" then .ok { options with surface := some .surf }
  else if key = "mesh" then .ok { options with surface := some .mesh }
  else if '=' ∈ option then options.addSetting option key value
  else options.addFlag key

end SeriesOptions

/-! ## A table -/

/-- The options of a table. -/
structure TableOptions where
  xColumn : Text := []
  yColumn : Text := []
  hasHeader : Bool := true

/-- Add an option to those of a table. Separators are found in the rows, so their options are
passed over. -/
def TableOptions.addOption (options : TableOptions) (option : Text) : Except Text TableOptions :=
  let (key, value) := keyValue option
  if key = "x" ∨ key = "x index" then .ok { options with xColumn := value }
  else if key = "y" ∨ key = "y index" then .ok { options with yColumn := value }
  else if key = "header" then .ok { options with hasHeader := Text.trim value != "false".toList }
  else if key = "col sep" ∨ key = "row sep" then .ok options
  else .error key

end TexFigure.Chart
