import TexFigure.Chart.Document
import TexFigure.Formula.Basic
/-!
# Names given by a user

Names of tags, line styles, ways of drawing data and surface styles are looked up without the
blanks around them. A name that is not known is an error, never a silent default.
-/

namespace TexFigure

/-- The closed lists of names. -/
inductive Vocabulary
  | mathTag | lineStyle | chartType | surfaceStyle
  deriving DecidableEq, Repr

/-- What a list of names is called. -/
def Vocabulary.title : Vocabulary → Text
  | mathTag => "math tag"
  | lineStyle => "line style"
  | chartType => "chart type"
  | surfaceStyle => "surface style"

/-- A name that its list does not hold, as it was given. -/
structure UnknownName where
  vocabulary : Vocabulary
  name : Text
  deriving DecidableEq, Repr

/-- What is said about an unknown name. -/
def UnknownName.message (e : UnknownName) : Text :=
  "Unknown " ++ e.vocabulary.title ++ " '" ++ e.name ++ "'"

namespace Vocabulary

/-- Look up a name. -/
def lookUp {α : Type} (vocabulary : Vocabulary) (ofName? : Text → Option α) (name : Text) :
    Except UnknownName α :=
  match ofName? (Text.trim name) with
  | some value => .ok value
  | none => .error ⟨vocabulary, name⟩

/-- The tag of a name. -/
def tagOf : Text → Except UnknownName Formula.Tag := lookUp mathTag Formula.Tag.ofName?

/-- The line style of a name; one of them has a second spelling. -/
def lineStyleOf : Text → Except UnknownName LineStyle :=
  lookUp lineStyle fun name =>
    if name = "dash-dotted" then some .dashdotted else LineStyle.ofKeyword? name

/-- The way of drawing data of a name. -/
def chartTypeOf : Text → Except UnknownName Chart.DataType :=
  lookUp chartType Chart.DataType.ofName?

/-- The surface style of a name. -/
def surfaceStyleOf : Text → Except UnknownName Chart.SurfaceStyle :=
  lookUp surfaceStyle Chart.SurfaceStyle.ofKeyword?

end Vocabulary

end TexFigure
