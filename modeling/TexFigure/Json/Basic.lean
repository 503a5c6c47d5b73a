import TexFigure.Text.Basic
/-!
# JSON values

Whole numbers and doubles are kept apart, since a field that counts something takes no fraction.
An object is the list of its fields in order. A document may be well formed and still hold a part
that stands for no value; such a part is `invalid`, and does no harm in a field that nobody reads.
-/

namespace TexFigure

/-- A JSON value. -/
inductive Json
  | null
  | bool (value : Bool)
  | int (value : Int)
  | float (value : Float)
  | str (value : Text)
  | arr (items : List Json)
  | obj (fields : List (Text × Json))
  /-- A number beyond the largest double, a text with half of a surrogate pair, an object with
  such a name, or an array or object that is nested too deep. -/
  | invalid
  deriving Inhabited

namespace Json

/-- The value of the first field of a name. -/
def field? (name : Text) (fields : List (Text × Json)) : Option Json :=
  fields.lookup name

/-- The fields of an object. -/
def fields? : Json → Option (List (Text × Json))
  | obj fields => some fields
  | _ => none

mutual

/-- Whether every part of a value stands for something. -/
def isValid : Json → Bool
  | invalid => false
  | arr items => areValid items
  | obj fields => haveValid fields
  | null | bool _ | int _ | float _ | str _ => true

/-- Whether every part of some values stands for something. -/
def areValid : List Json → Bool
  | [] => true
  | item :: items => isValid item && areValid items

/-- Whether every part of some fields stands for something. -/
def haveValid : List (Text × Json) → Bool
  | [] => true
  | (_, value) :: fields => isValid value && haveValid fields

end

end Json

end TexFigure
