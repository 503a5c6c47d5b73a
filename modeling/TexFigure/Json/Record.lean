import TexFigure.Json.Basic
/-!
# Records in JSON

A record is written as an object. It is read from an object, whose unknown fields are ignored and
whose known fields occur once at most, or from an array that holds the fields in their declared
order. A variant is a record whose `type` field names its form; since the form may stand anywhere
among the fields, all of them have to be valid, the ignored ones too.
-/

namespace TexFigure.Json

/-- The fields of a record that are present, by name. -/
abbrev Record := List (Text × Json)

/-- Read the fields of a record with the given names. -/
def record? (names : List Text) : Json → Option Record
  | obj fields =>
    let known := fields.filter fun field => names.contains field.1
    if (known.map (·.1)).Nodup then some known else none
  | arr items => if items.length ≤ names.length then some (names.zip items) else none
  | _ => none

/-- The form that a variant names and the value that holds its other fields. -/
def variant? (value : Json) : Option (Text × Json) :=
  if !value.isValid then none
  else
    match value with
    | obj fields =>
      match fields.filter (·.1 == "type".toList) with
      | [(_, str form)] => some (form, obj (fields.filter (·.1 != "type".toList)))
      | _ => none
    | arr (str form :: items) => some (form, arr items)
    | _ => none

/-- Write a variant. -/
def variant (form : Text) (fields : Record) : Json := obj (("type", str form) :: fields)

/-- A field that has to be present. -/
def required {α : Type} (decode : Json → Option α) (record : Record) (name : Text) : Option α :=
  (record.lookup name).bind decode

/-- A field that has a default. -/
def optional {α : Type} (default : α) (decode : Json → Option α) (record : Record)
    (name : Text) : Option α :=
  match record.lookup name with
  | none => some default
  | some value => decode value

/-! ## Plain values -/

/-- A text. -/
def text? : Json → Option Text
  | str value => some value
  | _ => none

/-- A truth value. -/
def flag? : Json → Option Bool
  | bool value => some value
  | _ => none

/-- A double, written with or without a fraction. -/
def float? : Json → Option Float
  | float value => some value
  | int value => some (Float.ofInt value)
  | _ => none

/-- A whole number below a bound. -/
def count? (bound : Nat) : Json → Option Nat
  | int value => if 0 ≤ value ∧ value < bound then some value.toNat else none
  | _ => none

/-- A count of 32 bits. -/
def count32? : Json → Option Nat := count? (Nat.pow 2 32)

/-- A count of 64 bits. -/
def count64? : Json → Option Nat := count? (Nat.pow 2 64)

/-- A list. -/
def list? {α : Type} (decode : Json → Option α) : Json → Option (List α)
  | arr items => items.mapM decode
  | _ => none

/-- A pair of doubles. -/
def range? : Json → Option (Float × Float)
  | arr [low, high] => do return (← float? low, ← float? high)
  | _ => none

/-- A value that may be absent, which is written as null. -/
def nullable? {α : Type} (decode : Json → Option α) : Json → Option (Option α)
  | null => some none
  | value => (decode value).map some

/-- One of several names, alone or as the name of the only field of an object, which is null. -/
def choice? {α : Type} (ofName? : Text → Option α) : Json → Option α
  | str name => ofName? name
  | obj [(name, null)] => ofName? name
  | _ => none

/-- One of several names in a field of a variant, where the only field of an object may be an
empty object, too. -/
def choiceInVariant? {α : Type} (ofName? : Text → Option α) : Json → Option α
  | obj [(name, obj [])] => ofName? name
  | value => choice? ofName? value

/-- Write a value that may be absent. -/
def nullable {α : Type} (encode : α → Json) (value : Option α) : Json :=
  (value.map encode).getD null

/-- Write a pair of doubles. -/
def range (r : Float × Float) : Json := arr [float r.1, float r.2]

/-- Write a count. -/
def count (n : Nat) : Json := int n

end TexFigure.Json
