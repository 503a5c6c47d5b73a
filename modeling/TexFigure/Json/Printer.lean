import TexFigure.Decimal.Notation
import TexFigure.Json.Basic
/-!
# Writing JSON documents

Two layouts: `compact`, on one line without blanks, and `pretty`, with one item to a line and two
blanks for each level. Both escape quotes, backslashes and control characters and nothing else.
How a double is written is a parameter of the compact layout. What stands for no value is written
as null.
-/

namespace TexFigure.Json

/-- The hexadecimal form of a number below 256, in two digits. -/
def hexByte (n : Nat) : Text :=
  [Nat.digitChar (n / 16), Nat.digitChar (n % 16)]

/-- A character inside a string. -/
def escapeChar (c : Char) : Text :=
  if c = '"' then "\\\""
  else if c = '\\' then "\\\\"
  else if c = '\n' then "\\n"
  else if c = '\r' then "\\r"
  else if c = '\t' then "\\t"
  else if c = '\x08' then "\\b"
  else if c = '\x0c' then "\\f"
  else if c.toNat < 0x20 then "\\u00" ++ hexByte c.toNat
  else [c]

/-- A string in quotes. -/
def quote (text : Text) : Text := '"' :: text.flatMap escapeChar ++ ['"']

/-- A truth value. -/
def truth (value : Bool) : Text := if value then "true" else "false"

mutual

/-- A value on one line. -/
def compact (number : Float → Text) : Json → Text
  | null | invalid => "null"
  | bool value => truth value
  | int value => Decimal.signed value
  | float value => number value
  | str value => quote value
  | arr items => Text.bracketed (compactItems number items)
  | obj fields => Text.braced (compactFields number fields)

/-- The items of an array with commas between them. -/
def compactItems (number : Float → Text) : List Json → Text
  | [] => []
  | [item] => compact number item
  | item :: items => compact number item ++ ',' :: compactItems number items

/-- The fields of an object with commas between them. -/
def compactFields (number : Float → Text) : List (Text × Json) → Text
  | [] => []
  | [(name, value)] => quote name ++ ':' :: compact number value
  | (name, value) :: fields =>
    quote name ++ ':' :: compact number value ++ ',' :: compactFields number fields

end

/-- A line break and the blanks of a level. -/
def newLine (level : Nat) : Text := '\n' :: List.replicate (2 * level) ' '

mutual

/-- A value, its inner lines indented by one level more than `level`. -/
def prettyAt (level : Nat) : Json → Text
  | null | invalid => "null"
  | bool value => truth value
  | int value => Decimal.signed value
  | float value => Decimal.documentNumber value
  | str value => quote value
  | arr [] => "[]"
  | arr items => '[' :: prettyItems (level + 1) items ++ newLine level ++ [']']
  | obj [] => ['{', '}']
  | obj fields => '{' :: prettyFields (level + 1) fields ++ newLine level ++ ['}']

/-- The items of an array, each on lines of its own. -/
def prettyItems (level : Nat) : List Json → Text
  | [] => []
  | [item] => newLine level ++ prettyAt level item
  | item :: items => newLine level ++ prettyAt level item ++ ',' :: prettyItems level items

/-- The fields of an object, each on lines of its own. -/
def prettyFields (level : Nat) : List (Text × Json) → Text
  | [] => []
  | [(name, value)] => newLine level ++ quote name ++ ": " ++ prettyAt level value
  | (name, value) :: fields =>
    newLine level ++ quote name ++ ": " ++ prettyAt level value ++ ','
      :: prettyFields level fields

end

/-- A document with one item to a line. -/
def pretty (value : Json) : Text := prettyAt 0 value

end TexFigure.Json
