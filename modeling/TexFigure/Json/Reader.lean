import TexFigure.Decimal.Reader
import TexFigure.Json.Basic
/-!
# Reading JSON documents

A strict reader: no comments, no trailing commas, no leading zeros and no control characters
inside a string. A whole number that fits 64 bits is read as it is, and any other number as the
double nearest to it.

A document that breaks the grammar has no reading. What keeps to the grammar and still stands for
no value is read as `invalid`: a number beyond the largest double, a string in which an escaped
half of a surrogate pair lacks its other half, and arrays and objects nested more than 127 deep.
-/

namespace TexFigure.Json

/-- The blanks between tokens. -/
def isSpace (c : Char) : Bool := c == ' ' || c == '\t' || c == '\n' || c == '\r'

/-- What follows the blanks at the front of a text. -/
def skipSpace (text : Text) : Text := text.dropWhile isSpace

/-! ## Numbers -/

/-- The digits before the point: a zero alone, or digits that do not start with one. -/
def readWhole? (text : Text) : Option (Text × Text) :=
  match text.takeWhile Char.isDigit with
  | [] => none
  | '0' :: _ :: _ => none
  | digits => some (digits, text.dropWhile Char.isDigit)

/-- The digits behind a point, if there is one. -/
def readFraction? : Text → Option (Text × Text)
  | '.' :: rest =>
    if rest.head?.any Char.isDigit then
      some (rest.takeWhile Char.isDigit, rest.dropWhile Char.isDigit)
    else none
  | text => some ([], text)

/-- The exponent, if there is one. -/
def readPower? : Text → Option (Option Int × Text)
  | [] => some (none, [])
  | mark :: rest =>
    if mark == 'e' || mark == 'E' then
      let (negative, digits) := Decimal.readSign rest
      if digits.head?.any Char.isDigit then
        let power : Int := Decimal.ofDigits (digits.takeWhile Char.isDigit)
        some (some (if negative then -power else power), digits.dropWhile Char.isDigit)
      else none
    else some (none, mark :: rest)

/-- The double nearest to a numeral, if there is one in range. -/
def ofNumeral (numeral : Decimal.Numeral) : Json :=
  let value := numeral.toFloat
  if value.isInf then invalid else float value

/-- The value of a whole number: exact when it fits 64 bits (with a sign, 63), a double
otherwise; minus zero is a double too. -/
def ofWhole (negative : Bool) (digits : Text) : Json :=
  let n := Decimal.ofDigits digits
  if !negative && n < Nat.pow 2 64 then int n
  else if negative && 0 < n && n ≤ Nat.pow 2 63 then int (-n)
  else ofNumeral ⟨negative, digits, [], 0⟩

/-- A number. -/
def readNumber? (text : Text) : Option (Json × Text) := do
  let (negative, body) := match text with
    | '-' :: rest => (true, rest)
    | text => (false, text)
  let (whole, rest) ← readWhole? body
  let (fraction, rest) ← readFraction? rest
  let (power, rest) ← readPower? rest
  let value :=
    if fraction.isEmpty && power.isNone then ofWhole negative whole
    else ofNumeral ⟨negative, whole, fraction, power.getD 0⟩
  return (value, rest)

/-! ## Strings -/

/-- The value of a hexadecimal digit. -/
def hexDigit? (c : Char) : Option Nat :=
  if c.isDigit then some (c.toNat - '0'.toNat)
  else if 'a' ≤ c ∧ c ≤ 'f' then some (c.toNat - 'a'.toNat + 10)
  else if 'A' ≤ c ∧ c ≤ 'F' then some (c.toNat - 'A'.toNat + 10)
  else none

/-- The value of four hexadecimal digits. -/
def hexFour? (a b c d : Char) : Option Nat := do
  return (← hexDigit? a) * 4096 + (← hexDigit? b) * 256 + (← hexDigit? c) * 16 + (← hexDigit? d)

/-- The character that a letter behind a backslash stands for. -/
def escaped? : Char → Option Char
  | '"' => some '"'
  | '\\' => some '\\'
  | '/' => some '/'
  | 'b' => some '\x08'
  | 'f' => some '\x0c'
  | 'n' => some '\n'
  | 'r' => some '\r'
  | 't' => some '\t'
  | _ => none

/-- A part of a string: a character, or the code of a UTF-16 unit. -/
inductive Piece
  | char (c : Char)
  | unit (code : Nat)
  deriving DecidableEq, Repr

/-- The rest of a string behind its opening quote, and what follows its closing quote. -/
def readPieces? : Text → Option (List Piece × Text)
  | [] => none
  | '"' :: rest => some ([], rest)
  | '\\' :: 'u' :: a :: b :: c :: d :: rest => do
    let code ← hexFour? a b c d
    (readPieces? rest).map fun (pieces, after) => (.unit code :: pieces, after)
  | '\\' :: c :: rest => do
    let c ← escaped? c
    (readPieces? rest).map fun (pieces, after) => (.char c :: pieces, after)
  | c :: rest =>
    if c.toNat < 0x20 ∨ c = '\\' then none
    else (readPieces? rest).map fun (pieces, after) => (.char c :: pieces, after)

/-- The character of a surrogate pair. -/
def pairChar? (high low : Nat) : Option Char :=
  if 0xD800 ≤ high ∧ high < 0xDC00 ∧ 0xDC00 ≤ low ∧ low < 0xE000 then
    some (Char.ofNat (0x10000 + (high - 0xD800) * 0x400 + (low - 0xDC00)))
  else none

/-- The text that the pieces of a string make up, unless a half of a surrogate pair is left
over. -/
def ofPieces? : List Piece → Option Text
  | [] => some []
  | .char c :: pieces => (ofPieces? pieces).map (c :: ·)
  | .unit code :: pieces =>
    if code < 0xD800 ∨ 0xE000 ≤ code then (ofPieces? pieces).map (Char.ofNat code :: ·)
    else
      match pieces with
      | .unit low :: pieces => do
        let c ← pairChar? code low
        (ofPieces? pieces).map (c :: ·)
      | _ => none

/-- The content of a string behind its opening quote, if it is a text, and what follows it. -/
def readString? (text : Text) : Option (Option Text × Text) :=
  (readPieces? text).map fun (pieces, rest) => (ofPieces? pieces, rest)

/-! ## Values -/

/-- A reader takes a value off the front of a text. -/
abbrev Reader (α : Type) := Text → Option (α × Text)

/-- The items of an array behind its bracket and the blanks after it; `fuel` bounds their
number. -/
def readItems (item : Reader Json) : (fuel : Nat) → Reader (List Json)
  | 0, _ => none
  | fuel + 1, text => do
    let (value, rest) ← item text
    match skipSpace rest with
    | ',' :: rest =>
      let (values, rest) ← readItems item fuel rest
      return (value :: values, rest)
    | ']' :: rest => return ([value], rest)
    | _ => none

/-- The fields of an object behind its brace; `fuel` bounds their number. -/
def readFields (item : Reader Json) : (fuel : Nat) → Reader (List (Option Text × Json))
  | 0, _ => none
  | fuel + 1, text =>
    match skipSpace text with
    | '"' :: rest => do
      let (name, rest) ← readString? rest
      match skipSpace rest with
      | ':' :: rest =>
        let (value, rest) ← item rest
        match skipSpace rest with
        | ',' :: rest =>
          let (fields, rest) ← readFields item fuel rest
          return ((name, value) :: fields, rest)
        | '}' :: rest => return ([(name, value)], rest)
        | _ => none
      | _ => none
    | _ => none

/-- The value of a string. -/
def ofContent (content : Option Text) : Json := (content.map str).getD invalid

/-- A field whose name is a text. -/
def namedField? (field : Option Text × Json) : Option (Text × Json) := field.1.map (·, field.2)

/-- The value of an object. -/
def ofFields (fields : List (Option Text × Json)) : Json :=
  ((fields.mapM namedField?).map obj).getD invalid

/-- A value as it stands where `room` levels may still be opened. -/
def within (room : Nat) (value : Json) : Json := if room = 0 then invalid else value

/-- The words that are values. -/
def literals : List (Text × Json) :=
  [("null", null), ("true", bool true), ("false", bool false)]

/-- One value. `fuel` bounds the number of its levels, and `size` the number of items on each;
what stands below the first `room` levels is invalid. -/
def readValue (size : Nat) : (fuel room : Nat) → Reader Json
  | 0, _, _ => none
  | fuel + 1, room, text =>
    match skipSpace text with
    | '[' :: rest =>
      match skipSpace rest with
      | ']' :: rest => some (within room (arr []), rest)
      | _ => (readItems (readValue size fuel (room - 1)) size rest).map
          fun (items, rest) => (within room (arr items), rest)
    | '{' :: rest =>
      match skipSpace rest with
      | '}' :: rest => some (within room (obj []), rest)
      | _ => (readFields (readValue size fuel (room - 1)) size rest).map
          fun (fields, rest) => (within room (ofFields fields), rest)
    | '"' :: rest => (readString? rest).map fun (content, rest) => (ofContent content, rest)
    | rest =>
      match literals.findSome? fun (word, value) => (word.isPrefixOf? rest).map (value, ·) with
      | some answer => some answer
      | none => readNumber? rest

/-- A document: one value and blanks. No value has more levels or items than characters. -/
def readDocument? (text : Text) : Option Json := do
  let (value, rest) ← readValue text.length (text.length + 1) 127 text
  if (skipSpace rest).isEmpty then return value else none

end TexFigure.Json
