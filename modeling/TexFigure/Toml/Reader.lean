import TexFigure.Decimal.Reader
import TexFigure.Json.Reader
/-!
# Reading settings

A file of settings holds a key and a value to a line. Values are strings in either kind of quotes,
whole numbers of 64 bits, doubles, truth values, and lists of values. Strings in three quotes and
lists may go over several lines. A comment goes on to the end of its line. Every key occurs once.
This is the part of TOML that settings need; tables and dates are refused. The result is an object.

A line ends with a line feed. A carriage return before it is dropped beforehand, as is a byte
order mark in front of the file, so that only line feeds are left to be read.
-/

namespace TexFigure.Toml

open Json (Reader)

/-! ## Blanks and comments -/

/-- The blanks of a line. -/
def isSpace (c : Char) : Bool := c == ' ' || c == '\t'

/-- What follows the blanks at the front of a text. -/
def skipSpace (text : Text) : Text := text.dropWhile isSpace

/-- Whether a character may stand in a comment or a string. -/
def isPrintable (c : Char) : Bool := c == '\t' || (0x20 ≤ c.toNat && c.toNat != 0x7F)

/-- What follows blanks and a comment; the line ends there. -/
def skipComment (text : Text) : Text :=
  match skipSpace text with
  | '#' :: rest => rest.dropWhile isPrintable
  | rest => rest

/-- What follows the end of a line, or nothing where the line goes on. The end of the text ends
a line too. -/
def endLine? (text : Text) : Option Text :=
  match skipComment text with
  | [] => some []
  | '\n' :: rest => some rest
  | _ => none

/-- What follows the blanks, comments and ends of lines at the front of a text; `fuel` bounds the
number of lines. -/
def skipLines : (fuel : Nat) → Text → Text
  | 0, text => text
  | fuel + 1, text =>
    match endLine? text with
    | some [] => []
    | some rest => skipLines fuel rest
    | none => skipSpace text

/-! ## Strings -/

/-- The character of a code that hexadecimal digits give. -/
def codeChar? (digits : Text) : Option Char := do
  let values ← digits.mapM Json.hexDigit?
  let code := values.foldl (fun n digit => 16 * n + digit) 0
  if code < 0xD800 ∨ (0xE000 ≤ code ∧ code < 0x110000) then some (Char.ofNat code) else none

/-- The character of a code of a fixed number of digits at the front of a text. -/
def codeInFront? (size : Nat) (text : Text) : Option Char :=
  let digits := text.take size
  if digits.length = size then codeChar? digits else none

/-- The character that the text behind a backslash stands for, and how many characters of the
text belong to it. -/
def escape? : Text → Option (Char × Nat)
  | [] => none
  | 'u' :: rest => (codeInFront? 4 rest).map (·, 5)
  | 'U' :: rest => (codeInFront? 8 rest).map (·, 9)
  | '/' :: _ => none
  | c :: _ => (Json.escaped? c).map (·, 1)

/-- Put a character in front of the string that a reader found. -/
def consTo (c : Char) (found : Option (Text × Text)) : Option (Text × Text) :=
  found.map fun (content, rest) => (c :: content, rest)

/-- The rest of a string in double quotes, and what follows it. The number counts the characters
of an escape that are still to be passed over. -/
def readQuoted? : Nat → Reader Text
  | _, [] => none
  | skip + 1, _ :: rest => readQuoted? skip rest
  | 0, '"' :: rest => some ([], rest)
  | 0, '\\' :: rest => do
    let (c, taken) ← escape? rest
    consTo c (readQuoted? taken rest)
  | 0, c :: rest => if isPrintable c then consTo c (readQuoted? 0 rest) else none

/-- The rest of a string in single quotes, which knows no escapes, and what follows it. -/
def readLiteral? : Reader Text
  | [] => none
  | '\'' :: rest => some ([], rest)
  | c :: rest => if isPrintable c then consTo c (readLiteral? rest) else none

/-! ## Strings over several lines -/

/-- Read the end of a string in three quotes. Up to two more of them may stand in front of the
closing ones, and belong to the string. -/
def readClosing? (mark : Char) : Reader Text := fun text =>
  let marks := (text.takeWhile (· == mark)).length
  if marks < 3 then none
  else
    let inner := min (marks - 3) 2
    some (List.replicate inner mark, text.drop (inner + 3))

/-- How many characters a backslash at the end of a line passes over: all blanks and ends of
lines up to the next character of the string. -/
def joinedLines? (text : Text) : Option Nat :=
  if (skipSpace text).head? = some '\n' then
    some (text.takeWhile fun c => isSpace c || c == '\n').length
  else none

/-- The rest of a string in three double quotes, and what follows it. The number counts the
characters of an escape that are still to be passed over. -/
def readLongQuoted? : Nat → Reader Text
  | _, [] => none
  | skip + 1, _ :: rest => readLongQuoted? skip rest
  | 0, '\\' :: rest =>
    match joinedLines? rest with
    | some passed => readLongQuoted? passed rest
    | none => do
      let (c, taken) ← escape? rest
      consTo c (readLongQuoted? taken rest)
  | 0, c :: rest =>
    (readClosing? '"' (c :: rest)).or
      (if isPrintable c || c == '\n' then consTo c (readLongQuoted? 0 rest) else none)

/-- The rest of a string in three single quotes, and what follows it. -/
def readLongLiteral? : Reader Text
  | [] => none
  | c :: rest =>
    (readClosing? '\'' (c :: rest)).or
      (if isPrintable c || c == '\n' then consTo c (readLongLiteral? rest) else none)

/-- What follows the end of a line at the front of a text. -/
def dropLineEnd : Text → Text
  | '\n' :: rest => rest
  | text => text

/-- A string. The end of a line right behind three opening quotes does not belong to it. -/
def readString? : Reader Text
  | '"' :: '"' :: '"' :: rest => readLongQuoted? 0 (dropLineEnd rest)
  | '\'' :: '\'' :: '\'' :: rest => readLongLiteral? (dropLineEnd rest)
  | '"' :: rest => readQuoted? 0 rest
  | '\'' :: rest => readLiteral? rest
  | _ => none

/-! ## Numbers -/

/-- Digits without the underscores that part them; each stands between two digits. -/
def plainDigits? (isDigit : Char → Bool) (text : Text) : Option Text :=
  let groups := Text.splitWhere (· == '_') text
  if groups.all fun group => !group.isEmpty && group.all isDigit then some groups.flatten
  else none

/-- The digits of a decimal number, without zeros in front. -/
def decimalDigits? (text : Text) : Option Text := do
  let digits ← plainDigits? Char.isDigit text
  if digits.length > 1 ∧ digits.head? = some '0' then none else some digits

/-- Bases other than ten, by their mark. -/
def bases : List (Char × Nat) := [('x', 16), ('o', 8), ('b', 2)]

/-- A whole number without a sign in a base other than ten. -/
def readBased? : Text → Option Nat
  | '0' :: mark :: body => do
    let base ← bases.lookup mark
    let isDigit := fun c => (Json.hexDigit? c).any (· < base)
    let values ← (← plainDigits? isDigit body).mapM Json.hexDigit?
    return values.foldl (fun n digit => base * n + digit) 0
  | _ => none

/-- A whole number of 64 bits. -/
def readInteger? (text : Text) : Option Json := do
  let (negative, body) := Decimal.readSign text
  let size ← (readBased? text).orElse fun _ => (decimalDigits? body).map Decimal.ofDigits
  if size < Nat.pow 2 63 ∨ (negative ∧ size = Nat.pow 2 63) then
    return .int (if negative then -(size : Int) else size)
  else none

/-- A text up to the first character with a property, and from there on. -/
def cutWhere (p : Char → Bool) (text : Text) : Text × Text :=
  (text.takeWhile (!p ·), text.dropWhile (!p ·))

/-- The digits behind a mark; none where the mark is missing. -/
def digitsBehind? (mark : Text) : Option Text :=
  match mark with
  | [] => some []
  | _ :: digits => plainDigits? Char.isDigit digits

/-- The exponent behind its mark. -/
def exponentBehind? (mark : Text) : Option Int :=
  match mark with
  | [] => some 0
  | _ :: body => do
    let (negative, digits) := Decimal.readSign body
    let size : Int := Decimal.ofDigits (← plainDigits? Char.isDigit digits)
    return if negative then -size else size

/-- A double with a fraction or an exponent, or a word for one that is none; numbers above the
largest double are refused. -/
def readFloat? (text : Text) : Option Json := do
  let (negative, body) := Decimal.readSign text
  if body = "inf" then return .float (Decimal.withSign negative (1.0 / 0.0))
  else if body = "nan" then return .float (Decimal.withSign negative (0.0 / 0.0))
  else
    let (mantissa, power) := cutWhere (fun c => c == 'e' || c == 'E') body
    let (whole, point) := cutWhere (· == '.') mantissa
    let numeral : Decimal.Numeral :=
      { negative
        whole := ← decimalDigits? whole
        fraction := ← digitsBehind? point
        exponent := ← exponentBehind? power }
    let value := numeral.toFloat
    if (point.isEmpty ∧ power.isEmpty) ∨ (value.isInf ∧ negative = false) then none
    else return .float value

/-- A value without quotes or brackets. -/
def readWord? (word : Text) : Option Json :=
  if word = "true" then some (.bool true)
  else if word = "false" then some (.bool false)
  else (readInteger? word).orElse fun _ => readFloat? word

/-- Whether a character belongs to a word. -/
def isWordChar (c : Char) : Bool :=
  c.isAlphanum || c == '_' || c == '-' || c == '+' || c == '.'

/-! ## Values and lines -/

/-- The items of a list behind its bracket; `fuel` bounds their number. A comma may follow the
last one. -/
def readItems (item : Reader Json) : (fuel : Nat) → Reader (List Json)
  | 0, _ => none
  | fuel + 1, text =>
    match skipLines text.length text with
    | ']' :: rest => some ([], rest)
    | start => do
      let (value, rest) ← item start
      match skipLines rest.length rest with
      | ',' :: rest =>
        let (values, rest) ← readItems item fuel rest
        return (value :: values, rest)
      | ']' :: rest => return ([value], rest)
      | _ => none

/-- Whether a character opens a string. -/
def isQuote (c : Char) : Bool := c == '"' || c == '\''

/-- A value, with lists nested at most `depth` deep. -/
def readValue : (depth : Nat) → Reader Json
  | depth, text =>
    match text with
    | '[' :: rest =>
      match depth with
      | 0 => none
      | depth + 1 => (readItems (readValue depth) rest.length rest).map
          fun (items, rest) => (.arr items, rest)
    | text =>
      if text.head?.any isQuote then
        (readString? text).map fun (content, rest) => (.str content, rest)
      else (readWord? (text.takeWhile isWordChar)).map (·, text.dropWhile isWordChar)

/-- Whether a character belongs to a key without quotes. -/
def isKeyChar (c : Char) : Bool := c.isAlphanum || c == '_' || c == '-'

/-- A key. -/
def readKey : Reader Text
  | '"' :: rest => readQuoted? 0 rest
  | '\'' :: rest => readLiteral? rest
  | text =>
    if (text.takeWhile isKeyChar).isEmpty then none
    else some (text.takeWhile isKeyChar, text.dropWhile isKeyChar)

/-- A key and its value, up to the end of their line. -/
def readField (text : Text) : Option ((Text × Json) × Text) := do
  let (key, rest) ← readKey text
  match skipSpace rest with
  | '=' :: rest =>
    let (value, rest) ← readValue 80 (skipSpace rest)
    return ((key, value), ← endLine? rest)
  | _ => none

/-- The fields up to the end of a text; `fuel` bounds their number. -/
def readFields : (fuel : Nat) → Text → Option (List (Text × Json))
  | 0, _ => none
  | fuel + 1, text =>
    match skipLines text.length text with
    | [] => some []
    | start => do
      let (field, rest) ← readField start
      return field :: (← readFields fuel rest)

/-- A text with bare line feeds, and without a byte order mark. -/
def unify (text : Text) : Text :=
  let lines := Text.replace ['\r', '\n'] ['\n'] text
  if lines.head? = some '\uFEFF' then lines.tail else lines

/-- A file of settings. -/
def readDocument? (text : Text) : Option Json := do
  let fields ← readFields (text.length + 1) (unify text)
  if (fields.map (·.1)).Nodup then return .obj fields else none

end TexFigure.Toml
