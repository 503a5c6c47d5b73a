import TexFigure.Source.Group
/-!
# Splitting outside groups

Two splitters. `splitTopLevel` cuts at a character that stands outside all brace and bracket
groups, and does not ask whether that character is escaped. `splitOutsideBraces` cuts at a phrase
that stands outside all brace groups and is not escaped, and takes a backslash together with the
character behind it.

Option lists are built on the first: `splitOptions`, `keyValue`, and `optionValue`, which writes a
value so that the other two read it back.
-/

namespace TexFigure.Source

/-- The depth in braces and brackets behind a character; the two kinds are not told apart. -/
def groupDepth (depth : Nat) (escaped : Bool) (c : Char) : Nat :=
  if escaped then depth
  else if c = '{' ∨ c = '[' then depth + 1
  else if c = '}' ∨ c = ']' then depth - 1
  else depth

/-- Whether a character opens or closes a group. -/
def isDelimiter (c : Char) : Bool := c == '{' || c == '}' || c == '[' || c == ']'

/-- Cut at a separator at depth zero. -/
def splitAtDepth (separator : Char) (depth : Nat) (escaped : Bool) : Text → List Text
  | [] => [[]]
  | c :: rest =>
    if depth = 0 ∧ c = separator ∧ isDelimiter c = false then
      [] :: splitAtDepth separator 0 (escapes escaped c) rest
    else
      Text.consToFirst c
        (splitAtDepth separator (groupDepth depth escaped c) (escapes escaped c) rest)

/-- Cut at every separator outside braces and brackets; the parts are not trimmed. -/
def splitTopLevel (separator : Char) (text : Text) : List Text :=
  splitAtDepth separator 0 false text

/-- The state of a splitter at phrases: `skip` characters of a phrase are still to be passed
over, `depth` brace groups are open, and `escaped` tells whether the next character stands behind
an odd run of backslashes. -/
def splitAtPhrase (phrase : Text) (skip depth : Nat) (escaped : Bool) : Text → List Text
  | [] => [[]]
  | c :: rest =>
    match skip with
    | more + 1 => splitAtPhrase phrase more depth (escapes escaped c) rest
    | 0 =>
      if depth = 0 ∧ escaped = false ∧ phrase.isPrefixOf (c :: rest) then
        [] :: splitAtPhrase phrase (phrase.length - 1) 0 (escapes escaped c) rest
      else if c = '\\' then
        match rest with
        | [] => [['\\']]
        | next :: rest' =>
          Text.consToFirst c <| Text.consToFirst next <|
            splitAtPhrase phrase 0 depth (escapes (escapes escaped c) next) rest'
      else
        Text.consToFirst c
          (splitAtPhrase phrase 0 (braceDepth depth false c) false rest)

/-- Cut at every unescaped occurrence of a phrase outside brace groups; the parts are not
trimmed. -/
def splitOutsideBraces (phrase text : Text) : List Text :=
  splitAtPhrase phrase 0 0 false text

/-- The options of a comma separated list, trimmed, without the empty ones. -/
def splitOptions (text : Text) : List Text :=
  ((splitTopLevel ',' text).map Text.trim).filter (!·.isEmpty)

/-- An option's key and its value without one pair of enclosing braces. An option without an
equals sign is a flag with an empty value. -/
def keyValue (option : Text) : Text × Text :=
  match Text.cut? option ['='] with
  | some (key, value) => (Text.trim key, stripBraces value)
  | none => (Text.trim option, [])

/-- Write the value of an option: a value that holds a comma or an equals sign, or that is itself
one brace group, gets a pair of braces. -/
def optionValue (value : Text) : Text :=
  let value := Text.trim value
  if ',' ∈ value ∨ '=' ∈ value ∨ isFullyBraced value then Text.braced value
  else value

end TexFigure.Source
