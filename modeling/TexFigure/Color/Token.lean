import TexFigure.Color.Basic
import TexFigure.Decimal.Reader
/-!
# Colour tokens

A colour is written as a name of the palette, as a hexadecimal code, as a triple of channels, or
as a mixture: colours with percentages between them, folded from the left. A percentage that
ends a token has no second colour; it is either a share of white or an opacity.
-/

namespace TexFigure.Color

/-- The named colours. -/
def palette : List (Text × Nat × Nat × Nat) := [
  ("red", 255, 0, 0), ("green", 0, 255, 0), ("blue", 0, 0, 255), ("cyan", 0, 255, 255),
  ("magenta", 255, 0, 255), ("yellow", 255, 255, 0), ("black", 0, 0, 0),
  ("white", 255, 255, 255), ("gray", 128, 128, 128), ("grey", 128, 128, 128),
  ("darkgray", 64, 64, 64), ("darkgrey", 64, 64, 64), ("lightgray", 191, 191, 191),
  ("lightgrey", 191, 191, 191), ("brown", 191, 128, 64), ("lime", 191, 255, 0),
  ("olive", 128, 128, 0), ("orange", 255, 128, 0), ("pink", 255, 191, 191),
  ("purple", 191, 0, 64), ("teal", 0, 128, 128), ("violet", 128, 0, 128)]

/-- A colour of whole channels. -/
def ofChannels (red green blue : Nat) : Color :=
  solid (Float.ofNat red) (Float.ofNat green) (Float.ofNat blue)

/-- The value of a hexadecimal digit. -/
def hexValue? (c : Char) : Option Nat :=
  if c.isDigit then some (c.toNat - '0'.toNat)
  else if 'a' ≤ c ∧ c ≤ 'f' then some (c.toNat - 'a'.toNat + 10)
  else if 'A' ≤ c ∧ c ≤ 'F' then some (c.toNat - 'A'.toNat + 10)
  else none

/-- The colour of a code of three or six hexadecimal digits; each of three digits counts
twice. -/
def ofHex? (code : Text) : Option Color := do
  match ← code.mapM hexValue? with
  | [r, g, b] => return ofChannels (17 * r) (17 * g) (17 * b)
  | [r, r', g, g', b, b'] => return ofChannels (16 * r + r') (16 * g + g') (16 * b + b')
  | _ => none

/-- Read fixed words, with blanks allowed before each. -/
def afterWords? (words : List Text) (text : Text) : Option Text :=
  words.foldlM (fun rest word => word.isPrefixOf? (Text.trimStart rest)) text

/-- Read a channel behind blanks: digits, and perhaps a point and digits. -/
def readChannel? (text : Text) : Option (Float × Text) :=
  let start := Text.trimStart text
  let whole := start.takeWhile Char.isDigit
  let rest := start.dropWhile Char.isDigit
  let fraction := match rest with
    | '.' :: digits => digits.takeWhile Char.isDigit
    | _ => []
  if whole.isEmpty then none
  else
    let value := (Decimal.Numeral.mk false whole fraction 0).toFloat
    let after := if fraction.isEmpty then rest else rest.drop (fraction.length + 1)
    some (Double.clamp 0.0 255.0 value, after)

/-- The colour of a triple such as `rgb,255:red,10;green,20;blue,30`, which may stand in
braces. -/
def ofTriple? (token : Text) : Option Color := do
  let body := match token with
    | '{' :: rest => rest
    | text => text
  let (red, rest) ← readChannel? (← afterWords? ["rgb", ",", "255", ":", "red", ","] body)
  let (green, rest) ← readChannel? (← afterWords? [";", "green", ","] rest)
  let (blue, rest) ← readChannel? (← afterWords? [";", "blue", ","] rest)
  match Text.trimStart rest with
  | [] | ['}'] => return solid red green blue
  | _ => none

/-- The colour of a token that is no mixture. -/
def ofAtom? (token : Text) : Option Color :=
  let token := Text.trim token
  match palette.lookup token with
  | some (red, green, blue) => some (ofChannels red green blue)
  | none =>
    match token with
    | '#' :: code => ofHex? code
    | _ => ofTriple? token

/-- What a percentage at the end of a token means. -/
inductive Blend
  /-- The share of the colour in a mixture with white. -/
  | white
  /-- The opacity of the colour. -/
  | opacity
  deriving DecidableEq, Repr

/-- Apply a percentage that no colour follows. -/
def applyLast (blend : Blend) (color : Color) (share : Float) : Color :=
  match blend with
  | .white => color.mix white share
  | .opacity => { color with alpha := color.alpha * share }

/-- The share that a percentage stands for, cut to the range from 0 to 1. -/
def share? (percentage : Text) : Option Float := do
  let value ← Decimal.readFloat? percentage
  if value.isFinite then return Double.clamp 0.0 100.0 value / 100.0 else none

/-- Mix a colour with the rest of a token: percentages and colours in turn. -/
def mixParts? (blend : Blend) : Color → List Text → Option Color
  | color, [] => some color
  | color, [percentage] => (share? percentage).map (applyLast blend color)
  | color, percentage :: other :: rest => do
    let share ← share? percentage
    let other ← ofAtom? other
    mixParts? blend (color.mix other share) rest

/-- The colour of a mixture. -/
def ofMixture? (blend : Blend) (token : Text) : Option Color :=
  match (Text.splitOn '!' token).map Text.trim with
  | [] => none
  | first :: rest => (ofAtom? first).bind fun color => mixParts? blend color rest

/-- The colour of a token, if it has one. -/
def ofToken? (blend : Blend) (token : Text) : Option Color :=
  let token := Text.trim token
  match ofAtom? token with
  | some color => some color
  | none => if '!' ∈ token then ofMixture? blend token else none

/-- The colour of a token; black when it has none. -/
def ofToken (blend : Blend) (token : Text) : Color := (ofToken? blend token).getD black

/-- Whether a token has a colour. -/
def isToken (token : Text) : Bool := (ofToken? .white token).isSome

end TexFigure.Color
