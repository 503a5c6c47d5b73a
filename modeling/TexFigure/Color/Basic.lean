import TexFigure.Arithmetic.Double
import TexFigure.Decimal.Notation
/-!
# Colours

A colour has three channels between 0 and 255, which keep their fractions so that mixtures stay
exact, and an opacity between 0 and 1. Channels are rounded only where a colour is written.
-/

namespace TexFigure

/-- A colour with its opacity. -/
structure Color where
  red : Float
  green : Float
  blue : Float
  alpha : Float

namespace Color

/-- A colour without transparency. -/
def solid (red green blue : Float) : Color := ⟨red, green, blue, 1.0⟩

/-- Black stands for a colour that is not known. -/
def black : Color := solid 0.0 0.0 0.0

/-- White, which a colour is mixed with when no other is named. -/
def white : Color := solid 255.0 255.0 255.0

/-- A share of one number and the rest of another. -/
def blend (share a b : Float) : Float := a * share + b * (1.0 - share)

/-- A share, between 0 and 1, of one colour and the rest of another, channel by channel. -/
def mix (color other : Color) (share : Float) : Color :=
  let share := Double.clamp 0.0 1.0 share
  ⟨blend share color.red other.red, blend share color.green other.green,
    blend share color.blue other.blue, blend share color.alpha other.alpha⟩

/-- A channel rounded to a whole number from 0 to 255. -/
def channel (x : Float) : Nat := (Double.clamp 0.0 255.0 x.round).toUInt8.toNat

/-- A number below 256 in two hexadecimal digits. -/
def hexPair (n : Nat) : Text := [Nat.digitChar (n / 16), Nat.digitChar (n % 16)]

/-- The hexadecimal code of a colour, without its opacity. -/
def hex (color : Color) : Text :=
  '#' :: hexPair (channel color.red) ++ hexPair (channel color.green)
    ++ hexPair (channel color.blue)

/-- The three channels with commas between them. -/
def channels (color : Color) : Text :=
  Text.join ", " <| [color.red, color.green, color.blue].map fun x => Decimal.nat (channel x)

/-- The functional form of a colour, with its opacity to three places unless it is solid. -/
def css (color : Color) : Text :=
  if 1.0 ≤ color.alpha then "rgb(" ++ color.channels ++ ")"
  else
    let alpha := (Double.clamp 0.0 1.0 color.alpha * 1000.0).round / 1000.0
    "rgba(" ++ color.channels ++ ", " ++ Decimal.plain alpha ++ ")"

end Color

end TexFigure
