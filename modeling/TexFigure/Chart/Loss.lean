import TexFigure.Text.Basic
/-!
# Losses

A chart keeps a fixed set of options and commands. What is read beyond it is dropped, and a loss
records what was dropped and where.
-/

namespace TexFigure.Chart

namespace Loss

/-- What kind of thing was dropped. -/
inductive Kind
  /-- An option that is not kept, or a value that does not fit one. -/
  | unknownOption
  /-- A command that is no series. -/
  | unknownCommand
  /-- The name of a table that is defined nowhere. -/
  | unresolvedTable
  /-- A series that plots nothing. -/
  | emptyPayload
  deriving DecidableEq, Repr

/-- Where something was dropped; series are counted from one. -/
inductive Place
  | axis
  | series (number : Nat)
  deriving DecidableEq, Repr

/-- The name of a place. -/
def Place.name : Place → Text
  | axis => "axis"
  | series number => "series " ++ Nat.toDigits 10 number

end Loss

/-- Something that was dropped. -/
structure Loss where
  kind : Loss.Kind
  name : Text
  place : Loss.Place
  deriving DecidableEq, Repr

end TexFigure.Chart
