import TexFigure.Decimal.Notation
import TexFigure.Shape.Basic
/-!
# Drawing commands

A picture is a list of commands between its opening and its closing line. A command draws a path
or places a node with a text; its options stand in brackets, which are left out when there are
none.
-/

namespace TexFigure.Picture

open Decimal (brief)

/-- A point as it is written in a picture. -/
def coordinate (point : Point Float) : Text :=
  "(" ++ brief point.x ++ "," ++ brief point.y ++ ")"

/-- A command of a picture. -/
inductive Command
  | draw (options : List Text) (path : Text)
  | node (options : List Text) (place : Point Float) (content : Text)

namespace Command

/-- The options of a command in brackets. -/
def writeOptions (options : List Text) : Text :=
  if options.isEmpty then [] else Text.bracketed (Text.join ", " options)

/-- Write a command as a line. -/
def write : Command → Text
  | draw options path => "\\draw" ++ writeOptions options ++ " " ++ path ++ ";\n"
  | node options place content =>
    "\\node" ++ writeOptions options ++ " at " ++ coordinate place ++ " "
      ++ Text.braced content ++ ";\n"

theorem write_draw (options : List Text) (path : Text) :
    (draw options path).write = "\\draw" ++ writeOptions options ++ " " ++ path ++ ";\n" := rfl

theorem write_node (options : List Text) (place : Point Float) (content : Text) :
    (node options place content).write =
      "\\node" ++ writeOptions options ++ " at " ++ coordinate place ++ " "
        ++ Text.braced content ++ ";\n" := rfl

end Command

/-- A picture of commands. -/
def writePicture (commands : List Command) : Text :=
  "\\begin\x7btikzpicture\x7d\n" ++ commands.flatMap Command.write ++ "\\end\x7btikzpicture\x7d"

end TexFigure.Picture
