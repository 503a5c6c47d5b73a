import TexFigure.Text.Basic
/-!
# XML trees

A drawing is a tree of elements, and only this module writes tags. Attribute values and texts are
escaped where they are written, whatever they hold, so that every written tree is well formed.
-/

namespace TexFigure

/-- A part of a drawing. -/
inductive Xml
  /-- An element without content, closed where it opens. -/
  | leaf (name : Text) (attributes : List (Text × Text))
  /-- An element with a start tag and an end tag. -/
  | element (name : Text) (attributes : List (Text × Text)) (children : List Xml)
  | text (content : Text)

namespace Xml

/-- A character of a text or of an attribute value. -/
def escapeChar (c : Char) : Text :=
  if c = '&' then "&amp;"
  else if c = '<' then "&lt;"
  else if c = '>' then "&gt;"
  else if c = '"' then "&quot;"
  else if c = '\'' then "&apos;"
  else [c]

/-- A text without characters that mean something to a reader of XML. -/
def escape (text : Text) : Text := text.flatMap escapeChar

/-- An attribute behind a blank. -/
def writeAttribute (pair : Text × Text) : Text :=
  ' ' :: pair.1 ++ "=\"" ++ escape pair.2 ++ "\""

/-- A tag up to its closing bracket. -/
def writeOpening (name : Text) (attributes : List (Text × Text)) : Text :=
  '<' :: name ++ attributes.flatMap writeAttribute

mutual

/-- Write a part of a drawing. -/
def write : Xml → Text
  | leaf name attributes => writeOpening name attributes ++ "/>"
  | element name attributes children =>
    writeOpening name attributes ++ '>' :: writeAll children ++ "</" ++ name ++ ">"
  | text content => escape content

/-- Write several parts, one after another. -/
def writeAll : List Xml → Text
  | [] => []
  | part :: parts => write part ++ writeAll parts

end

end Xml

end TexFigure
