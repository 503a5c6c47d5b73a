import TexFigure.Table.Rows
/-!
# Coordinates

Rows can be written as a list of coordinates, `(1,2) (3,4)`. Only the first two cells of a row
and the first two components of a coordinate count, and both have to be there.
-/

namespace TexFigure.Table

/-- The contents of the innermost parentheses of a text, in order. The first argument holds what
was read behind the last opening parenthesis, in reverse. -/
def innermostFrom : Option Text → Text → List Text
  | _, [] => []
  | current, c :: rest =>
    if c = '(' then innermostFrom (some []) rest
    else if c = ')' then
      match current with
      | some content => content.reverse :: innermostFrom none rest
      | none => innermostFrom none rest
    else innermostFrom (current.map (c :: ·)) rest

/-- The contents of the innermost parentheses of a text. -/
def innermost (text : Text) : List Text := innermostFrom none text

/-- The row of one coordinate. -/
def coordinateRow? (content : Text) : Option Text :=
  match (Text.splitOn ',' content).map Text.trim with
  | x :: y :: _ => if x.isEmpty || y.isEmpty then none else some (x ++ ',' :: y)
  | _ => none

/-- Read coordinates as rows. -/
def parseCoordinates (body : Text) : Text :=
  Text.join ['\n'] ((innermost body).filterMap coordinateRow?)

/-- The coordinate of one row. -/
def rowCoordinate? (line : Text) : Option Text :=
  match splitRow line with
  | x :: y :: _ => if x.isEmpty || y.isEmpty then none else some ('(' :: x ++ ',' :: y ++ [')'])
  | _ => none

/-- Write rows as coordinates, without their header. -/
def formatCoordinates (rows : Text) (hasHeader : Bool) : Text :=
  let lines := (rowLines rows).drop (if hasHeader then 1 else 0)
  Text.join [' '] (lines.filterMap rowCoordinate?)

end TexFigure.Table
