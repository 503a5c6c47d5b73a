import TexFigure.Source.Command
/-!
# Places in a source text

The same readers, addressed by byte offset in the UTF-8 form of a whole text. A place is the
suffix that begins at the first character boundary at or behind the offset, together with what
the escape rule needs to know of the characters before it.
-/

namespace TexFigure.Source

/-- A place in a text: the suffix that begins there, its byte offset, and whether its first
character is escaped. -/
structure Place where
  rest : Text
  offset : Nat
  escaped : Bool

namespace Place

/-- Move on to the first character boundary at or behind a byte offset. -/
def advance (goal : Nat) : Text → Nat → Bool → Place
  | [], offset, escaped => ⟨[], offset, escaped⟩
  | c :: rest, offset, escaped =>
    if goal ≤ offset then ⟨c :: rest, offset, escaped⟩
    else advance goal rest (offset + c.utf8Size) (escapes escaped c)

/-- The place at a byte offset; behind the end of the text it is the end. -/
def ofOffset (text : Text) (offset : Nat) : Place := advance offset text 0 false

end Place

/-- The byte offset at which a suffix of a text begins. -/
def offsetOf (text rest : Text) : Nat := Text.byteSize text - Text.byteSize rest

/-- The offset of the last byte. -/
def lastOffset (text : Text) : Nat := Text.byteSize text - 1

/-- The offset of the brace that closes the first group opened at or behind an offset, or of the
last byte when there is none. -/
def matchingBrace (text : Text) (offset : Nat) : Nat :=
  let place := Place.ofOffset text offset
  match cutAtBrace 0 place.escaped place.rest with
  | some (_, after) => offsetOf text after - 1
  | none => lastOffset text

/-- The offset of the bracket that closes the first brackets opened at or behind an offset, or of
the last byte when there is none. -/
def matchingBracket (text : Text) (offset : Nat) : Nat :=
  let place := Place.ofOffset text offset
  match cutAtBracket 0 0 place.escaped place.rest with
  | some (_, after) => offsetOf text after - 1
  | none => lastOffset text

/-- The offset of the first character at or behind an offset that is no token separator. An
offset inside a character stays where it is. -/
def skipBlanksAt (text : Text) (offset : Nat) : Nat :=
  let place := Place.ofOffset text offset
  let clamped := min offset (Text.byteSize text)
  if clamped < place.offset then clamped else offsetOf text (Text.skipBlanks place.rest)

/-- Give the answer of a reader as its content and the offset behind it. -/
def withOffset (text : Text) (answer : Option (Text × Text)) : Option (Text × Nat) :=
  answer.map fun (content, after) => (content, offsetOf text after)

/-- The first brace group at or behind an offset. -/
def nextGroupAt (text : Text) (offset : Nat) : Option (Text × Nat) :=
  let place := Place.ofOffset text offset
  withOffset text (nextGroup? place.escaped place.rest)

/-- The brace group that stands at an offset, behind blanks at most. -/
def groupAt (text : Text) (offset : Nat) : Option (Text × Nat) :=
  let place := Place.ofOffset text offset
  if offset < place.offset then none
  else withOffset text (leadingGroup? place.escaped place.rest)

/-- The bracket group that stands at an offset, behind blanks at most. -/
def bracketsAt (text : Text) (offset : Nat) : Option (Text × Nat) :=
  let place := Place.ofOffset text offset
  if offset < place.offset then none
  else withOffset text (leadingBrackets? place.escaped place.rest)

/-- The offset of the first whole occurrence of a command at or behind an offset. -/
def commandAt (name text : Text) (offset : Nat) : Option Nat :=
  if Text.byteSize text < offset then none
  else
    let place := Place.ofOffset text offset
    (cutAtCommand name 0 place.rest).map fun (before, _) =>
      place.offset + Text.byteSize before

end TexFigure.Source
