import TexFigure.Formula.Classify
import TexFigure.Source.Split
import TexFigure.Text.Word
/-!
# Reading a formula

One reader for each construct. A reader looks for its command anywhere in the fragment, reads the
arguments that directly follow, and takes what is left for the body. `readAs?` gives nothing when
a fragment does not fit; `read` then answers with the template of the tag.
-/

namespace TexFigure.Formula

open Source

/-- The scripts of an operator: what stands below and above it. -/
structure Scripts where
  lower : Text
  upper : Text

/-- Read at most `rounds` scripts and `\limits` markers behind an operator, in any order; a later
script replaces an earlier one. A script without an argument ends the fragment. -/
def readScripts : (rounds : Nat) → Scripts → Text → Scripts × Text
  | 0, scripts, text => (scripts, text)
  | rounds + 1, scripts, text =>
    match "\\limits".toList.isPrefixOf? (Text.skipBlanks text), Text.skipBlanks text with
    | some rest, _ => readScripts rounds scripts rest
    | none, '_' :: rest =>
      match argument? rest with
      | some (lower, after) => readScripts rounds { scripts with lower } after
      | none => (scripts, [])
    | none, '^' :: rest =>
      match argument? rest with
      | some (upper, after) => readScripts rounds { scripts with upper } after
      | none => (scripts, [])
    | none, _ => (scripts, text)

/-- Find an operator and read its scripts; the rest of the fragment comes back trimmed. -/
def readOperator? (command text : Text) : Option (Scripts × Text) :=
  (afterCommand? command text).map fun after =>
    let (scripts, rest) := readScripts 4 ⟨[], []⟩ after
    (scripts, Text.trim rest)

/-! ## Fractions and roots -/

/-- A fraction with two arguments. -/
def readFraction? (text : Text) : Option Formula := do
  let after ← afterCommand? "\\frac" text
  let (numerator, after) ← argument? after
  let (denominator, _) ← argument? after
  return fraction numerator denominator

/-- A root, with an index in brackets or without. -/
def readRoot? (text : Text) : Option Formula := do
  let after ← afterCommand? "\\sqrt" text
  let (index, after) := (brackets? after).getD ([], after)
  let (radicand, _) ← argument? after
  return root (Text.trim index) radicand

/-! ## Scripts -/

/-- Cut at the first marker outside brace groups; a backslash is taken together with the
character behind it. The second part starts with the marker. -/
def cutAtScript? (marker : Text) (depth : Nat) : Text → Option (Text × Text)
  | [] => none
  | ['\\'] => none
  | '\\' :: c :: rest =>
    (cutAtScript? marker depth rest).map fun (base, script) => ('\\' :: c :: base, script)
  | c :: rest =>
    if depth = 0 ∧ isDelimiter c = false ∧ marker.isPrefixOf (c :: rest) then some ([], c :: rest)
    else
      (cutAtScript? marker (braceDepth depth false c) rest).map
        fun (base, script) => (c :: base, script)

/-- The base and the script at the first marker outside brace groups. -/
def readScript? (marker text : Text) : Option (Text × Text) := do
  let (base, script) ← cutAtScript? marker 0 text
  let (content, _) ← nextGroup? false (script.drop 1)
  return (stripBraces base, content)

/-! ## Integrals -/

/-- A thin space command, `\,`, `\;`, `\:` or `\!`, between blanks. -/
def spacing? (text : Text) : Option Text :=
  match Text.trimStart text with
  | '\\' :: c :: rest =>
    if [',', ';', ':', '!'].contains c then some (Text.trimStart rest) else none
  | _ => none

/-- The variable of a differential that ends the text: letters, or a backslash and letters. -/
def differentialVariable? : Text → Option Text
  | 'd' :: rest =>
    let (mark, name) := match rest with
      | '\\' :: name => (['\\'], name)
      | name => ([], name)
    if beginsWithLetter name && Text.isBlankText (name.dropWhile isLetter) then
      some (mark ++ name.takeWhile isLetter)
    else none
  | _ => none

/-- A differential at the front of a text, behind spacing or blanks. -/
def differential? (text : Text) : Option Text :=
  differentialVariable? ((spacing? text).getD (Text.trimStart text))

/-- The token of an area element that ends the text. -/
def areaToken? : Text → Option Text
  | 'd' :: rest =>
    let token := rest.takeWhile (!isBlank ·)
    if token.isEmpty || !Text.isBlankText (rest.dropWhile (!isBlank ·)) then none
    else some token
  | _ => none

/-- An area element at the front of a text, behind spacing or at least one blank. -/
def areaElement? (text : Text) : Option Text :=
  match spacing? text with
  | some rest => areaToken? rest
  | none => if text.head?.any isBlank then areaToken? (Text.trimStart text) else none

/-- An integral; the differential closes the fragment, and its variable is `x` without one. -/
def readIntegral? (text : Text) : Option Formula :=
  (readOperator? "\\int" text).map fun (scripts, body) =>
    match Text.splitAtFirst differential? body with
    | some (integrand, var) => integral scripts.lower scripts.upper (Text.trim integrand) var
    | none => integral scripts.lower scripts.upper body "x"

/-- Cut a body at its area element, which may also be the whole of it. -/
def cutAtArea? (body : Text) : Option (Text × Text) :=
  match areaToken? body with
  | some area => some ([], area)
  | none => Text.splitAtFirst areaElement? body

/-- A double integral; the area element closes the fragment, and is `A` without one. -/
def readDoubleIntegral? (text : Text) : Option Formula :=
  (readOperator? "\\iint" text).map fun (scripts, body) =>
    match cutAtArea? body with
    | some (integrand, area) => doubleIntegral scripts.lower (Text.trim integrand) area
    | none => doubleIntegral scripts.lower body "A"

/-! ## Sums, products and limits -/

/-- A sum or product; an equals sign below it ends the name of the index. -/
def readBigOperator? (operator : Operator) (text : Text) : Option Formula :=
  (readOperator? operator.command text).map fun (scripts, expression) =>
    let (var, lower) := (Text.cut? scripts.lower ['=']).getD ([], scripts.lower)
    bigOperator operator (Text.trim var) (Text.trim lower) scripts.upper expression

/-- An arrow command at the front of a text, as a whole word. -/
def arrow? (text : Text) : Option Text := do
  let (_, rest) ← oneOf? ["\\to", "\\rightarrow", "\\longrightarrow"] text
  if rest.head?.any isWordChar then none else some rest

/-- A limit; an arrow below it ends the name of the variable. -/
def readLimit? (text : Text) : Option Formula :=
  (readOperator? "\\lim" text).map fun (scripts, expression) =>
    let (var, approaches) := (Text.splitAtFirst arrow? scripts.lower).getD (scripts.lower, [])
    limit (Text.trim var) (Text.trim approaches) expression

/-! ## Derivatives -/

/-- Half of a derivative: a mark behind an opening brace, and a text without braces up to the
closing one. -/
def derivativePart? (mark text : Text) : Option (Text × Text) :=
  match text with
  | '{' :: rest =>
    let isBrace (c : Char) : Bool := c == '{' || c == '}'
    match wordBehindBlanks? mark rest with
    | some name =>
      match name.dropWhile (!isBrace ·) with
      | '}' :: after => some (Text.trim (name.takeWhile (!isBrace ·)), after)
      | _ => none
    | none => none
  | _ => none

/-- A derivative written as the first fraction of the fragment. The function stands in the
numerator, or behind the fraction when the numerator holds the mark alone. -/
def readDerivative? (mark : Text) (isPartial : Bool) (text : Text) : Option Formula := do
  let (_, numerator) ← Text.cut? text "\\frac"
  let (func, denominator) ← derivativePart? mark numerator
  let (var, trailing) ← derivativePart? mark denominator
  return derivative (if func.isEmpty then Text.trim trailing else func) var isPartial

/-! ## Matrices -/

/-- The text of a matrix entry; an empty group is an empty entry. -/
def readCell (cell : Text) : Text :=
  let cell := Text.trim cell
  if cell = ['{', '}'] then [] else cell

/-- Drop the last of several rows when it is blank. -/
def dropBlankLast (rows : List Text) : List Text :=
  if rows.length > 1 ∧ rows.getLast?.any Text.isBlankText then rows.dropLast else rows

/-- Lengthen a row with empty entries. -/
def padRow (width : Nat) (row : List Text) : List Text :=
  row ++ List.replicate (width - row.length) []

/-- The matrix with a given body. -/
def readBody (delimiter : Delimiter) (body : Text) : Formula :=
  if Text.isBlankText body then matrix 0 0 [] delimiter
  else
    let rows := (dropBlankLast (splitOutsideBraces "\\\\" body)).map fun row =>
      (splitOutsideBraces "&" row).map readCell
    let width := (rows.map List.length).foldl max 0
    matrix rows.length width (rows.map (padRow width)) delimiter

/-- The first matrix environment; its body goes on to the end of the text when the environment
is not closed. -/
def readMatrix? (text : Text) : Option Formula := do
  let (_, delimiter, after) ← Text.splitAtFirst matrixBegin? text
  let ending : Text := "\\end" ++ Text.braced delimiter.environment
  let body := ((Text.cut? after ending).map (·.1)).getD after
  return readBody delimiter body

/-! ## Any construct -/

/-- Read a fragment as the construct of a tag. -/
def readAs? : Tag → Text → Option Formula
  | .matrix, text => readMatrix? text
  | .partialDerivative, text => readDerivative? "\\partial" true text
  | .derivative, text => readDerivative? "d" false text
  | .fraction, text => readFraction? text
  | .doubleIntegral, text => readDoubleIntegral? text
  | .integral, text => readIntegral? text
  | .sum, text => readBigOperator? .sum text
  | .product, text => readBigOperator? .product text
  | .limit, text => readLimit? text
  | .nthRoot, text | .squareRoot, text => readRoot? text
  | .superscript, text =>
    (readScript? "^\x7b" text).map fun (base, exponent) => superscript base exponent
  | .subscript, text =>
    (readScript? "_\x7b" text).map fun (base, script) => subscript base script
  | .generic, text => some (generic text)

/-- Read a fragment as the construct of a tag; the template of the tag stands in for a fragment
that does not fit. -/
def read (tag : Tag) (text : Text) : Formula := (readAs? tag text).getD (template tag)

/-- Classify a fragment, then read it. -/
def readClassified (text : Text) : Formula := read (classify text) text

end TexFigure.Formula
