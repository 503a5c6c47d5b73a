import TexFigure.Formula.Basic
import TexFigure.Source.Command
/-!
# Classifying a math fragment

A fragment is classified by a list of predicates: the first that holds decides, so the order
matters (a partial derivative is a fraction too). A fragment with both kinds of script is
generic, since each script asks that the other be absent.
-/

namespace TexFigure.Formula

open Source

/-- Read one of several phrases at the front of a text. -/
def oneOf? (phrases : List Text) (text : Text) : Option (Text × Text) :=
  phrases.findSome? fun phrase => (phrase.isPrefixOf? text).map (phrase, ·)

/-- The environment named by a `\begin` at the front of a text, if it is a matrix. -/
def matrixBegin? (text : Text) : Option (Delimiter × Text) :=
  Delimiter.all.findSome? fun delimiter =>
    (("\\begin" ++ Text.braced delimiter.environment).isPrefixOf? text).map (delimiter, ·)

/-- Read a fixed word behind blanks. -/
def wordBehindBlanks? (word text : Text) : Option Text :=
  word.isPrefixOf? (Text.trimStart text)

/-- Whether a letter, or a backslash and a letter, comes next. -/
def beginsWithName : Text → Bool
  | '\\' :: rest => beginsWithLetter rest
  | text => beginsWithLetter text

/-- Whether a text begins with a fraction whose numerator and denominator both start with `d`,
the denominator going on with a name. -/
def beginsWithDerivative (text : Text) : Bool :=
  let isBrace (c : Char) : Bool := c == '{' || c == '}'
  let found : Option Bool := do
    let numerator ← "\\frac\x7b".toList.isPrefixOf? text
    let rest ← wordBehindBlanks? "d" numerator
    let denominator ← "\x7d\x7b".toList.isPrefixOf? (rest.dropWhile (!isBrace ·))
    let var ← wordBehindBlanks? "d" denominator
    return beginsWithName (Text.trimStart var)
  found.getD false

/-- Whether some suffix of a text has a property. -/
def anySuffix (p : Text → Bool) : Text → Bool
  | [] => p []
  | c :: rest => p (c :: rest) || anySuffix p rest

/-- Whether a fragment shows the construct of a tag. -/
def shows (text : Text) : Tag → Bool
  | .matrix => anySuffix (fun rest => (matrixBegin? rest).isSome) text
  | .partialDerivative => Text.contains text "\\frac\x7b\\partial"
  | .derivative => anySuffix beginsWithDerivative text
  | .fraction => hasCommand "\\frac" text
  | .doubleIntegral => hasCommand "\\iint" text
  | .integral => hasCommand "\\int" text
  | .sum => hasCommand "\\sum" text
  | .product => hasCommand "\\prod" text
  | .limit => hasCommand "\\lim" text
  | .nthRoot => Text.contains text "\\sqrt["
  | .squareRoot => hasCommand "\\sqrt" text
  | .superscript => Text.contains text "^\x7b" && !Text.contains text "_\x7b"
  | .subscript => Text.contains text "_\x7b" && !Text.contains text "^\x7b"
  | .generic => false

/-- The tags whose construct a fragment shows, in the order of classification. -/
def matchingTags (text : Text) : List Tag := Tag.all.filter (shows text)

/-- The tag of a fragment: the first whose construct it shows. -/
def classify (text : Text) : Tag := (Tag.all.find? (shows text)).getD .generic

end TexFigure.Formula
