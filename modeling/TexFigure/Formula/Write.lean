import TexFigure.Formula.Basic
import TexFigure.Source.Group
/-!
# The canonical text of a formula

Every construct has one written form. Fields are written as they are; only the base of a script
may be put into braces, and an empty matrix entry is written as an empty group.
-/

namespace TexFigure.Formula

/-- Whether a character in the base of a script would tear the base apart. -/
def splitsBase (c : Char) : Bool :=
  isBlank c || ['+', '-', '*', '/', '=', ',', '^', '_'].contains c

/-- The base of a script, in braces when it would change its meaning without them. -/
def writeBase (base : Text) : Text :=
  if Source.isFullyBraced base || base.any splitsBase then Text.braced base else base

/-- An entry of a matrix. -/
def writeCell (cell : Text) : Text := if cell.isEmpty then ['{', '}'] else cell

/-- The rows of a matrix; entries that are missing are empty. -/
def writeRows (rows cols : Nat) (cells : List (List Text)) : Text :=
  Text.join " \\\\ " <| (List.range rows).map fun row =>
    Text.join " & " <| (List.range cols).map fun col =>
      writeCell ((cells.getD row []).getD col [])

/-- Write a body between the begin and end of an environment. -/
def inEnvironment (environment body : Text) : Text :=
  "\\begin" ++ Text.braced environment ++ body ++ "\\end" ++ Text.braced environment

/-- The canonical text of a formula. -/
def write : Formula → Text
  | fraction numerator denominator =>
    "\\frac" ++ Text.braced numerator ++ Text.braced denominator
  | root index radicand =>
    if index.isEmpty then "\\sqrt" ++ Text.braced radicand
    else "\\sqrt" ++ Text.bracketed index ++ Text.braced radicand
  | superscript base exponent => writeBase base ++ "^" ++ Text.braced exponent
  | subscript base script => writeBase base ++ "_" ++ Text.braced script
  | integral lower upper integrand var =>
    "\\int_" ++ Text.braced lower ++ "^" ++ Text.braced upper ++ " " ++ integrand ++ " \\, d"
      ++ var
  | doubleIntegral domain integrand area =>
    "\\iint_" ++ Text.braced domain ++ " " ++ integrand ++ " \\, d" ++ area
  | bigOperator operator var lower upper expression =>
    let under := if var.isEmpty then lower else var ++ "=" ++ lower
    Text.trimEnd <|
      operator.command ++ "_" ++ Text.braced under ++ "^" ++ Text.braced upper ++ " "
        ++ expression
  | limit var approaches expression =>
    Text.trimEnd <|
      "\\lim_" ++ Text.braced (var ++ " \\to " ++ approaches) ++ " " ++ expression
  | derivative func var isPartial =>
    let fraction :=
      if isPartial then "\\frac\x7b\\partial\x7d" ++ Text.braced ("\\partial " ++ var)
      else "\\frac\x7bd\x7d" ++ Text.braced ("d" ++ var)
    Text.trimEnd (fraction ++ " " ++ func)
  | matrix rows cols cells delimiter =>
    let body : Text :=
      if rows = 0 ∨ cols = 0 then [] else " " ++ writeRows rows cols cells
    inEnvironment delimiter.environment (body ++ " ")
  | generic raw => raw

/-! The written form of each construct. -/

theorem write_fraction (numerator denominator : Text) :
    (fraction numerator denominator).write =
      "\\frac" ++ Text.braced numerator ++ Text.braced denominator := rfl

theorem write_root (index radicand : Text) :
    (root index radicand).write =
      if index.isEmpty then "\\sqrt" ++ Text.braced radicand
      else "\\sqrt" ++ Text.bracketed index ++ Text.braced radicand := rfl

theorem write_superscript (base exponent : Text) :
    (superscript base exponent).write = writeBase base ++ "^" ++ Text.braced exponent := rfl

theorem write_subscript (base script : Text) :
    (subscript base script).write = writeBase base ++ "_" ++ Text.braced script := rfl

theorem write_integral (lower upper integrand var : Text) :
    (integral lower upper integrand var).write =
      "\\int_" ++ Text.braced lower ++ "^" ++ Text.braced upper ++ " " ++ integrand ++ " \\, d"
        ++ var := rfl

theorem write_doubleIntegral (domain integrand area : Text) :
    (doubleIntegral domain integrand area).write =
      "\\iint_" ++ Text.braced domain ++ " " ++ integrand ++ " \\, d" ++ area := rfl

theorem write_bigOperator (operator : Operator) (var lower upper expression : Text) :
    (bigOperator operator var lower upper expression).write =
      Text.trimEnd (operator.command ++ "_"
        ++ Text.braced (if var.isEmpty then lower else var ++ "=" ++ lower) ++ "^"
        ++ Text.braced upper ++ " " ++ expression) := rfl

theorem write_limit (var approaches expression : Text) :
    (limit var approaches expression).write =
      Text.trimEnd ("\\lim_" ++ Text.braced (var ++ " \\to " ++ approaches) ++ " "
        ++ expression) := rfl

theorem write_derivative (func var : Text) (isPartial : Bool) :
    (derivative func var isPartial).write =
      Text.trimEnd ((if isPartial then
          "\\frac\x7b\\partial\x7d" ++ Text.braced ("\\partial " ++ var)
        else "\\frac\x7bd\x7d" ++ Text.braced ("d" ++ var)) ++ " " ++ func) := rfl

theorem write_matrix (rows cols : Nat) (cells : List (List Text)) (delimiter : Delimiter) :
    (matrix rows cols cells delimiter).write =
      inEnvironment delimiter.environment
        ((if rows = 0 ∨ cols = 0 then ([] : Text) else " " ++ writeRows rows cols cells)
          ++ " ") := rfl

/-- Write a formula as the construct of a tag, if it is of that construct. -/
def writeAs? (tag : Tag) (formula : Formula) : Option Text :=
  if formula.fits tag then some formula.write else none

end TexFigure.Formula
