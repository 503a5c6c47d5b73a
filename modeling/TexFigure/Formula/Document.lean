import TexFigure.Formula.Basic
import TexFigure.Json.Record
/-!
# Formulas as JSON

A formula is a variant whose form is named after its construct. Every field is required, but for
the delimiter of a matrix, which is a pair of parentheses unless another one is given.
-/

namespace TexFigure.Formula

open Json

/-- The name of an operator. -/
def Operator.name : Operator → Text
  | .sum => "sum"
  | .product => "product"

/-- The operator of a name. -/
def Operator.ofName? (name : Text) : Option Operator :=
  [Operator.sum, Operator.product].find? (·.name == name)

/-- The name of a delimiter. -/
def Delimiter.name : Delimiter → Text
  | .plain => "plain"
  | .paren => "paren"
  | .bracket => "bracket"
  | .brace => "brace"
  | .bar => "bar"
  | .doubleBar => "doublebar"

/-- The delimiter of a name. -/
def Delimiter.ofName? (name : Text) : Option Delimiter := Delimiter.all.find? (·.name == name)

/-- Write a formula. -/
def encode : Formula → Json
  | fraction numerator denominator =>
    variant "fraction" [("numerator", str numerator), ("denominator", str denominator)]
  | root index radicand => variant "root" [("index", str index), ("radicand", str radicand)]
  | superscript base exponent =>
    variant "superscript" [("base", str base), ("exponent", str exponent)]
  | subscript base script =>
    variant "subscript" [("base", str base), ("subscript", str script)]
  | integral lower upper integrand var =>
    variant "integral" [("lower", str lower), ("upper", str upper),
      ("integrand", str integrand), ("variable", str var)]
  | doubleIntegral domain integrand area =>
    variant "double-integral" [("domain", str domain), ("integrand", str integrand),
      ("area", str area)]
  | bigOperator operator var lower upper expression =>
    variant "sum-product" [("kind", str operator.name), ("variable", str var),
      ("lower", str lower), ("upper", str upper), ("expression", str expression)]
  | limit var approaches expression =>
    variant "limit" [("variable", str var), ("approaches", str approaches),
      ("expression", str expression)]
  | derivative func var isPartial =>
    variant "derivative" [("func", str func), ("variable", str var),
      ("is_partial", bool isPartial)]
  | matrix rows cols cells delimiter =>
    variant "matrix" [("rows", count rows), ("cols", count cols),
      ("cells", arr (cells.map fun row => arr (row.map str))),
      ("delimiter", str delimiter.name)]
  | generic raw => variant "generic" [("raw", str raw)]

/-- How the fields of each form are read. -/
def forms : List (Text × (Json → Option Formula)) := [
  ("fraction", fun value => do
    let fields ← record? ["numerator", "denominator"] value
    return fraction (← required text? fields "numerator") (← required text? fields "denominator")),
  ("root", fun value => do
    let fields ← record? ["index", "radicand"] value
    return root (← required text? fields "index") (← required text? fields "radicand")),
  ("superscript", fun value => do
    let fields ← record? ["base", "exponent"] value
    return superscript (← required text? fields "base") (← required text? fields "exponent")),
  ("subscript", fun value => do
    let fields ← record? ["base", "subscript"] value
    return subscript (← required text? fields "base") (← required text? fields "subscript")),
  ("integral", fun value => do
    let fields ← record? ["lower", "upper", "integrand", "variable"] value
    return integral (← required text? fields "lower") (← required text? fields "upper")
      (← required text? fields "integrand") (← required text? fields "variable")),
  ("double-integral", fun value => do
    let fields ← record? ["domain", "integrand", "area"] value
    return doubleIntegral (← required text? fields "domain")
      (← required text? fields "integrand") (← required text? fields "area")),
  ("sum-product", fun value => do
    let fields ← record? ["kind", "variable", "lower", "upper", "expression"] value
    return bigOperator (← required (choiceInVariant? Operator.ofName?) fields "kind")
      (← required text? fields "variable") (← required text? fields "lower")
      (← required text? fields "upper") (← required text? fields "expression")),
  ("limit", fun value => do
    let fields ← record? ["variable", "approaches", "expression"] value
    return limit (← required text? fields "variable") (← required text? fields "approaches")
      (← required text? fields "expression")),
  ("derivative", fun value => do
    let fields ← record? ["func", "variable", "is_partial"] value
    return derivative (← required text? fields "func") (← required text? fields "variable")
      (← required flag? fields "is_partial")),
  ("matrix", fun value => do
    let fields ← record? ["rows", "cols", "cells", "delimiter"] value
    return matrix (← required count64? fields "rows") (← required count64? fields "cols")
      (← required (list? (list? text?)) fields "cells")
      (← optional .paren (choiceInVariant? Delimiter.ofName?) fields "delimiter")),
  ("generic", fun value => do
    let fields ← record? ["raw"] value
    return generic (← required text? fields "raw"))]

/-- Read a formula. -/
def decode? (value : Json) : Option Formula := do
  let (form, fields) ← variant? value
  (← forms.lookup form) fields

end TexFigure.Formula
