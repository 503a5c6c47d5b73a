import TexFigure.Text.Basic
/-!
# Formulas

A formula is one recognised construct of a math fragment, with the texts of its fields; a
fragment that fits no construct is kept as it is. A tag names a construct as a reader sees it:
several tags can share one construct, as square roots and roots with an index do.
-/

namespace TexFigure.Formula

/-- The kinds of fragment that classification tells apart. -/
inductive Tag
  | matrix | partialDerivative | derivative | fraction | doubleIntegral | integral | sum | product
  | limit | nthRoot | squareRoot | superscript | subscript | generic
  deriving DecidableEq, Repr

namespace Tag

/-- Every tag, in the order in which classification asks for them; the generic one is last. -/
def all : List Tag :=
  [matrix, partialDerivative, derivative, fraction, doubleIntegral, integral, sum, product,
    limit, nthRoot, squareRoot, superscript, subscript, generic]

/-- The name of a tag. -/
def name : Tag → Text
  | matrix => "matrix"
  | partialDerivative => "partial-derivative"
  | derivative => "derivative"
  | fraction => "fraction"
  | doubleIntegral => "double-integral"
  | integral => "integral"
  | sum => "sum"
  | product => "product"
  | limit => "limit"
  | nthRoot => "nth-root"
  | squareRoot => "square-root"
  | superscript => "superscript"
  | subscript => "subscript"
  | generic => "generic"

/-- The tag of a name. -/
def ofName? (name : Text) : Option Tag := all.find? (·.name == name)

end Tag

/-- The two operators that share the form of a sum. -/
inductive Operator
  | sum | product
  deriving DecidableEq, Repr

/-- The control sequence of an operator. -/
def Operator.command : Operator → Text
  | .sum => "\\sum"
  | .product => "\\prod"

/-- What stands around the entries of a matrix. -/
inductive Delimiter
  | plain | paren | bracket | brace | bar | doubleBar
  deriving DecidableEq, Repr

namespace Delimiter

/-- Every delimiter. -/
def all : List Delimiter := [plain, paren, bracket, brace, bar, doubleBar]

/-- The environment that typesets a matrix with this delimiter. -/
def environment : Delimiter → Text
  | plain => "matrix"
  | paren => "pmatrix"
  | bracket => "bmatrix"
  | brace => "Bmatrix"
  | bar => "vmatrix"
  | doubleBar => "Vmatrix"

/-- The delimiter of a matrix environment. -/
def ofEnvironment? (environment : Text) : Option Delimiter :=
  all.find? (·.environment == environment)

end Delimiter

end Formula

/-- One construct of a math fragment. The index of a square root is empty; the row and column
counts of a matrix say how much of `cells` is written. -/
inductive Formula
  | fraction (numerator denominator : Text)
  | root (index radicand : Text)
  | superscript (base exponent : Text)
  | subscript (base subscript : Text)
  | integral (lower upper integrand var : Text)
  | doubleIntegral (domain integrand area : Text)
  | bigOperator (operator : Formula.Operator) (var lower upper expression : Text)
  | limit (var approaches expression : Text)
  | derivative (func var : Text) (isPartial : Bool)
  | matrix (rows cols : Nat) (cells : List (List Text)) (delimiter : Formula.Delimiter)
  | generic (raw : Text)
  deriving DecidableEq, Repr

namespace Formula

/-- The tag of a construct. -/
def tag : Formula → Tag
  | fraction .. => .fraction
  | root index _ => if index.isEmpty then .squareRoot else .nthRoot
  | superscript .. => .superscript
  | subscript .. => .subscript
  | integral .. => .integral
  | doubleIntegral .. => .doubleIntegral
  | bigOperator .sum .. => .sum
  | bigOperator .product .. => .product
  | limit .. => .limit
  | derivative _ _ true => .partialDerivative
  | derivative _ _ false => .derivative
  | matrix .. => .matrix
  | generic _ => .generic

/-- A matrix of empty entries. -/
def emptyMatrix (rows cols : Nat) (delimiter : Delimiter) : Formula :=
  matrix rows cols (List.replicate rows (List.replicate cols [])) delimiter

/-- The sum or product that a template starts from. -/
def operatorTemplate (operator : Operator) : Formula := bigOperator operator "i" "1" "n" "a_i"

/-- The construct that stands for a tag when a fragment does not give its fields. -/
def template : Tag → Formula
  | .fraction => fraction "a" "b"
  | .nthRoot => root "n" "x"
  | .squareRoot => root [] "x"
  | .superscript => superscript "x" "2"
  | .subscript => subscript "x" "i"
  | .integral => integral "a" "b" "f(x)" "x"
  | .doubleIntegral => doubleIntegral "D" "f(x,y)" "A"
  | .sum => operatorTemplate .sum
  | .product => operatorTemplate .product
  | .limit => limit "x" "\\infty" "f(x)"
  | .derivative => derivative "f(x)" "x" false
  | .partialDerivative => derivative "f(x,y)" "x" true
  | .matrix => matrix 2 2 [["a", "b"], ["c", "d"]] .paren
  | .generic => generic []

/-- Whether a construct is one of those that a tag stands for. -/
def fits : Formula → Tag → Bool
  | root .., .nthRoot | root .., .squareRoot => true
  | bigOperator .., .sum | bigOperator .., .product => true
  | derivative .., .derivative | derivative .., .partialDerivative => true
  | formula, tag => formula.tag == tag

end Formula

end TexFigure
