import TexFigure.Arithmetic.Double
import TexFigure.Text.Basic
/-!
# Expressions

An arithmetic expression in two variables, as a tree. A function takes one argument or two, which
its type tells, so that every tree can be evaluated. Angles are radians, and domain errors give
infinities or values that are not numbers.
-/

namespace TexFigure.Expression

/-- The operators that stand between two operands. -/
inductive Operator
  | add | subtract | multiply | divide | power
  deriving DecidableEq, Repr

/-- The functions of one argument. -/
inductive Unary
  | sin | cos | tan | sec | csc | cot | asin | acos | atan | sinh | cosh | tanh | exp | ln | log10
  | log2 | sqrt | abs | floor | ceil | round | sign | deg | rad
  deriving DecidableEq, Repr

/-- The functions of two arguments. -/
inductive Binary
  | min | max | pow | mod
  deriving DecidableEq, Repr

namespace Operator

/-- The symbol of an operator. -/
def symbol : Operator → Char
  | add => '+'
  | subtract => '-'
  | multiply => '*'
  | divide => '/'
  | power => '^'

/-- The value of an operation. -/
def apply : Operator → Float → Float → Float
  | add, a, b => a + b
  | subtract, a, b => a - b
  | multiply, a, b => a * b
  | divide, a, b => a / b
  | power, a, b => a ^ b

end Operator

namespace Unary

/-- Every function of one argument. -/
def all : List Unary :=
  [sin, cos, tan, sec, csc, cot, asin, acos, atan, sinh, cosh, tanh, exp, ln, log10, log2, sqrt,
    abs, floor, ceil, round, sign, deg, rad]

/-- The name of a function. -/
def name : Unary → Text
  | sin => "sin"
  | cos => "cos"
  | tan => "tan"
  | sec => "sec"
  | csc => "csc"
  | cot => "cot"
  | asin => "asin"
  | acos => "acos"
  | atan => "atan"
  | sinh => "sinh"
  | cosh => "cosh"
  | tanh => "tanh"
  | exp => "exp"
  | ln => "ln"
  | log10 => "log10"
  | log2 => "log2"
  | sqrt => "sqrt"
  | abs => "abs"
  | floor => "floor"
  | ceil => "ceil"
  | round => "round"
  | sign => "sign"
  | deg => "deg"
  | rad => "rad"

/-- The sign of a number: one, minus one, or zero. -/
def signOf (a : Float) : Float :=
  if a == 0.0 then 0.0 else if a.isNaN then a else if a < 0.0 then -1.0 else 1.0

/-- The value of a function. -/
def apply : Unary → Float → Float
  | sin, a => a.sin
  | cos, a => a.cos
  | tan, a => a.tan
  | sec, a => 1.0 / a.cos
  | csc, a => 1.0 / a.sin
  | cot, a => 1.0 / a.tan
  | asin, a => a.asin
  | acos, a => a.acos
  | atan, a => a.atan
  | sinh, a => a.sinh
  | cosh, a => a.cosh
  | tanh, a => a.tanh
  | exp, a => a.exp
  | ln, a => a.log
  | log10, a => a.log10
  | log2, a => a.log2
  | sqrt, a => a.sqrt
  | abs, a => a.abs
  | floor, a => a.floor
  | ceil, a => a.ceil
  | round, a => a.round
  | sign, a => signOf a
  | deg, a => Double.degrees a
  | rad, a => Double.radians a

end Unary

namespace Binary

/-- Every function of two arguments. -/
def all : List Binary := [min, max, pow, mod]

/-- The name of a function. -/
def name : Binary → Text
  | min => "min"
  | max => "max"
  | pow => "pow"
  | mod => "mod"

/-- The value of a function. -/
def apply : Binary → Float → Float → Float
  | min, a, b => Double.minimum a b
  | max, a, b => Double.maximum a b
  | pow, a, b => a ^ b
  | mod, a, b => Double.remainder a b

end Binary

end Expression

/-- An expression in `x` and `y`. -/
inductive Expression
  | number (value : Float)
  | x
  | y
  | negate (inner : Expression)
  | operation (operator : Expression.Operator) (left right : Expression)
  | call (function : Expression.Unary) (argument : Expression)
  | call₂ (function : Expression.Binary) (first second : Expression)

namespace Expression

/-- The value of an expression at a point. -/
def eval (atX atY : Float) : Expression → Float
  | number value => value
  | x => atX
  | y => atY
  | negate inner => -inner.eval atX atY
  | operation operator left right => operator.apply (left.eval atX atY) (right.eval atX atY)
  | call function argument => function.apply (argument.eval atX atY)
  | call₂ function first second => function.apply (first.eval atX atY) (second.eval atX atY)

/-- Whether the second variable occurs. -/
def usesY : Expression → Bool
  | number _ | x => false
  | y => true
  | negate inner => inner.usesY
  | operation _ left right => left.usesY || right.usesY
  | call _ argument => argument.usesY
  | call₂ _ first second => first.usesY || second.usesY

/-- The length of the longest chain of operations and calls. -/
def height : Expression → Nat
  | number _ | x | y => 0
  | negate inner => inner.height + 1
  | operation _ left right => max left.height right.height + 1
  | call _ argument => argument.height + 1
  | call₂ _ first second => max first.height second.height + 1

end Expression

end TexFigure
