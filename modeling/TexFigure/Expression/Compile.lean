import TexFigure.Expression.Basic
import TexFigure.Expression.Token
/-!
# Compiling an expression

Sums bind loosest, then products, then signs, then powers, which take a sign in the exponent and
group to the right. A product may be written without its operator where the next factor starts
with a letter, a digit, a point or a parenthesis. A function without parentheses takes the power
that follows.

Parentheses, signs and calls nest at most 256 levels deep: `signed` and `atom` count one level
each, and the grammar is a recursion on the levels that are left. It works on tokens alone. A
fault says how many tokens were left, and only then is its place in the text looked up.
-/

namespace TexFigure.Expression

/-- The number of levels of nesting. -/
def maxLevels : Nat := 256

/-- Why a text is no expression. -/
inductive Cause
  | tooDeep
  | unexpected (c : Char)
  | unexpectedEnd
  | expected (c : Char)
  | badNumber (digits : Text)
  | unknownName (name : Text)
  | argumentCount (name : Text) (takes got : Nat)
  /-- A character behind a complete expression. -/
  | trailing (c : Char)
  deriving DecidableEq, Repr

/-- Which end of the gap between two tokens a fault stands at. -/
inductive Side
  /-- Where the next token starts. -/
  | next
  /-- Where the last token ended. -/
  | last
  deriving DecidableEq, Repr

/-- A cause and its place, as the number of tokens that were left. -/
structure Fault where
  cause : Cause
  left : Nat
  side : Side
  deriving DecidableEq, Repr

/-- A reader takes an expression off the front of the tokens. -/
abbrev Grammar := List Token → Except Fault (Expression × List Token)

/-- Fail at the tokens that are left. -/
def fail {α : Type} (cause : Cause) (side : Side) (tokens : List Token) : Except Fault α :=
  .error ⟨cause, tokens.length, side⟩

/-- Read one symbol. -/
def expect (c : Char) (tokens : List Token) : Except Fault (List Token) :=
  match tokens with
  | .symbol d :: rest => if d = c then .ok rest else fail (.expected c) .next tokens
  | _ => fail (.expected c) .next tokens

/-- Whether a token can start a factor that follows without an operator. -/
def Token.startsFactor : Token → Bool
  | .number _ => true
  | .name backslash _ => !backslash
  | .symbol c => c == '('

/-- The further factors of a product. -/
def productFrom (factor : Grammar) : (fuel : Nat) → Expression → Grammar
  | 0, left, tokens => .ok (left, tokens)
  | fuel + 1, left, tokens =>
    match tokens with
    | [] => .ok (left, [])
    | token :: rest =>
      if token = .symbol '*' then do
        let (right, rest) ← factor rest
        productFrom factor fuel (.operation .multiply left right) rest
      else if token = .symbol '/' then do
        let (right, rest) ← factor rest
        productFrom factor fuel (.operation .divide left right) rest
      else if token.startsFactor then do
        let (right, rest) ← factor tokens
        productFrom factor fuel (.operation .multiply left right) rest
      else .ok (left, tokens)

/-- A product of factors. -/
def product (factor : Grammar) : Grammar := fun tokens => do
  let (left, rest) ← factor tokens
  productFrom factor rest.length left rest

/-- The further terms of a sum. -/
def sumFrom (term : Grammar) : (fuel : Nat) → Expression → Grammar
  | 0, left, tokens => .ok (left, tokens)
  | fuel + 1, left, tokens =>
    match tokens with
    | [] => .ok (left, [])
    | token :: rest =>
      if token = .symbol '+' then do
        let (right, rest) ← term rest
        sumFrom term fuel (.operation .add left right) rest
      else if token = .symbol '-' then do
        let (right, rest) ← term rest
        sumFrom term fuel (.operation .subtract left right) rest
      else .ok (left, tokens)

/-- A sum of products of factors. -/
def sum (factor : Grammar) : Grammar := fun tokens => do
  let (left, rest) ← product factor tokens
  sumFrom (product factor) rest.length left rest

/-- A power with a base and an exponent, or the base alone. -/
def power (base exponent : Grammar) : Grammar := fun tokens => do
  let (left, rest) ← base tokens
  match rest with
  | .symbol '^' :: rest =>
    let (right, rest) ← exponent rest
    return (.operation .power left right, rest)
  | _ => return (left, rest)

/-- Signs in front of a power. -/
def signed (inner power : Grammar) : Grammar := fun tokens =>
  match tokens with
  | .symbol '-' :: rest => do
    let (operand, rest) ← inner rest
    return (.negate operand, rest)
  | .symbol '+' :: rest => inner rest
  | _ => power tokens

/-- What a name stands for. -/
inductive Meaning
  | value (expression : Expression)
  | unary (function : Unary)
  | binary (function : Binary)

/-- The names of the variables and constants. -/
def valueOf? (name : Text) : Option Expression :=
  if name = "x" ∨ name = "t" then some .x
  else if name = "y" then some .y
  else if name = "pi" then some (.number 3.14159265358979323846264338327950288)
  else if name = "e" then some (.number 2.71828182845904523536028747135266250)
  else none

/-- The names of functions that have a second spelling. -/
def otherSpellings : List (Text × Unary) :=
  [("arcsin", .asin), ("arccos", .acos), ("arctan", .atan), ("log", .ln)]

/-- The function of one argument that a name stands for. -/
def unaryOf? (name : Text) : Option Unary :=
  (otherSpellings.lookup name).or (Unary.all.find? (·.name == name))

/-- The meaning of a name. -/
def meaningOf? (name : Text) : Option Meaning :=
  (((valueOf? name).map .value).or ((unaryOf? name).map .unary)).or
    ((Binary.all.find? (·.name == name)).map .binary)

/-- The further arguments of a call, each behind a comma. -/
def argumentsFrom (argument : Grammar) :
    (fuel : Nat) → List Token → Except Fault (List Expression × List Token)
  | 0, tokens => .ok ([], tokens)
  | fuel + 1, tokens =>
    match tokens with
    | .symbol ',' :: rest => do
      let (first, rest) ← argument rest
      let (others, rest) ← argumentsFrom argument fuel rest
      return (first :: others, rest)
    | _ => .ok ([], tokens)

/-- The arguments of a call: a list in parentheses, or the power that follows. A fault found
behind the arguments stands at the given side. -/
def arguments (sum power : Grammar) (tokens : List Token) :
    Except Fault (List Expression × Side × List Token) :=
  match tokens with
  | .symbol '(' :: rest => do
    let (first, rest) ← sum rest
    let (others, rest) ← argumentsFrom sum rest.length rest
    let rest ← expect ')' rest
    return (first :: others, .last, rest)
  | _ => do
    let (argument, rest) ← power tokens
    return ([argument], .next, rest)

/-- A name: a variable, a constant, or a call. -/
def named (sum power : Grammar) (name : Text) : Grammar := fun tokens =>
  match meaningOf? name with
  | none => fail (.unknownName name) .last tokens
  | some (.value expression) => .ok (expression, tokens)
  | some (.unary function) => do
    match ← arguments sum power tokens with
    | ([argument], _, rest) => return (.call function argument, rest)
    | (given, side, rest) => fail (.argumentCount name 1 given.length) side rest
  | some (.binary function) => do
    match ← arguments sum power tokens with
    | ([first, second], _, rest) => return (.call₂ function first second, rest)
    | (given, side, rest) => fail (.argumentCount name 2 given.length) side rest

/-- A number, a name, or an expression in parentheses or braces. -/
def atom (sum power : Grammar) : Grammar := fun tokens =>
  match tokens with
  | [] => fail .unexpectedEnd .next tokens
  | .number digits :: rest =>
    match Decimal.readFloat? digits with
    | some value => .ok (.number value, rest)
    | none => fail (.badNumber digits) .last rest
  | .name _ word :: rest => named sum power word rest
  | .symbol '(' :: rest => do
    let (inner, rest) ← sum rest
    return (inner, ← expect ')' rest)
  | .symbol '{' :: rest => do
    let (inner, rest) ← sum rest
    return (inner, ← expect '}' rest)
  | .symbol c :: _ => fail (.unexpected c) .next tokens

mutual

/-- A factor with its signs, on the levels that are left. -/
def unary : (levels : Nat) → Grammar
  | 0 => fun tokens => fail .tooDeep .last tokens
  | levels + 1 => fun tokens =>
    signed (unary levels) (power (primary levels) (unary levels)) tokens

/-- A base without signs, on the levels that are left. -/
def primary : (levels : Nat) → Grammar
  | 0 => fun tokens => fail .tooDeep .next tokens
  | levels + 1 => fun tokens =>
    atom (sum (unary levels)) (power (primary levels) (unary levels)) tokens

end

/-- An expression that fills the tokens. -/
def parse (tokens : List Token) : Except Fault Expression := do
  match ← sum (unary maxLevels) tokens with
  | (expression, []) => return expression
  | (_, rest@(token :: _)) => fail (.trailing token.first) .next rest

/-- The place of a fault, as a count of the characters before it. -/
def Fault.position (fault : Fault) (source : Text) (lexemes : List Lexeme) : Nat :=
  let taken := lexemes.length - fault.left
  match fault.side with
  | .next => ((lexemes.drop taken).head?.map (·.start)).getD source.length
  | .last => ((lexemes.take taken).getLast?.map (·.stop)).getD 0

/-- What is wrong, without its place. -/
def Cause.message : Cause → Text
  | .tooDeep => "expression nested too deeply"
  | .unexpected c | .trailing c => "unexpected '" ++ [c] ++ "'"
  | .unexpectedEnd => "unexpected end of expression"
  | .expected c => "expected '" ++ [c] ++ "'"
  | .badNumber digits => "bad number '" ++ digits ++ "'"
  | .unknownName name => "unknown identifier '" ++ name ++ "'"
  | .argumentCount name takes got =>
    "'" ++ name ++ "' takes " ++ Nat.toDigits 10 takes ++ " argument(s), got "
      ++ Nat.toDigits 10 got

/-- What is wrong and where. -/
def Fault.message (fault : Fault) (source : Text) : Text :=
  let position := Nat.toDigits 10 (fault.position source (lex source))
  match fault.cause with
  | .trailing _ => fault.cause.message ++ " at " ++ position ++ " in '" ++ source ++ "'"
  | _ => fault.cause.message ++ " at position " ++ position

/-- Compile an expression. -/
def compile (source : Text) : Except Fault Expression :=
  parse ((lex source).map (·.token))

/-- The value of a text without variables, if it is a finite number; variables count as zero. -/
def constant? (source : Text) : Option Float :=
  match compile source with
  | .ok expression =>
    let value := expression.eval 0.0 0.0
    if value.isFinite then some value else none
  | .error _ => none

end TexFigure.Expression
