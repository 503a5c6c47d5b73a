import TexFigure.Expression.Compile
/-!
# Reading by strength

Each strength of binding is a part of the grammar. Tokens are read by a part in front of all that
cannot belong to them (`Reads`): a power needs no exponent behind it, a sum no further factor.
Sums and products are loops that go on after every operand, so what is said of them is where the
loop has come to, and how many tokens it may still take, when an expression is taken off.

There is one lemma for each way to put an expression together. Parentheses, signs, powers and
calls cost a level each; a primary expression costs another one where a factor is read.
-/

namespace TexFigure.Expression

/-! ## Strengths -/

/-- How tightly the outermost part of an expression binds. -/
inductive Strength
  | sum | product | factor | primary
  deriving DecidableEq, Repr

/-- The strengths in their order. -/
def Strength.rank : Strength → Nat
  | sum => 0
  | product => 1
  | factor => 2
  | primary => 3

/-- The strength of an operation. -/
def Operator.strength : Operator → Strength
  | add | subtract => .sum
  | multiply | divide => .product
  | power => .factor

/-- Tokens in parentheses. -/
def parenthesized (tokens : List Token) : List Token := .symbol '(' :: (tokens ++ [.symbol ')'])

/-! ## Where a part of the grammar ends -/

/-- Tokens that do not go on with an exponent. -/
def NoPower (rest : List Token) : Prop := ∀ next ∈ rest.head?, next ≠ .symbol '^'

/-- Tokens that do not go on with a factor or an exponent. -/
def NoFactor (rest : List Token) : Prop :=
  ∀ next ∈ rest.head?, next ≠ .symbol '^' ∧ next ≠ .symbol '*' ∧ next ≠ .symbol '/' ∧
    next.startsFactor = false

/-- Tokens that do not go on with a term, a factor or an exponent. -/
def NoTerm (rest : List Token) : Prop :=
  NoFactor rest ∧ ∀ next ∈ rest.head?, next ≠ .symbol '+' ∧ next ≠ .symbol '-'

theorem NoFactor.noPower {rest : List Token} (h : NoFactor rest) : NoPower rest :=
  fun next hnext => (h next hnext).1

theorem noTerm_nil : NoTerm [] := ⟨(fun _ h => nomatch h), (fun _ h => nomatch h)⟩

/-- A closing parenthesis or a comma ends an expression. -/
theorem noTerm_symbol {c : Char} (hc : c = ')' ∨ c = ',') (rest : List Token) :
    NoTerm (.symbol c :: rest) := by
  refine ⟨?_, ?_⟩ <;>
  · intro next hnext
    obtain rfl := Option.mem_some_iff.mp hnext
    rcases hc with rfl | rfl <;> decide

section
variable {factor term : Grammar} {left right : Expression} {fuel : Nat} {tokens rest : List Token}

/-- A product ends where no factor follows. -/
theorem productFrom_of_noFactor (h : NoFactor rest) :
    productFrom factor fuel left rest = .ok (left, rest) := by
  cases fuel with
  | zero => rfl
  | succ fuel =>
    cases rest with
    | nil => rfl
    | cons next rest =>
      obtain ⟨-, htimes, hover, hstart⟩ := h next rfl
      have hnot : ¬next.startsFactor = true := by
        rw [hstart]
        exact Bool.false_ne_true
      rw [productFrom, if_neg htimes, if_neg hover, if_neg hnot]

/-- A sum ends where no term follows. -/
theorem sumFrom_of_noTerm (h : NoTerm rest) : sumFrom term fuel left rest = .ok (left, rest) := by
  cases fuel with
  | zero => rfl
  | succ fuel =>
    cases rest with
    | nil => rfl
    | cons next rest =>
      obtain ⟨hplus, hminus⟩ := h.2 next rfl
      rw [sumFrom, if_neg hplus, if_neg hminus]

/-- A product goes on with its operator and a factor. -/
theorem productFrom_operator {operator : Operator} (hoperator : operator.strength = .product)
    (h : factor tokens = .ok (right, rest)) :
    productFrom factor (fuel + 1) left (.symbol operator.symbol :: tokens) =
      productFrom factor fuel (.operation operator left right) rest := by
  cases operator with
  | multiply =>
    show factor tokens >>= _ = _
    rw [h]
    rfl
  | divide =>
    show factor tokens >>= _ = _
    rw [h]
    rfl
  | add => cases hoperator
  | subtract => cases hoperator
  | power => cases hoperator

/-- A product goes on with a factor that follows without an operator. -/
theorem productFrom_juxtaposed {next : Token} (hnext : next.startsFactor = true)
    (h : factor (next :: tokens) = .ok (right, rest)) :
    productFrom factor (fuel + 1) left (next :: tokens) =
      productFrom factor fuel (.operation .multiply left right) rest := by
  have hne {c : Char} (hc : (c == '(') = false) : next ≠ .symbol c := by
    rintro rfl
    rw [Token.startsFactor, hc] at hnext
    cases hnext
  rw [productFrom, if_neg (hne rfl), if_neg (hne rfl), if_pos hnext, h]
  rfl

/-- A sum goes on with its operator and a term. -/
theorem sumFrom_operator {operator : Operator} (hoperator : operator.strength = .sum)
    (h : term tokens = .ok (right, rest)) :
    sumFrom term (fuel + 1) left (.symbol operator.symbol :: tokens) =
      sumFrom term fuel (.operation operator left right) rest := by
  cases operator with
  | add =>
    show term tokens >>= _ = _
    rw [h]
    rfl
  | subtract =>
    show term tokens >>= _ = _
    rw [h]
    rfl
  | multiply => cases hoperator
  | divide => cases hoperator
  | power => cases hoperator

end

/-! ## Reading by strength -/

/-- What it says that tokens are read as an expression by the part of the grammar for a strength,
on some levels, in front of all that cannot belong to them. A product or a sum has then come to
the expression and may go on. -/
def Reads (levels : Nat) (expression : Expression) (tokens : List Token) : Strength → Prop
  | .primary => ∀ rest, primary levels (tokens ++ rest) = .ok (expression, rest)
  | .factor => ∀ rest, NoPower rest → unary levels (tokens ++ rest) = .ok (expression, rest)
  | .product => ∀ rest, NoPower rest → ∃ fuel, rest.length ≤ fuel ∧
    product (unary levels) (tokens ++ rest) = productFrom (unary levels) fuel expression rest
  | .sum => ∀ rest, NoFactor rest → ∃ fuel, rest.length ≤ fuel ∧
    sum (unary levels) (tokens ++ rest) = sumFrom (product (unary levels)) fuel expression rest

section
variable {levels : Nat} {expression left right : Expression} {tokens behind rest : List Token}

/-- A primary expression is no sign. -/
theorem signed_of_primary {result : Expression × List Token} {inner power : Grammar}
    (h : primary levels tokens = .ok result) : signed inner power tokens = power tokens := by
  unfold signed
  split
  next => cases levels <;> cases h
  next => cases levels <;> cases h
  next => rfl

/-- A primary expression is a factor, one level up. -/
theorem Reads.toFactor (h : Reads levels expression tokens .primary) :
    Reads (levels + 1) expression tokens .factor := by
  intro rest hrest
  show signed _ (power (primary levels) (unary levels)) (tokens ++ rest) = _
  rw [signed_of_primary (h rest), power, h rest]
  simp only [bind, Except.bind]
  split
  next => exact absurd rfl (hrest _ rfl)
  next => rfl

/-- A factor is a product. -/
theorem Reads.toProduct (h : Reads levels expression tokens .factor) :
    Reads levels expression tokens .product := by
  intro rest hrest
  refine ⟨rest.length, Nat.le_refl _, ?_⟩
  rw [product, h rest hrest]
  rfl

/-- A product that ends. -/
theorem Reads.product_eq (h : Reads levels expression tokens .product) (hrest : NoFactor rest) :
    product (unary levels) (tokens ++ rest) = .ok (expression, rest) := by
  obtain ⟨fuel, -, heq⟩ := h rest hrest.noPower
  rw [heq, productFrom_of_noFactor hrest]

/-- A product is a sum. -/
theorem Reads.toSum (h : Reads levels expression tokens .product) :
    Reads levels expression tokens .sum := by
  intro rest hrest
  refine ⟨rest.length, Nat.le_refl _, ?_⟩
  rw [sum, h.product_eq hrest]
  rfl

/-- A sum that ends. -/
theorem Reads.sum_eq (h : Reads levels expression tokens .sum) (hrest : NoTerm rest) :
    sum (unary levels) (tokens ++ rest) = .ok (expression, rest) := by
  obtain ⟨fuel, -, heq⟩ := h rest hrest.1
  rw [heq, sumFrom_of_noTerm hrest]

/-- What is no primary expression is read where less strength is needed. -/
theorem Reads.weaken {needed own : Strength} (h : Reads levels expression tokens own)
    (hle : needed.rank ≤ own.rank) (hown : own ≠ .primary) :
    Reads levels expression tokens needed := by
  cases own with
  | primary => exact absurd rfl hown
  | factor =>
    cases needed with
    | primary => exact absurd hle (by decide)
    | factor => exact h
    | product => exact h.toProduct
    | sum => exact h.toProduct.toSum
  | product =>
    cases needed with
    | primary | factor => exact absurd hle (by decide)
    | product => exact h
    | sum => exact h.toSum
  | sum =>
    cases needed with
    | primary | factor | product => exact absurd hle (by decide)
    | sum => exact h

/-- A primary expression is read everywhere, one level up. -/
theorem Reads.lift (h : Reads levels expression tokens .primary) {needed : Strength}
    (hneeded : needed ≠ .primary) : Reads (levels + 1) expression tokens needed := by
  refine h.toFactor.weaken ?_ (by decide)
  cases needed with
  | primary => exact absurd rfl hneeded
  | factor | product | sum => decide

/-- Parentheses make a sum a primary expression. -/
theorem Reads.inParentheses (h : Reads levels expression tokens .sum) :
    Reads (levels + 1) expression (parenthesized tokens) .primary := by
  intro rest
  have heq := h.sum_eq (noTerm_symbol (Or.inl rfl) rest)
  show sum (unary levels) (tokens ++ [.symbol ')'] ++ rest) >>= _ = _
  rw [List.append_assoc, List.singleton_append, heq]
  rfl

/-! ## Reading operations and calls -/

/-- A loop that may take every token that is left takes one, and may take those behind it. -/
theorem exists_fuel {next : Token} {fuel : Nat} (h : (next :: (behind ++ rest)).length ≤ fuel) :
    ∃ n, fuel = n + 1 ∧ rest.length ≤ n := by
  rw [List.length_cons, List.length_append] at h
  exact ⟨fuel - 1, by omega, by omega⟩

/-- A sum of a sum and a product. -/
theorem Reads.sum_operation {operator : Operator} (hoperator : operator.strength = .sum)
    (hleft : Reads levels left tokens .sum) (hright : Reads levels right behind .product) :
    Reads levels (.operation operator left right) (tokens ++ .symbol operator.symbol :: behind)
      .sum := by
  intro rest hrest
  have hsymbol : NoFactor (.symbol operator.symbol :: (behind ++ rest)) := by
    intro next hnext
    obtain rfl := Option.mem_some_iff.mp hnext
    cases operator with
    | add | subtract => decide
    | multiply | divide | power => cases hoperator
  obtain ⟨fuel, hfuel, heq⟩ := hleft _ hsymbol
  obtain ⟨fuel, rfl, hrestFuel⟩ := exists_fuel hfuel
  refine ⟨fuel, hrestFuel, ?_⟩
  rw [List.append_assoc, List.cons_append, heq,
    sumFrom_operator hoperator (hright.product_eq hrest)]

/-- A product of a product and a factor. -/
theorem Reads.product_operation {operator : Operator} (hoperator : operator.strength = .product)
    (hleft : Reads levels left tokens .product) (hright : Reads levels right behind .factor) :
    Reads levels (.operation operator left right) (tokens ++ .symbol operator.symbol :: behind)
      .product := by
  intro rest hrest
  have hsymbol : NoPower (.symbol operator.symbol :: (behind ++ rest)) := by
    intro next hnext
    obtain rfl := Option.mem_some_iff.mp hnext
    cases operator with
    | multiply | divide => decide
    | add | subtract | power => cases hoperator
  obtain ⟨fuel, hfuel, heq⟩ := hleft _ hsymbol
  obtain ⟨fuel, rfl, hrestFuel⟩ := exists_fuel hfuel
  refine ⟨fuel, hrestFuel, ?_⟩
  rw [List.append_assoc, List.cons_append, heq,
    productFrom_operator hoperator (hright rest hrest)]

/-- A product of a product and a factor that follows without an operator. -/
theorem Reads.juxtaposed (hleft : Reads levels left tokens .product)
    (hright : Reads levels right behind .factor)
    (hbehind : ∃ next ∈ behind.head?, next.startsFactor = true) :
    Reads levels (.operation .multiply left right) (tokens ++ behind) .product := by
  intro rest hrest
  obtain ⟨next, hnext, hstart⟩ := hbehind
  obtain ⟨behind, rfl⟩ := List.head?_eq_some_iff.mp hnext
  have hfactor : NoPower (next :: behind ++ rest) := by
    intro other hother
    obtain rfl := Option.mem_some_iff.mp hother
    rintro rfl
    cases hstart
  obtain ⟨fuel, hfuel, heq⟩ := hleft _ hfactor
  obtain ⟨fuel, rfl, hrestFuel⟩ := exists_fuel hfuel
  refine ⟨fuel, hrestFuel, ?_⟩
  rw [List.append_assoc, heq]
  exact productFrom_juxtaposed hstart (hright rest hrest)

/-- A power of a primary expression and a factor. -/
theorem Reads.power_operation (hleft : Reads levels left tokens .primary)
    (hright : Reads levels right behind .factor) :
    Reads (levels + 1) (.operation .power left right) (tokens ++ .symbol '^' :: behind)
      .factor := by
  intro rest hrest
  have hbase := hleft (.symbol '^' :: (behind ++ rest))
  rw [List.append_assoc, List.cons_append]
  show signed _ (power (primary levels) (unary levels)) _ = _
  rw [signed_of_primary hbase, power, hbase]
  show unary levels (behind ++ rest) >>= _ = _
  rw [hright rest hrest]
  rfl

/-- A factor behind a sign. -/
theorem Reads.negated (h : Reads levels expression tokens .factor) :
    Reads (levels + 1) (.negate expression) (.symbol '-' :: tokens) .factor := by
  intro rest hrest
  show unary levels (tokens ++ rest) >>= _ = _
  rw [h rest hrest]
  rfl

theorem meaningOf?_unary (function : Unary) :
    meaningOf? function.name = some (.unary function) := by
  cases function <;> rfl

theorem meaningOf?_binary (function : Binary) :
    meaningOf? function.name = some (.binary function) := by
  cases function <;> rfl

/-- A call with one argument. -/
theorem Reads.called (h : Reads levels expression tokens .sum) (function : Unary) :
    Reads (levels + 1) (.call function expression)
      (.name false function.name :: parenthesized tokens) .primary := by
  intro rest
  have harguments (power : Grammar) :
      arguments (sum (unary levels)) power (parenthesized tokens ++ rest) =
        .ok ([expression], .last, rest) := by
    show sum (unary levels) (tokens ++ [.symbol ')'] ++ rest) >>= _ = _
    rw [List.append_assoc, List.singleton_append, h.sum_eq (noTerm_symbol (Or.inl rfl) rest)]
    rfl
  show named _ _ function.name (parenthesized tokens ++ rest) = _
  rw [named, meaningOf?_unary]
  show arguments _ _ _ >>= _ = _
  rw [harguments]
  rfl

/-- A call with two arguments. -/
theorem Reads.called₂ (hfirst : Reads levels left tokens .sum)
    (hsecond : Reads levels right behind .sum) (function : Binary) :
    Reads (levels + 1) (.call₂ function left right)
      (.name false function.name :: parenthesized (tokens ++ .symbol ',' :: behind)) .primary := by
  intro rest
  have hothers (fuel : Nat) :
      argumentsFrom (sum (unary levels)) (fuel + 2)
          (.symbol ',' :: (behind ++ .symbol ')' :: rest)) =
        .ok ([right], .symbol ')' :: rest) := by
    rw [argumentsFrom, hsecond.sum_eq (noTerm_symbol (Or.inl rfl) rest)]
    rfl
  have harguments (power : Grammar) :
      arguments (sum (unary levels)) power
          (parenthesized (tokens ++ .symbol ',' :: behind) ++ rest) =
        .ok ([left, right], .last, rest) := by
    have htokens : tokens ++ .symbol ',' :: behind ++ [.symbol ')'] ++ rest =
        tokens ++ .symbol ',' :: (behind ++ .symbol ')' :: rest) := by
      simp only [List.append_assoc, List.cons_append, List.nil_append]
    show sum (unary levels) (tokens ++ .symbol ',' :: behind ++ [.symbol ')'] ++ rest)
      >>= _ = _
    rw [htokens, hfirst.sum_eq (noTerm_symbol (Or.inr rfl) _)]
    show argumentsFrom _ ((behind ++ .symbol ')' :: rest).length + 1) _ >>= _ = _
    rw [List.length_append, List.length_cons, ← Nat.add_assoc, hothers]
    rfl
  show named _ _ function.name (parenthesized (tokens ++ .symbol ',' :: behind) ++ rest) = _
  rw [named, meaningOf?_binary]
  show arguments _ _ _ >>= _ = _
  rw [harguments]
  rfl

end

/-- A number is a primary expression. -/
theorem reads_number {digits : Text} {value : Float} (h : Decimal.readFloat? digits = some value)
    (levels : Nat) : Reads (levels + 1) (.number value) [.number digits] .primary := by
  intro rest
  rw [List.singleton_append, primary]
  simp only [atom, h]

/-- A sum that fills the tokens is an expression. -/
theorem parse_of_reads {expression : Expression} {tokens : List Token}
    (h : Reads maxLevels expression tokens .sum) : parse tokens = .ok expression := by
  have heq := h.sum_eq noTerm_nil
  rw [List.append_nil] at heq
  rw [parse, heq]
  rfl

end TexFigure.Expression
