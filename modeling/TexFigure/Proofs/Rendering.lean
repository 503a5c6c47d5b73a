import TexFigure.Proofs.Grammar
import TexFigure.Proofs.Tokens
/-!
# Written expressions are read

An expression is written with the fewest parentheses: an operand stands in parentheses exactly
where its outermost operator binds weaker than its place asks for (`tokens`). Where an expression
of some height is read, three levels for each step of the height are enough (`readsFrom_tokens`):
one for a sign, an exponent or a call, and two for the parentheses around an operand.

> `compile_layout`: every layout of the tokens of an expression is compiled to the expression.
-/

namespace TexFigure.Expression

open Decimal

/-! ## Writing an expression -/

namespace Operator

/-- The strength that the left operand needs; a power groups to the right. -/
def left : Operator → Strength
  | add | subtract => .sum
  | multiply | divide => .product
  | power => .primary

/-- The strength that the right operand needs; sums and products group to the left. -/
def right : Operator → Strength
  | add | subtract => .product
  | multiply | divide | power => .factor

end Operator

/-- The strength of an expression. -/
def strength : Expression → Strength
  | number _ | x | y | call _ _ | call₂ _ _ _ => .primary
  | negate _ => .factor
  | operation operator _ _ => operator.strength

/-- Tokens of a strength in a place that needs a strength. -/
def enclose (needed own : Strength) (tokens : List Token) : List Token :=
  if needed.rank ≤ own.rank then tokens else parenthesized tokens

/-- The tokens of an expression with the fewest parentheses. -/
def tokens : Expression → List Token
  | number value => [.number (plain value)]
  | x => [.name false "x"]
  | y => [.name false "y"]
  | negate inner => .symbol '-' :: enclose .factor inner.strength inner.tokens
  | operation operator left right =>
    enclose operator.left left.strength left.tokens ++
      .symbol operator.symbol :: enclose operator.right right.strength right.tokens
  | call function argument => .name false function.name :: parenthesized argument.tokens
  | call₂ function first second =>
    .name false function.name :: parenthesized (first.tokens ++ .symbol ',' :: second.tokens)

/-- The numbers of an expression. -/
def literals : Expression → List Float
  | number value => [value]
  | x | y => []
  | negate inner => inner.literals
  | operation _ left right => left.literals ++ right.literals
  | call _ argument => argument.literals
  | call₂ _ first second => first.literals ++ second.literals

/-- Whether a number is finite, has no sign and is read back from what is written for it. -/
def IsLiteral (value : Float) : Prop :=
  value.isFinite = true ∧ isNegative value = false ∧ readFloat? (plain value) = some value

instance (value : Float) : Decidable (IsLiteral value) :=
  inferInstanceAs (Decidable (_ ∧ _ ∧ _))

/-! ## The tokens can stand side by side -/

/-- A number without a sign is one word. -/
theorem isProper_number {value : Float} (h : IsLiteral value) :
    (Token.number (plain value)).IsProper := by
  obtain ⟨body, heq, hne, hbody⟩ := exists_plain h.1
  rw [h.2.1] at heq
  rw [show plain value = body from heq]
  exact .number hne hbody

theorem isProper_unary (function : Unary) : (Token.name false function.name).IsProper := by
  cases function <;> exact .name rfl rfl

theorem isProper_binary (function : Binary) : (Token.name false function.name).IsProper := by
  cases function <;> exact .name rfl rfl

theorem isSymbol_operator (operator : Operator) : isSymbol operator.symbol = true := by
  cases operator <;> rfl

theorem AreApart.inParentheses {tokens : List Token} (h : AreApart tokens) :
    AreApart (parenthesized tokens) :=
  (h.append_symbol rfl .nil).cons_symbol rfl

/-- Tokens that stand apart do so in parentheses as well. -/
theorem AreApart.enclosed {tokens : List Token} (h : AreApart tokens) (needed own : Strength) :
    AreApart (enclose needed own tokens) := by
  unfold enclose
  split
  · exact h
  · exact h.inParentheses

/-- A name in front of parentheses stands apart. -/
theorem AreApart.called {word : Token} {tokens : List Token} (hword : word.IsProper)
    (h : AreApart tokens) : AreApart (word :: parenthesized tokens) := by
  refine .cons hword ?_ h.inParentheses
  intro _ next hnext
  obtain rfl := Option.mem_some_iff.mp hnext
  rfl

/-- Between any two words of an expression there is a symbol. -/
theorem areApart_tokens {expression : Expression}
    (h : ∀ value ∈ expression.literals, IsLiteral value) : AreApart expression.tokens := by
  induction expression with
  | number value => exact .single (isProper_number (h value (List.mem_singleton_self value)))
  | x | y => exact .single (.name rfl rfl)
  | negate inner ih => exact ((ih h).enclosed _ _).cons_symbol rfl
  | operation operator left right ihleft ihright =>
    rw [literals, List.forall_mem_append] at h
    exact ((ihleft h.1).enclosed _ _).append_symbol (isSymbol_operator operator)
      ((ihright h.2).enclosed _ _)
  | call function argument ih => exact .called (isProper_unary function) (ih h)
  | call₂ function first second ihfirst ihsecond =>
    rw [literals, List.forall_mem_append] at h
    exact .called (isProper_binary function) ((ihfirst h.1).append_symbol rfl (ihsecond h.2))

/-! ## Reading written expressions -/

/-- What it says that tokens are read on a number of levels and more, whichever `*` they lack. -/
def ReadsFrom (least : Nat) (expression : Expression) (tokens : List Token) (strength : Strength) :
    Prop :=
  ∀ fewer, Omits tokens fewer → ∀ levels, least ≤ levels →
    Reads levels expression fewer strength

/-- Parentheses stay where a `*` between them is left out. -/
theorem omits_parenthesized {tokens fewer : List Token} (h : Omits (parenthesized tokens) fewer) :
    ∃ inner, Omits tokens inner ∧ fewer = parenthesized inner := by
  obtain ⟨behind, rfl, hbehind⟩ := h.of_cons (by decide)
  obtain ⟨inner, closed, hinner, hclosed, heq⟩ := hbehind.split (by decide)
  cases hclosed
  rcases heq with rfl | ⟨hc, -⟩
  · exact ⟨inner, hinner, rfl⟩
  · cases hc

section
variable {least : Nat} {expression left right : Expression} {tokens behind : List Token}

/-- More levels read the same. -/
theorem ReadsFrom.mono {strength : Strength} {more : Nat}
    (h : ReadsFrom least expression tokens strength) (hle : least ≤ more) :
    ReadsFrom more expression tokens strength :=
  fun fewer homits levels hlevels => h fewer homits levels (hle.trans hlevels)

/-- An operand is read in its place, two levels up. -/
theorem ReadsFrom.enclosed {own : Strength} (h : ReadsFrom least expression tokens own)
    (needed : Strength) :
    ReadsFrom (least + 2) expression (enclose needed own tokens) needed := by
  intro fewer homits levels hlevels
  obtain ⟨levels, rfl⟩ := Nat.exists_eq_add_of_le' hlevels
  unfold enclose at homits
  split at homits
  next hle =>
    -- only a primary expression in the place of a factor costs a level
    by_cases hown : own = .primary
    · subst hown
      by_cases hneeded : needed = .primary
      · subst hneeded
        exact h fewer homits _ (by omega)
      · exact (h fewer homits (levels + least + 1) (by omega)).lift hneeded
    · exact (h fewer homits _ (by omega)).weaken hle hown
  next hlt =>
    -- no primary expression stands in parentheses, so that the inside is a sum on its own levels
    obtain ⟨inner, hinner, rfl⟩ := omits_parenthesized homits
    have hown : own ≠ .primary := by
      rintro rfl
      cases needed <;> exact hlt (by decide)
    have hsum (levels : Nat) (hlevels : least ≤ levels) : Reads levels expression inner .sum :=
      (h inner hinner levels hlevels).weaken (Nat.zero_le _) hown
    by_cases hneeded : needed = .primary
    · subst hneeded
      exact (hsum (levels + least + 1) (by omega)).inParentheses
    · exact (hsum (levels + least) (by omega)).inParentheses.lift hneeded

/-- An operation is read from its operands. -/
theorem ReadsFrom.operation {operator : Operator}
    (hleft : ReadsFrom least left tokens operator.left)
    (hright : ReadsFrom least right behind operator.right) :
    ReadsFrom (least + 1) (.operation operator left right)
      (tokens ++ .symbol operator.symbol :: behind) operator.strength := by
  intro fewer homits levels hlevels
  have hsymbol : operator.symbol ≠ '(' := by cases operator <;> decide
  obtain ⟨tokens', behind', hleft', hright', heq⟩ := homits.split hsymbol
  have hl (levels : Nat) (hlevels : least ≤ levels) : Reads levels left tokens' operator.left :=
    hleft tokens' hleft' levels hlevels
  have hr (levels : Nat) (hlevels : least ≤ levels) : Reads levels right behind' operator.right :=
    hright behind' hright' levels hlevels
  have hkept (hne : operator.symbol ≠ '*') :
      fewer = tokens' ++ .symbol operator.symbol :: behind' := by
    rcases heq with heq | ⟨hc, -⟩
    · exact heq
    · exact absurd hc hne
  cases operator with
  | add | subtract =>
    rw [hkept (by decide)]
    exact .sum_operation rfl (hl levels (by omega)) (hr levels (by omega))
  | multiply =>
    rcases heq with rfl | ⟨-, rfl, hnext⟩
    · exact .product_operation rfl (hl levels (by omega)) (hr levels (by omega))
    · exact .juxtaposed (hl levels (by omega)) (hr levels (by omega)) hnext
  | divide =>
    rw [hkept (by decide)]
    exact .product_operation rfl (hl levels (by omega)) (hr levels (by omega))
  | power =>
    rw [hkept (by decide)]
    obtain ⟨levels, rfl⟩ := Nat.exists_eq_add_of_le' hlevels
    exact .power_operation (hl (levels + least) (by omega)) (hr (levels + least) (by omega))

/-- A sign is read in front of its operand. -/
theorem ReadsFrom.negated (h : ReadsFrom least expression tokens .factor) :
    ReadsFrom (least + 1) (.negate expression) (.symbol '-' :: tokens) .factor := by
  intro fewer homits levels hlevels
  obtain ⟨levels, rfl⟩ := Nat.exists_eq_add_of_le' hlevels
  obtain ⟨behind, rfl, hbehind⟩ := homits.of_cons (by decide)
  exact (h behind hbehind (levels + least) (by omega)).negated

/-- An argument stands in no place that needs a strength. -/
theorem ReadsFrom.argument {own : Strength} (h : ReadsFrom least expression tokens own) :
    ReadsFrom (least + 2) expression tokens .sum := by
  have hsum := h.enclosed .sum
  rwa [enclose, if_pos (show Strength.sum.rank ≤ _ from Nat.zero_le _)] at hsum

/-- A call takes one level more than its argument, which stands in parentheses. -/
theorem ReadsFrom.called (h : ReadsFrom least expression tokens .sum) (function : Unary) :
    ReadsFrom (least + 1) (.call function expression)
      (.name false function.name :: parenthesized tokens) .primary := by
  intro fewer homits levels hlevels
  obtain ⟨levels, rfl⟩ := Nat.exists_eq_add_of_le' hlevels
  obtain ⟨_, rfl, hlist⟩ := homits.of_cons (by nofun)
  obtain ⟨inner, hinner, rfl⟩ := omits_parenthesized hlist
  exact (h inner hinner (levels + least) (by omega)).called function

/-- The same holds of a call with two arguments, the comma between them being no part of either. -/
theorem ReadsFrom.called₂ (hfirst : ReadsFrom least left tokens .sum)
    (hsecond : ReadsFrom least right behind .sum) (function : Binary) :
    ReadsFrom (least + 1) (.call₂ function left right)
      (.name false function.name :: parenthesized (tokens ++ .symbol ',' :: behind)) .primary := by
  intro fewer homits levels hlevels
  obtain ⟨levels, rfl⟩ := Nat.exists_eq_add_of_le' hlevels
  obtain ⟨_, rfl, hlist⟩ := homits.of_cons (by nofun)
  obtain ⟨inner, hinner, rfl⟩ := omits_parenthesized hlist
  obtain ⟨first, second, hfirst', hsecond', heq⟩ := hinner.split (by decide)
  rcases heq with rfl | ⟨hc, -⟩
  · exact (hfirst first hfirst' (levels + least) (by omega)).called₂
      (hsecond second hsecond' (levels + least) (by omega)) function
  · cases hc

/-- A word that is an expression by itself. -/
theorem readsFrom_word {word : Token} (hword : word.isWord = true)
    (h : ∀ levels, Reads (levels + 1) expression [word] .primary) :
    ReadsFrom 1 expression [word] .primary := by
  intro fewer homits levels hlevels
  obtain ⟨levels, rfl⟩ := Nat.exists_eq_add_of_le' hlevels
  obtain ⟨_, rfl, hnil⟩ := homits.of_cons (by
    rintro rfl
    cases hword)
  cases hnil
  exact h levels

end

/-- The tokens of an expression are read by the part of the grammar for its strength. -/
theorem readsFrom_tokens {expression : Expression}
    (h : ∀ value ∈ expression.literals, IsLiteral value) :
    ReadsFrom (3 * expression.height + 1) expression expression.tokens expression.strength := by
  -- an operand is read two levels above its own strength, and the operation takes the third
  induction expression with
  | number value =>
    exact readsFrom_word rfl (reads_number (h value (List.mem_singleton_self value)).2.2)
  | x | y => exact readsFrom_word rfl fun _ _ => rfl
  | negate inner ih => exact ((ih h).enclosed .factor).negated
  | operation operator left right ihleft ihright =>
    rw [literals, List.forall_mem_append] at h
    rw [height]
    refine .operation (((ihleft h.1).enclosed operator.left).mono ?_)
      (((ihright h.2).enclosed operator.right).mono ?_) <;> omega
  | call function argument ih => exact (ih h).argument.called function
  | call₂ function first second ihfirst ihsecond =>
    rw [literals, List.forall_mem_append] at h
    rw [height]
    refine .called₂ ((ihfirst h.1).argument.mono ?_) ((ihsecond h.2).argument.mono ?_) function <;>
      omega

/-- The tokens of an expression are parsed to it, whichever `*` they lack. -/
theorem parse_omits {expression : Expression}
    (hheight : expression.height ≤ 80) (h : ∀ value ∈ expression.literals, IsLiteral value)
    {fewer : List Token} (homits : Omits expression.tokens fewer) :
    parse fewer = .ok expression := by
  have hlevels : 3 * expression.height + 1 + 2 ≤ maxLevels := by
    unfold maxLevels
    omega
  exact parse_of_reads ((readsFrom_tokens h).argument fewer homits maxLevels hlevels)

/-- Every layout of the tokens of an expression is compiled to the expression, and there is one:
for every expression of height at most 80 whose numbers are finite, have no sign and are read back
from what is written for them. -/
theorem compile_layout {expression : Expression} (hheight : expression.height ≤ 80)
    (hliterals : ∀ value ∈ expression.literals, IsLiteral value) :
    Layout expression.tokens (expression.tokens.flatMap Token.text) ∧
      ∀ text, Layout expression.tokens text → compile text = .ok expression := by
  refine ⟨layout_flatMap _, ?_⟩
  intro text htext
  obtain ⟨fewer, homits, hlex⟩ := htext.lex (areApart_tokens hliterals)
  rw [compile, lex, hlex 0]
  exact parse_omits hheight hliterals homits

/-- A sign in front of a product, a factor that follows without an operator, a base in parentheses
and a sign in the exponent. -/
theorem compile_layout_juxtaposed :
    ∃ (expression : Expression) (text : Text),
      expression = .operation .multiply (.negate (.number 2))
        (.operation .power (.operation .add .x (.number 0.5)) (.negate (.call .sin .y))) ∧
      text = "-2 (x + 0.5)^-sin(y)" ∧
      expression.height ≤ 80 ∧ (∀ value ∈ expression.literals, IsLiteral value) ∧
      Layout expression.tokens text ∧ compile text = .ok expression := by
  have hliterals : ∀ value ∈ [(2 : Float), 0.5], IsLiteral value := by decide +kernel
  have spaced (token : Token) {rest : List Token} {text : Text} (h : Layout rest text) :
    Layout (token :: rest) ([' '] ++ (token.text ++ text)) := Layout.token rfl h
  have hexponent : Layout
      [.symbol '^', .symbol '-', .name false "sin", .symbol '(', .name false "y", .symbol ')']
      "^-sin(y)" :=
    .adjacent (.symbol '^') (.adjacent (.symbol '-') (.adjacent (.name false "sin")
      (.adjacent (.symbol '(') (.adjacent (.name false "y") (.adjacent (.symbol ')')
        (.done rfl))))))
  have hlayout : Layout
      (.symbol '-' :: .number (plain 2) :: .symbol '*' :: .symbol '(' :: .name false "x" ::
        .symbol '+' :: .number (plain 0.5) :: .symbol ')' ::
        [.symbol '^', .symbol '-', .name false "sin", .symbol '(', .name false "y", .symbol ')'])
      "-2 (x + 0.5)^-sin(y)" := by
    rw [show plain 2 = ['2'] by decide +kernel, show plain 0.5 = ['0', '.', '5'] by decide +kernel]
    exact .adjacent (.symbol '-') (.adjacent (.number ['2']) (@Layout.times [' '] _ _ _ rfl
      (by decide) rfl (.adjacent (.symbol '(') (.adjacent (.name false "x") (spaced (.symbol '+')
        (spaced (.number ['0', '.', '5']) (.adjacent (.symbol ')') hexponent)))))))
  refine ⟨_, _, rfl, rfl, by decide, hliterals, hlayout, ?_⟩
  exact (compile_layout (by decide) (by exact hliterals)).2 _ hlayout

end TexFigure.Expression
