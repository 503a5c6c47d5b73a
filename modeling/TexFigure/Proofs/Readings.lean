import TexFigure.Proofs.Grammar
/-!
# Two readings side by side

When are two lists of tokens read as the same expression? It is enough to know how the lists begin
at every place that the grammar can come to (`Coupling`). Such a place is one where an operand is
due, or one where an operand has just ended; the lists are related there, their heads mean the
same, and what follows the heads is related again. Then both readings take the same steps
(`Follows`), and every part of the grammar keeps this when the parts that it is made of do
(`Keeps`). The levels of nesting are an induction over that.

The backslash of a name is the one thing that counts at some places only. The grammar passes over
it where an operand is due. Behind an operand a name is a factor whose operator was left out, and a
product looks for one at a letter, a digit, a point or a parenthesis. In front of a backslash the
product ends, and as nothing else goes on with one, the reading is stuck there. A coupling says
whether this may happen to the second reading.

> `Coupling.keeps_unary_primary`: every part of the grammar keeps a coupling, on all levels.
> `Coupling.parse`: so the second list is parsed to the same expression, or is stuck.
-/

namespace TexFigure.Expression

/-! ## Two lists of tokens -/

/-- Tokens that mean the same: one token, or names of one meaning. -/
inductive Alike : Token → Token → Prop
  | same (token : Token) : Alike token token
  | name (backslash backslash' : Bool) {word word' : Text}
    (h : meaningOf? word = meaningOf? word') :
    Alike (.name backslash word) (.name backslash' word')

/-- A symbol is like itself only. -/
theorem Alike.eq_symbol_iff {token token' : Token} (h : Alike token token') (c : Char) :
    token = .symbol c ↔ token' = .symbol c := by
  cases h with
  | same => exact Iff.rfl
  | name => exact ⟨nofun, nofun⟩

/-- Whether a token can be the last of an operand: a number, a variable, a constant, or a closing
delimiter. -/
def Token.endsOperand : Token → Bool
  | .number _ => true
  | .name _ word => (valueOf? word).isSome
  | .symbol c => c == ')' || c == '}'

/-- How two lists of tokens may begin, given whether an operand ends in front of them. A relation
holds of what follows their heads, and of the lists themselves where an operand is due: behind an
operand, that is where a factor follows without an operator. -/
inductive Heads (misplaced : Bool) (related : Bool → List Token → List Token → Prop) :
    (behind : Bool) → List Token → List Token → Prop
  | nil (behind : Bool) : Heads misplaced related behind [] []
  | stuck (h : misplaced = true) (word : Text) (rest : List Token) :
    Heads misplaced related true (.name false word :: rest) (.name true word :: rest)
  | due {token token' : Token} {rest rest' : List Token} (halike : Alike token token')
    (hrest : related token.endsOperand rest rest') :
    Heads misplaced related false (token :: rest) (token' :: rest')
  | behind {token token' : Token} {rest rest' : List Token} (halike : Alike token token')
    (hstarts : token.startsFactor = token'.startsFactor)
    (hdue : related false (token :: rest) (token' :: rest'))
    (hrest : related token.endsOperand rest rest') :
    Heads misplaced related true (token :: rest) (token' :: rest')

/-- A relation between lists of tokens, given whether an operand ends in front of them, that says
enough of their heads to read them side by side. The second list may hold a misplaced backslash. -/
structure Coupling (misplaced : Bool) (related : Bool → List Token → List Token → Prop) : Prop where
  length_eq {behind : Bool} {tokens tokens' : List Token} :
    related behind tokens tokens' → tokens.length = tokens'.length
  heads {behind : Bool} {tokens tokens' : List Token} :
    related behind tokens tokens' → Heads misplaced related behind tokens tokens'

/-- Tokens at a name with a backslash. -/
def AtMark (tokens : List Token) : Prop := ∃ word rest, tokens = .name true word :: rest

section
variable {misplaced behind : Bool} {related : Bool → List Token → List Token → Prop}
  {tokens tokens' : List Token}

/-- Either both lists start with a symbol, or none of them does. -/
theorem Coupling.symbol_cases (hcoupling : Coupling misplaced related)
    (h : related behind tokens tokens') (c : Char) :
    (∃ rest rest', tokens = .symbol c :: rest ∧ tokens' = .symbol c :: rest' ∧
      related (Token.symbol c).endsOperand rest rest') ∨
    (∀ rest, tokens ≠ .symbol c :: rest) ∧ ∀ rest, tokens' ≠ .symbol c :: rest := by
  have hsame {token token' : Token} {rest rest' : List Token} (halike : Alike token token')
      (hrest : related token.endsOperand rest rest') :
      (∃ behind behind', token :: rest = .symbol c :: behind ∧
        token' :: rest' = .symbol c :: behind' ∧
        related (Token.symbol c).endsOperand behind behind') ∨
      (∀ behind, token :: rest ≠ .symbol c :: behind) ∧
        ∀ behind, token' :: rest' ≠ .symbol c :: behind := by
    by_cases hsymbol : token = .symbol c
    · obtain rfl := (halike.eq_symbol_iff c).mp hsymbol
      subst hsymbol
      exact .inl ⟨rest, rest', rfl, rfl, hrest⟩
    · have hsymbol' := mt (halike.eq_symbol_iff c).mpr hsymbol
      exact .inr ⟨fun _ heq => hsymbol (List.cons.inj heq).1,
        fun _ heq => hsymbol' (List.cons.inj heq).1⟩
  cases hcoupling.heads h with
  | nil => exact .inr ⟨nofun, nofun⟩
  | stuck => exact .inr ⟨nofun, nofun⟩
  | due halike hrest => exact hsame halike hrest
  | behind halike _ _ hrest => exact hsame halike hrest

/-- Nothing goes on with a name that has a backslash. -/
theorem AtMark.noTerm (h : AtMark tokens) : NoTerm tokens := by
  obtain ⟨word, rest, rfl⟩ := h
  refine ⟨?_, ?_⟩ <;>
  · intro next hnext
    obtain rfl := Option.mem_some_iff.mp hnext
    simp [Token.startsFactor]

end

/-! ## Two readings -/

/-- A reading that fails, or is stuck at a name with a backslash. -/
def EndsIn {α : Type} (stuck : α → Prop) (reading : Except Fault α) : Prop :=
  ∀ answer, reading = .ok answer → stuck answer

/-- How the second of two readings follows the first: the first one fails, or the answers are
related, or the second list holds a misplaced backslash and its reading is stuck there. -/
inductive Follows {α : Type} (misplaced : Bool) (related : α → α → Prop) (stuck : α → Prop) :
    Except Fault α → Except Fault α → Prop
  | failed (fault : Fault) (reading' : Except Fault α) :
    Follows misplaced related stuck (.error fault) reading'
  | ok {answer answer' : α} (h : related answer answer') :
    Follows misplaced related stuck (.ok answer) (.ok answer')
  | lost (hmisplaced : misplaced = true) (reading : Except Fault α) {reading' : Except Fault α}
    (h : EndsIn stuck reading') : Follows misplaced related stuck reading reading'

section
variable {α β : Type} {misplaced : Bool} {related : α → α → Prop} {stuck : α → Prop}
  {related' : β → β → Prop} {stuck' : β → Prop}

theorem EndsIn.error (fault : Fault) : EndsIn stuck (.error fault) := nofun

theorem EndsIn.ok {answer : α} (h : stuck answer) : EndsIn stuck (.ok answer) := by
  rintro _ ⟨⟩
  exact h

/-- What is read behind a stuck reading is stuck as well, when it does not get further from there.
-/
theorem EndsIn.bind {reading : Except Fault α} {next : α → Except Fault β}
    (h : EndsIn stuck reading) (hnext : ∀ answer, stuck answer → EndsIn stuck' (next answer)) :
    EndsIn stuck' (reading >>= next) := by
  cases reading with
  | error fault => exact .error fault
  | ok answer => exact hnext answer (h answer rfl)

/-- A reading follows another when its first part does and whatever comes behind does, and what
comes behind a stuck reading is stuck there too. -/
theorem Follows.bind {reading reading' : Except Fault α} {next next' : α → Except Fault β}
    (h : Follows misplaced related stuck reading reading')
    (hnext : ∀ answer answer', related answer answer' →
      Follows misplaced related' stuck' (next answer) (next' answer'))
    (hstuck : ∀ answer, stuck answer → EndsIn stuck' (next' answer)) :
    Follows misplaced related' stuck' (reading >>= next) (reading' >>= next') := by
  cases h with
  | failed fault => exact .failed fault _
  | ok h => exact hnext _ _ h
  | lost hmisplaced _ h => exact .lost hmisplaced _ (h.bind hstuck)

end

section
variable {α : Type}

/-- The same result in front of lists that are related behind an operand. -/
def SameUpTo (related : Bool → List Token → List Token → Prop) (result result' : α × List Token) :
    Prop := result.1 = result'.1 ∧ related true result.2 result'.2

/-- A result in front of a name with a backslash. -/
def StuckAtMark (result : α × List Token) : Prop := AtMark result.2

/-- Whether a reader takes the same from lists that are related where an operand is due. -/
def Keeps (misplaced : Bool) (related : Bool → List Token → List Token → Prop)
    (reader : List Token → Except Fault (α × List Token)) : Prop :=
  ∀ ⦃tokens tokens' : List Token⦄, related false tokens tokens' →
    Follows misplaced (SameUpTo related) StuckAtMark (reader tokens) (reader tokens')

section
variable {β : Type} {misplaced : Bool} {related : Bool → List Token → List Token → Prop}

/-- A reading that goes on behind the result of another one, and does not get further where that is
stuck. -/
theorem Keeps.andThen {reader : List Token → Except Fault (α × List Token)}
    (next : α → List Token → Except Fault (β × List Token))
    (hreader : Keeps misplaced related reader) {tokens tokens' : List Token}
    (h : related false tokens tokens')
    (hnext : ∀ value {rest rest' : List Token}, related true rest rest' →
      Follows misplaced (SameUpTo related) StuckAtMark (next value rest) (next value rest'))
    (hstuck : ∀ value {rest : List Token}, AtMark rest → EndsIn StuckAtMark (next value rest)) :
    Follows misplaced (SameUpTo related) StuckAtMark
      (reader tokens >>= fun result => next result.1 result.2)
      (reader tokens' >>= fun result => next result.1 result.2) := by
  refine (hreader h).bind ?_ ?_
  · rintro ⟨value, rest⟩ ⟨_, rest'⟩ ⟨rfl, hrest⟩
    exact hnext value hrest
  · rintro ⟨value, rest⟩ hmark
    exact hstuck value hmark

/-- What is made of a result changes nothing of the tokens that are left. -/
theorem Follows.map {reading reading' : Except Fault (α × List Token)} (make : α → β)
    (h : Follows misplaced (SameUpTo related) StuckAtMark reading reading') :
    Follows misplaced (SameUpTo related) StuckAtMark
      (reading >>= fun result => return (make result.1, result.2))
      (reading' >>= fun result => return (make result.1, result.2)) := by
  refine h.bind ?_ ?_
  · rintro ⟨value, rest⟩ ⟨_, rest'⟩ ⟨rfl, hrest⟩
    exact .ok ⟨rfl, hrest⟩
  · rintro ⟨value, rest⟩ hmark
    exact .ok hmark

end

end

/-! ## Sums, products and powers -/

section
variable {tokens : List Token}

/-- A product ends in front of a backslash, whatever it has read. -/
theorem AtMark.productFrom (h : AtMark tokens) (factor : Grammar) (fuel : Nat)
    (left : Expression) : EndsIn StuckAtMark (productFrom factor fuel left tokens) := by
  rw [productFrom_of_noFactor h.noTerm.1]
  exact .ok h

/-- A sum ends there as well. -/
theorem AtMark.sumFrom (h : AtMark tokens) (term : Grammar) (fuel : Nat) (left : Expression) :
    EndsIn StuckAtMark (sumFrom term fuel left tokens) := by
  rw [sumFrom_of_noTerm h.noTerm]
  exact .ok h

end

section
variable {misplaced : Bool} {related : Bool → List Token → List Token → Prop}
  (hcoupling : Coupling misplaced related) {factor term base exponent inner below : Grammar}

include hcoupling

/-- A product goes on in both lists or in neither: at an operator, or at a token that starts a
factor, and there alone the lists may differ in a backslash. -/
theorem Coupling.follows_productFrom (hfactor : Keeps misplaced related factor) (fuel : Nat)
    (left : Expression) {tokens tokens' : List Token} (h : related true tokens tokens') :
    Follows misplaced (SameUpTo related) StuckAtMark (productFrom factor fuel left tokens)
      (productFrom factor fuel left tokens') := by
  induction fuel generalizing left tokens tokens' with
  | zero => exact .ok ⟨rfl, h⟩
  | succ fuel ih =>
    have hgoesOn (operator : Operator) {behind behind' : List Token}
        (hbehind : related false behind behind') :
        Follows misplaced (SameUpTo related) StuckAtMark
          (factor behind >>= fun right =>
            productFrom factor fuel (.operation operator left right.1) right.2)
          (factor behind' >>= fun right =>
            productFrom factor fuel (.operation operator left right.1) right.2) :=
      hfactor.andThen (fun right => productFrom factor fuel (.operation operator left right))
        hbehind (fun _ => ih _) (fun _ _ hmark => hmark.productFrom factor fuel _)
    cases hcoupling.heads h with
    | nil => exact .ok ⟨rfl, h⟩
    | stuck hmisplaced word rest =>
      -- the name would be a factor, but not with its backslash
      have hmark : AtMark (.name true word :: rest) := ⟨word, rest, rfl⟩
      exact .lost hmisplaced _ (hmark.productFrom factor _ left)
    | behind halike hstarts hdue hrest =>
      rw [productFrom, productFrom]
      simp only [← halike.eq_symbol_iff, ← hstarts]
      split
      next htimes =>
        subst htimes
        exact hgoesOn .multiply hrest
      next =>
        split
        next hover =>
          subst hover
          exact hgoesOn .divide hrest
        next =>
          split
          · exact hgoesOn .multiply hdue
          · exact .ok ⟨rfl, h⟩

/-- A product keeps a coupling when its factors do. -/
theorem Coupling.keeps_product (hfactor : Keeps misplaced related factor) :
    Keeps misplaced related (product factor) := by
  intro tokens tokens' h
  refine hfactor.andThen (fun left rest => productFrom factor rest.length left rest) h ?_ ?_
  · intro left rest rest' hrest
    rw [hcoupling.length_eq hrest]
    exact hcoupling.follows_productFrom hfactor _ left hrest
  · intro left rest hmark
    exact hmark.productFrom factor _ left

/-- A sum goes on at the same operators in both lists. -/
theorem Coupling.follows_sumFrom (hterm : Keeps misplaced related term) (fuel : Nat)
    (left : Expression) {tokens tokens' : List Token} (h : related true tokens tokens') :
    Follows misplaced (SameUpTo related) StuckAtMark (sumFrom term fuel left tokens)
      (sumFrom term fuel left tokens') := by
  induction fuel generalizing left tokens tokens' with
  | zero => exact .ok ⟨rfl, h⟩
  | succ fuel ih =>
    have hgoesOn (operator : Operator) {behind behind' : List Token}
        (hbehind : related false behind behind') :
        Follows misplaced (SameUpTo related) StuckAtMark
          (term behind >>= fun right =>
            sumFrom term fuel (.operation operator left right.1) right.2)
          (term behind' >>= fun right =>
            sumFrom term fuel (.operation operator left right.1) right.2) :=
      hterm.andThen (fun right => sumFrom term fuel (.operation operator left right))
        hbehind (fun _ => ih _) (fun _ _ hmark => hmark.sumFrom term fuel _)
    cases hcoupling.heads h with
    | nil => exact .ok ⟨rfl, h⟩
    | stuck => exact .ok ⟨rfl, h⟩
    | behind halike _ _ hrest =>
      rw [sumFrom, sumFrom]
      simp only [← halike.eq_symbol_iff]
      split
      next hplus =>
        subst hplus
        exact hgoesOn .add hrest
      next =>
        split
        next hminus =>
          subst hminus
          exact hgoesOn .subtract hrest
        next => exact .ok ⟨rfl, h⟩

/-- A sum keeps a coupling when its factors do. -/
theorem Coupling.keeps_sum (hfactor : Keeps misplaced related factor) :
    Keeps misplaced related (sum factor) := by
  intro tokens tokens' h
  have hproduct := hcoupling.keeps_product hfactor
  refine hproduct.andThen (fun left rest => sumFrom (product factor) rest.length left rest) h ?_ ?_
  · intro left rest rest' hrest
    rw [hcoupling.length_eq hrest]
    exact hcoupling.follows_sumFrom hproduct _ left hrest
  · intro left rest hmark
    exact hmark.sumFrom _ _ left

/-- A power keeps a coupling when its base and its exponent do. -/
theorem Coupling.keeps_power (hbase : Keeps misplaced related base)
    (hexponent : Keeps misplaced related exponent) :
    Keeps misplaced related (power base exponent) := by
  intro tokens tokens' h
  refine (hbase h).bind ?_ ?_
  · rintro ⟨left, rest⟩ ⟨_, rest'⟩ ⟨rfl, hrest⟩
    rcases hcoupling.symbol_cases hrest '^' with ⟨behind, behind', heq, heq', hbehind⟩ | ⟨hno, hno'⟩
    · dsimp only at heq heq' ⊢
      subst heq heq'
      exact (hexponent hbehind).map (Expression.operation .power left)
    · dsimp only at hno hno' hrest ⊢
      split
      next => exact absurd rfl (hno _)
      next => exact .ok ⟨rfl, hrest⟩
  · rintro ⟨left, rest⟩ ⟨word, behind, rfl⟩
    exact .ok ⟨word, behind, rfl⟩

/-- A signed operand keeps a coupling when the operand does: a sign is a symbol, which both lists
have or neither. -/
theorem Coupling.keeps_signed (hinner : Keeps misplaced related inner)
    (hbelow : Keeps misplaced related below) : Keeps misplaced related (signed inner below) := by
  intro tokens tokens' h
  rcases hcoupling.symbol_cases h '-' with ⟨rest, rest', rfl, rfl, hrest⟩ | ⟨hminus, hminus'⟩
  · exact (hinner hrest).map Expression.negate
  · rcases hcoupling.symbol_cases h '+' with ⟨rest, rest', rfl, rfl, hrest⟩ | ⟨hplus, hplus'⟩
    · exact hinner hrest
    · unfold signed
      split
      next => exact absurd rfl (hminus _)
      next => exact absurd rfl (hplus _)
      next => exact hbelow h

end

/-! ## Names, calls and levels -/

section
variable {misplaced : Bool} {related : Bool → List Token → List Token → Prop}
  (hcoupling : Coupling misplaced related) {argument sum power : Grammar}
  {tokens tokens' : List Token}

/-- The names that end an operand are those that stand for a value, as no function has the name of
one. -/
theorem isSome_valueOf?_iff {word : Text} :
    (valueOf? word).isSome = true ↔ ∃ expression, meaningOf? word = some (.value expression) := by
  rw [meaningOf?]
  cases valueOf? word with
  | some expression => exact ⟨fun _ => ⟨expression, rfl⟩, fun _ => rfl⟩
  | none =>
    refine ⟨nofun, ?_⟩
    rintro ⟨expression, h⟩
    cases hunary : unaryOf? word <;> simp [hunary] at h

/-- Whether a call is made of its arguments alone: in front of whatever follows, it is made of some
lists of arguments and of no others. -/
def Makes (make : List Expression → Option Expression)
    (build : List Expression × Side × List Token → Except Fault (Expression × List Token)) :
    Prop :=
  ∀ given side rest,
    (∃ call, make given = some call ∧ build (given, side, rest) = .ok (call, rest)) ∨
    make given = none ∧ ∃ fault, build (given, side, rest) = .error fault

/-- The call of a function of one argument. -/
def callOne? (function : Unary) : List Expression → Option Expression
  | [argument] => some (.call function argument)
  | _ => none

/-- The call of a function of two arguments. -/
def callTwo? (function : Binary) : List Expression → Option Expression
  | [first, second] => some (.call₂ function first second)
  | _ => none

theorem Makes.eq_ok {make : List Expression → Option Expression}
    {build : List Expression × Side × List Token → Except Fault (Expression × List Token)}
    (h : Makes make build) {given : List Expression} {call : Expression}
    (hmake : make given = some call) {side : Side} {rest : List Token} :
    build (given, side, rest) = .ok (call, rest) := by
  rcases h given side rest with ⟨_, hmake', hcall⟩ | ⟨hnone, -⟩
  · rw [hcall, Option.some.inj (hmake'.symm.trans hmake)]
  · rw [hmake] at hnone
    cases hnone

/-- No symbol is read at a name. -/
theorem AtMark.expect {α : Type} (h : AtMark tokens) (c : Char) (stuck : α → Prop)
    (next : List Token → Except Fault α) : EndsIn stuck (expect c tokens >>= next) := by
  obtain ⟨word, rest, rfl⟩ := h
  exact .error _

theorem AtMark.argumentsFrom (h : AtMark tokens) (argument : Grammar) (fuel : Nat) :
    EndsIn StuckAtMark (argumentsFrom argument fuel tokens) := by
  obtain ⟨word, rest, rfl⟩ := h
  cases fuel <;> exact .ok ⟨word, rest, rfl⟩

include hcoupling

/-- A closing delimiter is read from both lists, or not from the first. -/
theorem Coupling.follows_expect {c : Char} (hc : (Token.symbol c).endsOperand = true)
    (h : related true tokens tokens') :
    Follows misplaced (related true) (fun _ => False) (expect c tokens) (expect c tokens') := by
  rcases hcoupling.symbol_cases h c with ⟨rest, rest', rfl, rfl, hrest⟩ | ⟨hno, -⟩
  · rw [hc] at hrest
    rw [expect, expect, if_pos rfl, if_pos rfl]
    exact .ok hrest
  · have hfail : ∃ fault, expect c tokens = .error fault := by
      unfold expect
      split
      next d rest =>
        have hne : d ≠ c := by
          rintro rfl
          exact hno rest rfl
        exact ⟨_, if_neg hne⟩
      next => exact ⟨_, rfl⟩
    obtain ⟨fault, hfault⟩ := hfail
    rw [hfault]
    exact .failed fault _

/-- A list of arguments goes on at the same commas in both lists. -/
theorem Coupling.follows_argumentsFrom (hargument : Keeps misplaced related argument) (fuel : Nat)
    (h : related true tokens tokens') :
    Follows misplaced (SameUpTo related) StuckAtMark (argumentsFrom argument fuel tokens)
      (argumentsFrom argument fuel tokens') := by
  induction fuel generalizing tokens tokens' with
  | zero => exact .ok ⟨rfl, h⟩
  | succ fuel ih =>
    rcases hcoupling.symbol_cases h ',' with ⟨rest, rest', rfl, rfl, hrest⟩ | ⟨hno, hno'⟩
    · refine hargument.andThen (fun first rest => argumentsFrom argument fuel rest >>=
        fun others => return (first :: others.1, others.2)) hrest ?_ ?_
      · intro first rest rest' hrest
        exact (ih hrest).map (first :: ·)
      · intro first rest hmark
        refine (hmark.argumentsFrom argument fuel).bind ?_
        rintro ⟨others, rest⟩ hmark
        exact .ok hmark
    · unfold argumentsFrom
      split
      next => exact absurd rfl (hno _)
      next => exact .ok ⟨rfl, h⟩

/-- The arguments of a call, in front of lists that are related behind an operand. -/
def SameArgumentsUpTo (related : Bool → List Token → List Token → Prop)
    (result result' : List Expression × Side × List Token) : Prop :=
  result.1 = result'.1 ∧ related true result.2.2 result'.2.2

/-- The arguments of a call, in front of a name with a backslash. -/
def StuckBehindArguments (result : List Expression × Side × List Token) : Prop :=
  AtMark result.2.2

/-- Arguments stand in the same delimiters in both lists, or are the one operand that follows. -/
theorem Coupling.follows_arguments (hsum : Keeps misplaced related sum)
    (hpower : Keeps misplaced related power) (h : related false tokens tokens') :
    Follows misplaced (SameArgumentsUpTo related) StuckBehindArguments
      (arguments sum power tokens) (arguments sum power tokens') := by
  rcases hcoupling.symbol_cases h '(' with ⟨rest, rest', rfl, rfl, hrest⟩ | ⟨hno, hno'⟩
  · refine (hsum hrest).bind ?_ ?_
    · rintro ⟨first, rest⟩ ⟨_, rest'⟩ ⟨rfl, hrest⟩
      dsimp only at hrest ⊢
      rw [hcoupling.length_eq hrest]
      refine (hcoupling.follows_argumentsFrom hsum _ hrest).bind ?_ ?_
      · rintro ⟨others, rest⟩ ⟨_, rest'⟩ ⟨rfl, hrest⟩
        refine (hcoupling.follows_expect rfl hrest).bind ?_ nofun
        intro rest rest' hrest
        exact .ok ⟨rfl, hrest⟩
      · rintro ⟨others, rest⟩ hmark
        exact hmark.expect ')' _ _
    · rintro ⟨first, rest⟩ hmark
      refine (hmark.argumentsFrom sum _).bind ?_
      rintro ⟨others, rest⟩ hmark
      exact hmark.expect ')' _ _
  · unfold arguments
    split
    next => exact absurd rfl (hno _)
    next =>
      refine (hpower h).bind ?_ ?_
      · rintro ⟨argument, rest⟩ ⟨_, rest'⟩ ⟨rfl, hrest⟩
        exact .ok ⟨rfl, hrest⟩
      · rintro ⟨argument, rest⟩ hmark
        exact .ok hmark

/-- Both calls are made of the same arguments, so that they are the same call or the same fault. -/
theorem Coupling.follows_call (make : List Expression → Option Expression)
    {build build' : List Expression × Side × List Token → Except Fault (Expression × List Token)}
    (hbuild : Makes make build) (hbuild' : Makes make build') (hsum : Keeps misplaced related sum)
    (hpower : Keeps misplaced related power) (h : related false tokens tokens') :
    Follows misplaced (SameUpTo related) StuckAtMark (arguments sum power tokens >>= build)
      (arguments sum power tokens' >>= build') := by
  refine (hcoupling.follows_arguments hsum hpower h).bind ?_ ?_
  · rintro ⟨given, side, rest⟩ ⟨_, side', rest'⟩ ⟨rfl, hrest⟩
    rcases hbuild given side rest with ⟨call, hmake, hcall⟩ | ⟨-, fault, hfault⟩
    · rw [hcall, hbuild'.eq_ok hmake]
      exact .ok ⟨rfl, hrest⟩
    · rw [hfault]
      exact .failed fault _
  · rintro ⟨given, side, rest⟩ hmark
    rcases hbuild' given side rest with ⟨call, -, hcall⟩ | ⟨-, fault, hfault⟩
    · rw [hcall]
      exact .ok hmark
    · rw [hfault]
      exact .error fault

/-- Names of one meaning are read alike, whether they stand for a value, of which they are the last
token, or for a function, behind which an operand is due. -/
theorem Coupling.follows_named (hsum : Keeps misplaced related sum)
    (hpower : Keeps misplaced related power) {word word' : Text}
    (hword : meaningOf? word = meaningOf? word')
    (h : related (valueOf? word).isSome tokens tokens') :
    Follows misplaced (SameUpTo related) StuckAtMark (named sum power word tokens)
      (named sum power word' tokens') := by
  rw [named, named, ← hword]
  cases hmeaning : meaningOf? word with
  | none => exact .failed _ _
  | some meaning =>
    have hfunction (hmeaning' : ∀ expression, meaning ≠ .value expression) :
        (valueOf? word).isSome = false := by
      rw [Bool.eq_false_iff]
      intro hvalue
      obtain ⟨expression, heq⟩ := isSome_valueOf?_iff.mp hvalue
      exact hmeaning' expression (Option.some.inj (hmeaning.symm.trans heq))
    cases meaning with
    | value expression =>
      rw [isSome_valueOf?_iff.mpr ⟨expression, hmeaning⟩] at h
      exact .ok ⟨rfl, h⟩
    | unary function =>
      rw [hfunction (by simp)] at h
      refine hcoupling.follows_call (callOne? function) ?_ ?_ hsum hpower h <;>
      · intro given side rest
        rcases given with _ | ⟨argument, _ | ⟨second, others⟩⟩
        · exact .inr ⟨rfl, _, rfl⟩
        · exact .inl ⟨_, rfl, rfl⟩
        · exact .inr ⟨rfl, _, rfl⟩
    | binary function =>
      rw [hfunction (by simp)] at h
      refine hcoupling.follows_call (callTwo? function) ?_ ?_ hsum hpower h <;>
      · intro given side rest
        rcases given with _ | ⟨first, _ | ⟨second, _ | ⟨third, others⟩⟩⟩
        · exact .inr ⟨rfl, _, rfl⟩
        · exact .inr ⟨rfl, _, rfl⟩
        · exact .inl ⟨_, rfl, rfl⟩
        · exact .inr ⟨rfl, _, rfl⟩

/-- An expression between an opening delimiter and a closing one. -/
theorem Coupling.follows_enclosed (hsum : Keeps misplaced related sum) {close : Char}
    (hclose : (Token.symbol close).endsOperand = true)
    (h : related false tokens tokens') :
    Follows misplaced (SameUpTo related) StuckAtMark
      (sum tokens >>= fun (inner, rest) => do return (inner, ← expect close rest))
      (sum tokens' >>= fun (inner, rest) => do return (inner, ← expect close rest)) := by
  refine hsum.andThen (fun inner rest => do return (inner, ← expect close rest)) h ?_ ?_
  · intro inner rest rest' hrest
    refine (hcoupling.follows_expect hclose hrest).bind ?_ nofun
    intro rest rest' hrest
    exact .ok ⟨rfl, hrest⟩
  · intro inner rest hmark
    exact hmark.expect close _ _

/-- An atom asks of a name what it stands for, and nothing else. -/
theorem Coupling.keeps_atom (hsum : Keeps misplaced related sum)
    (hpower : Keeps misplaced related power) : Keeps misplaced related (atom sum power) := by
  intro tokens tokens' h
  cases hcoupling.heads h with
  | nil => exact .failed _ _
  | @due token _ rest rest' halike hrest =>
    cases halike with
    | name _ _ hword => exact hcoupling.follows_named hsum hpower hword hrest
    | same =>
      cases token with
      | number digits =>
        rw [atom, atom]
        cases Decimal.readFloat? digits with
        | none => exact .failed _ _
        | some value => exact .ok ⟨rfl, hrest⟩
      | name backslash word => exact hcoupling.follows_named hsum hpower rfl hrest
      | symbol c =>
        by_cases hparen : c = '('
        · subst hparen
          exact hcoupling.follows_enclosed hsum rfl hrest
        · by_cases hbrace : c = '{'
          · subst hbrace
            exact hcoupling.follows_enclosed hsum rfl hrest
          · have hatom (rest : List Token) : atom sum power (.symbol c :: rest) =
                fail (.unexpected c) .next (.symbol c :: rest) := by
              unfold atom
              split <;> simp_all
            rw [hatom]
            exact .failed _ _

end

/-- An expression is parsed when a sum takes all tokens. -/
theorem parse_eq_ok_iff {tokens : List Token} {expression : Expression} :
    parse tokens = .ok expression ↔ sum (unary maxLevels) tokens = .ok (expression, []) := by
  rw [parse]
  cases sum (unary maxLevels) tokens with
  | error fault => simp [bind, Except.bind]
  | ok answer =>
    obtain ⟨value, rest⟩ := answer
    cases rest <;> simp [pure, Except.pure, bind, Except.bind, fail]

section
variable {misplaced : Bool} {related : Bool → List Token → List Token → Prop}
  (hcoupling : Coupling misplaced related)

include hcoupling

/-- On every level, factors and bases are read alike from both lists. -/
theorem Coupling.keeps_unary_primary (levels : Nat) :
    Keeps misplaced related (unary levels) ∧ Keeps misplaced related (primary levels) := by
  induction levels with
  | zero => exact ⟨fun _ _ _ => .failed _ _, fun _ _ _ => .failed _ _⟩
  | succ levels ih =>
    obtain ⟨hunary, hprimary⟩ := ih
    have hpower := hcoupling.keeps_power hprimary hunary
    exact ⟨hcoupling.keeps_signed hunary hpower,
      hcoupling.keeps_atom (hcoupling.keeps_sum hunary) hpower⟩

/-- What the first list is parsed to, the second one is parsed to as well, with nothing left of
either. If not, its reading is stuck at a misplaced backslash, and it is parsed to nothing. -/
theorem Coupling.parse {tokens tokens' : List Token} {expression : Expression}
    (h : related false tokens tokens') (hparse : parse tokens = .ok expression) :
    related true [] [] ∧ parse tokens' = .ok expression ∨
      misplaced = true ∧ ∀ expression', parse tokens' ≠ .ok expression' := by
  have hsum := hcoupling.keeps_sum (hcoupling.keeps_unary_primary maxLevels).1 h
  simp only [ne_eq, parse_eq_ok_iff] at hparse ⊢
  rw [hparse] at hsum
  generalize sum (unary maxLevels) tokens' = reading' at hsum ⊢
  cases hsum with
  | @ok _ answer' hsame =>
    obtain ⟨value, rest⟩ := answer'
    obtain ⟨rfl, hrest⟩ := hsame
    obtain rfl : rest = [] := List.eq_nil_of_length_eq_zero (hcoupling.length_eq hrest).symm
    exact .inl ⟨hrest, rfl⟩
  | lost hmisplaced _ hstuck =>
    refine .inr ⟨hmisplaced, fun expression' hanswer => ?_⟩
    obtain ⟨word, rest, hmark⟩ := hstuck _ hanswer
    cases hmark

end

end TexFigure.Expression
