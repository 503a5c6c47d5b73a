import TexFigure.Proofs.Numerals
/-!
# Tokens laid out in a text

Tokens are laid out with any blanks before, between and behind them, and a `*` may give way to
blanks where the next token starts with a letter, a digit, a point or a parenthesis (`Layout`).
Blanks are needed only between two words, which would run together otherwise, so that tokens with
a symbol between any two words (`AreApart`) can stand side by side.

> `Layout.lex`: a layout is read as its tokens, but for the `*` that gave way (`Omits`).
-/

namespace TexFigure.Expression

/-! ## The text of a token -/

/-- The characters of a token. -/
def Token.text : Token → Text
  | .number digits => digits
  | .name backslash word => if backslash then '\\' :: word else word
  | .symbol c => [c]

/-- Whether a token is a number or a name. -/
def Token.isWord : Token → Bool
  | .number _ | .name _ _ => true
  | .symbol _ => false

/-- Whether a character is a token of its own. -/
def isSymbol (c : Char) : Bool := !isBlank c && !isMantissa c && c != '\\' && !c.isAlpha

/-- Tokens that are read from their own characters. -/
inductive Token.IsProper : Token → Prop
  | number {digits : Text} (hne : digits ≠ []) (h : digits.all isMantissa = true) :
    IsProper (.number digits)
  | name {c : Char} {rest : Text} (hc : c.isAlpha = true) (h : rest.all Char.isAlphanum = true) :
    IsProper (.name false (c :: rest))
  | symbol {c : Char} (hc : isSymbol c = true) : IsProper (.symbol c)

theorem toNat_of_isAlpha {c : Char} (h : c.isAlpha = true) :
    65 ≤ c.toNat ∧ c.toNat ≤ 90 ∨ 97 ≤ c.toNat ∧ c.toNat ≤ 122 := by
  change (decide (c.val ≥ 65 ∧ c.val ≤ 90) || decide (c.val ≥ 97) && decide (c.val ≤ 122)) = true
    at h
  simp only [Bool.or_eq_true, Bool.and_eq_true, decide_eq_true_eq, UInt32.le_iff_toNat_le,
    ge_iff_le] at h
  exact h

theorem not_isBlank_of_isAlphanum {c : Char} (h : c.isAlphanum = true) : isBlank c = false := by
  rw [Char.isAlphanum, Bool.or_eq_true] at h
  rcases h with h | h
  · have hval := toNat_of_isAlpha h
    simp only [isBlank, Bool.or_eq_false_iff, Bool.and_eq_false_iff, decide_eq_false_iff_not,
      beq_eq_false_iff_ne]
    omega
  · exact not_isBlank_of_isMantissa (Decimal.isMantissa_of_isDigit h)

theorem not_isMantissa_of_isAlpha {c : Char} (h : c.isAlpha = true) : isMantissa c = false := by
  have hval := toNat_of_isAlpha h
  refine Bool.eq_false_iff.mpr ?_
  intro hmantissa
  have := Decimal.toNat_of_isMantissa hmantissa
  omega

/-- A proper token in front of a text is read from it; behind a word the text does not go on. -/
theorem lexFrom_token {token : Token} (h : token.IsProper) {rest : Text}
    (hrest : token.isWord = true → EndsWord rest) (position : Nat) :
    ∃ next, (lexFrom 0 position (token.text ++ rest)).map (·.token) =
      token :: (lexFrom 0 next rest).map (·.token) := by
  cases h with
  | number hne hdigits => exact ⟨_, lexFrom_mantissa hdigits hne (hrest rfl) position⟩
  | @name c word hc hword =>
    have htoken : readToken c (word ++ rest) = (.name false (c :: word), word.length) := by
      have hbackslash : c ≠ '\\' := by
        rintro rfl
        cases hc
      have hmantissa := not_isMantissa_of_isAlpha hc
      have htake := (Text.takeWhile_append hword fun c hc => (hrest rfl c hc).1).1
      rw [readToken, if_neg (by rw [hmantissa]; exact Bool.false_ne_true), if_neg hbackslash,
        if_pos hc, htake]
    have halnum : c.isAlphanum = true := by rw [Char.isAlphanum, hc, Bool.true_or]
    exact ⟨_, lexFrom_cons (not_isBlank_of_isAlphanum halnum) htoken position⟩
  | @symbol c hc =>
    simp only [isSymbol, Bool.and_eq_true, Bool.not_eq_true', bne_iff_ne] at hc
    obtain ⟨⟨⟨hblank, hmantissa⟩, hbackslash⟩, halpha⟩ := hc
    have htoken : readToken c ([] ++ rest) = (.symbol c, 0) := by
      simp [readToken, hmantissa, hbackslash, halpha]
    exact ⟨_, lexFrom_cons hblank htoken position⟩

/-! ## Tokens side by side -/

/-- Proper tokens with a symbol between any two words. -/
inductive AreApart : List Token → Prop
  | nil : AreApart []
  | cons {token : Token} {rest : List Token} (h : token.IsProper)
    (hnext : token.isWord = true → ∀ next ∈ rest.head?, next.isWord = false)
    (hrest : AreApart rest) : AreApart (token :: rest)

theorem AreApart.single {token : Token} (h : token.IsProper) : AreApart [token] := by
  refine .cons h ?_ .nil
  intro _ next hnext
  cases hnext

theorem AreApart.cons_symbol {c : Char} {rest : List Token} (hc : isSymbol c = true)
    (h : AreApart rest) : AreApart (.symbol c :: rest) :=
  .cons (.symbol hc) (fun hword => nomatch hword) h

/-- Tokens stay apart with a symbol between them. -/
theorem AreApart.append_symbol {left right : List Token} {c : Char} (hleft : AreApart left)
    (hc : isSymbol c = true) (hright : AreApart right) :
    AreApart (left ++ .symbol c :: right) := by
  induction hleft with
  | nil => exact hright.cons_symbol hc
  | @cons token rest h hnext hrest ih =>
    refine .cons h ?_ ih
    intro hword next hmem
    cases rest with
    | nil =>
      obtain rfl := Option.mem_some_iff.mp hmem
      rfl
    | cons second rest => exact hnext hword next hmem

/-! ## Layouts -/

/-- Whether a factor that starts with a character may follow another one without an operator. -/
def startsFactor (c : Char) : Bool := c.isAlphanum || c == '.' || c == '('

/-- The texts in which tokens are laid out. -/
inductive Layout : List Token → Text → Prop
  | done {blanks : Text} (hblanks : blanks.all isBlank = true) : Layout [] blanks
  | token {blanks : Text} {token : Token} {rest : List Token} {text : Text}
    (hblanks : blanks.all isBlank = true) (h : Layout rest text) :
    Layout (token :: rest) (blanks ++ (token.text ++ text))
  /-- Blanks stand for a product. -/
  | times {blanks : Text} {next : Token} {rest : List Token} {text : Text}
    (hblanks : blanks.all isBlank = true) (hne : blanks ≠ [])
    (hnext : next.text.head?.any startsFactor = true) (h : Layout (next :: rest) text) :
    Layout (.symbol '*' :: next :: rest) (blanks ++ text)

/-- A token without blanks in front of it. -/
theorem Layout.adjacent (token : Token) {rest : List Token} {text : Text} (h : Layout rest text) :
    Layout (token :: rest) (token.text ++ text) :=
  @Layout.token [] token rest text rfl h

/-- Tokens are laid out without any blanks. -/
theorem layout_flatMap (tokens : List Token) : Layout tokens (tokens.flatMap Token.text) := by
  induction tokens with
  | nil => exact .done rfl
  | cons token rest ih => exact ih.adjacent token

/-- Tokens without some of the `*` that stand before a factor. -/
inductive Omits : List Token → List Token → Prop
  | nil : Omits [] []
  | keep {token : Token} {tokens fewer : List Token} (h : Omits tokens fewer) :
    Omits (token :: tokens) (token :: fewer)
  | drop {next : Token} {rest fewer : List Token} (hnext : next.startsFactor = true)
    (h : Omits (next :: rest) fewer) : Omits (.symbol '*' :: next :: rest) fewer

/-- A token that starts a factor is kept. -/
theorem Omits.head?_eq {next : Token} {rest fewer : List Token} (hnext : next.startsFactor = true)
    (h : Omits (next :: rest) fewer) : fewer.head? = some next := by
  cases h with
  | keep => rfl
  | drop => cases hnext

/-- A token that is no `*` is kept. -/
theorem Omits.of_cons {token : Token} {rest fewer : List Token} (htoken : token ≠ .symbol '*')
    (h : Omits (token :: rest) fewer) : ∃ rest', fewer = token :: rest' ∧ Omits rest rest' := by
  cases h with
  | keep h => exact ⟨_, rfl, h⟩
  | drop => exact absurd rfl htoken

/-- Where tokens are cut at a symbol, the symbol is kept, or it is a `*` before a factor. -/
theorem Omits.split {left right fewer : List Token} {c : Char} (hc : c ≠ '(')
    (h : Omits (left ++ .symbol c :: right) fewer) :
    ∃ left' right', Omits left left' ∧ Omits right right' ∧
      (fewer = left' ++ .symbol c :: right' ∨
        c = '*' ∧ fewer = left' ++ right' ∧
          ∃ next ∈ right'.head?, next.startsFactor = true) := by
  induction left generalizing fewer with
  | nil =>
    cases h with
    | keep h => exact ⟨[], _, .nil, h, Or.inl rfl⟩
    | drop hnext h =>
      exact ⟨[], fewer, .nil, h, Or.inr ⟨rfl, rfl, _, h.head?_eq hnext, hnext⟩⟩
  | cons token rest ih =>
    rw [List.cons_append] at h
    generalize htokens : rest ++ .symbol c :: right = tokens at h
    cases h with
    | keep h =>
      rw [← htokens] at h
      obtain ⟨left', right', hleft, hright, hfewer⟩ := ih h
      refine ⟨token :: left', right', .keep hleft, hright, ?_⟩
      rcases hfewer with rfl | ⟨hc', rfl, hnext⟩
      · exact Or.inl rfl
      · exact Or.inr ⟨hc', rfl, hnext⟩
    | @drop next behind _ hnext h =>
      rw [← htokens] at h
      obtain ⟨left', right', hleft, hright, hfewer⟩ := ih h
      refine ⟨left', right', ?_, hright, hfewer⟩
      -- what follows the omitted operator is no operator itself, so it stands to the left
      cases rest with
      | nil =>
        obtain ⟨rfl, -⟩ := List.cons.inj htokens
        exact absurd (beq_iff_eq.mp hnext) hc
      | cons second rest =>
        obtain ⟨rfl, -⟩ := List.cons.inj htokens
        exact .drop hnext hleft

/-! ## Reading a layout -/

/-- Blanks are passed over. -/
theorem lexFrom_blanks {blanks : Text} (h : blanks.all isBlank = true) (text : Text)
    (position : Nat) :
    lexFrom 0 position (blanks ++ text) = lexFrom 0 (position + blanks.length) text := by
  induction blanks generalizing position with
  | nil => rfl
  | cons c rest ih =>
    obtain ⟨hc, hrest⟩ := Bool.and_eq_true_iff.mp h
    rw [List.cons_append, lexFrom, if_pos hc, ih hrest, List.length_cons, Nat.add_assoc,
      Nat.add_comm 1]

/-- A word ends before blanks. -/
theorem endsWord_blanks {blanks text : Text} (h : blanks.all isBlank = true)
    (htext : blanks = [] → EndsWord text) : EndsWord (blanks ++ text) := by
  cases blanks with
  | nil => exact htext rfl
  | cons c rest =>
    obtain ⟨hc, -⟩ := Bool.and_eq_true_iff.mp h
    intro d hd
    obtain rfl := Option.mem_some_iff.mp hd
    refine ⟨?_, ?_⟩
    · by_contra halnum
      rw [Bool.not_eq_false] at halnum
      rw [not_isBlank_of_isAlphanum halnum] at hc
      cases hc
    · rintro rfl
      cases hc

/-- A word ends before a symbol. -/
theorem endsWord_symbol {c : Char} (hc : isSymbol c = true) (text : Text) :
    EndsWord (c :: text) := by
  intro d hd
  obtain rfl := Option.mem_some_iff.mp hd
  simp only [isSymbol, isMantissa, Bool.and_eq_true, Bool.not_eq_true', Bool.or_eq_false_iff,
    beq_eq_false_iff_ne] at hc
  obtain ⟨⟨⟨-, hdigit, hpoint⟩, -⟩, halpha⟩ := hc
  exact ⟨by rw [Char.isAlphanum, halpha, hdigit]; rfl, hpoint⟩

/-- A word ends before tokens that do not start with one. -/
theorem Layout.endsWord {tokens : List Token} {text : Text} (h : Layout tokens text)
    (htokens : AreApart tokens) (hfirst : ∀ next ∈ tokens.head?, next.isWord = false) :
    EndsWord text := by
  cases h with
  | done hblanks =>
    have h := endsWord_blanks hblanks fun _ => endsWord_nil
    rwa [List.append_nil] at h
  | @token _ token _ _ hblanks =>
    refine endsWord_blanks hblanks ?_
    intro _
    cases htokens with
    | cons hproper =>
      cases hproper with
      | number => cases hfirst _ rfl
      | name => cases hfirst _ rfl
      | symbol hc => exact endsWord_symbol hc _
  | times hblanks hne => exact endsWord_blanks hblanks fun h => absurd h hne

/-- A proper token that starts like a factor is one to the reader. -/
theorem Token.IsProper.startsFactor {token : Token} (h : token.IsProper)
    (hstart : token.text.head?.any Expression.startsFactor = true) :
    token.startsFactor = true := by
  cases h with
  | number => rfl
  | name => rfl
  | @symbol c hc =>
    have hends := endsWord_symbol hc [] c rfl
    simp only [Token.text, List.head?_cons, Option.any_some, Expression.startsFactor, hends.1,
      Bool.false_or, Bool.or_eq_true, beq_iff_eq, hends.2, false_or] at hstart
    exact beq_iff_eq.mpr hstart

/-- A layout is read as its tokens without the products that blanks stand for. -/
theorem Layout.lex {tokens : List Token} {text : Text} (h : Layout tokens text)
    (htokens : AreApart tokens) :
    ∃ fewer, Omits tokens fewer ∧
      ∀ position, (lexFrom 0 position text).map (·.token) = fewer := by
  -- the place where a token stands changes along the text, and the tokens do not depend on it
  induction h with
  | done hblanks =>
    refine ⟨[], .nil, ?_⟩
    intro position
    have h := lexFrom_blanks hblanks [] position
    rw [List.append_nil] at h
    rw [h]
    rfl
  | token hblanks h ih =>
    cases htokens with
    | cons hproper hnext hrest =>
      obtain ⟨fewer, homits, hlex⟩ := ih hrest
      refine ⟨_, .keep homits, ?_⟩
      intro position
      rw [lexFrom_blanks hblanks]
      obtain ⟨next, heq⟩ := lexFrom_token hproper (fun hword => h.endsWord hrest (hnext hword)) _
      rw [heq, hlex]
  | times hblanks _ hnext _ ih =>
    cases htokens with
    | cons _ _ hrest =>
      obtain ⟨fewer, homits, hlex⟩ := ih hrest
      cases hrest with
      | cons hproper =>
        refine ⟨fewer, .drop (hproper.startsFactor hnext) homits, ?_⟩
        intro position
        rw [lexFrom_blanks hblanks, hlex]

end TexFigure.Expression
