import TexFigure.Proofs.Logarithms
/-!
# A backslash in front of a name

The grammar passes over the backslash of a name wherever an operand is due: at the start, behind an
operator or a sign, in an exponent, behind a function, a comma or an opening delimiter. There a
backslash can be put in front of a name, and the expression stays the same.

Behind a complete operand it cannot. There the name is a factor whose operator was left out, and
with a backslash it is not taken for one, nor for anything else: the text does not compile any more.

In the text, the backslash changes the token of its name and no other. The token in front of it
ends where it ended before, since a backslash goes on with none; the case that needs care is a
number, which looks ahead for an exponent.

> `lexFrom_insert`: the tokens with the backslash and without it.
> `compile_insert_backslash`: the expression is the same exactly if no operand ends in front of the
> name.
-/

namespace TexFigure.Expression

/-! ## The backslash among the tokens -/

/-- Tokens without a backslash in front of one name, and with it. `behind` says whether an operand
ends in front of the tokens, and `misplaced` whether one ends in front of the name. A name that is
in place may have been passed already. -/
inductive Marked (misplaced : Bool) : (behind : Bool) → List Token → List Token → Prop
  | passed (h : misplaced = false) (behind : Bool) (tokens : List Token) :
    Marked misplaced behind tokens tokens
  | here (word : Text) (rest : List Token) :
    Marked misplaced misplaced (.name false word :: rest) (.name true word :: rest)
  | later (behind : Bool) {token : Token} {rest rest' : List Token}
    (h : Marked misplaced token.endsOperand rest rest') :
    Marked misplaced behind (token :: rest) (token :: rest')

/-- Tokens with a backslash and without it can be read side by side. -/
theorem coupling_marked (misplaced : Bool) : Coupling misplaced (Marked misplaced) where
  length_eq h := by
    induction h with
    | passed => rfl
    | here => rfl
    | later _ _ ih => rw [List.length_cons, List.length_cons, ih]
  heads {behind tokens _} h := by
    cases h with
    | passed hplace =>
      cases tokens with
      | nil => exact .nil behind
      | cons token rest =>
        have hrest : Marked misplaced token.endsOperand rest rest := .passed hplace _ rest
        cases behind with
        | false => exact .due (.same token) hrest
        | true => exact .behind (.same token) rfl (.passed hplace false _) hrest
    | here word rest =>
      cases misplaced with
      | false => exact .due (.name false true rfl) (.passed rfl _ rest)
      | true => exact .stuck rfl word rest
    | later _ hrest =>
      cases behind with
      | false => exact .due (.same _) hrest
      | true => exact .behind (.same _) rfl (.later false hrest) hrest

/-- With a backslash in front of a name the tokens are parsed to the same expression if the name is
in place, and to none if it is misplaced. -/
theorem parse_marked {misplaced : Bool} {tokens tokens' : List Token} {expression : Expression}
    (h : Marked misplaced false tokens tokens') (hparse : parse tokens = .ok expression)
    (expression' : Expression) :
    parse tokens' = .ok expression' ↔ expression' = expression ∧ misplaced = false := by
  rcases (coupling_marked misplaced).parse h hparse with ⟨hend, hsame⟩ | ⟨hmisplaced, hnone⟩
  · cases hend with
    | passed hplace =>
      rw [hsame]
      simp [hplace, eq_comm]
  · refine ⟨fun hparse' => absurd hparse' (hnone expression'), ?_⟩
    rintro ⟨-, hplace⟩
    rw [hmisplaced] at hplace
    cases hplace

/-- The tokens around a name differ in its backslash, and the name is misplaced if an operand ends
in front of it. -/
theorem marked_append (behind : Bool) (before : List Token) (word : Text) (after : List Token) :
    Marked ((before.getLast?.map Token.endsOperand).getD behind) behind
      (before ++ .name false word :: after) (before ++ .name true word :: after) := by
  induction before generalizing behind with
  | nil => exact .here word after
  | cons token rest ih =>
    have hlast : ((token :: rest).getLast?.map Token.endsOperand).getD behind =
        (rest.getLast?.map Token.endsOperand).getD token.endsOperand := by
      cases rest with
      | nil => rfl
      | cons next rest => simp [List.getLast?_cons]
    rw [hlast]
    exact .later behind (ih token.endsOperand)

/-! ## The backslash in the text -/

section
variable {front behind : Text}

/-- A backslash ends a run that it does not belong to where the run did not reach it before. -/
theorem takeWhile_insert {p : Char → Bool} (hp : p '\\' = false)
    (h : ((front ++ behind).takeWhile p).length ≤ front.length) :
    (front ++ '\\' :: behind).takeWhile p = (front ++ behind).takeWhile p := by
  induction front with
  | nil =>
    have hnil : behind.takeWhile p = [] := List.eq_nil_of_length_eq_zero (Nat.le_zero.mp h)
    rw [List.nil_append, List.nil_append, hnil, List.takeWhile_cons_of_neg (by simp [hp])]
  | cons c front ih =>
    rw [List.cons_append, List.cons_append]
    cases hc : p c with
    | true =>
      rw [List.cons_append, List.takeWhile_cons_of_pos hc] at h
      rw [List.takeWhile_cons_of_pos hc, List.takeWhile_cons_of_pos hc,
        ih (Nat.le_of_succ_le_succ h)]
    | false =>
      have hneg : ¬p c = true := by simp [hc]
      rw [List.takeWhile_cons_of_neg hneg, List.takeWhile_cons_of_neg hneg]

/-- The digits of an exponent end in front of the backslash, or no exponent is read. -/
theorem exponentSize_insert (mark : Char) (sign : Text)
    (h : exponentSize mark sign ((front ++ behind).takeWhile Char.isDigit) ≤
      1 + sign.length + front.length) :
    exponentSize mark sign ((front ++ '\\' :: behind).takeWhile Char.isDigit) =
      exponentSize mark sign ((front ++ behind).takeWhile Char.isDigit) := by
  by_cases hmark : (mark == 'e' || mark == 'E') = true
  · have hfits : ((front ++ behind).takeWhile Char.isDigit).length ≤ front.length := by
      by_cases hdigits : (front ++ behind).takeWhile Char.isDigit = []
      · simp [hdigits]
      · simpa [exponentSize, hmark, hdigits] using h
    rw [takeWhile_insert rfl hfits]
  · simp [exponentSize, hmark]

/-- An exponent that ends in front of the backslash is read alike; where the backslash comes first
there was none. -/
theorem exponentLength_insert (hsign : ∀ c ∈ behind.head?, c ≠ '+' ∧ c ≠ '-')
    (h : exponentLength (front ++ behind) ≤ front.length) :
    exponentLength (front ++ '\\' :: behind) = exponentLength (front ++ behind) := by
  cases front with
  | nil =>
    rw [List.nil_append] at h
    rw [List.nil_append, List.nil_append, Nat.le_zero.mp h]
    simp [exponentLength]
  | cons mark rest =>
    rw [List.cons_append] at h
    rw [List.cons_append, List.cons_append]
    by_cases hsigned : ∃ sign ∈ rest.head?, sign = '+' ∨ sign = '-'
    · obtain ⟨sign, hhead, hsigned⟩ := hsigned
      obtain ⟨tail, rfl⟩ := List.head?_eq_some_iff.mp hhead
      rw [List.cons_append, exponentLength_sign hsigned, List.length_cons, List.length_cons] at h
      rw [List.cons_append, List.cons_append, exponentLength_sign hsigned,
        exponentLength_sign hsigned]
      refine exponentSize_insert mark [sign] ?_
      rw [List.length_singleton]
      omega
    · have hrest (tail : Text) (htail : ∀ c ∈ tail.head?, c ≠ '+' ∧ c ≠ '-') :
          ∀ c ∈ (rest ++ tail).head?, c ≠ '+' ∧ c ≠ '-' := by
        cases rest with
        | nil => exact htail
        | cons sign rest => exact fun c hc => not_or.mp fun hc' => hsigned ⟨c, hc, hc'⟩
      rw [exponentLength_digits (hrest behind hsign)] at h ⊢
      rw [exponentLength_digits (hrest ('\\' :: behind) (by simp))]
      refine exponentSize_insert mark [] ?_
      rw [List.length_cons] at h
      rw [List.length_nil]
      omega

/-- A number that ends in front of the backslash is read alike. -/
theorem numberLength_insert (hsign : ∀ c ∈ behind.head?, c ≠ '+' ∧ c ≠ '-')
    (h : numberLength (front ++ behind) ≤ front.length) :
    numberLength (front ++ '\\' :: behind) = numberLength (front ++ behind) := by
  rw [numberLength] at h
  have hmantissa : ((front ++ behind).takeWhile isMantissa).length ≤ front.length :=
    Nat.le_trans (Nat.le_add_right _ _) h
  rw [List.drop_append_of_le_length hmantissa] at h
  rw [numberLength, numberLength, takeWhile_insert rfl hmantissa,
    List.drop_append_of_le_length hmantissa, List.drop_append_of_le_length hmantissa,
    exponentLength_insert hsign]
  rw [List.length_drop]
  omega

/-- A token that ends in front of the backslash is read alike. -/
theorem readToken_insert {c : Char} (hsign : ∀ c ∈ behind.head?, c ≠ '+' ∧ c ≠ '-')
    (h : (readToken c (front ++ behind)).2 ≤ front.length) :
    readToken c (front ++ '\\' :: behind) = readToken c (front ++ behind) := by
  unfold readToken at h ⊢
  by_cases hmantissa : isMantissa c = true
  · rw [if_pos hmantissa] at h
    have hfits : numberLength (c :: front ++ behind) ≤ (c :: front).length :=
      Nat.le_add_of_sub_le h
    have hlength := numberLength_insert hsign hfits
    have htake : (c :: front ++ '\\' :: behind).take (numberLength (c :: front ++ behind)) =
        (c :: front ++ behind).take (numberLength (c :: front ++ behind)) := by
      rw [List.take_append_of_le_length hfits, List.take_append_of_le_length hfits]
    rw [if_pos hmantissa, if_pos hmantissa, ← List.cons_append, ← List.cons_append]
    simp only [hlength, htake]
  rw [if_neg hmantissa] at h ⊢
  rw [if_neg hmantissa]
  by_cases hbackslash : c = '\\'
  · rw [if_pos hbackslash] at h
    rw [if_pos hbackslash, if_pos hbackslash, takeWhile_insert rfl h]
  rw [if_neg hbackslash] at h ⊢
  rw [if_neg hbackslash]
  by_cases halpha : c.isAlpha = true
  · rw [if_pos halpha] at h
    rw [if_pos halpha, if_pos halpha, takeWhile_insert rfl h]
  · rw [if_neg halpha, if_neg halpha]

/-- A name starts with a letter, and a backslash in front of it is read with it. -/
theorem readToken_name {c : Char} {rest word : Text} {more : Nat}
    (h : readToken c rest = (.name false word, more)) :
    c.isAlpha = true ∧ readToken '\\' (c :: rest) = (.name true word, more + 1) := by
  rw [readToken] at h
  by_cases hmantissa : isMantissa c = true
  · rw [if_pos hmantissa] at h
    cases h
  rw [if_neg hmantissa] at h
  by_cases hbackslash : c = '\\'
  · rw [if_pos hbackslash] at h
    cases h
  rw [if_neg hbackslash] at h
  by_cases halpha : c.isAlpha = true
  · rw [if_pos halpha] at h
    cases h
    have halnum : c.isAlphanum = true := by rw [Char.isAlphanum, halpha, Bool.true_or]
    have hword : (c :: rest).takeWhile Char.isAlphanum = c :: rest.takeWhile Char.isAlphanum :=
      List.takeWhile_cons_of_pos halnum
    refine ⟨halpha, ?_⟩
    rw [readToken, if_neg (by decide), if_pos rfl, hword]
    rfl
  · rw [if_neg halpha] at h
    cases h

/-- Where a text begins makes no difference to its tokens. -/
theorem tokens_lexFrom (skip position position' : Nat) (text : Text) :
    (lexFrom skip position text).map (·.token) = (lexFrom skip position' text).map (·.token) := by
  induction text generalizing skip position position' with
  | nil => cases skip <;> rfl
  | cons c rest ih =>
    cases skip with
    | succ skip => exact ih skip _ _
    | zero =>
      rw [lexFrom, lexFrom]
      split
      · exact ih 0 _ _
      · exact congrArg (List.cons _) (ih _ _ _)

/-- A backslash where a name starts changes the token of that name, and no other. -/
theorem lexFrom_insert {skip position : Nat} {text word : Text} {before after : List Lexeme}
    {lexeme : Lexeme} (hlex : lexFrom skip position text = before ++ lexeme :: after)
    (hname : lexeme.token = .name false word) :
    ∃ front behind, text = front ++ behind ∧ lexeme.start = position + front.length ∧
      skip ≤ front.length ∧ (∀ c ∈ behind.head?, c.isAlpha = true) ∧
      (lexFrom skip position (front ++ '\\' :: behind)).map (·.token) =
        before.map (·.token) ++ .name true word :: after.map (·.token) := by
  induction text generalizing skip position before with
  | nil => cases skip <;> simp [lexFrom] at hlex
  | cons c rest ih =>
    cases skip with
    | succ skip =>
      obtain ⟨front, behind, rfl, hstart, hskip, hbehind, htokens⟩ := ih hlex
      refine ⟨c :: front, behind, rfl, ?_, Nat.succ_le_succ hskip, hbehind, htokens⟩
      rw [hstart, List.length_cons]
      omega
    | zero =>
      rw [lexFrom] at hlex
      by_cases hblank : isBlank c = true
      · rw [if_pos hblank] at hlex
        obtain ⟨front, behind, rfl, hstart, -, hbehind, htokens⟩ := ih hlex
        refine ⟨c :: front, behind, rfl, ?_, Nat.zero_le _, hbehind, ?_⟩
        · rw [hstart, List.length_cons]
          omega
        · rw [List.cons_append, lexFrom, if_pos hblank, htokens]
      · obtain ⟨⟨token, more⟩, hread⟩ : ∃ answer, readToken c rest = answer := ⟨_, rfl⟩
        rw [if_neg hblank, hread] at hlex
        cases before with
        | nil =>
          obtain ⟨rfl, rfl⟩ := List.cons.inj hlex
          obtain rfl : token = .name false word := hname
          obtain ⟨halpha, hmarked⟩ := readToken_name hread
          refine ⟨[], c :: rest, rfl, rfl, Nat.le_refl _, ?_, ?_⟩
          · rintro d ⟨⟩
            exact halpha
          · rw [List.nil_append, lexFrom, if_neg (by decide), hmarked]
            exact congrArg (List.cons _) (tokens_lexFrom more _ _ rest)
        | cons first before =>
          obtain ⟨rfl, hrest⟩ := List.cons.inj hlex
          obtain ⟨front, behind, rfl, hstart, hskip, hbehind, htokens⟩ := ih hrest
          have hsign : ∀ d ∈ behind.head?, d ≠ '+' ∧ d ≠ '-' := by
            intro d hd
            have halpha := hbehind d hd
            refine ⟨?_, ?_⟩ <;>
            · rintro rfl
              cases halpha
          -- the token ends in front of the name, so the backslash does not change it
          have hfront : readToken c (front ++ '\\' :: behind) = (token, more) := by
            rw [readToken_insert hsign (by rw [hread]; exact hskip), hread]
          refine ⟨c :: front, behind, rfl, ?_, Nat.zero_le _, hbehind, ?_⟩
          · rw [hstart, List.length_cons]
            omega
          · rw [List.cons_append, lexFrom, if_neg hblank, hfront]
            exact congrArg (List.cons _) htokens

end

/-! ## A backslash in front of a name -/

/-- A text that compiles still compiles to the same expression with a backslash in front of one of
its names, unless the name follows an operand whose operator was left out. It does not compile
then. -/
theorem compile_insert_backslash {source word : Text} {expression : Expression}
    {before after : List Lexeme} {lexeme : Lexeme} (hcompile : compile source = .ok expression)
    (hlex : lex source = before ++ lexeme :: after) (hname : lexeme.token = .name false word)
    (expression' : Expression) :
    compile (source.take lexeme.start ++ '\\' :: source.drop lexeme.start) = .ok expression' ↔
      expression' = expression ∧
      ∀ previous ∈ before.getLast?, previous.token.endsOperand = false := by
  obtain ⟨front, behind, rfl, hstart, -, -, htokens⟩ := lexFrom_insert hlex hname
  have hmarked := marked_append false (before.map (·.token)) word (after.map (·.token))
  have hplace : ((before.map (·.token)).getLast?.map Token.endsOperand).getD false = false ↔
      ∀ previous ∈ before.getLast?, previous.token.endsOperand = false := by
    rw [List.getLast?_map]
    cases before.getLast? <;> simp
  rw [Nat.zero_add] at hstart
  rw [hstart, List.take_left, List.drop_left, ← hplace, compile, lex, htokens]
  refine parse_marked hmarked ?_ expression'
  rw [compile, hlex, List.map_append, List.map_cons, hname] at hcompile
  exact hcompile

/-- The argument of a function is in place, even where the function is a factor whose operator was
left out. -/
theorem compile_insert_backslash_argument :
    ∃ expression, compile "2x sin y" = .ok expression ∧
      compile "2x sin \\y" = .ok expression := by
  have hlex : lex "2x sin y" = lex "2x sin " ++ [⟨.name false "y", 7, 8⟩] := by decide
  have hplace : ∀ previous ∈ (lex "2x sin ").getLast?, previous.token.endsOperand = false := by
    decide
  have hok : (compile "2x sin y").isOk = true := by decide +kernel
  cases hcompile : compile "2x sin y" with
  | error fault =>
    rw [hcompile] at hok
    cases hok
  | ok expression =>
    refine ⟨expression, rfl, ?_⟩
    exact (compile_insert_backslash hcompile hlex rfl expression).mpr ⟨rfl, hplace⟩

/-- A factor whose operator was left out does not start with a backslash. -/
theorem compile_insert_backslash_factor :
    lex "x sin(y)" = lex "x " ++ ⟨.name false "sin", 2, 5⟩ :: (lex "x sin(y)").drop 2 ∧
    (compile "x sin(y)").isOk = true ∧ (compile "x \\sin(y)").isOk = false := by
  refine ⟨by decide, ?_, ?_⟩
  · decide +kernel
  · decide +kernel

end TexFigure.Expression
