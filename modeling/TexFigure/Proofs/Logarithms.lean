import TexFigure.Proofs.Numerals
import TexFigure.Proofs.Spelling
import TexFigure.Proofs.Synonyms
/-!
# An expression that was saved is read as before

An expression comes back from its code with nothing changed but calls of `ln`, which are calls of
`log` then (`renamed_respell`). Both names mean the same, so both expressions are read as the same
tree, once it is clear that the change is one of whole tokens. This is not plain from the text:
what is called a name when calls are respelled may begin in the middle of a number, as `e3ln` does
in `2e3ln(x)`, or behind the digits of an unknown name, as `ln` does in `\2ln(x)`, and an underscore
belongs to names there and to no token of an expression.

The relation between the two texts (`Renamed`) therefore keeps track of where a name has begun. A
number takes the same characters off both texts, whether it ends inside a name or not
(`Renamed.number`). A word takes off the same characters, or `ln` and `log`, perhaps behind digits,
and then both words mean the same or nothing (`Renamed.word`).

> `compile_toUser_toCode`: an expression and what comes back from its code compile to the same tree,
> or not at all.
-/

namespace TexFigure.Expression

/-! ## Calls of one logarithm spelled as calls of the other -/

/-- Whether a name goes on behind a character, given whether one has begun before it. -/
def goesOn (inName : Bool) (c : Char) : Bool := continuesName c && (inName || c.isAlpha)

/-- A text and the same text with some calls of `ln` spelled as calls of `log`. `inName` says
whether a name has begun in front of the texts; a call does not begin inside one. -/
inductive Renamed : (inName : Bool) → Text → Text → Prop
  | nil {inName : Bool} : Renamed inName [] []
  | keep {inName : Bool} (c : Char) {rest rest' : Text} (h : Renamed (goesOn inName c) rest rest') :
    Renamed inName (c :: rest) (c :: rest')
  | call {rest rest' : Text} (h : Renamed false rest rest') :
    Renamed false ('l' :: 'n' :: '(' :: rest) ('l' :: 'o' :: 'g' :: '(' :: rest')

section
variable {inName : Bool} {text text' rest rest' : Text}

theorem Renamed.refl (inName : Bool) (text : Text) : Renamed inName text text := by
  induction text generalizing inName with
  | nil => exact .nil
  | cons c rest ih => exact .keep c (ih _)

/-- A closing parenthesis ends every name. -/
theorem Renamed.append_close (h : Renamed inName text text') (hrest : Renamed false rest rest') :
    Renamed inName (text ++ ')' :: rest) (text' ++ ')' :: rest') := by
  induction h with
  | nil => exact .keep ')' hrest
  | keep c _ ih => exact .keep c ih
  | call _ ih => exact .call ih

/-- Characters that continue a name leave what has begun. -/
theorem Renamed.continue {word : Text} (hword : word.all continuesName = true)
    (h : Renamed true rest rest') : Renamed true (word ++ rest) (word ++ rest') := by
  induction word with
  | nil => exact h
  | cons c word ih =>
    rw [List.all_cons, Bool.and_eq_true] at hword
    refine .keep c ?_
    rw [goesOn, hword.1]
    exact ih hword.2

theorem Renamed.name {name : Text} (hname : IsName name) (h : Renamed true rest rest') :
    Renamed inName (name ++ rest) (name ++ rest') := by
  cases name with
  | nil => exact hname.elim
  | cons c word =>
    refine .keep c ?_
    rw [goesOn, continuesName_of_isAlpha hname.1, hname.1, Bool.or_true]
    exact h.continue hname.2

/-- It makes no difference whether a name has begun when the texts do not go on with it. -/
theorem Renamed.behindName (h : Renamed false text text') (happart : StandsApart text) :
    Renamed true text text' := by
  cases h with
  | nil => exact .nil
  | keep c h =>
    have hc := happart c rfl
    rw [goesOn, hc] at h
    refine .keep c ?_
    rwa [goesOn, hc]
  | call => cases happart 'l' rfl

/-! ## What comes back from the code -/

/-- The calls of a text are those of another when each is, with its argument. -/
theorem renamed_mapCalls {onCall : Text → Text → Text}
    (h : ∀ name argument, IsName name → IsClosed argument → ∃ argument',
      Renamed false argument argument' ∧
        onCall name argument = writeCall (if name = "ln" then "log" else name) argument')
    (text : Text) : Renamed false text (mapCalls onCall text) := by
  induction text using calls_induction with
  | nil =>
    rw [mapCalls_nil]
    exact .nil
  | call name argument rest hname hargument ih =>
    obtain ⟨argument', hrenamed, heq⟩ := h name argument hname hargument
    have hbehind := hrenamed.append_close ih
    have hcall (name argument rest : Text) :
        writeCall name argument ++ rest = name ++ '(' :: (argument ++ ')' :: rest) := by
      simp [writeCall]
    rw [mapCalls_writeCall hname hargument, heq, hcall, hcall]
    split
    next hln =>
      subst hln
      exact .call hbehind
    next => exact .name hname (.keep '(' hbehind)
  | name name rest hname happart hcall ih =>
    rw [mapCalls_name hname happart hcall]
    exact .name hname (ih.behindName happart)
  | other c rest halpha ih =>
    rw [mapCalls_cons halpha]
    refine .keep c ?_
    rwa [goesOn, halpha, Bool.or_false, Bool.and_false]

/-- A text comes back from its code with calls of `ln` as calls of `log`, on every level. -/
theorem renamed_respell (levels : Nat) (text : Text) :
    Renamed false text (respell .user levels (respell .code levels text)) := by
  induction levels generalizing text with
  | zero =>
    simp only [respell, mapCalls_self]
    exact .refl false text
  | succ levels ih =>
    rw [respell, respell, mapCalls_mapCalls (keepsCalls_respell .code levels)]
    refine renamed_mapCalls (fun name argument hname hargument => ?_) text
    exact ⟨_, ih argument, respellCall_user_code hname hargument⟩

/-! ## Numbers and words -/

/-- The texts start with the same character, and nothing is spelled otherwise behind it unless it is
the first of a logarithm. -/
theorem Renamed.tail {c : Char} (hc : c ≠ 'l') (h : Renamed inName (c :: rest) text') :
    ∃ rest', text' = c :: rest' ∧ Renamed (goesOn inName c) rest rest' := by
  cases h with
  | keep _ h => exact ⟨_, rfl, h⟩
  | call => exact absurd rfl hc

theorem Renamed.head?_eq (h : Renamed inName text text') : text'.head? = text.head? := by
  cases h <;> rfl

/-- Two texts that start with the same word, behind which one is the other renamed. -/
def ShareFront (word text text' : Text) : Prop :=
  ∃ inName rest rest', text = word ++ rest ∧ text' = word ++ rest' ∧ Renamed inName rest rest'

/-- The characters of a class are the same on both texts when no logarithm begins among them: its
first character is not of the class, or a name has begun and the class is one of names. -/
theorem Renamed.span {p : Char → Bool}
    (hp : p 'l' = false ∨ inName = true ∧ ∀ c, p c = true → continuesName c = true)
    (h : Renamed inName text text') :
    ShareFront (text.takeWhile p) text text' ∧ text'.takeWhile p = text.takeWhile p := by
  induction h with
  | nil => exact ⟨⟨false, [], [], rfl, rfl, .nil⟩, rfl⟩
  | @keep inName c rest rest' h ih =>
    cases hc : p c with
    | true =>
      have hp' : p 'l' = false ∨
          goesOn inName c = true ∧ ∀ c, p c = true → continuesName c = true := by
        refine hp.imp_right fun ⟨hname, hcontinues⟩ => ⟨?_, hcontinues⟩
        rw [goesOn, hcontinues c hc, hname, Bool.true_or, Bool.and_true]
      obtain ⟨⟨inName', after, after', hrest, hrest', hafter⟩, htake⟩ := ih hp'
      rw [List.takeWhile_cons_of_pos hc, List.takeWhile_cons_of_pos hc, htake]
      refine ⟨⟨inName', after, after', ?_, ?_, hafter⟩, rfl⟩
      · rw [List.cons_append, ← hrest]
      · rw [List.cons_append, ← hrest']
    | false =>
      have hneg : ¬p c = true := by simp [hc]
      rw [List.takeWhile_cons_of_neg hneg, List.takeWhile_cons_of_neg hneg]
      exact ⟨⟨inName, _, _, rfl, rfl, .keep c h⟩, rfl⟩
  | call h =>
    have hneg : ¬p 'l' = true := by simpa using hp
    rw [List.takeWhile_cons_of_neg hneg, List.takeWhile_cons_of_neg hneg]
    exact ⟨⟨false, _, _, rfl, rfl, .call h⟩, rfl⟩

/-- The length of an exponent whose digits follow a mark and perhaps a sign. -/
def exponentSize (mark : Char) (sign digits : Text) : Nat :=
  if (mark == 'e' || mark == 'E') && !digits.isEmpty then 1 + sign.length + digits.length else 0

/-- An exponent with a sign. -/
theorem exponentLength_sign {mark sign : Char} (hsign : sign = '+' ∨ sign = '-') (rest : Text) :
    exponentLength (mark :: sign :: rest) =
      exponentSize mark [sign] (rest.takeWhile Char.isDigit) := by
  rcases hsign with rfl | rfl <;> rfl

/-- An exponent without a sign. -/
theorem exponentLength_digits {mark : Char} {rest : Text}
    (hrest : ∀ c ∈ rest.head?, c ≠ '+' ∧ c ≠ '-') :
    exponentLength (mark :: rest) = exponentSize mark [] (rest.takeWhile Char.isDigit) := by
  cases rest with
  | nil => rfl
  | cons c rest =>
    obtain ⟨hplus, hminus⟩ := hrest c rfl
    rw [exponentLength]
    · rfl
    · exact fun _ heq => hplus (List.cons.inj heq).1
    · exact fun _ heq => hminus (List.cons.inj heq).1

/-- The exponents in front of the texts are the same. -/
theorem Renamed.exponent (h : Renamed inName text text') :
    ∃ word, ShareFront word text text' ∧ exponentLength text = word.length ∧
      exponentLength text' = word.length := by
  cases h with
  | nil => exact ⟨[], ⟨inName, [], [], rfl, rfl, .nil⟩, rfl, rfl⟩
  | call h => exact ⟨[], ⟨false, _, _, rfl, rfl, .call h⟩, rfl, rfl⟩
  | @keep _ mark rest rest' h =>
    -- behind the same sign, or none, stand the same digits
    have hbehind {inName' : Bool} {tail tail' : Text} (sign : Text) (hrest : rest = sign ++ tail)
        (hrest' : rest' = sign ++ tail') (htail : Renamed inName' tail tail')
        (hlength : exponentLength (mark :: rest) =
          exponentSize mark sign (tail.takeWhile Char.isDigit))
        (hlength' : exponentLength (mark :: rest') =
          exponentSize mark sign (tail'.takeWhile Char.isDigit)) :
        ∃ word, ShareFront word (mark :: rest) (mark :: rest') ∧
          exponentLength (mark :: rest) = word.length ∧
          exponentLength (mark :: rest') = word.length := by
      obtain ⟨⟨inName', after, after', hafter, hafter', hrenamed⟩, htake⟩ :=
        htail.span (p := Char.isDigit) (.inl rfl)
      rw [hlength, hlength', htake, exponentSize]
      split
      next =>
        refine ⟨mark :: (sign ++ tail.takeWhile Char.isDigit),
          ⟨inName', after, after', ?_, ?_, hrenamed⟩, ?_⟩
        · rw [hrest, List.cons_append, List.append_assoc, ← hafter]
        · rw [hrest', List.cons_append, List.append_assoc, ← hafter']
        · simp only [List.length_cons, List.length_append]
          omega
      next => exact ⟨[], ⟨_, _, _, rfl, rfl, .keep mark h⟩, rfl, rfl⟩
    by_cases hsign : ∃ sign ∈ rest.head?, sign = '+' ∨ sign = '-'
    · obtain ⟨sign, hhead, hsign⟩ := hsign
      obtain ⟨tail, rfl⟩ := List.head?_eq_some_iff.mp hhead
      have hne : sign ≠ 'l' := by
        rintro rfl
        rcases hsign with h | h <;> cases h
      obtain ⟨tail', rfl, htail⟩ := h.tail hne
      exact hbehind [sign] rfl rfl htail (exponentLength_sign hsign tail)
        (exponentLength_sign hsign tail')
    · have hrest : ∀ c ∈ rest.head?, c ≠ '+' ∧ c ≠ '-' := fun c hc =>
        not_or.mp fun hc' => hsign ⟨c, hc, hc'⟩
      exact hbehind [] rfl rfl h (exponentLength_digits hrest)
        (exponentLength_digits (h.head?_eq ▸ hrest))

/-- The numbers in front of the texts are the same. -/
theorem Renamed.number (h : Renamed inName text text') :
    ∃ word, ShareFront word text text' ∧ numberLength text = word.length ∧
      numberLength text' = word.length := by
  obtain ⟨⟨inName', rest, rest', hrest, hrest', hrenamed⟩, htake⟩ :=
    h.span (p := isMantissa) (.inl rfl)
  obtain ⟨exponent, ⟨inName'', after, after', hafter, hafter', hbehind⟩, hlength, hlength'⟩ :=
    hrenamed.exponent
  have hdrop : text.drop (text.takeWhile isMantissa).length = rest := by
    conv_lhs => arg 2; rw [hrest]
    exact List.drop_left
  have hdrop' : text'.drop (text.takeWhile isMantissa).length = rest' := by
    conv_lhs => arg 2; rw [hrest']
    exact List.drop_left
  refine ⟨text.takeWhile isMantissa ++ exponent, ⟨inName'', after, after', ?_, ?_, hbehind⟩, ?_, ?_⟩
  · rw [List.append_assoc, ← hafter, ← hrest]
  · rw [List.append_assoc, ← hafter', ← hrest']
  · rw [numberLength, hdrop, hlength, List.length_append]
  · rw [numberLength, htake, hdrop', hlength', List.length_append]

/-- No name that means something begins with a digit. -/
theorem meaningOf?_of_isDigit {c : Char} (hc : c.isDigit = true) (word : Text) :
    meaningOf? (c :: word) = none := by
  have hne (known : Text) (hknown : known.head?.any Char.isDigit = false) : c :: word ≠ known := by
    rintro rfl
    rw [List.head?_cons, Option.any_some, hc] at hknown
    cases hknown
  have hvalue : valueOf? (c :: word) = none := by
    rw [valueOf?, if_neg (not_or.mpr ⟨hne "x" rfl, hne "t" rfl⟩), if_neg (hne "y" rfl),
      if_neg (hne "pi" rfl), if_neg (hne "e" rfl)]
  have hother : otherSpellings.lookup (c :: word) = none := by
    rw [List.lookup_eq_none_iff]
    intro spelling hspelling
    have hknown : spelling.1.head?.any Char.isDigit = false := by
      revert spelling
      decide
    exact bne_iff_ne.mpr (hne _ hknown)
  have hunary : Unary.all.find? (·.name == c :: word) = none :=
    List.find?_eq_none.mpr fun function _ heq =>
      hne function.name (by cases function <;> rfl) (beq_iff_eq.mp heq).symm
  have hbinary : Binary.all.find? (·.name == c :: word) = none :=
    List.find?_eq_none.mpr fun function _ heq =>
      hne function.name (by cases function <;> rfl) (beq_iff_eq.mp heq).symm
  rw [meaningOf?, hvalue, unaryOf?, hother, hunary, hbinary]
  rfl

/-- The words in front of the texts mean the same: a logarithm is renamed on its own, or behind
digits that leave no meaning to either word. -/
theorem Renamed.meaningOf?_word (h : Renamed inName text text') :
    meaningOf? (text.takeWhile Char.isAlphanum) = meaningOf? (text'.takeWhile Char.isAlphanum) := by
  cases h with
  | nil => rfl
  | call => rfl
  | keep c h =>
    cases hc : c.isAlphanum with
    | false =>
      have hneg : ¬c.isAlphanum = true := by simp [hc]
      rw [List.takeWhile_cons_of_neg hneg, List.takeWhile_cons_of_neg hneg]
    | true =>
      rw [List.takeWhile_cons_of_pos hc, List.takeWhile_cons_of_pos hc]
      cases halpha : c.isAlpha with
      | false =>
        have hdigit : c.isDigit = true := by
          rwa [Char.isAlphanum, halpha, Bool.false_or] at hc
        rw [meaningOf?_of_isDigit hdigit, meaningOf?_of_isDigit hdigit]
      | true =>
        have hname : goesOn inName c = true := by
          rw [goesOn, continuesName_of_isAlpha halpha, halpha, Bool.or_true, Bool.and_true]
        have hclass (d : Char) (hd : d.isAlphanum = true) : continuesName d = true := by
          rw [continuesName, hd, Bool.true_or]
        rw [(h.span (.inr ⟨hname, hclass⟩)).2]

/-- Behind the words the texts go on as one renamed. -/
theorem Renamed.dropWord (h : Renamed inName text text') :
    ∃ inName', Renamed inName' (text.dropWhile Char.isAlphanum)
      (text'.dropWhile Char.isAlphanum) := by
  induction h with
  | nil => exact ⟨false, .nil⟩
  | call h => exact ⟨false, .keep '(' h⟩
  | @keep inName c rest rest' h ih =>
    cases hc : c.isAlphanum with
    | true =>
      rw [List.dropWhile_cons_of_pos hc, List.dropWhile_cons_of_pos hc]
      exact ih
    | false =>
      have hneg : ¬c.isAlphanum = true := by simp [hc]
      rw [List.dropWhile_cons_of_neg hneg, List.dropWhile_cons_of_neg hneg]
      exact ⟨inName, .keep c h⟩

/-! ## Tokens -/

/-- A token is read at the front of a text, and this is what follows it. -/
def FirstToken (token : Token) (text after : Text) : Prop :=
  ∃ c word, text = c :: word ++ after ∧ readToken c (word ++ after) = (token, word.length)

/-- A token that goes on with letters and digits. -/
theorem firstToken_word {c : Char} {token : Token}
    (h : readToken c rest = (token, (rest.takeWhile Char.isAlphanum).length)) :
    FirstToken token (c :: rest) (rest.dropWhile Char.isAlphanum) := by
  refine ⟨c, rest.takeWhile Char.isAlphanum, ?_, ?_⟩
  · rw [List.cons_append, List.takeWhile_append_dropWhile]
  · rwa [List.takeWhile_append_dropWhile]

/-- The first token is followed by those of a shorter text. -/
theorem FirstToken.tokens {token : Token} {text after : Text} (h : FirstToken token text after)
    (hblank : ∀ c ∈ text.head?, isBlank c = false) (position : Nat) :
    after.length < text.length ∧ ∃ next, (lexFrom 0 position text).map (·.token) =
      token :: (lexFrom 0 next after).map (·.token) := by
  obtain ⟨c, word, rfl, hread⟩ := h
  refine ⟨?_, _, lexFrom_cons (hblank c rfl) hread position⟩
  rw [List.length_append, List.length_cons]
  omega

/-- The first tokens mean the same, and behind them the texts go on as one renamed. -/
theorem Renamed.firstToken {c : Char} (h : Renamed inName (c :: rest) text') :
    ∃ token token' after after' inName', FirstToken token (c :: rest) after ∧
      FirstToken token' text' after' ∧ Synonymous token token' ∧ Renamed inName' after after' := by
  obtain ⟨rest', rfl⟩ := List.head?_eq_some_iff.mp h.head?_eq
  by_cases hmantissa : isMantissa c = true
  · obtain ⟨word, ⟨inName', after, after', htext, htext', hbehind⟩, hlength, hlength'⟩ := h.number
    cases word with
    | nil =>
      rw [numberLength, List.takeWhile_cons_of_pos hmantissa] at hlength
      simp only [List.length_cons, List.length_nil] at hlength
      omega
    | cons d word =>
      obtain ⟨rfl, rfl⟩ := List.cons.inj htext
      obtain ⟨-, rfl⟩ := List.cons.inj htext'
      exact ⟨_, _, after, after', inName', ⟨c, word, rfl, readToken_number hmantissa hlength⟩,
        ⟨c, word, rfl, readToken_number hmantissa hlength'⟩, .same _, hbehind⟩
  by_cases hbackslash : c = '\\'
  · subst hbackslash
    obtain ⟨_, heq, hrest⟩ := h.tail (by decide)
    obtain rfl := (List.cons.inj heq).2
    obtain ⟨inName', hbehind⟩ := hrest.dropWord
    exact ⟨_, _, _, _, inName', firstToken_word rfl, firstToken_word rfl,
      .name true hrest.meaningOf?_word, hbehind⟩
  by_cases halpha : c.isAlpha = true
  · have halnum : c.isAlphanum = true := by rw [Char.isAlphanum, halpha, Bool.true_or]
    have hread (rest : Text) : readToken c rest =
        (.name false ((c :: rest).takeWhile Char.isAlphanum),
          (rest.takeWhile Char.isAlphanum).length) := by
      rw [readToken, if_neg hmantissa, if_neg hbackslash, if_pos halpha,
        List.takeWhile_cons_of_pos halnum]
    obtain ⟨inName', hbehind⟩ := h.dropWord
    rw [List.dropWhile_cons_of_pos halnum, List.dropWhile_cons_of_pos halnum] at hbehind
    exact ⟨_, _, _, _, inName', firstToken_word (hread rest), firstToken_word (hread rest'),
      .name false h.meaningOf?_word, hbehind⟩
  · have hread (rest : Text) : readToken c rest = (.symbol c, 0) := by
      rw [readToken, if_neg hmantissa, if_neg hbackslash, if_neg halpha]
    have hne : c ≠ 'l' := by
      rintro rfl
      exact halpha rfl
    obtain ⟨_, heq, hrest⟩ := h.tail hne
    obtain rfl := (List.cons.inj heq).2
    exact ⟨_, _, rest, rest', _, ⟨c, [], rfl, hread rest⟩, ⟨c, [], rfl, hread rest'⟩, .same _,
      hrest⟩

/-- Token by token, the texts mean the same. -/
theorem Renamed.tokens (h : Renamed inName text text') (position position' : Nat) :
    AreSynonymous ((lexFrom 0 position text).map (·.token))
      ((lexFrom 0 position' text').map (·.token)) := by
  induction hlength : text.length using Nat.strong_induction_on
    generalizing inName text text' position position' with
  | _ length ih =>
    cases text with
    | nil =>
      cases h
      exact .nil
    | cons c rest =>
      by_cases hblank : isBlank c = true
      · have hne : c ≠ 'l' := by
          rintro rfl
          cases hblank
        obtain ⟨rest', rfl, hrest⟩ := h.tail hne
        rw [lexFrom, lexFrom, if_pos hblank, if_pos hblank]
        exact ih _ (by rw [← hlength]; exact Nat.lt_succ_self _) hrest _ _ rfl
      · obtain ⟨token, token', after, after', inName', hfirst, hfirst', htoken, hafter⟩ :=
          h.firstToken
        have hvisible : ∀ d ∈ (c :: rest).head?, isBlank d = false := by
          rintro d ⟨⟩
          exact Bool.eq_false_iff.mpr hblank
        obtain ⟨hlt, next, heq⟩ := hfirst.tokens hvisible position
        obtain ⟨-, next', heq'⟩ := hfirst'.tokens (h.head?_eq ▸ hvisible) position'
        rw [heq, heq']
        exact .cons htoken (ih _ (hlength ▸ hlt) hafter _ _ rfl)

end

/-- An expression and the one that comes back from its code compile to the same tree, or neither
compiles. -/
theorem compile_toUser_toCode (source : Text) (expression : Expression) :
    compile source = .ok expression ↔ compile (toUser (toCode source)) = .ok expression := by
  have htokens := (renamed_respell 256 source).tokens 0 0
  exact parse_of_synonymous htokens expression

end TexFigure.Expression
