import TexFigure.Decimal.Notation
import TexFigure.Expression.Compile
import TexFigure.Proofs.Grammar
import TexFigure.Proofs.Trimming
/-!
# Written numbers are read

A finite double is written as a run of digits and at most a point, behind a minus sign when it is
negative (`exists_plain`). As an expression such a text is one number, or one number behind a
sign, so its value is what the run reads as. Where a double is read back from its own text, it is
thus the value of that text (`constant?_plain`).

Whole numbers are read back without any condition but the bound of their reader
(`readNat?_digits`).
-/

namespace TexFigure

open Expression (isMantissa)

namespace Decimal

/-! ## Whole numbers -/

theorem isDigit_of_mem_digits {n : Nat} {c : Char} (h : c ∈ digits n) : c.isDigit = true :=
  Nat.isDigit_of_mem_toDigits (by decide) (by decide) h

theorem digits_ne_nil (n : Nat) : digits n ≠ [] := Nat.toDigits_ne_nil

/-- The digits of a number are read back as the number. -/
theorem ofDigits_digits (n : Nat) : ofDigits (digits n) = n := by
  have h := Nat.ofDigitChars_ten_toDigits (n := n)
  rwa [Nat.ofDigitChars_eq_foldl] at h

/-- A whole number below the bound is read back. -/
theorem readNat?_digits {n bound : Nat} (h : n < bound) : readNat? bound (digits n) = some n := by
  have hsign : ∀ rest, digits n ≠ '+' :: rest := by
    intro rest heq
    have hdigit := isDigit_of_mem_digits (n := n) (c := '+') (by rw [heq]; exact List.mem_cons_self)
    cases hdigit
  have hall : (digits n).all Char.isDigit = true :=
    List.all_eq_true.mpr fun c hc => isDigit_of_mem_digits hc
  unfold readNat?
  split
  next rest heq => exact absurd heq (hsign rest)
  next => simp [ofDigits_digits, hall, digits_ne_nil, h]

/-! ## Finite doubles -/

open Float.Model Float.Model.UnpackedFloat in
/-- The exponent of a finite double is not the one that is kept for the others. -/
theorem biased_ne_of_isFinite {x : Float} (h : x.isFinite = true) :
    x.toBits.toNat % Nat.pow 2 63 / Nat.pow 2 52 ≠ 2047 := by
  intro hbiased
  -- the field of ones is unpacked as an infinity or as no number
  have hbits : x.toModel.toBits.toBitVec.toNat = x.toBits.toNat := rfl
  have hvec : @unpackExponent Format.binary64 x.toModel.toBits.toBitVec = -1#11 := by
    apply BitVec.eq_of_toNat_eq
    simp only [unpackExponent, BitVec.toNat_cast, BitVec.extractLsb_toNat, hbits,
      Nat.shiftRight_eq_div_pow]
    simp only [Nat.pow_eq] at hbiased
    simp
    omega
  have hnone : (UnpackedFloat.unpack Format.binary64 x.toModel.toBits.toBitVec).isFinite
      = false := by
    unfold UnpackedFloat.unpack
    rw [if_pos hvec]
    split <;> rfl
  rw [show x.isFinite = false from hnone] at h
  cases h

/-- A finite number has a significand and an exponent. -/
theorem exists_magnitude {x : Float} (h : x.isFinite = true) :
    ∃ significand exponent, magnitude x = .finite significand exponent := by
  unfold magnitude
  simp only [if_neg (biased_ne_of_isFinite h)]
  split
  · exact ⟨_, _, rfl⟩
  · exact ⟨_, _, rfl⟩

/-! ## Positional notation -/

theorem isMantissa_of_isDigit {c : Char} (h : c.isDigit = true) : isMantissa c = true := by
  simp [isMantissa, h]

/-- The characters of a run are the point and the digits. -/
theorem toNat_of_isMantissa {c : Char} (h : isMantissa c = true) :
    c.toNat = 46 ∨ 48 ≤ c.toNat ∧ c.toNat ≤ 57 := by
  simp only [isMantissa, Char.isDigit, Bool.or_eq_true, Bool.and_eq_true, decide_eq_true_eq,
    beq_iff_eq, UInt32.le_iff_toNat_le] at h
  rcases h with h | rfl
  · exact Or.inr h
  · exact Or.inl rfl

theorem isMantissa_of_mem_replicate {n : Nat} {c : Char} (h : c ∈ List.replicate n '0') :
    isMantissa c = true := by
  rw [List.eq_of_mem_replicate h]
  rfl

/-- A decimal in positional form holds digits and a point, and no sign. -/
theorem isMantissa_of_mem_positional {value : Decimal} {c : Char} (h : c ∈ positional value) :
    isMantissa c = true := by
  have hpadded {n : Nat} {c : Char} (h : c ∈ List.replicate n '0' ++ digits value.coefficient) :
      isMantissa c = true := by
    rcases List.mem_append.mp h with h | h
    · exact isMantissa_of_mem_replicate h
    · exact isMantissa_of_isDigit (isDigit_of_mem_digits h)
  unfold positional at h
  simp only at h
  split at h
  · rcases List.mem_append.mp h with h | h
    · exact isMantissa_of_isDigit (isDigit_of_mem_digits h)
    · exact isMantissa_of_mem_replicate h
  · rcases List.mem_append.mp h with h | h
    · exact hpadded (List.mem_of_mem_take h)
    · rcases List.mem_cons.mp h with rfl | h
      · rfl
      · exact hpadded (List.mem_of_mem_drop h)

theorem positional_ne_nil (value : Decimal) : positional value ≠ [] := by
  unfold positional
  simp only
  split
  · simp [digits_ne_nil]
  · simp

/-- A finite double is written as a run of digits and points behind its sign. -/
theorem exists_plain {x : Float} (h : x.isFinite = true) :
    ∃ body : Text, plain x = (if isNegative x then ['-'] else []) ++ body ∧ body ≠ [] ∧
      body.all isMantissa := by
  obtain ⟨significand, exponent, hmagnitude⟩ := exists_magnitude h
  refine ⟨if significand = 0 then ['0'] else positional (shortest .up significand exponent),
    ?_, ?_, ?_⟩
  · rw [plain, layOut, hmagnitude]
  · split
    · exact List.cons_ne_nil _ _
    · exact positional_ne_nil _
  · split
    · rfl
    · exact List.all_eq_true.mpr fun c hc => isMantissa_of_mem_positional hc

/-- The characters in which a finite double is written. -/
theorem mem_plain {x : Float} (h : x.isFinite = true) {c : Char} (hc : c ∈ plain x) :
    c = '-' ∨ isMantissa c = true := by
  obtain ⟨body, heq, -, hbody⟩ := exists_plain h
  rw [heq, List.mem_append] at hc
  rcases hc with hc | hc
  · split at hc
    · exact Or.inl (List.mem_singleton.mp hc)
    · cases hc
  · exact Or.inr (List.all_eq_true.mp hbody c hc)

/-! ## Reading a run of digits and points -/

/-- A run of digits and points has no sign of its own. -/
theorem readSign_mantissa {body : Text} (hbody : body.all isMantissa) :
    readSign body = (false, body) := by
  unfold readSign
  split
  next => cases hbody
  next => cases hbody
  next => rfl

/-- Lower case leaves numerals as they are. -/
theorem toLower_of_isMantissa {c : Char} (h : isMantissa c = true) : c.toLower = c := by
  have hval := toNat_of_isMantissa h
  refine dif_neg ?_
  intro hupper
  have hA : 65 ≤ c.toNat := UInt32.le_iff_toNat_le.mp hupper.1
  omega

/-- A run of digits and points is no word. -/
theorem readWord?_mantissa {negative : Bool} {text body : Text} (hbody : body.all isMantissa)
    (hne : body ≠ []) (hsign : readSign text = (negative, body)) : readWord? text = none := by
  obtain ⟨c, rest, rfl⟩ := List.exists_cons_of_ne_nil hne
  obtain ⟨hc, -⟩ := Bool.and_eq_true_iff.mp hbody
  have hlower : Text.toLower (c :: rest) = c :: Text.toLower rest := by
    rw [Text.toLower, List.map_cons, toLower_of_isMantissa hc]
    rfl
  have hword {word : Text} (h : word.head?.any isMantissa = false) :
      Text.toLower (c :: rest) ≠ word := by
    rintro rfl
    rw [hlower, List.head?_cons, Option.any_some, hc] at h
    cases h
  rw [readWord?, hsign]
  simp only
  rw [if_neg (not_or.mpr ⟨hword rfl, hword rfl⟩), if_neg (hword rfl)]

/-- The value of a run of digits and points, and of the same run behind a minus sign. -/
theorem readFloat?_negative {body : Text} (hbody : body.all isMantissa) (hne : body ≠ []) :
    readFloat? ('-' :: body) = (readFloat? body).map fun x => -x := by
  have hsign := readSign_mantissa hbody
  have hminus : readSign ('-' :: body) = (true, body) := rfl
  have hnumeral : (readNumeral? ('-' :: body)).map Numeral.toFloat =
      ((readNumeral? body).map Numeral.toFloat).map fun x => -x := by
    unfold readNumeral?
    rw [hsign, hminus]
    simp only
    -- the two numerals differ in nothing but the sign
    split
    all_goals
      split
      · rfl
      · simp only [Option.bind_eq_bind, Option.pure_def]
        cases readExponent? _ <;> rfl
  rw [readFloat?, readFloat?, readWord?_mantissa hbody hne hminus,
    readWord?_mantissa hbody hne hsign, hnumeral]
  cases readNumeral? body <;> rfl

end Decimal

namespace Expression

open Decimal

/-! ## A number as an expression -/

/-- Characters of a token that was read are passed over. -/
theorem lexFrom_append (word rest : Text) (position : Nat) :
    lexFrom word.length position (word ++ rest) = lexFrom 0 (position + word.length) rest := by
  induction word generalizing position with
  | nil => rfl
  | cons c word ih =>
    show lexFrom word.length (position + 1) (word ++ rest) = _
    rw [ih, List.length_cons, Nat.add_assoc, Nat.add_comm 1]

/-- What is read at the front of a text is its first token. -/
theorem lexFrom_cons {c : Char} {word rest : Text} {token : Token} (hc : isBlank c = false)
    (htoken : readToken c (word ++ rest) = (token, word.length)) (position : Nat) :
    (lexFrom 0 position (c :: word ++ rest)).map (·.token) =
      token :: (lexFrom 0 (position + 1 + word.length) rest).map (·.token) := by
  show (lexFrom 0 position (c :: (word ++ rest))).map (·.token) = _
  rw [lexFrom, if_neg (by simp [hc]), htoken]
  simp only
  rw [lexFrom_append]
  rfl

/-- A text that does not go on with a letter, a digit or a point: a word in front of it ends. -/
def EndsWord (text : Text) : Prop := ∀ c ∈ text.head?, c.isAlphanum = false ∧ c ≠ '.'

theorem endsWord_nil : EndsWord [] := by
  intro c hc
  cases hc

/-- A run of digits and points ends where a word does. -/
theorem EndsWord.not_isMantissa {text : Text} (h : EndsWord text) :
    ∀ c ∈ text.head?, isMantissa c = false := by
  intro c hc
  obtain ⟨halnum, hpoint⟩ := h c hc
  rw [Char.isAlphanum, Bool.or_eq_false_iff] at halnum
  rw [isMantissa, halnum.2, beq_eq_false_iff_ne.mpr hpoint]
  rfl

/-- No exponent follows where a word ends. -/
theorem exponentLength_of_endsWord {text : Text} (h : EndsWord text) : exponentLength text = 0 := by
  cases text with
  | nil => rfl
  | cons c rest =>
    obtain ⟨hc, -⟩ := h c rfl
    have hmark : (c == 'e' || c == 'E') = false := by
      simp only [Bool.or_eq_false_iff, beq_eq_false_iff_ne]
      refine ⟨?_, ?_⟩
      · rintro rfl
        cases hc
      · rintro rfl
        cases hc
    simp [exponentLength, hmark]

/-- There is no blank in a numeral, so that it is trimmed. -/
theorem not_isBlank_of_isMantissa {c : Char} (h : isMantissa c = true) : isBlank c = false := by
  have hval := toNat_of_isMantissa h
  simp only [isBlank, Bool.or_eq_false_iff, Bool.and_eq_false_iff, decide_eq_false_iff_not,
    beq_eq_false_iff_ne]
  omega

/-- A number is the token of its characters. -/
theorem readToken_number {c : Char} {word rest : Text} (hc : isMantissa c = true)
    (hlength : numberLength (c :: word ++ rest) = (c :: word).length) :
    readToken c (word ++ rest) = (.number (c :: word), word.length) := by
  rw [readToken, if_pos hc]
  show (Token.number ((c :: word ++ rest).take (numberLength (c :: word ++ rest))),
    numberLength (c :: word ++ rest) - 1) = _
  rw [hlength, List.take_left]
  rfl

/-- A run of digits and points is one token. -/
theorem lexFrom_mantissa {body rest : Text} (hbody : body.all isMantissa) (hne : body ≠ [])
    (hrest : EndsWord rest) (position : Nat) :
    (lexFrom 0 position (body ++ rest)).map (·.token) =
      .number body :: (lexFrom 0 (position + body.length) rest).map (·.token) := by
  obtain ⟨c, word, rfl⟩ := List.exists_cons_of_ne_nil hne
  obtain ⟨hc, -⟩ := Bool.and_eq_true_iff.mp hbody
  have hlength : numberLength (c :: word ++ rest) = (c :: word).length := by
    rw [numberLength, (Text.takeWhile_append hbody hrest.not_isMantissa).1, List.drop_left,
      exponentLength_of_endsWord hrest]
    rfl
  rw [lexFrom_cons (not_isBlank_of_isMantissa hc) (readToken_number hc hlength),
    List.length_cons, Nat.add_assoc position, Nat.add_comm 1]

/-- The text of a number that is read back is a constant of its value. -/
theorem constant?_plain {x : Float} (hfinite : x.isFinite = true)
    (hread : readFloat? (plain x) = some x) : constant? (plain x) = some x := by
  obtain ⟨body, heq, hne, hbody⟩ := exists_plain hfinite
  have hlex (position : Nat) : (lexFrom 0 position body).map (·.token) = [.number body] := by
    have h := lexFrom_mantissa hbody hne endsWord_nil position
    rwa [List.append_nil] at h
  rw [heq] at hread ⊢
  cases hsign : isNegative x with
  | false =>
    rw [hsign] at hread
    have hcompile : compile body = .ok (.number x) := by
      rw [compile, lex, hlex]
      exact parse_of_reads ((reads_number hread 254).lift (by decide))
    show constant? body = _
    rw [constant?, hcompile]
    exact if_pos hfinite
  | true =>
    have hread' : readFloat? ('-' :: body) = some x := by rwa [hsign] at hread
    rw [readFloat?_negative hbody hne] at hread'
    obtain ⟨y, hy, rfl⟩ := Option.map_eq_some_iff.mp hread'
    -- the sign is a token of its own, and the value is negated behind it
    have htokens : (lex ('-' :: body)).map (·.token) = [.symbol '-', .number body] := by
      show .symbol '-' :: (lexFrom 0 1 body).map (·.token) = _
      rw [hlex]
    have hcompile : compile ('-' :: body) = .ok (.negate (.number y)) := by
      rw [compile, htokens]
      exact parse_of_reads (((reads_number hy 253).lift (by decide)).negated.weaken (by decide)
        (by decide))
    show constant? ('-' :: body) = _
    rw [constant?, hcompile]
    exact if_pos hfinite

end Expression

end TexFigure
