import TexFigure.Proofs.Blending
import TexFigure.Proofs.Tokens
/-!
# What percentages and colours are written with

The exclamation mark that parts a mixture stands in none of its parts: a number is written with
letters, digits, points and signs (`all_of_readFloat?`), and a colour that is no mixture is a name,
hexadecimal digits, or fixed words with channels and blanks between them (`not_mem_of_ofAtom?`).
-/

namespace TexFigure.Decimal

open Text

/-! ## Texts of numbers -/

/-- A character that can stand in a number. -/
def isNumberChar (c : Char) : Bool := c.isAlphanum || c == '.' || c == '+' || c == '-'

theorem isNumberChar_of_isDigit {c : Char} (h : c.isDigit = true) : isNumberChar c = true := by
  rw [isNumberChar, Char.isAlphanum, h, Bool.or_true]
  rfl

/-- A sign is one of the characters of numbers, so it may be put back in front. -/
theorem all_of_readSign {text : Text} (h : (readSign text).2.all isNumberChar) :
    text.all isNumberChar := by
  unfold readSign at h
  split at h
  next => exact h
  next => exact h
  next => exact h

/-- So may digits. -/
theorem all_of_dropWhile {text : Text} (h : (text.dropWhile Char.isDigit).all isNumberChar) :
    text.all isNumberChar := by
  rw [← List.takeWhile_append_dropWhile (p := Char.isDigit) (l := text), List.all_append,
    Bool.and_eq_true]
  exact ⟨List.all_eq_true.mpr fun c hc => isNumberChar_of_isDigit (List.mem_takeWhile_imp hc), h⟩

/-- What is read as an exponent holds characters of numbers only. -/
theorem all_of_readExponent? {text : Text} {e : Int} (h : readExponent? text = some e) :
    text.all isNumberChar := by
  unfold readExponent? at h
  split at h
  next => rfl
  next mark rest =>
    dsimp only at h
    split at h
    next hread =>
      simp only [Bool.and_eq_true, Bool.or_eq_true, beq_iff_eq] at hread
      have hmark : isNumberChar mark = true := by
        rcases hread.1.1 with rfl | rfl <;> rfl
      have hrest := all_of_readSign (List.all_eq_true.mpr fun c hc =>
        isNumberChar_of_isDigit (List.all_eq_true.mp hread.2 c hc))
      rw [List.all_cons, hmark, hrest]
      rfl
    next => cases h

/-- What is read as a numeral does so too: a sign, digits on both sides of a point, and an exponent.
-/
theorem all_of_readNumeral? {text : Text} {n : Numeral}
    (h : readNumeral? text = some n) : text.all isNumberChar := by
  unfold readNumeral? at h
  dsimp only at h
  refine all_of_readSign (all_of_dropWhile ?_)
  have hrest {bare : Prop} [Decidable bare] {rest : Text} {make : Int → Numeral}
      (h : (if bare then none else (readExponent? rest).bind (some ∘ make)) = some n) :
      rest.all isNumberChar := by
    split at h
    next => cases h
    next =>
      obtain ⟨e, he, -⟩ := Option.bind_eq_some_iff.mp h
      exact all_of_readExponent? he
  split at h
  next rest heq =>
    rw [heq, List.all_cons, all_of_dropWhile (hrest h)]
    rfl
  next => exact hrest h

theorem isNumberChar_of_toLower {c : Char} (h : isNumberChar c.toLower = true) :
    isNumberChar c = true := by
  by_cases hupper : c.isUpper = true
  · rw [isNumberChar, Char.isAlphanum, Char.isAlpha, hupper]
    rfl
  · rwa [Char.toLower, dif_neg] at h
    intro hrange
    refine hupper ?_
    exact decide_eq_true hrange

/-- The words for infinity and for what is not a number have letters that count among those
characters, in either case. -/
theorem all_of_readWord? {text : Text} {x : Float} (h : readWord? text = some x) :
    text.all isNumberChar := by
  unfold readWord? at h
  dsimp only at h
  have hword (word : Text) (hlower : toLower (readSign text).2 = word)
      (hall : word.all isNumberChar) : text.all isNumberChar := by
    refine all_of_readSign (List.all_eq_true.mpr fun c hc => isNumberChar_of_toLower ?_)
    exact List.all_eq_true.mp hall _ (hlower ▸ List.mem_map_of_mem hc)
  split at h
  next hinf => exact hinf.elim (hword _ · rfl) (hword _ · rfl)
  next =>
    split at h
    next hnan => exact hword _ hnan rfl
    next => cases h

/-- A number is written with letters, digits, points and signs. -/
theorem all_of_readFloat? {text : Text} {x : Float} (h : readFloat? text = some x) :
    text.all isNumberChar := by
  unfold readFloat? at h
  cases hnumeral : readNumeral? text with
  | some n => exact all_of_readNumeral? hnumeral
  | none =>
    rw [hnumeral] at h
    exact all_of_readWord? h

/-- What is read as a number holds no exclamation mark. -/
theorem not_mem_of_readFloat? {text : Text} {x : Float} (h : readFloat? text = some x) :
    '!' ∉ text := by
  intro hmem
  have hchar := List.all_eq_true.mp (all_of_readFloat? h) _ hmem
  revert hchar
  decide

/-- A number has no blanks to trim. -/
theorem readFloat?_trim {text : Text} {x : Float} (h : readFloat? text = some x) :
    readFloat? (trim text) = some x := by
  have hblank (c : Char) (hc : c ∈ text) : isBlank c = false := by
    have hchar := List.all_eq_true.mp (all_of_readFloat? h) c hc
    simp only [isNumberChar, Bool.or_eq_true, beq_iff_eq] at hchar
    rcases hchar with ((hchar | rfl) | rfl) | rfl
    · exact Expression.not_isBlank_of_isAlphanum hchar
    · rfl
    · rfl
    · rfl
  rwa [trim_eq_self ⟨fun c hc => hblank c (List.mem_of_mem_head? hc),
    fun c hc => hblank c (List.mem_of_mem_getLast? hc)⟩]

end TexFigure.Decimal

namespace TexFigure.Color

open Text

/-! ## Colours without a mixture -/

theorem not_mem_blanks {blanks : Text} (h : blanks.all isBlank) : '!' ∉ blanks := by
  intro hmem
  have hblank := List.all_eq_true.mp h '!' hmem
  revert hblank
  decide

/-- An exclamation mark stays when blanks are trimmed. -/
theorem mem_trim {token : Text} (h : '!' ∈ token) : '!' ∈ trim token := by
  obtain ⟨before, after, htoken, hbefore, hafter⟩ := exists_trim token
  rw [htoken, List.mem_append, List.mem_append] at h
  rcases h with (h | h) | h
  · exact absurd h (not_mem_blanks hbefore)
  · exact h
  · exact absurd h (not_mem_blanks hafter)

theorem mem_dropWhile {p : Char → Bool} (hp : p '!' = false) {text : Text} (h : '!' ∈ text) :
    '!' ∈ text.dropWhile p := by
  rw [← List.takeWhile_append_dropWhile (p := p) (l := text), List.mem_append] at h
  refine h.resolve_left fun hmem => ?_
  rw [List.mem_takeWhile_imp hmem] at hp
  cases hp

/-- Fixed words pass over no exclamation mark. -/
theorem mem_of_afterWords? {words : List Text} {text rest : Text}
    (hwords : ∀ word ∈ words, '!' ∉ word) (h : afterWords? words text = some rest)
    (hmem : '!' ∈ text) : '!' ∈ rest := by
  induction words generalizing text with
  | nil =>
    obtain rfl := Option.some.inj h
    exact hmem
  | cons word words ih =>
    rw [List.forall_mem_cons] at hwords
    rw [afterWords?, List.foldlM_cons] at h
    obtain ⟨next, hnext, h⟩ := Option.bind_eq_some_iff.mp h
    have hstart : '!' ∈ trimStart text := mem_dropWhile (p := isBlank) rfl hmem
    rw [isPrefixOf?_eq_some.mp hnext, List.mem_append] at hstart
    exact ih hwords.2 h (hstart.resolve_left hwords.1)

/-- Neither does a channel. -/
theorem mem_of_readChannel? {text rest : Text} {x : Float} (h : readChannel? text = some (x, rest))
    (hmem : '!' ∈ text) : '!' ∈ rest := by
  have hrest : '!' ∈ (trimStart text).dropWhile Char.isDigit :=
    mem_dropWhile (p := Char.isDigit) rfl (mem_dropWhile (p := isBlank) rfl hmem)
  unfold readChannel? at h
  dsimp only at h
  split at h
  next => cases h
  next =>
    obtain ⟨-, rfl⟩ := Prod.mk.inj (Option.some.inj h)
    split
    next digits heq =>
      -- behind a point, the digits of the fraction are passed over too
      rw [heq, List.mem_cons] at hrest
      have hbehind := mem_dropWhile (p := Char.isDigit) rfl (hrest.resolve_left (by decide))
      split
      next =>
        rw [heq]
        exact List.mem_cons_of_mem _ (hrest.resolve_left (by decide))
      next =>
        rw [heq, List.drop_succ_cons]
        nth_rewrite 2 [← List.takeWhile_append_dropWhile (p := Char.isDigit) (l := digits)]
        rwa [List.drop_left]
    next => exact hrest

/-- What is read as a triple of channels holds no exclamation mark: its words, its blanks and its
numbers have none, and nothing is left behind its closing brace. -/
theorem not_mem_of_ofTriple? {token : Text} {color : Color} (h : ofTriple? token = some color) :
    '!' ∉ token := by
  intro hmem
  unfold ofTriple? at h
  dsimp only at h
  simp only [Option.bind_eq_bind, Option.bind_eq_some_iff, Prod.exists] at h
  obtain ⟨first, hfirst, red, behindRed, hred, second, hsecond, green, behindGreen, hgreen, third,
    hthird, blue, behindBlue, hblue, h⟩ := h
  have hwords : '!' ∈ first := by
    refine mem_of_afterWords? (by decide) hfirst ?_
    split
    next rest => exact (List.mem_cons.mp hmem).resolve_left (by decide)
    next => exact hmem
  have hend := mem_of_readChannel? hblue <| mem_of_afterWords? (by decide) hthird <|
    mem_of_readChannel? hgreen <| mem_of_afterWords? (by decide) hsecond <|
    mem_of_readChannel? hred hwords
  have hend : '!' ∈ trimStart behindBlue := mem_dropWhile (p := isBlank) rfl hend
  split at h
  next hnil =>
    rw [hnil] at hend
    cases hend
  next hbrace =>
    rw [hbrace] at hend
    revert hend
    decide
  next => cases h

/-- A colour that is no mixture is written without exclamation marks. -/
theorem not_mem_of_ofAtom? {token : Text} {color : Color} (h : ofAtom? token = some color) :
    '!' ∉ token := by
  intro hmem
  have hmem := mem_trim hmem
  unfold ofAtom? at h
  dsimp only at h
  split at h
  next red green blue hlookup =>
    obtain ⟨before, after, hpalette, -⟩ := List.lookup_eq_some_iff.mp hlookup
    have hall : ∀ entry ∈ palette, '!' ∉ entry.1 := by decide
    refine hall (trim token, red, green, blue) ?_ hmem
    rw [hpalette]
    exact List.mem_append_right _ List.mem_cons_self
  next =>
    split at h
    next code htoken =>
      rw [htoken] at hmem
      obtain ⟨digits, hdigits, -⟩ := Option.bind_eq_some_iff.mp h
      have hsome := (mapM_eq_some hdigits).1 '!' ((List.mem_cons.mp hmem).resolve_left (by decide))
      cases hsome
    next => exact not_mem_of_ofTriple? h hmem

end TexFigure.Color
