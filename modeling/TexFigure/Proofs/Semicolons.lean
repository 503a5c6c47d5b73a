import TexFigure.Proofs.Payload
/-!
# The semicolon of a drawing command

A drawing command runs to its first semicolon outside all groups, where parentheses group as braces
and brackets do. The cut at a semicolon passes over braces and brackets as a whole, by scanners of
their own, and counts parentheses itself. When the three kinds of group nest and no delimiter is
escaped, all three scanners agree on where a group closes.

> `cutAtSemicolon_drawn`: a text whose groups nest is cut at the semicolon behind it when it has no
> semicolon of its own outside its groups.
-/

namespace TexFigure.Chart

open Source

/-- The closing delimiters that are awaited behind a character, innermost first, parentheses
included. A delimiter must not be escaped. -/
def groupStep (awaited : List Char) (escaped : Bool) (c : Char) : Option (List Char) :=
  if escaped = true ∧ (isDelimiter c = true ∨ c = '(' ∨ c = ')') then none
  else if c = '{' then some ('}' :: awaited)
  else if c = '[' then some (']' :: awaited)
  else if c = '(' then some (')' :: awaited)
  else if c = '}' ∨ c = ']' ∨ c = ')' then
    if awaited.head? = some c then some awaited.tail else none
  else some awaited

/-- The same step outside all groups has no semicolon. -/
def drawStep (awaited : List Char) (escaped : Bool) (c : Char) : Option (List Char) :=
  if c = ';' ∧ awaited = [] then none else groupStep awaited escaped c

/-- Whether the groups of a text nest without escaped delimiters and it has no semicolon outside of
them. -/
def IsDrawn (text : Text) : Prop := (walk? drawStep [] false text).map (·.1) = some []

instance (text : Text) : Decidable (IsDrawn text) := inferInstanceAs (Decidable (_ = _))

/-! ## Steps -/

section
variable {awaited next : List Char} {escaped : Bool} {c : Char}

/-- An accepted step is the same inside an outer group, unless it closes that group. -/
theorem drawStep_inside {inner outer : List Char} {close : Char}
    (h : drawStep (inner ++ close :: outer) escaped c = some next) :
    (inner = [] ∧ c = close ∧ escaped = false ∧ next = outer) ∨
      ∃ inner', groupStep inner escaped c = some inner' ∧ next = inner' ++ close :: outer := by
  have hgroup : groupStep (inner ++ close :: outer) escaped c = some next := by
    rwa [drawStep, if_neg (by simp)] at h
  unfold groupStep at hgroup ⊢
  cases inner with
  | nil => grind [isDelimiter]
  | cons first inner => grind [isDelimiter]

/-- Braces and brackets nest by themselves where they nest with parentheses. -/
theorem nestStep_of_groupStep (h : groupStep awaited escaped c = some next) :
    nestStep (awaited.filter (· ≠ ')')) escaped c = some (next.filter (· ≠ ')')) := by
  unfold groupStep at h
  unfold nestStep
  cases awaited with
  | nil => grind [isDelimiter]
  | cons first awaited => grind [isDelimiter]

end

/-! ## Groups of a drawing -/

theorem isNested_of_walk {text : Text} (h : walk? groupStep [] false text = some ([], false)) :
    IsNested text :=
  walk?_follow (List.filter (· ≠ ')')) nestStep_of_groupStep h

/-- A walk that comes out of a group closes it behind a text whose groups nest. -/
theorem exists_closing {inner outer final : List Char} {close : Char} {escaped escaped' : Bool}
    {text : Text}
    (h : walk? drawStep (inner ++ close :: outer) escaped text = some (final, escaped'))
    (hfinal : final.length ≤ outer.length) :
    ∃ inside after, text = inside ++ close :: after ∧
      walk? groupStep inner escaped inside = some ([], false) ∧
        walk? drawStep outer false after = some (final, escaped') := by
  induction text generalizing inner escaped with
  | nil =>
    have hlength := congrArg List.length (congrArg Prod.fst (Option.some.inj h))
    simp only [List.length_append, List.length_cons] at hlength
    omega
  | cons c text ih =>
    obtain ⟨next, hstep, hrest⟩ := walk?_cons_eq_some.mp h
    rcases drawStep_inside hstep with ⟨rfl, rfl, rfl, rfl⟩ | ⟨inner', hgroup, rfl⟩
    · -- the group closes here, and a closing delimiter escapes nothing
      have hescapes : escapes false c = false := by
        unfold drawStep groupStep at hstep
        unfold escapes
        grind
      rw [hescapes] at hrest
      exact ⟨[], text, rfl, rfl, hrest⟩
    · obtain ⟨inside, after, rfl, hinside, hafter⟩ := ih hrest
      exact ⟨c :: inside, after, rfl, walk?_cons_eq_some.mpr ⟨inner', hgroup, hinside⟩, hafter⟩

/-- A brace or bracket outside of all others opens a group of a nested text. -/
theorem exists_group {parens : Nat} {escaped escaped' : Bool} {c close : Char} {text : Text}
    (hc : c = '{' ∧ close = '}' ∨ c = '[' ∧ close = ']')
    (h : walk? drawStep (List.replicate parens ')') escaped (c :: text) = some ([], escaped')) :
    escaped = false ∧ ∃ inside after, text = inside ++ close :: after ∧ IsNested inside ∧
      walk? drawStep (List.replicate parens ')') false after = some ([], escaped') := by
  obtain ⟨next, hstep, hrest⟩ := walk?_cons_eq_some.mp h
  obtain ⟨rfl, rfl⟩ : escaped = false ∧ next = [] ++ close :: List.replicate parens ')' := by
    unfold drawStep groupStep at hstep
    rcases hc with ⟨rfl, rfl⟩ | ⟨rfl, rfl⟩ <;> grind [isDelimiter]
  obtain ⟨inside, after, htext, hinside, hafter⟩ := exists_closing hrest (Nat.zero_le _)
  have hescapes : escapes false c = false := by
    rcases hc with ⟨rfl, -⟩ | ⟨rfl, -⟩ <;> rfl
  rw [hescapes] at hinside
  exact ⟨rfl, inside, after, htext, isNested_of_walk hinside, hafter⟩

/-- Any other step changes the number of open parentheses as the cut counts them, and is not taken
at a semicolon outside of them. -/
theorem drawStep_other {parens : Nat} {escaped : Bool} {c : Char} {next : List Char}
    (hbrace : c ≠ '{') (hbracket : c ≠ '[')
    (h : drawStep (List.replicate parens ')') escaped c = some next) :
    ¬(c = ';' ∧ parens = 0) ∧
      next = List.replicate
        (if c = '(' then parens + 1 else if c = ')' then parens - 1 else parens) ')' := by
  unfold drawStep groupStep at h
  cases parens with
  | zero => grind [isDelimiter]
  | succ parens => grind [isDelimiter]

/-- What is drawn inside parentheses is cut at the semicolon behind it. -/
theorem cutAtSemicolon_walk {parens : Nat} {escaped escaped' : Bool} {text : Text}
    (h : walk? drawStep (List.replicate parens ')') escaped text = some ([], escaped'))
    (after : Text) : cutAtSemicolon parens escaped (text ++ ';' :: after) = (text, after) := by
  -- a group is passed over as a whole, so the induction is on the length
  induction hlength : text.length using Nat.strong_induction_on
    generalizing parens escaped text with
  | _ length ih =>
  subst hlength
  cases text with
  | nil =>
    have hparens := congrArg List.length (congrArg Prod.fst (Option.some.inj h))
    obtain rfl : parens = 0 := by simpa using hparens
    rw [List.nil_append, cutAtSemicolon, if_neg (by decide), if_neg (by decide), if_pos ⟨rfl, rfl⟩]
  | cons c text =>
    by_cases hbrace : c = '{'
    · obtain ⟨rfl, inside, behind, rfl, hinside, hbehind⟩ := exists_group (Or.inl ⟨hbrace, rfl⟩) h
      have htext : c :: (inside ++ '}' :: behind) ++ ';' :: after =
          Text.braced inside ++ (behind ++ ';' :: after) := by
        simp [Text.braced, hbrace]
      rw [htext, cutAtSemicolon_braced hinside.isBalanced, ih _ (by simp; omega) hbehind rfl]
      simp [Text.braced, hbrace]
    by_cases hbracket : c = '['
    · obtain ⟨rfl, inside, behind, rfl, hinside, hbehind⟩ := exists_group (Or.inr ⟨hbracket, rfl⟩) h
      have htext : c :: (inside ++ ']' :: behind) ++ ';' :: after =
          Text.bracketed inside ++ (behind ++ ';' :: after) := by
        simp [Text.bracketed, hbracket]
      rw [htext, cutAtSemicolon_bracketed hinside, ih _ (by simp; omega) hbehind rfl]
      simp [Text.bracketed, hbracket]
    obtain ⟨next, hstep, hrest⟩ := walk?_cons_eq_some.mp h
    obtain ⟨hstop, rfl⟩ := drawStep_other hbrace hbracket hstep
    rw [List.cons_append, cutAtSemicolon, if_neg hbrace, if_neg hbracket, if_neg hstop]
    simp only [ih text.length (by simp) hrest rfl]

/-- A drawing is cut at the semicolon behind it. -/
theorem cutAtSemicolon_drawn {text : Text} (h : IsDrawn text) (after : Text) :
    cutAtSemicolon 0 false (text ++ ';' :: after) = (text, after) := by
  obtain ⟨⟨awaited, escaped⟩, hwalk, hawaited⟩ := Option.map_eq_some_iff.mp h
  obtain rfl : awaited = [] := hawaited
  exact @cutAtSemicolon_walk 0 _ _ _ hwalk after

end TexFigure.Chart
