import Mathlib.Data.List.DropRight
import TexFigure.Text.Basic
/-!
# Trimming

A trimmed text is the middle of a text whose ends are blank. What is trimmed already stays as it
is, and this is decided by the first and the last character (`trim_eq_self_iff`), so that a text
put together from others is trimmed when its outer parts are.
-/

namespace TexFigure.Text

/-- The characters of a property end where a text does not go on with one. -/
theorem takeWhile_append {p : Char → Bool} {word rest : Text} (hword : word.all p)
    (hrest : ∀ c ∈ rest.head?, p c = false) :
    (word ++ rest).takeWhile p = word ∧ (word ++ rest).dropWhile p = rest := by
  have hall := List.all_eq_true.mp hword
  have hstop : rest.takeWhile p = [] ∧ rest.dropWhile p = rest := by
    cases rest with
    | nil => exact ⟨rfl, rfl⟩
    | cons c rest =>
      have hc : ¬p c = true := by simp [hrest c rfl]
      exact ⟨List.takeWhile_cons_of_neg hc, List.dropWhile_cons_of_neg hc⟩
  rw [List.takeWhile_append_of_pos hall, List.dropWhile_append_of_pos hall, hstop.1, hstop.2,
    List.append_nil]
  exact ⟨rfl, rfl⟩

theorem trimEnd_eq_rdropWhile (text : Text) : trimEnd text = text.rdropWhile isBlank := rfl

/-- A text starts with the blanks that trimming takes from its start. -/
theorem exists_trimStart (text : Text) :
    ∃ blanks : Text, text = blanks ++ trimStart text ∧ blanks.all isBlank :=
  ⟨text.takeWhile isBlank, List.takeWhile_append_dropWhile.symm, List.all_takeWhile⟩

/-- A text goes on with blanks behind what is left of it when they are trimmed. -/
theorem exists_trimEnd (text : Text) :
    ∃ blanks : Text, text = trimEnd text ++ blanks ∧ blanks.all isBlank := by
  refine ⟨text.rtakeWhile isBlank, List.rdropWhile_append_rtakeWhile.symm, ?_⟩
  exact List.all_eq_true.mpr fun c hc => List.mem_rtakeWhile_imp hc

/-- Trimming the end of a text takes nothing off its front. -/
theorem trimEnd_isPrefix (text : Text) : trimEnd text <+: text := List.rdropWhile_prefix _ _

/-- A text is what is left of it when it is trimmed, between blanks. -/
theorem exists_trim (text : Text) :
    ∃ before after : Text, text = before ++ trim text ++ after ∧
      before.all isBlank ∧ after.all isBlank := by
  obtain ⟨after, hafter, hblank⟩ := exists_trimEnd (trimStart text)
  refine ⟨text.takeWhile isBlank, after, ?_, List.all_takeWhile, hblank⟩
  have hsplit : text = text.takeWhile isBlank ++ trimStart text :=
    List.takeWhile_append_dropWhile.symm
  rw [List.append_assoc]
  calc text = text.takeWhile isBlank ++ trimStart text := hsplit
    _ = text.takeWhile isBlank ++ (trim text ++ after) := by rw [trim, ← hafter]

/-- What is trimmed off a text stood around the rest of it. -/
theorem infix_trim (text : Text) : trim text <:+: text := by
  obtain ⟨before, after, htext, -, -⟩ := exists_trim text
  exact ⟨before, after, htext.symm⟩

/-- A text that starts with no blank has none to trim at its start. -/
theorem trimStart_cons {c : Char} (h : isBlank c = false) (rest : Text) :
    trimStart (c :: rest) = c :: rest :=
  List.dropWhile_cons_of_neg (by simp [h])

theorem trimStart_blanks {blanks : Text} (h : blanks.all isBlank) (text : Text) :
    trimStart (blanks ++ text) = trimStart text :=
  List.dropWhile_append_of_pos (List.all_eq_true.mp h)

theorem trimEnd_blanks {blanks : Text} (h : blanks.all isBlank) (text : Text) :
    trimEnd (text ++ blanks) = trimEnd text := by
  rw [trimEnd, List.reverse_append, List.dropWhile_append_of_pos, trimEnd]
  intro c hc
  exact List.all_eq_true.mp h c (List.mem_reverse.mp hc)

/-- What comes up to a character that is no blank stays when the end is trimmed. -/
theorem trimEnd_append_cons {c : Char} (h : isBlank c = false) (text text' : Text) :
    trimEnd (text ++ c :: text') = text ++ c :: trimEnd text' := by
  have hne : isBlank c ≠ true := by simp [h]
  rw [trimEnd, trimEnd, List.reverse_append, List.reverse_cons, List.append_assoc,
    List.dropWhile_append]
  split
  next hnil =>
    rw [List.isEmpty_iff.mp hnil, List.singleton_append, List.dropWhile_cons_of_neg hne]
    simp
  next => simp

/-- A group in braces stays when the end behind it is trimmed. -/
theorem trimEnd_append_braced (before content after : Text) :
    trimEnd (before ++ (braced content ++ after)) =
      before ++ (braced content ++ trimEnd after) := by
  have hclose : ∀ rest : Text,
      before ++ (braced content ++ rest) = (before ++ '{' :: content) ++ '}' :: rest := by
    intro rest
    simp [braced]
  rw [hclose, hclose, trimEnd_append_cons (by decide)]

/-- A blank in front of a text is trimmed with the others. -/
theorem trim_cons_blank {c : Char} (h : isBlank c = true) (text : Text) :
    trim (c :: text) = trim text := by
  rw [trim, trimStart, List.dropWhile_cons_of_pos h]
  rfl

/-- A last character that is no blank stays when a text is trimmed. -/
theorem trim_concat {c : Char} (h : isBlank c = false) (text : Text) :
    trim (text ++ [c]) = trimStart text ++ [c] := by
  have hstart : trimStart (text ++ [c]) = trimStart text ++ [c] := by
    rw [trimStart, trimStart, List.dropWhile_append]
    split
    next hnil =>
      rw [List.isEmpty_iff.mp hnil]
      exact List.dropWhile_cons_of_neg (by simp [h])
    next => rfl
  rw [trim, hstart, trimEnd_append_cons h]
  rfl

/-- Whether no blank stands at either end of a text. -/
def IsTrimmed (text : Text) : Prop :=
  (∀ c ∈ text.head?, isBlank c = false) ∧ ∀ c ∈ text.getLast?, isBlank c = false

/-- A text that ends in no blank has none to trim at its end. -/
theorem trimEnd_eq_self {text : Text} (h : ∀ c ∈ text.getLast?, isBlank c = false) :
    trimEnd text = text := by
  rw [trimEnd_eq_rdropWhile, List.rdropWhile_eq_self_iff]
  intro hne
  rw [h _ (List.getLast?_eq_some_getLast hne)]
  exact Bool.false_ne_true

/-- A trimmed text stays as it is. -/
theorem trim_eq_self {text : Text} (h : IsTrimmed text) : trim text = text := by
  obtain ⟨hfirst, hlast⟩ := h
  cases text with
  | nil => rfl
  | cons c rest => rw [trim, trimStart_cons (hfirst c rfl), trimEnd_eq_self hlast]

theorem isTrimmed_trim (text : Text) : IsTrimmed (trim text) := by
  constructor
  · -- trimming the end does not change the first character
    intro c hc
    obtain ⟨rest, hrest⟩ := List.head?_eq_some_iff.mp hc
    have hstart : trimStart text = (c :: rest) ++ (trimStart text).rtakeWhile isBlank := by
      rw [← hrest]
      exact List.rdropWhile_append_rtakeWhile.symm
    have hhead := List.head?_dropWhile_not isBlank text
    rw [show text.dropWhile isBlank = trimStart text from rfl, hstart] at hhead
    exact hhead
  · intro c hc
    have hne : trim text ≠ [] := by
      rintro hnil
      rw [hnil] at hc
      cases hc
    have hlast := List.rdropWhile_last_not isBlank (trimStart text) hne
    rw [show c = (trim text).getLast hne from Option.some.inj
      (hc.symm.trans (List.getLast?_eq_some_getLast hne))]
    exact Bool.eq_false_iff.mpr hlast

/-- A text is left as it is by trimming exactly when no blank stands at its ends. -/
theorem trim_eq_self_iff {text : Text} : trim text = text ↔ IsTrimmed text :=
  ⟨fun h => h ▸ isTrimmed_trim text, trim_eq_self⟩

instance (text : Text) : Decidable (IsTrimmed text) :=
  decidable_of_iff (trim text = text) trim_eq_self_iff

theorem trim_trim (text : Text) : trim (trim text) = trim text :=
  trim_eq_self (isTrimmed_trim text)

/-- Blanks around a text are trimmed together with its own. -/
theorem trim_blanks {before after : Text} (hbefore : before.all isBlank)
    (hafter : after.all isBlank) (text : Text) :
    trim (before ++ text ++ after) = trim text := by
  rw [trim, trim, List.append_assoc, trimStart_blanks hbefore]
  -- a blank text takes the blanks behind it along when its start is trimmed
  by_cases hblank : text.all isBlank
  · have hnil : ∀ {blanks : Text}, blanks.all isBlank → trimStart blanks = [] := by
      intro blanks h
      exact List.dropWhile_eq_nil_iff.mpr (List.all_eq_true.mp h)
    rw [trimStart_blanks hblank, hnil hafter, hnil hblank]
  · have hne : trimStart text ≠ [] := by
      intro h
      exact hblank (List.all_eq_true.mpr (List.dropWhile_eq_nil_iff.mp h))
    rw [show trimStart (text ++ after) = trimStart text ++ after from ?_, trimEnd_blanks hafter]
    rw [trimStart, List.dropWhile_append]
    exact if_neg fun h => hne (List.isEmpty_iff.mp h)

theorem trim_append_blanks {blanks : Text} (h : blanks.all isBlank) (text : Text) :
    trim (text ++ blanks) = trim text :=
  trim_blanks (show ([] : Text).all isBlank from rfl) h text

/-- A text is trimmed as it is when its end has been trimmed before. -/
theorem trim_trimEnd (text : Text) : trim (trimEnd text) = trim text := by
  obtain ⟨blanks, htext, hblanks⟩ := exists_trimEnd text
  have htrim := trim_append_blanks hblanks (trimEnd text)
  rw [← htext] at htrim
  exact htrim.symm

/-- Nothing is left of a text just when it is blank. -/
theorem trim_eq_nil_iff {text : Text} : trim text = [] ↔ isBlankText text = true := by
  constructor
  · intro h
    obtain ⟨before, after, htext, hbefore, hafter⟩ := exists_trim text
    rw [h, List.append_nil] at htext
    rw [isBlankText, htext, List.all_append, hbefore, hafter]
    rfl
  · intro h
    have hblanks := trim_blanks h (show ([] : Text).all isBlank from rfl) []
    rwa [List.append_nil, List.append_nil] at hblanks

/-- A text is not blank when what occurs in it is not. -/
theorem isBlankText_of_infix {text text' : Text} (h : text <:+: text')
    (hblank : isBlankText text = false) : isBlankText text' = false := by
  obtain ⟨c, hc, hne⟩ := List.all_eq_false.mp hblank
  exact List.all_eq_false.mpr ⟨c, h.subset hc, hne⟩

theorem isBlankText_trim (text : Text) : isBlankText (trim text) = isBlankText text := by
  rw [Bool.eq_iff_iff, ← trim_eq_nil_iff, ← trim_eq_nil_iff, trim_trim]

theorem isEmpty_trim (text : Text) : (trim text).isEmpty = isBlankText text := by
  rw [Bool.eq_iff_iff, List.isEmpty_iff, trim_eq_nil_iff]

/-- A text without blanks at the outer ends of its two parts is trimmed. -/
theorem isTrimmed_append {text text' : Text} (hfirst : ∀ c ∈ text.head?, isBlank c = false)
    (hlast : ∀ c ∈ text'.getLast?, isBlank c = false) (hne : text ≠ []) (hne' : text' ≠ []) :
    IsTrimmed (text ++ text') := by
  constructor
  · intro c hc
    rw [List.head?_append_of_ne_nil _ hne] at hc
    exact hfirst c hc
  · intro c hc
    rw [List.getLast?_append_of_ne_nil _ hne'] at hc
    exact hlast c hc

end TexFigure.Text
