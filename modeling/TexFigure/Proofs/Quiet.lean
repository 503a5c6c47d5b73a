import TexFigure.Proofs.OptionList
import TexFigure.Table.Registry
/-!
# Texts that can stand in the code of a chart

A text is quiet when its groups nest and when it holds neither the phrase that ends an axis nor
the command that defines a table. The code of a chart is put together from quiet texts by steps
that keep it quiet: a character between two of them, plain characters in front of one, and braces
or brackets around one. Of these only the brace needs an argument, since the phrase that ends an
axis has braces of its own.
-/

namespace TexFigure.Chart

open Source

/-- The phrase that ends an axis. -/
def axisEnd : Text := "\\end\x7baxis\x7d"

/-- Whether a text has neither of the two phrases that the reader of a chart looks for in the code
as a whole. -/
def IsSilent (text : Text) : Prop := ¬axisEnd <:+: text ∧ ¬Table.readCommand <:+: text

/-- Whether a text can stand in the code of a chart. -/
structure IsQuiet (text : Text) : Prop where
  nested : IsNested text
  silent : IsSilent text

instance (text : Text) : Decidable (IsSilent text) :=
  decidable_of_iff
    (Text.contains text axisEnd = false ∧ Text.contains text Table.readCommand = false)
    (by rw [IsSilent, ← Text.contains_iff, ← Text.contains_iff, Bool.not_eq_true,
      Bool.not_eq_true])

instance (text : Text) : Decidable (IsQuiet text) :=
  decidable_of_iff (IsNested text ∧ IsSilent text)
    ⟨fun h => ⟨h.1, h.2⟩, fun h => ⟨h.nested, h.silent⟩⟩

/-- Whether a character can stand between two quiet texts: it opens, closes and escapes nothing,
and is in neither phrase. -/
def isSeparator (c : Char) : Bool :=
  isPlain c && !List.elem c axisEnd && !List.elem c Table.readCommand

theorem isSeparator_iff {c : Char} :
    isSeparator c = true ↔ isPlain c = true ∧ c ∉ axisEnd ∧ c ∉ Table.readCommand := by
  simp [isSeparator, and_assoc]

/-- Both phrases start with a backslash and have no other. -/
theorem axisEnd_eq : ∃ word : Text, axisEnd = '\\' :: word ∧ '\\' ∉ word :=
  ⟨_, rfl, by decide⟩

theorem readCommand_eq : ∃ word : Text, Table.readCommand = '\\' :: word ∧ '\\' ∉ word :=
  ⟨_, rfl, by decide⟩

/-! ## Silent texts -/

section
variable {text text' : Text}

/-- Both phrases start with a backslash, so that a text without one has neither. -/
theorem isSilent_of_unescaped (h : '\\' ∉ text) : IsSilent text := by
  obtain ⟨word, hend, -⟩ := axisEnd_eq
  obtain ⟨word', hread, -⟩ := readCommand_eq
  refine ⟨fun hin => h (hin.subset ?_), fun hin => h (hin.subset ?_)⟩
  · rw [hend]
    exact List.mem_cons_self
  · rw [hread]
    exact List.mem_cons_self

/-- Neither phrase reaches over a character that is in neither. -/
theorem IsSilent.append_cons {c : Char} (hc : c ∉ axisEnd ∧ c ∉ Table.readCommand)
    (h : IsSilent text) (h' : IsSilent text') : IsSilent (text ++ c :: text') :=
  ⟨fun hin => (Text.infix_append_cons hc.1 hin).elim h.1 h'.1,
    fun hin => (Text.infix_append_cons hc.2 hin).elim h.2 h'.2⟩

/-- Neither phrase starts in a text that escapes nothing. -/
theorem IsSilent.behind (htext : '\\' ∉ text) (h : IsSilent text') :
    IsSilent (text ++ text') := by
  obtain ⟨word, hend, -⟩ := axisEnd_eq
  obtain ⟨word', hread, -⟩ := readCommand_eq
  obtain ⟨hnoEnd, hnoRead⟩ := h
  constructor
  · rw [hend] at hnoEnd ⊢
    exact fun hin => hnoEnd (Text.infix_of_infix_append htext hin)
  · rw [hread] at hnoRead ⊢
    exact fun hin => hnoRead (Text.infix_of_infix_append htext hin)

/-- Neither phrase starts in a command with another first letter. -/
theorem IsSilent.command {c : Char} {name : Text} (hc : c ≠ 'e' ∧ c ≠ 'p')
    (hname : '\\' ∉ c :: name) (h : IsSilent text) :
    IsSilent ('\\' :: (c :: name ++ text)) := by
  obtain ⟨hnoEnd, hnoRead⟩ := IsSilent.behind hname h
  refine ⟨fun hin => ?_, fun hin => ?_⟩
  · rcases List.infix_cons_iff.mp hin with hprefix | hin
    · exact hc.1 (List.cons_prefix_cons.mp (List.cons_prefix_cons.mp hprefix).2).1.symm
    · exact hnoEnd hin
  · rcases List.infix_cons_iff.mp hin with hprefix | hin
    · exact hc.2 (List.cons_prefix_cons.mp (List.cons_prefix_cons.mp hprefix).2).1.symm
    · exact hnoRead hin

/-- Neither phrase reaches over the closing brace of a group. -/
theorem IsSilent.append_brace {escaped : Bool}
    (hbalanced : walk? braceStep 0 false text = some (0, escaped)) (h : IsSilent text)
    (h' : IsSilent text') : IsSilent (text ++ '}' :: text') := by
  constructor
  · intro hin
    -- the phrase opens the group that it closes, which the text would not leave open
    have hphrase : axisEnd = "\\en".toList ++ ['d'] ++ '{' :: "axis".toList ++ ['}'] := rfl
    rw [hphrase] at hin
    rcases infix_append_brace (by decide) (by decide) rfl hbalanced hin with hin | hin
    · exact h.1 hin
    · exact h'.1 hin
  · exact fun hin => (Text.infix_append_cons (by decide) hin).elim h.2 h'.2

end

/-! ## Quiet texts -/

section
variable {text text' : Text}

/-- Plain characters open no group and start no phrase. -/
theorem isQuiet_of_plain (h : text.all isPlain) : IsQuiet text :=
  ⟨isNested_of_plain h, isSilent_of_unescaped fun hmem =>
    (isPlain_iff.mp (List.all_eq_true.mp h _ hmem)).2.2.2.2 rfl⟩

theorem isQuiet_nil : IsQuiet [] := isQuiet_of_plain rfl

/-- A separator keeps quiet texts apart. -/
theorem IsQuiet.append_cons {c : Char} (hc : isSeparator c) (h : IsQuiet text)
    (h' : IsQuiet text') : IsQuiet (text ++ c :: text') := by
  obtain ⟨hplain, hphrases⟩ := isSeparator_iff.mp hc
  have hone : IsNested [c] := isNested_of_plain (by simpa using hplain)
  exact ⟨h.nested.append (hone.append h'.nested), h.silent.append_cons hphrases h'.silent⟩

/-- Plain characters can stand in front of a quiet text. -/
theorem IsQuiet.behind (htext : text.all isPlain) (h : IsQuiet text') :
    IsQuiet (text ++ text') := by
  refine ⟨(isNested_of_plain htext).append h.nested, IsSilent.behind (fun hmem => ?_) h.silent⟩
  exact (isPlain_iff.mp (List.all_eq_true.mp htext _ hmem)).2.2.2.2 rfl

/-- A quiet text stays quiet in braces: the phrase that ends an axis would have to open the group
that is closed behind the text. -/
theorem IsQuiet.braced (h : IsQuiet text) : IsQuiet (Text.braced text) := by
  refine ⟨h.nested.braced, ?_⟩
  have hclose : IsSilent (text ++ ['}']) :=
    h.silent.append_brace h.nested.isBalanced (isSilent_of_unescaped List.not_mem_nil)
  exact @IsSilent.behind ['{'] _ (by decide) hclose

/-- A quiet text stays quiet in brackets, which are in neither phrase. -/
theorem IsQuiet.bracketed (h : IsQuiet text) : IsQuiet (Text.bracketed text) := by
  refine ⟨h.nested.bracketed, ?_⟩
  have hclose : IsSilent (text ++ [']']) :=
    h.silent.append_cons (by decide) (isSilent_of_unescaped List.not_mem_nil)
  exact @IsSilent.behind ['['] _ (by decide) hclose

/-- A value is written in braces where it needs them, and is quiet either way. -/
theorem isQuiet_optionValue {value : Text} (h : IsQuiet (Text.trim value)) :
    IsQuiet (optionValue value) := by
  rcases optionValue_cases value with heq | ⟨heq, -, -⟩
  · rw [heq]
    exact h.braced
  · rwa [heq]

/-- Options on one line are quiet when each is. -/
theorem isQuiet_join {options : List Text} (h : ∀ option ∈ options, IsQuiet option) :
    IsQuiet (Text.join ", " options) := by
  induction options with
  | nil => exact isQuiet_nil
  | cons option rest ih =>
    rw [List.forall_mem_cons] at h
    cases rest with
    | nil =>
      rw [Text.join_singleton]
      exact h.1
    | cons next rest =>
      rw [Text.join_cons_cons]
      exact h.1.append_cons (c := ',') rfl ((ih h.2).behind (show [' '].all isPlain from rfl))

end

end TexFigure.Chart
