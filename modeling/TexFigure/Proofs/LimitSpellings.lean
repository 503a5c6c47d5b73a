import TexFigure.Formula.Read
import TexFigure.Proofs.Operators
/-!
# The spellings of limits

The limits of an integral, a sum or a product can be written in many ways: either script first,
behind the marker `\limits` or not, with blanks in front of a script or of its argument, and an
argument that is one character or one control sequence with or without its braces. All of them are
read alike.

An argument without braces ends where the text that follows says so: a control word goes on while
letters follow. So the relations `SpellsArgument`, `SpellsScript`, `SpellsScripts` and
`SpellsLimits` speak of a text together with what follows in it, as the readers do. Each reader
meets its relation in one lemma, and the loop over scripts takes two turns, or three with a marker,
of the four that it has.

> `SpellsArgument.argument?_append`: an argument is read as its content, however it is spelled.
> `SpellsLimits.readScripts_eq`: so are both scripts, and the loop ends at the body.
> `read_limits`: an operator with limits is read as in its plain spelling.
-/

namespace TexFigure

open Source

/-! ## Arguments -/

namespace Source

/-- How an argument may stand in front of a text: in braces when it is balanced, and without them
when it is one character, a control word, or a backslash and one character. -/
inductive SpellsArgument (after : Text) : (content text : Text) → Prop
  | braced {content : Text} (h : IsBalanced content) :
      SpellsArgument after content (Text.braced content ++ after)
  | character {c : Char} (hplain : c ≠ '{' ∧ c ≠ '}' ∧ c ≠ '\\') (hblank : isAsciiBlank c = false) :
      SpellsArgument after [c] (c :: after)
  | word {name : Text} (hne : name ≠ []) (hname : name.all isLetter)
      (hafter : beginsWithLetter after = false) :
      SpellsArgument after ('\\' :: name) ('\\' :: name ++ after)
  | symbol {c : Char} (hc : isLetter c = false) :
      SpellsArgument after ['\\', c] ('\\' :: c :: after)

section
variable {after content text : Text}

/-- A control word is read as an argument up to its last letter. -/
theorem argument?_word {name : Text} (hne : name ≠ []) (hname : name.all isLetter)
    (hafter : beginsWithLetter after = false) :
    argument? ('\\' :: name ++ after) = some ('\\' :: name, after) := by
  have hskip : Text.skipBlanks ('\\' :: name ++ after) = '\\' :: (name ++ after) := rfl
  rw [argument?, hskip]
  simp only [span_isLetter_append hname hafter]
  split
  next => exact absurd rfl hne
  next => exact absurd rfl hne
  next => rfl

/-- A backslash in front of another character than a letter is read with that character. -/
theorem argument?_symbol {c : Char} (hc : isLetter c = false) (after : Text) :
    argument? ('\\' :: c :: after) = some (['\\', c], after) := by
  have hskip : Text.skipBlanks ('\\' :: c :: after) = '\\' :: c :: after := rfl
  have hword : (c :: after).takeWhile isLetter = [] := List.takeWhile_cons_of_neg (by simp [hc])
  rw [argument?, hskip]
  simp only [hword]

/-- Any other character than a brace, a backslash or a blank is an argument by itself. -/
theorem argument?_character {c : Char} (hplain : c ≠ '{' ∧ c ≠ '}' ∧ c ≠ '\\')
    (hblank : isAsciiBlank c = false) (after : Text) :
    argument? (c :: after) = some ([c], after) := by
  have hskip : Text.skipBlanks (c :: after) = c :: after :=
    List.dropWhile_cons_of_neg (by simp [hblank])
  rw [argument?, hskip]
  split
  next heq => cases heq
  next heq => exact absurd (List.cons.inj heq).1 hplain.1
  next heq => exact absurd (List.cons.inj heq).1 hplain.2.2
  next heq =>
    obtain ⟨rfl, rfl⟩ := List.cons.inj heq
    rfl

/-- An argument behind blanks is read as its content, however it is spelled. -/
theorem SpellsArgument.argument?_append (h : SpellsArgument after content text) {blanks : Text}
    (hblanks : blanks.all isAsciiBlank) : argument? (blanks ++ text) = some (content, after) := by
  have hread : argument? text = some (content, after) := by
    cases h with
    | braced h => exact argument?_braced h after
    | character hplain hblank => exact argument?_character hplain hblank after
    | word hne hname hafter => exact argument?_word hne hname hafter
    | symbol hc => exact argument?_symbol hc after
  rw [argument?, skipBlanks_append hblanks, ← argument?, hread]

/-- Letters are no braces, and escape nothing. -/
theorem walk?_letters {text : Text} (h : text.all isLetter) (depth : Nat) :
    walk? braceStep depth false text = some (depth, false) := by
  refine walk?_of_idle fun c hc => ?_
  have hletter := List.all_eq_true.mp h c hc
  have hne {d : Char} (hd : isLetter d = false) : c ≠ d := by
    rintro rfl
    rw [hletter] at hd
    cases hd
  exact ⟨by simp [braceStep, hne (d := '{') rfl, hne (d := '}') rfl], hne rfl⟩

/-- What can be spelled as an argument can be spelled in braces. -/
theorem SpellsArgument.isBalanced (h : SpellsArgument after content text) :
    IsBalanced content := by
  cases h with
  | braced h => exact h
  | character hplain hblank =>
    refine walk?_of_idle ?_
    intro d hd
    obtain rfl := List.mem_singleton.mp hd
    exact ⟨by simp [braceStep, hplain], hplain.2.2⟩
  | @word name hne hname hafter =>
    cases name with
    | nil => exact absurd rfl hne
    | cons c rest =>
      rw [List.all_cons, Bool.and_eq_true] at hname
      rw [IsBalanced, walk?_backslash rfl rfl]
      exact walk?_letters hname.2 0
  | symbol hc => exact walk?_backslash rfl rfl []

end

end Source

/-! ## Scripts -/

namespace Formula

/-- A script in front of a text: its mark and its argument, with blanks before both. -/
inductive SpellsScript (mark : Char) (content after : Text) : Text → Prop
  | intro (blanks gap : Text) {argument : Text} (hblanks : blanks.all isAsciiBlank)
      (hgap : gap.all isAsciiBlank) (hargument : SpellsArgument after content argument) :
      SpellsScript mark content after (blanks ++ mark :: (gap ++ argument))

/-- Both scripts in front of a body, in either order. -/
inductive SpellsScripts (lower upper body : Text) : Text → Prop
  | lowerFirst {behind text : Text} (hlower : SpellsScript '_' lower behind text)
      (hupper : SpellsScript '^' upper body behind) : SpellsScripts lower upper body text
  | upperFirst {behind text : Text} (hupper : SpellsScript '^' upper behind text)
      (hlower : SpellsScript '_' lower body behind) : SpellsScripts lower upper body text

/-- The limits of an operator: both scripts, with the marker `\limits` in front or without it. -/
inductive SpellsLimits (lower upper body : Text) : Text → Prop
  | scripts {text : Text} (h : SpellsScripts lower upper body text) :
      SpellsLimits lower upper body text
  | marked (blanks : Text) {text : Text} (hblanks : blanks.all isAsciiBlank)
      (h : SpellsScripts lower upper body text) :
      SpellsLimits lower upper body (blanks ++ ("\\limits" ++ text))

section
variable {lower upper body text : Text}

/-! ## Reading scripts -/

theorem SpellsScript.readScripts_lower (h : SpellsScript '_' lower body text) (rounds : Nat)
    (scripts : Scripts) :
    readScripts (rounds + 1) scripts text = readScripts rounds { scripts with lower } body := by
  obtain ⟨_, _, hblanks, hgap, hargument⟩ := h
  exact readScripts_lower_argument hblanks (hargument.argument?_append hgap)

theorem SpellsScript.readScripts_upper (h : SpellsScript '^' upper body text) (rounds : Nat)
    (scripts : Scripts) :
    readScripts (rounds + 1) scripts text = readScripts rounds { scripts with upper } body := by
  obtain ⟨_, _, hblanks, hgap, hargument⟩ := h
  exact readScripts_upper_argument hblanks (hargument.argument?_append hgap)

theorem SpellsScript.isBalanced {mark : Char} {content : Text}
    (h : SpellsScript mark content body text) : IsBalanced content := by
  obtain ⟨_, _, -, -, hargument⟩ := h
  exact hargument.isBalanced

/-- Two turns take up both scripts, in whichever order they stand. -/
theorem SpellsScripts.readScripts_eq (h : SpellsScripts lower upper body text) (rounds : Nat)
    (scripts : Scripts) :
    readScripts (rounds + 2) scripts text = readScripts rounds ⟨lower, upper⟩ body := by
  cases h with
  | lowerFirst hlower hupper => rw [hlower.readScripts_lower, hupper.readScripts_upper]
  | upperFirst hupper hlower => rw [hupper.readScripts_upper, hlower.readScripts_lower]

theorem SpellsScripts.isBalanced (h : SpellsScripts lower upper body text) :
    IsBalanced lower ∧ IsBalanced upper := by
  cases h with
  | lowerFirst hlower hupper => exact ⟨hlower.isBalanced, hupper.isBalanced⟩
  | upperFirst hupper hlower => exact ⟨hlower.isBalanced, hupper.isBalanced⟩

theorem SpellsLimits.isBalanced (h : SpellsLimits lower upper body text) :
    IsBalanced lower ∧ IsBalanced upper := by
  cases h with
  | scripts h => exact h.isBalanced
  | marked _ _ h => exact h.isBalanced

/-- A body in front of which the scripts of an operator end. -/
structure EndsScripts (body : Text) : Prop where
  noScript : (Text.skipBlanks body).head? ≠ some '_' ∧ (Text.skipBlanks body).head? ≠ some '^'
  noLimits : ¬"\\limits".toList <+: Text.skipBlanks body

instance (body : Text) : Decidable (EndsScripts body) :=
  decidable_of_iff
    (((Text.skipBlanks body).head? ≠ some '_' ∧ (Text.skipBlanks body).head? ≠ some '^') ∧
      ¬"\\limits".toList <+: Text.skipBlanks body)
    ⟨fun ⟨noScript, noLimits⟩ => ⟨noScript, noLimits⟩,
      fun ⟨noScript, noLimits⟩ => ⟨noScript, noLimits⟩⟩

/-- The loop reads the limits of an operator, and turns are left when it comes to the body. -/
theorem SpellsLimits.readScripts_eq (h : SpellsLimits lower upper body text)
    (hbody : EndsScripts body) : readScripts 4 ⟨[], []⟩ text = (⟨lower, upper⟩, body) := by
  cases h with
  | scripts h => rw [h.readScripts_eq, readScripts_end hbody.noScript hbody.noLimits]
  | marked _ hblanks h =>
    rw [readScripts_limits hblanks, h.readScripts_eq,
      readScripts_end hbody.noScript hbody.noLimits]

/-! ## Operators with limits -/

/-- Blanks and what is no letter behind them leave a command in front of them whole. -/
theorem beginsWithLetter_blanks {blanks : Text} {c : Char} (hblanks : blanks.all isAsciiBlank)
    (hc : isLetter c = false) (rest : Text) : beginsWithLetter (blanks ++ c :: rest) = false := by
  cases blanks with
  | nil => exact hc
  | cons d blanks =>
    rw [List.all_cons, Bool.and_eq_true] at hblanks
    exact not_isLetter_of_isBlank (isBlank_of_isAsciiBlank hblanks.1)

theorem SpellsScript.beginsWithLetter_eq {mark : Char} {content : Text}
    (h : SpellsScript mark content body text) (hmark : isLetter mark = false) :
    beginsWithLetter text = false := by
  obtain ⟨_, _, hblanks, -, -⟩ := h
  exact beginsWithLetter_blanks hblanks hmark _

/-- Limits begin with no letter, so the command in front of them is read as a whole. -/
theorem SpellsLimits.beginsWithLetter_eq (h : SpellsLimits lower upper body text) :
    beginsWithLetter text = false := by
  cases h with
  | scripts h =>
    cases h with
    | lowerFirst hlower hupper => exact hlower.beginsWithLetter_eq rfl
    | upperFirst hupper hlower => exact hupper.beginsWithLetter_eq rfl
  | marked _ hblanks h => exact beginsWithLetter_blanks hblanks rfl _

/-- Both scripts in braces, the lower one first, with nothing between them. -/
def plainLimits (lower upper body : Text) : Text :=
  '_' :: Text.braced lower ++ ('^' :: Text.braced upper ++ body)

/-- The constructs that stand behind an operator with both limits, and their commands. -/
def limitCommands : List (Tag × Text) :=
  [(.integral, "\\int"), (.sum, "\\sum"), (.product, "\\prod")]

/-- The plain spelling is one of those that the limits have, when they have any. -/
theorem SpellsLimits.plain (h : SpellsLimits lower upper body text) :
    SpellsLimits lower upper body (plainLimits lower upper body) := by
  have hbalanced := h.isBalanced
  have hupper : SpellsScript '^' upper body ('^' :: Text.braced upper ++ body) :=
    .intro [] [] rfl rfl (.braced hbalanced.2)
  have hlower : SpellsScript '_' lower ('^' :: Text.braced upper ++ body)
      (plainLimits lower upper body) := .intro [] [] rfl rfl (.braced hbalanced.1)
  exact .scripts (.lowerFirst hlower hupper)

/-- A construct with limits is made from what is read at its operator. -/
theorem exists_readAs?_eq {tag : Tag} {command : Text} (h : (tag, command) ∈ limitCommands) :
    ∃ (word : Text) (build : Scripts × Text → Formula), command = '\\' :: word ∧
      ∀ text, readAs? tag text = (readOperator? command text).map build := by
  simp only [limitCommands, List.mem_cons, Prod.mk.injEq, List.not_mem_nil, or_false] at h
  rcases h with ⟨rfl, rfl⟩ | ⟨rfl, rfl⟩ | ⟨rfl, rfl⟩
  · exact ⟨"int", _, rfl, fun _ => rfl⟩
  · exact ⟨"sum", _, rfl, fun _ => rfl⟩
  · exact ⟨"prod", _, rfl, fun _ => rfl⟩

/-- The limits of an integral, a sum or a product are read alike however they are spelled, and up
to the same place: at its operator stand the two scripts and the trimmed body, and the formula is
the one that the plain spelling gives. -/
theorem read_limits {tag : Tag} {command : Text} (hcommand : (tag, command) ∈ limitCommands)
    (hbody : EndsScripts body) (htext : SpellsLimits lower upper body text) :
    readOperator? command (command ++ text) = some (⟨lower, upper⟩, Text.trim body) ∧
    (readAs? tag (command ++ text)).isSome ∧
    read tag (command ++ text) = read tag (command ++ plainLimits lower upper body) := by
  obtain ⟨word, build, rfl, hread⟩ := exists_readAs?_eq hcommand
  have hoperator {text : Text} (h : SpellsLimits lower upper body text) :
      readOperator? ('\\' :: word) ('\\' :: word ++ text) =
        some (⟨lower, upper⟩, Text.trim body) :=
    readOperator?_append word h.beginsWithLetter_eq (h.readScripts_eq hbody)
  have hplain : SpellsLimits lower upper body (plainLimits lower upper body) := htext.plain
  refine ⟨hoperator htext, ?_, ?_⟩
  · rw [hread, hoperator htext]
    rfl
  · rw [read, read, hread, hread, hoperator htext, hoperator hplain]

end

/-- A sum with its marker, the upper script first as a control word, and blanks between them. -/
theorem read_limits_marked :
    (Tag.sum, "\\sum".toList) ∈ limitCommands ∧
    EndsScripts " a_i" ∧
    SpellsLimits "i=1" "\\infty" " a_i" "\\limits ^\\infty _ \x7bi=1\x7d a_i" ∧
    read .sum "\\sum\\limits ^\\infty _ \x7bi=1\x7d a_i" =
      read .sum "\\sum_\x7bi=1\x7d^\x7b\\infty\x7d a_i" := by
  have hcommand : (Tag.sum, "\\sum".toList) ∈ limitCommands := by decide
  have hbody : EndsScripts " a_i" := by decide
  have hlower : SpellsScript '_' "i=1" " a_i" " _ \x7bi=1\x7d a_i" :=
    .intro " " " " rfl rfl (.braced (by decide))
  have hname : "infty".toList ≠ [] := by decide
  have hupper : SpellsScript '^' "\\infty" " _ \x7bi=1\x7d a_i" " ^\\infty _ \x7bi=1\x7d a_i" :=
    .intro " " [] rfl rfl (.word hname rfl rfl)
  have htext : SpellsLimits "i=1" "\\infty" " a_i" "\\limits ^\\infty _ \x7bi=1\x7d a_i" :=
    .marked [] rfl (.upperFirst hupper hlower)
  exact ⟨hcommand, hbody, htext, (read_limits hcommand hbody htext).2.2⟩

end Formula

end TexFigure
