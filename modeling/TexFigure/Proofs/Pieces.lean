import TexFigure.Proofs.Semicolons
import TexFigure.Proofs.Stability
/-!
# Pieces of an axis body

The body of an axis that a user has edited holds more than series: commands that mean nothing to a
chart, comments, drawings, blanks. Each of these pieces (`Item`) is read up to its own end, whatever
comes next: what comes next starts a piece of its own, so that it is no argument, no legend entry
and no letter of a name (`IsApart`).

> `statements_items`: the statements of a body are those of its pieces, in order.
-/

namespace TexFigure.Chart

open Source

/-! ## Pieces of a body -/

/-- An argument of a command, in brackets or in braces, behind blanks. -/
structure Argument where
  blanks : Text := []
  inBrackets : Bool := false
  content : Text

/-- The text of an argument. -/
def Argument.write (argument : Argument) : Text :=
  argument.blanks ++
    if argument.inBrackets then Text.bracketed argument.content else Text.braced argument.content

/-- An argument whose groups nest. -/
structure Argument.IsSound (argument : Argument) : Prop where
  blanks : argument.blanks.all isAsciiBlank = true
  nested : IsNested argument.content

instance (argument : Argument) : Decidable argument.IsSound :=
  decidable_of_iff (argument.blanks.all isAsciiBlank = true ∧ IsNested argument.content)
    ⟨fun h => ⟨h.1, h.2⟩, fun h => ⟨h.blanks, h.nested⟩⟩

/-- A piece of an axis body. -/
inductive Item
  /-- A series as it is written. -/
  | series (series : Series)
  /-- A command with arguments, given without its backslash. -/
  | command (name : Text) (arguments : List Argument)
  /-- A comment up to the end of its line. -/
  | comment (line : Text)
  /-- A drawing command, and what it draws up to its semicolon. -/
  | drawing (name text : Text)
  | blank (c : Char)

/-- The text of a piece. -/
def Item.write : Item → Text
  | .series s => writeSeries s
  | .command name arguments => '\\' :: (name ++ arguments.flatMap Argument.write)
  | .comment line => '%' :: (line ++ ['\n'])
  | .drawing name text => '\\' :: (name ++ (text ++ [';']))
  | .blank c => [c]

/-- The statement of a piece, if it is one. -/
def Item.statement? : Item → Option Statement
  | .series s => some s.statement
  | .command name _ => some (.unknown ('\\' :: name))
  | .comment _ => none
  | .drawing name _ => some (.unknown ('\\' :: name))
  | .blank _ => none

/-- The series of a piece, if it is one. -/
def Item.series? : Item → Option Series
  | .series s => some s
  | _ => none

/-- The command of a piece that means nothing to a chart. -/
def Item.unknown? : Item → Option Text
  | .command name _ => some ('\\' :: name)
  | .drawing name _ => some ('\\' :: name)
  | _ => none

/-- The name of a command that means nothing to a chart and draws nothing. -/
structure IsForeignName (name : Text) : Prop where
  letters : name.all isLetter = true
  nonempty : name ≠ []
  notSeries : ¬"addplot".toList <+: name
  notEntry : ¬"addlegendentry".toList <+: name
  notDrawing : name ∉ drawingCommands
  notLegends : name ≠ "legend"

instance (name : Text) : Decidable (IsForeignName name) :=
  decidable_of_iff
    (name.all isLetter = true ∧ name ≠ [] ∧ ¬"addplot".toList <+: name ∧
      ¬"addlegendentry".toList <+: name ∧ name ∉ drawingCommands ∧ name ≠ "legend")
    ⟨fun h => ⟨h.1, h.2.1, h.2.2.1, h.2.2.2.1, h.2.2.2.2.1, h.2.2.2.2.2⟩,
      fun h => ⟨h.letters, h.nonempty, h.notSeries, h.notEntry, h.notDrawing, h.notLegends⟩⟩

/-- Whether a piece is what it stands for: a series that is written stably, a command of its own
with arguments that nest, a comment on one line, a drawing with one semicolon, a blank. -/
def Item.IsSound : Item → Prop
  | .series s => s.kind.IsPlain ∧ (∀ text ∈ s.texts, IsQuiet (Text.trim text)) ∧
      s.kind.HasBalancedCoordinates
  | .command name arguments => IsForeignName name ∧ ∀ argument ∈ arguments, argument.IsSound
  | .comment line => '\n' ∉ line
  | .drawing name text =>
    name ∈ drawingCommands ∧ beginsWithLetter text = false ∧ IsDrawn text
  | .blank c => isAsciiBlank c = true

instance : DecidablePred Item.IsSound
  | .series _ => inferInstanceAs (Decidable (_ ∧ _ ∧ _))
  | .command _ _ => inferInstanceAs (Decidable (_ ∧ _))
  | .comment _ => inferInstanceAs (Decidable (¬_))
  | .drawing _ _ => inferInstanceAs (Decidable (_ ∧ _ ∧ _))
  | .blank _ => inferInstanceAs (Decidable (_ = _))

/-! ## What comes next -/

/-- What may follow a piece: nothing, a comment, or a command other than a legend entry, behind
blanks. -/
structure IsApart (rest : Text) : Prop where
  first : ∀ c ∈ (Text.skipBlanks rest).head?, c = '\\' ∨ c = '%'
  noEntry : ¬"\\addlegendentry".toList <+: Text.skipBlanks rest

theorem isApart_of_head {rest : Text} {c : Char} (hc : c = '\\' ∨ c = '%')
    (hentry : ¬"\\addlegendentry".toList <+: c :: rest) : IsApart (c :: rest) := by
  have hskip : Text.skipBlanks (c :: rest) = c :: rest :=
    List.dropWhile_cons_of_neg (by rcases hc with rfl | rfl <;> decide)
  refine ⟨?_, by rwa [hskip]⟩
  rw [hskip]
  intro d hd
  obtain rfl : c = d := Option.some.inj hd
  exact hc

/-- The drawing commands are no series, no legend and no legend entry. -/
theorem name_of_drawing {name : Text} (h : name ∈ drawingCommands) :
    name.all isLetter = true ∧ name ≠ [] ∧ ¬"addplot".toList <+: name ∧
      ¬"addlegendentry".toList <+: name ∧ name ≠ "legend" := by
  revert h name
  decide

section
variable {rest : Text}

theorem IsApart.head_ne (h : IsApart rest) {c : Char} (hc : c ≠ '\\' ∧ c ≠ '%') :
    (Text.skipBlanks rest).head? ≠ some c := by
  intro heq
  rcases h.first c heq with hfirst | hfirst
  · exact hc.1 hfirst
  · exact hc.2 hfirst

theorem IsApart.readLegend?_eq_none (h : IsApart rest) : readLegend? ('\n' :: rest) = none := by
  have hskip : Text.skipBlanks ('\n' :: rest) = Text.skipBlanks rest :=
    List.dropWhile_cons_of_pos rfl
  rw [readLegend?, hskip, Text.isPrefixOf?_eq_none h.noEntry]
  rfl

theorem IsApart.skipArguments_eq (h : IsApart rest) : skipArguments rest = rest := by
  have hbrackets : brackets? rest = none := brackets?_eq_none (h.head_ne (by decide))
  have hgroup : group? rest = none := if_neg (h.head_ne (by decide))
  rw [skipArguments]
  split
  next heq =>
    rw [hbrackets] at heq
    cases heq
  next =>
    split
    next heq =>
      rw [hgroup] at heq
      cases heq
    next => rfl

theorem IsApart.not_beginsWithLetter (h : IsApart rest) : beginsWithLetter rest = false := by
  cases rest with
  | nil => rfl
  | cons c rest =>
    by_cases hblank : isAsciiBlank c = true
    · exact not_isLetter_of_isBlank (isBlank_of_isAsciiBlank hblank)
    · have hskip : Text.skipBlanks (c :: rest) = c :: rest := List.dropWhile_cons_of_neg hblank
      rcases h.first c (by rw [hskip]; rfl) with rfl | rfl <;> rfl

end

/-! ## Commands -/

section
variable {name : Text}

/-- The letters at the front of a name that no letter follows are those of the name. -/
theorem prefix_of_letters {word rest : Text} (hword : word.all isLetter = true)
    (hrest : beginsWithLetter rest = false) (h : word <+: name ++ rest) : word <+: name := by
  cases rest with
  | nil => rwa [List.append_nil] at h
  | cons c rest =>
    refine Text.prefix_of_prefix_append_cons (fun hmem => ?_) h
    have hletter := List.all_eq_true.mp hword c hmem
    rw [show isLetter c = false from hrest] at hletter
    cases hletter

/-- A command is apart when its name does not start like that of a legend entry. -/
theorem isApart_command {rest : Text} (hrest : beginsWithLetter rest = false)
    (hentry : ¬"addlegendentry".toList <+: name) : IsApart ('\\' :: (name ++ rest)) := by
  refine isApart_of_head (Or.inl rfl) fun hprefix => hentry ?_
  exact prefix_of_letters (by decide) hrest (List.cons_prefix_cons.mp hprefix).2

/-- A command that is neither a series nor a list of legends is passed over by its name. -/
theorem readStatement_name (hletters : name.all isLetter = true) (hne : name ≠ [])
    (hseries : ¬"addplot".toList <+: name) (hlegends : name ≠ "legend") {rest : Text}
    (hrest : beginsWithLetter rest = false) :
    readStatement (name ++ rest) =
      (some (readUnknown (name ++ rest)).1, (readUnknown (name ++ rest)).2) := by
  have haddplot : "addplot".toList.isPrefixOf? (name ++ rest) = none :=
    Text.isPrefixOf?_eq_none fun h => hseries (prefix_of_letters (by decide) hrest h)
  have hlegend : "legend\x7b".toList.isPrefixOf? (name ++ rest) = none := by
    refine Text.isPrefixOf?_eq_none fun h => hlegends ?_
    -- a brace behind the six letters would end the name there
    obtain ⟨after, hafter⟩ := h
    have hbrace : beginsWithLetter ('{' :: after) = false := rfl
    exact eq_of_append_eq hletters (by decide) hrest hbrace hafter.symm
  obtain ⟨c, letters, rfl⟩ := List.exists_cons_of_ne_nil hne
  have hbegins : beginsWithLetter (c :: letters ++ rest) = true :=
    List.all_eq_true.mp hletters c List.mem_cons_self
  rw [readStatement, haddplot, hlegend]
  simp only [hbegins, if_true]

end

/-! ## Arguments -/

section
variable {argument : Argument} {rest : Text}

/-- Blanks in front of a group are passed over. -/
theorem groups_blanks {blanks : Text} (h : blanks.all isAsciiBlank = true) (text : Text) :
    brackets? (blanks ++ text) = brackets? text ∧ group? (blanks ++ text) = group? text := by
  induction blanks with
  | nil => exact ⟨rfl, rfl⟩
  | cons c blanks ih =>
    rw [List.all_cons, Bool.and_eq_true] at h
    rw [List.cons_append, brackets?_blank h.1, group?_blank h.1]
    exact ih h.2

/-- An argument is passed over. -/
theorem skipArguments_write (h : argument.IsSound) (rest : Text) :
    skipArguments (argument.write ++ rest) = skipArguments rest := by
  obtain ⟨blanks, inBrackets, content⟩ := argument
  obtain ⟨hblanks, hnested⟩ := h
  cases inBrackets with
  | true =>
    have hgroup : brackets? (blanks ++ Text.bracketed content ++ rest) = some (content, rest) := by
      rw [List.append_assoc, (groups_blanks hblanks _).1,
        brackets?_bracketed hnested.isBracketContent]
    show skipArguments (blanks ++ Text.bracketed content ++ rest) = _
    rw [skipArguments]
    split
    next content' after heq =>
      rw [hgroup] at heq
      cases heq
      rfl
    next heq =>
      rw [hgroup] at heq
      cases heq
  | false =>
    have hnone : brackets? (blanks ++ Text.braced content ++ rest) = none := by
      rw [List.append_assoc, (groups_blanks hblanks _).1]
      rfl
    have hgroup : group? (blanks ++ Text.braced content ++ rest) = some (content, rest) := by
      rw [List.append_assoc, (groups_blanks hblanks _).2, group?_braced hnested.isBalanced]
    show skipArguments (blanks ++ Text.braced content ++ rest) = _
    rw [skipArguments]
    split
    next heq =>
      rw [hnone] at heq
      cases heq
    next =>
      split
      next content' after heq =>
        rw [hgroup] at heq
        cases heq
        rfl
      next heq =>
        rw [hgroup] at heq
        cases heq

theorem beginsWithLetter_argument (h : argument.IsSound) (rest : Text) :
    beginsWithLetter (argument.write ++ rest) = false := by
  obtain ⟨blanks, inBrackets, content⟩ := argument
  obtain ⟨hblanks, -⟩ := h
  cases blanks with
  | nil => cases inBrackets <;> rfl
  | cons c blanks =>
    have hblank := List.all_eq_true.mp hblanks c List.mem_cons_self
    exact not_isLetter_of_isBlank (isBlank_of_isAsciiBlank hblank)

/-- All arguments are passed over, and what comes next is none. -/
theorem skipArguments_flatMap {arguments : List Argument}
    (h : ∀ argument ∈ arguments, argument.IsSound) (hrest : IsApart rest) :
    skipArguments (arguments.flatMap Argument.write ++ rest) = rest ∧
      beginsWithLetter (arguments.flatMap Argument.write ++ rest) = false := by
  induction arguments with
  | nil => exact ⟨hrest.skipArguments_eq, hrest.not_beginsWithLetter⟩
  | cons first others ih =>
    rw [List.forall_mem_cons] at h
    rw [List.flatMap_cons, List.append_assoc, skipArguments_write h.1]
    exact ⟨(ih h.2).1, beginsWithLetter_argument h.1 _⟩

end

/-! ## Reading the pieces -/

section
variable {rest : Text}

/-- A command that means nothing to a chart is one statement, with its arguments. -/
theorem statements_unknown {name after : Text} (h : IsForeignName name)
    (hafter : beginsWithLetter after = false) (hskip : skipArguments after = rest) :
    statements ('\\' :: (name ++ after)) = .unknown ('\\' :: name) :: statements rest := by
  have htake : (name ++ after).takeWhile isLetter = name ∧
      (name ++ after).dropWhile isLetter = after := by
    refine Text.takeWhile_append h.letters fun c hc => ?_
    rw [beginsWithLetter, show after.head? = some c from hc] at hafter
    exact hafter
  have hdrawing : drawingCommands.contains name = false := by
    simpa using h.notDrawing
  rw [statements_command, readStatement_name h.letters h.nonempty h.notSeries h.notLegends hafter,
    readUnknown]
  simp only [htake.1, htake.2, hdrawing, hskip]
  rfl

/-- A drawing is one statement, up to its semicolon. -/
theorem statements_drawing {name text : Text} (hname : name ∈ drawingCommands)
    (htext : beginsWithLetter text = false) (h : IsDrawn text) :
    statements ('\\' :: (name ++ (text ++ ';' :: rest))) =
      .unknown ('\\' :: name) :: statements rest := by
  obtain ⟨hletters, hne, hseries, -, hlegends⟩ := name_of_drawing hname
  have hbegins : beginsWithLetter (text ++ ';' :: rest) = false := by
    rw [beginsWithLetter_append rfl, htext]
  have htake : (name ++ (text ++ ';' :: rest)).takeWhile isLetter = name ∧
      (name ++ (text ++ ';' :: rest)).dropWhile isLetter = text ++ ';' :: rest := by
    refine Text.takeWhile_append hletters fun c hc => ?_
    rw [beginsWithLetter, show (text ++ ';' :: rest).head? = some c from hc] at hbegins
    exact hbegins
  have hdrawing : drawingCommands.contains name = true := by
    simpa using hname
  rw [statements_command, readStatement_name hletters hne hseries hlegends hbegins, readUnknown]
  simp only [htake.1, htake.2, hdrawing, if_true, cutAtSemicolon_drawn h]
  rfl

/-- A comment is no statement. -/
theorem statements_comment {line : Text} (h : '\n' ∉ line) :
    statements ('%' :: (line ++ '\n' :: rest)) = statements rest := by
  have hline : afterLine (line ++ '\n' :: rest) = rest := by
    rw [afterLine, List.dropWhile_append_of_pos, List.dropWhile_cons_of_neg (by decide)]
    · rfl
    · intro c hc
      have hne : c ≠ '\n' := fun heq => h (heq ▸ hc)
      simpa using hne
  rw [statements, if_pos rfl, hline]

theorem statements_blank {c : Char} (h : isAsciiBlank c = true) (text : Text) :
    statements (c :: text) = statements text := by
  have hne : c ≠ '%' ∧ c ≠ '\\' := by
    constructor <;> intro heq <;> subst heq <;> cases h
  rw [statements, if_neg hne.1, if_neg hne.2]

/-- A piece is read up to its end, when what comes next is a piece of its own. -/
theorem statements_write {item : Item} (h : item.IsSound) (hrest : IsApart rest) :
    statements (item.write ++ rest) = item.statement?.toList ++ statements rest := by
  cases item with
  | series s =>
    have hsound := isSound_series h.1 h.2.1 h.2.2
    exact statements_writeSeries hsound hrest.readLegend?_eq_none
  | command name arguments =>
    obtain ⟨hskip, hbegins⟩ := skipArguments_flatMap h.2 hrest
    show statements ('\\' :: (name ++ arguments.flatMap Argument.write ++ rest)) = _
    rw [List.append_assoc]
    exact statements_unknown h.1 hbegins hskip
  | comment line =>
    show statements ('%' :: (line ++ ['\n'] ++ rest)) = _
    rw [List.append_assoc]
    exact statements_comment h
  | drawing name text =>
    show statements ('\\' :: (name ++ (text ++ [';']) ++ rest)) = _
    rw [List.append_assoc, List.append_assoc]
    exact statements_drawing h.1 h.2.1 h.2.2
  | blank c => exact statements_blank h rest

end

/-! ## A body of pieces -/

section
variable {items : List Item}

/-- The text of several pieces. -/
def writeItems (items : List Item) : Text := items.flatMap Item.write

/-- What starts a piece: a command, a comment or a blank. -/
theorem exists_write {item : Item} (h : item.IsSound) :
    ∃ c rest, item.write = c :: rest ∧ (c = '\\' ∨ c = '%' ∨ isAsciiBlank c = true) := by
  cases item with
  | series s => exact ⟨'\\', _, writeSeries_eq s, Or.inl rfl⟩
  | command name arguments => exact ⟨'\\', _, rfl, Or.inl rfl⟩
  | comment line => exact ⟨'%', _, rfl, Or.inr (Or.inl rfl)⟩
  | drawing name text => exact ⟨'\\', _, rfl, Or.inl rfl⟩
  | blank c => exact ⟨c, [], rfl, Or.inr (Or.inr h)⟩

/-- Pieces are apart from what stands in front of them, when what follows them is. -/
theorem isApart_append_writeItems (h : ∀ item ∈ items, item.IsSound) {rest : Text}
    (hrest : IsApart rest) : IsApart (writeItems items ++ rest) := by
  induction items with
  | nil => exact hrest
  | cons item others ih =>
    rw [List.forall_mem_cons] at h
    have hothers := ih h.2
    rw [writeItems, List.flatMap_cons, List.append_assoc]
    cases item with
    | series s =>
      show IsApart (writeSeries s ++ (writeItems others ++ rest))
      rw [writeSeries_eq, List.append_assoc]
      show IsApart ('\\' :: ("addplot".toList ++ _))
      refine isApart_of_head (Or.inl rfl) fun hprefix => ?_
      obtain ⟨after, hafter⟩ := hprefix
      simp at hafter
    | command name arguments =>
      show IsApart ('\\' ::
        (name ++ arguments.flatMap Argument.write ++ (writeItems others ++ rest)))
      rw [List.append_assoc]
      exact isApart_command (skipArguments_flatMap h.1.2 hothers).2 h.1.1.notEntry
    | comment line =>
      show IsApart ('%' :: (line ++ ['\n'] ++ (writeItems others ++ rest)))
      refine isApart_of_head (Or.inr rfl) fun hprefix => ?_
      cases (List.cons_prefix_cons.mp hprefix).1
    | drawing name text =>
      have hbegins : beginsWithLetter (text ++ ';' :: (writeItems others ++ rest)) = false := by
        rw [beginsWithLetter_append rfl, h.1.2.1]
      show IsApart ('\\' :: (name ++ (text ++ [';']) ++ (writeItems others ++ rest)))
      rw [List.append_assoc, List.append_assoc]
      obtain ⟨-, -, -, hentry, -⟩ := name_of_drawing h.1.1
      exact isApart_command hbegins hentry
    | blank c =>
      have hskip : Text.skipBlanks (c :: (writeItems others ++ rest)) =
          Text.skipBlanks (writeItems others ++ rest) :=
        List.dropWhile_cons_of_pos h.1
      show IsApart (c :: (writeItems others ++ rest))
      exact ⟨by rw [hskip]; exact hothers.first, by rw [hskip]; exact hothers.noEntry⟩

theorem isApart_nil : IsApart [] :=
  ⟨by simp [Text.skipBlanks], by simp [Text.skipBlanks]⟩

theorem isApart_writeItems (h : ∀ item ∈ items, item.IsSound) : IsApart (writeItems items) := by
  have hapart := isApart_append_writeItems h isApart_nil
  rwa [List.append_nil] at hapart

/-- The statements of pieces come first, in order, and then those of what follows. -/
theorem statements_append_writeItems (h : ∀ item ∈ items, item.IsSound) {rest : Text}
    (hrest : IsApart rest) :
    statements (writeItems items ++ rest) =
      items.filterMap Item.statement? ++ statements rest := by
  induction items with
  | nil => rfl
  | cons item others ih =>
    rw [List.forall_mem_cons] at h
    have hread := statements_write h.1 (isApart_append_writeItems h.2 hrest)
    rw [ih h.2] at hread
    rw [writeItems, List.flatMap_cons, ← writeItems, List.append_assoc, hread, List.filterMap_cons]
    cases item.statement? <;> rfl

/-- The statements of a body are those of its pieces, in order. -/
theorem statements_items (h : ∀ item ∈ items, item.IsSound) :
    statements (writeItems items) = items.filterMap Item.statement? := by
  have hread := statements_append_writeItems h isApart_nil
  rw [List.append_nil, statements, List.append_nil] at hread
  exact hread

/-- Neither phrase reaches from one piece into the next. -/
theorem isSilent_append {text rest : Text} (h : IsSilent text) (hrest : IsSilent rest)
    (hfirst : ∀ c ∈ rest.head?, c = '\\' ∨ c ∉ axisEnd ∧ c ∉ Table.readCommand) :
    IsSilent (text ++ rest) := by
  cases rest with
  | nil => rwa [List.append_nil]
  | cons c rest =>
    rcases hfirst c rfl with rfl | hc
    · refine ⟨fun hin => ?_, fun hin => ?_⟩
      · exact (Text.infix_append_backslash (by decide) hin).elim h.1 hrest.1
      · exact (Text.infix_append_backslash (by decide) hin).elim h.2 hrest.2
    · have htail : IsSilent rest :=
        ⟨fun hin => hrest.1 (hin.trans (List.suffix_cons c rest).isInfix),
          fun hin => hrest.2 (hin.trans (List.suffix_cons c rest).isInfix)⟩
      exact h.append_cons hc htail

/-- The phrases that a silent text does not hold have no blanks. -/
theorem not_mem_of_isAsciiBlank {c : Char} (hc : isAsciiBlank c = true) :
    c ∉ axisEnd ∧ c ∉ Table.readCommand := by
  have hnone : (axisEnd ++ Table.readCommand).any isAsciiBlank = false := rfl
  rw [← not_or, ← List.mem_append]
  intro hmem
  exact Bool.false_ne_true (hnone.symm.trans (List.any_eq_true.mpr ⟨c, hmem, hc⟩))

/-- A body of silent pieces is silent. -/
theorem isSilent_writeItems (h : ∀ item ∈ items, item.IsSound)
    (hsilent : ∀ item ∈ items, IsSilent item.write) : IsSilent (writeItems items) := by
  induction items with
  | nil => exact isSilent_of_unescaped List.not_mem_nil
  | cons item rest ih =>
    rw [List.forall_mem_cons] at h hsilent
    rw [writeItems, List.flatMap_cons]
    refine isSilent_append hsilent.1 (ih h.2 hsilent.2) fun c hc => ?_
    cases rest with
    | nil => cases hc
    | cons next rest =>
      obtain ⟨d, after, hnext, hd⟩ := exists_write (h.2 next List.mem_cons_self)
      rw [List.flatMap_cons, hnext] at hc
      obtain rfl : d = c := Option.some.inj hc
      rcases hd with hd | hd | hd
      · exact Or.inl hd
      · subst hd
        exact Or.inr (by decide)
      · exact Or.inr (not_mem_of_isAsciiBlank hd)

end

end TexFigure.Chart
