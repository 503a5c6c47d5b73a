import TexFigure.Proofs.Occurrence
import TexFigure.Table.Registry
/-!
# The tables that a source text defines

A source text with definitions of tables is text without their command, then a definition, then
text again, and so on (`written`). Each step of the reader finds the next definition and takes all
of it, its rows included, so that definitions inside of rows are no definitions of the text:

> `definitions_written`: the definitions that are read are those that are written, in order.

What a registry makes of them is said without its insertion: the names are in the order in which
they were first given, and a name has the rows that it was given last (`names_ofEntries`,
`find?_ofEntries`).
-/

namespace TexFigure

namespace Source

/-- A phrase whose only backslash is its first character starts a text before a backslash when it
starts the text with what follows the backslash. -/
theorem prefix_of_prefix_append_backslash {phrase before after : Text} (hne : before ≠ [])
    (hphrase : '\\' ∉ phrase.tail) (h : phrase <+: before ++ '\\' :: after) :
    phrase <+: before := by
  obtain ⟨t, ht⟩ := h
  rcases List.append_eq_append_iff.mp ht with ⟨u, hbefore, -⟩ | ⟨u, hcover, hafter⟩
  · exact ⟨u, hbefore.symm⟩
  · cases u with
    | nil => exact ⟨[], by rw [hcover, List.append_nil, List.append_nil]⟩
    | cons d u =>
      obtain ⟨c, rest, rfl⟩ := List.exists_cons_of_ne_nil hne
      rw [hcover, ← (List.cons.inj hafter).1] at hphrase
      simp at hphrase

/-- A command is found behind a text in which it does not occur. -/
theorem afterCommand?_of_not_infix {word text after : Text} (hword : '\\' ∉ word)
    (h : ¬ '\\' :: word <:+: text) (hafter : beginsWithLetter after = false) :
    afterCommand? ('\\' :: word) (text ++ ('\\' :: word ++ after)) = some after := by
  induction text with
  | nil =>
    rw [List.nil_append, List.cons_append, afterCommand?, cutAtCommand, ← List.cons_append,
      Text.isPrefixOf?_append]
    simp [hafter]
  | cons c text ih =>
    have htext : ¬ '\\' :: word <:+: text := fun hin =>
      h (hin.trans (List.suffix_cons c text).isInfix)
    -- an occurrence that starts here would end before the backslash of the command
    have hpass : ('\\' :: word).isPrefixOf? (c :: text ++ ('\\' :: word ++ after)) = none := by
      refine Text.isPrefixOf?_eq_none fun hprefix => h ?_
      exact (prefix_of_prefix_append_backslash (List.cons_ne_nil c text)
        (show '\\' ∉ List.tail ('\\' :: word) from hword) hprefix).isInfix
    rw [List.cons_append] at hpass ⊢
    rw [← ih htext, afterCommand?, cutAtCommand, hpass, Option.map_map]
    rfl

end Source

namespace Table

open Source

/-! ## Definitions -/

/-- A definition of a table as it stands in a source text: options in brackets or none, the rows,
and a name with or without braces. -/
structure Definition where
  options : Option Text
  rows : Text
  name : Text
  inBraces : Bool

namespace Definition

/-- The name as it stands. -/
def writeName (definition : Definition) : Text :=
  if definition.inBraces then Text.braced ('\\' :: definition.name) else '\\' :: definition.name

/-- What stands behind the command. -/
def writeParts (definition : Definition) : Text :=
  (definition.options.map Text.bracketed).getD [] ++
    (Text.braced definition.rows ++ definition.writeName)

/-- The text of a definition. -/
def write (definition : Definition) : Text := readCommand ++ definition.writeParts

/-- The name with the rows that are kept under it. -/
def entry (definition : Definition) : Text × Text :=
  (definition.name, normalizeRows definition.rows)

/-- A definition whose groups close, with a name. -/
structure IsSound (definition : Definition) : Prop where
  options : ∀ text ∈ definition.options, IsNested text
  rows : IsBalanced definition.rows
  nonempty : definition.name ≠ []
  chars : definition.name.all isNameChar

instance (definition : Definition) : Decidable definition.IsSound :=
  decidable_of_iff
    ((∀ text ∈ definition.options, IsNested text) ∧ IsBalanced definition.rows ∧
      definition.name ≠ [] ∧ definition.name.all isNameChar = true)
    ⟨fun h => ⟨h.1, h.2.1, h.2.2.1, h.2.2.2⟩, fun h => ⟨h.options, h.rows, h.nonempty, h.chars⟩⟩

/-- Whether the name ends where a text begins: a name without braces must not go on in it. -/
def EndsAt (definition : Definition) (text : Text) : Prop :=
  definition.inBraces = false → ∀ c ∈ text.head?, isNameChar c = false

instance (definition : Definition) (text : Text) : Decidable (definition.EndsAt text) :=
  decidable_of_iff (definition.inBraces = false → text.head?.all fun c => !isNameChar c)
    (by simp [EndsAt, Option.all_eq_true])

end Definition

section
variable {definition : Definition}

theorem isBlank_of_isNameChar {c : Char} (h : isNameChar c = true) : isBlank c = false := by
  by_cases hblank : isBlank c = true
  · have hletter : c.isAlpha = false := not_isLetter_of_isBlank hblank
    rw [isNameChar, hletter, Bool.false_or, beq_iff_eq] at h
    subst h
    cases hblank
  · exact Bool.eq_false_iff.mpr hblank

/-- A control sequence is trimmed, and it is read as its name. -/
theorem tableName?_name (h : definition.IsSound) :
    Text.trim ('\\' :: definition.name) = '\\' :: definition.name ∧
      tableName? ('\\' :: definition.name) = some definition.name := by
  have htrim : Text.trim ('\\' :: definition.name) = '\\' :: definition.name := by
    refine Text.trim_eq_self ⟨fun c hc => ?_, fun c hc => ?_⟩
    · cases hc
      rfl
    · rcases List.mem_cons.mp (List.mem_of_getLast? hc) with rfl | hmem
      · rfl
      · exact isBlank_of_isNameChar (List.all_eq_true.mp h.chars c hmem)
  refine ⟨htrim, ?_⟩
  rw [tableName?, htrim]
  exact if_pos (by simp [h.nonempty, h.chars])

/-- A control sequence opens and closes nothing, and its backslash escapes a letter of its own. -/
theorem isBalanced_name (h : definition.IsSound) : IsBalanced ('\\' :: definition.name) := by
  have hfree : isBraceFree ('\\' :: definition.name) = true := by
    rw [isBraceFree, List.all_cons]
    refine List.all_eq_true.mpr fun c hc => ?_
    have hchar := List.all_eq_true.mp h.chars c hc
    have hne {d : Char} (hd : isNameChar d = false) : c ≠ d := by
      rintro rfl
      rw [hchar] at hd
      cases hd
    simp [hne (d := '{') rfl, hne (d := '}') rfl]
  obtain ⟨escaped, hwalk⟩ := walk?_braceStep_of_isBraceFree hfree 0 false
  obtain ⟨init, last, hname⟩ : ∃ init last, definition.name = init ++ [last] :=
    ⟨_, _, (List.dropLast_append_getLast h.nonempty).symm⟩
  have hlast : last ≠ '\\' := by
    rintro rfl
    have hchar := List.all_eq_true.mp h.chars '\\' (by rw [hname]; simp)
    cases hchar
  rw [hname, ← List.cons_append] at hwalk ⊢
  obtain rfl := not_escaped_of_walk?_concat hlast hwalk
  exact hwalk

/-- The name of a definition is read up to its end. -/
theorem definedName_writeName (h : definition.IsSound) {rest : Text}
    (hrest : definition.EndsAt rest) :
    definedName (definition.writeName ++ rest) = ('\\' :: definition.name, rest) := by
  unfold Definition.writeName
  cases hbraces : definition.inBraces with
  | true =>
    have htext : Text.braced ('\\' :: definition.name) ++ rest =
        '{' :: ('\\' :: definition.name ++ '}' :: rest) := by simp [Text.braced]
    rw [if_pos rfl, htext, definedName, braceContent_append (isBalanced_name h),
      (tableName?_name h).1]
  | false =>
    obtain ⟨htake, hdrop⟩ := Text.takeWhile_append h.chars (hrest hbraces)
    show ('\\' :: (definition.name ++ rest).takeWhile isNameChar,
      (definition.name ++ rest).dropWhile isNameChar) = _
    rw [htake, hdrop]

/-- A definition is read behind its command, all of it. -/
theorem readDefinition_writeParts (h : definition.IsSound) {rest : Text}
    (hrest : definition.EndsAt rest) :
    readDefinition (definition.writeParts ++ rest) = (some definition.entry, rest) := by
  have hrows : group? (Text.braced definition.rows ++ (definition.writeName ++ rest)) =
      some (definition.rows, definition.writeName ++ rest) := group?_braced h.rows _
  have hoptions : afterBrackets (definition.writeParts ++ rest) =
      Text.braced definition.rows ++ (definition.writeName ++ rest) := by
    rw [Definition.writeParts, List.append_assoc, List.append_assoc, afterBrackets]
    cases hopt : definition.options with
    | none => rfl
    | some text =>
      show ((brackets? (Text.bracketed text ++ _)).map _).getD _ = _
      rw [brackets?_bracketed (h.options text hopt).isBracketContent]
      rfl
  -- a name starts with a brace or with its backslash, in front of which nothing is skipped
  have hskip : Text.skipBlanks (definition.writeName ++ rest) = definition.writeName ++ rest := by
    unfold Definition.writeName
    split <;> rfl
  rw [readDefinition, hoptions, hrows]
  simp only [hskip, definedName_writeName h hrest, (tableName?_name h).2]
  rfl

/-- Behind the command of a definition stands a bracket or a brace. -/
theorem not_beginsWithLetter_writeParts (rest : Text) :
    beginsWithLetter (definition.writeParts ++ rest) = false := by
  rw [Definition.writeParts]
  cases definition.options <;> rfl

end

/-! ## A source text with definitions -/

/-- A source text: text, and definitions each with the text behind it. -/
def written (before : Text) : List (Definition × Text) → Text
  | [] => before
  | (definition, after) :: rest => before ++ (definition.write ++ written after rest)

/-- The definitions that a text starts with behind other text: that one, and those that follow. -/
theorem definitions_write {definition : Definition} (h : definition.IsSound) {before rest : Text}
    (hbefore : ¬readCommand <:+: before) (hrest : definition.EndsAt rest) :
    definitions (before ++ (definition.write ++ rest)) = definition.entry :: definitions rest := by
  have hfound : afterCommand? readCommand (before ++ (definition.write ++ rest)) =
      some (definition.writeParts ++ rest) := by
    rw [Definition.write, List.append_assoc]
    exact afterCommand?_of_not_infix (by decide) hbefore (not_beginsWithLetter_writeParts rest)
  rw [definitions]
  split
  next hnone =>
    rw [hfound] at hnone
    cases hnone
  next after hsome =>
    rw [hfound] at hsome
    obtain rfl := Option.some.inj hsome
    rw [readDefinition_writeParts h hrest]
    rfl

/-- A text without the command that defines a table has no definitions. -/
theorem definitions_eq_nil {text : Text} (h : ¬readCommand <:+: text) : definitions text = [] := by
  rw [definitions]
  split
  next => rfl
  next after hafter =>
    rw [afterCommand?, cutAtCommand_eq_none h] at hafter
    cases hafter

/-- Whether a definition and the text behind it are read as such. -/
structure IsPassage (passage : Definition × Text) : Prop where
  definition : passage.1.IsSound
  after : ¬readCommand <:+: passage.2
  ends : passage.1.EndsAt passage.2

instance (passage : Definition × Text) : Decidable (IsPassage passage) :=
  decidable_of_iff
    (passage.1.IsSound ∧ Text.contains passage.2 readCommand = false ∧
      passage.1.EndsAt passage.2)
    (by
      rw [← Bool.not_eq_true, Text.contains_iff]
      exact ⟨fun h => ⟨h.1, h.2.1, h.2.2⟩, fun h => ⟨h.definition, h.after, h.ends⟩⟩)

/-- A name ends at the definition behind it as it does at the end of the text. -/
theorem endsAt_written {definition : Definition} {after : Text} (h : definition.EndsAt after)
    (rest : List (Definition × Text)) : definition.EndsAt (written after rest) := by
  intro hbraces c hc
  cases rest with
  | nil => exact h hbraces c hc
  | cons next rest =>
    cases after with
    | nil =>
      cases hc
      rfl
    | cons d after => exact h hbraces c hc

/-- The definitions of a text are those that are written in it, in order. -/
theorem definitions_written {before : Text} {passages : List (Definition × Text)}
    (hbefore : ¬readCommand <:+: before) (h : ∀ passage ∈ passages, IsPassage passage) :
    definitions (written before passages) = passages.map fun passage => passage.1.entry := by
  induction passages generalizing before with
  | nil => exact definitions_eq_nil hbefore
  | cons passage rest ih =>
    obtain ⟨definition, after⟩ := passage
    rw [List.forall_mem_cons] at h
    obtain ⟨hsound, hafter, hends⟩ := h.1
    rw [written, definitions_write hsound hbefore (endsAt_written hends rest), ih hafter h.2]
    rfl

/-! ## What a registry keeps -/

/-- Tables by name, added one after another. -/
def Registry.ofEntries (entries : List (Text × Text)) : Registry :=
  entries.foldl (fun registry (name, rows) => registry.insert name rows) []

section
variable {registry : Registry} {name rows : Text}

/-- A new name comes last, one that is there keeps its place. -/
theorem names_insert : (registry.insert name rows).map (·.1) =
    if name ∈ registry.map (·.1) then registry.map (·.1) else registry.map (·.1) ++ [name] := by
  induction registry with
  | nil => rfl
  | cons entry rest ih =>
    obtain ⟨other, old⟩ := entry
    rw [Registry.insert]
    by_cases hname : other = name
    · simp [hname]
    · rw [if_neg hname, List.map_cons, ih]
      split
      next hmem => simp [hmem]
      next hmem => simp [hmem, Ne.symm hname]

/-- A table is found under the name that it is added with, and the others as before. -/
theorem find?_insert (other : Text) : (registry.insert name rows).find? other =
    if other = name then some rows else registry.find? other := by
  induction registry with
  | nil =>
    rw [Registry.insert, Registry.find?, List.lookup_cons]
    by_cases hother : other = name
    · simp [hother]
    · simp [hother, beq_eq_false_iff_ne.mpr hother, Registry.find?]
  | cons entry rest ih =>
    obtain ⟨first, old⟩ := entry
    unfold Registry.find? at ih ⊢
    rw [Registry.insert]
    by_cases hname : first = name
    · subst hname
      rw [if_pos rfl, List.lookup_cons, List.lookup_cons]
      by_cases hother : other = first
      · simp [hother]
      · simp [hother, beq_eq_false_iff_ne.mpr hother]
    · rw [if_neg hname, List.lookup_cons, List.lookup_cons, ih]
      by_cases hother : other = first
      · subst hother
        simp [hname]
      · simp [beq_eq_false_iff_ne.mpr hother]

end

/-- The names of a registry are those that were given, in the order in which they first were. -/
theorem names_ofEntries (entries : List (Text × Text)) :
    (Registry.ofEntries entries).map (·.1) = (entries.map (·.1)).eraseDups := by
  -- the induction is on the entry that was added last
  induction entries using List.reverseRecOn with
  | nil => rfl
  | append_singleton entries entry ih =>
    have hadd : Registry.ofEntries (entries ++ [entry]) =
        (Registry.ofEntries entries).insert entry.1 entry.2 := List.foldl_concat _ _ _ _
    rw [hadd, names_insert, ih, List.map_append, List.map_singleton, List.eraseDups_append]
    by_cases hmem : entry.1 ∈ (entries.map (·.1)).eraseDups
    · have hgiven : [entry.1].removeAll (entries.map (·.1)) = [] :=
        List.filter_cons_of_neg (by simpa using hmem)
      rw [if_pos hmem, hgiven]
      exact (List.append_nil _).symm
    · have hnew : [entry.1].removeAll (entries.map (·.1)) = [entry.1] :=
        List.filter_cons_of_pos (by simpa using hmem)
      rw [if_neg hmem, hnew]
      rfl

/-- The rows of a name are those that it was given last. -/
theorem find?_ofEntries (entries : List (Text × Text)) (name : Text) :
    (Registry.ofEntries entries).find? name = entries.reverse.lookup name := by
  induction entries using List.reverseRecOn with
  | nil => rfl
  | append_singleton entries entry ih =>
    have hadd : Registry.ofEntries (entries ++ [entry]) =
        (Registry.ofEntries entries).insert entry.1 entry.2 := List.foldl_concat _ _ _ _
    rw [hadd, find?_insert, ih, List.reverse_concat, List.lookup_cons]
    by_cases hname : name = entry.1
    · simp [hname]
    · simp [hname, beq_eq_false_iff_ne.mpr hname]

/-- The tables of a source text are those of its definitions, added in order: a name that is given
again keeps its place and has the rows that it was given last. -/
theorem collect_written {before : Text} {passages : List (Definition × Text)}
    (hbefore : ¬readCommand <:+: before) (h : ∀ passage ∈ passages, IsPassage passage) :
    collect (written before passages) =
        Registry.ofEntries (passages.map fun passage => passage.1.entry) ∧
      (collect (written before passages)).map (·.1) =
        (passages.map fun passage => passage.1.name).eraseDups ∧
      ∀ name, (collect (written before passages)).find? name =
        (passages.map fun passage => passage.1.entry).reverse.lookup name := by
  have hcollect : collect (written before passages) =
      Registry.ofEntries (passages.map fun passage => passage.1.entry) := by
    rw [collect, definitions_written hbefore h]
    rfl
  rw [hcollect, names_ofEntries, List.map_map]
  exact ⟨rfl, rfl, find?_ofEntries _⟩

/-- Definitions with both forms of a name, one inside of the rows of another, and one that is made
again. -/
def twoTables : List (Definition × Text) := [
  (⟨none, "\nx y\n1 2\n", "loaded", false⟩, " \\pgfplotstable\n% "),
  (⟨some "col sep=comma, x=[a]", "a,b\n\\pgfplotstableread\x7b3,4\x7d\\inner", "other", true⟩,
    "abc\\"),
  (⟨none, "5 6 \\\\", "loaded", false⟩, "1")]

theorem collect_written_twoTables :
    ¬readCommand <:+: "\\begin\x7baxis".toList ∧ (∀ passage ∈ twoTables, IsPassage passage) ∧
      (collect (written "\\begin\x7baxis" twoTables)).map (·.1) =
        ["loaded".toList, "other".toList] ∧
      (collect (written "\\begin\x7baxis" twoTables)).find? "loaded" = some "5 6".toList := by
  have hbefore : ¬readCommand <:+: "\\begin\x7baxis".toList := by
    rw [← Text.contains_iff]
    decide
  have hpassages : ∀ passage ∈ twoTables, IsPassage passage := by decide
  obtain ⟨-, hnames, hrows⟩ := collect_written hbefore hpassages
  refine ⟨hbefore, hpassages, hnames.trans (by decide), (hrows "loaded").trans (by decide)⟩

end Table

end TexFigure
