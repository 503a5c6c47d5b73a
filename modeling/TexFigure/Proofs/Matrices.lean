import Mathlib.Data.List.Infix
import TexFigure.Formula.Read
import TexFigure.Formula.Write
import TexFigure.Proofs.Phrases
/-!
# Matrices are read back

The body of a matrix is split twice, into rows and each row into entries, and both splitters look
at all of it: an entry must be in one piece for the phrase between rows as well as for the phrase
between entries. Entries are written between blanks, so one that ends in a backslash escapes no
more than a blank. An empty entry is written as an empty group, hence the entry that is an empty
group itself is the one that would come back as another (`IsEntry`).

> `readAs?_write_matrix`: the entries that the counts name come back, however many were given.
> `read_write_matrix`: so a matrix whose rows and columns are as many as its counts say comes back
> as it is.
-/

namespace TexFigure

open Source

namespace Formula

/-! ## The entries that are written -/

/-- As many rows and columns as the counts say, with empty entries for those that are missing. -/
def resized (rows cols : Nat) (cells : List (List Text)) : List (List Text) :=
  (List.range rows).map fun row => (List.range cols).map fun col => (cells.getD row []).getD col []

theorem length_resized (rows cols : Nat) (cells : List (List Text)) :
    (resized rows cols cells).length = rows := by simp [resized]

theorem length_of_mem_resized {rows cols : Nat} {cells : List (List Text)} {row : List Text}
    (h : row ∈ resized rows cols cells) : row.length = cols := by
  obtain ⟨i, -, rfl⟩ := List.mem_map.mp h
  simp

/-- A matrix with rows and columns is written with at least one entry in each row. -/
theorem resized_ne_nil {rows cols : Nat} (hrows : 0 < rows) (hcols : 0 < cols)
    (cells : List (List Text)) :
    resized rows cols cells ≠ [] ∧ ∀ row ∈ resized rows cols cells, row ≠ [] := by
  constructor
  · rw [← List.length_pos_iff, length_resized]
    exact hrows
  · intro row hrow
    rw [← List.length_pos_iff, length_of_mem_resized hrow]
    exact hcols

theorem map_range_getD {α : Type} (l : List α) (d : α) :
    (List.range l.length).map (fun i => l.getD i d) = l := by
  apply List.ext_getElem
  · simp
  · intro i hi hi'
    simp [hi']

/-- A matrix of the given size is written as it is. -/
theorem resized_eq_self {rows cols : Nat} {cells : List (List Text)} (hrows : cells.length = rows)
    (hcols : ∀ row ∈ cells, row.length = cols) : resized rows cols cells = cells := by
  have hrow : ∀ row ∈ cells, (List.range cols).map (fun col => row.getD col []) = row := by
    intro row hrow
    rw [← hcols row hrow, map_range_getD]
  calc resized rows cols cells
      = ((List.range cells.length).map (fun row => cells.getD row [])).map
          (fun row => (List.range cols).map fun col => row.getD col []) := by
        rw [List.map_map, hrows]
        rfl
    _ = cells.map (fun row => (List.range cols).map fun col => row.getD col []) := by
        rw [map_range_getD]
    _ = cells.map id := List.map_congr_left hrow
    _ = cells := List.map_id cells

/-! ## Entries -/

/-- What closes the environment of a matrix. -/
def ending (delimiter : Delimiter) : Text := "\\end" ++ Text.braced delimiter.environment

/-- A text that can stand between the separators of a matrix body. Its braces close, but it may
escape what follows it. -/
structure IsEntryText (delimiter : Delimiter) (text : Text) : Prop where
  trimmed : Text.IsTrimmed text
  closed : (walk? braceStep 0 false text).map Prod.fst = some 0
  oneEntry : splitOutsideBraces "&" text = [text]
  oneRow : splitOutsideBraces "\\\\" text = [text]
  noEnding : ¬ending delimiter <:+: text

/-- An entry that is read back: any text that can stand there, but for the one that is written for
no text at all. -/
structure IsEntry (delimiter : Delimiter) (cell : Text) : Prop
    extends IsEntryText delimiter cell where
  notEmptyGroup : cell ≠ ['{', '}']

instance (delimiter : Delimiter) (cell : Text) : Decidable (IsEntry delimiter cell) :=
  decidable_of_iff
    (Text.IsTrimmed cell ∧ (walk? braceStep 0 false cell).map Prod.fst = some 0 ∧
      splitOutsideBraces "&" cell = [cell] ∧ splitOutsideBraces "\\\\" cell = [cell] ∧
      ¬ending delimiter <:+: cell ∧ cell ≠ ['{', '}'])
    ⟨fun ⟨h₁, h₂, h₃, h₄, h₅, h₆⟩ => ⟨⟨h₁, h₂, h₃, h₄, h₅⟩, h₆⟩,
      fun ⟨⟨h₁, h₂, h₃, h₄, h₅⟩, h₆⟩ => ⟨h₁, h₂, h₃, h₄, h₅, h₆⟩⟩

/-- The empty group that stands for an empty entry can stand between the separators as well. -/
theorem isEntryText_writeCell {delimiter : Delimiter} {cell : Text}
    (h : IsEntryText delimiter cell) : IsEntryText delimiter (writeCell cell) := by
  unfold writeCell
  split
  next =>
    have hslash : '\\' ∈ ending delimiter := List.mem_cons_self
    exact ⟨by decide, by decide, by decide, by decide,
      Text.not_infix_of_not_mem hslash (by decide)⟩
  next => exact h

/-- An entry is written as some characters that are not all blank. -/
theorem isBlankText_writeCell {cell : Text} (h : Text.IsTrimmed cell) :
    Text.isBlankText (writeCell cell) = false := by
  by_cases hnil : cell = []
  · subst hnil
    decide
  · rw [writeCell, if_neg (by simpa using hnil), Bool.eq_false_iff, ne_eq, ← Text.trim_eq_nil_iff,
      Text.trim_eq_self h]
    exact hnil

/-- An entry is read back from between its blanks. -/
theorem readCell_padded {delimiter : Delimiter} {cell : Text} (h : IsEntry delimiter cell) :
    readCell (padded (writeCell cell)) = cell := by
  have htrimmed := (isEntryText_writeCell h.toIsEntryText).trimmed
  have htrim : Text.trim (padded (writeCell cell)) = writeCell cell := by
    rw [padded, Text.trim_append_blanks rfl, Text.trim_cons_blank rfl, Text.trim_eq_self htrimmed]
  rw [readCell, htrim]
  by_cases hnil : cell = []
  · subst hnil
    decide
  · have hwrite : writeCell cell = cell := if_neg (by simpa using hnil)
    rw [hwrite, if_neg h.notEmptyGroup]

/-! ## The written body -/

/-- A row of a matrix with the blanks that stand around it. -/
def writtenRow (row : List Text) : Text :=
  Text.join "&" (row.map fun cell => padded (writeCell cell))

/-- What is written between the begin and the end of a matrix. -/
def writtenRows (cells : List (List Text)) : Text := Text.join "\\\\" (cells.map writtenRow)

/-- The blanks around the entries of a row can be counted to the separators or to the entries. They
are written the first way and split the second way. -/
theorem padded_join_row {row : List Text} (h : row ≠ []) :
    padded (Text.join " & " (row.map writeCell)) = writtenRow row := by
  have hne : row.map writeCell ≠ [] := by simpa using h
  have hpadded := padded_join "&" hne
  rw [List.map_map] at hpadded
  exact hpadded

/-- The same holds of the blanks around the rows. -/
theorem padded_join_rows {cells : List (List Text)} (hne : cells ≠ [])
    (h : ∀ row ∈ cells, row ≠ []) :
    padded (Text.join " \\\\ " (cells.map fun row => Text.join " & " (row.map writeCell))) =
      writtenRows cells := by
  have hne' : (cells.map fun row => Text.join " & " (row.map writeCell)) ≠ [] := by simpa using hne
  have hpadded := padded_join "\\\\" hne'
  rw [List.map_map] at hpadded
  rw [writtenRows, ← List.map_congr_left fun row hrow => padded_join_row (h row hrow)]
  exact hpadded

theorem inEnvironment_append (environment body : Text) :
    inEnvironment environment body =
      "\\begin" ++ Text.braced environment ++ (body ++ ("\\end" ++ Text.braced environment)) := by
  unfold inEnvironment
  rw [List.append_assoc, List.append_assoc]

/-- A matrix with rows and columns is written around its body. -/
theorem write_matrix_append {rows cols : Nat} (hrows : 0 < rows) (hcols : 0 < cols)
    (cells : List (List Text)) (delimiter : Delimiter) :
    (matrix rows cols cells delimiter).write =
      "\\begin" ++ Text.braced delimiter.environment ++
        (writtenRows (resized rows cols cells) ++ ending delimiter) := by
  obtain ⟨hne, hne'⟩ := resized_ne_nil hrows hcols cells
  have hwrite : writeRows rows cols cells = Text.join " \\\\ "
      ((resized rows cols cells).map fun row => Text.join " & " (row.map writeCell)) := by
    simp [writeRows, resized, Function.comp_def]
  have hcounts : ¬(rows = 0 ∨ cols = 0) := by omega
  rw [write_matrix, if_neg hcounts, hwrite, inEnvironment_append, ← padded_join_rows hne hne']
  rfl

/-! ## Splitting the body -/

section
variable {delimiter : Delimiter}

/-- Neither phrase is found in an entry with its blanks. -/
theorem IsEntryText.passesOver {text : Text} (h : IsEntryText delimiter text) :
    PassesOver "&" (padded text) ∧ PassesOver "\\\\" (padded text) := by
  constructor
  · exact passesOver_padded (by decide) (by decide) h.closed h.oneEntry
  · exact passesOver_padded (by decide) (by decide) h.closed h.oneRow

/-- A row is split into its entries. -/
theorem splitOutsideBraces_writtenRow {row : List Text} (hne : row ≠ [])
    (h : ∀ cell ∈ row, IsEntryText delimiter cell) :
    splitOutsideBraces "&" (writtenRow row) = row.map fun cell => padded (writeCell cell) := by
  refine splitOutsideBraces_join (by decide) rfl (by simpa using hne) ?_
  rw [List.forall_mem_map]
  intro cell hcell
  exact (isEntryText_writeCell (h cell hcell)).passesOver.1

/-- A body is split into its rows. -/
theorem splitOutsideBraces_writtenRows {cells : List (List Text)} (hne : cells ≠ [])
    (h : ∀ row ∈ cells, ∀ cell ∈ row, IsEntryText delimiter cell) :
    splitOutsideBraces "\\\\" (writtenRows cells) = cells.map writtenRow := by
  refine splitOutsideBraces_join (by decide) rfl (by simpa using hne) ?_
  rw [List.forall_mem_map]
  intro row hrow
  -- the sign between entries does not begin the phrase between rows
  refine PassesOver.join (passesOver_singleton rfl (by decide)) ?_
  rw [List.forall_mem_map]
  intro cell hcell
  exact (isEntryText_writeCell (h row hrow cell hcell)).passesOver.2

/-- A body does not hold the end of its environment. -/
theorem not_ending_infix_writtenRows {cells : List (List Text)} (hne : cells ≠ [])
    (hrows : ∀ row ∈ cells, row ≠ [])
    (h : ∀ row ∈ cells, ∀ cell ∈ row, IsEntryText delimiter cell) :
    ¬ending delimiter <:+: writtenRows cells := by
  have hne' : ending delimiter ≠ [] := List.cons_ne_nil _ _
  have hblank : ' ' ∉ ending delimiter := by cases delimiter <;> decide
  have hseparator : ∀ separator : Text, 'e' ∉ separator → ¬ending delimiter <:+: separator := by
    intro separator
    exact Text.not_infix_of_not_mem (by cases delimiter <;> decide)
  have hrow : ∀ row ∈ cells, ¬ending delimiter <:+: Text.join " & " (row.map writeCell) := by
    intro row hrow
    refine not_infix_join hne' hblank (hseparator "&" (by decide)) ?_
    rw [List.forall_mem_map]
    intro cell hcell
    exact (isEntryText_writeCell (h row hrow cell hcell)).noEnding
  intro hoccurs
  rw [← padded_join_rows hne hrows] at hoccurs
  refine not_infix_join hne' hblank (hseparator "\\\\" (by decide)) ?_
    (infix_of_infix_padded hne' hblank hoccurs)
  rw [List.forall_mem_map]
  exact hrow

/-! ## Reading the body -/

/-- A written row is not blank. -/
theorem isBlankText_writtenRow {row : List Text} (hne : row ≠ [])
    (h : ∀ cell ∈ row, IsEntryText delimiter cell) : Text.isBlankText (writtenRow row) = false := by
  obtain ⟨cell, hcell⟩ := List.exists_mem_of_ne_nil row hne
  have hoccurs : writeCell cell <:+: writtenRow row := by
    have hpart : padded (writeCell cell) <:+: writtenRow row :=
      infix_join (List.mem_map.mpr ⟨cell, hcell, rfl⟩)
    exact List.IsInfix.trans ⟨[' '], [' '], rfl⟩ hpart
  exact Text.isBlankText_of_infix hoccurs (isBlankText_writeCell (h cell hcell).trimmed)

/-- The environment names the delimiter. -/
theorem matrixBegin?_append (delimiter : Delimiter) (rest : Text) :
    matrixBegin? ("\\begin" ++ Text.braced delimiter.environment ++ rest) =
      some (delimiter, rest) := by
  cases delimiter <;> rfl

/-- No row is dropped when none is blank. -/
theorem dropBlankLast_eq_self {rows : List Text} (h : ∀ row ∈ rows, Text.isBlankText row = false) :
    dropBlankLast rows = rows := by
  have hlast : rows.getLast?.any Text.isBlankText = false := by
    cases hlast : rows.getLast? with
    | none => rfl
    | some row => exact h row (List.mem_of_getLast? hlast)
  have hkeep : ¬(rows.length > 1 ∧ rows.getLast?.any Text.isBlankText = true) := by
    intro hdrop
    rw [hlast] at hdrop
    cases hdrop.2
  exact if_neg hkeep

theorem foldl_max_length {cells : List (List Text)} {cols : Nat} (hne : cells ≠ [])
    (h : ∀ row ∈ cells, row.length = cols) : (cells.map List.length).foldl max 0 = cols := by
  obtain ⟨row, hrow⟩ := List.exists_mem_of_ne_nil cells hne
  have hmax : (cells.map List.length).max? = some cols := by
    rw [List.max?_eq_some_iff, List.forall_mem_map]
    exact ⟨List.mem_map.mpr ⟨row, hrow, h row hrow⟩, fun row hrow => (h row hrow).le⟩
  rw [List.foldl_max, hmax, Option.getD_some, Nat.zero_max]

/-- The entries of a written row are read back. -/
theorem map_readCell_writtenRow {row : List Text} (hne : row ≠ [])
    (h : ∀ cell ∈ row, IsEntry delimiter cell) :
    (splitOutsideBraces "&" (writtenRow row)).map readCell = row := by
  rw [splitOutsideBraces_writtenRow hne fun cell hcell => (h cell hcell).toIsEntryText,
    List.map_map]
  calc row.map (readCell ∘ fun cell => padded (writeCell cell))
      = row.map id := List.map_congr_left fun cell hcell => readCell_padded (h cell hcell)
    _ = row := List.map_id row

/-- The body of a matrix is read as the matrix that it was written for. -/
theorem readBody_writtenRows {cells : List (List Text)} {cols : Nat} (hne : cells ≠ [])
    (hrows : ∀ row ∈ cells, row ≠ []) (hlength : ∀ row ∈ cells, row.length = cols)
    (h : ∀ row ∈ cells, ∀ cell ∈ row, IsEntry delimiter cell) :
    readBody delimiter (writtenRows cells) = matrix cells.length cols cells delimiter := by
  have htexts : ∀ row ∈ cells, ∀ cell ∈ row, IsEntryText delimiter cell :=
    fun row hrow cell hcell => (h row hrow cell hcell).toIsEntryText
  have hblank : ∀ row ∈ cells, Text.isBlankText (writtenRow row) = false :=
    fun row hrow => isBlankText_writtenRow (hrows row hrow) (htexts row hrow)
  have hbody : Text.isBlankText (writtenRows cells) = false := by
    obtain ⟨row, hrow⟩ := List.exists_mem_of_ne_nil cells hne
    have hoccurs : writtenRow row <:+: writtenRows cells :=
      infix_join (List.mem_map.mpr ⟨row, hrow, rfl⟩)
    exact Text.isBlankText_of_infix hoccurs (hblank row hrow)
  have hkeep : dropBlankLast (cells.map writtenRow) = cells.map writtenRow :=
    dropBlankLast_eq_self (List.forall_mem_map.mpr hblank)
  have hentries :
      (cells.map writtenRow).map (fun row => (splitOutsideBraces "&" row).map readCell) =
        cells.map id := by
    rw [List.map_map]
    exact List.map_congr_left fun row hrow => map_readCell_writtenRow (hrows row hrow) (h row hrow)
  have hpad : cells.map (padRow cols) = cells.map id := by
    refine List.map_congr_left fun row hrow => ?_
    simp [padRow, hlength row hrow]
  rw [readBody, hbody, splitOutsideBraces_writtenRows hne htexts, hkeep, hentries, List.map_id]
  dsimp only
  rw [foldl_max_length hne hlength, hpad, List.map_id]
  rfl

end

/-! ## Reading back -/

/-- What is read between the begin and the end of an environment. -/
theorem readMatrix?_append {delimiter : Delimiter} {body : Text}
    (h : ¬ending delimiter <:+: body) :
    readMatrix? ("\\begin" ++ Text.braced delimiter.environment ++ (body ++ ending delimiter)) =
      some (readBody delimiter body) := by
  have hslash : '\\' ∉ "end" ++ Text.braced delimiter.environment := by
    cases delimiter <;> decide
  have hbegin := Text.splitAtFirst_here (matrixBegin?_append delimiter (body ++ ending delimiter))
  have hcut := Text.cut?_append hslash h []
  rw [List.append_nil] at hcut
  have hcut' : Text.cut? (body ++ ending delimiter) (ending delimiter) = some (body, []) := hcut
  rw [readMatrix?, hbegin, Option.bind_eq_bind, Option.bind_some]
  change some (readBody delimiter (((Text.cut? (body ++ ending delimiter)
    (ending delimiter)).map Prod.fst).getD (body ++ ending delimiter))) = _
  rw [hcut']
  rfl

/-- A written matrix is read with as many rows and columns as it was written with. -/
theorem readAs?_write_matrix {rows cols : Nat} {cells : List (List Text)} {delimiter : Delimiter}
    (hrows : 0 < rows) (hcols : 0 < cols)
    (h : ∀ row ∈ resized rows cols cells, ∀ cell ∈ row, IsEntry delimiter cell) :
    readAs? .matrix (matrix rows cols cells delimiter).write =
      some (matrix rows cols (resized rows cols cells) delimiter) := by
  obtain ⟨hne, hne'⟩ := resized_ne_nil hrows hcols cells
  have hending : ¬ending delimiter <:+: writtenRows (resized rows cols cells) :=
    not_ending_infix_writtenRows hne hne' fun row hrow cell hcell =>
      (h row hrow cell hcell).toIsEntryText
  have hread := readBody_writtenRows hne hne' (fun _ hrow => length_of_mem_resized hrow) h
  rw [length_resized] at hread
  show readMatrix? _ = _
  rw [write_matrix_append hrows hcols, readMatrix?_append hending, hread]

/-- A matrix without rows or without columns is written as the empty one. -/
theorem readAs?_write_matrix_empty {rows cols : Nat} (hcounts : rows = 0 ∨ cols = 0)
    (cells : List (List Text)) (delimiter : Delimiter) :
    readAs? .matrix (matrix rows cols cells delimiter).write =
      some (matrix 0 0 [] delimiter) := by
  have hending : ¬ending delimiter <:+: " " := by cases delimiter <;> decide
  have hwrite : (matrix rows cols cells delimiter).write =
      "\\begin" ++ Text.braced delimiter.environment ++ (" " ++ ending delimiter) := by
    rw [write_matrix, if_pos hcounts, inEnvironment_append]
    rfl
  show readMatrix? _ = _
  rw [hwrite, readMatrix?_append hending]
  rfl

/-- A matrix with as many rows and columns as its counts say is read back when each of its entries
is, and so is the matrix without entries. -/
theorem read_write_matrix :
    (∀ rows cols cells delimiter, 0 < rows → 0 < cols → cells.length = rows →
      (∀ row ∈ cells, row.length = cols) → (∀ row ∈ cells, ∀ cell ∈ row, IsEntry delimiter cell) →
      read .matrix (matrix rows cols cells delimiter).write = matrix rows cols cells delimiter) ∧
    ∀ delimiter, read .matrix (matrix 0 0 [] delimiter).write = matrix 0 0 [] delimiter := by
  constructor
  · intro rows cols cells delimiter hrows hcols hlength hlengths hentries
    have hself := resized_eq_self hlength hlengths
    have hread : readAs? .matrix (matrix rows cols cells delimiter).write =
        some (matrix rows cols (resized rows cols cells) delimiter) := by
      refine readAs?_write_matrix hrows hcols ?_
      rw [hself]
      exact hentries
    rw [read, hread, Option.getD_some, hself]
  · intro delimiter
    rw [read, readAs?_write_matrix_empty (Or.inl rfl), Option.getD_some]

/-- Entries with an escaped sign, a group that holds both separators, another environment, a last
backslash and no text at all. -/
theorem read_write_matrix_nested :
    let cells : List (List Text) :=
      [["a \\& b", "\x7ba & b \\\\ c\x7d"], [[], "\\begin\x7bmatrix\x7dx\\end\x7bmatrix\x7d"],
        ["a\\", "\x7b\x7d\x7b\x7d"]]
    (∀ row ∈ cells, ∀ cell ∈ row, IsEntry .brace cell) ∧
      read .matrix (matrix 3 2 cells .brace).write = matrix 3 2 cells .brace := by
  intro cells
  have hentries : ∀ row ∈ cells, ∀ cell ∈ row, IsEntry .brace cell := by decide +kernel
  refine ⟨hentries, ?_⟩
  exact read_write_matrix.1 3 2 cells .brace (by decide) (by decide) rfl (by decide) hentries

end Formula

end TexFigure
