import TexFigure.Proofs.FixedCoordinates
import TexFigure.Proofs.Payload
import TexFigure.Table.Points
/-!
# When canonical rows stay as they are

A line of data is trimmed, loses the row terminators at its end, and is trimmed once more. The
terminators are dropped all at once but only once: blanks that stand in front of them go, and a
terminator in front of these blanks is left (`HidesTerminator`). It is part of the row then, and is
dropped when the row is read as a line of data again.

Lines that hide nothing are rows without terminators, and rows of that kind are read as they stand
(`rowLines_normalizeRows_of_fixed`). A row that ends in a terminator gets shorter.

> `normalizeRows_normalizeRows_iff`: canonical rows stay as they are exactly when no line hides a
> terminator, and then they are read back from a table and have the points of the rows.
-/

namespace TexFigure

namespace Text

/-! ## Lines with something in them -/

theorem join_ne_nil {separator : Text} {parts : List Text} (hparts : parts ≠ [])
    (h : ∀ part ∈ parts, part ≠ []) : join separator parts ≠ [] := by
  cases parts with
  | nil => exact absurd rfl hparts
  | cons part rest =>
    rw [List.forall_mem_cons] at h
    cases rest with
    | nil => rw [join_singleton]; exact h.1
    | cons next rest => rw [join_cons_cons]; exact List.append_ne_nil_of_left_ne_nil h.1 _

/-- Trimmed parts with something in them make up a trimmed text. -/
theorem isTrimmed_join {separator : Text} {parts : List Text}
    (h : ∀ part ∈ parts, IsTrimmed part ∧ part ≠ []) : IsTrimmed (join separator parts) := by
  induction parts with
  | nil => exact ⟨nofun, nofun⟩
  | cons part rest ih =>
    rw [List.forall_mem_cons] at h
    cases rest with
    | nil => rw [join_singleton]; exact h.1.1
    | cons next rest =>
      have hne : join separator (next :: rest) ≠ [] :=
        join_ne_nil (List.cons_ne_nil _ _) fun part hpart => (h.2 part hpart).2
      rw [join_cons_cons]
      refine isTrimmed_append h.1.1.1 ?_ h.1.2 (List.append_ne_nil_of_right_ne_nil _ hne)
      rw [List.getLast?_append_of_ne_nil _ hne]
      exact (ih h.2).2

end Text

namespace Table

open Text

/-! ## Hidden terminators -/

/-- Several row terminators one behind another. -/
def rowEnds (count : Nat) : Text := (List.replicate count rowEnd).flatten

/-- A line of data whose terminators at the end stand behind blanks and another terminator. -/
def HidesTerminator (line : Text) : Prop :=
  isDataLine (trim line) = true ∧ ∃ (front blanks : Text) (count : Nat),
    blanks ≠ [] ∧ blanks.all isBlank = true ∧
      trim line = front ++ rowEnd ++ blanks ++ rowEnds (count + 1)

theorem rowEnds_succ (count : Nat) : rowEnds (count + 1) = rowEnd ++ rowEnds count := rfl

theorem reverse_rowEnds (count : Nat) : (rowEnds count).reverse = rowEnds count := by
  have hreverse : List.reverse rowEnd = rowEnd := rfl
  rw [rowEnds, List.reverse_flatten, List.map_replicate, List.reverse_replicate, hreverse]

theorem dropTerminators_rowEnds (count : Nat) (line : Text) :
    dropTerminators (rowEnds count ++ line) = dropTerminators line := by
  induction count with
  | zero => rfl
  | succ count ih => exact ih

/-- A line starts with the terminators that are dropped from its start. -/
theorem exists_dropTerminators (line : Text) :
    ∃ count, line = rowEnds count ++ dropTerminators line := by
  fun_induction dropTerminators line with
  | case1 rest ih =>
    obtain ⟨count, hrest⟩ := ih
    refine ⟨count + 1, ?_⟩
    rw [rowEnds_succ, List.append_assoc, ← hrest]
    rfl
  | case2 line => exact ⟨0, rfl⟩

/-- What is left without terminators starts with none. -/
theorem not_rowEnd_prefix_dropTerminators (line : Text) : ¬rowEnd <+: dropTerminators line := by
  fun_induction dropTerminators line with
  | case1 rest ih => exact ih
  | case2 line hline =>
    rintro ⟨rest, heq⟩
    exact hline rest heq.symm

/-- A trimmed line is what is left of it, then blanks, then the terminators that are dropped; what
is left ends in a terminator only in front of blanks. -/
theorem exists_trimLine_eq (line : Text) :
    ∃ (blanks : Text) (count : Nat), blanks.all isBlank = true ∧
      trim line = trimLine line ++ blanks ++ rowEnds count ∧
      (rowEnd <:+ trimLine line → blanks ≠ []) := by
  obtain ⟨count, hcount⟩ := exists_dropTerminators (trim line).reverse
  obtain ⟨blanks, hblanks, hall⟩ := exists_trimEnd (dropTerminators (trim line).reverse).reverse
  refine ⟨blanks, count, hall, ?_, ?_⟩
  · have hline := congrArg List.reverse hcount
    rw [List.reverse_reverse, List.reverse_append, reverse_rowEnds, hblanks] at hline
    exact hline
  · rintro hend rfl
    rw [List.append_nil] at hblanks
    have hprefix : rowEnd <+: dropTerminators (trim line).reverse := by
      rw [trimLine, ← hblanks, ← List.reverse_prefix, List.reverse_reverse] at hend
      exact hend
    exact not_rowEnd_prefix_dropTerminators _ hprefix

theorem getLast?_append_rowEnd (text : Text) : (text ++ rowEnd).getLast? = some '\\' :=
  List.getLast?_append_of_ne_nil text (List.cons_ne_nil _ _)

/-- A text that ends in blanks ends in no terminator. -/
theorem not_rowEnd_suffix_append {blanks : Text} (hne : blanks ≠ [])
    (hblanks : blanks.all isBlank = true) (text : Text) : ¬rowEnd <:+ text ++ blanks := by
  rintro ⟨before, heq⟩
  have hlast := congrArg List.getLast? heq
  rw [getLast?_append_rowEnd, List.getLast?_append_of_ne_nil _ hne,
    List.getLast?_eq_some_getLast hne] at hlast
  have hblank := List.all_eq_true.mp hblanks _ (List.getLast_mem hne)
  rw [← Option.some.inj hlast] at hblank
  cases hblank

/-- A line hides a terminator exactly when the row that is read from it ends in one. -/
theorem hidesTerminator_iff {line : Text} :
    HidesTerminator line ↔ isDataLine (trimLine line) = true ∧ rowEnd <:+ trimLine line := by
  have hdata {rest : Text} (htrim : trim line = trimLine line ++ rest) (hne : trimLine line ≠ []) :
      isDataLine (trimLine line) = isDataLine (trim line) := by
    refine isDataLine_congr ?_
    rw [htrim, List.head?_append_of_ne_nil _ hne]
  constructor
  · rintro ⟨hline, front, blanks, count, hne, hblanks, htrim⟩
    have hrow : trimLine line = front ++ rowEnd := by
      have hkept : ¬rowEnd <+: (front ++ rowEnd ++ blanks).reverse := by
        rw [← List.reverse_suffix, List.reverse_reverse]
        exact not_rowEnd_suffix_append hne hblanks _
      have hdrop : dropTerminators (trim line).reverse = (front ++ rowEnd ++ blanks).reverse := by
        rw [htrim, List.reverse_append, reverse_rowEnds, dropTerminators_rowEnds]
        exact ((dropTerminators_cases _).resolve_left fun h => hkept h.1).2
      rw [trimLine, hdrop, List.reverse_reverse, trimEnd_blanks hblanks]
      refine trimEnd_eq_self fun c hc => ?_
      rw [getLast?_append_rowEnd] at hc
      cases hc
      rfl
    have hnonempty : trimLine line ≠ [] := by
      rw [hrow]
      exact List.append_ne_nil_of_right_ne_nil _ (List.cons_ne_nil _ _)
    rw [List.append_assoc, ← hrow] at htrim
    exact ⟨(hdata htrim hnonempty).trans hline, front, hrow.symm⟩
  · rintro ⟨hline, hend⟩
    obtain ⟨blanks, count, hblanks, htrim, hne⟩ := exists_trimLine_eq line
    have hnonempty : trimLine line ≠ [] := by
      intro hnil
      rw [hnil] at hline
      cases hline
    rw [List.append_assoc] at htrim
    refine ⟨(hdata htrim hnonempty).symm.trans hline, ?_⟩
    obtain ⟨front, hfront⟩ := hend
    cases count with
    | zero =>
      -- a trimmed line does not end in a blank
      have hblanks' := hne ⟨front, hfront⟩
      have hlast : (trim line).getLast? = blanks.getLast? := by
        rw [htrim, List.getLast?_append_of_ne_nil _ (by simpa [rowEnds] using hblanks')]
        exact congrArg List.getLast? (List.append_nil blanks)
      have hblank := List.all_eq_true.mp hblanks _ (List.getLast_mem hblanks')
      have hvisible := (isTrimmed_trim line).2 (blanks.getLast hblanks')
        (hlast.trans (List.getLast?_eq_some_getLast hblanks'))
      rw [hvisible] at hblank
      cases hblank
    | succ count =>
      refine ⟨front, blanks, count, hne ⟨front, hfront⟩, hblanks, ?_⟩
      rw [hfront, htrim, List.append_assoc]

/-! ## Canonical rows -/

section
variable {rows : Text}

theorem nonempty_of_mem_rowLines {line : Text} (h : line ∈ rowLines rows) : line ≠ [] := by
  rintro rfl
  cases (line_of_mem_rowLines h).2.1

theorem normalizeRows_ne_nil (h : rowLines rows ≠ []) : normalizeRows rows ≠ [] :=
  join_ne_nil h fun _ hline => nonempty_of_mem_rowLines hline

/-- Canonical rows tell which lines of data they are made of. -/
theorem rowLines_eq_of_normalizeRows_eq {rows' : Text}
    (h : normalizeRows rows = normalizeRows rows') : rowLines rows = rowLines rows' := by
  have hsplit {rows : Text} (hne : rowLines rows ≠ []) :
      splitOn '\n' (normalizeRows rows) = rowLines rows :=
    splitOn_join hne fun _ hline => (line_of_mem_rowLines hline).2.2.1
  by_cases hnil : rowLines rows = []
  · by_contra hne
    rw [hnil] at hne
    refine normalizeRows_ne_nil (Ne.symm hne) ?_
    rw [← h, normalizeRows, hnil]
    rfl
  · have hnil' : rowLines rows' ≠ [] := by
      intro hnil'
      refine normalizeRows_ne_nil hnil ?_
      rw [h, normalizeRows, hnil']
      rfl
    rw [← hsplit hnil, h, hsplit hnil']

/-- Canonical rows are read line by line. -/
theorem rowLines_normalizeRows_eq (rows : Text) :
    rowLines (normalizeRows rows) = ((rowLines rows).map trimLine).filter isDataLine :=
  rowLines_lines fun _ hline => (line_of_mem_rowLines hline).2.2.1

/-- Rows that end in no terminator are read as they stand. -/
theorem rowLines_normalizeRows_of_fixed (h : ∀ line ∈ rowLines rows, ¬rowEnd <:+ line) :
    rowLines (normalizeRows rows) = rowLines rows := by
  have hfixed (line : Text) (hline : line ∈ rowLines rows) : trimLine line = line := by
    rcases trimLine_cases (line_of_mem_rowLines hline).1 with ⟨hend, -⟩ | ⟨-, heq⟩
    · exact absurd hend (h line hline)
    · exact heq
  rw [rowLines_normalizeRows_eq, List.map_congr_left hfixed, List.map_id']
  exact List.filter_eq_self.mpr fun line hline => (line_of_mem_rowLines hline).2.1

/-- Canonical rows that stay as they are have no row with a terminator at its end. -/
theorem not_rowEnd_suffix_of_fixed (h : normalizeRows (normalizeRows rows) = normalizeRows rows) :
    ∀ line ∈ rowLines rows, ¬rowEnd <:+ line := by
  have hkept : ((rowLines rows).map trimLine).filter isDataLine = rowLines rows := by
    rw [← rowLines_normalizeRows_eq]
    exact rowLines_eq_of_normalizeRows_eq h
  intro line hline hend
  rw [← List.filterMap_eq_filter, List.filterMap_map] at hkept
  obtain ⟨heq, -⟩ := Option.guard_eq_some_iff.mp (eq_some_of_filterMap_eq hkept line hline)
  rcases trimLine_cases (line_of_mem_rowLines hline).1 with ⟨-, hlength⟩ | ⟨hnot, -⟩
  · rw [heq] at hlength
    exact absurd hlength (Nat.lt_irrefl _)
  · exact hnot hend

/-- No line hides a terminator exactly when no row ends in one. -/
theorem forall_not_hidesTerminator_iff :
    (∀ line ∈ splitOn '\n' rows, ¬HidesTerminator line) ↔
      ∀ line ∈ rowLines rows, ¬rowEnd <:+ line := by
  simp only [rowLines_eq, List.mem_filter, List.mem_map, hidesTerminator_iff]
  constructor
  · rintro h _ ⟨⟨line, hline, rfl⟩, hdata⟩ hend
    exact h line hline ⟨hdata, hend⟩
  · rintro h line hline ⟨hdata, hend⟩
    exact h _ ⟨⟨line, hline, rfl⟩, hdata⟩ hend

theorem isTrimmed_normalizeRows (rows : Text) : IsTrimmed (normalizeRows rows) :=
  isTrimmed_join fun _ hline => ⟨(line_of_mem_rowLines hline).1, nonempty_of_mem_rowLines hline⟩

/-- The points of rows are those of their lines of data. -/
theorem points_congr {rows' : Text} (h : rowLines rows = rowLines rows')
    (xColumn yColumn : Text) (hasHeader : Bool) :
    points rows xColumn yColumn hasHeader = points rows' xColumn yColumn hasHeader := by
  unfold points
  rw [h]

end

/-! ## Canonical rows in a table -/

section
variable {data : Chart.Data}

/-- Rows that stay as they are come back from the table that they are written in. -/
theorem tableRows_tableContent_of_fixed (htrim : IsTrimmed data.rows)
    (h : normalizeRows data.rows = data.rows) :
    (Chart.tableRows Chart.noTables (Chart.tableContent data)).1 = data.rows := by
  by_cases hfile : isFileReference data.rows = true
  · have hname : isFileReference data.rows = false → data.rows.all isPlainData := by
      intro hno
      cases hno.symm.trans hfile
    rw [Chart.tableRows_tableContent hname, if_pos hfile, trim_eq_self htrim]
  · rw [Bool.not_eq_true] at hfile
    have hcontent : Chart.tableContent data = '\n' :: data.rows ++ ['\n'] := by
      rw [Chart.tableContent, if_neg (by simp [hfile]), h]
    have hfile' : isFileReference ('\n' :: data.rows ++ ['\n']) = false := by
      rw [isFileReference_between, hfile]
    rw [hcontent, Chart.tableRows_of_no_name (tableName?_eq_none hfile'), hfile',
      if_neg Bool.false_ne_true, normalizeRows, rowLines_between]
    exact h

end

/-- Rows in canonical form stay as they are exactly when no line of the rows hides a terminator.
Then they come back from the table that they are written in, and they have the points of the
rows. -/
theorem normalizeRows_normalizeRows_iff (rows : Text) :
    (normalizeRows (normalizeRows rows) = normalizeRows rows ↔
      ∀ line ∈ splitOn '\n' rows, ¬HidesTerminator line) ∧
    (normalizeRows (normalizeRows rows) = normalizeRows rows →
      (∀ data : Chart.Data, data.rows = normalizeRows rows →
        (Chart.tableRows Chart.noTables (Chart.tableContent data)).1 = data.rows) ∧
      ∀ xColumn yColumn hasHeader,
        points (normalizeRows rows) xColumn yColumn hasHeader =
          points rows xColumn yColumn hasHeader) := by
  have hiff : normalizeRows (normalizeRows rows) = normalizeRows rows ↔
      ∀ line ∈ rowLines rows, ¬rowEnd <:+ line := by
    refine ⟨not_rowEnd_suffix_of_fixed, fun h => ?_⟩
    rw [normalizeRows, rowLines_normalizeRows_of_fixed h]
    rfl
  refine ⟨hiff.trans forall_not_hidesTerminator_iff.symm, fun h => ⟨?_, ?_⟩⟩
  · intro data hdata
    refine tableRows_tableContent_of_fixed ?_ ?_
    · rw [hdata]
      exact isTrimmed_normalizeRows rows
    · rw [hdata, h]
  · exact points_congr (rowLines_eq_of_normalizeRows_eq h)

/-- Rows with terminators, a comment, a blank line and one terminator inside a cell. -/
def terminatedRows : Text := "a b \\\\\n\n% note \\\\ \\\\\n1\\\\2 3 \\\\\\\\  "

/-- Terminators that nothing is hidden behind are dropped for good. -/
theorem normalizeRows_normalizeRows_terminated :
    normalizeRows (normalizeRows terminatedRows) = normalizeRows terminatedRows ∧
      ∀ xColumn yColumn hasHeader,
        points (normalizeRows terminatedRows) xColumn yColumn hasHeader =
          points terminatedRows xColumn yColumn hasHeader := by
  have hsame : normalizeRows (normalizeRows terminatedRows) = normalizeRows terminatedRows := by
    decide
  exact ⟨hsame, ((normalizeRows_normalizeRows_iff terminatedRows).2 hsame).2⟩

/-- A terminator in front of a blank and another terminator is dropped in the second pass only, and
the row has a point after that. -/
theorem normalizeRows_normalizeRows_hidden :
    let rows : Text := "1 2\\\\ \\\\"
    normalizeRows (normalizeRows rows) ≠ normalizeRows rows ∧
      points rows [] [] false = [] ∧ points (normalizeRows rows) [] [] false ≠ [] := by
  exact ⟨by decide, by decide +kernel, by decide +kernel⟩

end Table

end TexFigure
