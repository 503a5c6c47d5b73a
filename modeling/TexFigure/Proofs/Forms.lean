import TexFigure.Formula.Read
import TexFigure.Formula.Write
import TexFigure.Proofs.Identities
import TexFigure.Proofs.Phrases
/-!
# The form of what is read

A fragment may be any text, and every tag reads some formula from it: its own fields, or the ones
of the template. Whatever the fragment, the formula is of the construct that the tag stands for,
with the fields that are trimmed when they are read, and a matrix is a full grid of as many rows
and columns as its counts say (`IsWellFormed`). So it can be written.

The grid is the part that needs an argument. A splitter answers at least one part, so a body that
is not blank has a row and every row has an entry; the width is that of the longest row, and the
shorter ones are filled up with empty entries.

> `isWellFormed_read`: every fragment is read as a well-formed formula of the construct of the tag.
-/

namespace TexFigure.Formula

open Source

/-! ## Well-formed formulas -/

/-- Entries of a matrix in rows of one length. -/
structure IsGrid (rows cols : Nat) (cells : List (List Text)) : Prop where
  height : cells.length = rows
  width : ∀ row ∈ cells, row.length = cols
  entries : ∀ row ∈ cells, ∀ cell ∈ row, Text.IsTrimmed cell ∧ cell ≠ ['{', '}']
  empty : rows = 0 ↔ cols = 0

instance (rows cols : Nat) (cells : List (List Text)) : Decidable (IsGrid rows cols cells) :=
  decidable_of_iff
    (cells.length = rows ∧ (∀ row ∈ cells, row.length = cols) ∧
      (∀ row ∈ cells, ∀ cell ∈ row, Text.IsTrimmed cell ∧ cell ≠ ['{', '}']) ∧
      (rows = 0 ↔ cols = 0))
    ⟨fun ⟨height, width, entries, empty⟩ => ⟨height, width, entries, empty⟩,
      fun ⟨height, width, entries, empty⟩ => ⟨height, width, entries, empty⟩⟩

/-- Whether the fields of a formula are as they are read. -/
def IsWellFormed : Formula → Prop
  | root index _ => Text.IsTrimmed index
  | integral _ _ integrand _ | doubleIntegral _ integrand _ => Text.IsTrimmed integrand
  | bigOperator _ var lower _ expression =>
    Text.IsTrimmed var ∧ Text.IsTrimmed lower ∧ Text.IsTrimmed expression
  | limit var approaches expression =>
    Text.IsTrimmed var ∧ Text.IsTrimmed approaches ∧ Text.IsTrimmed expression
  | derivative func var _ => Text.IsTrimmed func ∧ Text.IsTrimmed var
  | matrix rows cols cells _ => IsGrid rows cols cells
  | fraction .. | superscript .. | subscript .. | generic _ => True

instance : (formula : Formula) → Decidable formula.IsWellFormed
  | root .. | integral .. | doubleIntegral .. => inferInstanceAs (Decidable (Text.IsTrimmed _))
  | bigOperator .. | limit .. =>
    inferInstanceAs (Decidable (Text.IsTrimmed _ ∧ Text.IsTrimmed _ ∧ Text.IsTrimmed _))
  | derivative .. => inferInstanceAs (Decidable (Text.IsTrimmed _ ∧ Text.IsTrimmed _))
  | matrix .. => inferInstanceAs (Decidable (IsGrid _ _ _))
  | fraction .. | superscript .. | subscript .. | generic _ => inferInstanceAs (Decidable True)

/-- Whether a formula is of the construct of a tag; the two tags of a root share theirs. -/
def IsOf (tag : Tag) (formula : Formula) : Prop :=
  formula.tag = tag ∨
    tag ∈ [Tag.nthRoot, Tag.squareRoot] ∧ formula.tag ∈ [Tag.nthRoot, Tag.squareRoot]

instance (tag : Tag) (formula : Formula) : Decidable (IsOf tag formula) :=
  inferInstanceAs (Decidable (_ ∨ _))

/-- Which of the two tags a root has depends on its index. -/
theorem tag_root_mem (index radicand : Text) :
    (root index radicand).tag ∈ [Tag.nthRoot, Tag.squareRoot] := by
  rw [tag]
  split <;> decide

/-- Every formula can be written as the construct of its tag. -/
theorem writeAs?_tag (formula : Formula) : writeAs? formula.tag formula = some formula.write := by
  have hfits : formula.fits formula.tag = true := by
    cases formula with
    | root index radicand =>
      rw [tag]
      split <;> rfl
    | bigOperator operator => cases operator <;> rfl
    | derivative func var isPartial => cases isPartial <;> rfl
    | _ => rfl
  rw [writeAs?, if_pos hfits]

/-! ## Matrices -/

/-- An entry is read trimmed, and an empty group as nothing. -/
theorem readCell_spec (cell : Text) :
    Text.IsTrimmed (readCell cell) ∧ readCell cell ≠ ['{', '}'] := by
  rw [readCell]
  split
  next => exact ⟨by decide, by decide⟩
  next h => exact ⟨Text.isTrimmed_trim cell, h⟩

/-- A blank row is dropped behind another one only, so that a row is left. -/
theorem dropBlankLast_ne_nil {rows : List Text} (h : rows ≠ []) : dropBlankLast rows ≠ [] := by
  unfold dropBlankLast
  split
  next hmany =>
    rw [← List.length_pos_iff, List.length_dropLast]
    omega
  next => exact h

/-- A row that is not too long is filled up to the width. -/
theorem length_padRow {width : Nat} {row : List Text} (h : row.length ≤ width) :
    (padRow width row).length = width := by
  rw [padRow, List.length_append, List.length_replicate]
  omega

/-- Rows with an entry each are filled up to a grid of the width of the longest. -/
theorem isGrid_padRow {rows : List (List Text)} (hrows : rows ≠ []) (hne : ∀ row ∈ rows, row ≠ [])
    (hcells : ∀ row ∈ rows, ∀ cell ∈ row, Text.IsTrimmed cell ∧ cell ≠ ['{', '}']) :
    IsGrid rows.length ((rows.map List.length).foldl max 0)
      (rows.map (padRow ((rows.map List.length).foldl max 0))) := by
  have hle (row : List Text) (hrow : row ∈ rows) :
      row.length ≤ (rows.map List.length).foldl max 0 :=
    (Identity.le_foldl_max _ 0).2 _ (List.mem_map_of_mem hrow)
  constructor
  · exact List.length_map _
  · rintro _ hpadded
    obtain ⟨row, hrow, rfl⟩ := List.mem_map.mp hpadded
    exact length_padRow (hle row hrow)
  · rintro _ hpadded cell hcell
    obtain ⟨row, hrow, rfl⟩ := List.mem_map.mp hpadded
    rcases List.mem_append.mp hcell with hcell | hcell
    · exact hcells row hrow cell hcell
    · rw [List.eq_of_mem_replicate hcell]
      decide
  · obtain ⟨first, hfirst⟩ := List.exists_mem_of_ne_nil rows hrows
    have hlength := List.length_pos_iff.mpr hrows
    have hwidth := List.length_pos_iff.mpr (hne first hfirst)
    have := hle first hfirst
    omega

/-- Any body is read as a grid. -/
theorem isWellFormed_readBody (delimiter : Delimiter) (body : Text) :
    (readBody delimiter body).IsWellFormed ∧ (readBody delimiter body).tag = .matrix := by
  unfold readBody
  split
  next => exact ⟨⟨rfl, nofun, nofun, Iff.rfl⟩, rfl⟩
  next =>
    have hparts (phrase text : Text) : splitOutsideBraces phrase text ≠ [] :=
      splitAtPhrase_ne_nil 0 0 false text
    have hgrid := @isGrid_padRow
      ((dropBlankLast (splitOutsideBraces "\\\\" body)).map fun row =>
        (splitOutsideBraces "&" row).map readCell) ?_ ?_ ?_
    · exact ⟨hgrid, rfl⟩
    · rw [ne_eq, List.map_eq_nil_iff]
      exact dropBlankLast_ne_nil (hparts _ body)
    · rintro _ hrow
      obtain ⟨row, -, rfl⟩ := List.mem_map.mp hrow
      rw [ne_eq, List.map_eq_nil_iff]
      exact hparts _ row
    · rintro _ hrow cell hcell
      obtain ⟨row, -, rfl⟩ := List.mem_map.mp hrow
      obtain ⟨part, -, rfl⟩ := List.mem_map.mp hcell
      exact readCell_spec part

/-! ## The other constructs -/

section
variable {text : Text} {formula : Formula}

theorem readMatrix?_spec (h : readMatrix? text = some formula) :
    formula.tag = .matrix ∧ formula.IsWellFormed := by
  obtain ⟨⟨_, delimiter, after⟩, -, h⟩ := Option.bind_eq_some_iff.mp h
  obtain rfl := Option.some.inj h
  exact (isWellFormed_readBody _ _).symm

theorem readFraction?_spec (h : readFraction? text = some formula) :
    formula.tag = .fraction ∧ formula.IsWellFormed := by
  obtain ⟨_, -, h⟩ := Option.bind_eq_some_iff.mp h
  obtain ⟨⟨numerator, _⟩, -, h⟩ := Option.bind_eq_some_iff.mp h
  obtain ⟨⟨denominator, _⟩, -, h⟩ := Option.bind_eq_some_iff.mp h
  obtain rfl := Option.some.inj h
  exact ⟨rfl, trivial⟩

theorem readRoot?_spec (h : readRoot? text = some formula) :
    formula.tag ∈ [Tag.nthRoot, Tag.squareRoot] ∧ formula.IsWellFormed := by
  obtain ⟨after, -, h⟩ := Option.bind_eq_some_iff.mp h
  obtain ⟨⟨radicand, _⟩, -, h⟩ := Option.bind_eq_some_iff.mp h
  obtain rfl := Option.some.inj h
  exact ⟨tag_root_mem _ _, Text.isTrimmed_trim _⟩

/-- What follows the scripts of an operator comes back trimmed. -/
theorem isTrimmed_readOperator? {command : Text} {scripts : Scripts} {body : Text}
    (h : readOperator? command text = some (scripts, body)) : Text.IsTrimmed body := by
  obtain ⟨after, -, heq⟩ := Option.map_eq_some_iff.mp h
  rw [← (Prod.mk.inj heq).2]
  exact Text.isTrimmed_trim _

/-- The integrand is trimmed in front of its differential, and the whole of the body where there is
none. -/
theorem readIntegral?_spec (h : readIntegral? text = some formula) :
    formula.tag = .integral ∧ formula.IsWellFormed := by
  obtain ⟨⟨scripts, body⟩, hread, rfl⟩ := Option.map_eq_some_iff.mp h
  dsimp only
  split
  next => exact ⟨rfl, Text.isTrimmed_trim _⟩
  next => exact ⟨rfl, isTrimmed_readOperator? hread⟩

theorem readDoubleIntegral?_spec (h : readDoubleIntegral? text = some formula) :
    formula.tag = .doubleIntegral ∧ formula.IsWellFormed := by
  obtain ⟨⟨scripts, body⟩, hread, rfl⟩ := Option.map_eq_some_iff.mp h
  dsimp only
  split
  next => exact ⟨rfl, Text.isTrimmed_trim _⟩
  next => exact ⟨rfl, isTrimmed_readOperator? hread⟩

/-- The three operators share a reader, which trims the parts of the lower limit one by one. -/
theorem readBigOperator?_spec {operator : Operator}
    (h : readBigOperator? operator text = some formula) :
    (∃ var lower upper expression, formula = bigOperator operator var lower upper expression) ∧
      formula.IsWellFormed := by
  obtain ⟨⟨scripts, body⟩, hread, rfl⟩ := Option.map_eq_some_iff.mp h
  exact ⟨⟨_, _, _, _, rfl⟩, Text.isTrimmed_trim _, Text.isTrimmed_trim _,
    isTrimmed_readOperator? hread⟩

theorem readLimit?_spec (h : readLimit? text = some formula) :
    formula.tag = .limit ∧ formula.IsWellFormed := by
  obtain ⟨⟨scripts, body⟩, hread, rfl⟩ := Option.map_eq_some_iff.mp h
  exact ⟨rfl, Text.isTrimmed_trim _, Text.isTrimmed_trim _, isTrimmed_readOperator? hread⟩

/-- The name behind the mark of a derivative comes back trimmed. -/
theorem isTrimmed_derivativePart? {mark name after : Text}
    (h : derivativePart? mark text = some (name, after)) : Text.IsTrimmed name := by
  unfold derivativePart? at h
  split at h
  next =>
    dsimp only at h
    split at h
    next =>
      split at h
      next =>
        obtain rfl := (Prod.mk.inj (Option.some.inj h)).1
        exact Text.isTrimmed_trim _
      next => cases h
    next => cases h
  next => cases h

/-- A function is read from the numerator or, where that has only the mark, from behind the
quotient; both ways it is trimmed. -/
theorem readDerivative?_spec {mark : Text} {isPartial : Bool}
    (h : readDerivative? mark isPartial text = some formula) :
    (∃ func var, formula = derivative func var isPartial) ∧ formula.IsWellFormed := by
  obtain ⟨⟨_, numerator⟩, -, h⟩ := Option.bind_eq_some_iff.mp h
  obtain ⟨⟨func, denominator⟩, hfunc, h⟩ := Option.bind_eq_some_iff.mp h
  obtain ⟨⟨var, trailing⟩, hvar, h⟩ := Option.bind_eq_some_iff.mp h
  obtain rfl := Option.some.inj h
  refine ⟨⟨_, _, rfl⟩, ?_, isTrimmed_derivativePart? hvar⟩
  split
  next => exact Text.isTrimmed_trim trailing
  next => exact isTrimmed_derivativePart? hfunc

end

/-! ## Any construct -/

/-- What a tag reads from a fragment is a well-formed formula of its construct. -/
theorem readAs?_spec {tag : Tag} {text : Text} {formula : Formula}
    (h : readAs? tag text = some formula) : IsOf tag formula ∧ formula.IsWellFormed := by
  cases tag with
  | matrix => exact (readMatrix?_spec h).imp_left Or.inl
  | partialDerivative =>
    obtain ⟨⟨func, var, rfl⟩, hformed⟩ := readDerivative?_spec h
    exact ⟨Or.inl rfl, hformed⟩
  | derivative =>
    obtain ⟨⟨func, var, rfl⟩, hformed⟩ := readDerivative?_spec h
    exact ⟨Or.inl rfl, hformed⟩
  | fraction => exact (readFraction?_spec h).imp_left Or.inl
  | doubleIntegral => exact (readDoubleIntegral?_spec h).imp_left Or.inl
  | integral => exact (readIntegral?_spec h).imp_left Or.inl
  | sum | product =>
    obtain ⟨⟨var, lower, upper, expression, rfl⟩, hformed⟩ := readBigOperator?_spec h
    exact ⟨Or.inl rfl, hformed⟩
  | limit => exact (readLimit?_spec h).imp_left Or.inl
  | nthRoot | squareRoot =>
    exact (readRoot?_spec h).imp_left fun hroot => Or.inr ⟨by decide, hroot⟩
  | superscript | subscript =>
    obtain ⟨parts, -, rfl⟩ := Option.map_eq_some_iff.mp h
    exact ⟨Or.inl rfl, trivial⟩
  | generic =>
    obtain rfl := Option.some.inj h
    exact ⟨Or.inl rfl, trivial⟩

/-- The template of a tag is a well-formed formula of its construct. -/
theorem template_spec (tag : Tag) : IsOf tag (template tag) ∧ (template tag).IsWellFormed := by
  cases tag <;> decide

/-- Whatever the fragment and the tag, what is read is of the construct of the tag and well formed,
and it can be written as the construct of its own tag. -/
theorem isWellFormed_read (tag : Tag) (text : Text) :
    IsOf tag (read tag text) ∧ (read tag text).IsWellFormed ∧
      writeAs? (read tag text).tag (read tag text) = some (read tag text).write := by
  rw [← and_assoc]
  refine ⟨?_, writeAs?_tag _⟩
  rw [read]
  cases hread : readAs? tag text with
  | some formula => exact readAs?_spec hread
  | none => exact template_spec tag

end TexFigure.Formula
