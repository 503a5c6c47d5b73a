import TexFigure.Proofs.Coordinates
import TexFigure.Table.Points
/-!
# Rows keep their points as coordinates

The points of rows are read by their own rule: a row is cut at the separator that it has, it is
counted whether it has a point or not, and its number stands in for an `x` that is none. Rows
written as coordinates and read back are cut at commas only. Both agree because a point depends on
the first two cells of its row (`rowPoint?_eq`), so that the points of rows are those of their pairs
(`points_eq`), and the pairs are what comes back (`rowPairs_join`).

Every row has to have both cells: a row that has not is left out of the coordinates, and the rows
behind it get other numbers.
-/

namespace TexFigure.Table

open Text

/-! ## Rows with two cells -/

/-- Whether a line starts with two cells, neither of them empty. -/
def IsPaired (line : Text) : Prop :=
  ∃ x y more, splitRow line = x :: y :: more ∧ x ≠ [] ∧ y ≠ []

theorem isPaired_iff {line : Text} :
    IsPaired line ↔ ∃ pair, firstPair? (splitRow line) = some pair := by
  constructor
  · intro h
    obtain ⟨x, y, more, hcells, hne⟩ := h
    exact ⟨(x, y), firstPair?_eq_some.mpr ⟨more, hcells, hne⟩⟩
  · intro h
    obtain ⟨pair, hpair⟩ := h
    obtain ⟨more, hcells, hne⟩ := firstPair?_eq_some.mp hpair
    exact ⟨pair.1, pair.2, more, hcells, hne⟩

instance : DecidablePred IsPaired := fun line =>
  decidable_of_iff ((firstPair? (splitRow line)).isSome = true)
    (Option.isSome_iff_exists.trans isPaired_iff.symm)

/-! ## The points of pairs -/

/-- The point of a pair in a row of a number. -/
def Pair.point? (pair : Pair) (row : Nat) : Option (Float × Float) :=
  (Decimal.readFloat? pair.2).map fun y =>
    ((Decimal.readFloat? pair.1).getD (Float.ofNat row), y)

section
variable {line : Text} {pair : Pair}

/-- The point of a row is that of its pair: no further cell counts. -/
theorem rowPoint?_eq (h : firstPair? (splitRow line) = some pair) (row : Nat) :
    rowPoint? 0 1 row line = pair.point? row := by
  obtain ⟨more, hcells, -⟩ := firstPair?_eq_some.mp h
  rw [rowPoint?, hcells, Pair.point?]
  cases hy : Decimal.readFloat? pair.2 with
  | none => simp [hy]
  | some y => simp [hy]

end

section
variable {rows : Text} {hasHeader : Bool}

/-- Without selectors the first two columns are read, whatever the header names. -/
theorem points_unselected :
    points rows [] [] hasHeader =
      ((rowLines rows).drop (if hasHeader then 1 else 0)).zipIdx.filterMap fun (line, row) =>
        rowPoint? 0 1 row line := by
  have hindex (header : List Text) (column : Nat) : columnIndex [] header column = column := rfl
  unfold points
  cases hasHeader with
  | false =>
    cases rowLines rows with
    | nil => rfl
    | cons => rfl
  | true =>
    cases rowLines rows with
    | nil => rfl
    | cons first lines =>
      simp only [hindex]
      rfl

/-- The points of lines are those of their pairs, from whatever number the rows are counted. -/
theorem filterMap_rowPoint? {lines : List Text} (h : ∀ line ∈ lines, IsPaired line) (start : Nat) :
    ((lines.zipIdx start).filterMap fun (line, row) => rowPoint? 0 1 row line) =
      ((lines.filterMap fun line => firstPair? (splitRow line)).zipIdx start).filterMap
        fun (pair, row) => pair.point? row := by
  induction lines generalizing start with
  | nil => rfl
  | cons line rest ih =>
    rw [List.forall_mem_cons] at h
    obtain ⟨pair, hpair⟩ := isPaired_iff.mp h.1
    have hpairs : (line :: rest).filterMap (fun line => firstPair? (splitRow line)) =
        pair :: rest.filterMap fun line => firstPair? (splitRow line) :=
      List.filterMap_cons_some hpair
    rw [hpairs, List.zipIdx_cons, List.zipIdx_cons, List.filterMap_cons, List.filterMap_cons,
      ih h.2 (start + 1)]
    simp only [rowPoint?_eq hpair start]

/-- The points of rows are those of their pairs, numbered in order. -/
theorem points_eq (h : ∀ line ∈ (rowLines rows).drop (if hasHeader then 1 else 0), IsPaired line) :
    points rows [] [] hasHeader =
      (rowPairs rows hasHeader).zipIdx.filterMap fun (pair, row) => pair.point? row := by
  rw [points_unselected, rowPairs]
  exact filterMap_rowPoint? h 0

/-- Rows of two cells keep their points when they are written as coordinates and read back. -/
theorem points_parseCoordinates_formatCoordinates (hopen : '(' ∉ rows) (hclose : ')' ∉ rows)
    (hslash : '\\' ∉ rows)
    (hpaired : ∀ line ∈ (rowLines rows).drop (if hasHeader then 1 else 0), IsPaired line) :
    points (parseCoordinates (formatCoordinates rows hasHeader)) [] [] false =
      points rows [] [] hasHeader := by
  have hpairs : ∀ pair ∈ rowPairs rows hasHeader, IsPair pair := fun pair hpair =>
    isPair_of_mem hopen hclose hslash hpair
  have hback : parseCoordinates (formatCoordinates rows hasHeader) =
      join ['\n'] ((rowPairs rows hasHeader).map Pair.row) := by
    rw [formatCoordinates_eq, parseCoordinates_join hpairs]
  have hrows : ∀ line ∈ (rowPairs rows hasHeader).map Pair.row, IsDataRow line ∧ IsPaired line := by
    intro line hline
    obtain ⟨pair, hpair, rfl⟩ := List.mem_map.mp hline
    have hcells := splitRow_row (hpairs pair hpair).isRowPair
    exact ⟨isDataRow_row (hpairs pair hpair),
      pair.1, pair.2, [], hcells, (hpairs pair hpair).first.nonempty,
      (hpairs pair hpair).second.nonempty⟩
  have hlines : rowLines (join ['\n'] ((rowPairs rows hasHeader).map Pair.row)) =
      (rowPairs rows hasHeader).map Pair.row := rowLines_join fun line hline => (hrows line hline).1
  rw [hback, points_eq hpaired, points_eq, rowPairs_join hpairs]
  rw [hlines]
  exact fun line hline => (hrows line hline).2

end

/-- Rows with three kinds of separators, a symbolic `x` and a `y` that is no number. -/
def mixedRows : Text := "year;value\n2001, 3.5 ,x\njan;4\nfeb none\n# note\n4 5 6"

theorem points_mixedRows :
    ('(' ∉ mixedRows ∧ ')' ∉ mixedRows ∧ '\\' ∉ mixedRows ∧
      ∀ line ∈ (rowLines mixedRows).drop 1, IsPaired line) ∧
    points (parseCoordinates (formatCoordinates mixedRows true)) [] [] false =
      points mixedRows [] [] true := by
  have hopen : '(' ∉ mixedRows := by decide
  have hclose : ')' ∉ mixedRows := by decide
  have hslash : '\\' ∉ mixedRows := by decide
  have hpaired : ∀ line ∈ (rowLines mixedRows).drop 1, IsPaired line := by decide +kernel
  exact ⟨⟨hopen, hclose, hslash, hpaired⟩,
    points_parseCoordinates_formatCoordinates hopen hclose hslash hpaired⟩

end TexFigure.Table
