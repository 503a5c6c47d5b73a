import TexFigure.Proofs.Rows
import TexFigure.Table.Coordinates
/-!
# Coordinates are read as rows

Coordinates keep the first two cells of each row that has them. `Pair` is what is kept of a row;
`Pair.coordinate` and `Pair.row` are its two written forms, and they are read into each other:

> `parseCoordinates_join`: coordinates are read as the rows of their pairs.
> `formatCoordinates_join`: the rows of pairs are written as their coordinates.

All rows are written as the coordinates of their pairs (`formatCoordinates_eq`), and what such a
pair is like is known of any rows (`isRowPair_of_mem`). Rows without parentheses and escapes have
pairs that are read back (`exists_pairs`), so that reading and writing them once more changes
nothing.
-/

namespace TexFigure.Table

open Text

/-- Two cells. -/
abbrev Pair := Text × Text

/-- A pair as a row. -/
def Pair.row (pair : Pair) : Text := pair.1 ++ ',' :: pair.2

/-- A pair as a coordinate. -/
def Pair.coordinate (pair : Pair) : Text := '(' :: pair.1 ++ ',' :: pair.2 ++ [')']

/-- Whether a character can stand in a cell of a coordinate. -/
def isCellChar (c : Char) : Bool :=
  c != ',' && c != '(' && c != ')' && c != '\\' && c != '\n'

/-- A cell that is read back from a coordinate. -/
structure IsCell (cell : Text) : Prop where
  nonempty : cell ≠ []
  trimmed : IsTrimmed cell
  chars : cell.all isCellChar

instance (cell : Text) : Decidable (IsCell cell) :=
  decidable_of_iff (cell ≠ [] ∧ IsTrimmed cell ∧ cell.all isCellChar = true)
    ⟨fun h => ⟨h.1, h.2.1, h.2.2⟩, fun h => ⟨h.nonempty, h.trimmed, h.chars⟩⟩

/-- A pair that is read back from its row and from its coordinate. Its row must be no comment. -/
structure IsPair (pair : Pair) : Prop where
  first : IsCell pair.1
  second : IsCell pair.2
  data : isDataLine pair.1 = true

instance (pair : Pair) : Decidable (IsPair pair) :=
  decidable_of_iff (IsCell pair.1 ∧ IsCell pair.2 ∧ isDataLine pair.1 = true)
    ⟨fun h => ⟨h.1, h.2.1, h.2.2⟩, fun h => ⟨h.first, h.second, h.data⟩⟩

/-- A cell of a line of data. -/
structure IsRowCell (cell : Text) : Prop where
  nonempty : cell ≠ []
  trimmed : IsTrimmed cell
  undivided : ',' ∉ cell
  single : '\n' ∉ cell

/-- A pair of cells at the start of a line of data. -/
structure IsRowPair (pair : Pair) : Prop where
  first : IsRowCell pair.1
  second : IsRowCell pair.2
  data : isDataLine pair.1 = true

/-- Whether a pair holds no parenthesis. -/
def Pair.IsBare (pair : Pair) : Prop := '(' ∉ pair.row ∧ ')' ∉ pair.row

section
variable {cell : Text} {pair : Pair}

/-- A cell holds nothing that ends it, in a row or in a coordinate, and no escape. -/
theorem IsCell.not_mem (h : IsCell cell) :
    ',' ∉ cell ∧ '(' ∉ cell ∧ ')' ∉ cell ∧ '\\' ∉ cell ∧ '\n' ∉ cell := by
  have hne {c : Char} (hc : isCellChar c = false) : c ∉ cell := fun hmem => by
    rw [List.all_eq_true.mp h.chars c hmem] at hc
    cases hc
  exact ⟨hne rfl, hne rfl, hne rfl, hne rfl, hne rfl⟩

theorem IsCell.isRowCell (h : IsCell cell) : IsRowCell cell :=
  ⟨h.nonempty, h.trimmed, h.not_mem.1, h.not_mem.2.2.2.2⟩

/-- A cell of a line is read back when it holds no parenthesis and no escape. -/
theorem IsRowCell.isCell (h : IsRowCell cell) (hopen : '(' ∉ cell) (hclose : ')' ∉ cell)
    (hslash : '\\' ∉ cell) : IsCell cell := by
  refine ⟨h.nonempty, h.trimmed, List.all_eq_true.mpr fun c hc => ?_⟩
  have hne {d : Char} (hd : d ∉ cell) : c ≠ d := fun heq => hd (heq ▸ hc)
  simp [isCellChar, hne h.undivided, hne h.single, hne hopen, hne hclose, hne hslash]

theorem IsPair.isRowPair (h : IsPair pair) : IsRowPair pair :=
  ⟨h.first.isRowCell, h.second.isRowCell, h.data⟩

/-- A pair that is read back holds no parenthesis, so that its coordinate is the innermost one. -/
theorem IsPair.isBare (h : IsPair pair) : pair.IsBare := by
  obtain ⟨-, hopen, hclose, -⟩ := h.first.not_mem
  obtain ⟨-, hopen', hclose', -⟩ := h.second.not_mem
  simp [Pair.IsBare, Pair.row, hopen, hopen', hclose, hclose']

theorem IsPair.unescaped (h : IsPair pair) : '\\' ∉ pair.row := by
  simp [Pair.row, h.first.not_mem, h.second.not_mem]

end

/-! ## The pairs of rows -/

/-- The first two cells, when both are there. -/
def firstPair? : List Text → Option Pair
  | x :: y :: _ => if x.isEmpty || y.isEmpty then none else some (x, y)
  | _ => none

/-- Cells have a pair when the first two are there and not empty; what is behind them is dropped. -/
theorem firstPair?_eq_some {cells : List Text} {pair : Pair} :
    firstPair? cells = some pair ↔
      ∃ more, cells = pair.1 :: pair.2 :: more ∧ pair.1 ≠ [] ∧ pair.2 ≠ [] := by
  constructor
  · intro h
    unfold firstPair? at h
    split at h
    next x y more =>
      split at h
      next => cases h
      next hne =>
        rw [Bool.or_eq_true, not_or, List.isEmpty_iff, List.isEmpty_iff] at hne
        cases h
        exact ⟨more, rfl, hne⟩
    next => cases h
  · rintro ⟨more, rfl, hfirst, hsecond⟩
    simp [firstPair?, hfirst, hsecond]

/-- A row is written as the coordinate of its first two cells. -/
theorem rowCoordinate?_eq (line : Text) :
    rowCoordinate? line = (firstPair? (splitRow line)).map Pair.coordinate := by
  unfold rowCoordinate? firstPair?
  rcases splitRow line with _ | ⟨x, _ | ⟨y, more⟩⟩
  · rfl
  · rfl
  · simp only
    split
    next => rfl
    next => rfl

/-- A coordinate is read as the row of its first two cells, trimmed. -/
theorem coordinateRow?_eq (content : Text) :
    coordinateRow? content = (firstPair? ((splitOn ',' content).map trim)).map Pair.row := by
  unfold coordinateRow? firstPair?
  rcases (splitOn ',' content).map trim with _ | ⟨x, _ | ⟨y, more⟩⟩
  · rfl
  · rfl
  · simp only
    split
    next => rfl
    next => rfl

/-- The pairs that are kept of rows, without their header. -/
def rowPairs (rows : Text) (hasHeader : Bool) : List Pair :=
  ((rowLines rows).drop (if hasHeader then 1 else 0)).filterMap fun line =>
    firstPair? (splitRow line)

/-- Rows are written as the coordinates of their pairs. -/
theorem formatCoordinates_eq (rows : Text) (hasHeader : Bool) :
    formatCoordinates rows hasHeader =
      join [' '] ((rowPairs rows hasHeader).map Pair.coordinate) := by
  rw [formatCoordinates, rowPairs, List.map_filterMap]
  exact congrArg (join [' ']) (List.filterMap_congr fun line _ => rowCoordinate?_eq line)

/-- Every cell of a line is trimmed, and what it holds is in the line. -/
theorem cell_of_mem_splitRow {line cell : Text} (h : cell ∈ splitRow line) :
    IsTrimmed cell ∧ ',' ∉ cell ∧ ∀ c ∈ cell, c ∈ line := by
  have hpart {separator : Char} (hcell : cell ∈ (splitOn separator line).map trim) :
      IsTrimmed cell ∧ ∀ c ∈ cell, c ∈ line ∧ (c == separator) = false := by
    obtain ⟨part, hpart, rfl⟩ := List.mem_map.mp hcell
    exact ⟨isTrimmed_trim part, fun c hc =>
      not_of_mem_splitWhere hpart ((infix_trim part).subset hc)⟩
  unfold splitRow at h
  split at h
  next =>
    obtain ⟨htrim, hmem⟩ := hpart h
    refine ⟨htrim, fun hc => ?_, fun c hc => (hmem c hc).1⟩
    have := (hmem ',' hc).2
    cases this
  next hcomma =>
    split at h
    next =>
      obtain ⟨htrim, hmem⟩ := hpart h
      exact ⟨htrim, fun hc => hcomma (hmem ',' hc).1, fun c hc => (hmem c hc).1⟩
    next =>
      have hmem : ∀ c ∈ cell, c ∈ line ∧ isBlank c = false := fun c hc =>
        not_of_mem_splitWhere (List.mem_of_mem_filter h) hc
      refine ⟨⟨fun c hc => ?_, fun c hc => ?_⟩, fun hc => hcomma (hmem ',' hc).1,
        fun c hc => (hmem c hc).1⟩
      · exact (hmem c (List.mem_of_mem_head? hc)).2
      · exact (hmem c (List.mem_of_getLast? hc)).2

/-- The first cell of a pair starts as the line does. -/
theorem head?_firstPair? {line : Text} (htrim : IsTrimmed line) {pair : Pair}
    (h : firstPair? (splitRow line) = some pair) : pair.1.head? = line.head? := by
  obtain ⟨more, hcells, hne, -⟩ := firstPair?_eq_some.mp h
  cases line with
  | nil => cases hcells
  | cons c rest =>
    have hc : isBlank c = false := htrim.1 c rfl
    have hseparator {separator : Char} (hsplit : (splitOn separator (c :: rest)).map trim =
        pair.1 :: pair.2 :: more) : pair.1.head? = some c := by
      obtain ⟨part, parts, hparts, hpart⟩ := splitWhere_cons_cases (· == separator) c rest
      rw [splitOn, hparts, List.map_cons, List.cons.injEq] at hsplit
      rcases hpart with ⟨-, rfl⟩ | ⟨tail, rfl⟩
      · exact absurd hsplit.1.symm hne
      · rw [← hsplit.1, trim, trimStart_cons hc, ← List.nil_append (c :: tail),
          trimEnd_append_cons hc]
        rfl
    unfold splitRow at hcells
    split at hcells
    next => exact hseparator hcells
    next =>
      split at hcells
      next => exact hseparator hcells
      next =>
        obtain ⟨part, parts, hparts, hpart⟩ := splitWhere_cons_cases isBlank c rest
        rw [words, hparts] at hcells
        rcases hpart with ⟨hblank, -⟩ | ⟨tail, rfl⟩
        · rw [hc] at hblank
          cases hblank
        · rw [List.filter_cons_of_pos rfl, List.cons.injEq] at hcells
          rw [← hcells.1]
          rfl

/-- Whatever the rows are, their pairs can stand at the start of a line of data, and what they hold
is in the rows. -/
theorem isRowPair_of_mem {rows : Text} {hasHeader : Bool} {pair : Pair}
    (h : pair ∈ rowPairs rows hasHeader) :
    IsRowPair pair ∧ (∀ c ∈ pair.1, c ∈ rows) ∧ ∀ c ∈ pair.2, c ∈ rows := by
  obtain ⟨line, hline, hpair⟩ := List.mem_filterMap.mp h
  obtain ⟨htrim, hdata, hbreak, hsubset⟩ := line_of_mem_rowLines (List.mem_of_mem_drop hline)
  obtain ⟨more, hcells, hfirst, hsecond⟩ := firstPair?_eq_some.mp hpair
  have hcell {cell : Text} (hmem : cell ∈ splitRow line) (hne : cell ≠ []) :
      IsRowCell cell ∧ ∀ c ∈ cell, c ∈ rows := by
    obtain ⟨htrim, hcomma, hchars⟩ := cell_of_mem_splitRow hmem
    exact ⟨⟨hne, htrim, hcomma, fun hc => hbreak (hchars _ hc)⟩,
      fun c hc => hsubset c (hchars c hc)⟩
  obtain ⟨hx, hxchars⟩ := hcell (by rw [hcells]; exact List.mem_cons_self) hfirst
  obtain ⟨hy, hychars⟩ := hcell
    (by rw [hcells]; exact List.mem_cons_of_mem _ List.mem_cons_self) hsecond
  refine ⟨⟨hx, hy, ?_⟩, hxchars, hychars⟩
  rw [isDataLine_congr (head?_firstPair? htrim hpair)]
  exact hdata

/-- The pairs of rows without parentheses and escapes are read back. -/
theorem isPair_of_mem {rows : Text} (hopen : '(' ∉ rows) (hclose : ')' ∉ rows)
    (hslash : '\\' ∉ rows) {hasHeader : Bool} {pair : Pair}
    (h : pair ∈ rowPairs rows hasHeader) : IsPair pair := by
  obtain ⟨hpair, hfirst, hsecond⟩ := isRowPair_of_mem h
  have hcell {cell : Text} (hcell : IsRowCell cell) (hchars : ∀ c ∈ cell, c ∈ rows) :
      IsCell cell :=
    hcell.isCell (fun hc => hopen (hchars _ hc)) (fun hc => hclose (hchars _ hc))
      fun hc => hslash (hchars _ hc)
  exact ⟨hcell hpair.first hfirst, hcell hpair.second hsecond, hpair.data⟩

/-- Whether a character can stand in rows that are written as coordinates. -/
def isRowChar (c : Char) : Bool := isPlainData c && c != '(' && c != ')'

/-- Rows without parentheses and escapes are written as the coordinates of pairs. -/
theorem exists_pairs {rows : Text} (h : rows.all isRowChar) (hasHeader : Bool) :
    ∃ pairs : List Pair, (∀ pair ∈ pairs, IsPair pair) ∧
      formatCoordinates rows hasHeader = join [' '] (pairs.map Pair.coordinate) := by
  have hne {c : Char} (hc : isRowChar c = false) : c ∉ rows := fun hmem => by
    rw [List.all_eq_true.mp h c hmem] at hc
    cases hc
  exact ⟨rowPairs rows hasHeader, fun pair => isPair_of_mem (hne rfl) (hne rfl) (hne rfl),
    formatCoordinates_eq rows hasHeader⟩

/-! ## From rows to coordinates -/

theorem splitOn_row {pair : Pair} (hfirst : ',' ∉ pair.1) (hsecond : ',' ∉ pair.2) :
    splitOn ',' pair.row = [pair.1, pair.2] := by
  rw [Pair.row, splitOn_append_cons, splitOn_of_not_mem hfirst, splitOn_of_not_mem hsecond]
  rfl

section
variable {pair : Pair}

theorem cells_row (h : IsRowPair pair) : (splitOn ',' pair.row).map trim = [pair.1, pair.2] := by
  rw [splitOn_row h.first.undivided h.second.undivided, List.map_cons, List.map_singleton,
    trim_eq_self h.first.trimmed, trim_eq_self h.second.trimmed]

/-- The row of a pair has a comma, so that it is split there and not at blanks. -/
theorem splitRow_row (h : IsRowPair pair) : splitRow pair.row = [pair.1, pair.2] := by
  have hcomma : ',' ∈ pair.row := by simp [Pair.row]
  rw [splitRow, if_pos hcomma, cells_row h]

/-- The cells of a row are its pair, whether it is read as a row or as a coordinate. -/
theorem firstPair?_row (h : IsRowPair pair) : firstPair? [pair.1, pair.2] = some pair :=
  firstPair?_eq_some.mpr ⟨[], rfl, h.first.nonempty, h.second.nonempty⟩

/-- What stands in the coordinate of a pair is its row, which is read as itself. -/
theorem coordinateRow?_row (h : IsRowPair pair) : coordinateRow? pair.row = some pair.row := by
  rw [coordinateRow?_eq, cells_row h, firstPair?_row h]
  rfl

theorem isTrimmed_row (h : IsRowPair pair) : IsTrimmed pair.row := by
  refine isTrimmed_append h.first.trimmed.1 ?_ h.first.nonempty (List.cons_ne_nil _ _)
  intro d hd
  refine h.second.trimmed.2 d ?_
  rw [List.getLast?_cons] at hd
  cases hopt : pair.2.getLast? with
  | none => exact absurd (List.getLast?_eq_none_iff.mp hopt) h.second.nonempty
  | some e =>
    rw [hopt] at hd
    exact hd

/-- A row is a comment when its first cell begins one. -/
theorem isDataLine_row (h : IsRowPair pair) : isDataLine pair.row = true := by
  rw [← h.data]
  exact isDataLine_congr (List.head?_append_of_ne_nil _ h.first.nonempty)

theorem single_row (h : IsRowPair pair) : '\n' ∉ pair.row := by
  simp [Pair.row, h.first.single, h.second.single]

/-- The row of a pair stays as it is when it is read as a line of data. -/
theorem isDataRow_row (h : IsPair pair) : IsDataRow pair.row :=
  ⟨isTrimmed_row h.isRowPair, isDataLine_row h.isRowPair, h.unescaped, single_row h.isRowPair⟩

end

/-- Pairs are the cells of their rows. -/
theorem filterMap_row {pairs : List Pair} (h : ∀ pair ∈ pairs, IsRowPair pair) :
    (pairs.map Pair.row).filterMap (fun line => firstPair? (splitRow line)) = pairs := by
  have hpair (pair : Pair) (hmem : pair ∈ pairs) : firstPair? (splitRow pair.row) = some pair := by
    rw [splitRow_row (h pair hmem), firstPair?_row (h pair hmem)]
  rw [List.filterMap_map]
  exact (List.filterMap_congr hpair).trans List.filterMap_some

/-- The pairs of the rows of pairs are these. -/
theorem rowPairs_join {pairs : List Pair} (h : ∀ pair ∈ pairs, IsPair pair) :
    rowPairs (join ['\n'] (pairs.map Pair.row)) false = pairs := by
  have hrows : ∀ line ∈ pairs.map Pair.row, IsDataRow line := by
    intro line hline
    obtain ⟨pair, hpair, rfl⟩ := List.mem_map.mp hline
    exact isDataRow_row (h pair hpair)
  rw [rowPairs, rowLines_join hrows]
  exact filterMap_row fun pair hpair => (h pair hpair).isRowPair

/-- The rows of pairs are written as their coordinates. -/
theorem formatCoordinates_join {pairs : List Pair} (h : ∀ pair ∈ pairs, IsPair pair) :
    formatCoordinates (join ['\n'] (pairs.map Pair.row)) false =
      join [' '] (pairs.map Pair.coordinate) := by
  rw [formatCoordinates_eq, rowPairs_join h]

/-! ## From coordinates to rows -/

/-- An opening parenthesis starts anew: what was read since the last one is dropped. -/
theorem innermostFrom_open (current : Option Text) (rest : Text) :
    innermostFrom current ('(' :: rest) = innermostFrom (some []) rest := by
  cases current <;> rfl

/-- A closing parenthesis ends the content that is being read, when there is one. -/
theorem innermostFrom_close (current : Option Text) (rest : Text) :
    innermostFrom current (')' :: rest) =
      (current.map List.reverse).toList ++ innermostFrom none rest := by
  cases current <;> rfl

/-- Any other character is taken into the content that is being read. -/
theorem innermostFrom_char {c : Char} (hopen : c ≠ '(') (hclose : c ≠ ')') (current : Option Text)
    (rest : Text) :
    innermostFrom current (c :: rest) = innermostFrom (current.map (c :: ·)) rest := by
  conv_lhs => unfold innermostFrom
  rw [if_neg hopen, if_neg hclose]

/-- A text without parentheses is taken into the content that is being read. -/
theorem innermostFrom_append {text : Text} (hopen : '(' ∉ text) (hclose : ')' ∉ text)
    (current rest : Text) :
    innermostFrom (some current) (text ++ rest) =
      innermostFrom (some (text.reverse ++ current)) rest := by
  induction text generalizing current with
  | nil => rfl
  | cons c text ih =>
    rw [List.mem_cons, not_or] at hopen hclose
    rw [List.cons_append, innermostFrom_char (Ne.symm hopen.1) (Ne.symm hclose.1),
      Option.map_some, ih hopen.2 hclose.2, List.reverse_cons, List.append_assoc]
    rfl

/-- A coordinate gives its row, whatever was being read before it. -/
theorem innermostFrom_coordinate {pair : Pair} (h : pair.IsBare) (current : Option Text)
    (rest : Text) :
    innermostFrom current (pair.coordinate ++ rest) = pair.row :: innermostFrom none rest := by
  have htext : pair.coordinate ++ rest = '(' :: (pair.row ++ ')' :: rest) := by
    simp [Pair.coordinate, Pair.row]
  rw [htext, innermostFrom_open, innermostFrom_append h.1 h.2, innermostFrom_close,
    List.append_nil, Option.map_some, List.reverse_reverse]
  rfl

/-- The contents of the parentheses of coordinates are the rows of their pairs. -/
theorem innermost_join {pairs : List Pair} (h : ∀ pair ∈ pairs, pair.IsBare) :
    innermost (join [' '] (pairs.map Pair.coordinate)) = pairs.map Pair.row := by
  rw [innermost]
  induction pairs with
  | nil => rfl
  | cons pair rest ih =>
    rw [List.forall_mem_cons] at h
    cases rest with
    | nil =>
      rw [List.map_singleton, join_singleton, ← List.append_nil pair.coordinate,
        innermostFrom_coordinate h.1]
      rfl
    | cons next rest =>
      rw [List.map_cons, List.map_cons, join_cons_cons, innermostFrom_coordinate h.1,
        List.singleton_append, innermostFrom_char (by decide) (by decide)]
      exact congrArg _ (ih h.2)

/-- A text whose innermost parentheses hold rows of pairs is read as these rows. -/
theorem parseCoordinates_eq {pairs : List Pair} (h : ∀ pair ∈ pairs, IsRowPair pair) {body : Text}
    (hbody : innermost body = pairs.map Pair.row) :
    parseCoordinates body = join ['\n'] (pairs.map Pair.row) := by
  have hrows : (pairs.map Pair.row).filterMap coordinateRow? = pairs.map Pair.row := by
    rw [List.filterMap_map, ← List.filterMap_eq_map]
    exact List.filterMap_congr fun pair hpair => coordinateRow?_row (h pair hpair)
  rw [parseCoordinates, hbody, hrows]

/-- Coordinates without further parentheses are read as the rows of their pairs. -/
theorem parseCoordinates_bare {pairs : List Pair} (h : ∀ pair ∈ pairs, IsRowPair pair)
    (hbare : ∀ pair ∈ pairs, pair.IsBare) :
    parseCoordinates (join [' '] (pairs.map Pair.coordinate)) =
      join ['\n'] (pairs.map Pair.row) :=
  parseCoordinates_eq h (innermost_join hbare)

/-- Coordinates are read as the rows of their pairs. -/
theorem parseCoordinates_join {pairs : List Pair} (h : ∀ pair ∈ pairs, IsPair pair) :
    parseCoordinates (join [' '] (pairs.map Pair.coordinate)) =
      join ['\n'] (pairs.map Pair.row) :=
  parseCoordinates_bare (fun pair hpair => (h pair hpair).isRowPair)
    fun pair hpair => (h pair hpair).isBare

/-- What is read of a text stays when more text follows. -/
theorem exists_innermostFrom_append (current : Option Text) (text : Text) :
    ∃ current', ∀ rest, innermostFrom current (text ++ rest) =
      innermostFrom current text ++ innermostFrom current' rest := by
  induction text generalizing current with
  | nil => exact ⟨current, fun rest => by cases current <;> rfl⟩
  | cons c text ih =>
    by_cases hopen : c = '('
    · obtain ⟨current', hrest⟩ := ih (some [])
      refine ⟨current', fun rest => ?_⟩
      rw [hopen, List.cons_append, innermostFrom_open, innermostFrom_open, hrest]
    · by_cases hclose : c = ')'
      · obtain ⟨current', hrest⟩ := ih none
        refine ⟨current', fun rest => ?_⟩
        rw [hclose, List.cons_append, innermostFrom_close, innermostFrom_close, hrest,
          List.append_assoc]
      · obtain ⟨current', hrest⟩ := ih (current.map (c :: ·))
        refine ⟨current', fun rest => ?_⟩
        rw [List.cons_append, innermostFrom_char hopen hclose, innermostFrom_char hopen hclose,
          hrest]

/-- A text has no more innermost parentheses than parentheses that close. -/
theorem length_innermostFrom_le (current : Option Text) (text : Text) :
    (innermostFrom current text).length ≤ text.count ')' := by
  induction text generalizing current with
  | nil => cases current <;> exact Nat.le_refl 0
  | cons c text ih =>
    by_cases hopen : c = '('
    · rw [hopen, innermostFrom_open, List.count_cons_of_ne (by decide)]
      exact ih (some [])
    · by_cases hclose : c = ')'
      · have hrest := ih none
        have hcurrent : (current.map List.reverse).toList.length ≤ 1 := by
          cases current <;> simp
        rw [hclose, innermostFrom_close, List.count_cons_self, List.length_append]
        omega
      · rw [innermostFrom_char hopen hclose, List.count_cons_of_ne hclose]
        exact ih (current.map (c :: ·))

/-! ## The text of coordinates -/

/-- Coordinates end in a parenthesis. -/
theorem getLast?_coordinates {pairs : List Pair} (h : pairs ≠ []) :
    (join [' '] (pairs.map Pair.coordinate)).getLast? = some ')' := by
  induction pairs with
  | nil => exact absurd rfl h
  | cons pair rest ih =>
    cases rest with
    | nil =>
      rw [List.map_singleton, join_singleton, Pair.coordinate, List.getLast?_concat]
    | cons next rest =>
      have hrest := ih (List.cons_ne_nil _ _)
      rw [List.map_cons] at hrest
      rw [List.map_cons, List.map_cons, join_cons_cons, List.getLast?_append,
        List.getLast?_append, hrest]
      rfl

/-- Coordinates escape nothing. -/
theorem unescaped_coordinates {pairs : List Pair} (h : ∀ pair ∈ pairs, IsPair pair) :
    '\\' ∉ join [' '] (pairs.map Pair.coordinate) := by
  intro hmem
  rcases mem_join hmem with ⟨part, hpart, hmem⟩ | hmem
  · obtain ⟨pair, hpair, rfl⟩ := List.mem_map.mp hpart
    have hfirst := (h pair hpair).first.not_mem.2.2.2.1
    have hsecond := (h pair hpair).second.not_mem.2.2.2.1
    simp [Pair.coordinate, hfirst, hsecond] at hmem
  · cases List.mem_singleton.mp hmem

/-- The groups of coordinates nest as those of their rows do. -/
theorem isNested_coordinates {pairs : List Pair} (h : ∀ pair ∈ pairs, IsPair pair)
    (hnested : Source.IsNested (join ['\n'] (pairs.map Pair.row))) :
    Source.IsNested (join [' '] (pairs.map Pair.coordinate)) := by
  have hrows : '\\' ∉ join ['\n'] (pairs.map Pair.row) := by
    intro hmem
    rcases mem_join hmem with ⟨part, hpart, hmem⟩ | hmem
    · obtain ⟨pair, hpair, rfl⟩ := List.mem_map.mp hpart
      exact (isDataRow_row (h pair hpair)).unescaped hmem
    · cases List.mem_singleton.mp hmem
  refine (Source.isNested_congr (fun _ => id) (unescaped_coordinates h) hrows ?_).mpr hnested
  have hpair (pair : Pair) : pair.coordinate.filter Source.isDelimiter =
      pair.row.filter Source.isDelimiter := by
    simp [Pair.coordinate, Pair.row, Source.isDelimiter]
  -- parentheses and separators are no delimiters, so both texts have those of the cells
  clear h hnested hrows
  induction pairs with
  | nil => rfl
  | cons pair rest ih =>
    cases rest with
    | nil =>
      rw [List.map_singleton, List.map_singleton, join_singleton, join_singleton]
      exact hpair pair
    | cons next rest =>
      rw [List.map_cons, List.map_cons] at ih
      rw [List.map_cons, List.map_cons, List.map_cons, List.map_cons, join_cons_cons,
        join_cons_cons, List.filter_append,
        List.filter_append, List.filter_append, List.filter_append, hpair]
      exact congrArg _ ih

end TexFigure.Table
