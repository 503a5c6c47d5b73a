import TexFigure.Proofs.Coordinates
/-!
# When coordinates stay as they are

Coordinates that are read as rows come back as the same coordinates only when their cells do. Two
things keep a cell from coming back, and there are no others
(`formatCoordinates_parseCoordinates_iff`):

* a parenthesis, since the reader takes the innermost parentheses for those of a coordinate;
* row terminators at the end of the second cell, which end the row in which it is read.

Parentheses are ruled out by counting: what is read holds none, so that coordinates that come back
have no more of them than the pairs need, one for each comma. Without them the pairs are read back
one by one, each as its row, and a row is trimmed to a shorter one (`Pair.shortened`) exactly when
there is a terminator to drop.
-/

namespace TexFigure.Table

open Text

/-! ## Row terminators -/

/-- What ends a row of a table. -/
def rowEnd : Text := "\\\\"

theorem dropTerminators_append_cons {c : Char} (h : c ≠ '\\') (line rest : Text) :
    dropTerminators (line ++ c :: rest) = dropTerminators line ++ c :: rest := by
  fun_induction dropTerminators line with
  | case1 line ih => exact ih
  | case2 line hline =>
    -- one backslash in front of another character ends no row
    unfold dropTerminators
    split
    next behind heq =>
      cases line with
      | nil => exact absurd (List.cons.inj heq).1 h
      | cons d line =>
        rw [List.cons_append, List.cons.injEq] at heq
        cases line with
        | nil => exact absurd (List.cons.inj heq.2).1 h
        | cons e line =>
          rw [List.cons_append, List.cons.injEq] at heq
          exact absurd (by rw [heq.1, heq.2.1]) (hline line)
    next => rfl

/-- A line is shorter without its terminators, if it has any. -/
theorem dropTerminators_cases (line : Text) :
    rowEnd <+: line ∧ (dropTerminators line).length < line.length ∨
      ¬rowEnd <+: line ∧ dropTerminators line = line := by
  unfold dropTerminators
  split
  next rest =>
    have := (dropTerminators_suffix rest).length_le
    refine Or.inl ⟨⟨rest, rfl⟩, ?_⟩
    simp only [List.length_cons]
    omega
  next hline =>
    refine Or.inr ⟨fun hprefix => ?_, rfl⟩
    obtain ⟨rest, heq⟩ := hprefix
    exact hline rest heq.symm

/-- A trimmed line is read as a shorter row when it ends in a terminator, and else as it stands. -/
theorem trimLine_cases {line : Text} (h : IsTrimmed line) :
    rowEnd <:+ line ∧ (trimLine line).length < line.length ∨
      ¬rowEnd <:+ line ∧ trimLine line = line := by
  have hsuffix : rowEnd <+: line.reverse ↔ rowEnd <:+ line := by
    rw [← List.reverse_suffix, List.reverse_reverse]
    rfl
  rw [trimLine, trim_eq_self h]
  rcases dropTerminators_cases line.reverse with ⟨hend, hlength⟩ | ⟨hend, heq⟩
  · refine Or.inl ⟨hsuffix.mp hend, ?_⟩
    have hle := (trimEnd_isPrefix (dropTerminators line.reverse).reverse).length_le
    rw [List.length_reverse] at hle hlength
    exact Nat.lt_of_le_of_lt hle hlength
  · refine Or.inr ⟨mt hsuffix.mpr hend, ?_⟩
    rw [heq, List.reverse_reverse, trimEnd_eq_self h.2]

/-- The part of a pair that is left when its row is read as a line of data. -/
def Pair.shortened (pair : Pair) : Pair :=
  (pair.1, trimEnd (dropTerminators pair.2.reverse).reverse)

section
variable {pair : Pair}

theorem trimLine_row (h : IsRowPair pair) : trimLine pair.row = pair.shortened.row := by
  have hreverse : pair.row.reverse = pair.2.reverse ++ ',' :: pair.1.reverse := by
    simp [Pair.row]
  rw [trimLine, trim_eq_self (isTrimmed_row h), hreverse,
    dropTerminators_append_cons (by decide), List.reverse_append, List.reverse_cons,
    List.reverse_reverse, List.append_assoc, List.singleton_append,
    trimEnd_append_cons (by decide)]
  rfl

/-- A pair is left as it is exactly when its second cell does not end in a row terminator; else
the second cell gets shorter. -/
theorem shortened_cases (h : IsRowPair pair) :
    rowEnd <:+ pair.2 ∧ pair.shortened.2.length < pair.2.length ∨
      ¬rowEnd <:+ pair.2 ∧ pair.shortened = pair := by
  have hsecond : pair.shortened = (pair.1, trimLine pair.2) := by
    rw [Pair.shortened, trimLine, trim_eq_self h.second.trimmed]
  rw [hsecond]
  rcases trimLine_cases h.second.trimmed with hends | ⟨hend, heq⟩
  · exact Or.inl hends
  · exact Or.inr ⟨hend, by rw [heq]⟩

/-- A pair comes back from its row exactly when its second cell does not end in a row
terminator. -/
theorem firstPair?_shortened (h : IsRowPair pair) :
    firstPair? (splitRow pair.shortened.row) = some pair ↔ ¬rowEnd <:+ pair.2 := by
  rcases shortened_cases h with ⟨hend, hlength⟩ | ⟨hend, heq⟩
  · refine ⟨fun hback => ?_, fun hnot => absurd hend hnot⟩
    have hcomma : ',' ∉ pair.shortened.2 := fun hc => by
      have hprefix := (trimEnd_isPrefix (dropTerminators pair.2.reverse).reverse).subset hc
      have hdropped := (dropTerminators_suffix _).subset (List.mem_reverse.mp hprefix)
      exact h.second.undivided (List.mem_reverse.mp hdropped)
    have hcells : splitRow pair.shortened.row = [trim pair.1, trim pair.shortened.2] := by
      rw [splitRow, if_pos (by simp [Pair.row]),
        @splitOn_row pair.shortened h.first.undivided hcomma]
      rfl
    rw [hcells] at hback
    obtain ⟨more, hcells, -⟩ := firstPair?_eq_some.mp hback
    have hsecond : trim pair.shortened.2 = pair.2 := (List.cons.inj (List.cons.inj hcells).2).1
    have hle := (infix_trim pair.shortened.2).length_le
    rw [hsecond] at hle
    omega
  · rw [heq, splitRow_row h, firstPair?_row h]
    exact ⟨fun _ => hend, fun _ => rfl⟩

end

/-! ## What is read from coordinates -/

/-- The contents of innermost parentheses hold no parenthesis. -/
theorem bare_of_mem_innermostFrom {current : Option Text} {text content : Text}
    (hcurrent : ∀ inside ∈ current, '(' ∉ inside ∧ ')' ∉ inside)
    (h : content ∈ innermostFrom current text) : '(' ∉ content ∧ ')' ∉ content := by
  induction text generalizing current with
  | nil => cases h
  | cons c rest ih =>
    by_cases hopen : c = '('
    · rw [hopen, innermostFrom_open] at h
      refine ih (fun inside hinside => ?_) h
      cases hinside
      exact ⟨List.not_mem_nil, List.not_mem_nil⟩
    · by_cases hclose : c = ')'
      · rw [hclose, innermostFrom_close] at h
        rcases List.mem_append.mp h with h | h
        · obtain ⟨inside, hinside, rfl⟩ := Option.map_eq_some_iff.mp (Option.mem_toList.mp h)
          simpa using hcurrent inside hinside
        · exact ih (fun inside hinside => by cases hinside) h
      · rw [innermostFrom_char hopen hclose] at h
        refine ih (fun inside hinside => ?_) h
        obtain ⟨before, hbefore, rfl⟩ := Option.map_eq_some_iff.mp hinside
        obtain ⟨hnone, hnone'⟩ := hcurrent before hbefore
        exact ⟨by simp [Ne.symm hopen, hnone], by simp [Ne.symm hclose, hnone']⟩

/-- Rows that are read from coordinates hold no parenthesis. -/
theorem bare_parseCoordinates (body : Text) :
    '(' ∉ parseCoordinates body ∧ ')' ∉ parseCoordinates body := by
  have hrow {c : Char} (hc : c = '(' ∨ c = ')') : c ∉ parseCoordinates body := by
    intro hmem
    rcases mem_join hmem with ⟨row, hrow, hmem⟩ | hmem
    · obtain ⟨content, hcontent, hread⟩ := List.mem_filterMap.mp hrow
      have hbare := bare_of_mem_innermostFrom (fun inside hinside => by cases hinside) hcontent
      rw [coordinateRow?_eq] at hread
      obtain ⟨pair, hpair, rfl⟩ := Option.map_eq_some_iff.mp hread
      obtain ⟨more, hcells, -⟩ := firstPair?_eq_some.mp hpair
      have hcell {cell : Text} (hcell : cell ∈ (splitOn ',' content).map trim) : c ∉ cell := by
        intro hc'
        obtain ⟨part, hpart, rfl⟩ := List.mem_map.mp hcell
        have hin := (not_of_mem_splitWhere hpart ((infix_trim part).subset hc')).1
        rcases hc with rfl | rfl
        · exact hbare.1 hin
        · exact hbare.2 hin
      have hfirst := hcell (by rw [hcells]; exact List.mem_cons_self)
      have hsecond := hcell (by rw [hcells]; exact List.mem_cons_of_mem _ List.mem_cons_self)
      have hne : c ≠ ',' := by rcases hc with rfl | rfl <;> decide
      simp [Pair.row, hfirst, hsecond, hne] at hmem
    · rcases hc with rfl | rfl <;> cases List.mem_singleton.mp hmem
  exact ⟨hrow (Or.inl rfl), hrow (Or.inr rfl)⟩

/-- The pairs of rows that are read from coordinates are bare. -/
theorem isBare_of_mem_reread {body : Text} {pair : Pair}
    (h : pair ∈ rowPairs (parseCoordinates body) false) : pair.IsBare := by
  obtain ⟨hopen, hclose⟩ := bare_parseCoordinates body
  obtain ⟨-, hfirst, hsecond⟩ := isRowPair_of_mem h
  have hnone {c : Char} (hc : c ∉ parseCoordinates body) (hne : c ≠ ',') : c ∉ pair.row := by
    simp [Pair.row, hne, mt (hfirst c) hc, mt (hsecond c) hc]
  exact ⟨hnone hopen (by decide), hnone hclose (by decide)⟩

/-! ## Counting parentheses and commas -/

section
variable {pairs pairs' : List Pair}

/-- Coordinates have one comma each. -/
theorem count_comma_coordinates (h : ∀ pair ∈ pairs, IsRowPair pair) :
    (join [' '] (pairs.map Pair.coordinate)).count ',' = pairs.length := by
  have hpair (pair : Pair) (hpair : pair ∈ pairs) : pair.coordinate.count ',' = 1 := by
    have hfirst := List.count_eq_zero.mpr (h pair hpair).first.undivided
    have hsecond := List.count_eq_zero.mpr (h pair hpair).second.undivided
    simp [Pair.coordinate, hfirst, hsecond]
  rw [count_join (by decide), List.map_map,
    List.map_congr_left (f := List.count ',' ∘ Pair.coordinate) (g := fun _ => 1) hpair]
  simp

/-- Coordinates have the two parentheses around them and those of their cells. -/
theorem count_paren_coordinates {c : Char} (hc : c = '(' ∨ c = ')') :
    (join [' '] (pairs.map Pair.coordinate)).count c =
      pairs.length + (pairs.map fun pair => pair.row.count c).sum := by
  have hpair (pair : Pair) : pair.coordinate.count c = 1 + pair.row.count c := by
    rcases hc with rfl | rfl <;> simp [Pair.coordinate, Pair.row] <;> omega
  have hc' : c ∉ [' '] := by rcases hc with rfl | rfl <;> decide
  rw [count_join hc', List.map_map]
  induction pairs with
  | nil => rfl
  | cons pair rest ih =>
    simp only [List.map_cons, List.sum_cons, List.length_cons, Function.comp_apply, hpair] at ih ⊢
    omega

/-- Coordinates that are those of bare pairs are of bare pairs. -/
theorem isBare_of_coordinates_eq (h : ∀ pair ∈ pairs, IsRowPair pair)
    (h' : ∀ pair ∈ pairs', IsRowPair pair ∧ pair.IsBare)
    (heq : join [' '] (pairs'.map Pair.coordinate) = join [' '] (pairs.map Pair.coordinate)) :
    ∀ pair ∈ pairs, pair.IsBare := by
  have hcommas := congrArg (List.count ',') heq
  rw [count_comma_coordinates h, count_comma_coordinates fun pair hpair => (h' pair hpair).1]
    at hcommas
  have hnone {c : Char} (hc : c = '(' ∨ c = ')') (hbare : ∀ pair ∈ pairs', c ∉ pair.row) :
      ∀ pair ∈ pairs, c ∉ pair.row := by
    have hparens := congrArg (List.count c) heq
    have hzero : (pairs'.map fun pair => pair.row.count c).sum = 0 := by
      rw [List.sum_eq_zero_iff_forall_eq_nat]
      intro n hn
      obtain ⟨pair, hpair, rfl⟩ := List.mem_map.mp hn
      exact List.count_eq_zero.mpr (hbare pair hpair)
    rw [count_paren_coordinates hc, count_paren_coordinates hc, hzero] at hparens
    have hsum : (pairs.map fun pair => pair.row.count c).sum = 0 := by omega
    intro pair hpair
    rw [List.sum_eq_zero_iff_forall_eq_nat] at hsum
    exact List.count_eq_zero.mp (hsum _ (List.mem_map_of_mem hpair))
  intro pair hpair
  exact ⟨hnone (Or.inl rfl) (fun pair hpair => (h' pair hpair).2.1) pair hpair,
    hnone (Or.inr rfl) (fun pair hpair => (h' pair hpair).2.2) pair hpair⟩

/-- Bare pairs are told apart by their coordinates. -/
theorem eq_of_coordinates_eq (h : ∀ pair ∈ pairs, IsRowPair pair ∧ pair.IsBare)
    (h' : ∀ pair ∈ pairs', IsRowPair pair ∧ pair.IsBare)
    (heq : join [' '] (pairs'.map Pair.coordinate) = join [' '] (pairs.map Pair.coordinate)) :
    pairs' = pairs := by
  have hrows := congrArg innermost heq
  rw [innermost_join fun pair hpair => (h pair hpair).2,
    innermost_join fun pair hpair => (h' pair hpair).2] at hrows
  have hpairs := congrArg (List.filterMap fun line => firstPair? (splitRow line)) hrows
  rwa [filterMap_row fun pair hpair => (h pair hpair).1,
    filterMap_row fun pair hpair => (h' pair hpair).1] at hpairs

end

/-! ## Coordinates that come back -/

/-- A list that is left as it is by a partial map is left as it is entry by entry. -/
theorem eq_some_of_filterMap_eq {α : Type} {f : α → Option α} {entries : List α}
    (h : entries.filterMap f = entries) : ∀ entry ∈ entries, f entry = some entry := by
  induction entries with
  | nil => exact fun entry hentry => by cases hentry
  | cons first rest ih =>
    cases hfirst : f first with
    | none =>
      -- an entry that is left out is missing at the end
      rw [List.filterMap_cons_none hfirst] at h
      have hlength := congrArg List.length h
      have hle := List.length_filterMap_le f rest
      rw [List.length_cons] at hlength
      omega
    | some image =>
      rw [List.filterMap_cons_some hfirst, List.cons.injEq] at h
      rw [List.forall_mem_cons, hfirst, h.1]
      exact ⟨rfl, ih h.2⟩

section
variable {pairs : List Pair}

/-- Bare pairs are read back from their coordinates as far as the terminators of their rows
allow. -/
theorem rowPairs_parseCoordinates (h : ∀ pair ∈ pairs, IsRowPair pair ∧ pair.IsBare) :
    rowPairs (parseCoordinates (join [' '] (pairs.map Pair.coordinate))) false =
      pairs.filterMap fun pair => firstPair? (splitRow pair.shortened.row) := by
  have hsingle : ∀ line ∈ pairs.map Pair.row, '\n' ∉ line := by
    intro line hline
    obtain ⟨pair, hpair, rfl⟩ := List.mem_map.mp hline
    exact single_row (h pair hpair).1
  have htrim : (pairs.map Pair.row).map trimLine = pairs.map fun pair => pair.shortened.row := by
    rw [List.map_map]
    exact List.map_congr_left fun pair hpair => trimLine_row (h pair hpair).1
  have hdata : ∀ line ∈ pairs.map fun pair => pair.shortened.row, isDataLine line = true := by
    intro line hline
    obtain ⟨pair, hpair, rfl⟩ := List.mem_map.mp hline
    rw [← (h pair hpair).1.data]
    exact isDataLine_congr (List.head?_append_of_ne_nil _ (h pair hpair).1.first.nonempty)
  rw [parseCoordinates_bare (fun pair hpair => (h pair hpair).1) fun pair hpair => (h pair hpair).2,
    rowPairs, rowLines_lines hsingle, htrim, List.filter_eq_self.mpr hdata]
  exact List.filterMap_map

/-- Coordinates stay as they are when they are read as rows and written again exactly when no cell
holds a parenthesis and no second cell ends in a row terminator. -/
theorem formatCoordinates_parseCoordinates_iff (rows : Text) (hasHeader : Bool) :
    formatCoordinates (parseCoordinates (formatCoordinates rows hasHeader)) false =
        formatCoordinates rows hasHeader ↔
      ∀ pair ∈ rowPairs rows hasHeader, pair.IsBare ∧ ¬rowEnd <:+ pair.2 := by
  have hpairs : ∀ pair ∈ rowPairs rows hasHeader, IsRowPair pair := fun pair hpair =>
    (isRowPair_of_mem hpair).1
  rw [formatCoordinates_eq rows, formatCoordinates_eq]
  generalize rowPairs rows hasHeader = pairs at hpairs
  constructor
  · intro heq
    have hreread : ∀ pair ∈ rowPairs
        (parseCoordinates (join [' '] (pairs.map Pair.coordinate))) false,
        IsRowPair pair ∧ pair.IsBare := fun pair hpair =>
      ⟨(isRowPair_of_mem hpair).1, isBare_of_mem_reread hpair⟩
    have hbare := isBare_of_coordinates_eq hpairs hreread heq
    have hboth : ∀ pair ∈ pairs, IsRowPair pair ∧ pair.IsBare := fun pair hpair =>
      ⟨hpairs pair hpair, hbare pair hpair⟩
    have hsame := eq_of_coordinates_eq hboth hreread heq
    rw [rowPairs_parseCoordinates hboth] at hsame
    intro pair hpair
    exact ⟨hbare pair hpair, (firstPair?_shortened (hpairs pair hpair)).mp
      (eq_some_of_filterMap_eq hsame pair hpair)⟩
  · intro h
    have hboth : ∀ pair ∈ pairs, IsRowPair pair ∧ pair.IsBare := fun pair hpair =>
      ⟨hpairs pair hpair, (h pair hpair).1⟩
    have hback : ∀ pair ∈ pairs, firstPair? (splitRow pair.shortened.row) = some pair :=
      fun pair hpair => (firstPair?_shortened (hpairs pair hpair)).mpr (h pair hpair).2
    rw [rowPairs_parseCoordinates hboth, List.filterMap_congr hback, List.filterMap_some]

/-- A terminator between blanks is left at the end of a cell, and is dropped from there when the
coordinate is read. -/
theorem formatCoordinates_second_terminator :
    let rows : Text := "1,2\\\\ \\\\"
    formatCoordinates (parseCoordinates (formatCoordinates rows false)) false ≠
      formatCoordinates rows false := by
  decide

end

end TexFigure.Table
