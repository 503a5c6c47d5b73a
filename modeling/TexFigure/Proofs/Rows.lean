import Mathlib.Algebra.GroupWithZero.Nat
import TexFigure.Proofs.Occurrence
import TexFigure.Table.Rows
/-!
# Rows in canonical form

The canonical text of rows keeps their words when nothing in the rows is a comment or a row
terminator (`words_normalizeRows`), and with the words everything that is read from rows before
they are cut into cells: whether they name a file, whether they hold a comma, and how their groups
nest. What is canonical stays as it is, also between line feeds
(`normalizeRows_normalizeRows`, `rowLines_append`).
-/

namespace TexFigure

namespace Text

/-! ## Parts and words -/

section
variable {p : Char → Bool}

theorem splitWhere_ne_nil (text : Text) : splitWhere p text ≠ [] := by
  cases text with
  | nil => exact List.cons_ne_nil _ _
  | cons c rest =>
    rw [splitWhere]
    split
    · exact List.cons_ne_nil _ _
    · cases splitWhere p rest with
      | nil => exact List.cons_ne_nil _ _
      | cons => exact List.cons_ne_nil _ _

theorem consToFirst_append {c : Char} {parts : List Text} (h : parts ≠ []) (more : List Text) :
    consToFirst c (parts ++ more) = consToFirst c parts ++ more := by
  cases parts with
  | nil => exact absurd rfl h
  | cons => rfl

/-- A text is cut at a separator into the parts before and behind it. -/
theorem splitWhere_append_cons {c : Char} (h : p c = true) (before after : Text) :
    splitWhere p (before ++ c :: after) = splitWhere p before ++ splitWhere p after := by
  induction before with
  | nil =>
    show (if p c then [] :: splitWhere p after else _) = _
    rw [if_pos h]
    rfl
  | cons d before ih =>
    rw [List.cons_append, splitWhere, splitWhere, ih]
    split
    · rfl
    · exact consToFirst_append (splitWhere_ne_nil before) _

/-- A text without a separator is one part. -/
theorem splitWhere_of_none {text : Text} (h : ∀ c ∈ text, p c = false) :
    splitWhere p text = [text] := by
  induction text with
  | nil => rfl
  | cons c rest ih =>
    rw [List.forall_mem_cons] at h
    rw [splitWhere, if_neg (by simp [h.1]), ih h.2]
    rfl

/-- The parts of a text are its characters but the separators. -/
theorem flatten_splitWhere (text : Text) :
    (splitWhere p text).flatten = text.filter (fun c => !p c) := by
  induction text with
  | nil => rfl
  | cons c rest ih =>
    rw [splitWhere, List.filter_cons]
    split
    next h => rw [List.flatten_cons, List.nil_append, ih, h, if_neg (by simp)]
    next h =>
      rw [Bool.not_eq_true] at h
      rw [h]
      show _ = c :: List.filter _ rest
      rw [← ih]
      cases splitWhere p rest with
      | nil => rfl
      | cons => rfl

/-- No separator is in a part. -/
theorem not_of_mem_splitWhere {text part : Text} (hpart : part ∈ splitWhere p text) {c : Char}
    (hc : c ∈ part) : c ∈ text ∧ p c = false := by
  have hmem : c ∈ (splitWhere p text).flatten := List.mem_flatten_of_mem hpart hc
  rw [flatten_splitWhere, List.mem_filter] at hmem
  exact ⟨hmem.1, by simpa using hmem.2⟩

/-- The first part of a text is empty or starts as the text does. -/
theorem splitWhere_cons_cases (p : Char → Bool) (c : Char) (rest : Text) :
    ∃ part parts, splitWhere p (c :: rest) = part :: parts ∧
      (p c = true ∧ part = [] ∨ ∃ tail, part = c :: tail) := by
  rw [splitWhere]
  split
  next h => exact ⟨[], _, rfl, Or.inl ⟨h, rfl⟩⟩
  next =>
    obtain ⟨part, parts, heq⟩ := List.exists_cons_of_ne_nil (splitWhere_ne_nil (p := p) rest)
    exact ⟨c :: part, parts, by rw [heq]; rfl, Or.inr ⟨part, rfl⟩⟩

end

theorem splitOn_append_cons (separator : Char) (before after : Text) :
    splitOn separator (before ++ separator :: after) =
      splitOn separator before ++ splitOn separator after :=
  splitWhere_append_cons (by simp) before after

theorem splitOn_of_not_mem {separator : Char} {text : Text} (h : separator ∉ text) :
    splitOn separator text = [text] := by
  refine splitWhere_of_none fun c hc => ?_
  rw [beq_eq_false_iff_ne]
  rintro rfl
  exact h hc

/-- Parts without the separator come back from their join. -/
theorem splitOn_join {separator : Char} {parts : List Text} (hne : parts ≠ [])
    (h : ∀ part ∈ parts, separator ∉ part) :
    splitOn separator (join [separator] parts) = parts := by
  induction parts with
  | nil => exact absurd rfl hne
  | cons part rest ih =>
    rw [List.forall_mem_cons] at h
    cases rest with
    | nil => rw [join_singleton, splitOn_of_not_mem h.1]
    | cons next rest =>
      rw [join_cons_cons, List.singleton_append, splitOn_append_cons, splitOn_of_not_mem h.1,
        ih (List.cons_ne_nil _ _) h.2, List.singleton_append]

theorem words_append_cons {c : Char} (h : isBlank c = true) (before after : Text) :
    words (before ++ c :: after) = words before ++ words after := by
  rw [words, splitWhere_append_cons h, List.filter_append]
  rfl

/-- A text without blanks is one word, unless it is empty. -/
theorem words_of_not_blank {text : Text} (hne : text ≠ []) (h : ∀ c ∈ text, isBlank c = false) :
    words text = [text] := by
  rw [words, splitWhere_of_none h]
  exact List.filter_cons_of_pos (by simpa using hne)

/-- The words of a text are its characters but the blanks. -/
theorem flatten_words (text : Text) :
    (words text).flatten = text.filter (fun c => !isBlank c) := by
  rw [words, ← flatten_splitWhere]
  induction splitWhere isBlank text with
  | nil => rfl
  | cons part parts ih =>
    cases part with
    | nil => exact ih
    | cons c part =>
      rw [List.filter_cons_of_pos rfl, List.flatten_cons, List.flatten_cons, ih]

theorem words_blanks {blanks : Text} (h : blanks.all isBlank) (text : Text) :
    words (blanks ++ text) = words text := by
  induction blanks with
  | nil => rfl
  | cons c blanks ih =>
    obtain ⟨hc, hrest⟩ := Bool.and_eq_true_iff.mp h
    have hcut := words_append_cons hc [] (blanks ++ text)
    rw [List.nil_append] at hcut
    rw [List.cons_append, hcut, ih hrest]
    rfl

theorem words_append_blanks {blanks : Text} (h : blanks.all isBlank) (text : Text) :
    words (text ++ blanks) = words text := by
  cases blanks with
  | nil => rw [List.append_nil]
  | cons c blanks =>
    obtain ⟨hc, hrest⟩ := Bool.and_eq_true_iff.mp h
    have hnone := words_blanks hrest []
    rw [List.append_nil] at hnone
    rw [words_append_cons hc, hnone]
    exact List.append_nil _

theorem words_trim (text : Text) : words (trim text) = words text := by
  obtain ⟨before, after, htext, hbefore, hafter⟩ := exists_trim text
  conv_rhs => rw [htext]
  rw [words_append_blanks hafter, words_blanks hbefore]

/-- Only a blank text has no words. -/
theorem words_ne_nil {text : Text} {c : Char} (hmem : c ∈ text) (hc : isBlank c = false) :
    words text ≠ [] := by
  intro h
  have hflat := flatten_words text
  rw [h, List.flatten_nil, eq_comm, List.filter_eq_nil_iff] at hflat
  simpa [hc] using hflat c hmem

/-- The words of lines are those of their text. -/
theorem words_join (lines : List Text) : words (join ['\n'] lines) = lines.flatMap words := by
  induction lines with
  | nil => rfl
  | cons line rest ih =>
    cases rest with
    | nil => rw [join_singleton, List.flatMap_singleton]
    | cons next rest =>
      rw [join_cons_cons, List.singleton_append,
        words_append_cons (show isBlank '\n' = true from rfl), List.flatMap_cons]
      exact congrArg _ ih

/-- A character of parts with a separator between them is in a part or in the separator. -/
theorem mem_join {separator : Text} {parts : List Text} {c : Char} (h : c ∈ join separator parts) :
    (∃ part ∈ parts, c ∈ part) ∨ c ∈ separator := by
  induction parts with
  | nil => exact absurd h List.not_mem_nil
  | cons part rest ih =>
    cases rest with
    | nil =>
      rw [join_singleton] at h
      exact Or.inl ⟨part, List.mem_cons_self, h⟩
    | cons next rest =>
      rw [join_cons_cons, List.mem_append, List.mem_append] at h
      rcases h with h | h | h
      · exact Or.inl ⟨part, List.mem_cons_self, h⟩
      · exact Or.inr h
      · rcases ih h with ⟨other, hother, h⟩ | h
        · exact Or.inl ⟨other, List.mem_cons_of_mem _ hother, h⟩
        · exact Or.inr h

theorem count_join {c : Char} {separator : Text} (h : c ∉ separator) (parts : List Text) :
    (join separator parts).count c = (parts.map (List.count c)).sum := by
  induction parts with
  | nil => rfl
  | cons part rest ih =>
    cases rest with
    | nil => rw [join_singleton, List.map_singleton, List.sum_singleton]
    | cons next rest =>
      rw [join_cons_cons, List.count_append, List.count_append, List.count_eq_zero.mpr h, ih,
        Nat.zero_add]
      exact List.sum_cons.symm

/-- A text is one line, or a line and the lines behind it. -/
theorem lines_induction {motive : Text → Prop}
    (line : ∀ line, '\n' ∉ line → motive line)
    (more : ∀ line rest, '\n' ∉ line → motive rest → motive (line ++ '\n' :: rest))
    (text : Text) : motive text := by
  -- the rest behind a line feed is no tail of the text, so the induction is on a length
  have hcases : ∀ n, ∀ text : Text, text.length ≤ n → motive text := by
    intro n
    induction n with
    | zero =>
      intro text h
      obtain rfl := List.length_eq_zero_iff.mp (Nat.le_zero.mp h)
      exact line [] List.not_mem_nil
    | succ n ih =>
      intro text h
      by_cases hmem : '\n' ∈ text
      · obtain ⟨before, after, rfl, hbefore⟩ := List.eq_append_cons_of_mem hmem
        refine more before after hbefore (ih after ?_)
        simp at h
        omega
      · exact line text hmem
  exact hcases text.length text (Nat.le_refl _)

end Text

namespace Table

open Text

/-! ## Lines of data -/

/-- A line that stays as it is when it is read as a line of data. -/
structure IsDataRow (line : Text) : Prop where
  trimmed : IsTrimmed line
  data : isDataLine line = true
  unescaped : '\\' ∉ line
  single : '\n' ∉ line

theorem isDataLine_congr {line line' : Text} (h : line.head? = line'.head?) :
    isDataLine line = isDataLine line' := by
  cases line with
  | nil => cases line' with
    | nil => rfl
    | cons => cases h
  | cons c rest => cases line' with
    | nil => cases h
    | cons d rest' =>
      obtain rfl : c = d := Option.some.inj h
      rfl

theorem trimLine_of_unescaped {line : Text} (h : '\\' ∉ line) : trimLine line = trim line := by
  have hnone : dropTerminators (trim line).reverse = (trim line).reverse := by
    unfold dropTerminators
    split
    next rest heq =>
      have hmem : '\\' ∈ (trim line).reverse := by
        rw [heq]
        exact List.mem_cons_self
      exact absurd ((infix_trim line).subset (List.mem_reverse.mp hmem)) h
    next => rfl
  rw [trimLine, hnone, List.reverse_reverse]
  exact List.rdropWhile_idempotent isBlank (trimStart line)

theorem trim_dropReturn (line : Text) : trim (dropReturn line) = trim line := by
  unfold dropReturn
  split
  next h =>
    obtain ⟨before, rfl⟩ := List.getLast?_eq_some_iff.mp h
    rw [List.dropLast_concat]
    have hblanks := trim_blanks (show ([] : Text).all isBlank from rfl)
      (show ['\r'].all isBlank from rfl) before
    exact hblanks.symm
  next => rfl

/-- The lines of data are those between line feeds: a carriage return and an empty last line make
no difference. -/
theorem rowLines_eq (rows : Text) :
    rowLines rows = ((splitOn '\n' rows).map trimLine).filter isDataLine := by
  have hreturn (line : Text) : trimLine (dropReturn line) = trimLine line := by
    rw [trimLine, trim_dropReturn, trimLine]
  have hmap (ended : List Text) : (ended.map dropReturn).map trimLine = ended.map trimLine := by
    rw [List.map_map]
    exact List.map_congr_left fun line _ => hreturn line
  rw [rowLines, lines]
  cases hsplit : (splitOn '\n' rows).reverse with
  | nil => exact absurd (List.reverse_eq_nil_iff.mp hsplit) (splitWhere_ne_nil rows)
  | cons last ended =>
    have hlines : splitOn '\n' rows = ended.reverse ++ [last] := by
      rw [← List.reverse_reverse (splitOn '\n' rows), hsplit, List.reverse_cons]
    rw [hlines, List.map_append, List.map_append, List.map_reverse, hmap, List.map_reverse,
      List.filter_append, List.filter_append]
    cases last <;> rfl

/-- The lines of data before and behind a line feed. -/
theorem rowLines_append (before after : Text) :
    rowLines (before ++ '\n' :: after) = rowLines before ++ rowLines after := by
  rw [rowLines_eq, splitOn_append_cons, List.map_append, List.filter_append, ← rowLines_eq,
    ← rowLines_eq]

theorem rowLines_line {line : Text} (h : '\n' ∉ line) :
    rowLines line = [trimLine line].filter isDataLine := by
  rw [rowLines_eq, splitOn_of_not_mem h, List.map_singleton]

/-- Lines with line feeds between them are taken one by one. -/
theorem rowLines_lines {lines : List Text} (h : ∀ line ∈ lines, '\n' ∉ line) :
    rowLines (join ['\n'] lines) = (lines.map trimLine).filter isDataLine := by
  induction lines with
  | nil => rfl
  | cons line rest ih =>
    rw [List.forall_mem_cons] at h
    cases rest with
    | nil => rw [join_singleton, rowLines_line h.1, List.map_singleton]
    | cons next rest =>
      rw [join_cons_cons, List.singleton_append, rowLines_append, rowLines_line h.1, ih h.2,
        ← List.filter_append, List.singleton_append]
      rfl

/-- Rows that stay as they are are read back. -/
theorem rowLines_join {lines : List Text} (h : ∀ line ∈ lines, IsDataRow line) :
    rowLines (join ['\n'] lines) = lines := by
  have hline (line : Text) (hmem : line ∈ lines) : trimLine line = line := by
    rw [trimLine_of_unescaped (h line hmem).unescaped, trim_eq_self (h line hmem).trimmed]
  rw [rowLines_lines fun line hmem => (h line hmem).single, List.map_congr_left hline, List.map_id']
  exact List.filter_eq_self.mpr fun line hmem => (h line hmem).data

theorem dropTerminators_suffix (line : Text) : dropTerminators line <:+ line := by
  fun_induction dropTerminators line with
  | case1 rest ih => exact ih.trans ((List.suffix_cons _ _).trans (List.suffix_cons _ _))
  | case2 => exact List.suffix_refl _

/-- What is kept of a line is the trimmed front of it. -/
theorem exists_trimLine (line : Text) :
    ∃ front, front <+: trim line ∧ trimLine line = trim front := by
  refine ⟨(dropTerminators (trim line).reverse).reverse, ?_, ?_⟩
  · have hsuffix := dropTerminators_suffix (trim line).reverse
    rwa [← List.reverse_prefix, List.reverse_reverse] at hsuffix
  · rw [trimLine]
    cases hfront : (dropTerminators (trim line).reverse).reverse with
    | nil => rfl
    | cons c rest =>
      -- the front starts as the trimmed line does
      have hsuffix := dropTerminators_suffix (trim line).reverse
      rw [← List.reverse_prefix, List.reverse_reverse, hfront] at hsuffix
      obtain ⟨more, hmore⟩ := hsuffix
      have hc : isBlank c = false := (isTrimmed_trim line).1 c (by rw [← hmore]; rfl)
      rw [trim, trimStart_cons hc]

/-- Every line of data is trimmed, and what it holds is in the rows. -/
theorem line_of_mem_rowLines {rows line : Text} (h : line ∈ rowLines rows) :
    IsTrimmed line ∧ isDataLine line = true ∧ '\n' ∉ line ∧ ∀ c ∈ line, c ∈ rows := by
  rw [rowLines_eq, List.mem_filter, List.mem_map] at h
  obtain ⟨⟨part, hpart, rfl⟩, hdata⟩ := h
  obtain ⟨front, hfront, heq⟩ := exists_trimLine part
  have hsubset (c : Char) (hc : c ∈ trimLine part) : c ∈ rows ∧ (c == '\n') = false := by
    rw [heq] at hc
    exact not_of_mem_splitWhere hpart
      ((infix_trim part).subset (hfront.subset ((infix_trim front).subset hc)))
  refine ⟨heq ▸ isTrimmed_trim front, hdata, fun hbreak => ?_, fun c hc => (hsubset c hc).1⟩
  have := (hsubset _ hbreak).2
  cases this

/-- Every line of data stays as it is when the rows escape nothing. -/
theorem isDataRow_of_mem_rowLines {rows : Text} (hrows : '\\' ∉ rows) {line : Text}
    (h : line ∈ rowLines rows) : IsDataRow line ∧ ∀ c ∈ line, c ∈ rows := by
  obtain ⟨htrim, hdata, hbreak, hsubset⟩ := line_of_mem_rowLines h
  exact ⟨⟨htrim, hdata, fun hc => hrows (hsubset _ hc), hbreak⟩, hsubset⟩

/-- Line feeds around rows make no difference. -/
theorem rowLines_between (rows : Text) : rowLines ('\n' :: rows ++ ['\n']) = rowLines rows := by
  rw [rowLines_append, ← List.nil_append ('\n' :: rows), rowLines_append]
  exact List.append_nil _

/-! ## The canonical text -/

section
variable {rows : Text}

theorem rowLines_normalizeRows (h : '\\' ∉ rows) : rowLines (normalizeRows rows) = rowLines rows :=
  rowLines_join fun _ hline => (isDataRow_of_mem_rowLines h hline).1

/-- Canonical rows stay as they are, also between line feeds. -/
theorem normalizeRows_between (h : '\\' ∉ rows) :
    normalizeRows ('\n' :: normalizeRows rows ++ ['\n']) = normalizeRows rows := by
  rw [normalizeRows, rowLines_between, rowLines_normalizeRows h]
  rfl

theorem normalizeRows_normalizeRows (h : '\\' ∉ rows) :
    normalizeRows (normalizeRows rows) = normalizeRows rows := by
  rw [normalizeRows, rowLines_normalizeRows h]
  rfl

/-- The characters of canonical rows are those of the rows, but for line feeds. -/
theorem mem_normalizeRows (h : '\\' ∉ rows) {c : Char} (hc : c ∈ normalizeRows rows) :
    c ∈ rows ∨ c = '\n' := by
  rcases mem_join hc with ⟨line, hline, hc⟩ | hc
  · exact Or.inl ((isDataRow_of_mem_rowLines h hline).2 c hc)
  · exact Or.inr (List.mem_singleton.mp hc)

end

/-- Whether a character neither starts a comment nor ends a row. -/
def isPlainData (c : Char) : Bool := c != '\\' && c != '%' && c != '#'

theorem ne_of_isPlainData {c : Char} (h : isPlainData c = true) : c ≠ '\\' ∧ c ≠ '%' ∧ c ≠ '#' := by
  simpa [isPlainData, and_assoc] using h

theorem unescaped_of_isPlainData {rows : Text} (h : rows.all isPlainData) : '\\' ∉ rows :=
  fun hmem => (ne_of_isPlainData (List.all_eq_true.mp h _ hmem)).1 rfl

/-- Rows without comments have their words in their canonical text. -/
theorem words_normalizeRows {rows : Text} (h : rows.all isPlainData) :
    words (normalizeRows rows) = words rows := by
  have hline {line : Text} (hline : line.all isPlainData) (hbreak : '\n' ∉ line) :
      (rowLines line).flatMap words = words line := by
    rw [rowLines_line hbreak, trimLine_of_unescaped (unescaped_of_isPlainData hline)]
    -- a blank line is left out and has no words
    cases htrim : trim line with
    | nil =>
      rw [← words_trim line, htrim]
      rfl
    | cons c rest =>
      have hc : c ∈ line := (infix_trim line).subset (by rw [htrim]; exact List.mem_cons_self)
      have hdata : isDataLine (c :: rest) = true := by
        have hne := ne_of_isPlainData (List.all_eq_true.mp hline c hc)
        simp [isDataLine, hne]
      rw [List.filter_cons_of_pos hdata, ← htrim, List.filter_nil, List.flatMap_singleton,
        words_trim]
  rw [normalizeRows, words_join]
  induction rows using lines_induction with
  | line line hbreak => exact hline h hbreak
  | more line rest hbreak ih =>
    rw [List.all_append, List.all_cons, Bool.and_eq_true, Bool.and_eq_true] at h
    rw [rowLines_append, List.flatMap_append, hline h.1 hbreak, ih h.2.2,
      words_append_cons (show isBlank '\n' = true from rfl)]

/-! ## What canonical rows keep -/

/-- A trimmed text that is one word has no blank. -/
theorem not_isBlank_of_words {text word : Text} (htrim : IsTrimmed text)
    (h : words text = [word]) : text = word ∧ ∀ c ∈ text, isBlank c = false := by
  have hnone : ∀ c ∈ text, isBlank c = false := by
    intro c hc
    rw [← Bool.not_eq_true]
    intro hblank
    obtain ⟨before, after, rfl⟩ := List.append_of_mem hc
    -- both ends of the text are no blanks, so there is a word on either side
    have hbefore : words before ≠ [] := by
      cases before with
      | nil =>
        have := htrim.1 c rfl
        rw [this] at hblank
        cases hblank
      | cons d before => exact words_ne_nil List.mem_cons_self (htrim.1 d rfl)
    have hafter : words after ≠ [] := by
      cases hlast : after.getLast? with
      | none =>
        rw [List.getLast?_eq_none_iff.mp hlast] at htrim
        have := htrim.2 c List.getLast?_concat
        rw [this] at hblank
        cases hblank
      | some d =>
        refine words_ne_nil (List.mem_of_getLast? hlast) (htrim.2 d ?_)
        rw [List.getLast?_append, List.getLast?_cons, hlast]
        rfl
    rw [words_append_cons hblank] at h
    have hlength := congrArg List.length h
    have := List.length_pos_iff.mpr hbefore
    have := List.length_pos_iff.mpr hafter
    simp at hlength
    omega
  have hne : text ≠ [] := by
    rintro rfl
    cases h
  rw [words_of_not_blank hne hnone] at h
  exact ⟨(List.cons.inj h).1, hnone⟩

/-- A text names a file when it is one word without a separator that is no number. -/
theorem isFileReference_iff {rows : Text} :
    isFileReference rows = true ↔ ∃ word, words rows = [word] ∧ ',' ∉ word ∧ ';' ∉ word ∧
      Decimal.readFloat? word = none := by
  have hany : (trim rows).any (fun c => isBlank c || c == ',' || c == ';') = false ↔
      (∀ c ∈ trim rows, isBlank c = false) ∧ ',' ∉ trim rows ∧ ';' ∉ trim rows := by
    rw [List.any_eq_false]
    constructor
    · intro h
      refine ⟨fun c hc => ?_, fun hc => h _ hc rfl, fun hc => h _ hc rfl⟩
      have := h c hc
      simp only [Bool.or_eq_true, not_or, Bool.not_eq_true] at this
      exact this.1.1
    · rintro ⟨hblank, hcomma, hsemicolon⟩ c hc
      simp only [hblank c hc, Bool.false_or, Bool.or_eq_true, beq_iff_eq, not_or]
      exact ⟨fun heq => hcomma (heq ▸ hc), fun heq => hsemicolon (heq ▸ hc)⟩
  simp only [isFileReference, Bool.and_eq_true, Bool.not_eq_true', hany, Option.isNone_iff_eq_none]
  rw [← words_trim rows]
  constructor
  · rintro ⟨⟨hne, hblank, hcomma, hsemicolon⟩, hnone⟩
    exact ⟨trim rows, words_of_not_blank (by simpa using hne) hblank, hcomma, hsemicolon, hnone⟩
  · rintro ⟨word, hwords, hcomma, hsemicolon, hnone⟩
    obtain ⟨rfl, hblank⟩ := not_isBlank_of_words (isTrimmed_trim rows) hwords
    refine ⟨⟨?_, hblank, hcomma, hsemicolon⟩, hnone⟩
    cases htrim : trim rows with
    | nil =>
      rw [htrim] at hwords
      cases hwords
    | cons => rfl

/-- Whether rows name a file depends on their words. -/
theorem isFileReference_congr {rows rows' : Text} (h : words rows = words rows') :
    isFileReference rows = isFileReference rows' := by
  rw [Bool.eq_iff_iff, isFileReference_iff, isFileReference_iff, h]

/-- Line feeds around rows do not decide whether these name a file. -/
theorem isFileReference_between (rows : Text) :
    isFileReference ('\n' :: rows ++ ['\n']) = isFileReference rows := by
  refine isFileReference_congr ?_
  rw [words_append_blanks (by decide)]
  exact words_blanks (show ['\n'].all isBlank from rfl) rows

/-- A control sequence is no number. -/
theorem readFloat?_controlSequence (name : Text) : Decimal.readFloat? ('\\' :: name) = none := by
  have hword : Decimal.readWord? ('\\' :: name) = none := by
    have hne {word : Text} (h : word.head? ≠ some '\\') : toLower ('\\' :: name) ≠ word := by
      rintro rfl
      exact h rfl
    rw [Decimal.readWord?, show Decimal.readSign ('\\' :: name) = (false, '\\' :: name) from rfl]
    simp only
    rw [if_neg (not_or.mpr ⟨hne (by decide), hne (by decide)⟩), if_neg (hne (by decide))]
  rw [Decimal.readFloat?, hword]
  rfl

/-- The name of a table names a file as well, as far as its form goes. -/
theorem isFileReference_of_tableName? {rows name : Text} (h : tableName? rows = some name) :
    isFileReference rows = true := by
  unfold tableName? at h
  split at h
  next word heq =>
    split at h
    next hname =>
      obtain ⟨-, hall⟩ := Bool.and_eq_true_iff.mp hname
      have hchar (c : Char) (hc : c ∈ '\\' :: word) : isBlank c = false ∧ c ≠ ',' ∧ c ≠ ';' := by
        rcases List.mem_cons.mp hc with rfl | hc
        · decide
        · have hc := List.all_eq_true.mp hall c hc
          refine ⟨?_, ?_, ?_⟩
          · rw [← Bool.not_eq_true]
            intro hblank
            simp only [isNameChar, Bool.or_eq_true, beq_iff_eq] at hc
            rcases hc with hc | rfl
            · have := hc.symm.trans (Source.not_isLetter_of_isBlank hblank)
              cases this
            · cases hblank
          · rintro rfl
            cases hc
          · rintro rfl
            cases hc
      refine isFileReference_iff.mpr ⟨'\\' :: word, ?_, fun hc => (hchar _ hc).2.1 rfl,
        fun hc => (hchar _ hc).2.2 rfl, readFloat?_controlSequence word⟩
      rw [← words_trim, heq]
      exact words_of_not_blank (List.cons_ne_nil _ _) fun c hc => (hchar c hc).1
    next => cases h
  next => cases h

theorem tableName?_eq_none {rows : Text} (h : isFileReference rows = false) :
    tableName? rows = none := by
  cases hname : tableName? rows with
  | none => rfl
  | some name =>
    rw [isFileReference_of_tableName? hname] at h
    cases h

/-- Whether a character occurs depends on the words, unless it is a blank. -/
theorem mem_iff_of_words {rows rows' : Text} (h : words rows = words rows') {c : Char}
    (hc : isBlank c = false) : c ∈ rows ↔ c ∈ rows' := by
  have hflat : rows.filter (fun c => !isBlank c) = rows'.filter (fun c => !isBlank c) := by
    rw [← flatten_words, ← flatten_words, h]
  have hmem : c ∈ rows.filter (fun c => !isBlank c) ↔ c ∈ rows'.filter (fun c => !isBlank c) := by
    rw [hflat]
  simpa [hc] using hmem

theorem isNested_normalizeRows {rows : Text} (h : rows.all isPlainData)
    (hnested : Source.IsNested rows) : Source.IsNested (normalizeRows rows) := by
  have hunescaped := unescaped_of_isPlainData h
  have hcanonical : '\\' ∉ normalizeRows rows := by
    intro hmem
    rcases mem_normalizeRows hunescaped hmem with hmem | hmem
    · exact hunescaped hmem
    · cases hmem
  -- delimiters are no blanks, and apart from blanks both texts are their words
  refine (Source.isNested_congr (p := fun c => !isBlank c) (fun c hc => ?_) hcanonical hunescaped
    ?_).mpr hnested
  · simp only [Source.isDelimiter, Bool.or_eq_true, beq_iff_eq] at hc
    rcases hc with ((rfl | rfl) | rfl) | rfl <;> rfl
  · rw [← flatten_words, ← flatten_words, words_normalizeRows h]

end Table

end TexFigure
