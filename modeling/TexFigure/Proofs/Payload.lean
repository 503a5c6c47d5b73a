import TexFigure.Chart.Read
import TexFigure.Proofs.ChartOptions
import TexFigure.Proofs.Coordinates
import TexFigure.Proofs.Spelling
/-!
# What a series plots is read back

The payload of a series reaches up to a semicolon outside all groups. The cut passes over groups
and over characters that mean nothing to it (`IsPassed`), so that it stops at the semicolon that
the writer has put there (`cutAtSemicolon_append`).

A function comes back in the spelling of a user, rows come back as their coordinates have them, in
their canonical form, or as the name of a file; `Kind.canonical` collects what comes back.
-/

namespace TexFigure.Chart

open Source

/-! ## The semicolon behind a payload -/

/-- Whether the cut at a semicolon passes over a text. -/
def IsPassed (text : Text) : Prop :=
  ∀ rest, cutAtSemicolon 0 false (text ++ rest) =
    (text ++ (cutAtSemicolon 0 false rest).1, (cutAtSemicolon 0 false rest).2)

theorem isPassed_nil : IsPassed [] := fun _ => rfl

theorem IsPassed.append {text text' : Text} (h : IsPassed text) (h' : IsPassed text') :
    IsPassed (text ++ text') := by
  intro rest
  rw [List.append_assoc, h, h', List.append_assoc]

/-- The cut stops at the semicolon behind what it passes over. -/
theorem cutAtSemicolon_append {text : Text} (h : IsPassed text) (after : Text) :
    cutAtSemicolon 0 false (text ++ ';' :: after) = (text, after) := by
  have hstop : cutAtSemicolon 0 false (';' :: after) = ([], after) := by
    rw [cutAtSemicolon, if_neg (by decide), if_neg (by decide), if_pos ⟨rfl, rfl⟩]
  rw [h, hstop, List.append_nil]

/-- The cut passes over a balanced text in braces, also inside parentheses. -/
theorem cutAtSemicolon_braced {text : Text} (h : IsBalanced text) (parens : Nat) (rest : Text) :
    cutAtSemicolon parens false (Text.braced text ++ rest) =
      (Text.braced text ++ (cutAtSemicolon parens false rest).1,
        (cutAtSemicolon parens false rest).2) := by
  have hcut : cutAtBrace 0 false ('{' :: (text ++ '}' :: rest)) = some ('{' :: text, rest) := by
    rw [cutAtBrace, if_neg (by decide)]
    show (cutAtBrace 1 false (text ++ '}' :: rest)).map _ = _
    rw [cutAtBrace_append h]
    rfl
  have htext : Text.braced text ++ rest = '{' :: (text ++ '}' :: rest) := by
    simp [Text.braced]
  rw [htext, cutAtSemicolon, if_pos rfl]
  split
  next hnone =>
    rw [hcut] at hnone
    cases hnone
  next inside after hsome =>
    rw [hcut] at hsome
    cases hsome
    simp [Text.braced]

/-- A semicolon in a group does not end a series. -/
theorem isPassed_braced {text : Text} (h : IsBalanced text) : IsPassed (Text.braced text) :=
  cutAtSemicolon_braced h 0

/-- The cut passes over a nested text in brackets, also inside parentheses. -/
theorem cutAtSemicolon_bracketed {text : Text} (h : IsNested text) (parens : Nat) (rest : Text) :
    cutAtSemicolon parens false (Text.bracketed text ++ rest) =
      (Text.bracketed text ++ (cutAtSemicolon parens false rest).1,
        (cutAtSemicolon parens false rest).2) := by
  have hcut : cutAtBracket 0 0 false ('[' :: (text ++ ']' :: rest)) = some ('[' :: text, rest) := by
    rw [cutAtBracket, if_neg (by decide)]
    show (cutAtBracket 1 0 false (text ++ ']' :: rest)).map _ = _
    rw [cutAtBracket_append h.isBracketContent]
    rfl
  have htext : Text.bracketed text ++ rest = '[' :: (text ++ ']' :: rest) := by
    simp [Text.bracketed]
  rw [htext, cutAtSemicolon, if_neg (by decide), if_pos rfl]
  split
  next hnone =>
    rw [hcut] at hnone
    cases hnone
  next inside after hsome =>
    rw [hcut] at hsome
    cases hsome
    simp [Text.bracketed]

/-- Nor does one in brackets. -/
theorem isPassed_bracketed {text : Text} (h : IsNested text) :
    IsPassed (Text.bracketed text) :=
  cutAtSemicolon_bracketed h 0

/-- Whether a character neither opens a group nor ends a series. -/
def isWordPart (c : Char) : Bool :=
  c != '{' && c != '[' && c != ';' && c != '(' && c != ')'

/-- The cut goes over a word character by character. All that matters behind the word is whether it
ends in an escape. -/
theorem cutAtSemicolon_word {text : Text} (h : text.all isWordPart) (escaped : Bool)
    (rest : Text) :
    cutAtSemicolon 0 escaped (text ++ rest) =
      (text ++ (cutAtSemicolon 0 (text.foldl escapes escaped) rest).1,
        (cutAtSemicolon 0 (text.foldl escapes escaped) rest).2) := by
  induction text generalizing escaped with
  | nil => rfl
  | cons c text ih =>
    obtain ⟨hc, htext⟩ := Bool.and_eq_true_iff.mp h
    simp only [isWordPart, Bool.and_eq_true, bne_iff_ne, ne_eq] at hc
    obtain ⟨⟨⟨⟨hbrace, hbracket⟩, hsemicolon⟩, hopen⟩, hclose⟩ := hc
    rw [List.cons_append, cutAtSemicolon, if_neg hbrace, if_neg hbracket,
      if_neg (fun h => hsemicolon h.1)]
    simp only [if_neg hopen, if_neg hclose, ih htext]
    rfl

/-- A text without delimiters that escapes nothing behind it is passed over. -/
theorem isPassed_word {text : Text} (h : text.all isWordPart)
    (hescape : text.foldl escapes false = false) : IsPassed text := by
  intro rest
  rw [cutAtSemicolon_word h, hescape]

theorem isPassed_closing : IsPassed (' ' :: closing) := isPassed_word (by decide) (by decide)

/-! ## Payloads -/

/-- A text that a series plots: it is passed over, it ends in a brace, and it is read. -/
structure IsPayload (text : Text) (payload : Payload) : Prop where
  passed : IsPassed text
  first : ∀ c ∈ text.head?, isBlank c = false ∧ c ≠ '['
  last : ∃ before, text = before ++ ['}']
  silent : IsSilent text
  read : readPayload? text = some payload

section
variable {text : Text} {payload : Payload}

theorem IsPayload.ne_nil (h : IsPayload text payload) : text ≠ [] := by
  obtain ⟨before, rfl⟩ := h.last
  simp

/-- A payload starts with no blank and ends in a brace. -/
theorem IsPayload.trimmed (h : IsPayload text payload) : Text.IsTrimmed text := by
  refine ⟨fun c hc => (h.first c hc).1, ?_⟩
  obtain ⟨before, rfl⟩ := h.last
  intro c hc
  rw [List.getLast?_concat] at hc
  cases hc
  rfl

/-- A payload is found between the options and the semicolon. -/
theorem trimPayload_payload (h : IsPayload text payload) : trimPayload (' ' :: text) = text := by
  have htrim : Text.trim (' ' :: text) = text := by
    have hblanks := Text.trim_blanks (show [' '].all isBlank from rfl)
      (show ([] : Text).all isBlank from rfl) text
    rw [List.append_nil, List.singleton_append] at hblanks
    rw [hblanks, Text.trim_eq_self h.trimmed]
  obtain ⟨before, hlast⟩ := h.last
  -- the last character is a brace, so the text does not close an area
  have hclosing : closing.isSuffixOf text = false := by
    rw [Bool.eq_false_iff, ne_eq, List.isSuffixOf_iff_suffix]
    rintro ⟨s, hs⟩
    have hend := congrArg List.getLast? (hs.trans hlast)
    rw [List.getLast?_append, List.getLast?_concat] at hend
    cases hend
  rw [trimPayload, htrim]
  exact if_neg (by rw [hclosing]; exact Bool.false_ne_true)

/-- The payload of an area is found between the options and the command that closes the area. -/
theorem trimPayload_area (h : IsPayload text payload) :
    trimPayload (' ' :: (text ++ ' ' :: closing)) = text := by
  have htrim : Text.trim (' ' :: (text ++ ' ' :: closing)) = text ++ ' ' :: closing := by
    have hblanks := Text.trim_blanks (show [' '].all isBlank from rfl)
      (show ([] : Text).all isBlank from rfl) (text ++ ' ' :: closing)
    rw [List.append_nil, List.singleton_append] at hblanks
    rw [hblanks]
    have hlast : Text.IsTrimmed closing := by decide
    exact Text.trim_eq_self
      (Text.isTrimmed_append h.trimmed.1 hlast.2 h.ne_nil (List.cons_ne_nil _ _))
  have hclosing : closing.isSuffixOf (text ++ ' ' :: closing) = true :=
    List.isSuffixOf_iff_suffix.mpr ⟨text ++ [' '], by simp⟩
  have htake : (text ++ ' ' :: closing).take ((text ++ ' ' :: closing).length - closing.length) =
      text ++ [' '] := by
    have hlength : (text ++ ' ' :: closing).length - closing.length = (text ++ [' ']).length := by
      simp
      omega
    rw [hlength, show text ++ ' ' :: closing = (text ++ [' ']) ++ closing by simp,
      List.take_left]
  have hblanks := Text.trim_blanks (show ([] : Text).all isBlank from rfl)
    (show [' '].all isBlank from rfl) text
  rw [List.nil_append] at hblanks
  rw [trimPayload, htrim]
  show (if closing.isSuffixOf (text ++ ' ' :: closing) then _ else _) = _
  rw [if_pos hclosing, htake, hblanks, Text.trim_eq_self h.trimmed]

end

/-! ## Functions -/

/-- What is written of a function; a blank one is written as zero. -/
def functionText (expression : Text) : Text :=
  if (Text.trim expression).isEmpty then "0" else Text.trim expression

/-- What is plotted is the expression, trimmed, or zero for a blank one. -/
theorem functionText_cases (expression : Text) :
    functionText expression = "0" ∨
      functionText expression = Text.trim expression ∧ Text.isBlankText expression = false := by
  unfold functionText
  split
  next => exact Or.inl rfl
  next h =>
    rw [Text.isEmpty_trim, Bool.not_eq_true] at h
    exact Or.inr ⟨rfl, h⟩

theorem isTrimmed_functionText (expression : Text) : Text.IsTrimmed (functionText expression) := by
  rcases functionText_cases expression with h | ⟨h, -⟩ <;> rw [h]
  · decide
  · exact Text.isTrimmed_trim expression

theorem functionText_ne_nil (expression : Text) : functionText expression ≠ [] := by
  rcases functionText_cases expression with h | ⟨h, hblank⟩ <;> rw [h]
  · decide
  · rw [ne_eq, Text.trim_eq_nil_iff, hblank]
    exact Bool.false_ne_true

/-- Zero is quiet, so that a blank expression makes no exception. -/
theorem isQuiet_functionText {expression : Text} (h : IsQuiet (Text.trim expression)) :
    IsQuiet (functionText expression) := by
  rcases functionText_cases expression with heq | ⟨heq, -⟩ <;> rw [heq]
  · exact isQuiet_of_plain (by decide)
  · exact h

theorem toCode_zero : Expression.toCode "0" = "0".toList := by
  show Expression.mapCalls _ ['0'] = ['0']
  rw [Expression.mapCalls_cons rfl, Expression.mapCalls_nil]

/-- A function is written in braces, in the spelling of code. -/
theorem writeFunction_eq (expression : Text) :
    writeFunction expression = Text.braced (Expression.toCode (functionText expression)) := by
  unfold writeFunction functionText
  simp only
  split
  next => rw [toCode_zero]
  next => rfl

/-- The function that is read back. -/
def shownFunction (expression : Text) : Text :=
  Expression.toUser (Expression.toCode (functionText expression))

theorem shownFunction_ne_nil (expression : Text) : shownFunction expression ≠ [] := by
  rw [ne_eq, ← List.isEmpty_iff, shownFunction, Expression.toUser, Expression.isEmpty_respell,
    Expression.toCode, Expression.isEmpty_respell, List.isEmpty_iff]
  exact functionText_ne_nil expression

/-- The code of a quiet expression is quiet. -/
theorem isQuiet_toCode {text : Text} (h : IsQuiet text) : IsQuiet (Expression.toCode text) := by
  refine ⟨Expression.isNested_toCode h.nested, fun hin => h.silent.1 ?_, fun hin => h.silent.2 ?_⟩
  · have hphrase : Expression.IsForeign ('\\' :: "end\x7baxis\x7d".toList) :=
      ⟨by decide, by decide, fun c hc => by cases hc; decide⟩
    exact Expression.infix_of_infix_respell_code hphrase 256 hin
  · have hphrase : Expression.IsForeign ('\\' :: "pgfplotstableread".toList) :=
      ⟨by decide, by decide, fun c hc => by cases hc; decide⟩
    exact Expression.infix_of_infix_respell_code hphrase 256 hin

/-- A function is read in the spelling of a user. -/
theorem isPayload_function {expression : Text} (h : IsQuiet (Text.trim expression)) :
    IsPayload (writeFunction expression) (.function (shownFunction expression)) := by
  have hcode := isQuiet_toCode (isQuiet_functionText h)
  have htrim : Text.trim (Expression.toCode (functionText expression)) =
      Expression.toCode (functionText expression) :=
    Text.trim_eq_self (Expression.isTrimmed_respell .code 256 (isTrimmed_functionText expression))
  rw [writeFunction_eq]
  refine ⟨isPassed_braced hcode.nested.isBalanced, by simp [Text.braced, isBlank], ⟨_, rfl⟩,
    hcode.braced.silent, ?_⟩
  have hcontent : contentOrAll (Text.braced (Expression.toCode (functionText expression))) =
      Expression.toCode (functionText expression) :=
    congrArg Prod.fst (braceContent_append hcode.nested.isBalanced [])
  -- a text in braces starts with none of the keywords of rows
  have hkeyword {word : Text} (hword : word.head? ≠ some '{') (hne : word ≠ []) :
      word.isPrefixOf? (Text.braced (Expression.toCode (functionText expression))) = none := by
    refine Text.isPrefixOf?_eq_none fun hprefix => hword ?_
    obtain ⟨c, rest, rfl⟩ := List.exists_cons_of_ne_nil hne
    rw [(List.cons_prefix_cons.mp hprefix).1]
    rfl
  rw [readPayload?, hkeyword (by decide) (by decide), hkeyword (by decide) (by decide)]
  simp only [hcontent, htrim]
  exact if_neg fun hempty => shownFunction_ne_nil expression (List.isEmpty_iff.mp hempty)

/-! ## Rows -/

section
variable {data : Data}

/-- Whether rows are written as coordinates. -/
def Data.isCoordinates (data : Data) : Bool :=
  data.xColumn.isEmpty && data.yColumn.isEmpty && !Table.isFileReference data.rows

/-- Rows that are written as coordinates name no file. -/
theorem Data.not_isFileReference (h : data.isCoordinates = true) :
    Table.isFileReference data.rows = false := by
  simp only [Data.isCoordinates, Bool.and_eq_true, Bool.not_eq_true'] at h
  exact h.2

/-- What stands between the braces of a table. -/
def tableContent (data : Data) : Text :=
  if Table.isFileReference data.rows then Text.trim data.rows
  else '\n' :: Table.normalizeRows data.rows ++ ['\n']

/-- Rows are written as coordinates when no column is selected and they are no file, and else as a
table with its options. -/
theorem writeRows_eq (data : Data) :
    writeRows data =
      if data.isCoordinates then
        "coordinates " ++ Text.braced (Table.formatCoordinates data.rows data.hasHeader)
      else
        "table" ++ writeOptions (tableOptions data) ++ ' ' :: Text.braced (tableContent data) := by
  have hiff : (data.xColumn.isEmpty = true ∧ data.yColumn.isEmpty = true ∧
      Table.isFileReference data.rows = false) ↔ data.isCoordinates = true := by
    simp [Data.isCoordinates, and_assoc]
  unfold writeRows
  simp only [hiff]
  rfl

/-- Rows that are read back: what they are written as has groups of its own. -/
structure Data.IsSound (data : Data) : Prop where
  xColumn : IsQuiet (Text.trim data.xColumn) ∧ IsSelector data.xColumn
  yColumn : IsQuiet (Text.trim data.yColumn) ∧ IsSelector data.yColumn
  file : Table.isFileReference data.rows = true → IsQuiet (Text.trim data.rows)
  coordinates : data.isCoordinates = true →
    ∃ pairs : List Table.Pair, (∀ pair ∈ pairs, Table.IsPair pair) ∧
      Table.formatCoordinates data.rows data.hasHeader =
        Text.join [' '] (pairs.map Table.Pair.coordinate) ∧
      IsBalanced (Table.formatCoordinates data.rows data.hasHeader)
  table : Table.isFileReference data.rows = false → data.isCoordinates = false →
    data.rows.all Table.isPlainData ∧ IsNested data.rows

/-- What a series of rows plots. -/
def Data.payload (data : Data) : Payload :=
  if data.isCoordinates then .coordinates (Table.formatCoordinates data.rows data.hasHeader)
  else .table (Text.join ", " (tableOptions data)) (tableContent data)

/-- Coordinates are read behind their keyword. -/
theorem isPayload_coordinates {body : Text} (hbalanced : IsBalanced body) (hbody : '\\' ∉ body) :
    IsPayload ("coordinates " ++ Text.braced body) (.coordinates body) := by
  have hfront : IsPassed "coordinates ".toList := isPassed_word (by decide) (by decide)
  refine ⟨hfront.append (isPassed_braced hbalanced), by simp [isBlank],
    ⟨"coordinates ".toList ++ '{' :: body, by simp [Text.braced]⟩, ?_, ?_⟩
  · refine isSilent_of_unescaped ?_
    simp [Text.braced, hbody]
  · have hprefix : "coordinates".toList.isPrefixOf? ("coordinates ".toList ++ Text.braced body) =
        some (' ' :: Text.braced body) :=
      Text.isPrefixOf?_append "coordinates".toList (' ' :: Text.braced body)
    have hgroup : nextGroup? false (' ' :: Text.braced body) = some (body, []) := by
      show (afterOpenBrace? false (' ' :: '{' :: (body ++ ['}']))).map braceContent = _
      rw [afterOpenBrace?, if_neg (by decide), afterOpenBrace?, if_pos ⟨rfl, rfl⟩, Option.map_some,
        braceContent_append hbalanced]
    rw [readPayload?, hprefix]
    simp only [hgroup]
    rfl

/-- Options in brackets, or none, are found in front of what follows them behind a blank. -/
theorem brackets?_writeOptions {options : List Text} (h : IsNested (Text.join ", " options))
    {after : Text} (hafter : brackets? (' ' :: after) = none) :
    ((brackets? (writeOptions options ++ ' ' :: after)).map (·.1)).getD [] =
        Text.join ", " options ∧
      afterBrackets (writeOptions options ++ ' ' :: after) = ' ' :: after := by
  unfold writeOptions
  split
  next hempty =>
    rw [List.isEmpty_iff.mp hempty, List.nil_append, afterBrackets, hafter]
    exact ⟨rfl, rfl⟩
  next =>
    rw [afterBrackets, brackets?_bracketed h.isBracketContent]
    exact ⟨rfl, rfl⟩

/-- A text that starts with a brace behind a blank has no bracket group in front. -/
theorem brackets?_brace (text : Text) : brackets? (' ' :: Text.braced text) = none := rfl

/-- A table is read with its options and its content. -/
theorem isPayload_table {options : List Text} (hquiet : IsQuiet (Text.join ", " options))
    {content : Text} (hcontent : IsQuiet content) :
    IsPayload ("table" ++ writeOptions options ++ ' ' :: Text.braced content)
      (.table (Text.join ", " options) content) := by
  have hpassed : IsPassed (writeOptions options) := by
    unfold writeOptions
    split
    next => exact isPassed_nil
    next => exact isPassed_bracketed hquiet.nested
  have hsilent : IsQuiet (writeOptions options) := by
    unfold writeOptions
    split
    next => exact isQuiet_nil
    next => exact hquiet.bracketed
  have hfront : IsPassed "table".toList := isPassed_word (by decide) (by decide)
  have hblank : IsPassed [' '] := isPassed_word (by decide) (by decide)
  refine ⟨?_, by simp [isBlank],
    ⟨"table".toList ++ writeOptions options ++ ' ' :: '{' :: content, ?_⟩, ?_, ?_⟩
  · exact (hfront.append hpassed).append
      (hblank.append (isPassed_braced hcontent.nested.isBalanced))
  · simp [Text.braced]
  · exact ((hsilent.behind (show "table".toList.all isPlain by decide)).append_cons (c := ' ') rfl
      hcontent.braced).silent
  · obtain ⟨hread, hafter⟩ := brackets?_writeOptions hquiet.nested (brackets?_brace content)
    have hgroup : group? (' ' :: Text.braced content) = some (content, []) := by
      have h := group?_braced hcontent.nested.isBalanced []
      rw [List.append_nil] at h
      rw [group?_blank rfl, h]
    have htable : "table".toList.isPrefixOf?
        ("table".toList ++ writeOptions options ++ ' ' :: Text.braced content) =
          some (writeOptions options ++ ' ' :: Text.braced content) := by
      rw [List.append_assoc]
      exact Text.isPrefixOf?_append _ _
    have hother : "coordinates".toList.isPrefixOf?
        ("table".toList ++ writeOptions options ++ ' ' :: Text.braced content) = none := by
      refine Text.isPrefixOf?_eq_none fun hprefix => ?_
      cases (List.cons_prefix_cons.mp hprefix).1
    rw [readPayload?, hother, htable]
    simp only [hread, hafter, hgroup]
    rfl

/-- The content of a table is quiet. -/
theorem isQuiet_tableContent
    (hfile : Table.isFileReference data.rows = true → IsQuiet (Text.trim data.rows))
    (htable : Table.isFileReference data.rows = false →
      data.rows.all Table.isPlainData ∧ IsNested data.rows) : IsQuiet (tableContent data) := by
  unfold tableContent
  split
  next h => exact hfile h
  next h =>
    obtain ⟨hplain, hnested⟩ := htable (Bool.not_eq_true _ ▸ h)
    have hrows : IsQuiet (Table.normalizeRows data.rows) := by
      refine ⟨Table.isNested_normalizeRows hplain hnested, isSilent_of_unescaped fun hmem => ?_⟩
      have hunescaped := Table.unescaped_of_isPlainData hplain
      rcases Table.mem_normalizeRows hunescaped hmem with hmem | hmem
      · exact hunescaped hmem
      · cases hmem
    exact @IsQuiet.behind ['\n'] _ rfl (hrows.append_cons (c := '\n') rfl isQuiet_nil)

/-- Rows are read as they are written. -/
theorem isPayload_rows (h : data.IsSound) : IsPayload (writeRows data) data.payload := by
  rw [writeRows_eq, Data.payload]
  cases hcoordinates : data.isCoordinates with
  | true =>
    obtain ⟨pairs, hpairs, heq, hbalanced⟩ := h.coordinates hcoordinates
    exact isPayload_coordinates hbalanced (heq ▸ Table.unescaped_coordinates hpairs)
  | false =>
    have hkeeps := keeps_tableOptions h.xColumn.1 h.yColumn.1 h.xColumn.2 h.yColumn.2
    exact isPayload_table (isQuiet_join hkeeps.quiet)
      (isQuiet_tableContent h.file fun hfile => h.table hfile hcoordinates)

/-! ## What comes back -/

/-- The rows that are read back. -/
def Data.canonical (data : Data) : Data :=
  if data.isCoordinates then
    ⟨data.dataType,
      Table.parseCoordinates (Table.formatCoordinates data.rows data.hasHeader), [], [], false⟩
  else
    ⟨data.dataType,
      if Table.isFileReference data.rows then Text.trim data.rows
      else Table.normalizeRows data.rows,
      Text.trim data.xColumn, Text.trim data.yColumn, data.hasHeader⟩

/-- No table is defined anywhere. -/
def noTables : Tables := ⟨[], []⟩

/-- The rows of a text that is no name are its own. -/
theorem tableRows_of_no_name {content : Text} (h : Table.tableName? content = none)
    (tables : Tables) :
    tableRows tables content =
      (if Table.isFileReference content then Text.trim content else Table.normalizeRows content,
        none) := by
  rw [tableRows, h]
  simp only
  split <;> rfl

/-- The content of a table comes back as rows, or as the name of a table that is missing. -/
theorem tableRows_tableContent
    (hplain : Table.isFileReference data.rows = false → data.rows.all Table.isPlainData) :
    tableRows noTables (tableContent data) =
      (if Table.isFileReference data.rows then Text.trim data.rows
        else Table.normalizeRows data.rows,
        Table.tableName? data.rows) := by
  unfold tableContent
  split
  next hfile =>
    have hname : Table.tableName? (Text.trim data.rows) = Table.tableName? data.rows := by
      rw [Table.tableName?, Table.tableName?, Text.trim_trim]
    -- a name that is missing and the name of a file both come back as they stand
    have hfile' : Table.isFileReference (Text.trim data.rows) = true := by
      rw [← hfile]
      exact Table.isFileReference_congr (Text.words_trim data.rows)
    rw [tableRows, hname]
    cases Table.tableName? data.rows with
    | none =>
      simp only [hfile', Text.trim_trim]
      rfl
    | some name =>
      simp only [Text.trim_trim]
      rfl
  next hfile =>
    rw [Bool.not_eq_true] at hfile
    have hplain := hplain hfile
    -- canonical rows name a file only when the rows do
    have hfile' : Table.isFileReference ('\n' :: Table.normalizeRows data.rows ++ ['\n']) =
        false := by
      rw [Table.isFileReference_between, ← hfile]
      exact Table.isFileReference_congr (Table.words_normalizeRows hplain)
    rw [tableRows_of_no_name (Table.tableName?_eq_none hfile'), Table.tableName?_eq_none hfile,
      hfile', Table.normalizeRows_between (Table.unescaped_of_isPlainData hplain)]
    rfl

end

/-- What a series is read back as drawing. -/
def Kind.canonical : Kind → Kind
  | .curve c => .curve ⟨shownFunction c.expression, c.domain, max c.samples 1⟩
  | .surface s =>
    .surface ⟨shownFunction s.expression, s.domainX, s.domainY, max s.samples 1, s.plotStyle,
      Text.trim s.colormap⟩
  | .data d => .data d.canonical

/-- The names of tables that are looked up for a series. -/
def Kind.tableNames : Kind → List Text
  | .data d => (Table.tableName? d.rows).toList
  | _ => []

/-- What a series plots. -/
def Kind.payload : Kind → Payload
  | .curve c => .function (shownFunction c.expression)
  | .surface s => .function (shownFunction s.expression)
  | .data d => d.payload

/-- Whether a series draws on a surface. -/
def Kind.isSurface : Kind → Bool
  | .surface _ => true
  | _ => false

/-- The options that are read back for a series. -/
def Series.keptOptions (series : Series) : SeriesOptions :=
  match series.kind with
  | .curve curve =>
    { style := series.style.kept, domain := some curve.domain,
      samples := some (max curve.samples 1) }
  | .surface surface =>
    { style := series.style.kept, surface := some surface.plotStyle,
      domain := some surface.domainX, yDomain := some surface.domainY,
      samples := some (max surface.samples 1), colormap := Text.trim surface.colormap }
  | .data data =>
    { style := series.style.kept,
      dataType := if data.dataType = .line then none else some data.dataType }

/-- A kind that is read back. -/
def Kind.IsSound : Kind → Prop
  | .curve c =>
    IsQuiet (Text.trim c.expression) ∧ IsExact c.domain ∧ c.samples < Nat.pow 2 32
  | .surface s =>
    IsQuiet (Text.trim s.expression) ∧ IsExact s.domainX ∧ IsExact s.domainY ∧
      s.samples < Nat.pow 2 32 ∧ IsQuiet (Text.trim s.colormap) ∧ ',' ∉ s.colormap ∧
      '=' ∉ s.colormap
  | .data d => d.IsSound

/-- A series that is read back. -/
structure Series.IsSound (series : Series) : Prop where
  style : ∀ text ∈ series.style.values, IsQuiet (Text.trim text)
  kind : series.kind.IsSound

/-- The flag that selects a way of drawing data is read back; a line has none. -/
theorem keeps_dataType (dataType : DataType) :
    Keeps SeriesOptions.addOption {} dataType.flags
      { dataType := if dataType = .line then none else some dataType } := by
  cases dataType with
  | line => exact .nil
  | scatter => exact keeps_flag (by decide) rfl
  | bar => exact keeps_flag (by decide) rfl
  | area => exact keeps_flag (by decide) rfl

/-- The options of a series are read back. -/
theorem keeps_seriesOptions {series : Series} (h : series.IsSound) :
    Keeps SeriesOptions.addOption {} (seriesParts series).2.1 series.keptOptions := by
  obtain ⟨id, style, kind⟩ := series
  obtain ⟨hstyle, hkind⟩ := h
  cases kind with
  | curve curve =>
    obtain ⟨-, hdomain, hsamples⟩ := hkind
    have hoptions : Keeps SeriesOptions.addOption {} (styleOptions style)
        { style := style.kept } := keeps_styleOptions hstyle rfl
    exact hoptions.append ((keeps_domain hdomain).append (keeps_samples hsamples))
  | surface surface =>
    obtain ⟨-, hdomainX, hdomainY, hsamples, hcolormap, hchars⟩ := hkind
    have hflag : Keeps SeriesOptions.addOption {} [surface.plotStyle.keyword]
        { surface := some surface.plotStyle } := by
      refine keeps_flag ?_ ?_ <;> cases surface.plotStyle
      · decide
      · decide
      · rfl
      · rfl
    have hfunction := ((hflag.append (keeps_styleOptions hstyle rfl)).append
      ((keeps_domain hdomainX).append ((keeps_yDomain hdomainY).append
        (keeps_samples hsamples)))).append (keeps_colormap hcolormap hchars rfl)
    exact hfunction
  | data data => exact (keeps_dataType data.dataType).append (keeps_styleOptions hstyle rfl)

/-- Lines have no flag, and are what is read without one. -/
theorem getD_dataType (dataType : DataType) :
    (if dataType = .line then none else some dataType).getD .line = dataType := by
  cases dataType <;> rfl

/-- What is read of a series, and the names of the tables that are missing for it. -/
theorem kindOf_payload {series : Series} (h : series.IsSound) (place : Loss.Place) :
    kindOf noTables place series.kind.isSurface series.keptOptions series.kind.payload =
      (series.kind.canonical, lossesOf .unresolvedTable place series.kind.tableNames) := by
  obtain ⟨id, style, kind⟩ := series
  obtain ⟨-, hkind⟩ := h
  cases kind with
  | curve curve => rfl
  | surface surface => rfl
  | data data =>
    have hsound : data.IsSound := hkind
    have htype := getD_dataType data.dataType
    show kindOf noTables place false _ data.payload =
      (.data data.canonical, lossesOf .unresolvedTable place (Table.tableName? data.rows).toList)
    rw [Data.payload, Data.canonical]
    cases hcoordinates : data.isCoordinates with
    | true =>
      rw [Table.tableName?_eq_none (Data.not_isFileReference hcoordinates)]
      show (Kind.ofRows ((if _ then _ else _ : Option DataType).getD .line) _, []) = _
      rw [htype]
      rfl
    | false =>
      have hkeeps := keeps_tableOptions hsound.xColumn.1 hsound.yColumn.1 hsound.xColumn.2
        hsound.yColumn.2
      simp only [Bool.false_eq_true, if_false, kindOf, hkeeps.readOptions_join,
        tableRows_tableContent fun hfile => (hsound.table hfile hcoordinates).1]
      rw [show lossesOf .unknownOption place [] = [] from rfl, List.nil_append]
      exact congrArg (fun t => (Kind.data ⟨t, _, _, _, _⟩, _)) htype

end TexFigure.Chart
