import TexFigure.Proofs.Bounds
import TexFigure.Proofs.FixedCoordinates
import TexFigure.Proofs.Noise
import TexFigure.Proofs.Selectors
/-!
# Series whose groups do not close

A series is read up to the semicolon behind its payload when the groups of the payload close. They
need not. Coordinates keep two cells of a row, and one of them can open a group that a dropped cell
closes, or the other way round; and the options of a table can escape what closes them.

A group that is not closed takes in the rest of the axis, and one that is closed too early leaves
the end of its payload to the statements behind it. `IsReadAs` says what the series is read as in
each case, and that nothing behind it means anything to a chart.
-/

namespace TexFigure

namespace Source

/-! ## Cuts that find no end -/

theorem cutAtBrace_eq_none {text : Text} (h : '}' ∉ text) (depth : Nat) (escaped : Bool) :
    cutAtBrace depth escaped text = none := by
  induction text generalizing depth escaped with
  | nil => rfl
  | cons c rest ih =>
    rw [List.mem_cons, not_or] at h
    rw [cutAtBrace, if_neg fun hc => h.1 hc.2.2.symm, ih h.2]
    rfl

/-- A brace behind a text that leaves a group open, or escapes the brace, does not close the group
around both. -/
theorem cutAtBrace_unclosed {text after : Text} {final : Nat × Bool}
    (hwalk : walk? braceStep 0 false text = some final) (hopen : ¬IsBalanced text)
    (hafter : '}' ∉ after) : cutAtBrace 1 false (text ++ '}' :: after) = none := by
  have hfinal : ¬(final.1 + 1 = 1 ∧ final.2 = false ∧ '}' = '}') := by
    rintro ⟨hdepth, hescaped, -⟩
    refine hopen (hwalk.trans ?_)
    exact congrArg some (Prod.ext (by omega) hescaped)
  have hcut := cutAtBrace_walk hwalk ('}' :: after)
  rw [cutAtBrace, if_neg hfinal, cutAtBrace_eq_none hafter] at hcut
  exact hcut

/-- A group in braces leaves the brackets around it alone. -/
theorem walk?_bracketStep_braced {content : Text} (h : IsBalanced content) (groups : Nat × Nat) :
    walk? bracketStep groups false (Text.braced content) = some (groups, false) := by
  obtain ⟨braces, brackets⟩ := groups
  have hstep {depth : Nat} {escaped : Bool} {c : Char} {next : Nat}
      (hstep : braceStep depth escaped c = some next) :
      bracketStep (depth + (braces + 1), brackets) escaped c =
        some (next + (braces + 1), brackets) := by
    unfold braceStep at hstep
    unfold bracketStep
    grind
  have hinside := walk?_follow (fun depth : Nat => (depth + (braces + 1), brackets)) hstep h
  rw [Nat.zero_add] at hinside
  show walk? bracketStep (braces + 1, brackets) false (content ++ ['}']) = _
  rw [walk?_append, hinside]
  rfl

/-- A bracket behind a text that leaves a brace group open, or escapes the bracket, does not close
the brackets around both, and nothing does behind it when there is no other outside braces. -/
theorem cutAtBracket_unclosed {text content after : Text} {final : List Char × Bool}
    (hwalk : walk? nestStep [] false text = some final) (hfinal : final.1 = [] ∨ '}' ∈ final.1)
    (hopen : ¬IsNested text) (hcontent : IsBalanced content)
    (hafter : ∀ c ∈ after, isDelimiter c = false) :
    cutAtBracket 1 0 false (text ++ ']' :: ' ' :: (Text.braced content ++ after)) = none := by
  have htext : walk? bracketStep (0, 0) false text =
      some ((final.1.count '}', openBrackets final.1), final.2) :=
    walk?_follow (fun awaited : List Char => (awaited.count '}', openBrackets awaited))
      bracketStep_of_nestStep hwalk
  obtain ⟨groups, hbracket⟩ : ∃ groups,
      bracketStep (final.1.count '}', openBrackets final.1) final.2 ']' = some groups := by
    obtain ⟨awaited, escaped⟩ := final
    rcases hfinal with rfl | hmem
    · -- without an open group it is the escape that keeps the text from nesting
      cases escaped with
      | false => exact absurd hwalk hopen
      | true => exact ⟨_, rfl⟩
    · have hcount : awaited.count '}' ≠ 0 := List.count_pos_iff.mpr hmem |>.ne'
      refine ⟨(awaited.count '}', openBrackets awaited), ?_⟩
      simp [bracketStep, hcount]
  obtain ⟨escaped, hlast⟩ : ∃ escaped,
      walk? bracketStep groups false after = some (groups, escaped) := by
    refine walk?_of_still (fun c hc e => ?_) false
    have hplain := hafter c hc
    simp only [isDelimiter, Bool.or_eq_false_iff, beq_eq_false_iff_ne] at hplain
    simp [bracketStep, hplain]
  have hblank : bracketStep groups false ' ' = some groups := by
    simp [bracketStep]
  have hbehind : walk? bracketStep groups false (Text.braced content ++ after) =
      some (groups, escaped) := by
    rw [walk?_append, walk?_bracketStep_braced hcontent]
    exact hlast
  have hwhole : walk? bracketStep (0, 0) false
      (text ++ ']' :: ' ' :: (Text.braced content ++ after)) = some (groups, escaped) := by
    rw [walk?_append, htext]
    exact walk?_cons_eq_some.mpr ⟨groups, hbracket,
      walk?_cons_eq_some.mpr ⟨groups, hblank, hbehind⟩⟩
  have hcut := cutAtBracket_walk hwhole []
  rwa [List.append_nil] at hcut

/-- What stands behind the options of a table has no comma outside groups, however many are open. -/
theorem exists_walk_behind {content after : Text} (hcontent : IsNested content)
    (hafter : ∀ c ∈ after, isDelimiter c = false ∧ c ≠ ',') (depth : Nat) (escaped : Bool) :
    ∃ final, walk? (depthStep ',') depth escaped (']' :: ' ' :: (Text.braced content ++ after)) =
      some final := by
  have hstep (depth : Nat) (escaped : Bool) {c : Char} (hc : c ≠ ',') :
      depthStep ',' depth escaped c = some (groupDepth depth escaped c) := by
    rw [depthStep, if_neg fun h => hc h.2.1]
  have hbraced (depth : Nat) :
      walk? (depthStep ',') depth false (Text.braced content) = some (depth, false) := by
    have hitems : walk? (itemStep ',') ('}' :: List.replicate depth '}') false content =
        some ([] ++ '}' :: List.replicate depth '}', false) :=
      walk?_itemStep_inside hcontent '}' (List.replicate depth '}')
    have hinside := walk?_depthStep hitems
    rw [List.nil_append, List.length_cons, List.length_replicate] at hinside
    refine walk?_cons_eq_some.mpr ⟨depth + 1, hstep depth false (by decide), ?_⟩
    show walk? (depthStep ',') (depth + 1) false (content ++ ['}']) = _
    rw [walk?_append, hinside]
    show walk? (depthStep ',') (depth + 1) false ['}'] = some (depth, false)
    exact walk?_cons_eq_some.mpr ⟨depth, hstep (depth + 1) false (by decide), rfl⟩
  obtain ⟨escaped', hlast⟩ : ∃ escaped', walk? (depthStep ',') (groupDepth depth escaped ']') false
      after = some (groupDepth depth escaped ']', escaped') := by
    refine walk?_of_still (fun c hc e => ?_) false
    obtain ⟨hdelimiter, hcomma⟩ := hafter c hc
    rw [hstep _ e hcomma]
    simp only [isDelimiter, Bool.or_eq_false_iff, beq_eq_false_iff_ne] at hdelimiter
    simp [groupDepth, hdelimiter]
  have hbehind : walk? (depthStep ',') (groupDepth depth escaped ']') false
      (Text.braced content ++ after) = some (groupDepth depth escaped ']', escaped') := by
    rw [walk?_append, hbraced]
    exact hlast
  have hblank : depthStep ',' (groupDepth depth escaped ']') false ' ' =
      some (groupDepth depth escaped ']') := hstep _ false (by decide)
  exact ⟨_, walk?_cons_eq_some.mpr ⟨_, hstep depth escaped (by decide),
    walk?_cons_eq_some.mpr ⟨_, hblank, hbehind⟩⟩⟩

end Source

namespace Chart

open Source

/-! ## The rest of an axis -/

/-- A brace group that never closes takes in the rest of the text. -/
theorem cutAtSemicolon_brace {rest : Text} (h : cutAtBrace 1 false rest = none) (parens : Nat) :
    cutAtSemicolon parens false ('{' :: rest) = ('{' :: rest, []) := by
  have hcut : cutAtBrace 0 false ('{' :: rest) = none := by
    rw [cutAtBrace, if_neg (by decide)]
    exact Option.map_eq_none_iff.mpr h
  rw [cutAtSemicolon, if_pos rfl]
  split
  next => rfl
  next hsome =>
    rw [hcut] at hsome
    cases hsome

/-- A bracket group that never closes takes in the rest of the text. -/
theorem cutAtSemicolon_bracket {rest : Text} (h : cutAtBracket 1 0 false rest = none)
    (parens : Nat) : cutAtSemicolon parens false ('[' :: rest) = ('[' :: rest, []) := by
  have hcut : cutAtBracket 0 0 false ('[' :: rest) = none := by
    rw [cutAtBracket, if_neg (by decide)]
    exact Option.map_eq_none_iff.mpr h
  rw [cutAtSemicolon, if_neg (by decide), if_pos rfl]
  split
  next => rfl
  next hsome =>
    rw [hcut] at hsome
    cases hsome

/-- What is plotted keeps its semicolon where the series did not end there. -/
theorem trimPayload_semicolon {text : Text} (hfirst : ∀ c ∈ text.head?, isBlank c = false) :
    trimPayload (' ' :: (text ++ ";\n".toList)) = text ++ [';'] := by
  have htrim : Text.trim (' ' :: (text ++ ";\n".toList)) = text ++ [';'] := by
    have htext : text ++ ";\n".toList = (text ++ [';']) ++ ['\n'] := by
      rw [List.append_assoc]
      rfl
    have hstart : Text.trimStart text = text := by
      cases text with
      | nil => rfl
      | cons c rest => exact Text.trimStart_cons (hfirst c rfl) rest
    rw [Text.trim_cons_blank rfl, htext, Text.trim_append_blanks rfl, Text.trim_concat rfl, hstart]
  have hclosing : closing.isSuffixOf (text ++ [';']) = false := by
    rw [Bool.eq_false_iff, ne_eq, List.isSuffixOf_iff_suffix]
    rintro ⟨before, hbefore⟩
    have hlast := congrArg List.getLast? hbefore
    rw [List.getLast?_concat, List.getLast?_append] at hlast
    cases hlast
  rw [trimPayload, htrim]
  exact if_neg (by rw [hclosing]; exact Bool.false_ne_true)

/-- A payload whose braces close stays in front of what the series takes in behind it. -/
theorem exists_trimPayload {c : Char} (hc : isBlank c = false) (front rest : Text) :
    ∃ rest', trimPayload (' ' :: c :: (front ++ '}' :: rest)) = c :: (front ++ '}' :: rest') := by
  have htrimmed (after : Text) : Text.trim (c :: (front ++ '}' :: after)) =
      c :: (front ++ '}' :: Text.trimEnd after) := by
    rw [Text.trim, Text.trimStart_cons hc, ← List.cons_append, Text.trimEnd_append_cons rfl]
    rfl
  unfold trimPayload
  simp only [Text.trim_cons_blank (show isBlank ' ' = true from rfl), htrimmed]
  split
  next hsuffix =>
    -- the command that closes an area holds no brace, and is cut off behind it
    obtain ⟨middle, hmiddle⟩ : ∃ middle, Text.trimEnd rest = middle ++ closing := by
      obtain ⟨before, hbefore⟩ := List.isSuffixOf_iff_suffix.mp hsuffix
      rw [List.append_cons, ← List.cons_append] at hbefore
      rcases List.append_eq_append_iff.mp hbefore with ⟨part, hfront, hpart⟩ | ⟨middle, -, hrest⟩
      · rcases List.eq_nil_or_concat part with rfl | ⟨init, last, rfl⟩
        · exact ⟨[], hpart.symm⟩
        · have hlast := congrArg List.getLast? hfront
          rw [List.concat_eq_append, ← List.cons_append, List.getLast?_concat, ← List.append_assoc,
            List.getLast?_concat] at hlast
          cases hlast
          have hmem : '}' ∈ closing := by
            rw [hpart]
            simp
          exact absurd hmem (by decide)
      · exact ⟨middle, hrest⟩
    have htake : (c :: (front ++ '}' :: Text.trimEnd rest)).take
        ((c :: (front ++ '}' :: Text.trimEnd rest)).length - closing.length) =
          c :: (front ++ '}' :: middle) := by
      have htext : c :: (front ++ '}' :: Text.trimEnd rest) =
          c :: (front ++ '}' :: middle) ++ closing := by
        rw [hmiddle]
        simp
      rw [htext, List.length_append, Nat.add_sub_cancel, List.take_left]
    rw [htake, htrimmed]
    exact ⟨_, rfl⟩
  next => exact ⟨_, rfl⟩

/-! ## What is left behind a series -/

theorem readStatement_suffix (text : Text) : (readStatement text).2 <:+ '\\' :: text := by
  -- the reader by byte offset stands at a place of the text behind every statement
  obtain ⟨next, escaped, -, -, before, hbefore, -⟩ :=
    Checked.bodyTurn_statement noTables ⟨{}, []⟩ (Checked.stands_zero ('\\' :: text))
  exact ⟨before, hbefore.symm⟩

theorem cutAtSemicolon_suffix (parens : Nat) (escaped : Bool) (text : Text) :
    (cutAtSemicolon parens escaped text).2 <:+ text := by
  rcases Checked.cutAtSemicolon_cases parens escaped text with heq | ⟨-, heq⟩
  · exact ⟨(cutAtSemicolon parens escaped text).1 ++ [';'], by
      conv_rhs => rw [heq]
      rw [List.append_assoc]
      rfl⟩
  · rw [heq]
    exact List.nil_suffix

theorem afterLine_suffix (text : Text) : afterLine text <:+ text :=
  (List.drop_suffix 1 _).trans (List.dropWhile_suffix _)

/-- A text without the commands of series and of legend lists has no statement that means anything
to a chart. -/
theorem isUnknown_of_mem_statements {text : Text} (hseries : ¬"\\addplot".toList <:+: text)
    (hlegends : ¬"\\legend\x7b".toList <:+: text) {statement : Statement}
    (h : statement ∈ statements text) : statement.isUnknown = true := by
  have hnot {phrase text rest : Text} (hphrase : ¬phrase <:+: text) (hrest : rest <:+ text) :
      ¬phrase <:+: rest := fun hin => hphrase (hin.trans hrest.isInfix)
  fun_induction statements text with
  | case1 => cases h
  | case2 rest ih =>
    have hrest := (afterLine_suffix rest).trans (List.suffix_cons '%' rest)
    exact ih (hnot hseries hrest) (hnot hlegends hrest) h
  | case3 rest hne ih =>
    rcases List.mem_append.mp h with h | h
    · have hfront {word : Text} (hword : ¬ '\\' :: word <:+: '\\' :: rest) :
          word.isPrefixOf? rest = none :=
        Text.isPrefixOf?_eq_none fun hprefix =>
          hword (List.cons_prefix_cons.mpr ⟨rfl, hprefix⟩).isInfix
      have hplot : "addplot".toList.isPrefixOf? rest = none := hfront hseries
      have hlegend : "legend\x7b".toList.isPrefixOf? rest = none := hfront hlegends
      rw [readStatement, hplot, hlegend] at h
      simp only at h
      split at h
      next =>
        cases List.mem_singleton.mp h
        rfl
      next => cases h
    · have hrest := readStatement_suffix rest
      exact ih (hnot hseries hrest) (hnot hlegends hrest) h
  | case4 c rest hcomment hslash ih =>
    have hrest := List.suffix_cons c rest
    exact ih (hnot hseries hrest) (hnot hlegends hrest) h

theorem readLegend?_eq_none {text : Text} (h : ¬"\\addlegendentry".toList <:+: text) :
    readLegend? text = none := by
  have hskip : Text.skipBlanks text <:+ text := List.dropWhile_suffix _
  have hprefix : "\\addlegendentry".toList.isPrefixOf? (Text.skipBlanks text) = none :=
    Text.isPrefixOf?_eq_none fun hstart => h (hstart.isInfix.trans hskip.isInfix)
  rw [readLegend?, hprefix]
  rfl

/-- What closes the outline of an area. -/
def areaEnd (dataType : DataType) : Text := if dataType = .area then ' ' :: closing else []

/-- How a series is read that goes on with a blank and a text behind its options: what it plots, and
that nothing behind it means anything to a chart. -/
structure IsReadAs (text : Text) (payload : Payload) : Prop where
  read : readPayload? (trimPayload (cutAtSemicolon 0 false (' ' :: text)).1) = some payload
  noLegend : readLegend? (cutAtSemicolon 0 false (' ' :: text)).2 = none
  unknown : ∀ statement ∈ statements (cutAtSemicolon 0 false (' ' :: text)).2,
    statement.isUnknown = true

/-- A body whose groups close is read up to its semicolon. -/
theorem IsBody.isReadAs {text : Text} {payload : Payload} (h : IsBody text payload) :
    IsReadAs (text ++ ";\n".toList) payload := by
  have hcut : cutAtSemicolon 0 false (' ' :: (text ++ ";\n".toList)) = (' ' :: text, ['\n']) :=
    cutAtSemicolon_append h.passed ['\n']
  have hnothing : statements ['\n'] = [] := by
    rw [statements_lineFeed, statements]
  refine ⟨?_, ?_, fun statement hmem => ?_⟩
  · rw [hcut]
    exact h.read
  · rw [hcut]
    rfl
  · rw [hcut, hnothing] at hmem
    cases hmem

/-- A series with a group that never closes takes in the rest of the axis. -/
theorem IsReadAs.of_open {front opened : Text} {payload : Payload}
    (hpassed : IsPassed (' ' :: front)) (hne : front ≠ [])
    (hfirst : ∀ c ∈ front.head?, isBlank c = false)
    (hcut : cutAtSemicolon 0 false (opened ++ ";\n".toList) = (opened ++ ";\n".toList, []))
    (hread : readPayload? (front ++ opened ++ [';']) = some payload) :
    IsReadAs (front ++ opened ++ ";\n".toList) payload := by
  have hwhole : cutAtSemicolon 0 false (' ' :: (front ++ opened ++ ";\n".toList)) =
      (' ' :: (front ++ opened ++ ";\n".toList), []) := by
    rw [List.append_assoc, ← List.cons_append, hpassed, hcut]
  have hnothing : statements [] = [] := by rw [statements]
  have hfirst' : ∀ c ∈ (front ++ opened).head?, isBlank c = false := by
    rwa [List.head?_append_of_ne_nil _ hne]
  refine ⟨?_, ?_, fun statement hmem => ?_⟩
  · rw [hwhole, trimPayload_semicolon hfirst']
    exact hread
  · rw [hwhole]
    rfl
  · rw [hwhole, hnothing] at hmem
    cases hmem

theorem IsPayload.isReadAs {text : Text} {payload : Payload} (h : IsPayload text payload)
    (dataType : DataType) : IsReadAs (text ++ areaEnd dataType ++ ";\n".toList) payload := by
  unfold areaEnd
  split
  next => exact h.isBody.2.isReadAs
  next =>
    rw [List.append_nil]
    exact h.isBody.1.isReadAs

/-- The end of an area has no delimiter, and its command is neither that of a series nor that of a
list of legends or of one legend. -/
theorem areaEnd_spec (dataType : DataType) :
    (∀ c ∈ areaEnd dataType, isDelimiter c = false ∧ c ≠ ',' ∧ c ≠ ';') ∧
      ¬"\\addplot".toList <:+: areaEnd dataType ++ ";\n".toList ∧
      ¬"\\legend\x7b".toList <:+: areaEnd dataType ++ ";\n".toList ∧
      ¬"\\addlegendentry".toList <:+: areaEnd dataType ++ ";\n".toList := by
  refine ⟨?_, ?_⟩
  · have hchars : (areaEnd dataType).all fun c => !isDelimiter c && c != ',' && c != ';' := by
      cases dataType <;> decide
    simpa [and_assoc] using hchars
  · simp only [← Text.contains_iff]
    cases dataType <;> decide

theorem not_mem_areaEnd {c : Char} (hc : isDelimiter c = true ∨ c = ';') (dataType : DataType) :
    c ∉ areaEnd dataType := by
  intro hmem
  obtain ⟨hdelimiter, -, hne⟩ := (areaEnd_spec dataType).1 c hmem
  rcases hc with hc | hc
  · rw [hdelimiter] at hc
    cases hc
  · exact hne hc

/-! ## Coordinates -/

/-- Coordinates are read behind their keyword, as far as their group goes. -/
theorem readPayload?_coordinates (rest : Text) :
    readPayload? ("coordinates ".toList ++ '{' :: rest) =
      some (.coordinates (braceContent rest).1) := by
  have hprefix : "coordinates".toList.isPrefixOf? ("coordinates ".toList ++ '{' :: rest) =
      some (' ' :: '{' :: rest) :=
    Text.isPrefixOf?_append "coordinates".toList (' ' :: '{' :: rest)
  rw [readPayload?, hprefix]
  rfl

/-- Coordinates that leave a group open are read with the semicolon of their series. -/
theorem isReadAs_openCoordinates {body : Text} {final : Nat × Bool}
    (hwalk : walk? braceStep 0 false body = some final) (hopen : ¬IsBalanced body)
    (dataType : DataType) :
    IsReadAs ("coordinates ".toList ++ (Text.braced body ++ areaEnd dataType) ++ ";\n".toList)
      (.coordinates (body ++ '}' :: (areaEnd dataType ++ [';']))) := by
  have hclose := not_mem_areaEnd (c := '}') (Or.inl rfl) dataType
  have hcut {last : Text} (hlast : '}' ∉ last) :
      cutAtBrace 1 false (body ++ '}' :: (areaEnd dataType ++ last)) = none :=
    cutAtBrace_unclosed hwalk hopen (by simp [hclose, hlast])
  have htext (last : Text) : Text.braced body ++ areaEnd dataType ++ last =
      '{' :: (body ++ '}' :: (areaEnd dataType ++ last)) := by
    simp [Text.braced]
  refine .of_open (isPassed_word (by decide) (by decide)) (by decide) (by simp [isBlank]) ?_ ?_
  · rw [htext]
    exact cutAtSemicolon_brace (hcut (by decide)) 0
  · have hlast : (body ++ '}' :: (areaEnd dataType ++ [';'])).getLast? ≠ some '}' := by
      rw [List.getLast?_append_cons, ← List.cons_append, List.getLast?_concat]
      decide
    have hcontent : braceContent (body ++ '}' :: (areaEnd dataType ++ [';'])) =
        (body ++ '}' :: (areaEnd dataType ++ [';']), []) := by
      rw [braceContent, hcut (by decide), unclosed, if_neg hlast]
      rfl
    rw [List.append_assoc, htext, readPayload?_coordinates, hcontent]

/-- Coordinates that close a group too many end where they do. What follows them means nothing. -/
theorem isReadAs_overClosed {body inside after : Text}
    (hcut : cutAtBrace 1 false body = some (inside, after))
    (hwalk : walk? braceStep 0 false inside = some (0, false)) (hslash : '\\' ∉ after)
    (dataType : DataType) :
    IsReadAs ("coordinates ".toList ++ (Text.braced body ++ areaEnd dataType) ++ ";\n".toList)
      (.coordinates inside) := by
  have htext : ' ' :: ("coordinates ".toList ++ (Text.braced body ++ areaEnd dataType) ++
      ";\n".toList) = " coordinates ".toList ++ Text.braced inside ++
        (after ++ '}' :: (areaEnd dataType ++ ";\n".toList)) := by
    rw [cutAtBrace_eq hcut]
    simp [Text.braced]
  have hpassed : IsPassed (" coordinates ".toList ++ Text.braced inside) :=
    (isPassed_word (by decide) (by decide)).append (isPassed_braced hwalk)
  have hrest := cutAtSemicolon_suffix 0 false (after ++ '}' :: (areaEnd dataType ++ ";\n".toList))
  obtain ⟨⟨taken, left⟩, hsemicolon⟩ : ∃ cut, cutAtSemicolon 0 false
      (after ++ '}' :: (areaEnd dataType ++ ";\n".toList)) = cut := ⟨_, rfl⟩
  rw [hsemicolon] at hrest
  -- what is left holds no command, but for the end of an area
  have hnot {word : Text} (hword : ¬ '\\' :: word <:+: areaEnd dataType ++ ";\n".toList) :
      ¬ '\\' :: word <:+: left := by
    intro hin
    have hin := hin.trans hrest.isInfix
    rw [List.append_cons] at hin
    exact hword (Text.infix_of_infix_append (by simp [hslash]) hin)
  obtain ⟨-, hseries, hlegends, hlegend⟩ := areaEnd_spec dataType
  have hseriesCut : cutAtSemicolon 0 false
      (' ' :: ("coordinates ".toList ++ (Text.braced body ++ areaEnd dataType) ++ ";\n".toList)) =
        (" coordinates ".toList ++ Text.braced inside ++ taken, left) := by
    rw [htext, hpassed, hsemicolon]
  refine ⟨?_, ?_, fun statement hmem => ?_⟩
  · obtain ⟨behind, hbehind⟩ :=
      @exists_trimPayload 'c' rfl ("oordinates ".toList ++ '{' :: inside) taken
    have hfound : " coordinates ".toList ++ Text.braced inside ++ taken =
        ' ' :: 'c' :: (("oordinates ".toList ++ '{' :: inside) ++ '}' :: taken) := by
      simp [Text.braced]
    have hbraces : 'c' :: (("oordinates ".toList ++ '{' :: inside) ++ '}' :: behind) =
        "coordinates ".toList ++ '{' :: (inside ++ '}' :: behind) := by
      simp
    rw [hseriesCut, hfound, hbehind, hbraces, readPayload?_coordinates, braceContent_append hwalk]
  · rw [hseriesCut]
    exact readLegend?_eq_none (hnot hlegend)
  · rw [hseriesCut] at hmem
    exact isUnknown_of_mem_statements (hnot hseries) (hnot hlegends) hmem

/-! ## Tables -/

/-- What stands behind the options of a table, up to the semicolon of the series. -/
def behindOptions (content : Text) (dataType : DataType) : Text :=
  ']' :: ' ' :: (Text.braced content ++ (areaEnd dataType ++ [';']))

/-- A table whose options are not closed is all options. -/
theorem readPayload?_openTable {text : Text} (hcut : cutAtBracket 1 0 false text = none)
    (hlast : text.getLast? ≠ some ']') :
    readPayload? ("table".toList ++ '[' :: text) = some (.table text []) := by
  have hbrackets : brackets? ('[' :: text) = some (text, []) := by
    show some ((cutAtBracket 1 0 false text).getD _) = _
    rw [hcut, unclosed, if_neg hlast]
    rfl
  have hkeyword : "table".toList.isPrefixOf? ("table".toList ++ '[' :: text) =
      some ('[' :: text) :=
    Text.isPrefixOf?_append _ _
  have hother : "coordinates".toList.isPrefixOf? ("table".toList ++ '[' :: text) = none :=
    Text.isPrefixOf?_eq_none fun hstart => by cases (List.cons_prefix_cons.mp hstart).1
  rw [readPayload?, hother, hkeyword]
  simp only [hbrackets, afterBrackets]
  rfl

/-- Options that are not closed take in the table and the semicolon of their series. -/
theorem isReadAs_openOptions {options : List Text} {content : Text} {final : List Char × Bool}
    (hwalk : walk? nestStep [] false (Text.join ", " options) = some final)
    (hfinal : final.1 = [] ∨ '}' ∈ final.1) (hopen : ¬IsNested (Text.join ", " options))
    (hcontent : IsNested content) (dataType : DataType) :
    IsReadAs ("table".toList ++
        (writeOptions options ++ ' ' :: Text.braced content ++ areaEnd dataType) ++ ";\n".toList)
      (.table (Text.join ", " options ++ behindOptions content dataType) []) := by
  have hbracketed : writeOptions options = Text.bracketed (Text.join ", " options) := by
    refine if_neg fun hempty => hopen ?_
    rw [List.isEmpty_iff.mp hempty]
    rfl
  have htext (last : Text) :
      writeOptions options ++ ' ' :: Text.braced content ++ areaEnd dataType ++ last =
        '[' :: (Text.join ", " options ++
          ']' :: ' ' :: (Text.braced content ++ (areaEnd dataType ++ last))) := by
    rw [hbracketed]
    simp [Text.bracketed]
  have hcut {last : Text} (hlast : ∀ c ∈ last, isDelimiter c = false) :
      cutAtBracket 1 0 false (Text.join ", " options ++
        ']' :: ' ' :: (Text.braced content ++ (areaEnd dataType ++ last))) = none := by
    refine cutAtBracket_unclosed hwalk hfinal hopen hcontent.isBalanced fun c hc => ?_
    rcases List.mem_append.mp hc with hc | hc
    · exact ((areaEnd_spec dataType).1 c hc).1
    · exact hlast c hc
  have hpassed : IsPassed " table".toList := isPassed_word (by decide) (by decide)
  refine .of_open hpassed (by decide) (by simp [isBlank]) ?_ ?_
  · rw [htext]
    exact cutAtSemicolon_bracket (hcut (by simp [isDelimiter])) 0
  · have hend : Text.join ", " options ++ behindOptions content dataType =
        (Text.join ", " options ++
          ']' :: ' ' :: (Text.braced content ++ areaEnd dataType)) ++ [';'] := by
      simp [behindOptions]
    rw [List.append_assoc, htext]
    refine readPayload?_openTable (hcut (by simp [isDelimiter])) ?_
    rw [← behindOptions, hend, List.getLast?_concat]
    decide

end Chart

end TexFigure
