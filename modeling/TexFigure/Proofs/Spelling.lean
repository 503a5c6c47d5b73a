import TexFigure.Proofs.Calls
/-!
# The two spellings undo each other

Respelling goes over the outermost calls of a text and, inside their arguments, over the calls
there. A respelled call is a call again, with a closed argument (`keepsCalls_respell`), so a law of
two respellings is a law of one call, by induction on the levels.

> `toCode_toUser_toCode`: code that a user has seen is written as it was.
> `toUser_toCode`: an expression without a call of `ln` comes back from its code.
> `respell_user_code_user`: what a user has been shown is shown again as it was.

The code of an expression also keeps the groups of the expression, its ends, and every phrase
that starts with a backslash, so that it can stand wherever the expression can.
-/

namespace TexFigure.Expression

/-! ## Respelling -/

/-- What becomes of the argument of an angle function. -/
theorem insideDeg?_writeCall {argument : Text} (h : IsClosed argument) :
    insideDeg? (writeCall "deg" argument) = some argument := by
  have htrimmed : Text.IsTrimmed (writeCall "deg" argument) := by
    constructor
    · intro c hc
      cases hc
      rfl
    · intro c hc
      rw [writeCall, List.getLast?_concat] at hc
      cases hc
      rfl
  have hbody : "deg(".toList.isPrefixOf? (writeCall "deg" argument) = some (argument ++ [')']) := by
    refine Text.isPrefixOf?_eq_some.mpr ?_
    simp [writeCall]
  rw [insideDeg?, Text.trim_eq_self htrimmed, hbody]
  show (cutAtParen 1 (argument ++ [')'])).bind _ = _
  rw [cutAtParen_append h]
  rfl

/-- What stands inside `deg` is closed when the argument is. -/
theorem isClosed_insideDeg? {argument : Text} (h : IsClosed argument) :
    IsClosed ((insideDeg? argument).getD argument) := by
  cases hinside : insideDeg? argument with
  | none => exact h
  | some inside =>
    obtain ⟨body, -, hbody⟩ := Option.bind_eq_some_iff.mp hinside
    obtain ⟨⟨found, after⟩, hcut, hfound⟩ := Option.bind_eq_some_iff.mp hbody
    cases after with
    | nil =>
      obtain rfl : found = inside := by simpa using hfound
      exact isClosed_of_cutAtParen hcut
    | cons => cases hfound

theorem not_angle_log : angleFunctions.contains "log".toList = false := rfl

theorem not_angle_ln : angleFunctions.contains "ln".toList = false := rfl

theorem isName_ln : IsName "ln" := ⟨rfl, rfl⟩

theorem isName_log : IsName "log" := ⟨rfl, rfl⟩

theorem isName_deg : IsName "deg" := ⟨rfl, rfl⟩

section
variable {inner : Text → Text} {name argument : Text}

theorem respellCall_code_log :
    respellCall .code inner "log" argument = writeCall "ln" (inner argument) :=
  rfl

theorem respellCall_user_ln :
    respellCall .user inner "ln" argument = writeCall "log" (inner argument) :=
  rfl

/-- Code takes the argument of an angle function in degrees. -/
theorem respellCall_code_angle (h : angleFunctions.contains name = true) :
    respellCall .code inner name argument = writeCall name (writeCall "deg" (inner argument)) := by
  have hlog : name ≠ "log".toList := by
    rintro rfl
    cases not_angle_log.symm.trans h
  exact (if_neg hlog).trans (if_pos h)

/-- A user takes it in radians, so that `deg` goes away when it is all of the argument. -/
theorem respellCall_user_angle (h : angleFunctions.contains name = true) :
    respellCall .user inner name argument =
      writeCall name (inner ((insideDeg? argument).getD argument)) := by
  have hln : name ≠ "ln".toList := by
    rintro rfl
    cases not_angle_ln.symm.trans h
  exact (if_neg hln).trans (if_pos h)

/-- Any other call keeps its name and has its argument respelled. -/
theorem respellCall_code_other (hlog : name ≠ "log".toList)
    (h : ¬angleFunctions.contains name = true) :
    respellCall .code inner name argument = writeCall name (inner argument) :=
  (if_neg hlog).trans (if_neg h)

theorem respellCall_user_other (hln : name ≠ "ln".toList)
    (h : ¬angleFunctions.contains name = true) :
    respellCall .user inner name argument = writeCall name (inner argument) :=
  (if_neg hln).trans (if_neg h)

/-- A call is respelled as a call. -/
theorem keepsCalls_respellCall (spelling : Spelling)
    (hinner : ∀ text, IsClosed text → IsClosed (inner text)) :
    KeepsCalls (respellCall spelling inner) := by
  intro name argument hname hargument
  have harg := hinner argument hargument
  by_cases hangle : angleFunctions.contains name = true
  · cases spelling with
    | code =>
      exact ⟨name, _, hname, isClosed_writeCall isName_deg harg, respellCall_code_angle hangle⟩
    | user =>
      exact ⟨name, _, hname, hinner _ (isClosed_insideDeg? hargument),
        respellCall_user_angle hangle⟩
  · cases spelling with
    | code =>
      by_cases hlog : name = "log".toList
      · subst hlog
        exact ⟨_, _, isName_ln, harg, respellCall_code_log⟩
      · exact ⟨name, _, hname, harg, respellCall_code_other hlog hangle⟩
    | user =>
      by_cases hln : name = "ln".toList
      · subst hln
        exact ⟨_, _, isName_log, harg, respellCall_user_ln⟩
      · exact ⟨name, _, hname, harg, respellCall_user_other hln hangle⟩

end

/-- The parentheses of a respelled text close when those of the text do. -/
theorem isClosed_respell (spelling : Spelling) (levels : Nat) {text : Text} (h : IsClosed text) :
    IsClosed (respell spelling levels text) := by
  induction levels generalizing text with
  | zero => exact isClosed_mapCalls keepsCalls_writeCall h
  | succ levels ih =>
    exact isClosed_mapCalls (keepsCalls_respellCall spelling fun _ => ih) h

/-- Calls are respelled as calls on every level. -/
theorem keepsCalls_respell (spelling : Spelling) (levels : Nat) :
    KeepsCalls (respellCall spelling (respell spelling levels)) :=
  keepsCalls_respellCall spelling fun _ => isClosed_respell spelling levels

/-- Respelling there and back leaves what is respelled already, when it does so with every call. -/
theorem respell_respell_respell {spelling other : Spelling}
    (hcall : ∀ {levels : Nat} {name argument : Text}, IsName name → IsClosed argument →
      (∀ text, respell spelling levels (respell other levels (respell spelling levels text)) =
        respell spelling levels text) →
      mapCalls (respellCall spelling (respell spelling levels))
          (mapCalls (respellCall other (respell other levels))
            (respellCall spelling (respell spelling levels) name argument)) =
        respellCall spelling (respell spelling levels) name argument)
    (levels : Nat) (text : Text) :
    respell spelling levels (respell other levels (respell spelling levels text)) =
      respell spelling levels text := by
  induction levels generalizing text with
  | zero => simp only [respell, mapCalls_self]
  | succ levels ih =>
    have hfirst := keepsCalls_respell spelling levels
    have hsecond := keepsCalls_respell other levels
    -- the outer respelling finds the calls of the inner one, and no others
    rw [respell, respell, mapCalls_mapCalls hfirst, mapCalls_mapCalls (hfirst.twice hsecond)]
    exact mapCalls_congr (fun name argument hname hargument => hcall hname hargument ih) text

/-- One call in the code of a user's spelling of its code, when the law holds of arguments. -/
theorem respellCall_code_user_code {levels : Nat} {name argument : Text} (hname : IsName name)
    (hargument : IsClosed argument)
    (ih : ∀ text, respell .code levels (respell .user levels (respell .code levels text)) =
      respell .code levels text) :
    mapCalls (respellCall .code (respell .code levels))
        (mapCalls (respellCall .user (respell .user levels))
          (respellCall .code (respell .code levels) name argument)) =
      respellCall .code (respell .code levels) name argument := by
  have hfirst := isClosed_respell .code levels hargument
  have hsecond := isClosed_respell .user levels hfirst
  by_cases hangle : angleFunctions.contains name = true
  · -- the user drops the conversion that the code has put around the argument
    rw [respellCall_code_angle hangle,
      mapCalls_call hname (isClosed_writeCall isName_deg hfirst), respellCall_user_angle hangle,
      insideDeg?_writeCall hfirst, Option.getD_some, mapCalls_call hname hsecond,
      respellCall_code_angle hangle, ih]
  · by_cases hlog : name = "log".toList
    · subst hlog
      rw [respellCall_code_log, mapCalls_call isName_ln hfirst, respellCall_user_ln,
        mapCalls_call isName_log hsecond, respellCall_code_log, ih]
    · rw [respellCall_code_other hlog hangle, mapCalls_call hname hfirst]
      by_cases hln : name = "ln".toList
      · -- a call of `ln` becomes one of `log` for the user, and is the same code again
        subst hln
        rw [respellCall_user_ln, mapCalls_call isName_log hsecond, respellCall_code_log, ih]
      · rw [respellCall_user_other hln hangle, mapCalls_call hname hsecond,
          respellCall_code_other hlog hangle, ih]

/-- Code that went through the spelling of a user is written as it was. -/
theorem respell_code_user_code (levels : Nat) (text : Text) :
    respell .code levels (respell .user levels (respell .code levels text)) =
      respell .code levels text :=
  respell_respell_respell respellCall_code_user_code levels text

theorem toCode_toUser_toCode (text : Text) : toCode (toUser (toCode text)) = toCode text :=
  respell_code_user_code 256 text

/-- One call in a user's spelling of the code of that spelling, when the law holds of arguments. -/
theorem respellCall_user_code_user {levels : Nat} {name argument : Text} (hname : IsName name)
    (hargument : IsClosed argument)
    (ih : ∀ text, respell .user levels (respell .code levels (respell .user levels text)) =
      respell .user levels text) :
    mapCalls (respellCall .user (respell .user levels))
        (mapCalls (respellCall .code (respell .code levels))
          (respellCall .user (respell .user levels) name argument)) =
      respellCall .user (respell .user levels) name argument := by
  by_cases hangle : angleFunctions.contains name = true
  · -- whether a conversion was dropped or not, the code puts one there for the user to drop
    have hfirst := isClosed_respell .user levels (isClosed_insideDeg? hargument)
    have hsecond := isClosed_respell .code levels hfirst
    rw [respellCall_user_angle hangle, mapCalls_call hname hfirst, respellCall_code_angle hangle,
      mapCalls_call hname (isClosed_writeCall isName_deg hsecond), respellCall_user_angle hangle,
      insideDeg?_writeCall hsecond, Option.getD_some, ih]
  · have hfirst := isClosed_respell .user levels hargument
    have hsecond := isClosed_respell .code levels hfirst
    by_cases hln : name = "ln".toList
    · subst hln
      rw [respellCall_user_ln, mapCalls_call isName_log hfirst, respellCall_code_log,
        mapCalls_call isName_ln hsecond, respellCall_user_ln, ih]
    · rw [respellCall_user_other hln hangle, mapCalls_call hname hfirst]
      by_cases hlog : name = "log".toList
      · -- a call of `log` becomes one of `ln` in the code, and is the same for the user again
        subst hlog
        rw [respellCall_code_log, mapCalls_call isName_ln hsecond, respellCall_user_ln, ih]
      · rw [respellCall_code_other hlog hangle, mapCalls_call hname hsecond,
          respellCall_user_other hln hangle, ih]

/-- An expression that a user has seen is spelled as it was when it went through its code. -/
theorem respell_user_code_user (levels : Nat) (text : Text) :
    respell .user levels (respell .code levels (respell .user levels text)) =
      respell .user levels text :=
  respell_respell_respell respellCall_user_code_user levels text

/-- One call in a user's spelling of its code: the name stays, but for `ln`, which a user spells
`log`, and the argument goes through both spellings. -/
theorem respellCall_user_code {levels : Nat} {name argument : Text} (hname : IsName name)
    (hargument : IsClosed argument) :
    mapCalls (respellCall .user (respell .user levels))
        (respellCall .code (respell .code levels) name argument) =
      writeCall (if name = "ln" then "log" else name)
        (respell .user levels (respell .code levels argument)) := by
  have hcode := isClosed_respell .code levels hargument
  by_cases hangle : angleFunctions.contains name = true
  · have hln : name ≠ "ln".toList := by
      rintro rfl
      cases not_angle_ln.symm.trans hangle
    rw [if_neg hln, respellCall_code_angle hangle,
      mapCalls_call hname (isClosed_writeCall isName_deg hcode), respellCall_user_angle hangle,
      insideDeg?_writeCall hcode, Option.getD_some]
  · by_cases hlog : name = "log".toList
    · subst hlog
      rw [respellCall_code_log, mapCalls_call isName_ln hcode, respellCall_user_ln,
        if_neg (by decide)]
    · rw [respellCall_code_other hlog hangle, mapCalls_call hname hcode]
      split
      next hln =>
        subst hln
        exact respellCall_user_ln
      next hln => exact respellCall_user_other hln hangle

/-- An expression comes back from its code when it does not call `ln`, which a user spells
`log`. -/
theorem respell_user_code (levels : Nat) {text : Text} (h : ¬HasCall "ln" text) :
    respell .user levels (respell .code levels text) = text := by
  induction levels generalizing text with
  | zero => simp only [respell, mapCalls_self]
  | succ levels ih =>
    rw [respell, respell, mapCalls_mapCalls (keepsCalls_respell .code levels)]
    refine mapCalls_of_not_hasCall isName_ln (fun name argument hname hargument hln hinside => ?_) h
    rw [respellCall_user_code hname hargument, if_neg hln, ih hinside]

theorem toUser_toCode {text : Text} (h : ¬HasCall "ln" text) : toUser (toCode text) = text :=
  respell_user_code 256 h

/-- The two spellings undo each other, in any text and down to the last level: an expression comes
back from its code unless it calls `ln`, and whatever has gone through one of the two spellings
comes back from the other. -/
theorem spellings_undo (text : Text) :
    (¬HasCall "ln" text → toUser (toCode text) = text) ∧
      toCode (toUser (toCode text)) = toCode text ∧
      toUser (toCode (toUser text)) = toUser text :=
  ⟨toUser_toCode, toCode_toUser_toCode text, respell_user_code_user 256 text⟩

/-- An angle function of a conversion, a logarithm inside it, and a parenthesis that stays open. -/
theorem spellings_undo_nested :
    ¬HasCall "ln" "sin( deg(log(x)) )/cos(2" ∧
      toUser (toCode "sin( deg(log(x)) )/cos(2") = "sin( deg(log(x)) )/cos(2".toList := by
  have hcall : ¬HasCall "ln" "sin( deg(log(x)) )/cos(2" := by
    intro h
    have hcontains := Text.contains_iff.mpr (infix_of_hasCall h)
    cases hcontains
  exact ⟨hcall, (spellings_undo _).1 hcall⟩

/-! ## What respelling keeps -/

/-- A text keeps its last character: calls end in a parenthesis in either spelling. -/
theorem getLast?_respell (spelling : Spelling) (levels : Nat) (text : Text) :
    (respell spelling levels text).getLast? = text.getLast? := by
  cases levels with
  | zero => exact getLast?_mapCalls keepsCalls_writeCall text
  | succ levels => exact getLast?_mapCalls (keepsCalls_respell spelling levels) text

/-- A trimmed text is trimmed in the other spelling. -/
theorem isTrimmed_respell (spelling : Spelling) (levels : Nat) {text : Text}
    (h : Text.IsTrimmed text) : Text.IsTrimmed (respell spelling levels text) := by
  refine ⟨?_, ?_⟩
  · cases levels with
    | zero => exact head?_mapCalls keepsCalls_writeCall h.1
    | succ levels => exact head?_mapCalls (keepsCalls_respell spelling levels) h.1
  · rw [getLast?_respell]
    exact h.2

/-- Only the empty text is empty in the other spelling. -/
theorem isEmpty_respell (spelling : Spelling) (levels : Nat) (text : Text) :
    (respell spelling levels text).isEmpty = text.isEmpty := by
  rw [Bool.eq_iff_iff, List.isEmpty_iff, List.isEmpty_iff, ← List.getLast?_eq_none_iff,
    ← List.getLast?_eq_none_iff, getLast?_respell]

/-! ### Groups -/

section
open Source

/-- A name leaves the groups as they are, and nothing behind it is escaped. -/
theorem walk?_isName {name : Text} (h : IsName name) (awaited : List Char) (escaped : Bool) :
    walk? nestStep awaited escaped name = some (awaited, false) := by
  have hplain (c : Char) (hc : c ∈ name) : isPlain c := by
    refine isPlain_iff.mpr ⟨?_, ?_, ?_, ?_, ?_⟩ <;>
    · rintro rfl
      exact h.not_mem rfl hc
  have hstep (c : Char) (hc : c ∈ name) (e : Bool) : nestStep awaited e c = some awaited := by
    have := isPlain_iff.mp (hplain c hc)
    simp [nestStep, this]
  cases name with
  | nil => exact h.elim
  | cons c rest =>
    refine walk?_cons_eq_some.mpr ⟨awaited, hstep c List.mem_cons_self escaped, ?_⟩
    have hne := (isPlain_iff.mp (hplain c List.mem_cons_self)).2.2.2.2
    rw [show escapes escaped c = false by simp [escapes, hne]]
    refine walk?_nestStep_of_plain (List.all_eq_true.mpr fun d hd => ?_) awaited
    exact hplain d (List.mem_cons_of_mem _ hd)

/-- The groups behind a call are those behind its argument, and nothing behind it is escaped. -/
theorem walk?_writeCall {name : Text} (h : IsName name) (argument : Text) (awaited : List Char)
    (escaped : Bool) :
    walk? nestStep awaited escaped (writeCall name argument) =
      (walk? nestStep awaited false argument).map fun (next, _) => (next, false) := by
  have hparen (awaited : List Char) (escaped : Bool) {c : Char} (hc : c = '(' ∨ c = ')') :
      nestStep awaited escaped c = some awaited ∧ escapes escaped c = false := by
    rcases hc with rfl | rfl <;> simp [nestStep, escapes]
  rw [writeCall, List.append_assoc, walk?_append, walk?_isName h]
  show walk? nestStep awaited false ('(' :: (argument ++ [')'])) = _
  rw [walk?, (hparen awaited false (Or.inl rfl)).1, (hparen [] false (Or.inl rfl)).2]
  show walk? nestStep awaited false (argument ++ [')']) = _
  rw [walk?_append]
  cases walk? nestStep awaited false argument with
  | none => rfl
  | some final =>
    obtain ⟨next, e⟩ := final
    show walk? nestStep next e [')'] = some (next, false)
    rw [walk?, (hparen next e (Or.inr rfl)).1, (hparen [] e (Or.inr rfl)).2]
    rfl

/-- The groups of an expression are those of its code. -/
theorem walk?_respell_code (levels : Nat) (text : Text) (awaited : List Char) (escaped : Bool) :
    walk? nestStep awaited escaped (respell .code levels text) =
      walk? nestStep awaited escaped text := by
  -- over the levels for the arguments, and over the calls of the text on each level
  induction levels generalizing text awaited escaped with
  | zero => rw [respell, mapCalls_self]
  | succ levels ih =>
    rw [respell]
    induction text using calls_induction generalizing awaited escaped with
    | nil => rw [mapCalls_nil]
    | call name argument rest hname hargument ihrest =>
      have hcall : ∀ a e,
          walk? nestStep a e (respellCall .code (respell .code levels) name argument)
            = walk? nestStep a e (writeCall name argument) := by
        intro a e
        rw [walk?_writeCall hname]
        by_cases hangle : angleFunctions.contains name = true
        · rw [respellCall_code_angle hangle, walk?_writeCall hname, walk?_writeCall isName_deg, ih,
            Option.map_map]
          rfl
        · by_cases hlog : name = "log".toList
          · subst hlog
            rw [respellCall_code_log, walk?_writeCall isName_ln, ih]
          · rw [respellCall_code_other hlog hangle, walk?_writeCall hname, ih]
      rw [mapCalls_writeCall hname hargument, walk?_append, walk?_append, hcall]
      exact congrArg _ (funext fun (next, e) => ihrest next e)
    | name name rest hname happart hnone ihrest =>
      rw [mapCalls_name hname happart hnone, walk?_append, walk?_append]
      exact congrArg _ (funext fun (next, e) => ihrest next e)
    | other c rest halpha ihrest =>
      rw [mapCalls_cons halpha, walk?, walk?]
      exact congrArg _ (funext fun next => ihrest next (escapes escaped c))

/-- The code of a text has the braces and the brackets of the text. -/
theorem isNested_toCode {text : Text} (h : IsNested text) : IsNested (toCode text) := by
  rw [IsNested, toCode, walk?_respell_code]
  exact h

end

/-! ### Phrases -/

/-- The code of a call keeps the name, or changes `log` into `ln`. -/
theorem respellCall_code_cases (inner : Text → Text) (name argument : Text) :
    ∃ name' argument', respellCall .code inner name argument = writeCall name' argument' ∧
      (name' = name ∨ name = "log".toList ∧ name' = "ln".toList) ∧
      (argument' = inner argument ∨ argument' = writeCall "deg" (inner argument)) := by
  by_cases hangle : angleFunctions.contains name = true
  · exact ⟨_, _, respellCall_code_angle hangle, Or.inl rfl, Or.inr rfl⟩
  · by_cases hlog : name = "log".toList
    · subst hlog
      exact ⟨_, _, respellCall_code_log, Or.inr ⟨rfl, rfl⟩, Or.inl rfl⟩
    · exact ⟨_, _, respellCall_code_other hlog hangle, Or.inl rfl, Or.inl rfl⟩

/-- Whether a phrase is one that respelling cannot make: it has no parenthesis, and does not end
as `ln` or a part of it. -/
def IsForeign (phrase : Text) : Prop :=
  '(' ∉ phrase ∧ ')' ∉ phrase ∧ ∀ c ∈ phrase.getLast?, c ≠ 'l' ∧ c ≠ 'n'

theorem IsForeign.of_cons {c : Char} {phrase : Text} (h : IsForeign (c :: phrase)) :
    IsForeign phrase := by
  obtain ⟨hopen, hclose, hlast⟩ := h
  refine ⟨fun hmem => hopen (List.mem_cons_of_mem _ hmem),
    fun hmem => hclose (List.mem_cons_of_mem _ hmem), fun d hd => hlast d ?_⟩
  rw [List.getLast?_cons, show phrase.getLast? = some d from hd]
  rfl

/-- The end of a phrase that respelling cannot make cannot be made either. -/
theorem IsForeign.of_append {before phrase : Text} (h : IsForeign (before ++ phrase)) :
    IsForeign phrase := by
  induction before with
  | nil => exact h
  | cons c before ih => exact ih h.of_cons

/-- A phrase in front of the code of a text stands in front of the text. -/
theorem prefix_of_prefix_code {inner : Text → Text} {phrase text : Text}
    (hphrase : IsForeign phrase) (h : phrase <+: mapCalls (respellCall .code inner) text) :
    phrase <+: text := by
  induction text using calls_induction generalizing phrase with
  | nil => rwa [mapCalls_nil] at h
  | call name argument rest hname hargument ih =>
    obtain ⟨name', argument', heq, hname', -⟩ := respellCall_code_cases inner name argument
    rw [mapCalls_writeCall hname hargument, heq, writeCall, List.append_assoc,
      List.append_assoc] at h
    have hin := Text.prefix_of_prefix_append_cons hphrase.1 h
    have hfront : name <+: writeCall name argument ++ rest :=
      ⟨'(' :: argument ++ [')'] ++ rest, by simp [writeCall]⟩
    rcases hname' with rfl | ⟨rfl, rfl⟩
    · exact hin.trans hfront
    · refine List.IsPrefix.trans ?_ hfront
      -- of the prefixes of `ln`, only the empty one ends as it does not
      obtain ⟨t, ht⟩ := hin
      have hlast := hphrase.2.2
      rcases phrase with _ | ⟨c, _ | ⟨d, _ | ⟨e, more⟩⟩⟩
      · exact List.nil_prefix
      · obtain ⟨rfl, -⟩ := List.cons.inj ht
        exact absurd rfl (hlast _ rfl).1
      · obtain ⟨-, ht⟩ := List.cons.inj ht
        obtain ⟨rfl, -⟩ := List.cons.inj ht
        exact absurd rfl (hlast _ rfl).2
      · have hlength := congrArg List.length ht
        simp at hlength
  | name name rest hname happart hnone ih =>
    rw [mapCalls_name hname happart hnone] at h
    obtain ⟨t, ht⟩ := h
    rcases List.append_eq_append_iff.mp ht with ⟨u, hu, -⟩ | ⟨u, hu, hu'⟩
    · exact List.IsPrefix.trans ⟨u, hu.symm⟩ (List.prefix_append name rest)
    · subst hu
      rw [List.prefix_append_right_inj]
      exact ih hphrase.of_append ⟨t, hu'.symm⟩
  | other c rest halpha ih =>
    rw [mapCalls_cons halpha] at h
    cases phrase with
    | nil => exact List.nil_prefix
    | cons d phrase =>
      rw [List.cons_prefix_cons] at h ⊢
      exact ⟨h.1, ih hphrase.of_cons h.2⟩

/-- A phrase that starts with a backslash occurs in the code of an expression only when it occurs
in the expression. -/
theorem infix_of_infix_respell_code {phrase : Text} (hphrase : IsForeign ('\\' :: phrase))
    (levels : Nat) {text : Text} (h : '\\' :: phrase <:+: respell .code levels text) :
    '\\' :: phrase <:+: text := by
  obtain ⟨hopen, hclose, -⟩ := id hphrase
  have hslash {name : Text} (hname : IsName name) : '\\' ∉ name := hname.not_mem rfl
  -- a phrase in a call is in its argument
  have hinside {name argument : Text} (hname : IsName name)
      (h : '\\' :: phrase <:+: writeCall name argument) : '\\' :: phrase <:+: argument := by
    rw [writeCall, List.append_assoc] at h
    have h := Text.infix_of_infix_append (hslash hname) h
    rcases Text.infix_append_cons hclose
      (show _ <:+: ('(' :: argument) ++ ')' :: [] from h) with h | h
    · exact Text.infix_of_infix_cons (by decide) h
    · simp at h
  induction levels generalizing text with
  | zero => rwa [respell, mapCalls_self] at h
  | succ levels ih =>
    rw [respell] at h
    induction text using calls_induction with
    | nil => rwa [mapCalls_nil] at h
    | call name argument rest hname hargument ihrest =>
      obtain ⟨name', argument', heq, hname', hargument'⟩ :=
        respellCall_code_cases (respell .code levels) name argument
      have hname'' : IsName name' := by
        rcases hname' with rfl | ⟨-, rfl⟩
        · exact hname
        · exact isName_ln
      rw [mapCalls_writeCall hname hargument, heq] at h
      have hsplit : '\\' :: phrase <:+: name' ++ '(' :: argument' ∨
          '\\' :: phrase <:+: mapCalls (respellCall .code (respell .code levels)) rest := by
        refine Text.infix_append_cons hclose ?_
        simpa [writeCall] using h
      have hwhole : argument <:+: writeCall name argument ++ rest :=
        ⟨name ++ ['('], ')' :: rest, by simp [writeCall]⟩
      rcases hsplit with h | h
      · -- the name is passed over, so the phrase is in the argument on the level below
        have h : '\\' :: phrase <:+: argument' :=
          Text.infix_of_infix_cons (by decide) (Text.infix_of_infix_append (hslash hname'') h)
        rcases hargument' with rfl | rfl
        · exact (ih h).trans hwhole
        · exact (ih (hinside isName_deg h)).trans hwhole
      · exact (ihrest h).trans (List.suffix_append _ _).isInfix
    | name name rest hname happart hnone ihrest =>
      rw [mapCalls_name hname happart hnone] at h
      have h := Text.infix_of_infix_append (hslash hname) h
      exact (ihrest h).trans (List.suffix_append _ _).isInfix
    | other c rest halpha ihrest =>
      rw [mapCalls_cons halpha, List.infix_cons_iff] at h
      rcases h with h | h
      · -- only here can the phrase itself start, and then it goes on over calls
        obtain ⟨hc, h⟩ := List.cons_prefix_cons.mp h
        refine (List.IsPrefix.isInfix ?_)
        exact List.cons_prefix_cons.mpr ⟨hc, prefix_of_prefix_code hphrase.of_cons h⟩
      · exact (ihrest h).trans (List.suffix_cons _ _).isInfix

end TexFigure.Expression
