import TexFigure.Proofs.Spelling
/-!
# Code that comes back from the spelling of a user

Generated code converts the angle of every angle function, as in `sin(deg(x))`, and a user does not
see the conversion. Code that was written by hand may call `sin(x)`, with an angle in degrees, and
reads the same to a user: both are `sin(x)`, which is written as `sin(deg(x))` again. So code comes
back from the spelling of a user only when it is spelled as generated code is (`IsCodeSpelling`).

A replacement of calls by calls leaves a text as it is exactly when it leaves every call as it is
(`mapCalls_eq_self_iff`), because a call at the front of a text can be told from what follows. With
the law of one call, and by induction on the levels, this gives the exact condition:

> `toCode_toUser_iff`: code comes back exactly when it calls no `log` and each of its angle
> functions is given a conversion and nothing else; two such codes are told apart by a user.
-/

namespace TexFigure.Expression

/-! ## Calls that stay -/

/-- A call at the front of a text determines its name, its argument and what follows. -/
theorem writeCall_append_inj {name name' argument argument' rest rest' : Text} (hname : IsName name)
    (hname' : IsName name') (hargument : IsClosed argument) (hargument' : IsClosed argument')
    (h : writeCall name argument ++ rest = writeCall name' argument' ++ rest') :
    name = name' ∧ argument = argument' ∧ rest = rest' := by
  have hsplit {name argument rest : Text} (hname : IsName name) :
      (writeCall name argument ++ rest).takeWhile continuesName = name ∧
        (writeCall name argument ++ rest).dropWhile continuesName =
          '(' :: (argument ++ ')' :: rest) := by
    have htext : writeCall name argument ++ rest = name ++ '(' :: (argument ++ ')' :: rest) := by
      simp [writeCall]
    rw [htext]
    refine Text.takeWhile_append (List.all_eq_true.mpr fun c hc => hname.continues hc) ?_
    rintro c ⟨⟩
    rfl
  obtain ⟨htake, hdrop⟩ := @hsplit name argument rest hname
  obtain ⟨htake', hdrop'⟩ := @hsplit name' argument' rest' hname'
  rw [h] at htake hdrop
  -- the parenthesis that closes the argument is the first one that closes nothing inside it
  have hbehind := List.cons.inj (hdrop.symm.trans hdrop')
  have hcut := cutAtParen_append hargument rest
  rw [hbehind.2, cutAtParen_append hargument'] at hcut
  obtain ⟨hinside, hafter⟩ := Prod.mk.inj (Option.some.inj hcut)
  exact ⟨htake.symm.trans htake', hinside.symm, hafter.symm⟩

theorem writeCall_inj {name name' argument argument' : Text} (hname : IsName name)
    (hname' : IsName name') (hargument : IsClosed argument) (hargument' : IsClosed argument')
    (h : writeCall name argument = writeCall name' argument') :
    name = name' ∧ argument = argument' := by
  obtain ⟨heq, heq', -⟩ :=
    writeCall_append_inj hname hname' hargument hargument' (congrArg (· ++ []) h)
  exact ⟨heq, heq'⟩

/-- Whether something holds of the name and the argument of every outermost call of a text. -/
inductive EveryCall (p : Text → Text → Prop) : Text → Prop
  | nil : EveryCall p []
  | call {name argument rest : Text} (hname : IsName name) (hargument : IsClosed argument)
      (h : p name argument) (hrest : EveryCall p rest) :
      EveryCall p (writeCall name argument ++ rest)
  | name {name rest : Text} (hname : IsName name) (happart : StandsApart rest)
      (hcall : callArgument? rest = none) (hrest : EveryCall p rest) : EveryCall p (name ++ rest)
  | other {c : Char} {rest : Text} (halpha : c.isAlpha = false) (hrest : EveryCall p rest) :
      EveryCall p (c :: rest)

theorem EveryCall.imp {p q : Text → Text → Prop} {text : Text} (h : EveryCall p text)
    (himp : ∀ name argument, IsName name → IsClosed argument → p name argument → q name argument) :
    EveryCall q text := by
  induction h with
  | nil => exact .nil
  | call hname hargument hp _ ih => exact .call hname hargument (himp _ _ hname hargument hp) ih
  | name hname happart hcall _ ih => exact .name hname happart hcall ih
  | other halpha _ ih => exact .other halpha ih

/-- Calls that are replaced by calls leave a text as it is exactly when each of them stays. -/
theorem mapCalls_eq_self_iff {onCall : Text → Text → Text} (h : KeepsCalls onCall) {text : Text} :
    mapCalls onCall text = text ↔
      EveryCall (fun name argument => onCall name argument = writeCall name argument) text := by
  constructor
  · intro heq
    induction text using calls_induction with
    | nil => exact .nil
    | call name argument rest hname hargument ih =>
      obtain ⟨name', argument', hname', hargument', hcall⟩ := h hname hargument
      rw [mapCalls_writeCall hname hargument, hcall] at heq
      obtain ⟨rfl, rfl, hrest⟩ := writeCall_append_inj hname' hname hargument' hargument heq
      exact .call hname hargument hcall (ih hrest)
    | name name rest hname happart hcall ih =>
      rw [mapCalls_name hname happart hcall] at heq
      exact .name hname happart hcall (ih (List.append_cancel_left heq))
    | other c rest halpha ih =>
      rw [mapCalls_cons halpha] at heq
      exact .other halpha (ih (List.cons.inj heq).2)
  · intro hevery
    induction hevery with
    | nil => exact mapCalls_nil
    | call hname hargument hcall _ ih => rw [mapCalls_writeCall hname hargument, hcall, ih]
    | name hname happart hcall _ ih => rw [mapCalls_name hname happart hcall, ih]
    | other halpha _ ih => rw [mapCalls_cons halpha, ih]

/-! ## Code as it is generated -/

/-- What generated code asks of a call, given what it asks of arguments: the logarithm is not
spelled `log`, and an angle is a conversion of the argument and nothing else. -/
def IsCodeCall (inner : Text → Prop) (name argument : Text) : Prop :=
  name ≠ "log" ∧
    if angleFunctions.contains name then
      ∃ angle, IsClosed angle ∧ argument = writeCall "deg" angle ∧ inner angle
    else inner argument

/-- Whether a text is spelled as generated code is, down to a number of levels. A conversion goes
with the function around it and is no level of its own. -/
def IsCodeSpelling : (levels : Nat) → Text → Prop
  | 0, _ => True
  | levels + 1, text => EveryCall (IsCodeCall (IsCodeSpelling levels)) text

theorem isName_of_angle {name : Text} (h : angleFunctions.contains name = true) :
    name ≠ "log" ∧ name ≠ "ln" := by
  constructor
  · rintro rfl
    cases not_angle_log.symm.trans h
  · rintro rfl
    cases not_angle_ln.symm.trans h

/-- The code of a user's spelling of one call is the call exactly when it is one of generated
code. -/
theorem respellCall_code_user_iff {levels : Nat} {name argument : Text} (hname : IsName name)
    (hargument : IsClosed argument) :
    mapCalls (respellCall .code (respell .code levels))
          (respellCall .user (respell .user levels) name argument) = writeCall name argument ↔
      IsCodeCall (fun text => respell .code levels (respell .user levels text) = text) name
        argument := by
  by_cases hangle : angleFunctions.contains name = true
  · have hinside := isClosed_respell .user levels (isClosed_insideDeg? hargument)
    have hcode := isClosed_respell .code levels hinside
    have hnot := isName_of_angle hangle
    rw [respellCall_user_angle hangle, mapCalls_call hname hinside, respellCall_code_angle hangle,
      IsCodeCall, if_pos hangle]
    constructor
    · intro h
      obtain ⟨-, heq⟩ :=
        writeCall_inj hname hname (isClosed_writeCall isName_deg hcode) hargument h
      -- the conversion that was written is the one that the user's spelling dropped
      generalize hangle' : respell .code levels
        (respell .user levels ((insideDeg? argument).getD argument)) = angle at hcode heq
      subst heq
      rw [insideDeg?_writeCall hcode, Option.getD_some] at hangle'
      exact ⟨hnot.1, angle, hcode, rfl, hangle'⟩
    · rintro ⟨-, angle, hclosed, rfl, heq⟩
      rw [insideDeg?_writeCall hclosed, Option.getD_some, heq]
  · have hinside := isClosed_respell .user levels hargument
    have hcode := isClosed_respell .code levels hinside
    rw [IsCodeCall, if_neg hangle]
    by_cases hlog : name = "log".toList
    · -- a user's `log` is the logarithm, which generated code spells `ln`
      subst hlog
      rw [respellCall_user_other (by decide) hangle, mapCalls_call isName_log hinside,
        respellCall_code_log]
      refine iff_of_false (fun h => ?_) fun h => h.1 rfl
      exact absurd (writeCall_inj isName_ln isName_log hcode hargument h).1 (by decide)
    · have hcall : mapCalls (respellCall .code (respell .code levels))
          (respellCall .user (respell .user levels) name argument) =
            writeCall name (respell .code levels (respell .user levels argument)) := by
        by_cases hln : name = "ln".toList
        · subst hln
          rw [respellCall_user_ln, mapCalls_call isName_log hinside, respellCall_code_log]
        · rw [respellCall_user_other hln hangle, mapCalls_call hname hinside,
            respellCall_code_other hlog hangle]
      rw [hcall]
      constructor
      · intro h
        exact ⟨hlog, (writeCall_inj hname hname hcode hargument h).2⟩
      · rintro ⟨-, heq⟩
        rw [heq]

/-- Code comes back from the spelling of a user exactly when it is spelled as it is generated. -/
theorem respell_code_user_iff (levels : Nat) {text : Text} :
    respell .code levels (respell .user levels text) = text ↔ IsCodeSpelling levels text := by
  induction levels generalizing text with
  | zero => simp [respell, mapCalls_self, IsCodeSpelling]
  | succ levels ih =>
    have huser := keepsCalls_respell .user levels
    have hinner : (fun text => respell .code levels (respell .user levels text) = text) =
        IsCodeSpelling levels := funext fun text => propext ih
    rw [respell, respell, mapCalls_mapCalls huser,
      mapCalls_eq_self_iff (huser.twice (keepsCalls_respell .code levels)),
      IsCodeSpelling, ← hinner]
    constructor <;> intro h <;> refine h.imp fun name argument hname hargument hcall => ?_
    · exact (respellCall_code_user_iff hname hargument).mp hcall
    · exact (respellCall_code_user_iff hname hargument).mpr hcall

/-- Code comes back from the spelling of a user exactly when, down to the last level, it calls no
`log` and gives its angle functions a conversion and nothing else; and codes of this kind that
differ are different expressions for a user. -/
theorem toCode_toUser_iff (code : Text) :
    (toCode (toUser code) = code ↔ IsCodeSpelling 256 code) ∧
      ∀ other, IsCodeSpelling 256 code → IsCodeSpelling 256 other →
        toUser code = toUser other → code = other := by
  refine ⟨respell_code_user_iff 256, fun other hcode hother heq => ?_⟩
  calc code = toCode (toUser code) := ((respell_code_user_iff 256).mpr hcode).symm
    _ = toCode (toUser other) := by rw [heq]
    _ = other := (respell_code_user_iff 256).mpr hother

/-- The sine of an angle that is converted, in a product, comes back. -/
theorem toCode_toUser_converted :
    IsCodeSpelling 256 "2*sin(deg(x))" ∧
      toCode (toUser "2*sin(deg(x))") = "2*sin(deg(x))".toList := by
  have hsin : IsName "sin" := ⟨rfl, rfl⟩
  have hx : IsName "x" := ⟨rfl, rfl⟩
  have hconverted : IsClosed (writeCall "deg" "x") := rfl
  have hangle : IsCodeSpelling 255 "x" :=
    @EveryCall.name _ "x" [] hx (fun _ hc => nomatch hc) rfl .nil
  have hcall : IsCodeCall (IsCodeSpelling 255) "sin" (writeCall "deg" "x") := by
    have hlisted : angleFunctions.contains "sin".toList = true := rfl
    refine ⟨by decide, ?_⟩
    rw [if_pos hlisted]
    exact ⟨"x", rfl, rfl, hangle⟩
  have hsine : IsCodeSpelling 256 (writeCall "sin" (writeCall "deg" "x") ++ []) :=
    EveryCall.call hsin hconverted hcall .nil
  have hcode : IsCodeSpelling 256 "2*sin(deg(x))" := EveryCall.other rfl (EveryCall.other rfl hsine)
  exact ⟨hcode, (toCode_toUser_iff _).1.mpr hcode⟩

/-- A name that is not called stays. -/
theorem respell_name (spelling : Spelling) (levels : Nat) {name : Text} (h : IsName name) :
    respell spelling levels name = name := by
  cases levels with
  | zero => exact mapCalls_self name
  | succ levels =>
    have hname := @mapCalls_name (respellCall spelling (respell spelling levels)) name [] h
      (fun _ hc => nomatch hc) rfl
    rwa [mapCalls_nil, List.append_nil] at hname

/-- The sine of an angle in degrees comes back as one of an angle in radians, which a user cannot
tell from it. -/
theorem toCode_toUser_degrees :
    ¬HasCall "log" "sin(x)" ∧ toCode (toUser "sin(x)") ≠ "sin(x)".toList ∧
      toUser "sin(x)" = toUser "sin(deg(x))" := by
  have hsin : IsName "sin" := ⟨rfl, rfl⟩
  have hx : IsName "x" := ⟨rfl, rfl⟩
  have hclosed : IsClosed "x" := rfl
  have hconverted : IsClosed (writeCall "deg" "x") := rfl
  have hlog : ¬HasCall "log" "sin(x)" := by
    intro h
    have hcontains := Text.contains_iff.mpr (infix_of_hasCall h)
    cases hcontains
  have hdegrees : toUser "sin(x)" = writeCall "sin" "x" := by
    show respell .user 256 (writeCall "sin" "x") = _
    rw [respell, mapCalls_call hsin hclosed, respellCall_user_angle rfl]
    exact congrArg (writeCall "sin") (respell_name .user 255 hx)
  have hradians : toUser "sin(deg(x))" = writeCall "sin" "x" := by
    show respell .user 256 (writeCall "sin" (writeCall "deg" "x")) = _
    rw [respell, mapCalls_call hsin hconverted, respellCall_user_angle rfl,
      insideDeg?_writeCall hclosed]
    exact congrArg (writeCall "sin") (respell_name .user 255 hx)
  have hcode : toCode (writeCall "sin" "x") = "sin(deg(x))".toList := by
    rw [toCode, respell, mapCalls_call hsin hclosed, respellCall_code_angle rfl,
      respell_name .code 255 hx]
    rfl
  refine ⟨hlog, ?_, hdegrees.trans hradians.symm⟩
  rw [hdegrees, hcode]
  decide

end TexFigure.Expression
