import TexFigure.Proofs.Atoms
import TexFigure.Proofs.Rows
/-!
# Mixtures

A token is cut at its exclamation marks into colours and percentages in turn, and folded from the
left.

> `ofToken?_mixture`: a mixture that goes on with a percentage and a colour is the mixture so far,
> mixed with that colour; all of it when the percentage is 100 and nothing of it when it is 0. What
> a percentage at the end means has no influence on a token that ends with a colour, and a token has
> a colour exactly when all its parts are colours and percentages in turn.

No colour without a mixture has an exclamation mark (`not_mem_of_ofAtom?`), so that every token is
read by its parts (`ofToken?_eq_foldParts?`): the reading of the whole token as one colour, which
is tried first, is the case of one part. The walk over the parts takes two at a time, a percentage
and a colour, and so do the inductions on it.
-/

namespace TexFigure.Color

open Text

/-! ## Parts -/

/-- The parts of a token between its exclamation marks. -/
def partsOf (token : Text) : List Text := (splitOn '!' token).map trim

/-- A token without an exclamation mark is its own only part. -/
theorem partsOf_of_not_mem {token : Text} (h : '!' ∉ token) : partsOf token = [trim token] := by
  rw [partsOf, splitOn_of_not_mem h]
  rfl

/-- An exclamation mark divides the parts of what stands on its two sides. -/
theorem partsOf_append_cons (before after : Text) :
    partsOf (before ++ '!' :: after) = partsOf before ++ partsOf after := by
  rw [partsOf, splitOn_append_cons, List.map_append]
  rfl

/-- Blanks in front of a token belong to its first part, which is trimmed. -/
theorem partsOf_blanks {blanks : Text} (h : blanks.all isBlank) (token : Text) :
    partsOf (blanks ++ token) = partsOf token := by
  induction blanks with
  | nil => rfl
  | cons c blanks ih =>
    obtain ⟨hc, hrest⟩ := Bool.and_eq_true_iff.mp h
    have hne : c ≠ '!' := by
      rintro rfl
      cases hc
    obtain ⟨part, parts, hparts⟩ :=
      List.exists_cons_of_ne_nil (splitWhere_ne_nil (p := (· == '!')) (blanks ++ token))
    rw [← ih hrest, List.cons_append, partsOf, partsOf, splitOn, splitOn, splitWhere,
      if_neg (by simpa using hne), hparts, consToFirst, List.map_cons, List.map_cons,
      trim_cons_blank hc]

/-- A token is one part, or a part and the parts behind its first exclamation mark. -/
theorem parts_induction {motive : Text → Prop} (one : ∀ part, '!' ∉ part → motive part)
    (more : ∀ part rest, '!' ∉ part → motive rest → motive (part ++ '!' :: rest)) (token : Text) :
    motive token := by
  by_cases hmem : '!' ∈ token
  · obtain ⟨part, rest, rfl, hpart⟩ := List.eq_append_cons_of_mem hmem
    exact more part rest hpart (parts_induction one more rest)
  · exact one token hmem
termination_by token.length
decreasing_by
  subst_vars
  simp only [List.length_append, List.length_cons]
  omega

/-- Blanks behind it belong to its last part, which is trimmed as well. -/
theorem partsOf_append_blanks {blanks : Text} (h : blanks.all isBlank) (token : Text) :
    partsOf (token ++ blanks) = partsOf token := by
  induction token using parts_induction with
  | one part hpart =>
    have hnot : '!' ∉ part ++ blanks := by
      rw [List.mem_append]
      exact not_or.mpr ⟨hpart, not_mem_blanks h⟩
    rw [partsOf_of_not_mem hnot, partsOf_of_not_mem hpart, trim_append_blanks h]
  | more part rest _ ih =>
    rw [List.append_assoc, List.cons_append, partsOf_append_cons, partsOf_append_cons, ih]

/-- So a token has the same parts when it is trimmed. -/
theorem partsOf_trim (token : Text) : partsOf (trim token) = partsOf token := by
  obtain ⟨before, after, htoken, hbefore, hafter⟩ := exists_trim token
  conv_rhs => rw [htoken]
  rw [partsOf_append_blanks hafter, partsOf_blanks hbefore]

/-- A token has one part more than exclamation marks. -/
theorem length_partsOf (token : Text) : (partsOf token).length = token.count '!' + 1 := by
  induction token using parts_induction with
  | one part hpart =>
    rw [partsOf_of_not_mem hpart, List.count_eq_zero.mpr hpart]
    rfl
  | more part rest hpart ih =>
    rw [partsOf_append_cons, List.length_append, partsOf_of_not_mem hpart, ih, List.count_append,
      List.count_eq_zero.mpr hpart, List.count_cons_self, List.length_singleton]
    omega

/-! ## The walk over the parts -/

/-- A percentage is cut down to the range from none to all of it. -/
theorem share?_eq_some {percentage : Text} {p : Float} (h : Decimal.readFloat? percentage = some p)
    (hp : p.isFinite = true) :
    share? percentage = some (Double.clamp 0.0 100.0 p / 100.0) := by
  rw [share?, h]
  exact if_pos hp

/-- A percentage is refused when it is no number, or none that is finite. -/
theorem share?_eq_none_iff {percentage : Text} :
    share? percentage = none ↔
      ∀ p, Decimal.readFloat? percentage = some p → p.isFinite = false := by
  rw [share?]
  cases Decimal.readFloat? percentage with
  | none => exact iff_of_true rfl fun _ h => nomatch h
  | some p =>
    show (if p.isFinite = true then some _ else none) = none ↔ _
    cases hp : p.isFinite with
    | false => exact iff_of_true rfl fun q hq => Option.some.inj hq ▸ hp
    | true => exact iff_of_false (by simp) fun hall => nomatch hp.symm.trans (hall p rfl)

/-- A share has been read from a number. -/
theorem exists_of_share? {percentage : Text} {share : Float} (h : share? percentage = some share) :
    ∃ p, Double.sign? (Double.parts p) ≠ none ∧ share = Double.clamp 0.0 100.0 p / 100.0 := by
  obtain ⟨p, hp, h⟩ := Option.bind_eq_some_iff.mp h
  split at h
  next hfinite =>
    refine ⟨p, ?_, (Option.some.inj h).symm⟩
    have hsign : ∀ u : Float.Model.UnpackedFloat, u.isFinite = true → Double.sign? u ≠ none := by
      rintro (_ | _ | _ | _) hu
      · cases hu
      · cases hu
      · rintro ⟨⟩
      · rintro ⟨⟩
    exact hsign _ hfinite
  next => cases h

variable {blend mode : Blend} {color : Color} {rest : List Text}

theorem even_of_cons_cons {first second : Text} (h : Even (first :: second :: rest).length) :
    Even rest.length := by
  rwa [List.length_cons, List.length_cons, Nat.even_add_one, Nat.even_add_one, not_not] at h

/-- Two more parts at the end are a percentage and a colour that the mixture is mixed with. -/
theorem mixParts?_append (h : Even rest.length) (percentage other : Text) :
    mixParts? blend color (rest ++ [percentage, other]) =
      (mixParts? blend color rest).bind fun color => (share? percentage).bind fun share =>
        (ofAtom? other).bind fun other => some (color.mix other share) := by
  fun_induction mixParts? blend color rest with
  | case1 color => rfl
  | case2 color single => exact absurd h Nat.not_even_one
  | case3 color percentage' other' rest ih =>
    rw [List.cons_append, List.cons_append, mixParts?]
    cases share? percentage' with
    | none => rfl
    | some share =>
      cases ofAtom? other' with
      | none => rfl
      | some other => exact ih share other (even_of_cons_cons h)

/-- A walk that ends with a colour makes no use of what a percentage at the end means. -/
theorem mixParts?_congr (blend mode : Blend) (h : Even rest.length) :
    mixParts? blend color rest = mixParts? mode color rest := by
  fun_induction mixParts? blend color rest with
  | case1 color => rfl
  | case2 color single => exact absurd h Nat.not_even_one
  | case3 color percentage other rest ih =>
    rw [mixParts?]
    exact bind_congr fun share => bind_congr fun other => ih share other (even_of_cons_cons h)

/-- The walk fails exactly when a part cannot be read in its place. -/
theorem mixParts?_eq_none_iff :
    mixParts? blend color rest = none ↔
      ∃ i part, rest[i]? = some part ∧
        (i % 2 = 0 ∧ share? part = none ∨ i % 2 = 1 ∧ ofAtom? part = none) := by
  fun_induction mixParts? blend color rest with
  | case1 color => simp
  | case2 color percentage =>
    rw [Option.map_eq_none_iff]
    constructor
    · exact fun h => ⟨0, percentage, rfl, Or.inl ⟨rfl, h⟩⟩
    · rintro ⟨i, part, hpart, h⟩
      obtain ⟨rfl, rfl⟩ : i = 0 ∧ percentage = part := by
        cases i with
        | zero => exact ⟨rfl, Option.some.inj hpart⟩
        | succ i => cases hpart
      exact (h.resolve_right (by omega)).2
  | case3 color percentage other rest ih =>
    cases hshare : share? percentage with
    | none => exact iff_of_true rfl ⟨0, percentage, rfl, Or.inl ⟨rfl, hshare⟩⟩
    | some share =>
      cases hother : ofAtom? other with
      | none => exact iff_of_true rfl ⟨1, other, rfl, Or.inr ⟨rfl, hother⟩⟩
      | some color' =>
        refine (ih share color').trans ⟨?_, ?_⟩
        · rintro ⟨i, part, hpart, h⟩
          refine ⟨i + 2, part, hpart, ?_⟩
          rwa [Nat.add_mod_right]
        · rintro ⟨i, part, hpart, h⟩
          match i, hpart with
          | 0, hpart =>
            obtain rfl := Option.some.inj hpart
            have hnone := (h.resolve_right (by omega)).2
            cases hshare.symm.trans hnone
          | 1, hpart =>
            obtain rfl := Option.some.inj hpart
            have hnone := (h.resolve_left (by omega)).2
            cases hother.symm.trans hnone
          | i + 2, hpart =>
            rw [Nat.add_mod_right] at h
            exact ⟨i, part, hpart, h⟩

/-- A mixture that ends with a colour stays bounded. -/
theorem isBounded_mixParts? (h : Even rest.length) (hcolor : IsBounded (2 ^ 100) color)
    {mixture : Color} (hmix : mixParts? blend color rest = some mixture) :
    IsBounded (2 ^ 100) mixture := by
  fun_induction mixParts? blend color rest with
  | case1 color => exact Option.some.inj hmix ▸ hcolor
  | case2 color single => exact absurd h Nat.not_even_one
  | case3 color percentage other rest ih =>
    obtain ⟨share, hshare, hmix⟩ := Option.bind_eq_some_iff.mp hmix
    obtain ⟨other, hother, hmix⟩ := Option.bind_eq_some_iff.mp hmix
    obtain ⟨p, hp, rfl⟩ := exists_of_share? hshare
    exact ih _ other (even_of_cons_cons h)
      (isBounded_mix hcolor (isBounded_ofAtom? hother) hp) hmix

/-! ## Tokens -/

/-- An atom is trimmed before it is read. -/
theorem ofAtom?_trim (token : Text) : ofAtom? (trim token) = ofAtom? token := by
  rw [ofAtom?, trim_trim, ofAtom?]

/-- The colour of the parts of a token. -/
def foldParts? (blend : Blend) : List Text → Option Color
  | [] => none
  | first :: rest => (ofAtom? first).bind fun color => mixParts? blend color rest

/-- A token is read by its parts, also when it is one colour. -/
theorem ofToken?_eq_foldParts? (blend : Blend) (token : Text) :
    ofToken? blend token = foldParts? blend (partsOf token) := by
  have hone (h : '!' ∉ trim token) : foldParts? blend (partsOf token) = ofAtom? (trim token) := by
    rw [← partsOf_trim, partsOf_of_not_mem h, trim_trim]
    exact Option.bind_fun_some _
  rw [ofToken?]
  split
  next color hcolor => rw [hone (not_mem_of_ofAtom? hcolor), hcolor]
  next hnone =>
    split
    next =>
      rw [← partsOf_trim]
      rfl
    next hmem => rw [hone hmem, hnone]

/-- The parts of a mixture that ends with a colour: the first is a colour, and behind it
percentages and colours are paired. -/
theorem exists_parts {token : Text} (h : Even (token.count '!')) :
    ∃ first rest, partsOf token = first :: rest ∧ Even rest.length := by
  have hlength := length_partsOf token
  obtain ⟨first, rest, hparts⟩ := List.exists_cons_of_length_eq_add_one hlength
  rw [hparts, List.length_cons, Nat.add_right_cancel_iff] at hlength
  exact ⟨first, rest, hparts, hlength ▸ h⟩

variable {token percentage atom : Text} {mixture other : Color} {p : Float}

/-- A percentage and a colour behind a mixture are mixed into it. -/
theorem ofToken?_append (mode : Blend) (hmixture : ofToken? blend token = some mixture)
    (heven : Even (token.count '!')) (hatom : ofAtom? atom = some other)
    (hread : Decimal.readFloat? (trim percentage) = some p) (hp : p.isFinite = true) :
    ofToken? mode (token ++ '!' :: (percentage ++ '!' :: atom)) =
      some (mixture.mix other (Double.clamp 0.0 100.0 p / 100.0)) := by
  obtain ⟨first, rest, hparts, hrest⟩ := exists_parts heven
  have hmem : '!' ∉ percentage := fun hmem => Decimal.not_mem_of_readFloat? hread (mem_trim hmem)
  have htail : partsOf (percentage ++ '!' :: atom) = [trim percentage, trim atom] := by
    rw [partsOf_append_cons, partsOf_of_not_mem hmem, partsOf_of_not_mem (not_mem_of_ofAtom? hatom)]
    rfl
  rw [ofToken?_eq_foldParts?, hparts] at hmixture
  obtain ⟨color, hfirst, hmix⟩ := Option.bind_eq_some_iff.mp hmixture
  rw [mixParts?_congr blend mode hrest] at hmix
  rw [ofToken?_eq_foldParts?, partsOf_append_cons, htail, hparts, List.cons_append, foldParts?,
    hfirst, Option.bind_some, mixParts?_append hrest, hmix, share?_eq_some hread hp, ofAtom?_trim,
    hatom]
  rfl

theorem isBounded_ofToken? (hmixture : ofToken? blend token = some mixture)
    (heven : Even (token.count '!')) : IsBounded (2 ^ 100) mixture := by
  obtain ⟨first, rest, hparts, hrest⟩ := exists_parts heven
  rw [ofToken?_eq_foldParts?, hparts] at hmixture
  obtain ⟨color, hfirst, hmix⟩ := Option.bind_eq_some_iff.mp hmixture
  exact isBounded_mixParts? hrest ((isBounded_ofAtom? hfirst).mono (by norm_num)) hmix

/-- With an even number of marks no percentage is left at the end that no colour follows, so it does
not matter what one would mean. -/
theorem ofToken?_congr (blend mode : Blend) {token : Text} (heven : Even (token.count '!')) :
    ofToken? blend token = ofToken? mode token := by
  obtain ⟨first, rest, hparts, hrest⟩ := exists_parts heven
  rw [ofToken?_eq_foldParts?, ofToken?_eq_foldParts?, hparts, foldParts?, foldParts?]
  cases ofAtom? first with
  | none => rfl
  | some color => exact mixParts?_congr blend mode hrest

theorem foldParts?_eq_none_iff {parts : List Text} (hne : parts ≠ []) :
    foldParts? blend parts = none ↔
      ∃ i part, parts[i]? = some part ∧
        (i % 2 = 0 ∧ ofAtom? part = none ∨ i % 2 = 1 ∧ share? part = none) := by
  obtain ⟨first, rest, rfl⟩ := List.exists_cons_of_ne_nil hne
  cases hfirst : ofAtom? first with
  | none =>
    rw [foldParts?, hfirst]
    exact iff_of_true rfl ⟨0, first, rfl, Or.inl ⟨rfl, hfirst⟩⟩
  | some color =>
    rw [foldParts?, hfirst, Option.bind_some, mixParts?_eq_none_iff]
    constructor
    · rintro ⟨i, part, hpart, h⟩
      exact ⟨i + 1, part, hpart, h.symm.imp (And.imp_left (by omega)) (And.imp_left (by omega))⟩
    · rintro ⟨i, part, hpart, h⟩
      cases i with
      | zero =>
        obtain rfl := Option.some.inj hpart
        have hnone := (h.resolve_right (by omega)).2
        cases hfirst.symm.trans hnone
      | succ i =>
        exact ⟨i, part, hpart, h.symm.imp (And.imp_left (by omega)) (And.imp_left (by omega))⟩

theorem ofToken?_eq_none_iff {token : Text} :
    ofToken? mode token = none ↔
      ∃ i part, (splitOn '!' token)[i]? = some part ∧
        (i % 2 = 0 ∧ ofAtom? part = none ∨
          i % 2 = 1 ∧ ∀ p, Decimal.readFloat? (trim part) = some p → p.isFinite = false) := by
  have hne : partsOf token ≠ [] := by
    rw [partsOf, Ne, List.map_eq_nil_iff]
    exact splitWhere_ne_nil token
  rw [ofToken?_eq_foldParts?, foldParts?_eq_none_iff hne]
  constructor
  · rintro ⟨i, part, hpart, h⟩
    rw [partsOf, List.getElem?_map, Option.map_eq_some_iff] at hpart
    obtain ⟨part, hpart, rfl⟩ := hpart
    rw [ofAtom?_trim, share?_eq_none_iff] at h
    exact ⟨i, part, hpart, h⟩
  · rintro ⟨i, part, hpart, h⟩
    refine ⟨i, trim part, ?_, ?_⟩
    · rw [partsOf, List.getElem?_map, hpart]
      rfl
    · rwa [ofAtom?_trim, share?_eq_none_iff]

/-- Colour mixtures are folded from the left. A token that ends with a colour goes on with a
percentage, perhaps between blanks, and a colour that is no mixture: its own colour is then mixed
with that one, and all of it is kept from 100 percent on and nothing of it down from 0. What a
percentage at the end means makes no difference to a token that ends with a colour. A token has no
colour exactly when a part of it is not the colour or the finite number that its place asks for. -/
theorem ofToken?_mixture :
    (∀ (blend mode : Blend) (token percentage atom : Text) (mixture other : Color) (p : Float),
      ofToken? blend token = some mixture → Even (token.count '!') → ofAtom? atom = some other →
      Decimal.readFloat? (trim percentage) = some p → p.isFinite = true →
        ofToken? mode atom = some other ∧
        ofToken? mode (token ++ '!' :: (percentage ++ '!' :: atom)) =
          some (mixture.mix other (Double.clamp 0.0 100.0 p / 100.0)) ∧
        (100.0 ≤ p → ofToken? mode (token ++ '!' :: (percentage ++ '!' :: atom)) = some mixture) ∧
        (p ≤ 0.0 → ofToken? mode (token ++ '!' :: (percentage ++ '!' :: atom)) = some other)) ∧
    (∀ token : Text, Even (token.count '!') → ofToken? .white token = ofToken? .opacity token) ∧
    ∀ (mode : Blend) (token : Text), ofToken? mode token = none ↔
      ∃ i part, (splitOn '!' token)[i]? = some part ∧
        (i % 2 = 0 ∧ ofAtom? part = none ∨
          i % 2 = 1 ∧ ∀ p, Decimal.readFloat? (trim part) = some p → p.isFinite = false) := by
  refine ⟨?_, fun token heven => ofToken?_congr .white .opacity heven,
    fun mode token => ofToken?_eq_none_iff⟩
  intro blend mode token percentage atom mixture other p hmixture heven hatom hread hp
  have hmix := ofToken?_append mode hmixture heven hatom hread hp
  -- what keeps the ends exact: neither colour has overflowed
  have hbounded := isBounded_ofToken? hmixture heven
  have hbounded' := isBounded_ofAtom? hatom
  refine ⟨?_, hmix, fun hwhole => ?_, fun hnone => ?_⟩
  · rw [ofToken?, ofAtom?_trim, hatom]
  · rw [hmix, mix_whole hbounded hbounded' hwhole]
  · rw [hmix, mix_none hbounded hbounded' hnone]

theorem ofToken?_mixture_chain :
    ofToken? .opacity "red!50!blue!25!black" =
      some (((ofChannels 255 0 0).mix (ofChannels 0 0 255) 0.5).mix (ofChannels 0 0 0) 0.25) := by
  have hfirst : ofToken? .white "red!50!blue" =
      some ((ofChannels 255 0 0).mix (ofChannels 0 0 255) 0.5) := by
    have hhalf : Double.clamp 0.0 100.0 50.0 / 100.0 = 0.5 := by decide +kernel
    rw [← hhalf]
    exact (ofToken?_mixture.1 .white .white "red" "50" "blue" _ _ 50.0 rfl (by decide) rfl
      (Decimal.readFloat?_trim rfl) (by decide)).2.1
  have hshare : Double.clamp 0.0 100.0 25.0 / 100.0 = 0.25 := by decide +kernel
  rw [← hshare]
  exact (ofToken?_mixture.1 .white .opacity "red!50!blue" "25" "black" _ _ 25.0 hfirst (by decide)
    rfl (Decimal.readFloat?_trim rfl) (by decide)).2.1

end TexFigure.Color
