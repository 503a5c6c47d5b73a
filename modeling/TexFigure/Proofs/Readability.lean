import TexFigure.Formula.Read
import TexFigure.Proofs.Classification
/-!
# What a classified fragment lacks when its template stands in

Classification looks for one sign of a construct anywhere in a fragment. The reader of the construct
asks for more: it goes to the first place where the command stands, and there it needs the parts
of the construct. A sign is enough for matrices, integrals, sums, products and limits, whose parts
may all be left out. The other constructs have parts that a fragment can lack, and `IsReadable` says
which, without the readers:

> `readClassified_iff`: a fragment is read as its class from its own text exactly when it has the
> parts of that class; the template of the class stands in for any other.
-/

namespace TexFigure

open Source

namespace Formula

/-- A step over braces that refuses nothing: a closing brace that closes nothing does not count. -/
def passStep (depth : Nat) (escaped : Bool) (c : Char) : Option Nat :=
  some (braceDepth depth escaped c)

/-- Whether the place behind a text is outside all brace groups and not escaped. -/
def IsOutside (text : Text) : Prop := walk? passStep 0 false text = some (0, false)

/-- Whether a text begins with the two groups of a derivative, without braces in them and with a
mark in front of each. -/
def BeginsWithParts (mark text : Text) : Prop :=
  ∃ numerator denominator trailing,
    text = Text.braced numerator ++ (Text.braced denominator ++ trailing) ∧
      (isBraceFree numerator = true ∧ mark <+: Text.trimStart numerator) ∧
        isBraceFree denominator = true ∧ mark <+: Text.trimStart denominator

/-- Whether a fragment that shows the construct of a tag has the parts of the construct. -/
def IsReadable (text : Text) : Tag → Prop
  | .fraction => ∃ after numerator rest, afterCommand? "\\frac" text = some after ∧
      argument? after = some (numerator, rest) ∧ Text.skipBlanks rest ≠ []
  | .nthRoot | .squareRoot => ∃ after, afterCommand? "\\sqrt" text = some after ∧
      Text.skipBlanks (afterBrackets after) ≠ []
  | .partialDerivative => ∃ before after, Text.cut? text "\\frac" = some (before, after) ∧
      BeginsWithParts "\\partial" after
  | .derivative => ∃ before after, Text.cut? text "\\frac" = some (before, after) ∧
      BeginsWithParts "d" after
  | .superscript => ∃ base rest, text = base ++ '^' :: '{' :: rest ∧ IsOutside base
  | .subscript => ∃ base rest, text = base ++ '_' :: '{' :: rest ∧ IsOutside base
  | _ => True

/-! ## Arguments -/

/-- An argument can be read where a text goes on behind its blanks. -/
theorem argument?_isSome_iff {text : Text} :
    (argument? text).isSome = true ↔ Text.skipBlanks text ≠ [] := by
  unfold argument?
  split
  next hnil => simp [hnil]
  next hbrace => simp [hbrace]
  next rest hslash =>
    rw [hslash]
    split <;> simp
  next c rest _ _ hstart => simp [hstart]

theorem readFraction?_isSome_iff {text : Text} :
    (readFraction? text).isSome = true ↔ IsReadable text .fraction := by
  rw [readFraction?, IsReadable]
  simp only [Option.bind_eq_bind, Option.isSome_bind, Option.any_eq_true, Prod.exists,
    ← argument?_isSome_iff, Option.pure_def]
  constructor
  · rintro ⟨after, hafter, numerator, rest, hnumerator, denominator, rest', hdenominator, -⟩
    exact ⟨after, numerator, rest, hafter, hnumerator, by rw [hdenominator]; rfl⟩
  · rintro ⟨after, numerator, rest, hafter, hnumerator, hrest⟩
    obtain ⟨⟨denominator, rest'⟩, hdenominator⟩ := Option.isSome_iff_exists.mp hrest
    exact ⟨after, hafter, numerator, rest, hnumerator, denominator, rest', hdenominator, rfl⟩

theorem readRoot?_isSome_iff {text : Text} :
    (readRoot? text).isSome = true ↔ IsReadable text .squareRoot := by
  have hafter : ∀ after : Text, ((brackets? after).getD ([], after)).2 = afterBrackets after := by
    intro after
    rw [afterBrackets]
    cases brackets? after <;> rfl
  rw [readRoot?, IsReadable]
  simp only [Option.bind_eq_bind, Option.isSome_bind, Option.any_eq_true, Option.pure_def, hafter,
    ← argument?_isSome_iff, Option.isSome_some, and_true, Option.isSome_iff_exists]

/-! ## Scripts -/

/-- A backslash and the character behind it are passed over together. -/
theorem walk?_passStep_backslash (depth : Nat) (c : Char) (text : Text) :
    walk? passStep depth false ('\\' :: c :: text) = walk? passStep depth false text :=
  walk?_backslash rfl rfl text

/-- The search for a marker finds it wherever it stands outside all brace groups. -/
theorem cutAtScript?_isSome_iff {first : Char} {marker text : Text} {depth : Nat}
    (hfirst : isPlain first = true) :
    (cutAtScript? (first :: marker) depth text).isSome = true ↔
      ∃ base rest, text = base ++ first :: (marker ++ rest) ∧
        walk? passStep depth false base = some (0, false) := by
  have hplain := isPlain_iff.mp hfirst
  fun_induction cutAtScript? (first :: marker) depth text with
  | case1 => simp
  | case2 =>
    -- a backslash alone holds no marker
    simp only [Option.isSome_none, Bool.false_eq_true, false_iff]
    rintro ⟨base, rest, htext, -⟩
    cases base with
    | nil => exact hplain.2.2.2.2 (List.cons.inj htext).1.symm
    | cons c base => simp at htext
  | case3 depth c text ih =>
    rw [Option.isSome_map]
    refine ih.trans ⟨?_, ?_⟩
    · rintro ⟨base, rest, rfl, hwalk⟩
      exact ⟨'\\' :: c :: base, rest, rfl, (walk?_passStep_backslash _ _ _).trans hwalk⟩
    · rintro ⟨base, rest, htext, hwalk⟩
      match base with
      | [] => exact absurd (List.cons.inj htext).1.symm hplain.2.2.2.2
      | ['\\'] => cases hwalk
      | c :: d :: base =>
        simp only [List.cons_append, List.cons.injEq] at htext
        obtain ⟨rfl, rfl, rfl⟩ := htext
        exact ⟨base, rest, rfl, (walk?_passStep_backslash _ _ _).symm.trans hwalk⟩
  | case4 depth c text _ _ hfound =>
    obtain ⟨rfl, -, hmark⟩ := hfound
    obtain ⟨rest, hrest⟩ := List.isPrefixOf_iff_prefix.mp hmark
    exact iff_of_true rfl ⟨[], rest, hrest.symm, rfl⟩
  | case5 depth c text hlone hpair hpass ih =>
    have hc : c ≠ '\\' := by
      rintro rfl
      cases text with
      | nil => exact hlone rfl rfl
      | cons d text => exact hpair d text rfl rfl
    have hescapes : escapes false c = false := by simp [escapes, hc]
    rw [Option.isSome_map]
    refine ih.trans ⟨?_, ?_⟩
    · rintro ⟨base, rest, rfl, hwalk⟩
      exact ⟨c :: base, rest, rfl, walk?_cons_eq_some.mpr ⟨_, rfl, by rwa [hescapes]⟩⟩
    · rintro ⟨base, rest, htext, hwalk⟩
      cases base with
      | nil =>
        obtain ⟨rfl, rfl⟩ := List.cons.inj htext
        obtain rfl : depth = 0 := congrArg Prod.fst (Option.some.inj hwalk)
        refine absurd ⟨rfl, ?_, ?_⟩ hpass
        · simp [isDelimiter, hplain]
        · exact List.isPrefixOf_iff_prefix.mpr ⟨rest, rfl⟩
      | cons d base =>
        obtain ⟨rfl, rfl⟩ := List.cons.inj htext
        obtain ⟨next, hnext, hrest⟩ := walk?_cons_eq_some.mp hwalk
        obtain rfl : braceDepth depth false c = next := Option.some.inj hnext
        rw [hescapes] at hrest
        exact ⟨base, rest, rfl, hrest⟩

/-- What a cut at a marker leaves starts with the marker. -/
theorem prefix_of_cutAtScript? {first : Char} {marker text base script : Text} {depth : Nat}
    (h : cutAtScript? (first :: marker) depth text = some (base, script)) :
    first :: marker <+: script := by
  fun_induction cutAtScript? (first :: marker) depth text generalizing base with
  | case1 => cases h
  | case2 => cases h
  | case3 depth c text ih =>
    obtain ⟨⟨base', script'⟩, hcut, heq⟩ := Option.map_eq_some_iff.mp h
    obtain ⟨-, rfl⟩ := Prod.mk.inj heq
    exact ih hcut
  | case4 depth c text _ _ hfound =>
    obtain ⟨-, rfl⟩ := Prod.mk.inj (Option.some.inj h)
    exact List.isPrefixOf_iff_prefix.mp hfound.2.2
  | case5 depth c text _ _ _ ih =>
    obtain ⟨⟨base', script'⟩, hcut, heq⟩ := Option.map_eq_some_iff.mp h
    obtain ⟨-, rfl⟩ := Prod.mk.inj heq
    exact ih hcut

/-- A script is read wherever its marker stands outside all brace groups. -/
theorem readScript?_isSome_iff {marker : Char} {text : Text} (hmarker : isPlain marker = true) :
    (readScript? [marker, '{'] text).isSome = true ↔
      ∃ base rest, text = base ++ marker :: '{' :: rest ∧ IsOutside base := by
  refine Iff.trans ?_ (@cutAtScript?_isSome_iff marker ['{'] text 0 hmarker)
  rw [readScript?]
  cases hcut : cutAtScript? [marker, '{'] 0 text with
  | none => simp
  | some cut =>
    -- the marker ends in the brace that opens the group of the script
    obtain ⟨base, script⟩ := cut
    obtain ⟨rest, rfl⟩ := prefix_of_cutAtScript? hcut
    exact iff_of_true rfl rfl

/-! ## Derivatives -/

/-- Half of a derivative opens with a brace, and the first brace behind its mark closes it. -/
theorem exists_derivativePart?_eq_some {mark text after : Text} :
    (∃ name, derivativePart? mark text = some (name, after)) ↔
      ∃ rest name, text = '{' :: rest ∧ wordBehindBlanks? mark rest = some name ∧
        ∃ inside, name = inside ++ '}' :: after ∧ isBraceFree inside = true := by
  simp only [← dropWhile_eq_brace_iff]
  constructor
  · rintro ⟨found, h⟩
    unfold derivativePart? at h
    split at h
    next rest =>
      dsimp only at h
      split at h
      next name hmark =>
        split at h
        next after' hdrop =>
          obtain ⟨-, rfl⟩ := Prod.mk.inj (Option.some.inj h)
          exact ⟨rest, name, rfl, hmark, hdrop⟩
        next => cases h
      next => cases h
    next => cases h
  · rintro ⟨rest, name, rfl, hmark, hdrop⟩
    exact ⟨Text.trim (name.takeWhile fun c => !(c == '{' || c == '}')),
      by simp only [derivativePart?, hmark, hdrop]⟩

section
variable {first : Char} {mark : Text} (hfirst : isBlank first = false)
  (hfree : isBraceFree (first :: mark) = true)
include hfirst hfree

/-- Half of a derivative is a group without braces in it and with the mark in front. -/
theorem exists_derivativePart?_iff {text after : Text} :
    (∃ name, derivativePart? (first :: mark) text = some (name, after)) ↔
      ∃ inside, text = Text.braced inside ++ after ∧ isBraceFree inside = true ∧
        first :: mark <+: Text.trimStart inside := by
  rw [exists_derivativePart?_eq_some]
  constructor
  · rintro ⟨rest, _, rfl, hmark, inside, rfl, hinside⟩
    have hstart : Text.trimStart rest = first :: mark ++ (inside ++ '}' :: after) :=
      Text.isPrefixOf?_eq_some.mp hmark
    -- the group is the blanks that were trimmed, the mark, and what comes up to the brace
    have hblank : (rest.takeWhile isBlank).all isBlank = true := List.all_takeWhile
    have htrim : Text.trimStart (rest.takeWhile isBlank ++ (first :: mark ++ inside)) =
        first :: mark ++ inside := by
      rw [Text.trimStart_blanks hblank, List.cons_append, Text.trimStart_cons hfirst]
    refine ⟨rest.takeWhile isBlank ++ (first :: mark ++ inside), ?_, ?_, ?_⟩
    · calc '{' :: rest = '{' :: (rest.takeWhile isBlank ++ Text.trimStart rest) := by
            rw [Text.trimStart, List.takeWhile_append_dropWhile]
        _ = _ := by
            rw [hstart]
            simp [Text.braced]
    · refine isBraceFree_of_trimStart ?_
      rw [htrim, isBraceFree, List.all_append, Bool.and_eq_true]
      exact ⟨hfree, hinside⟩
    · rw [htrim]
      exact List.prefix_append (first :: mark) inside
  · rintro ⟨inside, rfl, hinside, rest, hrest⟩
    refine ⟨inside ++ '}' :: after, rest ++ '}' :: after, ?_, ?_, rest, rfl, ?_⟩
    · simp [Text.braced]
    · refine Text.isPrefixOf?_eq_some.mpr ?_
      rw [trimStart_append_cons hrest.symm]
      simp
    · refine List.all_eq_true.mpr fun c hc => List.all_eq_true.mp hinside c ?_
      refine (List.dropWhile_suffix isBlank).subset (show c ∈ Text.trimStart inside from ?_)
      rw [← hrest]
      exact List.mem_append_right _ hc

/-- A text begins with the groups of a derivative exactly when the two are read in turn. -/
theorem beginsWithParts_iff {text : Text} :
    BeginsWithParts (first :: mark) text ↔ ∃ behind trailing,
      (∃ name, derivativePart? (first :: mark) text = some (name, behind)) ∧
        ∃ name, derivativePart? (first :: mark) behind = some (name, trailing) := by
  simp only [exists_derivativePart?_iff hfirst hfree, BeginsWithParts]
  constructor
  · rintro ⟨numerator, denominator, trailing, htext, hnumerator, hdenominator⟩
    exact ⟨_, trailing, ⟨numerator, htext, hnumerator⟩, denominator, rfl, hdenominator⟩
  · rintro ⟨behind, trailing, ⟨numerator, htext, hnumerator⟩, denominator, rfl, hdenominator⟩
    exact ⟨numerator, denominator, trailing, htext, hnumerator, hdenominator⟩

theorem readDerivative?_isSome_iff {text : Text} (isPartial : Bool) :
    (readDerivative? (first :: mark) isPartial text).isSome = true ↔
      ∃ before after, Text.cut? text "\\frac" = some (before, after) ∧
        BeginsWithParts (first :: mark) after := by
  simp only [beginsWithParts_iff hfirst hfree, readDerivative?, Option.bind_eq_bind,
    Option.isSome_bind, Option.any_eq_true, Prod.exists, Option.pure_def, Option.isSome_some,
    and_true]
  constructor
  · rintro ⟨before, after, hcut, name, behind, hnumerator, name', trailing, hdenominator⟩
    exact ⟨before, after, hcut, behind, trailing, ⟨name, hnumerator⟩, name', hdenominator⟩
  · rintro ⟨before, after, hcut, behind, trailing, ⟨name, hnumerator⟩, name', hdenominator⟩
    exact ⟨before, after, hcut, name, behind, hnumerator, name', trailing, hdenominator⟩

end

/-! ## All tags -/

theorem readOperator?_isSome (command text : Text) :
    (readOperator? command text).isSome = hasCommand command text := by
  rw [readOperator?, afterCommand?, Option.isSome_map, Option.isSome_map, hasCommand]

theorem splitAtFirst_isSome {α : Type} (accept : Text → Option α) (text : Text) :
    (Text.splitAtFirst accept text).isSome = anySuffix (fun rest => (accept rest).isSome) text := by
  induction text with
  | nil => rw [Text.splitAtFirst, Option.isSome_map, anySuffix]
  | cons c rest ih =>
    rw [Text.splitAtFirst, anySuffix, ← ih]
    cases accept (c :: rest) with
    | none => rw [Option.isSome_map]; rfl
    | some a => rfl

/-- A fragment that shows the construct of a tag can be read as that construct exactly when it has
the parts of it. -/
theorem readAs?_isSome_iff {text : Text} {tag : Tag} (h : shows text tag = true) :
    (readAs? tag text).isSome = true ↔ IsReadable text tag := by
  cases tag with
  | matrix =>
    refine iff_of_true ?_ trivial
    rw [shows, ← splitAtFirst_isSome] at h
    obtain ⟨⟨before, delimiter, after⟩, hcut⟩ := Option.isSome_iff_exists.mp h
    rw [readAs?, readMatrix?, hcut]
    rfl
  | partialDerivative => exact @readDerivative?_isSome_iff '\\' "partial" rfl rfl text true
  | derivative => exact @readDerivative?_isSome_iff 'd' [] rfl rfl text false
  | fraction => exact readFraction?_isSome_iff
  | doubleIntegral =>
    refine iff_of_true ?_ trivial
    rw [readAs?, readDoubleIntegral?, Option.isSome_map, readOperator?_isSome]
    exact h
  | integral =>
    refine iff_of_true ?_ trivial
    rw [readAs?, readIntegral?, Option.isSome_map, readOperator?_isSome]
    exact h
  | sum | product =>
    refine iff_of_true ?_ trivial
    rw [readAs?, readBigOperator?, Option.isSome_map, readOperator?_isSome]
    exact h
  | limit =>
    refine iff_of_true ?_ trivial
    rw [readAs?, readLimit?, Option.isSome_map, readOperator?_isSome]
    exact h
  | nthRoot | squareRoot => exact readRoot?_isSome_iff
  | superscript =>
    rw [readAs?, Option.isSome_map]
    exact readScript?_isSome_iff (by decide)
  | subscript =>
    rw [readAs?, Option.isSome_map]
    exact readScript?_isSome_iff (by decide)
  | generic => cases h

/-- A fragment is read as its class from its own text exactly when it has the parts of the class;
the template of the class stands in for any other fragment. -/
theorem readClassified_iff (text : Text) :
    ((∃ formula, readAs? (classify text) text = some formula ∧ readClassified text = formula) ↔
        IsReadable text (classify text)) ∧
      (¬IsReadable text (classify text) → readClassified text = template (classify text)) := by
  have hreadable : (readAs? (classify text) text).isSome = true ↔
      IsReadable text (classify text) := by
    by_cases hgeneric : classify text = .generic
    · rw [hgeneric]
      exact iff_of_true rfl trivial
    · exact readAs?_isSome_iff ((classify_eq_iff hgeneric).mp rfl).1
  constructor
  · rw [← hreadable, Option.isSome_iff_exists]
    refine exists_congr fun formula => and_iff_left_of_imp fun h => ?_
    rw [readClassified, read, h, Option.getD_some]
  · intro h
    rw [← hreadable, Option.not_isSome_iff_eq_none] at h
    rw [readClassified, read, h, Option.getD_none]

/-- A fraction without a denominator is classified as a fraction, and the template stands in for
it: nothing is left of its numerator. -/
theorem readClassified_lone_numerator :
    shows "\\frac\x7bn\x7d" .fraction = true ∧
      classify "\\frac\x7bn\x7d" = .fraction ∧
        readAs? .fraction "\\frac\x7bn\x7d" = none ∧
          readClassified "\\frac\x7bn\x7d" = template .fraction := by
  decide

end Formula

end TexFigure
