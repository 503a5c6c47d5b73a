import TexFigure.Formula.Read
import TexFigure.Formula.Write
import TexFigure.Proofs.OptionList
/-!
# Superscripts and subscripts are read back

A script is read at the first marker outside all brace groups, and the base before it loses one
pair of braces. The base is written in braces when it holds the marker of a script, a blank or
another character that would tear it apart, and also when it is one group already. So no
marker of a written base stands outside its groups (`isUnmarked_writeBase`), and the braces that
are taken off are the ones that were put around it, or none (`stripBraces_writeBase`).

> `readScript?_writeBase`: behind its marker a script is read with the base that was written.
> `read_write_scripts`: a superscript and a subscript are read back from their written form.
-/

namespace TexFigure

open Source

namespace Formula

/-! ## Markers -/

/-- A step over braces that refuses a marker outside of them. -/
def scriptStep (marker : Char) (depth : Nat) (escaped : Bool) (c : Char) : Option Nat :=
  if depth = 0 ∧ c = marker then none else braceStep depth escaped c

/-- Whether a text is balanced with a marker inside its braces only. -/
def IsUnmarked (marker : Char) (text : Text) : Prop :=
  walk? (scriptStep marker) 0 false text = some (0, false)

section
variable {marker : Char}

/-- A marker inside a group is passed over like any character. -/
theorem scriptStep_inside {depth next : Nat} {escaped : Bool} {c : Char}
    (h : braceStep depth escaped c = some next) :
    scriptStep marker (depth + 1) escaped c = some (next + 1) := by
  rw [scriptStep, if_neg (by omega)]
  exact braceStep_add 1 h

/-- The step at a brace, which is no marker. -/
theorem scriptStep_open (hmarker : isPlain marker = true) :
    scriptStep marker 0 false '{' = some 1 := by
  have hne : ¬(0 = 0 ∧ '{' = marker) := by
    intro h
    exact (isPlain_iff.mp hmarker).1 h.2.symm
  rw [scriptStep, if_neg hne]
  rfl

/-- A balanced text in braces holds its markers inside of them. -/
theorem isUnmarked_braced (hmarker : isPlain marker = true) {text : Text} (h : IsBalanced text) :
    IsUnmarked marker (Text.braced text) := by
  have hinside : walk? (scriptStep marker) 1 false text = some (1, false) :=
    walk?_follow (· + 1) scriptStep_inside h
  have hclose : walk? (scriptStep marker) 1 false ['}'] = some (0, false) := by
    rw [walk?, scriptStep, if_neg (by omega)]
    rfl
  refine walk?_cons_eq_some.mpr ⟨1, scriptStep_open hmarker, ?_⟩
  show walk? (scriptStep marker) 1 false (text ++ ['}']) = some (0, false)
  rw [walk?_append, hinside]
  exact hclose

/-- A balanced text without a marker holds none outside of its braces. -/
theorem isUnmarked_of_not_mem {text : Text} (hmem : marker ∉ text) (h : IsBalanced text) :
    IsUnmarked marker text := by
  have hsteps : ∀ c ∈ text, ∀ depth escaped,
      scriptStep marker depth escaped c = braceStep depth escaped c := by
    intro c hc depth escaped
    rw [scriptStep, if_neg]
    intro hmarker
    exact hmem (hmarker.2 ▸ hc)
  rw [IsUnmarked, walk?_congr hsteps]
  exact h

/-- A step that is not refused is a step over braces. -/
theorem braceStep_of_scriptStep {depth next : Nat} {escaped : Bool} {c : Char}
    (h : scriptStep marker depth escaped c = some next) :
    ¬(depth = 0 ∧ c = marker) ∧ braceStep depth escaped c = some next := by
  rw [scriptStep] at h
  split at h
  next => cases h
  next hpass => exact ⟨hpass, h⟩

/-! ## Cutting at a marker -/

theorem cutAtScript?_cons {marker : Text} {depth : Nat} {c : Char} (hc : c ≠ '\\') (rest : Text) :
    cutAtScript? marker depth (c :: rest) =
      if depth = 0 ∧ isDelimiter c = false ∧ marker.isPrefixOf (c :: rest) then some ([], c :: rest)
      else
        (cutAtScript? marker (braceDepth depth false c) rest).map
          fun (base, script) => (c :: base, script) := by
  rw [cutAtScript?]
  · intro heq
    exact absurd heq hc
  · intro d tail heq
    exact absurd heq hc

/-- The search for a marker passes over whatever holds it inside its braces only. -/
theorem cutAtScript?_walk {behind text : Text} {depth depth' : Nat}
    (h : walk? (scriptStep marker) depth false text = some (depth', false)) (rest : Text) :
    cutAtScript? (marker :: behind) depth (text ++ rest) =
      (cutAtScript? (marker :: behind) depth' rest).map fun (base, script) =>
        (text ++ base, script) := by
  induction text using escape_induction generalizing depth with
  | nil =>
    cases h
    simp
  | slash =>
    -- a backslash alone would escape what follows it
    obtain ⟨next, -, hnil⟩ := walk?_cons_eq_some.mp h
    cases hnil
  | escaped c text ih =>
    obtain ⟨next, hslash, hrest⟩ := walk?_cons_eq_some.mp h
    obtain ⟨next', hc, hrest⟩ := walk?_cons_eq_some.mp hrest
    obtain rfl : depth = next := Option.some.inj (braceStep_of_scriptStep hslash).2
    obtain rfl : depth = next' := Option.some.inj (braceStep_of_scriptStep hc).2
    rw [walk?_backslash hslash hc] at h
    rw [List.cons_append, List.cons_append, cutAtScript?, ih h, Option.map_map]
    rfl
  | cons c text hc ih =>
    obtain ⟨next, hnext, hrest⟩ := walk?_cons_eq_some.mp h
    obtain ⟨hground, hstep⟩ := braceStep_of_scriptStep hnext
    have hescapes : escapes false c = false := by simp [escapes, hc]
    rw [hescapes] at hrest
    -- the walk would have refused the marker
    have hpass : ¬(depth = 0 ∧ isDelimiter c = false ∧
        (marker :: behind).isPrefixOf (c :: (text ++ rest)) = true) := by
      intro hfound
      obtain ⟨t, ht⟩ := List.isPrefixOf_iff_prefix.mp hfound.2.2
      exact hground ⟨hfound.1, (List.cons.inj ht).1.symm⟩
    rw [List.cons_append, cutAtScript?_cons hc, if_neg hpass, braceDepth_of_braceStep hstep,
      ih hrest, Option.map_map]
    rfl

/-- The first marker outside all braces is the one behind a text that has none there. -/
theorem cutAtScript?_append (hmarker : isPlain marker = true) {base : Text}
    (h : IsUnmarked marker base) (script : Text) :
    cutAtScript? [marker, '{'] 0 (base ++ marker :: '{' :: script) =
      some (base, marker :: '{' :: script) := by
  have hplain := isPlain_iff.mp hmarker
  have hfound : 0 = 0 ∧ isDelimiter marker = false ∧
      [marker, '{'].isPrefixOf (marker :: '{' :: script) = true := by
    refine ⟨rfl, ?_, ?_⟩
    · simp [isDelimiter, hplain]
    · exact List.isPrefixOf_iff_prefix.mpr ⟨script, rfl⟩
  rw [cutAtScript?_walk h, cutAtScript?_cons hplain.2.2.2.2, if_pos hfound, Option.map_some]
  dsimp only
  rw [List.append_nil]

/-! ## Bases -/

/-- A base is written in braces or stands as it is, with nothing in it that would tear it apart. -/
theorem writeBase_cases (base : Text) :
    writeBase base = Text.braced base ∨
      writeBase base = base ∧ isFullyBraced base = false ∧ ∀ c ∈ base, splitsBase c = false := by
  by_cases h : (isFullyBraced base || base.any splitsBase) = true
  · exact Or.inl (if_pos h)
  · rw [Bool.or_eq_true, not_or, Bool.not_eq_true, Bool.not_eq_true, List.any_eq_false] at h
    refine Or.inr ⟨?_, h.1, ?_⟩
    · exact if_neg (by simpa using h)
    · intro c hc
      exact Bool.eq_false_iff.mpr (h.2 c hc)

/-- No marker of a written base stands outside of its braces. -/
theorem isUnmarked_writeBase (hmarker : isPlain marker = true) (hsplits : splitsBase marker = true)
    {base : Text} (h : IsBalanced base) : IsUnmarked marker (writeBase base) := by
  rcases writeBase_cases base with heq | ⟨heq, -, hbase⟩
  · rw [heq]
    exact isUnmarked_braced hmarker h
  · rw [heq]
    refine isUnmarked_of_not_mem ?_ h
    intro hmem
    rw [hbase marker hmem] at hsplits
    cases hsplits

/-- The braces that are taken off a written base are those that were put around it. -/
theorem stripBraces_writeBase {base : Text} (h : IsBalanced base) :
    stripBraces (writeBase base) = base := by
  rcases writeBase_cases base with heq | ⟨heq, hbraced, hbase⟩
  · rw [heq, stripBraces_braced h]
  · have hblank : ∀ c ∈ base, isBlank c = false := by
      intro c hc
      have hc := hbase c hc
      rw [splitsBase, Bool.or_eq_false_iff] at hc
      exact hc.1
    have htrim : Text.trim base = base := by
      refine Text.trim_eq_self ⟨?_, ?_⟩
      · intro c hc
        exact hblank c (List.mem_of_head? hc)
      · intro c hc
        exact hblank c (List.mem_of_getLast? hc)
    rw [heq, stripBraces, htrim, hbraced]
    rfl

/-! ## Reading back -/

/-- Behind its marker a script is read with the base that was written. -/
theorem readScript?_writeBase (marker : Char) (hmarker : isPlain marker = true)
    (hsplits : splitsBase marker = true) {base script : Text} (hbase : IsBalanced base)
    (hscript : IsBalanced script) :
    readScript? [marker, '{'] (writeBase base ++ marker :: Text.braced script) =
      some (base, script) := by
  have hcut := cutAtScript?_append hmarker (isUnmarked_writeBase hmarker hsplits hbase)
    (script ++ ['}'])
  have hgroup := nextGroup?_braced hscript []
  rw [List.append_nil] at hgroup
  have hbehind : (marker :: '{' :: (script ++ ['}'])).drop 1 = Text.braced script := rfl
  rw [readScript?, Text.braced, List.cons_append, hcut, Option.bind_eq_bind, Option.bind_some]
  dsimp only
  rw [hbehind, hgroup, Option.bind_some, stripBraces_writeBase hbase]
  rfl

end

theorem readAs?_write_superscript {base exponent : Text} (hbase : IsBalanced base)
    (hexponent : IsBalanced exponent) :
    readAs? .superscript (superscript base exponent).write = some (superscript base exponent) := by
  have hread := readScript?_writeBase '^' rfl rfl hbase hexponent
  have hwrite : (superscript base exponent).write =
      writeBase base ++ '^' :: Text.braced exponent := by
    simp [write_superscript]
  rw [hwrite]
  show (readScript? ['^', '{'] _).map _ = _
  rw [hread, Option.map_some]

theorem readAs?_write_subscript {base script : Text} (hbase : IsBalanced base)
    (hscript : IsBalanced script) :
    readAs? .subscript (subscript base script).write = some (subscript base script) := by
  have hread := readScript?_writeBase '_' rfl rfl hbase hscript
  have hwrite : (subscript base script).write = writeBase base ++ '_' :: Text.braced script := by
    simp [write_subscript]
  rw [hwrite]
  show (readScript? ['_', '{'] _).map _ = _
  rw [hread, Option.map_some]

/-- A superscript and a subscript are read back from their written form when base and script are
balanced, whatever blanks, operators, markers and braces they hold. -/
theorem read_write_scripts :
    (∀ base exponent, IsBalanced base → IsBalanced exponent →
      read .superscript (superscript base exponent).write = superscript base exponent) ∧
    ∀ base script, IsBalanced base → IsBalanced script →
      read .subscript (subscript base script).write = subscript base script := by
  constructor
  · intro base exponent hbase hexponent
    rw [read, readAs?_write_superscript hbase hexponent, Option.getD_some]
  · intro base script hbase hscript
    rw [read, readAs?_write_subscript hbase hscript, Option.getD_some]

/-- A base with scripts of its own and an escaped brace, one that is one group, and one that is
empty. -/
theorem read_write_scripts_nested :
    let base : Text := " a^\x7b2\x7d_\x7bi\x7d \\\x7d^"
    IsBalanced base ∧
    read .superscript (superscript base "\x7bx\x7d ").write = superscript base "\x7bx\x7d " ∧
    read .superscript (superscript "\x7bx\x7d" []).write = superscript "\x7bx\x7d" [] ∧
    read .subscript (subscript [] "i").write = subscript [] "i" := by
  intro base
  have hbase : IsBalanced base := by decide
  have hgroup : IsBalanced "\x7bx\x7d" := by decide
  have hnil : IsBalanced [] := by decide
  have hindex : IsBalanced "i" := by decide
  refine ⟨hbase, ?_, ?_, ?_⟩
  · exact read_write_scripts.1 base _ hbase (by decide)
  · exact read_write_scripts.1 _ [] hgroup hnil
  · exact read_write_scripts.2 [] _ hnil hindex

end Formula

end TexFigure
