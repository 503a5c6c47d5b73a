import TexFigure.Formula.Write
import TexFigure.Proofs.Operators
/-!
# Sums, products and limits are read back

Below a sum stand two fields in one group, the index and its first value, with an equals sign
between them; below a limit stand its variable and what it approaches, with an arrow between them.
The group is cut at its first equals sign or arrow. That is the one that was written when the
field in front holds none. A sum without an index has its first value alone below it, which must
then hold no equals sign either.

The body follows behind a blank, and the blank goes when the body is empty.

> `readAs?_write_bigOperator`, `readAs?_write_limit`: what was written comes back with the fields
> below the operator trimmed.
> `read_write_operators`: so sums, products and limits with trimmed fields come back as they are.
-/

namespace TexFigure

open Source

namespace Formula

/-! ## Bodies -/

/-- The blank in front of a written body is passed over, or there is none. -/
theorem skipBlanks_body {body : Text} (h : Text.IsTrimmed body) :
    Text.skipBlanks (Text.trimEnd (' ' :: body)) = body := by
  cases body with
  | nil => rfl
  | cons c rest =>
    have hlast : ∀ d ∈ (' ' :: c :: rest).getLast?, isBlank d = false := by
      rw [List.getLast?_cons_cons]
      exact h.2
    have hc : ¬isAsciiBlank c = true := by simp [not_isAsciiBlank (h.1 c rfl)]
    rw [Text.trimEnd_eq_self hlast, Text.skipBlanks, List.dropWhile_cons_of_pos (by decide),
      List.dropWhile_cons_of_neg hc]

/-- The scripts in front of a written body end there. -/
theorem readScripts_body {rounds : Nat} {scripts : Scripts} {body : Text} (h : IsBody body) :
    readScripts rounds scripts (Text.trimEnd (' ' :: body)) =
      (scripts, Text.trimEnd (' ' :: body)) := by
  have hskip := skipBlanks_body h.trimmed
  apply readScripts_end
  · rw [hskip]
    exact h.noScript
  · rw [hskip]
    exact h.noLimits

theorem trim_body {body : Text} (h : IsBody body) :
    Text.trim (Text.trimEnd (' ' :: body)) = body := by
  rw [Text.trim_trimEnd, Text.trim_cons_blank (by decide), Text.trim_eq_self h.trimmed]

/-! ## Sums and products -/

/-- What stands below a sum or a product. -/
def underOperator (var lower : Text) : Text := if var.isEmpty then lower else var ++ "=" ++ lower

theorem isBalanced_underOperator {var lower : Text} (hvar : IsBalanced var)
    (hlower : IsBalanced lower) : IsBalanced (underOperator var lower) := by
  have hequals : IsBalanced "=" := by decide
  rw [underOperator]
  split
  · exact hlower
  · exact (hvar.append hequals).append hlower

/-- The equals sign between an index and its first value is the first one below the operator. -/
theorem cut?_underOperator {var lower : Text} (hvar : '=' ∉ var)
    (hlower : var = [] → '=' ∉ lower) :
    (Text.cut? (underOperator var lower) ['=']).getD ([], underOperator var lower) =
      (var, lower) := by
  by_cases hempty : var = []
  · have hunder : underOperator var lower = lower := by simp [underOperator, hempty]
    rw [hunder, Text.cut?_char_eq_none (hlower hempty), Option.getD_none, hempty]
  · have hunder : underOperator var lower = var ++ '=' :: lower := by
      simp [underOperator, hempty]
    rw [hunder, Text.cut?_char hvar, Option.getD_some]

/-- A written sum or product is read with the fields below it trimmed. -/
theorem readAs?_write_bigOperator (operator : Operator) {var lower upper expression : Text}
    (hvar : IsBalanced var) (hlower : IsBalanced lower) (hupper : IsBalanced upper)
    (hname : '=' ∉ var) (hvalue : var = [] → '=' ∉ lower) (hbody : IsBody expression) :
    readAs? (bigOperator operator var lower upper expression).tag
        (bigOperator operator var lower upper expression).write =
      some (bigOperator operator (Text.trim var) (Text.trim lower) upper expression) := by
  obtain ⟨word, hword⟩ : ∃ word, operator.command = '\\' :: word := by
    cases operator with
    | sum => exact ⟨"sum", rfl⟩
    | product => exact ⟨"prod", rfl⟩
  have hwrite : (bigOperator operator var lower upper expression).write =
      '\\' :: word ++ ('_' :: Text.braced (underOperator var lower) ++
        ('^' :: Text.braced upper ++ Text.trimEnd (' ' :: expression))) := by
    have htext : operator.command ++ "_" ++ Text.braced (underOperator var lower) ++ "^" ++
          Text.braced upper ++ " " ++ expression =
        ('\\' :: word ++ '_' :: Text.braced (underOperator var lower) ++ ['^']) ++
          (Text.braced upper ++ ' ' :: expression) := by
      simp [hword]
    rw [write_bigOperator, ← underOperator, htext, Text.trimEnd_append_braced]
    simp
  have hscripts : readScripts 4 ⟨[], []⟩ ('_' :: Text.braced (underOperator var lower) ++
        ('^' :: Text.braced upper ++ Text.trimEnd (' ' :: expression))) =
      (⟨underOperator var lower, upper⟩, Text.trimEnd (' ' :: expression)) := by
    rw [readScripts_lower (isBalanced_underOperator hvar hlower), readScripts_upper hupper,
      readScripts_body hbody]
  have hoperator := readOperator?_append word rfl hscripts
  have htag : readAs? (bigOperator operator var lower upper expression).tag =
      readBigOperator? operator := by
    cases operator with
    | sum => rfl
    | product => rfl
  rw [htag, readBigOperator?, hword, hwrite, hoperator, Option.map_some, trim_body hbody]
  dsimp only
  rw [cut?_underOperator hname hvalue]

/-! ## Limits -/

/-- The arrows that may stand below a limit. -/
def arrows : List Text := ["\\to", "\\rightarrow", "\\longrightarrow"]

/-- An arrow is read at the front of a text only if it stands there. -/
theorem exists_arrow_of_arrow? {text rest : Text} (h : arrow? text = some rest) :
    ∃ arrow ∈ arrows, arrow <+: text := by
  rw [arrow?] at h
  obtain ⟨⟨phrase, behind⟩, hone, -⟩ := Option.bind_eq_some_iff.mp h
  obtain ⟨arrow, hmem, harrow⟩ := List.exists_of_findSome?_eq_some hone
  obtain ⟨tail, htail, -⟩ := Option.map_eq_some_iff.mp harrow
  exact ⟨arrow, hmem, tail, (Text.isPrefixOf?_eq_some.mp htail).symm⟩

/-- A written arrow is a whole word, since a blank follows it. -/
theorem arrow?_to (rest : Text) : arrow? ("\\to" ++ ' ' :: rest) = some (' ' :: rest) := by
  have hblank : isWordChar ' ' = false := by decide +kernel
  have hone : oneOf? ["\\to", "\\rightarrow", "\\longrightarrow"] ("\\to" ++ ' ' :: rest) =
      some ("\\to".toList, ' ' :: rest) := by
    rfl
  rw [arrow?, hone, Option.bind_eq_bind, Option.bind_some]
  simp [hblank]

/-- The arrow of a limit is the first one below it. -/
theorem splitAtFirst_arrow {var : Text} (hvar : ∀ arrow ∈ arrows, ¬arrow <:+: var) (rest : Text) :
    Text.splitAtFirst arrow? (var ++ " \\to " ++ rest) = some (var ++ " ", ' ' :: rest) := by
  have htext : var ++ " \\to " ++ rest = (var ++ " ") ++ ("\\to" ++ ' ' :: rest) := by simp
  rw [htext]
  refine Text.splitAtFirst_append (arrow?_to rest) ?_
  intro suffix hne hsuffix
  by_contra hsome
  obtain ⟨behind, hbehind⟩ := Option.ne_none_iff_exists'.mp hsome
  obtain ⟨arrow, hmem, harrow⟩ := exists_arrow_of_arrow? hbehind
  -- an arrow holds no blank, so one in front of the written one ends inside the variable
  have hblank : ∀ arrow ∈ arrows, ' ' ∉ arrow := by decide
  rcases List.suffix_concat_iff.mp hsuffix with hnil | ⟨s, hs, hvarSuffix⟩
  · exact hne hnil
  · rw [hs, List.append_assoc] at harrow
    have hinside := Text.prefix_of_prefix_append_cons (hblank arrow hmem) harrow
    exact hvar arrow hmem (hinside.isInfix.trans hvarSuffix.isInfix)

/-- A written limit is read with the fields below it trimmed. -/
theorem readAs?_write_limit {var approaches expression : Text} (hvar : IsBalanced var)
    (happroaches : IsBalanced approaches) (hname : ∀ arrow ∈ arrows, ¬arrow <:+: var)
    (hbody : IsBody expression) :
    readAs? .limit (limit var approaches expression).write =
      some (limit (Text.trim var) (Text.trim approaches) expression) := by
  have hto : IsBalanced " \\to " := by decide
  have hunder : IsBalanced (var ++ " \\to " ++ approaches) := (hvar.append hto).append happroaches
  have hwrite : (limit var approaches expression).write =
      '\\' :: "lim".toList ++ ('_' :: Text.braced (var ++ " \\to " ++ approaches) ++
        Text.trimEnd (' ' :: expression)) := by
    have htext : "\\lim_" ++ Text.braced (var ++ " \\to " ++ approaches) ++ " " ++ expression =
        "\\lim_".toList ++ (Text.braced (var ++ " \\to " ++ approaches) ++ ' ' :: expression) := by
      simp
    rw [write_limit, htext, Text.trimEnd_append_braced]
    rfl
  have hscripts : readScripts 4 ⟨[], []⟩ ('_' :: Text.braced (var ++ " \\to " ++ approaches) ++
        Text.trimEnd (' ' :: expression)) =
      (⟨var ++ " \\to " ++ approaches, []⟩, Text.trimEnd (' ' :: expression)) := by
    rw [readScripts_lower hunder, readScripts_body hbody]
  have hoperator := readOperator?_append "lim" rfl hscripts
  have hvarBlank : Text.trim (var ++ " ") = Text.trim var := Text.trim_append_blanks rfl var
  have happroachesBlank : Text.trim (' ' :: approaches) = Text.trim approaches :=
    Text.trim_cons_blank (by decide) approaches
  show readLimit? _ = _
  rw [readLimit?, hwrite]
  show (readOperator? ('\\' :: "lim".toList) _).map _ = _
  rw [hoperator, Option.map_some, trim_body hbody]
  dsimp only
  rw [splitAtFirst_arrow hname, Option.getD_some]
  dsimp only
  rw [hvarBlank, happroachesBlank]

/-! ## Reading back -/

/-- The fields below a sum or a product, which an equals sign tells apart. -/
structure IsIndex (var lower : Text) : Prop where
  balanced : IsBalanced var ∧ IsBalanced lower
  trimmed : Text.IsTrimmed var ∧ Text.IsTrimmed lower
  noEquals : '=' ∉ var
  noEqualsAlone : var = [] → '=' ∉ lower

/-- The fields below a limit, which an arrow tells apart. -/
structure IsApproach (var approaches : Text) : Prop where
  balanced : IsBalanced var ∧ IsBalanced approaches
  trimmed : Text.IsTrimmed var ∧ Text.IsTrimmed approaches
  noArrow : ∀ arrow ∈ arrows, ¬arrow <:+: var

/-- A sum, a product and a limit are read back from their written form when the fields below them
are balanced, trimmed and told apart, and the body is trimmed and does not begin as a script
does. -/
theorem read_write_operators :
    (∀ operator var lower upper expression, IsIndex var lower → IsBalanced upper →
      IsBody expression →
      read (bigOperator operator var lower upper expression).tag
        (bigOperator operator var lower upper expression).write =
          bigOperator operator var lower upper expression) ∧
    ∀ var approaches expression, IsApproach var approaches → IsBody expression →
      read .limit (limit var approaches expression).write = limit var approaches expression := by
  constructor
  · intro operator var lower upper expression hindex hupper hbody
    have hread := readAs?_write_bigOperator operator hindex.balanced.1 hindex.balanced.2 hupper
      hindex.noEquals hindex.noEqualsAlone hbody
    rw [Text.trim_eq_self hindex.trimmed.1, Text.trim_eq_self hindex.trimmed.2] at hread
    rw [read, hread, Option.getD_some]
  · intro var approaches expression happroach hbody
    have hread := readAs?_write_limit happroach.balanced.1 happroach.balanced.2 happroach.noArrow
      hbody
    rw [Text.trim_eq_self happroach.trimmed.1, Text.trim_eq_self happroach.trimmed.2] at hread
    rw [read, hread, Option.getD_some]

/-- A product without an index and without a body, a sum with an equals sign in its first value, and
a limit with an arrow in what it approaches. -/
theorem read_write_operators_bare :
    (IsIndex [] "k \\in S" ∧ IsBody [] ∧
      read .product (bigOperator .product [] "k \\in S" " " []).write =
        bigOperator .product [] "k \\in S" " " []) ∧
    (IsIndex "i" "j=1" ∧ IsBody "a_i\x7b" ∧
      read .sum (bigOperator .sum "i" "j=1" "\x7bn\x7d" "a_i\x7b").write =
        bigOperator .sum "i" "j=1" "\x7bn\x7d" "a_i\x7b") ∧
    IsApproach "x\\t" "0 \\to" ∧
      read .limit (limit "x\\t" "0 \\to" "f").write = limit "x\\t" "0 \\to" "f" := by
  have hindex : IsIndex [] "k \\in S" := ⟨by decide, by decide, by decide, by decide⟩
  have hequation : IsIndex "i" "j=1" := ⟨by decide, by decide, by decide, by decide⟩
  have happroach : IsApproach "x\\t" "0 \\to" := ⟨by decide, by decide, by decide⟩
  have hempty : IsBody [] := ⟨by decide, by decide, by decide⟩
  have hopen : IsBody "a_i\x7b" := ⟨by decide, by decide, by decide⟩
  have hbody : IsBody "f" := ⟨by decide, by decide, by decide⟩
  have hblank : IsBalanced " " := by decide
  have hgroup : IsBalanced "\x7bn\x7d" := by decide
  refine ⟨⟨hindex, hempty, ?_⟩, ⟨hequation, hopen, ?_⟩, happroach, ?_⟩
  · exact read_write_operators.1 .product _ _ _ _ hindex hblank hempty
  · exact read_write_operators.1 .sum _ _ _ _ hequation hgroup hopen
  · exact read_write_operators.2 _ _ _ happroach hbody

end Formula

end TexFigure
