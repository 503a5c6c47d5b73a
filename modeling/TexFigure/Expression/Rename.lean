import TexFigure.Text.Basic
/-!
# Two spellings of an expression

A user writes `log` for the natural logarithm and gives angles in radians. Generated code spells
the logarithm `ln` and takes angles in degrees, so the argument of a trigonometric function is
wrapped in `deg(...)`. `toCode` and `toUser` go from one spelling to the other. They work on the
text and keep everything else as it is, also in a text that is no expression.

Only a name directly followed by a parenthesis that closes is a call. Calls nested more than 256
deep are copied.
-/

namespace TexFigure.Expression

/-- The functions whose argument is an angle. -/
def angleFunctions : List Text := ["sin", "cos", "tan", "sec", "csc", "cot"]

/-- Cut at the parenthesis that closes the innermost of `depth` open ones but one: what stands
before it, and what follows. -/
def cutAtParen (depth : Nat) : Text → Option (Text × Text)
  | [] => none
  | c :: rest =>
    if c = ')' ∧ depth = 1 then some ([], rest)
    else
      let depth := if c = '(' then depth + 1 else if c = ')' then depth - 1 else depth
      (cutAtParen depth rest).map fun (inside, after) => (c :: inside, after)

/-- A cut loses only the parenthesis. -/
theorem cutAtParen_eq {depth : Nat} {text inside after : Text}
    (h : cutAtParen depth text = some (inside, after)) : text = inside ++ ')' :: after := by
  induction text generalizing depth inside with
  | nil => simp [cutAtParen] at h
  | cons c rest ih =>
    rw [cutAtParen] at h
    split at h
    next hc => simp_all
    next =>
      obtain ⟨⟨i, a⟩, hcut, heq⟩ := Option.map_eq_some_iff.1 h
      simp only [Prod.mk.injEq] at heq
      obtain ⟨rfl, rfl⟩ := heq
      rw [ih hcut]
      rfl

/-- The name of a call and its argument, in parentheses. -/
def writeCall (name argument : Text) : Text := name ++ '(' :: argument ++ [')']

/-- Whether a character continues a name. -/
def continuesName (c : Char) : Bool := c.isAlphanum || c == '_'

/-- The call at the front of a text, behind its name: the argument and what follows. -/
def callArgument? (text : Text) : Option (Text × Text) :=
  match text with
  | '(' :: rest => cutAtParen 1 rest
  | _ => none

/-- Replace every outermost call and keep the rest of a text. -/
def mapCalls (onCall : Text → Text → Text) (text : Text) : Text :=
  match text with
  | [] => []
  | c :: rest =>
    if c.isAlpha then
      let name := c :: rest.takeWhile continuesName
      match _h : callArgument? (rest.dropWhile continuesName) with
      | some (argument, after) => onCall name argument ++ mapCalls onCall after
      | none => name ++ mapCalls onCall (rest.dropWhile continuesName)
    else c :: mapCalls onCall rest
termination_by text.length
decreasing_by
  · have hlen := (List.dropWhile_sublist (l := rest) continuesName).length_le
    unfold callArgument? at _h
    split at _h
    next inner heq =>
      have := congrArg List.length (cutAtParen_eq _h)
      rw [heq] at hlen
      simp at this hlen ⊢
      omega
    next => simp at _h
  · have := (List.dropWhile_sublist (l := rest) continuesName).length_le
    simp
    omega
  · simp

/-- The text inside `deg(...)`, when that is all there is but for blanks around it. -/
def insideDeg? (argument : Text) : Option Text := do
  let body ← "deg(".toList.isPrefixOf? (Text.trim argument)
  match ← cutAtParen 1 body with
  | (inside, []) => return inside
  | _ => none

/-- Which spelling is wanted. -/
inductive Spelling
  | code | user
  deriving DecidableEq, Repr

/-- Respell one call, given how its argument is respelled. -/
def respellCall (spelling : Spelling) (inner : Text → Text) (name argument : Text) : Text :=
  match spelling with
  | .code =>
    if name = "log" then writeCall "ln" (inner argument)
    else if angleFunctions.contains name then writeCall name (writeCall "deg" (inner argument))
    else writeCall name (inner argument)
  | .user =>
    if name = "ln" then writeCall "log" (inner argument)
    else if angleFunctions.contains name then
      writeCall name (inner ((insideDeg? argument).getD argument))
    else writeCall name (inner argument)

/-- Respell the calls of a text down to a number of levels. -/
def respell (spelling : Spelling) : (levels : Nat) → Text → Text
  | 0 => mapCalls writeCall
  | levels + 1 => mapCalls (respellCall spelling (respell spelling levels))

/-- The spelling of generated code. -/
def toCode (text : Text) : Text := respell .code 256 text

/-- The spelling of a user. -/
def toUser (text : Text) : Text := respell .user 256 text

end TexFigure.Expression
