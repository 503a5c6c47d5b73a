import TexFigure.Preview.Xml
/-!
# Well-formed markup

The grammar of the markup that drawings are written in, stated on texts and without reference to
the trees that they are written from: an element closes itself or has an end tag of its own name,
attribute values and character data hold neither raw brackets nor raw ampersands, and every
ampersand begins one of five references.

> `IsNamed.element`: a tree whose tags and attributes have proper names is written as one element.

The names are the only thing to ask of a tree. Its attribute values and texts are arbitrary: what
they hold is escaped where it is written (`CharData.escape`).
-/

namespace TexFigure

namespace Markup

/-! ## The grammar -/

/-- The references to the five characters that are never written raw. -/
def references : List Text := ["&amp;", "&lt;", "&gt;", "&quot;", "&apos;"]

/-- Characters, none of them forbidden and none a raw ampersand, and references. -/
inductive CharData (forbidden : List Char) : Text → Prop
  | nil : CharData forbidden []
  | char {c : Char} {rest : Text} :
      c ≠ '&' → c ∉ forbidden → CharData forbidden rest → CharData forbidden (c :: rest)
  | reference {name rest : Text} :
      name ∈ references → CharData forbidden rest → CharData forbidden (name ++ rest)

/-- The name of a tag or of an attribute: a letter, then letters, digits and hyphens. -/
def isName : Text → Bool
  | [] => false
  | c :: rest => c.isAlpha && rest.all fun c => c.isAlphanum || c == '-'

/-- Attributes, each behind a blank and with its value between double quotes. -/
inductive Attributes : Text → Prop
  | nil : Attributes []
  | cons {name value rest : Text} :
      isName name → CharData ['<', '"'] value → Attributes rest →
      Attributes (' ' :: name ++ "=\"" ++ value ++ "\"" ++ rest)

mutual

/-- An element with a name: its start tag closes itself, or its content stands between a start tag
and an end tag of the same name. -/
inductive Element : Text → Text → Prop
  | selfClosed {name attributes : Text} :
      isName name → Attributes attributes →
      Element name ('<' :: name ++ attributes ++ "/>")
  | paired {name attributes content : Text} :
      isName name → Attributes attributes → Content content →
      Element name ('<' :: name ++ attributes ++ '>' :: content ++ "</" ++ name ++ ">")

/-- Elements with character data between them. -/
inductive Content : Text → Prop
  | nil : Content []
  | char {c : Char} {rest : Text} : c ≠ '&' → c ≠ '<' → Content rest → Content (c :: rest)
  | reference {name rest : Text} : name ∈ references → Content rest → Content (name ++ rest)
  | element {name text rest : Text} :
      Element name text → Content rest → Content (text ++ rest)

end

/-- Character data is content, whatever content follows it. -/
theorem CharData.content {text rest : Text} (h : CharData ['<'] text) (hrest : Content rest) :
    Content (text ++ rest) := by
  induction h with
  | nil => exact hrest
  | char hamp hlt _ ih => exact .char hamp (by simpa using hlt) ih
  | reference hname _ ih =>
    rw [List.append_assoc]
    exact .reference hname ih

/-! ## Escaping -/

/-- A character is written as a reference, or as itself when none of the five. -/
theorem escapeChar_cases (c : Char) :
    Xml.escapeChar c ∈ references ∨
      Xml.escapeChar c = [c] ∧ c ≠ '&' ∧ c ∉ ['<', '>', '"', '\''] := by
  unfold Xml.escapeChar
  by_cases hamp : c = '&'
  · rw [if_pos hamp]; exact Or.inl (by decide)
  by_cases hlt : c = '<'
  · rw [if_neg hamp, if_pos hlt]; exact Or.inl (by decide)
  by_cases hgt : c = '>'
  · rw [if_neg hamp, if_neg hlt, if_pos hgt]; exact Or.inl (by decide)
  by_cases hquot : c = '"'
  · rw [if_neg hamp, if_neg hlt, if_neg hgt, if_pos hquot]; exact Or.inl (by decide)
  by_cases hapos : c = '\''
  · rw [if_neg hamp, if_neg hlt, if_neg hgt, if_neg hquot, if_pos hapos]
    exact Or.inl (by decide)
  · rw [if_neg hamp, if_neg hlt, if_neg hgt, if_neg hquot, if_neg hapos]
    exact Or.inr ⟨rfl, hamp, by simp [hlt, hgt, hquot, hapos]⟩

/-- An escaped text is character data, for any class of characters that have a reference. -/
theorem CharData.escape {forbidden : List Char} (hsub : forbidden ⊆ ['<', '>', '"', '\''])
    (text : Text) : CharData forbidden (Xml.escape text) := by
  induction text with
  | nil => exact .nil
  | cons c text ih =>
    show CharData forbidden (Xml.escapeChar c ++ Xml.escape text)
    rcases escapeChar_cases c with hmem | ⟨heq, hamp, hnot⟩
    · exact .reference hmem ih
    · rw [heq]
      exact .char hamp (fun h => hnot (hsub h)) ih

/-! ## Trees -/

/-- Whether all attributes have proper names. -/
def hasNames (attributes : List (Text × Text)) : Bool := attributes.all (isName ·.1)

/-- Attributes with proper names are written as attributes. -/
theorem attributes_flatMap {attributes : List (Text × Text)} (h : hasNames attributes = true) :
    Attributes (attributes.flatMap Xml.writeAttribute) := by
  induction attributes with
  | nil => exact .nil
  | cons pair attributes ih =>
    obtain ⟨hname, hrest⟩ := Bool.and_eq_true_iff.mp h
    rw [List.flatMap_cons]
    exact .cons hname (.escape (by decide) pair.2) (ih hrest)

/-- A tree whose elements and attributes have proper names. -/
inductive IsNamed : Xml → Prop
  | leaf {name : Text} {attributes : List (Text × Text)} :
      isName name → hasNames attributes → IsNamed (.leaf name attributes)
  | element {name : Text} {attributes : List (Text × Text)} {children : List Xml} :
      isName name → hasNames attributes → (∀ child ∈ children, IsNamed child) →
      IsNamed (.element name attributes children)
  | text (content : Text) : IsNamed (.text content)

/-- Several parts are written as content if each of them is. -/
theorem content_writeAll {parts : List Xml}
    (h : ∀ part ∈ parts, ∀ rest, Content rest → Content (part.write ++ rest)) :
    Content (Xml.writeAll parts) := by
  induction parts with
  | nil => exact .nil
  | cons part parts ih =>
    rw [Xml.writeAll]
    exact h part (by simp) _ (ih fun part hpart => h part (List.mem_cons_of_mem _ hpart))

/-- An element with proper names is written as an element if its children are written as
content. -/
theorem element_write {name : Text} {attributes : List (Text × Text)} {children : List Xml}
    (hname : isName name) (hattributes : hasNames attributes)
    (hchildren : Content (Xml.writeAll children)) :
    Element name (Xml.element name attributes children).write := by
  rw [Xml.write, Xml.writeOpening]
  exact .paired hname (attributes_flatMap hattributes) hchildren

/-- A named tree is written as content, whatever content follows it. -/
theorem IsNamed.content {part : Xml} (h : IsNamed part) :
    ∀ rest, Content rest → Content (part.write ++ rest) := by
  induction h with
  | leaf hname hattributes =>
    intro rest hrest
    rw [Xml.write, Xml.writeOpening]
    exact .element (.selfClosed hname (attributes_flatMap hattributes)) hrest
  | element hname hattributes _ ih =>
    intro rest hrest
    exact .element (element_write hname hattributes (content_writeAll ih)) hrest
  | text content =>
    intro rest hrest
    rw [Xml.write]
    exact (CharData.escape (by decide) content).content hrest

/-- A named element is written as one element of its name. -/
theorem IsNamed.element_write {name : Text} {attributes : List (Text × Text)}
    {children : List Xml} (h : IsNamed (.element name attributes children)) :
    Element name (Xml.element name attributes children).write := by
  cases h with
  | element hname hattributes hchildren =>
    exact Markup.element_write hname hattributes
      (content_writeAll fun child hchild => (hchildren child hchild).content)

end Markup

end TexFigure
