import TexFigure.Proofs.Markup
/-!
# The tags of a markup text

A reader that knows nothing of trees finds the tags of a text by their brackets, and its groups by
their start tags. On the text of a named tree it finds exactly the tags of the tree, because nothing
else is written with a raw bracket (`IsNamed.tags_write`).

> `groups_group`: a group is found with its identity, and with whether a text element is inside.
-/

namespace TexFigure

namespace Markup

/-! ## Scanning -/

/-- The tags of a text, without their brackets. -/
def tags : Text → List Text
  | [] => []
  | c :: rest => if c = '<' then rest.takeWhile (· != '>') :: tags rest else tags rest

/-- A group of elements, as it is found in a text. -/
structure Group where
  id : Text
  hasText : Bool
  deriving DecidableEq, Repr

/-- The groups among tags; a group goes on to the next end tag of a group. -/
def groups : List Text → List Group
  | [] => []
  | tag :: rest =>
    match "g id=\"".toList.isPrefixOf? tag with
    | some value =>
      { id := value.takeWhile (· != '"')
        hasText := (rest.takeWhile (· != "/g".toList)).any ("text ".toList.isPrefixOf ·) }
        :: groups rest
    | none => groups rest

/-- A text without an opening bracket adds no tag to those behind it. -/
theorem tags_append {text : Text} (h : '<' ∉ text) (rest : Text) :
    tags (text ++ rest) = tags rest := by
  induction text with
  | nil => rfl
  | cons c text ih =>
    rw [List.mem_cons, not_or] at h
    rw [List.cons_append, tags, if_neg (Ne.symm h.1), ih h.2]

/-- A tag without brackets inside is found as it stands. -/
theorem tags_tag {tag : Text} (hopen : '<' ∉ tag) (hclose : '>' ∉ tag) (rest : Text) :
    tags ('<' :: (tag ++ '>' :: rest)) = tag :: tags rest := by
  have htake : (tag ++ '>' :: rest).takeWhile (· != '>') = tag := by
    rw [List.takeWhile_append_of_pos, List.takeWhile_cons_of_neg (by decide), List.append_nil]
    intro c hc
    exact bne_iff_ne.mpr fun heq => hclose (heq ▸ hc)
  rw [tags, if_pos rfl, htake, tags_append hopen, tags, if_neg (by decide)]

/-- A tag that does not begin as a group does begins none. -/
theorem groups_cons {tag : Text} (h : tag.head? ≠ some 'g') (rest : List Text) :
    groups (tag :: rest) = groups rest := by
  have hnone : "g id=\"".toList.isPrefixOf? tag = none := by
    cases tag with
    | nil => rfl
    | cons c tag =>
      have hc : ('g' == c) = false := beq_eq_false_iff_ne.mpr fun heq => h (by rw [heq]; rfl)
      show (if ('g' == c) = true then _ else none) = none
      rw [hc]
      rfl
  rw [groups, hnone]

theorem groups_append {tags : List Text} (h : ∀ tag ∈ tags, tag.head? ≠ some 'g')
    (rest : List Text) : groups (tags ++ rest) = groups rest := by
  induction tags with
  | nil => rfl
  | cons tag tags ih =>
    rw [List.cons_append, groups_cons (h tag List.mem_cons_self)]
    exact ih fun tag htag => h tag (List.mem_cons_of_mem _ htag)

end Markup

namespace Xml

open Markup

/-! ## The tags of a tree -/

/-- A start tag, without its brackets. -/
def startTag (name : Text) (attributes : List (Text × Text)) : Text :=
  name ++ attributes.flatMap writeAttribute

mutual

/-- The tags of a tree, in the order in which they are written. -/
def tags : Xml → List Text
  | leaf name attributes => [startTag name attributes ++ ['/']]
  | element name attributes children =>
    startTag name attributes :: (tagsOfAll children ++ ['/' :: name])
  | text _ => []

/-- The tags of several trees. -/
def tagsOfAll : List Xml → List Text
  | [] => []
  | part :: parts => tags part ++ tagsOfAll parts

end

theorem tagsOfAll_append (parts parts' : List Xml) :
    tagsOfAll (parts ++ parts') = tagsOfAll parts ++ tagsOfAll parts' := by
  induction parts with
  | nil => rfl
  | cons part parts ih => rw [List.cons_append, tagsOfAll, tagsOfAll, ih, List.append_assoc]

end Xml

namespace Markup

/-! ## Brackets -/

/-- No escaped text holds a bracket or a quote. -/
theorem not_mem_escape {c : Char} (hc : c ∈ ['<', '>', '"', '\'']) (text : Text) :
    c ∉ Xml.escape text := by
  intro hmem
  obtain ⟨d, -, hd⟩ := List.mem_flatMap.mp hmem
  rcases escapeChar_cases d with href | ⟨heq, -, hnot⟩
  · have hnone : (references.all fun name => name.all fun c =>
        !(['<', '>', '"', '\''].contains c)) = true := by decide
    have hplain := List.all_eq_true.mp (List.all_eq_true.mp hnone _ href) c hd
    rw [List.contains_iff_mem.mpr hc] at hplain
    cases hplain
  · rw [heq, List.mem_singleton] at hd
    exact hnot (hd ▸ hc)

/-- A text without special characters is not changed by escaping. -/
theorem escape_eq_self {text : Text} (h : ∀ c ∈ text, c ∉ ['&', '<', '>', '"', '\'']) :
    Xml.escape text = text := by
  induction text with
  | nil => rfl
  | cons c text ih =>
    have hc := h c List.mem_cons_self
    simp only [List.mem_cons, List.not_mem_nil, or_false, not_or] at hc
    obtain ⟨hamp, hlt, hgt, hquot, hapos⟩ := hc
    have hchar : Xml.escapeChar c = [c] := by
      rw [Xml.escapeChar, if_neg hamp, if_neg hlt, if_neg hgt, if_neg hquot, if_neg hapos]
    rw [Xml.escape, List.flatMap_cons, hchar]
    exact congrArg (c :: ·) (ih fun d hd => h d (List.mem_cons_of_mem _ hd))

/-- A name holds letters, digits and hyphens. -/
theorem not_mem_of_isName {name : Text} {c : Char} (h : isName name)
    (hc : (c.isAlphanum || c == '-') = false) : c ∉ name := by
  cases name with
  | nil => exact List.not_mem_nil
  | cons d name =>
    obtain ⟨hd, hname⟩ := Bool.and_eq_true_iff.mp h
    intro hmem
    rcases List.mem_cons.mp hmem with rfl | hmem
    · simp [Char.isAlphanum, hd] at hc
    · rw [List.all_eq_true.mp hname c hmem] at hc
      cases hc

/-- A start tag with proper names holds no brackets. -/
theorem not_mem_startTag {name : Text} {attributes : List (Text × Text)} {c : Char}
    (hname : isName name) (hattributes : hasNames attributes) (hc : c = '<' ∨ c = '>') :
    c ∉ Xml.startTag name attributes := by
  have hplain : (c.isAlphanum || c == '-') = false := by rcases hc with rfl | rfl <;> rfl
  have hspecial : c ∈ ['<', '>', '"', '\''] := by rcases hc with rfl | rfl <;> decide
  have hquote : c ∉ [' ', '=', '"'] := by rcases hc with rfl | rfl <;> decide
  intro hmem
  rcases List.mem_append.mp hmem with hmem | hmem
  · exact not_mem_of_isName hname hplain hmem
  · obtain ⟨pair, hpair, hmem⟩ := List.mem_flatMap.mp hmem
    have hkey := not_mem_of_isName (List.all_eq_true.mp hattributes pair hpair) hplain
    have hvalue := not_mem_escape hspecial pair.2
    simp only [List.mem_cons, List.not_mem_nil, or_false, not_or] at hquote
    simp [Xml.writeAttribute, hkey, hvalue, hquote] at hmem

/-- A leaf is written as its one tag, since neither its name nor its values hold a bracket. -/
theorem tags_leaf {name : Text} {attributes : List (Text × Text)} (hname : isName name)
    (hattributes : hasNames attributes) (rest : Text) :
    tags ((Xml.leaf name attributes).write ++ rest) =
      (Xml.leaf name attributes).tags ++ tags rest := by
  have hbracket {c : Char} (hc : c = '<' ∨ c = '>') :
      c ∉ Xml.startTag name attributes ++ ['/'] := by
    have hne : c ≠ '/' := by rcases hc with rfl | rfl <;> decide
    simp [not_mem_startTag hname hattributes hc, hne]
  rw [Xml.write, Xml.tags, Xml.writeOpening]
  have htag := tags_tag (hbracket (Or.inl rfl)) (hbracket (Or.inr rfl)) rest
  rw [List.append_assoc] at htag
  simpa [Xml.startTag] using htag

/-- The tags of several parts are found one after another if those of each of them are. -/
theorem tags_writeAll {parts : List Xml}
    (h : ∀ part ∈ parts, ∀ rest, tags (part.write ++ rest) = part.tags ++ tags rest) (rest : Text) :
    tags (Xml.writeAll parts ++ rest) = Xml.tagsOfAll parts ++ tags rest := by
  induction parts with
  | nil => rfl
  | cons part parts ih =>
    rw [Xml.writeAll, Xml.tagsOfAll, List.append_assoc, h part List.mem_cons_self,
      ih fun part hpart => h part (List.mem_cons_of_mem _ hpart), List.append_assoc]

/-- An element is written as its two tags with those of its children between them. -/
theorem tags_element {name : Text} {attributes : List (Text × Text)} {children : List Xml}
    (hname : isName name) (hattributes : hasNames attributes)
    (hchildren : ∀ rest, tags (Xml.writeAll children ++ rest) =
      Xml.tagsOfAll children ++ tags rest) (rest : Text) :
    tags ((Xml.element name attributes children).write ++ rest) =
      (Xml.element name attributes children).tags ++ tags rest := by
  have hend {c : Char} (hc : c = '<' ∨ c = '>') : c ∉ '/' :: name := by
    have hne : c ≠ '/' := by rcases hc with rfl | rfl <;> decide
    have hnot : c ∉ name := not_mem_of_isName hname (by rcases hc with rfl | rfl <;> rfl)
    simp [hne, hnot]
  have hwrite : (Xml.element name attributes children).write ++ rest =
      '<' :: (Xml.startTag name attributes ++ '>' :: (Xml.writeAll children ++
        '<' :: ('/' :: name ++ '>' :: rest))) := by
    simp [Xml.write, Xml.writeOpening, Xml.startTag]
  rw [hwrite, tags_tag (not_mem_startTag hname hattributes (Or.inl rfl))
    (not_mem_startTag hname hattributes (Or.inr rfl)), hchildren,
    tags_tag (hend (Or.inl rfl)) (hend (Or.inr rfl)), Xml.tags]
  simp

/-- On the text of a named tree, the tags of the tree are found. -/
theorem IsNamed.tags_write {part : Xml} (h : IsNamed part) :
    ∀ rest, tags (part.write ++ rest) = part.tags ++ tags rest := by
  induction h with
  | leaf hname hattributes => exact tags_leaf hname hattributes
  | element hname hattributes _ ih => exact tags_element hname hattributes (tags_writeAll ih)
  | text content =>
    intro rest
    rw [Xml.write, Xml.tags, tags_append (not_mem_escape (by decide) content), List.nil_append]

/-! ## Groups -/

/-- A group of a tree is found with its identity, and with whether a text element is inside, when
there is no other group inside. -/
theorem groups_group {id : Text} {children : List Xml}
    (hid : ∀ c ∈ id, c ∉ ['&', '<', '>', '"', '\''])
    (hstart : ∀ tag ∈ Xml.tagsOfAll children, tag.head? ≠ some 'g')
    (hend : "/g".toList ∉ Xml.tagsOfAll children) (rest : List Text) :
    groups ((Xml.element "g" [("id", id)] children).tags ++ rest) =
      ⟨id, (Xml.tagsOfAll children).any ("text ".toList.isPrefixOf ·)⟩ :: groups rest := by
  have htag : Xml.startTag "g" [("id", id)] = "g id=\"".toList ++ (id ++ ['"']) := by
    rw [Xml.startTag, List.flatMap_cons, List.flatMap_nil, Xml.writeAttribute, escape_eq_self hid]
    simp
  have hvalue : (id ++ ['"']).takeWhile (· != '"') = id := by
    rw [List.takeWhile_append_of_pos, List.takeWhile_cons_of_neg (by decide), List.append_nil]
    intro c hc
    exact bne_iff_ne.mpr fun heq => hid c hc (by simp [heq])
  have hinside : (Xml.tagsOfAll children ++ "/g".toList :: rest).takeWhile (· != "/g".toList) =
      Xml.tagsOfAll children := by
    rw [List.takeWhile_append_of_pos, List.takeWhile_cons_of_neg (by decide), List.append_nil]
    intro tag htag
    exact bne_iff_ne.mpr fun heq => hend (heq ▸ htag)
  have hnone : groups (Xml.tagsOfAll children ++ "/g".toList :: rest) = groups rest := by
    rw [groups_append hstart, groups_cons (by decide)]
  rw [Xml.tags, htag, List.cons_append, List.append_assoc, groups,
    Text.isPrefixOf?_eq_some.mpr rfl]
  show Group.mk _ _ :: groups (Xml.tagsOfAll children ++ "/g".toList :: rest) = _
  rw [hvalue, hnone]
  exact congrArg (fun inside : List Text => Group.mk id (inside.any _) :: groups rest) hinside

end Markup

end TexFigure
