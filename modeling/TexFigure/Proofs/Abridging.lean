import TexFigure.Json.Record
/-!
# Abridged documents

A document may leave out a field that holds its default, in any object at any depth. `Abridges` is
what a value becomes under some choice of such fields, for a table of defaults by name.

A reader that gives the same answer for every abridgement of a value (`Reads`) is put together from
the readers of its parts.

> `reads_record`, `reads_variant`: an object is read when each of its fields is.
> `Leaves.required`, `Leaves.optional`: so is a field, left out in the second case only.
-/

namespace TexFigure.Json

variable {defaults : Record}

/-! ## Leaving out fields -/

mutual

/-- Whether a value is left when fields that hold their default are left out of another one. -/
def Abridges (defaults : Record) : Json → Json → Prop
  | arr items, value => ∃ items', value = arr items' ∧ AbridgesAll defaults items items'
  | obj fields, value => ∃ fields', value = obj fields' ∧ AbridgesFields defaults fields fields'
  | atom, value => value = atom

/-- Whether items are left of others, one by one. -/
def AbridgesAll (defaults : Record) : List Json → List Json → Prop
  | [], items => items = []
  | item :: rest, items => ∃ item' rest', items = item' :: rest' ∧
      Abridges defaults item item' ∧ AbridgesAll defaults rest rest'

/-- Whether fields are left of others: each is kept, or left out if it holds its default. -/
def AbridgesFields (defaults : Record) : Record → Record → Prop
  | [], fields => fields = []
  | (name, value) :: rest, fields =>
    (defaults.lookup name = some value ∧ AbridgesFields defaults rest fields) ∨
      ∃ value' rest', fields = (name, value') :: rest' ∧
        Abridges defaults value value' ∧ AbridgesFields defaults rest rest'

end

theorem AbridgesFields.keep {name : Text} {value value' : Json} {fields fields' : Record}
    (hvalue : Abridges defaults value value') (h : AbridgesFields defaults fields fields') :
    AbridgesFields defaults ((name, value) :: fields) ((name, value') :: fields') :=
  Or.inr ⟨value', fields', rfl, hvalue, h⟩

/-- A field that holds its default may be left out, whatever is done with the others. -/
theorem AbridgesFields.leave {name : Text} {value : Json} {fields fields' : Record}
    (hdefault : defaults.lookup name = some value) (h : AbridgesFields defaults fields fields') :
    AbridgesFields defaults ((name, value) :: fields) fields' :=
  Or.inl ⟨hdefault, h⟩

mutual

/-- Nothing has to be left out. -/
theorem Abridges.refl : ∀ value : Json, Abridges defaults value value
  | arr items => ⟨items, rfl, AbridgesAll.refl items⟩
  | obj fields => ⟨fields, rfl, AbridgesFields.refl fields⟩
  | null | bool _ | int _ | float _ | str _ | invalid => rfl

theorem AbridgesAll.refl : ∀ items : List Json, AbridgesAll defaults items items
  | [] => rfl
  | item :: items => ⟨item, items, rfl, Abridges.refl item, AbridgesAll.refl items⟩

theorem AbridgesFields.refl : ∀ fields : Record, AbridgesFields defaults fields fields
  | [] => rfl
  | (_, value) :: fields => .keep (Abridges.refl value) (AbridgesFields.refl fields)

end

mutual

/-- What is left of a valid value is valid. -/
theorem Abridges.isValid : ∀ {value value' : Json},
    Abridges defaults value value' → value.isValid = true → value'.isValid = true
  | arr _, _, ⟨_, rfl, hitems⟩, h => AbridgesAll.areValid hitems h
  | obj _, _, ⟨_, rfl, hfields⟩, h => AbridgesFields.haveValid hfields h
  | null, _, rfl, h | bool _, _, rfl, h | int _, _, rfl, h | float _, _, rfl, h
  | str _, _, rfl, h | invalid, _, rfl, h => h

/-- Items are valid one by one, and none of them is left out. -/
theorem AbridgesAll.areValid : ∀ {items items' : List Json},
    AbridgesAll defaults items items' → areValid items = true → areValid items' = true
  | [], _, rfl, _ => rfl
  | _ :: _, _, ⟨_, _, rfl, hitem, hrest⟩, h => by
    obtain ⟨hfirst, hothers⟩ := Bool.and_eq_true_iff.mp h
    exact Bool.and_eq_true_iff.mpr ⟨hitem.isValid hfirst, AbridgesAll.areValid hrest hothers⟩

/-- Leaving out fields takes no validity away, as it takes away values only. -/
theorem AbridgesFields.haveValid : ∀ {fields fields' : Record},
    AbridgesFields defaults fields fields' → haveValid fields = true → haveValid fields' = true
  | [], _, rfl, _ => rfl
  | (_, _) :: _, _, h, hvalid => by
    obtain ⟨hfirst, hothers⟩ := Bool.and_eq_true_iff.mp hvalid
    rcases h with ⟨-, hrest⟩ | ⟨_, _, rfl, hvalue, hrest⟩
    · exact AbridgesFields.haveValid hrest hothers
    · exact Bool.and_eq_true_iff.mpr
        ⟨hvalue.isValid hfirst, AbridgesFields.haveValid hrest hothers⟩

end

/-! ## Reading records -/

section

variable {fields fields' : Record} {α : Type} {name : Text} {value : Json}

/-- The fields that are left keep their order. -/
theorem AbridgesFields.sublist (h : AbridgesFields defaults fields fields') :
    List.Sublist (fields'.map (·.1)) (fields.map (·.1)) := by
  induction fields generalizing fields' with
  | nil =>
    obtain rfl : fields' = [] := h
    exact List.Sublist.slnil
  | cons field fields ih =>
    rcases h with ⟨-, hrest⟩ | ⟨_, _, rfl, -, hrest⟩
    · exact (ih hrest).cons _
    · exact (ih hrest).cons_cons _

/-- Of a field there is left what its value is abridged to, or nothing if it holds its default. -/
theorem AbridgesFields.lookup (h : AbridgesFields defaults fields fields')
    (hnodup : (fields.map (·.1)).Nodup) (hvalue : fields.lookup name = some value) :
    (fields'.lookup name = none ∧ defaults.lookup name = some value) ∨
      ∃ value', fields'.lookup name = some value' ∧ Abridges defaults value value' := by
  induction fields generalizing fields' with
  | nil => cases hvalue
  | cons field fields ih =>
    obtain ⟨key, first⟩ := field
    obtain ⟨hnot, hnodup⟩ := List.nodup_cons.mp hnodup
    rw [List.lookup_cons] at hvalue
    split at hvalue
    next hkey =>
      -- the name is that of the first field, and no other field has it
      obtain rfl := beq_iff_eq.mp hkey
      obtain rfl := Option.some.inj hvalue
      rcases h with ⟨hdefault, hrest⟩ | ⟨value', rest', rfl, hvalue, -⟩
      · refine Or.inl ⟨List.lookup_eq_none_iff.mpr fun field hfield => ?_, hdefault⟩
        have hmem := hrest.sublist.subset (List.mem_map_of_mem hfield)
        rw [bne_iff_ne]
        rintro rfl
        exact hnot hmem
      · exact Or.inr ⟨value', by rw [List.lookup_cons_self], hvalue⟩
    next hkey =>
      rcases h with ⟨-, hrest⟩ | ⟨value', rest', rfl, -, hrest⟩
      · exact ih hrest hnodup hvalue
      · rw [List.lookup_cons, hkey]
        exact ih hrest hnodup hvalue

/-- What is left of an object with fields of different names is read as the fields that are
left. -/
theorem record?_obj (h : AbridgesFields defaults fields fields')
    (hnodup : (fields.map (·.1)).Nodup) :
    record? (fields.map (·.1)) (obj fields') = some fields' := by
  have hsub := h.sublist
  have hknown : fields'.filter (fun field => (fields.map (·.1)).contains field.1) = fields' := by
    refine List.filter_eq_self.mpr fun field hfield => ?_
    exact List.contains_iff_mem.mpr (hsub.subset (List.mem_map_of_mem hfield))
  rw [Json.record?]
  simp only [hknown]
  rw [if_pos (hsub.nodup hnodup)]

/-! ## Reading fields -/

/-- Whether a reader gives an answer for a value, and for whatever is left of the value when fields
are left out. -/
def Reads (defaults : Record) (decode : Json → Option α) (value : Json) (a : α) : Prop :=
  ∀ value', Abridges defaults value value' → decode value' = some a

/-- What is left of the fields of a record, which have different names. -/
structure Leaves (defaults : Record) (fields fields' : Record) : Prop where
  abridges : AbridgesFields defaults fields fields'
  nodup : (fields.map (·.1)).Nodup

/-- A required field is read from what is left of it; it cannot be left out, since it has no
default. -/
theorem Leaves.required {decode : Json → Option α} {a : α} (h : Leaves defaults fields fields')
    (name : Text) (hvalue : fields.lookup name = some value)
    (hdefault : defaults.lookup name = none) (hread : Reads defaults decode value a) :
    Json.required decode fields' name = some a := by
  rcases h.abridges.lookup h.nodup hvalue with ⟨-, hleft⟩ | ⟨value', hlookup, hvalue'⟩
  · rw [hdefault] at hleft
    cases hleft
  · rw [Json.required, hlookup]
    exact hread value' hvalue'

/-- A field with a default is read from what is left of it, and as the default when it is left
out. -/
theorem Leaves.optional {decode : Json → Option α} {a default : α} {encoded : Json}
    (h : Leaves defaults fields fields') (name : Text)
    (hvalue : fields.lookup name = some value) (hdefault : defaults.lookup name = some encoded)
    (hencoded : Reads defaults decode encoded default) (hread : Reads defaults decode value a) :
    Json.optional default decode fields' name = some a := by
  rw [Json.optional]
  rcases h.abridges.lookup h.nodup hvalue with ⟨hnone, hleft⟩ | ⟨value', hlookup, hvalue'⟩
  · -- the value is the written default, which is read as one thing only
    rw [hnone]
    obtain rfl := Option.some.inj (hdefault.symm.trans hleft)
    exact (hencoded encoded (.refl encoded)).symm.trans (hread encoded (.refl encoded))
  · rw [hlookup]
    exact hread value' hvalue'

/-- A record is read when its fields are, whichever of them are left out. -/
theorem reads_record {names : List Text} {build : Record → Option α} {a : α}
    (hnames : fields.map (·.1) = names) (hnodup : names.Nodup)
    (hbuild : ∀ fields', Leaves defaults fields fields' → build fields' = some a) :
    Reads defaults (fun value => record? names value >>= build) (obj fields) a := by
  rintro _ ⟨fields', rfl, hfields⟩
  subst hnames
  show (record? (fields.map (·.1)) (obj fields')).bind build = _
  rw [record?_obj hfields hnodup, Option.bind_some]
  exact hbuild fields' ⟨hfields, hnodup⟩

/-- The form of a variant is read wherever fields are left out behind it, when its `type` is its
only field of that name. -/
theorem Abridges.variant? {form : Text} {value' : Json}
    (h : Abridges defaults (variant form fields) value') (hvalid : haveValid fields = true)
    (hdefault : defaults.lookup "type".toList = none)
    (hnames : "type".toList ∉ fields.map (·.1)) :
    ∃ value, variant? value' = some (form, value) ∧ Abridges defaults (obj fields) value := by
  have hvalid' : value'.isValid = true := h.isValid hvalid
  obtain ⟨_, rfl, hfields⟩ := h
  rcases hfields with ⟨hleft, -⟩ | ⟨_, fields', rfl, rfl, hfields⟩
  · rw [hdefault] at hleft
    cases hleft
  · refine ⟨obj fields', ?_, fields', rfl, hfields⟩
    have hne : ∀ field ∈ fields', field.1 ≠ "type".toList := fun field hfield heq =>
      hnames (hfields.sublist.subset (heq ▸ List.mem_map_of_mem hfield))
    have htype : (("type".toList, str form) :: fields').filter (·.1 == "type".toList) =
        [("type".toList, str form)] := by
      rw [List.filter_cons_of_pos (by simp), List.filter_eq_nil_iff.mpr]
      intro field hfield heq
      exact hne field hfield (beq_iff_eq.mp heq)
    have hothers : (("type".toList, str form) :: fields').filter (·.1 != "type".toList) =
        fields' := by
      rw [List.filter_cons_of_neg (by simp), List.filter_eq_self.mpr]
      intro field hfield
      exact bne_iff_ne.mpr (hne field hfield)
    rw [Json.variant?, hvalid']
    simp only [htype, hothers]
    rfl

/-- A variant is read when the fields of its form are. -/
theorem reads_variant {forms : List (Text × (Json → Option α))} {form : Text} {names : List Text}
    {build : Record → Option α} {a : α}
    (hform : forms.lookup form = some fun value => record? names value >>= build)
    (hnames : fields.map (·.1) = names) (hnodup : ("type".toList :: names).Nodup)
    (hvalid : haveValid fields = true) (hdefault : defaults.lookup "type".toList = none)
    (hbuild : ∀ fields', Leaves defaults fields fields' → build fields' = some a) :
    Reads defaults (fun value => do
      let (form, fields) ← variant? value
      (← forms.lookup form) fields) (variant form fields) a := by
  intro value' h
  obtain ⟨hnot, hnodup⟩ := List.nodup_cons.mp hnodup
  obtain ⟨value, hvariant, hvalue⟩ := h.variant? hvalid hdefault (hnames ▸ hnot)
  show (variant? value').bind _ = _
  rw [hvariant, Option.bind_some]
  show (forms.lookup form).bind _ = _
  rw [hform, Option.bind_some]
  exact reads_record hnames hnodup hbuild value hvalue

/-! ## Reading values -/

/-- Plain values have nothing that could be left out, so they are read as they are written. -/
theorem reads_text (text : Text) : Reads defaults text? (str text) text := by
  rintro _ rfl
  rfl

theorem reads_flag (flag : Bool) : Reads defaults flag? (bool flag) flag := by
  rintro _ rfl
  rfl

theorem reads_float (number : Float) : Reads defaults float? (float number) number := by
  rintro _ rfl
  rfl

/-- A count is read when it is below the bound of its field. -/
theorem reads_count {n bound : Nat} (h : n < bound) :
    Reads defaults (count? bound) (count n) n := by
  rintro _ rfl
  have hbound : (0 : Int) ≤ n ∧ (n : Int) < bound := by omega
  rw [count, count?, if_pos hbound, Int.toNat_natCast]

theorem reads_count32 {n : Nat} (h : n < Nat.pow 2 32) : Reads defaults count32? (count n) n :=
  reads_count h

theorem reads_count64 {n : Nat} (h : n < Nat.pow 2 64) : Reads defaults count64? (count n) n :=
  reads_count h

/-- A pair is written as an array, of which no item is left out. -/
theorem reads_range (r : Float × Float) : Reads defaults range? (range r) r := by
  rintro _ ⟨_, rfl, _, _, rfl, rfl, _, _, rfl, rfl, rfl⟩
  rfl

/-- A choice is written by its name, which the reader has to know. -/
theorem reads_choice {ofName? : Text → Option α} {name : Text} {a : α} (h : ofName? name = some a) :
    Reads defaults (choice? ofName?) (str name) a := by
  rintro _ rfl
  exact h

/-- In a variant there are more forms of a choice, among them the same one. -/
theorem reads_choiceInVariant {ofName? : Text → Option α} {name : Text} {a : α}
    (h : ofName? name = some a) : Reads defaults (choiceInVariant? ofName?) (str name) a := by
  rintro _ rfl
  exact h

/-- A list is read when each of its members is. None of them is left out, but each may have fields
left out. -/
theorem reads_list {decode : Json → Option α} (encode : α → Json) {items : List α}
    (h : ∀ a ∈ items, Reads defaults decode (encode a) a) :
    Reads defaults (list? decode) (arr (items.map encode)) items := by
  rintro _ ⟨values, rfl, hvalues⟩
  show values.mapM decode = some items
  induction items generalizing values with
  | nil =>
    obtain rfl : values = [] := hvalues
    rfl
  | cons a items ih =>
    obtain ⟨value, rest, rfl, hvalue, hrest⟩ := hvalues
    rw [List.mapM_cons, h a List.mem_cons_self value hvalue,
      ih (fun b hb => h b (List.mem_cons_of_mem _ hb)) rest hrest]
    rfl

/-- A value that may be absent is read as it is, when its reader takes no null. -/
theorem reads_nullable {decode : Json → Option α} {encode : α → Json} (hnull : decode null = none)
    (h : ∀ a, Reads defaults decode (encode a) a) (value : Option α) :
    Reads defaults (nullable? decode) (nullable encode value) value := by
  cases value with
  | none =>
    rintro _ rfl
    rfl
  | some a =>
    intro value' hvalue'
    have hread := h a value' hvalue'
    cases value' with
    | null =>
      rw [hnull] at hread
      cases hread
    | bool | int | float | str | arr | obj | invalid => exact congrArg (Option.map some) hread

theorem areValid_map {encode : α → Json} {items : List α}
    (h : ∀ a ∈ items, (encode a).isValid = true) : areValid (items.map encode) = true := by
  induction items with
  | nil => rfl
  | cons a items ih =>
    exact Bool.and_eq_true_iff.mpr ⟨h a List.mem_cons_self,
      ih fun b hb => h b (List.mem_cons_of_mem _ hb)⟩

end

end TexFigure.Json
