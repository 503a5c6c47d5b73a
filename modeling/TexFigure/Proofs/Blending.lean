import TexFigure.Color.Token
import TexFigure.Proofs.Magnitudes
/-!
# Shares of colours

A mixture takes a share of each channel of one colour and the rest of the other's. With the whole
share it is the first colour and with none the second, to the last bit (`mix_whole`, `mix_none`).
That would fail for a channel that has overflowed, since infinity has no share that is zero; but a
mixture with an atom never leads there, however often it is repeated (`isBounded_mix`): a share
below one takes away more from a channel that is near the bound than the other colour can add.
-/

namespace TexFigure.Color

open Double Float.Model Float.Model.UnpackedFloat

/-! ## Shares -/

/-- A share of a colour: some of it, all of it, or the zero that a negative percentage may leave. -/
def IsShare (share : Float) : Prop :=
  parts share = .zero .negative ∨ share = 1.0 ∨ AtMost (1 - 2 ^ (-53 : Int)) (parts share)

theorem hundred_parts : parts 100.0 = .finite .positive (25 * 2 ^ 48) (-46) (by decide) := rfl

/-- A number that is cut to the range from zero to one is a share. -/
theorem isShare_clamp {x : Float} (hx : sign? (parts x) ≠ none) :
    IsShare (Double.clamp 0.0 1.0 x) := by
  have hzero : AtMost (1 - 2 ^ (-53 : Int)) (.zero .positive) := by
    show (0 : ℚ) ≤ _
    norm_num
  obtain h | h | ⟨h, ⟨sign, hparts⟩ | ⟨m, e, hm, hparts, hle⟩⟩ := clamp_cases one_parts hx
  · rw [h]
    exact Or.inr (Or.inr hzero)
  · exact Or.inr (Or.inl h)
  · rw [h]
    cases sign with
    | negative => exact Or.inl hparts
    | positive =>
      refine Or.inr (Or.inr ?_)
      rw [hparts]
      exact hzero
  · rw [h]
    have hcanonical := (canonical_parts hparts).1
    have hbits := hcanonical.bits
    rcases hle with hlt | ⟨rfl, hle⟩
    · refine Or.inr (Or.inr ?_)
      rw [hparts]
      refine ⟨hcanonical, ?_⟩
      calc (m : ℚ) * 2 ^ e ≤ (2 ^ 53 - 1 : Nat) * 2 ^ (-53 : Int) :=
            mul_pow_mono (by omega) (by omega)
        _ = 1 - 2 ^ (-53 : Int) := by norm_num
    · -- the only number of the exponent of one that is not above it is one
      have hlead : 2 ^ 52 ≤ m := hcanonical.leading.resolve_right (by omega)
      refine Or.inr (Or.inl (eq_of_parts ?_))
      rw [hparts, one_parts]
      exact finite_congr (by omega) rfl

/-- The share that a percentage stands for is a share, unless the percentage is no number. -/
theorem isShare_percentage {p : Float} (hp : sign? (parts p) ≠ none) :
    IsShare (Double.clamp 0.0 1.0 (Double.clamp 0.0 100.0 p / 100.0)) := by
  have hcut : sign? (parts (Double.clamp 0.0 100.0 p)) ≠ none := by
    obtain h | h | ⟨h, -⟩ := clamp_cases hundred_parts hp <;> rw [h]
    · rintro ⟨⟩
    · rintro ⟨⟩
    · exact hp
  refine isShare_clamp ?_
  rwa [div_eq, sign?_parts_ofParts, sign?_div (show isPositive (parts 100.0) from rfl)]

/-- Of a percentage from 100 on, all is taken. -/
theorem percentage_whole {p : Float} (h : 100.0 ≤ p) :
    Double.clamp 0.0 1.0 (Double.clamp 0.0 100.0 p / 100.0) = 1.0 := by
  rw [clamp_of_le hundred_parts h]
  decide +kernel

/-- Of a percentage up to zero, nothing is taken. -/
theorem percentage_none {p : Float} (h : p ≤ 0.0) :
    ∃ sign, parts (Double.clamp 0.0 1.0 (Double.clamp 0.0 100.0 p / 100.0)) = .zero sign := by
  obtain ⟨sign, hzero⟩ := clamp_of_le_zero hundred_parts h
  have hdiv : parts (Double.clamp 0.0 100.0 p / 100.0) = .zero sign := by
    rw [div_eq, hzero, hundred_parts]
    cases sign <;> rfl
  rw [clamp_of_zero one_parts hdiv]
  exact ⟨sign, hdiv⟩

/-! ## Blending -/

variable {a b share : Float}

/-- A share of one leaves the first of two values exactly, as the other is multiplied by zero. -/
theorem blend_whole {q r : ℚ} (ha : AtMost q (parts a)) (hb : AtMost r (parts b)) :
    blend 1.0 a b = a := by
  have hrest : b * (1.0 - 1.0) = 0.0 := eq_of_parts (mul_zero_of_atMost hb zero_parts)
  rw [blend, mul_one_of_atMost ha, hrest, add_zero_of_atMost ha]

/-- A share of zero, of either sign, leaves the second one. -/
theorem blend_none {q r : ℚ} {sign : Sign} (hshare : parts share = .zero sign)
    (ha : AtMost q (parts a)) (hb : AtMost r (parts b)) : blend share a b = b := by
  rw [blend, one_sub_zero hshare, mul_one_of_atMost hb]
  exact zero_add_of_atMost (mul_zero_of_atMost ha hshare) hb

/-- The bound of an atom is a double. -/
theorem isDouble_atom : IsDouble 256 := by
  exact_mod_cast isDouble_natCast (n := 256) (by norm_num)

/-- A mixture with an atom stays bounded. -/
theorem blend_atMost (hshare : IsShare share) (ha : AtMost (2 ^ 100) (parts a))
    (hb : AtMost 256 (parts b)) : AtMost (2 ^ 100) (parts (blend share a b)) := by
  rcases hshare with hshare | rfl | hshare
  · rw [blend_none hshare ha hb]
    exact hb.mono (by norm_num)
  · rwa [blend_whole ha hb]
  · have htop : IsDouble (2 ^ 100) := ⟨1, 100, by norm_num, by norm_num, by norm_num, by norm_num⟩
    have hbelow : IsDouble (2 ^ 100 - 2 ^ 47) :=
      ⟨2 ^ 53 - 1, 47, by norm_num, by norm_num, by norm_num, by norm_num⟩
    have hrest : AtMost 1 (parts (1.0 - share)) := one_sub_atMost (hshare.mono (by norm_num))
    have hfirst : AtMost (2 ^ 100 - 2 ^ 47) (parts (a * share)) :=
      AtMost.ofParts hbelow (ha.mul hshare hbelow (by norm_num))
    have hsecond : AtMost 256 (parts (b * (1.0 - share))) :=
      AtMost.ofParts isDouble_atom (hb.mul hrest isDouble_atom (by norm_num))
    exact AtMost.ofParts htop (hfirst.add hsecond htop (by norm_num))

/-- A colour whose channels and opacity are at most a bound. -/
structure IsBounded (r : ℚ) (color : Color) : Prop where
  red : AtMost r (parts color.red)
  green : AtMost r (parts color.green)
  blue : AtMost r (parts color.blue)
  alpha : AtMost r (parts color.alpha)

theorem IsBounded.mono {q r : ℚ} {color : Color} (h : IsBounded q color) (hle : q ≤ r) :
    IsBounded r color :=
  ⟨h.red.mono hle, h.green.mono hle, h.blue.mono hle, h.alpha.mono hle⟩

section
variable {color other : Color} {p : Float} {q r : ℚ}

/-- A percentage from 100 on leaves the first colour as it is. -/
theorem mix_whole (hcolor : IsBounded q color) (hother : IsBounded r other) (h : 100.0 ≤ p) :
    color.mix other (Double.clamp 0.0 100.0 p / 100.0) = color := by
  rw [mix, percentage_whole h, blend_whole hcolor.red hother.red,
    blend_whole hcolor.green hother.green, blend_whole hcolor.blue hother.blue,
    blend_whole hcolor.alpha hother.alpha]

/-- A percentage up to zero leaves only the second colour. -/
theorem mix_none (hcolor : IsBounded q color) (hother : IsBounded r other) (h : p ≤ 0.0) :
    color.mix other (Double.clamp 0.0 100.0 p / 100.0) = other := by
  obtain ⟨sign, hshare⟩ := percentage_none h
  rw [mix, blend_none hshare hcolor.red hother.red, blend_none hshare hcolor.green hother.green,
    blend_none hshare hcolor.blue hother.blue, blend_none hshare hcolor.alpha hother.alpha]

/-- A mixture with an atom stays bounded, whatever the percentage. -/
theorem isBounded_mix (hcolor : IsBounded (2 ^ 100) color) (hother : IsBounded 256 other)
    (hp : sign? (parts p) ≠ none) :
    IsBounded (2 ^ 100) (color.mix other (Double.clamp 0.0 100.0 p / 100.0)) :=
  have hshare := isShare_percentage hp
  ⟨blend_atMost hshare hcolor.red hother.red, blend_atMost hshare hcolor.green hother.green,
    blend_atMost hshare hcolor.blue hother.blue, blend_atMost hshare hcolor.alpha hother.alpha⟩

end

/-! ## Atoms -/

/-- A channel of eight bits is below the bound, as it is a double as it stands. -/
theorem ofNat_atMost {n : Nat} (hn : n ≤ 255) : AtMost 256 (parts (Float.ofNat n)) := by
  have hword : AtMost 256 (parts n.toUInt64.toFloat) := by
    refine AtMost.ofParts isDouble_atom ?_
    have hval : n.toUInt64.toNat = n := by
      rw [Nat.toUInt64, UInt64.toNat_ofNat']
      omega
    show AtMost 256 (UnpackedFloat.normalize .binary64 (n.toUInt64.toNat : Nat) 0 .positive)
    rw [hval]
    refine normalize_atMost (Int.natCast_nonneg n) isDouble_atom ?_
    rw [zpow_zero, mul_one, Int.cast_natCast]
    exact_mod_cast hn.trans (by norm_num)
  have hpower : AtMost 1 (parts Float.exactlyRepresentablePowersOfTen[0]) := one_atMost
  have hmul : Float.ofNat n = n.toUInt64.toFloat * Float.exactlyRepresentablePowersOfTen[0] := by
    show (if h : n < 2 ^ 53 ∧ 0 ≤ 22 then _ else _) = _
    rw [dif_pos ⟨by omega, by omega⟩]
    rfl
  rw [hmul]
  exact AtMost.ofParts isDouble_atom (hword.mul hpower isDouble_atom (by norm_num))

/-- The powers of ten from a table are positive, all of them. -/
theorem isPositive_power : ∀ i : Fin Float.exactlyRepresentablePowersOfTen.size,
    isPositive (parts Float.exactlyRepresentablePowersOfTen[i]) := by
  decide +kernel

theorem sign?_normalize_natCast (n : Nat) (e : Int) :
    sign? (UnpackedFloat.normalize .binary64 n e .positive) = some .positive := by
  cases n with
  | zero => rfl
  | succ n => exact sign?_roundWithAccuracy _ _ _ _

/-- A decimal is read as a positive number when no sign stands in front of it, whether it is
multiplied by a power or divided by it. -/
theorem sign?_scientific (m : Nat) (e : Int) :
    sign? (UnpackedFloat.ofScientific .binary64 m e) = some .positive := by
  unfold UnpackedFloat.ofScientific
  split
  · rfl
  · split
    · rfl
    · split
      · rfl
      · split
        · exact sign?_mul rfl
        · exact sign?_div rfl

/-- A written number without a sign has none. -/
theorem sign?_ofScientific (m : Nat) (fraction : Bool) (n : Nat) :
    sign? (parts (Float.ofScientific m fraction n)) = some .positive := by
  unfold Float.ofScientific
  split
  next h =>
    have hword : sign? (parts m.toUInt64.toFloat) = some .positive :=
      (sign?_parts_ofParts _).trans (sign?_normalize_natCast _ _)
    have hsize : n < Float.exactlyRepresentablePowersOfTen.size := Nat.lt_succ_of_le h.2
    have hpower : isPositive (parts Float.exactlyRepresentablePowersOfTen[n]) :=
      isPositive_power ⟨n, hsize⟩
    dsimp only
    split
    · rw [div_eq, sign?_parts_ofParts, sign?_div hpower, hword]
    · rw [mul_eq, sign?_parts_ofParts, sign?_mul hpower, hword]
  next => exact (sign?_parts_ofParts _).trans (sign?_scientific m _)

/-- Both ways of reading a decimal, the exact one for short ones and the general one, give a
positive sign. -/
theorem sign?_nearestFloat (coefficient : Nat) (exponent : Int) :
    sign? (parts (Decimal.nearestFloat coefficient exponent)) = some .positive := by
  unfold Decimal.nearestFloat
  dsimp only
  split
  · rfl
  · split
    · rfl
    · exact sign?_ofScientific _ _ _

/-- A number without a sign that is cut to the range of a channel stays below 256. -/
theorem clamp_atMost {x : Float} (hx : sign? (parts x) = some .positive) :
    AtMost 256 (parts (Double.clamp 0.0 255.0 x)) := by
  have htop : parts 255.0 = .finite .positive (255 * 2 ^ 45) (-45) (by decide) := rfl
  have hbelow {m : Nat} {e : Int} {hm : 0 < m} (hcanonical : Canonical m e) (he : e ≤ -45) :
      AtMost 256 (.finite .positive m e hm) := by
    refine ⟨hcanonical, ?_⟩
    calc (m : ℚ) * 2 ^ e ≤ (2 ^ 53 : Nat) * 2 ^ (-45 : Int) := mul_pow_mono hcanonical.bits.le he
      _ = 256 := by norm_num
  have hzero : AtMost 256 (.zero .positive) := by
    show (0 : ℚ) ≤ 256
    norm_num
  obtain h | h | ⟨h, ⟨sign, hparts⟩ | ⟨m, e, hm, hparts, hle⟩⟩ :=
      clamp_cases htop (by rw [hx]; rintro ⟨⟩)
  · rw [h]
    exact hzero
  · rw [h, htop]
    exact hbelow (canonical_parts htop).1 le_rfl
  · rw [hparts] at hx
    rw [h, hparts, Option.some.inj hx]
    exact hzero
  · rw [h, hparts]
    exact hbelow (canonical_parts hparts).1 (by omega)

/-- A colour without transparency is bounded when its channels are; its opacity is one. -/
theorem isBounded_solid {red green blue : Float} (hred : AtMost 256 (parts red))
    (hgreen : AtMost 256 (parts green)) (hblue : AtMost 256 (parts blue)) :
    IsBounded 256 (solid red green blue) :=
  ⟨hred, hgreen, hblue, one_atMost.mono (by norm_num)⟩

theorem isBounded_ofChannels {red green blue : Nat} (hred : red ≤ 255) (hgreen : green ≤ 255)
    (hblue : blue ≤ 255) : IsBounded 256 (ofChannels red green blue) :=
  isBounded_solid (ofNat_atMost hred) (ofNat_atMost hgreen) (ofNat_atMost hblue)

theorem hexValue?_lt {c : Char} {n : Nat} (h : hexValue? c = some n) : n < 16 := by
  unfold hexValue? at h
  split at h
  next hdigit =>
    obtain rfl := Option.some.inj h
    obtain ⟨-, hhigh⟩ := Char.isDigit_iff_toNat.mp hdigit
    simp only [Char.reduceToNat] at hhigh ⊢
    omega
  next =>
    split at h
    next hletter =>
      obtain rfl := Option.some.inj h
      have hhigh : c.toNat ≤ 102 := hletter.2
      simp only [Char.reduceToNat]
      omega
    next =>
      split at h
      next hletter =>
        obtain rfl := Option.some.inj h
        have hhigh : c.toNat ≤ 70 := hletter.2
        simp only [Char.reduceToNat]
        omega
      next => cases h

/-- A list is read if each of its items is, and then it gives what they give. -/
theorem mapM_eq_some {α β : Type} {f : α → Option β} {as : List α} {bs : List β}
    (h : as.mapM f = some bs) :
    (∀ a ∈ as, (f a).isSome) ∧ ∀ b ∈ bs, ∃ a ∈ as, f a = some b := by
  induction as generalizing bs with
  | nil =>
    obtain rfl := Option.some.inj h
    exact ⟨List.forall_mem_nil _, List.forall_mem_nil _⟩
  | cons a as ih =>
    rw [List.mapM_cons] at h
    obtain ⟨b, hb, h⟩ := Option.bind_eq_some_iff.mp h
    obtain ⟨rest, hrest, h⟩ := Option.bind_eq_some_iff.mp h
    obtain rfl := Option.some.inj h
    obtain ⟨hsome, hmem⟩ := ih hrest
    refine ⟨List.forall_mem_cons.mpr ⟨by rw [hb]; rfl, hsome⟩,
      List.forall_mem_cons.mpr ⟨⟨a, List.mem_cons_self, hb⟩, fun c hc => ?_⟩⟩
    obtain ⟨a', ha', hc⟩ := hmem c hc
    exact ⟨a', List.mem_cons_of_mem a ha', hc⟩

/-- Digits of base sixteen make channels of eight bits, one by one or in pairs. -/
theorem isBounded_ofHex? {code : Text} {color : Color} (h : ofHex? code = some color) :
    IsBounded 256 color := by
  unfold ofHex? at h
  obtain ⟨digits, hdigits, h⟩ := Option.bind_eq_some_iff.mp h
  have hlt : ∀ n ∈ digits, n < 16 := by
    intro n hn
    obtain ⟨c, -, hc⟩ := (mapM_eq_some hdigits).2 n hn
    exact hexValue?_lt hc
  split at h
  next r g b =>
    obtain rfl := Option.some.inj h
    simp only [List.mem_cons, List.not_mem_nil, or_false, forall_eq_or_imp, forall_eq] at hlt
    exact isBounded_ofChannels (by omega) (by omega) (by omega)
  next r r' g g' b b' =>
    obtain rfl := Option.some.inj h
    simp only [List.mem_cons, List.not_mem_nil, or_false, forall_eq_or_imp, forall_eq] at hlt
    exact isBounded_ofChannels (by omega) (by omega) (by omega)
  next => cases h

/-- A channel of a triple is cut down to its range when it is read. -/
theorem readChannel?_atMost {text rest : Text} {x : Float}
    (h : readChannel? text = some (x, rest)) : AtMost 256 (parts x) := by
  unfold readChannel? at h
  dsimp only at h
  split at h
  next => cases h
  next =>
    obtain ⟨rfl, -⟩ := Prod.mk.inj (Option.some.inj h)
    exact clamp_atMost (sign?_nearestFloat _ _)

/-- So a triple of channels is a bounded colour, whatever its numbers are. -/
theorem isBounded_ofTriple? {token : Text} {color : Color} (h : ofTriple? token = some color) :
    IsBounded 256 color := by
  unfold ofTriple? at h
  dsimp only at h
  simp only [Option.bind_eq_bind, Option.bind_eq_some_iff, Prod.exists] at h
  obtain ⟨_, -, red, _, hred, _, -, green, _, hgreen, _, -, blue, _, hblue, h⟩ := h
  have hsolid : IsBounded 256 (solid red green blue) :=
    isBounded_solid (readChannel?_atMost hred) (readChannel?_atMost hgreen)
      (readChannel?_atMost hblue)
  split at h
  next => exact Option.some.inj h ▸ hsolid
  next => exact Option.some.inj h ▸ hsolid
  next => cases h

/-- Whatever spelling an atom has, it is a bounded colour. -/
theorem isBounded_ofAtom? {token : Text} {color : Color} (h : ofAtom? token = some color) :
    IsBounded 256 color := by
  unfold ofAtom? at h
  dsimp only at h
  split at h
  next red green blue hlookup =>
    obtain rfl := Option.some.inj h
    obtain ⟨before, after, hpalette, -⟩ := List.lookup_eq_some_iff.mp hlookup
    have hmem : (Text.trim token, red, green, blue) ∈ palette := by
      rw [hpalette]
      exact List.mem_append_right _ List.mem_cons_self
    have hall : ∀ entry ∈ palette, entry.2.1 ≤ 255 ∧ entry.2.2.1 ≤ 255 ∧ entry.2.2.2 ≤ 255 := by
      decide
    obtain ⟨hred, hgreen, hblue⟩ := hall _ hmem
    exact isBounded_ofChannels hred hgreen hblue
  next =>
    split at h
    next => exact isBounded_ofHex? h
    next => exact isBounded_ofTriple? h

end TexFigure.Color
