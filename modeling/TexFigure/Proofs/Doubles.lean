import Mathlib
import TexFigure.Arithmetic.Double
/-!
# Doubles and their parts

A double is 64 bits: a sign, 11 bits of exponent and 52 of fraction. Arithmetic takes the bits
apart, computes with a significand and an exponent, and puts the result together again. Both ways
are loss-free: a double is the one that its parts make (`ofParts_parts`), and parts that keep to the
format come back from the double that they make (`parts_ofParts`). Even parts that are too large
for the format keep their sign on the way (`sign?_parts_ofParts`).

The laws of packing themselves, such as `pack_unpack`, come with the library's model of floats. No
module of Mathlib but the whole of it passes them on, which is why all of it is imported here.
-/

namespace TexFigure.Double

open Float.Model Float.Model.UnpackedFloat

/-! ## Fields -/

/-- The parts of the double with these bits. -/
def ofFields (sign : Sign) (exponent : BitVec 11) (fraction : BitVec 52) : UnpackedFloat :=
  if exponent = -1#11 then
    if fraction = 0#52 then .infinity sign else .notANumber
  else if exponent = 0#11 then
    if h : fraction = 0#52 then .zero sign
    else .finite sign fraction.toNat (-1074)
      (Nat.pos_of_ne_zero fun hzero => h (BitVec.eq_of_toNat_eq hzero))
  else .finite sign (2 ^ 52 + fraction.toNat) (exponent.toNat - 1075) (by omega)

/-- The leading bit, which is not written, stands in front of the fraction. -/
theorem toNat_leading (fraction : BitVec 52) :
    (1#1 ++ fraction).toNat = 2 ^ 52 + fraction.toNat := by
  rw [BitVec.toNat_append]
  exact (Nat.shiftLeft_add_eq_or_of_lt fraction.isLt 1).symm

/-- Taking a double apart reads its three fields and nothing else. -/
theorem unpack_eq_ofFields (b : BitVec Format.binary64.numBits) :
    UnpackedFloat.unpack .binary64 b =
      ofFields (Sign.ofBitVec (unpackSign b)) (unpackExponent b) (unpackMantissa b) := by
  have hlead := toNat_leading (unpackMantissa b)
  unfold UnpackedFloat.unpack ofFields
  dsimp only
  split
  next => rfl
  next =>
    split
    next hzero =>
      split
      next => rfl
      next =>
        congr 1
        rw [hzero]
        rfl
    next => congr 1

/-- Fields that are written one behind another are read off again. -/
theorem unpack_packComponents (sign : Sign) (exponent : BitVec 11) (fraction : BitVec 52) :
    UnpackedFloat.unpack .binary64 (packComponents .binary64 sign exponent fraction) =
      ofFields sign exponent fraction := by
  rw [unpack_eq_ofFields, unpackSign_packComponents, Sign.ofBitVec_toBitVec,
    unpackExponent_packComponents, unpackMantissa_packComponents]

/-! ## What the format holds -/

/-- A significand and an exponent as the format has them: the leading bit of the significand is
there unless the exponent is the smallest. -/
structure Canonical (significand : Nat) (exponent : Int) : Prop where
  bits : significand < 2 ^ 53
  least : -1074 ≤ exponent
  leading : 2 ^ 52 ≤ significand ∨ exponent = -1074

/-- A finite number that is read from fields keeps to the format. The exponent is bounded since the
largest one is kept for what is not finite. -/
theorem canonical_ofFields {sign s : Sign} {exponent : BitVec 11} {fraction : BitVec 52} {m : Nat}
    {e : Int} {hm : 0 < m} (h : ofFields sign exponent fraction = .finite s m e hm) :
    Canonical m e ∧ e ≤ 971 := by
  have hfraction : fraction.toNat < 2 ^ 52 := fraction.isLt
  have hexponent : exponent.toNat < 2 ^ 11 := exponent.isLt
  unfold ofFields at h
  split at h
  next => split at h <;> cases h
  next htop =>
    have htop : exponent.toNat ≠ 2047 := fun heq => htop (BitVec.eq_of_toNat_eq heq)
    split at h
    next =>
      split at h
      next => cases h
      next =>
        cases h
        exact ⟨⟨by omega, Int.le_refl _, Or.inr rfl⟩, by decide⟩
    next hzero =>
      have hzero : exponent.toNat ≠ 0 := fun heq => hzero (BitVec.eq_of_toNat_eq heq)
      cases h
      exact ⟨⟨by omega, by omega, Or.inl (by omega)⟩, by omega⟩

/-- Fields are written back as they were, unless they say that there is no number. -/
theorem pack_ofFields {sign : Sign} {exponent : BitVec 11} {fraction : BitVec 52}
    (h : exponent = -1#11 → fraction = 0#52) :
    UnpackedFloat.pack .binary64 (ofFields sign exponent fraction) =
      packComponents .binary64 sign exponent fraction := by
  have hnumber : ¬isNaNBits (packComponents .binary64 sign exponent fraction) = true := by
    rw [isNaNBits, decide_eq_true_iff, unpackExponent_packComponents,
      unpackMantissa_packComponents]
    exact fun hnone => hnone.2 (h hnone.1)
  rw [← unpack_packComponents, pack_unpack, if_neg hnumber]

theorem finite_congr {sign : Sign} {m n : Nat} {d e : Int} {hm : 0 < m} {hn : 0 < n} (h : m = n)
    (h' : d = e) : UnpackedFloat.finite sign m d hm = .finite sign n e hn := by
  subst h h'
  rfl

/-- What keeps to the format is read off from some fields. -/
theorem exists_fields (sign : Sign) {m : Nat} {e : Int} (hm : 0 < m) (h : Canonical m e)
    (htop : e ≤ 971) :
    ∃ exponent fraction, exponent ≠ -1#11 ∧
      ofFields sign exponent fraction = .finite sign m e hm := by
  have hbits := h.bits
  have hleast := h.least
  by_cases hlead : 2 ^ 52 ≤ m
  · have hexponent : (BitVec.ofNat 11 (e + 1075).toNat).toNat = (e + 1075).toNat := by
      rw [BitVec.toNat_ofNat]
      omega
    have hfraction : (BitVec.ofNat 52 (m - 2 ^ 52)).toNat = m - 2 ^ 52 := by
      rw [BitVec.toNat_ofNat]
      omega
    have htop' : BitVec.ofNat 11 (e + 1075).toNat ≠ -1#11 := by
      intro heq
      rw [heq] at hexponent
      simp only [BitVec.reduceNeg, BitVec.reduceToNat] at hexponent
      omega
    have hzero : BitVec.ofNat 11 (e + 1075).toNat ≠ 0#11 := by
      intro heq
      rw [heq] at hexponent
      simp only [BitVec.reduceToNat] at hexponent
      omega
    refine ⟨_, BitVec.ofNat 52 (m - 2 ^ 52), htop', ?_⟩
    rw [ofFields, if_neg htop', if_neg hzero]
    exact finite_congr (by omega) (by omega)
  · obtain rfl : e = -1074 := h.leading.resolve_left hlead
    have hfraction : (BitVec.ofNat 52 m).toNat = m := by
      rw [BitVec.toNat_ofNat]
      omega
    have hsome : BitVec.ofNat 52 m ≠ 0#52 := by
      intro heq
      rw [heq] at hfraction
      simp only [BitVec.reduceToNat] at hfraction
      omega
    refine ⟨0#11, BitVec.ofNat 52 m, by decide, ?_⟩
    rw [ofFields, if_neg (by decide), if_pos rfl, dif_neg hsome]
    exact finite_congr hfraction rfl

/-! ## Parts -/

/-- The parts of a double: what kind of number it is, with its sign, its significand and its
exponent. -/
def parts (x : Float) : UnpackedFloat := x.toModel.unpack

/-- The double that parts make. -/
def ofParts (u : UnpackedFloat) : Float := .ofModel (.pack u)

/-- A double is the one that its parts make. There is one double only that is not a number, so that
this holds of it as well. -/
theorem ofParts_parts (x : Float) : ofParts (parts x) = x := by
  obtain ⟨⟨bits, valid⟩⟩ := x
  have hpack := pack_unpack_of_valid valid
  show Float.ofModel ⟨UInt64.ofBitVec _, _⟩ = _
  congr 2
  exact congrArg UInt64.ofBitVec hpack

/-- Doubles are told apart by their parts. -/
theorem eq_of_parts {x y : Float} (h : parts x = parts y) : x = y := by
  rw [← ofParts_parts x, h, ofParts_parts]

/-- The parts of a finite double keep to the format. -/
theorem canonical_parts {x : Float} {sign : Sign} {m : Nat} {e : Int} {hm : 0 < m}
    (h : parts x = .finite sign m e hm) : Canonical m e ∧ e ≤ 971 := by
  unfold parts Float.Model.unpack at h
  rw [unpack_eq_ofFields] at h
  exact canonical_ofFields h

/-- Parts that a double can have. -/
def InFormat : UnpackedFloat → Prop
  | .finite _ m e _ => Canonical m e ∧ e ≤ 971
  | _ => True

/-- Parts that keep to the format come back from the double that they make. -/
theorem parts_ofParts {u : UnpackedFloat} (h : InFormat u) : parts (ofParts u) = u := by
  show UnpackedFloat.unpack .binary64 (UnpackedFloat.pack .binary64 u) = u
  cases u with
  | infinity sign => exact unpack_packComponents sign (-1#11) 0#52
  | notANumber => rfl
  | zero sign => exact unpack_packComponents sign 0#11 0#52
  | finite sign m e hm =>
    obtain ⟨exponent, fraction, hne, hfields⟩ := exists_fields sign hm h.1 h.2
    rw [← hfields, pack_ofFields fun htop => absurd htop hne, unpack_packComponents]

/-! ## Signs -/

/-- The sign of a number. -/
def sign? : UnpackedFloat → Option Sign
  | .notANumber => none
  | .infinity sign | .zero sign | .finite sign .. => some sign

/-- The sign of a number is that of its fields, unless they say that there is none. -/
theorem sign?_ofFields {sign : Sign} {exponent : BitVec 11} {fraction : BitVec 52}
    (h : exponent = -1#11 → fraction = 0#52) :
    sign? (ofFields sign exponent fraction) = some sign := by
  unfold ofFields
  split
  next htop =>
    rw [if_pos (h htop)]
    rfl
  next =>
    split
    next => split <;> rfl
    next => rfl

/-- A sign is kept also where a number is cut down to the format. -/
theorem sign?_parts_ofParts (u : UnpackedFloat) : sign? (parts (ofParts u)) = sign? u := by
  cases u with
  | infinity sign => exact congrArg sign? (parts_ofParts (u := .infinity sign) trivial)
  | notANumber => rfl
  | zero sign => exact congrArg sign? (parts_ofParts (u := .zero sign) trivial)
  | finite sign m e hm =>
    show sign? (UnpackedFloat.unpack .binary64 (UnpackedFloat.pack .binary64 _)) = some sign
    rw [UnpackedFloat.pack]
    split
    next =>
      show sign? (UnpackedFloat.unpack .binary64 (packComponents .binary64 sign _ _)) = _
      rw [unpack_packComponents]
      exact sign?_ofFields fun _ => rfl
    next hbound =>
      split
      next =>
        rw [unpack_packComponents]
        refine sign?_ofFields fun htop => absurd (congrArg BitVec.toNat htop) ?_
        intro heq
        rw [BitVec.toNat_ofNat, Nat.mod_eq_of_lt (by omega)] at heq
        exact hbound (Nat.le_of_eq (congrArg (· + 1) heq.symm))
      next =>
        rw [unpack_packComponents]
        exact sign?_ofFields fun htop => absurd htop (by decide)

end TexFigure.Double
