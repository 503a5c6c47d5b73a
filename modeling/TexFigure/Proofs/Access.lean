import Mathlib.Data.List.Induction
import TexFigure.Source.Offset
/-!
# Checked access to the bytes of a text

The readers of a source text peel characters off its front. A reader that addresses the UTF-8 form
of the text by byte offset can compute the same, but it can go wrong where they cannot: read a byte
outside of the text, cut inside a character, or take a turn of a loop that does not move on. Here is
what such a reader is written in, with each of the three as a fault that it ends in.

A place of the text is a byte offset together with what is left of the text there (`Stands`). At
such a place every access succeeds and gives what the characters give: `Stands.byteAt?_eq`,
`Stands.suffix_eq`, `Stands.slice_eq`, `Stands.isEscaped_eq`. Elsewhere there may be a fault: a text
has a byte inside it and nowhere else (`exists_byteAt_iff`), and is cut at the boundaries of its
characters. A loop over bytes passes through the inside of long characters, where none of its tests
for an ASCII character holds (`scan_long`).
-/

namespace TexFigure.Checked

open Text Source

/-! ## Access -/

/-- What a reader by byte offset can do wrong. -/
inductive Fault
  /-- It reads a byte outside of the text. -/
  | byte (offset : Nat)
  /-- It cuts outside of the text, inside a character, or backwards. -/
  | cut (first last : Nat)
  /-- It takes a turn of a loop that does not move on, or that moves out of the text. -/
  | stuck (offset : Nat)
  deriving DecidableEq, Repr

/-- The UTF-8 form of a text. -/
def bytes (text : Text) : List UInt8 := text.flatMap String.utf8EncodeChar

/-- The byte at an offset, as the character of its value. -/
def byteAt? (text : Text) (offset : Nat) : Option Char :=
  (bytes text)[offset]?.map fun byte => Char.ofNat byte.toNat

/-- The byte at an offset that must be inside the text. -/
def byteAt (text : Text) (offset : Nat) : Except Fault Char :=
  match byteAt? text offset with
  | some byte => .ok byte
  | none => .error (.byte offset)

/-- What is left of a text at an offset that must be a character boundary. -/
def suffix (text : Text) (first : Nat) : Except Fault Text :=
  let place := Place.ofOffset text first
  if place.offset = first then .ok place.rest else .error (.cut first (byteSize text))

/-- What stands between two offsets that must be character boundaries, in this order. -/
def slice (text : Text) (first last : Nat) : Except Fault Text := do
  let front ← suffix text first
  let back ← suffix text last
  if first ≤ last then .ok (front.take (front.length - back.length)) else .error (.cut first last)

/-- Whether an odd run of backslashes ends right before an offset. -/
def isEscaped (text : Text) : Nat → Except Fault Bool
  | 0 => .ok false
  | offset + 1 => do
    if (← byteAt text offset) = '\\' then
      let escaped ← isEscaped text offset
      .ok !escaped
    else .ok false

/-! ## Loops -/

/-- What a turn of a loop decides. -/
inductive Turn (σ ρ : Type)
  | stop (result : ρ)
  | go (state : σ) (next : Nat)

section
variable {σ ρ : Type}

/-- Take turns through a text. Each one must move on, and stay in the text. -/
def loop (text : Text) (turn : σ → Nat → Except Fault (Turn σ ρ)) (state : σ) (pos : Nat) :
    Except Fault ρ :=
  match turn state pos with
  | .error fault => .error fault
  | .ok (.stop result) => .ok result
  | .ok (.go state next) =>
    if _h : pos < next ∧ next ≤ byteSize text then loop text turn state next
    else .error (.stuck pos)
termination_by byteSize text - pos

/-- A loop that looks at a byte in each turn, and stops at the end of the text. -/
def scan (text : Text) (atEnd : σ → ρ) (turn : σ → Nat → Char → Except Fault (Turn σ ρ)) :
    σ → Nat → Except Fault ρ :=
  loop text fun state pos =>
    if byteSize text ≤ pos then .ok (.stop (atEnd state))
    else do turn state pos (← byteAt text pos)

end

/-! ## Places -/

@[simp] theorem byteSize_nil : byteSize [] = 0 := rfl

@[simp] theorem byteSize_cons (c : Char) (rest : Text) :
    byteSize (c :: rest) = c.utf8Size + byteSize rest := rfl

@[simp] theorem byteSize_append (text text' : Text) :
    byteSize (text ++ text') = byteSize text + byteSize text' := by
  induction text with
  | nil => simp
  | cons c text ih => simp [ih, Nat.add_assoc]

@[simp] theorem ok_bind {α β : Type} (a : α) (f : α → Except Fault β) : (Except.ok a >>= f) = f a :=
  rfl

/-- `rest` is what is left of `text` at the byte offset `pos`, and `escaped` says whether an odd run
of backslashes stands before it. -/
def Stands (text : Text) (pos : Nat) (escaped : Bool) (rest : Text) : Prop :=
  ∃ before, text = before ++ rest ∧ pos = byteSize before ∧ escaped = before.foldl escapes false

section
variable {text rest word : Text} {pos : Nat} {escaped : Bool} {c : Char}

/-- The start of a text is one of its places. -/
theorem stands_zero (text : Text) : Stands text 0 false text := ⟨[], rfl, rfl, rfl⟩

/-- Behind a word there is another place, which is escaped or not by what the word ends in. -/
theorem Stands.append (h : Stands text pos escaped (word ++ rest)) :
    Stands text (pos + byteSize word) (word.foldl escapes escaped) rest := by
  obtain ⟨before, rfl, rfl, rfl⟩ := h
  exact ⟨before ++ word, by simp, by simp, by simp⟩

theorem Stands.next (h : Stands text pos escaped (c :: rest)) :
    Stands text (pos + c.utf8Size) (escapes escaped c) rest :=
  @Stands.append _ _ [c] _ _ h

/-- Behind an ASCII character the next place is one byte on. -/
theorem Stands.next_ascii (h : Stands text pos escaped (c :: rest)) (hc : c.utf8Size = 1) :
    Stands text (pos + 1) (escapes escaped c) rest := by
  simpa [hc] using h.next

/-- What is left at a place fills up the text. -/
theorem Stands.add_byteSize (h : Stands text pos escaped rest) :
    pos + byteSize rest = byteSize text := by
  obtain ⟨before, rfl, rfl, -⟩ := h
  exact (byteSize_append before rest).symm

/-- The offset of a place is told from what is left there. -/
theorem Stands.offsetOf_eq (h : Stands text pos escaped rest) : offsetOf text rest = pos :=
  Nat.sub_eq_of_eq_add h.add_byteSize.symm

theorem Stands.le (h : Stands text pos escaped rest) : pos ≤ byteSize text := by
  have := h.add_byteSize
  omega

/-- Moving on by the size of a word passes over that word, when it starts at a place. -/
theorem advance_append (before rest : Text) (offset : Nat) (escaped : Bool) :
    Place.advance (offset + byteSize before) (before ++ rest) offset escaped =
      ⟨rest, offset + byteSize before, before.foldl escapes escaped⟩ := by
  induction before generalizing offset escaped with
  | nil =>
    cases rest with
    | nil => rfl
    | cons c rest => simp [Place.advance]
  | cons c before ih =>
    have hpos := c.utf8Size_pos
    have hlt : ¬offset + (c.utf8Size + byteSize before) ≤ offset := by omega
    have hadd := Nat.add_assoc offset c.utf8Size (byteSize before)
    rw [byteSize_cons, List.cons_append, Place.advance, if_neg hlt, ← hadd, ih]
    rfl

/-- A place is found from its offset, by moving on from the start of the text. -/
theorem Stands.ofOffset (h : Stands text pos escaped rest) :
    Place.ofOffset text pos = ⟨rest, pos, escaped⟩ := by
  obtain ⟨before, rfl, rfl, rfl⟩ := h
  simpa [Place.ofOffset] using advance_append before rest 0 false

/-- At a place the text is cut without a fault. -/
theorem Stands.suffix_eq (h : Stands text pos escaped rest) : suffix text pos = .ok rest := by
  simp [suffix, h.ofOffset]

example : suffix "é;".toList 1 = .error (.cut 1 3) := by rfl

theorem byteSize_pos (h : word ≠ []) : 0 < byteSize word := by
  cases word with
  | nil => exact absurd rfl h
  | cons c word =>
    have := c.utf8Size_pos
    rw [byteSize_cons]
    omega

theorem byteSize_eq_zero : byteSize word = 0 ↔ word = [] := by
  constructor
  · intro h
    by_contra hne
    have := byteSize_pos hne
    omega
  · intro h
    rw [h, byteSize_nil]

/-- A word that follows a place is cut out by the offsets on both sides. -/
theorem Stands.slice_eq (h : Stands text pos escaped (word ++ rest)) :
    slice text pos (pos + byteSize word) = .ok word := by
  simp [slice, h.suffix_eq, h.append.suffix_eq]

/-! ## Bytes -/

/-- The size of a text is the number of its bytes, character by character. -/
theorem length_bytes (text : Text) : (bytes text).length = byteSize text := by
  induction text with
  | nil => rfl
  | cons c text ih => simpa [bytes, String.length_utf8EncodeChar] using ih

theorem byteAt_of_byteAt? {offset : Nat} {byte : Char} (h : byteAt? text offset = some byte) :
    byteAt text offset = .ok byte := by
  simp [byteAt, h]

/-- A byte can be read inside the text and nowhere else. -/
theorem exists_byteAt_iff {offset : Nat} :
    (∃ byte, byteAt text offset = .ok byte) ↔ offset < byteSize text := by
  rw [← length_bytes]
  unfold byteAt byteAt?
  by_cases hlt : offset < (bytes text).length
  · rw [List.getElem?_eq_getElem hlt]
    exact iff_of_true ⟨_, rfl⟩ hlt
  · rw [List.getElem?_eq_none (Nat.not_lt.mp hlt)]
    exact iff_of_false (fun h => nomatch h) hlt

/-- The bytes of a character stand where the character does. -/
theorem Stands.byteAt?_add (h : Stands text pos escaped (c :: rest)) {offset : Nat}
    (hoffset : offset < c.utf8Size) :
    byteAt? text (pos + offset) =
      (String.utf8EncodeChar c)[offset]?.map fun byte => Char.ofNat byte.toNat := by
  obtain ⟨before, rfl, rfl, -⟩ := h
  have hbytes : bytes (before ++ c :: rest) =
      bytes before ++ (String.utf8EncodeChar c ++ bytes rest) := by
    simp [bytes]
  have hlength : offset < (String.utf8EncodeChar c).length := by rwa [String.length_utf8EncodeChar]
  rw [byteAt?, hbytes, ← length_bytes before, List.getElem?_append_right (by omega),
    Nat.add_sub_cancel_left, List.getElem?_append_left hlength]

/-- The characters of one byte are those of ASCII. -/
theorem utf8Size_eq_one {c : Char} : c.utf8Size = 1 ↔ c.toNat ≤ 127 := by
  rw [Char.utf8Size_eq_one_iff, UInt32.le_iff_toNat_le]
  rfl

theorem toNat_of_byte (byte : UInt8) : (Char.ofNat byte.toNat).toNat = byte.toNat := by
  have hlt := byte.toNat_lt
  have hvalid : byte.toNat.isValidChar := Or.inl (by omega)
  rw [Char.ofNat, dif_pos hvalid]
  rfl

/-- An ASCII character is its one byte. -/
theorem Stands.byteAt?_eq (h : Stands text pos escaped (c :: rest)) (hc : c.utf8Size = 1) :
    byteAt? text pos = some c := by
  have hbyte := h.byteAt?_add c.utf8Size_pos
  have hle := utf8Size_eq_one.mp hc
  have hnat : c.val.toUInt8.toNat = c.toNat := by
    rw [UInt32.toNat_toUInt8]
    exact Nat.mod_eq_of_lt (Nat.lt_of_le_of_lt hle (by decide))
  rw [String.utf8EncodeChar_eq_singleton hc, List.getElem?_cons_zero, Option.map_some, hnat,
    Char.ofNat_toNat] at hbyte
  exact hbyte

/-- No byte of a longer character is that of an ASCII character. -/
theorem le_of_mem_utf8EncodeChar {c : Char} (hc : 1 < c.utf8Size) {byte : UInt8}
    (h : byte ∈ String.utf8EncodeChar c) : 128 ≤ byte.toNat := by
  have hor : ∀ byte mark : UInt8, 128 ≤ mark.toNat → 128 ≤ (byte ||| mark).toNat := by
    intro byte mark hmark
    rw [UInt8.toNat_or]
    exact Nat.le_trans hmark Nat.right_le_or
  rcases c.utf8Size_eq with hsize | hsize | hsize | hsize
  · omega
  · simp only [String.utf8EncodeChar_eq_cons_cons hsize, List.mem_cons, List.not_mem_nil,
      or_false] at h
    rcases h with rfl | rfl <;> exact hor _ _ (by decide)
  · simp only [String.utf8EncodeChar_eq_cons_cons_cons hsize, List.mem_cons, List.not_mem_nil,
      or_false] at h
    rcases h with rfl | rfl | rfl <;> exact hor _ _ (by decide)
  · simp only [String.utf8EncodeChar_eq_cons_cons_cons_cons hsize, List.mem_cons,
      List.not_mem_nil, or_false] at h
    rcases h with rfl | rfl | rfl | rfl <;> exact hor _ _ (by decide)

/-- Two characters that a test for an ASCII character does not tell apart. -/
def Alike (byte c : Char) : Prop := byte = c ∨ 1 < byte.utf8Size ∧ 1 < c.utf8Size

/-- A long character is none of those that the loops test for. -/
theorem ne_of_long {a : Char} (hc : 1 < c.utf8Size) (ha : a.utf8Size = 1) : c ≠ a := by
  intro heq
  rw [heq] at hc
  omega

/-- A test for an ASCII character tells of the first byte what it tells of the character. -/
theorem Alike.eq_iff {byte a : Char} (h : Alike byte c) (ha : a.utf8Size = 1) :
    byte = a ↔ c = a := by
  rcases h with rfl | ⟨hbyte, hc⟩
  · rfl
  · exact iff_of_false (ne_of_long hbyte ha) (ne_of_long hc ha)

/-- The bytes of a character are alike to it. -/
theorem Stands.exists_byteAt? (h : Stands text pos escaped (c :: rest)) {offset : Nat}
    (hoffset : offset < c.utf8Size) :
    ∃ byte, byteAt? text (pos + offset) = some byte ∧ Alike byte c := by
  by_cases hc : c.utf8Size = 1
  · obtain rfl : offset = 0 := by omega
    exact ⟨c, h.byteAt?_eq hc, Or.inl rfl⟩
  · have hlong : 1 < c.utf8Size := by omega
    have hlength : offset < (String.utf8EncodeChar c).length := by
      rwa [String.length_utf8EncodeChar]
    have hbyte := h.byteAt?_add hoffset
    rw [List.getElem?_eq_getElem hlength, Option.map_some] at hbyte
    have hle := le_of_mem_utf8EncodeChar hlong (List.getElem_mem hlength)
    rw [← toNat_of_byte] at hle
    have hone := mt utf8Size_eq_one.mp (Nat.not_le.mpr hle)
    have hpos := Char.utf8Size_pos (Char.ofNat (String.utf8EncodeChar c)[offset].toNat)
    exact ⟨_, hbyte, Or.inr ⟨by omega, hlong⟩⟩

/-- A test for an ASCII character finds it where it is the next character. -/
theorem Stands.byteAt?_eq_some (h : Stands text pos escaped rest) {a : Char} (ha : a.utf8Size = 1) :
    byteAt? text pos = some a ↔ rest.head? = some a := by
  cases rest with
  | nil =>
    have hend : (bytes text).length ≤ pos := by
      rw [length_bytes, ← h.add_byteSize]
      exact Nat.le_refl pos
    rw [byteAt?, List.getElem?_eq_none hend]
    simp
  | cons c rest =>
    obtain ⟨byte, hbyte, halike⟩ := h.exists_byteAt? c.utf8Size_pos
    rw [Nat.add_zero] at hbyte
    simp [hbyte, halike.eq_iff ha]

/-- An odd run of backslashes is found from behind. -/
theorem Stands.isEscaped_eq (h : Stands text pos escaped rest) :
    isEscaped text pos = .ok escaped := by
  obtain ⟨before, rfl, rfl, rfl⟩ := h
  induction before using List.reverseRecOn generalizing rest with
  | nil => rfl
  | append_singleton before c ih =>
    have hstands : Stands (before ++ c :: rest) (byteSize before) (before.foldl escapes false)
        (c :: rest) := ⟨before, rfl, rfl, rfl⟩
    have hpos := c.utf8Size_pos
    obtain ⟨byte, hbyte, halike⟩ := hstands.exists_byteAt? (Nat.sub_lt hpos Nat.one_pos)
    have hsize : byteSize (before ++ [c]) = byteSize before + (c.utf8Size - 1) + 1 := by
      simp only [byteSize_append, byteSize_cons, byteSize_nil]
      omega
    rw [List.append_assoc, List.singleton_append, hsize, isEscaped,
      byteAt_of_byteAt? hbyte, ok_bind, List.foldl_append, List.foldl_cons, List.foldl_nil, escapes]
    by_cases hc : c = '\\'
    · subst hc
      rw [if_pos ((halike.eq_iff rfl).mpr rfl)]
      exact congrArg (· >>= fun escaped => Except.ok !escaped) ih
    · rw [if_neg (mt (halike.eq_iff rfl).mp hc)]
      simp [hc]

/-- Whether a place is escaped can be asked anywhere in the text. -/
theorem exists_isEscaped {offset : Nat} (h : offset ≤ byteSize text) :
    ∃ escaped, isEscaped text offset = .ok escaped := by
  induction offset with
  | zero => exact ⟨false, rfl⟩
  | succ offset ih =>
    obtain ⟨byte, hbyte⟩ := exists_byteAt_iff.mpr h
    obtain ⟨escaped, hescaped⟩ := ih (by omega)
    unfold isEscaped
    rw [hbyte, ok_bind, hescaped]
    split
    next => exact ⟨_, rfl⟩
    next => exact ⟨_, rfl⟩

/-! ## Turns -/

section
variable {σ ρ : Type} {turn : σ → Nat → Except Fault (Turn σ ρ)} {state state' : σ} {next : Nat}

/-- A loop ends with the result of a turn that stops. -/
theorem loop_stop {result : ρ} (h : turn state pos = .ok (.stop result)) :
    loop text turn state pos = .ok result := by
  rw [loop, h]

/-- A loop goes on where a turn sends it, if that is further on and inside the text. Otherwise it
would be stuck, which is why both are asked for. -/
theorem loop_go (h : turn state pos = .ok (.go state' next)) (hlt : pos < next)
    (hle : next ≤ byteSize text) : loop text turn state pos = loop text turn state' next := by
  rw [loop, h]
  exact dif_pos ⟨hlt, hle⟩

end

section
variable {σ ρ : Type} {atEnd : σ → ρ} {turn : σ → Nat → Char → Except Fault (Turn σ ρ)}
  {state state' : σ}

/-- At the end a scan answers what it was told to answer there, without a turn. -/
theorem scan_end (h : Stands text pos escaped []) :
    scan text atEnd turn state pos = .ok (atEnd state) :=
  loop_stop (if_pos (Nat.le_of_eq h.add_byteSize.symm))

/-- Inside the text a turn reads its byte without a fault. -/
theorem scan_turn {byte : Char} (hlt : pos < byteSize text) (h : byteAt? text pos = some byte) :
    (if byteSize text ≤ pos then Except.ok (.stop (atEnd state))
      else do turn state pos (← byteAt text pos)) = turn state pos byte := by
  rw [if_neg (Nat.not_le.mpr hlt), byteAt_of_byteAt? h, ok_bind]

/-- Where a character is left, the place lies inside the text. -/
theorem Stands.lt (h : Stands text pos escaped (c :: rest)) : pos < byteSize text := by
  have hsize := h.add_byteSize
  have hpos := c.utf8Size_pos
  rw [byteSize_cons] at hsize
  omega

/-- A scan stops at a character when the turn stops at every byte that is alike, of which the first
byte of the character is one. -/
theorem scan_stop_alike {result : ρ} (h : Stands text pos escaped (c :: rest))
    (hturn : ∀ byte, Alike byte c → turn state pos byte = .ok (.stop result)) :
    scan text atEnd turn state pos = .ok result := by
  obtain ⟨byte, hbyte, halike⟩ := h.exists_byteAt? c.utf8Size_pos
  exact loop_stop ((scan_turn h.lt hbyte).trans (hturn byte halike))

theorem scan_stop {result : ρ} (h : Stands text pos escaped (c :: rest)) (hc : c.utf8Size = 1)
    (hturn : turn state pos c = .ok (.stop result)) :
    scan text atEnd turn state pos = .ok result :=
  loop_stop ((scan_turn h.lt (h.byteAt?_eq hc)).trans hturn)

theorem scan_go {next : Nat} (h : Stands text pos escaped (c :: rest)) (hc : c.utf8Size = 1)
    (hturn : turn state pos c = .ok (.go state' next)) (hlt : pos < next)
    (hle : next ≤ byteSize text) :
    scan text atEnd turn state pos = scan text atEnd turn state' next :=
  loop_go ((scan_turn h.lt (h.byteAt?_eq hc)).trans hturn) hlt hle

/-- A scan goes on from a character in the same way. -/
theorem scan_go_alike {next : Nat} (h : Stands text pos escaped (c :: rest))
    (hturn : ∀ byte, Alike byte c → turn state pos byte = .ok (.go state' next)) (hlt : pos < next)
    (hle : next ≤ byteSize text) :
    scan text atEnd turn state pos = scan text atEnd turn state' next := by
  obtain ⟨byte, hbyte, halike⟩ := h.exists_byteAt? c.utf8Size_pos
  exact loop_go ((scan_turn h.lt hbyte).trans (hturn byte halike)) hlt hle

theorem Alike.long {byte : Char} (h : Alike byte c) (hc : 1 < c.utf8Size) : 1 < byte.utf8Size := by
  rcases h with rfl | ⟨hlong, -⟩ <;> assumption

/-- A loop comes out of a character behind its first byte when it passes over the other ones. -/
theorem scan_inside (h : Stands text pos escaped (c :: rest))
    (hturn : ∀ n byte, 0 < n → n < c.utf8Size → 1 < byte.utf8Size →
      turn state (pos + n) byte = .ok (.go state (pos + n + 1))) :
    scan text atEnd turn state (pos + 1) = scan text atEnd turn state (pos + c.utf8Size) := by
  have hle := h.next.le
  have hpos := c.utf8Size_pos
  -- the loop stands behind `n` bytes that it has passed over, and the first
  have hpass : ∀ n < c.utf8Size,
      scan text atEnd turn state (pos + 1) = scan text atEnd turn state (pos + n + 1) := by
    intro n hn
    induction n with
    | zero => rfl
    | succ n ih =>
      obtain ⟨byte, hbyte, halike⟩ := h.exists_byteAt? hn
      have hlong := halike.long (by omega)
      have hlt : pos + (n + 1) < byteSize text := by omega
      rw [ih (by omega)]
      exact loop_go ((scan_turn hlt hbyte).trans (hturn _ _ (Nat.succ_pos n) hn hlong))
        (by omega) (by omega)
  have hlast : pos + (c.utf8Size - 1) + 1 = pos + c.utf8Size := by omega
  rw [hpass (c.utf8Size - 1) (by omega), hlast]

/-- A loop passes through a long character when it passes over every byte that is not ASCII. -/
theorem scan_long (h : Stands text pos escaped (c :: rest)) (hc : 1 < c.utf8Size)
    (hturn : ∀ pos byte, pos < byteSize text → 1 < byte.utf8Size →
      turn state pos byte = .ok (.go state (pos + 1))) :
    scan text atEnd turn state pos = scan text atEnd turn state (pos + c.utf8Size) := by
  have hle := h.next.le
  have hlt := h.lt
  have hfirst (byte : Char) (halike : Alike byte c) :
      turn state pos byte = .ok (.go state (pos + 1)) := hturn pos byte hlt (halike.long hc)
  rw [scan_go_alike h hfirst (by omega) (by omega)]
  exact scan_inside h fun n byte _ hn hbyte => hturn (pos + n) byte (by omega) hbyte

/-- A loop goes on behind a character that it passes over. -/
theorem scan_pass (h : Stands text pos escaped (c :: rest))
    (hascii : c.utf8Size = 1 → turn state pos c = .ok (.go state' (pos + 1)))
    (hlong : 1 < c.utf8Size → state' = state ∧ ∀ pos byte, pos < byteSize text →
      1 < byte.utf8Size → turn state pos byte = .ok (.go state (pos + 1))) :
    scan text atEnd turn state pos = scan text atEnd turn state' (pos + c.utf8Size) := by
  have hpos := c.utf8Size_pos
  by_cases hc : c.utf8Size = 1
  · rw [hc]
    have hnext := h.next.le
    exact scan_go h hc (hascii hc) (Nat.lt_succ_self pos) (by omega)
  · obtain ⟨rfl, hturn⟩ := hlong (by omega)
    exact scan_long h (by omega) hturn

end

end

end TexFigure.Checked
