import Cybou.Library.Bytes

/-! # Well-formed UTF-8, as concatenations of the encodings of Unicode scalar values

`Char` is the type of scalar values and `String.utf8EncodeChar` their encoding.  What a
scanner sees of an encoding are a lead byte, continuation bytes and the value they
spell: `Sequence` says which of these are in shortest form, and it is the encodings that are.
-/

namespace Cybou.Library.Utf8

/-- A concatenation of encodings of scalar values. -/
def WellFormed (text : Bytes) : Prop := ∃ scalars : List Char, text = scalars.flatMap String.utf8EncodeChar

/-- A continuation byte, `10xxxxxx`. -/
def Tail (b : UInt8) : Prop := 0x80 ≤ b.toNat ∧ b.toNat < 0xc0

/-- A lead byte with its continuation bytes, in shortest form, and the value that they spell. -/
inductive Sequence : Bytes → Nat → Prop where
  | one {a : UInt8} (ha : a.toNat < 0x80) : Sequence [a] a.toNat
  | two {a b : UInt8} (ha : 0xc0 ≤ a.toNat ∧ a.toNat < 0xe0) (hb : Tail b) {v : Nat}
      (hv : v = a.toNat % 32 * 64 + b.toNat % 64) (hmin : 0x80 ≤ v) : Sequence [a, b] v
  | three {a b c : UInt8} (ha : 0xe0 ≤ a.toNat ∧ a.toNat < 0xf0) (hb : Tail b) (hc : Tail c) {v : Nat}
      (hv : v = (a.toNat % 16 * 64 + b.toNat % 64) * 64 + c.toNat % 64) (hmin : 0x800 ≤ v) :
      Sequence [a, b, c] v
  | four {a b c d : UInt8} (ha : 0xf0 ≤ a.toNat ∧ a.toNat < 0xf8) (hb : Tail b) (hc : Tail c) (hd : Tail d)
      {v : Nat} (hv : v = ((a.toNat % 8 * 64 + b.toNat % 64) * 64 + c.toNat % 64) * 64 + d.toNat % 64)
      (hmin : 0x10000 ≤ v) : Sequence [a, b, c, d] v

theorem wellFormed_nil : WellFormed [] := ⟨[], rfl⟩

theorem WellFormed.cons {text : Bytes} (h : WellFormed text) (c : Char) :
    WellFormed (String.utf8EncodeChar c ++ text) := by
  obtain ⟨scalars, rfl⟩ := h
  exact ⟨c :: scalars, rfl⟩

theorem WellFormed.uncons {a : UInt8} {text : Bytes} (h : WellFormed (a :: text)) :
    ∃ (c : Char) (rest : Bytes), a :: text = String.utf8EncodeChar c ++ rest ∧ WellFormed rest := by
  obtain ⟨scalars, hscalars⟩ := h
  cases scalars with
  | nil => cases hscalars
  | cons c scalars => exact ⟨c, scalars.flatMap String.utf8EncodeChar, hscalars, scalars, rfl⟩

theorem exists_char {v : Nat} (h : v.isValidChar) : ∃ c : Char, c.val.toNat = v := ⟨Char.ofNatAux v h, rfl⟩

theorem toNat_ofNat_of_lt {n : Nat} (h : n < 256) : (UInt8.ofNat n).toNat = n := UInt8.toNat_ofNat_of_lt' h

theorem ofNat_eq {a : UInt8} {n : Nat} (h : n = a.toNat) : UInt8.ofNat n = a := by
  rw [h, UInt8.ofNat_toNat]

theorem sequence_encode (c : Char) : Sequence (String.utf8EncodeChar c) c.val.toNat := by
  have hvalid : c.val.toNat.isValidChar := c.valid
  unfold String.utf8EncodeChar
  generalize c.val.toNat = v at hvalid
  unfold Nat.isValidChar at hvalid
  dsimp only
  by_cases hone : v ≤ 0x7f
  · rw [if_pos hone]
    have hv : (UInt8.ofNat v).toNat = v := toNat_ofNat_of_lt (by omega)
    have hseq := Sequence.one (a := UInt8.ofNat v) (by omega)
    rwa [hv] at hseq
  rw [if_neg hone]
  by_cases htwo : v ≤ 0x7ff
  · rw [if_pos htwo]
    have ha := toNat_ofNat_of_lt (n := v / 64 % 32 + 192) (by omega)
    have hb := toNat_ofNat_of_lt (n := v % 64 + 128) (by omega)
    exact .two (by omega) (by unfold Tail; omega) (by omega) (by omega)
  rw [if_neg htwo]
  by_cases hthree : v ≤ 0xffff
  · rw [if_pos hthree]
    have ha := toNat_ofNat_of_lt (n := v / 4096 % 16 + 224) (by omega)
    have hb := toNat_ofNat_of_lt (n := v / 64 % 64 + 128) (by omega)
    have hc := toNat_ofNat_of_lt (n := v % 64 + 128) (by omega)
    exact .three (by omega) (by unfold Tail; omega) (by unfold Tail; omega) (by omega) (by omega)
  · rw [if_neg hthree]
    have ha := toNat_ofNat_of_lt (n := v / 262144 % 8 + 240) (by omega)
    have hb := toNat_ofNat_of_lt (n := v / 4096 % 64 + 128) (by omega)
    have hc := toNat_ofNat_of_lt (n := v / 64 % 64 + 128) (by omega)
    have hd := toNat_ofNat_of_lt (n := v % 64 + 128) (by omega)
    exact .four (by omega) (by unfold Tail; omega) (by unfold Tail; omega) (by unfold Tail; omega) (by omega)
      (by omega)

theorem Sequence.eq_encode {bytes : Bytes} {v : Nat} (h : Sequence bytes v) {c : Char} (hc : c.val.toNat = v) :
    bytes = String.utf8EncodeChar c := by
  unfold String.utf8EncodeChar
  rw [hc]
  dsimp only
  cases h with
  | @one a ha => rw [if_pos (by omega), UInt8.ofNat_toNat]
  | @two a b ha hb _ hv hmin =>
    unfold Tail at hb
    rw [if_neg (by omega), if_pos (by omega), ofNat_eq (a := a) (by omega), ofNat_eq (a := b) (by omega)]
  | @three a b c ha hb hc _ hv hmin =>
    unfold Tail at hb hc
    rw [if_neg (by omega), if_neg (by omega), if_pos (by omega), ofNat_eq (a := a) (by omega),
      ofNat_eq (a := b) (by omega), ofNat_eq (a := c) (by omega)]
  | @four a b c d ha hb hc hd _ hv hmin =>
    unfold Tail at hb hc hd
    rw [if_neg (by omega), if_neg (by omega), if_neg (by omega), ofNat_eq (a := a) (by omega),
      ofNat_eq (a := b) (by omega), ofNat_eq (a := c) (by omega), ofNat_eq (a := d) (by omega)]

end Cybou.Library.Utf8
