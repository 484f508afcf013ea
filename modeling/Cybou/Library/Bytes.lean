import Mathlib

/-! # Byte strings, fixed-size arrays and little-endian integers

The wire and disk formats are made of three things: fixed arrays of bytes,
little-endian integers of 4 or 8 bytes, and byte strings.  This file fixes
their representation and proves that the integer encodings are bijections
onto the byte strings of their width, which is what every round trip and
every canonicity result of the formats rests on.
-/

namespace Cybou.Library

abbrev Bytes := List UInt8

/-! ### The order of bytes -/

instance linearOrderUInt8 : LinearOrder UInt8 where
  le_refl := UInt8.le_refl
  le_trans _ _ _ := UInt8.le_trans
  lt_iff_le_not_ge a b := by
    rw [UInt8.lt_iff_toNat_lt, UInt8.le_iff_toNat_le, UInt8.le_iff_toNat_le]
    omega
  le_antisymm _ _ := UInt8.le_antisymm
  le_total := UInt8.le_total
  toDecidableLE := inferInstance
  toDecidableLT := inferInstance
  min_def _ _ := rfl
  max_def _ _ := rfl
  compare_eq_compareOfLessAndEq _ _ := rfl

/-! ### Fixed arrays -/

/-- `std::array<unsigned char, n>`: exactly `n` bytes, compared
    lexicographically. -/
abbrev FixedBytes (n : Nat) := { b : Bytes // b.length = n }

/-- Lists of byte strings and of hashes are searched with the equality of their bytes. -/
instance lawfulBEqBytes : LawfulBEq Bytes := inferInstance

instance lawfulBEqHash : LawfulBEq (FixedBytes 32) := inferInstance

namespace FixedBytes

def zero (n : Nat) : FixedBytes n := ⟨List.replicate n 0, List.length_replicate⟩

/-- `Hash256(uint8_t)` and its kind: one leading byte, then zeros. -/
def leading (n : Nat) (b : UInt8) : FixedBytes (n + 1) :=
  ⟨b :: List.replicate n 0, by simp⟩

end FixedBytes

/-! ### Little-endian integers -/

/-- The `w` low-order bytes of `n`, least significant first. -/
def leBytes : Nat → Nat → Bytes
  | 0, _ => []
  | w + 1, n => UInt8.ofNat n :: leBytes w (n / 256)

/-- The integer that a little-endian byte string denotes. -/
def leNat : Bytes → Nat
  | [] => 0
  | b :: bs => b.toNat + 256 * leNat bs

@[simp] theorem length_leBytes (w n : Nat) : (leBytes w n).length = w := by
  induction w generalizing n with
  | zero => rfl
  | succ w ih => simp [leBytes, ih]

theorem leNat_lt (b : Bytes) : leNat b < 256 ^ b.length := by
  induction b with
  | nil => simp [leNat]
  | cons x bs ih =>
    have hx : x.toNat < 256 := x.toNat_lt
    rw [leNat, List.length_cons, Nat.pow_succ]
    omega

theorem leNat_leBytes {w n : Nat} (h : n < 256 ^ w) : leNat (leBytes w n) = n := by
  induction w generalizing n with
  | zero =>
    have : n = 0 := by simpa using h
    simp [leBytes, leNat, this]
  | succ w ih =>
    have hdiv : n / 256 < 256 ^ w := by
      rw [Nat.pow_succ] at h
      omega
    rw [leBytes, leNat, ih hdiv, UInt8.toNat_ofNat']
    omega

theorem leBytes_leNat (b : Bytes) : leBytes b.length (leNat b) = b := by
  induction b with
  | nil => rfl
  | cons x bs ih =>
    have hx : x.toNat < 256 := x.toNat_lt
    have hmod : (x.toNat + 256 * leNat bs) / 256 = leNat bs := by omega
    have hbyte : UInt8.ofNat (x.toNat + 256 * leNat bs) = x := by
      apply UInt8.toNat_inj.mp
      rw [UInt8.toNat_ofNat']
      omega
    rw [List.length_cons, leBytes, leNat, hmod, ih, hbyte]

def le16 (v : UInt16) : Bytes := leBytes 2 v.toNat

def le32 (v : UInt32) : Bytes := leBytes 4 v.toNat

def le64 (v : UInt64) : Bytes := leBytes 8 v.toNat

@[simp] theorem length_le16 (v : UInt16) : (le16 v).length = 2 := length_leBytes ..

@[simp] theorem length_le32 (v : UInt32) : (le32 v).length = 4 := length_leBytes ..

@[simp] theorem length_le64 (v : UInt64) : (le64 v).length = 8 := length_leBytes ..

/-- `Write32(out, static_cast<uint32_t>(n))` of a size. -/
def le32Of (n : Nat) : Bytes := le32 (UInt32.ofNat n)

@[simp] theorem length_le32Of (n : Nat) : (le32Of n).length = 4 := length_le32 _

/-! ### Text -/

def hexDigit (n : Nat) : UInt8 := UInt8.ofNat (if n < 10 then 48 + n else 87 + n)

/-- Two lower-case digits for each byte. -/
def hex (b : Bytes) : Bytes := b.flatMap fun x => [hexDigit (x.toNat / 16), hexDigit (x.toNat % 16)]

/-- `std::to_string`. -/
def decimal (n : Nat) : Bytes := (Nat.toDigits 10 n).map fun c => UInt8.ofNat c.toNat

theorem hexDigit_inj {m n : Nat} (hm : m < 16) (hn : n < 16) (h : hexDigit m = hexDigit n) : m = n := by
  have hnat := congrArg UInt8.toNat h
  rw [hexDigit, hexDigit, UInt8.toNat_ofNat', UInt8.toNat_ofNat'] at hnat
  split at hnat <;> split at hnat <;> omega

@[simp] theorem length_hex (b : Bytes) : (hex b).length = 2 * b.length := by
  induction b with
  | nil => rfl
  | cons x b ih =>
    have hcons : hex (x :: b) = hexDigit (x.toNat / 16) :: hexDigit (x.toNat % 16) :: hex b := rfl
    rw [hcons, List.length_cons, List.length_cons, List.length_cons, ih]
    omega

theorem hex_injective : Function.Injective hex := by
  intro b
  induction b with
  | nil =>
    intro b' h
    have hlen := congrArg List.length h
    rw [length_hex, length_hex, List.length_nil] at hlen
    exact (List.length_eq_zero_iff.mp (by omega)).symm
  | cons x b ih =>
    intro b' h
    cases b' with
    | nil => cases h
    | cons y b' =>
      have hx : x.toNat < 256 := x.toNat_lt
      have hy : y.toNat < 256 := y.toNat_lt
      have hcons : hexDigit (x.toNat / 16) :: hexDigit (x.toNat % 16) :: hex b =
          hexDigit (y.toNat / 16) :: hexDigit (y.toNat % 16) :: hex b' := h
      obtain ⟨hhigh, hrest⟩ := List.cons.inj hcons
      obtain ⟨hlow, hrest⟩ := List.cons.inj hrest
      have hdiv := hexDigit_inj (by omega) (by omega) hhigh
      have hmod := hexDigit_inj (by omega) (by omega) hlow
      have hxy : x = y := UInt8.toNat_inj.mp (by omega)
      rw [hxy, ih hrest]

theorem length_decimal_le {n k : Nat} (hk : 0 < k) (h : n < 10 ^ k) : (decimal n).length ≤ k := by
  rw [decimal, List.length_map]
  exact (Nat.length_toDigits_le_iff (by omega) hk).mpr h

theorem toNat_of_mem_toDigits {n : Nat} {c : Char} (h : c ∈ Nat.toDigits 10 n) : 48 ≤ c.toNat ∧ c.toNat ≤ 57 := by
  have hdigit := Nat.isDigit_of_mem_toDigits (by decide) (by decide) h
  rw [Char.isDigit, Bool.and_eq_true, decide_eq_true_eq, decide_eq_true_eq] at hdigit
  exact hdigit

theorem toNat_of_mem_decimal {n : Nat} {b : UInt8} (h : b ∈ decimal n) : 48 ≤ b.toNat ∧ b.toNat ≤ 57 := by
  obtain ⟨c, hc, rfl⟩ := List.mem_map.mp h
  have hdigit := toNat_of_mem_toDigits hc
  rw [UInt8.toNat_ofNat', Nat.mod_eq_of_lt (by omega)]
  exact hdigit

theorem decimal_ne_nil (n : Nat) : decimal n ≠ [] := by
  rw [decimal, ne_eq, List.map_eq_nil_iff]
  exact Nat.toDigits_ne_nil

theorem decimal_injective : Function.Injective decimal := by
  have hread : ∀ n, (decimal n).map (fun b => Char.ofNat b.toNat) = Nat.toDigits 10 n := by
    intro n
    rw [decimal, List.map_map]
    refine (List.map_congr_left fun c hc => ?_).trans (List.map_id _)
    change Char.ofNat (UInt8.ofNat c.toNat).toNat = c
    have hdigit := toNat_of_mem_toDigits hc
    rw [UInt8.toNat_ofNat', Nat.mod_eq_of_lt (by omega), Char.ofNat_toNat]
  intro m n h
  rw [← Nat.ofDigitChars_ten_toDigits (n := m), ← hread, h, hread, Nat.ofDigitChars_ten_toDigits]

end Cybou.Library
