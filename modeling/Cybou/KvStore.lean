import Cybou.Library.Store
import Cybou.Identity

/-! # Local records (`kv_store.h`)

Integers and hashes are stored as they are.  A byte vector, or a string, is
stored behind its compact size.  Writing has no limit but reading refuses
sizes above 32 MiB, so a vector can be stored that cannot be read back:
`decodeLocalBytes_encodeLocalBytes` says exactly which.
-/

namespace Cybou

open Library

def MAX_COMPACT_SIZE : Nat := 0x02000000

def compactSize (n : Nat) : Bytes :=
  if n < 253 then [UInt8.ofNat n]
  else if n ≤ 0xffff then 253 :: leBytes 2 n
  else if n ≤ 0xffffffff then 254 :: leBytes 4 n
  else 255 :: leBytes 8 n

def readCompactSize : Bytes → Option (Nat × Bytes)
  | [] => none
  | marker :: rest =>
    if marker < 253 then some (marker.toNat, rest)
    else
      let width := if marker = 253 then 2 else if marker = 254 then 4 else 8
      if width > rest.length then none
      else
        let value := leNat (rest.take width)
        if (width ≠ 2 ∨ 253 ≤ value) ∧ (width ≠ 4 ∨ 0x10000 ≤ value) ∧
            (width ≠ 8 ∨ 0x100000000 ≤ value) ∧ value ≤ MAX_COMPACT_SIZE then
          some (value, rest.drop width)
        else none

/-- `LocalRecordCodec<std::vector<unsigned char>>::Encode`. -/
def encodeLocalBytes (value : Bytes) : Bytes := compactSize value.length ++ value

/-- `LocalRecordCodec<std::vector<unsigned char>>::Decode`. -/
def decodeLocalBytes (bytes : Bytes) : Option Bytes := do
  let (size, rest) ← readCompactSize bytes
  if size > rest.length then none else return rest.take size

/-- `KVStore::Read` of a byte vector. -/
def readBytes {K : Type} (db : Store K Bytes) (key : K) : Option Bytes :=
  (db key).bind decodeLocalBytes

theorem readCompactSize_wide {marker : UInt8} {width n : Nat} (tail : Bytes)
    (hmarker : ¬marker < 253)
    (hwidth : (if marker = 253 then 2 else if marker = 254 then 4 else 8) = width)
    (hfits : n < 256 ^ width)
    (hcanonical : (width ≠ 2 ∨ 253 ≤ n) ∧ (width ≠ 4 ∨ 0x10000 ≤ n) ∧
      (width ≠ 8 ∨ 0x100000000 ≤ n)) :
    readCompactSize (marker :: leBytes width n ++ tail) =
      if n ≤ MAX_COMPACT_SIZE then some (n, tail) else none := by
  have htake : (leBytes width n ++ tail).take width = leBytes width n := by
    rw [List.take_append_of_le_length (by simp)]
    simp
  have hdrop : (leBytes width n ++ tail).drop width = tail := by
    rw [List.drop_append_of_le_length (by simp)]
    simp
  simp only [List.cons_append, readCompactSize, if_neg hmarker, hwidth, htake, hdrop,
    leNat_leBytes hfits, List.length_append, length_leBytes]
  rw [if_neg (by omega)]
  obtain ⟨h₂, h₄, h₈⟩ := hcanonical
  simp only [h₂, h₄, h₈, true_and]

theorem readCompactSize_eight (b : Bytes) : readCompactSize (255 :: b) = none := by
  have hmarker : ¬(255 : UInt8) < 253 := by decide
  have hne : ¬(255 : UInt8) = 253 ∧ ¬(255 : UInt8) = 254 := by decide
  have hlimit : MAX_COMPACT_SIZE = 33554432 := rfl
  simp only [readCompactSize, if_neg hmarker, if_neg hne.1, if_neg hne.2]
  split
  · rfl
  · rw [if_neg]
    omega

theorem readCompactSize_compactSize (n : Nat) (tail : Bytes) :
    readCompactSize (compactSize n ++ tail) =
      if n ≤ MAX_COMPACT_SIZE then some (n, tail) else none := by
  unfold compactSize
  by_cases hsmall : n < 253
  · have hbyte : (UInt8.ofNat n).toNat = n := by
      rw [UInt8.toNat_ofNat']
      omega
    have hlt : UInt8.ofNat n < 253 := by
      rw [UInt8.lt_iff_toNat_lt, hbyte]
      exact hsmall
    have hle : n ≤ MAX_COMPACT_SIZE := by
      unfold MAX_COMPACT_SIZE
      omega
    simp [readCompactSize, hsmall, hlt, hbyte, hle]
  rw [if_neg hsmall]
  by_cases h₂ : n ≤ 0xffff
  · rw [if_pos h₂]
    exact readCompactSize_wide tail (by decide) rfl (by omega) (by omega)
  rw [if_neg h₂]
  by_cases h₄ : n ≤ 0xffffffff
  · rw [if_pos h₄]
    exact readCompactSize_wide tail (by decide) rfl (by omega) (by omega)
  · have hlimit : MAX_COMPACT_SIZE = 33554432 := rfl
    rw [if_neg h₄, List.cons_append, readCompactSize_eight, if_neg (by omega)]

/-- **A stored vector is read back if and only if it is small enough.** -/
theorem decodeLocalBytes_encodeLocalBytes (value : Bytes) :
    decodeLocalBytes (encodeLocalBytes value) =
      if value.length ≤ MAX_COMPACT_SIZE then some value else none := by
  rw [decodeLocalBytes, encodeLocalBytes, readCompactSize_compactSize]
  split
  · simp
  · rfl

variable {K : Type} {db : Store K Bytes} {key : K} {value : Bytes}

theorem readBytes_encodeLocalBytes (h : db key = some (encodeLocalBytes value)) :
    readBytes db key = if value.length ≤ MAX_COMPACT_SIZE then some value else none := by
  rw [readBytes, h, Option.bind_some, decodeLocalBytes_encodeLocalBytes]

theorem readBytes_of_small
    (h : db key = some (encodeLocalBytes value)) (hsmall : value.length ≤ MAX_COMPACT_SIZE) :
    readBytes db key = some value := by
  rw [readBytes_encodeLocalBytes h, if_pos hsmall]

/-! ### Integers and hashes -/

/-- `LocalRecordCodec<T>::Encode` of an unsigned integer of `width` bytes. -/
def encodeLocalUnsigned (width value : Nat) : Bytes := leBytes width value

def decodeLocalUnsigned (width : Nat) (bytes : Bytes) : Option Nat :=
  if bytes.length < width then none else some (leNat (bytes.take width))

def encodeLocalHash (value : Hash256) : Bytes := value.1

def decodeLocalHash (bytes : Bytes) : Option Hash256 :=
  if h : bytes.length < 32 then none else some ⟨bytes.take 32, by simp only [List.length_take]; omega⟩

def readHash {K : Type} (db : Store K Bytes) (key : K) : Option Hash256 :=
  (db key).bind decodeLocalHash

theorem decodeLocalUnsigned_encodeLocalUnsigned {width value : Nat} (h : value < 256 ^ width)
    (tail : Bytes) : decodeLocalUnsigned width (encodeLocalUnsigned width value ++ tail) = some value := by
  have hlen : (leBytes width value).length = width := length_leBytes ..
  rw [decodeLocalUnsigned, encodeLocalUnsigned, List.take_left' hlen, leNat_leBytes h, List.length_append,
    hlen, if_neg (by omega)]

theorem decodeLocalHash_encodeLocalHash (value : Hash256) (tail : Bytes) :
    decodeLocalHash (encodeLocalHash value ++ tail) = some value := by
  have hlen : ¬(encodeLocalHash value ++ tail).length < 32 := by
    rw [List.length_append, encodeLocalHash, value.2]
    omega
  rw [decodeLocalHash, dif_neg hlen]
  exact congrArg some (Subtype.ext (List.take_left' value.2))

theorem readHash_encodeLocalHash {value : Hash256}
    (h : db key = some (encodeLocalHash value)) : readHash db key = some value := by
  rw [readHash, h, Option.bind_some]
  simpa using decodeLocalHash_encodeLocalHash value []

end Cybou
