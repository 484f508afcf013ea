import Cybou.Library.Codec

/-! # Fields of compact binary objects (`binary_codec.h`)

Fixed arrays and integers are the ones of `Library/Codec.lean`.  What this file adds are
the limit of a whole object, flags, optional fields and length-prefixed UTF-8 text.
-/

namespace Cybou

open Library

def BINARY_LIMIT : Nat := 256 * 1024

/-- `BinaryWriter::Take`: `none` where a field would pass the limit and the writer throws. -/
def binaryObject (limit : Nat) (b : Bytes) : Option Bytes :=
  if b.length ≤ limit then some b else none

/-- A reader on a whole object; truncation, the limit and trailing bytes are refused alike. -/
def readBinary {α : Type} (limit : Nat) (p : Reader α) (b : Bytes) : Option α :=
  if b.length > limit then none else p.whole b

/-! ### UTF-8 -/

/-- The inner loop of `IsValidUtf8`: the scalar value and what follows it. -/
def utf8Continuation : Nat → Nat → Bytes → Option (Nat × Bytes)
  | 0, value, text => some (value, text)
  | _ + 1, _, [] => none
  | count + 1, value, next :: text =>
    if next &&& 0xc0 ≠ 0x80 then none
    else utf8Continuation count (value * 64 + (next &&& 63).toNat) text

/-- One turn of the outer loop of `IsValidUtf8`. -/
def utf8Character (c : UInt8) (text : Bytes) : Option Bytes :=
  let sequence (count value minimum : Nat) : Option Bytes :=
    match utf8Continuation count value text with
    | none => none
    | some (value, text) =>
      if value < minimum ∨ value > 0x10ffff ∨ (value ≥ 0xd800 ∧ value ≤ 0xdfff) then none else some text
  if c < 0x80 then some text
  else if c ≥ 0xc2 ∧ c ≤ 0xdf then sequence 1 (c &&& 31).toNat 0x80
  else if c ≥ 0xe0 ∧ c ≤ 0xef then sequence 2 (c &&& 15).toNat 0x800
  else if c ≥ 0xf0 ∧ c ≤ 0xf4 then sequence 3 (c &&& 7).toNat 0x10000
  else none

/-- The outer loop; every turn takes a byte, so the length bounds the turns. -/
def isValidUtf8Within : Nat → Bytes → Bool
  | _, [] => true
  | 0, _ :: _ => false
  | turns + 1, c :: text =>
    match utf8Character c text with
    | none => false
    | some text => isValidUtf8Within turns text

def isValidUtf8 (text : Bytes) : Bool := isValidUtf8Within text.length text

/-! ### Flags, optional fields and text -/

/-- `BinaryReader::Flag`. -/
def readFlag : Reader Bool := do
  let value ← Reader.u8
  Reader.require (value ≤ 1)
  return decide (value ≠ 0)

def writeFlag (value : Bool) : Bytes := [if value = true then 1 else 0]

def readOptional {α : Type} (p : Reader α) : Reader (Option α) := do
  if (← readFlag) = true then return some (← p) else return none

def writeOptional {α : Type} (enc : α → Bytes) : Option α → Bytes
  | none => writeFlag false
  | some a => writeFlag true ++ enc a

/-- `BinaryReader::Text`. -/
def readText (maximum : Nat) : Reader Bytes := do
  let size ← Reader.count
  Reader.require (size ≤ maximum)
  let text ← Reader.bytes size
  Reader.require (isValidUtf8 text = true)
  return text

/-- `BinaryWriter::Text`, which throws where `ValidText` fails. -/
def writeText (text : Bytes) : Bytes := le32Of text.length ++ text

def ValidText (maximum : Nat) (text : Bytes) : Prop := text.length ≤ maximum ∧ isValidUtf8 text = true

instance (maximum : Nat) (text : Bytes) : Decidable (ValidText maximum text) :=
  inferInstanceAs (Decidable (_ ∧ _))

/-- A vector behind a 16-bit count between two bounds. -/
def readCounted {α : Type} (minimum maximum : Nat) (p : Reader α) : Reader (List α) := do
  let count ← Reader.u16
  Reader.require (minimum ≤ count.toNat ∧ count.toNat ≤ maximum)
  Reader.repeatN p count.toNat

def writeCounted {α : Type} (enc : α → Bytes) (l : List α) : Bytes :=
  le16 (UInt16.ofNat l.length) ++ Reader.concat enc l

theorem readFlag_exact : Reader.Exact readFlag writeFlag (fun _ => True) := by
  intro b a r
  simp only [readFlag, Reader.u8_exact.bind, Reader.require_bind, Reader.pure_eq_some, true_and]
  constructor
  · intro h
    rcases h with ⟨value, _, rfl, hle, rfl, rfl⟩
    have hcases : value = 0 ∨ value = 1 := by
      have hle : value.toNat ≤ 1 := hle
      by_cases hzero : value.toNat = 0
      · exact .inl (UInt8.toNat_inj.mp hzero)
      · exact .inr (UInt8.toNat_inj.mp (by rw [UInt8.toNat_one]; omega))
    rcases hcases with rfl | rfl
    · rfl
    · rfl
  · intro h
    subst h
    cases a with
    | false => exact ⟨0, r, rfl, by decide, rfl, rfl⟩
    | true => exact ⟨1, r, rfl, by decide, rfl, rfl⟩

theorem readOptional_exact {α : Type} {p : Reader α} {enc : α → Bytes} {ok : α → Prop}
    (h : Reader.Exact p enc ok) :
    Reader.Exact (readOptional p) (writeOptional enc) (fun o => ∀ a ∈ o, ok a) := by
  intro b o r
  simp only [readOptional, readFlag_exact.bind, true_and]
  constructor
  · intro hread
    rcases hread with ⟨flag, rest, rfl, hread⟩
    cases flag with
    | false =>
      rw [if_neg Bool.noConfusion, Reader.pure_eq_some] at hread
      rcases hread with ⟨rfl, rfl⟩
      exact ⟨nofun, rfl⟩
    | true =>
      rw [if_pos rfl, h.bind] at hread
      rcases hread with ⟨a, rest', ha, rfl, hread⟩
      rw [Reader.pure_eq_some] at hread
      rcases hread with ⟨rfl, rfl⟩
      refine ⟨?_, (List.append_assoc _ _ _).symm⟩
      intro a' ha'
      cases ha'
      exact ha
  · intro hread
    rcases hread with ⟨hok, rfl⟩
    cases o with
    | none => exact ⟨false, r, rfl, rfl⟩
    | some a =>
      refine ⟨true, enc a ++ r, List.append_assoc _ _ _, ?_⟩
      rw [if_pos rfl, h.bind_append (hok a rfl)]
      rfl

theorem readText_exact {maximum : Nat} (h : maximum < 2 ^ 32) :
    Reader.Exact (readText maximum) writeText (ValidText maximum) := by
  intro b a r
  simp only [readText, Reader.count_exact.bind, Reader.require_bind, (Reader.bytes_exact _).bind,
    Reader.pure_eq_some, id_eq]
  constructor
  · intro hread
    rcases hread with ⟨size, _, -, rfl, hle, text, _, rfl, rfl, hutf8, rfl, rfl⟩
    exact ⟨⟨hle, hutf8⟩, (List.append_assoc _ _ _).symm⟩
  · intro hread
    rcases hread with ⟨⟨hle, hutf8⟩, rfl⟩
    exact ⟨a.length, a ++ r, by omega, List.append_assoc _ _ _, hle, a, r, rfl, rfl, hutf8, rfl, rfl⟩

theorem readCounted_exact {α : Type} {p : Reader α} {enc : α → Bytes} {ok : α → Prop}
    (h : Reader.Exact p enc ok) {minimum maximum : Nat} (hmax : maximum < 2 ^ 16) :
    Reader.Exact (readCounted minimum maximum p) (writeCounted enc)
      (fun l => (minimum ≤ l.length ∧ l.length ≤ maximum) ∧ ∀ a ∈ l, ok a) := by
  intro b l r
  simp only [readCounted, Reader.u16_exact.bind, Reader.require_bind, Reader.repeatN_exact h _ _ _ _,
    true_and]
  constructor
  · intro hread
    rcases hread with ⟨count, _, rfl, hbounds, ⟨hlength, hok⟩, rfl⟩
    rw [← hlength] at hbounds
    refine ⟨⟨hbounds, hok⟩, ?_⟩
    rw [writeCounted, hlength, UInt16.ofNat_toNat, List.append_assoc]
  · intro hread
    rcases hread with ⟨⟨hbounds, hok⟩, rfl⟩
    have hlt : l.length < UInt16.size := lt_of_le_of_lt hbounds.2 hmax
    have hlength : (UInt16.ofNat l.length).toNat = l.length := UInt16.toNat_ofNat_of_lt' hlt
    refine ⟨UInt16.ofNat l.length, Reader.concat enc l ++ r, List.append_assoc _ _ _, ?_, ⟨?_, hok⟩, rfl⟩
    · rwa [hlength]
    · exact hlength.symm

theorem readBinary_eq_some {α : Type} {limit : Nat} {p : Reader α} {enc : α → Bytes} {ok : α → Prop}
    (h : Reader.Exact p enc ok) {b : Bytes} {a : α} :
    readBinary limit p b = some a ↔ ok a ∧ binaryObject limit (enc a) = some b := by
  rw [readBinary, binaryObject, Option.ite_none_left_eq_some, h.whole, Option.ite_none_right_eq_some,
    Nat.not_lt, Option.some.injEq]
  constructor
  · intro hread
    rcases hread with ⟨hlimit, hok, rfl⟩
    exact ⟨hok, hlimit, rfl⟩
  · intro hread
    rcases hread with ⟨hok, hlimit, rfl⟩
    exact ⟨hlimit, hok, rfl⟩

end Cybou
