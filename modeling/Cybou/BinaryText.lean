import Cybou.BinaryCodec
import Cybou.Library.Utf8

/-! # The texts that `IsValidUtf8` accepts (`binary_codec.h`)

`BinaryCodec.lean` scans what is left of a text.  The code scans by position and reads
without a bounds check after the one on the length of a sequence, so the scan is stated
here once more with its reads: both give the same answer, and the texts accepted are the
concatenations of encodings of scalar values.
-/

namespace Cybou

open Library

/-! ### The scan by position -/

/-- The inner loop of `IsValidUtf8`: `none` where it would read past the end, `some none` where
    the text is refused. -/
def utf8ContinuationAt (text : Bytes) : Nat → Nat → UInt32 → Option (Option (UInt32 × Nat))
  | 0, i, value => some (some (value, i))
  | count + 1, i, value =>
    match text[i]? with
    | none => none
    | some next =>
      if next &&& 0xc0 ≠ 0x80 then some none
      else utf8ContinuationAt text count (i + 1) ((value <<< 6) ||| (next &&& 63).toUInt32)

def utf8SequenceAt (text : Bytes) (i count : Nat) (value minimum : UInt32) : Option (Option Nat) :=
  if count > text.length - i then some none
  else
    match utf8ContinuationAt text count i value with
    | none => none
    | some none => some none
    | some (some (value, i)) =>
      if value < minimum ∨ value > 0x10ffff ∨ (value ≥ 0xd800 ∧ value ≤ 0xdfff) then some none else some (some i)

def utf8CharacterAt (text : Bytes) (i : Nat) : Option (Option Nat) :=
  match text[i]? with
  | none => none
  | some c =>
    if c < 0x80 then some (some (i + 1))
    else if c ≥ 0xc2 ∧ c ≤ 0xdf then utf8SequenceAt text (i + 1) 1 (c &&& 31).toUInt32 0x80
    else if c ≥ 0xe0 ∧ c ≤ 0xef then utf8SequenceAt text (i + 1) 2 (c &&& 15).toUInt32 0x800
    else if c ≥ 0xf0 ∧ c ≤ 0xf4 then utf8SequenceAt text (i + 1) 3 (c &&& 7).toUInt32 0x10000
    else some none

/-- The outer loop, `none` also where it has not ended within the turns. -/
def utf8ScanAt (text : Bytes) : Nat → Nat → Option Bool
  | 0, _ => none
  | turns + 1, i =>
    if i < text.length then
      match utf8CharacterAt text i with
      | none => none
      | some none => some false
      | some (some i) => utf8ScanAt text turns i
    else some true

def isValidUtf8Reads (text : Bytes) : Option Bool := utf8ScanAt text (text.length + 1) 0

/-! ### Bytes of a sequence -/

section

variable {next c : UInt8} {text rest : Bytes} {count i : Nat}

set_option maxRecDepth 10000 in
theorem continuation_iff : next &&& 0xc0 = 0x80 ↔ Utf8.Tail next := by
  have hall : ∀ n : Fin 256, (UInt8.ofNat n.1 &&& 0xc0 = 0x80 ↔ 0x80 ≤ n.1 ∧ n.1 < 0xc0) := by decide
  have hnext := hall ⟨next.toNat, next.toNat_lt⟩
  rwa [UInt8.ofNat_toNat] at hnext

theorem toNat_and_low (k : Nat) {mask : UInt8} (hmask : mask.toNat = 2 ^ k - 1) :
    (next &&& mask).toNat = next.toNat % 2 ^ k := by
  rw [UInt8.toNat_and, hmask, Nat.and_two_pow_sub_one_eq_mod]

theorem toNat_shift_or {value : UInt32} (h : value.toNat * 64 < 2 ^ 32) :
    ((value <<< 6) ||| (next &&& 63).toUInt32).toNat = value.toNat * 64 + (next &&& 63).toNat := by
  have hlow : (next &&& 63).toNat < 2 ^ 6 := by
    rw [toNat_and_low 6 (by decide)]
    exact Nat.mod_lt _ (by decide)
  have hshift : (value <<< 6).toNat = value.toNat <<< 6 := by
    rw [UInt32.toNat_shiftLeft]
    change value.toNat <<< (6 % 32) % 2 ^ 32 = value.toNat <<< 6
    rw [Nat.shiftLeft_eq, Nat.mod_eq_of_lt h]
  rw [UInt32.toNat_or, hshift, UInt8.toNat_toUInt32, ← Nat.shiftLeft_add_eq_or_of_lt hlow, Nat.shiftLeft_eq]

/-- The inner loop takes continuation bytes and appends their six bits to the value. -/
theorem utf8Continuation_iff {value v : Nat} :
    utf8Continuation count value text = some (v, rest) ↔ ∃ tail : Bytes, tail.length = count ∧
      text = tail ++ rest ∧ (∀ b ∈ tail, Utf8.Tail b) ∧
      v = tail.foldl (fun value b => value * 64 + b.toNat % 64) value := by
  induction count generalizing value text with
  | zero =>
    rw [utf8Continuation, Option.some.injEq, Prod.mk.injEq]
    constructor
    · rintro ⟨rfl, rfl⟩
      exact ⟨[], rfl, rfl, by simp, rfl⟩
    · rintro ⟨tail, hlength, rfl, -, rfl⟩
      obtain rfl := List.eq_nil_of_length_eq_zero hlength
      exact ⟨rfl, rfl⟩
  | succ count ih =>
    cases text with
    | nil =>
      refine iff_of_false (by simp [utf8Continuation]) ?_
      rintro ⟨tail, hlength, htext, -⟩
      obtain ⟨rfl, -⟩ := List.append_eq_nil_iff.mp htext.symm
      cases hlength
    | cons next text =>
      rw [utf8Continuation]
      by_cases hnext : next &&& 0xc0 = 0x80
      · rw [if_neg (not_not_intro hnext), ih, toNat_and_low 6 (by decide)]
        constructor
        · rintro ⟨tail, hlength, rfl, htail, rfl⟩
          refine ⟨next :: tail, by simp [hlength], rfl, ?_, rfl⟩
          intro b hb
          rcases List.mem_cons.mp hb with rfl | hb
          · exact continuation_iff.mp hnext
          · exact htail b hb
        · rintro ⟨tail, hlength, htext, htail, rfl⟩
          cases tail with
          | nil => cases hlength
          | cons b tail =>
            obtain ⟨rfl, rfl⟩ := List.cons.inj htext
            exact ⟨tail, Nat.succ.inj hlength, rfl, fun b hb => htail b (List.mem_cons_of_mem _ hb), rfl⟩
      · rw [if_pos hnext]
        refine iff_of_false (by simp) ?_
        rintro ⟨tail, hlength, htext, htail, -⟩
        cases tail with
        | nil => cases hlength
        | cons b tail =>
          obtain ⟨rfl, -⟩ := List.cons.inj htext
          exact hnext (continuation_iff.mpr (htail _ List.mem_cons_self))

/-- A value that passes the last test of a turn. -/
def Utf8Value (minimum v : Nat) : Prop := minimum ≤ v ∧ v.isValidChar

theorem utf8Value_iff {minimum v : Nat} :
    ¬(v < minimum ∨ v > 0x10ffff ∨ (v ≥ 0xd800 ∧ v ≤ 0xdfff)) ↔ Utf8Value minimum v := by
  unfold Utf8Value Nat.isValidChar
  omega

def utf8Sequence (count value minimum : Nat) (text : Bytes) : Option Bytes :=
  (utf8Continuation count value text).bind fun p =>
    if p.1 < minimum ∨ p.1 > 0x10ffff ∨ (p.1 ≥ 0xd800 ∧ p.1 ≤ 0xdfff) then none else some p.2

theorem utf8Character_eq : utf8Character c text =
    if c < 0x80 then some text
    else if c ≥ 0xc2 ∧ c ≤ 0xdf then utf8Sequence 1 (c &&& 31).toNat 0x80 text
    else if c ≥ 0xe0 ∧ c ≤ 0xef then utf8Sequence 2 (c &&& 15).toNat 0x800 text
    else if c ≥ 0xf0 ∧ c ≤ 0xf4 then utf8Sequence 3 (c &&& 7).toNat 0x10000 text
    else none := by
  unfold utf8Character utf8Sequence
  dsimp only
  cases utf8Continuation 1 (c &&& 31).toNat text <;> cases utf8Continuation 2 (c &&& 15).toNat text <;>
    cases utf8Continuation 3 (c &&& 7).toNat text <;> rfl

theorem utf8Sequence_iff {value minimum : Nat} :
    utf8Sequence count value minimum text = some rest ↔ ∃ tail : Bytes, tail.length = count ∧
      text = tail ++ rest ∧ (∀ b ∈ tail, Utf8.Tail b) ∧
      Utf8Value minimum (tail.foldl (fun value b => value * 64 + b.toNat % 64) value) := by
  rw [utf8Sequence, Option.bind_eq_some_iff]
  constructor
  · rintro ⟨⟨v, text'⟩, hcontinuation, hvalue⟩
    rw [Option.ite_none_left_eq_some, utf8Value_iff] at hvalue
    obtain ⟨hvalue, hrest⟩ := hvalue
    obtain rfl := Option.some.inj hrest
    obtain ⟨tail, hlength, htext, htail, rfl⟩ := utf8Continuation_iff.mp hcontinuation
    exact ⟨tail, hlength, htext, htail, hvalue⟩
  · rintro ⟨tail, hlength, htext, htail, hvalue⟩
    refine ⟨(_, rest), utf8Continuation_iff.mpr ⟨tail, hlength, htext, htail, rfl⟩, ?_⟩
    rw [Option.ite_none_left_eq_some, utf8Value_iff]
    exact ⟨hvalue, rfl⟩

/-- **One turn takes the shortest form of one scalar value.** -/
theorem utf8Character_iff : utf8Character c text = some rest ↔
    ∃ (bytes : Bytes) (v : Nat), c :: text = bytes ++ rest ∧ Utf8.Sequence bytes v ∧ v.isValidChar := by
  have hlow5 : (c &&& 31).toNat = c.toNat % 32 := toNat_and_low 5 (by decide)
  have hlow4 : (c &&& 15).toNat = c.toNat % 16 := toNat_and_low 4 (by decide)
  have hlow3 : (c &&& 7).toNat = c.toNat % 8 := toNat_and_low 3 (by decide)
  rw [utf8Character_eq, hlow5, hlow4, hlow3]
  simp only [UInt8.lt_iff_toNat_lt, UInt8.le_iff_toNat_le, ge_iff_le, UInt8.reduceToNat]
  constructor
  · intro h
    by_cases hone : c.toNat < 128
    · rw [if_pos hone] at h
      obtain rfl := Option.some.inj h
      exact ⟨[c], c.toNat, rfl, .one hone, .inl (by omega)⟩
    rw [if_neg hone] at h
    by_cases htwo : 194 ≤ c.toNat ∧ c.toNat ≤ 223
    · rw [if_pos htwo] at h
      obtain ⟨tail, hlength, rfl, htail, hmin, hvalid⟩ := utf8Sequence_iff.mp h
      obtain ⟨b, rfl⟩ := List.length_eq_one_iff.mp hlength
      exact ⟨[c, b], _, rfl, .two (by omega) (htail b (by simp)) rfl hmin, hvalid⟩
    rw [if_neg htwo] at h
    by_cases hthree : 224 ≤ c.toNat ∧ c.toNat ≤ 239
    · rw [if_pos hthree] at h
      obtain ⟨tail, hlength, rfl, htail, hmin, hvalid⟩ := utf8Sequence_iff.mp h
      obtain ⟨b, b', rfl⟩ := List.length_eq_two.mp hlength
      exact ⟨[c, b, b'], _, rfl, .three (by omega) (htail b (by simp)) (htail b' (by simp)) rfl hmin, hvalid⟩
    rw [if_neg hthree] at h
    rw [Option.ite_none_right_eq_some] at h
    obtain ⟨hfour, h⟩ := h
    obtain ⟨tail, hlength, rfl, htail, hmin, hvalid⟩ := utf8Sequence_iff.mp h
    obtain ⟨b, b', b'', rfl⟩ := List.length_eq_three.mp hlength
    exact ⟨[c, b, b', b''], _, rfl, .four (by omega) (htail b (by simp)) (htail b' (by simp)) (htail b'' (by simp))
      rfl hmin, hvalid⟩
  · rintro ⟨bytes, v, htext, hsequence, hvalid⟩
    have hscalar : v < 0x110000 := by
      unfold Nat.isValidChar at hvalid
      omega
    cases hsequence with
    | one ha =>
      obtain ⟨rfl, rfl⟩ := List.cons.inj htext
      rw [if_pos ha]
    | two ha hb hv hmin =>
      obtain ⟨rfl, rfl⟩ := List.cons.inj htext
      rw [if_neg (by omega), if_pos (by omega), utf8Sequence_iff]
      exact ⟨_, rfl, rfl, by simpa using hb, by rw [hv] at hmin; exact hmin, by rwa [hv] at hvalid⟩
    | three ha hb hb' hv hmin =>
      obtain ⟨rfl, rfl⟩ := List.cons.inj htext
      rw [if_neg (by omega), if_neg (by omega), if_pos (by omega), utf8Sequence_iff]
      exact ⟨_, rfl, rfl, by simpa using ⟨hb, hb'⟩, by rw [hv] at hmin; exact hmin, by rwa [hv] at hvalid⟩
    | four ha hb hb' hb'' hv hmin =>
      obtain ⟨rfl, rfl⟩ := List.cons.inj htext
      rw [if_neg (by omega), if_neg (by omega), if_neg (by omega), if_pos (by omega), utf8Sequence_iff]
      exact ⟨_, rfl, rfl, by simpa using ⟨hb, hb', hb''⟩, by rw [hv] at hmin; exact hmin, by rwa [hv] at hvalid⟩

theorem utf8Character_iff_encode : utf8Character c text = some rest ↔
    ∃ char : Char, c :: text = String.utf8EncodeChar char ++ rest := by
  rw [utf8Character_iff]
  constructor
  · rintro ⟨bytes, v, htext, hsequence, hvalid⟩
    obtain ⟨char, hchar⟩ := Utf8.exists_char hvalid
    exact ⟨char, by rw [htext, hsequence.eq_encode hchar]⟩
  · rintro ⟨char, htext⟩
    exact ⟨_, _, htext, Utf8.sequence_encode char, char.valid⟩

theorem utf8Character_length (h : utf8Character c text = some rest) : rest.length ≤ text.length := by
  obtain ⟨bytes, v, htext, hsequence, -⟩ := utf8Character_iff.mp h
  have hlength := congrArg List.length htext
  rw [List.length_cons, List.length_append] at hlength
  cases hsequence <;> simp only [List.length_cons, List.length_nil] at hlength <;> omega

theorem isValidUtf8Within_iff {turns : Nat} (h : text.length ≤ turns) :
    isValidUtf8Within turns text = true ↔ Utf8.WellFormed text := by
  induction turns generalizing text with
  | zero =>
    obtain rfl := List.eq_nil_of_length_eq_zero (Nat.le_zero.mp h)
    exact iff_of_true rfl Utf8.wellFormed_nil
  | succ turns ih =>
    cases text with
    | nil => exact iff_of_true rfl Utf8.wellFormed_nil
    | cons c text =>
      rw [isValidUtf8Within]
      cases hcharacter : utf8Character c text with
      | none =>
        refine iff_of_false Bool.false_ne_true fun hwell => ?_
        obtain ⟨char, rest, htext, -⟩ := hwell.uncons
        rw [utf8Character_iff_encode.mpr ⟨char, htext⟩] at hcharacter
        cases hcharacter
      | some rest =>
        have hrest := utf8Character_length hcharacter
        rw [List.length_cons] at h
        dsimp only
        rw [ih (by omega)]
        constructor
        · intro hwell
          obtain ⟨char, htext⟩ := utf8Character_iff_encode.mp hcharacter
          rw [htext]
          exact hwell.cons char
        · intro hwell
          obtain ⟨char, rest', htext, hwell⟩ := hwell.uncons
          rw [utf8Character_iff_encode.mpr ⟨char, htext⟩] at hcharacter
          obtain rfl := Option.some.inj hcharacter
          exact hwell

end

/-! ### The reads of the scan -/

section

variable {text : Bytes} {i : Nat}

theorem utf8Continuation_short {count value : Nat} (h : text.length < count) :
    utf8Continuation count value text = none := by
  rw [Option.eq_none_iff_forall_not_mem]
  intro result hresult
  obtain ⟨tail, hlength, htext, -⟩ := utf8Continuation_iff.mp (show utf8Continuation count value text =
    some (result.1, result.2) from hresult)
  rw [htext, List.length_append, hlength] at h
  omega

theorem utf8ContinuationAt_spec {count : Nat} {value : UInt32} (hfits : i + count ≤ text.length)
    (hvalue : (value.toNat + 1) * 64 ^ count ≤ 2 ^ 32) :
    (utf8ContinuationAt text count i value = some none ∧
      utf8Continuation count value.toNat (text.drop i) = none) ∨
    ∃ v : UInt32, utf8ContinuationAt text count i value = some (some (v, i + count)) ∧
      utf8Continuation count value.toNat (text.drop i) = some (v.toNat, text.drop (i + count)) := by
  induction count generalizing i value with
  | zero => exact .inr ⟨value, rfl, rfl⟩
  | succ count ih =>
    have hi : i < text.length := by omega
    rw [utf8ContinuationAt, List.getElem?_eq_getElem hi, List.drop_eq_getElem_cons hi, utf8Continuation]
    dsimp only
    by_cases hnext : text[i] &&& 0xc0 = 0x80
    · rw [if_neg (not_not_intro hnext), if_neg (not_not_intro hnext)]
      have hlow : (text[i] &&& 63).toNat < 64 := by
        rw [toNat_and_low 6 (by decide)]
        exact Nat.mod_lt _ (by decide)
      rw [Nat.pow_succ, Nat.mul_comm (64 ^ count), ← Nat.mul_assoc] at hvalue
      have hstep : (value.toNat + 1) * 64 ≤ 2 ^ 32 :=
        le_trans (Nat.le_mul_of_pos_right _ (Nat.pow_pos (by decide))) hvalue
      have hshift := @toNat_shift_or text[i] value (by omega)
      rw [← hshift, show i + (count + 1) = i + 1 + count by omega]
      refine ih (by omega) (le_trans (Nat.mul_le_mul_right _ ?_) hvalue)
      rw [hshift]
      omega
    · rw [if_pos hnext, if_pos hnext]
      exact .inl ⟨rfl, rfl⟩

theorem utf8SequenceAt_spec {count : Nat} {value minimum : UInt32} (hi : i ≤ text.length)
    (hvalue : (value.toNat + 1) * 64 ^ count ≤ 2 ^ 32) :
    (utf8SequenceAt text i count value minimum = some none ∧
      utf8Sequence count value.toNat minimum.toNat (text.drop i) = none) ∨
    ∃ j, i ≤ j ∧ j ≤ text.length ∧ utf8SequenceAt text i count value minimum = some (some j) ∧
      utf8Sequence count value.toNat minimum.toNat (text.drop i) = some (text.drop j) := by
  unfold utf8SequenceAt utf8Sequence
  by_cases hfits : count > text.length - i
  · have hshort : (text.drop i).length < count := by
      rw [List.length_drop]
      exact hfits
    rw [if_pos hfits, utf8Continuation_short hshort]
    exact .inl ⟨rfl, rfl⟩
  rw [if_neg hfits]
  rcases @utf8ContinuationAt_spec text i count value (by omega) hvalue with ⟨hat, hrest⟩ | ⟨v, hat, hrest⟩
  · rw [hat, hrest]
    exact .inl ⟨rfl, rfl⟩
  · rw [hat, hrest, Option.bind_some]
    simp only [UInt32.lt_iff_toNat_lt, UInt32.le_iff_toNat_le, gt_iff_lt, ge_iff_le, UInt32.reduceToNat]
    by_cases hrefused : v.toNat < minimum.toNat ∨ 1114111 < v.toNat ∨ 55296 ≤ v.toNat ∧ v.toNat ≤ 57343
    · rw [if_pos hrefused, if_pos hrefused]
      exact .inl ⟨rfl, rfl⟩
    · rw [if_neg hrefused, if_neg hrefused]
      exact .inr ⟨i + count, by omega, by omega, rfl, rfl⟩

/-- One character is read at its position as the specification reads it. -/
theorem utf8CharacterAt_spec (hi : i < text.length) :
    (utf8CharacterAt text i = some none ∧ utf8Character text[i] (text.drop (i + 1)) = none) ∨
    ∃ j, i < j ∧ j ≤ text.length ∧ utf8CharacterAt text i = some (some j) ∧
      utf8Character text[i] (text.drop (i + 1)) = some (text.drop j) := by
  have hlow5 : (text[i] &&& 31).toNat < 32 := by
    rw [toNat_and_low 5 (by decide)]
    exact Nat.mod_lt _ (by decide)
  have hlow4 : (text[i] &&& 15).toNat < 16 := by
    rw [toNat_and_low 4 (by decide)]
    exact Nat.mod_lt _ (by decide)
  have hlow3 : (text[i] &&& 7).toNat < 8 := by
    rw [toNat_and_low 3 (by decide)]
    exact Nat.mod_lt _ (by decide)
  rw [utf8CharacterAt, List.getElem?_eq_getElem hi, utf8Character_eq]
  dsimp only
  by_cases hone : text[i] < 0x80
  · rw [if_pos hone, if_pos hone]
    exact .inr ⟨i + 1, by omega, hi, rfl, rfl⟩
  rw [if_neg hone, if_neg hone]
  by_cases htwo : text[i] ≥ 0xc2 ∧ text[i] ≤ 0xdf
  · rw [if_pos htwo, if_pos htwo]
    refine @utf8SequenceAt_spec text (i + 1) 1 (text[i] &&& 31).toUInt32 0x80 hi ?_
    rw [UInt8.toNat_toUInt32]
    omega
  rw [if_neg htwo, if_neg htwo]
  by_cases hthree : text[i] ≥ 0xe0 ∧ text[i] ≤ 0xef
  · rw [if_pos hthree, if_pos hthree]
    refine @utf8SequenceAt_spec text (i + 1) 2 (text[i] &&& 15).toUInt32 0x800 hi ?_
    rw [UInt8.toNat_toUInt32]
    omega
  rw [if_neg hthree, if_neg hthree]
  by_cases hfour : text[i] ≥ 0xf0 ∧ text[i] ≤ 0xf4
  · rw [if_pos hfour, if_pos hfour]
    refine @utf8SequenceAt_spec text (i + 1) 3 (text[i] &&& 7).toUInt32 0x10000 hi ?_
    rw [UInt8.toNat_toUInt32]
    omega
  · rw [if_neg hfour, if_neg hfour]
    exact .inl ⟨rfl, rfl⟩

theorem utf8ScanAt_eq {turns rest : Nat} (hturns : text.length - i < turns) (hrest : text.length - i ≤ rest)
    (hi : i ≤ text.length) : utf8ScanAt text turns i = some (isValidUtf8Within rest (text.drop i)) := by
  induction turns generalizing i rest with
  | zero => omega
  | succ turns ih =>
    rw [utf8ScanAt]
    by_cases hlt : i < text.length
    · rw [if_pos hlt, List.drop_eq_getElem_cons hlt]
      cases rest with
      | zero => omega
      | succ rest =>
        rw [isValidUtf8Within]
        rcases utf8CharacterAt_spec hlt with ⟨hat, hcharacter⟩ | ⟨j, hij, hj, hat, hcharacter⟩
        · rw [hat, hcharacter]
        · rw [hat, hcharacter]
          exact ih (by omega) (by omega) hj
    · rw [if_neg hlt, List.drop_eq_nil_of_le (by omega)]
      cases rest <;> rfl

end

theorem isValidUtf8Reads_eq (text : Bytes) : isValidUtf8Reads text = some (isValidUtf8 text) :=
  utf8ScanAt_eq (by omega) (by omega) (Nat.zero_le _)

/-- **`IsValidUtf8` accepts the well-formed texts and no others**, and it reads no byte past the
    end of a text. -/
theorem isValidUtf8_exact (text : Bytes) : ∃ valid : Bool, isValidUtf8Reads text = some valid ∧
    (valid = true ↔ ∃ scalars : List Char, text = scalars.flatMap String.utf8EncodeChar) :=
  ⟨isValidUtf8 text, isValidUtf8Reads_eq text, isValidUtf8Within_iff le_rfl⟩

/-- The boundaries of the surrogates, an over-long form and the largest scalar value. -/
example : isValidUtf8 [0xed, 0x9f, 0xbf] = true ∧ isValidUtf8 [0xed, 0xa0, 0x80] = false ∧
    isValidUtf8 [0xe0, 0x9f, 0xbf] = false ∧ isValidUtf8 [0xf4, 0x8f, 0xbf, 0xbf] = true ∧
    isValidUtf8 [0xf4, 0x90, 0x80, 0x80] = false := by decide

end Cybou
