import Cybou.Library.Bytes
import Cybou.Library.LowerBound

/-! # Recovery phrases (`recovery_phrase.cpp`)

The 256 bits of an entropy and the first 8 bits of its hash are one stream of 264 bits,
which 24 words spell in groups of eleven.  Encoding reads the groups off the stream and
decoding puts them back, so everything is stated about the bits of the stream.
-/

namespace Cybou

open Library

/-! ### The functions -/

/-- `WORDS`. -/
structure WordList where
  words : List Bytes
  length : words.length = 2048
  sorted : words.Pairwise (· < ·)

abbrev RecoveryWords := { words : List Bytes // words.length = 24 }

def getBit (bytes : Bytes) (position : Nat) : UInt8 :=
  (bytes.getD (position / 8) 0 >>> UInt8.ofNat (7 - position % 8)) &&& 1

def setBit {n : Nat} (bytes : FixedBytes n) (position : Nat) (value : UInt8) : FixedBytes n :=
  ⟨bytes.1.modify (position / 8) fun byte => byte ||| value <<< UInt8.ofNat (7 - position % 8),
    (List.length_modify _ _ _).trans bytes.2⟩

/-- The inner loop of `EncodeRecoveryWords`. -/
def recoveryIndex (entropy hash : Bytes) (word : Nat) : Nat :=
  (List.range 11).foldl (fun index bit =>
    index <<< 1 ||| (if word * 11 + bit < 256 then getBit entropy (word * 11 + bit)
      else getBit hash (word * 11 + bit - 256)).toNat) 0

def encodeRecoveryWords (table : WordList) (sha256 : Bytes → FixedBytes 32) (entropy : FixedBytes 32) :
    RecoveryWords :=
  ⟨(List.range 24).map fun word => table.words.getD (recoveryIndex entropy.1 (sha256 entropy.1).1 word) [],
    by rw [List.length_map, List.length_range]⟩

/-- The inner loop of `DecodeRecoveryWords`. -/
def setRecoveryIndex (bits : FixedBytes 33) (word index : Nat) : FixedBytes 33 :=
  (List.range 11).foldl (fun bits bit =>
    setBit bits (word * 11 + bit) (UInt8.ofNat ((index >>> (10 - bit)) &&& 1))) bits

/-- The outer loop of `DecodeRecoveryWords`. -/
def recoveryBits (table : WordList) : List Bytes → Nat → FixedBytes 33 → Option (FixedBytes 33)
  | [], _, bits => some bits
  | text :: rest, word, bits =>
    let found := lowerBound (fun entry => decide (entry < text)) table.words
    if table.words[found]? ≠ some text then none
    else recoveryBits table rest (word + 1) (setRecoveryIndex bits word found)

def recoveredEntropy (bits : FixedBytes 33) : FixedBytes 32 :=
  ⟨bits.1.take 32, by rw [List.length_take, bits.2]; rfl⟩

def decodeRecoveryWords (table : WordList) (sha256 : Bytes → FixedBytes 32) (words : RecoveryWords) :
    Option (FixedBytes 32) :=
  match recoveryBits table words.1 0 (FixedBytes.zero 33) with
  | none => none
  | some bits =>
    let entropy := recoveredEntropy bits
    if bits.1.getD 32 0 ≠ (sha256 entropy.1).1.getD 0 0 then none else some entropy

/-! ### Bits -/

def bitAt (bytes : Bytes) (position : Nat) : Bool := (bytes.getD (position / 8) 0).toNat.testBit (7 - position % 8)

section

variable {n : Nat} {bytes bytes' : Bytes} {position word index : Nat}

theorem shift_toNat (position : Nat) : (UInt8.ofNat (7 - position % 8)).toNat % 8 = 7 - position % 8 := by
  have hlt := Nat.mod_lt position (show 0 < 8 by decide)
  rw [UInt8.toNat_ofNat_of_lt' (show 7 - position % 8 < 2 ^ 8 by omega)]
  omega

theorem getBit_toNat : (getBit bytes position).toNat = (bitAt bytes position).toNat := by
  rw [getBit, bitAt, UInt8.toNat_and, UInt8.toNat_shiftRight, shift_toNat, Nat.toNat_testBit, UInt8.toNat_one,
    Nat.and_one_is_mod, Nat.shiftRight_eq_div_pow]

theorem testBit_toNat (b : Bool) (i : Nat) : b.toNat.testBit i = (decide (i = 0) && b) := by
  cases b with
  | false => simp
  | true => cases i <;> simp [Nat.testBit_succ]

/-- Setting one bit leaves the others. -/
theorem bitAt_setBit {bits : FixedBytes n} (hposition : position < 8 * n) (b : Bool) (other : Nat) :
    bitAt (setBit bits position (UInt8.ofNat b.toNat)).1 other =
      (bitAt bits.1 other || (decide (other = position) && b)) := by
  have hbyte : ∀ byte : UInt8, ∀ k < 8,
      (byte ||| UInt8.ofNat b.toNat <<< UInt8.ofNat (7 - position % 8)).toNat.testBit k =
        (byte.toNat.testBit k || (decide (k = 7 - position % 8) && b)) := by
    intro byte k hk
    have hvalue : (UInt8.ofNat b.toNat).toNat = b.toNat :=
      UInt8.toNat_ofNat_of_lt' (lt_of_le_of_lt b.toNat_le (by decide))
    rw [UInt8.toNat_or, Nat.testBit_or, UInt8.toNat_shiftLeft, shift_toNat, Nat.testBit_mod_two_pow, hvalue,
      Nat.testBit_shiftLeft, testBit_toNat, decide_eq_true hk, Bool.true_and]
    congr 1
    by_cases heq : k = 7 - position % 8
    · subst heq
      simp
    · rw [decide_eq_false heq]
      by_cases hle : k ≥ 7 - position % 8
      · rw [decide_eq_false (show ¬k - (7 - position % 8) = 0 by omega)]
        simp
      · rw [decide_eq_false hle]
        rfl
  unfold bitAt setBit
  dsimp only
  have hlength : position / 8 < bits.1.length := by
    rw [bits.2]
    omega
  by_cases hsame : other / 8 = position / 8
  · have hlt := Nat.mod_lt other (show 0 < 8 by decide)
    rw [hsame, List.getD_eq_getElem?_getD, List.getElem?_modify, List.getD_eq_getElem?_getD,
      List.getElem?_eq_getElem hlength, Option.map_eq_map, Option.map_some, Option.getD_some, Option.getD_some,
      if_pos rfl, hbyte _ _ (by omega)]
    congr 2
    exact decide_eq_decide.mpr (by omega)
  · have hne : other ≠ position := fun h => hsame (by rw [h])
    rw [decide_eq_false hne, Bool.false_and, Bool.or_false, List.getD_eq_getElem?_getD, List.getElem?_modify,
      List.getD_eq_getElem?_getD]
    cases bits.1[other / 8]? with
    | none => rfl
    | some byte =>
      rw [Option.map_eq_map, Option.map_some, if_neg fun h => hsame h.symm]

theorem getD_eq_of_bitAt {i i' : Nat} (hbits : ∀ k < 8, bitAt bytes (8 * i + k) = bitAt bytes' (8 * i' + k)) :
    bytes.getD i 0 = bytes'.getD i' 0 := by
  refine UInt8.toNat_inj.mp (Nat.eq_of_testBit_eq fun k => ?_)
  by_cases hk : k < 8
  · have hbit := hbits (7 - k) (by omega)
    unfold bitAt at hbit
    rwa [show (8 * i + (7 - k)) / 8 = i by omega, show 7 - (8 * i + (7 - k)) % 8 = k by omega,
      show (8 * i' + (7 - k)) / 8 = i' by omega, show 7 - (8 * i' + (7 - k)) % 8 = k by omega] at hbit
  · have hpow : 2 ^ 8 ≤ 2 ^ k := Nat.pow_le_pow_right (by decide) (by omega)
    rw [Nat.testBit_lt_two_pow (lt_of_lt_of_le (UInt8.toNat_lt _) hpow),
      Nat.testBit_lt_two_pow (lt_of_lt_of_le (UInt8.toNat_lt _) hpow)]

theorem eq_of_bitAt (hlength : bytes.length = bytes'.length)
    (hbits : ∀ position < 8 * bytes.length, bitAt bytes position = bitAt bytes' position) : bytes = bytes' := by
  refine List.ext_getElem hlength fun i hi hi' => ?_
  rw [← List.getD_eq_getElem _ 0 hi, ← List.getD_eq_getElem _ 0 hi']
  exact getD_eq_of_bitAt fun k hk => hbits _ (by omega)

theorem bitAt_zero (n position : Nat) : bitAt (FixedBytes.zero n).1 position = false := by
  unfold bitAt FixedBytes.zero
  rw [List.getD_eq_getElem?_getD, List.getElem?_replicate]
  split
  · exact Nat.zero_testBit _
  · exact Nat.zero_testBit _

theorem bitAt_take {count : Nat} (hposition : position < 8 * count) :
    bitAt (bytes.take count) position = bitAt bytes position := by
  unfold bitAt
  rw [List.getD_eq_getElem?_getD, List.getElem?_take_of_lt (by omega), ← List.getD_eq_getElem?_getD]

/-! ### Groups of eleven bits -/

theorem testBit_shiftIn (bit : Nat → Bool) (count i : Nat) :
    ((List.range count).foldl (fun index j => index <<< 1 ||| (bit j).toNat) 0).testBit i =
      (decide (i < count) && bit (count - 1 - i)) := by
  induction count generalizing i with
  | zero => simp
  | succ count ih =>
    rw [List.range_succ, List.foldl_concat, Nat.testBit_or, Nat.testBit_shiftLeft, ih, testBit_toNat]
    cases i with
    | zero => simp
    | succ i =>
      rw [Nat.add_sub_cancel, show count + 1 - 1 - (i + 1) = count - 1 - i by omega]
      simp

def recoveryStream (entropy hash : Bytes) (position : Nat) : Bool :=
  if position < 256 then bitAt entropy position else bitAt hash (position - 256)

theorem testBit_recoveryIndex (entropy hash : Bytes) (word i : Nat) : (recoveryIndex entropy hash word).testBit i =
    (decide (i < 11) && recoveryStream entropy hash (word * 11 + (10 - i))) := by
  rw [← testBit_shiftIn (fun j => recoveryStream entropy hash (word * 11 + j))]
  unfold recoveryIndex
  congr 2
  funext index j
  unfold recoveryStream
  split
  · rw [getBit_toNat]
  · rw [getBit_toNat]

theorem recoveryIndex_lt (entropy hash : Bytes) (word : Nat) : recoveryIndex entropy hash word < 2048 := by
  refine Nat.lt_pow_two_of_testBit (n := 11) _ fun i hi => ?_
  rw [testBit_recoveryIndex, decide_eq_false (by omega), Bool.false_and]

theorem and_one_eq (k : Nat) : index >>> k &&& 1 = (index.testBit k).toNat := by
  rw [Nat.toNat_testBit, Nat.and_one_is_mod, Nat.shiftRight_eq_div_pow]

theorem bitAt_setRecoveryIndex {bits : FixedBytes 33} (hword : word < 24) (other : Nat) :
    bitAt (setRecoveryIndex bits word index).1 other =
      (bitAt bits.1 other || (decide (other / 11 = word) && index.testBit (10 - other % 11))) := by
  have htaken : ∀ count ≤ 11, bitAt ((List.range count).foldl (fun bits bit =>
      setBit bits (word * 11 + bit) (UInt8.ofNat ((index >>> (10 - bit)) &&& 1))) bits).1 other =
      (bitAt bits.1 other || (decide (word * 11 ≤ other ∧ other < word * 11 + count) &&
        index.testBit (10 - other % 11))) := by
    intro count hcount
    induction count with
    | zero => simp
    | succ count ih =>
      rw [List.range_succ, List.foldl_concat, and_one_eq, bitAt_setBit (by omega), ih (by omega), Bool.or_assoc]
      congr 1
      by_cases heq : other = word * 11 + count
      · subst heq
        rw [show (word * 11 + count) % 11 = count by omega]
        simp
      · rw [decide_eq_false heq, Bool.false_and, Bool.or_false]
        congr 1
        exact decide_eq_decide.mpr (by omega)
  refine (htaken 11 le_rfl).trans ?_
  congr 2
  exact decide_eq_decide.mpr (by omega)

theorem WordList.lowerBound_eq (table : WordList) {text : Bytes} {i : Nat} (h : table.words[i]? = some text) :
    lowerBound (fun entry => decide (entry < text)) table.words = i := by
  obtain ⟨hi, rfl⟩ := List.getElem?_eq_some_iff.mp h
  have hsorted := List.pairwise_iff_getElem.mp table.sorted
  refine Library.lowerBound_eq ?_ hi (fun j hj => decide_eq_true (hsorted j i _ hi hj)) (decide_eq_false (lt_irrefl _))
  refine table.sorted.imp fun hlt hbefore => ?_
  exact decide_eq_true (hlt.trans (of_decide_eq_true hbefore))

/-- **What the outer loop of decoding does**: it finds every word in the table and sets the bits
    of its position there. -/
theorem recoveryBits_iff (table : WordList) {texts : List Bytes} {bits bits' : FixedBytes 33}
    (hword : word + texts.length ≤ 24) : recoveryBits table texts word bits = some bits' →
    ∃ indices : List Nat, texts.map some = indices.map (fun i => table.words[i]?) ∧
      ∀ position, bitAt bits'.1 position = (bitAt bits.1 position ||
        (decide (word ≤ position / 11 ∧ position / 11 < word + texts.length) &&
          (indices.getD (position / 11 - word) 0).testBit (10 - position % 11))) := by
  induction texts generalizing word bits with
  | nil =>
    intro h
    obtain rfl := Option.some.inj h
    refine ⟨[], rfl, fun position => ?_⟩
    rw [decide_eq_false (by simp), Bool.false_and, Bool.or_false]
  | cons text rest ih =>
    intro h
    rw [List.length_cons] at hword
    rw [recoveryBits, Option.ite_none_left_eq_some, not_not] at h
    obtain ⟨hfound, h⟩ := h
    obtain ⟨indices, hindices, hbits⟩ := ih (by omega) h
    refine ⟨lowerBound (fun entry => decide (entry < text)) table.words :: indices, ?_, fun position => ?_⟩
    · rw [List.map_cons, List.map_cons, hfound, hindices]
    · rw [hbits, bitAt_setRecoveryIndex (by omega), Bool.or_assoc, List.length_cons]
      congr 1
      by_cases heq : position / 11 = word
      · rw [decide_eq_true heq, heq, decide_eq_false (by omega), decide_eq_true (by omega), Nat.sub_self,
          List.getD_cons_zero]
        simp
      · rw [decide_eq_false heq, Bool.false_and, Bool.false_or]
        by_cases hlt : word < position / 11
        · rw [show position / 11 - word = position / 11 - (word + 1) + 1 by omega, List.getD_cons_succ]
          congr 1
          exact decide_eq_decide.mpr (by omega)
        · rw [decide_eq_false (by omega), decide_eq_false (by omega), Bool.false_and, Bool.false_and]

theorem WordList.index_unique (table : WordList) {text : Bytes} {i j : Nat} (h : table.words[i]? = some text)
    (h' : table.words[j]? = some text) : i = j :=
  (table.lowerBound_eq h).symm.trans (table.lowerBound_eq h')

theorem recoveryBits_isSome (table : WordList) {texts : List Bytes} (bits : FixedBytes 33)
    (h : ∀ text ∈ texts, text ∈ table.words) (word : Nat) : ∃ bits', recoveryBits table texts word bits = some bits' := by
  induction texts generalizing word bits with
  | nil => exact ⟨bits, rfl⟩
  | cons text rest ih =>
    obtain ⟨i, hi⟩ := List.getElem?_of_mem (h text List.mem_cons_self)
    rw [recoveryBits, table.lowerBound_eq hi, hi, if_neg fun hne => hne rfl]
    exact ih _ (fun other hother => h other (List.mem_cons_of_mem _ hother)) _

theorem bitAt_eq_recoveryStream_iff {bits : FixedBytes 33} {entropy hash : FixedBytes 32} :
    (∀ position < 264, bitAt bits.1 position = recoveryStream entropy.1 hash.1 position) ↔
      recoveredEntropy bits = entropy ∧ bits.1.getD 32 0 = hash.1.getD 0 0 := by
  have hlength := (recoveredEntropy bits).2
  unfold recoveryStream
  constructor
  · intro h
    constructor
    · refine Subtype.ext (eq_of_bitAt (hlength.trans entropy.2.symm) fun position hposition => ?_)
      rw [hlength] at hposition
      rw [recoveredEntropy, bitAt_take (by omega), h position (by omega), if_pos (by omega)]
    · refine getD_eq_of_bitAt fun k hk => ?_
      rw [h _ (by omega), if_neg (by omega), show 8 * 32 + k - 256 = 8 * 0 + k by omega]
  · rintro ⟨hentropy, hchecksum⟩ position hposition
    by_cases hlow : position < 256
    · rw [if_pos hlow, ← hentropy, recoveredEntropy, bitAt_take (by omega)]
    · rw [if_neg hlow]
      unfold bitAt
      rw [show position / 8 = 32 by omega, show (position - 256) / 8 = 0 by omega, hchecksum,
        show (position - 256) % 8 = position % 8 by omega]

end

/-! ### Round trips -/

section

variable {table : WordList} {sha256 : Bytes → FixedBytes 32} {entropy : FixedBytes 32} {words : RecoveryWords}

theorem getElem?_encodeRecoveryWords {word : Nat} (hword : word < 24) :
    (encodeRecoveryWords table sha256 entropy).1[word]? =
      table.words[recoveryIndex entropy.1 (sha256 entropy.1).1 word]? := by
  have hlt : recoveryIndex entropy.1 (sha256 entropy.1).1 word < table.words.length := by
    rw [table.length]
    exact recoveryIndex_lt _ _ _
  unfold encodeRecoveryWords
  rw [List.getElem?_map, List.getElem?_range hword, Option.map_some, List.getElem?_eq_getElem hlt,
    List.getD_eq_getElem _ _ hlt]

theorem bitAt_recoveryBits {bits : FixedBytes 33}
    (h : recoveryBits table words.1 0 (FixedBytes.zero 33) = some bits) :
    ∃ indices : List Nat, (∀ word < 24, table.words[indices.getD word 0]? = words.1[word]?) ∧
      ∀ word < 24, ∀ i < 11, bitAt bits.1 (word * 11 + i) = (indices.getD word 0).testBit (10 - i) := by
  have hlength := words.2
  obtain ⟨indices, hindices, hbits⟩ := recoveryBits_iff table (by omega) h
  have hcount : indices.length = 24 := by
    have hboth := congrArg List.length hindices
    rw [List.length_map, List.length_map] at hboth
    omega
  refine ⟨indices, fun word hword => ?_, fun word hword i hi => ?_⟩
  · have hat : (words.1.map some)[word]? = (indices.map fun i => table.words[i]?)[word]? := by rw [hindices]
    rw [List.getElem?_map, List.getElem?_map, List.getElem?_eq_getElem (by omega),
      List.getElem?_eq_getElem (by omega)] at hat
    rw [List.getD_eq_getElem _ _ (by omega), List.getElem?_eq_getElem (l := words.1) (by omega)]
    exact (Option.some.inj hat).symm
  · rw [hbits, bitAt_zero, Bool.false_or, show (word * 11 + i) / 11 = word by omega,
      show (word * 11 + i) % 11 = i by omega, decide_eq_true (by omega), Bool.true_and, Nat.sub_zero]

theorem decodeRecoveryWords_encode (table : WordList) (sha256 : Bytes → FixedBytes 32) (entropy : FixedBytes 32) :
    decodeRecoveryWords table sha256 (encodeRecoveryWords table sha256 entropy) = some entropy := by
  have hmem : ∀ text ∈ (encodeRecoveryWords table sha256 entropy).1, text ∈ table.words := by
    intro text htext
    obtain ⟨word, hword⟩ := List.getElem?_of_mem htext
    have hlt := (List.getElem?_eq_some_iff.mp hword).1
    rw [(encodeRecoveryWords table sha256 entropy).2] at hlt
    rw [getElem?_encodeRecoveryWords hlt] at hword
    exact List.mem_of_getElem? hword
  obtain ⟨bits, hbits⟩ := recoveryBits_isSome table (FixedBytes.zero 33) hmem 0
  obtain ⟨indices, hindices, hat⟩ := bitAt_recoveryBits hbits
  have hspelled : ∀ position < 264,
      bitAt bits.1 position = recoveryStream entropy.1 (sha256 entropy.1).1 position := by
    intro position hposition
    have hword : position / 11 < 24 := by omega
    have hlt : recoveryIndex entropy.1 (sha256 entropy.1).1 (position / 11) < table.words.length := by
      rw [table.length]
      exact recoveryIndex_lt _ _ _
    have hsame := hindices _ hword
    rw [getElem?_encodeRecoveryWords hword, List.getElem?_eq_getElem hlt] at hsame
    have hindex := table.index_unique hsame (List.getElem?_eq_getElem hlt)
    have hbit := hat _ hword (position % 11) (by omega)
    rw [Nat.div_add_mod'] at hbit
    rw [hbit, hindex, testBit_recoveryIndex, decide_eq_true (by omega), Bool.true_and,
      show position / 11 * 11 + (10 - (10 - position % 11)) = position by omega]
  obtain ⟨hentropy, hchecksum⟩ := bitAt_eq_recoveryStream_iff.mp hspelled
  unfold decodeRecoveryWords
  rw [hbits]
  dsimp only
  rw [hentropy, if_neg (not_not_intro hchecksum)]

theorem encodeRecoveryWords_of_decode (h : decodeRecoveryWords table sha256 words = some entropy) :
    words = encodeRecoveryWords table sha256 entropy := by
  unfold decodeRecoveryWords at h
  cases hbits : recoveryBits table words.1 0 (FixedBytes.zero 33) with
  | none =>
    rw [hbits] at h
    cases h
  | some bits =>
    rw [hbits] at h
    dsimp only at h
    rw [Option.ite_none_left_eq_some, not_not] at h
    obtain ⟨hchecksum, hentropy⟩ := h
    obtain rfl := Option.some.inj hentropy
    have hspelled := bitAt_eq_recoveryStream_iff.mpr ⟨rfl, hchecksum⟩
    obtain ⟨indices, hindices, hat⟩ := bitAt_recoveryBits hbits
    refine Subtype.ext (List.ext_getElem? fun word => ?_)
    by_cases hword : word < 24
    · rw [getElem?_encodeRecoveryWords hword, ← hindices word hword]
      congr 1
      have hlt : indices.getD word 0 < 2 ^ 11 := by
        have hsome := hindices word hword
        rw [List.getElem?_eq_getElem (l := words.1) (by rw [words.2]; exact hword)] at hsome
        have hbound := (List.getElem?_eq_some_iff.mp hsome).1
        rw [table.length] at hbound
        exact hbound
      refine Nat.eq_of_testBit_eq fun i => ?_
      rw [testBit_recoveryIndex]
      by_cases hi : i < 11
      · have hbit := hat word hword (10 - i) (by omega)
        rw [decide_eq_true hi, Bool.true_and, ← hspelled _ (by omega), hbit, show 10 - (10 - i) = i by omega]
      · rw [decide_eq_false hi, Bool.false_and]
        exact Nat.testBit_lt_two_pow (lt_of_lt_of_le hlt (Nat.pow_le_pow_right (by decide) (by omega)))
    · rw [List.getElem?_eq_none (by rw [words.2]; omega),
        List.getElem?_eq_none (by rw [(encodeRecoveryWords _ _ _).2]; omega)]

end

/-- **Recovery phrases and entropies are in bijection**: an entropy decodes from its phrase, every
    accepted phrase is the phrase of its entropy, and so no two phrases restore one entropy. -/
theorem recoveryPhrase_codec (table : WordList) (sha256 : Bytes → FixedBytes 32) :
    (∀ entropy, decodeRecoveryWords table sha256 (encodeRecoveryWords table sha256 entropy) = some entropy) ∧
    (∀ words entropy, decodeRecoveryWords table sha256 words = some entropy →
      words = encodeRecoveryWords table sha256 entropy) ∧
    ∀ words words' entropy, decodeRecoveryWords table sha256 words = some entropy →
      decodeRecoveryWords table sha256 words' = some entropy → words = words' := by
  refine ⟨decodeRecoveryWords_encode table sha256, fun words entropy => encodeRecoveryWords_of_decode, ?_⟩
  intro words words' entropy h h'
  exact (encodeRecoveryWords_of_decode h).trans (encodeRecoveryWords_of_decode h').symm

/-! ### A phrase over a table of numbers -/

section Sample

def sampleWord (index : Nat) : Bytes := [UInt8.ofNat (index / 256), UInt8.ofNat (index % 256)]

theorem sampleWord_lt {i j : Nat} (hj : j < 2048) (h : i < j) : sampleWord i < sampleWord j := by
  have hhigh (n : Nat) (hn : n < 2048) : (UInt8.ofNat (n / 256)).toNat = n / 256 :=
    UInt8.toNat_ofNat_of_lt' (show n / 256 < 2 ^ 8 by omega)
  have hlow (n : Nat) : (UInt8.ofNat (n % 256)).toNat = n % 256 :=
    UInt8.toNat_ofNat_of_lt' (Nat.mod_lt n (by decide))
  rw [sampleWord, sampleWord, List.cons_lt_cons_iff, List.cons_lt_cons_iff, UInt8.lt_iff_toNat_lt,
    UInt8.lt_iff_toNat_lt, ← UInt8.toNat_inj, hhigh i (by omega), hhigh j hj, hlow, hlow]
  omega

def sampleTable : WordList where
  words := (List.range 2048).map sampleWord
  length := by rw [List.length_map, List.length_range]
  sorted := by
    refine List.pairwise_map.mpr (List.Pairwise.imp_of_mem ?_ (List.pairwise_lt_range))
    intro i j _ hj h
    exact sampleWord_lt (List.mem_range.mp hj) h

theorem sampleTable_getD {index : Nat} (h : index < 2048) : sampleTable.words.getD index [] = sampleWord index := by
  have hlen : index < sampleTable.words.length := h.trans_eq sampleTable.length.symm
  rw [List.getD_eq_getElem _ _ hlen]
  simp [sampleTable]

/-- The first byte of the hash of 32 zeros is `0x66`. -/
def sampleDigest (_ : Bytes) : FixedBytes 32 := FixedBytes.leading 31 0x66

def sampleEntropy : FixedBytes 32 := FixedBytes.zero 32

def samplePhrase : RecoveryWords := ⟨List.replicate 23 (sampleWord 0) ++ [sampleWord 102], rfl⟩

/-- The phrase of 256 zero bits: the first word of the table 23 times, then the word of the checksum. -/
theorem recoveryPhrase_codec_samplePhrase :
    decodeRecoveryWords sampleTable sampleDigest samplePhrase = some sampleEntropy ∧
      ∀ words, decodeRecoveryWords sampleTable sampleDigest words = some sampleEntropy → words = samplePhrase := by
  obtain ⟨hdecode, -, hunique⟩ := recoveryPhrase_codec sampleTable sampleDigest
  have hindices : (List.range 24).map (recoveryIndex sampleEntropy.1 (sampleDigest sampleEntropy.1).1) =
      List.replicate 23 0 ++ [102] := by
    decide
  have hphrase : encodeRecoveryWords sampleTable sampleDigest sampleEntropy = samplePhrase := by
    apply Subtype.ext
    show (List.range 24).map (fun word => sampleTable.words.getD _ []) = _
    rw [← Function.comp_def (fun index => sampleTable.words.getD index []), ← List.map_map, hindices]
    simp only [List.map_append, List.map_replicate, List.map_singleton]
    rw [sampleTable_getD (by decide), sampleTable_getD (by decide)]
    rfl
  have hsample := hphrase ▸ hdecode sampleEntropy
  exact ⟨hsample, fun words hwords => hunique words samplePhrase sampleEntropy hwords hsample⟩

end Sample

end Cybou
