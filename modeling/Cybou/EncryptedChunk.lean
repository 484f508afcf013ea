import Cybou.Library.Proc
import Cybou.ChunkStore

/-! # One encrypted chunk (`encrypted_chunk.cpp`, `crypto/hkdf_sha256.cpp`, `crypto/chacha20_poly1305.cpp`)

A chunk is a frame of one of six sizes, sealed under a key derived from the
content key and a fresh salt.  The frame starts with the length of the plaintext
and ends in random bytes.  Every random byte comes from `RAND_bytes`, whose
answers are an argument of the model, so that what is proved holds of every
sequence of draws.
-/

namespace Cybou

open Library

/-! ### Random bytes and ciphers -/

/-- The answers of `RAND_bytes`: what the call of a given number returns for a given
    size, nothing where it fails. -/
abbrev RandomBytes := Nat → (n : Nat) → Option (FixedBytes n)

abbrev ContentKey := FixedBytes 32

abbrev NetworkBinding := FixedBytes 32

def CHACHA20_POLY1305_NONCE_SIZE : Nat := 12

def CHACHA20_POLY1305_TAG_SIZE : Nat := 16

/-- What the chunk format asks of OpenSSL. -/
class ChunkCipher extends Crypto where
  /-- No preimage of the reserved all-zero digest is known or used. -/
  blake3_ne_null : ∀ b, (blake3 b).isNull = false
  /-- HKDF-SHA-256 of key material, salt and info, 32 bytes long. -/
  hkdfSha256 : Bytes → Bytes → Bytes → FixedBytes 32
  /-- ChaCha20-Poly1305 of key, nonce, associated data and plaintext: ciphertext and tag. -/
  encrypt : FixedBytes 32 → FixedBytes 12 → Bytes → Bytes → Bytes
  decrypt : FixedBytes 32 → FixedBytes 12 → Bytes → Bytes → Option Bytes
  length_encrypt : ∀ key nonce aad plaintext,
    (encrypt key nonce aad plaintext).length = plaintext.length + CHACHA20_POLY1305_TAG_SIZE
  decrypt_encrypt : ∀ key nonce aad plaintext,
    decrypt key nonce aad (encrypt key nonce aad plaintext) = some plaintext

/-- A cipher to evaluate the model with: the plaintext and a tag of zeros. -/
@[reducible] def ChunkCipher.sample : ChunkCipher where
  toCrypto := Crypto.sample
  blake3_ne_null _ := rfl
  hkdfSha256 _ _ _ := FixedBytes.zero 32
  encrypt _ _ _ plaintext := plaintext ++ List.replicate CHACHA20_POLY1305_TAG_SIZE 0
  decrypt _ _ _ sealed := some (sealed.take (sealed.length - CHACHA20_POLY1305_TAG_SIZE))
  length_encrypt _ _ _ plaintext := by simp
  decrypt_encrypt _ _ _ plaintext := by simp

/-! ### Frames -/

def ENCRYPTED_CHUNK_MAX_PLAINTEXT_BYTES : Nat := 512 * 1024 - 4

def ENCRYPTED_CHUNK_MAX_RANDOM_PADDING_BYTES : Nat := 256 * 1024

def PAD_BUCKETS : List Nat := [1024, 4096, 16 * 1024, 64 * 1024, 256 * 1024, 512 * 1024]

def bucketFor (frameBytes : Nat) : Option Nat := PAD_BUCKETS.find? fun size => decide (frameBytes ≤ size)

def bucketsFrom (frameBytes : Nat) : List Nat :=
  PAD_BUCKETS.dropWhile fun size => decide (size < frameBytes)

def isPadBucket (size : Nat) : Bool := decide (size ∈ PAD_BUCKETS)

/-- The four bytes that `MakeFrame` starts with. -/
def frameLength (length : Nat) : Bytes := (le32Of length).reverse

def readFrameLength (frame : Bytes) : Option Nat :=
  if frame.length < 4 then none
  else
    let length := leNat (frame.take 4).reverse
    if length > ENCRYPTED_CHUNK_MAX_PLAINTEXT_BYTES ∨ length > frame.length - 4 then none
    else
      match bucketFor (4 + length) with
      | none => none
      | some minimumBucket =>
        if frame.length < minimumBucket ∨ isPadBucket frame.length = false ∨
            frame.length - 4 - length > ENCRYPTED_CHUNK_MAX_RANDOM_PADDING_BYTES then none
        else some length

theorem bucketFor_eq_head (n : Nat) : bucketFor n = (bucketsFrom n).head? := by
  unfold bucketFor bucketsFrom
  induction PAD_BUCKETS with
  | nil => rfl
  | cons size sizes ih =>
    rw [List.find?_cons, List.dropWhile_cons]
    by_cases h : n ≤ size
    · have hnot : ¬size < n := by omega
      simp [h, hnot]
    · have hlt : size < n := by omega
      simp [h, hlt, ih]

theorem bucketsFrom_spec {n : Nat} (h : n ≤ 512 * 1024) :
    ∃ first rest, bucketsFrom n = first :: rest ∧ n ≤ first ∧
      first - n ≤ ENCRYPTED_CHUNK_MAX_RANDOM_PADDING_BYTES ∧ first ∈ PAD_BUCKETS ∧
      ∀ next ∈ rest, next ∈ PAD_BUCKETS ∧ first ≤ next := by
  unfold bucketsFrom ENCRYPTED_CHUNK_MAX_RANDOM_PADDING_BYTES
  simp only [PAD_BUCKETS, List.dropWhile_cons, decide_eq_true_eq, List.dropWhile_nil]
  split_ifs
  · omega
  all_goals exact ⟨_, _, rfl, by omega, by omega, by simp, by simp⟩

/-! ### Drawing -/

/-- Why a computation that draws gave nothing. -/
inductive DrawFault where
  /-- A check of the code failed. -/
  | refused
  /-- The call of `RAND_bytes` with this number failed. -/
  | random (draw size : Nat)
  /-- The content key drawn is the null one. -/
  | zeroKey
deriving DecidableEq, Repr

/-- A computation that draws; its state counts the calls of `RAND_bytes`. -/
abbrev Drawing := Proc DrawFault Nat

def randBytes (random : RandomBytes) (n : Nat) : Drawing (FixedBytes n) := do
  let draw ← get
  set (draw + 1)
  match random draw n with
  | none => throw (.random draw n)
  | some bytes => return bytes

def randomizedBucketFor (random : RandomBytes) (frameBytes : Nat) : Drawing Nat :=
  match bucketsFrom frameBytes with
  | [] => throw .refused
  | [first] => return first
  | first :: next :: _ =>
    if next - frameBytes > ENCRYPTED_CHUNK_MAX_RANDOM_PADDING_BYTES then return first
    else do
      let chooseLarger ← randBytes random 1
      return if (chooseLarger.1.headD 0) % 2 ≠ 0 then next else first

def makeFrame (random : RandomBytes) (encoded : Bytes) (bucket : Nat) : Drawing Bytes := do
  let paddingSize := bucket - 4 - encoded.length
  if paddingSize = 0 then return frameLength encoded.length ++ encoded
  else
    let padding ← randBytes random paddingSize
    return frameLength encoded.length ++ encoded ++ padding.1

def generateContentKey (random : RandomBytes) : Drawing ContentKey := do
  let key ← randBytes random 32
  if isZero key.1 = true then throw .zeroKey else return key

/-! ### Encryption -/

section

variable [ChunkCipher]

structure EncryptedChunk where
  id : ChunkId
  storedBytes : Bytes
deriving DecidableEq, Repr

def MAGIC : Bytes := ascii "CYCH"

def chunkHeader (salt : FixedBytes 32) (nonce : FixedBytes 12) : Bytes := MAGIC ++ salt.1 ++ nonce.1

def makeAad (header : Bytes) (network : NetworkBinding) : Bytes :=
  ascii "CYBOU/CHUNK-AAD" ++ header ++ network.1

def deriveChunkKey (contentKey : ContentKey) (salt : FixedBytes 32) (network : NetworkBinding) :
    FixedBytes 32 :=
  ChunkCipher.hkdfSha256 contentKey.1 salt.1 (ascii "CYBOU/CHUNK-KEY" ++ network.1)

def encryptChunk (random : RandomBytes) (network : NetworkBinding) (contentKey : ContentKey)
    (plaintext : Bytes) : Drawing EncryptedChunk := do
  if plaintext.length > ENCRYPTED_CHUNK_MAX_PLAINTEXT_BYTES then throw .refused
  else
    let bucket ← randomizedBucketFor random (4 + plaintext.length)
    let salt ← randBytes random 32
    let nonce ← randBytes random CHACHA20_POLY1305_NONCE_SIZE
    let chunkKey := deriveChunkKey contentKey salt network
    let header := chunkHeader salt nonce
    let frame ← makeFrame random plaintext bucket
    let storedBytes := header ++ ChunkCipher.encrypt chunkKey nonce (makeAad header network) frame
    return { id := computeChunkId storedBytes, storedBytes }

def hasValidHeader (storedBytes : Bytes) : Bool :=
  decide (ENCRYPTED_CHUNK_HEADER_SIZE + CHACHA20_POLY1305_TAG_SIZE ≤ storedBytes.length) &&
    decide (storedBytes.length ≤ ENCRYPTED_CHUNK_MAX_STORED_BYTES) && decide (storedBytes.take 4 = MAGIC)

def decryptChunk (network : NetworkBinding) (contentKey : ContentKey) (expectedId : ChunkId)
    (storedBytes : Bytes) : Option Bytes :=
  if hasValidHeader storedBytes = false then none
  else if computeChunkId storedBytes ≠ expectedId then none
  else
    let encryptedFrame := storedBytes.drop ENCRYPTED_CHUNK_HEADER_SIZE
    if isPadBucket (encryptedFrame.length - CHACHA20_POLY1305_TAG_SIZE) = false then none
    else do
      let (salt, rest) ← Reader.fixed 32 (storedBytes.drop 4)
      let (nonce, _) ← Reader.fixed 12 rest
      let header := storedBytes.take ENCRYPTED_CHUNK_HEADER_SIZE
      let frame ← ChunkCipher.decrypt (deriveChunkKey contentKey salt network) nonce
        (makeAad header network) encryptedFrame
      let encodedSize ← readFrameLength frame
      return (frame.drop 4).take encodedSize

/-! ### What is encrypted decrypts -/

def DrawFault.Cause (random : RandomBytes) : DrawFault → Prop
  | .refused => False
  | .random draw size => random draw size = none
  | .zeroKey => ∃ draw key, random draw 32 = some key ∧ isZero key.1 = true

/-- A bucket in which a frame of `n` bytes may be read back. -/
structure Admits (n bucket : Nat) : Prop where
  isBucket : bucket ∈ PAD_BUCKETS
  fits : n ≤ bucket
  padding : bucket - n ≤ ENCRYPTED_CHUNK_MAX_RANDOM_PADDING_BYTES
  minimal : ∃ minimum, bucketFor n = some minimum ∧ minimum ≤ bucket

section

variable {random : RandomBytes} {draws : Nat}

omit [ChunkCipher] in
theorem randBytes_spec (n : Nat) :
    Proc.wp (randBytes random n) (fun bytes _ => random draws n = some bytes)
      (fun fault _ => fault.Cause random) draws := by
  unfold randBytes
  rw [Proc.wp_get_bind, Proc.wp_set_bind]
  split
  · next h => exact h
  · next h => exact h

omit [ChunkCipher] in
theorem randomizedBucketFor_spec {n : Nat} (h : n ≤ 512 * 1024) :
    Proc.wp (randomizedBucketFor random n) (fun bucket _ => Admits n bucket)
      (fun fault _ => fault.Cause random) draws := by
  obtain ⟨first, rest, hfrom, hfits, hpadding, hbucket, hrest⟩ := bucketsFrom_spec h
  have hfirst : bucketFor n = some first := by rw [bucketFor_eq_head, hfrom, List.head?_cons]
  have hadmits : Admits n first := ⟨hbucket, hfits, hpadding, first, hfirst, le_refl first⟩
  unfold randomizedBucketFor
  rw [hfrom]
  cases rest with
  | nil => exact hadmits
  | cons next rest =>
    have hnext := hrest next List.mem_cons_self
    refine Proc.wp_refuse (fun _ => hadmits) fun hnear => ?_
    rw [Proc.wp_bind]
    refine Proc.wp_mono (randBytes_spec 1) (fun chooseLarger _ _ => ?_) (fun _ _ hcause => hcause)
    rw [Proc.wp_pure]
    split
    · exact ⟨hnext.1, hfits.trans hnext.2, not_lt.mp hnear, first, hfirst, hnext.2⟩
    · exact hadmits

variable {frame encoded padding plaintext : Bytes} {bucket : Nat}

omit [ChunkCipher] in
theorem makeFrame_spec (h : 4 + encoded.length ≤ bucket) :
    Proc.wp (makeFrame random encoded bucket)
      (fun frame _ => ∃ padding, frame = frameLength encoded.length ++ encoded ++ padding ∧
        frame.length = bucket)
      (fun fault _ => fault.Cause random) draws := by
  have hfour : (frameLength encoded.length).length = 4 := by simp [frameLength]
  unfold makeFrame
  refine Proc.wp_refuse (fun hnone => ?_) fun _ => ?_
  · refine ⟨[], (List.append_nil _).symm, ?_⟩
    rw [List.length_append, hfour]
    omega
  · rw [Proc.wp_bind]
    refine Proc.wp_mono (randBytes_spec _) (fun padding _ _ => ?_) (fun _ _ hcause => hcause)
    refine ⟨padding.1, rfl, ?_⟩
    rw [List.length_append, List.length_append, hfour, padding.2]
    omega

omit [ChunkCipher] in
theorem readFrameLength_frame (hsize : encoded.length ≤ ENCRYPTED_CHUNK_MAX_PLAINTEXT_BYTES)
    (hadmits : Admits (4 + encoded.length) bucket) (hlength : frame.length = bucket)
    (hframe : frame = frameLength encoded.length ++ encoded ++ padding) :
    readFrameLength frame = some encoded.length := by
  have hfour : (frameLength encoded.length).length = 4 := by simp [frameLength]
  have hread : leNat (frame.take 4).reverse = encoded.length := by
    rw [hframe, List.append_assoc, ← hfour, List.take_left, frameLength, List.reverse_reverse, le32Of,
      le32, leNat_leBytes (UInt32.toNat_lt _), UInt32.toNat_ofNat_of_lt']
    unfold ENCRYPTED_CHUNK_MAX_PLAINTEXT_BYTES at hsize
    have hsmall : 512 * 1024 - 4 < UInt32.size := by decide
    omega
  have hfits := hadmits.fits
  have hpadding := hadmits.padding
  obtain ⟨minimum, hminimum, hle⟩ := hadmits.minimal
  have hbucket : isPadBucket frame.length = true := by
    rw [hlength, isPadBucket, decide_eq_true_eq]
    exact hadmits.isBucket
  unfold readFrameLength
  rw [if_neg (by omega), hread]
  dsimp only
  rw [if_neg (by omega), hminimum]
  dsimp only
  rw [if_neg]
  rw [hbucket]
  simp only [Bool.true_eq_false, false_or]
  omega

omit [ChunkCipher] in
theorem length_chunkHeader (salt : FixedBytes 32) (nonce : FixedBytes 12) :
    (chunkHeader salt nonce).length = ENCRYPTED_CHUNK_HEADER_SIZE := by
  have hmagic : MAGIC.length = 4 := rfl
  rw [chunkHeader, List.length_append, List.length_append, salt.2, nonce.2, hmagic]
  rfl

variable {network : NetworkBinding} {contentKey : ContentKey}

/-- A chunk made of a well-formed frame decrypts to the plaintext of the frame. -/
theorem decryptChunk_sealed {salt : FixedBytes 32} {nonce : FixedBytes 12} {enciphered storedBytes : Bytes}
    (hsize : plaintext.length ≤ ENCRYPTED_CHUNK_MAX_PLAINTEXT_BYTES)
    (hadmits : Admits (4 + plaintext.length) bucket) (hlength : frame.length = bucket)
    (hframe : frame = frameLength plaintext.length ++ plaintext ++ padding)
    (henciphered : enciphered = ChunkCipher.encrypt (deriveChunkKey contentKey salt network) nonce
      (makeAad (chunkHeader salt nonce) network) frame)
    (hstored : storedBytes = chunkHeader salt nonce ++ enciphered) :
    decryptChunk network contentKey (computeChunkId storedBytes) storedBytes = some plaintext := by
  have hheader := length_chunkHeader salt nonce
  have hsealed : enciphered.length = bucket + CHACHA20_POLY1305_TAG_SIZE := by
    rw [henciphered, ChunkCipher.length_encrypt, hlength]
  have hbucket : bucket ≤ 512 * 1024 := by
    have hmem := hadmits.isBucket
    simp only [PAD_BUCKETS, List.mem_cons, List.not_mem_nil, or_false] at hmem
    omega
  have htotal : storedBytes.length =
      ENCRYPTED_CHUNK_HEADER_SIZE + (bucket + CHACHA20_POLY1305_TAG_SIZE) := by
    rw [hstored, List.length_append, hheader, hsealed]
  have htake : storedBytes.take ENCRYPTED_CHUNK_HEADER_SIZE = chunkHeader salt nonce := by
    rw [hstored, ← hheader, List.take_left]
  have hdrop : storedBytes.drop ENCRYPTED_CHUNK_HEADER_SIZE = enciphered := by
    rw [hstored, ← hheader, List.drop_left]
  have hmagic : MAGIC.length = 4 := rfl
  have hparts : storedBytes = MAGIC ++ (salt.1 ++ (nonce.1 ++ enciphered)) := by
    rw [hstored, chunkHeader, List.append_assoc, List.append_assoc]
  have hvalid : hasValidHeader storedBytes = true := by
    have hfour : storedBytes.take 4 = MAGIC := by rw [hparts, ← hmagic, List.take_left]
    simp only [hasValidHeader, Bool.and_eq_true, decide_eq_true_eq, htotal, hfour, and_true]
    unfold ENCRYPTED_CHUNK_MAX_STORED_BYTES CHACHA20_POLY1305_TAG_SIZE
    omega
  have hrest : storedBytes.drop 4 = salt.1 ++ (nonce.1 ++ enciphered) := by
    rw [hparts, ← hmagic, List.drop_left]
  have hsalt := (Reader.fixed_exact 32 (storedBytes.drop 4) salt (nonce.1 ++ enciphered)).mpr
    ⟨trivial, hrest⟩
  have hnonce := (Reader.fixed_exact 12 (nonce.1 ++ enciphered) nonce enciphered).mpr ⟨trivial, rfl⟩
  have hpad : isPadBucket (bucket + CHACHA20_POLY1305_TAG_SIZE - CHACHA20_POLY1305_TAG_SIZE) = true := by
    rw [Nat.add_sub_cancel, isPadBucket, decide_eq_true_eq]
    exact hadmits.isBucket
  have hfour : (frameLength plaintext.length).length = 4 := by simp [frameLength]
  have hpayload : (frame.drop 4).take plaintext.length = plaintext := by
    rw [hframe, List.append_assoc, ← hfour, List.drop_left, List.take_left]
  have hopen : ChunkCipher.decrypt (deriveChunkKey contentKey salt network) nonce
      (makeAad (chunkHeader salt nonce) network) enciphered = some frame := by
    rw [henciphered, ChunkCipher.decrypt_encrypt]
  unfold decryptChunk
  rw [hvalid, if_neg (by decide), if_neg (by simp), hdrop]
  simp only [hsealed, hpad, Bool.true_eq_false, if_false, hsalt, hnonce, htake, hopen,
    readFrameLength_frame hsize hadmits hlength hframe, hpayload, Option.bind_eq_bind,
    Option.bind_some, Option.pure_def]

/-- What is drawn for a chunk, and the frame that is sealed under it. -/
theorem encryptChunk_draws (hsize : plaintext.length ≤ ENCRYPTED_CHUNK_MAX_PLAINTEXT_BYTES) :
    Proc.wp (encryptChunk random network contentKey plaintext)
      (fun chunk _ => ∃ bucket salt nonce padding frame, Admits (4 + plaintext.length) bucket ∧
        frame.length = bucket ∧ frame = frameLength plaintext.length ++ plaintext ++ padding ∧
        chunk.storedBytes = chunkHeader salt nonce ++ ChunkCipher.encrypt
          (deriveChunkKey contentKey salt network) nonce (makeAad (chunkHeader salt nonce) network) frame ∧
        chunk.id = computeChunkId chunk.storedBytes)
      (fun fault _ => fault.Cause random) draws := by
  have hframe : 4 + plaintext.length ≤ 512 * 1024 := by
    unfold ENCRYPTED_CHUNK_MAX_PLAINTEXT_BYTES at hsize
    omega
  unfold encryptChunk
  rw [if_neg (not_lt.mpr hsize), Proc.wp_bind]
  refine Proc.wp_mono (randomizedBucketFor_spec hframe) (fun bucket _ hadmits => ?_)
    (fun _ _ hcause => hcause)
  rw [Proc.wp_bind]
  refine Proc.wp_mono (randBytes_spec 32) (fun salt _ _ => ?_) (fun _ _ hcause => hcause)
  rw [Proc.wp_bind]
  refine Proc.wp_mono (randBytes_spec _) (fun nonce _ _ => ?_) (fun _ _ hcause => hcause)
  dsimp only
  rw [Proc.wp_bind]
  refine Proc.wp_mono (makeFrame_spec hadmits.fits) (fun frame _ hmade => ?_) (fun _ _ hcause => hcause)
  rcases hmade with ⟨padding, hmade, hlength⟩
  exact ⟨bucket, salt, nonce, padding, frame, hadmits, hlength, hmade, rfl, rfl⟩

theorem encryptChunk_spec (hsize : plaintext.length ≤ ENCRYPTED_CHUNK_MAX_PLAINTEXT_BYTES) :
    Proc.wp (encryptChunk random network contentKey plaintext)
      (fun chunk _ => chunk.id = computeChunkId chunk.storedBytes ∧
        decryptChunk network contentKey chunk.id chunk.storedBytes = some plaintext)
      (fun fault _ => fault.Cause random) draws := by
  refine Proc.wp_mono (encryptChunk_draws hsize) (fun chunk _ hchunk => ?_) (fun _ _ hcause => hcause)
  obtain ⟨bucket, salt, nonce, padding, frame, hadmits, hlength, hmade, hstored, hid⟩ := hchunk
  rw [hid]
  exact ⟨rfl, decryptChunk_sealed hsize hadmits hlength hmade rfl hstored⟩

omit [ChunkCipher] in
theorem generateContentKey_spec :
    Proc.wp (generateContentKey random) (fun _ _ => True) (fun fault _ => fault.Cause random) draws := by
  unfold generateContentKey
  rw [Proc.wp_bind]
  refine Proc.wp_mono (randBytes_spec 32) (fun key _ hdrawn => ?_) (fun _ _ hcause => hcause)
  by_cases hzero : isZero key.1 = true
  · rw [if_pos hzero]
    exact ⟨draws, key, hdrawn, hzero⟩
  · rw [if_neg hzero]
    trivial

end

end

end Cybou
