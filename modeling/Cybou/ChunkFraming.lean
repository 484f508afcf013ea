import Cybou.EncryptedChunk

/-! # Framed chunks and the sizes of what is stored

`encrypted_chunk.cpp`, the size checks of `finalized_chunk_store.cpp`.

The writer picks one of two neighbouring buckets at random; the reader takes any bucket
that is not too large for the length in the frame.  Whatever is drawn, the frame reads
back, and the stored bytes are of a size that no check refuses.
-/

namespace Cybou

open Library

/-! ### Frames that read back -/

variable {size : Nat}

theorem le_of_mem_buckets (h : size ∈ PAD_BUCKETS) : 1024 ≤ size ∧ size ≤ 512 * 1024 := by
  simp only [PAD_BUCKETS, List.mem_cons, List.not_mem_nil, or_false] at h
  omega

theorem validStoredSize_of_bucket (h : size ∈ PAD_BUCKETS) :
    validStoredSize (ENCRYPTED_CHUNK_HEADER_SIZE + size + CHACHA20_POLY1305_TAG_SIZE) = true := by
  obtain ⟨hmin, hmax⟩ := le_of_mem_buckets h
  simp only [validStoredSize, Bool.and_eq_true, decide_eq_true_eq]
  unfold ENCRYPTED_CHUNK_MIN_STORED_BYTES ENCRYPTED_CHUNK_MAX_STORED_BYTES CHACHA20_POLY1305_TAG_SIZE
  omega

section

variable [ChunkCipher]

/-- What `EncryptChunk` makes of a plaintext: a frame of one of the buckets, sealed behind its
    header, that reads back and that no check refuses for its size. -/
structure Framed (network : NetworkBinding) (contentKey : ContentKey) (plaintext : Bytes)
    (chunk : EncryptedChunk) (frame : Bytes) : Prop where
  bucket : frame.length ∈ PAD_BUCKETS
  fits : 4 + plaintext.length ≤ frame.length
  read : readFrameLength frame = some plaintext.length
  sealed : ∃ salt nonce, chunk.storedBytes = chunkHeader salt nonce ++ ChunkCipher.encrypt
    (deriveChunkKey contentKey salt network) nonce (makeAad (chunkHeader salt nonce) network) frame
  id : chunk.id = computeChunkId chunk.storedBytes
  decrypts : decryptChunk network contentKey chunk.id chunk.storedBytes = some plaintext
  stored : ENCRYPTED_CHUNK_MIN_STORED_BYTES ≤ chunk.storedBytes.length ∧
    chunk.storedBytes.length ≤ ENCRYPTED_CHUNK_MAX_STORED_BYTES
  admitted : ∀ (store : FinalizedChunkStore) (blobs : ChunkBlobStore) (request : ChunkPutRequest)
    (outcome : ChunkPutOutcome), request.chunkId = chunk.id → request.storedBytes = chunk.storedBytes →
      (store.putChunk blobs request outcome).1 = .invalid →
        request.publicationOperationId.isNull = true ∨ request.lookup.isNone = true

theorem blobs_put_ne_invalid {blobs : ChunkBlobStore} {id : ChunkId} {storedBytes : Bytes} {outcome : BlobPutOutcome}
    (hid : isZero id.1 = false) (hsize : validStoredSize storedBytes.length = true)
    (hhash : computeChunkId storedBytes = id) : (blobs.put id storedBytes outcome).1 ≠ .invalid := by
  have hok : ¬(isZero id.1 = true ∨ validStoredSize storedBytes.length = false ∨ computeChunkId storedBytes ≠ id) := by
    simp [hid, hsize, hhash]
  rw [ChunkBlobStore.put, if_neg hok]
  split
  · split
    · split_ifs <;> simp
    · dsimp only
      split_ifs <;> simp
  · split_ifs <;> simp

variable {store : FinalizedChunkStore} {blobs : ChunkBlobStore} {request : ChunkPutRequest}
  {outcome : ChunkPutOutcome}

theorem putAuthorized_ne_invalid (hid : isZero request.chunkId.1 = false)
    (hsize : validStoredSize request.storedBytes.length = true)
    (hhash : computeChunkId request.storedBytes = request.chunkId) :
    (store.putAuthorized blobs request outcome).1 ≠ .invalid := by
  have hput := @blobs_put_ne_invalid _ blobs request.chunkId request.storedBytes outcome.blob hid hsize hhash
  rcases hblob : blobs.put request.chunkId request.storedBytes outcome.blob with ⟨status, written⟩
  rw [hblob] at hput
  unfold FinalizedChunkStore.putAuthorized
  dsimp only
  split
  · simp
  split
  · simp
  split
  · simp
  split
  · simp
  rw [hblob]
  cases status with
  | invalid => exact absurd rfl hput
  | conflict => simp
  | storageError => simp
  | capacityExceeded => simp
  | stored =>
    dsimp only
    split
    · simp
    · cases outcome.fate <;> simp
  | alreadyStored =>
    dsimp only
    split
    · simp
    · cases outcome.fate <;> simp

theorem putChunk_invalid (hsize : validStoredSize request.storedBytes.length = true)
    (hhash : computeChunkId request.storedBytes = request.chunkId)
    (hinvalid : (store.putChunk blobs request outcome).1 = .invalid) :
    request.publicationOperationId.isNull = true ∨ request.lookup.isNone = true := by
  have hid : isZero request.chunkId.1 = false := by
    rw [← hhash]
    exact ChunkCipher.blake3_ne_null _
  by_contra hbeside
  obtain ⟨hpublication, hlookup⟩ := not_or.mp hbeside
  rw [FinalizedChunkStore.putChunk, if_neg (by simp [hpublication, hlookup, hid, hsize, hhash])] at hinvalid
  split at hinvalid
  · cases hinvalid
  · cases hinvalid
  · split_ifs at hinvalid
    · exact putAuthorized_ne_invalid hid hsize hhash hinvalid

theorem framed_of_sealed {network : NetworkBinding} {contentKey : ContentKey} {salt : FixedBytes 32}
    {nonce : FixedBytes 12} {plaintext padding frame : Bytes} {bucket : Nat} {chunk : EncryptedChunk}
    (hsize : plaintext.length ≤ ENCRYPTED_CHUNK_MAX_PLAINTEXT_BYTES)
    (hadmits : Admits (4 + plaintext.length) bucket) (hlength : frame.length = bucket)
    (hframe : frame = frameLength plaintext.length ++ plaintext ++ padding)
    (hstored : chunk.storedBytes = chunkHeader salt nonce ++ ChunkCipher.encrypt
      (deriveChunkKey contentKey salt network) nonce (makeAad (chunkHeader salt nonce) network) frame)
    (hid : chunk.id = computeChunkId chunk.storedBytes) : Framed network contentKey plaintext chunk frame := by
  have htotal : chunk.storedBytes.length = ENCRYPTED_CHUNK_HEADER_SIZE + frame.length + CHACHA20_POLY1305_TAG_SIZE := by
    rw [hstored, List.length_append, length_chunkHeader, ChunkCipher.length_encrypt, Nat.add_assoc]
  have hbucket : frame.length ∈ PAD_BUCKETS := by
    rw [hlength]
    exact hadmits.isBucket
  have hvalid : validStoredSize chunk.storedBytes.length = true := by
    rw [htotal]
    exact validStoredSize_of_bucket hbucket
  refine
    { bucket := hbucket
      fits := by rw [hlength]; exact hadmits.fits
      read := readFrameLength_frame hsize hadmits hlength hframe
      sealed := ⟨salt, nonce, hstored⟩
      id := hid
      decrypts := ?_
      stored := ?_
      admitted := ?_ }
  · rw [hid]
    exact decryptChunk_sealed hsize hadmits hlength hframe rfl hstored
  · simpa [validStoredSize] using hvalid
  · intro store blobs request outcome hchunk hbytes hinvalid
    refine putChunk_invalid ?_ ?_ hinvalid
    · rw [hbytes]
      exact hvalid
    · rw [hbytes, hchunk, hid]

/-- **Every chunk that is made can be stored and read.**  Whatever `RAND_bytes` gives, the
    frame is of a bucket that holds the plaintext, its length reads back, the stored bytes
    decrypt to the plaintext, and neither `DecryptChunk` nor `PutChunk` refuses them for
    their size; `EncryptChunk` fails only where a draw does. -/
theorem encryptChunk_framed {random : RandomBytes} {draws : Nat} {network : NetworkBinding} {contentKey : ContentKey}
    {plaintext : Bytes} (hsize : plaintext.length ≤ ENCRYPTED_CHUNK_MAX_PLAINTEXT_BYTES) :
    Proc.wp (encryptChunk random network contentKey plaintext)
      (fun chunk _ => ∃ frame, Framed network contentKey plaintext chunk frame)
      (fun fault _ => fault.Cause random) draws := by
  refine Proc.wp_mono (encryptChunk_draws hsize) (fun chunk _ hchunk => ?_) (fun _ _ hcause => hcause)
  obtain ⟨bucket, salt, nonce, padding, frame, hadmits, hlength, hmade, hstored, hid⟩ := hchunk
  exact ⟨frame, framed_of_sealed hsize hadmits hlength hmade hstored hid⟩

end

section Sample

attribute [local instance] ChunkCipher.sample

theorem encryptChunk_framed_sample :
    ([1, 2, 3] : Bytes).length ≤ ENCRYPTED_CHUNK_MAX_PLAINTEXT_BYTES ∧
      Proc.wp (encryptChunk (fun _ n => some (FixedBytes.zero n)) (FixedBytes.zero 32) (FixedBytes.zero 32) [1, 2, 3])
        (fun chunk _ => ∃ frame, Framed (FixedBytes.zero 32) (FixedBytes.zero 32) [1, 2, 3] chunk frame)
        (fun fault _ => fault.Cause fun _ n => some (FixedBytes.zero n)) 0 :=
  ⟨by decide, encryptChunk_framed (by decide)⟩

end Sample

end Cybou
