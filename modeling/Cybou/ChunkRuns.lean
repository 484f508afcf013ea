import Cybou.ChunkNode

/-! # What holds of a provider's chunks in every run (`finalized_chunk_store.cpp`, `chunk_retention.cpp`)

Admission can revive a chunk whose purge is half done, and removal and metadata are
separate durable steps.  `StoreSound` allows exactly one gap between the rows and
the blobs, a purge row whose blob is already gone; `NodeSound` adds that the
constructor still has to come to every such row.
-/

namespace Cybou

open Library

/-! ### What the blob store does -/

namespace ChunkBlobStore

variable {blobs blobs' : ChunkBlobStore} {id : ChunkId} {storedBytes : Bytes}

theorem remove_cases {unlinked removed : Bool} (hid : isZero id.1 = false)
    (h : blobs.remove id unlinked = (removed, blobs')) :
    (removed = true ∧ blobs' = Function.update blobs id none ∧ (blobs id ≠ none → unlinked = true)) ∨
      (removed = false ∧ blobs' = blobs ∧ blobs id ≠ none ∧ unlinked = false) := by
  unfold remove at h
  rw [if_neg (by simp [hid])] at h
  split at h
  next habsent =>
    obtain ⟨rfl, rfl⟩ := Prod.mk.inj h
    refine .inl ⟨rfl, ?_, fun hpresent => absurd habsent hpresent⟩
    rw [← habsent, Function.update_eq_self]
  next file hfile =>
    by_cases hunlinked : unlinked = true
    · rw [if_pos hunlinked] at h
      obtain ⟨rfl, rfl⟩ := Prod.mk.inj h
      exact .inl ⟨rfl, rfl, fun _ => hunlinked⟩
    · rw [if_neg hunlinked] at h
      obtain ⟨rfl, rfl⟩ := Prod.mk.inj h
      exact .inr ⟨rfl, rfl, by rw [hfile]; simp, by simpa using hunlinked⟩

theorem remove_of_ne {unlinked : Bool} {other : ChunkId} (hne : other ≠ id) :
    (blobs.remove id unlinked).2 other = blobs other := by
  unfold remove
  split
  · rfl
  split
  · rfl
  · split
    · exact Function.update_of_ne hne _ _
    · rfl

end ChunkBlobStore

theorem validStoredSize_lt {n : Nat} (h : validStoredSize n = true) : n < 2 ^ 64 := by
  have hmax : ENCRYPTED_CHUNK_MAX_STORED_BYTES = 524352 := rfl
  simp only [validStoredSize, Bool.and_eq_true, decide_eq_true_eq] at h
  omega

theorem toNat_storedSize {n : Nat} (h : validStoredSize n = true) : (UInt64.ofNat n).toNat = n :=
  UInt64.toNat_ofNat_of_lt' (validStoredSize_lt h)

namespace FinalizedChunkStore

variable {store store' : FinalizedChunkStore} {blobs blobs' : ChunkBlobStore}

/-! ### The invariant of the rows -/

/-- **The rows of the admission store and the blobs they are about.** -/
structure StoreSound (store : FinalizedChunkStore) (blobs : ChunkBlobStore) : Prop where
  /-- The counter is the sum of the sizes. -/
  counted : store.readCounter.toNat = store.chunks.sum fun _ size => size.toNat
  sized : ∀ id size, store.chunks.find? id = some size →
    isZero id.1 = false ∧ validStoredSize size.toNat = true
  /-- An association has a chunk row, which is not to be purged. -/
  associated : ∀ publication id proof, store.associations.find? (toLex (publication, id)) = some proof →
    store.chunks.find? id ≠ none ∧ store.purges.find? id = none
  purged : ∀ id size, store.purges.find? id = some size → store.chunks.find? id = some size
  /-- The blob of a chunk row is there, or a purge has deleted it. -/
  held : ∀ id size, store.chunks.find? id = some size →
    (∃ file, blobs id = some file ∧ file.length = size.toNat) ∨
      (blobs id = none ∧ store.purges.find? id ≠ none)

theorem StoreSound.of_blobs (h : store.StoreSound blobs)
    (hblobs : ∀ id size, store.chunks.find? id = some size → blobs' id = blobs id ∨
      ∃ file, blobs' id = some file ∧ file.length = size.toNat) : store.StoreSound blobs' where
  counted := h.counted
  sized := h.sized
  associated := h.associated
  purged := h.purged
  held id size hchunk := by
    rcases hblobs id size hchunk with hsame | hfile
    · rw [hsame]
      exact h.held id size hchunk
    · exact .inl hfile

theorem StoreSound.of_rows (h : store.StoreSound blobs) (hchunks : store'.chunks = store.chunks)
    (hassociations : store'.associations = store.associations) (hpurges : store'.purges = store.purges)
    (hbytes : store'.storageBytes = store.storageBytes) : store'.StoreSound blobs := by
  obtain ⟨hcounted, hsized, hassociated, hpurged, hheld⟩ := h
  constructor
  · rw [hchunks, readCounter, hbytes]
    exact hcounted
  · rw [hchunks]
    exact hsized
  · rw [hassociations, hchunks, hpurges]
    exact hassociated
  · rw [hpurges, hchunks]
    exact hpurged
  · rw [hchunks, hpurges]
    exact hheld

/-! ### Admission -/

theorem admit_purges (store : FinalizedChunkStore) (publication : Hash256) (id : ChunkId) (size : UInt64)
    (proof : Bytes) : (store.admitChunk publication id size proof).purges = store.purges.erase id := by
  unfold FinalizedChunkStore.admitChunk
  split <;> rfl

variable {id : ChunkId} {size : UInt64}

theorem admit_of_some (store : FinalizedChunkStore) (publication : Hash256)
    (proof : Bytes) (h : store.chunks.find? id = some size) :
    (store.admitChunk publication id size proof).chunks = store.chunks ∧
      (store.admitChunk publication id size proof).storageBytes = store.storageBytes := by
  rw [FinalizedChunkStore.admitChunk, if_pos (OrdMap.contains_of_find? h)]
  exact ⟨rfl, rfl⟩

theorem admit_of_none (store : FinalizedChunkStore) (publication : Hash256) (size : UInt64)
    (proof : Bytes) (h : store.chunks.find? id = none) :
    (store.admitChunk publication id size proof).chunks = store.chunks.set id size ∧
      (store.admitChunk publication id size proof).storageBytes = some (store.readCounter + size) := by
  have habsent : ¬store.chunks.contains id = true := by
    rw [OrdMap.contains_eq_false_iff.mpr h]
    exact Bool.false_ne_true
  rw [FinalizedChunkStore.admitChunk, if_neg habsent]
  exact ⟨rfl, rfl⟩

variable {publication : Hash256}

/-- **Admission keeps the rows sound**, also of a chunk whose purge is half done. -/
theorem StoreSound.admitChunk (h : store.StoreSound blobs)
    {proof file : Bytes} (hid : isZero id.1 = false) (hsize : validStoredSize size.toNat = true)
    (hexisting : store.chunks.find? id = some size ∨
      store.chunks.find? id = none ∧ store.readCounter.toNat + size.toNat < 2 ^ 64)
    (hfile : blobs id = some file) (hlength : file.length = size.toNat) :
    (store.admitChunk publication id size proof).StoreSound blobs := by
  have hself : (store.admitChunk publication id size proof).chunks.find? id = some size ∧
      (store.admitChunk publication id size proof).readCounter.toNat =
        (store.admitChunk publication id size proof).chunks.sum fun _ size => size.toNat := by
    rcases hexisting with hsome | ⟨hnone, hfits⟩
    · have hsame := store.admit_of_some publication proof hsome
      rw [hsame.1, readCounter, hsame.2]
      exact ⟨hsome, h.counted⟩
    · have hnew := store.admit_of_none publication size proof hnone
      rw [hnew.1, readCounter, hnew.2, OrdMap.sum_set_of_none hnone, ← h.counted, Option.getD_some,
        UInt64.toNat_add]
      exact ⟨OrdMap.find?_set_self .., Nat.mod_eq_of_lt hfits⟩
  have hother : ∀ other, other ≠ id →
      (store.admitChunk publication id size proof).chunks.find? other = store.chunks.find? other := by
    intro other hne
    rcases hexisting with hsome | ⟨hnone, -⟩
    · rw [(store.admit_of_some publication proof hsome).1]
    · rw [(store.admit_of_none publication size proof hnone).1, OrdMap.find?_set_of_ne _ _ hne]
  have hpurges := store.admit_purges publication id size proof
  refine ⟨hself.2, fun other size' hchunk => ?_, fun publication' other proof' hassociation => ?_,
    fun other size' hpurge => ?_, fun other size' hchunk => ?_⟩
  · by_cases heq : other = id
    · rw [heq, hself.1] at hchunk
      rw [heq, ← Option.some.inj hchunk]
      exact ⟨hid, hsize⟩
    · rw [hother other heq] at hchunk
      exact h.sized other size' hchunk
  · rw [hpurges, OrdMap.find?_erase]
    by_cases heq : other = id
    · rw [if_pos heq, heq, hself.1]
      exact ⟨by simp, rfl⟩
    · have hkey : toLex (publication', other) ≠ toLex (publication, id) :=
        fun hsame => heq (Prod.mk.inj (toLex.injective hsame)).2
      have hold : store.associations.find? (toLex (publication', other)) = some proof' := by
        rw [← hassociation]
        exact (OrdMap.find?_set_of_ne _ _ hkey).symm
      rw [if_neg heq, hother other heq]
      exact h.associated publication' other proof' hold
  · rw [hpurges, OrdMap.find?_erase] at hpurge
    by_cases heq : other = id
    · rw [if_pos heq] at hpurge
      cases hpurge
    · rw [if_neg heq] at hpurge
      rw [hother other heq]
      exact h.purged other size' hpurge
  · rw [hpurges, OrdMap.find?_erase]
    by_cases heq : other = id
    · rw [heq, hself.1] at hchunk
      rw [heq, ← Option.some.inj hchunk]
      exact .inl ⟨file, hfile, hlength⟩
    · rw [hother other heq] at hchunk
      rw [if_neg heq]
      exact h.held other size' hchunk

/-! ### Revocation -/

structure Revoked (store : FinalizedChunkStore) (publication : Hash256) (revoked : List ChunkId)
    (batch : FinalizedChunkStore) : Prop where
  chunks : batch.chunks = store.chunks
  storageBytes : batch.storageBytes = store.storageBytes
  /-- The associations of the chunks are gone, the others are as they were. -/
  erased : ∀ id ∈ revoked, batch.associations.find? (toLex (publication, id)) = none
  association : ∀ key proof, batch.associations.find? key = some proof →
    store.associations.find? key = some proof
  /-- A chunk is to be purged if it was, or if no other publication authorizes it. -/
  purge : ∀ id size, batch.purges.find? id = some size → store.purges.find? id = some size ∨
    id ∈ revoked ∧ store.shared publication id = false ∧ store.chunks.find? id = some size
  purgeKept : ∀ id, store.purges.find? id ≠ none → batch.purges.find? id ≠ none

/-- One turn of the loop of `PurgePublication`. -/
theorem Revoked.revoke {revoked : List ChunkId} {batch : FinalizedChunkStore}
    (h : store.Revoked publication revoked batch) (chunk : ChunkId) :
    store.Revoked publication (revoked ++ [chunk]) (store.revoke publication batch chunk) := by
  have herased : ∀ associations : OrdMap (Hash256 ×ₗ ChunkId) Bytes,
      associations = batch.associations.erase (toLex (publication, chunk)) →
      (∀ id ∈ revoked ++ [chunk], associations.find? (toLex (publication, id)) = none) ∧
        ∀ key proof, associations.find? key = some proof → store.associations.find? key = some proof := by
    intro associations hassociations
    rw [hassociations]
    refine ⟨fun id hmem => ?_, fun key proof hproof => ?_⟩
    · rw [OrdMap.find?_erase]
      by_cases hkey : toLex (publication, id) = toLex (publication, chunk)
      · rw [if_pos hkey]
      · rw [if_neg hkey]
        rcases List.mem_append.mp hmem with hmem | hmem
        · exact h.erased id hmem
        · rw [List.mem_singleton] at hmem
          exact absurd (by rw [hmem]) hkey
    · rw [OrdMap.find?_erase] at hproof
      by_cases hkey : key = toLex (publication, chunk)
      · rw [if_pos hkey] at hproof
        cases hproof
      · rw [if_neg hkey] at hproof
        exact h.association key proof hproof
  have hpurge : ∀ id size, batch.purges.find? id = some size → store.purges.find? id = some size ∨
      id ∈ revoked ++ [chunk] ∧ store.shared publication id = false ∧ store.chunks.find? id = some size := by
    intro id size hrow
    rcases h.purge id size hrow with hold | ⟨hmem, hrest⟩
    · exact .inl hold
    · exact .inr ⟨List.mem_append_left _ hmem, hrest⟩
  unfold FinalizedChunkStore.revoke
  dsimp only
  by_cases hshared : store.shared publication chunk = true
  · rw [if_pos hshared]
    exact ⟨h.chunks, h.storageBytes, (herased _ rfl).1, (herased _ rfl).2, hpurge, h.purgeKept⟩
  rw [if_neg hshared]
  cases hchunk : store.chunks.find? chunk with
  | none => exact ⟨h.chunks, h.storageBytes, (herased _ rfl).1, (herased _ rfl).2, hpurge, h.purgeKept⟩
  | some size =>
    refine ⟨h.chunks, h.storageBytes, (herased _ rfl).1, (herased _ rfl).2, fun id size' hrow => ?_,
      fun id hrow => ?_⟩
    · dsimp only at hrow
      rw [OrdMap.find?_set] at hrow
      by_cases heq : id = chunk
      · rw [if_pos heq] at hrow
        obtain rfl := Option.some.inj hrow
        rw [heq]
        exact .inr ⟨by simp, by simpa using hshared, hchunk⟩
      · rw [if_neg heq] at hrow
        exact hpurge id size' hrow
    · dsimp only
      rw [OrdMap.find?_set]
      by_cases heq : id = chunk
      · rw [if_pos heq]
        simp
      · rw [if_neg heq]
        exact h.purgeKept id hrow

theorem revoked_revokeAll (store : FinalizedChunkStore) (publication : Hash256) :
    store.Revoked publication (store.publicationChunks publication) (store.revokeAll publication) := by
  have hfold : ∀ (rest before : List ChunkId) (batch : FinalizedChunkStore),
      store.Revoked publication before batch →
      store.Revoked publication (before ++ rest) (rest.foldl (store.revoke publication) batch) := by
    intro rest
    induction rest with
    | nil =>
      intro before batch h
      rw [List.append_nil]
      exact h
    | cons chunk rest ih =>
      intro before batch h
      have hnext := ih (before ++ [chunk]) _ (h.revoke chunk)
      rwa [List.append_assoc, List.singleton_append] at hnext
  have hstart : store.Revoked publication [] store :=
    ⟨rfl, rfl, by simp, fun _ _ h => h, fun _ _ h => .inl h, fun _ h => h⟩
  exact hfold (store.publicationChunks publication) [] store hstart

/-- **A revocation keeps the rows sound.** -/
theorem StoreSound.revokeAll (h : store.StoreSound blobs) (publication : Hash256) :
    (store.revokeAll publication).StoreSound blobs := by
  obtain ⟨hchunks, hbytes, herased, hassociation, hpurge, hpurgeKept⟩ := store.revoked_revokeAll publication
  refine ⟨?_, ?_, fun publication' id proof hproof => ?_, fun id size hrow => ?_, fun id size hrow => ?_⟩
  · rw [hchunks, readCounter, hbytes]
    exact h.counted
  · rw [hchunks]
    exact h.sized
  · have hold := hassociation _ _ hproof
    obtain ⟨hrow, hnone⟩ := h.associated publication' id proof hold
    rw [hchunks]
    refine ⟨hrow, ?_⟩
    cases hcase : (store.revokeAll publication).purges.find? id with
    | none => rfl
    | some size =>
      rcases hpurge id size hcase with hwas | ⟨hmem, hunshared, -⟩
      · rw [hnone] at hwas
        cases hwas
      · -- the association that is left makes the chunk shared
        have hne : publication' ≠ publication := by
          intro heq
          rw [heq, herased id hmem] at hproof
          cases hproof
        have hshared : store.shared publication id = true := by
          rw [shared, List.any_eq_true]
          refine ⟨_, OrdMap.mem_entries_iff.mpr hold, ?_⟩
          rw [Bool.and_eq_true, decide_eq_true_eq, decide_eq_true_eq]
          exact ⟨hne, rfl⟩
        rw [hshared] at hunshared
        cases hunshared
  · rw [hchunks]
    rcases hpurge id size hrow with hwas | ⟨-, -, hchunk⟩
    · exact h.purged id size hwas
    · exact hchunk
  · rw [hchunks] at hrow
    rcases h.held id size hrow with hfile | ⟨habsent, hpending⟩
    · exact .inl hfile
    · exact .inr ⟨habsent, hpurgeKept id hpending⟩

/-! ### Purges -/

theorem mem_scanPurges {wrap : Bool} {room : Nat} (h : id ∈ store.scanPurges wrap room) :
    store.purges.find? id ≠ none ∧ (store.purgeCursor.all fun cursor => decide (id ≤ cursor) == wrap) = true := by
  have hmem := List.mem_of_mem_take h
  rw [List.mem_filter] at hmem
  obtain ⟨⟨id', size⟩, hentry, rfl⟩ := List.mem_map.mp hmem.1
  rw [OrdMap.mem_entries_iff] at hentry
  exact ⟨by rw [hentry]; simp, hmem.2⟩

theorem scanPurges_nodup (store : FinalizedChunkStore) (wrap : Bool) (room : Nat) :
    (store.scanPurges wrap room).Nodup := by
  exact (store.purges.nodup_keys.filter _).sublist (List.take_sublist _ _)

theorem mem_pendingPurges {maxChunks : Nat} (h : id ∈ store.pendingPurges maxChunks) :
    store.purges.find? id ≠ none := by
  unfold pendingPurges at h
  dsimp only at h
  split at h
  · rcases List.mem_append.mp h with h | h
    · exact (mem_scanPurges h).1
    · exact (mem_scanPurges h).1
  · exact (mem_scanPurges h).1

/-- **A purge takes up each chunk once**, although its cursor wraps. -/
theorem pendingPurges_nodup (store : FinalizedChunkStore) (maxChunks : Nat) :
    (store.pendingPurges maxChunks).Nodup := by
  unfold pendingPurges
  dsimp only
  split
  next hwraps =>
    refine List.nodup_append.mpr ⟨store.scanPurges_nodup .., store.scanPurges_nodup .., fun a ha b hb hab => ?_⟩
    obtain ⟨cursor, hcursor⟩ := Option.isSome_iff_exists.mp hwraps.1
    have hafter := (mem_scanPurges ha).2
    have hbefore := (mem_scanPurges hb).2
    rw [hcursor, hab] at hafter
    rw [hcursor] at hbefore
    simp only [Option.all_some, beq_iff_eq] at hafter hbefore
    rw [hafter] at hbefore
    cases hbefore
  · exact store.scanPurges_nodup ..

theorem mem_allPurges (hcursor : store.purgeCursor = none) (h : store.purges.find? id ≠ none) :
    id ∈ store.allPurges := by
  obtain ⟨size, hsize⟩ := Option.ne_none_iff_exists'.mp h
  have hall : store.scanPurges false store.purges.size = store.purges.entries.map Prod.fst := by
    rw [scanPurges, hcursor]
    simp [OrdMap.size]
  rw [allPurges, pendingPurges, hcursor]
  simp only [Option.isSome_none, Bool.false_eq_true, false_and, if_false, hall]
  exact List.mem_map_of_mem (OrdMap.mem_entries_iff.mpr hsize)

/-- **A purged chunk leaves the rows sound.** -/
theorem StoreSound.forget (h : store.StoreSound blobs) (hpurge : store.purges.find? id = some size) :
    (store.forget id size).StoreSound (Function.update blobs id none) := by
  have hchunk := h.purged id size hpurge
  have hcounted := h.counted
  have hsum : (store.chunks.erase id).sum (fun _ size => size.toNat) + size.toNat =
      store.chunks.sum fun _ size => size.toNat := OrdMap.sum_erase_of_some hchunk
  have hle : size ≤ store.readCounter := UInt64.le_iff_toNat_le.mpr (by omega)
  constructor
  · change (store.readCounter - size).toNat = (store.chunks.erase id).sum fun _ size => size.toNat
    rw [UInt64.toNat_sub_of_le _ _ hle]
    omega
  · intro other size' hrow
    change (store.chunks.erase id).find? other = some size' at hrow
    rw [OrdMap.find?_erase, Option.ite_none_left_eq_some] at hrow
    exact h.sized other size' hrow.2
  · intro publication other proof hproof
    obtain ⟨hrow, hnone⟩ := h.associated publication other proof hproof
    have hne : other ≠ id := by
      intro heq
      rw [heq, hpurge] at hnone
      cases hnone
    change (store.chunks.erase id).find? other ≠ none ∧ (store.purges.erase id).find? other = none
    rw [OrdMap.find?_erase, if_neg hne, OrdMap.find?_erase, if_neg hne]
    exact ⟨hrow, hnone⟩
  · intro other size' hrow
    change (store.purges.erase id).find? other = some size' at hrow
    change (store.chunks.erase id).find? other = some size'
    rw [OrdMap.find?_erase, Option.ite_none_left_eq_some] at hrow
    rw [OrdMap.find?_erase, if_neg hrow.1]
    exact h.purged other size' hrow.2
  · intro other size' hrow
    change (store.chunks.erase id).find? other = some size' at hrow
    change _ ∨ Function.update blobs id none other = none ∧ (store.purges.erase id).find? other ≠ none
    rw [OrdMap.find?_erase, Option.ite_none_left_eq_some] at hrow
    rw [Function.update_of_ne hrow.1, OrdMap.find?_erase, if_neg hrow.1]
    exact h.held other size' hrow.2

theorem StoreSound.unlinked (h : store.StoreSound blobs) (hpurge : store.purges.find? id ≠ none) :
    store.StoreSound (Function.update blobs id none) where
  counted := h.counted
  sized := h.sized
  associated := h.associated
  purged := h.purged
  held other size hrow := by
    by_cases heq : other = id
    · rw [heq, Function.update_self]
      exact .inr ⟨rfl, hpurge⟩
    · rw [Function.update_of_ne heq]
      exact h.held other size hrow

/-- **One iteration of a purge** on sound rows: it does not find them corrupt, the blob is
    gone unless it is refused, and other blobs are untouched. -/
structure Purged (store : FinalizedChunkStore) (blobs : ChunkBlobStore) (id : ChunkId) (unlinked : Bool)
    (result : PurgeResult) (store' : FinalizedChunkStore) (blobs' : ChunkBlobStore) : Prop where
  sound : store'.StoreSound blobs'
  ne_corrupt : result ≠ .corrupt
  removed : (result ≠ .refused ∧ blobs' = Function.update blobs id none ∧ (blobs id ≠ none → unlinked = true)) ∨
    (result = .refused ∧ blobs' = blobs ∧ blobs id ≠ none ∧ unlinked = false)
  completed : result = .completed → store'.purges.find? id = none
  purges : ∀ other, other ≠ id → store'.purges.find? other = store.purges.find? other

/-- One chunk of a purge: either it stays pending, or row and blob are gone. -/
theorem StoreSound.purgeOne (h : store.StoreSound blobs) {unlinked : Bool} {fate : Fate}
    {result : PurgeResult} (hpurge : store.purges.find? id ≠ none)
    (hone : store.purgeOne blobs id unlinked fate = (result, store', blobs')) :
    store.Purged blobs id unlinked result store' blobs' := by
  obtain ⟨size, hsize⟩ := Option.ne_none_iff_exists'.mp hpurge
  have hchunk := h.purged id size hsize
  obtain ⟨hid, hvalid⟩ := h.sized id size hchunk
  have hle : size.toNat ≤ store.chunks.sum fun _ size => size.toNat :=
    OrdMap.le_sum_of_find? (f := fun _ size => size.toNat) hchunk
  have hcounter : ¬store.readCounter < size := by
    rw [UInt64.not_lt, UInt64.le_iff_toNat_le, h.counted]
    exact hle
  have hguard : ¬(size ≠ size ∨ validStoredSize size.toNat = false ∨ store.readCounter < size) := by
    simp [hvalid, hcounter]
  -- the cursor is not a row
  have hcursor : FinalizedChunkStore.StoreSound { store with purgeCursor := some id } blobs :=
    h.of_rows rfl rfl rfl rfl
  unfold FinalizedChunkStore.purgeOne at hone
  dsimp only at hone
  rw [hsize, hchunk] at hone
  dsimp only at hone
  change (if size ≠ size ∨ validStoredSize size.toNat = false ∨ store.readCounter < size then _ else _) = _ at hone
  rw [if_neg hguard] at hone
  rcases hremove : blobs.remove id unlinked with ⟨removed, blobs''⟩
  rw [hremove] at hone
  have hforget : ∀ other, other ≠ id →
      (FinalizedChunkStore.forget { store with purgeCursor := some id } id size).purges.find? other =
        store.purges.find? other := by
    intro other hne
    change (store.purges.erase id).find? other = _
    rw [OrdMap.find?_erase, if_neg hne]
  have hforgotten : (FinalizedChunkStore.forget { store with purgeCursor := some id } id size).purges.find? id =
      none := by
    change (store.purges.erase id).find? id = _
    rw [OrdMap.find?_erase, if_pos rfl]
  rcases ChunkBlobStore.remove_cases hid hremove with ⟨rfl, rfl, hunlinked⟩ | ⟨rfl, rfl, hpresent, hresists⟩
  · cases fate with
    | done =>
      obtain ⟨rfl, hrest⟩ := Prod.mk.inj hone
      obtain ⟨rfl, rfl⟩ := Prod.mk.inj hrest
      exact ⟨hcursor.forget hsize, by simp, .inl ⟨by simp, rfl, hunlinked⟩, fun _ => hforgotten, hforget⟩
    | lost =>
      obtain ⟨rfl, hrest⟩ := Prod.mk.inj hone
      obtain ⟨rfl, rfl⟩ := Prod.mk.inj hrest
      exact ⟨hcursor.unlinked hpurge, by simp, .inl ⟨by simp, rfl, hunlinked⟩, by simp, fun _ _ => rfl⟩
    | stored =>
      obtain ⟨rfl, hrest⟩ := Prod.mk.inj hone
      obtain ⟨rfl, rfl⟩ := Prod.mk.inj hrest
      exact ⟨hcursor.forget hsize, by simp, .inl ⟨by simp, rfl, hunlinked⟩, by simp, hforget⟩
  · obtain ⟨rfl, hrest⟩ := Prod.mk.inj hone
    obtain ⟨rfl, rfl⟩ := Prod.mk.inj hrest
    exact ⟨hcursor, by simp, .inr ⟨rfl, rfl, hpresent, hresists⟩, by simp, fun _ _ => rfl⟩

/-! ### The constructor -/

/-- The scan of the constructor accepts sound rows and finds their sum. -/
theorem checkRows_ok {rows : List (ChunkId × UInt64)} {total : UInt64}
    (hsized : ∀ row ∈ rows, isZero row.1.1 = false ∧ validStoredSize row.2.toNat = true)
    (hheld : ∀ row ∈ rows, ∃ file, blobs row.1 = some file ∧ file.length = row.2.toNat)
    (hfits : total.toNat + sumIn (fun _ size => size.toNat) rows < 2 ^ 64) :
    ∃ sum, checkRows blobs rows total = .ok sum ∧
      sum.toNat = total.toNat + sumIn (fun _ size => size.toNat) rows := by
  induction rows generalizing total with
  | nil => exact ⟨total, rfl, by simp [sumIn]⟩
  | cons row rows ih =>
    obtain ⟨id, size⟩ := row
    obtain ⟨⟨hid, hvalid⟩, hsizedRest⟩ := List.forall_mem_cons.mp hsized
    obtain ⟨⟨file, hfile, hlength⟩, hheldRest⟩ := List.forall_mem_cons.mp hheld
    have hcons : sumIn (fun _ size => size.toNat) ((id, size) :: rows) =
        size.toNat + sumIn (fun _ size => size.toNat) rows := by
      simp [sumIn]
    rw [hcons] at hfits ⊢
    have hmax : UINT64_MAX.toNat = 2 ^ 64 - 1 := rfl
    have htotal : total.toNat < 2 ^ 64 := total.toNat_lt
    have hroom : ¬size > UINT64_MAX - total := by
      rw [gt_iff_lt, UInt64.not_lt, UInt64.le_iff_toNat_le,
        UInt64.toNat_sub_of_le _ _ (UInt64.le_iff_toNat_le.mpr (by omega))]
      omega
    have hstored : ChunkBlobStore.storedSize blobs id = some size := by
      rw [ChunkBlobStore.storedSize, if_neg (by simpa using hid), hfile, Option.bind_some, hlength,
        if_pos hvalid, UInt64.ofNat_toNat]
    have hadd : (total + size).toNat = total.toNat + size.toNat := by
      rw [UInt64.toNat_add]
      exact Nat.mod_eq_of_lt (by omega)
    obtain ⟨sum, hcheck, hsum⟩ := ih hsizedRest hheldRest (show (total + size).toNat + sumIn _ rows < 2 ^ 64 by omega)
    refine ⟨sum, ?_, by omega⟩
    rw [checkRows, if_neg (by simp [hvalid, hroom]), if_neg (by simp [hstored])]
    exact hcheck

/-- **The constructor does not miss a blob** once no purge is half done. -/
theorem StoreSound.checkRows (h : store.StoreSound blobs)
    (hpresent : ∀ id, store.purges.find? id ≠ none → blobs id ≠ none) :
    ∃ total, FinalizedChunkStore.checkRows blobs store.chunks.entries 0 = .ok total ∧
      total.toNat = store.chunks.sum fun _ size => size.toNat := by
  have hcounter : store.readCounter.toNat < 2 ^ 64 := store.readCounter.toNat_lt
  rw [h.counted, OrdMap.sum] at hcounter
  have hsized : ∀ row ∈ store.chunks.entries, isZero row.1.1 = false ∧ validStoredSize row.2.toNat = true :=
    fun row hmem => h.sized row.1 row.2 (OrdMap.mem_entries_iff.mp hmem)
  have hheld : ∀ row ∈ store.chunks.entries, ∃ file, blobs row.1 = some file ∧ file.length = row.2.toNat := by
    intro row hmem
    rcases h.held row.1 row.2 (OrdMap.mem_entries_iff.mp hmem) with hfile | ⟨habsent, hpending⟩
    · exact hfile
    · exact absurd habsent (hpresent row.1 hpending)
  have hfits : (0 : UInt64).toNat + sumIn (fun _ size => size.toNat) store.chunks.entries < 2 ^ 64 := by
    rw [UInt64.toNat_zero]
    omega
  have hcheck := checkRows_ok hsized hheld hfits
  rwa [UInt64.toNat_zero, Nat.zero_add] at hcheck

end FinalizedChunkStore

section

variable [Crypto]

/-! ### Putting a chunk -/

/-- What becomes of the blob in a `Put`, whatever the disk does. -/
theorem ChunkBlobStore.put_cases {blobs blobs' : ChunkBlobStore} {id : ChunkId} {storedBytes : Bytes}
    {outcome : BlobPutOutcome} {status : ChunkBlobPutStatus}
    (h : blobs.put id storedBytes outcome = (status, blobs')) :
    (blobs' = blobs ∨ blobs' = Function.update blobs id (some storedBytes)) ∧
      (status = .stored ∨ status = .alreadyStored → blobs' id = some storedBytes) := by
  have hwrite : ∀ write, ChunkBlobStore.writeBlob blobs id storedBytes write = blobs ∨
      ChunkBlobStore.writeBlob blobs id storedBytes write = Function.update blobs id (some storedBytes) := by
    intro write
    cases write with
    | synced => exact .inr rfl
    | unsynced => exact .inr rfl
    | failed => exact .inl rfl
  have hsynced : ∀ ok : ChunkBlobPutStatus, ok ≠ .storageError →
      (if outcome.write = .synced then ok else .storageError) = .stored ∨
        (if outcome.write = .synced then ok else .storageError) = .alreadyStored →
      ChunkBlobStore.writeBlob blobs id storedBytes outcome.write id = some storedBytes := by
    intro ok _ hstatus
    by_cases hwritten : outcome.write = .synced
    · rw [hwritten]
      exact Function.update_self ..
    · rw [if_neg hwritten] at hstatus
      rcases hstatus with hstatus | hstatus <;> cases hstatus
  unfold ChunkBlobStore.put at h
  split at h
  · obtain ⟨rfl, rfl⟩ := Prod.mk.inj h
    exact ⟨.inl rfl, by simp⟩
  split at h
  next file hfile =>
    split at h
    next existing hread =>
      rw [ChunkBlobStore.readBlob, Option.ite_none_left_eq_some] at hread
      obtain rfl := Option.some.inj hread.2
      by_cases hsame : file = storedBytes
      · rw [if_neg (not_not.mpr hsame)] at h
        rw [hsame] at hfile
        split at h
        · obtain ⟨rfl, rfl⟩ := Prod.mk.inj h
          exact ⟨.inl rfl, fun _ => hfile⟩
        · obtain ⟨rfl, rfl⟩ := Prod.mk.inj h
          exact ⟨.inl rfl, fun _ => hfile⟩
      · rw [if_pos hsame] at h
        obtain ⟨rfl, rfl⟩ := Prod.mk.inj h
        exact ⟨.inl rfl, by simp⟩
    next =>
      obtain ⟨rfl, rfl⟩ := Prod.mk.inj h
      exact ⟨hwrite _, hsynced _ (by simp)⟩
  next =>
    split at h
    · obtain ⟨rfl, rfl⟩ := Prod.mk.inj h
      exact ⟨.inl rfl, by simp⟩
    · obtain ⟨rfl, rfl⟩ := Prod.mk.inj h
      exact ⟨hwrite _, hsynced _ (by simp)⟩

namespace FinalizedChunkStore

variable {store store' : FinalizedChunkStore} {blobs blobs' : ChunkBlobStore}

/-- **`PutChunk` keeps the rows sound**, whatever the disk does, and deletes no blob. -/
theorem StoreSound.putChunk (h : store.StoreSound blobs) {request : ChunkPutRequest} {outcome : ChunkPutOutcome}
    {status : ChunkAdmissionStatus} (hput : store.putChunk blobs request outcome = (status, store', blobs')) :
    store'.StoreSound blobs' ∧ ∀ id, blobs id ≠ none → blobs' id ≠ none := by
  have hkept : (status, store, blobs) = (status, store', blobs') →
      store'.StoreSound blobs' ∧ ∀ id, blobs id ≠ none → blobs' id ≠ none := by
    intro heq
    obtain ⟨-, hrest⟩ := Prod.mk.inj heq
    obtain ⟨rfl, rfl⟩ := Prod.mk.inj hrest
    exact ⟨h, fun _ hblob => hblob⟩
  unfold FinalizedChunkStore.putChunk at hput
  split at hput
  · exact hkept (by rw [← hput, (Prod.mk.inj hput).1])
  next hrequest =>
  simp only [not_or, Bool.not_eq_true, Bool.not_eq_false] at hrequest
  obtain ⟨-, hid, hvalid, -, -⟩ := hrequest
  split at hput
  · exact hkept (by rw [← hput, (Prod.mk.inj hput).1])
  · exact hkept (by rw [← hput, (Prod.mk.inj hput).1])
  split at hput
  · exact hkept (by rw [← hput, (Prod.mk.inj hput).1])
  unfold putAuthorized at hput
  dsimp only at hput
  split at hput
  · exact hkept (by rw [← hput, (Prod.mk.inj hput).1])
  next hconflict =>
  split at hput
  · exact hkept (by rw [← hput, (Prod.mk.inj hput).1])
  split at hput
  · exact hkept (by rw [← hput, (Prod.mk.inj hput).1])
  next hquota =>
  split at hput
  · exact hkept (by rw [← hput, (Prod.mk.inj hput).1])
  have hlength := toNat_storedSize hvalid
  -- a chunk row has the size of the offered bytes
  have hsame : ∀ size, store.chunks.find? request.chunkId = some size →
      size = UInt64.ofNat request.storedBytes.length := by
    intro size hsome
    rw [hsome] at hconflict
    simpa using hconflict
  -- so the rows are sound over whatever the blob store leaves
  have hblobs : ∀ {blobStatus blobs'}, blobs.put request.chunkId request.storedBytes outcome.blob =
      (blobStatus, blobs') → store.StoreSound blobs' ∧ ∀ id, blobs id ≠ none → blobs' id ≠ none := by
    intro blobStatus blobs' hblob
    rcases (ChunkBlobStore.put_cases hblob).1 with hunchanged | hwritten
    · rw [hunchanged]
      exact ⟨h, fun _ hpresent => hpresent⟩
    · rw [hwritten]
      refine ⟨h.of_blobs fun other size hchunk => ?_, fun other hpresent => ?_⟩
      · by_cases heq : other = request.chunkId
        · rw [heq] at hchunk ⊢
          refine .inr ⟨request.storedBytes, Function.update_self .., ?_⟩
          rw [hsame size hchunk, hlength]
        · exact .inl (Function.update_of_ne heq _ _)
      · by_cases heq : other = request.chunkId
        · rw [heq, Function.update_self]
          simp
        · rw [Function.update_of_ne heq]
          exact hpresent
  have hadmitted : ∀ {blobStatus blobs'}, blobs.put request.chunkId request.storedBytes outcome.blob =
      (blobStatus, blobs') → blobStatus = .stored ∨ blobStatus = .alreadyStored →
      (store.admitChunk request.publicationOperationId request.chunkId
        (UInt64.ofNat request.storedBytes.length) (encodeProofMetadata request.proof)).StoreSound blobs' := by
    intro blobStatus blobs' hblob hstatus
    have hsize : validStoredSize (UInt64.ofNat request.storedBytes.length).toNat = true := by
      rw [hlength]
      exact hvalid
    refine (hblobs hblob).1.admitChunk hid hsize ?_ ((ChunkBlobStore.put_cases hblob).2 hstatus) hlength.symm
    cases hexisting : store.chunks.find? request.chunkId with
    | some size => exact .inl (by rw [hsame size hexisting])
    | none =>
      refine .inr ⟨rfl, ?_⟩
      simp only [hexisting, true_and, not_or, gt_iff_lt, UInt64.not_lt] at hquota
      have hcapacity : store.capacityBytes.toNat < 2 ^ 64 := store.capacityBytes.toNat_lt
      have hle := UInt64.le_iff_toNat_le.mp hquota.1
      have hroom := UInt64.le_iff_toNat_le.mp hquota.2
      rw [UInt64.toNat_sub_of_le _ _ hquota.1] at hroom
      omega
  rcases hblob : blobs.put request.chunkId request.storedBytes outcome.blob with ⟨blobStatus, blobs''⟩
  rw [hblob] at hput
  obtain ⟨hkeptRows, hkeptBlobs⟩ := hblobs hblob
  have hrefused : ∀ result, (result, store, blobs'') = (status, store', blobs') →
      store'.StoreSound blobs' ∧ ∀ id, blobs id ≠ none → blobs' id ≠ none := by
    intro result heq
    obtain ⟨-, hrest⟩ := Prod.mk.inj heq
    obtain ⟨rfl, rfl⟩ := Prod.mk.inj hrest
    exact ⟨hkeptRows, hkeptBlobs⟩
  have hcommitted : ∀ result, blobStatus = .stored ∨ blobStatus = .alreadyStored →
      (result, store.admitChunk request.publicationOperationId request.chunkId
        (UInt64.ofNat request.storedBytes.length) (encodeProofMetadata request.proof), blobs'') =
        (status, store', blobs') →
      store'.StoreSound blobs' ∧ ∀ id, blobs id ≠ none → blobs' id ≠ none := by
    intro result hstatus heq
    obtain ⟨-, hrest⟩ := Prod.mk.inj heq
    obtain ⟨rfl, rfl⟩ := Prod.mk.inj hrest
    exact ⟨hadmitted hblob hstatus, hkeptBlobs⟩
  cases blobStatus with
  | invalid => exact hrefused _ hput
  | conflict => exact hrefused _ hput
  | storageError => exact hrefused _ hput
  | capacityExceeded => exact hrefused _ hput
  | stored =>
    dsimp only at hput
    split at hput
    · exact hrefused _ hput
    · split at hput
      · exact hcommitted _ (.inl rfl) hput
      · exact hrefused _ hput
      · exact hcommitted _ (.inl rfl) hput
  | alreadyStored =>
    dsimp only at hput
    split at hput
    · exact hrefused _ hput
    · split at hput
      · exact hcommitted _ (.inr rfl) hput
      · exact hrefused _ hput
      · exact hcommitted _ (.inr rfl) hput

end FinalizedChunkStore

/-! ### Steps of a node -/

omit [Crypto] in
theorem FinalizedChunkStore.StoreSound.removeUnlessAdmitted {store : FinalizedChunkStore}
    {blobs : ChunkBlobStore} (h : store.StoreSound blobs) (chunk : ChunkId) (unlinked : Bool) :
    store.StoreSound (store.removeUnlessAdmitted blobs chunk unlinked).2 ∧
      ∀ id, store.chunks.find? id ≠ none → (store.removeUnlessAdmitted blobs chunk unlinked).2 id = blobs id := by
  have hsame : ∀ id, store.chunks.find? id ≠ none →
      (store.removeUnlessAdmitted blobs chunk unlinked).2 id = blobs id := by
    intro id hrow
    unfold FinalizedChunkStore.removeUnlessAdmitted
    by_cases hadmitted : store.chunks.contains chunk = true
    · rw [if_pos hadmitted]
    · rw [if_neg hadmitted]
      refine ChunkBlobStore.remove_of_ne fun heq => hadmitted ?_
      obtain ⟨size, hsize⟩ := Option.ne_none_iff_exists'.mp hrow
      rw [← heq]
      exact OrdMap.contains_of_find? hsize
  exact ⟨h.of_blobs fun id size hrow => .inl (hsame id (by rw [hrow]; simp)), hsame⟩

namespace ChunkNode

variable {node node' : ChunkNode}

/-- **The invariant of the admission store of a node.** -/
structure Sound (node : ChunkNode) : Prop where
  rows : node.store.StoreSound node.blobs
  nodup : node.pending.Nodup
  purging : ∀ id ∈ node.pending, node.store.purges.find? id ≠ none
  /-- The constructor still comes to every purge whose blob is gone. -/
  opening : ∀ pending, node.task = .opening pending → ∀ id, node.blobs id = none →
    node.store.purges.find? id ≠ none → id ∈ pending

omit [Crypto] in
theorem Sound.of_rows (hrows : node.store.StoreSound node.blobs) (htask : node.task = .idle ∨ node.task = .closed) :
    node.Sound := by
  have hpending : node.pending = [] := by
    rw [pending]
    rcases htask with htask | htask <;> rw [htask]
  refine ⟨hrows, ?_, ?_, fun pending hopening => ?_⟩
  · rw [hpending]
    exact List.nodup_nil
  · rw [hpending]
    simp
  · rcases htask with htask | htask <;> rw [htask] at hopening <;> cases hopening

omit [Crypto] in
theorem Sound.congr (h : node.Sound) (hblobs : node'.blobs = node.blobs) (hstore : node'.store = node.store)
    (htask : node'.task = node.task) : node'.Sound := by
  obtain ⟨hrows, hnodup, hpurging, hopening⟩ := h
  have hpending : node'.pending = node.pending := by
    rw [pending, htask, pending]
  constructor
  · rw [hstore, hblobs]
    exact hrows
  · rw [hpending]
    exact hnodup
  · rw [hpending, hstore]
    exact hpurging
  · rw [htask, hblobs, hstore]
    exact hopening

omit [Crypto] in
/-- A step of a purge keeps rows, blobs and the purges that are under way sound. -/
theorem Sound.purgeNext (h : node.Sound) {unlinked : Bool} {fate : Fate}
    (hstep : node.purgeNext unlinked fate = some node') : node'.Sound := by
  unfold ChunkNode.purgeNext at hstep
  cases hpending : node.pending with
  | nil =>
    rw [hpending] at hstep
    dsimp only at hstep
    split at hstep
    · obtain rfl := Option.some.inj hstep
      exact Sound.of_rows h.rows (.inl rfl)
    · cases hstep
  | cons id rest =>
    rw [hpending] at hstep
    rcases hone : node.store.purgeOne node.blobs id unlinked fate with ⟨result, store', blobs'⟩
    dsimp only at hstep
    rw [hone] at hstep
    obtain rfl := Option.some.inj hstep
    have hhead : node.store.purges.find? id ≠ none := h.purging id (by rw [hpending]; exact List.mem_cons_self)
    have hpurged := h.rows.purgeOne hhead hone
    have hnodup := h.nodup
    rw [hpending] at hnodup
    obtain ⟨hnotin, hrestNodup⟩ := List.nodup_cons.mp hnodup
    have hne : ∀ {other}, other ∈ rest → other ≠ id := fun hmem heq => hnotin (heq ▸ hmem)
    have hrest : ∀ other ∈ rest, store'.purges.find? other ≠ none := by
      intro other hmem
      rw [hpurged.purges other (hne hmem)]
      exact h.purging other (by rw [hpending]; exact List.mem_cons_of_mem _ hmem)
    by_cases hthrown : result = .corrupt ∨ result = .failed
    · refine Sound.of_rows hpurged.sound ?_
      dsimp only
      cases htask : node.task with
      | opening pending => exact .inr (if_pos hthrown)
      | idle | purging | closed => exact .inl (if_pos hthrown)
    · cases htask : node.task with
      | idle | closed =>
        rw [pending, htask] at hpending
        cases hpending
      | purging pending =>
        have hafter : afterPurge result rest (.purging pending) = .purging rest := if_neg hthrown
        refine ⟨hpurged.sound, ?_, ?_, fun pending' hopening => ?_⟩
        · rw [ChunkNode.pending, hafter]
          exact hrestNodup
        · rw [ChunkNode.pending, hafter]
          exact hrest
        · dsimp only at hopening
          rw [hafter] at hopening
          cases hopening
      | opening pending =>
        have hafter : afterPurge result rest (.opening pending) = .opening rest := if_neg hthrown
        refine ⟨hpurged.sound, ?_, ?_, fun pending' hopening other habsent hrow => ?_⟩
        · rw [ChunkNode.pending, hafter]
          exact hrestNodup
        · rw [ChunkNode.pending, hafter]
          exact hrest
        · dsimp only at hopening habsent hrow
          rw [hafter] at hopening
          obtain rfl := ChunkStoreTask.opening.inj hopening
          have hall : pending = id :: rest := by rwa [ChunkNode.pending, htask] at hpending
          by_cases heq : other = id
          · -- the row of a completed purge is gone, the blob of a refused one is there
            rw [heq] at habsent hrow
            rcases hpurged.removed with ⟨hdone, -⟩ | ⟨-, hsame, hpresent, -⟩
            · cases result with
              | corrupt => exact absurd (.inl rfl) hthrown
              | failed => exact absurd (.inr rfl) hthrown
              | refused => exact absurd rfl hdone
              | completed => exact absurd (hpurged.completed rfl) hrow
            · rw [hsame] at habsent
              exact absurd habsent hpresent
          · have hblob : blobs' other = node.blobs other := by
              rcases hpurged.removed with ⟨-, hgone, -⟩ | ⟨-, hsame, -⟩
              · rw [hgone, Function.update_of_ne heq]
              · rw [hsame]
            rw [hblob] at habsent
            rw [hpurged.purges other heq] at hrow
            have hmem := h.opening pending htask other habsent hrow
            rw [hall] at hmem
            exact (List.mem_cons.mp hmem).resolve_left heq

omit [Crypto] in
theorem Sound.opened (h : node.Sound) {fate : Fate} (hstep : node.opened fate = some node') : node'.Sound := by
  unfold ChunkNode.opened at hstep
  rw [Option.ite_none_right_eq_some] at hstep
  obtain ⟨htask, hstep⟩ := hstep
  have hpresent : ∀ id, node.store.purges.find? id ≠ none → node.blobs id ≠ none := by
    intro id hrow habsent
    have hmem := h.opening [] htask id habsent hrow
    cases hmem
  obtain ⟨total, hcheck, htotal⟩ := h.rows.checkRows hpresent
  rw [hcheck] at hstep
  have hcounted : FinalizedChunkStore.StoreSound { node.store with storageBytes := some total } node.blobs :=
    ⟨htotal, h.rows.sized, h.rows.associated, h.rows.purged, h.rows.held⟩
  cases fate with
  | done =>
    obtain rfl := Option.some.inj hstep
    exact Sound.of_rows hcounted (.inl rfl)
  | lost =>
    obtain rfl := Option.some.inj hstep
    exact Sound.of_rows h.rows (.inr rfl)
  | stored =>
    obtain rfl := Option.some.inj hstep
    exact Sound.of_rows hcounted (.inr rfl)

variable {store : FinalizedChunkStore}

omit [Crypto] in
theorem Sound.of_purging {pending : List ChunkId} (hrows : store.StoreSound node.blobs) (hnodup : pending.Nodup)
    (hpurging : ∀ id ∈ pending, store.purges.find? id ≠ none) :
    Sound { node with store, task := .purging pending } :=
  ⟨hrows, hnodup, hpurging, fun _ hopening => by cases hopening⟩

omit [Crypto] in
theorem Sound.of_opening (hrows : store.StoreSound node.blobs) (hcursor : store.purgeCursor = none) :
    Sound { node with store, task := .opening store.allPurges, collecting := none } := by
  refine ⟨hrows, ?_, ?_, fun pending hopening id _ hrow => ?_⟩
  · exact store.pendingPurges_nodup store.purges.size
  · intro id hmem
    have hpending : id ∈ store.pendingPurges store.purges.size := hmem
    exact FinalizedChunkStore.mem_pendingPurges hpending
  · obtain rfl := ChunkStoreTask.opening.inj hopening
    exact FinalizedChunkStore.mem_allPurges hcursor hrow

omit [Crypto] in
theorem Sound.registryCall (h : node.Sound) {retention : ChunkRetentionRegistry}
    (hstep : node.registryCall retention = some node') : node'.Sound := by
  rw [ChunkNode.registryCall, Option.ite_none_right_eq_some] at hstep
  obtain rfl := Option.some.inj hstep.2
  exact h.congr rfl rfl rfl

/-- **Every step keeps the invariant.** -/
theorem Sound.step (h : node.Sound) {event : ChunkEvent} (hstep : node.step event = some node') :
    node'.Sound := by
  cases event with
  | putChunk request outcome =>
    rw [ChunkNode.step, Option.ite_none_right_eq_some] at hstep
    obtain ⟨htask, hstep⟩ := hstep
    rcases hput : node.store.putChunk node.blobs request outcome with ⟨status, store', blobs'⟩
    rw [hput] at hstep
    obtain rfl := Option.some.inj hstep
    exact Sound.of_rows (h.rows.putChunk hput).1 (.inl htask)
  | purgePublication publication fate =>
    rw [ChunkNode.step, Option.ite_none_right_eq_some] at hstep
    obtain ⟨htask, hstep⟩ := hstep
    split at hstep
    · obtain rfl := Option.some.inj hstep
      exact h
    have hrevoked := h.rows.revokeAll publication
    cases fate with
    | done =>
      obtain rfl := Option.some.inj hstep
      exact Sound.of_purging hrevoked (FinalizedChunkStore.pendingPurges_nodup ..) fun id hmem =>
        FinalizedChunkStore.mem_pendingPurges hmem
    | lost =>
      obtain rfl := Option.some.inj hstep
      exact h
    | stored =>
      obtain rfl := Option.some.inj hstep
      exact Sound.of_rows hrevoked (.inl htask)
  | retryPendingPurges maxChunks =>
    rw [ChunkNode.step, Option.ite_none_right_eq_some] at hstep
    obtain rfl := Option.some.inj hstep.2
    exact Sound.of_purging h.rows (FinalizedChunkStore.pendingPurges_nodup ..) fun id hmem =>
      FinalizedChunkStore.mem_pendingPurges hmem
  | purgeNext unlinked fate => exact h.purgeNext hstep
  | removeUnlessAdmitted chunk unlinked =>
    rw [ChunkNode.step, Option.ite_none_right_eq_some] at hstep
    obtain ⟨htask, hstep⟩ := hstep
    obtain rfl := Option.some.inj hstep
    exact Sound.of_rows (h.rows.removeUnlessAdmitted chunk unlinked).1 (.inl htask)
  | pin key chunks fate => exact h.registryCall hstep
  | release key nowMs fate => exact h.registryCall hstep
  | noteCacheUse chunk nowMs fate => exact h.registryCall hstep
  | collect cacheBudgetBytes nowMs graceMs maxRemovals =>
    rw [ChunkNode.step, Option.ite_none_right_eq_some] at hstep
    obtain rfl := Option.some.inj hstep.2
    exact h.congr rfl rfl rfl
  | collectNext unlinked =>
    rw [ChunkNode.step, ChunkNode.collectNext] at hstep
    split at hstep
    · cases hstep
    next collection _ =>
      rw [Option.ite_none_left_eq_some, not_or, not_not] at hstep
      obtain ⟨⟨-, htask⟩, hstep⟩ := hstep
      split at hstep
      · cases hstep
      next used id size rest _ =>
        obtain rfl := Option.some.inj hstep
        exact Sound.of_rows (h.rows.removeUnlessAdmitted id unlinked).1 (.inl htask)
  | endCollect fate =>
    obtain ⟨collection, -, hstep⟩ := Option.bind_eq_some_iff.mp hstep
    rw [Option.ite_none_right_eq_some] at hstep
    obtain rfl := Option.some.inj hstep.2
    exact h.congr rfl rfl rfl
  | crash capacityBytes =>
    obtain rfl := Option.some.inj hstep
    exact Sound.of_opening (h.rows.of_rows rfl rfl rfl rfl) rfl
  | opened fate => exact h.opened hstep

/-- A node whose admission store has no rows yet; the blobs are arbitrary. -/
structure Fresh (node : ChunkNode) : Prop where
  chunks : node.store.chunks = ∅
  associations : node.store.associations = ∅
  purges : node.store.purges = ∅
  storageBytes : node.store.storageBytes = none
  task : node.task = .idle
  collecting : node.collecting = none

omit [Crypto] in
theorem Fresh.sound (h : node.Fresh) : node.Sound := by
  refine Sound.of_rows ⟨?_, ?_, ?_, ?_, ?_⟩ (.inl h.task)
  · rw [FinalizedChunkStore.readCounter, h.storageBytes, h.chunks]
    rfl
  · intro id size hrow
    rw [h.chunks] at hrow
    cases hrow
  · intro publication id proof hrow
    rw [h.associations] at hrow
    cases hrow
  · intro id size hrow
    rw [h.purges] at hrow
    cases hrow
  · intro id size hrow
    rw [h.chunks] at hrow
    cases hrow

theorem Sound.run (h : node.Sound) {events : List ChunkEvent} (hrun : node.run events = some node') :
    node'.Sound := by
  induction events generalizing node with
  | nil =>
    obtain rfl := Option.some.inj hrun
    exact h
  | cons event events ih =>
    obtain ⟨next, hstep, hrest⟩ := Option.bind_eq_some_iff.mp hrun
    exact ih (h.step hstep) hrest

/-- The steps that can delete the blob of a chunk. -/
inductive Deletes (node : ChunkNode) (id : ChunkId) : ChunkEvent → Prop where
  | purge {rest : List ChunkId} {fate : Fate} (hpending : node.pending = id :: rest) :
      Deletes node id (.purgeNext true fate)
  | direct {unlinked : Bool} (hrow : node.store.chunks.find? id = none) :
      Deletes node id (.removeUnlessAdmitted id unlinked)
  | evict {unlinked : Bool} {collection : Collection} {used size : UInt64}
      {rest : List (UInt64 × ChunkId × UInt64)} (hcollecting : node.collecting = some collection)
      (hnext : collection.evictable = (used, id, size) :: rest) (hrow : node.store.chunks.find? id = none) :
      Deletes node id (.collectNext unlinked)

variable {id : ChunkId}

omit [Crypto] in
theorem removed_of_absent {blobs : ChunkBlobStore} {chunk : ChunkId}
    {unlinked : Bool} (hpresent : blobs id ≠ none)
    (hgone : (store.removeUnlessAdmitted blobs chunk unlinked).2 id = none) :
    id = chunk ∧ store.chunks.find? id = none := by
  unfold FinalizedChunkStore.removeUnlessAdmitted at hgone
  by_cases hadmitted : store.chunks.contains chunk = true
  · rw [if_pos hadmitted] at hgone
    exact absurd hgone hpresent
  · rw [if_neg hadmitted] at hgone
    by_cases heq : id = chunk
    · rw [heq]
      exact ⟨rfl, OrdMap.contains_eq_false_iff.mp (by simpa using hadmitted)⟩
    · rw [ChunkBlobStore.remove_of_ne heq] at hgone
      exact absurd hgone hpresent

/-- **Only a purge or a removal deletes a blob**, and only the one it takes up. -/
theorem Sound.deletes (h : node.Sound) {event : ChunkEvent} (hstep : node.step event = some node')
    (hpresent : node.blobs id ≠ none) (hgone : node'.blobs id = none) :
    node.Deletes id event := by
  cases event with
  | putChunk request outcome =>
    rw [ChunkNode.step, Option.ite_none_right_eq_some] at hstep
    rcases hput : node.store.putChunk node.blobs request outcome with ⟨status, store', blobs'⟩
    rw [hput] at hstep
    obtain rfl := Option.some.inj hstep.2
    exact absurd hgone ((h.rows.putChunk hput).2 id hpresent)
  | purgePublication publication fate =>
    rw [ChunkNode.step, Option.ite_none_right_eq_some] at hstep
    obtain ⟨-, hstep⟩ := hstep
    split at hstep
    · obtain rfl := Option.some.inj hstep
      exact absurd hgone hpresent
    · cases fate <;> obtain rfl := Option.some.inj hstep <;> exact absurd hgone hpresent
  | retryPendingPurges maxChunks =>
    rw [ChunkNode.step, Option.ite_none_right_eq_some] at hstep
    obtain rfl := Option.some.inj hstep.2
    exact absurd hgone hpresent
  | purgeNext unlinked fate =>
    rw [ChunkNode.step, ChunkNode.purgeNext] at hstep
    cases hpending : node.pending with
    | nil =>
      rw [hpending] at hstep
      dsimp only at hstep
      rw [Option.ite_none_right_eq_some] at hstep
      obtain rfl := Option.some.inj hstep.2
      exact absurd hgone hpresent
    | cons head rest =>
      rw [hpending] at hstep
      rcases hone : node.store.purgeOne node.blobs head unlinked fate with ⟨result, store', blobs'⟩
      dsimp only at hstep
      rw [hone] at hstep
      obtain rfl := Option.some.inj hstep
      have hhead : node.store.purges.find? head ≠ none :=
        h.purging head (by rw [hpending]; exact List.mem_cons_self)
      rcases (h.rows.purgeOne hhead hone).removed with ⟨-, hupdate, hunlinked⟩ | ⟨-, hsame, -⟩
      · dsimp only at hgone
        rw [hupdate] at hgone
        by_cases heq : id = head
        · rw [heq] at hpresent ⊢
          rw [hunlinked hpresent]
          exact .purge hpending
        · rw [Function.update_of_ne heq] at hgone
          exact absurd hgone hpresent
      · dsimp only at hgone
        rw [hsame] at hgone
        exact absurd hgone hpresent
  | removeUnlessAdmitted chunk unlinked =>
    rw [ChunkNode.step, Option.ite_none_right_eq_some] at hstep
    obtain rfl := Option.some.inj hstep.2
    obtain ⟨rfl, hrow⟩ := removed_of_absent hpresent hgone
    exact .direct hrow
  | pin key chunks fate | release key nowMs fate | noteCacheUse chunk nowMs fate =>
    rw [ChunkNode.step, ChunkNode.registryCall, Option.ite_none_right_eq_some] at hstep
    obtain rfl := Option.some.inj hstep.2
    exact absurd hgone hpresent
  | collect cacheBudgetBytes nowMs graceMs maxRemovals =>
    rw [ChunkNode.step, Option.ite_none_right_eq_some] at hstep
    obtain rfl := Option.some.inj hstep.2
    exact absurd hgone hpresent
  | collectNext unlinked =>
    rw [ChunkNode.step, ChunkNode.collectNext] at hstep
    split at hstep
    · cases hstep
    next collection hcollecting =>
      rw [Option.ite_none_left_eq_some] at hstep
      obtain ⟨-, hstep⟩ := hstep
      split at hstep
      · cases hstep
      next used chunk size rest hnext =>
        obtain rfl := Option.some.inj hstep
        obtain ⟨rfl, hrow⟩ := removed_of_absent hpresent hgone
        exact .evict hcollecting hnext hrow
  | endCollect fate =>
    obtain ⟨collection, -, hstep⟩ := Option.bind_eq_some_iff.mp hstep
    rw [Option.ite_none_right_eq_some] at hstep
    obtain rfl := Option.some.inj hstep.2
    exact absurd hgone hpresent
  | crash capacityBytes =>
    obtain rfl := Option.some.inj hstep
    exact absurd hgone hpresent
  | opened fate =>
    rw [ChunkNode.step, ChunkNode.opened, Option.ite_none_right_eq_some] at hstep
    obtain ⟨-, hstep⟩ := hstep
    split at hstep
    · obtain rfl := Option.some.inj hstep
      exact absurd hgone hpresent
    · cases fate <;> obtain rfl := Option.some.inj hstep <;> exact absurd hgone hpresent

/-- **A step deletes no blob of a chunk that a publication authorizes.** -/
theorem Sound.keeps_associated (h : node.Sound) {event : ChunkEvent} (hstep : node.step event = some node')
    {publication : Hash256} (hassociated : node.store.associations.find? (toLex (publication, id)) ≠ none) :
    node.blobs id ≠ none ∧ node'.blobs id ≠ none := by
  obtain ⟨proof, hproof⟩ := Option.ne_none_iff_exists'.mp hassociated
  obtain ⟨hrow, hnone⟩ := h.rows.associated publication id proof hproof
  obtain ⟨size, hsize⟩ := Option.ne_none_iff_exists'.mp hrow
  have hpresent : node.blobs id ≠ none := by
    rcases h.rows.held id size hsize with ⟨file, hfile, -⟩ | ⟨-, hpurge⟩
    · rw [hfile]
      simp
    · exact absurd hnone hpurge
  refine ⟨hpresent, fun hgone => ?_⟩
  cases h.deletes hstep hpresent hgone with
  | purge hpending => exact h.purging id (by rw [hpending]; exact List.mem_cons_self) hnone
  | direct hnoRow => exact hrow hnoRow
  | evict _ _ hnoRow => exact hrow hnoRow

/-- **The chunk rows, their blobs and the purges in every run** of calls, outcomes of the
    disk and crashes. -/
theorem chunk_store_runs {start : ChunkNode} {events : List ChunkEvent} (hfresh : start.Fresh)
    (hrun : start.run events = some node) :
    node.store.readCounter.toNat = node.store.chunks.sum (fun _ size => size.toNat) ∧
      (∀ publication id, node.store.associations.find? (toLex (publication, id)) ≠ none →
        ∃ size file, node.store.chunks.find? id = some size ∧ node.blobs id = some file ∧
          file.length = size.toNat) ∧
      (∀ id size, node.store.purges.find? id = some size → node.store.chunks.find? id = some size ∧
        ∀ publication, node.store.associations.find? (toLex (publication, id)) = none) ∧
      (∀ event next, node.step event = some next → ∀ publication id,
        node.store.associations.find? (toLex (publication, id)) ≠ none → next.blobs id ≠ none) ∧
      (∀ id rest unlinked fate, node.pending = id :: rest →
        (node.store.purgeOne node.blobs id unlinked fate).1 ≠ .corrupt) ∧
      (node.task = .opening [] →
        ∃ total, FinalizedChunkStore.checkRows node.blobs node.store.chunks.entries 0 = .ok total) ∧
      node.pending.Nodup := by
  have h := hfresh.sound.run hrun
  refine ⟨h.rows.counted, fun publication id hassociated => ?_, fun id size hpurge => ?_,
    fun event next hstep publication id hassociated => (h.keeps_associated hstep hassociated).2,
    fun id rest unlinked fate hpending => ?_, fun htask => ?_, h.nodup⟩
  · obtain ⟨proof, hproof⟩ := Option.ne_none_iff_exists'.mp hassociated
    obtain ⟨hrow, hnone⟩ := h.rows.associated publication id proof hproof
    obtain ⟨size, hsize⟩ := Option.ne_none_iff_exists'.mp hrow
    rcases h.rows.held id size hsize with ⟨file, hfile, hlength⟩ | ⟨-, hpurge⟩
    · exact ⟨size, file, hsize, hfile, hlength⟩
    · exact absurd hnone hpurge
  · refine ⟨h.rows.purged id size hpurge, fun publication => ?_⟩
    cases hcase : node.store.associations.find? (toLex (publication, id)) with
    | none => rfl
    | some proof =>
      have hnone := (h.rows.associated publication id proof hcase).2
      rw [hpurge] at hnone
      cases hnone
  · have hhead : node.store.purges.find? id ≠ none :=
      h.purging id (by rw [hpending]; exact List.mem_cons_self)
    exact (h.rows.purgeOne hhead rfl).ne_corrupt
  · have hpresent : ∀ id, node.store.purges.find? id ≠ none → node.blobs id ≠ none := by
      intro id hrow habsent
      have hmem := h.opening [] htask id habsent hrow
      cases hmem
    obtain ⟨total, hcheck, -⟩ := h.rows.checkRows hpresent
    exact ⟨total, hcheck⟩

end ChunkNode

end

section Sample

attribute [local instance] Crypto.sample

def sampleChunkBytes : Bytes := List.replicate 1088 7

def sampleChunkId : ChunkId := computeChunkId sampleChunkBytes

def sampleRootPublication : RootPublication where
  rootChunkId := sampleChunkId
  chunkAuthorizationRoot := hashLeaf sampleChunkId
  chunkCount := 1
  leasePeriods := 1
  recipientCapsules := []

def sampleChunkPut : ChunkPutRequest where
  publicationOperationId := FixedBytes.leading 31 1
  chunkId := sampleChunkId
  storedBytes := sampleChunkBytes
  proof := { leafIndex := 0, siblings := [] }
  lookup := some fun _ => some (some sampleRootPublication)

def sampleChunkNode : ChunkNode where
  blobs id := if id = sampleChunkId then some sampleChunkBytes else none
  store :=
    { chunks := ∅, associations := ∅, purges := ∅, storageBytes := none, purgeCursor := none
      capacityBytes := 4096 }
  task := .idle
  retention := { pins := ∅, refs := ∅, cache := ∅ }
  collecting := none

def sampleRetentionKey : RetentionKey :=
  { holder := FixedBytes.leading 31 2, reference := FixedBytes.leading 31 3 }

/-- The user pins the chunk, the provider admits it, and its publication is purged. -/
def sampleChunkEvents : List ChunkEvent :=
  [.pin sampleRetentionKey [sampleChunkId] .done,
    .putChunk sampleChunkPut
      { diskFull := false, blob := { full := false, write := .synced, synced := true }, fate := .done },
    .purgePublication (FixedBytes.leading 31 1) .done]

theorem sampleChunkNode_fresh : sampleChunkNode.Fresh := ⟨rfl, rfl, rfl, rfl, rfl, rfl⟩

theorem sampleChunkRun : ∃ node, sampleChunkNode.run sampleChunkEvents = some node ∧
    node.pending = [sampleChunkId] ∧ node.blobs sampleChunkId = some sampleChunkBytes ∧
    node.retention.pinned sampleRetentionKey = [sampleChunkId] := by
  have hrun : (sampleChunkNode.run sampleChunkEvents).map (fun node =>
      (node.pending, node.blobs sampleChunkId, node.retention.pinned sampleRetentionKey)) =
      some ([sampleChunkId], some sampleChunkBytes, [sampleChunkId]) := by decide +kernel
  obtain ⟨node, hnode, hparts⟩ := Option.map_eq_some_iff.mp hrun
  obtain ⟨hpending, hrest⟩ := Prod.mk.inj hparts
  obtain ⟨hblob, hpinned⟩ := Prod.mk.inj hrest
  exact ⟨node, hnode, hpending, hblob, hpinned⟩

theorem chunk_store_runs_sample : ∃ node, sampleChunkNode.run sampleChunkEvents = some node ∧
    node.pending = [sampleChunkId] ∧
    node.store.readCounter.toNat = node.store.chunks.sum (fun _ size => size.toNat) ∧
    ∀ unlinked fate, (node.store.purgeOne node.blobs sampleChunkId unlinked fate).1 ≠ .corrupt := by
  obtain ⟨node, hrun, hpending, -⟩ := sampleChunkRun
  have h := ChunkNode.chunk_store_runs sampleChunkNode_fresh hrun
  exact ⟨node, hrun, hpending, h.1, fun unlinked fate => h.2.2.2.2.1 _ _ unlinked fate hpending⟩

end Sample

end Cybou
