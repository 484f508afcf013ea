import Cybou.Library.Store
import Cybou.StorageAssignment

/-! # Blobs, the provider's admission store and the retention registry

`chunk_blob_store.cpp`, `chunk_authorization.cpp`, `finalized_chunk_store.cpp`, `chunk_retention.cpp`.

The blobs of a node are shared.  The admission store records which of them the
provider owes to finalized publications, the registry which of them the user has
pinned.  Rows are kept at the types they are read at, and what the disk does is
given by the environment: whether a blob is written, whether it is unlinked, and
the fate of each batch.
-/

namespace Cybou

open Library

/-! ### Blobs -/

def ENCRYPTED_CHUNK_HEADER_SIZE : Nat := 48

def ENCRYPTED_CHUNK_MIN_STORED_BYTES : Nat := ENCRYPTED_CHUNK_HEADER_SIZE + 1024 + 16

def ENCRYPTED_CHUNK_MAX_STORED_BYTES : Nat := ENCRYPTED_CHUNK_HEADER_SIZE + 512 * 1024 + 16

def validStoredSize (size : Nat) : Bool :=
  decide (ENCRYPTED_CHUNK_MIN_STORED_BYTES ≤ size) && decide (size ≤ ENCRYPTED_CHUNK_MAX_STORED_BYTES)

abbrev ChunkBlobStore := ChunkId → Option Bytes

inductive ChunkBlobPutStatus where
  | stored
  | alreadyStored
  | invalid
  | conflict
  | storageError
  | capacityExceeded
deriving DecidableEq, Repr

/-- What becomes of `WriteBlobAtomically`: the file is there and its directory is synced,
    the file is there, or nothing is. -/
inductive BlobWrite where
  | synced
  | unsynced
  | failed
deriving DecidableEq, Repr

/-- What the file system does during a `Put`. -/
structure BlobPutOutcome where
  /-- The new blob would exceed the capacity of the store. -/
  full : Bool
  write : BlobWrite
  /-- The directory of a blob that is already there can be synced. -/
  synced : Bool
deriving DecidableEq, Repr

/-- The exceptions and refusals of `PutChunk`. -/
inductive ChunkAdmissionStatus where
  | stored
  | alreadyStored
  | notFinalized
  | invalid
  | notAuthorized
  | conflict
  | capacityExceeded
  | storageError
deriving DecidableEq, Repr

section

variable [Crypto]

def computeChunkId (storedBytes : Bytes) : ChunkId := Crypto.blake3 storedBytes

namespace ChunkBlobStore

def readBlob (file : Bytes) (id : ChunkId) : Option Bytes :=
  if validStoredSize file.length = false ∨ computeChunkId file ≠ id then none else some file

def writeBlob (blobs : ChunkBlobStore) (id : ChunkId) (bytes : Bytes) : BlobWrite → ChunkBlobStore
  | .synced | .unsynced => Function.update blobs id (some bytes)
  | .failed => blobs

def storedSize (blobs : ChunkBlobStore) (id : ChunkId) : Option UInt64 :=
  if isZero id.1 = true then none
  else (blobs id).bind fun file =>
    if validStoredSize file.length = true then some (UInt64.ofNat file.length) else none

def put (blobs : ChunkBlobStore) (id : ChunkId) (storedBytes : Bytes) (outcome : BlobPutOutcome) :
    ChunkBlobPutStatus × ChunkBlobStore :=
  if isZero id.1 = true ∨ validStoredSize storedBytes.length = false ∨ computeChunkId storedBytes ≠ id then
    (.invalid, blobs)
  else
    match blobs id with
    | some file =>
      match readBlob file id with
      | some existing =>
        if existing ≠ storedBytes then (.conflict, blobs)
        else if outcome.synced = true then (.alreadyStored, blobs)
        else (.storageError, blobs)
      | none =>
        (if outcome.write = .synced then .alreadyStored else .storageError,
          writeBlob blobs id storedBytes outcome.write)
    | none =>
      if outcome.full = true then (.capacityExceeded, blobs)
      else (if outcome.write = .synced then .stored else .storageError,
        writeBlob blobs id storedBytes outcome.write)

/-- `Remove`; a file that is there may resist. -/
def remove (blobs : ChunkBlobStore) (id : ChunkId) (unlinked : Bool) : Bool × ChunkBlobStore :=
  if isZero id.1 = true then (false, blobs)
  else match blobs id with
    | none => (true, blobs)
    | some _ => if unlinked = true then (true, Function.update blobs id none) else (false, blobs)

end ChunkBlobStore

/-! ### Authorization proofs -/

structure ChunkAuthorizationProof where
  leafIndex : UInt32
  siblings : List ChunkId
deriving DecidableEq, Repr

/-- The loop of `VerifyChunkAuthorizationPath`: the hash at the root and the siblings
    that are left. -/
def foldPath (index width : Nat) (current : ChunkId) (siblings : List ChunkId) :
    Option (ChunkId × List ChunkId) :=
  if h : width ≤ 1 then some (current, siblings)
  else match siblings with
    | [] => none
    | sibling :: rest =>
      have : (width + 1) / 2 < width := by omega
      if index % 2 = 1 then foldPath (index / 2) ((width + 1) / 2) (hashNode sibling current) rest
      else if index + 1 ≥ width then
        if sibling ≠ current then none
        else foldPath (index / 2) ((width + 1) / 2) (hashNode current sibling) rest
      else foldPath (index / 2) ((width + 1) / 2) (hashNode current sibling) rest
termination_by width

def verifyChunkAuthorizationPath (expectedRoot chunkId : ChunkId) (leafIndex chunkCount : UInt32)
    (siblings : List ChunkId) : Bool :=
  if chunkCount = 0 ∨ leafIndex ≥ chunkCount ∨ isZero chunkId.1 = true ∨ siblings.length > 32 then false
  else decide (foldPath leafIndex.toNat chunkCount.toNat (hashLeaf chunkId) siblings = some (expectedRoot, []))

def verifyChunkAuthorizationProof (publication : RootPublication) (chunkId : ChunkId)
    (proof : ChunkAuthorizationProof) : Bool :=
  if publication.chunkCount = 0 ∨ proof.leafIndex ≥ publication.chunkCount ∨ isZero chunkId.1 = true then false
  else verifyChunkAuthorizationPath publication.chunkAuthorizationRoot chunkId proof.leafIndex
    publication.chunkCount proof.siblings

def bigEndian32 (value : UInt32) : Bytes := (le32 value).reverse

def encodeProofMetadata (proof : ChunkAuthorizationProof) : Bytes :=
  bigEndian32 proof.leafIndex ++ bigEndian32 (UInt32.ofNat proof.siblings.length) ++
    Reader.concat (fun sibling : ChunkId => sibling.1) proof.siblings

/-! ### The admission store -/

/-- The rows of `FinalizedChunkStore`, its capacity, and the cursor of its purges. -/
structure FinalizedChunkStore where
  /-- `chunk/<id>`: the sizes of admitted blobs. -/
  chunks : OrdMap ChunkId UInt64
  /-- `publication-chunk/<publication>/<id>`: the proofs of associations. -/
  associations : OrdMap (Hash256 ×ₗ ChunkId) Bytes
  /-- `purge/<id>`: the blobs to be deleted. -/
  purges : OrdMap ChunkId UInt64
  /-- `storage-bytes`. -/
  storageBytes : Option UInt64
  purgeCursor : Option ChunkId
  capacityBytes : UInt64
deriving DecidableEq

/-- The arguments of `PutChunk`.  An empty callback is `none`, a callback that throws
    returns `none`. -/
structure ChunkPutRequest where
  publicationOperationId : Hash256
  chunkId : ChunkId
  storedBytes : Bytes
  proof : ChunkAuthorizationProof
  lookup : Option (Hash256 → Option (Option RootPublication))

structure ChunkPutOutcome where
  /-- Less than the reserve would be left on the disk, or the space is unknown. -/
  diskFull : Bool
  blob : BlobPutOutcome
  fate : Fate
deriving DecidableEq, Repr

/-- How one iteration of `RetryPendingPurgesLocked` ends. -/
inductive PurgeResult where
  /-- It throws "corrupt pending purge metadata". -/
  | corrupt
  /-- The blob could not be removed. -/
  | refused
  | completed
  /-- The batch throws. -/
  | failed
deriving DecidableEq, Repr

inductive ChunkStoreError where
  /-- "invalid finalized chunk size metadata" -/
  | invalidSize
  /-- "provider chunk blob is missing or has the wrong size" -/
  | missingBlob
deriving DecidableEq, Repr

namespace FinalizedChunkStore

variable (store : FinalizedChunkStore)

def readCounter : UInt64 := store.storageBytes.getD 0

/-- The batch of `PutChunk`. -/
def admitChunk (publicationOperationId : Hash256) (chunkId : ChunkId)
    (size : UInt64) (proofMetadata : Bytes) : FinalizedChunkStore :=
  let sized : FinalizedChunkStore :=
    if store.chunks.contains chunkId = true then store
    else { store with
      chunks := store.chunks.set chunkId size
      storageBytes := some (store.readCounter + size) }
  { sized with
    purges := store.purges.erase chunkId
    associations := store.associations.set (toLex (publicationOperationId, chunkId)) proofMetadata }

def putAuthorized (blobs : ChunkBlobStore) (request : ChunkPutRequest)
    (outcome : ChunkPutOutcome) : ChunkAdmissionStatus × FinalizedChunkStore × ChunkBlobStore :=
  let size := UInt64.ofNat request.storedBytes.length
  let proofMetadata := encodeProofMetadata request.proof
  let existingSize := store.chunks.find? request.chunkId
  let existingAssociation := store.associations.find? (toLex (request.publicationOperationId, request.chunkId))
  if (existingSize.any fun existing => decide (existing ≠ size)) = true then (.conflict, store, blobs)
  else if (existingAssociation.any fun existing =>
      decide (existingSize = none) || decide (existing ≠ proofMetadata)) = true then (.conflict, store, blobs)
  else if existingSize = none ∧ (store.readCounter > store.capacityBytes ∨
      size > store.capacityBytes - store.readCounter) then (.capacityExceeded, store, blobs)
  else if blobs.storedSize request.chunkId = none ∧ outcome.diskFull = true then
    (.capacityExceeded, store, blobs)
  else
    match blobs.put request.chunkId request.storedBytes outcome.blob with
    | (.invalid, blobs) => (.invalid, store, blobs)
    | (.conflict, blobs) => (.conflict, store, blobs)
    | (.storageError, blobs) => (.storageError, store, blobs)
    | (.capacityExceeded, blobs) => (.capacityExceeded, store, blobs)
    | (blobStatus, blobs) =>
      if existingAssociation.isSome = true then
        (if blobStatus = .stored then .stored else .alreadyStored, store, blobs)
      else
        let admitted := store.admitChunk request.publicationOperationId request.chunkId size proofMetadata
        match outcome.fate with
        | .done => (.stored, admitted, blobs)
        | .lost => (.storageError, store, blobs)
        | .stored => (.storageError, admitted, blobs)

def putChunk (blobs : ChunkBlobStore) (request : ChunkPutRequest)
    (outcome : ChunkPutOutcome) : ChunkAdmissionStatus × FinalizedChunkStore × ChunkBlobStore :=
  if request.publicationOperationId.isNull = true ∨ isZero request.chunkId.1 = true ∨
      validStoredSize request.storedBytes.length = false ∨ request.lookup.isNone = true ∨
      computeChunkId request.storedBytes ≠ request.chunkId then (.invalid, store, blobs)
  else
    match request.lookup.bind fun lookup => lookup request.publicationOperationId with
    | none | some none => (.notFinalized, store, blobs)
    | some (some publication) =>
      if verifyChunkAuthorizationProof publication request.chunkId request.proof = false then
        (.notAuthorized, store, blobs)
      else store.putAuthorized blobs request outcome

def removeUnlessAdmitted (blobs : ChunkBlobStore) (chunkId : ChunkId)
    (unlinked : Bool) : Bool × ChunkBlobStore :=
  if store.chunks.contains chunkId = true then (false, blobs) else blobs.remove chunkId unlinked

/-! ### Purges -/

def publicationChunks (publication : Hash256) : List ChunkId :=
  (store.associations.entries.filter fun e => decide ((ofLex e.1).1 = publication)).map fun e => (ofLex e.1).2

def shared (publication : Hash256) (chunk : ChunkId) : Bool :=
  store.associations.entries.any fun e =>
    decide ((ofLex e.1).1 ≠ publication) && decide ((ofLex e.1).2 = chunk)

/-- One step of the loop that fills the batch of `PurgePublication`: `store` is read and
    `batch` written. -/
def revoke (publication : Hash256) (batch : FinalizedChunkStore)
    (chunk : ChunkId) : FinalizedChunkStore :=
  let erased : FinalizedChunkStore :=
    { batch with associations := batch.associations.erase (toLex (publication, chunk)) }
  if store.shared publication chunk = true then erased
  else match store.chunks.find? chunk with
    | none => erased
    | some size => { erased with purges := erased.purges.set chunk size }

/-- The batch of `PurgePublication`. -/
def revokeAll (publication : Hash256) : FinalizedChunkStore :=
  (store.publicationChunks publication).foldl (store.revoke publication) store

/-- `scan` of `RetryPendingPurgesLocked`, for at most `room` more chunks. -/
def scanPurges (wrap : Bool) (room : Nat) : List ChunkId :=
  ((store.purges.entries.map Prod.fst).filter fun id =>
    store.purgeCursor.all fun cursor => decide (id ≤ cursor) == wrap).take room

/-- The chunks that `RetryPendingPurgesLocked` takes up. -/
def pendingPurges (maxChunks : Nat) : List ChunkId :=
  let pending := store.scanPurges false maxChunks
  if store.purgeCursor.isSome = true ∧ pending.length < maxChunks then
    pending ++ store.scanPurges true (maxChunks - pending.length)
  else pending

/-- `RetryPendingPurgesLocked(numeric_limits<size_t>::max())`: there are never as many rows. -/
def allPurges : List ChunkId := store.pendingPurges store.purges.size

def forget (id : ChunkId) (size : UInt64) : FinalizedChunkStore :=
  { store with
    purges := store.purges.erase id
    chunks := store.chunks.erase id
    storageBytes := some (store.readCounter - size) }

/-- One iteration of the loop of `RetryPendingPurgesLocked`. -/
def purgeOne (blobs : ChunkBlobStore) (id : ChunkId) (unlinked : Bool)
    (fate : Fate) : PurgeResult × FinalizedChunkStore × ChunkBlobStore :=
  let store : FinalizedChunkStore := { store with purgeCursor := some id }
  match store.purges.find? id, store.chunks.find? id with
  | some size, some expected =>
    if size ≠ expected ∨ validStoredSize size.toNat = false ∨ store.readCounter < size then
      (.corrupt, store, blobs)
    else
      match blobs.remove id unlinked with
      | (false, blobs) => (.refused, store, blobs)
      | (true, blobs) =>
        match fate with
        | .done => (.completed, store.forget id size, blobs)
        | .lost => (.failed, store, blobs)
        | .stored => (.failed, store.forget id size, blobs)
  | _, _ => (.corrupt, store, blobs)

/-! ### The constructor -/

def checkRows (blobs : ChunkBlobStore) : List (ChunkId × UInt64) → UInt64 → Except ChunkStoreError UInt64
  | [], total => .ok total
  | (id, size) :: rest, total =>
    if validStoredSize size.toNat = false ∨ size > UINT64_MAX - total then .error .invalidSize
    else if blobs.storedSize id ≠ some size then .error .missingBlob
    else checkRows blobs rest (total + size)

end FinalizedChunkStore

end

/-! ### The retention registry -/

structure RetentionKey where
  holder : FixedBytes 32
  reference : FixedBytes 32
deriving DecidableEq, Repr

/-- `KeyString`. -/
def RetentionKey.owner (key : RetentionKey) : FixedBytes 32 ×ₗ FixedBytes 32 :=
  toLex (key.holder, key.reference)

structure ChunkRetentionRegistry where
  /-- `pin/<chunk><holder><reference>` -/
  pins : OrdMap (ChunkId ×ₗ (FixedBytes 32 ×ₗ FixedBytes 32)) Unit
  /-- `ref/<holder><reference><chunk>` -/
  refs : OrdMap ((FixedBytes 32 ×ₗ FixedBytes 32) ×ₗ ChunkId) Unit
  /-- `cch/<chunk>`: the time of the last use. -/
  cache : OrdMap ChunkId UInt64
deriving DecidableEq

/-- A pass of `Collect` that holds the registry's lock. -/
structure Collection where
  /-- The candidates still to be looked at, oldest first. -/
  evictable : List (UInt64 × ChunkId × UInt64)
  /-- The cache rows to be erased at the end. -/
  forget : List ChunkId
  cacheBytes : UInt64
  removed : Nat
  removedBytes : UInt64
  cacheBudgetBytes : UInt64
  nowMs : UInt64
  graceMs : UInt64
  maxRemovals : Nat
deriving DecidableEq, Repr

namespace ChunkRetentionRegistry

def written (registry registry' : ChunkRetentionRegistry) : Fate → ChunkRetentionRegistry
  | .done | .stored => registry'
  | .lost => registry

def pin (registry : ChunkRetentionRegistry) (key : RetentionKey) (chunks : List ChunkId) (fate : Fate) :
    ChunkRetentionRegistry :=
  registry.written (chunks.foldl (fun r chunk =>
    { r with
      pins := r.pins.set (toLex (chunk, key.owner)) ()
      refs := r.refs.set (toLex (key.owner, chunk)) () }) registry) fate

def pinned (registry : ChunkRetentionRegistry) (key : RetentionKey) : List ChunkId :=
  (registry.refs.entries.filter fun e => decide ((ofLex e.1).1 = key.owner)).map fun e => (ofLex e.1).2

def release (registry : ChunkRetentionRegistry) (key : RetentionKey) (nowMs : UInt64) (fate : Fate) :
    ChunkRetentionRegistry :=
  registry.written ((registry.pinned key).foldl (fun r chunk =>
    { r with
      pins := r.pins.erase (toLex (chunk, key.owner))
      refs := r.refs.erase (toLex (key.owner, chunk))
      cache := r.cache.set chunk nowMs }) registry) fate

/-- `IsPinnedLocked`. -/
def isPinned (registry : ChunkRetentionRegistry) (chunk : ChunkId) : Bool :=
  registry.pins.entries.any fun e => decide ((ofLex e.1).1 = chunk)

def noteCacheUse (registry : ChunkRetentionRegistry) (chunk : ChunkId) (nowMs : UInt64) (fate : Fate) :
    ChunkRetentionRegistry :=
  registry.written { registry with cache := registry.cache.set chunk nowMs } fate

/-- The order of `std::sort` on the candidates. -/
def candidateLe (a b : UInt64 × ChunkId × UInt64) : Bool :=
  if a.1 ≠ b.1 then decide (a.1 < b.1)
  else if a.2.1 ≠ b.2.1 then decide (a.2.1 < b.2.1)
  else decide (a.2.2 ≤ b.2.2)

/-- The candidates of `Collect`: the cached blobs that are there and not pinned. -/
def candidates (registry : ChunkRetentionRegistry) (blobs : ChunkBlobStore) :
    List (UInt64 × ChunkId × UInt64) :=
  registry.cache.entries.filterMap fun e =>
    match blobs.storedSize e.1 with
    | none => none
    | some size => if registry.isPinned e.1 = true then none else some (e.2, e.1, size)

def startCollect (registry : ChunkRetentionRegistry) (blobs : ChunkBlobStore)
    (cacheBudgetBytes nowMs graceMs : UInt64) (maxRemovals : Nat) : Collection where
  evictable := (registry.candidates blobs).mergeSort candidateLe
  forget := (registry.cache.entries.filter fun e => decide (blobs.storedSize e.1 = none)).map Prod.fst
  cacheBytes := ((registry.candidates blobs).map fun c => c.2.2).sum
  removed := 0
  removedBytes := 0
  cacheBudgetBytes := cacheBudgetBytes
  nowMs := nowMs
  graceMs := graceMs
  maxRemovals := maxRemovals

def endCollect (registry : ChunkRetentionRegistry) (collection : Collection) (fate : Fate) :
    ChunkRetentionRegistry :=
  registry.written { registry with
    cache := collection.forget.foldl (fun cache id => cache.erase id) registry.cache } fate

end ChunkRetentionRegistry

namespace Collection

/-- The loop of `Collect` stops before its next candidate. -/
def stops (collection : Collection) : Bool :=
  match collection.evictable with
  | [] => true
  | (used, _, _) :: _ =>
    decide (collection.cacheBytes ≤ collection.cacheBudgetBytes) ||
      decide (collection.removed ≥ collection.maxRemovals) ||
      decide (used + collection.graceMs > collection.nowMs)

def next (collection : Collection) (wasRemoved : Bool) : Collection :=
  match collection.evictable with
  | [] => collection
  | (_, id, size) :: rest =>
    if wasRemoved = true then
      { collection with
        evictable := rest
        forget := collection.forget ++ [id]
        cacheBytes := collection.cacheBytes - size
        removedBytes := collection.removedBytes + size
        removed := collection.removed + 1 }
    else { collection with evictable := rest }

end Collection

end Cybou
