import Cybou.ChunkStore

/-! # The chunks of one node

A node interleaves the calls of its admission store and of its retention registry
over the same blobs, and may crash at any point.  Each mutex is a field: a purge
that holds the store's lock is a list of chunks still to be deleted, a collection
that holds the registry's lock is the rest of its candidates.  Between the
iterations of such a loop the calls of the other object go on.

`StoreSound` holds of the rows and the blobs in every run.  A purge does not ask
the registry, so a pinned blob can be deleted: `pins_kept_iff` says by exactly
which steps.
-/

namespace Cybou

open Library

/-- What the thread that holds the lock of the admission store is doing. -/
inductive ChunkStoreTask where
  | idle
  /-- In `RetryPendingPurgesLocked`. -/
  | purging (pending : List ChunkId)
  /-- In the constructor, before its scan of the chunk rows. -/
  | opening (pending : List ChunkId)
  /-- The constructor has thrown. -/
  | closed
deriving DecidableEq, Repr

structure ChunkNode where
  blobs : ChunkBlobStore
  store : FinalizedChunkStore
  task : ChunkStoreTask
  retention : ChunkRetentionRegistry
  collecting : Option Collection

/-- One atomic step of a node and what the disk does during it. -/
inductive ChunkEvent where
  | putChunk (request : ChunkPutRequest) (outcome : ChunkPutOutcome)
  | purgePublication (publication : Hash256) (fate : Fate)
  | retryPendingPurges (maxChunks : Nat)
  /-- One iteration of `RetryPendingPurgesLocked`. -/
  | purgeNext (unlinked : Bool) (fate : Fate)
  | removeUnlessAdmitted (chunk : ChunkId) (unlinked : Bool)
  | pin (key : RetentionKey) (chunks : List ChunkId) (fate : Fate)
  | release (key : RetentionKey) (nowMs : UInt64) (fate : Fate)
  | noteCacheUse (chunk : ChunkId) (nowMs : UInt64) (fate : Fate)
  | collect (cacheBudgetBytes nowMs graceMs : UInt64) (maxRemovals : Nat)
  /-- One iteration of the removal loop of `Collect`. -/
  | collectNext (unlinked : Bool)
  | endCollect (fate : Fate)
  /-- The node stops and its constructor runs again, perhaps with another quota. -/
  | crash (capacityBytes : UInt64)
  /-- The rest of the constructor. -/
  | opened (fate : Fate)

section

variable [Crypto]

namespace ChunkNode

def afterPurge (result : PurgeResult) (rest : List ChunkId) : ChunkStoreTask → ChunkStoreTask
  | .opening _ => if result = .corrupt ∨ result = .failed then .closed else .opening rest
  | _ => if result = .corrupt ∨ result = .failed then .idle else .purging rest

/-- The chunks that the running purge loop has still to take up. -/
def pending (node : ChunkNode) : List ChunkId :=
  match node.task with
  | .purging pending | .opening pending => pending
  | .idle | .closed => []

def purgeNext (node : ChunkNode) (unlinked : Bool) (fate : Fate) : Option ChunkNode :=
  match node.pending with
  | [] => if node.task = .purging [] then some { node with task := .idle } else none
  | id :: rest =>
    let (result, store, blobs) := node.store.purgeOne node.blobs id unlinked fate
    some { node with store, blobs, task := afterPurge result rest node.task }

/-- The constructor behind its purge loop. -/
def opened (node : ChunkNode) (fate : Fate) : Option ChunkNode :=
  if node.task = .opening [] then
    match FinalizedChunkStore.checkRows node.blobs node.store.chunks.entries 0 with
    | .error _ => some { node with task := .closed }
    | .ok total =>
      let counted : FinalizedChunkStore := { node.store with storageBytes := some total }
      match fate with
      | .done => some { node with store := counted, task := .idle }
      | .lost => some { node with task := .closed }
      | .stored => some { node with store := counted, task := .closed }
  else none

/-- One iteration of the removal loop of `Collect`: it calls `RemoveUnlessAdmitted`, which
    waits for the lock of the admission store. -/
def collectNext (node : ChunkNode) (unlinked : Bool) : Option ChunkNode :=
  match node.collecting with
  | none => none
  | some collection =>
    if collection.stops = true ∨ node.task ≠ .idle then none
    else match collection.evictable with
      | [] => none
      | (_, id, _) :: _ =>
        let (removed, blobs) := node.store.removeUnlessAdmitted node.blobs id unlinked
        some { node with blobs := blobs, collecting := some (collection.next removed) }

def registryCall (node : ChunkNode) (retention : ChunkRetentionRegistry) : Option ChunkNode :=
  if node.collecting = none ∧ node.task ≠ .closed then some { node with retention } else none

/-- The steps of a node; `none` where the step is not enabled. -/
def step (node : ChunkNode) : ChunkEvent → Option ChunkNode
  | .putChunk request outcome =>
    if node.task = .idle then
      let (_, store, blobs) := node.store.putChunk node.blobs request outcome
      some { node with store, blobs }
    else none
  | .purgePublication publication fate =>
    if node.task = .idle then
      if publication.isNull = true ∨ node.store.publicationChunks publication = [] then some node
      else
        let revoked := node.store.revokeAll publication
        match fate with
        | .done => some { node with store := revoked, task := .purging revoked.allPurges }
        | .lost => some node
        | .stored => some { node with store := revoked }
    else none
  | .retryPendingPurges maxChunks =>
    if node.task = .idle then some { node with task := .purging (node.store.pendingPurges maxChunks) } else none
  | .purgeNext unlinked fate => node.purgeNext unlinked fate
  | .removeUnlessAdmitted chunk unlinked =>
    if node.task = .idle then
      some { node with blobs := (node.store.removeUnlessAdmitted node.blobs chunk unlinked).2 }
    else none
  | .pin key chunks fate => node.registryCall (node.retention.pin key chunks fate)
  | .release key nowMs fate => node.registryCall (node.retention.release key nowMs fate)
  | .noteCacheUse chunk nowMs fate => node.registryCall (node.retention.noteCacheUse chunk nowMs fate)
  | .collect cacheBudgetBytes nowMs graceMs maxRemovals =>
    if node.collecting = none ∧ node.task ≠ .closed then
      let collection := node.retention.startCollect node.blobs cacheBudgetBytes nowMs graceMs maxRemovals
      some { node with collecting := some collection }
    else none
  | .collectNext unlinked => node.collectNext unlinked
  | .endCollect fate =>
    node.collecting.bind fun collection =>
      if collection.stops = true then
        some { node with retention := node.retention.endCollect collection fate, collecting := none }
      else none
  | .crash capacityBytes =>
    let store : FinalizedChunkStore := { node.store with purgeCursor := none, capacityBytes }
    some { node with store, task := .opening store.allPurges, collecting := none }
  | .opened fate => node.opened fate

def run (node : ChunkNode) : List ChunkEvent → Option ChunkNode
  | [] => some node
  | event :: events => (node.step event).bind fun node => node.run events

end ChunkNode

end

end Cybou
