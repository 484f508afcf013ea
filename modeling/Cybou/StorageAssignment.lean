import Cybou.Operations

/-! # Chunk manifests, provider bindings and the assignment draw

`chunk_authorization.cpp`, `storage_key_proof.cpp`, `storage_audit.cpp`, `storage_assignment_algorithm.cpp`.

These are the pure computations an `ACTIVATE` settlement replays: the Merkle
root of the manifest, the two signatures of a payout binding, and the
deterministic draw of one provider per replica for every chunk.
-/

namespace Cybou

open Library

section

variable [Crypto]

/-! ### The authorization tree of a manifest -/

def hashLeaf (chunk : ChunkId) : ChunkId :=
  Crypto.blake3 (ascii "CYBOU/CHUNK-AUTH/LEAF" ++ chunk.1)

def hashNode (left right : ChunkId) : ChunkId :=
  Crypto.blake3 (ascii "CYBOU/CHUNK-AUTH/NODE" ++ left.1 ++ right.1)

/-- One level of the tree above another; an odd tail is paired with itself. -/
def nextLevel : List ChunkId → List ChunkId
  | [] => []
  | [last] => [hashNode last last]
  | left :: right :: rest => hashNode left right :: nextLevel rest

theorem length_nextLevel (l : List ChunkId) : (nextLevel l).length = (l.length + 1) / 2 := by
  induction l using nextLevel.induct with
  | case1 => rfl
  | case2 last => simp [nextLevel]
  | case3 left right rest ih =>
    simp only [nextLevel, List.length_cons, ih]
    omega

/-- The levels above and including `l`, up to the root. -/
def treeLevels (l : List ChunkId) : List (List ChunkId) :=
  if h : l.length ≤ 1 then [l]
  else
    have : (nextLevel l).length < l.length := by
      rw [length_nextLevel]
      omega
    l :: treeLevels (nextLevel l)
termination_by l.length

def validChunkSet (chunks : List ChunkId) : Bool :=
  decide (chunks ≠ []) && decide (chunks.length ≤ MAX_PUBLICATION_CHUNKS.toNat) &&
    chunks.all (fun chunk => !isZero chunk.1)

def buildChunkAuthorizationTree (chunks : List ChunkId) : Option (List (List ChunkId)) :=
  if validChunkSet chunks = false ∨ ¬chunks.Nodup then none
  else some (treeLevels (chunks.map hashLeaf))

def chunkAuthorizationRoot (chunks : List ChunkId) : Option ChunkId := do
  let levels ← buildChunkAuthorizationTree chunks
  let top ← levels.getLast?
  top.head?

/-! ### Payout bindings -/

def STORAGE_PROOF_SIZE : Nat := 32 + 1312 + 64 + 2420

def verifyStorageProof (payload message : Bytes) : Option StorageId :=
  if payload.length ≠ STORAGE_PROOF_SIZE then none
  else do
    let (edKey, rest) ← Reader.fixed 32 payload
    let (mlKey, rest) ← Reader.bytes 1312 rest
    let (edSig, mlSig) ← Reader.fixed 64 rest
    let key : IdentityHybridPublicKey := { purpose := .storage, ed25519 := edKey, mlDsa := mlKey }
    if verifyIdentityMessage key { ed25519 := edSig, mlDsa := mlSig } message = false then none
    else return Crypto.blake3 (ascii "CYBOU/STORAGE-ID" ++ payload.take (32 + 1312))

def storagePayoutBindingDigest (networkBinding : Hash256) (storageId : StorageId)
    (payoutAccount : AccountId) : Hash256 :=
  Crypto.blake3 (ascii "CYBOU/STORAGE-PAYOUT-BINDING" ++ networkBinding.1 ++ storageId.1 ++
    payoutAccount.1)

def verifyStoragePayoutBindingStorageKey (binding : StoragePayoutBinding) (networkBinding : Hash256)
    (storageId : StorageId) : Bool :=
  decide (verifyStorageProof binding.storageProof
    (storagePayoutBindingDigest networkBinding storageId binding.payoutAccount).1 = some storageId)

/-! ### The assignment draw -/

structure StorageAssignmentContext where
  networkBinding : FixedBytes 32
  publication : FixedBytes 32
  chunk : FixedBytes 32
  finalizedSeed : FixedBytes 32
  payer : FixedBytes 32
  epoch : UInt64
  termStart : UInt64
  termEnd : UInt64
  replicas : UInt8
deriving DecidableEq, Repr

structure StorageAssignmentProvider where
  storageId : StorageId
  payoutAccount : FixedBytes 32
deriving DecidableEq, Repr

structure StorageAssignmentPlan where
  context : StorageAssignmentContext
  eligible : List StorageAssignmentProvider
  selected : List StorageAssignmentProvider
  commitment : FixedBytes 32
deriving DecidableEq, Repr

def MAX_STORAGE_ASSIGNMENT_CANDIDATES : Nat := 1024

omit [Crypto] in
def StorageAssignmentProvider.order (p : StorageAssignmentProvider) :
    Lex (StorageId × FixedBytes 32) :=
  toLex (p.storageId, p.payoutAccount)

omit [Crypto] in
def writeContext (c : StorageAssignmentContext) : Bytes :=
  c.networkBinding.1 ++ c.publication.1 ++ c.chunk.1 ++ c.finalizedSeed.1 ++ c.payer.1 ++
    le64 c.epoch ++ le64 c.termStart ++ le64 c.termEnd ++ [c.replicas]

omit [Crypto] in
def writeProviders (providers : List StorageAssignmentProvider) : Bytes :=
  le32Of providers.length ++
    Reader.concat (fun p : StorageAssignmentProvider => p.storageId.1 ++ p.payoutAccount.1) providers

/-- The rejection loop of `Shuffle`: the first draw below `limit` and the counter
    after it.  The counter may rise `fuel` times before the source throws. -/
def drawBelow (input : FixedBytes 32) (limit : UInt64) : Nat → UInt64 → Option (UInt64 × UInt64)
  | 0, _ => none
  | fuel + 1, counter =>
    let hash := Crypto.sha256 (ascii "CYBOU/STORAGE-ASSIGNMENT-DRAW" ++ (input.1 ++ le64 counter))
    let draw := UInt64.ofNat (leNat (hash.1.take 8))
    if draw ≥ limit then drawBelow input limit fuel (counter + 1) else some (draw, counter + 1)

/-- The loop of `Shuffle` over the sizes from `size` down to 2; `none` when the
    draw counter is exhausted and the source throws. -/
def shuffleFrom {α : Type} (input : FixedBytes 32) :
    Nat → Array α → UInt64 → Option (Array α × UInt64)
  | 0, items, counter => some (items, counter)
  | size + 1, items, counter =>
    if size = 0 then some (items, counter)
    else do
      let bound := UInt64.ofNat (size + 1)
      let limit := UINT64_MAX - UINT64_MAX % bound
      let (draw, counter) ← drawBelow input limit (UINT64_MAX - counter).toNat counter
      shuffleFrom input size (items.swapIfInBounds size (draw % bound).toNat) counter

def shuffle {α : Type} (items : List α) (input : FixedBytes 32) (counter : UInt64) :
    Option (List α × UInt64) := do
  let (items, counter) ← shuffleFrom input items.length items.toArray counter
  return (items.toList, counter)

omit [Crypto] in
def groupProviders (payer : FixedBytes 32) :
    Option StorageAssignmentProvider → List StorageAssignmentProvider →
      OrdMap (FixedBytes 32) (List StorageAssignmentProvider) →
      Option (OrdMap (FixedBytes 32) (List StorageAssignmentProvider))
  | _, [], groups => some groups
  | prior, p :: rest, groups =>
    if isZero p.storageId.1 = true ∨ isZero p.payoutAccount.1 = true ∨ p.payoutAccount = payer ∨
        (prior.any fun q => decide (q.storageId = p.storageId)) = true then none
    else groupProviders payer (some p) rest
      (groups.set p.payoutAccount ((groups.find? p.payoutAccount).getD [] ++ [p]))

/-- The selection loop of `PrepareStorageAssignment`: `none` when a draw throws. -/
def selectProviders (input : FixedBytes 32)
    (groups : OrdMap (FixedBytes 32) (List StorageAssignmentProvider)) :
    List (FixedBytes 32) → UInt64 → Option (List StorageAssignmentProvider)
  | [], _ => some []
  | account :: rest, counter => do
    let providers ← groups.find? account
    let (providers, counter) ← shuffle providers input counter
    let first ← providers.head?
    let tail ← selectProviders input groups rest counter
    return first :: tail

/-- The outcome of `PrepareStorageAssignment`: a refusal, an escaping exception
    or a plan. -/
inductive AssignmentOutcome where
  | refused
  | thrown
  | plan (plan : StorageAssignmentPlan)
deriving DecidableEq

def prepareStorageAssignment (context : StorageAssignmentContext)
    (eligible : List StorageAssignmentProvider) : AssignmentOutcome :=
  if isZero context.networkBinding.1 = true ∨ isZero context.publication.1 = true ∨
      isZero context.chunk.1 = true ∨ isZero context.finalizedSeed.1 = true ∨
      isZero context.payer.1 = true ∨ context.termEnd ≤ context.termStart ∨ context.replicas = 0 ∨
      context.replicas > 2 ∨ eligible = [] ∨
      eligible.length > MAX_STORAGE_ASSIGNMENT_CANDIDATES then .refused
  else
    let eligible := (eligible.mergeSort fun a b => decide (a.order ≤ b.order)).eraseReps
    match groupProviders context.payer none eligible ∅ with
    | none => .refused
    | some groups =>
      if groups.size < context.replicas.toNat then .refused
      else
        let encoded := writeContext context ++ writeProviders eligible
        let input := Crypto.sha256 (ascii "CYBOU/STORAGE-ASSIGNMENT-INPUT" ++ encoded)
        match shuffle (groups.entries.map Prod.fst) input 0 with
        | none => .thrown
        | some (accounts, counter) =>
          match selectProviders input groups (accounts.take context.replicas.toNat) counter with
          | none => .thrown
          | some selected => .plan
            { context, eligible, selected
              commitment := Crypto.sha256 (ascii "CYBOU/STORAGE-ASSIGNMENT-COMMITMENT" ++
                (encoded ++ writeProviders selected)) }

end

end Cybou
