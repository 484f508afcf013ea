import Cybou.SigningJournal
import Cybou.StateStore

/-! # Producing blocks (`poa_finalizer.cpp`, and `ProduceBlock` in `node_runtime_chain.cpp`)

A production makes up to four durable writes: the journal records the intent, the
conflict detector the certificate (in up to two writes), and the store the batch of
the block.  The candidate and its certificate are kept in memory between attempts and
are lost with the process.  What becomes of each write is given by the environment; a
process that dies inside a call leaves what a call leaves whose next write is lost,
or whose last one is reported as failed, and the restart drops the rest.

The journal and the store share one database under different prefixes.
-/

namespace Cybou

open Library

inductive PoaSigningStatus where
  | signed
  | alreadyPrepared
  | journalRejected
  | signingFailed
deriving DecidableEq, Repr

structure PoaSigningResult where
  status : PoaSigningStatus
  journalStatus : PoaJournalStatus := .none
  certificate : Option PoaFinalityCertificate := none

structure PoaFinalizer where
  journal : PoaSigningJournal
  signerEnabled : Bool := false

inductive BlockProductionStatus where
  | produced
  | signerUnavailable
  | retry
  | safetyHalt
deriving DecidableEq, Repr

def MAX_FINALIZER_SERIALIZED_BLOCK_BYTES : Nat := 32 * 1024 * 1024

/-- What a call of `ProduceBlock` meets: the fate of the one write that the journal may
    make, what the signer returns, and the fates of the commit. -/
structure ProductionOutcome where
  journal : Fate := .done
  signature : Option IdentityHybridSignature
  commit : CommitFates := {}

section

variable [Crypto]

/-- The part of the node's `ChainCore` that produces blocks. -/
structure ChainCore where
  store : Node
  journalDb : JournalDb
  poaFinalizer : Option PoaFinalizer := none
  productionStatus : BlockProductionStatus := .signerUnavailable
  productionCandidate : Option CybouBlock := none
  productionFinalized : Option FinalizedBlock := none
  /-- The process is up. -/
  running : Bool := true

variable (g : VerifiedNetworkGenesis)

def journalIdentity : JournalIdentity where
  networkBinding := g.networkBinding
  genesisAnchor := g.genesisAnchor
  finalizerKeyId := computePoaFinalizerKeyId g.poaKey

/-! ### Signing -/

def createCertificate (signature : IdentityHybridSignature) (networkBinding blockId : Hash256) (height : UInt64)
    (parentBlockId : Hash256) : Option PoaFinalityCertificate :=
  if networkBinding.isNull = true ∨ blockId.isNull = true ∨ height = 0 ∨ parentBlockId.isNull = true then none
  else
    let certificate : PoaFinalityCertificate := { networkBinding, blockId, height, parentBlockId, signature }
    if serializePoaFinalityCertificate certificate = none then none else some certificate

def intentOf (block : CybouBlock) : PoaJournalHead :=
  ⟨block.height, block.parentBlockId, computeBlockId block⟩

/-- The end of `SignFinality`, once the journal has agreed. -/
def PoaFinalizer.sign (block : CybouBlock) (journalStatus : PoaJournalStatus)
    (signature : Option IdentityHybridSignature) : PoaSigningResult :=
  let digest := computePoaFinalityDigest g.networkBinding (computeBlockId block) block.height block.parentBlockId
  match signature with
  | none => { status := .signingFailed, journalStatus }
  | some signature =>
    if verifyIdentityMessage g.poaKey signature digest.1 = false then { status := .signingFailed, journalStatus }
    else
      match createCertificate signature g.networkBinding (computeBlockId block) block.height
        block.parentBlockId with
      | none => { status := .signingFailed, journalStatus }
      | some certificate =>
        { status := if journalStatus = .alreadyPrepared then .alreadyPrepared else .signed
          journalStatus
          certificate := some certificate }

def PoaFinalizer.signFinality (finalizer : PoaFinalizer) (db : JournalDb)
    (finalizedHeight : UInt64) (finalizedTip : Hash256) (block : CybouBlock) (outcome : ProductionOutcome) :
    PoaSigningResult × PoaFinalizer × JournalDb :=
  if serializeBlock block = none ∨ (computeBlockId block).isNull = true then
    ({ status := .signingFailed }, finalizer, db)
  else if finalizer.signerEnabled = false ∨ finalizer.journal.halted = true then
    ({ status := .signingFailed }, finalizer, db)
  else
    let checked := finalizer.journal.checkCanonicalTip db finalizedHeight finalizedTip outcome.journal
    if checked.status ≠ .none then
      ({ status := .journalRejected, journalStatus := checked.status },
        { finalizer with journal := checked.journal }, checked.db)
    else
      let prepared := checked.journal.prepareToSign checked.db (intentOf block) outcome.journal
      let finalizer : PoaFinalizer := { finalizer with journal := prepared.journal }
      if prepared.status ≠ .none ∧ prepared.status ≠ .alreadyPrepared then
        ({ status := .journalRejected, journalStatus := prepared.status }, finalizer, prepared.db)
      else (PoaFinalizer.sign g block prepared.status outcome.signature, finalizer, prepared.db)

/-! ### Candidates -/

/-- `ComputeCandidateStateRoot`; an exception ends the production like a missing root. -/
def computeCandidateStateRoot (node : Node) (operations : List ProtocolOperation)
    (height : UInt64) : Option Hash256 :=
  match getStateSnapshotLocked g node, getFinalizedHead node.db with
  | .ok loaded, some head =>
    if height ≠ head.height + 1 ∨ height = 0 then none
    else if operations = [] ∧ expiresName g loaded height = false then readHash node.db .hash
    else
      let ctx : BlockContext :=
        { networkBinding := g.networkBinding, blockHeight := height, params := g.params
          poaKey := some g.poaKey, verifiedParentId := head.blockId }
      (executeBlockOperations loaded operations ctx).bind fun execution =>
        if execution.isOk = true then execution.stateRoot else none
  | _, _ => none

def newCandidate (node : Node) (head : FinalizedHead)
    (operations : List ProtocolOperation) : Option CybouBlock := do
  let root ← computeCandidateStateRoot g node operations (head.height + 1)
  let candidate : CybouBlock :=
    { parentBlockId := head.blockId, height := head.height + 1, operations, resultingStateRoot := root }
  let encoded ← serializeBlock candidate
  if encoded.length > MAX_FINALIZER_SERIALIZED_BLOCK_BYTES - POA_FINALITY_CERTIFICATE_SIZE - 8 then none
  else some candidate

namespace ChainCore

/-! ### `ProduceBlock` -/

/-- The call up to its first look at the journal; it goes on with the finalizer and the
    head. -/
def beginProduction (core : ChainCore) :
    ChainCore × Option (PoaFinalizer × FinalizedHead) :=
  if core.productionStatus = .safetyHalt then (core, none)
  else
    match core.poaFinalizer with
    | none => ({ core with productionStatus := .signerUnavailable }, none)
    | some finalizer =>
      if finalizer.signerEnabled = false then ({ core with productionStatus := .signerUnavailable }, none)
      else if core.store.halted = true ∨ finalizer.journal.halted = true then
        ({ core with productionStatus := .safetyHalt }, none)
      else
        match getStateSnapshotLocked g core.store with
        | .error _ => ({ core with productionStatus := .safetyHalt }, none)
        | .ok loaded =>
          let core : ChainCore :=
            { core with productionStatus := .retry, store := { core.store with snapshot := some loaded } }
          match getFinalizedHead core.store.db with
          | none => (core, none)
          | some head => if head.height = UINT64_MAX then (core, none) else (core, some (finalizer, head))

def dropReached (core : ChainCore) (head : FinalizedHead) : ChainCore :=
  if (core.productionCandidate.any fun block => decide (block.height ≤ head.height)) = true then
    { core with productionCandidate := none, productionFinalized := none }
  else core

def commitProduced (core : ChainCore) (fb : FinalizedBlock) (fates : CommitFates) :
    ChainCore × Option FinalizedBlock :=
  if ((serializeFinalizedBlock fb).all fun bytes =>
      decide (bytes.length > MAX_FINALIZER_SERIALIZED_BLOCK_BYTES)) = true then
    ({ core with productionStatus := .safetyHalt }, none)
  else
    let reply := commitFinalizedBlock g core.store fb fates
    let core : ChainCore := { core with store := reply.node }
    match reply.outcome with
    | .thrown => (core, none)
    | .returned result =>
      if result.error ≠ .none then (core, none)
      else
        ({ core with
            productionStatus := .produced, productionCandidate := none, productionFinalized := none }, some fb)

/-- The call from `SignFinality` on. -/
def signAndCommit (core : ChainCore) (finalizer : PoaFinalizer)
    (head : FinalizedHead) (block : CybouBlock) (outcome : ProductionOutcome) :
    ChainCore × Option FinalizedBlock :=
  match core.productionFinalized with
  | some fb => core.commitProduced g fb outcome.commit
  | none =>
    let (result, finalizer, journalDb) :=
      finalizer.signFinality g core.journalDb head.height head.blockId block outcome
    let core : ChainCore := { core with poaFinalizer := some finalizer, journalDb }
    match result.certificate with
    | none =>
      (if result.status = .journalRejected then { core with productionStatus := .safetyHalt } else core, none)
    | some certificate =>
      let fb : FinalizedBlock := { block, certificate }
      commitProduced g { core with productionFinalized := some fb } fb outcome.commit

/-- `ProduceBlock`, when the pool holds the given operations.  A commit that throws leaves
    the journal running, so that its exception is a retry. -/
def produceBlock (core : ChainCore) (operations : List ProtocolOperation)
    (outcome : ProductionOutcome) : ChainCore × Option FinalizedBlock :=
  match core.beginProduction g with
  | (core, none) => (core, none)
  | (core, some (finalizer, head)) =>
    let checked := finalizer.journal.checkCanonicalTip core.journalDb head.height head.blockId outcome.journal
    let finalizer : PoaFinalizer := { finalizer with journal := checked.journal }
    let core : ChainCore := { core with poaFinalizer := some finalizer, journalDb := checked.db }
    if checked.status ≠ .none then ({ core with productionStatus := .safetyHalt }, none)
    else
      let core := core.dropReached head
      match core.productionCandidate.or (newCandidate g core.store head operations) with
      | none => (core, none)
      | some block =>
        signAndCommit g { core with productionCandidate := some block } finalizer head block outcome

/-! ### The life of a node -/

def constructFinalizer (core : ChainCore) (fate : Fate) : ChainCore :=
  match core.poaFinalizer with
  | some _ => core
  | none =>
    match PoaSigningJournal.construct (journalIdentity g) core.journalDb fate with
    | (journalDb, .error _) => { core with journalDb }
    | (journalDb, .ok journal) =>
      if g.poaKey.purpose ≠ .poaFinalizer ∨ g.poaKey.mlDsa.length ≠ 1952 then { core with journalDb }
      else { core with journalDb, poaFinalizer := some { journal } }

def enablePoaSigner (core : ChainCore) (key : Option IdentityHybridPublicKey)
    (fate : Fate) : ChainCore :=
  let core := core.constructFinalizer g fate
  if core.productionStatus = .safetyHalt ∨ core.store.halted = true then core
  else
    { core with
      poaFinalizer := core.poaFinalizer.map fun finalizer =>
        if key = some g.poaKey then { finalizer with signerEnabled := true } else finalizer }

def disablePoaSigner (core : ChainCore) : ChainCore :=
  { core with poaFinalizer := core.poaFinalizer.map fun finalizer => { finalizer with signerEnabled := false } }

/-- A new process on the same database. -/
def restart (core : ChainCore) (fate : Fate) : ChainCore :=
  match openNode g core.store.db fate with
  | (db, none) => { store := { db }, journalDb := core.journalDb, running := false }
  | (_, some store) => { store, journalDb := core.journalDb }

end ChainCore

inductive ProductionEvent where
  | produceBlock (operations : List ProtocolOperation) (outcome : ProductionOutcome)
  | enablePoaSigner (key : Option IdentityHybridPublicKey) (fate : Fate)
  | disablePoaSigner
  /-- The process dies, in whatever it does, and is started again. -/
  | restart (fate : Fate)

namespace ChainCore

def step (core : ChainCore) : ProductionEvent → ChainCore
  | .produceBlock operations outcome =>
    if core.running = true then (core.produceBlock g operations outcome).1 else core
  | .enablePoaSigner key fate => if core.running = true then core.enablePoaSigner g key fate else core
  | .disablePoaSigner => if core.running = true then core.disablePoaSigner else core
  | .restart fate => core.restart g fate

def run (core : ChainCore) : List ProductionEvent → ChainCore
  | [] => core
  | event :: events => run (core.step g event) events

end ChainCore

end

end Cybou
