import Cybou.Block
import Cybou.BlockExecutor

/-! # Committing finalized blocks (`state_store.cpp`, `poa_conflict_detector.cpp`, `finalized_event_index.cpp`)

A delivery makes up to three durable writes: the conflict detector records the
certificate, with the evidence of an equivocation in front of it, and only
then is the block executed and its batch written.  What becomes of each write
is a parameter (`CommitFates`), so that a delivery can be followed into a
failed write or a crash.

A commit is planned before it is written: `planExtension` and
`planReplacement` refuse, throw, or give the batch and the state to cache.
-/

namespace Cybou

open Library

/-! ### Keys and records -/

/-- The string keys of the store; the detector's prefix is left out. -/
inductive StoreKey where
  | state
  | hash
  | head
  | networkId
  | block (id : Hash256)
  | blockHeight (height : UInt64)
  | operation (id : Hash256)
  | stateHeight (height : UInt64)
  | eventsHead
  | eventsOperation (id : Hash256)
  | eventsKem (account : AccountId) (epoch : UInt64)
  | eventsPublication (height : UInt64)
  | observed (height : UInt64) (parentBlockId : Hash256)
  | detectorMetadata
  | detectorHalt
deriving DecidableEq

abbrev NodeDb := Store StoreKey Bytes

abbrev Batch := List (Edit StoreKey Bytes)

structure FinalizedHead where
  blockId : Hash256
  height : UInt64
deriving DecidableEq

def encodeFinalizedHead (head : FinalizedHead) : Bytes :=
  encodeLocalHash head.blockId ++ encodeLocalUnsigned 8 head.height.toNat

def decodeFinalizedHead (bytes : Bytes) : Option FinalizedHead :=
  if bytes.length < 32 + 8 then none
  else do
    let blockId ← decodeLocalHash (bytes.take 32)
    let height ← decodeLocalUnsigned 8 (bytes.drop 32)
    return { blockId, height := UInt64.ofNat height }

def getFinalizedHead (db : NodeDb) : Option FinalizedHead := (db .head).bind decodeFinalizedHead

structure VerifiedNetworkGenesis where
  networkBinding : Hash256
  genesisAnchor : Hash256
  genesisStateRoot : Hash256
  poaKey : IdentityHybridPublicKey
  params : CybouProtocolParameters

inductive StateLoadError where
  | notFound
  | corrupt
  | networkMismatch
deriving DecidableEq, Repr

inductive BlockTransitionError where
  | none
  | invalidBlockId
  | stateNotInitialized
  | networkMismatch
  | corruptState
  | parentMismatch
  | blockAlreadyApplied
  | invalidHeight
  | corruptHead
  | invalidOperation
  | tooManyAccountCreates
  | invalidCertificate
  | stateRootMismatch
  | poaEquivocationDetected
  | poaSafetyHalted
deriving DecidableEq, Repr

inductive PoaConflictStatus where
  | observed
  | alreadyObserved
  | safetyConflict
  | competingNonCanonical
  | canonicalReorgRequired
  | invalidCertificate
  | alreadyHalted
  | corruptStorage
  | storageError
deriving DecidableEq, Repr

section

variable [Crypto]

/-! ### The conflict detector -/

def HALT_CORRUPT_STORAGE : UInt8 := 1

def HALT_EQUIVOCATION : UInt8 := 2

/-- What becomes of the writes of one delivery.  The first is that of the halt
    key, whether it receives evidence or a reason to halt. -/
structure CommitFates where
  halt : Fate := .done
  observation : Fate := .done
  batch : Fate := .done

/-- What a call of the detector returns and leaves. -/
structure Observation where
  status : PoaConflictStatus
  halted : Bool
  db : NodeDb

def persistHalt (db : NodeDb) (fate : Fate) : Observation where
  status := if fate = .done then .corruptStorage else .storageError
  halted := true
  db := db.write [.put .detectorHalt (encodeLocalBytes [HALT_CORRUPT_STORAGE])] fate

/-- The record that a stored observation makes together with a new certificate. -/
def equivocationRecord (previousBytes encoded : Bytes) : Bytes :=
  [HALT_EQUIVOCATION] ++ previousBytes ++ encoded

variable (g : VerifiedNetworkGenesis)

def observationValid (previous certificate : PoaFinalityCertificate) : Bool :=
  decide (previous.networkBinding = g.networkBinding) && decide (previous.height = certificate.height) &&
    decide (previous.parentBlockId = certificate.parentBlockId) &&
    verifyPoaFinalityCertificate previous g.poaKey g.networkBinding previous.blockId previous.height
      previous.parentBlockId

/-- The part of `Observe` that finds an earlier observation. -/
def observeAgain (db : NodeDb) (certificate : PoaFinalityCertificate)
    (encoded previousBytes : Bytes) (fates : CommitFates) : Observation :=
  match deserializePoaFinalityCertificate previousBytes with
  | none => persistHalt db fates.halt
  | some previous =>
    if observationValid g previous certificate = false then persistHalt db fates.halt
    else if previous.blockId = certificate.blockId then ⟨.alreadyObserved, false, db⟩
    else
      let db := db.write
        [.put .detectorHalt (encodeLocalBytes (equivocationRecord previousBytes encoded))] fates.halt
      if fates.halt ≠ .done then ⟨.storageError, true, db⟩
      else if certificate.blockId < previous.blockId then
        let db := db.write [.put (.observed certificate.height certificate.parentBlockId)
          (encodeLocalBytes encoded)] fates.observation
        if fates.observation = .done then ⟨.canonicalReorgRequired, false, db⟩
        else ⟨.storageError, true, db⟩
      else ⟨.competingNonCanonical, false, db⟩

/-- `PoaConflictDetector::Observe`. -/
def observe (halted : Bool) (db : NodeDb)
    (certificate : PoaFinalityCertificate) (block : CybouBlock) (fates : CommitFates) : Observation :=
  match serializePoaFinalityCertificate certificate with
  | none => ⟨.invalidCertificate, halted, db⟩
  | some encoded =>
    if verifyPoaCertificateForBlock certificate g.poaKey g.networkBinding block = false then
      ⟨.invalidCertificate, halted, db⟩
    else if halted then ⟨.alreadyHalted, halted, db⟩
    else
      let key := StoreKey.observed certificate.height certificate.parentBlockId
      match readBytes db key with
      | none =>
        if (db key).isSome then persistHalt db fates.halt
        else
          let db := db.write [.put key (encodeLocalBytes encoded)] fates.observation
          if fates.observation = .done then ⟨.observed, false, db⟩ else ⟨.storageError, true, db⟩
      | some previousBytes => observeAgain g db certificate encoded previousBytes fates

def validConflictRecord (record : Bytes) : Bool :=
  if record.length ≠ 1 + 2 * POA_FINALITY_CERTIFICATE_SIZE ∨ record.head? ≠ some HALT_EQUIVOCATION then
    false
  else
    match deserializePoaFinalityCertificate ((record.drop 1).take POA_FINALITY_CERTIFICATE_SIZE),
      deserializePoaFinalityCertificate ((record.drop (1 + POA_FINALITY_CERTIFICATE_SIZE)).take
        POA_FINALITY_CERTIFICATE_SIZE) with
    | some first, some second =>
      decide (first.networkBinding = g.networkBinding) && decide (second.networkBinding = g.networkBinding) &&
        decide (first.height = second.height) && decide (first.parentBlockId = second.parentBlockId) &&
        decide (first.blockId ≠ second.blockId) &&
        verifyPoaFinalityCertificate first g.poaKey g.networkBinding first.blockId first.height
          first.parentBlockId &&
        verifyPoaFinalityCertificate second g.poaKey g.networkBinding second.blockId second.height
          second.parentBlockId
    | _, _ => false

/-! ### Loading -/

/-- A `CybouStateStore` with its detector, on its store. -/
structure Node where
  db : NodeDb
  snapshot : Option CybouState := none
  halted : Bool := false

def loadStateLocked (db : NodeDb) : Except StateLoadError CybouState :=
  if (db .state).isNone ∧ (db .hash).isNone ∧ (db .head).isNone ∧ (db .networkId).isNone then
    .error .notFound
  else if (db .state).isNone ∨ (db .hash).isNone ∨ (db .head).isNone ∨ (db .networkId).isNone then
    .error .corrupt
  else
    match readHash db .networkId with
    | none => .error .corrupt
    | some stored =>
      if stored ≠ g.networkBinding then .error .networkMismatch
      else
        match readBytes db .state, readHash db .hash with
        | some bytes, some storedHash =>
          match deserializeCybouState bytes with
          | none => .error .corrupt
          | some state =>
            if cybouStateHash state true ≠ some storedHash then .error .corrupt else .ok state
        | _, _ => .error .corrupt

def getStateSnapshotLocked (node : Node) :
    Except StateLoadError CybouState :=
  match node.snapshot with
  | some state => .ok state
  | none => loadStateLocked g node.db

def getBlock (db : NodeDb) (id : Hash256) : Option FinalizedBlock :=
  (readBytes db (.block id)).bind deserializeFinalizedBlock

/-- The walk from the head of `GetBlockAtHeight` for stores without a height index. -/
def ancestorId (db : NodeDb) : Nat → UInt64 → Hash256 → Option Hash256
  | 0, _, id => some id
  | n + 1, cursor, id =>
    match getBlock db id with
    | none => none
    | some ancestor =>
      if ancestor.block.height ≠ cursor ∨ computeBlockId ancestor.block ≠ id then none
      else ancestorId db n (cursor - 1) ancestor.block.parentBlockId

def getBlockIdAtHeight (db : NodeDb) (height : UInt64) : Option Hash256 :=
  match readHash db (.blockHeight height) with
  | some id => some id
  | none =>
    match getFinalizedHead db with
    | none => none
    | some head =>
      if height > head.height then none
      else ancestorId db (head.height.toNat - height.toNat) head.height head.blockId

def getBlockAtHeight (db : NodeDb) (height : UInt64) : Option FinalizedBlock :=
  if height = 0 then none
  else
    match getBlockIdAtHeight db height with
    | none => none
    | some id =>
      match getBlock db id with
      | none => none
      | some fb => if fb.block.height ≠ height ∨ computeBlockId fb.block ≠ id then none else some fb

def getFinalizedOperationHeight (db : NodeDb) (id : Hash256) :
    Option UInt64 :=
  if id.isNull = true then none
  else
    match readHash db (.operation id) with
    | none => none
    | some blockId =>
      match getFinalizedHead db, getBlock db blockId with
      | some head, some fb =>
        if fb.block.height = 0 ∨ fb.block.height > head.height ∨ computeBlockId fb.block ≠ blockId ∨
            fb.certificate.blockId ≠ blockId ∨ fb.certificate.height ≠ fb.block.height ∨
            fb.certificate.networkBinding ≠ g.networkBinding then none
        else if fb.block.operations.any (fun op => decide (computeOperationId op = some id)) then
          some fb.block.height
        else none
      | _, _ => none

/-! ### Events -/

def encodeLocation (height : UInt64) (operationIndex : UInt32) (blockId : Hash256) : Bytes :=
  encodeLocalUnsigned 8 height.toNat ++ encodeLocalUnsigned 4 operationIndex.toNat ++ blockId.1

def kemKey : ProtocolOperation → Option StoreKey
  | .accountCreate op => some (.eventsKem op.accountId 0)
  | .identityRotate op => some (.eventsKem op.accountId op.keyEpoch)
  | _ => none

def isRootPublication : ProtocolOperation → Bool
  | .rootPublication _ => true
  | _ => false

/-- The loop of `WriteEvents`, from index `i` on; `none` when it throws. -/
def operationEvents (block : CybouBlock) (erase : Bool) : Nat → List ProtocolOperation → Option Batch
  | _, [] => some []
  | i, op :: rest => do
    let id ← computeOperationId op
    let value := encodeLocalBytes (encodeLocation block.height (UInt32.ofNat i) (computeBlockId block))
    let edit := fun key => if erase then Edit.erase key else .put key value
    let rest ← operationEvents block erase (i + 1) rest
    return edit (.eventsOperation id) :: ((kemKey op).map edit).toList ++ rest

def writeEvents (block : CybouBlock) (erase : Bool) : Option Batch := do
  let edits ← operationEvents block erase 0 block.operations
  let key := StoreKey.eventsPublication block.height
  let last := if erase || !block.operations.any isRootPublication then Edit.erase key
    else .put key (encodeLocalBytes (encodeLocation block.height 0 (computeBlockId block)))
  return edits ++ [last]

def eraseReplaced : Option CybouBlock → Option Batch
  | none => some []
  | some old => writeEvents old true

def appendFinalizedEvents (db : NodeDb) (block : CybouBlock) (previous : FinalizedHead)
    (replaced : Option CybouBlock) : Option Batch := do
  let erased ← eraseReplaced replaced
  let written ← writeEvents block false
  let marker : Batch := if readBytes db .eventsHead = some (encodeFinalizedHead previous) then
      [.put .eventsHead (encodeLocalBytes (encodeFinalizedHead ⟨computeBlockId block, block.height⟩))]
    else []
  return erased ++ written ++ marker

/-! ### Planning a commit -/

structure BlockTransitionResult where
  error : BlockTransitionError := .none
  opResult : BlockExecutionResult := {}

inductive Plan where
  /-- Return without a write. -/
  | refuse (result : BlockTransitionResult)
  /-- An exception escapes before the write. -/
  | throw
  /-- Write the batch and cache the state. -/
  | write (batch : Batch) (state : CybouState)

def refusal (error : BlockTransitionError) : Plan := .refuse { error }

def blockContext (block : CybouBlock) : BlockContext where
  networkBinding := g.networkBinding
  blockHeight := block.height
  params := g.params
  poaKey := some g.poaKey
  verifiedParentId := block.parentBlockId

def executing (parent : CybouState) (block : CybouBlock)
    (next : CybouState → Hash256 → Plan) : Plan :=
  match executeBlockOperations parent block.operations (blockContext g block) with
  | none => .throw
  | some execution =>
    if execution.isOk = false then
      if execution.error = .tooManyAccountCreates then refusal .tooManyAccountCreates
      else .refuse { error := .invalidOperation, opResult := execution }
    else
      match execution.state, execution.stateRoot with
      | some state, some root => next state root
      | _, _ => .throw

def stateEdits (height : UInt64) (root : Hash256) (bytes : Bytes) : Batch :=
  [.put .state (encodeLocalBytes bytes), .put .hash (encodeLocalHash root),
    .put (.stateHeight height) (encodeLocalBytes bytes)]

def blockEdits (block : CybouBlock) (encoded : Bytes) : Batch :=
  [.put .head (encodeFinalizedHead ⟨computeBlockId block, block.height⟩),
    .put (.block (computeBlockId block)) (encodeLocalBytes encoded),
    .put (.blockHeight block.height) (encodeLocalHash (computeBlockId block))]

def eraseOperations (block : CybouBlock) : Batch :=
  (block.operations.filterMap computeOperationId).map fun id => .erase (.operation id)

def indexOperations (block : CybouBlock) : Batch :=
  (block.operations.filterMap computeOperationId).map fun id =>
    .put (.operation id) (encodeLocalHash (computeBlockId block))

/-- The branch for a smaller competitor of the tip. -/
def planReplacement (db : NodeDb) (head : FinalizedHead)
    (fb : FinalizedBlock) : Plan :=
  let block := fb.block
  if head.height ≠ block.height then refusal .invalidHeight
  else
    match getBlockAtHeight db block.height with
    | none => refusal .parentMismatch
    | some old =>
      if old.block.parentBlockId ≠ block.parentBlockId then refusal .parentMismatch
      else
        match readBytes db (.stateHeight (block.height - 1)) with
        | none => refusal .corruptState
        | some parentBytes =>
          match deserializeCybouState parentBytes with
          | none => refusal .corruptState
          | some parent =>
            executing g parent block fun state root =>
              if root ≠ block.resultingStateRoot then refusal .stateRootMismatch
              else
                match serializeCybouState state false, serializeFinalizedBlock fb with
                | some bytes, some encoded =>
                  match appendFinalizedEvents db block head (some old.block) with
                  | none => .throw
                  | some events =>
                    .write (eraseOperations old.block ++ stateEdits block.height root bytes ++
                      blockEdits block encoded ++ indexOperations block ++ events) state
                | _, _ => refusal .corruptState

/-- `expires_name`: some pending commit runs out at this block. -/
def expiresName (state : CybouState) (height : UInt64) : Bool :=
  state.names.pendingCommits.entries.any fun item =>
    decide (g.params.nameCommitMaxLifetime > 0) && decide (height > item.2.commitHeight) &&
      decide (height - item.2.commitHeight > g.params.nameCommitMaxLifetime)

def finishExtension (db : NodeDb) (head : FinalizedHead) (fb : FinalizedBlock) (edits : Batch)
    (state : CybouState) : Plan :=
  match serializeFinalizedBlock fb with
  | none => refusal .corruptState
  | some encoded =>
    if fb.block.operations.any (fun op => (computeOperationId op).isNone) then refusal .invalidOperation
    else
      let window : Batch :=
        if fb.block.height > 16 then [.erase (.stateHeight (fb.block.height - 16))] else []
      match appendFinalizedEvents db fb.block head none with
      | none => .throw
      | some events =>
        .write (edits ++ blockEdits fb.block encoded ++ indexOperations fb.block ++ window ++ events) state

def planExtension (db : NodeDb) (loaded : CybouState)
    (head : FinalizedHead) (fb : FinalizedBlock) : Plan :=
  let block := fb.block
  if head.blockId ≠ block.parentBlockId then refusal .parentMismatch
  else if head.height = UINT64_MAX ∨ block.height ≠ head.height + 1 then refusal .invalidHeight
  else if block.operations = [] ∧ expiresName g loaded block.height = false then
    -- An empty block without expiring commits keeps the state as it is.
    match readHash db .hash with
    | none => refusal .corruptState
    | some root =>
      if root ≠ block.resultingStateRoot then refusal .stateRootMismatch
      else
        match serializeCybouState loaded false with
        | none => refusal .corruptState
        | some bytes =>
          finishExtension db head fb [.put (.stateHeight block.height) (encodeLocalBytes bytes)] loaded
  else
    executing g loaded block fun state root =>
      if root ≠ block.resultingStateRoot then refusal .stateRootMismatch
      else
        match serializeCybouState state false with
        | none => refusal .corruptState
        | some bytes => finishExtension db head fb (stateEdits block.height root bytes) state

/-! ### Committing -/

inductive CommitOutcome where
  | returned (result : BlockTransitionResult)
  | thrown

structure CommitReply where
  outcome : CommitOutcome
  node : Node

def loadFailure : StateLoadError → BlockTransitionError
  | .networkMismatch => .networkMismatch
  | .corrupt => .corruptState
  | .notFound => .stateNotInitialized

def observationFailure : PoaConflictStatus → Option BlockTransitionError
  | .safetyConflict | .competingNonCanonical => some .poaEquivocationDetected
  | .alreadyHalted | .corruptStorage | .storageError => some .poaSafetyHalted
  | .invalidCertificate => some .invalidCertificate
  | .observed | .alreadyObserved | .canonicalReorgRequired => none

def Plan.run (plan : Plan) (node : Node) (fate : Fate) : CommitReply :=
  match plan with
  | .refuse result => ⟨.returned result, node⟩
  | .throw => ⟨.thrown, node⟩
  | .write batch state =>
    let db := node.db.write batch fate
    if fate = .done then ⟨.returned {}, { node with db, snapshot := some state }⟩
    else ⟨.thrown, { node with db }⟩

/-- The checks on the certificate that `CommitFinalizedBlock` makes itself. -/
def certificateMatches (fb : FinalizedBlock) : Bool :=
  decide (fb.certificate.networkBinding = g.networkBinding) &&
    decide (fb.certificate.blockId = computeBlockId fb.block) &&
    decide (fb.certificate.height = fb.block.height) &&
    decide (fb.certificate.parentBlockId = fb.block.parentBlockId) &&
    verifyPoaCertificateForBlock fb.certificate g.poaKey g.networkBinding fb.block

def commitCertified (node : Node) (loaded : CybouState)
    (head : FinalizedHead) (fb : FinalizedBlock) (fates : CommitFates) : CommitReply :=
  let seen := observe g node.halted node.db fb.certificate fb.block fates
  let node := { node with db := seen.db, halted := seen.halted }
  match observationFailure seen.status with
  | some error => ⟨.returned { error }, node⟩
  | none =>
    let plan := if seen.status = .canonicalReorgRequired then planReplacement g node.db head fb
      else planExtension g node.db loaded head fb
    plan.run node fates.batch

def commitFinalizedBlock (node : Node) (fb : FinalizedBlock)
    (fates : CommitFates) : CommitReply :=
  match getStateSnapshotLocked g node with
  | .error e => ⟨.returned { error := loadFailure e }, node⟩
  | .ok loaded =>
    let node := { node with snapshot := some loaded }
    if node.halted then ⟨.returned { error := .poaSafetyHalted }, node⟩
    else if (computeBlockId fb.block).isNull = true then ⟨.returned { error := .invalidBlockId }, node⟩
    else
      match getFinalizedHead node.db with
      | none => ⟨.returned { error := .corruptHead }, node⟩
      | some head =>
        if head.blockId = computeBlockId fb.block then
          ⟨.returned { error := .blockAlreadyApplied }, node⟩
        else if certificateMatches g fb = false then ⟨.returned { error := .invalidCertificate }, node⟩
        else commitCertified g node loaded head fb fates

/-! ### Starting -/

inductive GenesisInitError where
  | none
  | alreadyInitialized
  | genesisStateMismatch
deriving DecidableEq, Repr

def genesisBatch (stateHash : Hash256) (bytes : Bytes) : Batch :=
  let head := encodeFinalizedHead ⟨g.genesisAnchor, 0⟩
  [.put .state (encodeLocalBytes bytes), .put .hash (encodeLocalHash stateHash), .put .head head,
    .put .networkId (encodeLocalHash g.networkBinding), .put (.stateHeight 0) (encodeLocalBytes bytes),
    .put .eventsHead (encodeLocalBytes head)]

/-- `InitializeGenesis`; the fate is that of its batch. -/
def initializeGenesis (node : Node) (genesisState : CybouState)
    (fate : Fate) : Except Fault GenesisInitError × Node :=
  if (node.db .state).isSome ∨ (node.db .hash).isSome ∨ (node.db .head).isSome ∨
      (node.db .networkId).isSome then (.ok .alreadyInitialized, node)
  else
    match cybouStateHash genesisState true, serializeCybouState genesisState true with
    | some stateHash, some bytes =>
      if stateHash ≠ g.genesisStateRoot then (.ok .genesisStateMismatch, node)
      else
        let db := node.db.write (genesisBatch g stateHash bytes) fate
        if fate = .done then (.ok .none, { node with db, snapshot := some genesisState })
        else (.error .thrown, { node with db })
    | _, _ => (.ok .genesisStateMismatch, node)

/-- The constructor of the detector on stored metadata: whether it starts halted,
    or `none` when it throws. -/
def loadDetector (db : NodeDb) : Option Bool :=
  match readBytes db .detectorHalt with
  | some record =>
    if record = [HALT_CORRUPT_STORAGE] then some true
    else if validConflictRecord g record then some false
    else none
  | none => if (db .detectorHalt).isSome then none else some false

/-- The constructor of `CybouStateStore`, with that of its detector; the fate is
    that of the metadata write of a first start. -/
def openNode (db : NodeDb) (fate : Fate) : NodeDb × Option Node :=
  match computePoaFinalizerKeyId g.poaKey with
  | none => (db, none)
  | some keyId =>
    if g.networkBinding.isNull = true then (db, none)
    else
      let expected := g.networkBinding.1 ++ keyId.1
      match readBytes db .detectorMetadata with
      | some metadata =>
        if metadata ≠ expected then (db, none)
        else (db, (loadDetector g db).map fun halted => { db, halted })
      | none =>
        if (db .detectorMetadata).isSome ∨ (db .detectorHalt).isSome then (db, none)
        else
          let db := db.write [.put .detectorMetadata (encodeLocalBytes expected)] fate
          (db, if fate = .done then some { db } else none)

end

end Cybou
