import Cybou.IdentityJournal
import Cybou.OperationSubmission
import Cybou.Library.History

/-! # The identity operation coordinator (`identity_operation_coordinator.cpp`)

The coordinator signs the operations of an identity one at a time.  It writes
the exact bytes of an operation to its journal file before it submits them, and
it signs nothing else before the journal is cleared.  Every public method is a
call on the state below; what the key store, the runtime, the peers, the clock
and the file system answer during a call is an argument of the call.

`history` is not a member of the class: it records what was signed and
submitted, and what was seen finalized, for the statements about runs.
-/

namespace Cybou

open Library

/-- The arguments of the constructor.  Without a path nothing is ever journaled. -/
structure CoordinatorConfig where
  networkBinding : Hash256
  hasJournalPath : Bool := true
  relayRetryInterval : Nat := 30000
  interval_pos : 0 < relayRetryInterval

structure IdentityOperationResult where
  phase : IdentityOperationPhase := .rejected
  opId : Hash256 := Hash256.ZERO
  finalizedHeight : UInt64 := 0
  error : String := ""
deriving DecidableEq, Repr

section

variable [Crypto]

inductive CoordinatorEvent where
  /-- An operation was signed for the entry. -/
  | signed (entry : JournalEntry)
  /-- The journaled operation was handed to the runtime while the file held these bytes. -/
  | submitted (entry : JournalEntry) (file : Option Bytes) (operation : ProtocolOperation) (view : SubmissionView)
  /-- The operation was seen in the finalized history. -/
  | finalized (opId : Hash256)
  /-- The finalized state was seen to expect this nonce of the account. -/
  | advanced (accountId : AccountId) (nonce : UInt64)

structure IdentityCoordinator where
  /-- The file at `m_journal_path`. -/
  file : Option Bytes := none
  /-- What the runtime remembers of operations. -/
  statuses : RecentStatuses := []
  entry : Option JournalEntry := none
  nextRelayRetry : Option Nat := none
  loaded : Bool := false
  loadError : Option String := none
  history : List CoordinatorEvent := []

abbrev CoordinatorM := Proc Empty IdentityCoordinator

namespace IdentityCoordinator

/-! ### The runtime and the file system -/

def finalizedEvents (found : Bool) (opId : Hash256) : List CoordinatorEvent :=
  if found then [.finalized opId] else []

/-- `GetOperationStatus`. -/
def queryStatus (view : StatusView) (opId : Hash256) : CoordinatorM OperationStatus := do
  let w ← get
  set { w with history := finalizedEvents view.finalizedHeight.isSome opId ++ w.history }
  return getOperationStatus w.statuses view opId

def recordEvents (accountId : AccountId) (record : Option IdentityRecord) : List CoordinatorEvent :=
  (record.map fun found : IdentityRecord => .advanced accountId found.nonce).toList

/-- `identities.Find` in the finalized state, which may be unavailable. -/
def findRecord (accountId : AccountId) (record : Option IdentityRecord) :
    CoordinatorM (Option IdentityRecord) := do
  let w ← get
  set { w with history := recordEvents accountId record ++ w.history }
  return record

def submitJournaled (entry : JournalEntry) (operation : ProtocolOperation) (view : SubmissionView) :
    CoordinatorM OperationSubmitResult := do
  let w ← get
  let opId := (computeOperationId operation).getD Hash256.ZERO
  set { w with
    statuses := (submitOperation view opId w.statuses).2
    history := finalizedEvents view.findsFinalized opId ++
      CoordinatorEvent.submitted entry.core w.file operation view :: w.history }
  return (submitOperation view opId w.statuses).1

def durableReplace (file : Option Bytes) (bytes : Bytes) : Fate → Option Bytes
  | .done | .stored => some bytes
  | .lost => file

variable (config : CoordinatorConfig)

def canSave (entry : JournalEntry) : Bool :=
  config.hasJournalPath && !entry.operationBytes.isEmpty &&
    decide (entry.operationBytes.length ≤ MAX_JOURNALED_OPERATION_BYTES)

def saveJournal (entry : JournalEntry) (fate : Fate) : CoordinatorM Bool := do
  if canSave config entry = false then
    return false
  else
    modify fun w => { w with file := durableReplace w.file (encodeJournal entry) fate }
    return decide (fate = .done)

/-- `LoadJournal`; `canOpen` is whether an existing file can be opened. -/
def loadJournal (canOpen : Bool) : CoordinatorM Bool := do
  let w ← get
  if w.loaded then
    return w.loadError.isNone
  else
    match (if config.hasJournalPath then w.file else none) with
    | none =>
      set { w with loaded := true }
      return true
    | some bytes =>
      if canOpen = false then
        set { w with loaded := true, loadError := some "Cannot open Identity operation journal" }
        return false
      else
        match parseJournal config.networkBinding bytes with
        | .error text =>
          set { w with loaded := true, loadError := some text }
          return false
        | .ok entry =>
          set { w with loaded := true, entry := some entry }
          return true

/-- `ClearJournal`; `removed` is whether the file could be removed. -/
def clearJournal (removed : Bool) : CoordinatorM Bool := do
  if config.hasJournalPath && !removed then
    return false
  else
    modify fun w => { w with
      file := if config.hasJournalPath then none else w.file
      entry := none
      nextRelayRetry := none }
    return true

/-! ### `SubmitExact` -/

structure SubmitEnvironment where
  saveBefore : Fate := .done
  view : SubmissionView := {}
  now : Nat := 0
  saveAfter : Fate := .done
  removed : Bool := true

/-- `entry.phase = phase`. -/
def enterPhase (entry : JournalEntry) (phase : IdentityOperationPhase) : CoordinatorM PUnit :=
  modify fun w => { w with entry := some (entry.setPhase phase) }

def setRelayRetry (next : Option Nat) : CoordinatorM PUnit :=
  modify fun w => { w with nextRelayRetry := next }

/-- The branch of `SubmitExact` of a delivery that is uncertain. -/
def retainUncertain (env : SubmitEnvironment) (entry : JournalEntry)
    (relayRetryInFlight : Bool) : CoordinatorM IdentityOperationResult := do
  let w ← get
  setRelayRetry (if relayRetryInFlight then some (env.now + config.relayRetryInterval) else w.nextRelayRetry)
  enterPhase entry .uncertain
  let _ ← saveJournal config entry env.saveAfter
  return { phase := .uncertain, opId := entry.opId,
           error := "Operation delivery is uncertain; exact bytes are retained" }

/-- The phase `SubmitExact` reports of a submission that succeeded. -/
def resultPhase (status : OperationSubmitStatus) : IdentityOperationPhase :=
  if status = .alreadyFinalized then .finalized else .accepted

/-- The branch of `SubmitExact` of a submission that succeeded. -/
def retainAdmitted (env : SubmitEnvironment) (entry : JournalEntry)
    (result : OperationSubmitResult) : CoordinatorM IdentityOperationResult := do
  let w ← get
  -- a volatile queue acknowledgment must survive restart as retryable state
  enterPhase entry (if result.status = .relayQueued then .uncertain else resultPhase result.status)
  setRelayRetry (if result.status = .relayQueued ∨ (w.nextRelayRetry.isSome ∧ result.deliveryUncertain) then
    some (env.now + config.relayRetryInterval) else none)
  let saved ← saveJournal config entry env.saveAfter
  if saved = false then
    return { phase := .conflict, opId := entry.opId,
             error := "Operation was admitted but its journal could not be updated" }
  else if resultPhase result.status = .finalized ∧ entry.kind ≠ 0 then
    let _ ← clearJournal config env.removed
    return { phase := resultPhase result.status, opId := entry.opId }
  else
    return { phase := resultPhase result.status, opId := entry.opId }

def submitExact (env : SubmitEnvironment) (entry : JournalEntry) :
    CoordinatorM IdentityOperationResult := do
  match deserializeProtocolOperation entry.operationBytes with
  | none =>
    return { phase := .conflict, opId := entry.opId, error := "Journaled Identity operation cannot be decoded" }
  | some operation =>
    let w ← get
    enterPhase entry .submitting
    let saved ← saveJournal config entry env.saveBefore
    if saved = false then
      return { phase := .conflict, opId := entry.opId, error := "Could not persist Identity operation phase" }
    else
      let result ← submitJournaled entry operation env.view
      if result.isOk then
        retainAdmitted config env entry result
      else if result.deliveryUncertain then
        retainUncertain config env entry w.nextRelayRetry.isSome
      else
        let _ ← clearJournal config env.removed
        return { phase := .rejected, opId := entry.opId, error := "Identity operation was rejected" }

/-! ### `Reconcile` -/

structure ReconcileEnvironment where
  status : StatusView := {}
  /-- The record of the journaled account in the finalized state. -/
  record : Option IdentityRecord := none
  now : Nat := 0
  removed : Bool := true
  submit : SubmitEnvironment := {}

inductive RecordComparison where
  /-- The finalized state still waits for the operation. -/
  | waiting
  /-- The journaled rotation is in the finalized state. -/
  | rotated
  | conflict (error : String)

def rotatedTo (networkBinding : Hash256) (accountId : AccountId) (rotate : IdentityRotate)
    (record : IdentityRecord) : Bool :=
  decide (computeIdentityKemPackageCommitment networkBinding accountId rotate.keyEpoch rotate.newKemPackage =
      some record.kemPackageId) &&
    decide (record.recoveryKey = rotate.newRecoveryKey) &&
    decide (record.authorizationKey = rotate.newAuthorizationKey)

/-- The part of `Reconcile` that compares the journal with the finalized identity. -/
def compareRecord (entry : JournalEntry) (record : IdentityRecord) : RecordComparison :=
  if entry.kind = 0 then
    match deserializeProtocolOperation entry.operationBytes with
    | some (.identityRotate rotate) =>
      if record.nonce = entry.nonce + 1 ∧ record.keyEpoch = entry.keyEpoch ∧
          rotatedTo entry.networkBinding entry.accountId rotate record then .rotated
      else if record.nonce ≠ entry.nonce ∨ record.keyEpoch + 1 ≠ entry.keyEpoch then
        .conflict "Finalized Identity state conflicts with pending rotation"
      else .waiting
    | _ => .conflict "Identity rotation journal is invalid"
  else if record.nonce ≠ entry.nonce ∨ record.keyEpoch ≠ entry.keyEpoch then
    .conflict "Finalized Identity nonce/epoch advanced without the journaled operation"
  else .waiting

def retryScheduled (nextRelayRetry : Option Nat) (now : Nat) : Bool := nextRelayRetry.any fun next => now < next

def retryDue (nextRelayRetry : Option Nat) (now : Nat) : Bool := nextRelayRetry.any fun next => next ≤ now

/-- The end of `Reconcile`, where the finalized state waits for the operation. -/
def reconcileWaiting (env : ReconcileEnvironment) (entry : JournalEntry)
    (status : OperationStatus) : CoordinatorM IdentityOperationResult := do
  let w ← get
  if status.kind = .localPending ∨ status.kind = .acceptedRemote then
    enterPhase entry .accepted
    if status.kind = .acceptedRemote ∧ retryDue w.nextRelayRetry env.now then
      submitExact config env.submit entry
    else
      return { phase := .accepted, opId := entry.opId }
  else if retryScheduled w.nextRelayRetry env.now then
    return { phase := .uncertain, opId := entry.opId,
             error := "Relay acknowledgment is volatile; exact operation retry is scheduled" }
  else
    submitExact config env.submit entry

/-- The branch of `Reconcile` of a finalized operation.  A finalized rotation stays
    journaled until the new identity is in use. -/
def reconcileFinalized (env : ReconcileEnvironment) (entry : JournalEntry)
    (status : OperationStatus) : CoordinatorM IdentityOperationResult := do
  setRelayRetry none
  if entry.kind ≠ 0 then
    let cleared ← clearJournal config env.removed
    if cleared = false then
      return { phase := .conflict, opId := entry.opId, finalizedHeight := status.finalizedHeight,
               error := "Finalized journal could not be cleared" }
    else
      return { phase := .finalized, opId := entry.opId, finalizedHeight := status.finalizedHeight }
  else
    return { phase := .finalized, opId := entry.opId, finalizedHeight := status.finalizedHeight }

def reconcile (env : ReconcileEnvironment) (entry : JournalEntry) :
    CoordinatorM IdentityOperationResult := do
  let status ← queryStatus env.status entry.opId
  if status.kind = .finalized then
    reconcileFinalized config env entry status
  else if status.kind = .rejectedKnown then
    let _ ← clearJournal config env.removed
    return { phase := .rejected, opId := entry.opId, error := "Operation was explicitly rejected" }
  else
    let found ← findRecord entry.accountId env.record
    match found with
    | none =>
      return { phase := .uncertain, opId := entry.opId, error := "Identity state is unavailable; journal retained" }
    | some record =>
      match compareRecord entry record with
      | .conflict text => return { phase := .conflict, opId := entry.opId, error := text }
      | .rotated =>
        enterPhase entry .finalized
        return { phase := .finalized, opId := entry.opId, finalizedHeight := status.finalizedHeight }
      | .waiting => reconcileWaiting config env entry status

/-! ### `Execute` -/

structure IdentityKeys where
  accountId : Option AccountId
  authorizationKey : Option IdentityHybridPublicKey := none
  recoveryKey : Option IdentityHybridPublicKey := none
  kemPackage : Option IdentityKemPackage := none
  signAuthorization : IdentityKeyId → Option IdentityHybridSignature := fun _ => none
  signRecovery : IdentityKeyId → Option IdentityHybridSignature := fun _ => none

structure IdentityRequest where
  kind : IdentityOperationKind
  payloadCommitment : IdentityKeyId
  build : IdentityOperationAuthorization → Option ProtocolOperation

structure ExecuteEnvironment where
  canOpen : Bool := true
  /-- The status asked for when another operation is requested. -/
  status : StatusView := {}
  reconcile : ReconcileEnvironment := {}
  record : Option IdentityRecord := none
  saveNew : Fate := .done
  submit : SubmitEnvironment := {}

def journalOperation (header : Hash256 → JournalHeader) (operation : ProtocolOperation) : Option JournalEntry :=
  match hbytes : serializeProtocolOperation operation, hid : computeOperationId operation with
  | some bytes, some opId =>
    some { networkBinding := (header opId).networkBinding, accountId := (header opId).accountId,
           nonce := (header opId).nonce, keyEpoch := (header opId).keyEpoch, kind := (header opId).kind,
           payloadCommitment := (header opId).payloadCommitment, opId, operationBytes := bytes,
           canonical := ⟨operation, hbytes, hid⟩ }
  | _, _ => none

/-- The signature of `Execute` on the request, with the nonce of the finalized state. -/
def signRequest (networkBinding : Hash256) (keys : IdentityKeys) (accountId : AccountId)
    (record : IdentityRecord) (request : IdentityRequest) : Option JournalEntry := do
  let auth : IdentityOperationAuthorization :=
    { accountId, nonce := record.nonce, keyEpoch := record.keyEpoch, kind := request.kind,
      payloadCommitment := request.payloadCommitment, signature := ⟨FixedBytes.zero 64, []⟩ }
  let digest ← computeIdentityOperationDigest networkBinding auth
  let signature ← keys.signAuthorization digest
  let operation ← request.build { auth with signature }
  journalOperation (fun opId =>
    { networkBinding, accountId, nonce := record.nonce, keyEpoch := record.keyEpoch, kind := request.kind.toByte,
      payloadCommitment := request.payloadCommitment, opId, operationSize := 0 }) operation

def keysMatch (networkBinding : Hash256) (keys : IdentityKeys) (accountId : AccountId)
    (record : IdentityRecord) : Bool :=
  decide (keys.authorizationKey = some record.authorizationKey) &&
    decide (keys.recoveryKey = some record.recoveryKey) &&
    decide (keys.kemPackage.bind (computeIdentityKemPackageCommitment networkBinding accountId record.keyEpoch) =
      some record.kemPackageId)

/-- The end of `Execute` and `RotateIdentity`: the bytes are journaled before they are
    submitted. -/
def journalAndSubmit (entry : JournalEntry) (saveNew : Fate)
    (env : SubmitEnvironment) (error : String) : CoordinatorM IdentityOperationResult := do
  modify fun w => { w with history := .signed entry.core :: w.history }
  let saved ← saveJournal config entry saveNew
  if saved = false then
    return { phase := .rejected, error }
  else
    modify fun w => { w with entry := some entry }
    submitExact config env entry

/-- The part of `Execute` that signs. -/
def executeNew (keys : IdentityKeys) (accountId : AccountId)
    (request : IdentityRequest) (env : ExecuteEnvironment) : CoordinatorM IdentityOperationResult := do
  let found ← findRecord accountId env.record
  match found with
  | none => return { phase := .rejected, error := "Unlocked Identity does not match finalized state" }
  | some record =>
    if keysMatch config.networkBinding keys accountId record = false then
      return { phase := .rejected, error := "Unlocked Identity does not match finalized state" }
    else
      match signRequest config.networkBinding keys accountId record request with
      | none => return { phase := .rejected, error := "Could not sign or build canonical Identity operation" }
      | some entry =>
        journalAndSubmit config entry env.saveNew env.submit
          "Could not durably journal Identity operation before submission"

def sameRequest (entry : JournalEntry) (accountId : AccountId) (request : IdentityRequest) : Bool :=
  decide (entry.accountId = accountId ∧ entry.kind = request.kind.toByte ∧
    entry.payloadCommitment = request.payloadCommitment)

/-- Whether another operation than the requested one is in the way. -/
def otherUnresolved (entry : JournalEntry) (same : Bool) (view : StatusView) : CoordinatorM Bool := do
  if same then
    return false
  else
    let status ← queryStatus view entry.opId
    return decide (status.kind ≠ .finalized ∧ status.kind ≠ .rejectedKnown)

def execute (keys : IdentityKeys) (request : IdentityRequest)
    (env : ExecuteEnvironment) : CoordinatorM IdentityOperationResult := do
  let ready ← loadJournal config env.canOpen
  let w ← get
  if ready = false then
    return { phase := .conflict, error := w.loadError.getD "" }
  else
    match keys.accountId, w.entry with
    | none, _ => return { phase := .rejected, error := "No Identity is unlocked" }
    | some accountId, none => executeNew config keys accountId request env
    | some accountId, some entry =>
      let same := sameRequest entry accountId request
      let blocked ← otherUnresolved entry same env.status
      if blocked then
        return { phase := .conflict, opId := entry.opId, error := "Another Identity operation is unresolved" }
      else
        let previous ← reconcile config env.reconcile entry
        let after ← get
        -- a finalized NameCommit may have expired and been pruned: its retry takes the next nonce
        if same ∧ (previous.phase ≠ .finalized ∨ request.kind ≠ .nameCommit) then
          return previous
        else if after.entry.isSome then
          return { phase := .conflict, opId := previous.opId,
                   error := if previous.error = "" then "Another Identity operation is unresolved"
                     else previous.error }
        else
          executeNew config keys accountId request env

/-! ### `RotateIdentity` -/

structure RotationMaterial where
  recoveryKey : Option IdentityHybridPublicKey
  authorizationKey : Option IdentityHybridPublicKey
  kemPackage : Option IdentityKemPackage
  signRecovery : IdentityKeyId → Option IdentityHybridSignature
  signAuthorization : IdentityKeyId → Option IdentityHybridSignature

structure RotateEnvironment where
  canOpen : Bool := true
  reconcile : ReconcileEnvironment := {}
  record : Option IdentityRecord := none
  saveNew : Fate := .done
  submit : SubmitEnvironment := {}

def signRotation (networkBinding : Hash256) (keys : IdentityKeys) (accountId : AccountId)
    (record : IdentityRecord) (material : RotationMaterial) : Except String JournalEntry :=
  if keys.recoveryKey ≠ some record.recoveryKey then
    .error "Unlocked recovery key does not match finalized Identity"
  else if record.nonce = UINT64_MAX ∨ record.keyEpoch = UINT64_MAX then
    .error "Identity nonce or key epoch is exhausted"
  else
    match material.recoveryKey, material.authorizationKey, material.kemPackage with
    | some newRecoveryKey, some newAuthorizationKey, some newKemPackage =>
      if newRecoveryKey = record.recoveryKey then .error "New Identity key material is invalid or unchanged"
      else
        let unsigned : IdentityHybridSignature := ⟨FixedBytes.zero 64, []⟩
        let rotate : IdentityRotate :=
          { accountId, newRecoveryKey, newAuthorizationKey, newKemPackage, nonce := record.nonce,
            keyEpoch := record.keyEpoch + 1, oldRecoverySignature := unsigned, newRecoveryPop := unsigned,
            newAuthorizationPop := unsigned }
        match computeIdentityRotateDigest networkBinding rotate with
        | none => .error "Could not sign atomic Identity rotation"
        | some digest =>
          match keys.signRecovery digest, material.signRecovery digest, material.signAuthorization digest with
          | some oldRecoverySignature, some newRecoveryPop, some newAuthorizationPop =>
            let operation := ProtocolOperation.identityRotate
              { rotate with oldRecoverySignature, newRecoveryPop, newAuthorizationPop }
            let header := fun opId : Hash256 =>
              { networkBinding, accountId, nonce := record.nonce, keyEpoch := rotate.keyEpoch, kind := 0,
                payloadCommitment := opId, opId, operationSize := 0 : JournalHeader }
            (journalOperation header operation).elim (.error "Could not encode atomic Identity rotation") .ok
          | _, _, _ => .error "Could not sign atomic Identity rotation"
    | _, _, _ => .error "New Identity key material is invalid or unchanged"

def rotateNew (keys : IdentityKeys) (accountId : AccountId)
    (material : RotationMaterial) (env : RotateEnvironment) : CoordinatorM IdentityOperationResult := do
  let found ← findRecord accountId env.record
  match found with
  | none =>
    return { phase := .rejected, error := "Unlocked recovery key does not match finalized Identity" }
  | some record =>
    match signRotation config.networkBinding keys accountId record material with
    | .error text => return { phase := .rejected, error := text }
    | .ok entry =>
      journalAndSubmit config entry env.saveNew env.submit
        "Could not durably journal Identity rotation before submission"

/-- An earlier operation of the account that is finalized or rejected is cleared and does
    not block the rotation. -/
def reconcileOwn (env : ReconcileEnvironment) (entry : JournalEntry)
    (accountId : AccountId) : CoordinatorM PUnit := do
  if entry.accountId = accountId then
    let _ ← reconcile config env entry
    return ⟨⟩
  else
    return ⟨⟩

def rotateIdentity (keys : IdentityKeys) (material : RotationMaterial)
    (env : RotateEnvironment) : CoordinatorM IdentityOperationResult := do
  let ready ← loadJournal config env.canOpen
  let w ← get
  if ready = false then
    return { phase := .conflict, error := w.loadError.getD "" }
  else
    match keys.accountId, w.entry with
    | none, _ => return { phase := .rejected, error := "No Identity is unlocked" }
    | some accountId, none => rotateNew config keys accountId material env
    | some accountId, some entry =>
      if entry.accountId = accountId ∧ entry.kind = 0 then
        reconcile config env.reconcile entry
      else
        reconcileOwn config env.reconcile entry accountId
        let after ← get
        match after.entry with
        | some other =>
          return { phase := .conflict, opId := other.opId, error := "Another Identity operation is unresolved" }
        | none => rotateNew config keys accountId material env

/-! ### The other calls -/

structure RetryEnvironment where
  canOpen : Bool := true
  status : StatusView := {}
  now : Nat := 0
  submit : SubmitEnvironment := {}

/-- The phases in which a journal without a scheduled retry is submitted again. -/
def resubmits (phase : IdentityOperationPhase) : Bool :=
  decide (phase = .uncertain ∨ phase = .submitting ∨ phase = .prepared)

def retryRelayIfDue (env : RetryEnvironment) : CoordinatorM Bool := do
  let ready ← loadJournal config env.canOpen
  let w ← get
  match w.entry with
  | none => return false
  | some entry =>
    if ready = false ∨ (w.nextRelayRetry.isNone ∧ ¬resubmits entry.phase) then
      return false
    else
      let status ← queryStatus env.status entry.opId
      if status.kind = .finalized ∨ status.kind = .rejectedKnown ∨ status.kind = .localPending then
        return false
      else
        let next := w.nextRelayRetry.getD env.now
        setRelayRetry (some next)
        if env.now < next then
          return false
        else
          let _ ← submitExact config env.submit entry
          return true

def completeIdentityRotation (canOpen removed : Bool)
    (finalizedIdentity : IdentityRecord) : CoordinatorM Bool := do
  let ready ← loadJournal config canOpen
  let w ← get
  match w.entry with
  | none => return false
  | some entry =>
    if ready = false ∨ entry.kind ≠ 0 then
      return false
    else
      match deserializeProtocolOperation entry.operationBytes with
      | some (.identityRotate rotate) =>
        let _ ← findRecord entry.accountId (some finalizedIdentity)
        if rotatedTo config.networkBinding rotate.accountId rotate finalizedIdentity = false ∨
            finalizedIdentity.keyEpoch ≠ rotate.keyEpoch ∨ finalizedIdentity.nonce ≠ rotate.nonce + 1 then
          return false
        else
          clearJournal config removed
      | _ => return false

def hasPendingIdentityRotation (canOpen : Bool) : CoordinatorM Bool := do
  let ready ← loadJournal config canOpen
  let w ← get
  return ready && w.entry.any fun entry => decide (entry.kind = 0)

structure GetStatusEnvironment where
  canOpen : Bool := true
  status : StatusView := {}
  now : Nat := 0
  submit : SubmitEnvironment := {}

/-- A settled status of the journaled operation ends its retries. -/
def settleRetry (w : IdentityCoordinator) (opId : Hash256) : CoordinatorM PUnit :=
  setRelayRetry (if w.entry.any (fun entry => decide (entry.opId = opId)) then none else w.nextRelayRetry)

def getStatus (opId : Hash256) (env : GetStatusEnvironment) :
    CoordinatorM IdentityOperationResult := do
  let ready ← loadJournal config env.canOpen
  let w ← get
  if ready = false then
    return { phase := .conflict, opId, error := w.loadError.getD "" }
  else
    let status ← queryStatus env.status opId
    if status.kind = .finalized then
      settleRetry w opId
      return { phase := .finalized, opId, finalizedHeight := status.finalizedHeight }
    else if status.kind = .rejectedKnown then
      settleRetry w opId
      return { phase := .rejected, opId, error := "Operation was rejected" }
    else
      match w.entry.filter (fun entry => decide (entry.opId = opId) && retryDue w.nextRelayRetry env.now) with
      | some entry => submitExact config env.submit entry
      | none =>
        if status.kind = .localPending ∨ status.kind = .acceptedRemote then
          return { phase := .accepted, opId }
        else
          return { phase := .uncertain, opId,
                   error := "Operation status is unknown; exact bytes remain journaled" }

end IdentityCoordinator

end

end Cybou
