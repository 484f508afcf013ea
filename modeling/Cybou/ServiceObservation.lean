import Cybou.ChunkStore
import Cybou.StorageEvidence

/-! # Checks of a storage provider and the service they credit

`storage_assignment_observation_store.cpp`, `storage_audit.cpp`.

`ObserveService` works in two batches with the network call between them.  The
first one makes an intent durable that has forgotten the last success; the second
one rewrites the checkpoint, and if the check succeeded it also retains the
observation and credits the time since the last success, cut at the ends of the
periods.  Here the two batches are two functions, so that a call can break off
between them.
-/

namespace Cybou

open Library

/-! ### Observations -/

def MAX_STORAGE_ASSIGNMENT_OBSERVATIONS : Nat := 4096

def STORAGE_ASSIGNMENT_MAX_SERVICE_GAP_SECONDS : UInt64 := 24 * 60 * 60

def STORAGE_ASSIGNMENT_FULL_GET_EVERY_SUCCESSES : UInt64 := 8

def STORAGE_AUDIT_SAMPLE_SIZE : Nat := 64

def MAX_RECEIPT_BYTES : Nat := 8192

inductive StorageAssignmentObservationKind where
  | offsetAudit
  | fullGet
deriving DecidableEq, Repr

structure StorageAuditChallenge where
  chunkId : ChunkId
  byteOffset : UInt64
  nonce : FixedBytes 32
deriving DecidableEq, Repr

structure StorageAuditAnswer where
  held : Bool
  responseHash : Hash256
deriving DecidableEq, Repr

structure StorageAssignmentObservation where
  kind : StorageAssignmentObservationKind
  assignmentCommitment : FixedBytes 32
  storageId : FixedBytes 32
  replicaSlot : UInt8
  receipt : Bytes
  challenge : Option StorageAuditChallenge := none
  answer : Option StorageAuditAnswer := none
  retrievedBytes : Bytes := []
deriving DecidableEq, Repr

structure StoredStorageAssignmentObservation where
  observedAtUtc : UInt64
  storedSize : UInt32
  observation : StorageAssignmentObservation
deriving DecidableEq, Repr

/-! ### Names -/

/-- `Prefix`. -/
def observationPrefix (commitment : FixedBytes 32) (slot : UInt8) : Bytes :=
  ascii "storage/assignment-observations/" ++ hex commitment.1 ++ (ascii "/" ++ decimal slot.toNat)

def observationKey (base : Bytes) (time : UInt64) : Bytes := base ++ ascii "/" ++ decimal time.toNat

def observationIndexKey (base : Bytes) : Bytes := base ++ ascii "/index"

def serviceCheckpointKey (base : Bytes) : Bytes := base ++ ascii "/service-checkpoint"

def intervalProofKey (base : Bytes) (proofCommitment : FixedBytes 32) : Bytes :=
  base ++ ascii "/interval-proof/" ++ hex proofCommitment.1

/-! ### Records -/

/-- The check of the reading loop of `Index` on the next time. -/
def indexFollows (db : PrivateApplicationStore) (base : Bytes) (prior : List UInt64) (time : UInt64) : Prop :=
  time ≠ 0 ∧ prior.getLast?.all (fun last => decide (last < time)) = true ∧ db.has (observationKey base time) = true

instance (db : PrivateApplicationStore) (base : Bytes) (prior : List UInt64) (time : UInt64) :
    Decidable (indexFollows db base prior time) := by
  unfold indexFollows
  infer_instance

def readIndex (db : PrivateApplicationStore) (base : Bytes) : Reader (List UInt64) := do
  let count ← Reader.count
  Reader.require (count ≤ MAX_STORAGE_ASSIGNMENT_OBSERVATIONS)
  Reader.growN Reader.u64 (indexFollows db base) count []

/-- `Index`. -/
def observationIndex (db : PrivateApplicationStore) (base : Bytes) : Option (List UInt64) :=
  match db.get (observationIndexKey base) with
  | none => if db.has (observationIndexKey base) = true ∨ db.unlocked = false then none else some []
  | some bytes => readBinary BINARY_LIMIT (readIndex db base) bytes

def writeIndex (times : List UInt64) : Bytes := le32Of times.length ++ Reader.concat le64 times

/-- `Encode`: `none` where the receipt is too long and the writer throws.  An audit is
    written with its challenge and its answer, which `Verify` has seen before. -/
def encodeObservation (record : StoredStorageAssignmentObservation) : Option Bytes :=
  let o := record.observation
  if o.receipt.length > MAX_RECEIPT_BYTES then none
  else
    let head := le64 record.observedAtUtc ++ le32 record.storedSize ++ o.assignmentCommitment.1 ++ o.storageId.1 ++
      [o.replicaSlot] ++ [if o.kind = .offsetAudit then 0 else 1] ++ (le32Of o.receipt.length ++ o.receipt)
    match o.kind with
    | .fullGet => some head
    | .offsetAudit => do
      let challenge ← o.challenge
      let answer ← o.answer
      return head ++ (challenge.chunkId.1 ++ le64 challenge.byteOffset ++ challenge.nonce.1 ++
        writeFlag answer.held ++ answer.responseHash.1)

def readObservation : Reader StoredStorageAssignmentObservation := do
  let observedAtUtc ← Reader.u64
  let storedSize ← Reader.u32
  let assignmentCommitment ← Reader.fixed 32
  let storageId ← Reader.fixed 32
  let replicaSlot ← Reader.u8
  let kind ← Reader.u8
  Reader.require (kind ≤ 1)
  let size ← Reader.count
  Reader.require (size ≤ MAX_RECEIPT_BYTES)
  let receipt ← Reader.bytes size
  if kind = 0 then
    let chunkId ← Reader.fixed 32
    let byteOffset ← Reader.u64
    let nonce ← Reader.fixed 32
    let held ← readFlag
    let responseHash ← Reader.fixed 32
    return { observedAtUtc, storedSize
             observation := { kind := .offsetAudit, assignmentCommitment, storageId, replicaSlot, receipt
                              challenge := some { chunkId, byteOffset, nonce }
                              answer := some { held, responseHash } } }
  else
    return { observedAtUtc, storedSize
             observation := { kind := .fullGet, assignmentCommitment, storageId, replicaSlot, receipt } }

/-- `Decode`. -/
def decodeObservation (bytes : Bytes) : Option StoredStorageAssignmentObservation :=
  readBinary BINARY_LIMIT readObservation bytes

structure ServiceCheckpoint where
  anchor : UInt64
  seconds : UInt64
  lastAttempt : UInt64 := 0
  lastSuccess : UInt64 := 0
  successes : UInt64 := 0
  pending : Bool := false
deriving DecidableEq, Repr

def encodeCheckpoint (c : ServiceCheckpoint) : Bytes :=
  le64 c.anchor ++ le64 c.seconds ++ le64 c.lastAttempt ++ le64 c.lastSuccess ++ le64 c.successes ++
    writeFlag c.pending

def readCheckpoint : Reader ServiceCheckpoint := do
  let anchor ← Reader.u64
  let seconds ← Reader.u64
  let lastAttempt ← Reader.u64
  let lastSuccess ← Reader.u64
  let successes ← Reader.u64
  let pending ← readFlag
  return { anchor, seconds, lastAttempt, lastSuccess, successes, pending }

/-- What `DecodeCheckpoint` asks of the fields. -/
def ServiceCheckpoint.Valid (c : ServiceCheckpoint) : Prop :=
  c.anchor ≠ 0 ∧ c.seconds ≠ 0 ∧ c.lastAttempt ≠ 0 ∧ c.lastSuccess ≤ c.lastAttempt ∧
    ¬(c.pending = true ∧ c.lastSuccess ≠ 0)

instance (c : ServiceCheckpoint) : Decidable c.Valid := by
  unfold ServiceCheckpoint.Valid
  infer_instance

def decodeCheckpoint (bytes : Bytes) : Option ServiceCheckpoint :=
  (readBinary BINARY_LIMIT readCheckpoint bytes).filter fun c => decide c.Valid

/-! ### Calls -/

/-- What a call of `ObserveService` is given.  `receiptValid` is `ReceiptValid` of its
    assignment and slot. -/
structure ServiceRequest where
  plan : StorageAssignmentPlan
  slot : UInt8
  provider : FixedBytes 32
  receipt : Bytes
  size : UInt32
  time : UInt64
  through : UInt64
  reference : Bytes := []
  forceFull : Bool := false
  scope : StorageAssignmentEvidenceScope
  receiptValid : Bytes → UInt32 → Bool

/-- What surrounds one of the two batches: whether the identity is unlocked, whether the
    batch is the outermost one, what `AssignmentValid` of the assignment says, and the fate
    of the commit. -/
structure ServicePhase where
  unlocked : Bool := true
  outermost : Bool := true
  assignmentValid : PrivateApplicationStore → Bool
  fate : Fate := .done

/-- What the first batch leaves for the second. -/
structure ServiceIntent where
  prior : ServiceCheckpoint
  previousRecord : Option Bytes
  bytes : Bytes
deriving DecidableEq, Repr

namespace ServiceRequest

def base (r : ServiceRequest) : Bytes := observationPrefix r.plan.commitment r.slot

def checkpointKey (r : ServiceRequest) : Bytes := serviceCheckpointKey r.base

end ServiceRequest

section

variable [Crypto]

def computeStorageAuditResponse (chunkBytes : Bytes) (byteOffset : UInt64) (nonce : FixedBytes 32) :
    Option Hash256 :=
  if chunkBytes = [] ∨ byteOffset.toNat ≥ chunkBytes.length then none
  else some (Crypto.blake3 ((chunkBytes.drop byteOffset.toNat).take STORAGE_AUDIT_SAMPLE_SIZE ++ nonce.1))

namespace ServiceRequest

def verify (r : ServiceRequest) (record : StoredStorageAssignmentObservation) (reference : Bytes) : Bool :=
  let o := record.observation
  if record.observedAtUtc = 0 ∨ record.storedSize = 0 ∨
      record.storedSize.toNat > ENCRYPTED_CHUNK_MAX_STORED_BYTES ∨ reference.length ≠ record.storedSize.toNat ∨
      computeChunkId reference ≠ r.plan.context.chunk ∨ o.assignmentCommitment ≠ r.plan.commitment ∨
      o.replicaSlot ≠ r.slot ∨ (r.plan.selected[r.slot.toNat]?).map (·.storageId) ≠ some o.storageId ∨
      r.receiptValid o.receipt record.storedSize = false then false
  else match o.kind with
    | .fullGet => o.challenge.isNone && o.answer.isNone
    | .offsetAudit =>
      match o.challenge, o.answer with
      | some challenge, some answer =>
        answer.held && decide (challenge.chunkId = r.plan.context.chunk) &&
          decide (computeStorageAuditResponse reference challenge.byteOffset challenge.nonce =
            some answer.responseHash)
      | _, _ => false

/-- The checks of `ObserveService` before it opens the store. -/
def admissible (r : ServiceRequest) : Bool :=
  let c := r.scope.assignment.context
  decide (r.time ≠ 0) && decide (r.time ≤ r.through) && decide (r.size ≠ 0) &&
    decide (r.size.toNat ≤ ENCRYPTED_CHUNK_MAX_STORED_BYTES) && decide (r.scope.assignment = r.plan) &&
    decide (r.scope.replicaSlot = r.slot) && decide (r.scope.termStartUtc ≠ 0) &&
    decide (r.scope.periodSeconds ≠ 0) && decide (c.termStart < c.termEnd) &&
    decide (c.termEnd - c.termStart ≤ (UINT64_MAX - r.scope.termStartUtc) / r.scope.periodSeconds) &&
    decide (r.scope.termStartUtc ≤ r.time) &&
    decide (r.time ≤ r.scope.termStartUtc + (c.termEnd - c.termStart) * r.scope.periodSeconds) &&
    decide ((r.plan.selected[r.slot.toNat]?).map (·.storageId) = some r.provider) &&
    r.receiptValid r.receipt r.size &&
    (decide (r.reference = []) ||
      (decide (r.reference.length = r.size.toNat) && decide (computeChunkId r.reference = c.chunk)))

def loadObservation (r : ServiceRequest) (phase : ServicePhase) (db : PrivateApplicationStore) :
    Option StoredStorageAssignmentObservation := do
  if phase.assignmentValid db = false then none
  else
    let index ← observationIndex db r.base
    if r.time ∉ index then none
    else
      let bytes ← db.get (observationKey r.base r.time)
      let record ← decodeObservation bytes
      if record.observedAtUtc = r.time ∧ r.verify record r.reference = true then some record else none

/-! ### The intent -/

def priorCheckpoint (r : ServiceRequest) (db : PrivateApplicationStore) (index : List UInt64) :
    Option ServiceCheckpoint :=
  match db.get r.checkpointKey with
  | some bytes => decodeCheckpoint bytes
  | none =>
    if db.has r.checkpointKey = true ∨ index ≠ [] then none
    else some { anchor := r.scope.termStartUtc, seconds := r.scope.periodSeconds }

def agrees (r : ServiceRequest) (prior : ServiceCheckpoint) (index : List UInt64) : Bool :=
  decide (prior.anchor = r.scope.termStartUtc) && decide (prior.seconds = r.scope.periodSeconds) &&
    decide (prior.successes.toNat = index.length) &&
    index.getLast?.all (fun last => decide (last ≤ prior.lastAttempt) &&
      (decide (prior.lastSuccess = 0) || decide (last = prior.lastSuccess)))

/-- The record of the last success, if there was one; the outer `none` is a refusal. -/
def previousRecord (r : ServiceRequest) (db : PrivateApplicationStore) (prior : ServiceCheckpoint) :
    Option (Option Bytes) :=
  if prior.lastSuccess = 0 then some none
  else do
    let bytes ← db.get (observationKey r.base prior.lastSuccess)
    let previous ← decodeObservation bytes
    if previous.observedAtUtc ≠ prior.lastSuccess ∨ (r.reference ≠ [] ∧ r.verify previous r.reference = false) then
      none
    else return some bytes

def pendingCheckpoint (r : ServiceRequest) (prior : ServiceCheckpoint) : ServiceCheckpoint :=
  { prior with lastAttempt := r.time, lastSuccess := 0, pending := true }

end ServiceRequest

/-- How the first batch ends: with what the call returns, or with an intent to commit. -/
inductive ServiceStart where
  | answered (record : Option StoredStorageAssignmentObservation)
  | intended (intent : ServiceIntent)
deriving DecidableEq

/-- The first batch of `ObserveService`, up to its commit. -/
def prepareService (r : ServiceRequest) (phase : ServicePhase) (db : PrivateApplicationStore) : ServiceStart :=
  if r.admissible = false then .answered none
  else if phase.outermost = false ∨ phase.assignmentValid db = false then .answered none
  else
    match observationIndex db r.base with
    | none => .answered none
    | some index =>
      match r.priorCheckpoint db index with
      | none => .answered none
      | some prior =>
        if r.agrees prior index = false then .answered none
        else if r.time ∈ index then
          if prior.pending = false ∧ prior.lastSuccess = r.time then .answered (r.loadObservation phase db)
          else .answered none
        else if r.time ≤ prior.lastAttempt ∨ index.length ≥ MAX_STORAGE_ASSIGNMENT_OBSERVATIONS then .answered none
        else
          match r.previousRecord db prior with
          | none => .answered none
          | some previousRecord =>
            let bytes := encodeCheckpoint (r.pendingCheckpoint prior)
            if db.canPut r.checkpointKey bytes = false then .answered none
            else .intended { prior, previousRecord, bytes }

/-- Whether the provider must return the whole chunk. -/
def requiredGet (prior : ServiceCheckpoint) : Bool :=
  decide (prior.successes = 0) ||
    decide (prior.successes % STORAGE_ASSIGNMENT_FULL_GET_EVERY_SUCCESSES =
      STORAGE_ASSIGNMENT_FULL_GET_EVERY_SUCCESSES - 1)

/-! ### The credit -/

inductive ServiceCredit where
  | thrown
  | refused
  | credited (rows : Store Bytes ApplicationRow)

/-- What the commitment of a slice is taken over; `none` where a field is too long and the
    writer throws. -/
def intervalProof (scope : StorageAssignmentEvidenceScope) (previousRecord encoded : Bytes) (period start stop : UInt64) :
    Option Bytes :=
  if previousRecord.length > 16384 ∨ encoded.length > 16384 then none
  else some (le32Of previousRecord.length ++ previousRecord ++ (le32Of encoded.length ++ encoded) ++
    le64 scope.termStartUtc ++ le64 scope.periodSeconds ++ le64 period ++ le64 start ++ le64 stop)

def intervalPair (scope : StorageAssignmentEvidenceScope) (previousTime time period start stop : UInt64) : Bytes :=
  le64 previousTime ++ le64 time ++ le64 scope.termStartUtc ++ le64 scope.periodSeconds ++ le64 period ++
    le64 start ++ le64 stop

/-- The crediting loop.  A slice that is recorded ends after it starts, so the seconds bound
    the turns.  The nested batch of an append is committed into the batch of the call. -/
def creditSlices (r : ServiceRequest) (unlocked : Bool) (previousTime : UInt64) (previousRecord encoded : Bytes) :
    Nat → UInt64 → Store Bytes ApplicationRow → ServiceCredit
  | 0, start, rows => if start < r.time then .refused else .credited rows
  | turns + 1, start, rows =>
    if start < r.time then
      let periodOffset := (start - r.scope.termStartUtc) / r.scope.periodSeconds
      let stop := min r.time (r.scope.termStartUtc + (periodOffset + 1) * r.scope.periodSeconds)
      let period := r.scope.assignment.context.termStart + periodOffset
      match intervalProof r.scope previousRecord encoded period start stop with
      | none => .thrown
      | some proof =>
        let interval := { period, startUtc := start, endUtc := stop, proofCommitment := Crypto.sha256 proof }
        let pair := intervalPair r.scope previousTime r.time period start stop
        let name := intervalProofKey r.base interval.proofCommitment
        if PrivateApplicationStore.canPut { unlocked, rows } name pair = false then .refused
        else
          match appendStorageAssignmentEvidence { unlocked, rows := rows.apply [.put name (.value pair)] } r.scope
            interval r.through .done with
          | (none, _) => .thrown
          | (some .added, rows) => creditSlices r unlocked previousTime previousRecord encoded turns stop rows
          | (some _, _) => .refused
    else .credited rows

/-- The credit for the time since the last success, if there was one and it is not too long
    ago. -/
def creditService (r : ServiceRequest) (intent : ServiceIntent) (db : PrivateApplicationStore)
    (encoded verifiedBytes : Bytes) : ServiceCredit :=
  let last := intent.prior.lastSuccess
  if last ≠ 0 ∧ r.time - last ≤ STORAGE_ASSIGNMENT_MAX_SERVICE_GAP_SECONDS then
    match intent.previousRecord with
    | none => .refused
    | some previousRecord =>
      match decodeObservation previousRecord with
      | none => .refused
      | some previous =>
        if r.verify previous verifiedBytes = false then .refused
        else creditSlices r db.unlocked previous.observedAtUtc previousRecord encoded (r.time - last).toNat last db.rows
  else .credited db.rows

/-! ### The completion -/

/-- How the second batch ends: with nothing to commit, or with rows to commit. -/
inductive ServiceEnd where
  | thrown
  | refused
  | commits (rows : Store Bytes ApplicationRow) (record : Option StoredStorageAssignmentObservation)

/-- The second batch of `ObserveService`, up to its commit. -/
def completeService (r : ServiceRequest) (phase : ServicePhase) (db : PrivateApplicationStore) (intent : ServiceIntent)
    (observation : Option StorageAssignmentObservation) : ServiceEnd :=
  if phase.outermost = false ∨ phase.assignmentValid db = false ∨ db.get r.checkpointKey ≠ some intent.bytes then
    .refused
  else
    let next := { intent.prior with lastAttempt := r.time, lastSuccess := 0, pending := false }
    match observation with
    | none =>
      if db.canPut r.checkpointKey (encodeCheckpoint next) = false then .refused
      else .commits (db.rows.apply [.put r.checkpointKey (.value (encodeCheckpoint next))]) none
    | some observation =>
      let record := { observedAtUtc := r.time, storedSize := r.size, observation }
      let verifiedBytes := if observation.kind = .fullGet then observation.retrievedBytes else r.reference
      if r.verify record verifiedBytes = false then .refused
      else
        match observationIndex db r.base with
        | none => .refused
        | some index =>
          if index.length ≠ intent.prior.successes.toNat ∨ index.getLast?.any (fun last => decide (last ≥ r.time)) = true
          then .refused
          else
            match encodeObservation record with
            | none => .thrown
            | some encoded =>
              let key := observationKey r.base r.time
              if db.has key = true then .refused
              else
                match creditService r intent db encoded verifiedBytes with
                | .thrown => .thrown
                | .refused => .refused
                | .credited rows =>
                  let next := { next with lastSuccess := r.time, successes := next.successes + 1 }
                  if db.canPut key encoded = false ∨
                      db.canPut (observationIndexKey r.base) (writeIndex (index ++ [r.time])) = false ∨
                      db.canPut r.checkpointKey (encodeCheckpoint next) = false then .refused
                  else .commits (rows.apply [.put key (.value encoded),
                    .put (observationIndexKey r.base) (.value (writeIndex (index ++ [r.time]))),
                    .put r.checkpointKey (.value (encodeCheckpoint next))]) (some record)

end

end Cybou
