import Cybou.ApplicationRows
import Cybou.EvidenceRuns
import Cybou.OperationCodec
import Cybou.Settlement

/-! # The journal of prepared and signed settlements (`storage_service.cpp`)

`SubmitSettlement` stores the body of a settlement before it is signed, and the signed
operation before it is submitted.  Each of these is a transaction of the application
database; between two of them another caller can run, the keystore can be locked, the
chain can move and the process can end.  `SubmitPoint` is the place between transactions
that a call has reached.
-/

namespace Cybou

open Library

/-! ### Names -/

/-- The names of an older journal, which told no actions apart. -/
def settlementPeriodKey (network : Hash256) (period : UInt64) : Bytes :=
  ascii "storage/settlement/" ++ hex network.1 ++ ascii "/" ++ decimal period.toNat

def settlementJournalKey (network : Hash256) (request : StorageSettlement) : Bytes :=
  ascii "storage/settlement/" ++ hex network.1 ++ ascii "/action/" ++ decimal request.action.toByte.toNat ++
    ascii "/" ++ decimal request.period.toNat ++
    match request.action with
    | .prepare => ascii "/" ++ hex request.fundedTermId.1 ++ ascii "/" ++ decimal request.assignmentEpoch.toNat
    | .activate => ascii "/" ++ hex request.preparationId.1
    | .pay => []

def PREPARED_SUFFIX : Bytes := ascii "/prepared"

def SIGNED_SUFFIX : Bytes := ascii "/signed"

def EVIDENCE_SUFFIX : Bytes := ascii "/evidence"

/-! ### Evidence references -/

def EVIDENCE_BYTES_LIMIT : Nat := 4 * 1024 * 1024

/-- The references are not null, and each is greater than the one before. -/
def referencesOrdered (references : List Hash256) : Bool :=
  strictlyOrdered id (fun reference => !reference.isNull) none references

def evidenceBytes (references : List Hash256) : Option Bytes :=
  if references.length > (EVIDENCE_BYTES_LIMIT - 4) / 32 ∨ referencesOrdered references = false then none
  else some (le32Of references.length ++ Reader.concat Subtype.val references)

def readEvidence : Reader (List Hash256) := do
  let count ← Reader.count
  Reader.repeatN (Reader.fixed 32) count

section

variable [Crypto]

def evidenceValid (bytes : Bytes) (request : StorageSettlement) : Bool :=
  if bytes.length > EVIDENCE_BYTES_LIMIT then false
  else
    match Reader.whole readEvidence bytes with
    | none => false
    | some references =>
      (decide (request.entries = []) || decide (references ≠ [])) && referencesOrdered references &&
        decide (Crypto.sha256 bytes = request.evidenceRoot)

/-! ### Bodies -/

/-- The signature that stands in a body: zeros of the length of a finalizer signature. -/
def blankSignature : IdentityHybridSignature where
  ed25519 := FixedBytes.zero 64
  mlDsa := List.replicate 3309 0

def preparedBytes (settlement : StorageSettlement) : Option Bytes :=
  serializeProtocolOperation (.storageSettlement { settlement with poaSignature := blankSignature })

def decodeSettlement (bytes : Bytes) : Option StorageSettlement :=
  match deserializeProtocolOperation bytes with
  | none => none
  | some operation =>
    if serializeProtocolOperation operation ≠ some bytes then none
    else
      match operation with
      | .storageSettlement settlement => some settlement
      | _ => none

/-! ### The journal -/

structure SettlementNode where
  network : Hash256
  params : CybouProtocolParameters
  poaKey : IdentityHybridPublicKey

def SettlementNode.verifies (node : SettlementNode) (settlement : StorageSettlement) : Bool :=
  match computeStorageSettlementDigest node.network settlement with
  | none => false
  | some digest => verifyIdentityMessage node.poaKey settlement.poaSignature digest.1

abbrev JournalRows := Store Bytes ApplicationRow

section

variable (node : SettlementNode) (db : PrivateApplicationStore)

def evidenceFault (key : Bytes) (body : StorageSettlement) : Option RuntimeError :=
  match body.action with
  | .pay =>
    match db.get (key ++ EVIDENCE_SUFFIX) with
    | none => some ⟨"missing or corrupt settlement evidence references"⟩
    | some bytes =>
      if evidenceValid bytes body = false then some ⟨"missing or corrupt settlement evidence references"⟩ else none
  | _ =>
    if db.has (key ++ EVIDENCE_SUFFIX) = true then some ⟨"unexpected assignment evidence references"⟩ else none

def signedSettlement (key prepared : Bytes) (body : StorageSettlement) : Except RuntimeError StorageSettlement :=
  match db.get (key ++ SIGNED_SUFFIX) with
  | none => if db.has (key ++ SIGNED_SUFFIX) = true then .error ⟨"unreadable signed settlement"⟩ else .ok body
  | some bytes =>
    match decodeSettlement bytes with
    | none => .error ⟨"corrupt signed settlement"⟩
    | some signed =>
      if preparedBytes signed ≠ some prepared ∨ node.verifies signed = false then .error ⟨"corrupt signed settlement"⟩
      else .ok signed

/-- `PreparedSettlement`; `outermost` says that it is not called inside another batch. -/
def preparedSettlement (outermost : Bool) (request : StorageSettlement) :
    Except RuntimeError (Option StorageSettlement) :=
  if outermost = false ∨ db.unlocked = false then .error ⟨"settlement journal unavailable"⟩
  else
    let key := settlementJournalKey node.network request
    let priorKey := settlementPeriodKey node.network request.period
    if db.has (priorKey ++ PREPARED_SUFFIX) = true ∨ db.has (priorKey ++ SIGNED_SUFFIX) = true then
      .error ⟨"period-only settlement journal requires explicit reconciliation"⟩
    else
      match db.get (key ++ PREPARED_SUFFIX) with
      | none =>
        if db.has (key ++ PREPARED_SUFFIX) = true ∨ db.has (key ++ SIGNED_SUFFIX) = true ∨
            db.has (key ++ EVIDENCE_SUFFIX) = true then
          .error ⟨"missing settlement preparation"⟩
        else .ok none
      | some prepared =>
        match decodeSettlement prepared with
        | none => .error ⟨"corrupt settlement preparation"⟩
        | some body =>
          if settlementJournalKey node.network body ≠ key ∨ preparedBytes body ≠ some prepared then
            .error ⟨"corrupt settlement preparation"⟩
          else
            match evidenceFault db key body with
            | some fault => .error fault
            | none => (signedSettlement node db key prepared body).map some

end

/-! ### The runtime -/

structure ChainView where
  state : CybouState
  height : UInt64
  blockId : Hash256

structure SettlementEnv where
  /-- Whether the keystore is unlocked for the Identity of the store. -/
  unlocked : Bool
  /-- The fate of the batch, where the step commits one. -/
  fate : Fate
  /-- The finalized state, where it can be loaded. -/
  chain : Option ChainView
  /-- Whether the finalizer has a signer and is not halted. -/
  signerEnabled : Bool
  /-- What the signer returns. -/
  signature : Option IdentityHybridSignature
  /-- Whether the operation is known to be finalized. -/
  finalized : Bool

/-- `CybouNodeRuntime::CheckStorageSettlementInputs`; an exception counts as a refusal. -/
def SettlementNode.checkInputs (node : SettlementNode) (env : SettlementEnv) (settlement : StorageSettlement) :
    StorageSettlementError :=
  match env.chain with
  | none => .invalidPayload
  | some chain =>
    if chain.height = UINT64_MAX then .invalidPayload
    else
      match checkStorageSettlementInputs settlement node.params node.network (chain.height + 1) chain.blockId
        chain.state with
      | .ok error _ => error
      | .error _ _ => .invalidPayload

def SettlementNode.sign (node : SettlementNode) (env : SettlementEnv) (settlement : StorageSettlement) :
    Option StorageSettlement := do
  if env.signerEnabled = false ∨ node.checkInputs env settlement ≠ .none then none
  else
    let digest ← computeStorageSettlementDigest node.network settlement
    let signature ← env.signature
    if verifyIdentityMessage node.poaKey signature digest.1 = false then none
    else return { settlement with poaSignature := signature }

/-! ### Submitting -/

inductive SubmitOutcome where
  /-- `{}`. -/
  | nothing
  | alreadyFinalized (id : Hash256)
  /-- The operation was handed to `SubmitOperation`. -/
  | submitted
deriving DecidableEq

/-- Where a call stands between two transactions. -/
inductive SubmitPoint where
  /-- The retained preparation is looked up next. -/
  | read
  | evidence
  | check (evidence : Option Bytes)
  | prepare (evidence : Option Bytes)
  | reread
  | sign (settlement : StorageSettlement)
  | save (signed : StorageSettlement)
  | confirm
  | submit (settlement : StorageSettlement)
  | finished (outcome : Except RuntimeError SubmitOutcome)

/-- A call of `SubmitSettlement`: its arguments and its variables.  `inputs` and `wrote` are
    kept for the statements: what the check of the inputs answered, and whether the call has
    handed any change to the database. -/
structure Submission where
  requested : StorageSettlement
  references : List Hash256
  point : SubmitPoint
  retained : Option StorageSettlement
  inputs : Option StorageSettlementError
  wrote : Bool

/-- The call before its first transaction. -/
def Submission.start (requested : StorageSettlement) (references : List Hash256) : Submission where
  requested
  references
  point := .read
  retained := none
  inputs := none
  wrote := false

/-- The `Put`s that store a body. -/
def bodyEdits (key body : Bytes) (evidence : Option Bytes) : List (Edit Bytes ApplicationRow) :=
  .put (key ++ PREPARED_SUFFIX) (.value body) ::
    evidence.toList.map fun bytes => .put (key ++ EVIDENCE_SUFFIX) (.value bytes)

section

variable (db : PrivateApplicationStore)

/-- The evidence of a request; nothing where the call returns. -/
def submitEvidence (key : Bytes) (c : Submission) : Option (Option Bytes) :=
  match c.requested.action with
  | .pay =>
    let evidence :=
      if c.retained.isSome = true ∧ c.references = [] then db.get (key ++ EVIDENCE_SUFFIX)
      else evidenceBytes c.references
    match evidence with
    | none => none
    | some bytes => if evidenceValid bytes c.requested = false then none else some (some bytes)
  | _ => if c.references ≠ [] then none else some none

def prepareEdits (key body : Bytes) (evidence : Option Bytes) : Except RuntimeError (List (Edit Bytes ApplicationRow)) :=
  if db.unlocked = false then .error ⟨"settlement journal unavailable"⟩
  else
    match db.get (key ++ PREPARED_SUFFIX) with
    | some prior =>
      if evidence.isSome = true ∧ db.get (key ++ EVIDENCE_SUFFIX) ≠ evidence then
        .error ⟨"conflicting settlement evidence references"⟩
      else if prior ≠ body then .error ⟨"conflicting settlement preparation"⟩
      else .ok []
    | none =>
      if (db.has (key ++ PREPARED_SUFFIX) || db.has (key ++ SIGNED_SUFFIX) ||
          !db.canPut (key ++ PREPARED_SUFFIX) body ||
          evidence.any fun bytes => !db.canPut (key ++ EVIDENCE_SUFFIX) bytes) = true then
        .error ⟨"cannot persist settlement preparation"⟩
      else
        .ok (bodyEdits key body evidence)

/-- The changes of the second batch, which never overwrites what a concurrent signer saved. -/
def saveEdits (key body bytes : Bytes) : Except RuntimeError (List (Edit Bytes ApplicationRow)) :=
  if db.get (key ++ PREPARED_SUFFIX) ≠ some body then .error ⟨"settlement journal changed during signing"⟩
  else if db.has (key ++ SIGNED_SUFFIX) = true then .ok []
  else if db.canPut (key ++ SIGNED_SUFFIX) bytes = false then .error ⟨"cannot persist signed settlement"⟩
  else .ok [.put (key ++ SIGNED_SUFFIX) (.value bytes)]

/-- `Commit` of an outermost batch. -/
def commitEdits (edits : List (Edit Bytes ApplicationRow)) (fate : Fate) : Bool × JournalRows :=
  if db.unlocked = false then (false, db.rows) else (decide (fate = .done), db.rows.write edits fate)

end

/-- What a step leaves: the call, the rows, and what was handed to `SubmitOperation`. -/
structure SubmissionStep where
  call : Submission
  rows : JournalRows
  handed : Option StorageSettlement := none

/-- The call goes on at another place. -/
def Submission.goto (c : Submission) (rows : JournalRows) (point : SubmitPoint) : SubmissionStep where
  call := { c with point }
  rows

def Submission.finish (c : Submission) (rows : JournalRows) (outcome : Except RuntimeError SubmitOutcome) : SubmissionStep :=
  c.goto rows (.finished outcome)

/-- A batch is committed, or the call ends with `fault`. -/
def Submission.commit (c : Submission) (db : PrivateApplicationStore) (edits : List (Edit Bytes ApplicationRow))
    (fate : Fate) (next : SubmitPoint) (fault : RuntimeError) : SubmissionStep :=
  let (ok, rows) := commitEdits db edits fate
  { c with wrote := c.wrote || !edits.isEmpty }.goto rows (if ok = true then next else .finished (.error fault))

/-- One transaction of `SubmitSettlement` and what follows it up to the next one; `body` is
    `prepared_bytes`. -/
def Submission.stepWith (node : SettlementNode) (c : Submission) (body : Bytes) (env : SettlementEnv)
    (rows : JournalRows) : SubmissionStep :=
  let db : PrivateApplicationStore := { unlocked := env.unlocked, rows }
  let key := settlementJournalKey node.network c.requested
  match c.point with
  | .read =>
    match preparedSettlement node db true c.requested with
    | .error e => c.finish rows (.error e)
    | .ok none => c.goto rows .evidence
    | .ok (some retained) =>
      if preparedBytes retained ≠ some body then
        c.finish rows (.error ⟨"different settlement already prepared for this action scope"⟩)
      else { c with retained := some retained }.goto rows .evidence
  | .evidence =>
    match submitEvidence db key c with
    | none => c.finish rows (.ok .nothing)
    | some evidence => c.goto rows (.check evidence)
  | .check evidence =>
    -- A retained operation is exact and follows replay, whatever the state has become.
    if c.retained.isSome = true then c.goto rows (.prepare evidence)
    else
      let c := { c with inputs := some (node.checkInputs env c.requested) }
      if node.checkInputs env c.requested ≠ .none then c.finish rows (.ok .nothing)
      else c.goto rows (.prepare evidence)
  | .prepare evidence =>
    match prepareEdits db key body evidence with
    | .error e => c.finish rows (.error e)
    | .ok edits => c.commit db edits env.fate .reread ⟨"cannot persist settlement preparation"⟩
  | .reread =>
    match preparedSettlement node db true c.requested with
    | .error e => c.finish rows (.error e)
    | .ok none => c.finish rows (.error ⟨"lost settlement preparation"⟩)
    | .ok (some settlement) =>
      match computeStorageSettlementDigest node.network settlement with
      | none => c.finish rows (.ok .nothing)
      | some _ => c.goto rows (if node.verifies settlement = true then .submit settlement else .sign settlement)
  | .sign settlement =>
    match node.sign env settlement with
    | none => c.finish rows (.ok .nothing)
    | some signed => c.goto rows (.save signed)
  | .save signed =>
    match serializeProtocolOperation (.storageSettlement signed) with
    | none => c.finish rows (.ok .nothing)
    | some bytes =>
      match saveEdits db key body bytes with
      | .error e => c.finish rows (.error e)
      | .ok edits => c.commit db edits env.fate .confirm ⟨"cannot commit signed settlement"⟩
  | .confirm =>
    match preparedSettlement node db true c.requested with
    | .error e => c.finish rows (.error e)
    | .ok none => c.finish rows (.error ⟨"lost signed settlement"⟩)
    | .ok (some settlement) => c.goto rows (.submit settlement)
  | .submit settlement =>
    match computeOperationId (.storageSettlement settlement) with
    | none => c.finish rows (.ok .nothing)
    | some id =>
      if env.finalized = true then c.finish rows (.ok (.alreadyFinalized id))
      else { c.finish rows (.ok .submitted) with handed := some settlement }
  | .finished outcome => c.finish rows outcome

/-- One transaction of `SubmitSettlement`. -/
def Submission.step (node : SettlementNode) (c : Submission) (env : SettlementEnv) (rows : JournalRows) : SubmissionStep :=
  match preparedBytes c.requested with
  | none => c.finish rows (.ok .nothing)
  | some body => c.stepWith node body env rows

/-! ### Sequences of calls -/

/-- The database, the calls that are running, and the settlements that were handed to
    `SubmitOperation`, the newest first. -/
structure SettlementState where
  rows : JournalRows
  calls : List Submission
  submitted : List StorageSettlement

def SettlementState.initial (rows : JournalRows) : SettlementState where
  rows
  calls := []
  submitted := []

inductive SettlementEvent where
  | submitSettlement (requested : StorageSettlement) (references : List Hash256)
  /-- The next transaction of one of the calls. -/
  | transaction (call : Nat) (env : SettlementEnv)
  /-- It only reads. -/
  | prepareSettlement (period : UInt64)
  /-- The process ends with its calls and starts again. -/
  | restart
  /-- Other records of the database change. -/
  | other (rows : JournalRows)

def JournalName (name : Bytes) : Prop := ascii "storage/settlement/" <+: name

inductive SettlementState.Step (node : SettlementNode) (s : SettlementState) : SettlementEvent → SettlementState → Prop where
  | submitSettlement (requested : StorageSettlement) (references : List Hash256) :
      Step node s (.submitSettlement requested references)
        { s with calls := s.calls ++ [.start requested references] }
  | transaction (i : Nat) (env : SettlementEnv) (c : Submission) (hcall : s.calls[i]? = some c) :
      Step node s (.transaction i env)
        { rows := (c.step node env s.rows).rows
          calls := s.calls.set i (c.step node env s.rows).call
          submitted := (c.step node env s.rows).handed.toList ++ s.submitted }
  | prepareSettlement (period : UInt64) : Step node s (.prepareSettlement period) s
  | restart : Step node s .restart { s with calls := [] }
  | other (rows : JournalRows) (hrows : ∀ name, JournalName name → rows name = s.rows name) :
      Step node s (.other rows) { s with rows }

inductive SettlementState.Run (node : SettlementNode) (start : SettlementState) : SettlementState → Prop where
  | refl : Run node start start
  | step {s s' : SettlementState} {event : SettlementEvent} (before : Run node start s)
      (h : s.Step node event s') : Run node start s'

end

end Cybou
