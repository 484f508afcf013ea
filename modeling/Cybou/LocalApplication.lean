import Cybou.ApplicationRecords
import Cybou.ChunkTree

/-! # The local Outbox and the pending Files of one Identity (`local_application_service.cpp`)

`QueuePublication` accepts a prepared publication as a job: one batch writes the job, its
place in the history and in the list of active jobs, and what the user sees of it at once.
`SetPublicationStatus` and `ImportFile` bring back what became of it.  Every call but
`PendingOutbox` writes through one batch.
-/

namespace Cybou

open Library

/-! ### Jobs -/

structure PreparedPublicationBundle where
  rootChunkId : ChunkId
  contentKey : ContentKey
  chunkAuthorizationRoot : ChunkId
  chunkCount : UInt32
deriving DecidableEq

structure LocalPreparedContent where
  bundle : PreparedPublicationBundle
  leaves : List ChunkId
deriving DecidableEq

inductive PublicationJobPhase where
  | waitingFinality
  | securing
  | needsAttention
  | isProtected
  | queued
deriving DecidableEq, Repr

def PublicationJobPhase.code : PublicationJobPhase → UInt8
  | .waitingFinality => 1
  | .securing => 2
  | .needsAttention => 3
  | .isProtected => 4
  | .queued => 5

def PublicationJobPhase.ofCode (code : UInt8) : Option PublicationJobPhase :=
  [PublicationJobPhase.waitingFinality, .securing, .needsAttention, .isProtected, .queued].find?
    fun phase => decide (phase.code = code)

structure PublicationJobResult where
  phase : PublicationJobPhase
  operationId : Hash256
  finalizedHeight : UInt64
  error : Bytes
  durabilityPercent : Int
deriving DecidableEq

def PublicationJobResult.initial : PublicationJobResult where
  phase := .queued
  operationId := Hash256.ZERO
  finalizedHeight := 0
  error := []
  durabilityPercent := -1

structure PendingPublication where
  jobId : Bytes
  sequence : UInt64
  content : LocalPreparedContent
  document : PrivateApplicationDocument
  recipient : Option AccountId
  status : PublicationJobResult
deriving DecidableEq

def validDraftId (id : Bytes) : Bool :=
  decide (id ≠ []) && decide (id.length ≤ 64) &&
    id.all fun c => decide ((97 ≤ c ∧ c ≤ 122) ∨ (48 ≤ c ∧ c ≤ 57) ∨ c = 45)

def outboxJobKey (job : Bytes) : ApplicationKey := ⟨.outboxJob, job⟩

def outboxStatusKey (job : Bytes) : ApplicationKey := ⟨.outboxStatus, job⟩

def MAX_STATUS_ERROR : Nat := 4096

/-! ### Rows of the Outbox -/

def putString (text : Bytes) : Bytes := le32Of text.length ++ text

def getString (maximum : Nat) : Reader Bytes := do
  let size ← Reader.count
  Reader.require (size ≤ maximum)
  Reader.bytes size

def outboxJobRow (sequence : UInt64) (content : LocalPreparedContent) (recipient : Option AccountId)
    (encodedDocument : Bytes) : Bytes :=
  le64 sequence ++ content.bundle.rootChunkId.1 ++ content.bundle.contentKey.1 ++
    content.bundle.chunkAuthorizationRoot.1 ++ le32 content.bundle.chunkCount ++
    writeOptional Subtype.val recipient ++ idsRow content.leaves ++ encodedDocument

/-- The row of a status; the durability percentage is not part of it. -/
def outboxStatusRow (status : PublicationJobResult) : Bytes :=
  [status.phase.code] ++ status.operationId.1 ++ le64 status.finalizedHeight ++ putString status.error

def parseOrThrow {α : Type} (p : Reader α) (what : String) (bytes : Bytes) :
    Except RuntimeError (α × Bytes) :=
  match p bytes with
  | none => .error ⟨what⟩
  | some read => .ok read

def readBundle : Reader (UInt64 × FixedBytes 32 × FixedBytes 32 × FixedBytes 32) := do
  let sequence ← Reader.u64
  let rootChunkId ← Reader.fixed 32
  let contentKey ← Reader.fixed 32
  let chunkAuthorizationRoot ← Reader.fixed 32
  return (sequence, rootChunkId, contentKey, chunkAuthorizationRoot)

def readBounds : Reader (UInt32 × UInt8) := do
  let count ← Reader.u32
  let hasRecipient ← Reader.u8
  Reader.require (count.toNat ≠ 0 ∧ count.toNat ≤ MAX_PUBLICATION_CHUNKS.toNat ∧ hasRecipient ≤ 1)
  return (count, hasRecipient)

def readStatus : Reader PublicationJobResult := do
  let phase ← Reader.ofOption (PublicationJobPhase.ofCode (← Reader.u8))
  let operationId ← Reader.fixed 32
  let finalizedHeight ← Reader.u64
  let error ← getString MAX_STATUS_ERROR
  return { phase, operationId, finalizedHeight, error, durabilityPercent := -1 }

def readRecipient (hasRecipient : UInt8) (bytes : Bytes) : Except RuntimeError (Option AccountId × Bytes) :=
  if hasRecipient = 0 then .ok (none, bytes)
  else parseOrThrow (do return some (← readAccountId)) "Outbox recipient invalid" bytes

def readOutboxStatus (rows : ApplicationRows) (id : Bytes) : Except RuntimeError PublicationJobResult :=
  match rows (outboxStatusKey id) with
  | none => .ok .initial
  | some saved =>
    match readStatus.whole saved with
    | none => .error ⟨"Outbox status invalid"⟩
    | some status => .ok status

def readOutboxJob (rows : ApplicationRows) (id : Bytes) : Except RuntimeError PendingPublication := do
  match rows (outboxJobKey id) with
  | none => throw ⟨"Outbox entry missing; refusing to forget local work"⟩
  | some encoded =>
    let ((sequence, rootChunkId, contentKey, chunkAuthorizationRoot), rest) ←
      parseOrThrow readBundle "Outbox is corrupt" encoded
    let ((chunkCount, hasRecipient), rest) ← parseOrThrow readBounds "Outbox bounds invalid" rest
    let (recipient, rest) ← readRecipient hasRecipient rest
    let (leaves, rest) ←
      parseOrThrow (Reader.repeatN (Reader.fixed 32) chunkCount.toNat) "Outbox leaves invalid" rest
    let content : LocalPreparedContent :=
      { bundle := { rootChunkId, contentKey, chunkAuthorizationRoot, chunkCount }, leaves }
    match decodePrivateApplicationDocument rest with
    | none => throw ⟨"Outbox document invalid"⟩
    | some document =>
      let status ← readOutboxStatus rows id
      return { jobId := id, sequence, content, document, recipient, status }

def readOutbox (rows : ApplicationRows) (ids : List Bytes) : Except RuntimeError (List PendingPublication) :=
  ids.mapM (readOutboxJob rows)

def outbox (rows : ApplicationRows) : Except RuntimeError (List PendingPublication) :=
  readOutbox rows (readNamesRow (rows (.only .outboxIndex)))

/-- The jobs of which `EnsureActiveOutboxIndex` makes the list. -/
def activeJobs (jobs : List PendingPublication) : List Bytes :=
  (jobs.filter fun job => decide (job.status.phase ≠ .isProtected)).map (·.jobId)

def orThrow {α : Type} : Except RuntimeError α → Staging α
  | .error e => throw e
  | .ok a => pure a

def ensureActiveOutboxIndex : Staging Bool := do
  let s ← get
  if (s.rows (.only .outboxActive)).isSome then return true
  let jobs ← orThrow (outbox s.rows)
  putRow (.only .outboxActive) (namesRow (activeJobs jobs))

/-! ### Drafts -/

structure DraftAttachment where
  name : Bytes
  logicalSize : UInt64
  sourcePath : Bytes
  referenceId : Bytes
deriving DecidableEq

structure MailDraft where
  draftId : Bytes
  toText : Bytes
  subject : Bytes
  body : Bytes
  updatedMs : UInt64
  attachments : List DraftAttachment
deriving DecidableEq

def DRAFT_MAGIC : Bytes := ascii "CYDR"

def MAX_DRAFT_TEXT : Nat := 1024 * 1024

def MAX_DRAFT_ATTACHMENTS : Nat := 64

def readDraftAttachment : Reader DraftAttachment := do
  let name ← getString 4096
  let logicalSize ← Reader.u64
  let sourcePath ← getString 32768
  let referenceId ← getString 256
  return { name, logicalSize, sourcePath, referenceId }

/-- One turn of `ListDrafts`. -/
def readDraft (id : Bytes) : Reader MailDraft := do
  Reader.literal DRAFT_MAGIC
  let draftId ← getString 64
  let toText ← getString MAX_DRAFT_TEXT
  let subject ← getString MAX_DRAFT_TEXT
  let body ← getString MAX_DRAFT_TEXT
  let updatedMs ← Reader.u64
  let count ← Reader.u32
  Reader.require (draftId = id ∧ count.toNat ≤ MAX_DRAFT_ATTACHMENTS)
  let attachments ← Reader.repeatN readDraftAttachment count.toNat
  return { draftId, toText, subject, body, updatedMs, attachments }

def listDrafts (rows : ApplicationRows) : List MailDraft :=
  ((readNamesRow (rows (.only .draftIndex))).filterMap fun id =>
    (rows ⟨.draft, id⟩).bind (readDraft id).whole).mergeSort fun a b => decide (a.updatedMs ≥ b.updatedMs)

section

variable [Crypto]

/-- What `CheckDraftSendPayload` hashes. -/
def draftPayload (draft : MailDraft) : Bytes :=
  putString draft.toText ++ putString draft.subject ++ putString draft.body ++ le32Of draft.attachments.length ++
    Reader.concat (fun attachment => putString attachment.name ++ le64 attachment.logicalSize ++
      putString attachment.sourcePath ++ putString attachment.referenceId) draft.attachments

/-- `CheckDraftSendPayload(draft, false)`. -/
def checkDraftSendPayload (rows : ApplicationRows) (draft : MailDraft) : Bool :=
  if validDraftId draft.draftId = false ∨ rows ⟨.draft, draft.draftId⟩ = none ∨
      rows ⟨.draftSend, draft.draftId⟩ = none ∨ draft.toText.length > MAX_DRAFT_TEXT ∨
      draft.subject.length > MAX_DRAFT_TEXT ∨ draft.body.length > MAX_DRAFT_TEXT ∨
      draft.attachments.length > MAX_DRAFT_ATTACHMENTS then false
  else if draft.attachments.any (fun attachment => decide (attachment.name.length > 4096 ∨
      attachment.sourcePath.length > 32768 ∨ attachment.referenceId.length > 256)) = true then false
  else decide (rows ⟨.draftSendContent, draft.draftId⟩ = some (Crypto.sha256 (draftPayload draft)).1)

def deleteDraft (draftId : Bytes) : Staging Bool :=
  if validDraftId draftId = false then return false
  else innerBatch do
    let names := readNamesRow (← getRow (.only .draftIndex))
    let _ ← eraseRow ⟨.draft, draftId⟩
    putRow (.only .draftIndex) (namesRow (names.filter (· ≠ draftId)))

/-- The draft of an accepted message goes, unless it was edited since. -/
def dropAcceptedDraft (draftId : Bytes) : Staging Bool := do
  if draftId = [] then return true
  let s ← get
  match (listDrafts s.rows).find? fun draft => decide (draft.draftId = draftId) with
  | none => return true
  | some current => if checkDraftSendPayload s.rows current = true then deleteDraft draftId else return true

/-! ### QueuePublication -/

/-- `account` is the Identity of the store. -/
def queueMail (account : AccountId) (message : MailMessage) (draftId : Bytes) : Staging Bool := do
  let record : MailRecord :=
    { operationId := Hash256.ZERO, finalizedHeight := 0, operationIndex := 0, sender := account
      outgoing := true, message
      folder := if message.recipientAccountId = account then .inbox else .sent
      read := true, starred := false }
  if (← saveMail record) = false then return false
  dropAcceptedDraft draftId

def desiredRecord (mutation : FileMutation) : FileRecord where
  item := mutation.item.getD (.blank mutation.itemId)
  operationId := Hash256.ZERO
  order := .zero
  deleted := decide (mutation.kind = .deleteItem)
  starred := false

def queueFiles (job : Bytes) : List FileMutation → Staging Bool
  | [] => return true
  | mutation :: mutations => do
    if (← saveFile (desiredRecord mutation) true) = false then return false
    if (← putRow (.ofId .fileDesiredJob mutation.itemId) job) = false then return false
    queueFiles job mutations

def queueDocument (account : AccountId) (job draftId : Bytes) : PrivateApplicationDocument → Staging Bool
  | .mail message => queueMail account message draftId
  | .files batch => queueFiles job batch.mutations
  | .bridge _ => return true

/-- The last sequence number, or nothing where no further one can be given. -/
def lastSequence : Option Bytes → Option UInt64
  | none => some 0
  | some saved => (Reader.u64.whole saved).filter (· ≠ UINT64_MAX)

/-- The batch of `QueuePublication`. -/
def queueBody (account : AccountId) (job : Bytes) (content : LocalPreparedContent)
    (document : PrivateApplicationDocument) (encodedDocument : Bytes) (recipient : Option AccountId)
    (draftId : Bytes) : Staging Bool := do
  if (← ensureActiveOutboxIndex) = false then return false
  match lastSequence (← getRow (.only .outboxSequence)) with
  | none => return false
  | some last =>
    let sequence := last + 1
    let jobs := readNamesRow (← getRow (.only .outboxIndex)) ++ [job]
    let active := readNamesRow (← getRow (.only .outboxActive)) ++ [job]
    if (← putRow (outboxJobKey job) (outboxJobRow sequence content recipient encodedDocument)) = false then
      return false
    if (← putRow (.only .outboxSequence) (le64 sequence)) = false then return false
    if (← putRow (.only .outboxIndex) (namesRow jobs)) = false then return false
    if (← putRow (.only .outboxActive) (namesRow active)) = false then return false
    queueDocument account job draftId document

/-- Whether a stored job is the one that is queued again. -/
def PendingPublication.describes (existing : PendingPublication) (content : LocalPreparedContent)
    (document : PrivateApplicationDocument) (recipient : Option AccountId) : Bool :=
  decide (existing.document = document ∧ existing.recipient = recipient ∧
    existing.content.leaves = content.leaves ∧
    existing.content.bundle.rootChunkId = content.bundle.rootChunkId ∧
    existing.content.bundle.contentKey = content.bundle.contentKey ∧
    existing.content.bundle.chunkAuthorizationRoot = content.bundle.chunkAuthorizationRoot ∧
    existing.content.bundle.chunkCount = content.bundle.chunkCount)

/-- What surrounds a call: the keystore and the fate of the one write. -/
structure CallEnv where
  unlocked : Bool
  fate : Fate
deriving DecidableEq

def queuePublication (account : AccountId) (env : CallEnv) (rows : ApplicationRows) (job : Bytes)
    (content : LocalPreparedContent) (document : PrivateApplicationDocument)
    (recipient : Option AccountId) (draftId : Bytes) : Except RuntimeError Bool × ApplicationRows :=
  if validDraftId job = false ∨ content.leaves = [] ∨
      content.leaves.length ≠ content.bundle.chunkCount.toNat then (.ok false, rows)
  else
    match encodePrivateApplicationDocument document with
    | none => (.ok false, rows)
    | some encodedDocument =>
      let view := visible env.unlocked rows
      if (view (outboxJobKey job)).isSome = true then
        match readOutbox view [job] with
        | .error e => (.error e, rows)
        | .ok jobs => (.ok (jobs.head?.any fun existing => existing.describes content document recipient), rows)
      else
        transact env.unlocked env.fate rows
          (queueBody account job content document encodedDocument recipient draftId)

end

/-! ### The other calls -/

/-- `PendingOutbox`; `limit` is a `size_t`. -/
def pendingOutbox (env : CallEnv) (rows : ApplicationRows) (limit : Nat) :
    Except RuntimeError (List PendingPublication) × ApplicationRows :=
  let pending (rows : ApplicationRows) : Except RuntimeError (List PendingPublication) :=
    let view := visible env.unlocked rows
    readOutbox view ((readNamesRow (view (.only .outboxActive))).take limit)
  if limit = 0 then (.ok [], rows)
  else
    let view := visible env.unlocked rows
    if (view (.only .outboxActive)).isSome = true then (pending rows, rows)
    else
      match outbox view with
      | .error e => (.error e, rows)
      | .ok jobs =>
        let (ok, rows) :=
          putAlone env.unlocked env.fate rows (.only .outboxActive) (namesRow (activeJobs jobs))
        if ok = false then (.error ⟨"cannot initialize active Outbox index"⟩, rows) else (pending rows, rows)

def reinsert (history : List Bytes) (job : Bytes) (active : List Bytes) : List Bytes :=
  let later (id : Bytes) : Bool := decide (history.idxOf id > history.idxOf job)
  active.takeWhile (fun id => !later id) ++ job :: active.dropWhile fun id => !later id

def nextActive (history active : List Bytes) (job : Bytes) (phase : PublicationJobPhase) : List Bytes :=
  if phase = .isProtected then active.erase job
  else if job ∈ active then active
  else reinsert history job active

def statusBody (job : Bytes) (status : PublicationJobResult) : Staging Bool := do
  if (← ensureActiveOutboxIndex) = false then return false
  let active := readNamesRow (← getRow (.only .outboxActive))
  let history := readNamesRow (← getRow (.only .outboxIndex))
  if (← putRow (outboxStatusKey job) (outboxStatusRow status)) = false then return false
  putRow (.only .outboxActive) (namesRow (nextActive history active job status.phase))

def setPublicationStatus (env : CallEnv) (rows : ApplicationRows) (job : Bytes)
    (status : PublicationJobResult) : Except RuntimeError Bool × ApplicationRows :=
  if visible env.unlocked rows (outboxJobKey job) = none ∨ status.error.length > MAX_STATUS_ERROR then
    (.ok false, rows)
  else transact env.unlocked env.fate rows (statusBody job status)

/-- The pending value goes once the status of its job names the imported operation. -/
def dropDesired (incoming : FileRecord) : Staging Bool := do
  let s ← get
  match s.rows (.ofId .fileDesiredJob incoming.item.itemId) with
  | none => return true
  | some job =>
    let jobs ← orThrow (readOutbox s.rows [job])
    if jobs.any (fun pending => decide (pending.jobId = job ∧
        pending.status.operationId = incoming.operationId ∧ incoming.operationId.isNull = false)) = true then
      let _ ← eraseRow (.ofId .fileDesired incoming.item.itemId)
      eraseRow (.ofId .fileDesiredJob incoming.item.itemId)
    else return true

def importBody (incoming : FileRecord) : Staging Bool := do
  if (← saveFile incoming false) = false then return false
  dropDesired incoming

def importFile (env : CallEnv) (rows : ApplicationRows) (incoming : FileRecord) :
    Except RuntimeError Bool × ApplicationRows :=
  if (loadFile (visible env.unlocked rows) incoming.item.itemId false).any
      (fun old => decide (old.order ≥ incoming.order)) = true then (.ok true, rows)
  else transact env.unlocked env.fate rows (importBody incoming)

def listFiles (rows : ApplicationRows) : List FileRecord :=
  (readIds (rows (.only .filesIndex))).filterMap fun id =>
    (loadFile rows id true).filter fun record => !record.deleted

def getFile (rows : ApplicationRows) (id : PrivateItemId) : Option FileRecord :=
  (loadFile rows id true).filter fun record => !record.deleted

end Cybou
