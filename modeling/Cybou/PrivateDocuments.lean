import Cybou.BinaryCodec
import Cybou.EncryptedChunk

/-! # The private documents of Mail, Files and key recovery (`private_application_schema.cpp`)

A document is one byte for its schema and the fields of that schema, within the limit of
a binary object.  `decodePrivateApplicationDocument_eq_some` says that the decoder returns
exactly the documents the encoder takes, and from exactly the bytes it writes for them.
-/

namespace Cybou

open Library

/-! ### Documents -/

abbrev PrivateItemId := FixedBytes 32

abbrev XWingSeed := FixedBytes 32

structure MailAttachment where
  attachmentId : PrivateItemId
  filename : Bytes
  logicalSize : UInt64
  mediaType : Option Bytes
  rootChunkId : ChunkId
  contentKey : ContentKey
deriving DecidableEq

structure MailMessage where
  messageId : PrivateItemId
  replyToMessageId : Option PrivateItemId
  recipientAccountId : AccountId
  clientTimestampMs : UInt64
  subject : Bytes
  body : Bytes
  attachments : List MailAttachment
deriving DecidableEq

inductive FileMutationKind where
  | upsertItem
  | deleteItem
deriving DecidableEq, Repr

inductive FileItemKind where
  | file
  | folder
deriving DecidableEq, Repr

structure FileItem where
  itemId : PrivateItemId
  parentId : Option PrivateItemId
  kind : FileItemKind
  name : Bytes
  logicalSize : UInt64
  rootChunkId : Option ChunkId
  contentKey : Option ContentKey
  modifiedMs : UInt64
deriving DecidableEq

def filesTrashParent : PrivateItemId := ⟨List.replicate 32 0xff, List.length_replicate⟩

structure FileMutation where
  kind : FileMutationKind
  itemId : PrivateItemId
  item : Option FileItem
deriving DecidableEq

structure FilesMutationBatch where
  mutations : List FileMutation
deriving DecidableEq

structure HistoricalKemSeed where
  keyEpoch : UInt64
  seed : XWingSeed
deriving DecidableEq

structure IdentityRecoveryBridge where
  accountId : AccountId
  nextKeyEpoch : UInt64
  historicalSeeds : List HistoricalKemSeed
deriving DecidableEq

inductive PrivateApplicationDocument where
  | mail (message : MailMessage)
  | files (batch : FilesMutationBatch)
  | bridge (bridge : IdentityRecoveryBridge)
deriving DecidableEq

/-! ### Validity -/

def MAX_ATTACHMENTS : Nat := 32

def MAX_MUTATIONS : Nat := 512

def MAX_HISTORICAL_SEEDS : Nat := 64

def MAX_SUBJECT_BYTES : Nat := 1024

def MAX_BODY_BYTES : Nat := 128 * 1024

def MAX_FILENAME_BYTES : Nat := 255

def MAX_MEDIA_TYPE_BYTES : Nat := 127

def nonzero {n : Nat} (value : FixedBytes n) : Bool := !isZero value.1

def validName (name : Bytes) : Bool :=
  decide (name ≠ []) && decide (name.length ≤ MAX_FILENAME_BYTES) && decide (name ≠ ascii ".") &&
    decide (name ≠ ascii "..") && name.all fun c => decide (c ≠ 47 ∧ c ≠ 92 ∧ c ≠ 0)

def validAttachment (attachment : MailAttachment) : Bool :=
  nonzero attachment.attachmentId && validName attachment.filename &&
    attachment.mediaType.all (fun mediaType =>
      decide (mediaType ≠ []) && decide (mediaType.length ≤ MAX_MEDIA_TYPE_BYTES)) &&
    nonzero attachment.rootChunkId && nonzero attachment.contentKey

def validMail (mail : MailMessage) : Bool :=
  nonzero mail.messageId && mail.replyToMessageId.all nonzero && !mail.recipientAccountId.isNull &&
    decide (mail.clientTimestampMs ≠ 0) && decide (mail.subject.length ≤ MAX_SUBJECT_BYTES) &&
    decide (mail.body.length ≤ MAX_BODY_BYTES) && decide (mail.attachments.length ≤ MAX_ATTACHMENTS) &&
    mail.attachments.all validAttachment && decide (mail.attachments.map (·.attachmentId)).Nodup

def validFileItem (item : FileItem) : Bool :=
  nonzero item.itemId && decide (item.itemId ≠ filesTrashParent) && validName item.name &&
    decide (item.modifiedMs ≠ 0) &&
    item.parentId.all (fun parent => nonzero parent && decide (parent ≠ item.itemId)) &&
    decide (item.rootChunkId.isSome = item.contentKey.isSome) &&
    item.rootChunkId.all nonzero && item.contentKey.all nonzero &&
    match item.kind with
    | .folder => decide (item.logicalSize = 0) && item.rootChunkId.isNone
    | .file => item.rootChunkId.isSome

def validMutation (mutation : FileMutation) : Bool :=
  nonzero mutation.itemId && decide (mutation.itemId ≠ filesTrashParent) &&
    match mutation.kind with
    | .upsertItem =>
      match mutation.item with
      | none => false
      | some item => decide (item.itemId = mutation.itemId) && validFileItem item
    | .deleteItem => mutation.item.isNone

def validFiles (batch : FilesMutationBatch) : Bool :=
  decide (batch.mutations ≠ []) && decide (batch.mutations.length ≤ MAX_MUTATIONS) &&
    batch.mutations.all validMutation

def validBridge (bridge : IdentityRecoveryBridge) : Bool :=
  !bridge.accountId.isNull && decide (bridge.nextKeyEpoch ≠ 0) && decide (bridge.historicalSeeds ≠ []) &&
    decide (bridge.historicalSeeds.length ≤ MAX_HISTORICAL_SEEDS) &&
    bridge.historicalSeeds.all (fun entry => decide (entry.keyEpoch < bridge.nextKeyEpoch) && nonzero entry.seed) &&
    decide ((bridge.historicalSeeds.map (·.keyEpoch)).Pairwise (· < ·))

/-! ### Encoding -/

def FileMutationKind.code : FileMutationKind → UInt8
  | .upsertItem => 1
  | .deleteItem => 2

def FileItemKind.code : FileItemKind → UInt8
  | .file => 1
  | .folder => 2

def MAIL_TYPE : UInt8 := 1

def FILES_TYPE : UInt8 := 2

def BRIDGE_TYPE : UInt8 := 3

def writeAttachment (attachment : MailAttachment) : Bytes :=
  attachment.attachmentId.1 ++ writeText attachment.filename ++ le64 attachment.logicalSize ++
    writeOptional writeText attachment.mediaType ++ attachment.rootChunkId.1 ++ attachment.contentKey.1

def writeMail (mail : MailMessage) : Bytes :=
  mail.messageId.1 ++ writeOptional Subtype.val mail.replyToMessageId ++ mail.recipientAccountId.1 ++
    le64 mail.clientTimestampMs ++ writeText mail.subject ++ writeText mail.body ++
    writeCounted writeAttachment mail.attachments

def writeItem (item : FileItem) : Bytes :=
  writeOptional Subtype.val item.parentId ++ [item.kind.code] ++ writeText item.name ++
    le64 item.logicalSize ++ writeOptional Subtype.val item.rootChunkId ++
    writeOptional Subtype.val item.contentKey ++ le64 item.modifiedMs

def writeMutation (mutation : FileMutation) : Bytes :=
  [mutation.kind.code] ++ mutation.itemId.1 ++
    match mutation.kind with
    | .deleteItem => []
    | .upsertItem => (mutation.item.map writeItem).getD []

def writeFiles (batch : FilesMutationBatch) : Bytes := writeCounted writeMutation batch.mutations

def writeSeed (entry : HistoricalKemSeed) : Bytes := le64 entry.keyEpoch ++ entry.seed.1

def writeBridge (bridge : IdentityRecoveryBridge) : Bytes :=
  bridge.accountId.1 ++ le64 bridge.nextKeyEpoch ++ writeCounted writeSeed bridge.historicalSeeds

def writeDocument : PrivateApplicationDocument → Bytes
  | .mail message => [MAIL_TYPE] ++ writeMail message
  | .files batch => [FILES_TYPE] ++ writeFiles batch
  | .bridge document => [BRIDGE_TYPE] ++ writeBridge document

def PrivateApplicationDocument.texts : PrivateApplicationDocument → List (Nat × Bytes)
  | .mail message =>
    (MAX_SUBJECT_BYTES, message.subject) :: (MAX_BODY_BYTES, message.body) ::
      message.attachments.flatMap fun attachment =>
        (MAX_FILENAME_BYTES, attachment.filename) ::
          (attachment.mediaType.map fun mediaType => (MAX_MEDIA_TYPE_BYTES, mediaType)).toList
  | .files batch =>
    batch.mutations.flatMap fun mutation =>
      (mutation.item.map fun item => (MAX_FILENAME_BYTES, item.name)).toList
  | .bridge _ => []

/-- The `Require` in front of each schema. -/
def PrivateApplicationDocument.valid : PrivateApplicationDocument → Bool
  | .mail message => validMail message
  | .files batch => validFiles batch
  | .bridge document => validBridge document

/-- What the writer takes without throwing, the limit of the object apart. -/
def PrivateApplicationDocument.WellFormed (document : PrivateApplicationDocument) : Prop :=
  document.valid = true ∧ ∀ text ∈ document.texts, ValidText text.1 text.2

instance decidableDocument (document : PrivateApplicationDocument) : Decidable document.WellFormed :=
  inferInstanceAs (Decidable (_ ∧ _))

def encodePrivateApplicationDocument (document : PrivateApplicationDocument) : Option Bytes :=
  if document.WellFormed then binaryObject BINARY_LIMIT (writeDocument document) else none

/-! ### Decoding -/

def readAttachment : Reader MailAttachment := do
  let attachmentId ← Reader.fixed 32
  let filename ← readText MAX_FILENAME_BYTES
  let logicalSize ← Reader.u64
  let mediaType ← readOptional (readText MAX_MEDIA_TYPE_BYTES)
  let rootChunkId ← Reader.fixed 32
  let contentKey ← Reader.fixed 32
  return { attachmentId, filename, logicalSize, mediaType, rootChunkId, contentKey }

/-- `DecodeMail`. -/
def readMail : Reader MailMessage := do
  let messageId ← Reader.fixed 32
  let replyToMessageId ← readOptional (Reader.fixed 32)
  let recipientAccountId ← readAccountId
  let clientTimestampMs ← Reader.u64
  let subject ← readText MAX_SUBJECT_BYTES
  let body ← readText MAX_BODY_BYTES
  let attachments ← readCounted 0 MAX_ATTACHMENTS readAttachment
  let mail : MailMessage :=
    { messageId, replyToMessageId, recipientAccountId, clientTimestampMs, subject, body, attachments }
  Reader.require (validMail mail = true)
  return mail

def readMutationKind : Reader FileMutationKind := do
  let code ← Reader.u8
  Reader.ofOption (if code = 1 then some .upsertItem else if code = 2 then some .deleteItem else none)

/-- The item kind is cast unchecked here and refused by `ValidFiles` at the end. -/
def readItemKind : Reader FileItemKind := do
  let code ← Reader.u8
  Reader.ofOption (if code = 1 then some .file else if code = 2 then some .folder else none)

def readItem (itemId : PrivateItemId) : Reader FileItem := do
  let parentId ← readOptional (Reader.fixed 32)
  let kind ← readItemKind
  let name ← readText MAX_FILENAME_BYTES
  let logicalSize ← Reader.u64
  let rootChunkId ← readOptional (Reader.fixed 32)
  let contentKey ← readOptional (Reader.fixed 32)
  let modifiedMs ← Reader.u64
  return { itemId, parentId, kind, name, logicalSize, rootChunkId, contentKey, modifiedMs }

def readMutation : Reader FileMutation := do
  let kind ← readMutationKind
  let itemId ← Reader.fixed 32
  match kind with
  | .deleteItem => return { kind, itemId, item := none }
  | .upsertItem =>
    let item ← readItem itemId
    return { kind, itemId, item := some item }

/-- `DecodeFiles`. -/
def readFiles : Reader FilesMutationBatch := do
  let mutations ← readCounted 1 MAX_MUTATIONS readMutation
  Reader.require (validFiles { mutations } = true)
  return { mutations }

def readSeed : Reader HistoricalKemSeed := do
  let keyEpoch ← Reader.u64
  let seed ← Reader.fixed 32
  return { keyEpoch, seed }

/-- `DecodeBridge`. -/
def readBridge : Reader IdentityRecoveryBridge := do
  let accountId ← readAccountId
  let nextKeyEpoch ← Reader.u64
  let historicalSeeds ← readCounted 1 MAX_HISTORICAL_SEEDS readSeed
  let bridge : IdentityRecoveryBridge := { accountId, nextKeyEpoch, historicalSeeds }
  Reader.require (validBridge bridge = true)
  return bridge

def readDocument : Reader PrivateApplicationDocument := do
  let type ← Reader.u8
  if type = MAIL_TYPE then return .mail (← readMail)
  else if type = FILES_TYPE then return .files (← readFiles)
  else if type = BRIDGE_TYPE then return .bridge (← readBridge)
  else Reader.ofOption none

def decodePrivateApplicationDocument (encoded : Bytes) : Option PrivateApplicationDocument :=
  readBinary BINARY_LIMIT readDocument encoded

/-! ### What the decoder accepts -/

/-- What the readers of a schema ask of an attachment. -/
structure ReadableAttachment (attachment : MailAttachment) : Prop where
  filename : ValidText MAX_FILENAME_BYTES attachment.filename
  mediaType : ∀ mediaType ∈ attachment.mediaType, ValidText MAX_MEDIA_TYPE_BYTES mediaType

theorem readAttachment_exact : Reader.Exact readAttachment writeAttachment ReadableAttachment := by
  intro b a r
  have hname : MAX_FILENAME_BYTES < 2 ^ 32 := by decide
  have hmedia : MAX_MEDIA_TYPE_BYTES < 2 ^ 32 := by decide
  simp only [readAttachment, (Reader.fixed_exact 32).bind, (readText_exact hname).bind,
    Reader.u64_exact.bind, (readOptional_exact (readText_exact hmedia)).bind, Reader.pure_eq_some,
    true_and]
  constructor
  · intro h
    rcases h with ⟨id, _, rfl, filename, _, hfilename, rfl, size, _, rfl, mediaType, _, hmediaType, rfl,
      root, _, rfl, key, _, rfl, rfl, rfl⟩
    exact ⟨⟨hfilename, hmediaType⟩, by simp only [writeAttachment, List.append_assoc]⟩
  · intro h
    rcases h with ⟨hok, rfl⟩
    simp only [writeAttachment, List.append_assoc]
    exact ⟨_, _, rfl, _, _, hok.filename, rfl, _, _, rfl, _, _, hok.mediaType, rfl, _, _, rfl, _, _, rfl,
      rfl, rfl⟩

theorem mail_texts (message : MailMessage) :
    (∀ text ∈ (PrivateApplicationDocument.mail message).texts, ValidText text.1 text.2) ↔
      ValidText MAX_SUBJECT_BYTES message.subject ∧ ValidText MAX_BODY_BYTES message.body ∧
        ∀ attachment ∈ message.attachments, ReadableAttachment attachment := by
  simp only [PrivateApplicationDocument.texts, List.forall_mem_cons, List.mem_flatMap, forall_exists_index,
    and_imp]
  refine and_congr_right fun _ => and_congr_right fun _ => ⟨fun h attachment hmem => ?_, fun h => ?_⟩
  · refine ⟨h _ attachment hmem List.mem_cons_self, fun mediaType hmediaType => ?_⟩
    refine h (MAX_MEDIA_TYPE_BYTES, mediaType) attachment hmem (List.mem_cons_of_mem _ ?_)
    rw [Option.mem_def.mp hmediaType]
    exact List.mem_singleton_self _
  · intro text attachment hmem htext
    rcases List.mem_cons.mp htext with rfl | htext
    · exact (h attachment hmem).filename
    · rw [Option.mem_toList, Option.map_eq_some_iff] at htext
      rcases htext with ⟨mediaType, hmediaType, rfl⟩
      exact (h attachment hmem).mediaType mediaType hmediaType

theorem readMail_exact : Reader.Exact readMail writeMail (fun mail =>
    PrivateApplicationDocument.WellFormed (.mail mail)) := by
  intro b mail r
  have hsubject : MAX_SUBJECT_BYTES < 2 ^ 32 := by decide
  have hbody : MAX_BODY_BYTES < 2 ^ 32 := by decide
  have hattachments : MAX_ATTACHMENTS < 2 ^ 16 := by decide
  simp only [readMail, (Reader.fixed_exact 32).bind, (readOptional_exact (Reader.fixed_exact 32)).bind,
    readAccountId_exact.bind, Reader.u64_exact.bind, (readText_exact hsubject).bind,
    (readText_exact hbody).bind, (readCounted_exact readAttachment_exact hattachments).bind,
    Reader.require_bind, Reader.pure_eq_some, true_and, PrivateApplicationDocument.WellFormed, mail_texts]
  constructor
  · intro h
    rcases h with ⟨id, _, rfl, reply, _, -, rfl, recipient, _, -, rfl, timestamp, _, rfl, subject, _,
      hsubject, rfl, body, _, hbody, rfl, attachments, _, ⟨-, hattachments⟩, rfl, hvalid, rfl, rfl⟩
    exact ⟨⟨hvalid, hsubject, hbody, hattachments⟩, by simp only [writeMail, List.append_assoc]⟩
  · intro h
    rcases h with ⟨⟨hvalid, hsubject, hbody, hattachments⟩, rfl⟩
    have hfields := hvalid
    simp only [PrivateApplicationDocument.valid, validMail, Bool.and_eq_true, Bool.not_eq_true',
      decide_eq_true_eq] at hfields
    simp only [writeMail, List.append_assoc]
    exact ⟨_, _, rfl, _, _, fun _ _ => trivial, rfl, _, _, by tauto, rfl, _, _, rfl, _, _, hsubject, rfl,
      _, _, hbody, rfl, _, _, ⟨⟨Nat.zero_le _, by tauto⟩, hattachments⟩, rfl, hvalid, rfl, rfl⟩

theorem readMutationKind_exact :
    Reader.Exact readMutationKind (fun kind => [kind.code]) (fun _ => True) := by
  intro b kind r
  simp only [readMutationKind, Reader.u8_exact.bind, true_and]
  constructor
  · intro h
    rcases h with ⟨code, _, rfl, h⟩
    split at h
    · next hcode =>
      cases h
      rw [hcode]
      rfl
    · split at h
      · next hcode =>
        cases h
        rw [hcode]
        rfl
      · cases h
  · intro h
    subst h
    cases kind with
    | upsertItem => exact ⟨1, r, rfl, rfl⟩
    | deleteItem => exact ⟨2, r, rfl, rfl⟩

theorem readItemKind_exact : Reader.Exact readItemKind (fun kind => [kind.code]) (fun _ => True) := by
  intro b kind r
  simp only [readItemKind, Reader.u8_exact.bind, true_and]
  constructor
  · intro h
    rcases h with ⟨code, _, rfl, h⟩
    split at h
    · next hcode =>
      cases h
      rw [hcode]
      rfl
    · split at h
      · next hcode =>
        cases h
        rw [hcode]
        rfl
      · cases h
  · intro h
    subst h
    cases kind with
    | file => exact ⟨1, r, rfl, rfl⟩
    | folder => exact ⟨2, r, rfl, rfl⟩

theorem readItem_exact (itemId : PrivateItemId) : Reader.Exact (readItem itemId) writeItem
    (fun item => item.itemId = itemId ∧ ValidText MAX_FILENAME_BYTES item.name) := by
  intro b item r
  have hname : MAX_FILENAME_BYTES < 2 ^ 32 := by decide
  have hoptional := readOptional_exact (Reader.fixed_exact 32)
  simp only [readItem, hoptional.bind, readItemKind_exact.bind, (readText_exact hname).bind,
    Reader.u64_exact.bind, Reader.pure_eq_some, true_and]
  constructor
  · intro h
    rcases h with ⟨parent, _, -, rfl, kind, _, rfl, name, _, hname, rfl, size, _, rfl, root, _, -, rfl,
      key, _, -, rfl, modified, _, rfl, rfl, rfl⟩
    exact ⟨⟨rfl, hname⟩, by simp only [writeItem, List.append_assoc]⟩
  · intro h
    rcases h with ⟨⟨rfl, hname⟩, rfl⟩
    simp only [writeItem, List.append_assoc]
    exact ⟨_, _, fun _ _ => trivial, rfl, _, _, rfl, _, _, hname, rfl, _, _, rfl, _, _,
      fun _ _ => trivial, rfl, _, _, fun _ _ => trivial, rfl, _, _, rfl, rfl, rfl⟩

def ReadableMutation (mutation : FileMutation) : Prop :=
  match mutation.kind with
  | .deleteItem => mutation.item = none
  | .upsertItem => ∃ item, mutation.item = some item ∧ item.itemId = mutation.itemId ∧
      ValidText MAX_FILENAME_BYTES item.name

theorem readMutation_exact : Reader.Exact readMutation writeMutation ReadableMutation := by
  intro b mutation r
  simp only [readMutation, readMutationKind_exact.bind, (Reader.fixed_exact 32).bind, true_and]
  constructor
  · intro h
    rcases h with ⟨kind, _, rfl, itemId, _, rfl, h⟩
    cases kind with
    | deleteItem =>
      rw [Reader.pure_eq_some] at h
      rcases h with ⟨rfl, rfl⟩
      refine ⟨rfl, ?_⟩
      simp only [writeMutation, List.append_assoc, List.nil_append]
    | upsertItem =>
      rw [(readItem_exact itemId).bind] at h
      rcases h with ⟨item, _, ⟨hitem, hname⟩, rfl, h⟩
      rw [Reader.pure_eq_some] at h
      rcases h with ⟨rfl, rfl⟩
      refine ⟨⟨item, rfl, hitem, hname⟩, ?_⟩
      simp only [writeMutation, Option.map_some, Option.getD_some, List.append_assoc]
  · intro h
    rcases h with ⟨hok, rfl⟩
    rcases mutation with ⟨kind, itemId, item⟩
    simp only [writeMutation, List.append_assoc]
    cases kind with
    | deleteItem =>
      have hnone : item = none := hok
      subst hnone
      exact ⟨_, _, rfl, _, _, rfl, rfl⟩
    | upsertItem =>
      rcases hok with ⟨item, hsome, hitem, hname⟩
      dsimp only at hsome hitem
      subst hsome
      refine ⟨_, _, rfl, _, _, rfl, ?_⟩
      dsimp only [Option.map_some, Option.getD_some]
      rw [(readItem_exact itemId).bind_append ⟨hitem, hname⟩]
      rfl

variable {mutation : FileMutation}

theorem readableMutation_of_valid (hvalid : validMutation mutation = true)
    (htext : ∀ item ∈ mutation.item, ValidText MAX_FILENAME_BYTES item.name) : ReadableMutation mutation := by
  rcases mutation with ⟨kind, itemId, item⟩
  simp only [validMutation, Bool.and_eq_true] at hvalid
  cases kind with
  | deleteItem => exact Option.isNone_iff_eq_none.mp hvalid.2
  | upsertItem =>
    cases item with
    | none => cases hvalid.2
    | some item =>
      have hitem := hvalid.2
      simp only [Bool.and_eq_true, decide_eq_true_eq] at hitem
      exact ⟨item, rfl, hitem.1, htext item rfl⟩

theorem files_texts (batch : FilesMutationBatch) :
    (∀ text ∈ (PrivateApplicationDocument.files batch).texts, ValidText text.1 text.2) ↔
      ∀ mutation ∈ batch.mutations, ∀ item ∈ mutation.item, ValidText MAX_FILENAME_BYTES item.name := by
  simp only [PrivateApplicationDocument.texts, List.mem_flatMap, forall_exists_index, and_imp,
    Option.mem_toList, Option.map_eq_some_iff]
  constructor
  · intro h mutation hmem item hitem
    exact h (MAX_FILENAME_BYTES, item.name) mutation hmem item hitem rfl
  · intro h text mutation hmem item hitem htext
    subst htext
    exact h mutation hmem item hitem

theorem readFiles_exact : Reader.Exact readFiles writeFiles (fun batch =>
    PrivateApplicationDocument.WellFormed (.files batch)) := by
  intro b batch r
  have hmutations : MAX_MUTATIONS < 2 ^ 16 := by decide
  simp only [readFiles, (readCounted_exact readMutation_exact hmutations).bind, Reader.require_bind,
    Reader.pure_eq_some, PrivateApplicationDocument.WellFormed, files_texts]
  constructor
  · intro h
    rcases h with ⟨mutations, _, ⟨-, hmutations⟩, rfl, hvalid, rfl, rfl⟩
    refine ⟨⟨hvalid, fun mutation hmem item hitem => ?_⟩, rfl⟩
    have hreadable := hmutations mutation hmem
    rcases mutation with ⟨kind, itemId, some' | item'⟩
    · cases hitem
    · cases hitem
      cases kind with
      | deleteItem => cases hreadable
      | upsertItem =>
        rcases hreadable with ⟨_, hsome, -, hname⟩
        cases hsome
        exact hname
  · intro h
    rcases h with ⟨⟨hvalid, htexts⟩, rfl⟩
    have hfields := hvalid
    simp only [PrivateApplicationDocument.valid, validFiles, Bool.and_eq_true, decide_eq_true_eq,
      List.all_eq_true] at hfields
    have hpos : 1 ≤ batch.mutations.length := List.length_pos_iff.mpr hfields.1.1
    exact ⟨batch.mutations, r, ⟨⟨hpos, hfields.1.2⟩, fun mutation hmem =>
      readableMutation_of_valid (hfields.2 mutation hmem) (htexts mutation hmem)⟩, rfl, hvalid, rfl, rfl⟩

theorem readSeed_exact : Reader.Exact readSeed writeSeed (fun _ => True) := by
  intro b entry r
  simp only [readSeed, Reader.u64_exact.bind, (Reader.fixed_exact 32).bind, Reader.pure_eq_some, true_and]
  constructor
  · intro h
    rcases h with ⟨epoch, _, rfl, seed, _, rfl, rfl, rfl⟩
    simp only [writeSeed, List.append_assoc]
  · intro h
    subst h
    simp only [writeSeed, List.append_assoc]
    exact ⟨_, _, rfl, _, _, rfl, rfl, rfl⟩

theorem readBridge_exact : Reader.Exact readBridge writeBridge (fun bridge =>
    PrivateApplicationDocument.WellFormed (.bridge bridge)) := by
  intro b bridge r
  have hseeds : MAX_HISTORICAL_SEEDS < 2 ^ 16 := by decide
  simp only [readBridge, readAccountId_exact.bind, Reader.u64_exact.bind,
    (readCounted_exact readSeed_exact hseeds).bind, Reader.require_bind, Reader.pure_eq_some, true_and]
  constructor
  · intro h
    rcases h with ⟨account, _, -, rfl, epoch, _, rfl, seeds, _, -, rfl, hvalid, rfl, rfl⟩
    refine ⟨⟨hvalid, fun _ h => by cases h⟩, ?_⟩
    simp only [writeBridge, List.append_assoc]
  · intro h
    rcases h with ⟨⟨hvalid, -⟩, rfl⟩
    have hfields := hvalid
    simp only [PrivateApplicationDocument.valid, validBridge, Bool.and_eq_true, decide_eq_true_eq,
      Bool.not_eq_true'] at hfields
    have hpos : 1 ≤ bridge.historicalSeeds.length := List.length_pos_iff.mpr (by tauto)
    simp only [writeBridge, List.append_assoc]
    exact ⟨_, _, by tauto, rfl, _, _, rfl, _, _, ⟨⟨hpos, by tauto⟩, fun _ _ => trivial⟩, rfl, hvalid, rfl, rfl⟩

/-- The reader accepts exactly the encodings of well formed documents. -/
theorem readDocument_exact :
    Reader.Exact readDocument writeDocument PrivateApplicationDocument.WellFormed := by
  intro b document r
  simp only [readDocument, Reader.u8_exact.bind, true_and]
  constructor
  · intro h
    rcases h with ⟨type, _, rfl, h⟩
    split at h
    · next htype =>
      rw [readMail_exact.bind] at h
      rcases h with ⟨message, _, hok, rfl, h⟩
      rw [Reader.pure_eq_some] at h
      rcases h with ⟨rfl, rfl⟩
      rw [htype]
      exact ⟨hok, rfl⟩
    · split at h
      · next htype =>
        rw [readFiles_exact.bind] at h
        rcases h with ⟨batch, _, hok, rfl, h⟩
        rw [Reader.pure_eq_some] at h
        rcases h with ⟨rfl, rfl⟩
        rw [htype]
        exact ⟨hok, rfl⟩
      · split at h
        · next htype =>
          rw [readBridge_exact.bind] at h
          rcases h with ⟨bridge, _, hok, rfl, h⟩
          rw [Reader.pure_eq_some] at h
          rcases h with ⟨rfl, rfl⟩
          rw [htype]
          exact ⟨hok, rfl⟩
        · cases h
  · intro h
    rcases h with ⟨hok, rfl⟩
    cases document with
    | mail message =>
      refine ⟨MAIL_TYPE, writeMail message ++ r, rfl, ?_⟩
      rw [if_pos rfl, readMail_exact.bind_append hok]
      rfl
    | files batch =>
      refine ⟨FILES_TYPE, writeFiles batch ++ r, rfl, ?_⟩
      rw [if_neg (by decide), if_pos rfl, readFiles_exact.bind_append hok]
      rfl
    | bridge bridge =>
      refine ⟨BRIDGE_TYPE, writeBridge bridge ++ r, rfl, ?_⟩
      rw [if_neg (by decide), if_neg (by decide), if_pos rfl, readBridge_exact.bind_append hok]
      rfl

variable {encoded : Bytes} {document : PrivateApplicationDocument}

/-- **The decoder undoes the encoder, and accepts nothing else.** -/
theorem decodePrivateApplicationDocument_eq_some :
    decodePrivateApplicationDocument encoded = some document ↔
      encodePrivateApplicationDocument document = some encoded := by
  rw [decodePrivateApplicationDocument, encodePrivateApplicationDocument,
    readBinary_eq_some readDocument_exact, Option.ite_none_right_eq_some]

theorem wellFormed_of_encode (h : encodePrivateApplicationDocument document = some encoded) :
    document.WellFormed ∧ encoded.length ≤ BINARY_LIMIT := by
  rw [encodePrivateApplicationDocument, Option.ite_none_right_eq_some, binaryObject,
    Option.ite_none_right_eq_some] at h
  rcases h with ⟨hok, hlimit, h⟩
  cases h
  exact ⟨hok, hlimit⟩

theorem validMutation_of_wellFormed {batch : FilesMutationBatch}
    (h : (PrivateApplicationDocument.files batch).WellFormed)
    (hmem : mutation ∈ batch.mutations) : validMutation mutation = true := by
  have hvalid : validFiles batch = true := h.1
  rw [validFiles, Bool.and_eq_true] at hvalid
  exact List.all_eq_true.mp hvalid.2 mutation hmem

end Cybou
