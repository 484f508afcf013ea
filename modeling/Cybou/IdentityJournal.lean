import Cybou.OperationCodec
import Cybou.Replay

/-! # The journal file of the identity operation coordinator (`identity_operation_coordinator.cpp`)

The file holds one operation: the network, the account, the nonce and key epoch
it was signed for, its id and its exact bytes, behind a checksum.  The phase is
not written; a journal that is read back is always uncertain.

What was saved is read back (`parse_encodeJournal`), so two entries with one
file are one entry up to the phase.
-/

namespace Cybou

open Library

inductive IdentityOperationPhase where
  | prepared
  | submitting
  | uncertain
  | accepted
  | finalized
  | rejected
  | conflict
deriving DecidableEq, Repr

def JOURNAL_MAGIC : Bytes := ascii "CYIO"

def JOURNAL_DOMAIN : Bytes := ascii "CYBOU/IDENTITY-OPERATION-JOURNAL"

def JOURNAL_FIXED_SIZE : Nat := 4 + 32 + 32 + 8 + 8 + 1 + 32 + 32 + 4 + 32

def MAX_JOURNALED_OPERATION_BYTES : Nat := 8 * 1024 * 1024

def MAX_JOURNAL_BYTES : Nat := JOURNAL_FIXED_SIZE + MAX_JOURNALED_OPERATION_BYTES

/-! ### The header -/

/-- What stands in the file between the magic and the operation. -/
structure JournalHeader where
  networkBinding : Hash256
  accountId : Hash256
  nonce : UInt64
  keyEpoch : UInt64
  kind : UInt8
  payloadCommitment : IdentityKeyId
  opId : Hash256
  operationSize : UInt32

def writeJournalHeader (header : JournalHeader) : Bytes :=
  header.networkBinding.1 ++ header.accountId.1 ++ le64 header.nonce ++ le64 header.keyEpoch ++
    [header.kind] ++ header.payloadCommitment.1 ++ header.opId.1 ++ le32 header.operationSize

def readJournalHeader : Reader JournalHeader := do
  let networkBinding ← Reader.fixed 32
  let accountId ← Reader.fixed 32
  let nonce ← Reader.u64
  let keyEpoch ← Reader.u64
  let kind ← Reader.u8
  let payloadCommitment ← Reader.fixed 32
  let opId ← Reader.fixed 32
  let operationSize ← Reader.u32
  return { networkBinding, accountId, nonce, keyEpoch, kind, payloadCommitment, opId, operationSize }

theorem readJournalHeader_write (header : JournalHeader) (rest : Bytes) :
    readJournalHeader (writeJournalHeader header ++ rest) = some (header, rest) := by
  simp only [readJournalHeader, (Reader.fixed_exact 32).bind, Reader.u64_exact.bind, Reader.u8_exact.bind,
    Reader.u32_exact.bind, Reader.pure_eq_some, true_and, writeJournalHeader]
  exact ⟨header.networkBinding, _, by simp only [List.append_assoc], header.accountId, _, rfl, header.nonce,
    _, rfl, header.keyEpoch, _, rfl, header.kind, _, rfl, header.payloadCommitment, _, rfl, header.opId, _,
    rfl, header.operationSize, rest, rfl, rfl, rfl⟩

section

variable [Crypto]

/-! ### Entries -/

theorem not_nullWorkBinding_of_serialize {operation : ProtocolOperation} {b : Bytes}
    (h : serializeProtocolOperation operation = some b) : ¬NullWorkBinding b := by
  cases b with
  | nil =>
    intro hnull
    cases hnull.1
  | cons kind body =>
    obtain ⟨rfl, hbody⟩ := serializeProtocolOperation_cons.mp h
    cases operation with
    | accountCreate op =>
      obtain ⟨hok, hnetwork, rfl⟩ := serializeAccountCreateOp_eq_some.mp hbody
      rw [ProtocolOperation.kind, nullWorkBinding_accountCreate hok, hnetwork]
      exact Bool.false_ne_true
    | _ =>
      intro hnull
      cases hnull.1

/-- `JournalEntry`; the kind 0 is the atomic `IdentityRotate`, any other is the wire
    value of an `IdentityOperationKind`.  An entry is only ever built around the
    canonical bytes of an operation and its id. -/
structure JournalEntry where
  networkBinding : Hash256
  accountId : AccountId
  nonce : UInt64
  keyEpoch : UInt64
  kind : UInt8
  payloadCommitment : IdentityKeyId
  phase : IdentityOperationPhase := .prepared
  opId : Hash256
  operationBytes : Bytes
  canonical : ∃ operation, serializeProtocolOperation operation = some operationBytes ∧
    computeOperationId operation = some opId

namespace JournalEntry

def setPhase (entry : JournalEntry) (phase : IdentityOperationPhase) : JournalEntry := { entry with phase }

def core (entry : JournalEntry) : JournalEntry := entry.setPhase .prepared

theorem core_of_prepared (entry : JournalEntry) (h : entry.phase = .prepared) : entry.core = entry := by
  cases entry
  cases h
  rfl

@[simp] theorem core_opId (entry : JournalEntry) : entry.core.opId = entry.opId := rfl

@[simp] theorem core_operationBytes (entry : JournalEntry) :
    entry.core.operationBytes = entry.operationBytes := rfl

def header (entry : JournalEntry) : JournalHeader :=
  { networkBinding := entry.networkBinding, accountId := entry.accountId, nonce := entry.nonce,
    keyEpoch := entry.keyEpoch, kind := entry.kind, payloadCommitment := entry.payloadCommitment,
    opId := entry.opId, operationSize := UInt32.ofNat entry.operationBytes.length }

theorem of_deserialize (entry : JournalEntry) {operation : ProtocolOperation}
    (h : deserializeProtocolOperation entry.operationBytes = some operation) :
    serializeProtocolOperation operation = some entry.operationBytes ∧
      computeOperationId operation = some entry.opId := by
  obtain ⟨source, hsource, hid⟩ := entry.canonical
  have hwritten := (serialize_deserializeProtocolOperation h).mpr (not_nullWorkBinding_of_serialize hsource)
  refine ⟨hwritten, ?_⟩
  -- the id is that of the bytes, which both operations have
  rw [← hid]
  simp only [computeOperationId, hwritten, hsource]

end JournalEntry

/-! ### The file -/

/-- `Checksum`. -/
def journalChecksum (bytes : Bytes) : Hash256 := Crypto.sha256 (JOURNAL_DOMAIN ++ bytes)

/-- The bytes `SaveJournal` hands to `DurableReplace`. -/
def encodeJournal (entry : JournalEntry) : Bytes :=
  let bytes := JOURNAL_MAGIC ++ writeJournalHeader entry.header ++ entry.operationBytes
  bytes ++ (journalChecksum bytes).1

/-- The checks of `LoadJournal` between an operation and the header that names it. -/
def journalBinds (header : JournalHeader) : ProtocolOperation → Bool
  | .identityRotate rotate =>
    decide (header.kind = 0 ∧ rotate.accountId = header.accountId ∧ rotate.nonce = header.nonce ∧
      rotate.keyEpoch = header.keyEpoch)
  | operation =>
    match operation.authorization with
    | some auth =>
      decide (header.kind ≠ 0 ∧ auth.accountId = header.accountId ∧ auth.nonce = header.nonce ∧
        auth.keyEpoch = header.keyEpoch ∧ auth.kind.toByte = header.kind ∧
        auth.payloadCommitment = header.payloadCommitment)
    | none => false

theorem serialize_of_computeOperationId {operation : ProtocolOperation} {b : Bytes} {id : Hash256}
    (h : deserializeProtocolOperation b = some operation) (hid : computeOperationId operation = some id) :
    serializeProtocolOperation operation = some b := by
  obtain ⟨written, hwritten, -⟩ := Option.bind_eq_some_iff.mp hid
  rw [hwritten, eq_operationBytes_of_serialize hwritten, (deserializeProtocolOperation_eq_some.mp h).2]

/-- The part of `LoadJournal` behind the length checks. -/
def JournalHeader.entry (header : JournalHeader) (operationBytes : Bytes) : Except String JournalEntry :=
  match hoperation : deserializeProtocolOperation operationBytes with
  | none => .error "Identity operation journal does not match its canonical operation"
  | some operation =>
    if hid : computeOperationId operation = some header.opId then
      if journalBinds header operation then
        .ok { networkBinding := header.networkBinding, accountId := header.accountId, nonce := header.nonce,
              keyEpoch := header.keyEpoch, kind := header.kind, payloadCommitment := header.payloadCommitment,
              phase := .uncertain, opId := header.opId, operationBytes,
              canonical := ⟨operation, serialize_of_computeOperationId hoperation hid, hid⟩ }
      else if header.kind = 0 then .error "Identity rotation journal binding mismatch"
      else .error "Identity operation journal authorization mismatch"
    else .error "Identity operation journal does not match its canonical operation"

def parseJournal (networkBinding : Hash256) (bytes : Bytes) : Except String JournalEntry :=
  if bytes.length < JOURNAL_FIXED_SIZE ∨ bytes.length > MAX_JOURNAL_BYTES ∨
      bytes.take JOURNAL_MAGIC.length ≠ JOURNAL_MAGIC then
    .error "Identity operation journal has an invalid format"
  else if (journalChecksum (bytes.take (bytes.length - 32))).1 ≠ bytes.drop (bytes.length - 32) then
    .error "Identity operation journal checksum failed"
  else
    match readJournalHeader (bytes.drop JOURNAL_MAGIC.length) with
    | none => .error "Identity operation journal has an invalid format"
    | some (header, rest) =>
      if Hash256.isNull header.accountId = true then .error "Identity operation journal has an invalid AccountID"
      else if header.networkBinding ≠ networkBinding ∨
          header.operationSize.toNat > MAX_JOURNALED_OPERATION_BYTES ∨
          bytes.length ≠ JOURNAL_FIXED_SIZE + header.operationSize.toNat then
        .error "Identity operation journal belongs to a different network or has invalid lengths"
      else header.entry (rest.take header.operationSize.toNat)

/-! ### Reading back -/

theorem JournalHeader.entry_eq {source entry : JournalEntry} (h : source.header.entry source.operationBytes = .ok entry) :
    entry = source.setPhase .uncertain := by
  unfold JournalHeader.entry at h
  split at h
  · cases h
  split at h
  · split at h
    · cases h
      rfl
    · split at h <;> cases h
  · cases h

theorem parse_encodeJournal {networkBinding : Hash256} {source entry : JournalEntry}
    (hsize : source.operationBytes.length ≤ MAX_JOURNALED_OPERATION_BYTES)
    (h : parseJournal networkBinding (encodeJournal source) = .ok entry) :
    entry = source.setPhase .uncertain := by
  have hlt : source.operationBytes.length < 2 ^ 32 :=
    hsize.trans_lt (by rw [MAX_JOURNALED_OPERATION_BYTES]; decide)
  have hdrop : (encodeJournal source).drop JOURNAL_MAGIC.length = writeJournalHeader source.header ++
      (source.operationBytes ++ (journalChecksum (JOURNAL_MAGIC ++ writeJournalHeader source.header ++
        source.operationBytes)).1) := by
    rw [encodeJournal]
    simp only [List.append_assoc, List.drop_left]
  have htake : source.header.operationSize.toNat = source.operationBytes.length := UInt32.toNat_ofNat_of_lt' hlt
  unfold parseJournal at h
  split at h
  · cases h
  split at h
  · cases h
  rw [hdrop, readJournalHeader_write] at h
  dsimp only at h
  split at h
  · cases h
  split at h
  · cases h
  rw [htake, List.take_left] at h
  exact JournalHeader.entry_eq h

theorem core_of_encodeJournal {e e' : JournalEntry} (h : encodeJournal e = encodeJournal e') :
    e.core = e'.core := by
  obtain ⟨hbytes, -⟩ := List.append_inj' h ((journalChecksum _).2.trans (journalChecksum _).2.symm)
  simp only [List.append_assoc] at hbytes
  have hheader := congrArg readJournalHeader (List.append_cancel_left hbytes)
  rw [readJournalHeader_write, readJournalHeader_write] at hheader
  obtain ⟨hheader, hoperation⟩ := Prod.mk.inj (Option.some.inj hheader)
  cases e
  cases e'
  simp only [JournalEntry.header, JournalHeader.mk.injEq] at hheader hoperation
  obtain ⟨rfl, rfl, rfl, rfl, rfl, rfl, rfl, -⟩ := hheader
  subst hoperation
  rfl

end

end Cybou
