import Cybou.StorageEconomy

/-! # Protocol operations and their identifiers

`payment.cpp`, `root_publication.cpp`, `storage_lease.cpp`, `storage_audit.cpp`, `protocol_operation.cpp`.

Every operation that can stand in a block, with the canonical serializer that
its payload commitment and its OperationID are computed from.  A serializer
that refuses a payload returns `none`, and every transition that needs the
commitment or the identifier then refuses the operation.
-/

namespace Cybou

open Library

/-! ### Payloads -/

structure PaymentPayload where
  recipient : AccountId
  amount : UInt64
deriving DecidableEq, Repr

structure AuthorizedPayment where
  authorization : IdentityOperationAuthorization
  payment : PaymentPayload
deriving DecidableEq, Repr

structure SystemLockPayload where
  amount : UInt64
deriving DecidableEq, Repr

structure AuthorizedSystemLock where
  authorization : IdentityOperationAuthorization
  lock : SystemLockPayload
deriving DecidableEq, Repr

structure RootRecipientCapsule where
  kemProfile : UInt16
  keyEpoch : UInt64
  encapsulation : FixedBytes 1120
  wrappedContentKey : FixedBytes 60
deriving DecidableEq, Repr

structure RootPublication where
  rootChunkId : ChunkId
  chunkAuthorizationRoot : ChunkId
  chunkCount : UInt32
  leasePeriods : UInt32
  recipientCapsules : List RootRecipientCapsule
deriving DecidableEq, Repr

structure AuthorizedRootPublication where
  authorization : IdentityOperationAuthorization
  publication : RootPublication
deriving DecidableEq, Repr

structure RevokePublicationPayload where
  publicationId : Hash256
deriving DecidableEq, Repr

structure AuthorizedRevokePublication where
  authorization : IdentityOperationAuthorization
  revoke : RevokePublicationPayload
deriving DecidableEq, Repr

structure StorageLeasePayload where
  publicationId : Hash256
  periods : UInt32
deriving DecidableEq, Repr

structure AuthorizedStorageLease where
  authorization : IdentityOperationAuthorization
  lease : StorageLeasePayload
deriving DecidableEq, Repr

structure StorageSettlementEntry where
  fundingOperationId : Hash256
  payoutAccount : AccountId
  amount : UInt64
  slot : UInt8
  storageId : StorageId
  verifiedUnitSeconds : UInt64
deriving DecidableEq, Repr

inductive StorageSettlementAction where
  | prepare
  | activate
  | pay
deriving DecidableEq, Repr

structure StoragePayoutBinding where
  payoutAccount : AccountId
  authorization : IdentityHybridSignature
  storageProof : Bytes
deriving DecidableEq, Repr

structure StorageSettlementBinding where
  storageId : StorageId
  binding : StoragePayoutBinding
deriving DecidableEq, Repr

structure StorageSettlement where
  period : UInt64
  periodStartUtc : UInt64
  entries : List StorageSettlementEntry := []
  poaSignature : IdentityHybridSignature
  action : StorageSettlementAction := .pay
  fundedTermId : Hash256 := Hash256.ZERO
  preparationId : Hash256 := Hash256.ZERO
  assignmentEpoch : UInt64 := 0
  eligible : List StorageSettlementBinding := []
  manifest : List ChunkId := []
  periodEndUtc : UInt64 := 0
  evidenceRoot : Hash256 := Hash256.ZERO
  activationWitnesses : List Hash256 := []
deriving DecidableEq, Repr

/-! ### Payload serializers -/

def serializePaymentPayload (payment : PaymentPayload) : Option Bytes :=
  if Hash256.isNull payment.recipient = true ∨ payment.amount = 0 then none
  else some (payment.recipient.1 ++ le64 payment.amount)

def serializeSystemLockPayload (lock : SystemLockPayload) : Option Bytes :=
  if lock.amount = 0 then none else some (le64 lock.amount)

def ROOT_PUBLICATION_MAX_BYTES : Nat := 131072

def ROOT_PUBLICATION_MAX_CAPSULES : Nat := 32

def IDENTITY_KEM_PROFILE_XWING : UInt16 := 0x647a

/-- `IsValid` in `root_publication.cpp`. -/
def RootPublication.isValid (publication : RootPublication) : Bool :=
  !isZero publication.rootChunkId.1 && !isZero publication.chunkAuthorizationRoot.1 &&
  decide (publication.chunkCount ≠ 0) && decide (publication.recipientCapsules ≠ []) &&
  decide (publication.recipientCapsules.length ≤ ROOT_PUBLICATION_MAX_CAPSULES) &&
  publication.recipientCapsules.all
    (fun capsule => decide (capsule.kemProfile = IDENTITY_KEM_PROFILE_XWING))

def writeCapsule (capsule : RootRecipientCapsule) : Bytes :=
  leBytes 2 capsule.kemProfile.toNat ++ le64 capsule.keyEpoch ++ capsule.encapsulation.1 ++
    capsule.wrappedContentKey.1

/-- `BinaryWriter::Take` of everything written, unless the limit was passed. -/
def withinLimit (limit : Nat) (out : Bytes) : Option Bytes :=
  if out.length > limit then none else some out

def serializeRootPublication (publication : RootPublication) : Option Bytes :=
  if publication.isValid = false then none
  else withinLimit ROOT_PUBLICATION_MAX_BYTES
    (publication.rootChunkId.1 ++ publication.chunkAuthorizationRoot.1 ++
      le32 publication.chunkCount ++ le32 publication.leasePeriods ++
      leBytes 2 publication.recipientCapsules.length ++
      Reader.concat writeCapsule publication.recipientCapsules)

def serializeRevokePublicationPayload (revoke : RevokePublicationPayload) : Option Bytes :=
  if revoke.publicationId.isNull = true then none else some revoke.publicationId.1

def serializeStorageLeasePayload (lease : StorageLeasePayload) : Option Bytes :=
  if lease.publicationId.isNull = true ∨ lease.periods = 0 then none
  else some (lease.publicationId.1 ++ le32 lease.periods)

/-! ### Settlement bodies -/

def MAX_STORAGE_SETTLEMENT_ENTRIES : Nat := 1024

def MAX_OPERATION_PAYLOAD_BYTES : Nat := 131072

def POA_SIGNATURE_SIZE : Nat := 64 + 3309

def SETTLEMENT_HEADER_SIZE : Nat := 8 + 8 + 1 + 8 + 32 + 4

def STORAGE_SETTLEMENT_ENTRY_SIZE : Nat := 32 + 1 + 32 + 32 + 8 + 8

def StorageSettlementAction.toByte : StorageSettlementAction → UInt8
  | .prepare => 1
  | .activate => 2
  | .pay => 3

def encodeStoragePayoutBinding (binding : StoragePayoutBinding) : Bytes :=
  binding.payoutAccount.1 ++ binding.authorization.ed25519.1 ++ binding.authorization.mlDsa ++
    binding.storageProof

def decodeStoragePayoutBinding (b : Bytes) : Option StoragePayoutBinding :=
  if b.length ≤ 32 + 64 + 2420 then none
  else do
    let (account, rest) ← readAccountId b
    let (ed25519, rest) ← Reader.fixed 64 rest
    return { payoutAccount := account
             authorization := { ed25519, mlDsa := rest.take 2420 }
             storageProof := rest.drop 2420 }

/-- The eligible providers of a `PREPARE`: each with its binding, in strict
    order of storage id. -/
def writeEligible : Option StorageId → List StorageSettlementBinding → Option Bytes
  | _, [] => some []
  | prior, e :: rest => do
    if isZero e.storageId.1 = true ∨ (prior.any fun p => !decide (p < e.storageId)) = true then none
    else
      let binding := encodeStoragePayoutBinding e.binding
      if binding.length ≠ 6344 ∨ decodeStoragePayoutBinding binding = none then none
      else do
        let tail ← writeEligible (some e.storageId) rest
        return e.storageId.1 ++ le32Of binding.length ++ binding ++ tail

/-- `std::tie(funding_operation_id, slot, storage_id, payout_account)`. -/
def StorageSettlementEntry.order (e : StorageSettlementEntry) : Lex (Hash256 × ServiceKey) :=
  toLex (e.fundingOperationId, serviceKey e.slot e.storageId e.payoutAccount)

def writeSettlementEntry (e : StorageSettlementEntry) : Bytes :=
  e.fundingOperationId.1 ++ [e.slot] ++ e.storageId.1 ++ e.payoutAccount.1 ++
    le64 e.verifiedUnitSeconds ++ le64 e.amount

def entryValid (e : StorageSettlementEntry) : Bool :=
  !e.fundingOperationId.isNull && !Hash256.isNull e.payoutAccount && !isZero e.storageId.1 &&
    decide (e.verifiedUnitSeconds ≠ 0)

def strictlyOrdered {α κ : Type} [LinearOrder κ] (key : α → κ) (valid : α → Bool) :
    Option κ → List α → Bool
  | _, [] => true
  | prior, a :: rest =>
    valid a && prior.all (fun p => decide (p < key a)) &&
      strictlyOrdered key valid (some (key a)) rest

def prepareBody (settlement : StorageSettlement) : Option Bytes :=
  if settlement.fundedTermId.isNull = true ∨ settlement.preparationId.isNull = false ∨
      settlement.assignmentEpoch = 0 ∨ settlement.manifest ≠ [] ∨ settlement.eligible = [] ∨
      settlement.eligible.length > 20 then none
  else do
    let eligible ← writeEligible none settlement.eligible
    return settlement.fundedTermId.1 ++ le64 settlement.assignmentEpoch ++
      le32Of settlement.eligible.length ++ eligible

def activateBody (settlement : StorageSettlement) : Option Bytes :=
  if settlement.preparationId.isNull = true ∨ settlement.fundedTermId.isNull = false ∨
      settlement.assignmentEpoch ≠ 0 ∨ settlement.eligible ≠ [] ∨ settlement.manifest = [] ∨
      settlement.manifest.length > 3988 then none
  else if (settlement.manifest.any fun chunk => isZero chunk.1) = true ∨
      ¬settlement.manifest.Nodup then none
  else some (settlement.preparationId.1 ++ le32Of settlement.manifest.length ++
    Reader.concat (fun chunk : ChunkId => chunk.1) settlement.manifest)

def payBody (settlement : StorageSettlement) : Option Bytes :=
  if settlement.fundedTermId.isNull = false ∨ settlement.preparationId.isNull = false ∨
      settlement.assignmentEpoch ≠ 0 ∨ settlement.eligible ≠ [] ∨ settlement.manifest ≠ [] then none
  else if settlement.periodEndUtc ≤ settlement.periodStartUtc ∨
      settlement.evidenceRoot.isNull = true ∨
      settlement.activationWitnesses.length > MAX_OPERATION_PAYLOAD_BYTES / 32 then none
  else if SETTLEMENT_HEADER_SIZE + settlement.entries.length * STORAGE_SETTLEMENT_ENTRY_SIZE + 4 +
      32 * settlement.activationWitnesses.length >
        MAX_OPERATION_PAYLOAD_BYTES - 1 - POA_SIGNATURE_SIZE then none
  else if strictlyOrdered StorageSettlementEntry.order entryValid none settlement.entries = false ∨
      strictlyOrdered id (fun w : Hash256 => !w.isNull) none settlement.activationWitnesses = false
    then none
  else some (le64 settlement.period ++ le64 settlement.periodStartUtc ++
    [settlement.action.toByte] ++ le64 settlement.periodEndUtc ++ settlement.evidenceRoot.1 ++
    le32Of settlement.entries.length ++ Reader.concat writeSettlementEntry settlement.entries ++
    le32Of settlement.activationWitnesses.length ++
    Reader.concat (fun w : Hash256 => w.1) settlement.activationWitnesses)

def serializeSettlementBody (settlement : StorageSettlement) : Option Bytes :=
  if settlement.periodStartUtc = 0 ∨
      settlement.entries.length > MAX_STORAGE_SETTLEMENT_ENTRIES then none
  else if settlement.action ≠ .pay then
    if settlement.entries ≠ [] ∨ settlement.periodEndUtc ≠ 0 ∨
        settlement.evidenceRoot.isNull = false ∨ settlement.activationWitnesses ≠ [] then none
    else do
      let tail ← if settlement.action = .prepare then prepareBody settlement
        else activateBody settlement
      withinLimit (MAX_OPERATION_PAYLOAD_BYTES - 1 - POA_SIGNATURE_SIZE)
        (le64 settlement.period ++ le64 settlement.periodStartUtc ++ [settlement.action.toByte] ++
          tail)
  else payBody settlement

def serializeStorageSettlement (settlement : StorageSettlement) : Option Bytes := do
  let out ← serializeSettlementBody settlement
  if settlement.poaSignature.mlDsa.length ≠ 3309 then none
  else return out ++ settlement.poaSignature.ed25519.1 ++ settlement.poaSignature.mlDsa

/-! ### The tagged union -/

inductive ProtocolOperation where
  | accountCreate (op : AccountCreateOp)
  | payment (op : AuthorizedPayment)
  | identityRotate (op : IdentityRotate)
  | systemLock (op : AuthorizedSystemLock)
  | nameCommit (op : AuthorizedNameCommit)
  | nameReveal (op : AuthorizedNameReveal)
  | rootPublication (op : AuthorizedRootPublication)
  | revokePublication (op : AuthorizedRevokePublication)
  | storageLease (op : AuthorizedStorageLease)
  | storageSettlement (op : StorageSettlement)
deriving DecidableEq

/-- `ProtocolOperationKind`. -/
def ProtocolOperation.kind : ProtocolOperation → UInt8
  | .accountCreate _ => 1
  | .payment _ => 2
  | .identityRotate _ => 3
  | .systemLock _ => 4
  | .nameCommit _ => 5
  | .nameReveal _ => 6
  | .rootPublication _ => 7
  | .revokePublication _ => 8
  | .storageLease _ => 9
  | .storageSettlement _ => 10

def serializeIdentityOperationAuthorization (auth : IdentityOperationAuthorization)
    (expectedKind : IdentityOperationKind) : Option Bytes :=
  if auth.kind ≠ expectedKind ∨ Hash256.isNull auth.accountId = true ∨
      auth.signature.mlDsa.length ≠ 2420 ∨ isZero auth.payloadCommitment.1 = true ∨
      isZero auth.signature.ed25519.1 = true ∨ isZero auth.signature.mlDsa = true then none
  else some (auth.accountId.1 ++ le64 auth.nonce ++ le64 auth.keyEpoch ++ [auth.kind.toByte] ++
    auth.payloadCommitment.1 ++ auth.signature.ed25519.1 ++ auth.signature.mlDsa)

def serializeAuthorizedPayload (auth : IdentityOperationAuthorization) (kind : IdentityOperationKind)
    (payload : Option Bytes) (commitment : Option IdentityKeyId) : Option Bytes := do
  let payloadBytes ← payload
  if commitment ≠ some auth.payloadCommitment then none
  else
    let out ← serializeIdentityOperationAuthorization auth kind
    return out ++ payloadBytes

def writeSignature (signature : IdentityHybridSignature) : Bytes :=
  signature.ed25519.1 ++ signature.mlDsa

section

variable [Crypto]

def payloadCommitment (domain : Bytes) (payload : Option Bytes) : Option IdentityKeyId := do
  let bytes ← payload
  return Crypto.sha256 (domain ++ bytes)

def computePaymentPayloadCommitment (payment : PaymentPayload) : Option IdentityKeyId :=
  payloadCommitment (ascii "CYBOU/PAYMENT-PAYLOAD") (serializePaymentPayload payment)

def computeSystemLockPayloadCommitment (lock : SystemLockPayload) : Option IdentityKeyId :=
  payloadCommitment (ascii "CYBOU/SYSTEM-LOCK-PAYLOAD") (serializeSystemLockPayload lock)

def computeRootPublicationPayloadCommitment (publication : RootPublication) :
    Option IdentityKeyId :=
  payloadCommitment (ascii "CYBOU/ROOT-PUBLICATION/P4") (serializeRootPublication publication)

def computeRevokePublicationPayloadCommitment (revoke : RevokePublicationPayload) :
    Option IdentityKeyId :=
  payloadCommitment (ascii "CYBOU/REVOKE-PUBLICATION-PAYLOAD")
    (serializeRevokePublicationPayload revoke)

def computeStorageLeasePayloadCommitment (lease : StorageLeasePayload) : Option IdentityKeyId :=
  payloadCommitment (ascii "CYBOU/STORAGE-LEASE-PAYLOAD") (serializeStorageLeasePayload lease)

def computeStorageSettlementDigest (networkBinding : Hash256) (settlement : StorageSettlement) :
    Option Hash256 := do
  let body ← serializeSettlementBody settlement
  if networkBinding.isNull = true then none
  else return Crypto.sha256 (ascii "CYBOU/STORAGE-SETTLEMENT" ++ networkBinding.1 ++ body)

def serializeIdentityRotate (op : IdentityRotate) : Option Bytes :=
  if Hash256.isNull op.accountId = true ∨ op.newRecoveryKey.purpose ≠ .recoveryRoot ∨
      op.newAuthorizationKey.purpose ≠ .authorization ∨ op.newRecoveryKey.mlDsa.length ≠ 1952 ∨
      op.newAuthorizationKey.mlDsa.length ≠ 1312 ∨ op.oldRecoverySignature.mlDsa.length ≠ 3309 ∨
      op.newRecoveryPop.mlDsa.length ≠ 3309 ∨ op.newAuthorizationPop.mlDsa.length ≠ 2420 ∨
      decodeIdentityKemPackage op.newKemPackage = none ∨
      isZero op.newRecoveryKey.ed25519.1 = true ∨ isZero op.newRecoveryKey.mlDsa = true ∨
      isZero op.newAuthorizationKey.ed25519.1 = true ∨
      isZero op.newAuthorizationKey.mlDsa = true ∨
      isZero op.oldRecoverySignature.ed25519.1 = true ∨
      isZero op.oldRecoverySignature.mlDsa = true ∨ isZero op.newRecoveryPop.ed25519.1 = true ∨
      isZero op.newRecoveryPop.mlDsa = true ∨ isZero op.newAuthorizationPop.ed25519.1 = true ∨
      isZero op.newAuthorizationPop.mlDsa = true then none
  else some (op.accountId.1 ++ writePublic op.newRecoveryKey ++ writePublic op.newAuthorizationKey ++
    op.newKemPackage.1 ++ le64 op.nonce ++ le64 op.keyEpoch ++
    writeSignature op.oldRecoverySignature ++ writeSignature op.newRecoveryPop ++
    writeSignature op.newAuthorizationPop)

def serializeOperationBody : ProtocolOperation → Option Bytes
  | .accountCreate op => serializeAccountCreateOp op
  | .payment op => serializeAuthorizedPayload op.authorization .payment
      (serializePaymentPayload op.payment) (computePaymentPayloadCommitment op.payment)
  | .identityRotate op => serializeIdentityRotate op
  | .systemLock op => serializeAuthorizedPayload op.authorization .systemLock
      (serializeSystemLockPayload op.lock) (computeSystemLockPayloadCommitment op.lock)
  | .nameCommit op => serializeAuthorizedPayload op.authorization .nameCommit
      (serializeNameCommitPayload op.commit) (computeNameCommitPayloadCommitment op.commit)
  | .nameReveal op => serializeAuthorizedPayload op.authorization .nameReveal
      (serializeNameRevealPayload op.reveal) (computeNameRevealPayloadCommitment op.reveal)
  | .rootPublication op => do
      let body ← serializeAuthorizedPayload op.authorization .rootPublication
        (serializeRootPublication op.publication)
        (computeRootPublicationPayloadCommitment op.publication)
      if body.length + 1 > ROOT_PUBLICATION_MAX_OPERATION_BYTES then none else return body
  | .revokePublication op => serializeAuthorizedPayload op.authorization .revokePublication
      (serializeRevokePublicationPayload op.revoke)
      (computeRevokePublicationPayloadCommitment op.revoke)
  | .storageLease op => serializeAuthorizedPayload op.authorization .storageLease
      (serializeStorageLeasePayload op.lease) (computeStorageLeasePayloadCommitment op.lease)
  | .storageSettlement op => serializeStorageSettlement op

def serializeProtocolOperation (operation : ProtocolOperation) : Option Bytes := do
  let body ← serializeOperationBody operation
  return [operation.kind] ++ body

def computeOperationIdOfBytes (serialized : Bytes) : Option Hash256 :=
  if serialized.isEmpty then none else some (Crypto.sha256 (ascii "CYBOU/OP-ID" ++ serialized))

def computeOperationId (operation : ProtocolOperation) : Option Hash256 := do
  let bytes ← serializeProtocolOperation operation
  computeOperationIdOfBytes bytes

theorem computeOperationIdOfBytes_ne_null {b : Bytes} {id : Hash256}
    (h : computeOperationIdOfBytes b = some id) : id.isNull = false := by
  unfold computeOperationIdOfBytes at h
  split at h
  · cases h
  · cases h
    exact Crypto.sha256_ne_null _

theorem computeOperationId_ne_null {operation : ProtocolOperation} {id : Hash256}
    (h : computeOperationId operation = some id) : id.isNull = false := by
  obtain ⟨bytes, -, hid⟩ := Option.bind_eq_some_iff.mp h
  exact computeOperationIdOfBytes_ne_null hid

end

end Cybou
