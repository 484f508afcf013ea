import Cybou.SettlementCodec

/-! # `DeserializeProtocolOperation`

`protocol_operation.cpp`, `account_creation.cpp`, `root_publication.cpp`, `name_registry.h`, `payment.cpp`.

Each payload has a parser that accepts exactly what its serializer writes
(`Inverse`), with two exceptions.  `DeserializeAccountCreateOp` does not make
the serializer's check that the proof of work names a network, so it accepts
encodings that cannot be written again; and a `PREPARE` settlement can be
written with payout bindings that are read back differently.
`protocolOperation_codec` says that there is nothing else.
-/

namespace Cybou

open Library Reader

/-! ### Payloads -/

def PAYMENT_PAYLOAD_SIZE : Nat := 32 + 8

def readPaymentPayload : Reader PaymentPayload := do
  let recipient ← readAccountId
  let amount ← u64
  require (amount ≠ 0)
  return { recipient, amount }

def deserializePaymentPayload : Bytes → Option PaymentPayload :=
  readPaymentPayload.sized PAYMENT_PAYLOAD_SIZE

def SYSTEM_LOCK_PAYLOAD_SIZE : Nat := 8

def readSystemLockPayload : Reader SystemLockPayload := do
  let amount ← u64
  require (amount ≠ 0)
  return { amount }

def deserializeSystemLockPayload : Bytes → Option SystemLockPayload :=
  readSystemLockPayload.sized SYSTEM_LOCK_PAYLOAD_SIZE

def NAME_COMMIT_PAYLOAD_SIZE : Nat := 32

def readNameCommitPayload : Reader NameCommitPayload := do
  let commitment ← fixed 32
  require (Hash256.isNull commitment = false)
  return { commitment }

def deserializeNameCommitPayload : Bytes → Option NameCommitPayload :=
  readNameCommitPayload.sized NAME_COMMIT_PAYLOAD_SIZE

def NAME_CLAIM_WORK_SIZE : Nat := 112

def readNameClaimWork : Reader NameClaimWork := do
  let networkBinding ← fixed 32
  let accountId ← readAccountId
  let commitment ← fixed 32
  let workEpoch ← u64
  let nonce ← u64
  require (Hash256.isNull networkBinding = false ∧ Hash256.isNull commitment = false)
  return { networkBinding, accountId, commitment, workEpoch, nonce }

def NAME_REVEAL_PAYLOAD_SIZE : Nat := 1 + 32 + 32 + NAME_CLAIM_WORK_SIZE

def readNameRevealPayload : Reader NameRevealPayload := do
  let labelLen ← u8
  require (NAME_MIN_LABEL_LENGTH ≤ labelLen.toNat ∧ labelLen.toNat ≤ NAME_MAX_LABEL_LENGTH)
  let label ← bytes labelLen.toNat
  let padding ← bytes (32 - labelLen.toNat)
  require (isZero padding = true)
  let salt ← fixed 32
  require (isZero salt.1 = false)
  let work ← readNameClaimWork
  return { label, salt, work }

def deserializeNameRevealPayload : Bytes → Option NameRevealPayload :=
  readNameRevealPayload.sized NAME_REVEAL_PAYLOAD_SIZE

def readCapsule : Reader RootRecipientCapsule := do
  let kemProfile ← bytes 2
  let keyEpoch ← u64
  let encapsulation ← fixed 1120
  let wrappedContentKey ← fixed 60
  return { kemProfile := UInt16.ofNat (leNat kemProfile), keyEpoch, encapsulation, wrappedContentKey }

def readRootPublication : Reader RootPublication := do
  let rootChunkId ← fixed 32
  let chunkAuthorizationRoot ← fixed 32
  let chunkCount ← u32
  let leasePeriods ← u32
  let size ← bytes 2
  require (leNat size ≠ 0 ∧ leNat size ≤ ROOT_PUBLICATION_MAX_CAPSULES)
  let recipientCapsules ← repeatN readCapsule (leNat size)
  return { rootChunkId, chunkAuthorizationRoot, chunkCount, leasePeriods, recipientCapsules }

def deserializeRootPublication (b : Bytes) : Option RootPublication :=
  if b.length > ROOT_PUBLICATION_MAX_BYTES then none
  else do
    let publication ← readRootPublication.whole b
    if publication.isValid then return publication else none

def REVOKE_PUBLICATION_PAYLOAD_SIZE : Nat := 32

def readRevokePublicationPayload : Reader RevokePublicationPayload := do
  let publicationId ← fixed 32
  require (Hash256.isNull publicationId = false)
  return { publicationId }

def deserializeRevokePublicationPayload : Bytes → Option RevokePublicationPayload :=
  readRevokePublicationPayload.sized REVOKE_PUBLICATION_PAYLOAD_SIZE

def STORAGE_LEASE_PAYLOAD_SIZE : Nat := 32 + 4

def readStorageLeasePayload : Reader StorageLeasePayload := do
  let publicationId ← fixed 32
  let periods ← u32
  require (serializeStorageLeasePayload { publicationId, periods } ≠ none)
  return { publicationId, periods }

def deserializeStorageLeasePayload : Bytes → Option StorageLeasePayload :=
  readStorageLeasePayload.sized STORAGE_LEASE_PAYLOAD_SIZE

/-! ### Authorizations and keys -/

def IDENTITY_OPERATION_AUTH_SIZE : Nat := 2565

def readIdentityOperationAuthorization (expectedKind : IdentityOperationKind) :
    Reader IdentityOperationAuthorization := do
  let accountId ← readAccountId
  let nonce ← u64
  let keyEpoch ← u64
  let kind ← u8
  require (kind = expectedKind.toByte)
  let payloadCommitment ← fixed 32
  let ed25519 ← fixed 64
  let mlDsa ← bytes 2420
  require (¬(isZero payloadCommitment.1 = true ∨ isZero ed25519.1 = true ∨ isZero mlDsa = true))
  return { accountId, nonce, keyEpoch, kind := expectedKind, payloadCommitment,
           signature := { ed25519, mlDsa } }

def deserializeIdentityOperationAuthorization (expectedKind : IdentityOperationKind) :
    Bytes → Option IdentityOperationAuthorization :=
  (readIdentityOperationAuthorization expectedKind).sized IDENTITY_OPERATION_AUTH_SIZE

def IDENTITY_AUTHORIZATION_SIZE : Nat := 3330

def readIdentityAuthorization : Reader IdentityAuthorization := do
  let rootSuite ← u8
  require (rootSuite = 1)
  let recoveryRoot ← readPublic .recoveryRoot 1952
  let authorizationSuite ← u8
  require (authorizationSuite = 1)
  let authorizationKey ← readPublic .authorization 1312
  let auth : IdentityAuthorization := { recoveryRoot, authorizationKey }
  require (auth.valid = true)
  return auth

def readSignature (pqSize : Nat) : Reader IdentityHybridSignature := do
  let ed25519 ← fixed 64
  let mlDsa ← bytes pqSize
  return { ed25519, mlDsa }

section

variable [Crypto]

/-! ### Operations -/

def IDENTITY_KEM_PACKAGE_SIZE : Nat := 1218

def ACCOUNT_CREATE_WORK_SIZE : Nat := 112

def ACCOUNT_CREATE_SIZE : Nat :=
  32 + IDENTITY_AUTHORIZATION_SIZE + IDENTITY_KEM_PACKAGE_SIZE + ACCOUNT_CREATE_WORK_SIZE + 64 +
    3309 + 64 + 2420

/-- The work of an `AccountCreate`.  Of the two identifiers in it only the
    account is checked. -/
def readAccountCreationWork : Reader AccountCreationWork := do
  let networkBinding ← fixed 32
  let accountId ← readAccountId
  let authorizationCommitment ← fixed 32
  let workEpoch ← u64
  let nonce ← u64
  return { networkBinding, accountId, authorizationCommitment, workEpoch, nonce }

def readAccountCreateOp : Reader AccountCreateOp := do
  let accountId ← readAccountId
  let authorization ← readIdentityAuthorization
  let kemPackage ← fixed 1218
  require (decodeIdentityKemPackage kemPackage ≠ none)
  let work ← readAccountCreationWork
  let recoveryPop ← readSignature 3309
  let authorizationPop ← readSignature 2420
  return { accountId, authorization, kemPackage, work, recoveryPop, authorizationPop }

def deserializeAccountCreateOp : Bytes → Option AccountCreateOp :=
  readAccountCreateOp.sized ACCOUNT_CREATE_SIZE

def IDENTITY_ROTATE_SIZE : Nat :=
  32 + 32 + 1952 + 32 + 1312 + IDENTITY_KEM_PACKAGE_SIZE + 8 + 8 + 2 * (64 + 3309) + 64 + 2420

def readIdentityRotate : Reader IdentityRotate := do
  let accountId ← readAccountId
  let newRecoveryKey ← readPublic .recoveryRoot 1952
  let newAuthorizationKey ← readPublic .authorization 1312
  let newKemPackage ← fixed 1218
  require (decodeIdentityKemPackage newKemPackage ≠ none)
  let nonce ← u64
  let keyEpoch ← u64
  let oldRecoverySignature ← readSignature 3309
  let newRecoveryPop ← readSignature 3309
  let newAuthorizationPop ← readSignature 2420
  let op : IdentityRotate :=
    { accountId, newRecoveryKey, newAuthorizationKey, newKemPackage, nonce, keyEpoch,
      oldRecoverySignature, newRecoveryPop, newAuthorizationPop }
  require (serializeIdentityRotate op ≠ none)
  return op

def deserializeIdentityRotate : Bytes → Option IdentityRotate :=
  readIdentityRotate.sized IDENTITY_ROTATE_SIZE

/-- The pattern of the authorized deserializers: the authorization, then the
    payload it commits to. -/
def deserializeAuthorizedPayload {α : Type} (kind : IdentityOperationKind)
    (deserialize : Bytes → Option α) (commitment : α → Option IdentityKeyId) (b : Bytes) :
    Option (IdentityOperationAuthorization × α) := do
  let auth ← deserializeIdentityOperationAuthorization kind (b.take IDENTITY_OPERATION_AUTH_SIZE)
  let payload ← deserialize (b.drop IDENTITY_OPERATION_AUTH_SIZE)
  if commitment payload ≠ some auth.payloadCommitment then none else return (auth, payload)

def deserializeSizedPayload {α : Type} (size : Nat) (kind : IdentityOperationKind)
    (deserialize : Bytes → Option α) (commitment : α → Option IdentityKeyId) (b : Bytes) :
    Option (IdentityOperationAuthorization × α) :=
  if b.length ≠ IDENTITY_OPERATION_AUTH_SIZE + size then none
  else deserializeAuthorizedPayload kind deserialize commitment b

def deserializePayment (b : Bytes) : Option AuthorizedPayment := do
  let (authorization, payment) ← deserializeSizedPayload PAYMENT_PAYLOAD_SIZE .payment
    deserializePaymentPayload computePaymentPayloadCommitment b
  return { authorization, payment }

def deserializeSystemLock (b : Bytes) : Option AuthorizedSystemLock := do
  let (authorization, lock) ← deserializeSizedPayload SYSTEM_LOCK_PAYLOAD_SIZE .systemLock
    deserializeSystemLockPayload computeSystemLockPayloadCommitment b
  return { authorization, lock }

def deserializeNameCommit (b : Bytes) : Option AuthorizedNameCommit := do
  let (authorization, commit) ← deserializeSizedPayload NAME_COMMIT_PAYLOAD_SIZE .nameCommit
    deserializeNameCommitPayload computeNameCommitPayloadCommitment b
  return { authorization, commit }

def deserializeNameReveal (b : Bytes) : Option AuthorizedNameReveal := do
  let (authorization, reveal) ← deserializeSizedPayload NAME_REVEAL_PAYLOAD_SIZE .nameReveal
    deserializeNameRevealPayload computeNameRevealPayloadCommitment b
  return { authorization, reveal }

def deserializeRootPublicationOperation (b : Bytes) : Option AuthorizedRootPublication :=
  if b.length < IDENTITY_OPERATION_AUTH_SIZE ∨ b.length > ROOT_PUBLICATION_MAX_OPERATION_BYTES then none
  else do
    let (authorization, publication) ← deserializeAuthorizedPayload .rootPublication
      deserializeRootPublication computeRootPublicationPayloadCommitment b
    return { authorization, publication }

def deserializeRevokePublicationOperation (b : Bytes) : Option AuthorizedRevokePublication := do
  let (authorization, revoke) ← deserializeSizedPayload REVOKE_PUBLICATION_PAYLOAD_SIZE
    .revokePublication deserializeRevokePublicationPayload computeRevokePublicationPayloadCommitment b
  return { authorization, revoke }

def deserializeStorageLeaseOperation (b : Bytes) : Option AuthorizedStorageLease := do
  let (authorization, lease) ← deserializeSizedPayload STORAGE_LEASE_PAYLOAD_SIZE .storageLease
    deserializeStorageLeasePayload computeStorageLeasePayloadCommitment b
  return { authorization, lease }

/-- `DeserializeProtocolOperation`.  The payload sizes that it checks ahead of
    the parsers it calls are the ones they check themselves. -/
def deserializeProtocolOperation : Bytes → Option ProtocolOperation
  | [] => none
  | kind :: body =>
    if kind = 1 then (deserializeAccountCreateOp body).map .accountCreate
    else if kind = 2 then (deserializePayment body).map .payment
    else if kind = 3 then (deserializeIdentityRotate body).map .identityRotate
    else if kind = 4 then (deserializeSystemLock body).map .systemLock
    else if kind = 5 then (deserializeNameCommit body).map .nameCommit
    else if kind = 6 then (deserializeNameReveal body).map .nameReveal
    else if kind = 7 then
      if body.length + 1 > ROOT_PUBLICATION_MAX_OPERATION_BYTES then none
      else (deserializeRootPublicationOperation body).map .rootPublication
    else if kind = 8 then (deserializeRevokePublicationOperation body).map .revokePublication
    else if kind = 9 then (deserializeStorageLeaseOperation body).map .storageLease
    else if kind = 10 then
      if body.length + 1 > MAX_OPERATION_PAYLOAD_BYTES then none
      else (deserializeStorageSettlement body).map .storageSettlement
    else none

end

/-! ### Payload codecs -/

theorem paymentPayload_inverse : Inverse serializePaymentPayload deserializePaymentPayload := by
  have hexact : Exact readPaymentPayload (fun p => p.recipient.1 ++ le64 p.amount)
      (fun p => Hash256.isNull p.recipient = false ∧ p.amount ≠ 0) := by
    rintro b ⟨recipient, amount⟩ r
    simp only [readPaymentPayload, readAccountId_exact.bind, u64_exact.bind, require_bind,
      pure_eq_some, true_and]
    constructor
    · rintro ⟨_, _, hnull, rfl, _, _, rfl, hamount, heq, rfl⟩
      cases heq
      exact ⟨⟨hnull, hamount⟩, by simp⟩
    · rintro ⟨⟨hnull, hamount⟩, rfl⟩
      exact ⟨recipient, _, hnull, by simp, amount, r, rfl, hamount, rfl, rfl⟩
  refine hexact.inverse (fun p _ => ?_) fun p b => ?_
  · rw [List.length_append, length_le64]
    exact congrArg (· + 8) p.recipient.2
  · rw [serializePaymentPayload, Option.ite_none_left_eq_some, not_or, Bool.not_eq_true,
      Option.some.injEq, eq_comm (b := b)]

theorem systemLockPayload_inverse :
    Inverse serializeSystemLockPayload deserializeSystemLockPayload := by
  have hexact : Exact readSystemLockPayload (fun p => le64 p.amount) (fun p => p.amount ≠ 0) := by
    rintro b ⟨amount⟩ r
    simp only [readSystemLockPayload, u64_exact.bind, require_bind, pure_eq_some, true_and]
    constructor
    · rintro ⟨_, _, rfl, hamount, heq, rfl⟩
      cases heq
      exact ⟨hamount, rfl⟩
    · rintro ⟨hamount, rfl⟩
      exact ⟨amount, r, rfl, hamount, rfl, rfl⟩
  refine hexact.inverse (fun p _ => length_le64 p.amount) fun p b => ?_
  rw [serializeSystemLockPayload, Option.ite_none_left_eq_some, Option.some.injEq, eq_comm (b := b)]

theorem nameCommitPayload_inverse :
    Inverse serializeNameCommitPayload deserializeNameCommitPayload := by
  have hexact : Exact readNameCommitPayload (fun p => p.commitment.1)
      (fun p => Hash256.isNull p.commitment = false) := by
    rintro b ⟨commitment⟩ r
    simp only [readNameCommitPayload, (fixed_exact 32).bind, require_bind, pure_eq_some, true_and]
    constructor
    · rintro ⟨_, _, rfl, hnull, heq, rfl⟩
      cases heq
      exact ⟨hnull, rfl⟩
    · rintro ⟨hnull, rfl⟩
      exact ⟨commitment, r, rfl, hnull, rfl, rfl⟩
  refine hexact.inverse (fun p _ => p.commitment.2) fun p b => ?_
  rw [serializeNameCommitPayload, Option.ite_none_left_eq_some, Bool.not_eq_true,
    Option.some.injEq, eq_comm (b := b)]

theorem revokePublicationPayload_inverse :
    Inverse serializeRevokePublicationPayload deserializeRevokePublicationPayload := by
  have hexact : Exact readRevokePublicationPayload (fun p => p.publicationId.1)
      (fun p => Hash256.isNull p.publicationId = false) := by
    rintro b ⟨publicationId⟩ r
    simp only [readRevokePublicationPayload, (fixed_exact 32).bind, require_bind, pure_eq_some,
      true_and]
    constructor
    · rintro ⟨_, _, rfl, hnull, heq, rfl⟩
      cases heq
      exact ⟨hnull, rfl⟩
    · rintro ⟨hnull, rfl⟩
      exact ⟨publicationId, r, rfl, hnull, rfl, rfl⟩
  refine hexact.inverse (fun p _ => p.publicationId.2) fun p b => ?_
  rw [serializeRevokePublicationPayload, Option.ite_none_left_eq_some, Bool.not_eq_true,
    Option.some.injEq, eq_comm (b := b)]

theorem storageLeasePayload_inverse :
    Inverse serializeStorageLeasePayload deserializeStorageLeasePayload := by
  have hexact : Exact readStorageLeasePayload (fun p => p.publicationId.1 ++ le32 p.periods)
      (fun p => serializeStorageLeasePayload p ≠ none) := by
    rintro b ⟨publicationId, periods⟩ r
    simp only [readStorageLeasePayload, (fixed_exact 32).bind, u32_exact.bind, require_bind,
      pure_eq_some, true_and]
    constructor
    · rintro ⟨_, _, rfl, _, _, rfl, hok, heq, rfl⟩
      cases heq
      exact ⟨hok, by simp⟩
    · rintro ⟨hok, rfl⟩
      exact ⟨publicationId, _, by simp, periods, r, rfl, hok, rfl, rfl⟩
  refine hexact.inverse (fun p _ => by simp [p.publicationId.2, STORAGE_LEASE_PAYLOAD_SIZE]) fun p b => ?_
  rw [serializeStorageLeasePayload]
  split
  · simp
  · simp [eq_comm]

def writeNameClaimWork (w : NameClaimWork) : Bytes :=
  w.networkBinding.1 ++ w.accountId.1 ++ w.commitment.1 ++ le64 w.workEpoch ++ le64 w.nonce

theorem readNameClaimWork_exact : Exact readNameClaimWork writeNameClaimWork
    (fun w => Hash256.isNull w.networkBinding = false ∧ Hash256.isNull w.accountId = false ∧
      Hash256.isNull w.commitment = false) := by
  rintro b ⟨network, account, commitment, epoch, nonce⟩ r
  simp only [readNameClaimWork, (fixed_exact 32).bind, readAccountId_exact.bind, u64_exact.bind,
    require_bind, pure_eq_some, true_and, writeNameClaimWork]
  constructor
  · rintro ⟨_, _, rfl, _, _, haccount, rfl, _, _, rfl, _, _, rfl, _, _, rfl, hok, heq, rfl⟩
    cases heq
    exact ⟨⟨hok.1, haccount, hok.2⟩, by simp⟩
  · rintro ⟨⟨hnetwork, haccount, hcommitment⟩, rfl⟩
    exact ⟨network, _, by simp, account, _, haccount, rfl, commitment, _, rfl, epoch, _, rfl, nonce, r,
      rfl, ⟨hnetwork, hcommitment⟩, rfl, rfl⟩

theorem serializeNameClaimWork_eq_some {w : NameClaimWork} {b : Bytes} :
    serializeNameClaimWork w = some b ↔
      (Hash256.isNull w.networkBinding = false ∧ Hash256.isNull w.accountId = false ∧
        Hash256.isNull w.commitment = false) ∧
      b = writeNameClaimWork w := by
  rw [serializeNameClaimWork, Option.ite_none_left_eq_some, not_or, not_or, Bool.not_eq_true,
    Bool.not_eq_true, Bool.not_eq_true, Option.some.injEq, eq_comm (b := b), writeNameClaimWork]

/-- The label behind its length, padded to the full width, the salt and the work. -/
def nameRevealBytes (p : NameRevealPayload) : Bytes :=
  [UInt8.ofNat p.label.length] ++ p.label ++ List.replicate (32 - p.label.length) 0 ++ p.salt.1 ++
    writeNameClaimWork p.work

def NameRevealOk (p : NameRevealPayload) : Prop :=
  (NAME_MIN_LABEL_LENGTH ≤ p.label.length ∧ p.label.length ≤ NAME_MAX_LABEL_LENGTH) ∧
    isZero p.salt.1 = false ∧
    Hash256.isNull p.work.networkBinding = false ∧ Hash256.isNull p.work.accountId = false ∧
    Hash256.isNull p.work.commitment = false

theorem readNameRevealPayload_exact : Exact readNameRevealPayload nameRevealBytes NameRevealOk := by
  rintro b ⟨label, salt, work⟩ r
  have hmax : NAME_MAX_LABEL_LENGTH = 32 := rfl
  simp only [readNameRevealPayload, u8_exact.bind, require_bind, bind_eq_some (p := bytes _),
    bytes_eq_some, (fixed_exact 32).bind, readNameClaimWork_exact.bind, pure_eq_some, true_and,
    NameRevealOk, nameRevealBytes]
  constructor
  · rintro ⟨size, _, rfl, hsize, _, _, ⟨hlabel, rfl⟩, padding, _, ⟨hpadding, rfl⟩, hzero, _, _, rfl,
      hsalt, _, _, hwork, rfl, heq, rfl⟩
    cases heq
    refine ⟨⟨by omega, hsalt, hwork⟩, ?_⟩
    rw [isZero_iff, hpadding] at hzero
    rw [hlabel, UInt8.ofNat_toNat, hzero]
    simp
  · rintro ⟨⟨hsize, hsalt, hwork⟩, rfl⟩
    simp only [List.append_assoc]
    have hbyte : (UInt8.ofNat label.length).toNat = label.length := by
      rw [UInt8.toNat_ofNat']
      omega
    refine ⟨UInt8.ofNat label.length, _, rfl, by rw [hbyte]; exact hsize,
      label, _, ⟨hbyte.symm, rfl⟩, List.replicate (32 - label.length) 0, _,
      ⟨by rw [hbyte, List.length_replicate], rfl⟩, ?_, salt, _, rfl, hsalt, work, r, hwork, ?_, rfl, rfl⟩
    · rw [isZero_iff, List.length_replicate]
    · simp

theorem nameRevealPayload_inverse :
    Inverse serializeNameRevealPayload deserializeNameRevealPayload := by
  have hmax : NAME_MAX_LABEL_LENGTH = 32 := rfl
  refine readNameRevealPayload_exact.inverse (fun p hok => ?_) fun p b => ?_
  · have hlabel := hok.1.2
    simp only [nameRevealBytes, writeNameClaimWork, List.length_append, List.length_singleton, List.length_replicate,
      p.salt.2, p.work.networkBinding.2, p.work.accountId.2, p.work.commitment.2, length_le64,
      NAME_REVEAL_PAYLOAD_SIZE, NAME_CLAIM_WORK_SIZE]
    omega
  · rw [serializeNameRevealPayload, Option.ite_none_left_eq_some, not_or, Nat.not_lt, Nat.not_lt,
      Option.bind_eq_bind, Option.bind_eq_some_iff]
    simp only [serializeNameClaimWork_eq_some, Option.ite_none_left_eq_some, Bool.not_eq_true]
    constructor
    · rintro ⟨hsize, _, ⟨hwork, rfl⟩, hsalt, heq⟩
      cases heq
      exact ⟨⟨hsize, hsalt, hwork⟩, rfl⟩
    · rintro ⟨⟨hsize, hsalt, hwork⟩, rfl⟩
      exact ⟨hsize, _, ⟨hwork, rfl⟩, hsalt, rfl⟩

theorem leNat_leBytes_two {n : Nat} (h : n < 2 ^ 16) : leNat (leBytes 2 n) = n := leNat_leBytes h

theorem leBytes_two_leNat {x : Bytes} (h : x.length = 2) : leBytes 2 (leNat x) = x := by
  rw [← h, leBytes_leNat]

theorem readCapsule_exact : Exact readCapsule writeCapsule (fun _ => True) := by
  rintro b ⟨profile, epoch, encapsulation, key⟩ r
  simp only [readCapsule, bind_eq_some (p := bytes _), bytes_eq_some, u64_exact.bind,
    (fixed_exact 1120).bind, (fixed_exact 60).bind, pure_eq_some, true_and, writeCapsule]
  constructor
  · rintro ⟨x, _, ⟨hx, rfl⟩, _, _, rfl, _, _, rfl, _, _, rfl, heq, rfl⟩
    cases heq
    have hlt : leNat x < 2 ^ 16 := by simpa [hx] using leNat_lt x
    rw [UInt16.toNat_ofNat_of_lt' hlt, leBytes_two_leNat hx]
    simp
  · rintro rfl
    refine ⟨leBytes 2 profile.toNat, _, ⟨length_leBytes .., by simp only [List.append_assoc]⟩, epoch, _,
      rfl, encapsulation, _, rfl, key, r, rfl, ?_, rfl⟩
    rw [leNat_leBytes_two profile.toNat_lt, UInt16.ofNat_toNat]

def writeRootPublication (p : RootPublication) : Bytes :=
  p.rootChunkId.1 ++ p.chunkAuthorizationRoot.1 ++ le32 p.chunkCount ++ le32 p.leasePeriods ++
    leBytes 2 p.recipientCapsules.length ++ concat writeCapsule p.recipientCapsules

theorem readRootPublication_exact : Exact readRootPublication writeRootPublication
    (fun p => p.recipientCapsules.length ≠ 0 ∧
      p.recipientCapsules.length ≤ ROOT_PUBLICATION_MAX_CAPSULES) := by
  rintro b ⟨root, authorization, chunks, periods, capsules⟩ r
  have hmax : ROOT_PUBLICATION_MAX_CAPSULES = 32 := rfl
  simp only [readRootPublication, (fixed_exact 32).bind, u32_exact.bind, bind_eq_some (p := bytes _),
    bytes_eq_some, require_bind, (repeatN_exact readCapsule_exact _).bind, pure_eq_some, true_and,
    writeRootPublication]
  constructor
  · rintro ⟨_, _, rfl, _, _, rfl, _, _, rfl, _, _, rfl, size, _, ⟨hsize, rfl⟩, hcount, _, _,
      ⟨hlen, -⟩, rfl, heq, rfl⟩
    cases heq
    rw [hlen, leBytes_two_leNat hsize]
    exact ⟨hcount, by simp⟩
  · rintro ⟨hcount, rfl⟩
    have hread : leNat (leBytes 2 capsules.length) = capsules.length :=
      leNat_leBytes_two (by omega)
    exact ⟨root, _, by simp only [List.append_assoc], authorization, _, rfl, chunks, _, rfl, periods, _,
      rfl, leBytes 2 capsules.length, _, ⟨length_leBytes .., rfl⟩, by rw [hread]; exact hcount,
      capsules, r, ⟨hread.symm, fun _ _ => trivial⟩, rfl, rfl, rfl⟩

theorem rootPublication_inverse : Inverse serializeRootPublication deserializeRootPublication := by
  intro b p
  rw [deserializeRootPublication, serializeRootPublication, Option.ite_none_left_eq_some,
    Option.ite_none_left_eq_some, withinLimit_eq_some, ← writeRootPublication, Nat.not_lt,
    Bool.not_eq_false, Option.bind_eq_bind, Option.bind_eq_some_iff]
  constructor
  · rintro ⟨hlen, p', hread, h⟩
    split at h
    · next hvalid =>
      cases h
      obtain ⟨-, rfl⟩ := readRootPublication_exact.whole.mp hread
      exact ⟨hvalid, hlen, rfl⟩
    · cases h
  · rintro ⟨hvalid, hlen, rfl⟩
    refine ⟨hlen, p, readRootPublication_exact.whole.mpr ⟨?_, rfl⟩, by rw [if_pos hvalid]; rfl⟩
    simp only [RootPublication.isValid, Bool.and_eq_true, decide_eq_true_eq] at hvalid
    exact ⟨by simpa using hvalid.1.1.2, hvalid.1.2⟩

/-! ### Authorizations, keys and signatures -/

theorem readSignature_exact (pqSize : Nat) :
    Exact (readSignature pqSize) writeSignature (fun s => s.mlDsa.length = pqSize) := by
  rintro b ⟨ed25519, mlDsa⟩ r
  simp only [readSignature, (fixed_exact 64).bind, bind_eq_some (p := bytes _), bytes_eq_some,
    pure_eq_some, true_and, writeSignature]
  constructor
  · rintro ⟨_, _, rfl, _, _, ⟨hlen, rfl⟩, heq, rfl⟩
    cases heq
    exact ⟨hlen, by simp⟩
  · rintro ⟨hlen, rfl⟩
    exact ⟨ed25519, _, by simp, mlDsa, r, ⟨hlen, rfl⟩, rfl, rfl⟩

theorem identityOperationAuthorization_inverse (kind : IdentityOperationKind) :
    Inverse (serializeIdentityOperationAuthorization · kind)
      (deserializeIdentityOperationAuthorization kind) := by
  have hexact : Exact (readIdentityOperationAuthorization kind)
      (fun a => a.accountId.1 ++ le64 a.nonce ++ le64 a.keyEpoch ++ [a.kind.toByte] ++
        a.payloadCommitment.1 ++ a.signature.ed25519.1 ++ a.signature.mlDsa)
      (fun a => a.kind = kind ∧ Hash256.isNull a.accountId = false ∧
        a.signature.mlDsa.length = 2420 ∧ isZero a.payloadCommitment.1 = false ∧
        isZero a.signature.ed25519.1 = false ∧ isZero a.signature.mlDsa = false) := by
    rintro b ⟨account, nonce, epoch, kind', commitment, ⟨ed25519, mlDsa⟩⟩ r
    simp only [readIdentityOperationAuthorization, readAccountId_exact.bind, u64_exact.bind,
      u8_exact.bind, require_bind, (fixed_exact 32).bind, (fixed_exact 64).bind,
      bind_eq_some (p := bytes _), bytes_eq_some, pure_eq_some, true_and, not_or, Bool.not_eq_true]
    constructor
    · rintro ⟨_, _, hnull, rfl, _, _, rfl, _, _, rfl, _, _, rfl, rfl, _, _, rfl, _, _, rfl, _, _,
        ⟨hlen, rfl⟩, hzero, heq, rfl⟩
      cases heq
      exact ⟨⟨rfl, hnull, hlen, hzero⟩, by simp⟩
    · rintro ⟨⟨rfl, hnull, hlen, hzero⟩, rfl⟩
      exact ⟨account, _, hnull, by simp only [List.append_assoc], nonce, _, rfl, epoch, _, rfl,
        kind'.toByte, _, rfl, rfl, commitment, _, rfl, ed25519, _, rfl, mlDsa, r, ⟨hlen, rfl⟩, hzero,
        rfl, rfl⟩
  refine hexact.inverse (fun a hok => ?_) fun a b => ?_
  · simp only [List.length_append, a.accountId.2, length_le64, List.length_singleton,
      a.payloadCommitment.2, a.signature.ed25519.2, hok.2.2.1, IDENTITY_OPERATION_AUTH_SIZE]
  · rw [serializeIdentityOperationAuthorization, Option.ite_none_left_eq_some, Option.some.injEq,
      eq_comm (b := b)]
    simp only [not_or, not_not, Bool.not_eq_true]

def writeIdentityAuthorization (auth : IdentityAuthorization) : Bytes :=
  [1] ++ auth.recoveryRoot.ed25519.1 ++ auth.recoveryRoot.mlDsa ++
    [1] ++ auth.authorizationKey.ed25519.1 ++ auth.authorizationKey.mlDsa

variable {auth : IdentityAuthorization}

theorem IdentityAuthorization.sizes_of_valid (h : auth.valid = true) :
    (auth.recoveryRoot.purpose = .recoveryRoot ∧ auth.recoveryRoot.mlDsa.length = 1952) ∧
      auth.authorizationKey.purpose = .authorization ∧ auth.authorizationKey.mlDsa.length = 1312 := by
  simp only [IdentityAuthorization.valid, Bool.and_eq_true, decide_eq_true_eq] at h
  obtain ⟨⟨⟨⟨⟨⟨⟨⟨hroot, hauth⟩, hrootSize⟩, hauthSize⟩, -⟩, -⟩, -⟩, -⟩, -⟩ := h
  exact ⟨⟨hroot, hrootSize⟩, hauth, hauthSize⟩

theorem readIdentityAuthorization_exact :
    Exact readIdentityAuthorization writeIdentityAuthorization (fun a => a.valid = true) := by
  rintro b ⟨recoveryRoot, authorizationKey⟩ r
  simp only [readIdentityAuthorization, u8_exact.bind, require_bind, (readPublic_exact _ _).bind,
    pure_eq_some, true_and, writeIdentityAuthorization, writePublic]
  constructor
  · rintro ⟨_, _, rfl, rfl, _, _, -, rfl, _, _, rfl, rfl, _, _, -, rfl, hvalid, heq, rfl⟩
    cases heq
    exact ⟨hvalid, by simp⟩
  · rintro ⟨hvalid, rfl⟩
    obtain ⟨hroot, hauth⟩ := IdentityAuthorization.sizes_of_valid hvalid
    exact ⟨1, _, by simp only [List.append_assoc]; rfl, rfl, recoveryRoot, _, hroot, by
      simp only [List.append_assoc], 1, authorizationKey.ed25519.1 ++ (authorizationKey.mlDsa ++ r), rfl,
      rfl, authorizationKey, r, hauth, by simp only [List.append_assoc], hvalid, rfl, rfl⟩

theorem length_writeIdentityAuthorization (h : auth.valid = true) :
    (writeIdentityAuthorization auth).length = IDENTITY_AUTHORIZATION_SIZE := by
  obtain ⟨hroot, hauth⟩ := IdentityAuthorization.sizes_of_valid h
  simp only [writeIdentityAuthorization, List.length_append, List.length_singleton,
    auth.recoveryRoot.ed25519.2, hroot.2, auth.authorizationKey.ed25519.2, hauth.2,
    IDENTITY_AUTHORIZATION_SIZE]

/-! ### `AccountCreate` -/

def writeAccountCreationWork (work : AccountCreationWork) : Bytes :=
  work.networkBinding.1 ++ work.accountId.1 ++ work.authorizationCommitment.1 ++ le64 work.workEpoch ++
    le64 work.nonce

theorem readAccountCreationWork_exact : Exact readAccountCreationWork writeAccountCreationWork
    (fun w => Hash256.isNull w.accountId = false) := by
  rintro b ⟨network, account, commitment, epoch, nonce⟩ r
  simp only [readAccountCreationWork, (fixed_exact 32).bind, readAccountId_exact.bind, u64_exact.bind,
    pure_eq_some, true_and, writeAccountCreationWork]
  constructor
  · rintro ⟨_, _, rfl, _, _, haccount, rfl, _, _, rfl, _, _, rfl, _, _, rfl, heq, rfl⟩
    cases heq
    exact ⟨haccount, by simp⟩
  · rintro ⟨haccount, rfl⟩
    exact ⟨network, _, by simp, account, _, haccount, rfl, commitment, _, rfl, epoch, _, rfl, nonce, r,
      rfl, rfl, rfl⟩

section

variable [Crypto]

def writeAccountCreateOp (op : AccountCreateOp) : Bytes :=
  op.accountId.1 ++ writeIdentityAuthorization op.authorization ++ op.kemPackage.1 ++
    writeAccountCreationWork op.work ++ writeSignature op.recoveryPop ++
    writeSignature op.authorizationPop

def AccountCreateOk (op : AccountCreateOp) : Prop :=
  Hash256.isNull op.accountId = false ∧ op.authorization.valid = true ∧
    decodeIdentityKemPackage op.kemPackage ≠ none ∧ Hash256.isNull op.work.accountId = false ∧
    op.recoveryPop.mlDsa.length = 3309 ∧ op.authorizationPop.mlDsa.length = 2420

theorem readAccountCreateOp_exact :
    Exact readAccountCreateOp writeAccountCreateOp AccountCreateOk := by
  rintro b ⟨account, authorization, package, work, recoveryPop, authorizationPop⟩ r
  simp only [readAccountCreateOp, readAccountId_exact.bind, readIdentityAuthorization_exact.bind,
    (fixed_exact 1218).bind, require_bind, readAccountCreationWork_exact.bind,
    (readSignature_exact _).bind, pure_eq_some, true_and, writeAccountCreateOp, AccountCreateOk]
  constructor
  · rintro ⟨_, _, hnull, rfl, _, _, hvalid, rfl, _, _, rfl, hkem, _, _, hwork, rfl, _, _, hrecovery,
      rfl, _, _, hauth, rfl, heq, rfl⟩
    cases heq
    exact ⟨⟨hnull, hvalid, hkem, hwork, hrecovery, hauth⟩, by simp⟩
  · rintro ⟨⟨hnull, hvalid, hkem, hwork, hrecovery, hauth⟩, rfl⟩
    exact ⟨account, _, hnull, by simp only [List.append_assoc], authorization, _, hvalid, rfl, package,
      _, rfl, hkem, work, _, hwork, rfl, recoveryPop, _, hrecovery, rfl, authorizationPop, r, hauth, rfl,
      rfl, rfl⟩

omit [Crypto] in
theorem length_writeAccountCreationWork (work : AccountCreationWork) :
    (writeAccountCreationWork work).length = ACCOUNT_CREATE_WORK_SIZE := by
  simp only [writeAccountCreationWork, List.length_append, work.networkBinding.2, work.accountId.2,
    work.authorizationCommitment.2, length_le64, ACCOUNT_CREATE_WORK_SIZE]

theorem length_writeAccountCreateOp {op : AccountCreateOp} (hok : AccountCreateOk op) :
    (writeAccountCreateOp op).length = ACCOUNT_CREATE_SIZE := by
  obtain ⟨-, hvalid, -, -, hrecovery, hauth⟩ := hok
  unfold writeAccountCreateOp ACCOUNT_CREATE_SIZE IDENTITY_KEM_PACKAGE_SIZE
  rw [List.length_append, List.length_append, List.length_append, List.length_append,
    List.length_append, length_writeIdentityAuthorization hvalid, length_writeAccountCreationWork,
    length_writeSignature, length_writeSignature, hrecovery, hauth, op.kemPackage.2, op.accountId.2]

variable {b : Bytes}

theorem deserializeAccountCreateOp_eq_some {op : AccountCreateOp} :
    deserializeAccountCreateOp b = some op ↔ AccountCreateOk op ∧ b = writeAccountCreateOp op :=
  readAccountCreateOp_exact.sized fun _ => length_writeAccountCreateOp

theorem serializeAccountCreateOp_eq_some {op : AccountCreateOp} :
    serializeAccountCreateOp op = some b ↔
      AccountCreateOk op ∧ Hash256.isNull op.work.networkBinding = false ∧
        b = writeAccountCreateOp op := by
  simp only [serializeAccountCreateOp, Option.bind_eq_bind, Option.bind_eq_some_iff,
    serializeIdentityAuthorization, serializeAccountCreationWork, Option.ite_none_left_eq_some,
    Option.ite_none_right_eq_some, not_or, Bool.not_eq_true, Option.some.injEq,
    AccountCreateOp.validSignatures, AccountCreateOk, Bool.and_eq_false_iff, decide_eq_false_iff_not,
    not_not, writeAccountCreateOp, writeIdentityAuthorization, writeAccountCreationWork, writeSignature]
  constructor
  · rintro ⟨_, ⟨hvalid, rfl⟩, _, ⟨⟨hnetwork, hwork⟩, rfl⟩, ⟨hnull, hkem, hrecovery, hauth⟩, rfl⟩
    exact ⟨⟨hnull, hvalid, hkem, hwork, hrecovery, hauth⟩, hnetwork, by simp⟩
  · rintro ⟨⟨hnull, hvalid, hkem, hwork, hrecovery, hauth⟩, hnetwork, rfl⟩
    exact ⟨_, ⟨hvalid, rfl⟩, _, ⟨⟨hnetwork, hwork⟩, rfl⟩, ⟨hnull, hkem, hrecovery, hauth⟩, by simp⟩

/-! ### `IdentityRotate` -/

def writeIdentityRotate (op : IdentityRotate) : Bytes :=
  op.accountId.1 ++ writePublic op.newRecoveryKey ++ writePublic op.newAuthorizationKey ++
    op.newKemPackage.1 ++ le64 op.nonce ++ le64 op.keyEpoch ++ writeSignature op.oldRecoverySignature ++
    writeSignature op.newRecoveryPop ++ writeSignature op.newAuthorizationPop

theorem identityRotate_inverse : Inverse serializeIdentityRotate deserializeIdentityRotate := by
  have hfacts : ∀ op : IdentityRotate, serializeIdentityRotate op ≠ none →
      Hash256.isNull op.accountId = false ∧ op.newRecoveryKey.purpose = .recoveryRoot ∧
      op.newAuthorizationKey.purpose = .authorization ∧ op.newRecoveryKey.mlDsa.length = 1952 ∧
      op.newAuthorizationKey.mlDsa.length = 1312 ∧ op.oldRecoverySignature.mlDsa.length = 3309 ∧
      op.newRecoveryPop.mlDsa.length = 3309 ∧ op.newAuthorizationPop.mlDsa.length = 2420 ∧
      decodeIdentityKemPackage op.newKemPackage ≠ none := by
    intro op hop
    rw [serializeIdentityRotate, ne_eq, ite_eq_left_iff, Classical.not_imp] at hop
    have hguard := hop.1
    push Not at hguard
    obtain ⟨hnull, hrecovery, hauth, hr, ha, ho, hp, hq, hkem, -⟩ := hguard
    exact ⟨by simpa using hnull, hrecovery, hauth, hr, ha, ho, hp, hq, hkem⟩
  have hexact : Exact readIdentityRotate writeIdentityRotate
      (fun op => serializeIdentityRotate op ≠ none) := by
    rintro b ⟨account, recoveryKey, authorizationKey, package, nonce, epoch, old, pop, pop'⟩ r
    simp only [readIdentityRotate, readAccountId_exact.bind, (readPublic_exact _ _).bind,
      (fixed_exact 1218).bind, require_bind, u64_exact.bind, (readSignature_exact _).bind,
      pure_eq_some, true_and, writeIdentityRotate]
    constructor
    · rintro ⟨_, _, -, rfl, _, _, -, rfl, _, _, -, rfl, _, _, rfl, -, _, _, rfl, _, _, rfl, _, _, -,
        rfl, _, _, -, rfl, _, _, -, rfl, hser, heq, rfl⟩
      cases heq
      exact ⟨hser, by simp⟩
    · rintro ⟨hser, rfl⟩
      obtain ⟨hnull, hrecovery, hauth, hr, ha, ho, hp, hq, hkem⟩ := hfacts _ hser
      exact ⟨account, _, hnull, by simp only [List.append_assoc], recoveryKey, _, ⟨hrecovery, hr⟩, rfl,
        authorizationKey, _, ⟨hauth, ha⟩, rfl, package, _, rfl, hkem, nonce, _, rfl, epoch, _, rfl, old,
        _, ho, rfl, pop, _, hp, rfl, pop', r, hq, rfl, hser, rfl, rfl⟩
  have hlength : ∀ op, serializeIdentityRotate op ≠ none →
      (writeIdentityRotate op).length = IDENTITY_ROTATE_SIZE := by
    intro op hser
    obtain ⟨-, -, -, hr, ha, ho, hp, hq, -⟩ := hfacts op hser
    unfold writeIdentityRotate writePublic IDENTITY_ROTATE_SIZE IDENTITY_KEM_PACKAGE_SIZE
    simp only [List.length_append, op.newRecoveryKey.ed25519.2, hr, op.newAuthorizationKey.ed25519.2,
      ha, op.newKemPackage.2, length_le64, length_writeSignature, ho, hp, hq]
    rw [op.accountId.2]
  refine hexact.inverse hlength fun op b => ?_
  rw [serializeIdentityRotate, ← writeIdentityRotate]
  split
  · simp
  · simp [eq_comm]

/-! ### Authorized payloads -/

variable {α : Type} {kind : IdentityOperationKind}

variable {auth : IdentityOperationAuthorization}

omit [Crypto] in
theorem authorizedPayload_iff {serialize : α → Option Bytes}
    {deserialize : Bytes → Option α} (h : Inverse serialize deserialize)
    {commitment : α → Option IdentityKeyId} {payload : α} :
    deserializeAuthorizedPayload kind deserialize commitment b = some (auth, payload) ↔
      serializeAuthorizedPayload auth kind (serialize payload) (commitment payload) = some b := by
  simp only [deserializeAuthorizedPayload, serializeAuthorizedPayload, Option.bind_eq_bind,
    Option.bind_eq_some_iff, Option.ite_none_left_eq_some, Option.pure_def, Option.some.injEq,
    Prod.mk.injEq, not_not]
  constructor
  · rintro ⟨auth', hauth, payload', hpayload, hcommitment, rfl, rfl⟩
    exact ⟨_, (h _ _).mp hpayload, hcommitment, _,
      (identityOperationAuthorization_inverse kind _ _).mp hauth, List.take_append_drop _ b⟩
  · rintro ⟨tail, htail, hcommitment, out, hout, rfl⟩
    have hauth := (identityOperationAuthorization_inverse kind _ _).mpr hout
    have hlen := length_of_sized hauth
    refine ⟨auth, ?_, payload, ?_, hcommitment, rfl, rfl⟩
    · rw [List.take_left' hlen]
      exact hauth
    · rw [List.drop_left' hlen]
      exact (h _ _).mpr htail

variable {size : Nat}

omit [Crypto] in
theorem sizedPayload_iff {serialize : α → Option Bytes} {p : Reader α} (h : Inverse serialize (p.sized size))
    {commitment : α → Option IdentityKeyId} {payload : α} :
    deserializeSizedPayload size kind (p.sized size) commitment b = some (auth, payload) ↔
      serializeAuthorizedPayload auth kind (serialize payload) (commitment payload) = some b := by
  rw [deserializeSizedPayload, Option.ite_none_left_eq_some, not_not, authorizedPayload_iff h,
    and_iff_right_iff_imp]
  intro hser
  simp only [serializeAuthorizedPayload, Option.bind_eq_bind, Option.bind_eq_some_iff,
    Option.ite_none_left_eq_some, Option.pure_def, Option.some.injEq] at hser
  obtain ⟨tail, htail, -, out, hout, rfl⟩ := hser
  rw [List.length_append, length_of_sized ((identityOperationAuthorization_inverse kind _ _).mpr hout),
    length_of_sized ((h _ _).mpr htail)]

variable {β : Type}

omit [Crypto] in
theorem sizedOperation_iff {serialize : α → Option Bytes} {p : Reader α} (h : Inverse serialize (p.sized size))
    {commitment : α → Option IdentityKeyId} {f : IdentityOperationAuthorization → α → β} {op : β} :
    ((deserializeSizedPayload size kind (p.sized size) commitment b).bind
        fun x => some (f x.1 x.2)) = some op ↔
      ∃ auth payload, f auth payload = op ∧
        serializeAuthorizedPayload auth kind (serialize payload) (commitment payload) = some b := by
  simp only [Option.bind_eq_some_iff, Prod.exists, Option.some.injEq, sizedPayload_iff h]
  constructor
  · rintro ⟨auth, payload, hser, hop⟩
    exact ⟨auth, payload, hop, hser⟩
  · rintro ⟨auth, payload, hop, hser⟩
    exact ⟨auth, payload, hser, hop⟩

theorem deserializePayment_eq_some {op : AuthorizedPayment} :
    deserializePayment b = some op ↔ serializeOperationBody (.payment op) = some b := by
  refine (sizedOperation_iff paymentPayload_inverse).trans ?_
  obtain ⟨authorization, payment⟩ := op
  simp [serializeOperationBody]

theorem deserializeSystemLock_eq_some {op : AuthorizedSystemLock} :
    deserializeSystemLock b = some op ↔ serializeOperationBody (.systemLock op) = some b := by
  refine (sizedOperation_iff systemLockPayload_inverse).trans ?_
  obtain ⟨authorization, lock⟩ := op
  simp [serializeOperationBody]

theorem deserializeNameCommit_eq_some {op : AuthorizedNameCommit} :
    deserializeNameCommit b = some op ↔ serializeOperationBody (.nameCommit op) = some b := by
  refine (sizedOperation_iff nameCommitPayload_inverse).trans ?_
  obtain ⟨authorization, commit⟩ := op
  simp [serializeOperationBody]

theorem deserializeNameReveal_eq_some {op : AuthorizedNameReveal} :
    deserializeNameReveal b = some op ↔ serializeOperationBody (.nameReveal op) = some b := by
  refine (sizedOperation_iff nameRevealPayload_inverse).trans ?_
  obtain ⟨authorization, reveal⟩ := op
  simp [serializeOperationBody]

theorem deserializeRevokePublicationOperation_eq_some {op : AuthorizedRevokePublication} :
    deserializeRevokePublicationOperation b = some op ↔
      serializeOperationBody (.revokePublication op) = some b := by
  refine (sizedOperation_iff revokePublicationPayload_inverse).trans ?_
  obtain ⟨authorization, revoke⟩ := op
  simp [serializeOperationBody]

theorem deserializeStorageLeaseOperation_eq_some {op : AuthorizedStorageLease} :
    deserializeStorageLeaseOperation b = some op ↔
      serializeOperationBody (.storageLease op) = some b := by
  refine (sizedOperation_iff storageLeasePayload_inverse).trans ?_
  obtain ⟨authorization, lease⟩ := op
  simp [serializeOperationBody]

theorem deserializeRootPublicationOperation_eq_some {op : AuthorizedRootPublication}
    (hsize : b.length + 1 ≤ ROOT_PUBLICATION_MAX_OPERATION_BYTES) :
    deserializeRootPublicationOperation b = some op ↔
      serializeAuthorizedPayload op.authorization .rootPublication
        (serializeRootPublication op.publication)
        (computeRootPublicationPayloadCommitment op.publication) = some b := by
  obtain ⟨authorization, publication⟩ := op
  rw [deserializeRootPublicationOperation, ← authorizedPayload_iff rootPublication_inverse]
  constructor
  · intro h
    rw [Option.ite_none_left_eq_some] at h
    obtain ⟨⟨auth', publication'⟩, hpair, heq⟩ := Option.bind_eq_some_iff.mp h.2
    cases heq
    exact hpair
  · intro h
    have hmin : ¬(b.length < IDENTITY_OPERATION_AUTH_SIZE) := by
      obtain ⟨auth', hauth, -⟩ := Option.bind_eq_some_iff.mp h
      have hlen := length_of_sized hauth
      rw [List.length_take] at hlen
      omega
    rw [if_neg (by omega), h]
    rfl

/-! ### The tagged union -/

/-- What the parser of the payload demands of the bytes of `op`. -/
def BodyDecodes (body : Bytes) : ProtocolOperation → Prop
  | .accountCreate op => AccountCreateOk op ∧ body = writeAccountCreateOp op
  | .storageSettlement settlement =>
    serializeStorageSettlement settlement = some body ∧ BindingsCanonical settlement
  | op => serializeOperationBody op = some body

variable {s : StorageSettlement}

omit [Crypto] in
theorem length_of_deserializeStorageSettlement
    (h : deserializeStorageSettlement b = some s) : b.length ≤ MAX_OPERATION_PAYLOAD_BYTES - 1 := by
  have hok : parseStorageSettlement b = .ok s := by
    rw [parseStorageSettlement_ok, ← deserializeStorageSettlement_eq_some]
    exact h
  unfold parseStorageSettlement at hok
  obtain ⟨hguard, -⟩ := Checked.ite_refuse_ok.mp hok
  push Not at hguard
  exact hguard.2

variable {op : ProtocolOperation}

variable {body : Bytes}

theorem deserializeProtocolOperation_cons {kind : UInt8} :
    deserializeProtocolOperation (kind :: body) = some op ↔ kind = op.kind ∧ BodyDecodes body op := by
  constructor
  · intro h
    rw [deserializeProtocolOperation] at h
    by_cases h₁ : kind = 1
    · rw [if_pos h₁] at h
      obtain ⟨x, hx, rfl⟩ := Option.map_eq_some_iff.mp h
      exact ⟨h₁, deserializeAccountCreateOp_eq_some.mp hx⟩
    rw [if_neg h₁] at h
    by_cases h₂ : kind = 2
    · rw [if_pos h₂] at h
      obtain ⟨x, hx, rfl⟩ := Option.map_eq_some_iff.mp h
      exact ⟨h₂, deserializePayment_eq_some.mp hx⟩
    rw [if_neg h₂] at h
    by_cases h₃ : kind = 3
    · rw [if_pos h₃] at h
      obtain ⟨x, hx, rfl⟩ := Option.map_eq_some_iff.mp h
      exact ⟨h₃, (identityRotate_inverse _ _).mp hx⟩
    rw [if_neg h₃] at h
    by_cases h₄ : kind = 4
    · rw [if_pos h₄] at h
      obtain ⟨x, hx, rfl⟩ := Option.map_eq_some_iff.mp h
      exact ⟨h₄, deserializeSystemLock_eq_some.mp hx⟩
    rw [if_neg h₄] at h
    by_cases h₅ : kind = 5
    · rw [if_pos h₅] at h
      obtain ⟨x, hx, rfl⟩ := Option.map_eq_some_iff.mp h
      exact ⟨h₅, deserializeNameCommit_eq_some.mp hx⟩
    rw [if_neg h₅] at h
    by_cases h₆ : kind = 6
    · rw [if_pos h₆] at h
      obtain ⟨x, hx, rfl⟩ := Option.map_eq_some_iff.mp h
      exact ⟨h₆, deserializeNameReveal_eq_some.mp hx⟩
    rw [if_neg h₆] at h
    by_cases h₇ : kind = 7
    · rw [if_pos h₇, Option.ite_none_left_eq_some] at h
      obtain ⟨hsize, h⟩ := h
      obtain ⟨x, hx, rfl⟩ := Option.map_eq_some_iff.mp h
      refine ⟨h₇, ?_⟩
      rw [deserializeRootPublicationOperation_eq_some (by omega)] at hx
      simp only [BodyDecodes, serializeOperationBody, hx, Option.bind_eq_bind, Option.bind_some,
        if_neg hsize, Option.pure_def]
    rw [if_neg h₇] at h
    by_cases h₈ : kind = 8
    · rw [if_pos h₈] at h
      obtain ⟨x, hx, rfl⟩ := Option.map_eq_some_iff.mp h
      exact ⟨h₈, deserializeRevokePublicationOperation_eq_some.mp hx⟩
    rw [if_neg h₈] at h
    by_cases h₉ : kind = 9
    · rw [if_pos h₉] at h
      obtain ⟨x, hx, rfl⟩ := Option.map_eq_some_iff.mp h
      exact ⟨h₉, deserializeStorageLeaseOperation_eq_some.mp hx⟩
    rw [if_neg h₉] at h
    by_cases h₁₀ : kind = 10
    · rw [if_pos h₁₀, Option.ite_none_left_eq_some] at h
      obtain ⟨x, hx, rfl⟩ := Option.map_eq_some_iff.mp h.2
      exact ⟨h₁₀, deserializeStorageSettlement_eq_some.mp hx⟩
    rw [if_neg h₁₀] at h
    cases h
  · rintro ⟨rfl, h⟩
    cases op with
    | accountCreate op =>
      have hx := deserializeAccountCreateOp_eq_some.mpr h
      simp [deserializeProtocolOperation, ProtocolOperation.kind, hx]
    | payment op =>
      have hx := deserializePayment_eq_some.mpr h
      simp [deserializeProtocolOperation, ProtocolOperation.kind, hx]
    | identityRotate op =>
      have hx := (identityRotate_inverse _ _).mpr h
      simp [deserializeProtocolOperation, ProtocolOperation.kind, hx]
    | systemLock op =>
      have hx := deserializeSystemLock_eq_some.mpr h
      simp [deserializeProtocolOperation, ProtocolOperation.kind, hx]
    | nameCommit op =>
      have hx := deserializeNameCommit_eq_some.mpr h
      simp [deserializeProtocolOperation, ProtocolOperation.kind, hx]
    | nameReveal op =>
      have hx := deserializeNameReveal_eq_some.mpr h
      simp [deserializeProtocolOperation, ProtocolOperation.kind, hx]
    | rootPublication op =>
      obtain ⟨b, hb, hb'⟩ := Option.bind_eq_some_iff.mp h
      rw [Option.ite_none_left_eq_some] at hb'
      obtain ⟨hsize, heq⟩ := hb'
      cases heq
      have hx := (deserializeRootPublicationOperation_eq_some (by omega)).mpr hb
      simp only [deserializeProtocolOperation, ProtocolOperation.kind, hx, if_neg hsize]
      rfl
    | revokePublication op =>
      have hx := deserializeRevokePublicationOperation_eq_some.mpr h
      simp [deserializeProtocolOperation, ProtocolOperation.kind, hx]
    | storageLease op =>
      have hx := deserializeStorageLeaseOperation_eq_some.mpr h
      simp [deserializeProtocolOperation, ProtocolOperation.kind, hx]
    | storageSettlement op =>
      have hx := deserializeStorageSettlement_eq_some.mpr h
      have hsize := length_of_deserializeStorageSettlement hx
      have hmax : MAX_OPERATION_PAYLOAD_BYTES = 131072 := rfl
      simp only [deserializeProtocolOperation, ProtocolOperation.kind, hx,
        if_neg (show ¬(body.length + 1 > MAX_OPERATION_PAYLOAD_BYTES) by omega)]
      rfl

theorem serializeProtocolOperation_cons {kind : UInt8} :
    serializeProtocolOperation op = some (kind :: body) ↔
      kind = op.kind ∧ serializeOperationBody op = some body := by
  simp only [serializeProtocolOperation, Option.bind_eq_bind, Option.bind_eq_some_iff, Option.pure_def,
    Option.some.injEq, List.singleton_append, List.cons.injEq]
  constructor
  · rintro ⟨_, hbody, rfl, rfl⟩
    exact ⟨rfl, hbody⟩
  · rintro ⟨rfl, hbody⟩
    exact ⟨body, hbody, rfl, rfl⟩

/-- The encoding of an `AccountCreate` whose proof of work names no network: after
    the tag, the account, the authorization and the KEM package come 32 zeros. -/
def NullWorkBinding (b : Bytes) : Prop :=
  b.head? = some 1 ∧ isZero ((b.drop 4581).take 32) = true

theorem nullWorkBinding_accountCreate {op : AccountCreateOp} (hok : AccountCreateOk op) :
    NullWorkBinding (1 :: writeAccountCreateOp op) ↔ Hash256.isNull op.work.networkBinding = true := by
  have hprefix : (op.accountId.1 ++ writeIdentityAuthorization op.authorization ++
      op.kemPackage.1).length = 4580 := by
    rw [List.length_append, List.length_append, length_writeIdentityAuthorization hok.2.1,
      op.kemPackage.2, op.accountId.2]
    rfl
  have hbinding : ((1 :: writeAccountCreateOp op).drop 4581).take 32 = op.work.networkBinding.1 := by
    rw [List.drop_succ_cons, writeAccountCreateOp, List.append_assoc _ (writeAccountCreationWork _),
      List.append_assoc, List.drop_left' hprefix, writeAccountCreationWork]
    simp only [List.append_assoc]
    exact List.take_left' op.work.networkBinding.2
  rw [NullWorkBinding, hbinding, Hash256.isNull]
  simp

/-- The payout bindings of a settlement hold signatures of the size the binding codec
    reads. -/
def BindingsSized : ProtocolOperation → Prop
  | .storageSettlement s => ∀ e ∈ s.eligible, e.binding.authorization.mlDsa.length = 2420
  | _ => True

omit [Crypto] in
theorem bindingsCanonical_iff (h : serializeStorageSettlement s = some b) :
    BindingsCanonical s ↔ ∀ e ∈ s.eligible, e.binding.authorization.mlDsa.length = 2420 := by
  obtain ⟨out, hout⟩ := Option.ne_none_iff_exists'.mp (serializeStorageSettlement_eq_some.mp h).1
  have hshape := (serializeSettlementBody_eq_some hout).2.2
  have hdecode : ∀ e ∈ s.eligible,
      decodeStoragePayoutBinding (encodeStoragePayoutBinding e.binding) ≠ none := by
    intro e he
    unfold SettlementShape at hshape
    cases haction : s.action with
    | prepare =>
      rw [haction] at hshape
      exact (hshape.2.2.2.2.2.2.2.2 e he).2
    | activate =>
      rw [haction] at hshape
      rw [hshape.2.2.2.2.2.2.1] at he
      cases he
    | pay =>
      rw [haction] at hshape
      rw [hshape.2.2.2.1] at he
      cases he
  exact forall₂_congr fun e he => decode_encodeStoragePayoutBinding (hdecode e he)

theorem deserialize_serializeProtocolOperation (h : serializeProtocolOperation op = some b) :
    deserializeProtocolOperation b = some op ↔ BindingsSized op := by
  cases b with
  | nil => simp [serializeProtocolOperation, Option.bind_eq_some_iff] at h
  | cons kind body =>
    obtain ⟨rfl, hbody⟩ := serializeProtocolOperation_cons.mp h
    rw [deserializeProtocolOperation_cons, and_iff_right rfl]
    cases op with
    | accountCreate op =>
      obtain ⟨hok, -, hwrite⟩ := serializeAccountCreateOp_eq_some.mp hbody
      exact iff_of_true ⟨hok, hwrite⟩ trivial
    | storageSettlement s =>
      rw [BodyDecodes, BindingsSized, ← bindingsCanonical_iff hbody]
      exact and_iff_right hbody
    | _ => exact iff_of_true hbody trivial

theorem serialize_deserializeProtocolOperation (h : deserializeProtocolOperation b = some op) :
    serializeProtocolOperation op = some b ↔ ¬NullWorkBinding b := by
  cases b with
  | nil => cases h
  | cons kind body =>
    obtain ⟨rfl, hbody⟩ := deserializeProtocolOperation_cons.mp h
    rw [serializeProtocolOperation_cons, and_iff_right rfl]
    cases op with
    | accountCreate op =>
      obtain ⟨hok, rfl⟩ := hbody
      rw [ProtocolOperation.kind, nullWorkBinding_accountCreate hok, serializeOperationBody,
        serializeAccountCreateOp_eq_some, Bool.not_eq_true, and_iff_right hok, and_iff_left rfl]
    | storageSettlement s =>
      refine iff_of_true hbody.1 ?_
      rintro ⟨hkind, -⟩
      cases hkind
    | _ =>
      refine iff_of_true hbody ?_
      rintro ⟨hkind, -⟩
      cases hkind

/-- **The operation codec.**  What is written is read back exactly when the payout
    bindings in it have signatures of the right size, and what is read is written
    back exactly when it is not an `AccountCreate` whose work names no network. -/
theorem protocolOperation_codec :
    (∀ op b, serializeProtocolOperation op = some b →
      (deserializeProtocolOperation b = some op ↔ BindingsSized op)) ∧
    (∀ b op, deserializeProtocolOperation b = some op →
      (serializeProtocolOperation op = some b ↔ ¬NullWorkBinding b)) :=
  ⟨fun _ _ h => deserialize_serializeProtocolOperation h,
    fun _ _ h => serialize_deserializeProtocolOperation h⟩

/-! ### The bytes of an operation -/

/-- The encoding of `op`, whether or not the serializer agrees to write it. -/
def operationBytes : ProtocolOperation → Bytes
  | .accountCreate op => 1 :: writeAccountCreateOp op
  | op => (serializeProtocolOperation op).getD []

def OperationOk (op : ProtocolOperation) : Prop :=
  deserializeProtocolOperation (operationBytes op) = some op

theorem eq_operationBytes_of_serialize
    (h : serializeProtocolOperation op = some b) : b = operationBytes op := by
  cases op with
  | accountCreate op =>
    obtain ⟨body, hbody, heq⟩ := Option.bind_eq_some_iff.mp h
    cases heq
    rw [(serializeAccountCreateOp_eq_some.mp hbody).2.2]
    rfl
  | _ => simp only [operationBytes, h, Option.getD_some]

theorem deserializeProtocolOperation_eq_some :
    deserializeProtocolOperation b = some op ↔ OperationOk op ∧ b = operationBytes op := by
  suffices hbytes : deserializeProtocolOperation b = some op → b = operationBytes op by
    constructor
    · intro h
      refine ⟨?_, hbytes h⟩
      rw [OperationOk, ← hbytes h]
      exact h
    · rintro ⟨hok, rfl⟩
      exact hok
  intro h
  cases b with
  | nil => cases h
  | cons kind body =>
    obtain ⟨rfl, hbody⟩ := deserializeProtocolOperation_cons.mp h
    cases op with
    | accountCreate op =>
      obtain ⟨-, rfl⟩ := hbody
      rfl
    | storageSettlement s =>
      exact eq_operationBytes_of_serialize (serializeProtocolOperation_cons.mpr ⟨rfl, hbody.1⟩)
    | _ => exact eq_operationBytes_of_serialize (serializeProtocolOperation_cons.mpr ⟨rfl, hbody⟩)

omit [Crypto] in
theorem length_of_sizedOperation {deserialize : Bytes → Option α} {commitment : α → Option IdentityKeyId}
    {f : IdentityOperationAuthorization × α → Option β} {op : β}
    (h : (deserializeSizedPayload size kind deserialize commitment b).bind f = some op) :
    b.length = IDENTITY_OPERATION_AUTH_SIZE + size := by
  obtain ⟨x, hx, -⟩ := Option.bind_eq_some_iff.mp h
  rw [deserializeSizedPayload, Option.ite_none_left_eq_some, not_not] at hx
  exact hx.1

theorem length_of_deserializeProtocolOperation
    (h : deserializeProtocolOperation b = some op) : b.length ≤ ROOT_PUBLICATION_MAX_OPERATION_BYTES := by
  cases b with
  | nil => cases h
  | cons kind body =>
    obtain ⟨-, hbody⟩ := deserializeProtocolOperation_cons.mp h
    rw [List.length_cons]
    cases op with
    | accountCreate op =>
      obtain ⟨hok, rfl⟩ := hbody
      rw [length_writeAccountCreateOp hok]
      decide
    | payment op =>
      rw [length_of_sizedOperation (deserializePayment_eq_some.mpr hbody)]
      decide
    | identityRotate op =>
      rw [length_of_sized ((identityRotate_inverse _ _).mpr hbody)]
      decide
    | systemLock op =>
      rw [length_of_sizedOperation (deserializeSystemLock_eq_some.mpr hbody)]
      decide
    | nameCommit op =>
      rw [length_of_sizedOperation (deserializeNameCommit_eq_some.mpr hbody)]
      decide
    | nameReveal op =>
      rw [length_of_sizedOperation (deserializeNameReveal_eq_some.mpr hbody)]
      decide
    | rootPublication op =>
      obtain ⟨b, hb, hb'⟩ := Option.bind_eq_some_iff.mp hbody
      rw [Option.ite_none_left_eq_some] at hb'
      obtain ⟨hsize, heq⟩ := hb'
      cases heq
      omega
    | revokePublication op =>
      rw [length_of_sizedOperation (deserializeRevokePublicationOperation_eq_some.mpr hbody)]
      decide
    | storageLease op =>
      rw [length_of_sizedOperation (deserializeStorageLeaseOperation_eq_some.mpr hbody)]
      decide
    | storageSettlement s =>
      have hsize := length_of_deserializeStorageSettlement (deserializeStorageSettlement_eq_some.mpr hbody)
      have hmax : MAX_OPERATION_PAYLOAD_BYTES = 131072 := rfl
      have hroot : ROOT_PUBLICATION_MAX_OPERATION_BYTES = 147456 := rfl
      omega

end

section

attribute [local instance] Crypto.sample

def sampleAccountCreate (networkBinding : Hash256) : AccountCreateOp :=
  { accountId := FixedBytes.leading 31 1
    authorization :=
      { recoveryRoot :=
          { purpose := .recoveryRoot, ed25519 := FixedBytes.leading 31 2
            mlDsa := List.replicate 1952 1 }
        authorizationKey :=
          { purpose := .authorization, ed25519 := FixedBytes.leading 31 3
            mlDsa := List.replicate 1312 1 } }
    kemPackage := ⟨0x7a :: 0x64 :: List.replicate 1216 1, by
      rw [List.length_cons, List.length_cons, List.length_replicate]⟩
    work := { networkBinding, accountId := FixedBytes.leading 31 1
              authorizationCommitment := FixedBytes.leading 31 4, workEpoch := 0, nonce := 0 }
    recoveryPop := { ed25519 := FixedBytes.leading 63 1, mlDsa := List.replicate 3309 1 }
    authorizationPop := { ed25519 := FixedBytes.leading 63 1, mlDsa := List.replicate 2420 1 } }

theorem isZero_replicate_one (n : Nat) : isZero (List.replicate (n + 1) 1) = false := by
  simp [isZero, List.replicate_succ]

theorem accountCreateOk_sample (networkBinding : Hash256) :
    AccountCreateOk (sampleAccountCreate networkBinding) := by
  have hid : Hash256.isNull (FixedBytes.leading 31 1) = false := by decide
  refine ⟨hid, ?_, ?_, hid, List.length_replicate, List.length_replicate⟩
  · have hrecovery : (List.replicate 1952 (1 : UInt8)).length = 1952 := List.length_replicate
    have hauth : (List.replicate 1312 (1 : UInt8)).length = 1312 := List.length_replicate
    have hed : isZero (FixedBytes.leading 31 2).1 = false ∧ isZero (FixedBytes.leading 31 3).1 = false ∧
        FixedBytes.leading 31 2 ≠ FixedBytes.leading 31 3 := by decide
    rw [IdentityAuthorization.valid, sampleAccountCreate]
    simp only [hrecovery, hauth, isZero_replicate_one 1951, isZero_replicate_one 1311, hed.1, hed.2.1,
      ne_eq, hed.2.2, not_false_eq_true, decide_true, Bool.not_false, Bool.and_true]
  · have htake : (List.replicate 1216 (1 : UInt8)).take 1184 = List.replicate 1184 1 := by
      rw [List.take_replicate]
      rfl
    have hdrop : (List.replicate 1216 (1 : UInt8)).drop 1184 = List.replicate 32 1 := by
      rw [List.drop_replicate]
    have hkey (pq classical : Bytes) : Crypto.xwingKeyAccepted pq classical = true := rfl
    rw [decodeIdentityKemPackage, sampleAccountCreate]
    simp only [hkey, List.take_succ_cons, List.take_zero, List.drop_succ_cons, List.drop_zero, htake, hdrop,
      isZero_replicate_one 1183, isZero_replicate_one 31, ne_eq, not_true_eq_false, if_false,
      Bool.false_eq_true, or_self, if_true, reduceCtorEq, not_false_eq_true]

theorem operationOk_sample (networkBinding : Hash256) :
    OperationOk (.accountCreate (sampleAccountCreate networkBinding)) :=
  deserializeProtocolOperation_cons.mpr ⟨rfl, accountCreateOk_sample networkBinding, rfl⟩

theorem serialize_sampleAccountCreate {networkBinding : Hash256} :
    serializeProtocolOperation (.accountCreate (sampleAccountCreate networkBinding)) =
        some (operationBytes (.accountCreate (sampleAccountCreate networkBinding))) ↔
      Hash256.isNull networkBinding = false := by
  rw [operationBytes, serializeProtocolOperation_cons, ProtocolOperation.kind, and_iff_right rfl,
    serializeOperationBody, serializeAccountCreateOp_eq_some,
    and_iff_right (accountCreateOk_sample networkBinding), and_iff_left rfl, sampleAccountCreate]

/-- The parser accepts the operation, and the serializer refuses it. -/
theorem accountCreate_without_network :
    ∃ b, deserializeProtocolOperation b =
        some (.accountCreate (sampleAccountCreate Hash256.ZERO)) ∧
      serializeProtocolOperation (.accountCreate (sampleAccountCreate Hash256.ZERO)) ≠ some b := by
  refine ⟨_, operationOk_sample Hash256.ZERO, fun h => ?_⟩
  have hnetwork := serialize_sampleAccountCreate.mp h
  have hnull : Hash256.isNull Hash256.ZERO = true := by decide
  rw [hnull] at hnetwork
  cases hnetwork

/-- With a network, both agree. -/
theorem accountCreate_with_network :
    ∃ b, serializeProtocolOperation (.accountCreate (sampleAccountCreate (FixedBytes.leading 31 9))) =
        some b ∧
      deserializeProtocolOperation b =
        some (.accountCreate (sampleAccountCreate (FixedBytes.leading 31 9))) ∧ ¬NullWorkBinding b := by
  have hser := serialize_sampleAccountCreate.mpr (by decide : Hash256.isNull (FixedBytes.leading 31 9) = false)
  have hdes := (protocolOperation_codec.1 _ _ hser).mpr trivial
  exact ⟨_, hser, hdes, (protocolOperation_codec.2 _ _ hdes).mp hser⟩

end

end Cybou
