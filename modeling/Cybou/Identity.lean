import Cybou.Library.Codec

/-! # Identifiers, protocol parameters and hybrid identity keys

`hash256.h`, `account_id.h`, `protocol_params.h`, `identity_crypto.cpp`, `identity_kem.cpp`,
`identity_authorization.cpp`.

Hashing, signature checks and KEM key import are OpenSSL calls.  They enter
the model as the fields of the class `Crypto`; everything the node itself
computes around them (domain strings, field order, size checks) is written
out.  The only law assumed of them is that a digest is never the all-zero
string, the value the protocol reserves for "no identifier".
-/

namespace Cybou

open Library

/-! ### Identifiers -/

/-- `Hash256`: 32 raw bytes, ordered lexicographically. -/
abbrev Hash256 := FixedBytes 32

/-- `AccountId`: a hash, the null one being reserved. -/
abbrev AccountId := Hash256

abbrev IdentityKeyId := Hash256

abbrev ChunkId := Hash256

/-- `IsZero` / `!HasNonzero` of a byte string. -/
def isZero (b : Bytes) : Bool := b.all (· == 0)

def Hash256.isNull (h : Hash256) : Bool := isZero h.1

def Hash256.ZERO : Hash256 := FixedBytes.zero 32

theorem isZero_iff {b : Bytes} : isZero b = true ↔ b = List.replicate b.length 0 := by
  simp [isZero, List.eq_replicate_iff]

theorem Hash256.isNull_iff {h : Hash256} : h.isNull = true ↔ h = Hash256.ZERO := by
  obtain ⟨b, hb⟩ := h
  simp only [isNull, isZero_iff, hb]
  exact ⟨fun h => Subtype.ext h, fun h => congrArg Subtype.val h⟩

def ascii (s : String) : Bytes := s.toList.map fun c => UInt8.ofNat c.toNat

/-- `std::numeric_limits<uint64_t>::max()`. -/
def UINT64_MAX : UInt64 := 0xffffffffffffffff

theorem lt_add_one_of_ne_max {a : UInt64} (h : a ≠ UINT64_MAX) : a < a + 1 := by
  have hne : a.toNat ≠ 2 ^ 64 - 1 := fun heq => h (UInt64.toNat_inj.mp heq)
  have hlt := a.toNat_lt
  rw [UInt64.lt_iff_toNat_lt, UInt64.toNat_add, Nat.mod_eq_of_lt]
  · exact Nat.lt_succ_self a.toNat
  · rw [UInt64.toNat_one]
    omega

/-- `AccountId::FromBytes` behind a 32-byte read. -/
def readAccountId : Reader AccountId := do
  let id ← Reader.fixed 32
  Reader.require (Hash256.isNull id = false)
  return id

theorem readAccountId_exact :
    Reader.Exact readAccountId (fun id => id.1) (fun id => Hash256.isNull id = false) := by
  intro b a r
  simp only [readAccountId, (Reader.fixed_exact 32).bind, Reader.require_bind, Reader.pure_eq_some,
    true_and]
  constructor
  · rintro ⟨_, _, rfl, h, rfl, rfl⟩
    exact ⟨h, rfl⟩
  · rintro ⟨h, rfl⟩
    exact ⟨a, r, rfl, h, rfl, rfl⟩

/-! ### Protocol parameters -/

structure CybouProtocolParameters where
  accountCreationWorkBits : UInt32 := 25
  accountCreationEpochLag : UInt64 := 1
  maxAccountCreatesPerBlock : UInt32 := 100
  onboardingBonus : UInt64 := 20000
  epochBlocks : UInt64 := 1024
  paymentFee : UInt64 := 1
  rootPublicationFeePerStartedKib : UInt64 := 4
  rootPublicationFeePerChunk : UInt64 := 4
  nameClaimWorkBits : UInt32 := 16
  nameCommitMinDepth : UInt64 := 1
  nameCommitMaxLifetime : UInt64 := 1000
  maxPendingNameCommits : UInt32 := 10000
  identityKemXwingEnabled : Bool := false
  storageRatePerGibDayReplica : UInt64 := 5
  storageReplicaTarget : UInt8 := 2
  storageSettlementPeriodSeconds : UInt64 := 86400
  maxStorageLeasePeriods : UInt32 := 3650
deriving DecidableEq, Repr

def devProtocolParameters : CybouProtocolParameters := { identityKemXwingEnabled := true }

def epochForHeight (blockHeight : UInt64) (params : CybouProtocolParameters) : UInt64 :=
  if params.epochBlocks = 0 then 0 else blockHeight / params.epochBlocks

def MAX_PUBLICATION_CHUNKS : UInt32 := 1048576

def ROOT_PUBLICATION_MAX_OPERATION_BYTES : Nat := 147456

def DEFAULT_MAX_PENDING_NAME_COMMITS : UInt32 := 10000

/-- `ValidateProtocolParameters`.  The product bounding the storage rate is the
    unchecked 64-bit product of the source. -/
def validateProtocolParameters (params : CybouProtocolParameters) : Bool :=
  let maxFeeKib : UInt64 := UInt64.ofNat ((ROOT_PUBLICATION_MAX_OPERATION_BYTES + 1023) / 1024)
  let perKib := params.rootPublicationFeePerStartedKib
  let perChunk := params.rootPublicationFeePerChunk
  let maxByteFee := maxFeeKib * perKib
  let maxChunkFee := MAX_PUBLICATION_CHUNKS.toUInt64 * perChunk
  !(decide (params.accountCreationWorkBits > 256)) &&
  !(decide (params.maxAccountCreatesPerBlock = 0)) &&
  !(decide (params.epochBlocks = 0)) &&
  !(decide (params.storageRatePerGibDayReplica = 0) || decide (params.storageReplicaTarget = 0) ||
    decide (params.storageReplicaTarget > 16) ||
    decide (params.storageSettlementPeriodSeconds = 0) ||
    decide (params.storageSettlementPeriodSeconds > 366 * 86400) ||
    decide (params.maxStorageLeasePeriods = 0) ||
    decide (params.storageRatePerGibDayReplica > UINT64_MAX /
      (MAX_PUBLICATION_CHUNKS.toUInt64 * params.storageReplicaTarget.toUInt64 *
        params.storageSettlementPeriodSeconds * params.maxStorageLeasePeriods.toUInt64))) &&
  !(decide (perKib ≠ 0 ∧ maxFeeKib > UINT64_MAX / perKib) ||
    decide (perChunk ≠ 0 ∧ MAX_PUBLICATION_CHUNKS.toUInt64 > UINT64_MAX / perChunk)) &&
  !(decide (maxChunkFee > UINT64_MAX - maxByteFee)) &&
  !(decide (params.nameClaimWorkBits > 256) || decide (params.nameCommitMinDepth = 0) ||
    decide (params.nameCommitMaxLifetime < params.nameCommitMinDepth) ||
    decide (params.maxPendingNameCommits = 0) ||
    decide (params.maxPendingNameCommits > DEFAULT_MAX_PENDING_NAME_COMMITS))

/-! ### Keys, signatures and the primitives behind them -/

inductive IdentityKeyPurpose where
  | recoveryRoot
  | authorization
  | poaFinalizer
  | storage
  | networkRoot
deriving DecidableEq, Repr

inductive SignatureAlgorithm where
  | ed25519
  | mlDsa44
  | mlDsa65
deriving DecidableEq, Repr

def IdentityKeyPurpose.algorithm : IdentityKeyPurpose → SignatureAlgorithm
  | .recoveryRoot | .poaFinalizer | .networkRoot => .mlDsa65
  | .authorization | .storage => .mlDsa44

def IdentityKeyPurpose.publicSize : IdentityKeyPurpose → Nat
  | .authorization | .storage => 1312
  | _ => 1952

def IdentityKeyPurpose.signatureSize : IdentityKeyPurpose → Nat
  | .authorization | .storage => 2420
  | _ => 3309

structure IdentityHybridPublicKey where
  purpose : IdentityKeyPurpose
  ed25519 : FixedBytes 32
  mlDsa : Bytes
deriving DecidableEq, Repr

structure IdentityHybridSignature where
  ed25519 : FixedBytes 64
  mlDsa : Bytes
deriving DecidableEq, Repr

/-- What the node asks of OpenSSL and of the BLAKE3 library. -/
class Crypto where
  /-- SHA-256 of the concatenated parts. -/
  sha256 : Bytes → Hash256
  /-- No preimage of the reserved all-zero digest is known or used. -/
  sha256_ne_null : ∀ b, (sha256 b).isNull = false
  /-- `Verify`: key import and `EVP_DigestVerify`, on key, signature, message. -/
  verify : SignatureAlgorithm → Bytes → Bytes → Bytes → Bool
  /-- Import of an ML-KEM-768 and an X25519 public key and the X25519 probe. -/
  xwingKeyAccepted : Bytes → Bytes → Bool
  /-- BLAKE3 of the concatenated parts. -/
  blake3 : Bytes → Hash256

/-- A stand-in for OpenSSL on which the model can be evaluated: the digest keeps
    the last 31 bytes, every signature verifies, every KEM key is imported. -/
@[reducible] def Crypto.sample : Crypto where
  sha256 b := ⟨1 :: (b.reverse ++ List.replicate 31 0).take 31, by simp⟩
  sha256_ne_null b := by simp [Hash256.isNull, isZero]
  verify _ _ _ _ := true
  xwingKeyAccepted _ _ := true
  blake3 b := ⟨2 :: (b.reverse ++ List.replicate 31 0).take 31, by simp⟩

section

variable [Crypto]

def verifyIdentityMessage (key : IdentityHybridPublicKey) (signature : IdentityHybridSignature)
    (message : Bytes) : Bool :=
  if key.mlDsa.length ≠ key.purpose.publicSize ∨
      signature.mlDsa.length ≠ key.purpose.signatureSize then false
  else Crypto.verify .ed25519 key.ed25519.1 signature.ed25519.1 message &&
    Crypto.verify key.purpose.algorithm key.mlDsa signature.mlDsa message

/-- The checks shared by `ComputeRecoveryKeyId`, `ComputeAuthorizationKeyId` and
    `ComputePoaFinalizerKeyId`, and the digest they end in. -/
def computeKeyId (purpose : IdentityKeyPurpose) (domain suite : Bytes)
    (key : IdentityHybridPublicKey) : Option IdentityKeyId :=
  if key.purpose ≠ purpose ∨ key.mlDsa.length ≠ purpose.publicSize ∨
      isZero key.ed25519.1 = true ∨ isZero key.mlDsa = true then none
  else some (Crypto.sha256 (domain ++ suite ++ key.ed25519.1 ++ key.mlDsa))

def computeRecoveryKeyId (key : IdentityHybridPublicKey) : Option IdentityKeyId :=
  computeKeyId .recoveryRoot (ascii "CYBOU/RECOVERY-KEY-ID") [1] key

def computeAuthorizationKeyId (key : IdentityHybridPublicKey) : Option IdentityKeyId :=
  computeKeyId .authorization (ascii "CYBOU/IDENTITY-AUTH-KEY-ID") [2, 1] key

def computePoaFinalizerKeyId (key : IdentityHybridPublicKey) : Option IdentityKeyId :=
  computeKeyId .poaFinalizer (ascii "CYBOU/POA-FINALIZER-KEY-ID") [] key

theorem key_of_computeKeyId {purpose : IdentityKeyPurpose} {domain suite : Bytes}
    {key : IdentityHybridPublicKey} {id : IdentityKeyId}
    (h : computeKeyId purpose domain suite key = some id) :
    key.purpose = purpose ∧ key.mlDsa.length = purpose.publicSize := by
  unfold computeKeyId at h
  split at h
  · cases h
  · next hok =>
    push Not at hok
    exact ⟨hok.1, hok.2.1⟩

/-! ### KEM packages -/

/-- `IdentityKemPackage`: the profile and an X-Wing public key. -/
abbrev IdentityKemPackage := FixedBytes 1218

def decodeIdentityKemPackage (package : IdentityKemPackage) : Option Bytes :=
  let publicKey := package.1.drop 2
  let pqPublic := publicKey.take 1184
  let classicalPublic := publicKey.drop 1184
  if package.1.take 2 ≠ [0x7a, 0x64] then none
  else if isZero pqPublic = true ∨ isZero classicalPublic = true then none
  else if Crypto.xwingKeyAccepted pqPublic classicalPublic = true then some publicKey
  else none

def computeIdentityKemPackageCommitment (networkBinding : Hash256) (accountId : AccountId)
    (keyEpoch : UInt64) (package : IdentityKemPackage) : Option Hash256 :=
  if networkBinding.isNull = true ∨ accountId.isNull = true ∨
      decodeIdentityKemPackage package = none then none
  else some (Crypto.sha256 (ascii "CYBOU/IDENTITY-KEM-PACKAGE" ++ [0] ++ networkBinding.1 ++
    accountId.1 ++ le64 keyEpoch ++ leBytes 2 package.1.length ++ package.1))

/-! ### Identity authorizations -/

structure IdentityAuthorization where
  recoveryRoot : IdentityHybridPublicKey
  authorizationKey : IdentityHybridPublicKey
deriving DecidableEq, Repr

omit [Crypto] in
/-- `Valid` in `identity_authorization.cpp`. -/
def IdentityAuthorization.valid (auth : IdentityAuthorization) : Bool :=
  decide (auth.recoveryRoot.purpose = .recoveryRoot) &&
  decide (auth.authorizationKey.purpose = .authorization) &&
  decide (auth.recoveryRoot.mlDsa.length = 1952) &&
  decide (auth.authorizationKey.mlDsa.length = 1312) &&
  !isZero auth.recoveryRoot.ed25519.1 && !isZero auth.recoveryRoot.mlDsa &&
  !isZero auth.authorizationKey.ed25519.1 && !isZero auth.authorizationKey.mlDsa &&
  decide (auth.recoveryRoot.ed25519 ≠ auth.authorizationKey.ed25519)

omit [Crypto] in
def serializeIdentityAuthorization (auth : IdentityAuthorization) : Option Bytes :=
  if auth.valid then
    some ([1] ++ auth.recoveryRoot.ed25519.1 ++ auth.recoveryRoot.mlDsa ++
      [1] ++ auth.authorizationKey.ed25519.1 ++ auth.authorizationKey.mlDsa)
  else none

def computeIdentityAuthorizationCommitment (auth : IdentityAuthorization) : Option Hash256 := do
  let bytes ← serializeIdentityAuthorization auth
  return Crypto.sha256 (ascii "CYBOU/IDENTITY-AUTH-COMMIT" ++ bytes)

end

end Cybou
