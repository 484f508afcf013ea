import Cybou.AccountCreation

/-! # The finalized identity registry (`identity_registry.cpp`, `identity_registry_codec.cpp`)

The C++ class keeps two private maps: the records by account and an index
from recovery key id to account.  `RegistryMaps` holds the two maps and the
three mutating methods exactly as written; `RegistryMaps.WellFormed` is the
invariant that privacy gives the class, and `IdentityRegistry` carries it as a
field.  Each method has one inversion lemma saying everything a call can do,
and the codec is shown to accept exactly the encodings of well-formed
registries.
-/

namespace Cybou

open Library

structure IdentityRecord where
  recoveryKey : IdentityHybridPublicKey
  authorizationKey : IdentityHybridPublicKey
  kemPackageId : Hash256
  nonce : UInt64
  keyEpoch : UInt64
deriving DecidableEq, Repr

structure IdentityRotate where
  accountId : AccountId
  newRecoveryKey : IdentityHybridPublicKey
  newAuthorizationKey : IdentityHybridPublicKey
  newKemPackage : IdentityKemPackage
  nonce : UInt64
  keyEpoch : UInt64
  oldRecoverySignature : IdentityHybridSignature
  newRecoveryPop : IdentityHybridSignature
  newAuthorizationPop : IdentityHybridSignature
deriving DecidableEq, Repr

inductive IdentityOperationKind where
  | payment
  | systemLock
  | nameCommit
  | nameReveal
  | rootPublication
  | revokePublication
  | storageLease
deriving DecidableEq, Repr

def IdentityOperationKind.toByte : IdentityOperationKind → UInt8
  | .payment => 1
  | .systemLock => 2
  | .nameCommit => 3
  | .nameReveal => 4
  | .rootPublication => 5
  | .revokePublication => 6
  | .storageLease => 7

structure IdentityOperationAuthorization where
  accountId : AccountId
  nonce : UInt64
  keyEpoch : UInt64
  kind : IdentityOperationKind
  payloadCommitment : IdentityKeyId
  signature : IdentityHybridSignature
deriving DecidableEq, Repr

inductive IdentityRegistryError where
  | none
  | invalidCreate
  | accountExists
  | recoveryKeyExists
  | accountNotFound
  | invalidKey
  | badNonce
  | nonceExhausted
  | invalidSignature
  | invalidPayload
deriving DecidableEq, Repr

def MAX_IDENTITY_REGISTRY_ACCOUNTS : Nat := 1000000

/-- The two private members of `IdentityRegistry`. -/
structure RegistryMaps where
  accounts : OrdMap AccountId IdentityRecord := ∅
  recoveryIndex : OrdMap IdentityKeyId AccountId := ∅
deriving DecidableEq

section

variable [Crypto]

/-! ### Digests -/

def computeIdentityRotateDigest (networkBinding : Hash256) (request : IdentityRotate) :
    Option IdentityKeyId :=
  if networkBinding.isNull = true ∨ Hash256.isNull request.accountId = true then none
  else do
    let recoveryId ← computeRecoveryKeyId request.newRecoveryKey
    let authorizationId ← computeAuthorizationKeyId request.newAuthorizationKey
    let packageId ← computeIdentityKemPackageCommitment networkBinding request.accountId
      request.keyEpoch request.newKemPackage
    return Crypto.sha256 (ascii "CYBOU/IDENTITY-ROTATE-DIGEST" ++ (ascii "CYBOU/IDENTITY-ROTATE" ++
      networkBinding.1 ++ request.accountId.1 ++ le64 request.nonce ++ le64 request.keyEpoch ++
      recoveryId.1 ++ authorizationId.1 ++ packageId.1))

def computeIdentityOperationDigest (networkBinding : Hash256)
    (request : IdentityOperationAuthorization) : Option IdentityKeyId :=
  if Hash256.isNull request.payloadCommitment = true ∨ networkBinding.isNull = true ∨
      Hash256.isNull request.accountId = true then none
  else some (Crypto.sha256 (ascii "CYBOU/IDENTITY-OP-DIGEST" ++ (ascii "CYBOU/IDENTITY-OP" ++
    networkBinding.1 ++ request.accountId.1 ++ le64 request.nonce ++ le64 request.keyEpoch ++
    [request.kind.toByte] ++ request.payloadCommitment.1)))

namespace RegistryMaps

/-! ### The three mutating methods -/

def register (m : RegistryMaps) (create : AccountCreateOp) (networkBinding : Hash256)
    (blockHeight : UInt64) (params : CybouProtocolParameters) :
    IdentityRegistryError × RegistryMaps :=
  if validateAccountCreateOp create networkBinding blockHeight params ≠ .none then
    (.invalidCreate, m)
  else if m.accounts.contains create.accountId then (.accountExists, m)
  else
    match computeRecoveryKeyId create.authorization.recoveryRoot,
        computeAuthorizationKeyId create.authorization.authorizationKey,
        computeIdentityKemPackageCommitment networkBinding create.accountId 0 create.kemPackage with
    | some recoveryId, some _, some packageId =>
      if m.recoveryIndex.contains recoveryId then (.recoveryKeyExists, m)
      else
        let record : IdentityRecord :=
          { recoveryKey := create.authorization.recoveryRoot
            authorizationKey := create.authorization.authorizationKey
            kemPackageId := packageId
            nonce := 0
            keyEpoch := 0 }
        (.none, { accounts := m.accounts.emplace create.accountId record
                  recoveryIndex := m.recoveryIndex.emplace recoveryId create.accountId })
    | _, _, _ => (.invalidKey, m)

/-- The three signature checks of `RotateIdentity`. -/
def rotateSignaturesValid (record : IdentityRecord) (request : IdentityRotate)
    (networkBinding : Hash256) : Bool :=
  match computeIdentityRotateDigest networkBinding request with
  | none => false
  | some digest =>
    verifyIdentityMessage record.recoveryKey request.oldRecoverySignature digest.1 &&
    verifyIdentityMessage request.newRecoveryKey request.newRecoveryPop digest.1 &&
    verifyIdentityMessage request.newAuthorizationKey request.newAuthorizationPop digest.1

def rotateIdentity (m : RegistryMaps) (request : IdentityRotate) (networkBinding : Hash256) :
    IdentityRegistryError × RegistryMaps :=
  match m.accounts.find? request.accountId with
  | none => (.accountNotFound, m)
  | some record =>
    if request.nonce ≠ record.nonce ∨ request.keyEpoch ≠ record.keyEpoch + 1 then (.badNonce, m)
    else if record.nonce = UINT64_MAX ∨ record.keyEpoch = UINT64_MAX then (.nonceExhausted, m)
    else
      match computeRecoveryKeyId record.recoveryKey, computeRecoveryKeyId request.newRecoveryKey,
          computeAuthorizationKeyId request.newAuthorizationKey,
          computeIdentityKemPackageCommitment networkBinding request.accountId request.keyEpoch
            request.newKemPackage with
      | some oldId, some newId, some _, some packageId =>
        if m.recoveryIndex.contains newId then (.recoveryKeyExists, m)
        else if rotateSignaturesValid record request networkBinding = false then
          (.invalidSignature, m)
        else
          let record' : IdentityRecord :=
            { recoveryKey := request.newRecoveryKey
              authorizationKey := request.newAuthorizationKey
              kemPackageId := packageId
              nonce := record.nonce + 1
              keyEpoch := request.keyEpoch }
          (.none, { accounts := m.accounts.set request.accountId record'
                    recoveryIndex := (m.recoveryIndex.erase oldId).emplace newId request.accountId })
      | _, _, _, _ => (.invalidKey, m)

def authorizeOperation (m : RegistryMaps) (request : IdentityOperationAuthorization)
    (networkBinding : Hash256) : IdentityRegistryError × RegistryMaps :=
  match m.accounts.find? request.accountId with
  | none => (.accountNotFound, m)
  | some record =>
    if request.nonce ≠ record.nonce ∨ request.keyEpoch ≠ record.keyEpoch then (.badNonce, m)
    else if record.nonce = UINT64_MAX then (.nonceExhausted, m)
    else
      match computeIdentityOperationDigest networkBinding request with
      | none => (.invalidPayload, m)
      | some digest =>
        if verifyIdentityMessage record.authorizationKey request.signature digest.1 = false then
          (.invalidSignature, m)
        else (.none, { m with
          accounts := m.accounts.set request.accountId { record with nonce := record.nonce + 1 } })

/-! ### What a call can do -/

/-- A registration fails and changes nothing, or passed every check. -/
theorem register_cases (m : RegistryMaps) (create : AccountCreateOp) (networkBinding : Hash256)
    (blockHeight : UInt64) (params : CybouProtocolParameters) :
    (∃ e, e ≠ .none ∧ m.register create networkBinding blockHeight params = (e, m)) ∨
    ∃ recoveryId authorizationId packageId,
      validateAccountCreateOp create networkBinding blockHeight params = .none ∧
      m.accounts.find? create.accountId = none ∧
      computeRecoveryKeyId create.authorization.recoveryRoot = some recoveryId ∧
      computeAuthorizationKeyId create.authorization.authorizationKey = some authorizationId ∧
      computeIdentityKemPackageCommitment networkBinding create.accountId 0 create.kemPackage =
        some packageId ∧
      m.recoveryIndex.find? recoveryId = none ∧
      m.register create networkBinding blockHeight params = (.none,
        { accounts := m.accounts.set create.accountId
            { recoveryKey := create.authorization.recoveryRoot
              authorizationKey := create.authorization.authorizationKey
              kemPackageId := packageId, nonce := 0, keyEpoch := 0 }
          recoveryIndex := m.recoveryIndex.set recoveryId create.accountId }) := by
  unfold register
  split
  · exact .inl ⟨_, by simp, rfl⟩
  next hvalid =>
  split
  · exact .inl ⟨_, by simp, rfl⟩
  next hfresh =>
  split
  · next recoveryId authorizationId packageId hrec hauth hkem =>
    split
    · exact .inl ⟨_, by simp, rfl⟩
    · next hidx =>
      have hfresh := OrdMap.contains_eq_false_iff.mp (eq_false_of_ne_true hfresh)
      have hidx := OrdMap.contains_eq_false_iff.mp (eq_false_of_ne_true hidx)
      refine .inr ⟨recoveryId, authorizationId, packageId, by simpa using hvalid, hfresh, hrec,
        hauth, hkem, hidx, ?_⟩
      simp only [OrdMap.emplace_of_none hfresh, OrdMap.emplace_of_none hidx]
  · exact .inl ⟨_, by simp, rfl⟩

/-- A rotation fails and changes nothing, or passed every check. -/
theorem rotateIdentity_cases (m : RegistryMaps) (request : IdentityRotate)
    (networkBinding : Hash256) :
    (∃ e, e ≠ .none ∧ m.rotateIdentity request networkBinding = (e, m)) ∨
    ∃ record oldId newId authorizationId packageId,
      m.accounts.find? request.accountId = some record ∧
      request.nonce = record.nonce ∧ request.keyEpoch = record.keyEpoch + 1 ∧
      record.nonce ≠ UINT64_MAX ∧ record.keyEpoch ≠ UINT64_MAX ∧
      computeRecoveryKeyId record.recoveryKey = some oldId ∧
      computeRecoveryKeyId request.newRecoveryKey = some newId ∧
      computeAuthorizationKeyId request.newAuthorizationKey = some authorizationId ∧
      computeIdentityKemPackageCommitment networkBinding request.accountId request.keyEpoch
        request.newKemPackage = some packageId ∧
      m.recoveryIndex.find? newId = none ∧
      rotateSignaturesValid record request networkBinding = true ∧
      m.rotateIdentity request networkBinding = (.none,
        { accounts := m.accounts.set request.accountId
            { recoveryKey := request.newRecoveryKey
              authorizationKey := request.newAuthorizationKey
              kemPackageId := packageId
              nonce := record.nonce + 1
              keyEpoch := request.keyEpoch }
          recoveryIndex := (m.recoveryIndex.erase oldId).set newId request.accountId }) := by
  unfold rotateIdentity
  split
  · exact .inl ⟨_, by simp, rfl⟩
  next record hrecord =>
  split
  · exact .inl ⟨_, by simp, rfl⟩
  next hnonce =>
  split
  · exact .inl ⟨_, by simp, rfl⟩
  next hmax =>
  split
  · next oldId newId authorizationId packageId hold hnew hauth hkem =>
    split
    · exact .inl ⟨_, by simp, rfl⟩
    next hidx =>
    split
    · exact .inl ⟨_, by simp, rfl⟩
    · next hsig =>
      have hidx := OrdMap.contains_eq_false_iff.mp (eq_false_of_ne_true hidx)
      push Not at hnonce hmax
      refine .inr ⟨record, oldId, newId, authorizationId, packageId, hrecord, hnonce.1, hnonce.2,
        hmax.1, hmax.2, hold, hnew, hauth, hkem, hidx, by simpa using hsig, ?_⟩
      have hnone : (m.recoveryIndex.erase oldId).find? newId = none := by simp [hidx]
      simp only [OrdMap.emplace_of_none hnone]
  · exact .inl ⟨_, by simp, rfl⟩

/-- An authorization fails and changes nothing, or advances the nonce. -/
theorem authorizeOperation_cases (m : RegistryMaps) (request : IdentityOperationAuthorization)
    (networkBinding : Hash256) :
    (∃ e, e ≠ .none ∧ m.authorizeOperation request networkBinding = (e, m)) ∨
    ∃ record digest, m.accounts.find? request.accountId = some record ∧
      request.nonce = record.nonce ∧ request.keyEpoch = record.keyEpoch ∧
      record.nonce ≠ UINT64_MAX ∧
      computeIdentityOperationDigest networkBinding request = some digest ∧
      verifyIdentityMessage record.authorizationKey request.signature digest.1 = true ∧
      m.authorizeOperation request networkBinding = (.none, { m with
        accounts := m.accounts.set request.accountId { record with nonce := record.nonce + 1 } }) := by
  unfold authorizeOperation
  split
  · exact .inl ⟨_, by simp, rfl⟩
  next record hrecord =>
  split
  · exact .inl ⟨_, by simp, rfl⟩
  next hnonce =>
  split
  · exact .inl ⟨_, by simp, rfl⟩
  next hmax =>
  split
  · exact .inl ⟨_, by simp, rfl⟩
  next digest hdigest =>
  split
  · exact .inl ⟨_, by simp, rfl⟩
  · next hsig =>
    push Not at hnonce
    exact .inr ⟨record, digest, hrecord, hnonce.1, hnonce.2, hmax, hdigest, by simpa using hsig, rfl⟩

/-! ### The class invariant -/

/-- What holds of the two members of every registry the class can build. -/
structure WellFormed (m : RegistryMaps) : Prop where
  indexed : ∀ id record, m.accounts.find? id = some record →
    ∃ key, computeRecoveryKeyId record.recoveryKey = some key ∧ m.recoveryIndex.find? key = some id
  registered : ∀ key id, m.recoveryIndex.find? key = some id →
    ∃ record, m.accounts.find? id = some record ∧ computeRecoveryKeyId record.recoveryKey = some key
  id_ne_null : ∀ id record, m.accounts.find? id = some record → Hash256.isNull id = false
  authorized : ∀ id record, m.accounts.find? id = some record →
    ∃ key, computeAuthorizationKeyId record.authorizationKey = some key
  kem_ne_null : ∀ id record, m.accounts.find? id = some record → record.kemPackageId.isNull = false
  size_eq : m.accounts.size = m.recoveryIndex.size

theorem wellFormed_empty : WellFormed {} where
  indexed := by simp
  registered := by simp
  id_ne_null := by simp
  authorized := by simp
  kem_ne_null := by simp
  size_eq := rfl

theorem kemPackageCommitment_ne_null {networkBinding : Hash256} {accountId : AccountId}
    {keyEpoch : UInt64} {package : IdentityKemPackage} {packageId : Hash256}
    (h : computeIdentityKemPackageCommitment networkBinding accountId keyEpoch package =
      some packageId) : packageId.isNull = false ∧ accountId.isNull = false := by
  unfold computeIdentityKemPackageCommitment at h
  split at h
  · cases h
  · next hok =>
    cases h
    push Not at hok
    exact ⟨Crypto.sha256_ne_null _, by simpa using hok.2.1⟩

variable {m : RegistryMaps} {id : AccountId} {record : IdentityRecord} {key authKey : IdentityKeyId}

theorem WellFormed.recovery_unique (h : m.WellFormed) {id' : AccountId} {record' : IdentityRecord}
    (hid : m.accounts.find? id = some record) (hid' : m.accounts.find? id' = some record')
    (hkey : computeRecoveryKeyId record.recoveryKey = some key)
    (hkey' : computeRecoveryKeyId record'.recoveryKey = some key) : id = id' := by
  obtain ⟨k, hk, hfind⟩ := h.indexed id record hid
  obtain ⟨k', hk', hfind'⟩ := h.indexed id' record' hid'
  rw [hkey] at hk
  rw [hkey'] at hk'
  cases hk
  cases hk'
  rw [hfind] at hfind'
  exact Option.some.inj hfind'

/-- Adding a fresh account under a fresh recovery key. -/
theorem WellFormed.insert (h : m.WellFormed)
    (hid : m.accounts.find? id = none) (hkey : m.recoveryIndex.find? key = none)
    (hnull : Hash256.isNull id = false) (hrec : computeRecoveryKeyId record.recoveryKey = some key)
    (hauth : computeAuthorizationKeyId record.authorizationKey = some authKey)
    (hkem : record.kemPackageId.isNull = false) :
    WellFormed { accounts := m.accounts.set id record
                 recoveryIndex := m.recoveryIndex.set key id } where
  indexed id' record' hfind := by
    simp only [OrdMap.find?_set] at hfind ⊢
    split at hfind
    · next heq =>
      cases hfind
      exact ⟨key, hrec, by simp [heq]⟩
    · obtain ⟨k, hk, hk'⟩ := h.indexed id' record' hfind
      have hne : k ≠ key := fun heq => by simp [heq, hkey] at hk'
      exact ⟨k, hk, by simp [hne, hk']⟩
  registered k id' hfind := by
    simp only [OrdMap.find?_set] at hfind ⊢
    split at hfind
    · next heq =>
      cases hfind
      exact ⟨record, by simp, heq ▸ hrec⟩
    · obtain ⟨r, hr, hk⟩ := h.registered k id' hfind
      have hne : id' ≠ id := fun heq => by simp [heq, hid] at hr
      exact ⟨r, by simp [hne, hr], hk⟩
  id_ne_null := OrdMap.forall_find?_set hnull h.id_ne_null
  authorized := OrdMap.forall_find?_set ⟨authKey, hauth⟩ h.authorized
  kem_ne_null := OrdMap.forall_find?_set hkem h.kem_ne_null
  size_eq := by
    rw [OrdMap.size_set_of_none hid, OrdMap.size_set_of_none hkey, h.size_eq]

/-- Replacing the keys of a registered account by fresh ones. -/
theorem WellFormed.replace (h : m.WellFormed) {old : IdentityRecord} {oldKey : IdentityKeyId}
    (hid : m.accounts.find? id = some old) (hold : computeRecoveryKeyId old.recoveryKey = some oldKey)
    (hkey : m.recoveryIndex.find? key = none) (hrec : computeRecoveryKeyId record.recoveryKey = some key)
    (hauth : computeAuthorizationKeyId record.authorizationKey = some authKey)
    (hkem : record.kemPackageId.isNull = false) :
    WellFormed { accounts := m.accounts.set id record
                 recoveryIndex := (m.recoveryIndex.erase oldKey).set key id } where
  indexed id' record' hfind := by
    simp only [OrdMap.find?_set, OrdMap.find?_erase] at hfind ⊢
    split at hfind
    · next heq =>
      cases hfind
      exact ⟨key, hrec, by simp [heq]⟩
    · next hne =>
      obtain ⟨k, hk, hk'⟩ := h.indexed id' record' hfind
      have hkne : k ≠ key := fun heq => by simp [heq, hkey] at hk'
      have hkold : k ≠ oldKey := fun heq =>
        hne (h.recovery_unique hfind hid (heq ▸ hk) hold)
      exact ⟨k, hk, by simp [hkne, hkold, hk']⟩
  registered k id' hfind := by
    simp only [OrdMap.find?_set, OrdMap.find?_erase] at hfind ⊢
    split at hfind
    · next heq =>
      cases hfind
      exact ⟨record, by simp, heq ▸ hrec⟩
    · split at hfind
      · cases hfind
      · next hkold =>
        obtain ⟨r, hr, hk⟩ := h.registered k id' hfind
        have hne : id' ≠ id := by
          rintro rfl
          rw [hid] at hr
          cases hr
          rw [hold] at hk
          exact hkold (Option.some.inj hk).symm
        exact ⟨r, by simp [hne, hr], hk⟩
  id_ne_null := OrdMap.forall_find?_set (h.id_ne_null id old hid) h.id_ne_null
  authorized := OrdMap.forall_find?_set ⟨authKey, hauth⟩ h.authorized
  kem_ne_null := OrdMap.forall_find?_set hkem h.kem_ne_null
  size_eq := by
    obtain ⟨k, hk, hk'⟩ := h.indexed id old hid
    rw [hold] at hk
    cases hk
    have hfresh : (m.recoveryIndex.erase oldKey).find? key = none := by simp [hkey]
    rw [OrdMap.size_set_of_some hid, OrdMap.size_set_of_none hfresh,
      OrdMap.size_erase_of_some hk', h.size_eq]

theorem WellFormed.setNonce (h : m.WellFormed) (hid : m.accounts.find? id = some record) (nonce : UInt64) :
    WellFormed { m with accounts := m.accounts.set id { record with nonce := nonce } } where
  indexed := OrdMap.forall_find?_set (h.indexed id record hid) h.indexed
  registered key id' hfind := by
    obtain ⟨r, hr, hk⟩ := h.registered key id' hfind
    by_cases heq : id' = id
    · subst heq
      rw [hid] at hr
      cases hr
      exact ⟨{ record with nonce := nonce }, by simp, hk⟩
    · exact ⟨r, by simp [heq, hr], hk⟩
  id_ne_null := OrdMap.forall_find?_set (h.id_ne_null id record hid) h.id_ne_null
  authorized := OrdMap.forall_find?_set (h.authorized id record hid) h.authorized
  kem_ne_null := OrdMap.forall_find?_set (h.kem_ne_null id record hid) h.kem_ne_null
  size_eq := by rw [OrdMap.size_set_of_some hid, h.size_eq]

theorem WellFormed.register (h : m.WellFormed) (create : AccountCreateOp)
    (networkBinding : Hash256) (blockHeight : UInt64) (params : CybouProtocolParameters) :
    (m.register create networkBinding blockHeight params).2.WellFormed := by
  obtain ⟨e, -, heq⟩ | ⟨recoveryId, authorizationId, packageId, hvalid, hid, hrec, hauth, hkem,
    hkey, heq⟩ := register_cases m create networkBinding blockHeight params
  · rw [heq]
    exact h
  · rw [heq]
    exact h.insert hid hkey (accountId_ne_null_of_valid hvalid) hrec hauth
      (kemPackageCommitment_ne_null hkem).1

theorem WellFormed.rotateIdentity (h : m.WellFormed) (request : IdentityRotate)
    (networkBinding : Hash256) : (m.rotateIdentity request networkBinding).2.WellFormed := by
  obtain ⟨e, -, heq⟩ | ⟨record, oldId, newId, authorizationId, packageId, hid, -, -, -, -, hold,
    hnew, hauth, hkem, hkey, -, heq⟩ := rotateIdentity_cases m request networkBinding
  · rw [heq]
    exact h
  · rw [heq]
    exact h.replace hid hold hkey hnew hauth (kemPackageCommitment_ne_null hkem).1

theorem WellFormed.authorizeOperation (h : m.WellFormed)
    (request : IdentityOperationAuthorization) (networkBinding : Hash256) :
    (m.authorizeOperation request networkBinding).2.WellFormed := by
  obtain ⟨e, -, heq⟩ | ⟨record, digest, hid, -, -, -, -, -, heq⟩ :=
    authorizeOperation_cases m request networkBinding
  · rw [heq]
    exact h
  · rw [heq]
    exact h.setNonce hid _

end RegistryMaps

/-- A registry as other code sees it: the maps are only reached through the
    methods above, so the invariant always holds. -/
structure IdentityRegistry extends RegistryMaps where
  wellFormed : toRegistryMaps.WellFormed

namespace IdentityRegistry

instance : DecidableEq IdentityRegistry := fun a b =>
  decidable_of_iff (a.toRegistryMaps = b.toRegistryMaps)
    ⟨fun h => by cases a; cases b; cases h; rfl, fun h => h ▸ rfl⟩

def empty : IdentityRegistry := ⟨{}, RegistryMaps.wellFormed_empty⟩

def find (r : IdentityRegistry) (id : AccountId) : Option IdentityRecord := r.accounts.find? id

def findByRecoveryKeyId (r : IdentityRegistry) (id : IdentityKeyId) : Option AccountId :=
  r.recoveryIndex.find? id

def register (r : IdentityRegistry) (create : AccountCreateOp) (networkBinding : Hash256)
    (blockHeight : UInt64) (params : CybouProtocolParameters) :
    IdentityRegistryError × IdentityRegistry :=
  ((r.toRegistryMaps.register create networkBinding blockHeight params).1,
    ⟨_, r.wellFormed.register create networkBinding blockHeight params⟩)

def rotateIdentity (r : IdentityRegistry) (request : IdentityRotate) (networkBinding : Hash256) :
    IdentityRegistryError × IdentityRegistry :=
  ((r.toRegistryMaps.rotateIdentity request networkBinding).1,
    ⟨_, r.wellFormed.rotateIdentity request networkBinding⟩)

def authorizeOperation (r : IdentityRegistry) (request : IdentityOperationAuthorization)
    (networkBinding : Hash256) : IdentityRegistryError × IdentityRegistry :=
  ((r.toRegistryMaps.authorizeOperation request networkBinding).1,
    ⟨_, r.wellFormed.authorizeOperation request networkBinding⟩)

variable {a b : IdentityRegistry}

theorem ext_maps (h : a.toRegistryMaps = b.toRegistryMaps) : a = b := by
  cases a
  cases b
  cases h
  rfl

theorem ext_accounts (h : a.accounts = b.accounts) : a = b := by
  have hindex : a.recoveryIndex = b.recoveryIndex := by
    refine OrdMap.ext_find? fun key => Option.ext fun id => ⟨fun hk => ?_, fun hk => ?_⟩
    · obtain ⟨record, hrec, hkey⟩ := a.wellFormed.registered key id hk
      obtain ⟨key', hkey', hfind⟩ := b.wellFormed.indexed id record (h ▸ hrec)
      rw [hkey] at hkey'
      cases hkey'
      exact hfind
    · obtain ⟨record, hrec, hkey⟩ := b.wellFormed.registered key id hk
      obtain ⟨key', hkey', hfind⟩ := a.wellFormed.indexed id record (h ▸ hrec)
      rw [hkey] at hkey'
      cases hkey'
      exact hfind
  apply ext_maps
  obtain ⟨⟨_, _⟩, _⟩ := a
  obtain ⟨⟨_, _⟩, _⟩ := b
  cases h
  cases hindex
  rfl

end IdentityRegistry

/-! ### The registry codec -/

/-- `ACCOUNT_SIZE` of `identity_registry_codec.cpp`. -/
def IDENTITY_ACCOUNT_SIZE : Nat := 32 + (32 + 1952) + (32 + 1312) + 32 + 8 + 8

omit [Crypto] in
def writePublic (key : IdentityHybridPublicKey) : Bytes := key.ed25519.1 ++ key.mlDsa

omit [Crypto] in
def writeIdentityAccount (e : AccountId × IdentityRecord) : Bytes :=
  e.1.1 ++ writePublic e.2.recoveryKey ++ writePublic e.2.authorizationKey ++
    e.2.kemPackageId.1 ++ le64 e.2.nonce ++ le64 e.2.keyEpoch

def serializeIdentityAccount (m : RegistryMaps) (e : AccountId × IdentityRecord) : Option Bytes := do
  let recoveryId ← computeRecoveryKeyId e.2.recoveryKey
  let _ ← computeAuthorizationKeyId e.2.authorizationKey
  if Hash256.isNull e.1 = true ∨ e.2.kemPackageId.isNull = true ∨
      m.recoveryIndex.find? recoveryId ≠ some e.1 then none
  else some (writeIdentityAccount e)

def serializeIdentityRegistry (m : RegistryMaps) : Option Bytes :=
  if m.accounts.size > MAX_IDENTITY_REGISTRY_ACCOUNTS ∨ m.accounts.size ≠ m.recoveryIndex.size then
    none
  else do
    let accounts ← m.accounts.entries.mapM (serializeIdentityAccount m)
    return le32Of m.accounts.size ++ accounts.flatten

omit [Crypto] in
def readPublic (purpose : IdentityKeyPurpose) (pqSize : Nat) : Reader IdentityHybridPublicKey := do
  let ed25519 ← Reader.fixed 32
  let mlDsa ← Reader.bytes pqSize
  return { purpose, ed25519, mlDsa }

/-- One round of the loop in `DeserializeIdentityRegistry`, up to the duplicate
    check on the recovery key. -/
def readIdentityAccount : Reader (AccountId × IdentityRecord) := do
  let accountId ← Reader.fixed 32
  Reader.require (Hash256.isNull accountId = false)
  let recoveryKey ← readPublic .recoveryRoot 1952
  let authorizationKey ← readPublic .authorization 1312
  let kemPackageId ← Reader.fixed 32
  let nonce ← Reader.u64
  let keyEpoch ← Reader.u64
  Reader.require (Hash256.isNull kemPackageId = false)
  Reader.require ((computeRecoveryKeyId recoveryKey).isSome = true)
  Reader.require ((computeAuthorizationKeyId authorizationKey).isSome = true)
  return (accountId, { recoveryKey, authorizationKey, kemPackageId, nonce, keyEpoch })

def readIdentityAccounts : Nat → Option AccountId → RegistryMaps → Reader RegistryMaps
  | 0, _, m => pure m
  | n + 1, prior, m => do
    let e ← readIdentityAccount
    Reader.require (prior.all (· < e.1) = true)
    let recoveryId := (computeRecoveryKeyId e.2.recoveryKey).getD Hash256.ZERO
    Reader.require (m.recoveryIndex.contains recoveryId = false)
    readIdentityAccounts n (some e.1)
      { accounts := m.accounts.emplace e.1 e.2
        recoveryIndex := m.recoveryIndex.emplace recoveryId e.1 }

def readIdentityRegistry : Reader RegistryMaps := do
  let n ← Reader.count
  Reader.require (n ≤ MAX_IDENTITY_REGISTRY_ACCOUNTS)
  Reader.fits IDENTITY_ACCOUNT_SIZE n
  readIdentityAccounts n none {}

def IdentityAccountOk (e : AccountId × IdentityRecord) : Prop :=
  Hash256.isNull e.1 = false ∧ e.2.kemPackageId.isNull = false ∧
    (computeRecoveryKeyId e.2.recoveryKey).isSome = true ∧
    (computeAuthorizationKeyId e.2.authorizationKey).isSome = true

omit [Crypto] in
theorem readPublic_exact (purpose : IdentityKeyPurpose) (pqSize : Nat) :
    Reader.Exact (readPublic purpose pqSize) writePublic
      (fun key => key.purpose = purpose ∧ key.mlDsa.length = pqSize) := by
  rintro b ⟨_, ed25519, mlDsa⟩ r
  simp only [readPublic, (Reader.fixed_exact 32).bind, Reader.bind_eq_some, Reader.bytes_eq_some,
    Reader.pure_eq_some, writePublic, true_and]
  constructor
  · rintro ⟨_, _, rfl, _, _, ⟨hlen, rfl⟩, hkey, rfl⟩
    cases hkey
    exact ⟨⟨rfl, hlen⟩, by simp⟩
  · rintro ⟨⟨rfl, hlen⟩, rfl⟩
    exact ⟨ed25519, mlDsa ++ r, by simp, mlDsa, r, ⟨hlen, rfl⟩, rfl, rfl⟩

theorem readIdentityAccount_exact :
    Reader.Exact readIdentityAccount writeIdentityAccount IdentityAccountOk := by
  rintro b ⟨id, ⟨recoveryKey, authorizationKey, kemPackageId, nonce, keyEpoch⟩⟩ r
  simp only [readIdentityAccount, (Reader.fixed_exact 32).bind, (readPublic_exact _ _).bind,
    Reader.u64_exact.bind, Reader.require_bind, Reader.pure_eq_some, true_and, IdentityAccountOk,
    writeIdentityAccount]
  constructor
  · rintro ⟨_, _, rfl, hid, _, _, -, rfl, _, _, -, rfl, _, _, rfl, _, _, rfl, _, _, rfl, hkem,
      hrec, hauth, heq, rfl⟩
    cases heq
    exact ⟨⟨hid, hkem, hrec, hauth⟩, by simp⟩
  · rintro ⟨⟨hid, hkem, hrec, hauth⟩, rfl⟩
    obtain ⟨_, hrecKey⟩ := Option.isSome_iff_exists.mp hrec
    obtain ⟨_, hauthKey⟩ := Option.isSome_iff_exists.mp hauth
    refine ⟨id, _, ?_, hid, recoveryKey, _, key_of_computeKeyId hrecKey, rfl, authorizationKey, _,
      key_of_computeKeyId hauthKey, rfl, kemPackageId, _, rfl, nonce, _, rfl, keyEpoch, r, rfl,
      hkem, hrec, hauth, rfl, rfl⟩
    simp

namespace RegistryMaps

variable {m : RegistryMaps}

theorem WellFormed.accountOk (h : m.WellFormed) {e : AccountId × IdentityRecord}
    (he : e ∈ m.accounts.entries) : IdentityAccountOk e := by
  have hfind := OrdMap.mem_entries_iff.mp he
  obtain ⟨key, hkey, -⟩ := h.indexed e.1 e.2 hfind
  obtain ⟨authKey, hauth⟩ := h.authorized e.1 e.2 hfind
  exact ⟨h.id_ne_null _ _ hfind, h.kem_ne_null _ _ hfind, by simp [hkey], by simp [hauth]⟩

theorem WellFormed.emplace (h : m.WellFormed) {e : AccountId × IdentityRecord}
    {key : IdentityKeyId} (hok : IdentityAccountOk e) (hid : m.accounts.find? e.1 = none)
    (hkey : computeRecoveryKeyId e.2.recoveryKey = some key) (hfresh : m.recoveryIndex.find? key = none) :
    WellFormed { accounts := m.accounts.emplace e.1 e.2
                 recoveryIndex := m.recoveryIndex.emplace key e.1 } := by
  rw [OrdMap.emplace_of_none hid, OrdMap.emplace_of_none hfresh]
  obtain ⟨authKey, hauth⟩ := Option.isSome_iff_exists.mp hok.2.2.2
  exact h.insert hid hfresh hok.1 hkey hauth hok.2.1

end RegistryMaps

/-- The loop fills the records as a plain map section would, and rejects exactly
    the sections whose records would break the index. -/
theorem readIdentityAccounts_iff (n : Nat) (prior : Option AccountId) (m : RegistryMaps)
    (hm : m.WellFormed) (hprior : ∀ e ∈ m.accounts.entries, ∃ k ∈ prior, e.1 ≤ k)
    (b r : Bytes) (m' : RegistryMaps) :
    readIdentityAccounts n prior m b = some (m', r) ↔
      Reader.mapN readIdentityAccount n prior m.accounts b = some (m'.accounts, r) ∧
        m'.WellFormed := by
  induction n generalizing prior m b with
  | zero =>
    simp only [readIdentityAccounts, Reader.mapN, Reader.pure_eq_some]
    constructor
    · rintro ⟨rfl, rfl⟩
      exact ⟨⟨rfl, rfl⟩, hm⟩
    · rintro ⟨⟨hacc, rfl⟩, hm'⟩
      have := IdentityRegistry.ext_accounts (a := ⟨m, hm⟩) (b := ⟨m', hm'⟩) hacc
      exact ⟨congrArg IdentityRegistry.toRegistryMaps this, rfl⟩
  | succ n ih =>
    simp only [readIdentityAccounts, Reader.mapN, readIdentityAccount_exact.bind,
      Reader.require_bind, Option.all_eq_true, decide_eq_true_eq]
    have hbound : ∀ e : AccountId × IdentityRecord, (∀ k ∈ prior, k < e.1) →
        ∀ a ∈ m.accounts.entries, a.1 < e.1 := by
      intro e he a ha
      obtain ⟨k, hk, hle⟩ := hprior a ha
      exact hle.trans_lt (he k hk)
    have hnew : ∀ e : AccountId × IdentityRecord, (∀ k ∈ prior, k < e.1) →
        m.accounts.find? e.1 = none := fun e he =>
      findIn_eq_none.mpr fun a ha => (hbound e he a ha).ne
    constructor
    · rintro ⟨e, b', hok, rfl, hlt, hfresh, hrun⟩
      obtain ⟨key, hkey⟩ := Option.isSome_iff_exists.mp hok.2.2.1
      simp only [hkey, Option.getD_some, OrdMap.contains_eq_false_iff] at hfresh hrun
      have hstep := (ih _ _ (hm.emplace hok (hnew e hlt) hkey hfresh)
        (Reader.emplace_le (hbound e hlt)) b').mp hrun
      exact ⟨⟨e, b', hok, rfl, hlt, hstep.1⟩, hstep.2⟩
    · rintro ⟨⟨e, b', hok, rfl, hlt, hrun⟩, hm'⟩
      obtain ⟨key, hkey⟩ := Option.isSome_iff_exists.mp hok.2.2.1
      -- a clash in the index would be a clash between two records of the result
      have hfresh : m.recoveryIndex.find? key = none := by
        refine Option.eq_none_iff_forall_not_mem.mpr fun id hid => ?_
        obtain ⟨record, hrec, hreckey⟩ := hm.registered key id hid
        obtain ⟨l, hl, -⟩ := (Reader.mapN_loop readIdentityAccount_exact n _ _
          (Reader.emplace_le (hbound e hlt)) b' r m'.accounts).mp hrun
        rw [Reader.emplace_entries (hbound e hlt)] at hl
        have hmem : (id, record) ∈ m'.accounts.entries := by
          simp [hl, OrdMap.mem_entries_iff.mpr hrec]
        have hmem' : (e.1, e.2) ∈ m'.accounts.entries := by simp [hl]
        have heq := hm'.recovery_unique (OrdMap.mem_entries_iff.mp hmem)
          (OrdMap.mem_entries_iff.mp hmem') hreckey hkey
        rw [heq, hnew e hlt] at hrec
        cases hrec
      refine ⟨e, b', hok, rfl, hlt, ?_, ?_⟩
      · simpa [hkey, OrdMap.contains_eq_false_iff] using hfresh
      · simp only [hkey, Option.getD_some]
        exact (ih _ _ (hm.emplace hok (hnew e hlt) hkey hfresh)
          (Reader.emplace_le (hbound e hlt)) b').mpr ⟨hrun, hm'⟩

omit [Crypto] in
def identityRegistryBytes (m : RegistryMaps) : Bytes :=
  le32Of m.accounts.size ++ Reader.concat writeIdentityAccount m.accounts.entries

theorem serializeIdentityRegistry_of_wellFormed {m : RegistryMaps} (h : m.WellFormed)
    (hsize : m.accounts.size ≤ MAX_IDENTITY_REGISTRY_ACCOUNTS) :
    serializeIdentityRegistry m = some (identityRegistryBytes m) := by
  have hentry : ∀ e ∈ m.accounts.entries,
      serializeIdentityAccount m e = some (writeIdentityAccount e) := by
    intro e he
    have hfind := OrdMap.mem_entries_iff.mp he
    obtain ⟨key, hkey, hindex⟩ := h.indexed e.1 e.2 hfind
    obtain ⟨authKey, hauth⟩ := h.authorized e.1 e.2 hfind
    simp [serializeIdentityAccount, hkey, hauth, hindex, h.id_ne_null _ _ hfind,
      h.kem_ne_null _ _ hfind]
  have hmap : m.accounts.entries.mapM (serializeIdentityAccount m) =
      some (m.accounts.entries.map writeIdentityAccount) := by
    generalize m.accounts.entries = l at hentry
    induction l with
    | nil => rfl
    | cons e l ih =>
      obtain ⟨he, hl⟩ := List.forall_mem_cons.mp hentry
      simp [he, ih hl]
  rw [serializeIdentityRegistry, if_neg (by rw [h.size_eq] at hsize ⊢; simp; omega), hmap]
  rfl

/-- **The registry codec is exact**: the reader accepts the encodings of
    well-formed registries within the account limit, and nothing else. -/
theorem readIdentityRegistry_exact :
    Reader.Exact readIdentityRegistry identityRegistryBytes
      (fun m => m.WellFormed ∧ m.accounts.size ≤ MAX_IDENTITY_REGISTRY_ACCOUNTS) := by
  intro b m r
  have hempty : ((∅ : OrdMap AccountId IdentityRecord)).entries = [] := rfl
  have hunit : ∀ e : AccountId × IdentityRecord, IdentityAccountOk e →
      IDENTITY_ACCOUNT_SIZE ≤ (writeIdentityAccount e).length := by
    rintro e ⟨-, -, hrec, hauth⟩
    obtain ⟨_, hrecKey⟩ := Option.isSome_iff_exists.mp hrec
    obtain ⟨_, hauthKey⟩ := Option.isSome_iff_exists.mp hauth
    have h₁ := (key_of_computeKeyId hrecKey).2
    have h₂ := (key_of_computeKeyId hauthKey).2
    simp only [IdentityKeyPurpose.publicSize] at h₁ h₂
    simp [writeIdentityAccount, writePublic, IDENTITY_ACCOUNT_SIZE, h₁, h₂, e.1.2,
      e.2.recoveryKey.ed25519.2, e.2.authorizationKey.ed25519.2, e.2.kemPackageId.2]
  have hloop : ∀ n b, readIdentityAccounts n none {} b = some (m, r) ↔
      (m.WellFormed ∧ m.accounts.size = n) ∧
        b = Reader.concat writeIdentityAccount m.accounts.entries ++ r := by
    intro n b
    rw [readIdentityAccounts_iff n none {} RegistryMaps.wellFormed_empty (by simp [hempty]),
      Reader.mapN_exact readIdentityAccount_exact n b m.accounts r]
    constructor
    · rintro ⟨⟨⟨hsize, -⟩, rfl⟩, hm⟩
      exact ⟨⟨hm, hsize⟩, rfl⟩
    · rintro ⟨⟨hm, hsize⟩, rfl⟩
      exact ⟨⟨⟨hsize, fun e he => hm.accountOk he⟩, rfl⟩, hm⟩
  simp only [readIdentityRegistry, Reader.count_exact.bind, Reader.require_bind, Reader.fits_bind,
    hloop, identityRegistryBytes]
  constructor
  · rintro ⟨n, _, -, rfl, hmax, -, ⟨hm, rfl⟩, rfl⟩
    exact ⟨⟨hm, hmax⟩, by simp⟩
  · rintro ⟨⟨hm, hmax⟩, rfl⟩
    refine ⟨m.accounts.size, _, ?_, by simp, hmax, ?_, ⟨hm, rfl⟩, rfl⟩
    · unfold MAX_IDENTITY_REGISTRY_ACCOUNTS at hmax
      omega
    · rw [Nat.le_div_iff_mul_le (by decide), List.length_append]
      have hlen : m.accounts.entries.length * IDENTITY_ACCOUNT_SIZE ≤
          (Reader.concat writeIdentityAccount m.accounts.entries).length :=
        Reader.mul_length_le_concat fun e he => hunit e (hm.accountOk he)
      rw [OrdMap.size]
      omega

def deserializeIdentityRegistry (b : Bytes) : Option IdentityRegistry :=
  match h : readIdentityRegistry.whole b with
  | none => none
  | some m => some ⟨m, ((readIdentityRegistry_exact.whole).mp h).1.1⟩

theorem deserializeIdentityRegistry_eq_some {b : Bytes} {registry : IdentityRegistry} :
    deserializeIdentityRegistry b = some registry ↔
      registry.accounts.size ≤ MAX_IDENTITY_REGISTRY_ACCOUNTS ∧
        b = identityRegistryBytes registry.toRegistryMaps := by
  have hwhole := readIdentityRegistry_exact.whole (b := b) (a := registry.toRegistryMaps)
  simp only [registry.wellFormed, true_and] at hwhole
  rw [← hwhole]
  unfold deserializeIdentityRegistry
  split
  · next h => simp [h]
  · next m h =>
    simp only [h, Option.some.injEq]
    exact ⟨fun heq => heq ▸ rfl, fun heq => IdentityRegistry.ext_maps heq⟩

end

end Cybou
