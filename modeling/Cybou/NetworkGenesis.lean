import Cybou.Library.Cursor
import Cybou.Identity

/-! # The signed genesis of a network and its codec (`network_genesis.cpp`)

The payload holds the network key behind its length, the PoA key with the length of its
ML-DSA part only, and seventeen parameters.  The length inside each key tells where it
ends, so the payload can be read in one way only, also where the outer length wrapped.
-/

namespace Cybou

open Library Checked

/-! ### Keys -/

def IdentityKeyPurpose.code : IdentityKeyPurpose → UInt8
  | .recoveryRoot => 1
  | .authorization => 2
  | .poaFinalizer => 7
  | .storage => 8
  | .networkRoot => 9

def IdentityKeyPurpose.ofCode (code : UInt8) : Option IdentityKeyPurpose :=
  [IdentityKeyPurpose.recoveryRoot, .authorization, .poaFinalizer, .storage, .networkRoot].find?
    fun purpose => decide (purpose.code = code)

/-- `IdentityHybridPublicKey` as a genesis holds it: the reader takes any byte for the
    purpose of the PoA key. -/
structure GenesisPublicKey where
  purpose : UInt8
  ed25519 : FixedBytes 32
  mlDsa : Bytes
deriving DecidableEq, Repr

def canonicalSerializeHybridPublicKey (key : GenesisPublicKey) : Bytes :=
  [key.purpose] ++ key.ed25519.1 ++ le32Of key.mlDsa.length ++ key.mlDsa

def canonicalDeserializeHybridPublicKey (b : Bytes) (expectedPurpose : Option IdentityKeyPurpose) :
    Checked GenesisPublicKey :=
  if b.length < 1 + 32 + 4 then refuse
  else do
    let purpose ← byteAt b 0
    if expectedPurpose.any (fun expected => decide (expected.code ≠ purpose)) = true then refuse
    else
      match IdentityKeyPurpose.ofCode purpose with
      | none => refuse
      | some role => do
        let ed25519 ← fixedAt 32 b 1
        let mlDsaLength ← u32At b 33
        if 37 + mlDsaLength.toNat ≠ b.length then refuse
        else if mlDsaLength.toNat ≠ role.publicSize then refuse
        else do
          let mlDsa ← tailAt b 37
          return { purpose, ed25519, mlDsa }

def canonicalDeserializeNetworkPublicKey (b : Bytes) : Checked GenesisPublicKey :=
  canonicalDeserializeHybridPublicKey b (some .networkRoot)

/-! ### Parameters -/

def serializeProtocolParameters (p : CybouProtocolParameters) : Bytes :=
  le32 p.accountCreationWorkBits ++ le64 p.accountCreationEpochLag ++ le32 p.maxAccountCreatesPerBlock ++
    le64 p.onboardingBonus ++ le64 p.epochBlocks ++ le64 p.paymentFee ++
    le64 p.rootPublicationFeePerStartedKib ++ le64 p.rootPublicationFeePerChunk ++ le32 p.nameClaimWorkBits ++
    le64 p.nameCommitMinDepth ++ le64 p.nameCommitMaxLifetime ++ le32 p.maxPendingNameCommits ++
    [if p.identityKemXwingEnabled = true then 1 else 0] ++ le64 p.storageRatePerGibDayReplica ++
    [p.storageReplicaTarget] ++ le64 p.storageSettlementPeriodSeconds ++ le32 p.maxStorageLeasePeriods

def ParameterFields :=
  UInt32 × UInt64 × UInt32 × UInt64 × UInt64 × UInt64 × UInt64 × UInt64 × UInt32 × UInt64 × UInt64 × UInt32 ×
    UInt8 × UInt64 × UInt8 × UInt64 × UInt32

open CursorField in
/-- The reads, all of them made before the first is looked at. -/
def parameterFields : CursorField ParameterFields :=
  u32.and <| u64.and <| u32.and <| u64.and <| u64.and <| u64.and <| u64.and <| u64.and <| u32.and <| u64.and <|
    u64.and <| u32.and <| u8.and <| u64.and <| u8.and <| u64.and u32

/-- The parameters of the fields; the flag is zero or one. -/
def parametersOf : ParameterFields → Option CybouProtocolParameters
  | (accountCreationWorkBits, accountCreationEpochLag, maxAccountCreatesPerBlock, onboardingBonus, epochBlocks,
      paymentFee, rootPublicationFeePerStartedKib, rootPublicationFeePerChunk, nameClaimWorkBits, nameCommitMinDepth,
      nameCommitMaxLifetime, maxPendingNameCommits, kemXwing, storageRatePerGibDayReplica, storageReplicaTarget,
      storageSettlementPeriodSeconds, maxStorageLeasePeriods) =>
    if kemXwing > 1 then none
    else some
      { accountCreationWorkBits, accountCreationEpochLag, maxAccountCreatesPerBlock, onboardingBonus, epochBlocks
        paymentFee, rootPublicationFeePerStartedKib, rootPublicationFeePerChunk, nameClaimWorkBits
        nameCommitMinDepth, nameCommitMaxLifetime, maxPendingNameCommits
        identityKemXwingEnabled := decide (kemXwing = 1), storageRatePerGibDayReplica, storageReplicaTarget
        storageSettlementPeriodSeconds, maxStorageLeasePeriods }

/-! ### The genesis -/

structure NetworkGenesis where
  networkPublicKey : GenesisPublicKey
  genesisStateRoot : Hash256
  poaFinalizerPublicKey : GenesisPublicKey
  protocolParameters : CybouProtocolParameters
  signature : IdentityHybridSignature
deriving DecidableEq, Repr

def serializeNetworkGenesisPayload (genesis : NetworkGenesis) : Bytes :=
  let networkKey := canonicalSerializeHybridPublicKey genesis.networkPublicKey
  le32Of networkKey.length ++ networkKey ++ genesis.genesisStateRoot.1 ++
    canonicalSerializeHybridPublicKey genesis.poaFinalizerPublicKey ++
    serializeProtocolParameters genesis.protocolParameters

def serializeGenesisSignature (signature : IdentityHybridSignature) : Bytes :=
  signature.ed25519.1 ++ le32Of signature.mlDsa.length ++ signature.mlDsa

def serializeSignedNetworkGenesis (genesis : NetworkGenesis) : Bytes :=
  serializeNetworkGenesisPayload genesis ++ serializeGenesisSignature genesis.signature

def parsePoaKey (b : Bytes) (pos : Nat) : Checked (GenesisPublicKey × Nat) := do
  let (purpose, pos) ← CursorField.u8.need b pos
  if pos + 32 + 4 > b.length then refuse
  else do
    let ed25519 ← fixedAt 32 b pos
    let (mlDsaLength, pos) ← CursorField.u32.need b (pos + 32)
    if pos + mlDsaLength.toNat > b.length then refuse
    else do
      let mlDsa ← bytesAt mlDsaLength.toNat b pos
      return ({ purpose, ed25519, mlDsa }, pos + mlDsaLength.toNat)

def parseGenesisSignature (b : Bytes) (pos : Nat) : Checked IdentityHybridSignature :=
  if pos + 64 + 4 > b.length then refuse
  else do
    let ed25519 ← fixedAt 64 b pos
    let (mlDsaLength, pos) ← CursorField.u32.need b (pos + 64)
    if pos + mlDsaLength.toNat ≠ b.length then refuse
    else do
      let mlDsa ← tailAt b pos
      return { ed25519, mlDsa }

def parseSignedNetworkGenesis (b : Bytes) : Checked NetworkGenesis := do
  let (networkKeyLength, pos) ← CursorField.u32.need b 0
  if pos + networkKeyLength.toNat > b.length then refuse
  else do
    let networkKey ← bytesAt networkKeyLength.toNat b pos
    let networkPublicKey ← canonicalDeserializeNetworkPublicKey networkKey
    let (genesisStateRoot, pos) ← (CursorField.fixed 32).need b (pos + networkKeyLength.toNat)
    let (poaFinalizerPublicKey, pos) ← parsePoaKey b pos
    let (fields, pos) ← parameterFields.need b pos
    match parametersOf fields with
    | none => refuse
    | some protocolParameters => do
      let signature ← parseGenesisSignature b pos
      return { networkPublicKey, genesisStateRoot, poaFinalizerPublicKey, protocolParameters, signature }

def deserializeSignedNetworkGenesis (b : Bytes) : Option NetworkGenesis := (parseSignedNetworkGenesis b).toOption

section

variable [Crypto]

def computeNetworkGenesisDigest (genesis : NetworkGenesis) : Hash256 :=
  Crypto.sha256 (ascii "CYBOU/GENESIS" ++ serializeNetworkGenesisPayload genesis)

inductive NetworkGenesisError where
  | none
  | invalidNetworkKey
  | nullGenesisStateRoot
  | invalidPoaKey
  | invalidProtocolParameters
  | invalidSignature
deriving DecidableEq, Repr

/-- The key has this role, the size of it and an Ed25519 part that is not zero. -/
def GenesisPublicKey.fits (key : GenesisPublicKey) (role : IdentityKeyPurpose) : Bool :=
  decide (key.purpose = role.code) && decide (key.mlDsa.length = 1952) && !isZero key.ed25519.1

def verifySignedNetworkGenesis (genesis : NetworkGenesis) : NetworkGenesisError :=
  if genesis.networkPublicKey.fits .networkRoot = false then .invalidNetworkKey
  else if genesis.genesisStateRoot.isNull = true then .nullGenesisStateRoot
  else if genesis.poaFinalizerPublicKey.fits .poaFinalizer = false then .invalidPoaKey
  else if validateProtocolParameters genesis.protocolParameters = false then .invalidProtocolParameters
  else if verifyIdentityMessage
      { purpose := .networkRoot, ed25519 := genesis.networkPublicKey.ed25519, mlDsa := genesis.networkPublicKey.mlDsa }
      genesis.signature (computeNetworkGenesisDigest genesis).1 = false then .invalidSignature
  else .none

end

/-! ### What the readers accept -/

theorem IdentityKeyPurpose.ofCode_code (role : IdentityKeyPurpose) : ofCode role.code = some role := by
  cases role <;> rfl

theorem le32_eq_le32Of {v : UInt32} {n : Nat} (h : v.toNat = n) : le32 v = le32Of n := by
  rw [le32Of, ← h, UInt32.ofNat_toNat]

variable {key : GenesisPublicKey} {b : Bytes} {pos : Nat}

theorem hybridPublicKey_here :
    canonicalSerializeHybridPublicKey key <+: b.drop pos ↔
      [key.purpose] <+: b.drop pos ∧ key.ed25519.1 <+: b.drop (pos + 1) ∧
        le32Of key.mlDsa.length <+: b.drop (pos + 1 + 32) ∧ key.mlDsa <+: b.drop (pos + 1 + 32 + 4) := by
  have hed : key.ed25519.1.length = 32 := key.ed25519.2
  simp only [canonicalSerializeHybridPublicKey, append_prefix_drop, List.length_append, length_le32Of, hed,
    List.length_singleton, and_assoc, Nat.add_assoc]

theorem length_hybridPublicKey (key : GenesisPublicKey) :
    (canonicalSerializeHybridPublicKey key).length = 1 + 32 + 4 + key.mlDsa.length := by
  simp only [canonicalSerializeHybridPublicKey, List.length_append, length_le32Of, key.ed25519.2,
    List.length_singleton]

theorem canonicalDeserializeHybridPublicKey_ok {role : IdentityKeyPurpose} :
    canonicalDeserializeHybridPublicKey b (some role) = .ok key ↔
      key.purpose = role.code ∧ key.mlDsa.length = role.publicSize ∧ b = canonicalSerializeHybridPublicKey key := by
  have hsize : role.publicSize < 2 ^ 32 := by cases role <;> decide
  obtain ⟨purpose, ed25519, mlDsa⟩ := key
  unfold canonicalDeserializeHybridPublicKey
  simp only [ite_refuse_ok, bind_ok, byteAt_ok, Option.any_some, decide_eq_true_eq, not_not]
  constructor
  · rintro ⟨hlength, _, hpurpose, rfl, h⟩
    simp only [IdentityKeyPurpose.ofCode_code, bind_ok, ite_refuse_ok, fixedAt_ok (by decide : 0 < 32), u32At_ok,
      tailAt_ok, pure_ok, not_not] at h
    obtain ⟨ed, hed, mlDsaLength, hcount, hend, hrole, rest, ⟨_, rfl⟩, heq⟩ := h
    cases heq
    have hrest : (b.drop 37).length = mlDsaLength.toNat := by
      rw [List.length_drop]
      omega
    refine ⟨rfl, hrest.trans hrole, ?_⟩
    rw [le32_eq_le32Of hrest.symm] at hcount
    have hstart : canonicalSerializeHybridPublicKey ⟨role.code, ed25519, b.drop 37⟩ <+: b.drop 0 :=
      hybridPublicKey_here.mpr ⟨hpurpose, hed, hcount, List.prefix_rfl⟩
    refine (hstart.eq_of_length ?_).symm
    rw [length_hybridPublicKey, List.drop_zero]
    change 37 + (b.drop 37).length = b.length
    omega
  · rintro ⟨hpurpose, hrole, hb⟩
    change purpose = role.code at hpurpose
    change mlDsa.length = role.publicSize at hrole
    subst hpurpose
    have hlength := congrArg List.length hb
    rw [length_hybridPublicKey] at hlength
    change b.length = 37 + mlDsa.length at hlength
    have hcode : (UInt32.ofNat mlDsa.length).toNat = mlDsa.length := UInt32.toNat_ofNat_of_lt' (hrole ▸ hsize)
    obtain ⟨hpurpose, hed, hcount, hml⟩ := hybridPublicKey_here.mp
      (show canonicalSerializeHybridPublicKey ⟨role.code, ed25519, mlDsa⟩ <+: b.drop 0 from
        hb ▸ List.prefix_rfl)
    refine ⟨by omega, role.code, hpurpose, rfl, ?_⟩
    simp only [IdentityKeyPurpose.ofCode_code, bind_ok, ite_refuse_ok, fixedAt_ok (by decide : 0 < 32), u32At_ok,
      tailAt_ok, pure_ok, not_not]
    refine ⟨ed25519, hed, UInt32.ofNat mlDsa.length, hcount, by omega, by omega, mlDsa, ⟨by omega, ?_⟩, rfl⟩
    refine (hml.eq_of_length ?_).symm
    change mlDsa.length = _
    rw [List.length_drop]
    omega

theorem safe_canonicalDeserializeHybridPublicKey (b : Bytes) (expected : Option IdentityKeyPurpose) :
    Safe (canonicalDeserializeHybridPublicKey b expected) := by
  unfold canonicalDeserializeHybridPublicKey
  refine Safe.ite (fun _ => Safe.refuse) fun hlength => ?_
  refine (Safe.byteAt (by omega)).bind fun purpose _ => ?_
  refine Safe.ite (fun _ => Safe.refuse) fun _ => ?_
  split
  · exact Safe.refuse
  refine (Safe.fixedAt (by omega)).bind fun _ _ => (Safe.u32At (by omega)).bind fun _ _ => ?_
  refine Safe.ite (fun _ => Safe.refuse) fun _ => Safe.ite (fun _ => Safe.refuse) fun _ => ?_
  exact (Safe.tailAt (by omega)).bind fun _ _ => Safe.pure _

theorem parsePoaKey_ok {last : Nat} :
    parsePoaKey b pos = .ok (key, last) ↔ key.mlDsa.length < 2 ^ 32 ∧
      canonicalSerializeHybridPublicKey key <+: b.drop pos ∧
        last = pos + (canonicalSerializeHybridPublicKey key).length := by
  obtain ⟨purpose, ed25519, mlDsa⟩ := key
  rw [hybridPublicKey_here, length_hybridPublicKey]
  simp only [parsePoaKey, bind_ok, ite_refuse_ok, fixedAt_ok (by decide : 0 < 32), pure_ok, bytesAt_ok_iff,
    Prod.exists, Prod.mk.injEq, GenesisPublicKey.mk.injEq, CursorField.u8_exact.need_ok, CursorField.u32_exact.need_ok,
    List.length_singleton, length_le32]
  constructor
  · rintro ⟨_, _, ⟨hpurpose, rfl⟩, _, _, hed, mlDsaLength, _, ⟨hcount, rfl⟩, _, _, ⟨hfits, hml, hstart⟩,
      ⟨rfl, rfl, rfl⟩, rfl⟩
    rw [le32_eq_le32Of hml.symm] at hcount
    exact ⟨hml ▸ mlDsaLength.toNat_lt, ⟨hpurpose, hed, hcount, hstart⟩, by omega⟩
  · rintro ⟨hlt, ⟨hpurpose, hed, hcount, hstart⟩, rfl⟩
    have hcode : (UInt32.ofNat mlDsa.length).toNat = mlDsa.length := UInt32.toNat_ofNat_of_lt' hlt
    have hcountFits := hcount.length_le
    have hfits := hstart.length_le
    rw [length_le32Of, List.length_drop] at hcountFits
    rw [List.length_drop] at hfits
    refine ⟨purpose, _, ⟨hpurpose, rfl⟩, by omega, ed25519, hed, UInt32.ofNat mlDsa.length, _, ⟨hcount, rfl⟩,
      by omega, mlDsa, ⟨by omega, hcode.symm, hstart⟩, ⟨rfl, rfl, rfl⟩, by omega⟩

theorem safe_parsePoaKey (b : Bytes) (pos : Nat) : Safe (parsePoaKey b pos) := by
  unfold parsePoaKey
  refine (CursorField.u8_exact.safe_need b pos).bind fun _ _ => ?_
  refine Safe.ite (fun _ => Safe.refuse) fun hfits => (Safe.fixedAt (by omega)).bind fun _ _ => ?_
  refine (CursorField.u32_exact.safe_need b _).bind fun _ _ => ?_
  refine Safe.ite (fun _ => Safe.refuse) fun hlast => ?_
  exact (Safe.bytesAt (by omega)).bind fun _ _ => Safe.pure _

/-- A signature is what is left of the input, and nothing else. -/
theorem parseGenesisSignature_ok {signature : IdentityHybridSignature} :
    parseGenesisSignature b pos = .ok signature ↔
      signature.mlDsa.length < 2 ^ 32 ∧ b.drop pos = serializeGenesisSignature signature := by
  obtain ⟨ed25519, mlDsa⟩ := signature
  have hed : ed25519.1.length = 64 := ed25519.2
  simp only [parseGenesisSignature, serializeGenesisSignature, bind_ok, ite_refuse_ok,
    fixedAt_ok (by decide : 0 < 64), tailAt_ok, pure_ok, Prod.exists, IdentityHybridSignature.mk.injEq,
    CursorField.u32_exact.need_ok, length_le32, not_not]
  constructor
  · rintro ⟨hfits, _, hstart, mlDsaLength, _, ⟨hcount, rfl⟩, hend, _, ⟨_, rfl⟩, rfl, rfl⟩
    have hlength : (b.drop (pos + 64 + 4)).length = mlDsaLength.toNat := by
      rw [List.length_drop]
      omega
    rw [le32_eq_le32Of hlength.symm] at hcount
    refine ⟨hlength ▸ mlDsaLength.toNat_lt, ?_⟩
    rw [List.append_assoc, drop_eq_append hstart, hed, drop_eq_append hcount, length_le32Of]
  · rintro ⟨hlt, hdrop⟩
    have hcode : (UInt32.ofNat mlDsa.length).toNat = mlDsa.length := UInt32.toNat_ofNat_of_lt' hlt
    have hlength := congrArg List.length hdrop
    simp only [List.length_append, List.length_drop, length_le32Of, hed] at hlength
    have hwhole := append_prefix_drop.mp
      (show ed25519.1 ++ le32Of mlDsa.length ++ mlDsa <+: b.drop pos from hdrop ▸ List.prefix_rfl)
    obtain ⟨hstart, hcount⟩ := append_prefix_drop.mp hwhole.1
    rw [hed] at hcount
    refine ⟨by omega, ed25519, hstart, UInt32.ofNat mlDsa.length, _, ⟨hcount, rfl⟩, by omega, mlDsa,
      ⟨by omega, ?_⟩, rfl, rfl⟩
    have hrest := hwhole.2
    rw [List.length_append, hed, length_le32Of, ← Nat.add_assoc] at hrest
    refine (hrest.eq_of_length ?_).symm
    rw [List.length_drop]
    omega

theorem safe_parseGenesisSignature (b : Bytes) (pos : Nat) : Safe (parseGenesisSignature b pos) := by
  unfold parseGenesisSignature
  refine Safe.ite (fun _ => Safe.refuse) fun hfits => (Safe.fixedAt (by omega)).bind fun _ _ => ?_
  refine (CursorField.u32_exact.safe_need b _).bind fun read hread => ?_
  refine Safe.ite (fun _ => Safe.refuse) fun hlast => ?_
  exact (Safe.tailAt (by omega)).bind fun _ _ => Safe.pure _

/-! ### The parameters -/

def fieldsOf (p : CybouProtocolParameters) : ParameterFields :=
  (p.accountCreationWorkBits, p.accountCreationEpochLag, p.maxAccountCreatesPerBlock, p.onboardingBonus,
    p.epochBlocks, p.paymentFee, p.rootPublicationFeePerStartedKib, p.rootPublicationFeePerChunk,
    p.nameClaimWorkBits, p.nameCommitMinDepth, p.nameCommitMaxLifetime, p.maxPendingNameCommits,
    if p.identityKemXwingEnabled = true then 1 else 0, p.storageRatePerGibDayReplica, p.storageReplicaTarget,
    p.storageSettlementPeriodSeconds, p.maxStorageLeasePeriods)

def writeFields : ParameterFields → Bytes
  | (workBits, epochLag, maxCreates, bonus, epochBlocks, paymentFee, perKib, perChunk, nameWork, minDepth,
      maxLifetime, maxPending, kemXwing, rate, replicas, period, leasePeriods) =>
    le32 workBits ++ (le64 epochLag ++ (le32 maxCreates ++ (le64 bonus ++ (le64 epochBlocks ++ (le64 paymentFee ++
      (le64 perKib ++ (le64 perChunk ++ (le32 nameWork ++ (le64 minDepth ++ (le64 maxLifetime ++ (le32 maxPending ++
        ([kemXwing] ++ (le64 rate ++ ([replicas] ++ (le64 period ++ le32 leasePeriods)))))))))))))))

open CursorField in
theorem parameterFields_exact : parameterFields.Exact writeFields :=
  u32_exact.and <| u64_exact.and <| u32_exact.and <| u64_exact.and <| u64_exact.and <| u64_exact.and <|
    u64_exact.and <| u64_exact.and <| u32_exact.and <| u64_exact.and <| u64_exact.and <| u32_exact.and <|
    u8_exact.and <| u64_exact.and <| u8_exact.and <| u64_exact.and u32_exact

theorem writeFields_fieldsOf (p : CybouProtocolParameters) :
    writeFields (fieldsOf p) = serializeProtocolParameters p := by
  -- the equation lemma of the long sum is slow to make
  delta serializeProtocolParameters
  simp only [fieldsOf, writeFields, List.append_assoc]

theorem length_serializeProtocolParameters (p : CybouProtocolParameters) :
    (serializeProtocolParameters p).length = 102 := by
  delta serializeProtocolParameters
  simp only [List.length_append, length_le32, length_le64, List.length_singleton]

theorem flag_eq {flag : UInt8} {enabled : Bool} :
    ¬flag > 1 ∧ decide (flag = 1) = enabled ↔ flag = if enabled = true then 1 else 0 := by
  cases enabled <;> grind

variable {p : CybouProtocolParameters}

theorem parametersOf_eq_some {fields : ParameterFields} :
    parametersOf fields = some p ↔ fields = fieldsOf p := by
  obtain ⟨workBits, epochLag, maxCreates, bonus, epochBlocks, paymentFee, perKib, perChunk, nameWork, minDepth,
    maxLifetime, maxPending, kemXwing, rate, replicas, period, leasePeriods⟩ := fields
  obtain ⟨⟩ := p
  simp only [ParameterFields, parametersOf, fieldsOf, Prod.mk.injEq, Option.ite_none_left_eq_some, Option.some.injEq,
    CybouProtocolParameters.mk.injEq, ← flag_eq]
  tauto

theorem parameters_ok {last : Nat} {fields : ParameterFields} :
    parameterFields.need b pos = .ok (fields, last) ∧ parametersOf fields = some p ↔
      fields = fieldsOf p ∧ serializeProtocolParameters p <+: b.drop pos ∧ last = pos + 102 := by
  rw [parametersOf_eq_some, parameterFields_exact.need_ok]
  constructor
  · rintro ⟨⟨hstart, rfl⟩, rfl⟩
    rw [writeFields_fieldsOf] at hstart ⊢
    exact ⟨rfl, hstart, by rw [length_serializeProtocolParameters]⟩
  · rintro ⟨rfl, hstart, rfl⟩
    rw [writeFields_fieldsOf, length_serializeProtocolParameters]
    exact ⟨⟨hstart, rfl⟩, rfl⟩

/-! ### The payload and the whole -/

variable {genesis : NetworkGenesis}

theorem payload_prefix :
    serializeNetworkGenesisPayload genesis <+: b.drop pos ↔
      let networkKey := canonicalSerializeHybridPublicKey genesis.networkPublicKey
      let poaKey := canonicalSerializeHybridPublicKey genesis.poaFinalizerPublicKey
      le32Of networkKey.length <+: b.drop pos ∧ networkKey <+: b.drop (pos + 4) ∧
        genesis.genesisStateRoot.1 <+: b.drop (pos + 4 + networkKey.length) ∧
        poaKey <+: b.drop (pos + 4 + networkKey.length + 32) ∧
        serializeProtocolParameters genesis.protocolParameters <+:
          b.drop (pos + 4 + networkKey.length + 32 + poaKey.length) := by
  have hroot : genesis.genesisStateRoot.1.length = 32 := genesis.genesisStateRoot.2
  simp only [serializeNetworkGenesisPayload, append_prefix_drop, List.length_append, length_le32Of, hroot,
    and_assoc, Nat.add_assoc]

theorem length_payload (genesis : NetworkGenesis) :
    (serializeNetworkGenesisPayload genesis).length =
      4 + (canonicalSerializeHybridPublicKey genesis.networkPublicKey).length + 32 +
        (canonicalSerializeHybridPublicKey genesis.poaFinalizerPublicKey).length + 102 := by
  simp only [serializeNetworkGenesisPayload, List.length_append, length_le32Of, genesis.genesisStateRoot.2,
    length_serializeProtocolParameters]

structure NetworkGenesis.Readable (genesis : NetworkGenesis) : Prop where
  networkPurpose : genesis.networkPublicKey.purpose = IdentityKeyPurpose.networkRoot.code
  networkMlDsa : genesis.networkPublicKey.mlDsa.length = 1952
  poaMlDsa : genesis.poaFinalizerPublicKey.mlDsa.length < 2 ^ 32
  signatureMlDsa : genesis.signature.mlDsa.length < 2 ^ 32

theorem signed_of_payload (hpayload : serializeNetworkGenesisPayload genesis <+: b.drop 0)
    (hsignature : b.drop (serializeNetworkGenesisPayload genesis).length =
      serializeGenesisSignature genesis.signature) :
    b = serializeSignedNetworkGenesis genesis := by
  have hsplit := drop_eq_append hpayload
  rwa [Nat.zero_add, hsignature] at hsplit

theorem parseSignedNetworkGenesis_ok :
    parseSignedNetworkGenesis b = .ok genesis ↔
      genesis.Readable ∧ b = serializeSignedNetworkGenesis genesis := by
  obtain ⟨networkKey, stateRoot, poaKey, params, signature⟩ := genesis
  simp only [parseSignedNetworkGenesis, bind_ok, ite_refuse_ok, bytesAt_ok_iff, Prod.exists,
    CursorField.u32_exact.need_ok, (CursorField.fixed_exact (by decide : 0 < 32)).need_ok, parsePoaKey_ok,
    canonicalDeserializeNetworkPublicKey, canonicalDeserializeHybridPublicKey_ok, length_le32, Nat.zero_add]
  constructor
  · rintro ⟨length, _, ⟨hlength, rfl⟩, hfits, _, ⟨_, hsize, hkey⟩, key, ⟨hpurpose, hmlDsa, rfl⟩, root, _,
      ⟨hroot, rfl⟩, poa, _, ⟨hpoaSize, hpoa, rfl⟩, fields, last, hfields, h⟩
    cases hparams : parametersOf fields with
    | none =>
      rw [hparams] at h
      cases h
    | some p =>
      rw [hparams] at h
      simp only [bind_ok, pure_ok, NetworkGenesis.mk.injEq, parseGenesisSignature_ok] at h
      obtain ⟨sig, ⟨hsigSize, hsig⟩, rfl, rfl, rfl, rfl, rfl⟩ := h
      obtain ⟨rfl, hp, rfl⟩ := parameters_ok.mp ⟨hfields, hparams⟩
      rw [root.2] at hpoa hp hsig
      rw [le32_eq_le32Of hsize.symm] at hlength
      rw [← hsize] at hroot hpoa hp hsig
      refine ⟨⟨hpurpose, hmlDsa, hpoaSize, hsigSize⟩, signed_of_payload ?_ ?_⟩
      · exact payload_prefix.mpr ⟨hlength, hkey, hroot, hpoa, hp⟩
      · rw [length_payload]
        exact hsig
  · rintro ⟨⟨hpurpose, hmlDsa, hpoaSize, hsigSize⟩, hb⟩
    have hwhole := append_prefix_drop.mp
      (show serializeSignedNetworkGenesis ⟨networkKey, stateRoot, poaKey, params, signature⟩ <+: b.drop 0 from
        hb ▸ List.prefix_rfl)
    obtain ⟨hlength, hkey, hroot, hpoa, hp⟩ := payload_prefix.mp hwhole.1
    have hsig : b.drop (0 + (serializeNetworkGenesisPayload
        ⟨networkKey, stateRoot, poaKey, params, signature⟩).length) = serializeGenesisSignature signature := by
      rw [hb, Nat.zero_add, serializeSignedNetworkGenesis, List.drop_left]
    simp only [length_payload, Nat.zero_add] at hlength hkey hroot hpoa hp hsig
    have hkeySize : (canonicalSerializeHybridPublicKey networkKey).length = 1989 := by
      rw [length_hybridPublicKey, show networkKey.mlDsa.length = 1952 from hmlDsa]
    have hfits := hkey.length_le
    rw [hkeySize, List.length_drop] at hfits
    rw [hkeySize] at hlength hroot hpoa hp hsig
    have hcode : (UInt32.ofNat 1989).toNat = 1989 := by decide
    refine ⟨UInt32.ofNat 1989, _, ⟨hlength, rfl⟩, by omega, _, ⟨by omega, hkeySize.trans hcode.symm, hkey⟩,
      networkKey, ⟨hpurpose, hmlDsa, rfl⟩, stateRoot, _, ⟨hroot, rfl⟩, poaKey, _, ⟨hpoaSize, ?_, rfl⟩,
      fieldsOf params, _, (parameters_ok.mpr ⟨rfl, ?_, rfl⟩).1, ?_⟩
    · rw [stateRoot.2]
      exact hpoa
    · rw [stateRoot.2]
      exact hp
    · rw [parametersOf_eq_some.mpr rfl]
      simp only [bind_ok, pure_ok, parseGenesisSignature_ok]
      refine ⟨signature, ⟨hsigSize, ?_⟩, rfl⟩
      rw [stateRoot.2]
      exact hsig

theorem safe_parseSignedNetworkGenesis (b : Bytes) : Safe (parseSignedNetworkGenesis b) := by
  unfold parseSignedNetworkGenesis
  refine (CursorField.u32_exact.safe_need b 0).bind fun _ _ => ?_
  refine Safe.ite (fun _ => Safe.refuse) fun hfits => (Safe.bytesAt (by omega)).bind fun _ _ => ?_
  refine (safe_canonicalDeserializeHybridPublicKey _ _).bind fun _ _ => ?_
  refine ((CursorField.fixed_exact (by decide : 0 < 32)).safe_need b _).bind fun _ _ => ?_
  refine (safe_parsePoaKey b _).bind fun _ _ => (parameterFields_exact.safe_need b _).bind fun ⟨fields, pos⟩ _ => ?_
  change Safe (match parametersOf fields with | none => refuse | some protocolParameters => _)
  cases parametersOf fields with
  | none => exact Safe.refuse
  | some p => exact (safe_parseGenesisSignature b pos).bind fun _ _ => Safe.pure _

theorem deserializeSignedNetworkGenesis_eq_some :
    deserializeSignedNetworkGenesis b = some genesis ↔
      genesis.Readable ∧ b = serializeSignedNetworkGenesis genesis := by
  rw [← parseSignedNetworkGenesis_ok, deserializeSignedNetworkGenesis]
  cases parseSignedNetworkGenesis b with
  | ok a => simp [Except.toOption]
  | error e => simp [Except.toOption]

theorem hybridPublicKey_unique {key' : GenesisPublicKey}
    (hsize : key.mlDsa.length < 2 ^ 32) (hsize' : key'.mlDsa.length < 2 ^ 32)
    (h : canonicalSerializeHybridPublicKey key <+: b.drop pos)
    (h' : canonicalSerializeHybridPublicKey key' <+: b.drop pos) : key = key' := by
  have hread := parsePoaKey_ok.mpr ⟨hsize, h, rfl⟩
  rw [parsePoaKey_ok.mpr ⟨hsize', h', rfl⟩] at hread
  cases hread
  rfl

theorem parameters_unique {p' : CybouProtocolParameters}
    (h : serializeProtocolParameters p <+: b.drop pos) (h' : serializeProtocolParameters p' <+: b.drop pos) :
    p = p' := by
  rw [← writeFields_fieldsOf] at h h'
  have hfields := parameterFields_exact.unique h h'
  have hread := parametersOf_eq_some.mpr hfields
  rw [parametersOf_eq_some.mpr rfl] at hread
  exact Option.some.inj hread

theorem payload_injective {genesis' : NetworkGenesis}
    (hnetwork : genesis.networkPublicKey.mlDsa.length < 2 ^ 32)
    (hnetwork' : genesis'.networkPublicKey.mlDsa.length < 2 ^ 32)
    (hpoa : genesis.poaFinalizerPublicKey.mlDsa.length < 2 ^ 32)
    (hpoa' : genesis'.poaFinalizerPublicKey.mlDsa.length < 2 ^ 32)
    (h : serializeNetworkGenesisPayload genesis = serializeNetworkGenesisPayload genesis') :
    genesis.networkPublicKey = genesis'.networkPublicKey ∧ genesis.genesisStateRoot = genesis'.genesisStateRoot ∧
      genesis.poaFinalizerPublicKey = genesis'.poaFinalizerPublicKey ∧
      genesis.protocolParameters = genesis'.protocolParameters := by
  obtain ⟨-, hkey, hroot, hpoaKey, hparams⟩ := payload_prefix.mp
    (show serializeNetworkGenesisPayload genesis <+: (serializeNetworkGenesisPayload genesis).drop 0 from
      List.prefix_rfl)
  obtain ⟨-, hkey', hroot', hpoaKey', hparams'⟩ := payload_prefix.mp
    (show serializeNetworkGenesisPayload genesis' <+: (serializeNetworkGenesisPayload genesis).drop 0 from
      h ▸ List.prefix_rfl)
  have hnetworkKey := hybridPublicKey_unique hnetwork hnetwork' hkey hkey'
  rw [← hnetworkKey] at hroot' hpoaKey' hparams'
  have hpoaEq := hybridPublicKey_unique hpoa hpoa' hpoaKey hpoaKey'
  rw [← hpoaEq] at hparams'
  exact ⟨hnetworkKey, (CursorField.fixed_exact (by decide : 0 < 32)).unique hroot hroot', hpoaEq,
    parameters_unique hparams hparams'⟩

section

variable [Crypto]

theorem readable_of_verifySignedNetworkGenesis {genesis : NetworkGenesis}
    (h : verifySignedNetworkGenesis genesis = .none) : genesis.Readable := by
  unfold verifySignedNetworkGenesis at h
  split at h
  · cases h
  next hnetwork =>
  split at h
  · cases h
  split at h
  · cases h
  next hpoa =>
  split at h
  · cases h
  split at h
  · cases h
  next hsignature =>
  simp only [GenesisPublicKey.fits, Bool.not_eq_false, Bool.and_eq_true, decide_eq_true_eq] at hnetwork hpoa
  have hsize : genesis.signature.mlDsa.length = 3309 := by
    by_contra hsize
    exact hsignature (if_pos (.inr hsize))
  exact ⟨hnetwork.1.1, hnetwork.1.2, by omega, by omega⟩

/-- A verified genesis is read back, what is read was written, no read leaves the input, and
    a payload belongs to one network only. -/
theorem signedNetworkGenesis_exact :
    (∀ genesis, verifySignedNetworkGenesis genesis = .none →
      deserializeSignedNetworkGenesis (serializeSignedNetworkGenesis genesis) = some genesis) ∧
    (∀ b genesis, deserializeSignedNetworkGenesis b = some genesis → serializeSignedNetworkGenesis genesis = b) ∧
    (∀ b, Safe (parseSignedNetworkGenesis b)) ∧
    (∀ genesis genesis' : NetworkGenesis,
      genesis.networkPublicKey.mlDsa.length < 2 ^ 32 → genesis'.networkPublicKey.mlDsa.length < 2 ^ 32 →
      genesis.poaFinalizerPublicKey.mlDsa.length < 2 ^ 32 → genesis'.poaFinalizerPublicKey.mlDsa.length < 2 ^ 32 →
      serializeNetworkGenesisPayload genesis = serializeNetworkGenesisPayload genesis' →
      genesis.networkPublicKey = genesis'.networkPublicKey ∧ genesis.genesisStateRoot = genesis'.genesisStateRoot ∧
        genesis.poaFinalizerPublicKey = genesis'.poaFinalizerPublicKey ∧
        genesis.protocolParameters = genesis'.protocolParameters) := by
  refine ⟨fun genesis hverify => ?_, fun b genesis hread => ?_, safe_parseSignedNetworkGenesis,
    fun _ _ hnetwork hnetwork' hpoa hpoa' h => payload_injective hnetwork hnetwork' hpoa hpoa' h⟩
  · exact deserializeSignedNetworkGenesis_eq_some.mpr ⟨readable_of_verifySignedNetworkGenesis hverify, rfl⟩
  · exact (deserializeSignedNetworkGenesis_eq_some.mp hread).2.symm

end

section

attribute [local instance] Crypto.sample

def sampleNetworkGenesis : NetworkGenesis where
  networkPublicKey := { purpose := 9, ed25519 := FixedBytes.leading 31 1, mlDsa := List.replicate 1952 1 }
  genesisStateRoot := FixedBytes.leading 31 3
  poaFinalizerPublicKey := { purpose := 7, ed25519 := FixedBytes.leading 31 2, mlDsa := List.replicate 1952 2 }
  protocolParameters := devProtocolParameters
  signature := { ed25519 := FixedBytes.leading 63 1, mlDsa := List.replicate 3309 1 }

theorem verify_sampleNetworkGenesis : verifySignedNetworkGenesis sampleNetworkGenesis = .none := by
  have hnetwork : sampleNetworkGenesis.networkPublicKey.fits .networkRoot = true := by
    simp only [GenesisPublicKey.fits, sampleNetworkGenesis, List.length_replicate]
    decide
  have hpoa : sampleNetworkGenesis.poaFinalizerPublicKey.fits .poaFinalizer = true := by
    simp only [GenesisPublicKey.fits, sampleNetworkGenesis, List.length_replicate]
    decide
  have hroot : sampleNetworkGenesis.genesisStateRoot.isNull = false := by decide
  have hparams : validateProtocolParameters sampleNetworkGenesis.protocolParameters = true := by decide
  rw [verifySignedNetworkGenesis, hnetwork, hpoa, hroot, hparams, if_neg (by decide), if_neg (by decide),
    if_neg (by decide), if_neg (by decide), if_neg]
  rw [verifyIdentityMessage, if_neg]
  · decide
  · simp only [sampleNetworkGenesis, List.length_replicate]
    decide

theorem signedNetworkGenesis_exact_sample :
    deserializeSignedNetworkGenesis (serializeSignedNetworkGenesis sampleNetworkGenesis) =
      some sampleNetworkGenesis :=
  signedNetworkGenesis_exact.1 sampleNetworkGenesis verify_sampleNetworkGenesis

end

end Cybou
