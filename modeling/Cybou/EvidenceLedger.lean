import Cybou.PlacementRecords
import Cybou.RentAccrual

/-! # The ledger of provider evidence (`storage_evidence_ledger.cpp`)

One record for each provider is kept in memory and in a row of the application database,
with an index row that lists the providers.  A save stages the eviction of the provider
that was seen least recently, the index and the record in one batch, and memory follows
only when the batch was committed.  The time of the last successful check of a replica is
kept in memory alone.
-/

namespace Cybou

open Library PrivateApplicationStore

/-! ### Intervals between checks -/

def STORAGE_MAX_CREDITED_GAP_MS : Int64 := 24 * 60 * 60 * 1000

def STORAGE_BILLING_UNIT_BYTES : UInt64 := 512 * 1024

def storageBillingUnits (bytes : UInt64) : UInt64 :=
  bytes / STORAGE_BILLING_UNIT_BYTES + if bytes % STORAGE_BILLING_UNIT_BYTES ≠ 0 then 1 else 0

def storageVerifiedIntervalSeconds (previousMs nowMs maximumGapMs : Int64) : UInt64 :=
  if previousMs ≤ 0 ∨ nowMs ≤ previousMs ∨ maximumGapMs ≤ 0 then 0
  else
    let gap := nowMs - previousMs
    if gap ≤ maximumGapMs then (gap / 1000).toUInt64 else 0

/-! ### Records -/

def MAX_TRACKED_STORAGE_PROVIDERS : Nat := 1024

def MAX_TRACKED_REPLICA_CHECKS : Nat := 65536

structure StorageProviderEvidence where
  receipts : UInt64
  successes : UInt64
  failures : UInt64
  fullVerifications : UInt64
  lastSuccessMs : Int64
  lastFailureMs : Int64
  lastFullVerificationMs : Int64
  verifiedUnitSeconds : UInt64
  shadowReward : StorageRentAccumulator
deriving DecidableEq, Repr

namespace StorageProviderEvidence

/-- `StorageProviderEvidence{}`. -/
def empty : StorageProviderEvidence where
  receipts := 0
  successes := 0
  failures := 0
  fullVerifications := 0
  lastSuccessMs := 0
  lastFailureMs := 0
  lastFullVerificationMs := 0
  verifiedUnitSeconds := 0
  shadowReward := { cybou := 0, remainder := 0 }

def lastSeenMs (e : StorageProviderEvidence) : Int64 :=
  if e.lastSuccessMs < e.lastFailureMs then e.lastFailureMs else e.lastSuccessMs

/-- `EncodeEvidence`: ten little-endian 64-bit fields. -/
def encode (e : StorageProviderEvidence) : Bytes :=
  le64 e.receipts ++ le64 e.successes ++ le64 e.failures ++ le64 e.fullVerifications ++
    le64 e.lastSuccessMs.toUInt64 ++ le64 e.lastFailureMs.toUInt64 ++ le64 e.lastFullVerificationMs.toUInt64 ++
    le64 e.verifiedUnitSeconds ++ le64 e.shadowReward.cybou ++ le64 e.shadowReward.remainder

/-- The fields of `DecodeEvidence`. -/
def read : Reader StorageProviderEvidence := do
  let receipts ← Reader.u64
  let successes ← Reader.u64
  let failures ← Reader.u64
  let fullVerifications ← Reader.u64
  let lastSuccess ← Reader.u64
  let lastFailure ← Reader.u64
  let lastFullVerification ← Reader.u64
  let verifiedUnitSeconds ← Reader.u64
  let cybou ← Reader.u64
  let remainder ← Reader.u64
  Reader.require (remainder < rentDenominator)
  return { receipts, successes, failures, fullVerifications, lastSuccessMs := lastSuccess.toInt64,
           lastFailureMs := lastFailure.toInt64, lastFullVerificationMs := lastFullVerification.toInt64,
           verifiedUnitSeconds, shadowReward := { cybou, remainder } }

/-- `DecodeEvidence`. -/
def decode (bytes : Bytes) : Option StorageProviderEvidence := read.whole bytes

/-- What `CreditReplica` adds to a record, nothing where a sum does not fit. -/
def credited (e : StorageProviderEvidence) (units seconds : UInt64) : Option StorageProviderEvidence :=
  let (accrued, reward) := accrueStorageRent e.shadowReward units seconds 1
  if units > UINT64_MAX / seconds ∨ e.verifiedUnitSeconds > UINT64_MAX - units * seconds ∨ accrued = false then none
  else some { e with verifiedUnitSeconds := e.verifiedUnitSeconds + units * seconds, shadowReward := reward }

/-- The guard of `RecordEvidence`: does an update lower a counter? -/
def lowered (prior updated : StorageProviderEvidence) : Bool :=
  decide (updated.receipts < prior.receipts) || decide (updated.successes < prior.successes) ||
    decide (updated.failures < prior.failures) || decide (updated.fullVerifications < prior.fullVerifications) ||
    decide (updated.verifiedUnitSeconds < prior.verifiedUnitSeconds) ||
    decide (updated.shadowReward.cybou < prior.shadowReward.cybou) ||
    decide (updated.shadowReward.remainder ≥ rentDenominator)

end StorageProviderEvidence

/-! ### The ledger -/

/-- `StorageService::EvidenceLedger` over the database that it writes. -/
structure EvidenceLedger where
  db : PrivateApplicationStore
  evidence : OrdMap (FixedBytes 32) StorageProviderEvidence
  replicaVerifiedMs : OrdMap (ChunkId ×ₗ FixedBytes 32) Int64

namespace EvidenceLedger

def EVIDENCE_INDEX_KEY : Bytes := ascii "storage/evidence-index"

def evidenceKey (storageId : FixedBytes 32) : Bytes := ascii "storage/evidence/" ++ hex storageId.1

/-- `std::min_element`: the first of the providers that were seen least recently. -/
def leastSeen : List (FixedBytes 32 × StorageProviderEvidence) → Option (FixedBytes 32 × StorageProviderEvidence)
  | [] => none
  | entry :: rest =>
    match leastSeen rest with
    | none => some entry
    | some other => if other.2.lastSeenMs < entry.2.lastSeenMs then some other else some entry

section

variable (l : EvidenceLedger)

def evicted (storageId : FixedBytes 32) : Option (FixedBytes 32) :=
  if l.evidence.contains storageId = true then none
  else if l.evidence.size ≥ MAX_TRACKED_STORAGE_PROVIDERS then (leastSeen l.evidence.entries).map Prod.fst
  else none

def kept (storageId : FixedBytes 32) : OrdMap (FixedBytes 32) StorageProviderEvidence :=
  match l.evicted storageId with
  | none => l.evidence
  | some id => l.evidence.erase id

def savedIndex (storageId : FixedBytes 32) : List (FixedBytes 32) :=
  (l.kept storageId).entries.map Prod.fst ++ [storageId]

/-- What the batch of `SaveEvidenceLocked` stages, `none` where a change is refused. -/
def saveEdits (storageId : FixedBytes 32) (e : StorageProviderEvidence) : Option (List (Edit Bytes ApplicationRow)) :=
  if l.evidence.contains storageId = true then
    if l.db.canPut (evidenceKey storageId) e.encode = false then none
    else some [.put (evidenceKey storageId) (.value e.encode)]
  else
    let index := Reader.concat (fun id : FixedBytes 32 => id.1) (l.savedIndex storageId)
    if l.db.canPut EVIDENCE_INDEX_KEY index = false ∨ l.db.canPut (evidenceKey storageId) e.encode = false then none
    else some ((l.evicted storageId).toList.map (fun id => .erase (evidenceKey id)) ++
      [.put EVIDENCE_INDEX_KEY (.value index), .put (evidenceKey storageId) (.value e.encode)])

def saveEvidenceLocked (storageId : FixedBytes 32) (e : StorageProviderEvidence) (fate : Fate) : Bool × EvidenceLedger :=
  match l.saveEdits storageId e with
  | none => (false, l)
  | some edits =>
    let db := { l.db with rows := l.db.rows.write edits fate }
    if fate ≠ .done then (false, { l with db })
    else (true, { l with db, evidence := (l.kept storageId).set storageId e })

def evidenceOf (storageId : FixedBytes 32) : StorageProviderEvidence :=
  (l.evidence.find? storageId).getD .empty

/-- The time of the last successful check of a replica, 0 where none is remembered. -/
def previousMs (chunkId : ChunkId) (storageId : FixedBytes 32) : Int64 :=
  (l.replicaVerifiedMs.find? (toLex (chunkId, storageId))).getD 0

/-- Remember a successful check; a full table is cleared first. -/
def noteVerified (chunkId : ChunkId) (storageId : FixedBytes 32) (nowMs : Int64) : EvidenceLedger :=
  let key := toLex (chunkId, storageId)
  let table := if l.replicaVerifiedMs.contains key = false ∧ l.replicaVerifiedMs.size ≥ MAX_TRACKED_REPLICA_CHECKS then ∅
    else l.replicaVerifiedMs
  { l with replicaVerifiedMs := table.set key nowMs }

def creditReplica (storageId : FixedBytes 32) (chunkId : ChunkId) (storedBytes : UInt64) (nowMs : Int64) (fate : Fate) :
    Bool × EvidenceLedger :=
  if nowMs ≤ 0 ∨ l.db.unlocked = false then (false, l)
  else
    let previous := l.previousMs chunkId storageId
    -- a successful observation is never rewound
    if previous ≠ 0 ∧ nowMs ≤ previous then (true, l)
    else
      let seconds := storageVerifiedIntervalSeconds previous nowMs STORAGE_MAX_CREDITED_GAP_MS
      if seconds = 0 then (true, l.noteVerified chunkId storageId nowMs)
      else
        match (l.evidenceOf storageId).credited (storageBillingUnits storedBytes) seconds with
        | none => (false, l)
        | some e =>
          let (saved, l) := l.saveEvidenceLocked storageId e fate
          if saved = false then (false, l) else (true, l.noteVerified chunkId storageId nowMs)

def forgetReplica (storageId : FixedBytes 32) (chunkId : ChunkId) : EvidenceLedger :=
  { l with replicaVerifiedMs := l.replicaVerifiedMs.erase (toLex (chunkId, storageId)) }

def recordEvidence (storageId : FixedBytes 32) (update : StorageProviderEvidence → StorageProviderEvidence) (fate : Fate) :
    Bool × EvidenceLedger :=
  let prior := l.evidenceOf storageId
  let updated := update prior
  if prior.lowered updated = true then (false, l) else l.saveEvidenceLocked storageId updated fate

end

def loadLoop (db : PrivateApplicationStore) : List (FixedBytes 32) → OrdMap (FixedBytes 32) StorageProviderEvidence →
    OrdMap (FixedBytes 32) StorageProviderEvidence
  | [], evidence => evidence
  | id :: ids, evidence =>
    if evidence.size < MAX_TRACKED_STORAGE_PROVIDERS then
      match (db.get (evidenceKey id)).bind StorageProviderEvidence.decode with
      | none => loadLoop db ids evidence
      | some e => loadLoop db ids (evidence.emplace id e)
    else evidence

def loadEvidence (db : PrivateApplicationStore) : OrdMap (FixedBytes 32) StorageProviderEvidence :=
  match db.get EVIDENCE_INDEX_KEY with
  | none => ∅
  | some index => if index.length % 32 ≠ 0 then ∅ else loadLoop db (chunkIds (index.length / 32) index) ∅

def construct (db : PrivateApplicationStore) : EvidenceLedger where
  db
  evidence := loadEvidence db
  replicaVerifiedMs := ∅

end EvidenceLedger

/-! ### Intervals -/

theorem toInt_maximumGap : STORAGE_MAX_CREDITED_GAP_MS.toInt = 86400000 := by decide

theorem toNat_verifiedIntervalSeconds {previousMs nowMs : Int64} (hlater : previousMs.toInt < nowMs.toInt) :
    (storageVerifiedIntervalSeconds previousMs nowMs STORAGE_MAX_CREDITED_GAP_MS).toNat =
      if 0 < previousMs.toInt ∧ nowMs.toInt - previousMs.toInt ≤ 86400000 then
        ((nowMs.toInt - previousMs.toInt) / 1000).toNat else 0 := by
  have hgap := toInt_maximumGap
  have hzero : (0 : Int64).toInt = 0 := rfl
  unfold storageVerifiedIntervalSeconds
  simp only [Int64.le_iff_toInt_le, hzero, hgap]
  by_cases hpositive : 0 < previousMs.toInt
  · have hupper := nowMs.toInt_lt
    have hsub : (nowMs - previousMs).toInt = nowMs.toInt - previousMs.toInt := by
      rw [Int64.toInt_sub]
      exact Int.bmod_eq_of_le (by omega) (by omega)
    rw [if_neg (by omega), hsub]
    by_cases hshort : nowMs.toInt - previousMs.toInt ≤ 86400000
    · have hdiv : ((nowMs - previousMs) / 1000).toInt = (nowMs.toInt - previousMs.toInt) / 1000 := by
        have hthousand : (1000 : Int64).toInt = 1000 := by decide
        rw [Int64.toInt_div_of_ne_right _ _ (by decide), hsub, hthousand, Int.tdiv_eq_ediv_of_nonneg (by omega)]
      rw [if_pos hshort, if_pos ⟨hpositive, hshort⟩, Int64.toNat_toUInt64_of_le, Int64.toNatClampNeg, hdiv]
      rw [Int64.le_iff_toInt_le, hdiv, hzero]
      omega
    · rw [if_neg hshort, if_neg (fun h => hshort h.2)]
      rfl
  · rw [if_pos (.inl (by omega)), if_neg (fun h => hpositive h.1)]
    rfl

namespace StorageProviderEvidence

variable {e e' : StorageProviderEvidence}

/-- The remainder of the reward is one, which is what the reader asks for. -/
def Carried (e : StorageProviderEvidence) : Prop := e.shadowReward.Carried

theorem remainder_lt_iff {remainder : UInt64} :
    remainder < rentDenominator ↔ remainder.toNat < STORAGE_RENT_DENOMINATOR := by
  rw [UInt64.lt_iff_toNat_lt, rentDenominator_toNat]

theorem read_exact : Reader.Exact read encode Carried := by
  intro b e r
  simp only [read, Reader.u64_exact.bind, Reader.require_bind, Reader.pure_eq_some, true_and, remainder_lt_iff]
  constructor
  · rintro ⟨_, _, rfl, _, _, rfl, _, _, rfl, _, _, rfl, _, _, rfl, _, _, rfl, _, _, rfl, _, _, rfl, _, _, rfl, _, _, rfl,
      hcarried, rfl, rfl⟩
    refine ⟨hcarried, ?_⟩
    simp [encode]
  · rintro ⟨hcarried, rfl⟩
    exact ⟨_, _, by simp only [encode, List.append_assoc], _, _, rfl, _, _, rfl, _, _, rfl, _, _, rfl, _, _, rfl, _, _, rfl,
      _, _, rfl, _, _, rfl, _, _, rfl, hcarried, rfl, rfl⟩

/-- **A record is read back.** -/
theorem decode_encode (h : e.Carried) : decode e.encode = some e := by
  rw [decode, Reader.whole_eq_some, read_exact]
  exact ⟨h, (List.append_nil _).symm⟩

/-- **What a credit adds**: exactly its unit-seconds. -/
theorem credited_eq_some {units seconds : UInt64} (hseconds : seconds ≠ 0) (h : e.credited units seconds = some e') :
    e'.Carried ∧ e'.verifiedUnitSeconds.toNat = e.verifiedUnitSeconds.toNat + units.toNat * seconds.toNat := by
  unfold credited at h
  dsimp only at h
  rw [Option.ite_none_left_eq_some, Option.some.injEq] at h
  obtain ⟨hguard, rfl⟩ := h
  rw [not_or, not_or, Bool.not_eq_false, gt_iff_lt, gt_iff_lt, quotient_lt_iff hseconds, UInt64.not_lt, not_le] at hguard
  obtain ⟨hproduct, hsum, haccrued⟩ := hguard
  have hmax := toNat_UINT64_MAX
  constructor
  · by_cases hcarried : e.shadowReward.Carried
    · rcases accrueStorageRent_cases hcarried units seconds 1 with ⟨reward, hreward, hnormal, -, -⟩ | ⟨hsame, -⟩
      · unfold Carried
        rw [hreward]
        exact hnormal
      · rw [hsame] at haccrued
        cases haccrued
    · have hremainder : e.shadowReward.remainder ≥ rentDenominator := by
        rw [ge_iff_le, ← UInt64.not_lt, remainder_lt_iff]
        exact hcarried
      unfold accrueStorageRent at haccrued
      rw [if_pos hremainder] at haccrued
      cases haccrued
  · have hmul := toNat_mul_of_lt hproduct
    rw [UInt64.le_iff_toNat_le, UInt64.toNat_sub_of_le _ _ (UInt64.le_iff_toNat_le.mpr (by omega)), hmul] at hsum
    change (e.verifiedUnitSeconds + units * seconds).toNat = _
    rw [UInt64.toNat_add, hmul, Nat.mod_eq_of_lt (by omega)]

theorem carried_of_not_lowered (h : e.lowered e' = false) : e'.Carried := by
  simp only [lowered, Bool.or_eq_false_iff, decide_eq_false_iff_not, ge_iff_le, UInt64.not_le] at h
  exact remainder_lt_iff.mp h.2

end StorageProviderEvidence

end Cybou
