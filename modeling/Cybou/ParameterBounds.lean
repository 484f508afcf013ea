import Cybou.Transitions
import Mathlib.Tactic.Ring

/-! # What `ValidateProtocolParameters` says about the rent of a lease (`network_genesis.cpp`)

The guard divides by the product of the chunk limit, the replicas, the seconds of a
period and the periods of a lease.  That product is taken modulo `2^64`, so it can be
zero, and it can be small where the rent of the largest lease does not fit.  Below
`2^64` the guard does what it is for.
-/

namespace Cybou

/-! ### The function as it runs -/

/-- A division has no value where the divisor is zero. -/
def divide (a b : UInt64) : Option UInt64 := if b = 0 then none else some (a / b)

def rentProduct (params : CybouProtocolParameters) : UInt64 :=
  MAX_PUBLICATION_CHUNKS.toUInt64 * params.storageReplicaTarget.toUInt64 *
    params.storageSettlementPeriodSeconds * params.maxStorageLeasePeriods.toUInt64

/-- `divisor != 0 && value > max / divisor`. -/
def exceeds (value divisor : UInt64) : Option Bool :=
  if divisor = 0 then some false else (divide UINT64_MAX divisor).map fun bound => decide (value > bound)

/-- `ValidateProtocolParameters`, with `none` for a division by zero. -/
def runValidateProtocolParameters (params : CybouProtocolParameters) : Option Bool := do
  if params.accountCreationWorkBits > 256 then return false
  if params.maxAccountCreatesPerBlock = 0 then return false
  if params.epochBlocks = 0 then return false
  if params.storageRatePerGibDayReplica = 0 ∨ params.storageReplicaTarget = 0 ∨
      params.storageReplicaTarget > 16 ∨ params.storageSettlementPeriodSeconds = 0 ∨
      params.storageSettlementPeriodSeconds > 366 * 86400 ∨ params.maxStorageLeasePeriods = 0 then return false
  if params.storageRatePerGibDayReplica > (← divide UINT64_MAX (rentProduct params)) then return false
  let maxFeeKib : UInt64 := UInt64.ofNat ((ROOT_PUBLICATION_MAX_OPERATION_BYTES + 1023) / 1024)
  let perKib := params.rootPublicationFeePerStartedKib
  let perChunk := params.rootPublicationFeePerChunk
  if (← exceeds maxFeeKib perKib) then return false
  if (← exceeds MAX_PUBLICATION_CHUNKS.toUInt64 perChunk) then return false
  let maxByteFee := maxFeeKib * perKib
  let maxChunkFee := MAX_PUBLICATION_CHUNKS.toUInt64 * perChunk
  if maxChunkFee > UINT64_MAX - maxByteFee then return false
  if params.nameClaimWorkBits > 256 ∨ params.nameCommitMinDepth = 0 ∨
      params.nameCommitMaxLifetime < params.nameCommitMinDepth ∨ params.maxPendingNameCommits = 0 ∨
      params.maxPendingNameCommits > DEFAULT_MAX_PENDING_NAME_COMMITS then return false
  return true

/-! ### Checked 64-bit arithmetic -/

theorem divide_eq {b : UInt64} (h : b ≠ 0) (a : UInt64) : divide a b = some (a / b) := if_neg h

theorem quotient_lt_iff {a b : UInt64} (h : b ≠ 0) : UINT64_MAX / b < a ↔ 2 ^ 64 ≤ a.toNat * b.toNat := by
  have hpos : 0 < b.toNat := Nat.pos_of_ne_zero fun h₀ => h (UInt64.toNat_inj.mp h₀)
  rw [UInt64.lt_iff_toNat_lt, UInt64.toNat_div, toNat_UINT64_MAX, Nat.div_lt_iff_lt_mul hpos]
  omega

theorem exceeds_eq (a b : UInt64) : exceeds a b = some (decide (2 ^ 64 ≤ a.toNat * b.toNat)) := by
  unfold exceeds
  split
  · next h =>
    subst h
    rfl
  · next h =>
    rw [divide_eq h, Option.map_some, decide_eq_decide.mpr (quotient_lt_iff h)]

theorem checkedMul_eq (a b : UInt64) :
    checkedMul a b = if a.toNat * b.toNat < 2 ^ 64 then some (a * b) else none := by
  unfold checkedMul
  by_cases h : a = 0
  · subst h
    rw [if_neg (fun hor => hor.1 rfl), if_pos (by rw [UInt64.toNat_zero, Nat.zero_mul]; decide)]
  · have hguard : (a ≠ 0 ∧ b > UINT64_MAX / a) ↔ ¬a.toNat * b.toNat < 2 ^ 64 := by
      rw [and_iff_right h, gt_iff_lt, quotient_lt_iff h, Nat.mul_comm, not_lt]
    rw [if_congr hguard rfl rfl, ite_not]

theorem toNat_mul_of_lt {a b : UInt64} (h : a.toNat * b.toNat < 2 ^ 64) : (a * b).toNat = a.toNat * b.toNat := by
  rw [UInt64.toNat_mul, Nat.mod_eq_of_lt h]

theorem one_le_of_ne_zero {a : UInt32} (h : a ≠ 0) : 1 ≤ a := by
  rw [UInt32.le_iff_toNat_le]
  exact Nat.one_le_iff_ne_zero.mpr fun h₀ => h (UInt32.toNat_inj.mp h₀)

theorem ne_zero_of_one_le {a : UInt32} (h : 1 ≤ a) : a ≠ 0 := by
  rintro rfl
  exact absurd h (by decide)

/-! ### What is checked -/

/-- The checks before the division hold. -/
structure ReachesRent (params : CybouProtocolParameters) : Prop where
  work : params.accountCreationWorkBits.toNat ≤ 256
  creates : params.maxAccountCreatesPerBlock ≠ 0
  epoch : params.epochBlocks ≠ 0
  rate : params.storageRatePerGibDayReplica ≠ 0
  replicas : params.storageReplicaTarget ≠ 0
  replicasMax : params.storageReplicaTarget.toNat ≤ 16
  period : params.storageSettlementPeriodSeconds ≠ 0
  periodMax : params.storageSettlementPeriodSeconds.toNat ≤ 366 * 86400
  leasePeriods : params.maxStorageLeasePeriods ≠ 0

def FeesFit (params : CybouProtocolParameters) : Prop :=
  144 * params.rootPublicationFeePerStartedKib.toNat + 2 ^ 20 * params.rootPublicationFeePerChunk.toNat < 2 ^ 64

structure NamesAccepted (params : CybouProtocolParameters) : Prop where
  work : params.nameClaimWorkBits.toNat ≤ 256
  depth : params.nameCommitMinDepth ≠ 0
  lifetime : params.nameCommitMinDepth.toNat ≤ params.nameCommitMaxLifetime.toNat
  pending : params.maxPendingNameCommits ≠ 0
  pendingMax : params.maxPendingNameCommits.toNat ≤ 10000

section

variable {params : CybouProtocolParameters}

theorem runValidateProtocolParameters_early (h : ¬ReachesRent params) :
    runValidateProtocolParameters params = some false := by
  unfold runValidateProtocolParameters
  by_cases hwork : params.accountCreationWorkBits > 256
  · rw [if_pos hwork]
    rfl
  by_cases hcreates : params.maxAccountCreatesPerBlock = 0
  · rw [if_neg hwork, if_pos hcreates]
    rfl
  by_cases hepoch : params.epochBlocks = 0
  · rw [if_neg hwork, if_neg hcreates, if_pos hepoch]
    rfl
  rw [if_neg hwork, if_neg hcreates, if_neg hepoch]
  split
  · rfl
  next hrent =>
  push Not at hrent
  obtain ⟨hrate, hreplicas, hreplicasMax, hperiod, hperiodMax, hleases⟩ := hrent
  have hyear : (366 * 86400 : UInt64).toNat = 366 * 86400 := by decide
  rw [gt_iff_lt, UInt64.lt_iff_toNat_lt, hyear, not_lt] at hperiodMax
  exact absurd ⟨UInt32.le_iff_toNat_le.mp (UInt32.not_lt.mp hwork), hcreates, hepoch, hrate, hreplicas,
    UInt8.le_iff_toNat_le.mp hreplicasMax, hperiod, hperiodMax, hleases⟩ h

theorem feesFit_iff : FeesFit params ↔
    ¬2 ^ 64 ≤ 144 * params.rootPublicationFeePerStartedKib.toNat ∧
      ¬2 ^ 64 ≤ 2 ^ 20 * params.rootPublicationFeePerChunk.toNat ∧
      ¬MAX_PUBLICATION_CHUNKS.toUInt64 * params.rootPublicationFeePerChunk >
        UINT64_MAX - UInt64.ofNat 144 * params.rootPublicationFeePerStartedKib := by
  unfold FeesFit
  have hkib : (UInt64.ofNat 144).toNat = 144 := by decide
  have hchunks : MAX_PUBLICATION_CHUNKS.toUInt64.toNat = 2 ^ 20 := by decide
  by_cases hbytes : 144 * params.rootPublicationFeePerStartedKib.toNat < 2 ^ 64
  · by_cases hchunk : 2 ^ 20 * params.rootPublicationFeePerChunk.toNat < 2 ^ 64
    · have hbyteFee := toNat_mul_of_lt (a := UInt64.ofNat 144) (b := params.rootPublicationFeePerStartedKib)
        (by rw [hkib]; exact hbytes)
      have hchunkFee := toNat_mul_of_lt (a := MAX_PUBLICATION_CHUNKS.toUInt64)
        (b := params.rootPublicationFeePerChunk) (by rw [hchunks]; exact hchunk)
      have hle : UInt64.ofNat 144 * params.rootPublicationFeePerStartedKib ≤ UINT64_MAX := by
        rw [UInt64.le_iff_toNat_le, toNat_UINT64_MAX]
        have hlt := (UInt64.ofNat 144 * params.rootPublicationFeePerStartedKib).toNat_lt
        omega
      rw [gt_iff_lt, UInt64.lt_iff_toNat_lt, UInt64.toNat_sub_of_le _ _ hle, toNat_UINT64_MAX, hbyteFee, hchunkFee,
        hkib, hchunks]
      omega
    · omega
  · omega

theorem namesAccepted_iff : NamesAccepted params ↔
    ¬(params.nameClaimWorkBits > 256 ∨ params.nameCommitMinDepth = 0 ∨
      params.nameCommitMaxLifetime < params.nameCommitMinDepth ∨ params.maxPendingNameCommits = 0 ∨
      params.maxPendingNameCommits > DEFAULT_MAX_PENDING_NAME_COMMITS) := by
  have hmax : DEFAULT_MAX_PENDING_NAME_COMMITS.toNat = 10000 := by decide
  have hwork : (256 : UInt32).toNat = 256 := by decide
  simp only [not_or, gt_iff_lt, UInt32.lt_iff_toNat_lt, UInt64.lt_iff_toNat_lt, hmax, hwork, not_lt]
  exact ⟨fun h => ⟨h.work, h.depth, h.lifetime, h.pending, h.pendingMax⟩,
    fun ⟨work, depth, lifetime, pending, pendingMax⟩ => ⟨work, depth, lifetime, pending, pendingMax⟩⟩

theorem runValidateProtocolParameters_late (h : ReachesRent params) :
    (rentProduct params = 0 → runValidateProtocolParameters params = none) ∧
      (rentProduct params ≠ 0 → ∃ accepted, runValidateProtocolParameters params = some accepted ∧
        (accepted = true ↔ params.storageRatePerGibDayReplica.toNat * (rentProduct params).toNat < 2 ^ 64 ∧
          FeesFit params ∧ NamesAccepted params)) := by
  have hyear : (366 * 86400 : UInt64).toNat = 366 * 86400 := by decide
  have hwork : ¬params.accountCreationWorkBits > 256 := UInt32.not_lt.mpr (UInt32.le_iff_toNat_le.mpr h.work)
  have hrent : ¬(params.storageRatePerGibDayReplica = 0 ∨ params.storageReplicaTarget = 0 ∨
      params.storageReplicaTarget > 16 ∨ params.storageSettlementPeriodSeconds = 0 ∨
      params.storageSettlementPeriodSeconds > 366 * 86400 ∨ params.maxStorageLeasePeriods = 0) := by
    simp only [not_or, gt_iff_lt, UInt64.lt_iff_toNat_lt, hyear, not_lt]
    exact ⟨h.rate, h.replicas, UInt8.le_iff_toNat_le.mpr h.replicasMax, h.period, h.periodMax, h.leasePeriods⟩
  unfold runValidateProtocolParameters
  rw [if_neg hwork, if_neg h.creates, if_neg h.epoch, if_neg hrent]
  refine ⟨fun hzero => ?_, fun hne => ?_⟩
  · rw [divide, if_pos hzero]
    rfl
  · rw [divide_eq hne, ← Nat.not_le, ← quotient_lt_iff hne, feesFit_iff, namesAccepted_iff]
    dsimp only [Option.bind_eq_bind, Option.bind_some]
    rw [exceeds_eq, exceeds_eq]
    dsimp only [Option.bind_eq_bind, Option.bind_some]
    split
    · next hrate => exact ⟨false, rfl, iff_of_false Bool.noConfusion fun hand => hand.1 hrate⟩
    next hrate =>
    split
    · next hkib => exact ⟨false, rfl, iff_of_false Bool.noConfusion fun hand => hand.2.1.1 (of_decide_eq_true hkib)⟩
    next hkib =>
    split
    · next hchunk =>
      exact ⟨false, rfl, iff_of_false Bool.noConfusion fun hand => hand.2.1.2.1 (of_decide_eq_true hchunk)⟩
    next hchunk =>
    split
    · next hsum => exact ⟨false, rfl, iff_of_false Bool.noConfusion fun hand => hand.2.1.2.2 hsum⟩
    next hsum =>
    split
    · next hnames => exact ⟨false, rfl, iff_of_false Bool.noConfusion fun hand => hand.2.2 hnames⟩
    next hnames =>
    rw [decide_eq_true_eq] at hkib hchunk
    exact ⟨true, rfl, iff_of_true rfl ⟨hrate, ⟨hkib, hchunk, hsum⟩, hnames⟩⟩

/-! ### The rent of a lease -/

def replicaShare (unitSeconds rate : Nat) : Nat :=
  unitSeconds * rate / STORAGE_RENT_DENOMINATOR +
    (if unitSeconds * rate % STORAGE_RENT_DENOMINATOR ≠ 0 then 1 else 0)

theorem replicaShare_eq (unitSeconds rate : Nat) :
    replicaShare unitSeconds rate = (unitSeconds * rate + (STORAGE_RENT_DENOMINATOR - 1)) / STORAGE_RENT_DENOMINATOR := by
  unfold replicaShare STORAGE_RENT_DENOMINATOR
  split <;> omega

theorem replicaShare_mono {a b : Nat} (h : a ≤ b) (rate : Nat) : replicaShare a rate ≤ replicaShare b rate := by
  rw [replicaShare_eq, replicaShare_eq]
  exact Nat.div_le_div_right (Nat.add_le_add_right (Nat.mul_le_mul_right rate h) _)

theorem replicaShare_le (unitSeconds rate : Nat) : replicaShare unitSeconds rate ≤ unitSeconds * rate := by
  rw [replicaShare_eq]
  generalize unitSeconds * rate = numerator
  unfold STORAGE_RENT_DENOMINATOR
  omega

def EscrowFits (params : CybouProtocolParameters) (units periods : Nat) : Prop :=
  units * (periods * params.storageSettlementPeriodSeconds.toNat) < 2 ^ 64 ∧
    replicaShare (units * (periods * params.storageSettlementPeriodSeconds.toNat))
      params.storageRatePerGibDayReplica.toNat * params.storageReplicaTarget.toNat < 2 ^ 64

theorem EscrowFits.mono {units units' periods periods' : Nat} (h : EscrowFits params units' periods')
    (hunits : units ≤ units') (hperiods : periods ≤ periods') : EscrowFits params units periods := by
  have hle : units * (periods * params.storageSettlementPeriodSeconds.toNat) ≤
      units' * (periods' * params.storageSettlementPeriodSeconds.toNat) :=
    Nat.mul_le_mul hunits (Nat.mul_le_mul_right _ hperiods)
  exact ⟨hle.trans_lt h.1, (Nat.mul_le_mul_right _ (replicaShare_mono hle _)).trans_lt h.2⟩

theorem computeStorageLeaseEscrow_isSome_iff (h : ReachesRent params) {units periods : UInt32} (hunits : units ≠ 0)
    (hperiods : periods ≠ 0) :
    (computeStorageLeaseEscrow params units params.storageReplicaTarget periods).isSome = true ↔
      EscrowFits params units.toNat periods.toNat := by
  have hpos : ∀ {a : UInt32}, a ≠ 0 → 0 < a.toNat :=
    fun hne => Nat.pos_of_ne_zero fun h₀ => hne (UInt32.toNat_inj.mp h₀)
  have hreplicas : 0 < params.storageReplicaTarget.toNat :=
    Nat.pos_of_ne_zero fun h₀ => h.replicas (UInt8.toNat_inj.mp h₀)
  have hzero : ¬(units.toUInt64 = 0 ∨ params.storageReplicaTarget.toUInt64 = 0 ∨ periods.toUInt64 = 0 ∨
      params.storageSettlementPeriodSeconds = 0 ∨ params.storageRatePerGibDayReplica = 0) := by
    simp only [not_or]
    refine ⟨fun h₀ => hunits ?_, fun h₀ => h.replicas ?_, fun h₀ => hperiods ?_, h.period, h.rate⟩
    · exact UInt32.toNat_inj.mp (by simpa using congrArg UInt64.toNat h₀)
    · exact UInt8.toNat_inj.mp (by simpa using congrArg UInt64.toNat h₀)
    · exact UInt32.toNat_inj.mp (by simpa using congrArg UInt64.toNat h₀)
  unfold computeStorageLeaseEscrow computeAssignedStorageBudget EscrowFits
  rw [if_neg hzero, checkedMul_eq]
  simp only [UInt32.toNat_toUInt64]
  generalize hseconds : periods.toNat * params.storageSettlementPeriodSeconds.toNat = seconds
  have hle : seconds ≤ units.toNat * seconds := Nat.le_mul_of_pos_left _ (hpos hunits)
  by_cases hfits : seconds < 2 ^ 64
  · have hproduct : (periods.toUInt64 * params.storageSettlementPeriodSeconds).toNat = seconds := by
      rw [← hseconds]
      refine toNat_mul_of_lt ?_
      rwa [UInt32.toNat_toUInt64, hseconds]
    rw [if_pos hfits]
    dsimp only [Option.bind_eq_bind, Option.bind_some]
    rw [checkedMul_eq, UInt32.toNat_toUInt64, hproduct]
    by_cases hunit : units.toNat * seconds < 2 ^ 64
    · have hunitSeconds : (units.toUInt64 * (periods.toUInt64 * params.storageSettlementPeriodSeconds)).toNat =
          units.toNat * seconds := by
        rw [UInt64.toNat_mul, UInt32.toNat_toUInt64, hproduct, Nat.mod_eq_of_lt hunit]
      rw [if_pos hunit, and_iff_right hunit]
      dsimp only [Option.bind_eq_bind, Option.bind_some]
      rw [hunitSeconds]
      have hfold : ∀ a b, a * b / STORAGE_RENT_DENOMINATOR + (if a * b % STORAGE_RENT_DENOMINATOR ≠ 0 then 1 else 0) =
          replicaShare a b := fun _ _ => rfl
      rw [hfold]
      generalize replicaShare (units.toNat * seconds) params.storageRatePerGibDayReplica.toNat = share
      have hshare : share ≤ share * params.storageReplicaTarget.toNat := Nat.le_mul_of_pos_right _ hreplicas
      by_cases hmax : share < 2 ^ 64
      · rw [if_neg (by rw [toNat_UINT64_MAX]; omega), checkedMul_eq, UInt8.toNat_toUInt64,
          UInt64.toNat_ofNat_of_lt' hmax]
        by_cases htotal : share * params.storageReplicaTarget.toNat < 2 ^ 64
        · rw [if_pos htotal]
          exact iff_of_true rfl htotal
        · rw [if_neg htotal]
          exact iff_of_false Bool.noConfusion htotal
      · rw [if_pos (by rw [toNat_UINT64_MAX]; omega)]
        exact iff_of_false Bool.noConfusion fun htotal => hmax (hshare.trans_lt htotal)
    · rw [if_neg hunit]
      exact iff_of_false Bool.noConfusion fun hand => hunit hand.1
  · rw [if_neg hfits]
    exact iff_of_false Bool.noConfusion fun hand => hfits (hle.trans_lt hand.1)

/-! ### Fees -/

theorem computeRootPublicationFee_isSome (h : FeesFit params) {operationBytes : Nat} {chunkCount : UInt32}
    (hbytes : 0 < operationBytes) (hbytesMax : operationBytes ≤ ROOT_PUBLICATION_MAX_OPERATION_BYTES)
    (hchunks : chunkCount ≠ 0) (hchunksMax : chunkCount ≤ MAX_PUBLICATION_CHUNKS) :
    (computeRootPublicationFee params operationBytes chunkCount).isSome = true := by
  unfold computeRootPublicationFee
  have hguard : ¬(operationBytes = 0 ∨ operationBytes > ROOT_PUBLICATION_MAX_OPERATION_BYTES ∨ chunkCount = 0 ∨
      chunkCount > MAX_PUBLICATION_CHUNKS) := by
    simp only [not_or, not_lt, gt_iff_lt, UInt32.not_lt]
    exact ⟨hbytes.ne', hbytesMax, hchunks, hchunksMax⟩
  rw [if_neg hguard]
  have hchunkMax : chunkCount.toNat ≤ 2 ^ 20 := UInt32.le_iff_toNat_le.mp hchunksMax
  rw [ROOT_PUBLICATION_MAX_OPERATION_BYTES] at hbytesMax
  have hkib : (operationBytes + 1023) / 1024 ≤ 144 := by omega
  generalize (operationBytes + 1023) / 1024 = kib at hkib
  have hkibNat : (UInt64.ofNat kib).toNat = kib := UInt64.toNat_ofNat_of_lt' (hkib.trans_lt (by decide))
  unfold FeesFit at h
  have hbyteFee : kib * params.rootPublicationFeePerStartedKib.toNat ≤
      144 * params.rootPublicationFeePerStartedKib.toNat := Nat.mul_le_mul_right _ hkib
  have hchunkFee : chunkCount.toNat * params.rootPublicationFeePerChunk.toNat ≤
      2 ^ 20 * params.rootPublicationFeePerChunk.toNat := Nat.mul_le_mul_right _ hchunkMax
  have hbyteNat : (UInt64.ofNat kib * params.rootPublicationFeePerStartedKib).toNat =
      kib * params.rootPublicationFeePerStartedKib.toNat := by
    rw [UInt64.toNat_mul, hkibNat, Nat.mod_eq_of_lt (by omega)]
  have hchunkNat : (chunkCount.toUInt64 * params.rootPublicationFeePerChunk).toNat =
      chunkCount.toNat * params.rootPublicationFeePerChunk.toNat := by
    rw [UInt64.toNat_mul, UInt32.toNat_toUInt64, Nat.mod_eq_of_lt (by omega)]
  have hle : UInt64.ofNat kib * params.rootPublicationFeePerStartedKib ≤ UINT64_MAX := by
    rw [UInt64.le_iff_toNat_le, toNat_UINT64_MAX, hbyteNat]
    omega
  dsimp only
  rw [if_neg, if_neg, if_neg]
  · rfl
  · rw [gt_iff_lt, UInt64.lt_iff_toNat_lt, UInt64.toNat_sub_of_le _ _ hle, toNat_UINT64_MAX, hbyteNat, hchunkNat]
    omega
  · rintro ⟨hne, hover⟩
    rw [gt_iff_lt, quotient_lt_iff hne, UInt32.toNat_toUInt64] at hover
    omega
  · rintro ⟨hne, hover⟩
    rw [gt_iff_lt, quotient_lt_iff hne, hkibNat] at hover
    omega

/-! ### The guard -/

structure RentSafe (params : CybouProtocolParameters) : Prop where
  divides : runValidateProtocolParameters params ≠ none
  escrow : runValidateProtocolParameters params = some true → ∀ units periods : UInt32,
    1 ≤ units → units ≤ MAX_PUBLICATION_CHUNKS → 1 ≤ periods → periods ≤ params.maxStorageLeasePeriods →
      (computeStorageLeaseEscrow params units params.storageReplicaTarget periods).isSome = true
  fee : runValidateProtocolParameters params = some true → ∀ (operationBytes : Nat) (chunkCount : UInt32),
    1 ≤ operationBytes → operationBytes ≤ ROOT_PUBLICATION_MAX_OPERATION_BYTES → 1 ≤ chunkCount →
      chunkCount ≤ MAX_PUBLICATION_CHUNKS →
        (computeRootPublicationFee params operationBytes chunkCount).isSome = true

def exactRentProduct (params : CybouProtocolParameters) : Nat :=
  2 ^ 20 * params.storageReplicaTarget.toNat * params.storageSettlementPeriodSeconds.toNat *
    params.maxStorageLeasePeriods.toNat

theorem toNat_rentProduct (params : CybouProtocolParameters) :
    (rentProduct params).toNat = exactRentProduct params % 2 ^ 64 := by
  have hchunks : MAX_PUBLICATION_CHUNKS.toUInt64.toNat = 2 ^ 20 := by decide
  simp only [rentProduct, exactRentProduct, UInt64.toNat_mul, UInt8.toNat_toUInt64, UInt32.toNat_toUInt64, hchunks,
    Nat.mod_mul_mod]

theorem escrowFits_of_product (h : ReachesRent params) (hproduct : exactRentProduct params < 2 ^ 64)
    (hrate : params.storageRatePerGibDayReplica.toNat * exactRentProduct params < 2 ^ 64) :
    EscrowFits params (2 ^ 20) params.maxStorageLeasePeriods.toNat := by
  have hreplicas : 0 < params.storageReplicaTarget.toNat :=
    Nat.pos_of_ne_zero fun h₀ => h.replicas (UInt8.toNat_inj.mp h₀)
  have hexact : exactRentProduct params = 2 ^ 20 *
      (params.maxStorageLeasePeriods.toNat * params.storageSettlementPeriodSeconds.toNat) *
        params.storageReplicaTarget.toNat := by
    unfold exactRentProduct
    ring
  unfold EscrowFits
  generalize 2 ^ 20 * (params.maxStorageLeasePeriods.toNat * params.storageSettlementPeriodSeconds.toNat) =
    unitSeconds at hexact ⊢
  rw [hexact] at hproduct hrate
  refine ⟨(Nat.le_mul_of_pos_right _ hreplicas).trans_lt hproduct, ?_⟩
  calc replicaShare unitSeconds params.storageRatePerGibDayReplica.toNat * params.storageReplicaTarget.toNat
      ≤ unitSeconds * params.storageRatePerGibDayReplica.toNat * params.storageReplicaTarget.toNat :=
        Nat.mul_le_mul_right _ (replicaShare_le _ _)
    _ = params.storageRatePerGibDayReplica.toNat * (unitSeconds * params.storageReplicaTarget.toNat) := by ring
    _ < 2 ^ 64 := hrate

/-- **When the guard protects the rent arithmetic.** -/
theorem rentSafe_iff (params : CybouProtocolParameters) :
    RentSafe params ↔ (ReachesRent params → ¬2 ^ 64 ∣ exactRentProduct params ∧
      (exactRentProduct params < 2 ^ 64 ∨
        2 ^ 64 ≤ params.storageRatePerGibDayReplica.toNat * (exactRentProduct params % 2 ^ 64) ∨
        ¬FeesFit params ∨ ¬NamesAccepted params ∨
        EscrowFits params (2 ^ 20) params.maxStorageLeasePeriods.toNat)) := by
  by_cases hreaches : ReachesRent params
  · rw [forall_prop_of_true hreaches]
    obtain ⟨hzero, hlate⟩ := runValidateProtocolParameters_late hreaches
    have hdvd : 2 ^ 64 ∣ exactRentProduct params ↔ rentProduct params = 0 := by
      rw [Nat.dvd_iff_mod_eq_zero, ← toNat_rentProduct]
      exact UInt64.toNat_inj (b := 0)
    rw [hdvd, ← toNat_rentProduct]
    by_cases hne : rentProduct params = 0
    · exact iff_of_false (fun h => h.divides (hzero hne)) fun h => h.1 hne
    obtain ⟨accepted, hrun, haccepted⟩ := hlate hne
    rw [and_iff_right hne]
    have hleases : 1 ≤ params.maxStorageLeasePeriods := one_le_of_ne_zero hreaches.leasePeriods
    constructor
    · intro h
      by_contra hnot
      simp only [not_or, not_not, not_le] at hnot
      obtain ⟨_, hrate, hfees, hnames, hescrow⟩ := hnot
      have htrue : runValidateProtocolParameters params = some true := by
        rw [hrun, haccepted.mpr ⟨hrate, hfees, hnames⟩]
      refine hescrow ((computeStorageLeaseEscrow_isSome_iff hreaches (by decide) hreaches.leasePeriods).mp
        (h.escrow htrue MAX_PUBLICATION_CHUNKS _ (by decide) (UInt32.le_refl _) hleases (UInt32.le_refl _)))
    · intro h
      have hfits : runValidateProtocolParameters params = some true → FeesFit params ∧
          EscrowFits params (2 ^ 20) params.maxStorageLeasePeriods.toNat := by
        intro htrue
        rw [hrun, Option.some_inj] at htrue
        obtain ⟨hrate, hfees, hnames⟩ := haccepted.mp htrue
        refine ⟨hfees, ?_⟩
        rcases h with hproduct | hrejected | hfees' | hnames' | hescrow
        · refine escrowFits_of_product hreaches hproduct ?_
          rwa [toNat_rentProduct, Nat.mod_eq_of_lt hproduct] at hrate
        · omega
        · exact absurd hfees hfees'
        · exact absurd hnames hnames'
        · exact hescrow
      refine ⟨by rw [hrun]; exact nofun, fun htrue units periods hunits hunitsMax hperiods hperiodsMax => ?_,
        fun htrue operationBytes chunkCount hbytes hbytesMax hchunks hchunksMax => ?_⟩
      · rw [computeStorageLeaseEscrow_isSome_iff hreaches (ne_zero_of_one_le hunits) (ne_zero_of_one_le hperiods)]
        exact (hfits htrue).2.mono (UInt32.le_iff_toNat_le.mp hunitsMax) (UInt32.le_iff_toNat_le.mp hperiodsMax)
      · exact computeRootPublicationFee_isSome (hfits htrue).1 hbytes hbytesMax (ne_zero_of_one_le hchunks) hchunksMax
  · refine iff_of_true ⟨?_, ?_, ?_⟩ fun h => absurd h hreaches
    all_goals
      rw [runValidateProtocolParameters_early hreaches]
      exact nofun

end

/-! ### A wrapped product -/

/-- Sixteen replicas, periods of `2 ^ 24` seconds and leases of `2 ^ 16` periods. -/
def wrappedParameters : CybouProtocolParameters :=
  { devProtocolParameters with
    storageReplicaTarget := 16, storageSettlementPeriodSeconds := 16777216, maxStorageLeasePeriods := 65536 }

/-- The product is `2 ^ 64`, and the division has no value. -/
theorem wrappedParameters_not_rentSafe :
    runValidateProtocolParameters wrappedParameters = none ∧ ¬RentSafe wrappedParameters := by
  have hnone : runValidateProtocolParameters wrappedParameters = none := by decide
  exact ⟨hnone, fun h => h.divides hnone⟩

end Cybou
