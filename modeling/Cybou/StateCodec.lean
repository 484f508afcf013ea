import Cybou.StateValidation

/-! # `SerializeCybouState` and `DeserializeCybouState` (`state.cpp`)

Every record of the state has an exact reader.  Composing them characterises
the deserializer completely (`deserializeCybouState_iff`): it accepts the
encodings of valid states whose name section lists its entries in any order,
and nothing else.  The round trip and the exact extent of canonicity follow.
-/

namespace Cybou

open Library Reader

/-! ### Writers -/

def writeAccount (e : AccountId × AccountState) : Bytes :=
  e.1.1 ++ le64 e.2.balance ++ le64 e.2.systemBalance ++ le64 e.2.onboardingSystemBalance ++
    le64 e.2.creationHeight ++ le64 e.2.creationEpoch

def writeClaim : Option AccountId → Bytes
  | none => [0]
  | some id => [1] ++ id.1

def writeAllocation (e : IdentityKeyId × GenesisAllocation) : Bytes :=
  e.1.1 ++ le64 e.2.balance ++ le32Of e.2.label.length ++ e.2.label ++ writeClaim e.2.claimedBy

def writePublication (e : Hash256 × PublicationRecord) : Bytes :=
  e.1.1 ++ e.2.owner.1 ++ e.2.chunkAuthorizationRoot.1 ++ le32 e.2.chunkCount ++ le64 e.2.height

def writeBinding (e : StorageAcceptedBinding) : Bytes :=
  e.storageId.1 ++ e.payoutAccount.1 ++ le64 e.keyEpoch ++ le64 e.acceptedHeight

def writeDeclaration (d : StorageAssignmentDeclaration) : Bytes :=
  d.operationId.1 ++ le64 d.epoch ++ le64 d.height ++ le32Of d.eligible.length ++
    concat writeBinding d.eligible

def writeAssignedUnits (u : StorageAssignedUnits) : Bytes :=
  [u.slot] ++ u.storageId.1 ++ u.payoutAccount.1 ++ le32 u.units

def writeAssignment (a : StorageAcceptedAssignment) : Bytes :=
  a.operationId.1 ++ a.preparationId.1 ++ a.seed.1 ++ le64 a.epoch ++ le64 a.effectivePeriod ++
    le32Of a.allocations.length ++ concat writeAssignedUnits a.allocations

def writeServicePayment (e : StorageServicePayment) : Bytes :=
  [e.slot] ++ e.storageId.1 ++ e.payoutAccount.1 ++ le64 e.verifiedUnitSeconds ++ le64 e.paid ++
    le64 e.closedEpochCapacity

def writeTermHeader (t : StorageFundedTerm) : Bytes :=
  t.fundingOperationId.1 ++ le64 t.firstPeriod ++ le64 t.endPeriod ++ le64 t.rate ++
    le64 t.periodSeconds ++ le64 t.replicaShare ++ le64 t.contractedUnitSeconds ++
    le64 t.initialOnboarding ++ le64 t.initialLocked ++ le64 t.paidOnboarding ++
    le64 t.paidLocked ++ le64 t.nextAssignmentEpoch

def writeTerm (t : StorageFundedTerm) : Bytes :=
  writeTermHeader t ++
    le32Of t.declarations.length ++ concat writeDeclaration t.declarations ++
    le32Of t.assignments.length ++ concat writeAssignment t.assignments ++
    le64 t.refundedOnboarding ++ le64 t.refundedLocked ++
    le32Of t.servicePayments.length ++ concat writeServicePayment t.servicePayments

def writeLease (e : Hash256 × StorageLeaseRecord) : Bytes :=
  e.1.1 ++ e.2.payer.1 ++ le32 e.2.units ++ [e.2.replicas] ++ le64 e.2.firstPeriod ++
    le64 e.2.endPeriod ++ le64 e.2.escrowOnboarding ++ le64 e.2.escrowLocked ++
    le32Of e.2.fundedTerms.length ++ concat writeTerm e.2.fundedTerms

/-! ### Readers -/

def ACCOUNT_SIZE : Nat := 32 + 8 * 5

def PUBLICATION_SIZE : Nat := 32 + 32 + 32 + 4 + 8

def LEASE_SIZE : Nat := 32 + 32 + 4 + 1 + 8 + 8 + 8 + 8 + 4

def FUNDED_TERM_SIZE : Nat := 32 + 8 * 13 + 4 + 4 + 4

def readAccount : Reader (AccountId × AccountState) := do
  let id ← readAccountId
  let balance ← u64
  let systemBalance ← u64
  let onboardingSystemBalance ← u64
  let creationHeight ← u64
  let creationEpoch ← u64
  return (id, { balance, systemBalance, onboardingSystemBalance, creationHeight, creationEpoch })

def readClaim : Reader (Option AccountId) := do
  let claimed ← u8
  require (claimed ≤ 1)
  if claimed = 0 then return none
  else
    let account ← readAccountId
    return some account

def readAllocation : Reader (IdentityKeyId × GenesisAllocation) := do
  let recoveryId ← fixed 32
  let balance ← u64
  let labelSize ← count
  require (labelSize ≤ NAME_MAX_LABEL_LENGTH)
  let label ← bytes labelSize
  let claimedBy ← readClaim
  return (recoveryId, { balance, label, claimedBy })

def readPublication : Reader (Hash256 × PublicationRecord) := do
  let id ← fixed 32
  let owner ← readAccountId
  let chunkAuthorizationRoot ← fixed 32
  let chunkCount ← u32
  let height ← u64
  return (id, { owner, chunkAuthorizationRoot, chunkCount, height })

def readBinding : Reader StorageAcceptedBinding := do
  let storageId ← fixed 32
  let payoutAccount ← readAccountId
  let keyEpoch ← u64
  let acceptedHeight ← u64
  return { storageId, payoutAccount, keyEpoch, acceptedHeight }

def readDeclaration : Reader StorageAssignmentDeclaration := do
  let operationId ← fixed 32
  let epoch ← u64
  let height ← u64
  let n ← count
  require (n ≤ 20)
  fits 80 n
  let eligible ← repeatN readBinding n
  return { operationId, epoch, height, eligible }

def readAssignedUnits : Reader StorageAssignedUnits := do
  let slot ← u8
  let storageId ← fixed 32
  let payoutAccount ← readAccountId
  let units ← u32
  return { slot, storageId, payoutAccount, units }

def readAssignment : Reader StorageAcceptedAssignment := do
  let operationId ← fixed 32
  let preparationId ← fixed 32
  let seed ← fixed 32
  let epoch ← u64
  let effectivePeriod ← u64
  let n ← count
  require (n ≤ 20 * MAX_STORAGE_LEASE_REPLICAS.toNat)
  fits 69 n
  let allocations ← repeatN readAssignedUnits n
  return { operationId, preparationId, seed, epoch, effectivePeriod, allocations }

def readServicePayment : Reader StorageServicePayment := do
  let slot ← u8
  let storageId ← fixed 32
  let payoutAccount ← readAccountId
  let verifiedUnitSeconds ← u64
  let paid ← u64
  let closedEpochCapacity ← u64
  return { slot, storageId, payoutAccount, verifiedUnitSeconds, paid, closedEpochCapacity }

def readTermHeader : Reader StorageFundedTerm := do
  let fundingOperationId ← fixed 32
  let firstPeriod ← u64
  let endPeriod ← u64
  let rate ← u64
  let periodSeconds ← u64
  let replicaShare ← u64
  let contractedUnitSeconds ← u64
  let initialOnboarding ← u64
  let initialLocked ← u64
  let paidOnboarding ← u64
  let paidLocked ← u64
  let nextAssignmentEpoch ← u64
  return { fundingOperationId, firstPeriod, endPeriod, rate, periodSeconds, replicaShare,
           contractedUnitSeconds, initialOnboarding, initialLocked, paidOnboarding, paidLocked,
           nextAssignmentEpoch }

def readTerm : Reader StorageFundedTerm := do
  let term ← readTermHeader
  let declarationCount ← count
  fits 52 declarationCount
  let declarations ← repeatN readDeclaration declarationCount
  let assignmentCount ← count
  fits 116 assignmentCount
  let assignments ← repeatN readAssignment assignmentCount
  let refundedOnboarding ← u64
  let refundedLocked ← u64
  let paymentCount ← count
  fits 89 paymentCount
  let servicePayments ← repeatN readServicePayment paymentCount
  return { term with declarations, assignments, servicePayments, refundedOnboarding, refundedLocked }

def readLease : Reader (Hash256 × StorageLeaseRecord) := do
  let id ← fixed 32
  let payer ← readAccountId
  let units ← u32
  let replicas ← u8
  let firstPeriod ← u64
  let endPeriod ← u64
  let escrowOnboarding ← u64
  let escrowLocked ← u64
  let terms ← count
  require (terms ≠ 0)
  fits FUNDED_TERM_SIZE terms
  let fundedTerms ← repeatN readTerm terms
  return (id, { payer, units, replicas, firstPeriod, endPeriod, escrowOnboarding, escrowLocked,
                fundedTerms })

/-! ### What the record readers accept -/

def BindingOk (e : StorageAcceptedBinding) : Prop := Hash256.isNull e.payoutAccount = false

def DeclarationOk (d : StorageAssignmentDeclaration) : Prop :=
  d.eligible.length ≤ 20 ∧ ∀ e ∈ d.eligible, BindingOk e

def AssignedUnitsOk (u : StorageAssignedUnits) : Prop := Hash256.isNull u.payoutAccount = false

def AssignmentOk (a : StorageAcceptedAssignment) : Prop :=
  a.allocations.length ≤ 20 * MAX_STORAGE_LEASE_REPLICAS.toNat ∧
    ∀ u ∈ a.allocations, AssignedUnitsOk u

def ServicePaymentOk (e : StorageServicePayment) : Prop := Hash256.isNull e.payoutAccount = false

def TermOk (t : StorageFundedTerm) : Prop :=
  (t.declarations.length < 2 ^ 32 ∧ ∀ d ∈ t.declarations, DeclarationOk d) ∧
  (t.assignments.length < 2 ^ 32 ∧ ∀ a ∈ t.assignments, AssignmentOk a) ∧
  (t.servicePayments.length < 2 ^ 32 ∧ ∀ e ∈ t.servicePayments, ServicePaymentOk e)

def LeaseOk (e : Hash256 × StorageLeaseRecord) : Prop :=
  Hash256.isNull e.2.payer = false ∧ e.2.fundedTerms ≠ [] ∧ e.2.fundedTerms.length < 2 ^ 32 ∧
    ∀ t ∈ e.2.fundedTerms, TermOk t

def AllocationOk (e : IdentityKeyId × GenesisAllocation) : Prop :=
  e.2.label.length ≤ NAME_MAX_LABEL_LENGTH ∧ ∀ id ∈ e.2.claimedBy, Hash256.isNull id = false

theorem readAccount_exact :
    Exact readAccount writeAccount (fun e => Hash256.isNull e.1 = false) := by
  rintro b ⟨id, ⟨balance, systemBalance, onboarding, height, epoch⟩⟩ r
  simp only [readAccount, readAccountId_exact.bind, u64_exact.bind, pure_eq_some, true_and,
    writeAccount]
  constructor
  · rintro ⟨_, _, hid, rfl, _, _, rfl, _, _, rfl, _, _, rfl, _, _, rfl, _, _, rfl, heq, rfl⟩
    cases heq
    exact ⟨hid, by simp⟩
  · rintro ⟨hid, rfl⟩
    exact ⟨id, _, hid, by simp, balance, _, rfl, systemBalance, _, rfl, onboarding, _, rfl, height,
      _, rfl, epoch, _, rfl, rfl, rfl⟩

theorem readClaim_exact :
    Exact readClaim writeClaim (fun c => ∀ id ∈ c, Hash256.isNull id = false) := by
  intro b c r
  simp only [readClaim, u8_exact.bind, require_bind, true_and]
  constructor
  · rintro ⟨flag, rest, rfl, hle, hrun⟩
    split at hrun
    · next h =>
      subst h
      obtain ⟨rfl, rfl⟩ := pure_eq_some.mp hrun
      exact ⟨by simp, rfl⟩
    · next h =>
      obtain rfl : flag = 1 := UInt8.le_antisymm hle (by
        rw [UInt8.le_iff_toNat_le]
        exact Nat.one_le_iff_ne_zero.mpr fun h₀ => h (UInt8.toNat_inj.mp h₀))
      simp only [readAccountId_exact.bind, pure_eq_some] at hrun
      obtain ⟨id, _, hid, rfl, rfl, rfl⟩ := hrun
      exact ⟨by simpa using hid, rfl⟩
  · rintro ⟨hok, rfl⟩
    cases c with
    | none => exact ⟨0, r, rfl, by decide, by simp [pure_eq_some]⟩
    | some id =>
      refine ⟨1, id.1 ++ r, rfl, by decide, ?_⟩
      rw [if_neg (by decide)]
      simp only [readAccountId_exact.bind, pure_eq_some]
      exact ⟨id, r, hok id rfl, rfl, rfl, rfl⟩

theorem readAllocation_exact : Exact readAllocation writeAllocation AllocationOk := by
  rintro b ⟨id, ⟨balance, label, claimedBy⟩⟩ r
  simp only [readAllocation, (fixed_exact 32).bind, u64_exact.bind, count_exact.bind, require_bind,
    bind_eq_some (p := bytes _), bytes_eq_some, readClaim_exact.bind, pure_eq_some, true_and,
    writeAllocation, AllocationOk]
  constructor
  · rintro ⟨_, _, rfl, _, _, rfl, _, _, -, rfl, hmax, _, _, ⟨hlen, rfl⟩, _, _, hclaim, rfl, heq, rfl⟩
    cases heq
    exact ⟨⟨hlen ▸ hmax, hclaim⟩, by simp [hlen]⟩
  · rintro ⟨⟨hmax, hclaim⟩, rfl⟩
    refine ⟨id, _, by simp, balance, _, rfl, label.length, _, ?_, rfl, hmax, label, _, ⟨rfl, rfl⟩,
      claimedBy, r, hclaim, rfl, rfl, rfl⟩
    unfold NAME_MAX_LABEL_LENGTH at hmax
    omega

theorem readPublication_exact :
    Exact readPublication writePublication (fun e => Hash256.isNull e.2.owner = false) := by
  rintro b ⟨id, ⟨owner, root, chunks, height⟩⟩ r
  simp only [readPublication, (fixed_exact 32).bind, readAccountId_exact.bind, u32_exact.bind,
    u64_exact.bind, pure_eq_some, true_and, writePublication]
  constructor
  · rintro ⟨_, _, rfl, _, _, howner, rfl, _, _, rfl, _, _, rfl, _, _, rfl, heq, rfl⟩
    cases heq
    exact ⟨howner, by simp⟩
  · rintro ⟨howner, rfl⟩
    exact ⟨id, _, by simp, owner, _, howner, rfl, root, _, rfl, chunks, _, rfl, height, _, rfl, rfl,
      rfl⟩

theorem readBinding_exact : Exact readBinding writeBinding BindingOk := by
  rintro b ⟨storageId, payout, keyEpoch, accepted⟩ r
  simp only [readBinding, (fixed_exact 32).bind, readAccountId_exact.bind, u64_exact.bind,
    pure_eq_some, true_and, writeBinding, BindingOk]
  constructor
  · rintro ⟨_, _, rfl, _, _, hpayout, rfl, _, _, rfl, _, _, rfl, heq, rfl⟩
    cases heq
    exact ⟨hpayout, by simp⟩
  · rintro ⟨hpayout, rfl⟩
    exact ⟨storageId, _, by simp, payout, _, hpayout, rfl, keyEpoch, _, rfl, accepted, _, rfl, rfl,
      rfl⟩

theorem length_writeBinding (e : StorageAcceptedBinding) : (writeBinding e).length = 80 := by
  simp [writeBinding, e.storageId.2, e.payoutAccount.2]

theorem readDeclaration_exact : Exact readDeclaration writeDeclaration DeclarationOk := by
  rintro b ⟨id, epoch, height, eligible⟩ r
  simp only [readDeclaration, (fixed_exact 32).bind, u64_exact.bind, count_exact.bind, require_bind,
    fits_repeatN readBinding_exact (by decide : 0 < 80) fun e _ => (length_writeBinding e).ge,
    pure_eq_some, true_and, writeDeclaration, DeclarationOk]
  constructor
  · rintro ⟨_, _, rfl, _, _, rfl, _, _, rfl, _, _, -, rfl, hmax, _, _, ⟨hlen, hok⟩, rfl, heq, rfl⟩
    cases heq
    exact ⟨⟨hlen ▸ hmax, hok⟩, by simp [hlen]⟩
  · rintro ⟨⟨hmax, hok⟩, rfl⟩
    exact ⟨id, _, by simp, epoch, _, rfl, height, _, rfl, eligible.length, _, by omega, rfl, hmax,
      eligible, r, ⟨rfl, hok⟩, rfl, rfl, rfl⟩

theorem readAssignedUnits_exact :
    Exact readAssignedUnits writeAssignedUnits AssignedUnitsOk := by
  rintro b ⟨slot, storageId, payout, units⟩ r
  simp only [readAssignedUnits, u8_exact.bind, (fixed_exact 32).bind, readAccountId_exact.bind,
    u32_exact.bind, pure_eq_some, true_and, writeAssignedUnits, AssignedUnitsOk]
  constructor
  · rintro ⟨_, _, rfl, _, _, rfl, _, _, hpayout, rfl, _, _, rfl, heq, rfl⟩
    cases heq
    exact ⟨hpayout, by simp⟩
  · rintro ⟨hpayout, rfl⟩
    exact ⟨slot, _, by simp, storageId, _, rfl, payout, _, hpayout, rfl, units, _, rfl, rfl, rfl⟩

theorem length_writeAssignedUnits (u : StorageAssignedUnits) :
    (writeAssignedUnits u).length = 69 := by
  simp [writeAssignedUnits, u.storageId.2, u.payoutAccount.2]

theorem readAssignment_exact : Exact readAssignment writeAssignment AssignmentOk := by
  rintro b ⟨id, preparation, seed, epoch, period, allocations⟩ r
  simp only [readAssignment, (fixed_exact 32).bind, u64_exact.bind, count_exact.bind, require_bind,
    fits_repeatN readAssignedUnits_exact (by decide : 0 < 69)
      fun u _ => (length_writeAssignedUnits u).ge,
    pure_eq_some, true_and, writeAssignment, AssignmentOk]
  constructor
  · rintro ⟨_, _, rfl, _, _, rfl, _, _, rfl, _, _, rfl, _, _, rfl, _, _, -, rfl, hmax, _, _,
      ⟨hlen, hok⟩, rfl, heq, rfl⟩
    cases heq
    exact ⟨⟨hlen ▸ hmax, hok⟩, by simp [hlen]⟩
  · rintro ⟨⟨hmax, hok⟩, rfl⟩
    have hmax' : allocations.length ≤ 320 := hmax
    exact ⟨id, _, by simp, preparation, _, rfl, seed, _, rfl, epoch, _, rfl, period, _, rfl,
      allocations.length, _, by omega, rfl, hmax, allocations, r, ⟨rfl, hok⟩, rfl, rfl, rfl⟩

theorem readServicePayment_exact :
    Exact readServicePayment writeServicePayment ServicePaymentOk := by
  rintro b ⟨slot, storageId, payout, verified, paid, closed⟩ r
  simp only [readServicePayment, u8_exact.bind, (fixed_exact 32).bind, readAccountId_exact.bind,
    u64_exact.bind, pure_eq_some, true_and, writeServicePayment, ServicePaymentOk]
  constructor
  · rintro ⟨_, _, rfl, _, _, rfl, _, _, hpayout, rfl, _, _, rfl, _, _, rfl, _, _, rfl, heq, rfl⟩
    cases heq
    exact ⟨hpayout, by simp⟩
  · rintro ⟨hpayout, rfl⟩
    exact ⟨slot, _, by simp, storageId, _, rfl, payout, _, hpayout, rfl, verified, _, rfl, paid, _,
      rfl, closed, _, rfl, rfl, rfl⟩

theorem length_writeDeclaration (d : StorageAssignmentDeclaration) :
    52 ≤ (writeDeclaration d).length := by
  simp only [writeDeclaration, List.length_append, d.operationId.2, length_le64, length_le32Of]
  omega

theorem length_writeAssignment (a : StorageAcceptedAssignment) :
    116 ≤ (writeAssignment a).length := by
  simp only [writeAssignment, List.length_append, a.operationId.2, a.preparationId.2, a.seed.2,
    length_le64, length_le32Of]
  omega

theorem length_writeServicePayment (e : StorageServicePayment) :
    (writeServicePayment e).length = 89 := by
  simp [writeServicePayment, e.storageId.2, e.payoutAccount.2]

def StorageFundedTerm.header (t : StorageFundedTerm) : StorageFundedTerm :=
  { t with declarations := [], assignments := [], servicePayments := [],
           refundedOnboarding := 0, refundedLocked := 0 }

theorem readTermHeader_exact :
    Exact readTermHeader writeTermHeader (fun t => t.header = t) := by
  intro b t r
  simp only [readTermHeader, (fixed_exact 32).bind, u64_exact.bind, pure_eq_some, true_and]
  constructor
  · rintro ⟨_, _, rfl, _, _, rfl, _, _, rfl, _, _, rfl, _, _, rfl, _, _, rfl, _, _, rfl, _, _, rfl,
      _, _, rfl, _, _, rfl, _, _, rfl, _, _, rfl, rfl, rfl⟩
    exact ⟨rfl, by simp only [writeTermHeader, List.append_assoc]⟩
  · rintro ⟨hheader, hb⟩
    simp only [writeTermHeader, List.append_assoc] at hb
    exact ⟨_, _, hb, _, _, rfl, _, _, rfl, _, _, rfl, _, _, rfl, _, _, rfl, _, _, rfl, _, _, rfl,
      _, _, rfl, _, _, rfl, _, _, rfl, _, _, rfl, hheader, rfl⟩

theorem readTerm_exact : Exact readTerm writeTerm TermOk := by
  intro b t r
  simp only [readTerm, readTermHeader_exact.bind, u64_exact.bind, count_exact.bind,
    fits_repeatN readDeclaration_exact (by decide : 0 < 52) fun d _ => length_writeDeclaration d,
    fits_repeatN readAssignment_exact (by decide : 0 < 116) fun a _ => length_writeAssignment a,
    fits_repeatN readServicePayment_exact (by decide : 0 < 89)
      fun e _ => (length_writeServicePayment e).ge,
    pure_eq_some, true_and, TermOk]
  constructor
  · rintro ⟨term, b₁, -, e₁, n₁, b₂, hd, e₂, declarations, b₃, ⟨hn₁, hdok⟩, e₃, h⟩
    obtain ⟨n₂, b₄, ha, e₄, assignments, b₅, ⟨hn₂, haok⟩, e₅, h⟩ := h
    obtain ⟨refundedOnboarding, b₆, e₆, refundedLocked, b₇, e₇, h⟩ := h
    obtain ⟨n₃, b₈, hp, e₈, payments, b₉, ⟨hn₃, hpok⟩, e₉, ht, hr⟩ := h
    subst hn₁ hn₂ hn₃ ht hr
    refine ⟨⟨⟨hd, hdok⟩, ⟨ha, haok⟩, ⟨hp, hpok⟩⟩, ?_⟩
    rw [e₁, e₂, e₃, e₄, e₅, e₆, e₇, e₈, e₉]
    simp only [writeTerm, List.append_assoc]
    rfl
  · rintro ⟨⟨⟨hd, hdok⟩, ⟨ha, haok⟩, ⟨hp, hpok⟩⟩, hb⟩
    simp only [writeTerm, List.append_assoc] at hb
    exact ⟨t.header, _, rfl, hb, _, _, hd, rfl, _, _, ⟨rfl, hdok⟩, rfl, _, _, ha, rfl, _, _,
      ⟨rfl, haok⟩, rfl, _, _, rfl, _, _, rfl, _, _, hp, rfl, _, _, ⟨rfl, hpok⟩, rfl, rfl, rfl⟩

theorem length_writeTerm (t : StorageFundedTerm) : FUNDED_TERM_SIZE ≤ (writeTerm t).length := by
  simp only [writeTerm, writeTermHeader, List.length_append, t.fundingOperationId.2, length_le64,
    length_le32Of, FUNDED_TERM_SIZE]
  omega

theorem readLease_exact : Exact readLease writeLease LeaseOk := by
  rintro b ⟨id, ⟨payer, units, replicas, first, end_, onboarding, locked, terms⟩⟩ r
  simp only [readLease, (fixed_exact 32).bind, readAccountId_exact.bind, u32_exact.bind,
    u8_exact.bind, u64_exact.bind, count_exact.bind, require_bind,
    fits_repeatN readTerm_exact (by decide : 0 < FUNDED_TERM_SIZE) fun t _ => length_writeTerm t,
    pure_eq_some, true_and, writeLease, LeaseOk]
  constructor
  · rintro ⟨_, _, rfl, _, _, hpayer, rfl, _, _, rfl, _, _, rfl, _, _, rfl, _, _, rfl, _, _, rfl,
      _, _, rfl, _, _, hn, rfl, hne, _, _, ⟨hlen, hok⟩, rfl, heq, rfl⟩
    cases heq
    refine ⟨⟨hpayer, fun hnil => ?_, hlen ▸ hn, hok⟩, by simp [hlen]⟩
    rw [hnil] at hlen
    exact hne hlen.symm
  · rintro ⟨⟨hpayer, hne, hn, hok⟩, rfl⟩
    exact ⟨id, _, by simp, payer, _, hpayer, rfl, units, _, rfl, replicas, _, rfl, first, _, rfl,
      end_, _, rfl, onboarding, _, rfl, locked, _, rfl, terms.length, _, hn, rfl,
      fun h => hne (List.length_eq_zero_iff.mp h), terms, r, ⟨rfl, hok⟩, rfl, rfl, rfl⟩

/-! ### The state -/

section

variable [Crypto]

def stateBytes (s : CybouState) (names : List (Bytes × AccountId))
    (commits : List (Hash256 × NameCommitRecord)) : Bytes :=
  le32Of s.accounts.size ++ concat writeAccount s.accounts.entries ++
    le32Of (identityRegistryBytes s.identities.toRegistryMaps).length ++
    identityRegistryBytes s.identities.toRegistryMaps ++
    le32Of (nameRegistryBytes names commits).length ++ nameRegistryBytes names commits ++
    le32Of s.genesisAllocations.size ++ concat writeAllocation s.genesisAllocations.entries ++
    le32Of s.publications.size ++ concat writePublication s.publications.entries ++
    le64 s.settlement.nextPeriod ++ le64 s.settlement.nextPeriodStartUtc ++
    le32Of s.leases.size ++ concat writeLease s.leases.entries

def serializeCybouState (s : CybouState) (validate : Bool) : Option Bytes :=
  if validate = true ∧ validateCybouState s ≠ .none then none
  else
    match serializeIdentityRegistry s.identities.toRegistryMaps with
    | none => none
    | some identities =>
      let names := serializeNameRegistry s.names
      if identities.length > UINT32_MAX ∨ names.length > UINT32_MAX then none
      else if s.accounts.entries.any (fun e => Hash256.isNull e.1 ||
          (s.identities.find e.1).isNone) = true then none
      else some (
        le32Of s.accounts.size ++ concat writeAccount s.accounts.entries ++
        le32Of identities.length ++ identities ++
        le32Of names.length ++ names ++
        le32Of s.genesisAllocations.size ++ concat writeAllocation s.genesisAllocations.entries ++
        le32Of s.publications.size ++ concat writePublication s.publications.entries ++
        le64 s.settlement.nextPeriod ++ le64 s.settlement.nextPeriodStartUtc ++
        le32Of s.leases.size ++ concat writeLease s.leases.entries)

def cybouStateHash (s : CybouState) (validate : Bool) : Option Hash256 := do
  let bytes ← serializeCybouState s validate
  return Crypto.sha256 (ascii "CYBOU/STATE" ++ bytes)

/-- The body of `DeserializeCybouState`, up to the final validation. -/
def readState : Reader CybouState := do
  let n ← count
  require (n ≤ MAX_IDENTITY_REGISTRY_ACCOUNTS)
  fits ACCOUNT_SIZE n
  let accounts ← mapN readAccount n none ∅
  let identitySize ← count
  let identityBytes ← bytes identitySize
  let identities ← ofOption (deserializeIdentityRegistry identityBytes)
  require (identities.accounts.size = accounts.size)
  require (accounts.entries.all (fun e => (identities.find e.1).isSome) = true)
  let namesSize ← count
  let namesBytes ← bytes namesSize
  let names ← ofOption (deserializeNameRegistry namesBytes)
  let allocations ← count
  require (allocations ≤ MAX_GENESIS_ALLOCATIONS)
  let genesisAllocations ← mapN readAllocation allocations none ∅
  let publicationCount ← count
  fits PUBLICATION_SIZE publicationCount
  let publications ← mapN readPublication publicationCount none ∅
  let nextPeriod ← u64
  let nextPeriodStartUtc ← u64
  let leaseCount ← count
  fits LEASE_SIZE leaseCount
  let leases ← mapN readLease leaseCount none ∅
  return { accounts, identities, names, genesisAllocations, publications,
           settlement := { nextPeriod, nextPeriodStartUtc }, leases }

def deserializeCybouState (b : Bytes) : Option CybouState :=
  match readState.whole b with
  | none => none
  | some s => if validateCybouState s = .none then some s else none

/-! ### A valid state fits its encoding -/

variable {s : CybouState}

theorem StateInvariant.hasAccount_ne_null (h : StateInvariant s) {id : AccountId}
    (hid : s.hasAccount id = true) : Hash256.isNull id = false := by
  obtain ⟨a, ha⟩ := OrdMap.contains_iff.mp hid
  exact (h.account id a ha).1

theorem wellFormedLabel_of_admitted {label : Bytes} {id : AccountId}
    (h : nameAdmitted s label id = true) : wellFormedLabel label = true := by
  simp only [nameAdmitted, wellFormedLabel, Bool.or_eq_true, Bool.and_eq_true] at h ⊢
  exact h.imp_right And.left

omit [Crypto] in
theorem nodup_entries {K V : Type} [LinearOrder K] (m : OrdMap K V) : m.entries.Nodup :=
  m.nodup_keys.of_map _

theorem StateInvariant.accountNames_perm (h : StateInvariant s) :
    s.names.accountNames.entries.Perm (s.names.names.entries.map Prod.swap) := by
  have hsub : s.names.names.entries.map Prod.swap ⊆ s.names.accountNames.entries := by
    intro e he
    obtain ⟨⟨label, id⟩, hmem, rfl⟩ := List.mem_map.mp he
    exact OrdMap.mem_entries_iff.mpr (h.name label id (OrdMap.mem_entries_iff.mp hmem)).2.1
  have hnodup : (s.names.names.entries.map Prod.swap).Nodup :=
    (nodup_entries _).map Prod.swap_injective
  refine ((List.subperm_of_subset hnodup hsub).perm_of_length_le ?_).symm
  rw [List.length_map]
  exact h.nameCount.ge

theorem StateInvariant.names_le_accounts (h : StateInvariant s) :
    s.names.names.size ≤ s.accounts.size := by
  have hkeys : (s.names.accountNames.entries.map Prod.fst).Perm
      (s.names.names.entries.map Prod.snd) := by
    have hswap : (Prod.fst ∘ Prod.swap : Bytes × AccountId → AccountId) = Prod.snd := rfl
    simpa [hswap] using h.accountNames_perm.map Prod.fst
  have hsub : s.names.names.entries.map Prod.snd ⊆ s.accounts.entries.map Prod.fst := by
    intro id hid
    obtain ⟨⟨label, id'⟩, hmem, rfl⟩ := List.mem_map.mp hid
    obtain ⟨a, ha⟩ := OrdMap.contains_iff.mp
      (h.name label id' (OrdMap.mem_entries_iff.mp hmem)).2.2
    exact List.mem_map.mpr ⟨(id', a), OrdMap.mem_entries_iff.mpr ha, rfl⟩
  have hnodup := hkeys.nodup_iff.mp (OrdMap.nodup_keys _)
  simpa [OrdMap.size] using (List.subperm_of_subset hnodup hsub).length_le

omit [Crypto] in
theorem length_concat_le {α : Type} {enc : α → Bytes} {unit : Nat} {l : List α}
    (h : ∀ a ∈ l, (enc a).length ≤ unit) : (concat enc l).length ≤ l.length * unit := by
  induction l with
  | nil => simp
  | cons a l ih =>
    obtain ⟨ha, hl⟩ := List.forall_mem_cons.mp h
    have := ih hl
    rw [concat_cons, List.length_cons, List.length_append, Nat.add_mul]
    omega

theorem StateInvariant.nameEntries (h : StateInvariant s) :
    ∀ e ∈ s.names.names.entries, NameEntryOk e := fun e he =>
  have hname := h.name e.1 e.2 (OrdMap.mem_entries_iff.mp he)
  ⟨wellFormedLabel_of_admitted hname.1, h.hasAccount_ne_null hname.2.2⟩

theorem StateInvariant.nameCommits (h : StateInvariant s) :
    ∀ e ∈ s.names.pendingCommits.entries, NameCommitOk e := fun e he =>
  have hcommit := h.commit e.1 e.2 (OrdMap.mem_entries_iff.mp he)
  ⟨hcommit.1, h.hasAccount_ne_null hcommit.2⟩

variable {names : List (Bytes × AccountId)} {commits : List (Hash256 × NameCommitRecord)}

theorem StateInvariant.length_names_lt (h : StateInvariant s) (hnames : s.names.names.entries.Perm names)
    (hcommits : s.names.pendingCommits.entries.Perm commits) :
    names.length < 2 ^ 32 ∧ commits.length < 2 ^ 32 ∧
      (nameRegistryBytes names commits).length < 2 ^ 32 := by
  have hn : names.length ≤ 1000000 := by
    rw [← hnames.length_eq]
    exact h.names_le_accounts.trans h.accountLimit
  have hc : commits.length ≤ 10000 := by
    rw [← hcommits.length_eq]
    exact h.commitLimit
  have hname : (concat writeName names).length ≤ names.length * 65 := by
    refine length_concat_le fun e he => ?_
    obtain ⟨-, hmax⟩ := length_of_validateNameLabel (h.nameEntries e (hnames.mem_iff.mpr he)).1
    simp only [writeName, List.length_append, List.length_singleton, e.2.2]
    unfold NAME_MAX_LABEL_LENGTH at hmax
    omega
  have hlen := length_concat_writeNameCommit commits
  refine ⟨by omega, by omega, ?_⟩
  simp only [nameRegistryBytes, List.length_append, length_le32Of]
  omega

theorem StateInvariant.length_identities_lt (h : StateInvariant s) :
    (identityRegistryBytes s.identities.toRegistryMaps).length < 2 ^ 32 := by
  have hn : s.identities.accounts.entries.length ≤ 1000000 := by
    have := h.accountLimit
    rwa [h.identityCount] at this
  have hone : ∀ e ∈ s.identities.accounts.entries, (writeIdentityAccount e).length ≤ 3408 := by
    intro e he
    obtain ⟨-, -, hrec, hauth⟩ := s.identities.wellFormed.accountOk he
    obtain ⟨_, hrecKey⟩ := Option.isSome_iff_exists.mp hrec
    obtain ⟨_, hauthKey⟩ := Option.isSome_iff_exists.mp hauth
    have h₁ := (key_of_computeKeyId hrecKey).2
    have h₂ := (key_of_computeKeyId hauthKey).2
    simp only [IdentityKeyPurpose.publicSize] at h₁ h₂
    simp [writeIdentityAccount, writePublic, h₁, h₂, e.1.2, e.2.recoveryKey.ed25519.2,
      e.2.authorizationKey.ed25519.2, e.2.kemPackageId.2]
  have := length_concat_le hone
  simp only [identityRegistryBytes, List.length_append, length_le32Of]
  omega

theorem StateInvariant.allocationOk (h : StateInvariant s) :
    ∀ e ∈ s.genesisAllocations.entries, AllocationOk e := by
  intro e he
  obtain ⟨hlabel, hclaim⟩ := h.allocation e.1 e.2 (OrdMap.mem_entries_iff.mp he)
  refine ⟨?_, fun id hid => h.hasAccount_ne_null (hclaim id hid)⟩
  rcases hlabel with hnil | hwf
  · simp [hnil]
  · exact (length_of_validateNameLabel hwf).2

omit [Crypto] in
/-- The records of a valid term name only accounts, and within the limits of
    the reader. -/
theorem termOk_of_valid {hasAccount : AccountId → Bool} {keyEpoch : AccountId → Option UInt64}
    {nextPeriod : UInt64} {lease : StorageLeaseRecord} {term : StorageFundedTerm}
    (hnull : ∀ id, hasAccount id = true → Hash256.isNull id = false)
    (hreplicas : lease.replicas ≤ MAX_STORAGE_LEASE_REPLICAS)
    (h : termValid hasAccount keyEpoch nextPeriod lease term = true) : TermOk term := by
  obtain ⟨budget, -, hfacts⟩ := termValid_iff.mp h
  have hd := hfacts.declarationCount
  have ha := hfacts.assignmentCount
  have hp := hfacts.paymentCount
  have hbinding : ∀ d ∈ term.declarations, DeclarationOk d := by
    intro d hd
    have := declarationsValid_mem hfacts.declarations d hd
    simp only [declarationValid, Bool.and_eq_true, decide_eq_true_eq] at this
    exact ⟨this.1.1.2, fun e he => hnull _ (eligibleValid_mem this.1.2 e he)⟩
  refine ⟨⟨by unfold UINT32_MAX at hd; omega, hbinding⟩, ⟨by unfold UINT32_MAX at ha; omega, ?_⟩,
    ⟨by unfold UINT32_MAX at hp; omega, ?_⟩⟩
  · intro a ha
    have := assignmentsValid_mem hfacts.assignments a ha
    unfold assignmentValid at this
    split at this
    · cases this
    next d hfind =>
    simp only [Bool.and_eq_true, decide_eq_true_eq] at this
    refine ⟨?_, fun u hu => ?_⟩
    · have hle := UInt8.le_iff_toNat_le.mp hreplicas
      exact this.1.1.2.trans (Nat.mul_le_mul_left 20 hle)
    · -- an allocation repeats the pair of an eligible provider
      obtain ⟨e, he, -, hpayout⟩ := allocationsValid_mem this.1.2 u hu
      have hnonnull := (hbinding d (List.mem_of_find?_eq_some hfind)).2 e he
      rwa [BindingOk, hpayout] at hnonnull
  · intro e he
    have := servicePaymentsValid_mem hfacts.payments e he
    simp only [servicePaymentValid, Bool.and_eq_true] at this
    have hcap := this.1.1.2
    split at hcap
    · cases hcap
    next capacity hcapacity =>
    unfold computeAcceptedStorageCapacity at hcapacity
    split at hcapacity
    · cases hcapacity
    next hok =>
    push Not at hok
    simpa [ServicePaymentOk] using hok.2.2.2.1

theorem StateInvariant.leaseOk (h : StateInvariant s) :
    ∀ e ∈ s.leases.entries, LeaseOk e := by
  intro e he
  have hfacts := leaseValid_iff.mp (h.lease e.1 e.2 (OrdMap.mem_entries_iff.mp he))
  have hlen := hfacts.termCount
  exact ⟨h.hasAccount_ne_null hfacts.payer, hfacts.funded, by unfold UINT32_MAX at hlen; omega,
    fun t ht => termOk_of_valid (fun id hid => h.hasAccount_ne_null hid) hfacts.replicaLimit
      (hfacts.terms t ht)⟩

/-! ### The codec of the state -/

/-- The sections counted by an unchecked `uint32_t` cast. -/
def SectionCountsFit (s : CybouState) : Prop :=
  s.publications.size < 2 ^ 32 ∧ s.leases.size < 2 ^ 32

theorem serializeCybouState_of_invariant (h : StateInvariant s) (validate : Bool) :
    serializeCybouState s validate =
      some (stateBytes s s.names.names.entries s.names.pendingCommits.entries) := by
  have hnames := h.length_names_lt (List.Perm.refl _) (List.Perm.refl _)
  have hids := serializeIdentityRegistry_of_wellFormed s.identities.wellFormed
    (h.identityCount ▸ h.accountLimit)
  have hany : s.accounts.entries.any (fun e => Hash256.isNull e.1 ||
      (s.identities.find e.1).isNone) = false := by
    rw [List.any_eq_false]
    intro e he
    obtain ⟨hnull, ⟨r, hr⟩, -⟩ := h.account e.1 e.2 (OrdMap.mem_entries_iff.mp he)
    simp [hnull, hr]
  have hlen := h.length_identities_lt
  rw [← serializeNameRegistry_eq] at hnames
  unfold serializeCybouState
  rw [if_neg (by simp [validateCybouState_eq_none.mpr h]), hids]
  simp only [hany, Bool.false_eq_true, if_false]
  rw [if_neg (by unfold UINT32_MAX; omega)]
  rfl

variable {b : Bytes}

/-- A state is read from its sections, with names and commits in any order. -/
theorem readState_eq_some {r : Bytes} (h : StateInvariant s) :
    readState b = some (s, r) ↔ SectionCountsFit s ∧
      ∃ names commits, s.names.names.entries.Perm names ∧
        s.names.pendingCommits.entries.Perm commits ∧ b = stateBytes s names commits ++ r := by
  have haccount : ∀ e : AccountId × AccountState, Hash256.isNull e.1 = false →
      ACCOUNT_SIZE ≤ (writeAccount e).length := fun e _ => by
    simp [writeAccount, ACCOUNT_SIZE, e.1.2]
  have hpublication : ∀ e : Hash256 × PublicationRecord, Hash256.isNull e.2.owner = false →
      PUBLICATION_SIZE ≤ (writePublication e).length := fun e _ => by
    simp [writePublication, PUBLICATION_SIZE, e.1.2, e.2.owner.2, e.2.chunkAuthorizationRoot.2]
  have hlease : ∀ e : Hash256 × StorageLeaseRecord, LeaseOk e →
      LEASE_SIZE ≤ (writeLease e).length := fun e _ => by
    simp only [writeLease, List.length_append, e.1.2, e.2.payer.2, length_le64, length_le32,
      length_le32Of, List.length_singleton, LEASE_SIZE]
    omega
  simp only [readState, count_exact.bind, require_bind, bind_eq_some (p := bytes _), bytes_eq_some,
    ofOption_bind, u64_exact.bind, pure_eq_some, true_and,
    fits_mapN readAccount_exact (by decide : 0 < ACCOUNT_SIZE) haccount,
    (mapN_exact readAllocation_exact _).bind,
    fits_mapN readPublication_exact (by decide : 0 < PUBLICATION_SIZE) hpublication,
    fits_mapN readLease_exact (by decide : 0 < LEASE_SIZE) hlease,
    deserializeIdentityRegistry_eq_some, deserializeNameRegistry_iff]
  constructor
  · rintro ⟨n₁, b₁, -, e₁, -, accounts, b₂, ⟨hn₁, -⟩, e₂, n₂, b₃, -, e₃, ids, b₄, ⟨hn₂, e₄⟩, h₁⟩
    obtain ⟨identities, ⟨-, hids⟩, -, -, n₃, b₅, -, e₅, nameBytes, b₆, ⟨hn₃, e₆⟩, h₁⟩ := h₁
    obtain ⟨reg, ⟨names, commits, -, -, hbytes, hnames, -, hcommits⟩, n₄, b₇, -, e₇, -, h₁⟩ := h₁
    obtain ⟨allocations, b₈, ⟨hn₄, -⟩, e₈, n₅, b₉, hfit₁, e₉, publications, b₁₀, ⟨hn₅, -⟩, h₁⟩ := h₁
    obtain ⟨e₁₀, nextPeriod, b₁₁, e₁₁, nextStart, b₁₂, e₁₂, n₆, b₁₃, hfit₂, e₁₃, leases, b₁₄, h₁⟩ := h₁
    obtain ⟨⟨hn₆, -⟩, e₁₄, hs, hr⟩ := h₁
    subst hn₁ hn₂ hn₃ hn₄ hn₅ hn₆ hids hbytes hs hr
    refine ⟨⟨hfit₁, hfit₂⟩, names, commits, hnames, hcommits, ?_⟩
    rw [e₁, e₂, e₃, e₄, e₅, e₆, e₇, e₈, e₉, e₁₀, e₁₁, e₁₂, e₁₃, e₁₄]
    simp only [stateBytes, List.append_assoc]
  · rintro ⟨⟨hfit₁, hfit₂⟩, names, commits, hnames, hcommits, hb⟩
    simp only [stateBytes, List.append_assoc] at hb
    obtain ⟨hn, hc, hlen⟩ := h.length_names_lt hnames hcommits
    have hlimit := h.accountLimit
    have hcount := h.identityCount
    have hallocations := h.allocationLimit
    have hentries : ∀ e ∈ names, NameEntryOk e := fun e he =>
      h.nameEntries e (hnames.mem_iff.mpr he)
    have hcommitEntries : ∀ e ∈ commits, NameCommitOk e := fun e he =>
      h.nameCommits e (hcommits.mem_iff.mpr he)
    refine ⟨_, _, ?_, hb, hlimit, s.accounts, _, ⟨rfl, ?_⟩, rfl, _, _, h.length_identities_lt, rfl,
      _, _, ⟨rfl, rfl⟩, s.identities, ⟨hcount ▸ hlimit, rfl⟩, hcount.symm, ?_, _, _, hlen, rfl, _, _,
      ⟨rfl, rfl⟩, s.names, ⟨names, commits, ⟨hn, hentries⟩, ⟨hc, hcommitEntries⟩, rfl, hnames,
      h.accountNames_perm.trans (hnames.map _), hcommits⟩, _, _, ?_, rfl, hallocations,
      s.genesisAllocations, _, ⟨rfl, h.allocationOk⟩, rfl, _, _, hfit₁, rfl, s.publications, _,
      ⟨rfl, ?_⟩, rfl, _, _, rfl, _, _, rfl, _, _, hfit₂, rfl, s.leases, _, ⟨rfl, h.leaseOk⟩, rfl,
      rfl, rfl⟩
    · unfold MAX_IDENTITY_REGISTRY_ACCOUNTS at hlimit
      omega
    · exact fun e he => (h.account e.1 e.2 (OrdMap.mem_entries_iff.mp he)).1
    · rw [List.all_eq_true]
      intro e he
      obtain ⟨r, hr⟩ := (h.account e.1 e.2 (OrdMap.mem_entries_iff.mp he)).2.1
      simp [hr]
    · unfold MAX_GENESIS_ALLOCATIONS at hallocations
      omega
    · exact fun e he => h.hasAccount_ne_null
        (h.publication e.1 e.2 (OrdMap.mem_entries_iff.mp he)).2.2

/-- **What `DeserializeCybouState` accepts**: the encodings of valid states,
    whose name section may list its entries in any order. -/
theorem deserializeCybouState_iff :
    deserializeCybouState b = some s ↔ StateInvariant s ∧ SectionCountsFit s ∧
      ∃ names commits, s.names.names.entries.Perm names ∧
        s.names.pendingCommits.entries.Perm commits ∧ b = stateBytes s names commits := by
  have hwhole : deserializeCybouState b = some s ↔
      readState b = some (s, []) ∧ StateInvariant s := by
    rw [← whole_eq_some, ← validateCybouState_eq_none]
    unfold deserializeCybouState
    split
    · next hnone => simp [hnone]
    · next s' hsome =>
      rw [hsome, Option.some.injEq]
      split
      · next hvalid =>
        rw [Option.some.injEq]
        exact ⟨fun heq => ⟨heq, heq ▸ hvalid⟩, And.left⟩
      · next hinvalid =>
        simp only [reduceCtorEq, false_iff, not_and]
        exact fun heq => heq ▸ hinvalid
  rw [hwhole]
  constructor
  · rintro ⟨hread, h⟩
    rw [readState_eq_some h] at hread
    exact ⟨h, by simpa using hread⟩
  · rintro ⟨h, hread⟩
    exact ⟨(readState_eq_some h).mpr (by simpa using hread), h⟩

/-- **A stored state is read back unchanged.** -/
theorem deserialize_serialize_cybouState {s : CybouState} (hvalid : validateCybouState s = .none)
    (hcounts : SectionCountsFit s) :
    ∃ b, serializeCybouState s true = some b ∧ deserializeCybouState b = some s := by
  have h := validateCybouState_eq_none.mp hvalid
  exact ⟨_, serializeCybouState_of_invariant h true, deserializeCybouState_iff.mpr
    ⟨h, hcounts, _, _, List.Perm.refl _, List.Perm.refl _, rfl⟩⟩

omit [Crypto] in
/-- A state in which every section has an entry. -/
theorem deserialize_serialize_sampleState :
    letI := Crypto.sample
    ∃ b, serializeCybouState sampleState true = some b ∧
      deserializeCybouState b = some sampleState :=
  letI := Crypto.sample
  deserialize_serialize_cybouState validateCybouState_sampleState
    ⟨by decide, by decide⟩

/-! ### How far the encoding is canonical

The name section is the only one whose reader does not compare consecutive
keys, so the bytes of a state are determined by it exactly when that section
happens to be in order. -/

omit [Crypto] in
def namesSection : Reader Bytes := do
  let accounts ← count
  let _ ← bytes (accounts * ACCOUNT_SIZE)
  let identitySize ← count
  let _ ← bytes identitySize
  let namesSize ← count
  bytes namesSize

omit [Crypto] in
def listedNames : Reader (List (Bytes × AccountId) × List (Hash256 × NameCommitRecord)) := do
  let n ← count
  let names ← repeatN readName n
  let m ← count
  let commits ← repeatN readNameCommit m
  return (names, commits)

omit [Crypto] in
/-- The name section lists its labels and its commitments in strictly
    increasing order. -/
def NamesSectionOrdered (b : Bytes) : Prop :=
  ∃ nameBytes rest names commits, namesSection b = some (nameBytes, rest) ∧
    listedNames.whole nameBytes = some (names, commits) ∧ Ascending names ∧ Ascending commits

omit [Crypto] in
theorem listedNames_nameRegistryBytes (hn : names.length < 2 ^ 32)
    (hnames : ∀ e ∈ names, NameEntryOk e) (hc : commits.length < 2 ^ 32)
    (hcommits : ∀ e ∈ commits, NameCommitOk e) :
    listedNames.whole (nameRegistryBytes names commits) = some (names, commits) := by
  simp only [whole_eq_some, listedNames, count_exact.bind, (repeatN_exact readName_exact _).bind,
    (repeatN_exact readNameCommit_exact _).bind, pure_eq_some, nameRegistryBytes, List.append_assoc]
  exact ⟨_, _, hn, rfl, names, _, ⟨rfl, hnames⟩, rfl, _, _, hc, rfl, commits, [], ⟨rfl, hcommits⟩,
    by simp, rfl, rfl⟩

omit [Crypto] in
theorem length_concat_writeAccount (l : List (AccountId × AccountState)) :
    (concat writeAccount l).length = l.length * ACCOUNT_SIZE := by
  induction l with
  | nil => simp
  | cons e l ih =>
    simp only [concat_cons, List.length_append, ih, writeAccount, e.1.2, length_le64,
      List.length_cons, ACCOUNT_SIZE]
    omega

theorem namesSection_stateBytes (h : StateInvariant s) (hnames : s.names.names.entries.Perm names)
    (hcommits : s.names.pendingCommits.entries.Perm commits) :
    ∃ rest, namesSection (stateBytes s names commits) =
      some (nameRegistryBytes names commits, rest) := by
  have hlimit := h.accountLimit
  have hlen := (h.length_names_lt hnames hcommits).2.2
  simp only [namesSection, count_exact.bind, bind_eq_some (p := bytes _), bytes_eq_some, stateBytes,
    List.append_assoc]
  refine ⟨_, s.accounts.size, _, ?_, rfl, _, _, ⟨?_, rfl⟩, _, _, h.length_identities_lt, rfl, _, _,
    ⟨rfl, rfl⟩, _, _, hlen, rfl, rfl, rfl⟩
  · unfold MAX_IDENTITY_REGISTRY_ACCOUNTS at hlimit
    omega
  · exact length_concat_writeAccount _

theorem listedNames_of_deserialize (h : deserializeCybouState b = some s) : ∃ nameBytes rest names commits,
      namesSection b = some (nameBytes, rest) ∧
      listedNames.whole nameBytes = some (names, commits) ∧ s.names.names.entries.Perm names ∧
      s.names.pendingCommits.entries.Perm commits ∧ b = stateBytes s names commits := by
  obtain ⟨hs, -, names, commits, hnames, hcommits, hb⟩ := deserializeCybouState_iff.mp h
  obtain ⟨rest, hrest⟩ := namesSection_stateBytes hs hnames hcommits
  obtain ⟨hn, hc, -⟩ := hs.length_names_lt hnames hcommits
  exact ⟨_, rest, names, commits, hb ▸ hrest,
    listedNames_nameRegistryBytes hn (fun e he => hs.nameEntries e (hnames.mem_iff.mpr he)) hc
      (fun e he => hs.nameCommits e (hcommits.mem_iff.mpr he)), hnames, hcommits, hb⟩

theorem stateBytes_injective (h : StateInvariant s)
    {names' : List (Bytes × AccountId)} {commits' : List (Hash256 × NameCommitRecord)}
    (hnames : s.names.names.entries.Perm names) (hnames' : s.names.names.entries.Perm names')
    (hcommits : s.names.pendingCommits.entries.Perm commits)
    (hcommits' : s.names.pendingCommits.entries.Perm commits')
    (heq : stateBytes s names commits = stateBytes s names' commits') :
    names = names' ∧ commits = commits' := by
  obtain ⟨rest, hrest⟩ := namesSection_stateBytes h hnames hcommits
  obtain ⟨rest', hrest'⟩ := namesSection_stateBytes h hnames' hcommits'
  rw [heq, hrest', Option.some.injEq, Prod.mk.injEq] at hrest
  have hlisted : ∀ {names commits}, s.names.names.entries.Perm names →
      s.names.pendingCommits.entries.Perm commits →
      listedNames.whole (nameRegistryBytes names commits) = some (names, commits) := by
    intro names commits hnames hcommits
    obtain ⟨hn, hc, -⟩ := h.length_names_lt hnames hcommits
    exact listedNames_nameRegistryBytes hn (fun e he => h.nameEntries e (hnames.mem_iff.mpr he)) hc
      (fun e he => h.nameCommits e (hcommits.mem_iff.mpr he))
  have := hlisted hnames' hcommits'
  rw [hrest.1, hlisted hnames hcommits, Option.some.injEq, Prod.mk.injEq] at this
  exact this

omit [Crypto] in
theorem entries_eq_of_perm {K V : Type} [LinearOrder K] {m : OrdMap K V} {l : List (K × V)}
    (hperm : m.entries.Perm l) (hasc : Ascending l) : m.entries = l :=
  congrArg OrdMap.entries (OrdMap.eq_of_perm (n := ⟨l, hasc⟩) hperm)

/-- **An accepted encoding is canonical exactly when its name section is in
    order.** -/
theorem serialize_deserialize_cybouState_iff {b : Bytes} {s : CybouState}
    (h : deserializeCybouState b = some s) :
    serializeCybouState s true = some b ↔ NamesSectionOrdered b := by
  obtain ⟨hs, -⟩ := deserializeCybouState_iff.mp h
  obtain ⟨nameBytes, rest, names, commits, hsection, hlisted, hnames, hcommits, hb⟩ :=
    listedNames_of_deserialize h
  rw [serializeCybouState_of_invariant hs true, Option.some.injEq]
  constructor
  · intro heq
    -- the canonical bytes list the maps in order, and a section has one reading
    obtain ⟨hn, hc⟩ := stateBytes_injective hs (List.Perm.refl _) hnames (List.Perm.refl _) hcommits
      (heq.trans hb)
    exact ⟨nameBytes, rest, names, commits, hsection, hlisted, hn ▸ s.names.names.ascending,
      hc ▸ s.names.pendingCommits.ascending⟩
  · rintro ⟨nameBytes', rest', names', commits', hsection', hlisted', hasc, hasc'⟩
    rw [hsection] at hsection'
    cases hsection'
    rw [hlisted] at hlisted'
    cases hlisted'
    rw [hb, entries_eq_of_perm hnames hasc, entries_eq_of_perm hcommits hasc']

end

section Sample

attribute [local instance] Crypto.sample

/-- `sampleState` with "bobby" written before "alice". -/
def reversedNamesBytes : Bytes :=
  stateBytes sampleState sampleState.names.names.entries.reverse
    sampleState.names.pendingCommits.entries

theorem deserialize_reversedNamesBytes :
    deserializeCybouState reversedNamesBytes = some sampleState :=
  deserializeCybouState_iff.mpr
    ⟨validateCybouState_eq_none.mp validateCybouState_sampleState,
      ⟨by decide, by decide⟩, _, _, (List.reverse_perm _).symm, List.Perm.refl _, rfl⟩

/-- **Two byte strings for one state**: labels out of order are accepted. -/
theorem reversedNamesBytes_not_canonical :
    deserializeCybouState reversedNamesBytes = some sampleState ∧
      serializeCybouState sampleState true ≠ some reversedNamesBytes := by
  have h := validateCybouState_eq_none.mp validateCybouState_sampleState
  refine ⟨deserialize_reversedNamesBytes, fun heq => ?_⟩
  rw [serializeCybouState_of_invariant h true, Option.some.injEq] at heq
  have hlist := stateBytes_injective h (List.Perm.refl _) (List.reverse_perm _).symm
    (List.Perm.refl _) (List.Perm.refl _) heq
  exact absurd hlist.1 (by decide)

theorem canonical_reversedNamesBytes_iff :
    deserializeCybouState reversedNamesBytes = some sampleState ∧
      (serializeCybouState sampleState true = some reversedNamesBytes ↔
        NamesSectionOrdered reversedNamesBytes) :=
  ⟨deserialize_reversedNamesBytes,
    serialize_deserialize_cybouState_iff deserialize_reversedNamesBytes⟩

end Sample

end Cybou
