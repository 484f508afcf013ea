import Cybou.NameRegistry

/-! # The canonical chain state (`state.h`) and the total supply `TotalCybou`

`totalCybou` is the saturating 64-bit sum of the source; `exactTotal` is the
sum of the same amounts as natural numbers.  They agree up to the reserved
overflow value (`toNat_totalCybou`), which is how every statement about the
supply is reduced to one about exact sums.
-/

namespace Cybou

open Library

/-! ### Records -/

structure AccountState where
  balance : UInt64 := 0
  systemBalance : UInt64 := 0
  onboardingSystemBalance : UInt64 := 0
  creationHeight : UInt64 := 0
  creationEpoch : UInt64 := 0
deriving DecidableEq, Repr

structure GenesisAllocation where
  balance : UInt64
  label : Bytes
  claimedBy : Option AccountId
deriving DecidableEq, Repr

def MAX_GENESIS_ALLOCATIONS : Nat := 16

structure PublicationRecord where
  owner : AccountId
  chunkAuthorizationRoot : ChunkId
  chunkCount : UInt32
  height : UInt64
deriving DecidableEq, Repr

abbrev StorageId := FixedBytes 32

structure StorageAcceptedBinding where
  storageId : StorageId
  payoutAccount : AccountId
  keyEpoch : UInt64
  acceptedHeight : UInt64
deriving DecidableEq, Repr

structure StorageAssignmentDeclaration where
  operationId : Hash256
  epoch : UInt64
  height : UInt64
  eligible : List StorageAcceptedBinding
deriving DecidableEq, Repr

structure StorageAssignedUnits where
  slot : UInt8
  storageId : StorageId
  payoutAccount : AccountId
  units : UInt32
deriving DecidableEq, Repr

structure StorageAcceptedAssignment where
  operationId : Hash256
  preparationId : Hash256
  seed : Hash256
  epoch : UInt64
  effectivePeriod : UInt64
  allocations : List StorageAssignedUnits
deriving DecidableEq, Repr

structure StorageServicePayment where
  slot : UInt8
  storageId : StorageId
  payoutAccount : AccountId
  verifiedUnitSeconds : UInt64
  paid : UInt64
  closedEpochCapacity : UInt64
deriving DecidableEq, Repr

structure StorageFundedTerm where
  fundingOperationId : Hash256
  firstPeriod : UInt64
  endPeriod : UInt64
  rate : UInt64
  periodSeconds : UInt64
  replicaShare : UInt64
  contractedUnitSeconds : UInt64
  initialOnboarding : UInt64
  initialLocked : UInt64
  paidOnboarding : UInt64 := 0
  paidLocked : UInt64 := 0
  nextAssignmentEpoch : UInt64 := 1
  declarations : List StorageAssignmentDeclaration := []
  assignments : List StorageAcceptedAssignment := []
  servicePayments : List StorageServicePayment := []
  refundedOnboarding : UInt64 := 0
  refundedLocked : UInt64 := 0
deriving DecidableEq, Repr

structure StorageLeaseRecord where
  payer : AccountId
  units : UInt32
  replicas : UInt8
  firstPeriod : UInt64
  endPeriod : UInt64
  escrowOnboarding : UInt64
  escrowLocked : UInt64
  fundedTerms : List StorageFundedTerm
deriving DecidableEq, Repr

def MAX_STORAGE_LEASE_REPLICAS : UInt8 := 16

structure StorageSettlementCursor where
  nextPeriod : UInt64 := 0
  nextPeriodStartUtc : UInt64 := 0
deriving DecidableEq, Repr

/-! ### Amounts -/

/-- What an allocation still holds: nothing once it is claimed, its amount then
    being part of the claimant's balance. -/
def GenesisAllocation.unclaimed (a : GenesisAllocation) : List UInt64 :=
  match a.claimedBy with
  | some _ => []
  | none => [a.balance]

def addAmounts : UInt64 → List UInt64 → Option UInt64
  | total, [] => some total
  | total, value :: rest =>
    if value ≥ UINT64_MAX - total then none else addAmounts (total + value) rest

/-! The same amounts as exact numbers. -/

def GenesisAllocation.value (a : GenesisAllocation) : Nat :=
  if a.claimedBy.isSome then 0 else a.balance.toNat

def AccountState.value (a : AccountState) : Nat := a.balance.toNat + a.systemBalance.toNat

def StorageLeaseRecord.value (l : StorageLeaseRecord) : Nat :=
  l.escrowOnboarding.toNat + l.escrowLocked.toNat

@[simp] theorem toNat_UINT64_MAX : UINT64_MAX.toNat = 2 ^ 64 - 1 := by decide

theorem addAmounts_spec (total : UInt64) (l : List UInt64) (h : total.toNat < 2 ^ 64 - 1) :
    ((addAmounts total l).getD UINT64_MAX).toNat =
      min (total.toNat + (l.map UInt64.toNat).sum) (2 ^ 64 - 1) := by
  induction l generalizing total with
  | nil =>
    simp only [addAmounts, Option.getD_some, List.map_nil, List.sum_nil]
    omega
  | cons value rest ih =>
    have hle : total ≤ UINT64_MAX := by
      rw [UInt64.le_iff_toNat_le, toNat_UINT64_MAX]
      omega
    simp only [addAmounts, List.map_cons, List.sum_cons, ge_iff_le, UInt64.le_iff_toNat_le,
      UInt64.toNat_sub_of_le _ _ hle, toNat_UINT64_MAX]
    split
    · rw [Option.getD_none, toNat_UINT64_MAX]
      omega
    · have hadd : (total + value).toNat = total.toNat + value.toNat := by
        rw [UInt64.toNat_add]
        omega
      rw [ih (total + value) (by omega), hadd, Nat.add_assoc]

theorem sum_flatten_amounts {α : Type} (l : List α) (f : α → List UInt64) (g : α → Nat)
    (h : ∀ a, ((f a).map UInt64.toNat).sum = g a) :
    (((l.map f).flatten).map UInt64.toNat).sum = (l.map g).sum := by
  induction l with
  | nil => rfl
  | cons a l ih =>
    rw [List.map_cons, List.flatten_cons, List.map_append, List.sum_append, h, ih, List.map_cons,
      List.sum_cons]

section

variable [Crypto]

/-! ### The state and its total supply -/

structure CybouState where
  accounts : OrdMap AccountId AccountState
  identities : IdentityRegistry
  names : NameRegistry
  genesisAllocations : OrdMap IdentityKeyId GenesisAllocation
  publications : OrdMap Hash256 PublicationRecord
  settlement : StorageSettlementCursor
  leases : OrdMap Hash256 StorageLeaseRecord
deriving DecidableEq

/-- The amounts `TotalCybou` adds, in the order it adds them. -/
def CybouState.amounts (s : CybouState) : List UInt64 :=
  (s.genesisAllocations.entries.map fun e => e.2.unclaimed).flatten ++
  (s.accounts.entries.map fun e => [e.2.balance, e.2.systemBalance]).flatten ++
  (s.leases.entries.map fun e => [e.2.escrowOnboarding, e.2.escrowLocked]).flatten

/-- `TotalCybou`: the sum, or the reserved overflow value. -/
def totalCybou (s : CybouState) : UInt64 := (addAmounts 0 s.amounts).getD UINT64_MAX

def exactTotal (s : CybouState) : Nat :=
  s.genesisAllocations.sum (fun _ a => a.value) + s.accounts.sum (fun _ a => a.value) +
    s.leases.sum (fun _ l => l.value)

theorem sum_amounts (s : CybouState) : (s.amounts.map UInt64.toNat).sum = exactTotal s := by
  rw [CybouState.amounts, List.map_append, List.map_append, List.sum_append, List.sum_append,
    sum_flatten_amounts _ _ (fun e => e.2.value), sum_flatten_amounts _ _ (fun e => e.2.value),
    sum_flatten_amounts _ _ (fun e => e.2.value)]
  · rfl
  · intro e
    simp [StorageLeaseRecord.value]
  · intro e
    simp [AccountState.value]
  · intro e
    unfold GenesisAllocation.unclaimed GenesisAllocation.value
    split
    · next h => simp [h]
    · next h => simp [h]

/-- **The 64-bit total is the exact total, cut off at the reserved value.** -/
theorem toNat_totalCybou (s : CybouState) :
    (totalCybou s).toNat = min (exactTotal s) (2 ^ 64 - 1) := by
  rw [totalCybou, addAmounts_spec 0 _ (by decide), sum_amounts]
  simp

theorem totalCybou_ne_max {s : CybouState} :
    totalCybou s ≠ UINT64_MAX ↔ exactTotal s < 2 ^ 64 - 1 := by
  rw [← not_iff_not, not_not, ← UInt64.toNat_inj, toNat_totalCybou, toNat_UINT64_MAX]
  omega

end

end Cybou
