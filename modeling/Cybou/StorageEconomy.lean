import Mathlib.Data.Prod.Lex
import Mathlib.Data.List.Dedup
import Cybou.State

/-! # Storage budgets, payouts and accepted capacity

`storage_economy.cpp` and `ComputeAcceptedStorageCapacity` of `storage_lease.cpp`.

All multiplications of the source are either checked or done in 128 bits; the
checked ones stay 64-bit here, the 128-bit ones are exact.
-/

namespace Cybou

open Library

/-! ### Budgets -/

def checkedMul (a b : UInt64) : Option UInt64 :=
  if a ≠ 0 ∧ b > UINT64_MAX / a then none else some (a * b)

/-- `STORAGE_RENT_DENOMINATOR`: billing units in a GiB times seconds in a day. -/
def STORAGE_RENT_DENOMINATOR : Nat := 2048 * 86400

structure AssignedStorageBudget where
  perReplica : UInt64
  total : UInt64
  contractedUnitSeconds : UInt64
deriving DecidableEq, Repr

def computeAssignedStorageBudget (units replicas periods periodSeconds rate : UInt64) :
    Option AssignedStorageBudget :=
  if units = 0 ∨ replicas = 0 ∨ periods = 0 ∨ periodSeconds = 0 ∨ rate = 0 then none
  else do
    let seconds ← checkedMul periods periodSeconds
    let unitSeconds ← checkedMul units seconds
    let numerator := unitSeconds.toNat * rate.toNat
    let share := numerator / STORAGE_RENT_DENOMINATOR +
      (if numerator % STORAGE_RENT_DENOMINATOR ≠ 0 then 1 else 0)
    if share > UINT64_MAX.toNat then none
    else do
      let total ← checkedMul (UInt64.ofNat share) replicas
      return { perReplica := UInt64.ofNat share, total, contractedUnitSeconds := unitSeconds }

def computeAssignedStoragePayout (budget : AssignedStorageBudget)
    (verifiedUnitSeconds finalizedPaid : UInt64) : Option UInt64 :=
  if budget.perReplica = 0 ∨ budget.contractedUnitSeconds = 0 ∨ budget.total < budget.perReplica ∨
      budget.total % budget.perReplica ≠ 0 ∨ verifiedUnitSeconds > budget.contractedUnitSeconds then
    none
  else
    let entitlement := UInt64.ofNat (budget.perReplica.toNat * verifiedUnitSeconds.toNat /
      budget.contractedUnitSeconds.toNat)
    if finalizedPaid > entitlement then none else some (entitlement - finalizedPaid)

def computeStorageLeaseEscrow (params : CybouProtocolParameters) (units : UInt32)
    (replicas : UInt8) (periods : UInt32) : Option UInt64 := do
  let budget ← computeAssignedStorageBudget units.toUInt64 replicas.toUInt64 periods.toUInt64
    params.storageSettlementPeriodSeconds params.storageRatePerGibDayReplica
  return budget.total

theorem budget_total_ne_zero {units replicas periods periodSeconds rate : UInt64}
    {budget : AssignedStorageBudget}
    (h : computeAssignedStorageBudget units replicas periods periodSeconds rate = some budget) :
    units ≠ 0 ∧ replicas ≠ 0 ∧ periods ≠ 0 := by
  unfold computeAssignedStorageBudget at h
  split at h
  · cases h
  · next hok =>
    push Not at hok
    exact ⟨hok.1, hok.2.1, hok.2.2.1⟩

/-! ### Accepted capacity -/

/-- `std::tie(slot, storage_id, payout_account)`. -/
abbrev ServiceKey := Lex (UInt8 × Lex (StorageId × AccountId))

def serviceKey (slot : UInt8) (storageId : StorageId) (payoutAccount : AccountId) : ServiceKey :=
  toLex (slot, toLex (storageId, payoutAccount))

def StorageAssignedUnits.key (u : StorageAssignedUnits) : ServiceKey :=
  serviceKey u.slot u.storageId u.payoutAccount

def StorageServicePayment.key (e : StorageServicePayment) : ServiceKey :=
  serviceKey e.slot e.storageId e.payoutAccount

/-- The inner loop of `ComputeAcceptedStorageCapacity`: the units an epoch gives
    to one provider slot, rejecting a second or an empty allocation. -/
def allocatedUnits (key : ServiceKey) : Option UInt32 → List StorageAssignedUnits → Option UInt32
  | found, [] => some (found.getD 0)
  | found, u :: rest =>
    if u.key ≠ key then allocatedUnits key found rest
    else if found.isSome ∨ u.units = 0 then none
    else allocatedUnits key (some u.units) rest

def epochEnd (end_ : UInt64) : List StorageAcceptedAssignment → UInt64
  | [] => end_
  | next :: _ => min end_ next.effectivePeriod

def capacityLoop (term : StorageFundedTerm) (key : ServiceKey) (end_ : UInt64) :
    Option StorageAcceptedAssignment → UInt64 → List StorageAcceptedAssignment → Option UInt64
  | _, capacity, [] => some capacity
  | prior, capacity, epoch :: rest =>
    if epoch.epoch = 0 ∨ epoch.effectivePeriod < term.firstPeriod ∨
        epoch.effectivePeriod ≥ term.endPeriod ∨
        (prior.any fun p => decide (epoch.epoch ≤ p.epoch) ||
          decide (epoch.effectivePeriod < p.effectivePeriod)) = true then none
    else
      match allocatedUnits key none epoch.allocations with
      | none => none
      | some units =>
        if epochEnd end_ rest ≤ epoch.effectivePeriod ∨ units = 0 then
          capacityLoop term key end_ (some epoch) capacity rest
        else
          match checkedMul (epochEnd end_ rest - epoch.effectivePeriod) term.periodSeconds with
          | none => none
          | some seconds =>
            match checkedMul seconds units.toUInt64 with
            | none => none
            | some increment =>
              if increment > UINT64_MAX - capacity then none
              else capacityLoop term key end_ (some epoch) (capacity + increment) rest

def computeAcceptedStorageCapacity (term : StorageFundedTerm) (slot : UInt8) (storageId : StorageId)
    (payoutAccount : AccountId) (throughPeriod closurePeriod : UInt64) : Option UInt64 :=
  if term.periodSeconds = 0 ∨ term.endPeriod ≤ term.firstPeriod ∨ isZero storageId.1 = true ∨
      Hash256.isNull payoutAccount = true ∨ throughPeriod < term.firstPeriod ∨
      closurePeriod < term.firstPeriod then none
  else
    let end_ := min (min throughPeriod closurePeriod) term.endPeriod
    match capacityLoop term (serviceKey slot storageId payoutAccount) end_ none 0 term.assignments with
    | none => none
    | some capacity => if capacity > term.contractedUnitSeconds then none else some capacity

end Cybou
