import Cybou.LeaseValidity
import Cybou.ParameterBounds
import Cybou.Library.Schedule

/-! # What a provider can be paid for (`ComputeAcceptedStorageCapacity`)

The epochs of a term are a schedule: each is in effect until the next one starts.
The loop of the source adds up segments; what it computes is the sum, over the
elapsed periods, of the units that the epoch in effect gives to a provider
(`capacityLoop_eq`).  Everything else is read off that sum.
-/

namespace Cybou

open Library

/-! ### The units of an epoch -/

def unitsOf (key : ServiceKey) (epoch : StorageAcceptedAssignment) : Nat :=
  ((epoch.allocations.filter fun u => decide (u.key = key)).map (·.units.toNat)).sum

/-- Unit-seconds up to a period, counted period by period. -/
def acceptedService (term : StorageFundedTerm) (key : ServiceKey) (end_ : UInt64)
    (epochs : List StorageAcceptedAssignment) : Nat :=
  worthUntil (fun epoch => epoch.effectivePeriod.toNat) (unitsOf key) epochs end_.toNat * term.periodSeconds.toNat

variable {l : List StorageAssignedUnits}

theorem allocatedUnits_of_forall_ne {key : ServiceKey} {found : Option UInt32}
    (h : ∀ u ∈ l, u.key ≠ key) : allocatedUnits key found l = some (found.getD 0) := by
  induction l generalizing found with
  | nil => rfl
  | cons u rest ih =>
    rw [List.forall_mem_cons] at h
    rw [allocatedUnits, if_pos h.1, ih h.2]

theorem allocatedUnits_eq {key : ServiceKey} {l : List StorageAssignedUnits}
    (hkeys : l.Pairwise fun a b => a.key < b.key) (hunits : ∀ u ∈ l, u.units ≠ 0) :
    ∃ units, allocatedUnits key none l = some units ∧
      units.toNat = ((l.filter fun u => decide (u.key = key)).map (·.units.toNat)).sum := by
  induction l with
  | nil => exact ⟨0, rfl, rfl⟩
  | cons u rest ih =>
    rw [List.pairwise_cons] at hkeys
    rw [List.forall_mem_cons] at hunits
    rw [allocatedUnits]
    by_cases hkey : u.key = key
    · have hrest : ∀ v ∈ rest, v.key ≠ key := fun v hv heq => absurd (hkeys.1 v hv) (by rw [hkey, heq]; exact lt_irrefl _)
      have hnone : rest.filter (fun v => decide (v.key = key)) = [] :=
        List.filter_eq_nil_iff.mpr fun v hv => by simpa using hrest v hv
      rw [if_neg (not_not.mpr hkey), if_neg (by simp [hunits.1]), allocatedUnits_of_forall_ne hrest,
        List.filter_cons_of_pos (by simpa using hkey), hnone]
      exact ⟨u.units, rfl, by simp⟩
    · rw [if_pos hkey, List.filter_cons_of_neg (by simpa using hkey)]
      exact ih hkeys.2 hunits.2

section

variable {lease : StorageLeaseRecord} {term : StorageFundedTerm} {nextPeriod : UInt64}

structure EpochFacts (lease : StorageLeaseRecord) (term : StorageFundedTerm) (epoch : StorageAcceptedAssignment) :
    Prop where
  first : term.firstPeriod ≤ epoch.effectivePeriod
  last : epoch.effectivePeriod < term.endPeriod
  keys : epoch.allocations.Pairwise fun a b => a.key < b.key
  units : ∀ u ∈ epoch.allocations, u.units ≠ 0
  slots : ∀ slot < lease.replicas.toNat, slotUnits slot epoch.allocations = lease.units.toNat
  slotLimit : ∀ u ∈ epoch.allocations, u.slot < lease.replicas
  declared : ∃ d ∈ term.declarations, ∀ u ∈ epoch.allocations, ∃ e ∈ d.eligible,
    e.storageId = u.storageId ∧ e.payoutAccount = u.payoutAccount

theorem allocationsValid_facts {d : StorageAssignmentDeclaration} {prior : Option ServiceKey}
    {l : List StorageAssignedUnits} (h : allocationsValid lease d prior l = true) :
    l.Pairwise (fun a b => a.key < b.key) ∧ (∀ p ∈ prior, ∀ u ∈ l, p < u.key) ∧
      (∀ u ∈ l, u.units ≠ 0) ∧ ∀ u ∈ l, u.slot < lease.replicas := by
  induction l generalizing prior with
  | nil => exact ⟨.nil, by simp, by simp, by simp⟩
  | cons u rest ih =>
    simp only [allocationsValid, Bool.and_eq_true, decide_eq_true_eq, Option.all_eq_true] at h
    obtain ⟨⟨⟨⟨⟨hslot, hunits⟩, -⟩, hprior⟩, -⟩, hrest⟩ := h
    obtain ⟨hpairwise, hafter, hnonzero, hslots⟩ := ih hrest
    refine ⟨.cons (hafter _ rfl) hpairwise, ?_, List.forall_mem_cons.mpr ⟨hunits, hnonzero⟩,
      List.forall_mem_cons.mpr ⟨hslot, hslots⟩⟩
    intro p hp
    exact List.forall_mem_cons.mpr ⟨hprior p hp, fun v hv => lt_trans (hprior p hp) (hafter _ rfl v hv)⟩

theorem assignmentValid_facts {epoch : StorageAcceptedAssignment}
    (h : assignmentValid lease term nextPeriod epoch = true) : EpochFacts lease term epoch := by
  unfold assignmentValid at h
  split at h
  · cases h
  next d hd =>
  simp only [Bool.and_eq_true, decide_eq_true_eq, List.all_eq_true, List.mem_range] at h
  obtain ⟨⟨⟨⟨⟨⟨⟨-, hfirst⟩, hlast⟩, -⟩, -⟩, -⟩, hallocations⟩, hslots⟩ := h
  obtain ⟨hkeys, -, hunits, hlimit⟩ := allocationsValid_facts hallocations
  exact
    { first := hfirst, last := hlast, keys := hkeys, units := hunits, slots := hslots, slotLimit := hlimit
      declared := ⟨d, List.mem_of_find?_eq_some hd, allocationsValid_mem hallocations⟩ }

theorem assignmentsValid_ordered {priorEpoch priorPeriod : UInt64} {l : List StorageAcceptedAssignment}
    (h : assignmentsValid lease term nextPeriod priorEpoch priorPeriod l = true) :
    l.Pairwise (fun a b => a.effectivePeriod.toNat ≤ b.effectivePeriod.toNat) ∧
      (priorEpoch ≠ 0 → ∀ a ∈ l, priorPeriod.toNat ≤ a.effectivePeriod.toNat) := by
  induction l generalizing priorEpoch priorPeriod with
  | nil => exact ⟨.nil, by simp⟩
  | cons a rest ih =>
    simp only [assignmentsValid, Bool.and_eq_true, Bool.or_eq_true, decide_eq_true_eq] at h
    obtain ⟨⟨⟨-, hepoch⟩, hperiod⟩, hrest⟩ := h
    obtain ⟨hpairwise, hafter⟩ := ih hrest
    have hpositive : a.epoch ≠ 0 := UInt64.pos_iff_ne_zero.mp (UInt64.lt_of_le_of_lt UInt64.zero_le hepoch)
    refine ⟨.cons (hafter hpositive) hpairwise, ?_⟩
    intro hprior
    have hle := UInt64.le_iff_toNat_le.mp (hperiod.resolve_left hprior)
    exact List.forall_mem_cons.mpr ⟨hle, fun b hb => Nat.le_trans hle (hafter hpositive b hb)⟩

/-! ### The loop -/

theorem toNat_epochEnd (end_ : UInt64) (rest : List StorageAcceptedAssignment) :
    (epochEnd end_ rest).toNat = segmentEnd (fun epoch => epoch.effectivePeriod.toNat) end_.toNat rest := by
  cases rest with
  | nil => rfl
  | cons next rest => rw [epochEnd, segmentEnd, UInt64.toNat_min]

/-- **The loop adds up the service period by period.** -/
theorem capacityLoop_eq {key : ServiceKey} {end_ capacity priorEpoch priorPeriod : UInt64}
    {prior : Option StorageAcceptedAssignment} {epochs : List StorageAcceptedAssignment}
    (h : assignmentsValid lease term nextPeriod priorEpoch priorPeriod epochs = true)
    (hprior : ∀ p ∈ prior, p.epoch = priorEpoch ∧ p.effectivePeriod = priorPeriod ∧ p.epoch ≠ 0)
    (hfits : capacity.toNat + acceptedService term key end_ epochs < 2 ^ 64) :
    ∃ result, capacityLoop term key end_ prior capacity epochs = some result ∧
      result.toNat = capacity.toNat + acceptedService term key end_ epochs := by
  induction epochs generalizing prior capacity priorEpoch priorPeriod with
  | nil =>
    refine ⟨capacity, rfl, ?_⟩
    rw [acceptedService, worthUntil_nil, Nat.zero_mul, Nat.add_zero]
  | cons epoch rest ih =>
    have hordered := (assignmentsValid_ordered h).1
    simp only [assignmentsValid, Bool.and_eq_true, Bool.or_eq_true, decide_eq_true_eq] at h
    obtain ⟨⟨⟨hepoch, hnumber⟩, hperiod⟩, hrest⟩ := h
    have hfacts := assignmentValid_facts hepoch
    have hpositive : epoch.epoch ≠ 0 := UInt64.pos_iff_ne_zero.mp (UInt64.lt_of_le_of_lt UInt64.zero_le hnumber)
    have hafter : ¬(prior.any fun p => decide (epoch.epoch ≤ p.epoch) ||
        decide (epoch.effectivePeriod < p.effectivePeriod)) = true := by
      rw [Option.any_eq_true]
      rintro ⟨p, hp, hlate⟩
      obtain ⟨hnumber', hperiod', hne⟩ := hprior p hp
      rw [Bool.or_eq_true, decide_eq_true_eq, decide_eq_true_eq, hnumber', hperiod'] at hlate
      rcases hlate with hlate | hlate
      · exact absurd hnumber (UInt64.not_lt.mpr hlate)
      · exact absurd (hperiod.resolve_left (hnumber' ▸ hne)) (UInt64.not_le.mpr hlate)
    obtain ⟨units, hunits, hsum⟩ := @allocatedUnits_eq key _ hfacts.keys hfacts.units
    have hsegment := @worthUntil_cons _ (fun epoch => epoch.effectivePeriod.toNat) (unitsOf key) rest epoch
      end_.toNat (List.pairwise_cons.mp hordered).2
    rw [← toNat_epochEnd] at hsegment
    have hservice : acceptedService term key end_ (epoch :: rest) =
        ((epochEnd end_ rest).toNat - epoch.effectivePeriod.toNat) * term.periodSeconds.toNat * units.toNat +
          acceptedService term key end_ rest := by
      rw [acceptedService, acceptedService, hsegment, hsum, unitsOf]
      ring
    have hnext : ∀ p ∈ some epoch, p.epoch = epoch.epoch ∧ p.effectivePeriod = epoch.effectivePeriod ∧
        p.epoch ≠ 0 := by
      intro p hp
      cases hp
      exact ⟨rfl, rfl, hpositive⟩
    have hguard : ¬(epoch.epoch = 0 ∨ epoch.effectivePeriod < term.firstPeriod ∨
        epoch.effectivePeriod ≥ term.endPeriod ∨ (prior.any fun p => decide (epoch.epoch ≤ p.epoch) ||
          decide (epoch.effectivePeriod < p.effectivePeriod)) = true) := by
      rintro (hzero | hfirst | hlast | hlate)
      · exact hpositive hzero
      · exact UInt64.not_lt.mpr hfacts.first hfirst
      · exact UInt64.not_lt.mpr hlast hfacts.last
      · exact hafter hlate
    rw [hservice] at hfits ⊢
    rw [capacityLoop, if_neg hguard, hunits]
    dsimp only
    by_cases hskip : epochEnd end_ rest ≤ epoch.effectivePeriod ∨ units = 0
    · have hnothing : ((epochEnd end_ rest).toNat - epoch.effectivePeriod.toNat) * term.periodSeconds.toNat *
          units.toNat = 0 := by
        rcases hskip with hover | rfl
        · rw [UInt64.le_iff_toNat_le] at hover
          rw [Nat.sub_eq_zero_of_le hover, Nat.zero_mul, Nat.zero_mul]
        · exact Nat.mul_zero _
      rw [if_pos hskip, hnothing, Nat.zero_add]
      rw [hnothing, Nat.zero_add] at hfits
      exact ih hrest hnext hfits
    · rw [if_neg hskip]
      push Not at hskip
      have hover : epoch.effectivePeriod ≤ epochEnd end_ rest := UInt64.le_of_lt (UInt64.not_le.mp hskip.1)
      have hunit : 1 ≤ units.toNat := Nat.one_le_iff_ne_zero.mpr fun hzero => hskip.2 (UInt32.toNat_inj.mp hzero)
      have hlength : (epochEnd end_ rest - epoch.effectivePeriod).toNat =
          (epochEnd end_ rest).toNat - epoch.effectivePeriod.toNat := UInt64.toNat_sub_of_le _ _ hover
      rw [← hlength] at hfits ⊢
      have hseconds : (epochEnd end_ rest - epoch.effectivePeriod).toNat * term.periodSeconds.toNat < 2 ^ 64 := by
        have hle := Nat.le_mul_of_pos_right
          ((epochEnd end_ rest - epoch.effectivePeriod).toNat * term.periodSeconds.toNat) hunit
        omega
      rw [checkedMul_eq, if_pos hseconds]
      dsimp only
      rw [← toNat_mul_of_lt hseconds, ← UInt32.toNat_toUInt64 units] at hfits ⊢
      have hproduct : ((epochEnd end_ rest - epoch.effectivePeriod) * term.periodSeconds).toNat *
          units.toUInt64.toNat < 2 ^ 64 := by omega
      rw [checkedMul_eq, if_pos hproduct]
      dsimp only
      rw [← toNat_mul_of_lt hproduct] at hfits ⊢
      generalize (epochEnd end_ rest - epoch.effectivePeriod) * term.periodSeconds * units.toUInt64 =
        increment at hfits ⊢
      have hsum : (capacity + increment).toNat = capacity.toNat + increment.toNat :=
        toNat_add_of_lt (by omega)
      have hroom : ¬increment > UINT64_MAX - capacity := by
        have hcapacity : capacity ≤ UINT64_MAX := by
          rw [UInt64.le_iff_toNat_le, toNat_UINT64_MAX]
          omega
        rw [gt_iff_lt, UInt64.lt_iff_toNat_lt, UInt64.toNat_sub_of_le _ _ hcapacity, toNat_UINT64_MAX]
        omega
      rw [if_neg hroom, ← Nat.add_assoc, ← hsum]
      exact ih hrest hnext (by omega)

end

/-! ### The invariants of a term -/

structure AssignmentInvariants (hasAccount : AccountId → Bool) (keyEpoch : AccountId → Option UInt64)
    (nextPeriod : UInt64) (lease : StorageLeaseRecord) (term : StorageFundedTerm) : Prop where
  budget : ∃ budget, term.budget lease = some budget ∧ budget.contractedUnitSeconds = term.contractedUnitSeconds
  periods : term.firstPeriod < term.endPeriod
  declarations : declarationsValid hasAccount keyEpoch lease term 0 0 term.declarations = true
  assignments : assignmentsValid lease term nextPeriod 0 0 term.assignments = true
  accounts : ∀ id, hasAccount id = true → Hash256.isNull id = false

variable {term : StorageFundedTerm}

/-- **Every term of a valid state has them.** -/
theorem StateInvariant.assignmentInvariants [Crypto] {s : CybouState} {id : Hash256}
    {lease : StorageLeaseRecord} (h : StateInvariant s)
    (hlease : s.leases.find? id = some lease) (hterm : term ∈ lease.fundedTerms) :
    AssignmentInvariants s.hasAccount s.keyEpoch s.settlement.nextPeriod lease term := by
  have hvalid := (leaseValid_iff.mp (h.lease id lease hlease)).terms term hterm
  obtain ⟨budget, hbudget, hfacts⟩ := termValid_iff.mp hvalid
  refine ⟨⟨budget, hbudget, hfacts.seconds⟩, hfacts.periods, hfacts.declarations, hfacts.assignments, ?_⟩
  intro account haccount
  obtain ⟨a, ha⟩ := OrdMap.contains_iff.mp haccount
  exact (h.account account a ha).1

theorem budget_contracted {units replicas periods periodSeconds rate : UInt64} {budget : AssignedStorageBudget}
    (h : computeAssignedStorageBudget units replicas periods periodSeconds rate = some budget) :
    periodSeconds ≠ 0 ∧
      budget.contractedUnitSeconds.toNat = units.toNat * (periods.toNat * periodSeconds.toNat) := by
  unfold computeAssignedStorageBudget at h
  split at h
  · cases h
  next hok =>
  push Not at hok
  obtain ⟨seconds, hseconds, h⟩ := Option.bind_eq_some_iff.mp h
  obtain ⟨unitSeconds, hunitSeconds, h⟩ := Option.bind_eq_some_iff.mp h
  dsimp only at h
  generalize unitSeconds.toNat * rate.toNat / STORAGE_RENT_DENOMINATOR +
    (if unitSeconds.toNat * rate.toNat % STORAGE_RENT_DENOMINATOR ≠ 0 then 1 else 0) = share at h
  split at h
  · cases h
  obtain ⟨total, -, h⟩ := Option.bind_eq_some_iff.mp h
  cases h
  rw [checkedMul_eq] at hseconds hunitSeconds
  split at hseconds
  · next hperiods =>
    cases hseconds
    split at hunitSeconds
    · next hunits =>
      cases hunitSeconds
      exact ⟨hok.2.2.2.1, by rw [toNat_mul_of_lt hunits, toNat_mul_of_lt hperiods]⟩
    · cases hunitSeconds
  · cases hseconds

variable {slot : UInt8} {storageId : StorageId} {payoutAccount : AccountId}
  {closurePeriod throughPeriod : UInt64}

theorem periods_of_capacity {capacity : UInt64}
    (h : computeAcceptedStorageCapacity term slot storageId payoutAccount throughPeriod closurePeriod =
      some capacity) : term.firstPeriod ≤ throughPeriod ∧ term.firstPeriod ≤ closurePeriod := by
  unfold computeAcceptedStorageCapacity at h
  split at h
  · cases h
  · next hguard =>
    push Not at hguard
    exact ⟨UInt64.not_lt.mp hguard.2.2.2.2.1, UInt64.not_lt.mp hguard.2.2.2.2.2⟩

theorem capacity_undefined (h : ¬(isZero storageId.1 = false ∧ Hash256.isNull payoutAccount = false ∧
      term.firstPeriod ≤ throughPeriod ∧ term.firstPeriod ≤ closurePeriod)) :
    computeAcceptedStorageCapacity term slot storageId payoutAccount throughPeriod closurePeriod = none := by
  rw [computeAcceptedStorageCapacity, if_pos]
  by_contra hguard
  push Not at hguard
  exact h ⟨Bool.eq_false_of_not_eq_true hguard.2.2.1, Bool.eq_false_of_not_eq_true hguard.2.2.2.1,
    UInt64.not_lt.mp hguard.2.2.2.2.1, UInt64.not_lt.mp hguard.2.2.2.2.2⟩

theorem eligibleValid_storageId {hasAccount : AccountId → Bool} {keyEpoch : AccountId → Option UInt64}
    {payer : AccountId} {height : UInt64} {prior : Option StorageId} {l : List StorageAcceptedBinding}
    (h : eligibleValid hasAccount keyEpoch payer height prior l = true) :
    ∀ e ∈ l, isZero e.storageId.1 = false := by
  induction l generalizing prior with
  | nil => simp
  | cons e rest ih =>
    simp only [eligibleValid, Bool.and_eq_true, Bool.not_eq_true'] at h
    exact List.forall_mem_cons.mpr ⟨h.1.1.1.1.1.1, ih h.2⟩

/-! ### The units of a slot -/

/-- **What the providers of a slot have together is what the epoch gives to the slot.** -/
theorem sum_unitsOf {keys : Finset (StorageId × AccountId)}
    (h : ∀ u ∈ l, u.slot = slot → (u.storageId, u.payoutAccount) ∈ keys) :
    ∑ k ∈ keys, ((l.filter fun u => decide (u.key = serviceKey slot k.1 k.2)).map (·.units.toNat)).sum =
      slotUnits slot.toNat l := by
  induction l with
  | nil => exact Finset.sum_eq_zero fun _ _ => rfl
  | cons u rest ih =>
    rw [List.forall_mem_cons] at h
    have hsplit : ∀ k : StorageId × AccountId,
        (((u :: rest).filter fun u => decide (u.key = serviceKey slot k.1 k.2)).map (·.units.toNat)).sum =
          (if u.key = serviceKey slot k.1 k.2 then u.units.toNat else 0) +
            ((rest.filter fun u => decide (u.key = serviceKey slot k.1 k.2)).map (·.units.toNat)).sum := by
      intro k
      by_cases hkey : u.key = serviceKey slot k.1 k.2 <;> simp [hkey]
    simp only [hsplit]
    rw [Finset.sum_add_distrib, ih h.2]
    have hkey : ∀ k : StorageId × AccountId, u.key = serviceKey slot k.1 k.2 ↔
        u.slot = slot ∧ (u.storageId, u.payoutAccount) = k := by
      intro k
      simp only [StorageAssignedUnits.key, serviceKey, toLex_inj, Prod.ext_iff]
    simp only [hkey]
    by_cases hslot : u.slot = slot
    · simp only [hslot, true_and]
      rw [Finset.sum_ite_eq, if_pos (h.1 hslot)]
      simp [slotUnits, hslot]
    · have hne : ¬u.slot.toNat = slot.toNat := fun heq => hslot (UInt8.toNat_inj.mp heq)
      simp [slotUnits, hslot, hne]

section

variable {hasAccount : AccountId → Bool} {keyEpoch : AccountId → Option UInt64} {nextPeriod : UInt64}
  {lease : StorageLeaseRecord} {term : StorageFundedTerm}

theorem EpochFacts.unitsOf_le {epoch : StorageAcceptedAssignment} (h : EpochFacts lease term epoch)
    (slot : UInt8) (storageId : StorageId) (payoutAccount : AccountId) :
    unitsOf (serviceKey slot storageId payoutAccount) epoch ≤ lease.units.toNat := by
  by_cases hslot : slot < lease.replicas
  · rw [← h.slots slot.toNat (UInt8.lt_iff_toNat_lt.mp hslot)]
    let keys := insert (storageId, payoutAccount)
      (epoch.allocations.map fun u => (u.storageId, u.payoutAccount)).toFinset
    have hkeys : ∀ u ∈ epoch.allocations, u.slot = slot → (u.storageId, u.payoutAccount) ∈ keys := by
      intro u hu _
      exact Finset.mem_insert_of_mem (List.mem_toFinset.mpr (List.mem_map.mpr ⟨u, hu, rfl⟩))
    rw [← sum_unitsOf hkeys]
    have hown : (storageId, payoutAccount) ∈ keys := Finset.mem_insert_self _ _
    exact Finset.single_le_sum (f := fun k : StorageId × AccountId => unitsOf (serviceKey slot k.1 k.2) epoch)
      (fun _ _ => Nat.zero_le _) hown
  · have hnone : epoch.allocations.filter (fun u => decide (u.key = serviceKey slot storageId payoutAccount)) =
        [] := by
      rw [List.filter_eq_nil_iff]
      intro u hu hkey
      have heq : u.slot = slot := congrArg (fun key : ServiceKey => (ofLex key).1) (of_decide_eq_true hkey)
      exact hslot (heq ▸ h.slotLimit u hu)
    rw [unitsOf, hnone]
    exact Nat.zero_le _

namespace AssignmentInvariants

theorem facts (h : AssignmentInvariants hasAccount keyEpoch nextPeriod lease term) :
    ∀ epoch ∈ term.assignments, EpochFacts lease term epoch :=
  fun epoch hepoch => assignmentValid_facts (assignmentsValid_mem h.assignments epoch hepoch)

theorem contracted (h : AssignmentInvariants hasAccount keyEpoch nextPeriod lease term) :
    term.periodSeconds ≠ 0 ∧ term.contractedUnitSeconds.toNat = lease.units.toNat *
      ((term.endPeriod.toNat - term.firstPeriod.toNat) * term.periodSeconds.toNat) := by
  obtain ⟨budget, hbudget, hseconds⟩ := h.budget
  obtain ⟨hperiod, hcontracted⟩ := budget_contracted hbudget
  rw [hseconds, UInt32.toNat_toUInt64, UInt64.toNat_sub_of_le _ _ (UInt64.le_of_lt h.periods)] at hcontracted
  exact ⟨hperiod, hcontracted⟩

/-- **No provider serves more than the term contracts for.** -/
theorem service_le (h : AssignmentInvariants hasAccount keyEpoch nextPeriod lease term) {end_ : UInt64}
    (hend : end_ ≤ term.endPeriod) (slot : UInt8) (storageId : StorageId) (payoutAccount : AccountId) :
    acceptedService term (serviceKey slot storageId payoutAccount) end_ term.assignments ≤
      term.contractedUnitSeconds.toNat := by
  have hworth := @worthUntil_le _ (fun epoch => epoch.effectivePeriod.toNat)
    (unitsOf (serviceKey slot storageId payoutAccount)) term.assignments end_.toNat term.firstPeriod.toNat
    lease.units.toNat (fun epoch hepoch => UInt64.le_iff_toNat_le.mp (h.facts epoch hepoch).first)
    (fun epoch hepoch => (h.facts epoch hepoch).unitsOf_le slot storageId payoutAccount)
  rw [UInt64.le_iff_toNat_le] at hend
  rw [acceptedService, h.contracted.2]
  calc worthUntil _ _ _ _ * term.periodSeconds.toNat
    _ ≤ (end_.toNat - term.firstPeriod.toNat) * lease.units.toNat * term.periodSeconds.toNat :=
      Nat.mul_le_mul_right _ hworth
    _ ≤ (term.endPeriod.toNat - term.firstPeriod.toNat) * lease.units.toNat * term.periodSeconds.toNat := by
      refine Nat.mul_le_mul_right _ (Nat.mul_le_mul_right _ ?_)
      omega
    _ = lease.units.toNat * ((term.endPeriod.toNat - term.firstPeriod.toNat) * term.periodSeconds.toNat) := by
      ring

/-- **The capacity is the service up to the end of what has elapsed.** -/
theorem capacity_eq (h : AssignmentInvariants hasAccount keyEpoch nextPeriod lease term) {slot : UInt8}
    {storageId : StorageId} {payoutAccount : AccountId} {throughPeriod closurePeriod : UInt64}
    (hstorage : isZero storageId.1 = false) (haccount : Hash256.isNull payoutAccount = false)
    (hthrough : term.firstPeriod ≤ throughPeriod) (hclosure : term.firstPeriod ≤ closurePeriod) :
    ∃ capacity, computeAcceptedStorageCapacity term slot storageId payoutAccount throughPeriod closurePeriod =
        some capacity ∧ capacity ≤ term.contractedUnitSeconds ∧
      capacity.toNat = acceptedService term (serviceKey slot storageId payoutAccount)
        (min (min throughPeriod closurePeriod) term.endPeriod) term.assignments := by
  have hend : min (min throughPeriod closurePeriod) term.endPeriod ≤ term.endPeriod := by
    rw [UInt64.le_iff_toNat_le, UInt64.toNat_min]
    exact min_le_right _ _
  have hle := h.service_le hend slot storageId payoutAccount
  have hbound := term.contractedUnitSeconds.toNat_lt
  have hguard : ¬(term.periodSeconds = 0 ∨ term.endPeriod ≤ term.firstPeriod ∨ isZero storageId.1 = true ∨
      Hash256.isNull payoutAccount = true ∨ throughPeriod < term.firstPeriod ∨
      closurePeriod < term.firstPeriod) := by
    rintro (hzero | hempty | hstorage' | haccount' | hearly | hearly)
    · exact h.contracted.1 hzero
    · exact UInt64.not_lt.mpr hempty h.periods
    · cases hstorage'.symm.trans hstorage
    · cases haccount'.symm.trans haccount
    · exact UInt64.not_lt.mpr hthrough hearly
    · exact UInt64.not_lt.mpr hclosure hearly
  obtain ⟨capacity, hloop, hcapacity⟩ := @capacityLoop_eq lease term nextPeriod
    (serviceKey slot storageId payoutAccount) (min (min throughPeriod closurePeriod) term.endPeriod) 0 0 0 none
    term.assignments h.assignments (by simp) (by rw [UInt64.toNat_zero]; omega)
  rw [UInt64.toNat_zero, Nat.zero_add] at hcapacity
  have hlimit : capacity ≤ term.contractedUnitSeconds := by
    rw [UInt64.le_iff_toNat_le, hcapacity]
    exact hle
  refine ⟨capacity, ?_, hlimit, hcapacity⟩
  rw [computeAcceptedStorageCapacity, if_neg hguard]
  dsimp only
  rw [hloop]
  exact if_neg (UInt64.not_lt.mpr hlimit)

theorem allocated (h : AssignmentInvariants hasAccount keyEpoch nextPeriod lease term)
    {epoch : StorageAcceptedAssignment} (hepoch : epoch ∈ term.assignments) :
    ∀ u ∈ epoch.allocations, isZero u.storageId.1 = false ∧ Hash256.isNull u.payoutAccount = false := by
  intro u hu
  obtain ⟨d, hd, hdeclared⟩ := (h.facts epoch hepoch).declared
  obtain ⟨e, he, hstorage, haccount⟩ := hdeclared u hu
  have hvalid := declarationsValid_mem h.declarations d hd
  simp only [declarationValid, Bool.and_eq_true] at hvalid
  have heligible := hvalid.1.2
  rw [← hstorage, ← haccount]
  exact ⟨eligibleValid_storageId heligible e he, h.accounts _ (eligibleValid_mem heligible e he)⟩

theorem toNat_capacity (h : AssignmentInvariants hasAccount keyEpoch nextPeriod lease term) {slot : UInt8}
    {storageId : StorageId} {payoutAccount : AccountId} {throughPeriod closurePeriod : UInt64}
    (hthrough : term.firstPeriod ≤ throughPeriod) (hclosure : term.firstPeriod ≤ closurePeriod) :
    ((computeAcceptedStorageCapacity term slot storageId payoutAccount throughPeriod closurePeriod).getD 0).toNat =
      acceptedService term (serviceKey slot storageId payoutAccount)
        (min (min throughPeriod closurePeriod) term.endPeriod) term.assignments := by
  by_cases hknown : isZero storageId.1 = false ∧ Hash256.isNull payoutAccount = false
  · obtain ⟨capacity, hcapacity, -, hservice⟩ := @capacity_eq _ _ _ _ _ h slot _ _ _ _ hknown.1 hknown.2
      hthrough hclosure
    rw [hcapacity, Option.getD_some, hservice]
  · have hnone : computeAcceptedStorageCapacity term slot storageId payoutAccount throughPeriod closurePeriod =
        none := capacity_undefined fun hdefined => hknown ⟨hdefined.1, hdefined.2.1⟩
    have hworth : ∀ epoch ∈ term.assignments, unitsOf (serviceKey slot storageId payoutAccount) epoch = 0 := by
      intro epoch hepoch
      have hempty : epoch.allocations.filter
          (fun u => decide (u.key = serviceKey slot storageId payoutAccount)) = [] := by
        rw [List.filter_eq_nil_iff]
        intro u hu hkey
        have heq := of_decide_eq_true hkey
        simp only [StorageAssignedUnits.key, serviceKey, toLex_inj, Prod.mk.injEq] at heq
        have hallocated := h.allocated hepoch u hu
        rw [heq.2.1, heq.2.2] at hallocated
        exact hknown hallocated
      rw [unitsOf, hempty]
      rfl
    rw [hnone, acceptedService, worthUntil_of_const hworth, Nat.zero_mul, Nat.zero_mul]
    rfl

/-- **A new epoch leaves what was before it alone.** -/
theorem capacity_kept {hasAccount' : AccountId → Bool} {keyEpoch' : AccountId → Option UInt64} {nextPeriod' : UInt64}
    {lease' : StorageLeaseRecord} {term' : StorageFundedTerm}
    (h : AssignmentInvariants hasAccount keyEpoch nextPeriod lease term)
    (h' : AssignmentInvariants hasAccount' keyEpoch' nextPeriod' lease' term')
    (hfirst : term'.firstPeriod = term.firstPeriod) (hend : term'.endPeriod = term.endPeriod)
    (hseconds : term'.periodSeconds = term.periodSeconds) {newest : Option StorageAcceptedAssignment}
    {throughPeriod : UInt64} (hassignments : term'.assignments = term.assignments ++ newest.toList)
    (hbefore : ∀ epoch ∈ newest, throughPeriod ≤ epoch.effectivePeriod) (slot : UInt8) (storageId : StorageId)
    (payoutAccount : AccountId) (closurePeriod : UInt64) :
    computeAcceptedStorageCapacity term' slot storageId payoutAccount throughPeriod closurePeriod =
      computeAcceptedStorageCapacity term slot storageId payoutAccount throughPeriod closurePeriod := by
  by_cases hdefined : isZero storageId.1 = false ∧ Hash256.isNull payoutAccount = false ∧
      term.firstPeriod ≤ throughPeriod ∧ term.firstPeriod ≤ closurePeriod
  · obtain ⟨hstorage, haccount, hthrough, hclosure⟩ := hdefined
    obtain ⟨capacity, hcapacity, -, hservice⟩ := @capacity_eq _ _ _ _ _ h slot _ _ _ _ hstorage haccount hthrough
      hclosure
    obtain ⟨capacity', hcapacity', -, hservice'⟩ := @capacity_eq _ _ _ _ _ h' slot _ _ _ _ hstorage haccount
      (hfirst ▸ hthrough) (hfirst ▸ hclosure)
    have hworth : ∀ end_ : Nat, end_ ≤ throughPeriod.toNat →
        worthUntil (fun epoch => epoch.effectivePeriod.toNat) (unitsOf (serviceKey slot storageId payoutAccount))
          (term.assignments ++ newest.toList) end_ =
        worthUntil (fun epoch => epoch.effectivePeriod.toNat) (unitsOf (serviceKey slot storageId payoutAccount))
          term.assignments end_ := by
      intro end_ hle
      cases newest with
      | none => rw [Option.toList_none, List.append_nil]
      | some epoch =>
        exact worthUntil_append (Nat.le_trans hle (UInt64.le_iff_toNat_le.mp (hbefore epoch rfl)))
    rw [hcapacity, hcapacity', Option.some.injEq, ← UInt64.toNat_inj, hservice, hservice', acceptedService,
      acceptedService, hassignments, hseconds, hend, hworth]
    simp only [UInt64.toNat_min]
    omega
  · rw [capacity_undefined hdefined]
    exact capacity_undefined (hfirst ▸ hdefined)

end AssignmentInvariants

/-- **The accepted capacity**: it is defined and no more than what is contracted, it
    grows with both periods, a new epoch leaves what was before it alone, and the
    providers of a slot share the units of the lease, period by period. -/
theorem accepted_capacity (h : AssignmentInvariants hasAccount keyEpoch nextPeriod lease term) :
    (∀ slot storageId payoutAccount throughPeriod closurePeriod, isZero storageId.1 = false →
      Hash256.isNull payoutAccount = false → term.firstPeriod ≤ throughPeriod →
      term.firstPeriod ≤ closurePeriod → ∃ capacity,
        computeAcceptedStorageCapacity term slot storageId payoutAccount throughPeriod closurePeriod =
          some capacity ∧ capacity ≤ term.contractedUnitSeconds) ∧
    (∀ slot storageId payoutAccount throughPeriod throughPeriod' closurePeriod closurePeriod' capacity capacity',
      throughPeriod ≤ throughPeriod' → closurePeriod ≤ closurePeriod' →
      computeAcceptedStorageCapacity term slot storageId payoutAccount throughPeriod closurePeriod =
        some capacity →
      computeAcceptedStorageCapacity term slot storageId payoutAccount throughPeriod' closurePeriod' =
        some capacity' → capacity ≤ capacity') ∧
    (∀ epoch, AssignmentInvariants hasAccount keyEpoch nextPeriod lease
        { term with assignments := term.assignments ++ [epoch] } →
      ∀ slot storageId payoutAccount throughPeriod closurePeriod, throughPeriod ≤ epoch.effectivePeriod →
        computeAcceptedStorageCapacity { term with assignments := term.assignments ++ [epoch] } slot storageId
          payoutAccount throughPeriod closurePeriod =
        computeAcceptedStorageCapacity term slot storageId payoutAccount throughPeriod closurePeriod) ∧
    ∀ slot < lease.replicas, ∀ throughPeriod closurePeriod, term.firstPeriod ≤ throughPeriod →
      term.firstPeriod ≤ closurePeriod → ∀ keys : Finset (StorageId × AccountId),
        (∀ epoch ∈ term.assignments, ∀ u ∈ epoch.allocations, u.slot = slot →
          (u.storageId, u.payoutAccount) ∈ keys) →
        ∑ k ∈ keys, ((computeAcceptedStorageCapacity term slot k.1 k.2 throughPeriod closurePeriod).getD 0).toNat =
          lease.units.toNat * term.periodSeconds.toNat *
            ((Finset.range (min (min throughPeriod closurePeriod) term.endPeriod).toNat).filter
              fun period => ∃ epoch ∈ term.assignments, epoch.effectivePeriod.toNat ≤ period).card := by
  refine ⟨?_, ?_, ?_, ?_⟩
  · intro slot storageId payoutAccount throughPeriod closurePeriod hstorage haccount hthrough hclosure
    obtain ⟨capacity, hcapacity, hle, -⟩ := @AssignmentInvariants.capacity_eq _ _ _ _ _ h slot _ _ _ _
      hstorage haccount hthrough hclosure
    exact ⟨capacity, hcapacity, hle⟩
  · intro slot storageId payoutAccount throughPeriod throughPeriod' closurePeriod closurePeriod' capacity
      capacity' hthrough hclosure hcapacity hcapacity'
    obtain ⟨hfirst, hfirst'⟩ := periods_of_capacity hcapacity
    have hservice := @AssignmentInvariants.toNat_capacity _ _ _ _ _ h slot storageId payoutAccount _ _ hfirst
      hfirst'
    have hservice' := @AssignmentInvariants.toNat_capacity _ _ _ _ _ h slot storageId payoutAccount _ _
      (UInt64.le_trans hfirst hthrough) (UInt64.le_trans hfirst' hclosure)
    rw [hcapacity, Option.getD_some] at hservice
    rw [hcapacity', Option.getD_some] at hservice'
    rw [UInt64.le_iff_toNat_le] at hthrough hclosure ⊢
    rw [hservice, hservice']
    refine Nat.mul_le_mul_right _ (worthUntil_mono ?_)
    simp only [UInt64.toNat_min]
    omega
  · intro epoch h' slot storageId payoutAccount throughPeriod closurePeriod hbefore
    have happend : ({ term with assignments := term.assignments ++ [epoch] } : StorageFundedTerm).assignments =
        term.assignments ++ (some epoch).toList := rfl
    refine h.capacity_kept h' rfl rfl rfl happend ?_ slot storageId payoutAccount closurePeriod
    rintro last ⟨⟩
    exact hbefore
  · intro slot hslot throughPeriod closurePeriod hthrough hclosure keys hkeys
    have hunits : ∀ epoch ∈ term.assignments,
        ∑ k ∈ keys, unitsOf (serviceKey slot k.1 k.2) epoch = lease.units.toNat := by
      intro epoch hepoch
      rw [← (h.facts epoch hepoch).slots slot.toNat (UInt8.lt_iff_toNat_lt.mp hslot)]
      exact sum_unitsOf (hkeys epoch hepoch)
    simp only [h.toNat_capacity hthrough hclosure, acceptedService]
    rw [← Finset.sum_mul, sum_worthUntil, worthUntil_of_const hunits]
    ring

end

section Sample

set_option maxRecDepth 10000

attribute [local instance] Crypto.sample

def sampleStorageId : StorageId := FixedBytes.leading 31 8

/-- `sampleTerm` with one epoch: account 2 serves both chunks. -/
def servedTerm : StorageFundedTerm :=
  { sampleTerm with
    nextAssignmentEpoch := 2
    declarations :=
      [{ operationId := sampleId 20, epoch := 1, height := 5
         eligible :=
          [{ storageId := sampleStorageId, payoutAccount := sampleId 2, keyEpoch := 0, acceptedHeight := 5 }] }]
    assignments :=
      [{ operationId := sampleId 21, preparationId := sampleId 20, seed := sampleId 22, epoch := 1
         effectivePeriod := 0
         allocations := [{ slot := 0, storageId := sampleStorageId, payoutAccount := sampleId 2, units := 2 }] }] }

def servedState : CybouState :=
  { sampleState with
    leases := (∅ : OrdMap _ _).set (sampleId 6) { sampleLease with fundedTerms := [servedTerm] } }

theorem assignmentInvariants_servedState : AssignmentInvariants servedState.hasAccount
    servedState.keyEpoch 0 { sampleLease with fundedTerms := [servedTerm] } servedTerm := by
  have hvalid : validateCybouState servedState = .none := by decide
  exact (validateCybouState_eq_none.mp hvalid).assignmentInvariants (OrdMap.find?_set_self ..) List.mem_cons_self

theorem accepted_capacity_servedTerm : ∃ capacity,
    computeAcceptedStorageCapacity servedTerm 0 sampleStorageId (sampleId 2) 1 1 = some capacity ∧
      capacity ≤ servedTerm.contractedUnitSeconds :=
  (accepted_capacity assignmentInvariants_servedState).1 0 sampleStorageId (sampleId 2) 1 1 (by decide)
    (by decide) (by decide) (by decide)

/-- Nothing is defined for a null storage id, or before the first period of the term. -/
theorem capacity_null : AssignmentInvariants servedState.hasAccount servedState.keyEpoch 0
      { sampleLease with fundedTerms := [servedTerm] } servedTerm ∧
    ¬∀ (slot : UInt8) (storageId : StorageId) (payoutAccount : AccountId), ∃ capacity,
      computeAcceptedStorageCapacity servedTerm slot storageId payoutAccount 1 1 = some capacity := by
  refine ⟨assignmentInvariants_servedState, ?_⟩
  intro hdefined
  obtain ⟨capacity, hcapacity⟩ := hdefined 0 (sampleId 0) (sampleId 2)
  rw [capacity_undefined fun h => absurd h.1 (by decide)] at hcapacity
  cases hcapacity

end Sample

end Cybou
