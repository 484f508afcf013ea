import Cybou.SettlementSpecs

/-! # When a valid lease stays valid

The check of a lease reads the rest of the state in three places only: the
accounts it names, their key epochs, and the settlement cursor.  So a lease
survives any growth of the first two (`AccountsGrow`), and a change of its own
end as long as no term notices it (`SameService`).  Revocation and renewal are
both such changes.
-/

namespace Cybou

open Library

structure AccountsGrow (hasAccount : AccountId → Bool) (keyEpoch : AccountId → Option UInt64)
    (hasAccount' : AccountId → Bool) (keyEpoch' : AccountId → Option UInt64) : Prop where
  accounts : ∀ id, hasAccount id = true → hasAccount' id = true
  epochs : ∀ id, hasAccount id = true → ∀ e' ∈ keyEpoch' id, ∃ e ∈ keyEpoch id, e ≤ e'

theorem AccountsGrow.refl (hasAccount : AccountId → Bool) (keyEpoch : AccountId → Option UInt64) :
    AccountsGrow hasAccount keyEpoch hasAccount keyEpoch :=
  ⟨fun _ h => h, fun _ _ e he => ⟨e, he, UInt64.le_refl _⟩⟩

/-- Moving the end of a lease is not noticed by the term: it is closed as before
    and its providers have the same capacity. -/
structure SameService (term : StorageFundedTerm) (nextPeriod end_ end' : UInt64) : Prop where
  closed : term.closed end' nextPeriod = term.closed end_ nextPeriod
  capacity : term.firstPeriod ≤ nextPeriod → ∀ through ≤ nextPeriod,
    ∀ slot storageId payoutAccount,
      computeAcceptedStorageCapacity term slot storageId payoutAccount through end' =
        computeAcceptedStorageCapacity term slot storageId payoutAccount through end_

theorem SameService.refl (term : StorageFundedTerm) (nextPeriod end_ : UInt64) :
    SameService term nextPeriod end_ end_ := ⟨rfl, fun _ _ _ _ _ _ => rfl⟩

section

variable {term : StorageFundedTerm} {nextPeriod end_ end' : UInt64}

theorem capacity_congr {through : UInt64} (hguard : end' < term.firstPeriod ↔ end_ < term.firstPeriod)
    (hmin : min (min through end') term.endPeriod = min (min through end_) term.endPeriod)
    (slot : UInt8) (storageId : StorageId) (payoutAccount : AccountId) :
    computeAcceptedStorageCapacity term slot storageId payoutAccount through end' =
      computeAcceptedStorageCapacity term slot storageId payoutAccount through end_ := by
  unfold computeAcceptedStorageCapacity
  simp only [hguard, hmin]

theorem SameService.of_le (hterm : term.firstPeriod < term.endPeriod) (h : term.endPeriod ≤ end_)
    (h' : term.endPeriod ≤ end') : SameService term nextPeriod end_ end' := by
  rw [UInt64.lt_iff_toNat_lt] at hterm
  rw [UInt64.le_iff_toNat_le] at h h'
  constructor
  · have hmin : min term.endPeriod end' = min term.endPeriod end_ := by
      rw [← UInt64.toNat_inj, UInt64.toNat_min, UInt64.toNat_min]
      omega
    rw [StorageFundedTerm.closed, StorageFundedTerm.closed, hmin]
  · intro _ through _
    refine capacity_congr ?_ ?_
    · rw [UInt64.lt_iff_toNat_lt, UInt64.lt_iff_toNat_lt]
      omega
    · rw [← UInt64.toNat_inj]
      simp only [UInt64.toNat_min]
      omega

theorem SameService.close {lease : StorageLeaseRecord} (hstarted : lease.firstPeriod ≤ nextPeriod)
    (hmax : nextPeriod ≠ UINT64_MAX) :
    SameService term nextPeriod lease.endPeriod (lease.close nextPeriod).endPeriod := by
  have hnext := UInt64.lt_iff_toNat_lt.mp (lt_add_one_of_ne_max hmax)
  have hclose : (lease.close nextPeriod).endPeriod = min lease.endPeriod (nextPeriod + 1) := by
    have hfirst : max lease.firstPeriod nextPeriod = nextPeriod := by
      rw [UInt64.le_iff_toNat_le] at hstarted
      rw [← UInt64.toNat_inj, UInt64.toNat_max]
      omega
    rw [StorageLeaseRecord.close, hfirst]
  rw [hclose]
  constructor
  · rw [StorageFundedTerm.closed, StorageFundedTerm.closed]
    congr 1
    rw [UInt64.le_iff_toNat_le, UInt64.le_iff_toNat_le]
    simp only [UInt64.toNat_min, eq_iff_iff]
    omega
  · intro hfirst through hthrough
    rw [UInt64.le_iff_toNat_le] at hfirst hthrough
    refine capacity_congr ?_ ?_
    · rw [UInt64.lt_iff_toNat_lt, UInt64.lt_iff_toNat_lt, UInt64.toNat_min]
      omega
    · rw [← UInt64.toNat_inj]
      simp only [UInt64.toNat_min]
      omega

end

/-! ### Terms -/

section Terms

variable {hasAccount hasAccount' : AccountId → Bool} {keyEpoch keyEpoch' : AccountId → Option UInt64}
  {lease lease' : StorageLeaseRecord} {term : StorageFundedTerm} {nextPeriod : UInt64}

theorem eligibleValid_mono (hgrow : AccountsGrow hasAccount keyEpoch hasAccount' keyEpoch')
    {payer : AccountId} {height : UInt64} {prior : Option StorageId}
    {l : List StorageAcceptedBinding}
    (h : eligibleValid hasAccount keyEpoch payer height prior l = true) :
    eligibleValid hasAccount' keyEpoch' payer height prior l = true := by
  induction l generalizing prior with
  | nil => rfl
  | cons e rest ih =>
    simp only [eligibleValid, Bool.and_eq_true] at h ⊢
    obtain ⟨⟨⟨⟨⟨⟨hid, hpayer⟩, haccount⟩, hepoch⟩, hheight⟩, hprior⟩, hrest⟩ := h
    refine ⟨⟨⟨⟨⟨⟨hid, hpayer⟩, hgrow.accounts _ haccount⟩, ?_⟩, hheight⟩, hprior⟩, ih hrest⟩
    rw [Option.all_eq_true] at hepoch ⊢
    intro e' he'
    obtain ⟨e₀, he₀, hle⟩ := hgrow.epochs _ haccount e' he'
    exact decide_eq_true (UInt64.le_trans (of_decide_eq_true (hepoch e₀ he₀)) hle)

theorem declarationsValid_mono (hgrow : AccountsGrow hasAccount keyEpoch hasAccount' keyEpoch')
    (hpayer : lease'.payer = lease.payer) (hreplicas : lease'.replicas = lease.replicas)
    {priorEpoch priorHeight : UInt64} {l : List StorageAssignmentDeclaration}
    (h : declarationsValid hasAccount keyEpoch lease term priorEpoch priorHeight l = true) :
    declarationsValid hasAccount' keyEpoch' lease' term priorEpoch priorHeight l = true := by
  induction l generalizing priorEpoch priorHeight with
  | nil => exact h
  | cons d rest ih =>
    simp only [declarationsValid, Bool.and_eq_true] at h ⊢
    obtain ⟨⟨⟨hd, hepoch⟩, hheight⟩, hrest⟩ := h
    refine ⟨⟨⟨?_, hepoch⟩, hheight⟩, ih hrest⟩
    simp only [declarationValid, hpayer, hreplicas, Bool.and_eq_true] at hd ⊢
    exact ⟨⟨hd.1.1, eligibleValid_mono hgrow hd.1.2⟩, hd.2⟩

theorem allocationsValid_congr (hunits : lease'.units = lease.units)
    (hreplicas : lease'.replicas = lease.replicas) (d : StorageAssignmentDeclaration)
    (prior : Option ServiceKey) (l : List StorageAssignedUnits) :
    allocationsValid lease' d prior l = allocationsValid lease d prior l := by
  induction l generalizing prior with
  | nil => rfl
  | cons u rest ih => simp only [allocationsValid, hunits, hreplicas, ih]

theorem assignmentsValid_congr (hunits : lease'.units = lease.units)
    (hreplicas : lease'.replicas = lease.replicas) (priorEpoch priorPeriod : UInt64)
    (l : List StorageAcceptedAssignment) :
    assignmentsValid lease' term nextPeriod priorEpoch priorPeriod l =
      assignmentsValid lease term nextPeriod priorEpoch priorPeriod l := by
  induction l generalizing priorEpoch priorPeriod with
  | nil => rfl
  | cons a rest ih =>
    have ha : assignmentValid lease' term nextPeriod a = assignmentValid lease term nextPeriod a := by
      simp only [assignmentValid, hunits, hreplicas, allocationsValid_congr hunits hreplicas]
    simp only [assignmentsValid, ha, ih]

theorem effectivePeriod_le (h : assignmentsValid lease term nextPeriod 0 0 term.assignments = true)
    {a : StorageAcceptedAssignment} (ha : a ∈ term.assignments) :
    term.firstPeriod ≤ a.effectivePeriod ∧ a.effectivePeriod ≤ nextPeriod := by
  have hvalid := assignmentsValid_mem h a ha
  unfold assignmentValid at hvalid
  split at hvalid
  · cases hvalid
  · simp only [Bool.and_eq_true, decide_eq_true_eq] at hvalid
    exact ⟨hvalid.1.1.1.1.1.1.2, hvalid.1.1.1.1.2⟩

variable {budget : AssignedStorageBudget}

theorem servicePaymentValid_congr (hreplicas : lease'.replicas = lease.replicas)
    (hservice : SameService term nextPeriod lease.endPeriod lease'.endPeriod)
    (hassignments : assignmentsValid lease term nextPeriod 0 0 term.assignments = true)
    {e : StorageServicePayment} (h : servicePaymentValid lease term budget nextPeriod e = true) :
    servicePaymentValid lease' term budget nextPeriod e = true := by
  simp only [servicePaymentValid, Bool.and_eq_true, decide_eq_true_eq] at h
  obtain ⟨a, ha⟩ := List.exists_mem_of_ne_nil _ h.1.1.1.2
  have hrange := effectivePeriod_le hassignments ha
  have hfirst := UInt64.le_trans hrange.1 hrange.2
  have hcapacity := hservice.capacity hfirst nextPeriod (UInt64.le_refl _) e.slot e.storageId
    e.payoutAccount
  have hthrough : term.closedThrough lease'.endPeriod nextPeriod =
      term.closedThrough lease.endPeriod nextPeriod := by
    rw [StorageFundedTerm.closedThrough, StorageFundedTerm.closedThrough, hservice.closed]
  have hclosed : (term.closedThrough lease.endPeriod nextPeriod).bind (fun through =>
      computeAcceptedStorageCapacity term e.slot e.storageId e.payoutAccount through
        lease'.endPeriod) =
      (term.closedThrough lease.endPeriod nextPeriod).bind (fun through =>
        computeAcceptedStorageCapacity term e.slot e.storageId e.payoutAccount through
          lease.endPeriod) := by
    cases hcase : term.closedThrough lease.endPeriod nextPeriod with
    | none => rfl
    | some through =>
      -- a closed term counts up to the cursor, an open one up to its last assignment
      have hle : through ≤ nextPeriod := by
        unfold StorageFundedTerm.closedThrough at hcase
        split at hcase
        · cases hcase
          exact UInt64.le_refl _
        · obtain ⟨last, hlast, rfl⟩ := Option.map_eq_some_iff.mp hcase
          exact (effectivePeriod_le hassignments (List.mem_of_getLast? hlast)).2
      exact hservice.capacity hfirst through hle e.slot e.storageId e.payoutAccount
  simp only [servicePaymentValid, Bool.and_eq_true, decide_eq_true_eq, hreplicas, hcapacity,
    hthrough, hclosed]
  exact h

theorem servicePaymentsValid_congr (hreplicas : lease'.replicas = lease.replicas)
    (hservice : SameService term nextPeriod lease.endPeriod lease'.endPeriod)
    (hassignments : assignmentsValid lease term nextPeriod 0 0 term.assignments = true)
    {prior : Option ServiceKey} {l : List StorageServicePayment}
    (h : servicePaymentsValid lease term budget nextPeriod prior l = true) :
    servicePaymentsValid lease' term budget nextPeriod prior l = true := by
  induction l generalizing prior with
  | nil => rfl
  | cons e rest ih =>
    simp only [servicePaymentsValid, Bool.and_eq_true] at h ⊢
    exact ⟨⟨servicePaymentValid_congr hreplicas hservice hassignments h.1.1, h.1.2⟩, ih h.2⟩

/-- **A valid term stays valid** under a lease with the same parties, while
    accounts grow and the service does not change. -/
theorem termValid_congr (h : termValid hasAccount keyEpoch nextPeriod lease term = true)
    (hgrow : AccountsGrow hasAccount keyEpoch hasAccount' keyEpoch')
    (hpayer : lease'.payer = lease.payer) (hunits : lease'.units = lease.units)
    (hreplicas : lease'.replicas = lease.replicas)
    (hservice : SameService term nextPeriod lease.endPeriod lease'.endPeriod) :
    termValid hasAccount' keyEpoch' nextPeriod lease' term = true := by
  obtain ⟨budget, hbudget, hfacts⟩ := termValid_iff.mp h
  have hbudget' : term.budget lease' = some budget := by
    rw [StorageFundedTerm.budget, hunits, hreplicas]
    exact hbudget
  refine termValid_iff.mpr ⟨budget, hbudget', { hfacts with
    accounts := ?_, declarations := ?_, assignments := ?_, payments := ?_, service := ?_ }⟩
  · simpa only [termAccountsValid, hservice.closed] using hfacts.accounts
  · exact declarationsValid_mono hgrow hpayer hreplicas hfacts.declarations
  · rw [assignmentsValid_congr hunits hreplicas]
    exact hfacts.assignments
  · exact servicePaymentsValid_congr hreplicas hservice hfacts.assignments hfacts.payments
  · rw [hreplicas]
    exact hfacts.service

end Terms

/-! ### Leases -/

variable {end' end_ prior : UInt64} {terms : List StorageFundedTerm}

theorem termsOrdered_of_le (hle : end' ≤ end_) (h : termsOrdered end_ prior terms = true) :
    termsOrdered end' prior terms = true := by
  induction terms generalizing prior with
  | nil => exact decide_eq_true (UInt64.le_trans hle (of_decide_eq_true h))
  | cons term rest ih =>
    simp only [termsOrdered, Bool.and_eq_true] at h ⊢
    exact ⟨h.1, ih h.2⟩

theorem termsOrdered_append {term : StorageFundedTerm} (h : termsOrdered end_ prior terms = true)
    (hprior : prior ≤ term.firstPeriod) (hterms : ∀ t ∈ terms, t.endPeriod ≤ term.firstPeriod)
    (hend : end' ≤ term.endPeriod) : termsOrdered end' prior (terms ++ [term]) = true := by
  induction terms generalizing prior with
  | nil => simp [termsOrdered, hprior, hend]
  | cons t rest ih =>
    simp only [List.cons_append, termsOrdered, Bool.and_eq_true] at h ⊢
    rw [List.forall_mem_cons] at hterms
    exact ⟨h.1, ih h.2 hterms.1 hterms.2⟩

section Leases

variable {hasAccount hasAccount' : AccountId → Bool} {keyEpoch keyEpoch' : AccountId → Option UInt64}
  {nextPeriod : UInt64} {publication publication' : Option PublicationRecord} {id : Hash256}
  {lease : StorageLeaseRecord}

namespace LeaseFacts

theorem grow (h : LeaseFacts hasAccount keyEpoch nextPeriod publication id lease)
    (hgrow : AccountsGrow hasAccount keyEpoch hasAccount' keyEpoch')
    (hpublished : ∀ p ∈ publication', p.owner = lease.payer ∧ p.chunkCount = lease.units) :
    LeaseFacts hasAccount' keyEpoch' nextPeriod publication' id lease :=
  { h with
    payer := hgrow.accounts _ h.payer
    published := hpublished
    terms := fun term hterm =>
      termValid_congr (h.terms term hterm) hgrow rfl rfl rfl (SameService.refl term _ _) }

theorem close (h : LeaseFacts hasAccount keyEpoch nextPeriod publication id lease)
    (hmax : nextPeriod ≠ UINT64_MAX) :
    LeaseFacts hasAccount keyEpoch nextPeriod none id (lease.close nextPeriod) := by
  have hend : (lease.close nextPeriod).endPeriod ≤ lease.endPeriod := by
    rw [StorageLeaseRecord.close, UInt64.le_iff_toNat_le, UInt64.toNat_min]
    omega
  have hperiods : lease.firstPeriod < (lease.close nextPeriod).endPeriod := by
    have hlt := UInt64.lt_iff_toNat_lt.mp (lt_add_one_of_ne_max hmax)
    have hfirst := UInt64.lt_iff_toNat_lt.mp h.periods
    have hstarted := UInt64.le_iff_toNat_le.mp h.started
    have hnext : max lease.firstPeriod nextPeriod = nextPeriod := by
      rw [← UInt64.toNat_inj, UInt64.toNat_max]
      omega
    rw [StorageLeaseRecord.close, hnext, UInt64.lt_iff_toNat_lt, UInt64.toNat_min]
    omega
  exact
    { h with
      periods := hperiods
      published := nofun
      ordered := termsOrdered_of_le hend h.ordered
      terms := fun term hterm => termValid_congr (h.terms term hterm) (AccountsGrow.refl _ _)
        rfl rfl rfl (SameService.close h.started hmax) }

end LeaseFacts

/-- A term that has just been funded is valid under a lease that ends with it. -/
theorem termValid_newFundedTerm {params : CybouProtocolParameters} {budget : AssignedStorageBudget}
    {fundingOperationId : Hash256} {first onboarding locked : UInt64} {periods : UInt32}
    (hbudget : computeAssignedStorageBudget lease.units.toUInt64 lease.replicas.toUInt64
      periods.toUInt64 params.storageSettlementPeriodSeconds params.storageRatePerGibDayReplica =
        some budget)
    (hfunding : fundingOperationId.isNull = false)
    (hroom : ¬first > UINT64_MAX - periods.toUInt64) (hnext : nextPeriod ≤ first)
    (hend : lease.endPeriod = first + periods.toUInt64)
    (htotal : onboarding.toNat + locked.toNat = budget.total.toNat) :
    termValid hasAccount keyEpoch nextPeriod lease
      (newFundedTerm params budget fundingOperationId first periods onboarding locked) = true := by
  have hperiods := (budget_total_ne_zero hbudget).2.2
  have hpos : 0 < periods.toUInt64.toNat := by
    rcases Nat.eq_zero_or_pos periods.toUInt64.toNat with hzero | hpos
    · exact absurd (UInt64.toNat_inj.mp hzero) hperiods
    · exact hpos
  have hsum := toNat_add_of_lt (add_lt_of_not_gt hroom)
  have hlt : first < first + periods.toUInt64 := by
    rw [UInt64.lt_iff_toNat_lt, hsum]
    omega
  have hlater : nextPeriod < first + periods.toUInt64 := UInt64.lt_of_le_of_lt hnext hlt
  have hback : first + periods.toUInt64 - first = periods.toUInt64 := by
    rw [← UInt64.toNat_inj, UInt64.toNat_sub_of_le _ _ (UInt64.le_of_lt hlt), hsum]
    omega
  have hopen : (newFundedTerm params budget fundingOperationId first periods onboarding
      locked).closed lease.endPeriod nextPeriod = false := by
    rw [StorageFundedTerm.closed, hend, decide_eq_false_iff_not, UInt64.le_iff_toNat_le,
      UInt64.toNat_min]
    have := UInt64.lt_iff_toNat_lt.mp hlater
    simp only [newFundedTerm]
    omega
  refine termValid_iff.mpr ⟨budget, ?_, ?_⟩
  · rw [StorageFundedTerm.budget]
    simp only [newFundedTerm, hback]
    exact hbudget
  · exact
      { funding := hfunding
        periods := hlt
        accounts := by
          simp only [termAccountsValid, hopen]
          simp [newFundedTerm]
        share := rfl
        seconds := rfl
        total := htotal
        epoch := (by decide : (1 : UInt64) ≠ 0)
        declarationCount := Nat.zero_le _
        assignmentCount := Nat.zero_le _
        paymentCount := Nat.zero_le _
        declarations := rfl
        assignments := rfl
        payments := rfl
        paid := rfl
        service := fun slot _ => Nat.zero_le _ }

end Leases

section Funding

variable [Crypto] {s s' : CybouState} {order : LeaseOrder} {params : CybouProtocolParameters}
  {budget : AssignedStorageBudget} {account : AccountState}

structure OrderAccepted (order : LeaseOrder) (s : CybouState) (budget : AssignedStorageBudget) :
    Prop where
  escrow : budget.total = order.escrow
  funding : order.fundingOperationId.isNull = false
  room : ¬order.start s > UINT64_MAX - order.periods.toUInt64
  lease : ∀ lease ∈ s.leases.find? order.publicationId,
    lease.payer = order.payer ∧ lease.units = order.units ∧ lease.replicas = order.replicas

theorem LeaseFunded.orderAccepted (h : LeaseFunded order params budget account s s') :
    OrderAccepted order s budget := by
  have haccepted := h.accepted
  simp only [LeaseOrder.refused, fundingRefused, Bool.or_eq_false_iff, decide_eq_false_iff_not,
    not_not, Option.any_eq_false] at haccepted
  obtain ⟨⟨⟨hescrow, hfunding⟩, hroom⟩, hlease⟩ := haccepted
  refine ⟨hescrow, hfunding, hroom, fun lease hmem => ?_⟩
  obtain ⟨⟨⟨⟨-, hpayer⟩, hunits⟩, hreplicas⟩, -⟩ := hlease lease hmem
  exact ⟨hpayer, hunits, hreplicas⟩

theorem LeaseOrder.nextPeriod_le_start (order : LeaseOrder) (s : CybouState) :
    s.settlement.nextPeriod ≤ order.start s := by
  unfold LeaseOrder.start leaseStart
  split
  · exact UInt64.le_refl _
  · rw [UInt64.le_iff_toNat_le, UInt64.toNat_max]
    omega

theorem LeaseOrder.endPeriod_le_start {lease : StorageLeaseRecord}
    (h : s.leases.find? order.publicationId = some lease) : lease.endPeriod ≤ order.start s := by
  rw [LeaseOrder.start, h, leaseStart, UInt64.le_iff_toNat_le, UInt64.toNat_max]
  omega

theorem OrderAccepted.start_le_end (h : OrderAccepted order s budget) :
    order.start s ≤ order.start s + order.periods.toUInt64 := by
  rw [UInt64.le_iff_toNat_le, toNat_add_of_lt (add_lt_of_not_gt h.room)]
  omega

theorem LeaseFunded.ends (h : LeaseFunded order params budget account s s')
    (hends : ∀ lease ∈ s.leases.find? order.publicationId, ∀ term ∈ lease.fundedTerms,
      term.endPeriod ≤ lease.endPeriod) :
    let lease := fundedLease order (order.term params s budget account)
      (s.leases.find? order.publicationId)
    ∀ term ∈ lease.fundedTerms, term.endPeriod ≤ lease.endPeriod := by
  have hlast := h.orderAccepted.start_le_end
  cases hfind : s.leases.find? order.publicationId with
  | none =>
    intro lease term hterm
    rw [List.mem_singleton.mp hterm]
    exact UInt64.le_refl _
  | some old =>
    intro lease term hterm
    rcases List.mem_append.mp hterm with hterm | hterm
    · exact UInt64.le_trans (hends old hfind term hterm)
        (UInt64.le_trans (LeaseOrder.endPeriod_le_start hfind) hlast)
    · rw [List.mem_singleton.mp hterm]
      exact UInt64.le_refl _

@[simp] theorem remainingOnboarding_term (order : LeaseOrder) (params : CybouProtocolParameters)
    (s : CybouState) (budget : AssignedStorageBudget) (account : AccountState) :
    (order.term params s budget account).remainingOnboarding =
      (order.term params s budget account).initialOnboarding := by
  simp [StorageFundedTerm.remainingOnboarding, LeaseOrder.term, newFundedTerm]

@[simp] theorem remainingLocked_term (order : LeaseOrder) (params : CybouProtocolParameters)
    (s : CybouState) (budget : AssignedStorageBudget) (account : AccountState) :
    (order.term params s budget account).remainingLocked =
      (order.term params s budget account).initialLocked := by
  simp [StorageFundedTerm.remainingLocked, LeaseOrder.term, newFundedTerm]

/-- **A funded lease is valid**: a new one, or one that is renewed and whose
    terms have all ended when it does. -/
theorem LeaseFunded.leaseFacts {publication : Option PublicationRecord}
    (h : LeaseFunded order params budget account s s') (hinv : StateInvariant s)
    (hnull : order.publicationId.isNull = false) (hunits : order.units ≠ 0)
    (hreplicas : order.replicas ≤ MAX_STORAGE_LEASE_REPLICAS)
    (hpublished : ∀ p ∈ publication, p.owner = order.payer ∧ p.chunkCount = order.units)
    (hends : ∀ lease ∈ s.leases.find? order.publicationId, ∀ term ∈ lease.fundedTerms,
      term.endPeriod ≤ lease.endPeriod)
    (hcount : ∀ lease ∈ s.leases.find? order.publicationId, lease.fundedTerms.length < UINT32_MAX) :
    LeaseFacts s.hasAccount s.keyEpoch s.settlement.nextPeriod publication order.publicationId
      (fundedLease order (order.term params s budget account)
        (s.leases.find? order.publicationId)) := by
  obtain ⟨hescrow, hfunding, hroom, hparties⟩ := h.orderAccepted
  have hpayer : s.hasAccount order.payer = true := OrdMap.contains_of_find? h.payer
  have hstart := order.nextPeriod_le_start s
  have hsplit := onboarding_add_locked account.onboardingSystemBalance order.escrow
  have hvalue := value_add_escrowAt_le h.payer order.publicationId
  have hcovered := UInt64.le_iff_toNat_le.mp h.covered
  have htotal := hinv.total
  have hnew : ∀ lease : StorageLeaseRecord, lease.units = order.units →
      lease.replicas = order.replicas →
      lease.endPeriod = order.start s + order.periods.toUInt64 →
      termValid s.hasAccount s.keyEpoch s.settlement.nextPeriod lease
        (order.term params s budget account) = true := by
    intro lease hu hr hend
    refine termValid_newFundedTerm ?_ hfunding hroom hstart hend (by rw [hescrow]; exact hsplit)
    rw [hu, hr]
    exact h.priced
  have hlater : order.start s < order.start s + order.periods.toUInt64 := by
    obtain ⟨_, -, hfacts⟩ := termValid_iff.mp (hnew
      { payer := order.payer, units := order.units, replicas := order.replicas
        firstPeriod := 0, endPeriod := order.start s + order.periods.toUInt64
        escrowOnboarding := 0, escrowLocked := 0, fundedTerms := [] } rfl rfl rfl)
    exact hfacts.periods
  cases hfind : s.leases.find? order.publicationId with
  | none =>
    have hfirst : order.start s = s.settlement.nextPeriod := by
      rw [LeaseOrder.start, hfind]
      rfl
    exact
      { id_ne_null := hnull
        payer := hpayer
        units := hunits
        replicas := by
          intro hzero
          apply (budget_total_ne_zero h.priced).2.1
          have : order.replicas = 0 := hzero
          rw [this]
          rfl
        replicaLimit := hreplicas
        periods := hlater
        started := hfirst ▸ UInt64.le_refl _
        published := hpublished
        funded := List.cons_ne_nil _ _
        termCount := by simp [fundedLease, UINT32_MAX]
        ordered := by simp [termsOrdered, fundedLease]
        terms := by
          intro term hterm
          rw [List.mem_singleton.mp hterm]
          exact hnew _ rfl rfl rfl
        escrowOnboarding := by simp [fundedLease]
        escrowLocked := by simp [fundedLease] }
  | some lease =>
    have hold := leaseValid_iff.mp (hinv.lease _ lease hfind)
    obtain ⟨hsamePayer, hsameUnits, hsameReplicas⟩ := hparties lease hfind
    have hafter := LeaseOrder.endPeriod_le_start hfind
    have hextends := UInt64.le_trans hafter (UInt64.le_of_lt hlater)
    simp only [CybouState.escrowAt, hfind, Option.map_some, Option.getD_some,
      AccountState.value, StorageLeaseRecord.value] at hvalue
    exact
      { id_ne_null := hnull
        payer := hold.payer
        units := hold.units
        replicas := hold.replicas
        replicaLimit := hold.replicaLimit
        periods := UInt64.lt_of_lt_of_le hold.periods hextends
        started := hold.started
        published := by
          intro p hp
          obtain ⟨howner, hchunks⟩ := hpublished p hp
          exact ⟨howner.trans hsamePayer.symm, hchunks.trans hsameUnits.symm⟩
        funded := by simp [fundedLease]
        termCount := by
          have := hcount lease hfind
          simp only [fundedLease, List.length_append, List.length_singleton]
          omega
        ordered := termsOrdered_append hold.ordered
          (UInt64.le_trans (UInt64.le_of_lt hold.periods) hafter)
          (fun term hterm => UInt64.le_trans (hends lease hfind term hterm) hafter)
          (UInt64.le_refl _)
        terms := by
          intro term hterm
          rcases List.mem_append.mp hterm with hterm | hterm
          · have hvalid := hold.terms term hterm
            obtain ⟨_, -, hfacts⟩ := termValid_iff.mp hvalid
            have hend := hends lease hfind term hterm
            exact termValid_congr hvalid (AccountsGrow.refl _ _) rfl rfl rfl
              (SameService.of_le hfacts.periods hend (UInt64.le_trans hend hextends))
          · rw [List.mem_singleton.mp hterm]
            exact hnew _ hsameUnits hsameReplicas rfl
        escrowOnboarding := by
          have hsum := hold.escrowOnboarding
          simp only [fundedLease, List.map_append, List.sum_append, List.map_cons, List.map_nil,
            List.sum_singleton, remainingOnboarding_term]
          rw [toNat_add_of_lt (by simp only [LeaseOrder.term, newFundedTerm]; omega)]
          omega
        escrowLocked := by
          have hsum := hold.escrowLocked
          simp only [fundedLease, List.map_append, List.sum_append, List.map_cons, List.map_nil,
            List.sum_singleton, remainingLocked_term]
          rw [toNat_add_of_lt (by simp only [LeaseOrder.term, newFundedTerm]; omega)]
          omega }

end Funding

end Cybou
