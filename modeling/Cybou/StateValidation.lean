import Cybou.StorageEconomy

/-! # `ValidateCybouState`, and the invariant it decides

`validateCybouState` follows the source check by check and returns the first
error.  `StateInvariant` is the same thirty-odd conditions as a structure of
named facts about lookups, and `validateCybouState_eq_none` says the two
agree; everything proved about transitions is proved about the structure.
-/

namespace Cybou

open Library

inductive StateValidationError where
  | none
  | accountLimitExceeded
  | accountIdentityCountMismatch
  | missingIdentity
  | duplicateRecoveryBinding
  | balanceOverflow
  | invalidNameRegistry
  | invalidResourceUsage
  | invalidStorageLease
deriving DecidableEq, Repr

namespace StateValidationError

/-- Return `e` when the condition holds. -/
def failIf (c : Prop) [Decidable c] (e : StateValidationError) : StateValidationError :=
  if c then e else .none

def andThen (a b : StateValidationError) : StateValidationError := if a = .none then b else a

def firstError {α : Type} (check : α → StateValidationError) : List α → StateValidationError
  | [] => .none
  | a :: rest => (check a).andThen (firstError check rest)

theorem failIf_eq_none {c : Prop} [Decidable c] {e : StateValidationError} (he : e ≠ .none) :
    failIf c e = .none ↔ ¬c := by
  unfold failIf
  split <;> simp [*]

theorem andThen_eq_none {a b : StateValidationError} :
    a.andThen b = .none ↔ a = .none ∧ b = .none := by
  unfold andThen
  split <;> simp [*]

theorem firstError_eq_none {α : Type} {check : α → StateValidationError} {l : List α} :
    firstError check l = .none ↔ ∀ a ∈ l, check a = .none := by
  induction l with
  | nil => simp [firstError]
  | cons a l ih => simp [firstError, andThen_eq_none, ih]

end StateValidationError

/-! ### Assignments and service payments of a term

The checks below all return `INVALID_STORAGE_LEASE`, so they are written as
predicates; the two sets of operation ids that span all leases are checked
separately. -/

def eligibleValid (hasAccount : AccountId → Bool) (keyEpoch : AccountId → Option UInt64)
    (payer : AccountId) (height : UInt64) : Option StorageId → List StorageAcceptedBinding → Bool
  | _, [] => true
  | prior, e :: rest =>
    !isZero e.storageId.1 && decide (e.payoutAccount ≠ payer) && hasAccount e.payoutAccount &&
    (keyEpoch e.payoutAccount).all (fun epoch => decide (e.keyEpoch ≤ epoch)) &&
    decide (e.acceptedHeight = height) && prior.all (fun p => decide (p < e.storageId)) &&
    eligibleValid hasAccount keyEpoch payer height (some e.storageId) rest

def declarationValid (hasAccount : AccountId → Bool) (keyEpoch : AccountId → Option UInt64)
    (lease : StorageLeaseRecord) (term : StorageFundedTerm) (d : StorageAssignmentDeclaration) :
    Bool :=
  !d.operationId.isNull && decide (d.epoch < term.nextAssignmentEpoch) && decide (d.height ≠ 0) &&
  decide (lease.replicas ≤ 2) && decide (d.eligible ≠ []) && decide (d.eligible.length ≤ 20) &&
  eligibleValid hasAccount keyEpoch lease.payer d.height none d.eligible &&
  decide (lease.replicas.toNat ≤ (d.eligible.map (·.payoutAccount)).dedup.length)

/-- The loop over the declarations of a term; `priorEpoch` is 0 before the first. -/
def declarationsValid (hasAccount : AccountId → Bool) (keyEpoch : AccountId → Option UInt64)
    (lease : StorageLeaseRecord) (term : StorageFundedTerm) :
    UInt64 → UInt64 → List StorageAssignmentDeclaration → Bool
  | priorEpoch, _, [] =>
    if term.declarations = [] then decide (term.nextAssignmentEpoch = 1)
    else decide (term.nextAssignmentEpoch = priorEpoch + 1)
  | priorEpoch, priorHeight, d :: rest =>
    declarationValid hasAccount keyEpoch lease term d && decide (priorEpoch < d.epoch) &&
    decide (priorHeight ≤ d.height) &&
    declarationsValid hasAccount keyEpoch lease term d.epoch d.height rest

/-- The allocations of one assignment: known providers, in strict order. -/
def allocationsValid (lease : StorageLeaseRecord) (d : StorageAssignmentDeclaration) :
    Option ServiceKey → List StorageAssignedUnits → Bool
  | _, [] => true
  | prior, u :: rest =>
    decide (u.slot < lease.replicas) && decide (u.units ≠ 0) && decide (u.units ≤ lease.units) &&
    prior.all (fun p => decide (p < u.key)) &&
    d.eligible.any (fun e => decide (e.storageId = u.storageId) &&
      decide (e.payoutAccount = u.payoutAccount)) &&
    allocationsValid lease d (some u.key) rest

def slotUnits (slot : Nat) (allocations : List StorageAssignedUnits) : Nat :=
  ((allocations.filter fun u => decide (u.slot.toNat = slot)).map (·.units.toNat)).sum

def assignmentValid (lease : StorageLeaseRecord) (term : StorageFundedTerm) (nextPeriod : UInt64)
    (a : StorageAcceptedAssignment) : Bool :=
  match term.declarations.find? (fun d => decide (d.operationId = a.preparationId)) with
  | none => false
  | some d =>
    !a.operationId.isNull && !a.seed.isNull && decide (a.epoch = d.epoch) &&
    decide (term.firstPeriod ≤ a.effectivePeriod) && decide (a.effectivePeriod < term.endPeriod) &&
    decide (a.effectivePeriod ≤ nextPeriod) && decide (a.allocations ≠ []) &&
    decide (a.allocations.length ≤ 20 * lease.replicas.toNat) &&
    allocationsValid lease d none a.allocations &&
    (List.range lease.replicas.toNat).all
      (fun slot => decide (slotUnits slot a.allocations = lease.units.toNat))

def assignmentsValid (lease : StorageLeaseRecord) (term : StorageFundedTerm) (nextPeriod : UInt64) :
    UInt64 → UInt64 → List StorageAcceptedAssignment → Bool
  | _, _, [] => true
  | priorEpoch, priorPeriod, a :: rest =>
    assignmentValid lease term nextPeriod a && decide (priorEpoch < a.epoch) &&
    (decide (priorEpoch = 0) || decide (priorPeriod ≤ a.effectivePeriod)) &&
    assignmentsValid lease term nextPeriod a.epoch a.effectivePeriod rest

def StorageFundedTerm.closed (term : StorageFundedTerm) (leaseEnd nextPeriod : UInt64) : Bool :=
  decide (min term.endPeriod leaseEnd ≤ nextPeriod)

/-- The period up to which `closed_epoch_capacity` counts. -/
def StorageFundedTerm.closedThrough (term : StorageFundedTerm) (leaseEnd nextPeriod : UInt64) :
    Option UInt64 :=
  if term.closed leaseEnd nextPeriod then some nextPeriod
  else term.assignments.getLast?.map (·.effectivePeriod)

def servicePaymentValid (lease : StorageLeaseRecord) (term : StorageFundedTerm)
    (budget : AssignedStorageBudget) (nextPeriod : UInt64) (e : StorageServicePayment) : Bool :=
  decide (e.slot < lease.replicas) && decide (e.verifiedUnitSeconds ≠ 0) &&
  decide (term.assignments ≠ []) &&
  (match computeAcceptedStorageCapacity term e.slot e.storageId e.payoutAccount nextPeriod
      lease.endPeriod with
    | none => false
    | some capacity => decide (e.verifiedUnitSeconds ≤ capacity)) &&
  decide ((term.closedThrough lease.endPeriod nextPeriod).bind (fun through =>
    computeAcceptedStorageCapacity term e.slot e.storageId e.payoutAccount through lease.endPeriod) =
      some e.closedEpochCapacity) &&
  decide (computeAssignedStoragePayout budget e.verifiedUnitSeconds e.paid = some 0)

def servicePaymentsValid (lease : StorageLeaseRecord) (term : StorageFundedTerm)
    (budget : AssignedStorageBudget) (nextPeriod : UInt64) :
    Option ServiceKey → List StorageServicePayment → Bool
  | _, [] => true
  | prior, e :: rest =>
    servicePaymentValid lease term budget nextPeriod e && prior.all (fun p => decide (p < e.key)) &&
    servicePaymentsValid lease term budget nextPeriod (some e.key) rest

def slotService (slot : Nat) (payments : List StorageServicePayment) : Nat :=
  ((payments.filter fun e => decide (e.slot.toNat = slot)).map (·.verifiedUnitSeconds.toNat)).sum

/-! ### Terms and leases -/

def UINT32_MAX : Nat := 4294967295

def StorageFundedTerm.budget (lease : StorageLeaseRecord) (term : StorageFundedTerm) :
    Option AssignedStorageBudget :=
  computeAssignedStorageBudget lease.units.toUInt64 lease.replicas.toUInt64
    (term.endPeriod - term.firstPeriod) term.periodSeconds term.rate

def StorageFundedTerm.remainingOnboarding (term : StorageFundedTerm) : UInt64 :=
  term.initialOnboarding - term.paidOnboarding - term.refundedOnboarding

def StorageFundedTerm.remainingLocked (term : StorageFundedTerm) : UInt64 :=
  term.initialLocked - term.paidLocked - term.refundedLocked

/-- The debits of a term never exceed what funded it, refunds come only after
    closure, and closure refunds everything. -/
def termAccountsValid (lease : StorageLeaseRecord) (term : StorageFundedTerm) (nextPeriod : UInt64) :
    Bool :=
  decide (term.paidOnboarding ≤ term.initialOnboarding) &&
  decide (term.paidLocked ≤ term.initialLocked) &&
  decide (term.refundedOnboarding ≤ term.initialOnboarding - term.paidOnboarding) &&
  decide (term.refundedLocked ≤ term.initialLocked - term.paidLocked) &&
  !(decide (term.refundedOnboarding ≠ 0 ∨ term.refundedLocked ≠ 0) &&
    !term.closed lease.endPeriod nextPeriod) &&
  !(decide (term.paidLocked ≠ 0) && decide (term.paidOnboarding ≠ term.initialOnboarding)) &&
  !(term.closed lease.endPeriod nextPeriod &&
    (decide (term.initialOnboarding - term.paidOnboarding ≠ term.refundedOnboarding) ||
      decide (term.initialLocked - term.paidLocked ≠ term.refundedLocked)))

def termValid (hasAccount : AccountId → Bool) (keyEpoch : AccountId → Option UInt64)
    (nextPeriod : UInt64) (lease : StorageLeaseRecord) (term : StorageFundedTerm) : Bool :=
  match term.budget lease with
  | none => false
  | some budget =>
    !term.fundingOperationId.isNull && decide (term.firstPeriod < term.endPeriod) &&
    termAccountsValid lease term nextPeriod &&
    decide (budget.perReplica = term.replicaShare) &&
    decide (budget.contractedUnitSeconds = term.contractedUnitSeconds) &&
    decide (term.initialOnboarding.toNat + term.initialLocked.toNat = budget.total.toNat) &&
    decide (term.nextAssignmentEpoch ≠ 0) && decide (term.declarations.length ≤ UINT32_MAX) &&
    decide (term.assignments.length ≤ UINT32_MAX) &&
    decide (term.servicePayments.length ≤ UINT32_MAX) &&
    declarationsValid hasAccount keyEpoch lease term 0 0 term.declarations &&
    assignmentsValid lease term nextPeriod 0 0 term.assignments &&
    servicePaymentsValid lease term budget nextPeriod none term.servicePayments &&
    decide ((term.servicePayments.map (·.paid.toNat)).sum =
      term.paidOnboarding.toNat + term.paidLocked.toNat) &&
    (List.range lease.replicas.toNat).all
      (fun slot => decide (slotService slot term.servicePayments ≤ term.contractedUnitSeconds.toNat))

def termsOrdered (leaseEnd : UInt64) : UInt64 → List StorageFundedTerm → Bool
  | end_, [] => decide (leaseEnd ≤ end_)
  | end_, term :: rest => decide (end_ ≤ term.firstPeriod) && termsOrdered leaseEnd term.endPeriod rest

def leaseValid (hasAccount : AccountId → Bool) (keyEpoch : AccountId → Option UInt64)
    (nextPeriod : UInt64) (publication : Option PublicationRecord) (id : Hash256)
    (lease : StorageLeaseRecord) : Bool :=
  !id.isNull && hasAccount lease.payer && decide (lease.units ≠ 0) && decide (lease.replicas ≠ 0) &&
  decide (lease.replicas ≤ MAX_STORAGE_LEASE_REPLICAS) &&
  decide (lease.firstPeriod < lease.endPeriod) && decide (lease.firstPeriod ≤ nextPeriod) &&
  publication.all (fun p => decide (p.owner = lease.payer) && decide (p.chunkCount = lease.units)) &&
  decide (lease.fundedTerms ≠ []) && decide (lease.fundedTerms.length ≤ UINT32_MAX) &&
  termsOrdered lease.endPeriod lease.firstPeriod lease.fundedTerms &&
  lease.fundedTerms.all (termValid hasAccount keyEpoch nextPeriod lease) &&
  decide (lease.escrowOnboarding.toNat =
    (lease.fundedTerms.map (·.remainingOnboarding.toNat)).sum) &&
  decide (lease.escrowLocked.toNat = (lease.fundedTerms.map (·.remainingLocked.toNat)).sum)

def StorageFundedTerm.assignmentOperationIds (term : StorageFundedTerm) : List Hash256 :=
  term.declarations.map (·.operationId) ++ term.assignments.map (·.operationId)

/-! ### What the loops say of each element -/

section Loops

variable {hasAccount : AccountId → Bool} {keyEpoch : AccountId → Option UInt64}
  {lease : StorageLeaseRecord} {term : StorageFundedTerm} {nextPeriod : UInt64}

theorem eligibleValid_mem {payer : AccountId} {height : UInt64} {prior : Option StorageId}
    {l : List StorageAcceptedBinding}
    (h : eligibleValid hasAccount keyEpoch payer height prior l = true) :
    ∀ e ∈ l, hasAccount e.payoutAccount = true := by
  induction l generalizing prior with
  | nil => simp
  | cons e rest ih =>
    simp only [eligibleValid, Bool.and_eq_true] at h
    exact List.forall_mem_cons.mpr ⟨h.1.1.1.1.2, ih h.2⟩

theorem declarationsValid_mem {priorEpoch priorHeight : UInt64}
    {l : List StorageAssignmentDeclaration}
    (h : declarationsValid hasAccount keyEpoch lease term priorEpoch priorHeight l = true) :
    ∀ d ∈ l, declarationValid hasAccount keyEpoch lease term d = true := by
  induction l generalizing priorEpoch priorHeight with
  | nil => simp
  | cons d rest ih =>
    simp only [declarationsValid, Bool.and_eq_true] at h
    exact List.forall_mem_cons.mpr ⟨h.1.1.1, ih h.2⟩

theorem allocationsValid_mem {d : StorageAssignmentDeclaration} {prior : Option ServiceKey}
    {l : List StorageAssignedUnits} (h : allocationsValid lease d prior l = true) :
    ∀ u ∈ l, ∃ e ∈ d.eligible, e.storageId = u.storageId ∧ e.payoutAccount = u.payoutAccount := by
  induction l generalizing prior with
  | nil => simp
  | cons u rest ih =>
    simp only [allocationsValid, Bool.and_eq_true, List.any_eq_true, decide_eq_true_eq] at h
    exact List.forall_mem_cons.mpr ⟨h.1.2, ih h.2⟩

theorem assignmentsValid_mem {priorEpoch priorPeriod : UInt64} {l : List StorageAcceptedAssignment}
    (h : assignmentsValid lease term nextPeriod priorEpoch priorPeriod l = true) :
    ∀ a ∈ l, assignmentValid lease term nextPeriod a = true := by
  induction l generalizing priorEpoch priorPeriod with
  | nil => simp
  | cons a rest ih =>
    simp only [assignmentsValid, Bool.and_eq_true] at h
    exact List.forall_mem_cons.mpr ⟨h.1.1.1, ih h.2⟩

theorem servicePaymentsValid_mem {budget : AssignedStorageBudget} {prior : Option ServiceKey}
    {l : List StorageServicePayment}
    (h : servicePaymentsValid lease term budget nextPeriod prior l = true) :
    ∀ e ∈ l, servicePaymentValid lease term budget nextPeriod e = true := by
  induction l generalizing prior with
  | nil => simp
  | cons e rest ih =>
    simp only [servicePaymentsValid, Bool.and_eq_true] at h
    exact List.forall_mem_cons.mpr ⟨h.1.1, ih h.2⟩

variable {budget : AssignedStorageBudget} {publication : Option PublicationRecord} {id : Hash256}

/-- What `termValid` checks, by name. -/
structure TermFacts (hasAccount : AccountId → Bool) (keyEpoch : AccountId → Option UInt64)
    (nextPeriod : UInt64) (lease : StorageLeaseRecord) (term : StorageFundedTerm)
    (budget : AssignedStorageBudget) : Prop where
  funding : term.fundingOperationId.isNull = false
  periods : term.firstPeriod < term.endPeriod
  accounts : termAccountsValid lease term nextPeriod = true
  share : budget.perReplica = term.replicaShare
  seconds : budget.contractedUnitSeconds = term.contractedUnitSeconds
  total : term.initialOnboarding.toNat + term.initialLocked.toNat = budget.total.toNat
  epoch : term.nextAssignmentEpoch ≠ 0
  declarationCount : term.declarations.length ≤ UINT32_MAX
  assignmentCount : term.assignments.length ≤ UINT32_MAX
  paymentCount : term.servicePayments.length ≤ UINT32_MAX
  declarations : declarationsValid hasAccount keyEpoch lease term 0 0 term.declarations = true
  assignments : assignmentsValid lease term nextPeriod 0 0 term.assignments = true
  payments : servicePaymentsValid lease term budget nextPeriod none term.servicePayments = true
  paid : (term.servicePayments.map (·.paid.toNat)).sum =
    term.paidOnboarding.toNat + term.paidLocked.toNat
  service : ∀ slot < lease.replicas.toNat,
    slotService slot term.servicePayments ≤ term.contractedUnitSeconds.toNat

theorem termValid_iff : termValid hasAccount keyEpoch nextPeriod lease term = true ↔
    ∃ budget, term.budget lease = some budget ∧
      TermFacts hasAccount keyEpoch nextPeriod lease term budget := by
  unfold termValid
  split
  · next hnone => simp [hnone]
  next budget hbudget =>
  simp only [hbudget, Option.some.injEq, exists_eq_left', Bool.and_eq_true, decide_eq_true_eq,
    Bool.not_eq_true', List.all_eq_true, List.mem_range]
  constructor
  · rintro ⟨⟨⟨⟨⟨⟨⟨⟨⟨⟨⟨⟨⟨⟨h₁, h₂⟩, h₃⟩, h₄⟩, h₅⟩, h₆⟩, h₇⟩, h₈⟩, h₉⟩, h₁₀⟩, h₁₁⟩, h₁₂⟩, h₁₃⟩, h₁₄⟩, h₁₅⟩
    exact ⟨h₁, h₂, h₃, h₄, h₅, h₆, h₇, h₈, h₉, h₁₀, h₁₁, h₁₂, h₁₃, h₁₄, h₁₅⟩
  · rintro ⟨h₁, h₂, h₃, h₄, h₅, h₆, h₇, h₈, h₉, h₁₀, h₁₁, h₁₂, h₁₃, h₁₄, h₁₅⟩
    exact ⟨⟨⟨⟨⟨⟨⟨⟨⟨⟨⟨⟨⟨⟨h₁, h₂⟩, h₃⟩, h₄⟩, h₅⟩, h₆⟩, h₇⟩, h₈⟩, h₉⟩, h₁₀⟩, h₁₁⟩, h₁₂⟩, h₁₃⟩, h₁₄⟩, h₁₅⟩

/-- What `leaseValid` checks, by name. -/
structure LeaseFacts (hasAccount : AccountId → Bool) (keyEpoch : AccountId → Option UInt64)
    (nextPeriod : UInt64) (publication : Option PublicationRecord) (id : Hash256)
    (lease : StorageLeaseRecord) : Prop where
  id_ne_null : id.isNull = false
  payer : hasAccount lease.payer = true
  units : lease.units ≠ 0
  replicas : lease.replicas ≠ 0
  replicaLimit : lease.replicas ≤ MAX_STORAGE_LEASE_REPLICAS
  periods : lease.firstPeriod < lease.endPeriod
  started : lease.firstPeriod ≤ nextPeriod
  published : ∀ p ∈ publication, p.owner = lease.payer ∧ p.chunkCount = lease.units
  funded : lease.fundedTerms ≠ []
  termCount : lease.fundedTerms.length ≤ UINT32_MAX
  ordered : termsOrdered lease.endPeriod lease.firstPeriod lease.fundedTerms = true
  terms : ∀ term ∈ lease.fundedTerms, termValid hasAccount keyEpoch nextPeriod lease term = true
  escrowOnboarding : lease.escrowOnboarding.toNat =
    (lease.fundedTerms.map (·.remainingOnboarding.toNat)).sum
  escrowLocked : lease.escrowLocked.toNat =
    (lease.fundedTerms.map (·.remainingLocked.toNat)).sum

theorem leaseValid_iff : leaseValid hasAccount keyEpoch nextPeriod publication id lease = true ↔
    LeaseFacts hasAccount keyEpoch nextPeriod publication id lease := by
  unfold leaseValid
  simp only [Bool.and_eq_true, decide_eq_true_eq, Bool.not_eq_true', List.all_eq_true,
    Option.all_eq_true]
  constructor
  · rintro ⟨⟨⟨⟨⟨⟨⟨⟨⟨⟨⟨⟨⟨h₁, h₂⟩, h₃⟩, h₄⟩, h₅⟩, h₆⟩, h₇⟩, h₈⟩, h₉⟩, h₁₀⟩, h₁₁⟩, h₁₂⟩, h₁₃⟩, h₁₄⟩
    exact ⟨h₁, h₂, h₃, h₄, h₅, h₆, h₇, h₈, h₉, h₁₀, h₁₁, h₁₂, h₁₃, h₁₄⟩
  · rintro ⟨h₁, h₂, h₃, h₄, h₅, h₆, h₇, h₈, h₉, h₁₀, h₁₁, h₁₂, h₁₃, h₁₄⟩
    exact ⟨⟨⟨⟨⟨⟨⟨⟨⟨⟨⟨⟨⟨h₁, h₂⟩, h₃⟩, h₄⟩, h₅⟩, h₆⟩, h₇⟩, h₈⟩, h₉⟩, h₁₀⟩, h₁₁⟩, h₁₂⟩, h₁₃⟩, h₁₄⟩

end Loops

section

variable [Crypto]

namespace CybouState

def hasAccount (s : CybouState) (id : AccountId) : Bool := s.accounts.contains id

def keyEpoch (s : CybouState) (id : AccountId) : Option UInt64 :=
  (s.identities.find id).map (·.keyEpoch)

def fundedTerms (s : CybouState) : List StorageFundedTerm :=
  (s.leases.entries.map fun e => e.2.fundedTerms).flatten

def fundingIds (s : CybouState) : List Hash256 := s.fundedTerms.map (·.fundingOperationId)

def assignmentOperationIds (s : CybouState) : List Hash256 :=
  (s.fundedTerms.map (·.assignmentOperationIds)).flatten

/-- `claimed_genesis_labels.find(label)`: the claimant of the first claimed
    allocation with this label. -/
def grantedTo (s : CybouState) (label : Bytes) : Option AccountId :=
  (s.genesisAllocations.entries.find? fun e =>
    decide (e.2.label = label) && e.2.claimedBy.isSome).bind (·.2.claimedBy)

def allocationLabels (s : CybouState) : List Bytes :=
  (s.genesisAllocations.entries.map (·.2.label)).filter (fun label => !label.isEmpty)

end CybouState

open StateValidationError

/-! ### The checks of `ValidateCybouState` -/

def checkAccount (s : CybouState) (e : AccountId × AccountState) : StateValidationError :=
  (failIf (Hash256.isNull e.1 = true ∨ s.identities.find e.1 = Option.none) .missingIdentity).andThen
    (failIf (e.2.onboardingSystemBalance > e.2.systemBalance) .balanceOverflow)

def checkIdentity (s : CybouState) (e : AccountId × IdentityRecord) : StateValidationError :=
  failIf ((computeRecoveryKeyId e.2.recoveryKey).bind s.identities.findByRecoveryKeyId ≠ some e.1)
    .duplicateRecoveryBinding

def checkAllocation (s : CybouState) (e : IdentityKeyId × GenesisAllocation) :
    StateValidationError :=
  failIf ((e.2.label.isEmpty = false ∧ wellFormedLabel e.2.label = false) ∨
    (e.2.claimedBy.all s.hasAccount = false)) .invalidNameRegistry

def nameAdmitted (s : CybouState) (label : Bytes) (id : AccountId) : Bool :=
  decide (validateNameLabel label = .none) ||
    (decide (validateNameLabel label = .protectedName) && decide (s.grantedTo label = some id))

def checkName (s : CybouState) (e : Bytes × AccountId) : StateValidationError :=
  failIf (nameAdmitted s e.1 e.2 = false ∨ s.names.accountNames.find? e.2 ≠ some e.1 ∨
    s.hasAccount e.2 = false) .invalidNameRegistry

def checkCommit (s : CybouState) (e : Hash256 × NameCommitRecord) : StateValidationError :=
  failIf (Hash256.isNull e.1 = true ∨ s.hasAccount e.2.accountId = false) .invalidNameRegistry

def checkPublication (s : CybouState) (e : Hash256 × PublicationRecord) : StateValidationError :=
  failIf (Hash256.isNull e.1 = true ∨ e.2.chunkCount = 0 ∨ s.hasAccount e.2.owner = false)
    .invalidResourceUsage

def checkLease (s : CybouState) (e : Hash256 × StorageLeaseRecord) : StateValidationError :=
  failIf (leaseValid s.hasAccount s.keyEpoch s.settlement.nextPeriod (s.publications.find? e.1)
    e.1 e.2 = false) .invalidStorageLease

def validateCybouState (s : CybouState) : StateValidationError :=
  (failIf (s.accounts.size > MAX_IDENTITY_REGISTRY_ACCOUNTS) .accountLimitExceeded).andThen <|
  (failIf (s.accounts.size ≠ s.identities.accounts.size) .accountIdentityCountMismatch).andThen <|
  (firstError (checkAccount s) s.accounts.entries).andThen <|
  (firstError (checkIdentity s) s.identities.accounts.entries).andThen <|
  (failIf (s.names.names.size ≠ s.names.accountNames.size) .invalidNameRegistry).andThen <|
  (failIf (s.genesisAllocations.size > MAX_GENESIS_ALLOCATIONS) .invalidNameRegistry).andThen <|
  (firstError (checkAllocation s) s.genesisAllocations.entries).andThen <|
  (failIf (¬s.allocationLabels.Nodup) .invalidNameRegistry).andThen <|
  (firstError (checkName s) s.names.names.entries).andThen <|
  (firstError (checkCommit s) s.names.pendingCommits.entries).andThen <|
  (failIf (¬(s.names.pendingCommits.entries.map (·.2.accountId)).Nodup)
    .invalidNameRegistry).andThen <|
  (failIf (s.names.pendingCommits.size > DEFAULT_MAX_PENDING_NAME_COMMITS.toNat)
    .invalidNameRegistry).andThen <|
  (failIf (totalCybou s = UINT64_MAX) .balanceOverflow).andThen <|
  (firstError (checkPublication s) s.publications.entries).andThen <|
  (firstError (checkLease s) s.leases.entries).andThen <|
  (failIf (¬s.fundingIds.Nodup) .invalidStorageLease).andThen <|
  (failIf (¬s.assignmentOperationIds.Nodup) .invalidStorageLease)

/-! ### The invariant -/

structure StateInvariant (s : CybouState) : Prop where
  accountLimit : s.accounts.size ≤ MAX_IDENTITY_REGISTRY_ACCOUNTS
  identityCount : s.accounts.size = s.identities.accounts.size
  account : ∀ id a, s.accounts.find? id = some a →
    Hash256.isNull id = false ∧ (∃ r, s.identities.find id = some r) ∧
      a.onboardingSystemBalance ≤ a.systemBalance
  nameCount : s.names.names.size = s.names.accountNames.size
  allocationLimit : s.genesisAllocations.size ≤ MAX_GENESIS_ALLOCATIONS
  allocation : ∀ key a, s.genesisAllocations.find? key = some a →
    (a.label = [] ∨ wellFormedLabel a.label = true) ∧
      (∀ id ∈ a.claimedBy, s.hasAccount id = true)
  allocationLabels : s.allocationLabels.Nodup
  name : ∀ label id, s.names.names.find? label = some id →
    nameAdmitted s label id = true ∧ s.names.accountNames.find? id = some label ∧
      s.hasAccount id = true
  commit : ∀ c r, s.names.pendingCommits.find? c = some r →
    c.isNull = false ∧ s.hasAccount r.accountId = true
  commitAccounts : (s.names.pendingCommits.entries.map (·.2.accountId)).Nodup
  commitLimit : s.names.pendingCommits.size ≤ DEFAULT_MAX_PENDING_NAME_COMMITS.toNat
  total : exactTotal s < 2 ^ 64 - 1
  publication : ∀ id p, s.publications.find? id = some p →
    id.isNull = false ∧ p.chunkCount ≠ 0 ∧ s.hasAccount p.owner = true
  lease : ∀ id l, s.leases.find? id = some l →
    leaseValid s.hasAccount s.keyEpoch s.settlement.nextPeriod (s.publications.find? id) id l = true
  fundingIds : s.fundingIds.Nodup
  assignmentOperationIds : s.assignmentOperationIds.Nodup

omit [Crypto] in
theorem forall_entries_iff {K V : Type} [LinearOrder K] {m : OrdMap K V} {p : K × V → Prop} :
    (∀ e ∈ m.entries, p e) ↔ ∀ k v, m.find? k = some v → p (k, v) := by
  simp only [Prod.forall, OrdMap.mem_entries_iff]

theorem checkIdentity_eq_none (s : CybouState) {e : AccountId × IdentityRecord}
    (he : e ∈ s.identities.accounts.entries) : checkIdentity s e = .none := by
  obtain ⟨key, hkey, hindex⟩ := s.identities.wellFormed.indexed e.1 e.2 (OrdMap.mem_entries_iff.mp he)
  rw [checkIdentity, failIf_eq_none (by simp), not_not, hkey]
  exact hindex

/-- **`ValidateCybouState` accepts exactly the states with the invariant.** -/
theorem validateCybouState_eq_none {s : CybouState} :
    validateCybouState s = .none ↔ StateInvariant s := by
  unfold validateCybouState
  simp only [andThen_eq_none, firstError_eq_none, checkAccount, checkAllocation, checkName,
    checkCommit, checkPublication, checkLease, forall_entries_iff]
  simp only [failIf_eq_none, ne_eq, reduceCtorEq, not_false_eq_true, not_lt, not_not, not_or,
    not_and, Bool.not_eq_true, Bool.not_eq_false, gt_iff_lt, UInt64.not_lt]
  constructor
  · rintro ⟨h₁, h₂, h₃, -, h₅, h₆, h₇, h₈, h₉, h₁₀, h₁₁, h₁₂, h₁₃, h₁₄, h₁₅, h₁₆, h₁₇⟩
    exact
      { accountLimit := h₁
        identityCount := h₂
        account := fun id a h => ⟨(h₃ id a h).1.1, Option.ne_none_iff_exists'.mp (h₃ id a h).1.2,
          (h₃ id a h).2⟩
        nameCount := h₅
        allocationLimit := h₆
        allocation := fun key a h => ⟨by
          rcases hl : a.label with _ | ⟨c, rest⟩
          · exact .inl rfl
          · exact .inr (hl ▸ (h₇ key a h).1 (by simp [hl])), by
          have := (h₇ key a h).2
          rwa [Option.all_eq_true] at this⟩
        allocationLabels := h₈
        name := h₉
        commit := h₁₀
        commitAccounts := h₁₁
        commitLimit := h₁₂
        total := totalCybou_ne_max.mp h₁₃
        publication := h₁₄
        lease := h₁₅
        fundingIds := h₁₆
        assignmentOperationIds := h₁₇ }
  · intro h
    refine ⟨h.accountLimit, h.identityCount, fun id a hf => ?_, fun id r hf => ?_, h.nameCount,
      h.allocationLimit, fun key a hf => ?_, h.allocationLabels, h.name, h.commit,
      h.commitAccounts, h.commitLimit, totalCybou_ne_max.mpr h.total, h.publication, h.lease,
      h.fundingIds, h.assignmentOperationIds⟩
    · obtain ⟨hnull, hr, hle⟩ := h.account id a hf
      exact ⟨⟨hnull, Option.ne_none_iff_exists'.mpr hr⟩, hle⟩
    · exact checkIdentity_eq_none s (OrdMap.mem_entries_iff.mpr hf)
    · obtain ⟨hlabel, hclaim⟩ := h.allocation key a hf
      refine ⟨fun hne => hlabel.resolve_left fun hnil => by simp [hnil] at hne, ?_⟩
      rwa [Option.all_eq_true]

end

/-! ### A state that passes every check -/

section Sample

attribute [local instance] Crypto.sample

/-- An identifier that starts with `tag`. -/
def sampleId (tag : UInt8) : Hash256 := FixedBytes.leading 31 tag

def sampleKey (purpose : IdentityKeyPurpose) (tag : UInt8) : IdentityHybridPublicKey :=
  { purpose, ed25519 := sampleId tag
    mlDsa := List.replicate (purpose.publicSize - 1) 0 ++ [tag] }

def sampleKeyId (tag : UInt8) : IdentityKeyId := ⟨1 :: tag :: List.replicate 30 0, by simp⟩

def sampleRecord (tag : UInt8) : IdentityRecord :=
  { recoveryKey := sampleKey .recoveryRoot tag
    authorizationKey := sampleKey .authorization tag
    kemPackageId := sampleId tag
    nonce := 0
    keyEpoch := 0 }

set_option maxRecDepth 100000 in
def sampleIdentities : IdentityRegistry where
  accounts := ((∅ : OrdMap _ _).set (sampleId 1) (sampleRecord 1)).set (sampleId 2) (sampleRecord 2)
  recoveryIndex := ((∅ : OrdMap _ _).set (sampleKeyId 1) (sampleId 1)).set (sampleKeyId 2) (sampleId 2)
  wellFormed := by
    have hrec₁ : computeRecoveryKeyId (sampleRecord 1).recoveryKey = some (sampleKeyId 1) := by
      decide
    have hrec₂ : computeRecoveryKeyId (sampleRecord 2).recoveryKey = some (sampleKeyId 2) := by
      decide
    have hauth₁ : computeAuthorizationKeyId (sampleRecord 1).authorizationKey =
        some (sampleKeyId 1) := by decide
    have hauth₂ : computeAuthorizationKeyId (sampleRecord 2).authorizationKey =
        some (sampleKeyId 2) := by decide
    have h₁ := RegistryMaps.wellFormed_empty.insert (OrdMap.find?_empty (sampleId 1))
      (OrdMap.find?_empty _) (by decide) hrec₁ hauth₁ (by decide)
    have hfresh : ((∅ : OrdMap AccountId IdentityRecord).set (sampleId 1) (sampleRecord 1)).find?
        (sampleId 2) = none := by decide
    exact h₁.insert hfresh (by decide) (by decide) hrec₂ hauth₂ (by decide)

/-- One period of two chunks on one replica, funded from locked balance. -/
def sampleTerm : StorageFundedTerm :=
  { fundingOperationId := sampleId 7, firstPeriod := 0, endPeriod := 1, rate := 2048
    periodSeconds := 86400, replicaShare := 2, contractedUnitSeconds := 172800
    initialOnboarding := 0, initialLocked := 2 }

def sampleLease : StorageLeaseRecord :=
  { payer := sampleId 1, units := 2, replicas := 1, firstPeriod := 0, endPeriod := 1
    escrowOnboarding := 0, escrowLocked := 2, fundedTerms := [sampleTerm] }

/-- Two named accounts, a pending commit, an unclaimed allocation and a leased
    publication. -/
def sampleState : CybouState :=
  { accounts := ((∅ : OrdMap _ _).set (sampleId 1)
      { balance := 1000, systemBalance := 500, onboardingSystemBalance := 400 }).set (sampleId 2)
      { balance := 7 }
    identities := sampleIdentities
    names :=
      { names := ((∅ : OrdMap _ _).set (ascii "alice") (sampleId 1)).set (ascii "bobby") (sampleId 2)
        accountNames :=
          ((∅ : OrdMap _ _).set (sampleId 1) (ascii "alice")).set (sampleId 2) (ascii "bobby")
        pendingCommits := (∅ : OrdMap _ _).set (sampleId 5)
          { accountId := sampleId 2, commitHeight := 3 } }
    genesisAllocations := (∅ : OrdMap _ _).set (sampleKeyId 3)
      { balance := 100, label := ascii "carol", claimedBy := none }
    publications := (∅ : OrdMap _ _).set (sampleId 6)
      { owner := sampleId 1, chunkAuthorizationRoot := sampleId 9, chunkCount := 2, height := 4 }
    settlement := {}
    leases := (∅ : OrdMap _ _).set (sampleId 6) sampleLease }

set_option maxRecDepth 100000 in
theorem validateCybouState_sampleState : validateCybouState sampleState = .none := by
  decide

end Sample

end Cybou
