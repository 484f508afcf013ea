import Cybou.TransitionSpecs

/-! # What publications, leases and their revocation do

The three operations share `FundStorageLease`, whose exception comes after the
nonce and the fee have been taken.  Its specification says when it is thrown;
from a valid state that leaves one way, an operation id that the lease already
records.
-/

namespace Cybou

open Library Proc

/-- The arguments of `FundStorageLease`. -/
structure LeaseOrder where
  publicationId : Hash256
  payer : AccountId
  units : UInt32
  replicas : UInt8
  periods : UInt32
  escrow : UInt64
  fundingOperationId : Hash256

def fundedLease (order : LeaseOrder) (term : StorageFundedTerm) :
    Option StorageLeaseRecord → StorageLeaseRecord
  | some lease =>
    { lease with
      endPeriod := term.endPeriod
      escrowOnboarding := lease.escrowOnboarding + term.initialOnboarding
      escrowLocked := lease.escrowLocked + term.initialLocked
      fundedTerms := lease.fundedTerms ++ [term] }
  | none =>
    { payer := order.payer, units := order.units, replicas := order.replicas
      firstPeriod := term.firstPeriod, endPeriod := term.endPeriod
      escrowOnboarding := term.initialOnboarding, escrowLocked := term.initialLocked
      fundedTerms := [term] }

section

variable [Crypto]

/-! ### Leases and the total -/

def CybouState.escrowAt (s : CybouState) (id : Hash256) : Nat :=
  ((s.leases.find? id).map (·.value)).getD 0

theorem exactTotal_putLease (s : CybouState) (id : Hash256) (lease : StorageLeaseRecord) :
    exactTotal (s.putLease id lease) + s.escrowAt id = exactTotal s + lease.value := by
  unfold CybouState.escrowAt
  cases hfind : s.leases.find? id with
  | none =>
    have hsum := OrdMap.sum_set_of_none (v := lease) (f := fun _ l => l.value) hfind
    simp only [exactTotal, CybouState.putLease, Option.map_none, Option.getD_none]
    omega
  | some old =>
    have hsum := OrdMap.sum_set_of_some (v := lease) (f := fun _ l => l.value) hfind
    simp only [exactTotal, CybouState.putLease, Option.map_some, Option.getD_some]
    omega

variable {s : CybouState}

theorem value_add_escrowAt_le {id : AccountId} {account : AccountState}
    (h : s.accounts.find? id = some account) (publicationId : Hash256) :
    account.value + s.escrowAt publicationId ≤ exactTotal s := by
  have haccount := OrdMap.le_sum_of_find? (f := fun _ a => a.value) h
  have hlease : s.escrowAt publicationId ≤ s.leases.sum fun _ l => l.value := by
    unfold CybouState.escrowAt
    cases hfind : s.leases.find? publicationId with
    | none => exact Nat.zero_le _
    | some lease => exact OrdMap.le_sum_of_find? (f := fun _ l => l.value) hfind
  simp only [exactTotal]
  omega

/-! ### `FundStorageLease` -/

namespace LeaseOrder

def run (order : LeaseOrder) (params : CybouProtocolParameters) : Transition Unit :=
  fundStorageLease order.publicationId order.payer order.units order.replicas order.periods
    order.escrow params order.fundingOperationId

omit [Crypto] in
def budget (order : LeaseOrder) (params : CybouProtocolParameters) :
    Option AssignedStorageBudget :=
  computeAssignedStorageBudget order.units.toUInt64 order.replicas.toUInt64
    order.periods.toUInt64 params.storageSettlementPeriodSeconds params.storageRatePerGibDayReplica

/-- The first period of the new term. -/
def start (order : LeaseOrder) (s : CybouState) : UInt64 :=
  leaseStart s (s.leases.find? order.publicationId)

def refused (order : LeaseOrder) (s : CybouState) (budget : AssignedStorageBudget) : Bool :=
  fundingRefused budget (s.leases.find? order.publicationId) order.payer order.units order.replicas
    order.periods order.escrow order.fundingOperationId (order.start s)

/-- The new term, funded from `account`, onboarding credit first. -/
def term (order : LeaseOrder) (params : CybouProtocolParameters) (s : CybouState)
    (budget : AssignedStorageBudget) (account : AccountState) : StorageFundedTerm :=
  newFundedTerm params budget order.fundingOperationId (order.start s) order.periods
    (min account.onboardingSystemBalance order.escrow)
    (order.escrow - min account.onboardingSystemBalance order.escrow)

end LeaseOrder

theorem SameFrame.refused {s' : CybouState} (h : SameFrame s s') (order : LeaseOrder)
    (budget : AssignedStorageBudget) : order.refused s' budget = order.refused s budget := by
  simp only [LeaseOrder.refused, LeaseOrder.start, leaseStart, h.leases, h.settlement]

def CybouState.fundLease (s : CybouState) (order : LeaseOrder) (params : CybouProtocolParameters)
    (budget : AssignedStorageBudget) (account : AccountState) : CybouState :=
  (s.putAccount order.payer (account.debitSystem order.escrow)).putLease order.publicationId
    (fundedLease order (order.term params s budget account) (s.leases.find? order.publicationId))

/-- A term was funded: the payer could pay it and nothing stood against it. -/
structure LeaseFunded (order : LeaseOrder) (params : CybouProtocolParameters)
    (budget : AssignedStorageBudget) (account : AccountState) (s s' : CybouState) : Prop where
  priced : order.budget params = some budget
  payer : s.accounts.find? order.payer = some account
  covered : order.escrow ≤ account.systemBalance
  accepted : order.refused s budget = false
  result : s' = s.fundLease order params budget account

section Funding

variable {s : CybouState} {order : LeaseOrder} {params : CybouProtocolParameters}
  {budget : AssignedStorageBudget} {account : AccountState}

omit [Crypto] in
theorem onboarding_add_locked (a b : UInt64) :
    (min a b).toNat + (b - min a b).toNat = b.toNat := by
  have hle : min a b ≤ b := by
    rw [UInt64.le_iff_toNat_le, UInt64.toNat_min]
    omega
  rw [UInt64.toNat_sub_of_le _ _ hle, UInt64.toNat_min]
  omega

theorem value_fundedLease (hpayer : s.accounts.find? order.payer = some account)
    (hcovered : order.escrow ≤ account.systemBalance) (htotal : exactTotal s < 2 ^ 64) :
    (fundedLease order (order.term params s budget account)
      (s.leases.find? order.publicationId)).value =
        s.escrowAt order.publicationId + order.escrow.toNat := by
  have hroom := value_add_escrowAt_le hpayer order.publicationId
  have hsplit := onboarding_add_locked account.onboardingSystemBalance order.escrow
  have hle := UInt64.le_iff_toNat_le.mp hcovered
  simp only [AccountState.value] at hroom
  unfold CybouState.escrowAt at hroom ⊢
  cases hfind : s.leases.find? order.publicationId with
  | none =>
    simp only [fundedLease, StorageLeaseRecord.value, LeaseOrder.term, newFundedTerm,
      Option.map_none, Option.getD_none]
    omega
  | some lease =>
    simp only [hfind, Option.map_some, Option.getD_some, StorageLeaseRecord.value] at hroom
    simp only [fundedLease, StorageLeaseRecord.value, LeaseOrder.term, newFundedTerm,
      Option.map_some, Option.getD_some]
    rw [toNat_add_of_lt (by omega), toNat_add_of_lt (by omega)]
    omega

theorem exactTotal_fundLease (hpayer : s.accounts.find? order.payer = some account)
    (hcovered : order.escrow ≤ account.systemBalance) (htotal : exactTotal s < 2 ^ 64) :
    exactTotal (s.fundLease order params budget account) = exactTotal s := by
  have hput := exactTotal_debited hpayer hcovered
  have hlease := exactTotal_putLease
    (s.putAccount order.payer (account.debitSystem order.escrow)) order.publicationId
    (fundedLease order (order.term params s budget account) (s.leases.find? order.publicationId))
  have hescrow : (s.putAccount order.payer (account.debitSystem order.escrow)).escrowAt
    order.publicationId = s.escrowAt order.publicationId := rfl
  have hvalue : (fundedLease order (order.term params s budget account)
      (s.leases.find? order.publicationId)).value = _ := value_fundedLease hpayer hcovered htotal
  rw [CybouState.fundLease]
  omega

/-- `FundStorageLease` funds the term or throws before it changes anything. -/
theorem fundStorageLease_spec (hpayer : s.accounts.find? order.payer = some account)
    (hcovered : order.escrow ≤ account.systemBalance) (htotal : exactTotal s < 2 ^ 64) :
    wp (order.run params) (fun _ s' => ∃ budget, LeaseFunded order params budget account s s')
      (fun e s' => e = .thrown ∧ s' = s ∧
        ∀ budget ∈ order.budget params, order.refused s budget = true) s := by
  have hroom := value_add_escrowAt_le hpayer order.publicationId
  have hsplit := onboarding_add_locked account.onboardingSystemBalance order.escrow
  have hle := UInt64.le_iff_toNat_le.mp hcovered
  have hmin : min account.onboardingSystemBalance order.escrow ≤ order.escrow := by
    rw [UInt64.le_iff_toNat_le]
    omega
  simp only [AccountState.value, CybouState.escrowAt] at hroom
  unfold LeaseOrder.run fundStorageLease
  rw [wp_get_bind]
  split
  · next hnone =>
    refine ⟨rfl, rfl, fun budget hbudget => ?_⟩
    have hsome : order.budget params = some budget := hbudget
    rw [LeaseOrder.budget, hnone] at hsome
    cases hsome
  next budget hbudget =>
  change wp (if order.refused s budget = true then throw Fault.thrown else _) _ _ s
  split
  · next hrefused =>
    refine ⟨rfl, rfl, fun budget' hbudget' => ?_⟩
    cases hbudget.symm.trans hbudget'
    exact hrefused
  next haccepted =>
  have hfunded : LeaseFunded order params budget account s
      (s.fundLease order params budget account) :=
    ⟨hbudget, hpayer, hcovered, eq_false_of_ne_true haccepted, rfl⟩
  rw [wp_bind, wp_debitSystemBalance hpayer hcovered, wp_bind, wp_subAmount hmin]
  cases hfind : s.leases.find? order.publicationId with
  | none =>
    rw [wp_modify]
    refine ⟨budget, hfunded.priced, hpayer, hcovered, hfunded.accepted, ?_⟩
    have hemplace : ∀ lease : StorageLeaseRecord,
        s.leases.emplace order.publicationId lease = s.leases.set order.publicationId lease :=
      fun lease => OrdMap.emplace_of_none hfind
    rw [CybouState.fundLease, hfind]
    simp only [LeaseOrder.term, LeaseOrder.start, hfind, CybouState.putLease,
      CybouState.putAccount, hemplace]
    rfl
  | some lease =>
    simp only [hfind, Option.map_some, Option.getD_some, StorageLeaseRecord.value] at hroom
    rw [wp_bind, wp_addAmount (by omega), wp_bind, wp_addAmount (by omega), wp_modify]
    refine ⟨budget, hfunded.priced, hpayer, hcovered, hfunded.accepted, ?_⟩
    rw [CybouState.fundLease, hfind]
    simp only [LeaseOrder.term, LeaseOrder.start, hfind]
    rfl

end Funding

/-! ### Publications -/

def publicationOrder (op : AuthorizedRootPublication) (params : CybouProtocolParameters)
    (publicationId : Hash256) (escrow : UInt64) : LeaseOrder :=
  { publicationId, payer := op.authorization.accountId, units := op.publication.chunkCount
    replicas := params.storageReplicaTarget, periods := op.publication.leasePeriods, escrow
    fundingOperationId := publicationId }

/-- An accepted publication: the fee is paid and the lease, if there is one, is
    funded. -/
structure RootPublicationDone (op : AuthorizedRootPublication) (networkBinding : Hash256)
    (params : CybouProtocolParameters) (s s' : CybouState) : Prop where
  authorized : (s.identities.authorizeOperation op.authorization networkBinding).1 = .none
  treasury : ∃ ref, centralAuthorityFeeBalance s = some ref
  paid : ∃ fee publicationId escrow sender,
    publicationFeeAndId op params = some (fee, publicationId) ∧
    publicationEscrow s params op.publication = some escrow ∧
    s.accounts.find? op.authorization.accountId = some sender ∧
    fee.toNat + escrow.toNat ≤ sender.systemBalance.toNat ∧
    let paid := (s.authorize op.authorization networkBinding).payFee op.authorization.accountId
      sender fee
    (escrow = 0 ∧ s' = paid ∨
      escrow ≠ 0 ∧ ∃ budget account,
        LeaseFunded (publicationOrder op params publicationId escrow) params budget account paid s')

variable {params : CybouProtocolParameters} {escrow : UInt64}

omit [Crypto] in
theorem budget_total_of_escrow {units : UInt32} {replicas : UInt8} {periods : UInt32}
    (h : computeStorageLeaseEscrow params units replicas periods = some escrow) :
    ∃ budget, computeAssignedStorageBudget units.toUInt64 replicas.toUInt64 periods.toUInt64
      params.storageSettlementPeriodSeconds params.storageRatePerGibDayReplica = some budget ∧
        budget.total = escrow := by
  obtain ⟨budget, hbudget, htotal⟩ := Option.bind_eq_some_iff.mp h
  exact ⟨budget, hbudget, Option.some.inj htotal⟩

theorem publicationEscrow_ne_zero {publication : RootPublication}
    (h : publicationEscrow s params publication = some escrow) (hne : escrow ≠ 0) :
    ¬s.settlement.nextPeriod > UINT64_MAX - publication.leasePeriods.toUInt64 ∧
      computeStorageLeaseEscrow params publication.chunkCount params.storageReplicaTarget
        publication.leasePeriods = some escrow := by
  unfold publicationEscrow at h
  split at h
  · cases h
    exact absurd rfl hne
  · split at h
    · cases h
    · next hperiod => exact ⟨hperiod, h⟩

variable {op : AuthorizedRootPublication} {fee : UInt64} {publicationId : Hash256}

theorem publicationFeeAndId_ne_null (h : publicationFeeAndId op params = some (fee, publicationId)) :
    publicationId.isNull = false := by
  obtain ⟨bytes, -, h⟩ := Option.bind_eq_some_iff.mp h
  obtain ⟨fee', -, h⟩ := Option.bind_eq_some_iff.mp h
  obtain ⟨id, hid, h⟩ := Option.bind_eq_some_iff.mp h
  split at h
  · cases h
  · cases h
    exact computeOperationIdOfBytes_ne_null hid

theorem publicationOrder_accepted (hid : publicationFeeAndId op params = some (fee, publicationId))
    (hescrow : publicationEscrow s params op.publication = some escrow) (hne : escrow ≠ 0)
    (hfresh : s.leases.find? publicationId = none) :
    ∃ budget ∈ (publicationOrder op params publicationId escrow).budget params,
      (publicationOrder op params publicationId escrow).refused s budget = false := by
  obtain ⟨hperiod, hprice⟩ := publicationEscrow_ne_zero hescrow hne
  obtain ⟨budget, hbudget, htotal⟩ := budget_total_of_escrow hprice
  refine ⟨budget, hbudget, ?_⟩
  simp [LeaseOrder.refused, LeaseOrder.start, publicationOrder, fundingRefused, leaseStart, hfresh,
    htotal, publicationFeeAndId_ne_null hid, UInt64.not_lt.mp hperiod]

variable {authorization : IdentityOperationAuthorization} {sender : AccountState} {networkBinding : Hash256}

theorem SameFrame.paid (networkBinding : Hash256) (fee : UInt64)
    (hsender : s.accounts.find? authorization.accountId = some sender) :
    SameFrame s ((s.authorize authorization networkBinding).payFee authorization.accountId sender
      fee) :=
  (SameFrame.ofAuthorize s authorization networkBinding).trans
    (SameFrame.payFee fee (s := s.authorize authorization networkBinding) hsender)

theorem exactTotal_paid (networkBinding : Hash256) {fee : UInt64} {ref : BalanceRef}
    (htotal : exactTotal s < 2 ^ 64 - 1) (href : centralAuthorityFeeBalance s = some ref)
    (hsender : s.accounts.find? authorization.accountId = some sender) (hfee : fee ≤ sender.systemBalance) :
    exactTotal ((s.authorize authorization networkBinding).payFee authorization.accountId sender
      fee) = exactTotal s := by
  have hauthorized : (s.authorize authorization networkBinding).accounts.find?
    authorization.accountId = some sender := hsender
  have hframe := SameFrame.ofAuthorize s authorization networkBinding
  have hsum : exactTotal (s.authorize authorization networkBinding) < 2 ^ 64 := by
    rw [exactTotal_authorize]
    omega
  rw [exactTotal_payFee hauthorized hfee (hframe.centralAuthorityFeeBalance.trans href) hsum,
    exactTotal_authorize]

omit [Crypto] in
theorem le_of_debt {escrow fee balance : UInt64} (hdebt : escrow.toNat + fee.toNat ≤ balance.toNat) :
    fee ≤ balance := by
  rw [UInt64.le_iff_toNat_le]
  omega

theorem wp_payAuthorized {α : Type} {f : Transition α} {Q : α → CybouState → Prop} {E : Fault → CybouState → Prop}
    {ref : BalanceRef} (htotal : exactTotal s < 2 ^ 64 - 1) (href : centralAuthorityFeeBalance s = some ref)
    (hsender : s.accounts.find? authorization.accountId = some sender)
    (hdebt : escrow.toNat + fee.toNat ≤ sender.systemBalance.toNat) :
    wp (debitSystemBalance authorization.accountId fee >>= fun _ => creditCentralAuthorityFee fee >>= fun _ => f) Q E
        (s.authorize authorization networkBinding) ↔
      wp f Q E ((s.authorize authorization networkBinding).payFee authorization.accountId sender fee) := by
  have hframe := SameFrame.ofAuthorize s authorization networkBinding
  refine wp_payFee (s := s.authorize authorization networkBinding) hsender (le_of_debt hdebt)
    (hframe.centralAuthorityFeeBalance.trans href) ?_
  rw [exactTotal_authorize]
  omega

/-- Who can pay fee and escrow still covers the escrow when the fee is paid. -/
theorem escrow_covered (authorization : IdentityOperationAuthorization) (networkBinding : Hash256)
    (hdebt : escrow.toNat + fee.toNat ≤ sender.systemBalance.toNat) :
    ∃ account, ((s.authorize authorization networkBinding).payFee authorization.accountId sender fee).accounts.find?
      authorization.accountId = some account ∧ escrow ≤ account.systemBalance := by
  obtain ⟨account, haccount, hsystem, -⟩ :=
    find?_payFee (s.authorize authorization networkBinding) authorization.accountId sender fee
  refine ⟨account, haccount, ?_⟩
  rw [hsystem, UInt64.le_iff_toNat_le, UInt64.toNat_sub_of_le _ _ (le_of_debt hdebt)]
  omega

/-- A publication is refused and changes nothing, or is paid and its lease funded. -/
theorem applyRootPublication_spec (op : AuthorizedRootPublication) (networkBinding : Hash256)
    (params : CybouProtocolParameters) (htotal : exactTotal s < 2 ^ 64 - 1) :
    wp (applyRootPublication op networkBinding params)
      (Atomic .none s (RootPublicationDone op networkBinding params s))
      (fun e s' => e = .thrown ∧ SameFrame s s' ∧ exactTotal s' = exactTotal s ∧
        ∃ fee publicationId, publicationFeeAndId op params = some (fee, publicationId) ∧
          s.leases.contains publicationId = true) s := by
  unfold applyRootPublication
  refine wp_guard (by decide) fun _ => ?_
  refine wp_guard (by decide) fun _ => ?_
  split
  · exact Atomic.refused (by decide)
  next fee publicationId hid =>
  rw [wp_get_bind]
  split
  · exact Atomic.refused (by decide)
  next escrow hescrow =>
  refine wp_guard (by decide) fun hsum => ?_
  split
  · exact Atomic.refused (by decide)
  next sender hsender =>
  refine wp_guard (by decide) fun _ => ?_
  have hdue := add_lt_of_not_gt hsum
  rw [wp_bind, wp_addAmount (by omega)]
  refine wp_guard (by decide) fun hbalance => ?_
  refine wp_guard (by decide) fun hcan => ?_
  refine wp_authorized (by decide) fun hauth => ?_
  obtain ⟨ref, href⟩ := canCredit_ref (eq_true_of_ne_false hcan)
  rw [UInt64.not_lt, UInt64.le_iff_toNat_le, toNat_add_of_lt (by omega)] at hbalance
  have hdebt : escrow.toNat + fee.toNat ≤ sender.systemBalance.toNat := by omega
  rw [wp_payAuthorized htotal href hsender hdebt]
  have hpaid := exactTotal_paid networkBinding htotal href hsender (le_of_debt hdebt)
  refine wp_refuse (fun hzero => ?_) fun hne => ?_
  · exact Atomic.completed ⟨hauth, ⟨ref, href⟩, fee, publicationId, escrow, sender, hid, hescrow,
      hsender, by omega, .inl ⟨hzero, rfl⟩⟩
  obtain ⟨account, haccount, hcovered⟩ := escrow_covered op.authorization networkBinding hdebt (s := s)
  have hspec : wp ((publicationOrder op params publicationId escrow).run params) _ _ _ :=
    fundStorageLease_spec haccount hcovered (by omega)
  rw [wp_bind]
  refine wp_mono hspec ?_ ?_
  · rintro _ s' ⟨budget, hfunded⟩
    exact Atomic.completed ⟨hauth, ⟨ref, href⟩, fee, publicationId, escrow, sender, hid, hescrow,
      hsender, by omega, .inr ⟨hne, budget, account, hfunded⟩⟩
  · rintro e s' ⟨rfl, rfl, hrefused⟩
    have hkept := SameFrame.paid networkBinding fee hsender
    refine ⟨rfl, hkept, hpaid, fee, publicationId, hid, ?_⟩
    by_contra hfresh
    have hnone := OrdMap.contains_eq_false_iff.mp (eq_false_of_ne_true hfresh)
    obtain ⟨budget, hbudget, haccepted⟩ := publicationOrder_accepted hid hescrow hne hnone
    have hsame := hkept.refused (publicationOrder op params publicationId escrow) budget
    rw [hrefused budget hbudget, haccepted] at hsame
    cases hsame

/-! ### Revocation -/

def CybouState.unpublish (s : CybouState) (publicationId : Hash256) : CybouState :=
  { closeLease s publicationId with
    publications := (closeLease s publicationId).publications.erase publicationId }


theorem closeLease_eq (s : CybouState) (publicationId : Hash256) :
    closeLease s publicationId = { s with leases := (closeLease s publicationId).leases } := by
  unfold closeLease
  split <;> rfl

theorem unpublish_eq (s : CybouState) (publicationId : Hash256) :
    s.unpublish publicationId =
      { s with
        leases := (closeLease s publicationId).leases
        publications := s.publications.erase publicationId } := by
  rw [CybouState.unpublish, closeLease_eq]

@[simp] theorem accounts_unpublish (s : CybouState) (publicationId : Hash256) :
    (s.unpublish publicationId).accounts = s.accounts := by
  rw [unpublish_eq]

theorem treasury_unpublish (s : CybouState) (publicationId : Hash256) :
    centralAuthorityFeeBalance (s.unpublish publicationId) = centralAuthorityFeeBalance s := by
  rw [unpublish_eq]
  rfl

/-- Only the sender's authorization and a lease have changed when the fee is paid. -/
theorem find?_unpublished (authorization : IdentityOperationAuthorization) (networkBinding publicationId : Hash256)
    {id : AccountId} {account : AccountState} (hfind : s.accounts.find? id = some account) :
    ((s.authorize authorization networkBinding).unpublish publicationId).accounts.find? id = some account := by
  rw [accounts_unpublish]
  exact hfind

theorem treasury_unpublished (authorization : IdentityOperationAuthorization) (networkBinding publicationId : Hash256)
    {ref : BalanceRef} (href : centralAuthorityFeeBalance s = some ref) :
    centralAuthorityFeeBalance ((s.authorize authorization networkBinding).unpublish publicationId) = some ref :=
  (treasury_unpublish _ publicationId).trans
    ((SameFrame.ofAuthorize s authorization networkBinding).centralAuthorityFeeBalance.trans href)

theorem exactTotal_unpublish (s : CybouState) (publicationId : Hash256) :
    exactTotal (s.unpublish publicationId) = exactTotal s := by
  have hsum : (closeLease s publicationId).leases.sum (fun _ l => l.value) =
      s.leases.sum fun _ l => l.value := by
    unfold closeLease
    split
    · rfl
    · next lease hlease =>
      exact Nat.add_right_cancel (OrdMap.sum_set_of_some (f := fun _ l => l.value) hlease)
  rw [unpublish_eq]
  simp only [exactTotal, hsum]

/-- An accepted revocation: the lease is closed after the current period and the
    publication removed. -/
structure RevokePublicationDone (op : AuthorizedRevokePublication) (networkBinding : Hash256)
    (params : CybouProtocolParameters) (s s' : CybouState) : Prop where
  authorized : (s.identities.authorizeOperation op.authorization networkBinding).1 = .none
  treasury : ∃ ref, centralAuthorityFeeBalance s = some ref
  closed : ∃ sender record, s.accounts.find? op.authorization.accountId = some sender ∧
    s.publications.find? op.revoke.publicationId = some record ∧
    record.owner = op.authorization.accountId ∧ params.paymentFee ≤ sender.systemBalance ∧
    s' = CybouState.payFee ((s.authorize op.authorization networkBinding).unpublish
      op.revoke.publicationId) op.authorization.accountId sender params.paymentFee

/-- A revocation is refused and changes nothing, or closes the lease for the fee. -/
theorem applyRevokePublication_spec (op : AuthorizedRevokePublication) (networkBinding : Hash256)
    (params : CybouProtocolParameters) (htotal : exactTotal s < 2 ^ 64 - 1) :
    wp (applyRevokePublication op networkBinding params)
      (Atomic .none s (RevokePublicationDone op networkBinding params s))
      (fun _ _ => False) s := by
  unfold applyRevokePublication
  refine wp_guard (by decide) fun _ => ?_
  refine wp_guard (by decide) fun _ => ?_
  rw [wp_get_bind]
  split
  · exact Atomic.refused (by decide)
  next sender hsender =>
  refine wp_guard (by decide) fun _ => ?_
  split
  · exact Atomic.refused (by decide)
  next record hrecord =>
  refine wp_guard (by decide) fun howner => ?_
  refine wp_guard (by decide) fun hbalance => ?_
  refine wp_guard (by decide) fun hcan => ?_
  refine wp_authorized (by decide) fun hauth => ?_
  obtain ⟨ref, href⟩ := canCredit_ref (eq_true_of_ne_false hcan)
  rw [UInt64.not_lt] at hbalance
  have hclosed := find?_unpublished op.authorization networkBinding op.revoke.publicationId hsender
  have htreasury := treasury_unpublished op.authorization networkBinding op.revoke.publicationId href
  have hsum : exactTotal ((s.authorize op.authorization networkBinding).unpublish
      op.revoke.publicationId) < 2 ^ 64 := by
    rw [exactTotal_unpublish, exactTotal_authorize]
    omega
  rw [wp_bind, wp_modify, wp_bind, wp_modify]
  refine (wp_payFee hclosed hbalance htreasury hsum).mpr ?_
  exact Atomic.completed ⟨hauth, ⟨ref, href⟩, sender, record, hsender, hrecord,
    not_not.mp howner, hbalance, rfl⟩

/-! ### Leases -/

def leaseReplicas (params : CybouProtocolParameters) (existing : Option StorageLeaseRecord) :
    UInt8 :=
  (existing.map (·.replicas)).getD params.storageReplicaTarget

def leaseOrder (op : AuthorizedStorageLease) (params : CybouProtocolParameters) (s : CybouState)
    (publication : PublicationRecord) (escrow : UInt64) (fundingId : Hash256) : LeaseOrder :=
  { publicationId := op.lease.publicationId, payer := op.authorization.accountId
    units := publication.chunkCount
    replicas := leaseReplicas params (s.leases.find? op.lease.publicationId)
    periods := op.lease.periods, escrow, fundingOperationId := fundingId }

/-- An accepted lease: the fee is paid and a term is funded. -/
structure StorageLeaseDone (op : AuthorizedStorageLease) (networkBinding : Hash256)
    (params : CybouProtocolParameters) (s s' : CybouState) : Prop where
  authorized : (s.identities.authorizeOperation op.authorization networkBinding).1 = .none
  treasury : ∃ ref, centralAuthorityFeeBalance s = some ref
  funded : ∃ sender publication escrow fundingId budget account,
    s.accounts.find? op.authorization.accountId = some sender ∧
    s.publications.find? op.lease.publicationId = some publication ∧
    publication.owner = op.authorization.accountId ∧
    computeOperationId (.storageLease op) = some fundingId ∧
    escrow.toNat + params.paymentFee.toNat ≤ sender.systemBalance.toNat ∧
    LeaseFunded (leaseOrder op params s publication escrow fundingId) params budget account
      ((s.authorize op.authorization networkBinding).payFee op.authorization.accountId sender
        params.paymentFee) s'

theorem wp_heldEscrow {existing : Option StorageLeaseRecord}
    {Q : UInt64 → CybouState → Prop} {E : Fault → CybouState → Prop}
    (h : ∀ lease ∈ existing, lease.value < 2 ^ 64) (hQ : ∀ held, Q held s) :
    wp (heldEscrow existing) Q E s := by
  cases existing with
  | none => exact hQ 0
  | some lease => exact (wp_addAmount (h lease rfl)).mpr (hQ _)

theorem refused_leaseOrder {op : AuthorizedStorageLease} {publication : PublicationRecord} {fundingId : Hash256}
    {budget : AssignedStorageBudget} (hfunding : fundingId.isNull = false)
    (hstart : ¬leaseStart s (s.leases.find? op.lease.publicationId) >
      UINT64_MAX - op.lease.periods.toUInt64)
    (hterms : ∀ lease, s.leases.find? op.lease.publicationId = some lease → ¬lease.fundedTerms = [])
    (h : (leaseOrder op params s publication budget.total fundingId).refused s budget = true) :
    ∃ lease, s.leases.find? op.lease.publicationId = some lease ∧
      (lease.payer ≠ op.authorization.accountId ∨ lease.units ≠ publication.chunkCount ∨
        fundingId ∈ lease.fundedTerms.map (·.fundingOperationId)) := by
  unfold LeaseOrder.refused fundingRefused at h
  simp only [leaseOrder, LeaseOrder.start, hfunding, ne_eq, not_true_eq_false, decide_false, hstart,
    Bool.false_or] at h
  cases hfind : s.leases.find? op.lease.publicationId with
  | none => simp [hfind] at h
  | some lease =>
    refine ⟨lease, rfl, ?_⟩
    have hempty := hterms lease hfind
    simp only [hfind, Option.any_some, leaseReplicas, Option.map_some, Option.getD_some,
      not_true_eq_false, decide_false, Bool.or_false, hempty, Bool.false_or, Bool.or_eq_true,
      List.any_eq_true] at h
    obtain (hpayer | hunits) | ⟨term, hterm, hid⟩ := h
    · exact .inl (of_decide_eq_true hpayer)
    · exact .inr (.inl (of_decide_eq_true hunits))
    · exact .inr (.inr (List.mem_map.mpr ⟨term, hterm, of_decide_eq_true hid⟩))

/-- A lease is refused and changes nothing, or is paid and a term funded. -/
theorem applyStorageLease_spec (op : AuthorizedStorageLease) (networkBinding : Hash256)
    (params : CybouProtocolParameters) (htotal : exactTotal s < 2 ^ 64 - 1) :
    wp (applyStorageLease op networkBinding params)
      (Atomic .none s (StorageLeaseDone op networkBinding params s))
      (fun e s' => e = .thrown ∧ SameFrame s s' ∧ exactTotal s' = exactTotal s ∧
        ∃ publication fundingId lease,
        s.publications.find? op.lease.publicationId = some publication ∧
        publication.owner = op.authorization.accountId ∧
        computeOperationId (.storageLease op) = some fundingId ∧
        s.leases.find? op.lease.publicationId = some lease ∧
        (lease.payer ≠ publication.owner ∨ lease.units ≠ publication.chunkCount ∨
          fundingId ∈ lease.fundedTerms.map (·.fundingOperationId))) s := by
  unfold applyStorageLease
  refine wp_guard (by decide) fun _ => ?_
  refine wp_guard (by decide) fun _ => ?_
  rw [wp_get_bind]
  split
  · exact Atomic.refused (by decide)
  next sender hsender =>
  refine wp_guard (by decide) fun _ => ?_
  split
  · exact Atomic.refused (by decide)
  next publication hpublication =>
  refine wp_guard (by decide) fun howner => ?_
  dsimp only
  split
  · exact Atomic.refused (by decide)
  next escrow hescrow =>
  refine wp_guard (by decide) fun hsum => ?_
  split
  · exact Atomic.refused (by decide)
  next fundingId hfunding =>
  refine wp_guard (by decide) fun hterms => ?_
  refine wp_guard (by decide) fun hstart => ?_
  rw [wp_bind]
  refine wp_heldEscrow ?_ fun held => ?_
  · intro lease hlease
    have hle := OrdMap.le_sum_of_find? (f := fun _ l => l.value) hlease
    simp only [exactTotal] at htotal
    omega
  refine wp_guard (by decide) fun hheld => ?_
  have hdue := add_lt_of_not_gt hsum
  rw [wp_bind, wp_addAmount (by omega)]
  refine wp_guard (by decide) fun hbalance => ?_
  refine wp_guard (by decide) fun hcan => ?_
  refine wp_authorized (by decide) fun hauth => ?_
  obtain ⟨ref, href⟩ := canCredit_ref (eq_true_of_ne_false hcan)
  rw [UInt64.not_lt, UInt64.le_iff_toNat_le, toNat_add_of_lt (by omega)] at hbalance
  have hdebt : escrow.toNat + params.paymentFee.toNat ≤ sender.systemBalance.toNat := by omega
  rw [wp_payAuthorized htotal href hsender hdebt]
  have hpaid := exactTotal_paid networkBinding htotal href hsender (le_of_debt hdebt)
  obtain ⟨account, haccount, hcovered⟩ := escrow_covered op.authorization networkBinding hdebt (s := s)
  have hspec : wp ((leaseOrder op params s publication escrow fundingId).run params) _ _ _ :=
    fundStorageLease_spec haccount hcovered (by omega)
  rw [wp_bind]
  refine wp_mono hspec ?_ ?_
  · rintro _ s' ⟨budget, hfunded⟩
    exact Atomic.completed ⟨hauth, ⟨ref, href⟩, sender, publication, escrow, fundingId, budget,
      account, hsender, hpublication, not_not.mp howner, hfunding, by omega, hfunded⟩
  · rintro e s' ⟨rfl, rfl, hrefused⟩
    obtain ⟨budget, hbudget, rfl⟩ := budget_total_of_escrow hescrow
    have hkept := SameFrame.paid networkBinding params.paymentFee hsender
    have hsame := hkept.refused (leaseOrder op params s publication budget.total fundingId) budget
    rw [hrefused budget hbudget] at hsame
    obtain ⟨lease, hlease, hclash⟩ := refused_leaseOrder (computeOperationId_ne_null hfunding) hstart
      (fun lease hlease hempty => hterms (by simp [hlease, hempty])) hsame.symm
    exact ⟨rfl, hkept, hpaid, publication, fundingId, lease, hpublication, not_not.mp howner, hfunding, hlease,
      by rwa [not_not.mp howner]⟩

end

end Cybou
