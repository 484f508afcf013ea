import Cybou.SettlementRuns

/-! # Where onboarding credit goes

Onboarding credit is the part of a system balance that came out of the
treasury as a bonus.  Moved into a lease it stays onboarding credit, and so it
does when it is paid out or refunded: the sum over all accounts and all
escrows (`CybouState.onboardingTotal`) only grows by a bonus and only shrinks
by what a fee takes from it.
-/

namespace Cybou

open Library Proc

theorem sum_map_set {α : Type} {l : List α} {i : Nat} {a : α} (f : α → Nat) (b : α)
    (h : l[i]? = some a) : ((l.set i b).map f).sum + f a = (l.map f).sum + f b := by
  induction l generalizing i with
  | nil => cases h
  | cons c l ih =>
    cases i with
    | zero =>
      cases h
      simp only [List.set_cons_zero, List.map_cons, List.sum_cons]
      omega
    | succ i =>
      have hrest := ih (by simpa using h)
      simp only [List.set_cons_succ, List.map_cons, List.sum_cons]
      omega

theorem toNat_sub_min (a b : UInt64) : (a - min a b).toNat + (min a b).toNat = a.toNat := by
  have hle : min a b ≤ a := by
    rw [UInt64.le_iff_toNat_le, UInt64.toNat_min]
    omega
  rw [UInt64.toNat_sub_of_le _ _ hle]
  have := UInt64.le_iff_toNat_le.mp hle
  omega

section

variable [Crypto]

/-! ### Sums over accounts and leases -/

def CybouState.weigh (s : CybouState) (f : AccountState → Nat) (g : StorageLeaseRecord → Nat) : Nat :=
  s.accounts.sum (fun _ a => f a) + s.leases.sum fun _ l => g l

def CybouState.onboardingTotal (s : CybouState) : Nat :=
  s.weigh (fun a => a.onboardingSystemBalance.toNat) fun l => l.escrowOnboarding.toNat

def CybouState.spendableTotal (s : CybouState) : Nat := s.weigh (fun a => a.balance.toNat) fun _ => 0

def CybouState.paidLockedTotal (s : CybouState) : Nat :=
  s.weigh (fun _ => 0) fun l => (l.fundedTerms.map (·.paidLocked.toNat)).sum

section Weigh

variable {s : CybouState} {f : AccountState → Nat} {g : StorageLeaseRecord → Nat}

variable {id : AccountId}

theorem weigh_putAccount {old : AccountState} (h : s.accounts.find? id = some old) (account : AccountState) :
    (s.putAccount id account).weigh f g + f old = s.weigh f g + f account := by
  have hsum := OrdMap.sum_set_of_some (v := account) (f := fun _ a => f a) h
  simp only [CybouState.weigh, CybouState.putAccount]
  omega

theorem weigh_newAccount (h : s.accounts.find? id = none)
    (account : AccountState) : (s.putAccount id account).weigh f g = s.weigh f g + f account := by
  have hsum := OrdMap.sum_set_of_none (v := account) (f := fun _ a => f a) h
  simp only [CybouState.weigh, CybouState.putAccount]
  omega

theorem weigh_putLease {id : Hash256} {old : StorageLeaseRecord}
    (h : s.leases.find? id = some old) (lease : StorageLeaseRecord) :
    (s.putLease id lease).weigh f g + g old = s.weigh f g + g lease := by
  have hsum := OrdMap.sum_set_of_some (v := lease) (f := fun _ l => g l) h
  simp only [CybouState.weigh, CybouState.putLease]
  omega

theorem weigh_newLease {id : Hash256} (h : s.leases.find? id = none)
    (lease : StorageLeaseRecord) : (s.putLease id lease).weigh f g = s.weigh f g + g lease := by
  have hsum := OrdMap.sum_set_of_none (v := lease) (f := fun _ l => g l) h
  simp only [CybouState.weigh, CybouState.putLease]
  omega

theorem weigh_congr {s' : CybouState} (haccounts : s'.accounts = s.accounts)
    (hleases : s'.leases = s.leases) : s'.weigh f g = s.weigh f g := by
  simp only [CybouState.weigh, haccounts, hleases]

theorem weigh_move {account : AccountState} {publication : Hash256}
    {lease : StorageLeaseRecord} (haccount : s.accounts.find? id = some account) (account' : AccountState)
    (hlease : s.leases.find? publication = some lease) (lease' : StorageLeaseRecord) :
    ((s.putAccount id account').putLease publication lease').weigh f g + (f account + g lease) =
      s.weigh f g + (f account' + g lease') := by
  have hput := weigh_putAccount (f := f) (g := g) haccount account'
  have hset := weigh_putLease (s := s.putAccount id account') (f := f) (g := g) hlease lease'
  omega

end Weigh

/-! ### Fees and the treasury -/

theorem onboardingTotal_write (s : CybouState) (ref : BalanceRef) (amount : UInt64) :
    (ref.write s amount).onboardingTotal = s.onboardingTotal := by
  cases ref with
  | allocation key =>
    simp only [BalanceRef.write]
    split <;> rfl
  | account id =>
    simp only [BalanceRef.write]
    split
    · rfl
    · next a ha => exact Nat.add_right_cancel (weigh_putAccount ha _)

@[simp] theorem onboardingTotal_creditTreasury (s : CybouState) (fee : UInt64) :
    (s.creditTreasury fee).onboardingTotal = s.onboardingTotal := by
  unfold CybouState.creditTreasury
  split
  · rfl
  · exact onboardingTotal_write ..

@[simp] theorem onboardingTotal_spendTreasury (s : CybouState) (bonus : UInt64) :
    (s.spendTreasury bonus).onboardingTotal = s.onboardingTotal := by
  unfold CybouState.spendTreasury
  split
  · rfl
  · split
    · rfl
    · exact onboardingTotal_write ..

variable {s s' : CybouState} {id : AccountId} {account : AccountState}

theorem onboardingTotal_debitSystem (h : s.accounts.find? id = some account) (amount : UInt64) :
    (s.putAccount id (account.debitSystem amount)).onboardingTotal +
      (min account.onboardingSystemBalance amount).toNat = s.onboardingTotal := by
  have hput : (s.putAccount id (account.debitSystem amount)).onboardingTotal +
      account.onboardingSystemBalance.toNat = s.onboardingTotal +
        (account.debitSystem amount).onboardingSystemBalance.toNat := weigh_putAccount h _
  have hdebit : (account.debitSystem amount).onboardingSystemBalance.toNat +
      (min account.onboardingSystemBalance amount).toNat =
        account.onboardingSystemBalance.toNat := toNat_sub_min _ _
  omega

theorem onboardingTotal_payFee (h : s.accounts.find? id = some account) (fee : UInt64) :
    (s.payFee id account fee).onboardingTotal +
      (min account.onboardingSystemBalance fee).toNat = s.onboardingTotal := by
  rw [CybouState.payFee, onboardingTotal_creditTreasury]
  exact onboardingTotal_debitSystem h fee

/-! ### Leases -/

variable {order : LeaseOrder} {params : CybouProtocolParameters} {budget : AssignedStorageBudget}

/-- **Funding a lease moves onboarding credit into escrow and loses none.** -/
theorem LeaseFunded.onboardingTotal_eq
    (htotal : exactTotal s < 2 ^ 64) (h : LeaseFunded order params budget account s s') :
    s'.onboardingTotal = s.onboardingTotal := by
  have hdebit := onboardingTotal_debitSystem h.payer order.escrow
  have hroom := value_add_escrowAt_le h.payer order.publicationId
  have hterm : (order.term params s budget account).initialOnboarding =
    min account.onboardingSystemBalance order.escrow := rfl
  have hmin := UInt64.toNat_min account.onboardingSystemBalance order.escrow
  have hcovered := UInt64.le_iff_toNat_le.mp h.covered
  simp only [AccountState.value] at hroom
  rw [h.result, CybouState.fundLease]
  cases hfind : s.leases.find? order.publicationId with
  | none =>
    have hnew : (CybouState.putLease (s.putAccount order.payer (account.debitSystem order.escrow))
        order.publicationId (fundedLease order (order.term params s budget account)
          none)).onboardingTotal =
        (s.putAccount order.payer (account.debitSystem order.escrow)).onboardingTotal +
          (order.term params s budget account).initialOnboarding.toNat :=
      weigh_newLease (s := s.putAccount order.payer (account.debitSystem order.escrow)) hfind _
    rw [hterm] at hnew
    omega
  | some lease =>
    have hset : (CybouState.putLease (s.putAccount order.payer (account.debitSystem order.escrow))
        order.publicationId (fundedLease order (order.term params s budget account)
          (some lease))).onboardingTotal + lease.escrowOnboarding.toNat =
        (s.putAccount order.payer (account.debitSystem order.escrow)).onboardingTotal +
          (lease.escrowOnboarding + (order.term params s budget account).initialOnboarding).toNat :=
      weigh_putLease (s := s.putAccount order.payer (account.debitSystem order.escrow)) hfind _
    simp only [CybouState.escrowAt, hfind, Option.map_some, Option.getD_some,
      StorageLeaseRecord.value] at hroom
    rw [hterm, toNat_add_of_lt (by omega)] at hset
    omega

theorem OnboardingCovered.fundLease
    (hcovered : OnboardingCovered s) (h : LeaseFunded order params budget account s s') :
    OnboardingCovered s' := by
  rw [h.result]
  exact hcovered.putAccount
    (AccountState.debitSystem_covered (hcovered _ account h.payer) h.covered)

theorem onboardingTotal_unpublish (s : CybouState) (publicationId : Hash256) :
    (s.unpublish publicationId).onboardingTotal = s.onboardingTotal := by
  have hclose : (closeLease s publicationId).onboardingTotal = s.onboardingTotal := by
    unfold closeLease
    split
    · rfl
    · next lease hlease => exact Nat.add_right_cancel (weigh_putLease hlease _)
  exact hclose

/-! ### Settlements -/

/-- What a payout or a refund does to the sums: onboarding credit stays, and a
    balance grows only by what was paid out of locked funds. -/
structure Provenance (s s' : CybouState) : Prop where
  onboarding : s'.onboardingTotal = s.onboardingTotal
  spendable : s'.spendableTotal + s.paidLockedTotal = s.spendableTotal + s'.paidLockedTotal
  covered : OnboardingCovered s → OnboardingCovered s'

namespace Provenance

theorem refl (s : CybouState) : Provenance s s := ⟨rfl, rfl, id⟩

theorem trans {s₁ s₂ s₃ : CybouState} (h : Provenance s₁ s₂) (h' : Provenance s₂ s₃) :
    Provenance s₁ s₃ where
  onboarding := h'.onboarding.trans h.onboarding
  spendable := by
    have h₁ := h.spendable
    have h₂ := h'.spendable
    omega
  covered := fun hcovered => h'.covered (h.covered hcovered)

theorem of_same {s s' : CybouState} (haccounts : s'.accounts = s.accounts)
    (hleases : s'.leases = s.leases) : Provenance s s' where
  onboarding := weigh_congr haccounts hleases
  spendable := by
    rw [CybouState.spendableTotal, CybouState.paidLockedTotal, weigh_congr haccounts hleases]
    exact congrArg _ (weigh_congr haccounts hleases).symm
  covered := by
    intro h
    rw [OnboardingCovered, haccounts]
    exact h

end Provenance

variable {publication : Hash256} {lease : StorageLeaseRecord}

theorem Provenance.move {account' : AccountState} {lease' : StorageLeaseRecord} (onboarding liquid : Nat)
    (haccount : s.accounts.find? id = some account) (hlease : s.leases.find? publication = some lease)
    (hcredit : account'.onboardingSystemBalance.toNat =
      account.onboardingSystemBalance.toNat + onboarding)
    (hescrow : lease'.escrowOnboarding.toNat + onboarding = lease.escrowOnboarding.toNat)
    (hbalance : account'.balance.toNat = account.balance.toNat + liquid)
    (hpaid : (lease'.fundedTerms.map (·.paidLocked.toNat)).sum =
      (lease.fundedTerms.map (·.paidLocked.toNat)).sum + liquid)
    (hcovered : account.onboardingSystemBalance ≤ account.systemBalance →
      account'.onboardingSystemBalance ≤ account'.systemBalance) :
    Provenance s ((s.putAccount id account').putLease publication lease') where
  onboarding := by
    have hmove := weigh_move (f := fun a : AccountState => a.onboardingSystemBalance.toNat)
      (g := fun l : StorageLeaseRecord => l.escrowOnboarding.toNat) haccount account' hlease lease'
    simp only [CybouState.onboardingTotal]
    omega
  spendable := by
    have hspend := weigh_move (f := fun a : AccountState => a.balance.toNat)
      (g := fun _ : StorageLeaseRecord => 0) haccount account' hlease lease'
    have hterms := weigh_move (f := fun _ : AccountState => 0)
      (g := fun l : StorageLeaseRecord => (l.fundedTerms.map (·.paidLocked.toNat)).sum) haccount
      account' hlease lease'
    simp only [CybouState.spendableTotal, CybouState.paidLockedTotal]
    omega
  covered := fun h => h.putAccount (hcovered (h id account haccount))

variable {target : LocatedTerm}

theorem EntryPaid.provenance {entry : StorageSettlementEntry}
    {context : EntryContext} {onboarding locked closedEpochCapacity : UInt64}
    (h : EntryPaid entry target context onboarding locked closedEpochCapacity s s') :
    Provenance s s' := by
  obtain ⟨hlease, hindex⟩ := located h.found
  have hinitial := target.term.initialLocked.toNat_lt
  have hpaid := toNat_add_of_lt
    (show target.term.paidLocked.toNat + locked.toNat < 2 ^ 64 from
      Nat.lt_of_le_of_lt h.openLocked hinitial)
  have hterms := sum_map_set (fun t : StorageFundedTerm => t.paidLocked.toNat)
    (target.term.payOut onboarding locked (context.ledger entry closedEpochCapacity)) hindex
  rw [h.result]
  apply Provenance.move onboarding.toNat locked.toNat h.provider hlease
  · exact toNat_add_of_lt h.credit
  · have hescrow := UInt64.le_iff_toNat_le.mp h.escrowOnboarding
    simp only [StorageLeaseRecord.setTerm, StorageLeaseRecord.release,
      UInt64.toNat_sub_of_le _ _ h.escrowOnboarding]
    omega
  · exact toNat_add_of_lt h.liquid
  · simp only [StorageFundedTerm.payOut, hpaid] at hterms
    simp only [StorageLeaseRecord.setTerm, StorageLeaseRecord.release, StorageFundedTerm.payOut]
    omega
  · intro hcovered
    rw [UInt64.le_iff_toNat_le] at hcovered ⊢
    simp only [AccountState.payOut, toNat_add_of_lt h.credit, toNat_add_of_lt h.system]
    omega

variable {term : StorageFundedTerm}

theorem TermRefunded.provenance {index : Nat}
    {payer : AccountState} {servicePayments : List StorageServicePayment}
    (h : TermRefunded publication index lease term payer servicePayments s s') :
    Provenance s s' := by
  have hsystem := h.system
  have hsum : (term.remainingOnboarding + term.remainingLocked).toNat =
      term.remainingOnboarding.toNat + term.remainingLocked.toNat := toNat_add_of_lt (by omega)
  have hterms := sum_map_set (fun t : StorageFundedTerm => t.paidLocked.toNat)
    (term.refund servicePayments) h.termFound
  rw [h.result]
  apply Provenance.move term.remainingOnboarding.toNat 0 h.payerFound h.leaseFound
  · exact toNat_add_of_lt h.credit
  · have hescrow := UInt64.le_iff_toNat_le.mp h.escrowOnboarding
    simp only [StorageLeaseRecord.setTerm, StorageLeaseRecord.release,
      UInt64.toNat_sub_of_le _ _ h.escrowOnboarding]
    omega
  · rfl
  · simp only [StorageFundedTerm.refund] at hterms
    simp only [StorageLeaseRecord.setTerm, StorageLeaseRecord.release, StorageFundedTerm.refund]
    omega
  · intro hcovered
    rw [UInt64.le_iff_toNat_le] at hcovered ⊢
    simp only [AccountState.refund, toNat_add_of_lt h.credit]
    rw [toNat_add_of_lt (by rw [hsum]; exact hsystem), hsum]
    omega

variable {op : StorageSettlement}

theorem PaidEntries.provenance {entries : List StorageSettlementEntry}
    (h : PaidEntries op params s entries s') : Provenance s s' := by
  induction h with
  | done s => exact .refl s
  | entry hstep _ ih => exact hstep.toEntryPaid.provenance.trans ih

variable {targets : List LocatedTerm}

theorem RefundedTerms.provenance (h : RefundedTerms s targets s') : Provenance s s' := by
  induction h with
  | done s => exact .refl s
  | term hstep _ ih =>
    cases hstep with
    | kept => exact ih
    | refunded h => exact h.provenance.trans ih

theorem RefundedTerms.spendableTotal_eq
    (h : RefundedTerms s targets s') : s'.spendableTotal = s.spendableTotal := by
  induction h with
  | done s => rfl
  | term hstep _ ih =>
    cases hstep with
    | kept => exact ih
    | refunded h =>
      rw [ih, h.result]
      exact Nat.add_right_cancel (weigh_move h.payerFound _ h.leaseFound _)

theorem PayRun.provenance {paid : CybouState} (h : PayRun op params s paid s') :
    Provenance s paid ∧ Provenance paid s' := by
  have hcursor : Provenance paid { paid with settlement := op.nextCursor } := .of_same rfl rfl
  exact ⟨h.entries.provenance, hcursor.trans h.refunds.provenance⟩

theorem AssignmentRun.provenance (h : AssignmentRun target term s s') : Provenance s s' := by
  obtain ⟨hlease, hindex⟩ := located h.found
  have hterms := sum_map_set (fun t : StorageFundedTerm => t.paidLocked.toNat) term hindex
  have hsame : term.paidLocked = target.term.paidLocked :=
    (congrArg StorageFundedTerm.paidLocked h.account :)
  rw [h.result]
  refine (show Provenance s (s.putLease target.publication (target.lease.setTerm target.index term)) from
    ⟨?_, ?_, fun hcovered => hcovered⟩).trans (.of_same rfl rfl)
  · exact Nat.add_right_cancel (weigh_putLease hlease _)
  · have hpaid := weigh_putLease (f := fun _ : AccountState => 0)
      (g := fun l : StorageLeaseRecord => (l.fundedTerms.map (·.paidLocked.toNat)).sum) hlease
      (target.lease.setTerm target.index term)
    have hspend := weigh_putLease (f := fun a : AccountState => a.balance.toNat)
      (g := fun _ : StorageLeaseRecord => 0) hlease (target.lease.setTerm target.index term)
    rw [hsame] at hterms
    simp only [StorageLeaseRecord.setTerm] at hpaid hspend
    simp only [CybouState.spendableTotal, CybouState.paidLockedTotal, StorageLeaseRecord.setTerm]
    omega

theorem SettlementRun.provenance (h : SettlementRun op params s s') : Provenance s s' := by
  cases h with
  | pay _ hrun _ => exact hrun.provenance.1.trans hrun.provenance.2
  | assigned _ hrun _ => exact hrun.provenance

/-! ### Accepted operations -/

def chargedFee (ctx : BlockContext) : ProtocolOperation → Option (AccountId × UInt64)
  | .payment op => some (op.authorization.accountId, ctx.params.paymentFee)
  | .rootPublication op =>
    (publicationFeeAndId op ctx.params).map fun e => (op.authorization.accountId, e.1)
  | .revokePublication op => some (op.authorization.accountId, ctx.params.paymentFee)
  | .storageLease op => some (op.authorization.accountId, ctx.params.paymentFee)
  | .accountCreate _ | .identityRotate _ | .systemLock _ | .nameCommit _ | .nameReveal _
  | .storageSettlement _ => none

def onboardingPart (s : CybouState) (id : AccountId) (fee : UInt64) : UInt64 :=
  ((s.accounts.find? id).map fun a => min a.onboardingSystemBalance fee).getD 0

def onboardingSpent (ctx : BlockContext) (operation : ProtocolOperation) (s : CybouState) : UInt64 :=
  ((chargedFee ctx operation).map fun e => onboardingPart s e.1 e.2).getD 0

def onboardingGranted (ctx : BlockContext) (operation : ProtocolOperation) (s : CybouState) :
    UInt64 :=
  match operation with
  | .accountCreate op =>
    onboardingBonusFor ctx.params (claimableAllocation s op.authorization.recoveryRoot)
  | _ => 0

variable {networkBinding : Hash256}

variable {blockHeight : UInt64}

theorem AccountCreateDone.onboardingTotal_eq {op : AccountCreateOp}
    (h : AccountCreateDone op networkBinding blockHeight params s s') :
    s'.onboardingTotal = s.onboardingTotal +
      (onboardingBonusFor params (claimableAllocation s op.authorization.recoveryRoot)).toNat := by
  have hfresh : (s.registerIdentity op networkBinding blockHeight params).accounts.find?
    op.accountId = none := h.fresh
  have hunopened := accounts_claimFor_find? op.accountId
    (claimableAllocation s op.authorization.recoveryRoot)
    (accounts_spendTreasury_find? (onboardingBonusFor params
      (claimableAllocation s op.authorization.recoveryRoot)) hfresh)
  have hresult := h.result
  dsimp only at hresult
  have hnew := weigh_newAccount (f := fun a : AccountState => a.onboardingSystemBalance.toNat)
    (g := fun l : StorageLeaseRecord => l.escrowOnboarding.toNat) hunopened
    (openedAccount params blockHeight (claimableAllocation s op.authorization.recoveryRoot))
  rw [← hresult] at hnew
  have hclaim : (CybouState.claimFor ((s.registerIdentity op networkBinding blockHeight
      params).spendTreasury (onboardingBonusFor params
        (claimableAllocation s op.authorization.recoveryRoot))) op.accountId
        (claimableAllocation s op.authorization.recoveryRoot)).onboardingTotal =
      s.onboardingTotal := by
    rw [claimFor_eq]
    exact onboardingTotal_spendTreasury _ _
  exact hnew.trans (congrArg (· + _) hclaim)

theorem PaymentDone.onboardingTotal_eq {operation : AuthorizedPayment}
    (h : PaymentDone operation networkBinding params s s') :
    s'.onboardingTotal +
      (onboardingPart s operation.authorization.accountId params.paymentFee).toNat =
        s.onboardingTotal := by
  obtain ⟨sender, recipient, hsender, hrecipient, hself, -, -, -, rfl⟩ := h.moved
  rw [onboardingTotal_creditTreasury, CybouState.transfer, onboardingPart, hsender]
  have hdebit : ((s.authorize operation.authorization networkBinding).putAccount
      operation.authorization.accountId ((sender.debit operation.payment.amount).debitSystem
        params.paymentFee)).onboardingTotal +
      (min sender.onboardingSystemBalance params.paymentFee).toNat = s.onboardingTotal := by
    have hput := weigh_putAccount (f := fun a : AccountState => a.onboardingSystemBalance.toNat)
      (g := fun l : StorageLeaseRecord => l.escrowOnboarding.toNat)
      (s := s.authorize operation.authorization networkBinding) hsender
      ((sender.debit operation.payment.amount).debitSystem params.paymentFee)
    have hmin : ((sender.debit operation.payment.amount).debitSystem
        params.paymentFee).onboardingSystemBalance.toNat +
        (min sender.onboardingSystemBalance params.paymentFee).toNat =
          sender.onboardingSystemBalance.toNat := toNat_sub_min _ _
    have hsame : (s.authorize operation.authorization networkBinding).weigh
        (fun a => a.onboardingSystemBalance.toNat) (fun l => l.escrowOnboarding.toNat) =
        s.onboardingTotal := rfl
    simp only [CybouState.onboardingTotal] at hsame ⊢
    omega
  have hcredit := weigh_putAccount (f := fun a : AccountState => a.onboardingSystemBalance.toNat)
    (g := fun l : StorageLeaseRecord => l.escrowOnboarding.toNat)
    (find?_recipient (s := s.authorize operation.authorization networkBinding) hrecipient hself
      ((sender.debit operation.payment.amount).debitSystem params.paymentFee))
    (recipient.credit operation.payment.amount)
  exact (congrArg (· + _) (Nat.add_right_cancel hcredit)).trans hdebit

theorem RevokePublicationDone.onboardingTotal_eq {op : AuthorizedRevokePublication}
    (h : RevokePublicationDone op networkBinding params s s') :
    s'.onboardingTotal + (onboardingPart s op.authorization.accountId params.paymentFee).toNat =
      s.onboardingTotal := by
  obtain ⟨sender, record, hsender, -, -, -, rfl⟩ := h.closed
  have hclosed := find?_unpublished op.authorization networkBinding op.revoke.publicationId hsender
  have hpaid := onboardingTotal_payFee hclosed params.paymentFee
  rw [onboardingTotal_unpublish] at hpaid
  rw [onboardingPart, hsender]
  exact hpaid

theorem onboardingTotal_ordered {authorization : IdentityOperationAuthorization}
    {sender : AccountState} {fee : UInt64} {ref : BalanceRef}
    (htotal : exactTotal s < 2 ^ 64 - 1) (href : centralAuthorityFeeBalance s = some ref)
    (hsender : s.accounts.find? authorization.accountId = some sender) (hfee : fee ≤ sender.systemBalance)
    (hfunded : LeaseFunded order params budget account
      ((s.authorize authorization networkBinding).payFee authorization.accountId sender fee) s') :
    s'.onboardingTotal + (onboardingPart s authorization.accountId fee).toNat =
      s.onboardingTotal := by
  have hpaid := exactTotal_paid networkBinding htotal href hsender hfee
  have hcharged := onboardingTotal_payFee (s := s.authorize authorization networkBinding) hsender fee
  rw [hfunded.onboardingTotal_eq (by omega), onboardingPart, hsender]
  exact hcharged

variable {ctx : BlockContext}

theorem RootPublicationDone.onboardingTotal_eq
    {op : AuthorizedRootPublication} (htotal : exactTotal s < 2 ^ 64 - 1)
    (h : RootPublicationDone op ctx.networkBinding ctx.params s s') :
    s'.onboardingTotal + (onboardingSpent ctx (.rootPublication op) s).toNat =
      s.onboardingTotal := by
  obtain ⟨ref, href⟩ := h.treasury
  obtain ⟨fee, publicationId, escrow, sender, hid, -, hsender, hdue, hresult⟩ := h.paid
  have hfee : fee ≤ sender.systemBalance := by
    rw [UInt64.le_iff_toNat_le]
    omega
  have hspent : onboardingSpent ctx (.rootPublication op) s =
      onboardingPart s op.authorization.accountId fee := by
    simp only [onboardingSpent, chargedFee, hid, Option.map_some, Option.getD_some]
  rw [hspent]
  rcases hresult with ⟨-, rfl⟩ | ⟨-, budget, account, hfunded⟩
  · rw [onboardingPart, hsender]
    exact onboardingTotal_payFee (s := s.authorize op.authorization ctx.networkBinding) hsender fee
  · exact onboardingTotal_ordered htotal href hsender hfee hfunded

theorem StorageLeaseDone.onboardingTotal_eq {op : AuthorizedStorageLease}
    (htotal : exactTotal s < 2 ^ 64 - 1) (h : StorageLeaseDone op networkBinding params s s') :
    s'.onboardingTotal + (onboardingPart s op.authorization.accountId params.paymentFee).toNat =
      s.onboardingTotal := by
  obtain ⟨ref, href⟩ := h.treasury
  obtain ⟨sender, publication, escrow, fundingId, budget, account, hsender, -, -, -, hdue,
    hfunded⟩ := h.funded
  have hfee : params.paymentFee ≤ sender.systemBalance := by
    rw [UInt64.le_iff_toNat_le]
    omega
  exact onboardingTotal_ordered htotal href hsender hfee hfunded

variable {operation : ProtocolOperation} {s₁ : CybouState}

/-- **One accepted operation** takes its fee from onboarding credit first and adds
    no more than a bonus. -/
theorem Step.onboardingTotal_eq (htotal : exactTotal s < 2 ^ 64 - 1) (h : Step ctx operation s s₁ s') :
    s'.onboardingTotal + (onboardingSpent ctx operation s).toNat =
      s.onboardingTotal + (onboardingGranted ctx operation s).toNat := by
  have hdone := h.done
  have hrecorded := h.recorded
  cases operation with
  | accountCreate op =>
    cases hrecorded
    exact AccountCreateDone.onboardingTotal_eq hdone
  | payment op =>
    cases hrecorded
    exact PaymentDone.onboardingTotal_eq hdone
  | identityRotate op =>
    cases hrecorded
    obtain ⟨-, rfl⟩ := hdone
    rfl
  | systemLock op =>
    cases hrecorded
    obtain ⟨account, haccount, -, -, rfl⟩ := SystemLockDone.moved hdone
    exact Nat.add_right_cancel (weigh_putAccount
      (s := s.authorize op.authorization ctx.networkBinding) haccount _)
  | nameCommit op =>
    cases hrecorded
    rw [NameCommitDone.result hdone]
    rfl
  | nameReveal op =>
    cases hrecorded
    obtain ⟨_, _, -, -, -, -, -, -, hresult⟩ := NameRevealDone.revealed hdone
    rw [hresult]
    rfl
  | rootPublication op =>
    have hpaid := RootPublicationDone.onboardingTotal_eq htotal hdone
    obtain ⟨id, -, -, -, -, rfl⟩ := hrecorded
    exact hpaid
  | revokePublication op =>
    cases hrecorded
    exact RevokePublicationDone.onboardingTotal_eq hdone
  | storageLease op =>
    cases hrecorded
    exact StorageLeaseDone.onboardingTotal_eq htotal hdone
  | storageSettlement op => exact (h.settlement op rfl).provenance.onboarding

theorem AccountCreateDone.onboardingCovered {op : AccountCreateOp} (hcovered : OnboardingCovered s)
    (h : AccountCreateDone op networkBinding blockHeight params s s') : OnboardingCovered s' := by
  have hregistered : OnboardingCovered (s.registerIdentity op networkBinding blockHeight params) :=
    hcovered
  have hspent := hregistered.spendTreasury
    (onboardingBonusFor params (claimableAllocation s op.authorization.recoveryRoot))
  have hresult := h.result
  dsimp only at hresult
  rw [hresult, claimFor_eq]
  exact OnboardingCovered.putAccount hspent (UInt64.le_refl _)

theorem Step.onboardingCovered (hcovered : OnboardingCovered s) (h : Step ctx operation s s₁ s') :
    OnboardingCovered s' := by
  have hdone := h.done
  have hrecorded := h.recorded
  cases operation with
  | accountCreate op =>
    cases hrecorded
    exact AccountCreateDone.onboardingCovered hcovered hdone
  | payment op =>
    cases hrecorded
    obtain ⟨sender, recipient, hsender, hrecipient, -, -, hfee, -, rfl⟩ := PaymentDone.moved hdone
    exact (OnboardingCovered.transfer (s := s.authorize op.authorization ctx.networkBinding) hsender
      hrecipient hfee hcovered).creditTreasury _
  | identityRotate op =>
    cases hrecorded
    obtain ⟨-, rfl⟩ := hdone
    exact hcovered
  | systemLock op =>
    cases hrecorded
    obtain ⟨account, haccount, -, hcredit, rfl⟩ := SystemLockDone.moved hdone
    apply OnboardingCovered.putAccount (s := s.authorize op.authorization ctx.networkBinding) hcovered
    have hle := UInt64.le_iff_toNat_le.mp (hcovered _ account haccount)
    rw [UInt64.le_iff_toNat_le]
    simp only [AccountState.creditSystem, AccountState.debit, toNat_add_of_lt hcredit]
    omega
  | nameCommit op =>
    cases hrecorded
    rw [NameCommitDone.result hdone]
    exact hcovered
  | nameReveal op =>
    cases hrecorded
    obtain ⟨_, _, -, -, -, -, -, -, hresult⟩ := NameRevealDone.revealed hdone
    rw [hresult]
    exact hcovered
  | rootPublication op =>
    obtain ⟨fee, _, _, sender, -, -, hsender, hdue, hresult⟩ := RootPublicationDone.paid hdone
    have hfee : fee ≤ sender.systemBalance := by
      rw [UInt64.le_iff_toNat_le]
      omega
    have hpaid := OnboardingCovered.payFee
      (s := s.authorize op.authorization ctx.networkBinding) hsender hfee hcovered
    have hordered : OnboardingCovered s₁ := by
      rcases hresult with ⟨-, rfl⟩ | ⟨-, budget, account, hfunded⟩
      · exact hpaid
      · exact hpaid.fundLease hfunded
    obtain ⟨id, -, -, -, -, rfl⟩ := hrecorded
    exact hordered
  | revokePublication op =>
    cases hrecorded
    obtain ⟨sender, record, hsender, -, -, hfee, rfl⟩ := RevokePublicationDone.closed hdone
    have haccounts := accounts_unpublish (s.authorize op.authorization ctx.networkBinding)
      op.revoke.publicationId
    apply OnboardingCovered.payFee
    · rw [haccounts]
      exact hsender
    · exact hfee
    · rw [OnboardingCovered, haccounts]
      exact hcovered
  | storageLease op =>
    cases hrecorded
    obtain ⟨sender, _, _, _, budget, account, hsender, -, -, -, hdue, hfunded⟩ :=
      StorageLeaseDone.funded hdone
    have hfee : ctx.params.paymentFee ≤ sender.systemBalance := by
      rw [UInt64.le_iff_toNat_le]
      omega
    exact (OnboardingCovered.payFee (s := s.authorize op.authorization ctx.networkBinding) hsender
      hfee hcovered).fundLease hfunded
  | storageSettlement op => exact (h.settlement op rfl).provenance.covered hcovered

/-! ### Runs -/

/-- What a run keeps, besides the state being valid or not. -/
structure OnboardingRun (total : Nat) (s : CybouState) : Prop extends SupplyKept total s where
  covered : OnboardingCovered s

theorem Trace.onboardingRun {operations : List ProtocolOperation} {total : Nat}
    (htotal : total < 2 ^ 64 - 1) (h : Trace s operations s') (hrun : OnboardingRun total s) :
    OnboardingRun total s' := by
  induction h with
  | refl s => exact hrun
  | operation haccepts _ ih =>
    obtain ⟨s₁, hstep⟩ := haccepts.step (hrun.total_eq ▸ htotal) hrun.funds
    exact ih ⟨(haccepts.spends htotal hrun.toSupplyKept).1, hstep.onboardingCovered hrun.covered⟩
  | block ctx _ ih =>
    refine ih ⟨hrun.toSupplyKept.expireCommits ctx, ?_⟩
    unfold expireCommits
    split
    · exact hrun.covered
    · exact hrun.covered

/-- **Onboarding credit along every run.**  It is covered by the system balance of
    its account in every state; an accepted operation adds the bonus of an
    `AccountCreate` and takes away what its fee takes from the payer's credit;
    funding, payouts and refunds keep it; and a settlement makes spendable only
    what it paid out of locked funds. -/
theorem onboarding_provenance {start s : CybouState} {operations : List ProtocolOperation}
    (hvalid : validateCybouState start = .none) (htrace : Trace start operations s) :
    OnboardingCovered s ∧
    (∀ ctx, (expireCommits ctx s).onboardingTotal = s.onboardingTotal) ∧
    (∀ (order : LeaseOrder) params account s', s.accounts.find? order.payer = some account →
      order.escrow ≤ account.systemBalance → order.run params s = .ok () s' →
        s'.onboardingTotal = s.onboardingTotal) ∧
    ∀ ctx operation s', Accepts ctx operation s s' →
      OnboardingCovered s' ∧
      s'.onboardingTotal + (onboardingSpent ctx operation s).toNat =
        s.onboardingTotal + (onboardingGranted ctx operation s).toNat ∧
      ∀ op, operation = .storageSettlement op → op.action = .pay →
        ∃ paid, PayRun op ctx.params s paid s' ∧ OnboardingCovered paid ∧
          paid.onboardingTotal = s.onboardingTotal ∧
          s'.onboardingTotal = paid.onboardingTotal ∧
          paid.spendableTotal + s.paidLockedTotal = s.spendableTotal + paid.paidLockedTotal ∧
          s'.spendableTotal = paid.spendableTotal := by
  have hstart := validateCybouState_eq_none.mp hvalid
  have hrun := htrace.onboardingRun hstart.total
    ⟨⟨rfl, hstart.fundsCovered⟩, hstart.onboardingCovered⟩
  have htotal : exactTotal s < 2 ^ 64 - 1 := hrun.total_eq ▸ hstart.total
  refine ⟨hrun.covered, fun ctx => ?_, ?_, ?_⟩
  · unfold expireCommits
    split <;> rfl
  · intro order params account s' hpayer hcovered hfund
    obtain ⟨budget, hfunded⟩ := wp_of_ok
      (fundStorageLease_spec hpayer hcovered (by omega)) hfund
    exact hfunded.onboardingTotal_eq (by omega)
  · intro ctx operation s' haccepts
    obtain ⟨s₁, hstep⟩ := haccepts.step htotal hrun.funds
    refine ⟨hstep.onboardingCovered hrun.covered, hstep.onboardingTotal_eq htotal, ?_⟩
    intro op hop haction
    cases hstep.settlement op hop with
    | assigned hother _ _ => exact absurd haction hother
    | @pay paid _ hpay _ =>
      obtain ⟨hpaid, hrefunded⟩ := hpay.provenance
      exact ⟨paid, hpay, hpaid.covered hrun.covered, hpaid.onboarding, hrefunded.onboarding,
        hpaid.spendable, hpay.refunds.spendableTotal_eq⟩

end

section Sample

attribute [local instance] Crypto.sample

/-- `sampleState` with a treasury; account 1 has onboarding credit. -/
def creditedState : CybouState :=
  { sampleState with
    genesisAllocations := (∅ : OrdMap _ _).set (sampleKeyId 3)
      { balance := 100, label := CENTRAL_AUTHORITY_NAME, claimedBy := none } }

/-- Account 1 pays account 2. -/
def samplePayment : AuthorizedPayment :=
  let payment : PaymentPayload := { recipient := sampleId 2, amount := 3 }
  { authorization :=
      { accountId := sampleId 1, nonce := 0, keyEpoch := 0, kind := .payment
        payloadCommitment := (computePaymentPayloadCommitment payment).getD (sampleId 0)
        signature := sampleSignature }
    payment }

theorem samplePayment_evaluated :
    validateCybouState creditedState = .none ∧
      acceptsNow sampleContext (.payment samplePayment) creditedState = true ∧
      (onboardingSpent sampleContext (.payment samplePayment) creditedState).toNat =
        sampleContext.params.paymentFee.toNat ∧ 0 < sampleContext.params.paymentFee.toNat := by
  decide +kernel

/-- The fee of a payment is taken from onboarding credit. -/
theorem onboarding_provenance_samplePayment : ∃ s,
    Accepts sampleContext (.payment samplePayment) creditedState s ∧ OnboardingCovered s ∧
      s.onboardingTotal + sampleContext.params.paymentFee.toNat = creditedState.onboardingTotal ∧
      s.onboardingTotal < creditedState.onboardingTotal := by
  obtain ⟨hvalid, haccepts, hspent, hpos⟩ := samplePayment_evaluated
  obtain ⟨s, hs⟩ := exists_accepts haccepts
  have hstart := onboarding_provenance hvalid (.refl creditedState)
  obtain ⟨-, htotal, -⟩ := hstart.2.2.2 sampleContext (.payment samplePayment) s hs
  have hcovered := (onboarding_provenance hvalid (.operation hs (.refl s))).1
  have hgranted : (onboardingGranted sampleContext (.payment samplePayment) creditedState).toNat = 0 := rfl
  rw [hspent, hgranted, Nat.add_zero] at htotal
  exact ⟨s, hs, hcovered, htotal, by omega⟩

end Sample

end Cybou
