import Cybou.ExecutorSpecs

/-! # The total supply is constant

Every accepted operation keeps the exact total, and no amount wraps on the
way.  Over a run of an executor this needs an invariant that survives even
exceptions: the total is the parent's, and every lease covers what its terms
still owe (`SupplyKept`).
-/

namespace Cybou

open Library Proc

section

variable [Crypto]

/-! ### New accounts -/

variable {s s' parent : CybouState}

theorem exactTotal_newAccount {id : AccountId} (account : AccountState) (h : s.accounts.find? id = none) :
    exactTotal (s.putAccount id account) = exactTotal s + account.value := by
  have hsum := OrdMap.sum_set_of_none (v := account) (f := fun _ a => a.value) h
  simp only [exactTotal, CybouState.putAccount]
  omega

def claimedAmount (claim : Option (IdentityKeyId × GenesisAllocation)) : UInt64 :=
  (claim.map (·.2.balance)).getD 0

theorem exactTotal_claimFor (accountId : AccountId) {claim : Option (IdentityKeyId × GenesisAllocation)}
    (h : ∀ e ∈ claim, s.genesisAllocations.find? e.1 = some e.2 ∧ e.2.claimedBy = none) :
    exactTotal (s.claimFor accountId claim) + (claimedAmount claim).toNat = exactTotal s := by
  cases claim with
  | none => rfl
  | some e =>
    obtain ⟨key, allocation⟩ := e
    have hfind : s.genesisAllocations.find? key = some allocation := (h _ rfl).1
    have hclaim : allocation.claimedBy = none := (h _ rfl).2
    have hsum := OrdMap.sum_set_of_some (v := { allocation with claimedBy := some accountId })
      (f := fun _ a => a.value) hfind
    have hold := GenesisAllocation.value_of_unclaimed hclaim
    have hnew : ({ allocation with claimedBy := some accountId } : GenesisAllocation).value = 0 := rfl
    rw [hold, hnew] at hsum
    simp only [exactTotal, CybouState.claimFor, CybouState.claim, claimedAmount, Option.map_some,
      Option.getD_some]
    omega

theorem claim_spendTreasury {s₁ : CybouState} (params : CybouProtocolParameters)
    (recoveryRoot : IdentityHybridPublicKey) (h : s₁.genesisAllocations = s.genesisAllocations) :
    ∀ e ∈ claimableAllocation s recoveryRoot,
      (s₁.spendTreasury (onboardingBonusFor params
        (claimableAllocation s recoveryRoot))).genesisAllocations.find? e.1 = some e.2 ∧
        e.2.claimedBy = none := by
  intro e he
  have hsome : claimableAllocation s recoveryRoot = some (e.1, e.2) := he
  obtain ⟨-, hfind, hclaim⟩ := claimableAllocation_some hsome
  rw [hsome]
  refine ⟨find?_spendTreasury_claim ?_, hclaim⟩
  rw [h, hfind]

variable {networkBinding : Hash256} {params : CybouProtocolParameters}

variable {op : AccountCreateOp} {blockHeight : UInt64}

theorem AccountCreateDone.exactTotal_eq (h : AccountCreateDone op networkBinding blockHeight params s s') :
    exactTotal s' = exactTotal s := by
  have hregistered : exactTotal (s.registerIdentity op networkBinding blockHeight params) =
    exactTotal s := rfl
  have hspend := exactTotal_spendTreasury fun hne => (h.treasury hne).imp fun ref hr =>
    hr.imp_left (treasury_register h.registered)
  have hallocations : (s.registerIdentity op networkBinding blockHeight params).genesisAllocations =
    s.genesisAllocations := rfl
  have hclaim := exactTotal_claimFor op.accountId
    (claim_spendTreasury params op.authorization.recoveryRoot hallocations)
  have hfresh : (s.registerIdentity op networkBinding blockHeight params).accounts.find?
    op.accountId = none := h.fresh
  have hnew := exactTotal_newAccount
    (openedAccount params blockHeight (claimableAllocation s op.authorization.recoveryRoot))
    (accounts_claimFor_find? op.accountId (claimableAllocation s op.authorization.recoveryRoot)
      (accounts_spendTreasury_find? (onboardingBonusFor params
        (claimableAllocation s op.authorization.recoveryRoot)) hfresh))
  have hvalue : (openedAccount params blockHeight
      (claimableAllocation s op.authorization.recoveryRoot)).value =
        (claimedAmount (claimableAllocation s op.authorization.recoveryRoot)).toNat +
          (onboardingBonusFor params
            (claimableAllocation s op.authorization.recoveryRoot)).toNat := rfl
  have hresult := h.result
  dsimp only at hresult
  rw [hresult]
  omega

/-! ### The other operations -/

theorem PaymentDone.exactTotal_eq {operation : AuthorizedPayment} (htotal : exactTotal s < 2 ^ 64 - 1)
    (h : PaymentDone operation networkBinding params s s') :
    exactTotal s' = exactTotal s ∧ SameFrame s s' := by
  obtain ⟨ref, href⟩ := h.treasury
  obtain ⟨sender, recipient, hsender, hrecipient, hself, hbalance, hsystem, hcredit, rfl⟩ := h.moved
  rw [← accounts_authorize s operation.authorization networkBinding] at hsender hrecipient
  have hframe := (SameFrame.ofAuthorize s operation.authorization networkBinding).trans
    (SameFrame.transfer operation.payment.amount params.paymentFee hsender hrecipient hself)
  have hsum := exactTotal_transfer hsender hrecipient hself hbalance hsystem hcredit
  rw [exactTotal_authorize] at hsum
  refine ⟨?_, hframe.trans (SameFrame.creditTreasury _ _)⟩
  rw [exactTotal_creditTreasury (hframe.centralAuthorityFeeBalance.trans href) (by omega)]
  exact hsum

theorem SystemLockDone.exactTotal_eq {operation : AuthorizedSystemLock}
    (h : SystemLockDone operation networkBinding s s') :
    exactTotal s' = exactTotal s ∧ SameFrame s s' := by
  obtain ⟨account, haccount, hbalance, hcredit, rfl⟩ := h.moved
  rw [← accounts_authorize s operation.authorization networkBinding] at haccount
  have hput := exactTotal_putAccount haccount
    ((account.debit operation.lock.amount).creditSystem operation.lock.amount)
  have hdebit := AccountState.value_debit hbalance
  have hlocked : ((account.debit operation.lock.amount).creditSystem operation.lock.amount).value =
      (account.debit operation.lock.amount).value + operation.lock.amount.toNat :=
    AccountState.value_creditSystem hcredit
  rw [exactTotal_authorize] at hput
  exact ⟨by omega, (SameFrame.ofAuthorize s operation.authorization networkBinding).trans
    (SameFrame.putAccount haccount _)⟩

variable {authorization : IdentityOperationAuthorization} {sender account : AccountState}

variable {order : LeaseOrder} {budget : AssignedStorageBudget}

theorem LeaseFunded.exactTotal_eq
    (htotal : exactTotal s < 2 ^ 64) (h : LeaseFunded order params budget account s s') :
    exactTotal s' = exactTotal s := by
  rw [h.result]
  exact exactTotal_fundLease h.payer h.covered htotal

theorem RootPublicationDone.exactTotal_eq {op : AuthorizedRootPublication}
    (htotal : exactTotal s < 2 ^ 64 - 1) (h : RootPublicationDone op networkBinding params s s') :
    exactTotal s' = exactTotal s := by
  obtain ⟨ref, href⟩ := h.treasury
  obtain ⟨fee, publicationId, escrow, sender, -, -, hsender, hdue, hresult⟩ := h.paid
  have hfee : fee ≤ sender.systemBalance := by
    rw [UInt64.le_iff_toNat_le]
    omega
  have hpaid := exactTotal_paid networkBinding htotal href hsender hfee
  obtain ⟨-, rfl⟩ | ⟨-, budget, account, hfunded⟩ := hresult
  · exact hpaid
  · exact (hfunded.exactTotal_eq (by omega)).trans hpaid

theorem StorageLeaseDone.exactTotal_eq {op : AuthorizedStorageLease}
    (htotal : exactTotal s < 2 ^ 64 - 1) (h : StorageLeaseDone op networkBinding params s s') :
    exactTotal s' = exactTotal s := by
  obtain ⟨ref, href⟩ := h.treasury
  obtain ⟨sender, publication, escrow, fundingId, budget, account, hsender, -, -, -, hdue, hfunded⟩ :=
    h.funded
  have hfee : params.paymentFee ≤ sender.systemBalance := by
    rw [UInt64.le_iff_toNat_le]
    omega
  have hpaid := exactTotal_paid networkBinding htotal href hsender hfee
  exact (hfunded.exactTotal_eq (by omega)).trans hpaid

theorem RevokePublicationDone.exactTotal_eq {op : AuthorizedRevokePublication}
    (htotal : exactTotal s < 2 ^ 64 - 1) (h : RevokePublicationDone op networkBinding params s s') :
    exactTotal s' = exactTotal s := by
  obtain ⟨ref, href⟩ := h.treasury
  obtain ⟨sender, record, hsender, -, -, hfee, rfl⟩ := h.closed
  have hclosed := find?_unpublished op.authorization networkBinding op.revoke.publicationId hsender
  have htreasury := treasury_unpublished op.authorization networkBinding op.revoke.publicationId href
  have hsum : exactTotal ((s.authorize op.authorization networkBinding).unpublish
      op.revoke.publicationId) = exactTotal s := by
    rw [exactTotal_unpublish, exactTotal_authorize]
  rw [exactTotal_payFee hclosed hfee htreasury (by omega), hsum]

variable {ctx : BlockContext} {operation : ProtocolOperation}

/-- **Every accepted operation keeps the exact total.** -/
theorem Dispatched.exactTotal_eq (htotal : exactTotal s < 2 ^ 64 - 1) (h : Dispatched ctx operation s s') :
    exactTotal s' = exactTotal s := by
  cases operation with
  | accountCreate op => exact AccountCreateDone.exactTotal_eq h
  | payment op => exact (PaymentDone.exactTotal_eq htotal h).1
  | identityRotate op =>
    obtain ⟨-, rfl⟩ := h
    rfl
  | systemLock op => exact (SystemLockDone.exactTotal_eq h).1
  | nameCommit op =>
    have hresult := NameCommitDone.result h
    rw [hresult]
    rfl
  | nameReveal op =>
    obtain ⟨_, _, -, -, -, -, -, -, hresult⟩ := NameRevealDone.revealed h
    rw [hresult]
    rfl
  | rootPublication op => exact RootPublicationDone.exactTotal_eq htotal h
  | revokePublication op => exact RevokePublicationDone.exactTotal_eq htotal h
  | storageLease op => exact StorageLeaseDone.exactTotal_eq htotal h
  | storageSettlement op => exact SettlementDone.total h

/-! ### Leases stay covered -/

theorem FundsCovered.of_leases (h : FundsCovered s)
    (haccounts : ∀ id, s.hasAccount id = true → s'.hasAccount id = true)
    (hleases : s'.leases = s.leases) : FundsCovered s' := by
  constructor
  · intro id lease hlease
    rw [hleases] at hlease
    exact haccounts _ (h.payer id lease hlease)
  · rw [hleases]
    exact h.terms

theorem FundsCovered.of_frame (h : FundsCovered s) (hframe : SameFrame s s') :
    FundsCovered s' :=
  h.of_leases (fun id hid => (congrFun hframe.accounts id).trans hid) hframe.leases

theorem FundsCovered.putLease (h : FundsCovered s) {id : Hash256}
    {lease : StorageLeaseRecord} (hpayer : s.hasAccount lease.payer = true)
    (hterms : ∀ term ∈ lease.fundedTerms, TermFunds term) : FundsCovered (s.putLease id lease) := by
  constructor
  · intro id' l hl
    simp only [CybouState.putLease, OrdMap.find?_set] at hl
    split at hl
    · cases hl
      exact hpayer
    · exact h.payer id' l hl
  · intro id' l hl
    simp only [CybouState.putLease, OrdMap.find?_set] at hl
    split at hl
    · cases hl
      exact hterms
    · exact h.terms id' l hl

theorem termFunds_newTerm (order : LeaseOrder) (params : CybouProtocolParameters) (s : CybouState)
    (budget : AssignedStorageBudget) (account : AccountState) :
    TermFunds (order.term params s budget account) := by
  refine ⟨Nat.zero_le _, Nat.zero_le _, ?_⟩
  have hsplit := onboarding_add_locked account.onboardingSystemBalance order.escrow
  exact hsplit ▸ order.escrow.toNat_lt

theorem FundsCovered.fundLease (h : FundsCovered s) (hfunded : LeaseFunded order params budget account s s') :
    FundsCovered s' := by
  have hframe := SameFrame.putAccount hfunded.payer (account.debitSystem order.escrow)
  have hnew := termFunds_newTerm order params s budget account
  rw [hfunded.result]
  refine (h.of_frame hframe).putLease ?_ ?_
  · rw [hframe.accounts]
    cases hlease : s.leases.find? order.publicationId with
    | none => exact OrdMap.contains_of_find? hfunded.payer
    | some lease => exact h.payer _ lease hlease
  · cases hlease : s.leases.find? order.publicationId with
    | none => simpa [fundedLease] using hnew
    | some lease =>
      intro term hterm
      obtain hold | hmem := List.mem_append.mp hterm
      · exact h.terms _ lease hlease term hold
      · rwa [List.mem_singleton.mp hmem]

theorem FundsCovered.unpublish (h : FundsCovered s) (publicationId : Hash256) :
    FundsCovered (s.unpublish publicationId) := by
  rw [unpublish_eq]
  unfold closeLease
  split
  · exact ⟨h.payer, h.terms⟩
  · next lease hlease =>
    have hput : FundsCovered (s.putLease publicationId (lease.close s.settlement.nextPeriod)) :=
      h.putLease (h.payer _ lease hlease) (h.terms _ lease hlease)
    exact ⟨hput.payer, hput.terms⟩

theorem claimFor_eq (s : CybouState) (accountId : AccountId)
    (claim : Option (IdentityKeyId × GenesisAllocation)) :
    s.claimFor accountId claim = { s with
      names := (s.claimFor accountId claim).names
      genesisAllocations := (s.claimFor accountId claim).genesisAllocations } := by
  cases claim <;> rfl

@[simp] theorem identities_spendTreasury (s : CybouState) (bonus : UInt64) :
    (s.spendTreasury bonus).identities = s.identities := by
  unfold CybouState.spendTreasury
  split
  · rfl
  · split
    · rfl
    · exact identities_write ..

theorem AccountCreateDone.keeps (h : AccountCreateDone op networkBinding blockHeight params s s') :
    s'.leases = s.leases ∧ s'.settlement = s.settlement ∧
      s'.identities = (s.registerIdentity op networkBinding blockHeight params).identities ∧
      ∀ id, s'.hasAccount id = true ↔ id = op.accountId ∨ s.hasAccount id = true := by
  have hspend := SameFrame.spendTreasury (s.registerIdentity op networkBinding blockHeight params)
    (onboardingBonusFor params (claimableAllocation s op.authorization.recoveryRoot))
  have hresult := h.result
  dsimp only at hresult
  rw [hresult, claimFor_eq]
  refine ⟨hspend.leases, hspend.settlement, identities_spendTreasury _ _, fun id => ?_⟩
  have hkept := congrFun hspend.accounts id
  simp only [CybouState.hasAccount] at hkept
  simp only [CybouState.hasAccount, CybouState.putAccount, OrdMap.contains_set, hkept,
    Bool.or_eq_true, decide_eq_true_eq]
  exact Iff.rfl

/-- Every accepted operation keeps the leases covered. -/
theorem Dispatched.fundsCovered (htotal : exactTotal s < 2 ^ 64 - 1) (hfunds : FundsCovered s)
    (h : Dispatched ctx operation s s') : FundsCovered s' := by
  cases operation with
  | accountCreate op =>
    obtain ⟨hleases, -, -, haccounts⟩ := AccountCreateDone.keeps h
    exact hfunds.of_leases (fun id hid => (haccounts id).mpr (.inr hid)) hleases
  | payment op => exact hfunds.of_frame (PaymentDone.exactTotal_eq htotal h).2
  | identityRotate op =>
    obtain ⟨-, rfl⟩ := h
    exact hfunds.of_leases (fun _ hid => hid) rfl
  | systemLock op => exact hfunds.of_frame (SystemLockDone.exactTotal_eq h).2
  | nameCommit op =>
    have hresult := NameCommitDone.result h
    rw [hresult]
    exact hfunds.of_leases (fun _ hid => hid) rfl
  | nameReveal op =>
    obtain ⟨_, _, -, -, -, -, -, -, hresult⟩ := NameRevealDone.revealed h
    rw [hresult]
    exact hfunds.of_leases (fun _ hid => hid) rfl
  | rootPublication op =>
    obtain ⟨fee, _, _, sender, -, -, hsender, -, hresult⟩ := RootPublicationDone.paid h
    have hpaid := hfunds.of_frame (SameFrame.paid ctx.networkBinding fee hsender)
    obtain ⟨-, rfl⟩ | ⟨-, budget, account, hfunded⟩ := hresult
    · exact hpaid
    · exact hpaid.fundLease hfunded
  | revokePublication op =>
    obtain ⟨sender, record, hsender, -, -, -, rfl⟩ := RevokePublicationDone.closed h
    have hclosed := find?_unpublished op.authorization ctx.networkBinding op.revoke.publicationId hsender
    have hauthorized := hfunds.of_frame
      (SameFrame.ofAuthorize s op.authorization ctx.networkBinding)
    exact (hauthorized.unpublish op.revoke.publicationId).of_frame
      (SameFrame.payFee ctx.params.paymentFee hclosed)
  | storageLease op =>
    obtain ⟨sender, _, _, _, budget, account, hsender, -, -, -, -, hfunded⟩ :=
      StorageLeaseDone.funded h
    exact (hfunds.of_frame (SameFrame.paid ctx.networkBinding _ hsender)).fundLease hfunded
  | storageSettlement op => exact (SettlementDone.valid h).fundsCovered

/-! ### Runs of an executor -/

/-- The invariant of a run: the total of the parent, and covered leases. -/
structure SupplyKept (total : Nat) (s : CybouState) : Prop where
  total_eq : exactTotal s = total
  funds : FundsCovered s

/-- The step, also where the operation throws. -/
theorem executeOperation_supply (ctx : BlockContext) (operation : ProtocolOperation) {total : Nat}
    (htotal : total < 2 ^ 64 - 1) (h : SupplyKept total s) :
    wp (executeOperation ctx operation) (fun _ s' => SupplyKept total s')
      (fun e s' => e = .thrown ∧ SupplyKept total s') s := by
  have hroom : exactTotal s < 2 ^ 64 - 1 := h.total_eq ▸ htotal
  have hkept : ∀ s', Dispatched ctx operation s s' → SupplyKept total s' := fun s' hs' =>
    ⟨(hs'.exactTotal_eq hroom).trans h.total_eq, hs'.fundsCovered hroom h.funds⟩
  refine wp_mono (executeOperation_spec ctx operation hroom h.funds) ?_ ?_
  · intro r s' hr
    cases r with
    | some failure =>
      obtain rfl | hdone := hr
      · exact h
      · exact hkept s' hdone
    | none =>
      obtain ⟨s₁, hdone, hrecorded⟩ := hr
      have h₁ := hkept s₁ hdone
      cases operation with
      | rootPublication op =>
        obtain ⟨id, -, -, -, -, rfl⟩ := hrecorded
        exact ⟨h₁.total_eq, h₁.funds.of_leases (fun _ hid => hid) rfl⟩
      | accountCreate | payment | identityRotate | systemLock | nameCommit | nameReveal
      | revokePublication | storageLease | storageSettlement =>
        cases hrecorded
        exact h₁
  · rintro e s' ⟨he, rfl | ⟨-, hframe, hsum⟩⟩
    · exact ⟨he, h⟩
    · exact ⟨he, hsum.trans h.total_eq, h.funds.of_frame hframe⟩

structure RunSupply (parent : CybouState) (executor : BlockExecutor) : Prop where
  initError : executor.initError ≠ .supplyChanged
  kept : executor.valid = true → exactTotal parent < 2 ^ 64 - 1 ∧
    SupplyKept (exactTotal parent) executor.candidate ∧
      executor.initialSupply = totalCybou parent

theorem exactTotal_expireCommits (ctx : BlockContext) (s : CybouState) :
    exactTotal (expireCommits ctx s) = exactTotal s := by
  unfold expireCommits
  split <;> rfl

theorem RunSupply.new (parent : CybouState) (ctx : BlockContext) :
    RunSupply parent (BlockExecutor.new parent ctx) := by
  unfold BlockExecutor.new
  split
  · exact ⟨nofun, nofun⟩
  · next hvalid =>
    have h := validateCybouState_eq_none.mp (not_not.mp hvalid)
    refine ⟨nofun, fun _ => ⟨h.total, ⟨exactTotal_expireCommits ctx parent, ?_⟩, rfl⟩⟩
    refine h.fundsCovered.of_leases ?_ ?_
    · unfold expireCommits
      split <;> exact fun _ hid => hid
    · unfold expireCommits
      split <;> rfl

variable {executor : BlockExecutor}

theorem applyOperation_supply (h : RunSupply parent executor) (operation : ProtocolOperation) :
    wp (BlockExecutor.applyOperation operation) (fun _ executor' => RunSupply parent executor')
      (fun e executor' => e = .thrown ∧ RunSupply parent executor') executor := by
  unfold BlockExecutor.applyOperation
  rw [wp_get_bind]
  split
  · exact ⟨h.initError, nofun⟩
  next hvalid =>
  split
  · exact ⟨h.initError, nofun⟩
  obtain ⟨hroom, hkept, hsupply⟩ := h.kept (eq_true_of_ne_false hvalid)
  rw [wp_bind, wp_onCandidate]
  refine wp_mono (executeOperation_supply _ operation hroom hkept) ?_ ?_
  · intro r candidate hcandidate
    cases r with
    | some failure => exact ⟨h.initError, nofun⟩
    | none =>
      dsimp only
      rw [wp_bind, wp_modify]
      split
      · exact ⟨h.initError, fun _ => ⟨hroom, hcandidate, hsupply⟩⟩
      · exact ⟨h.initError, fun _ => ⟨hroom, hcandidate, hsupply⟩⟩
  · rintro e candidate ⟨he, hcandidate⟩
    exact ⟨he, h.initError, fun _ => ⟨hroom, hcandidate, hsupply⟩⟩

theorem RunSupply.after (h : RunSupply parent executor) (operation : ProtocolOperation) :
    RunSupply parent (executor.after operation) := by
  have hspec := applyOperation_supply h operation
  unfold BlockExecutor.after
  split
  · next hrun => exact wp_of_ok (Q := fun _ executor' => RunSupply parent executor') hspec hrun
  · next hrun => exact (wp_of_error hspec hrun).2

theorem RunSupply.afterAll (h : RunSupply parent executor) (operations : List ProtocolOperation) :
    RunSupply parent (executor.afterAll operations) := by
  induction operations generalizing executor with
  | nil => exact h
  | cons operation rest ih => exact ih (h.after operation)

theorem RunSupply.finalize (h : RunSupply parent executor) : executor.finalize.error ≠ .supplyChanged := by
  unfold BlockExecutor.finalize
  split
  · exact h.initError
  next hvalid =>
  obtain ⟨-, hkept, hsupply⟩ := h.kept (eq_true_of_ne_false hvalid)
  split
  · exact nofun
  have hsame : totalCybou executor.candidate = executor.initialSupply := by
    rw [hsupply, ← UInt64.toNat_inj, toNat_totalCybou, toNat_totalCybou, hkept.total_eq]
  rw [if_neg (not_not.mpr hsame)]
  split <;> exact nofun

/-- **The supply is exact.**  An accepted operation keeps the total of a valid
    state as an integer, no amount wraps on the way, and so no run of an executor
    ends in `SUPPLY_CHANGED`. -/
theorem supply_conserved (ctx : BlockContext) :
    (∀ operation s, validateCybouState s = .none →
      (∀ s', dispatch ctx operation s = .ok none s' →
        exactTotal s' = exactTotal s ∧ (totalCybou s').toNat = exactTotal s' ∧
          totalCybou s' = totalCybou s) ∧
      ∀ s', dispatch ctx operation s ≠ .error .wrapped s') ∧
    ∀ parent operations,
      ((BlockExecutor.new parent ctx).afterAll operations).finalize.error ≠ .supplyChanged ∧
      ∀ operation executor', BlockExecutor.applyOperation operation
        ((BlockExecutor.new parent ctx).afterAll operations) ≠ .error .wrapped executor' := by
  constructor
  · intro operation s hvalid
    have h := validateCybouState_eq_none.mp hvalid
    have hspec := dispatch_spec ctx operation h.total h.fundsCovered
    constructor
    · intro s' hrun
      have hsum := (wp_of_ok hspec hrun).done.exactTotal_eq h.total
      have htotal := h.total
      refine ⟨hsum, ?_, ?_⟩
      · rw [toNat_totalCybou]
        omega
      · rw [← UInt64.toNat_inj, toNat_totalCybou, toNat_totalCybou, hsum]
    · intro s' hrun
      cases (wp_of_error hspec hrun).1
  · intro parent operations
    have hrun := (RunSupply.new parent ctx).afterAll operations
    refine ⟨hrun.finalize, fun operation executor' hcall => ?_⟩
    cases (wp_of_error (applyOperation_supply hrun operation) hcall).1

end

section Sample

set_option maxRecDepth 10000

attribute [local instance] Crypto.sample

def sampleLock : AuthorizedSystemLock :=
  let lock : SystemLockPayload := { amount := 5 }
  { authorization :=
      { accountId := sampleId 1, nonce := 0, keyEpoch := 0, kind := .systemLock
        payloadCommitment := (computeSystemLockPayloadCommitment lock).getD (sampleId 0)
        signature := sampleSignature }
    lock }

theorem supply_conserved_sampleLock :
    ∃ s', dispatch sampleContext (.systemLock sampleLock) sampleState = .ok none s' ∧
      exactTotal s' = exactTotal sampleState ∧ totalCybou s' = totalCybou sampleState := by
  have hrun : (match dispatch sampleContext (.systemLock sampleLock) sampleState with
      | .ok none _ => true
      | _ => false) = true := by decide
  split at hrun
  · next s' h =>
    obtain ⟨hsum, -, htotal⟩ := ((supply_conserved sampleContext).1 (.systemLock sampleLock)
      sampleState validateCybouState_sampleState).1 s' h
    exact ⟨s', h, hsum, htotal⟩
  · cases hrun

end Sample

end Cybou
