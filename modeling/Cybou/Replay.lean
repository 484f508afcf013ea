import Cybou.Supply

/-! # No operation is accepted twice

Each kind of operation is spent in its own way: an account exists, a nonce has
been passed, a term has moved on, a period is settled.  All four are facts
that later steps can only strengthen (`Advances`), an accepted operation
makes its own true, and none is accepted once it is.
-/

namespace Cybou

open Library Proc

section

variable [Crypto]

/-! ### What only grows -/

/-- Accounts stay, terms go on, periods pass. -/
structure Keeps (s s' : CybouState) : Prop where
  accounts : ∀ id, s.hasAccount id = true → s'.hasAccount id = true
  terms : TermsGrow s s'
  cursor : s.settlement.nextPeriod ≤ s'.settlement.nextPeriod

structure Advances (s s' : CybouState) : Prop extends Keeps s s' where
  nonces : ∀ id r, s.identities.find id = some r →
    ∃ r', s'.identities.find id = some r' ∧ r.nonce ≤ r'.nonce

namespace Keeps

theorem trans {s₁ s₂ s₃ : CybouState} (h : Keeps s₁ s₂) (h' : Keeps s₂ s₃) : Keeps s₁ s₃ where
  accounts := fun id hid => h'.accounts id (h.accounts id hid)
  terms := h.terms.trans h'.terms
  cursor := UInt64.le_trans h.cursor h'.cursor

theorem of_same {s s' : CybouState} (haccounts : s'.hasAccount = s.hasAccount)
    (hleases : s'.leases = s.leases) (hsettlement : s'.settlement = s.settlement) : Keeps s s' where
  accounts := fun id hid => (congrFun haccounts id).trans hid
  terms := TermsGrow.of_leases hleases
  cursor := hsettlement ▸ UInt64.le_refl _

theorem of_frame {s s' : CybouState} (h : SameFrame s s') : Keeps s s' :=
  of_same h.accounts h.leases h.settlement

end Keeps

namespace Advances

theorem trans {s₁ s₂ s₃ : CybouState} (h : Advances s₁ s₂) (h' : Advances s₂ s₃) :
    Advances s₁ s₃ where
  toKeeps := h.toKeeps.trans h'.toKeeps
  nonces := by
    intro id r hr
    obtain ⟨r₂, hr₂, hle⟩ := h.nonces id r hr
    obtain ⟨r₃, hr₃, hle'⟩ := h'.nonces id r₂ hr₂
    exact ⟨r₃, hr₃, UInt64.le_trans hle hle'⟩

theorem of_keeps {s s' : CybouState} (h : Keeps s s') (hidentities : s'.identities = s.identities) :
    Advances s s' where
  toKeeps := h
  nonces := fun _ r hr => ⟨r, hidentities ▸ hr, UInt64.le_refl _⟩

theorem refl (s : CybouState) : Advances s s := of_keeps (Keeps.of_same rfl rfl rfl) rfl

end Advances

/-! ### Nonces -/

def NonceSpent (id : AccountId) (nonce : UInt64) (s : CybouState) : Prop :=
  ∃ r, s.identities.find id = some r ∧ nonce < r.nonce

variable {s s' : CybouState}

variable {id : AccountId} {nonce : UInt64}

theorem NonceSpent.mono (h : NonceSpent id nonce s) (hadvances : Advances s s') : NonceSpent id nonce s' := by
  obtain ⟨r, hr, hlt⟩ := h
  obtain ⟨r', hr', hle⟩ := hadvances.nonces id r hr
  exact ⟨r', hr', UInt64.lt_of_lt_of_le hlt hle⟩

theorem nonces_of_set {record record' : IdentityRecord} (hrecord : s.identities.find id = some record)
    (hnonce : nonce = record.nonce) (hmax : record.nonce ≠ UINT64_MAX)
    (hnext : record'.nonce = record.nonce + 1)
    (hset : s'.identities.accounts = s.identities.accounts.set id record') :
    ¬NonceSpent id nonce s ∧ NonceSpent id nonce s' ∧
      ∀ id' r, s.identities.find id' = some r →
        ∃ r', s'.identities.find id' = some r' ∧ r.nonce ≤ r'.nonce := by
  have hlt := lt_add_one_of_ne_max hmax
  have hself : s'.identities.find id = some record' := by
    rw [IdentityRegistry.find, hset, OrdMap.find?_set_self]
  refine ⟨?_, ⟨record', hself, by rw [hnonce, hnext]; exact hlt⟩, ?_⟩
  · rintro ⟨r, hr, hpassed⟩
    cases hrecord.symm.trans hr
    rw [hnonce] at hpassed
    exact UInt64.lt_irrefl _ hpassed
  · intro id' r hr
    by_cases hid : id' = id
    · subst hid
      cases hrecord.symm.trans hr
      exact ⟨record', hself, hnext ▸ UInt64.le_of_lt hlt⟩
    · refine ⟨r, ?_, UInt64.le_refl _⟩
      rw [IdentityRegistry.find, hset, OrdMap.find?_set_of_ne _ _ hid]
      exact hr

variable {networkBinding : Hash256}

theorem nonces_authorize {authorization : IdentityOperationAuthorization}
    (h : (s.identities.authorizeOperation authorization networkBinding).1 = .none)
    (hidentities : s'.identities = (s.authorize authorization networkBinding).identities) :
    ¬NonceSpent authorization.accountId authorization.nonce s ∧
      NonceSpent authorization.accountId authorization.nonce s' ∧
      ∀ id r, s.identities.find id = some r →
        ∃ r', s'.identities.find id = some r' ∧ r.nonce ≤ r'.nonce := by
  obtain ⟨e, he, heq⟩ | ⟨record, digest, hrecord, hnonce, -, hmax, -, -, heq⟩ :=
    s.identities.toRegistryMaps.authorizeOperation_cases authorization networkBinding
  · have herr : (s.identities.authorizeOperation authorization networkBinding).1 = e :=
      congrArg Prod.fst heq
    exact absurd (herr.symm.trans h) he
  · have hset : s'.identities.accounts = s.identities.accounts.set authorization.accountId
        { record with nonce := record.nonce + 1 } := by
      rw [hidentities]
      exact congrArg (fun r => r.2.accounts) heq
    exact nonces_of_set hrecord hnonce hmax rfl hset

theorem nonces_rotate {request : IdentityRotate}
    (h : (s.identities.rotateIdentity request networkBinding).1 = .none) :
    ¬NonceSpent request.accountId request.nonce s ∧
      NonceSpent request.accountId request.nonce (s.rotate request networkBinding) ∧
      ∀ id r, s.identities.find id = some r →
        ∃ r', (s.rotate request networkBinding).identities.find id = some r' ∧
          r.nonce ≤ r'.nonce := by
  obtain ⟨e, he, heq⟩ | ⟨record, _, _, _, _, hrecord, hnonce, -, hmax, -, -, -, -, -, -, -, heq⟩ :=
    s.identities.toRegistryMaps.rotateIdentity_cases request networkBinding
  · have herr : (s.identities.rotateIdentity request networkBinding).1 = e := congrArg Prod.fst heq
    exact absurd (herr.symm.trans h) he
  · have hset := congrArg (fun r => r.2.accounts) heq
    exact nonces_of_set hrecord hnonce hmax rfl hset

/-! ### Spent operations -/

def ProtocolOperation.authorization : ProtocolOperation → Option IdentityOperationAuthorization
  | .payment op => some op.authorization
  | .systemLock op => some op.authorization
  | .nameCommit op => some op.authorization
  | .nameReveal op => some op.authorization
  | .rootPublication op => some op.authorization
  | .revokePublication op => some op.authorization
  | .storageLease op => some op.authorization
  | .accountCreate _ | .identityRotate _ | .storageSettlement _ => none

def Spent (s : CybouState) : ProtocolOperation → Prop
  | .accountCreate op => s.hasAccount op.accountId = true
  | .identityRotate op => NonceSpent op.accountId op.nonce s
  | .storageSettlement op => SettlementMark op s
  | .payment op => NonceSpent op.authorization.accountId op.authorization.nonce s
  | .systemLock op => NonceSpent op.authorization.accountId op.authorization.nonce s
  | .nameCommit op => NonceSpent op.authorization.accountId op.authorization.nonce s
  | .nameReveal op => NonceSpent op.authorization.accountId op.authorization.nonce s
  | .rootPublication op => NonceSpent op.authorization.accountId op.authorization.nonce s
  | .revokePublication op => NonceSpent op.authorization.accountId op.authorization.nonce s
  | .storageLease op => NonceSpent op.authorization.accountId op.authorization.nonce s

variable {operation : ProtocolOperation}

theorem Spent.mono (h : Spent s operation) (hadvances : Advances s s') : Spent s' operation := by
  cases operation with
  | accountCreate op => exact hadvances.accounts _ h
  | storageSettlement op => exact SettlementMark.mono h hadvances.terms hadvances.cursor
  | identityRotate op | payment op | systemLock op | nameCommit op | nameReveal op
  | rootPublication op | revokePublication op | storageLease op => exact NonceSpent.mono h hadvances

variable {ctx : BlockContext}

/-- An authorized operation changes the registry through its authorization only. -/
theorem Dispatched.authorized {authorization : IdentityOperationAuthorization}
    (h : Dispatched ctx operation s s') (hauth : operation.authorization = some authorization) :
    (s.identities.authorizeOperation authorization ctx.networkBinding).1 = .none ∧
      s'.identities = (s.authorize authorization ctx.networkBinding).identities := by
  cases operation with
  | accountCreate | identityRotate | storageSettlement => cases hauth
  | payment op =>
    cases hauth
    obtain ⟨sender, recipient, -, -, -, -, -, -, rfl⟩ := PaymentDone.moved h
    exact ⟨PaymentDone.authorized h, identities_creditTreasury _ _⟩
  | systemLock op =>
    cases hauth
    obtain ⟨account, -, -, -, rfl⟩ := SystemLockDone.moved h
    exact ⟨SystemLockDone.authorized h, rfl⟩
  | nameCommit op =>
    cases hauth
    have hresult := NameCommitDone.result h
    exact ⟨NameCommitDone.authorized h, by rw [hresult]⟩
  | nameReveal op =>
    cases hauth
    obtain ⟨_, _, -, -, -, -, -, -, hresult⟩ := NameRevealDone.revealed h
    exact ⟨NameRevealDone.authorized h, by rw [hresult]⟩
  | rootPublication op =>
    cases hauth
    obtain ⟨fee, _, _, sender, -, -, -, -, hresult⟩ := RootPublicationDone.paid h
    refine ⟨RootPublicationDone.authorized h, ?_⟩
    obtain ⟨-, rfl⟩ | ⟨-, budget, account, hfunded⟩ := hresult
    · exact identities_payFee ..
    · rw [hfunded.result]
      exact identities_payFee ..
  | revokePublication op =>
    cases hauth
    obtain ⟨sender, record, -, -, -, -, rfl⟩ := RevokePublicationDone.closed h
    refine ⟨RevokePublicationDone.authorized h, ?_⟩
    rw [identities_payFee, unpublish_eq]
  | storageLease op =>
    cases hauth
    obtain ⟨sender, _, _, _, budget, account, -, -, -, -, -, hfunded⟩ := StorageLeaseDone.funded h
    refine ⟨StorageLeaseDone.authorized h, ?_⟩
    rw [hfunded.result]
    exact identities_payFee ..

theorem LeaseFunded.keeps {order : LeaseOrder} {params : CybouProtocolParameters}
    {budget : AssignedStorageBudget} {account : AccountState}
    (h : LeaseFunded order params budget account s s') : Keeps s s' := by
  have hframe := SameFrame.putAccount h.payer (account.debitSystem order.escrow)
  rw [h.result]
  refine ⟨(Keeps.of_frame hframe).accounts, ?_, UInt64.le_refl _⟩
  intro term hterm
  obtain ⟨id, lease, hlease, hmem⟩ := mem_fundedTerms.mp hterm
  refine ⟨term, mem_fundedTerms.mpr ?_, TermGrows.refl term⟩
  by_cases hid : id = order.publicationId
  · subst hid
    refine ⟨_, _, OrdMap.find?_set_self .., ?_⟩
    rw [hlease]
    exact List.mem_append_left _ hmem
  · exact ⟨id, lease, (OrdMap.find?_set_of_ne _ _ hid).trans hlease, hmem⟩

theorem Keeps.unpublish (s : CybouState) (publicationId : Hash256) :
    Keeps s (s.unpublish publicationId) := by
  rw [unpublish_eq]
  unfold closeLease
  split
  · exact Keeps.of_same rfl rfl rfl
  · next lease hlease =>
    have hgrow : TermsGrow s (s.putLease publicationId (lease.close s.settlement.nextPeriod)) :=
      TermsGrow.putLease hlease fun term hterm => ⟨term, hterm, TermGrows.refl term⟩
    exact ⟨fun _ hid => hid, hgrow, UInt64.le_refl _⟩

/-- Every accepted operation keeps the accounts, the terms and the cursor. -/
theorem Dispatched.keeps
    (htotal : exactTotal s < 2 ^ 64 - 1) (h : Dispatched ctx operation s s') : Keeps s s' := by
  cases operation with
  | accountCreate op =>
    obtain ⟨hleases, hsettlement, -, haccounts⟩ := AccountCreateDone.keeps h
    exact ⟨fun id hid => (haccounts id).mpr (.inr hid), TermsGrow.of_leases hleases,
      hsettlement ▸ UInt64.le_refl _⟩
  | payment op => exact Keeps.of_frame (PaymentDone.exactTotal_eq htotal h).2
  | identityRotate op =>
    obtain ⟨-, rfl⟩ := h
    exact Keeps.of_same rfl rfl rfl
  | systemLock op => exact Keeps.of_frame (SystemLockDone.exactTotal_eq h).2
  | nameCommit op =>
    have hresult := NameCommitDone.result h
    rw [hresult]
    exact Keeps.of_same rfl rfl rfl
  | nameReveal op =>
    obtain ⟨_, _, -, -, -, -, -, -, hresult⟩ := NameRevealDone.revealed h
    rw [hresult]
    exact Keeps.of_same rfl rfl rfl
  | rootPublication op =>
    obtain ⟨fee, _, _, sender, -, -, hsender, -, hresult⟩ := RootPublicationDone.paid h
    have hpaid := Keeps.of_frame (SameFrame.paid ctx.networkBinding fee hsender)
    obtain ⟨-, rfl⟩ | ⟨-, budget, account, hfunded⟩ := hresult
    · exact hpaid
    · exact hpaid.trans hfunded.keeps
  | revokePublication op =>
    obtain ⟨sender, record, hsender, -, -, -, rfl⟩ := RevokePublicationDone.closed h
    have hclosed := find?_unpublished op.authorization ctx.networkBinding op.revoke.publicationId hsender
    have hauthorized := Keeps.of_frame
      (SameFrame.ofAuthorize s op.authorization ctx.networkBinding)
    exact (hauthorized.trans (Keeps.unpublish _ _)).trans
      (Keeps.of_frame (SameFrame.payFee ctx.params.paymentFee hclosed))
  | storageLease op =>
    obtain ⟨sender, _, _, _, budget, account, hsender, -, -, -, -, hfunded⟩ :=
      StorageLeaseDone.funded h
    exact (Keeps.of_frame (SameFrame.paid ctx.networkBinding _ hsender)).trans hfunded.keeps
  | storageSettlement op =>
    exact ⟨fun id hid => (congrFun (SettlementDone.accounts h) id).trans hid, SettlementDone.terms h,
      SettlementDone.cursor h⟩

/-- **An accepted operation was unspent, is spent, and only moves forward.** -/
theorem Dispatched.spends (htotal : exactTotal s < 2 ^ 64 - 1) (h : Dispatched ctx operation s s') :
    ¬Spent s operation ∧ Spent s' operation ∧ Advances s s' := by
  have hkeeps := h.keeps htotal
  cases operation with
  | accountCreate op =>
    obtain ⟨-, -, hidentities, haccounts⟩ := AccountCreateDone.keeps h
    obtain ⟨hfresh, record, hset⟩ := accounts_register (AccountCreateDone.registered h)
    refine ⟨?_, (haccounts _).mpr (.inl rfl), hkeeps, fun id r hr => ⟨r, ?_, UInt64.le_refl _⟩⟩
    · have hnone := OrdMap.contains_eq_false_iff.mpr (AccountCreateDone.fresh h)
      intro hspent
      exact absurd (hspent.symm.trans hnone) (by simp)
    · have hne : id ≠ op.accountId := by
        rintro rfl
        cases hfresh.symm.trans hr
      rw [hidentities, IdentityRegistry.find, hset, OrdMap.find?_set_of_ne _ _ hne]
      exact hr
  | identityRotate op =>
    obtain ⟨hok, rfl⟩ := h
    obtain ⟨hunspent, hspent, hnonces⟩ := nonces_rotate hok
    exact ⟨hunspent, hspent, hkeeps, hnonces⟩
  | storageSettlement op =>
    exact ⟨SettlementDone.fresh h, SettlementDone.mark h,
      Advances.of_keeps hkeeps (SettlementDone.identities h)⟩
  | payment op | systemLock op | nameCommit op | nameReveal op | rootPublication op
  | revokePublication op | storageLease op =>
    obtain ⟨hok, hidentities⟩ := h.authorized rfl
    obtain ⟨hunspent, hspent, hnonces⟩ := nonces_authorize hok hidentities
    exact ⟨hunspent, hspent, hkeeps, hnonces⟩

theorem Recorded.advances (h : Recorded ctx operation s s') : Advances s s' := by
  cases operation with
  | rootPublication op =>
    obtain ⟨id, -, -, -, -, rfl⟩ := h
    exact Advances.of_keeps (Keeps.of_same rfl rfl rfl) rfl
  | accountCreate | payment | identityRotate | systemLock | nameCommit | nameReveal
  | revokePublication | storageLease | storageSettlement =>
    cases h
    exact Advances.refl s

/-! ### Runs -/

/-- A working executor accepts the operation and its candidate goes from `s` to
    `s'`.  (One that has failed before answers without looking at the operation,
    and its candidate is never finalized.) -/
def Accepts (ctx : BlockContext) (operation : ProtocolOperation) (s s' : CybouState) : Prop :=
  ∃ executor executor' result, executor.valid = true ∧ executor.context = ctx ∧
    executor.candidate = s ∧
    BlockExecutor.applyOperation operation executor = .ok result executor' ∧ result.isOk = true ∧
    executor'.candidate = s'

/-- The operations accepted between two states, within blocks and across them. -/
inductive Trace : CybouState → List ProtocolOperation → CybouState → Prop
  | refl (s : CybouState) : Trace s [] s
  | operation {ctx : BlockContext} {operation : ProtocolOperation} {s s₁ s₂ : CybouState}
      {rest : List ProtocolOperation} (h : Accepts ctx operation s s₁) (ht : Trace s₁ rest s₂) :
      Trace s (operation :: rest) s₂
  | block {s s₂ : CybouState} {rest : List ProtocolOperation} (ctx : BlockContext)
      (ht : Trace (expireCommits ctx s) rest s₂) : Trace s rest s₂

inductive BlockRun (ctx : BlockContext) : CybouState → List ProtocolOperation → CybouState → Prop
  | done (s : CybouState) : BlockRun ctx s [] s
  | operation {operation : ProtocolOperation} {s s₁ s₂ : CybouState} {rest : List ProtocolOperation}
      (h : Accepts ctx operation s s₁) (hrest : BlockRun ctx s₁ rest s₂) :
      BlockRun ctx s (operation :: rest) s₂

variable {operations : List ProtocolOperation}

theorem BlockRun.trace (h : BlockRun ctx s operations s') : Trace s operations s' := by
  induction h with
  | done s => exact .refl s
  | operation h _ ih => exact .operation h ih

inductive Chain : CybouState → List ProtocolOperation → CybouState → Prop
  | genesis (s : CybouState) : Chain s [] s
  | block {ctx : BlockContext} {operations rest : List ProtocolOperation}
      {result : BlockExecutionResult} {parent s s' : CybouState}
      (h : executeBlockOperations parent operations ctx = some result) (hok : result.isOk = true)
      (hstate : result.state = some s) (hc : Chain s rest s') :
      Chain parent (operations ++ rest) s'

variable {executor : BlockExecutor} {result : BlockExecutionResult}

variable {executor' : BlockExecutor}

theorem applyOperation_accepted (hvalid : executor.valid = true)
    (hrun : BlockExecutor.applyOperation operation executor = .ok result executor') (hok : result.isOk = true) :
    executeOperation executor.context operation executor.candidate = .ok none executor'.candidate ∧
      executor'.valid = true ∧ executor'.context = executor.context := by
  have hfailed := executeOperation_failure executor.context operation executor.candidate
  have hspec : wp (BlockExecutor.applyOperation operation)
      (fun result executor' => result.isOk = true →
        executeOperation executor.context operation executor.candidate =
          .ok none executor'.candidate ∧ executor'.valid = true ∧
            executor'.context = executor.context)
      (fun _ _ => True) executor := by
    unfold BlockExecutor.applyOperation
    rw [wp_get_bind, if_neg (by simp [hvalid])]
    split
    · intro htooMany
      cases htooMany
    rw [wp_bind, wp_onCandidate, wp]
    split
    · next r candidate hexecute =>
      cases r with
      | some failure =>
        intro hfailure
        have hnot := wp_of_ok hfailed hexecute failure rfl
        exact absurd (hfailure.symm.trans hnot) (by decide)
      | none =>
        intro _
        dsimp only
        rw [hexecute]
        split <;> exact ⟨rfl, hvalid, rfl⟩
    · trivial
  exact wp_of_ok hspec hrun hok

theorem Advances.expireCommits (ctx : BlockContext) (s : CybouState) :
    Advances s (expireCommits ctx s) := by
  unfold Cybou.expireCommits
  split
  · exact Advances.of_keeps (Keeps.of_same rfl rfl rfl) rfl
  · exact Advances.refl s

variable {total : Nat}

theorem SupplyKept.expireCommits (h : SupplyKept total s)
    (ctx : BlockContext) : SupplyKept total (expireCommits ctx s) := by
  refine ⟨(exactTotal_expireCommits ctx s).trans h.total_eq, h.funds.of_leases ?_ ?_⟩
  · exact (Advances.expireCommits ctx s).accounts
  · unfold Cybou.expireCommits
    split <;> rfl

theorem Accepts.spends (htotal : total < 2 ^ 64 - 1) (hkept : SupplyKept total s)
    (h : Accepts ctx operation s s') :
    SupplyKept total s' ∧ ¬Spent s operation ∧ Spent s' operation ∧ Advances s s' := by
  obtain ⟨executor, executor', result, hvalid, rfl, rfl, hrun, hok, rfl⟩ := h
  have hexecute := (applyOperation_accepted hvalid hrun hok).1
  have hroom : exactTotal executor.candidate < 2 ^ 64 - 1 := hkept.total_eq ▸ htotal
  obtain ⟨s₁, hdone, hrecorded⟩ := wp_of_ok (executeOperation_spec _ operation hroom hkept.funds)
    hexecute
  obtain ⟨hunspent, hspent, hadvances⟩ := hdone.spends hroom
  have hafter : Advances s₁ executor'.candidate := hrecorded.advances
  have hkept' := wp_of_ok (Q := fun _ s' => SupplyKept total s')
    (executeOperation_supply _ operation htotal hkept) hexecute
  exact ⟨hkept', hunspent, hspent.mono hafter, hadvances.trans hafter⟩

theorem Trace.spent (htotal : total < 2 ^ 64 - 1)
    (h : Trace s operations s') (hkept : SupplyKept total s) (hspent : Spent s operation) :
    SupplyKept total s' ∧ Spent s' operation ∧ operation ∉ operations := by
  induction h with
  | refl s => exact ⟨hkept, hspent, List.not_mem_nil⟩
  | @operation ctx first s s₁ s₂ rest haccepts _ ih =>
    obtain ⟨hkept₁, hunspent, -, hadvances⟩ := haccepts.spends htotal hkept
    obtain ⟨hkept₂, hspent₂, hrest⟩ := ih hkept₁ (hspent.mono hadvances)
    refine ⟨hkept₂, hspent₂, ?_⟩
    intro hmem
    rcases List.mem_cons.mp hmem with rfl | hmem
    · exact hunspent hspent
    · exact hrest hmem
  | block ctx _ ih =>
    exact ih (hkept.expireCommits ctx) (hspent.mono (Advances.expireCommits ctx _))

theorem Trace.nodup (htotal : total < 2 ^ 64 - 1) (h : Trace s operations s') (hkept : SupplyKept total s) :
    operations.Nodup := by
  induction h with
  | refl s => exact List.nodup_nil
  | operation haccepts ht ih =>
    obtain ⟨hkept₁, -, hspent, -⟩ := haccepts.spends htotal hkept
    obtain ⟨-, -, hrest⟩ := ht.spent htotal hkept₁ hspent
    exact List.nodup_cons.mpr ⟨hrest, ih hkept₁⟩
  | block ctx _ ih => exact ih (hkept.expireCommits ctx)

theorem Trace.append {s₁ s₂ s₃ : CybouState} {rest : List ProtocolOperation}
    (h : Trace s₁ operations s₂) (h' : Trace s₂ rest s₃) : Trace s₁ (operations ++ rest) s₃ := by
  induction h with
  | refl s => exact h'
  | operation haccepts _ ih => exact .operation haccepts (ih h')
  | block ctx _ ih => exact .block ctx (ih h')

/-! ### Blocks are traces -/

theorem BlockExecutor.finalize_state (h : executor.finalize.state = some s) : executor.candidate = s := by
  unfold BlockExecutor.finalize at h
  repeat' split at h
  · cases h
  · cases h
  · cases h
  · cases h
  · exact Option.some.inj h

theorem executeFrom_run {index : Nat} (hvalid : executor.valid = true)
    (hrun : executeFrom index operations executor = .ok result executor')
    (hok : result.isOk = true) (hstate : result.state = some s) :
    BlockRun executor.context executor.candidate operations s := by
  induction operations generalizing index executor with
  | nil =>
    cases hrun
    rw [BlockExecutor.finalize_state hstate]
    exact .done s
  | cons operation rest ih =>
    rw [executeFrom, bind, EStateM.instMonad] at hrun
    simp only [EStateM.bind] at hrun
    split at hrun
    · next first executor₁ hfirst =>
      split at hrun
      · next hfailed =>
        cases hrun
        exact absurd (hok.symm.trans hfailed) (by decide)
      · next hfirstOk =>
        have haccepted := eq_true_of_ne_false hfirstOk
        obtain ⟨-, hvalid₁, hcontext⟩ := applyOperation_accepted hvalid hfirst haccepted
        exact .operation ⟨executor, executor₁, first, hvalid, rfl, rfl, hfirst, haccepted, rfl⟩
          (hcontext ▸ ih hvalid₁ hrun)
    · cases hrun

variable {parent : CybouState}

/-- A block that executes is a run of accepted operations. -/
theorem executeBlockOperations_ok
    (hexecute : executeBlockOperations parent operations ctx = some result) (hok : result.isOk = true) :
    validateCybouState parent = .none ∧ ∃ executor,
      executeFrom 0 operations (BlockExecutor.new parent ctx) = .ok result executor ∧
        (BlockExecutor.new parent ctx).valid = true ∧ (BlockExecutor.new parent ctx).context = ctx ∧
        (BlockExecutor.new parent ctx).candidate = expireCommits ctx parent := by
  unfold executeBlockOperations at hexecute
  split at hexecute
  · cases hexecute
    cases hok
  by_cases hparent : validateCybouState parent = .none
  · have hnew : (BlockExecutor.new parent ctx).valid = true ∧ (BlockExecutor.new parent ctx).context = ctx ∧
        (BlockExecutor.new parent ctx).candidate = expireCommits ctx parent := by
      rw [BlockExecutor.new, if_neg (by simp [hparent])]
      exact ⟨rfl, rfl, rfl⟩
    dsimp only at hexecute
    rw [if_neg (by simp [hnew.1])] at hexecute
    split at hexecute
    · next executor hrun =>
      cases hexecute
      exact ⟨hparent, executor, hrun, hnew⟩
    · cases hexecute
  · have hnew : (BlockExecutor.new parent ctx).valid = false ∧
        (BlockExecutor.new parent ctx).initError = .invalidState := by
      rw [BlockExecutor.new, if_pos hparent]
      exact ⟨rfl, rfl⟩
    dsimp only at hexecute
    rw [if_pos hnew.1, hnew.2] at hexecute
    cases hexecute
    cases hok

theorem executeBlockOperations_run (hexecute : executeBlockOperations parent operations ctx = some result)
    (hok : result.isOk = true) (hstate : result.state = some s) :
    BlockRun ctx (expireCommits ctx parent) operations s := by
  obtain ⟨-, executor, hrun, hvalid, hcontext, hcandidate⟩ := executeBlockOperations_ok hexecute hok
  have h := executeFrom_run hvalid hrun hok hstate
  rwa [hcontext, hcandidate] at h

theorem Chain.trace (h : Chain s operations s') : Trace s operations s' := by
  induction h with
  | genesis s => exact .refl s
  | @block ctx operations rest result parent s s' hexecute hok hstate _ ih =>
    exact Trace.append (.block ctx (executeBlockOperations_run hexecute hok hstate).trace) ih

def CollisionFree (operations : List ProtocolOperation) : Prop :=
  ∀ a ∈ operations, ∀ b ∈ operations, ∀ id,
    computeOperationId a = some id → computeOperationId b = some id → a = b

theorem CollisionFree.nodup (h : CollisionFree operations)
    (hnodup : operations.Nodup) : (operations.filterMap computeOperationId).Nodup := by
  refine List.pairwise_filterMap.mpr (hnodup.imp_of_mem ?_)
  intro a b ha hb hne id hid id' hid' heq
  subst heq
  exact hne (h a ha b hb id hid hid')

/-- **No operation is accepted twice**, however many operations and blocks lie
    between, and so no operation id occurs twice on a chain. -/
theorem replay_rejected :
    (∀ (s s₁ s₂ s₃ : CybouState) (ctx ctx' : BlockContext) (operation : ProtocolOperation)
      (operations : List ProtocolOperation), validateCybouState s = .none →
      Accepts ctx operation s s₁ → Trace s₁ operations s₂ → ¬Accepts ctx' operation s₂ s₃) ∧
    ∀ (genesis s : CybouState) (operations : List ProtocolOperation),
      validateCybouState genesis = .none → Chain genesis operations s →
      CollisionFree operations → (operations.filterMap computeOperationId).Nodup := by
  constructor
  · intro s s₁ s₂ s₃ ctx ctx' operation operations hvalid haccepts htrace hagain
    have h := validateCybouState_eq_none.mp hvalid
    obtain ⟨hkept₁, -, hspent₁, -⟩ := haccepts.spends h.total ⟨rfl, h.fundsCovered⟩
    obtain ⟨hkept₂, hspent₂, -⟩ := htrace.spent h.total hkept₁ hspent₁
    obtain ⟨-, hunspent, -⟩ := hagain.spends h.total hkept₂
    exact hunspent hspent₂
  · intro genesis s operations hvalid hchain hfree
    have h := validateCybouState_eq_none.mp hvalid
    exact hfree.nodup (hchain.trace.nodup h.total ⟨rfl, h.fundsCovered⟩)

end

section

variable [Crypto]

def acceptsNow (ctx : BlockContext) (operation : ProtocolOperation) (s : CybouState) : Bool :=
  (BlockExecutor.new s ctx).valid &&
    match BlockExecutor.applyOperation operation { BlockExecutor.new s ctx with candidate := s } with
    | .ok result _ => result.isOk
    | .error _ _ => false

theorem exists_accepts {ctx : BlockContext} {operation : ProtocolOperation} {s : CybouState}
    (h : acceptsNow ctx operation s = true) : ∃ s', Accepts ctx operation s s' := by
  have hcontext : (BlockExecutor.new s ctx).context = ctx := by
    unfold BlockExecutor.new
    split <;> rfl
  rw [acceptsNow, Bool.and_eq_true] at h
  obtain ⟨hvalid, hrun⟩ := h
  split at hrun
  · next result executor happly =>
    exact ⟨_, { BlockExecutor.new s ctx with candidate := s }, executor, result, hvalid, hcontext, rfl, happly, hrun, rfl⟩
  · cases hrun

end

section Sample

attribute [local instance] Crypto.sample

theorem sampleLock_evaluated :
    acceptsNow sampleContext (.systemLock sampleLock) sampleState = true ∧
    (match executeBlockOperations sampleState [.systemLock sampleLock] sampleContext with
      | some result => result.isOk && result.state.isSome
      | none => false) = true := by
  decide +kernel

theorem accepts_sampleLock : ∃ s, Accepts sampleContext (.systemLock sampleLock) sampleState s :=
  exists_accepts sampleLock_evaluated.1

theorem chain_sampleLock : ∃ s, Chain sampleState [.systemLock sampleLock] s := by
  have hrun := sampleLock_evaluated.2
  split at hrun
  · next result hexecute =>
    obtain ⟨hok, hstate⟩ := Bool.and_eq_true_iff.mp hrun
    obtain ⟨s, hs⟩ := Option.isSome_iff_exists.mp hstate
    have hchain : Chain sampleState ([ProtocolOperation.systemLock sampleLock] ++ []) s :=
      .block hexecute hok hs (.genesis s)
    exact ⟨s, hchain⟩
  · cases hrun

theorem replay_rejected_sampleLock :
    (∃ s, Accepts sampleContext (.systemLock sampleLock) sampleState s ∧
      ∀ s', ¬Accepts sampleContext (.systemLock sampleLock) s s') ∧
    ∃ s, Chain sampleState [.systemLock sampleLock] s ∧
      ([.systemLock sampleLock].filterMap computeOperationId).Nodup := by
  constructor
  · obtain ⟨s, hs⟩ := accepts_sampleLock
    refine ⟨s, hs, fun s' => ?_⟩
    exact replay_rejected.1 sampleState s s s' sampleContext sampleContext
      (.systemLock sampleLock) [] validateCybouState_sampleState hs (.refl s)
  · obtain ⟨s, hs⟩ := chain_sampleLock
    refine ⟨s, hs, replay_rejected.2 sampleState s _ validateCybouState_sampleState hs ?_⟩
    intro a ha b hb _ _ _
    rw [List.mem_singleton.mp ha, List.mem_singleton.mp hb]

end Sample

end Cybou
