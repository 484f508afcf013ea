import Cybou.Validity
import Cybou.SettlementRuns

/-! # Genesis allocations, their claims and their labels over whole runs

An allocation is claimed by the first account created with its recovery key, and
by no other account afterwards, even if that key is rotated away and registered
again (`AllocationRun`).  From then on its entry never changes.

Three kinds of operations touch the names: an account that claims a label, a
commit, and a reveal.  All others keep names, labels and claims
(`RegistryFrame`), so the alignment of names, reverse names, labels and claims
(`NamesAligned`) has three steps to survive.  The treasury rests on it: its
balance is found in every state.
-/

namespace Cybou

open Library

section

variable [Crypto]

/-! ### Allocations along a run -/

def claimantsOf (key : IdentityKeyId) (operations : List ProtocolOperation) : List AccountId :=
  operations.filterMap fun
    | .accountCreate op =>
      if computeRecoveryKeyId op.authorization.recoveryRoot = some key then some op.accountId else none
    | _ => none

theorem claimantsOf_append (key : IdentityKeyId) (operations rest : List ProtocolOperation) :
    claimantsOf key (operations ++ rest) = claimantsOf key operations ++ claimantsOf key rest :=
  List.filterMap_append

theorem claimantsOf_create (key : IdentityKeyId) (op : AccountCreateOp) :
    (claimantsOf key [.accountCreate op]).head? =
      if computeRecoveryKeyId op.authorization.recoveryRoot = some key then some op.accountId else none := by
  by_cases hkey : computeRecoveryKeyId op.authorization.recoveryRoot = some key <;>
    simp [claimantsOf, hkey]

structure AllocationRun (key : IdentityKeyId) (operations : List ProtocolOperation) (s s' : CybouState) :
    Prop where
  absent : s.genesisAllocations.find? key = none → s'.genesisAllocations.find? key = none
  present : ∀ a, s.genesisAllocations.find? key = some a → ∃ a', s'.genesisAllocations.find? key = some a' ∧
    a'.label = a.label ∧ a'.claimedBy = a.claimedBy.or (claimantsOf key operations).head? ∧
    (a.claimedBy ≠ none → a' = a)

namespace AllocationRun

variable {key : IdentityKeyId} {operations rest : List ProtocolOperation} {s s₁ s₂ s' : CybouState}

theorem of_eq (h : s'.genesisAllocations.find? key = s.genesisAllocations.find? key) :
    AllocationRun key [] s s' where
  absent := fun hnone => h.trans hnone
  present := fun a ha => ⟨a, h.trans ha, rfl, by cases a.claimedBy <;> rfl, fun _ => rfl⟩

theorem refl (key : IdentityKeyId) (s : CybouState) : AllocationRun key [] s s := of_eq rfl

theorem append (h : AllocationRun key operations s s₁) (h' : AllocationRun key rest s₁ s₂) :
    AllocationRun key (operations ++ rest) s s₂ where
  absent := fun hnone => h'.absent (h.absent hnone)
  present := by
    intro a ha
    obtain ⟨a₁, ha₁, hlabel, hclaim, hkept⟩ := h.present a ha
    obtain ⟨a₂, ha₂, hlabel', hclaim', hkept'⟩ := h'.present a₁ ha₁
    refine ⟨a₂, ha₂, hlabel'.trans hlabel, ?_, ?_⟩
    · rw [hclaim', hclaim, claimantsOf_append, List.head?_append, Option.or_assoc]
    · intro hclaimed
      have heq := hkept hclaimed
      subst heq
      exact hkept' hclaimed

theorem trans (h : AllocationRun key [] s s₁) (h' : AllocationRun key [] s₁ s₂) :
    AllocationRun key [] s s₂ := h.append h'

theorem write {ref : BalanceRef} (h : ref.Live s) (amount : UInt64) :
    AllocationRun key [] s (ref.write s amount) := by
  cases ref with
  | account id =>
    obtain ⟨a, ha⟩ := h
    refine of_eq ?_
    simp only [BalanceRef.write, ha]
    rfl
  | allocation key' =>
    obtain ⟨a, ha, hclaim⟩ := h
    by_cases hkey : key = key'
    · subst hkey
      have hwritten : (BalanceRef.write s amount (.allocation key)).genesisAllocations.find? key =
          some { a with balance := amount } := by
        simp [BalanceRef.write, ha]
      refine ⟨fun hnone => ?_, ?_⟩
      · cases ha.symm.trans hnone
      · intro a' ha'
        cases ha.symm.trans ha'
        exact ⟨_, hwritten, rfl, by rw [hclaim]; rfl, fun hclaimed => absurd hclaim hclaimed⟩
    · refine of_eq ?_
      simp [BalanceRef.write, ha, hkey]

theorem creditTreasury (key : IdentityKeyId) (s : CybouState) (fee : UInt64) :
    AllocationRun key [] s (s.creditTreasury fee) := by
  unfold CybouState.creditTreasury
  split
  · exact refl key s
  · next ref href => exact write (centralAuthorityFeeBalance_live href) _

theorem spendTreasury (key : IdentityKeyId) (s : CybouState) (bonus : UInt64) :
    AllocationRun key [] s (s.spendTreasury bonus) := by
  unfold CybouState.spendTreasury
  split
  · exact refl key s
  split
  · exact refl key s
  · next ref href => exact write (centralAuthorityFeeBalance_live href) _

end AllocationRun

/-! ### What an operation does to names and claims -/

/-- Names, labels and claims are what they were. -/
structure RegistryFrame (s s' : CybouState) : Prop where
  accounts : s'.hasAccount = s.hasAccount
  names : s'.names = s.names
  allocations : ∀ key, AllocationRun key [] s s'

namespace RegistryFrame

variable {s s₁ s' : CybouState}

theorem trans (h : RegistryFrame s s₁) (h' : RegistryFrame s₁ s') : RegistryFrame s s' where
  accounts := h'.accounts.trans h.accounts
  names := h'.names.trans h.names
  allocations := fun key => (h.allocations key).trans (h'.allocations key)

theorem of_frame (h : SameFrame s s') (hallocations : ∀ key, AllocationRun key [] s s') :
    RegistryFrame s s' := ⟨h.accounts, h.names, hallocations⟩

theorem of_same (haccounts : s'.hasAccount = s.hasAccount) (hnames : s'.names = s.names)
    (hallocations : s'.genesisAllocations = s.genesisAllocations) : RegistryFrame s s' :=
  ⟨haccounts, hnames, fun _ => AllocationRun.of_eq (by rw [hallocations])⟩

theorem refl (s : CybouState) : RegistryFrame s s := of_same rfl rfl rfl

theorem authorize (s : CybouState) (authorization : IdentityOperationAuthorization)
    (networkBinding : Hash256) : RegistryFrame s (s.authorize authorization networkBinding) :=
  of_same rfl rfl rfl

variable {id : AccountId}

theorem putAccount {old : AccountState} (h : s.accounts.find? id = some old)
    (account : AccountState) : RegistryFrame s (s.putAccount id account) :=
  of_frame (SameFrame.putAccount h account) fun _ => AllocationRun.of_eq rfl

theorem creditTreasury (s : CybouState) (fee : UInt64) : RegistryFrame s (s.creditTreasury fee) :=
  of_frame (SameFrame.creditTreasury s fee) fun key => AllocationRun.creditTreasury key s fee

variable {account : AccountState}

theorem payFee (h : s.accounts.find? id = some account)
    (fee : UInt64) : RegistryFrame s (s.payFee id account fee) :=
  (putAccount h _).trans (creditTreasury _ fee)

theorem paid {authorization : IdentityOperationAuthorization}
    (networkBinding : Hash256) (fee : UInt64) (h : s.accounts.find? authorization.accountId = some account) :
    RegistryFrame s ((s.authorize authorization networkBinding).payFee authorization.accountId account fee) :=
  (authorize s authorization networkBinding).trans
    (payFee (s := s.authorize authorization networkBinding) h fee)

theorem fundLease {order : LeaseOrder} {params : CybouProtocolParameters} {budget : AssignedStorageBudget}
    (h : LeaseFunded order params budget account s s') : RegistryFrame s s' := by
  rw [h.result]
  exact (putAccount h.payer (account.debitSystem order.escrow)).trans (of_same rfl rfl rfl)

theorem unpublish (s : CybouState) (publicationId : Hash256) :
    RegistryFrame s (s.unpublish publicationId) := by
  rw [unpublish_eq]
  exact of_same rfl rfl rfl

theorem recorded {ctx : BlockContext} {operation : ProtocolOperation}
    (h : Recorded ctx operation s s') : RegistryFrame s s' := by
  cases operation with
  | rootPublication op =>
    obtain ⟨id, -, -, -, -, rfl⟩ := h
    exact of_same rfl rfl rfl
  | accountCreate | payment | identityRotate | systemLock | nameCommit | nameReveal
  | revokePublication | storageLease | storageSettlement =>
    cases h
    exact refl s

end RegistryFrame

def ProtocolOperation.isRegistry : ProtocolOperation → Bool
  | .accountCreate _ | .nameCommit _ | .nameReveal _ => true
  | _ => false

variable {ctx : BlockContext} {operation : ProtocolOperation} {s s' s₁ : CybouState}

/-- **Every other operation keeps names, labels and claims.** -/
theorem Dispatched.registryFrame
    (h : Dispatched ctx operation s s') (hkind : operation.isRegistry = false) : RegistryFrame s s' := by
  cases operation with
  | accountCreate | nameCommit | nameReveal => cases hkind
  | payment op =>
    obtain ⟨sender, recipient, hsender, hrecipient, hself, -, -, -, rfl⟩ := PaymentDone.moved h
    have htransfer : RegistryFrame (s.authorize op.authorization ctx.networkBinding)
        ((s.authorize op.authorization ctx.networkBinding).transfer op.authorization.accountId
          op.payment.recipient sender recipient op.payment.amount ctx.params.paymentFee) :=
      RegistryFrame.of_frame (SameFrame.transfer _ _ hsender hrecipient hself)
        fun _ => AllocationRun.of_eq rfl
    exact ((RegistryFrame.authorize s op.authorization ctx.networkBinding).trans htransfer).trans
      (RegistryFrame.creditTreasury _ _)
  | identityRotate op =>
    obtain ⟨-, rfl⟩ := h
    exact RegistryFrame.of_same rfl rfl rfl
  | systemLock op =>
    obtain ⟨account, haccount, -, -, rfl⟩ := SystemLockDone.moved h
    exact (RegistryFrame.authorize s op.authorization ctx.networkBinding).trans
      (RegistryFrame.putAccount (s := s.authorize op.authorization ctx.networkBinding) haccount _)
  | rootPublication op =>
    obtain ⟨fee, _, _, sender, -, -, hsender, -, hresult⟩ := RootPublicationDone.paid h
    have hpaid := RegistryFrame.paid ctx.networkBinding fee hsender
    rcases hresult with ⟨-, rfl⟩ | ⟨-, budget, account, hfunded⟩
    · exact hpaid
    · exact hpaid.trans (RegistryFrame.fundLease hfunded)
  | revokePublication op =>
    obtain ⟨sender, record, hsender, -, -, -, rfl⟩ := RevokePublicationDone.closed h
    have hclosed := find?_unpublished op.authorization ctx.networkBinding op.revoke.publicationId hsender
    exact ((RegistryFrame.authorize s op.authorization ctx.networkBinding).trans
      (RegistryFrame.unpublish _ _)).trans (RegistryFrame.payFee hclosed _)
  | storageLease op =>
    obtain ⟨sender, _, _, _, budget, account, hsender, -, -, -, -, hfunded⟩ := StorageLeaseDone.funded h
    exact (RegistryFrame.paid ctx.networkBinding _ hsender).trans (RegistryFrame.fundLease hfunded)
  | storageSettlement op =>
    have hframe := SettlementDone.frame h
    exact RegistryFrame.of_same (SettlementDone.accounts h) hframe.names hframe.genesisAllocations

/-! ### An account and its claim -/

/-- What the creation of an account does to names and claims. -/
structure Opens (op : AccountCreateOp) (s s' : CybouState) : Prop where
  fresh : s.hasAccount op.accountId = false
  accounts : ∀ id, s'.hasAccount id = true ↔ id = op.accountId ∨ s.hasAccount id = true
  registered : s'.identities.find op.accountId ≠ none
  names : s'.names = (s.claimFor op.accountId (claimableAllocation s op.authorization.recoveryRoot)).names
  allocations : ∀ key, AllocationRun key [.accountCreate op] s s'

variable {key : IdentityKeyId} {a : GenesisAllocation}

theorem claimableAllocation_none {recoveryRoot : IdentityHybridPublicKey}
    (h : claimableAllocation s recoveryRoot = none)
    (hkey : computeRecoveryKeyId recoveryRoot = some key) (ha : s.genesisAllocations.find? key = some a) :
    a.claimedBy ≠ none := by
  intro hclaim
  simp [claimableAllocation, hkey, ha, hclaim] at h

theorem claimFor_names (h : s'.names = s.names) (id : AccountId)
    (claim : Option (IdentityKeyId × GenesisAllocation)) :
    (s'.claimFor id claim).names = (s.claimFor id claim).names := by
  cases claim with
  | none => exact h
  | some e => simp only [CybouState.claimFor, CybouState.claim, h]

/-- The allocation of the key is claimed, and no other. -/
theorem AllocationRun.claimFor (op : AccountCreateOp)
    (hspent : ∀ key, AllocationRun key [] s s₁) (key : IdentityKeyId) :
    AllocationRun key [.accountCreate op] s
      (s₁.claimFor op.accountId (claimableAllocation s op.authorization.recoveryRoot)) := by
  have hclaimants := claimantsOf_create key op
  cases hclaimable : claimableAllocation s op.authorization.recoveryRoot with
  | none =>
    refine ⟨(hspent key).absent, ?_⟩
    intro a ha
    obtain ⟨a', ha', hlabel, hclaim, hkept⟩ := (hspent key).present a ha
    refine ⟨a', ha', hlabel, ?_, hkept⟩
    rw [hclaim, hclaimants]
    by_cases hkey : computeRecoveryKeyId op.authorization.recoveryRoot = some key
    · -- the allocation of the key was claimed before
      obtain ⟨claimant, hclaimant⟩ := Option.ne_none_iff_exists'.mp
        (claimableAllocation_none hclaimable hkey ha)
      rw [hclaimant]
      rfl
    · rw [if_neg hkey, Option.or_none]
      cases a.claimedBy <;> rfl
  | some e =>
    obtain ⟨key', a⟩ := e
    obtain ⟨hkey', ha, hunclaimed⟩ := claimableAllocation_some hclaimable
    have hother : key ≠ key' → (s₁.claimFor op.accountId (some (key', a))).genesisAllocations.find? key =
        s₁.genesisAllocations.find? key := fun hne => OrdMap.find?_set_of_ne _ _ hne
    by_cases hkey : key = key'
    · subst hkey
      refine ⟨fun hnone => ?_, ?_⟩
      · cases ha.symm.trans hnone
      · intro a' ha'
        cases ha.symm.trans ha'
        refine ⟨{ a with claimedBy := some op.accountId }, OrdMap.find?_set_self .., rfl, ?_,
          fun hclaimed => absurd hunclaimed hclaimed⟩
        rw [hunclaimed, hclaimants, if_pos hkey']
        rfl
    · refine ⟨fun hnone => (hother hkey).trans ((hspent key).absent hnone), ?_⟩
      intro a' ha'
      obtain ⟨a'', ha'', hlabel, hclaim, hkept⟩ := (hspent key).present a' ha'
      refine ⟨a'', (hother hkey).trans ha'', hlabel, ?_, hkept⟩
      have hne : ¬computeRecoveryKeyId op.authorization.recoveryRoot = some key := by
        intro heq
        exact hkey (Option.some.inj (heq.symm.trans hkey'))
      rw [hclaim, hclaimants, if_neg hne, Option.or_none]
      cases a'.claimedBy <;> rfl

variable {op : AccountCreateOp} {networkBinding : Hash256} {blockHeight : UInt64}
  {params : CybouProtocolParameters}

theorem AccountCreateDone.opens
    (h : AccountCreateDone op networkBinding blockHeight params s s') : Opens op s s' := by
  obtain ⟨-, -, hidentities, haccounts⟩ := h.keeps
  obtain ⟨-, record, hset⟩ := accounts_register h.registered
  have hspend := SameFrame.spendTreasury (s.registerIdentity op networkBinding blockHeight params)
    (onboardingBonusFor params (claimableAllocation s op.authorization.recoveryRoot))
  have hspent : ∀ key, AllocationRun key [] s
      ((s.registerIdentity op networkBinding blockHeight params).spendTreasury
        (onboardingBonusFor params (claimableAllocation s op.authorization.recoveryRoot))) := by
    intro key
    have hregistered : AllocationRun key [] s (s.registerIdentity op networkBinding blockHeight params) :=
      .of_eq rfl
    exact hregistered.trans (AllocationRun.spendTreasury key _ _)
  have hresult := h.result
  dsimp only at hresult
  refine ⟨OrdMap.contains_eq_false_iff.mpr h.fresh, haccounts, ?_, ?_, ?_⟩
  · rw [hidentities, IdentityRegistry.find, hset, OrdMap.find?_set_self]
    exact Option.some_ne_none _
  · have hnames : ((s.registerIdentity op networkBinding blockHeight params).spendTreasury
        (onboardingBonusFor params (claimableAllocation s op.authorization.recoveryRoot))).names = s.names :=
      hspend.names
    rw [hresult]
    exact claimFor_names hnames op.accountId (claimableAllocation s op.authorization.recoveryRoot)
  · intro key
    have hclaimed := AllocationRun.claimFor op hspent key
    rw [hresult]
    exact hclaimed.append (AllocationRun.of_eq rfl)

/-! ### Aligned names -/

/-- Names, reverse names, labels, claims and pending commits fit together. -/
structure NamesAligned (s : CybouState) : Prop where
  inverse : ∀ label id, s.names.names.find? label = some id ↔ s.names.accountNames.find? id = some label
  owners : ∀ label id, s.names.names.find? label = some id → s.hasAccount id = true
  committers : ∀ commitment r, s.names.pendingCommits.find? commitment = some r →
    s.hasAccount r.accountId = true
  commits : (s.names.pendingCommits.entries.map (·.2.accountId)).Nodup
  /-- A label is free until its allocation is claimed, and belongs to the claimant. -/
  labels : ∀ key a, s.genesisAllocations.find? key = some a → a.label ≠ [] →
    s.names.names.find? a.label = a.claimedBy
  claimants : ∀ key a id, s.genesisAllocations.find? key = some a → a.claimedBy = some id →
    s.hasAccount id = true ∧ s.identities.find id ≠ none
  distinct : ∀ key key' a a', s.genesisAllocations.find? key = some a →
    s.genesisAllocations.find? key' = some a' → a.label ≠ [] → a.label = a'.label → key = key'

namespace NamesAligned

variable {s s' : CybouState}

variable {operations : List ProtocolOperation} {a' : GenesisAllocation}

theorem before {key : IdentityKeyId}
    (h : AllocationRun key operations s s') (ha' : s'.genesisAllocations.find? key = some a') :
    ∃ a, s.genesisAllocations.find? key = some a ∧ a'.label = a.label ∧
      a'.claimedBy = a.claimedBy.or (claimantsOf key operations).head? ∧ (a.claimedBy ≠ none → a' = a) := by
  cases hfind : s.genesisAllocations.find? key with
  | none => cases (h.absent hfind).symm.trans ha'
  | some a =>
    obtain ⟨a'', ha'', hrest⟩ := h.present a hfind
    cases ha''.symm.trans ha'
    exact ⟨a, rfl, hrest⟩

theorem distinct_of_run (h : NamesAligned s) (hrun : ∀ key, AllocationRun key operations s s') :
    ∀ key key' a a', s'.genesisAllocations.find? key = some a →
      s'.genesisAllocations.find? key' = some a' → a.label ≠ [] → a.label = a'.label → key = key' := by
  intro key key' a a' ha ha' hne heq
  obtain ⟨b, hb, hlabel, -⟩ := before (hrun key) ha
  obtain ⟨b', hb', hlabel', -⟩ := before (hrun key') ha'
  refine h.distinct key key' b b' hb hb' (hlabel ▸ hne) ?_
  rw [← hlabel, ← hlabel', heq]

theorem of_frame (h : NamesAligned s) (hframe : RegistryFrame s s')
    (hidentities : ∀ id, s.identities.find id ≠ none → s'.identities.find id ≠ none) : NamesAligned s' where
  inverse := by
    rw [hframe.names]
    exact h.inverse
  owners := by
    rw [hframe.names, hframe.accounts]
    exact h.owners
  committers := by
    rw [hframe.names, hframe.accounts]
    exact h.committers
  commits := by
    rw [hframe.names]
    exact h.commits
  labels := by
    intro key a' ha' hne
    obtain ⟨a, ha, hlabel, hclaim, -⟩ := before (hframe.allocations key) ha'
    rw [hframe.names, hlabel, h.labels key a ha (hlabel ▸ hne), hclaim]
    cases a.claimedBy <;> rfl
  claimants := by
    intro key a' id ha' hclaimed
    obtain ⟨a, ha, -, hclaim, -⟩ := before (hframe.allocations key) ha'
    have hold : a.claimedBy = some id := by
      rw [← hclaimed, hclaim]
      cases a.claimedBy <;> rfl
    obtain ⟨haccount, hidentity⟩ := h.claimants key a id ha hold
    exact ⟨hframe.accounts ▸ haccount, hidentities id hidentity⟩
  distinct := h.distinct_of_run hframe.allocations

variable {id : AccountId}

theorem unnamed (h : NamesAligned s) (hid : s.hasAccount id = false) :
    s.names.accountNames.find? id = none := by
  cases hname : s.names.accountNames.find? id with
  | none => rfl
  | some label => cases hid.symm.trans (h.owners label id ((h.inverse label id).mpr hname))

theorem bind (h : NamesAligned s) {label : Bytes}
    (hfree : s.names.names.find? label = none) (hunnamed : s.names.accountNames.find? id = none)
    (label' : Bytes) (id' : AccountId) : (s.names.names.set label id).find? label' = some id' ↔
      (s.names.accountNames.set id label).find? id' = some label' := by
  by_cases hlabel : label' = label
  · subst hlabel
    rw [OrdMap.find?_set_self]
    constructor
    · intro heq
      cases heq
      exact OrdMap.find?_set_self ..
    · intro hname
      by_cases hid : id' = id
      · rw [hid]
      · rw [OrdMap.find?_set_of_ne _ _ hid, ← h.inverse, hfree] at hname
        cases hname
  · rw [OrdMap.find?_set_of_ne _ _ hlabel]
    by_cases hid : id' = id
    · subst hid
      rw [OrdMap.find?_set_self, h.inverse, hunnamed]
      constructor
      · exact nofun
      · intro heq
        exact absurd (Option.some.inj heq).symm hlabel
    · rw [OrdMap.find?_set_of_ne _ _ hid]
      exact h.inverse label' id'

variable {op : AccountCreateOp}

theorem names_opens (h : NamesAligned s) (hopens : Opens op s s') :
    (s'.names = s.names ∧ ∀ key a, claimableAllocation s op.authorization.recoveryRoot = some (key, a) →
      a.label = []) ∨
    ∃ key a, claimableAllocation s op.authorization.recoveryRoot = some (key, a) ∧ a.label ≠ [] ∧
      s.names.names.find? a.label = none ∧ s'.names = { s.names with
        names := s.names.names.set a.label op.accountId
        accountNames := s.names.accountNames.set op.accountId a.label } := by
  rw [hopens.names]
  cases hclaimable : claimableAllocation s op.authorization.recoveryRoot with
  | none => exact .inl ⟨rfl, fun _ => nofun⟩
  | some e =>
    obtain ⟨key, a⟩ := e
    obtain ⟨-, ha, hunclaimed⟩ := claimableAllocation_some hclaimable
    by_cases hlabel : a.label = []
    · refine .inl ⟨by simp [CybouState.claimFor, CybouState.claim, hlabel], ?_⟩
      intro key' a' heq
      cases heq
      exact hlabel
    · have hfree := (h.labels key a ha hlabel).trans hunclaimed
      refine .inr ⟨key, a, rfl, hlabel, hfree, ?_⟩
      rw [CybouState.claimFor, CybouState.claim, OrdMap.emplace_of_none hfree,
        OrdMap.emplace_of_none (h.unnamed hopens.fresh)]
      simp [hlabel]

theorem claimedBy_opens (hopens : Opens op s s') {key : IdentityKeyId}
    (ha' : s'.genesisAllocations.find? key = some a') :
    ∃ a, s.genesisAllocations.find? key = some a ∧ a'.label = a.label ∧
      (a'.claimedBy = a.claimedBy ∨ (a'.claimedBy = some op.accountId ∧
        claimableAllocation s op.authorization.recoveryRoot = some (key, a))) := by
  obtain ⟨a, ha, hlabel, hclaim, -⟩ := before (hopens.allocations key) ha'
  refine ⟨a, ha, hlabel, ?_⟩
  rw [claimantsOf_create] at hclaim
  by_cases hkey : computeRecoveryKeyId op.authorization.recoveryRoot = some key
  swap
  · rw [if_neg hkey, Option.or_none] at hclaim
    exact .inl hclaim
  rw [if_pos hkey] at hclaim
  rcases Option.eq_none_or_eq_some a.claimedBy with hnone | ⟨claimant, hsome⟩
  · refine .inr ⟨by rw [hclaim, hnone, Option.none_or], ?_⟩
    simp [claimableAllocation, hkey, ha, hnone]
  · exact .inl (by rw [hclaim, hsome, Option.some_or])

/-- **A new account**, with the label it claims. -/
theorem opens (h : NamesAligned s) (hopens : Opens op s s')
    (hidentities : ∀ id, s.identities.find id ≠ none → s'.identities.find id ≠ none) : NamesAligned s' := by
  have hgrow : ∀ id, s.hasAccount id = true → s'.hasAccount id = true := fun id hid =>
    (hopens.accounts id).mpr (.inr hid)
  have hown := (hopens.accounts op.accountId).mpr (.inl rfl)
  have hclaimants : ∀ key a id, s'.genesisAllocations.find? key = some a → a.claimedBy = some id →
      s'.hasAccount id = true ∧ s'.identities.find id ≠ none := by
    intro key a' id ha' hclaimed
    obtain ⟨a, ha, -, hsame | ⟨hnew, -⟩⟩ := claimedBy_opens hopens ha'
    · obtain ⟨haccount, hidentity⟩ := h.claimants key a id ha (hsame ▸ hclaimed)
      exact ⟨hgrow id haccount, hidentities id hidentity⟩
    · cases hnew.symm.trans hclaimed
      exact ⟨hown, hopens.registered⟩
  have hunnamed := h.unnamed hopens.fresh
  rcases h.names_opens hopens with ⟨hnames, hunlabelled⟩ | ⟨key, a, hclaimable, hlabel, hfree, hnames⟩
  · refine ⟨?_, ?_, ?_, ?_, ?_, hclaimants, h.distinct_of_run hopens.allocations⟩
    · rw [hnames]
      exact h.inverse
    · rw [hnames]
      exact fun label id hname => hgrow id (h.owners label id hname)
    · rw [hnames]
      exact fun commitment r hr => hgrow _ (h.committers commitment r hr)
    · rw [hnames]
      exact h.commits
    · intro key a' ha' hne
      obtain ⟨a, ha, hsameLabel, hsame | ⟨-, hclaimable⟩⟩ := claimedBy_opens hopens ha'
      · rw [hnames, hsameLabel, hsame]
        exact h.labels key a ha (hsameLabel ▸ hne)
      · exact absurd (hsameLabel.trans (hunlabelled key a hclaimable)) hne
  · obtain ⟨-, ha, hunclaimed⟩ := claimableAllocation_some hclaimable
    refine ⟨?_, ?_, ?_, ?_, ?_, hclaimants, h.distinct_of_run hopens.allocations⟩
    · rw [hnames]
      exact h.bind hfree hunnamed
    · rw [hnames]
      intro label id hname
      by_cases heq : label = a.label
      · rw [heq, OrdMap.find?_set_self] at hname
        cases hname
        exact hown
      · rw [OrdMap.find?_set_of_ne _ _ heq] at hname
        exact hgrow id (h.owners label id hname)
    · rw [hnames]
      exact fun commitment r hr => hgrow _ (h.committers commitment r hr)
    · rw [hnames]
      exact h.commits
    · intro key' b' hb' hne
      obtain ⟨b, hb, hsameLabel, hcases⟩ := claimedBy_opens hopens hb'
      rw [hnames, hsameLabel]
      rcases hcases with hsame | ⟨hnew, hclaimable'⟩
      · have hother : b.label ≠ a.label := by
          intro heq
          have hkey := h.distinct key' key b a hb ha (hsameLabel ▸ hne) heq
          subst hkey
          cases ha.symm.trans hb
          have hrun := before (hopens.allocations key') hb'
          obtain ⟨a₁, ha₁, -, hclaim, -⟩ := hrun
          cases ha.symm.trans ha₁
          rw [claimantsOf_create, if_pos (claimableAllocation_some hclaimable).1, hunclaimed,
            Option.none_or, hsame, hunclaimed] at hclaim
          cases hclaim
        rw [OrdMap.find?_set_of_ne _ _ hother, hsame]
        exact h.labels key' b hb (hsameLabel ▸ hne)
      · cases hclaimable.symm.trans hclaimable'
        rw [OrdMap.find?_set_self, hnew]

variable {networkBinding : Hash256} {blockHeight : UInt64} {params : CybouProtocolParameters}

theorem claimants_kept (h : NamesAligned s) (hallocations : s'.genesisAllocations = s.genesisAllocations)
    (haccounts : s'.hasAccount = s.hasAccount)
    (hidentities : ∀ id, s.identities.find id ≠ none → s'.identities.find id ≠ none) :
    ∀ key a id, s'.genesisAllocations.find? key = some a → a.claimedBy = some id →
      s'.hasAccount id = true ∧ s'.identities.find id ≠ none := by
  intro key a id ha hclaim
  rw [hallocations] at ha
  obtain ⟨haccount, hidentity⟩ := h.claimants key a id ha hclaim
  exact ⟨haccounts ▸ haccount, hidentities id hidentity⟩

/-- **A commit.** -/
theorem nameCommit (h : NamesAligned s) {op : AuthorizedNameCommit}
    (hdone : NameCommitDone op networkBinding blockHeight params s s')
    (hidentities : ∀ id, s.identities.find id ≠ none → s'.identities.find id ≠ none) : NamesAligned s' := by
  have hresult := hdone.result
  refine ⟨?_, ?_, ?_, ?_, ?_, ?_, ?_⟩
  · rw [hresult]
    exact h.inverse
  · rw [hresult]
    exact h.owners
  · intro commitment r hr
    rw [hresult] at hr ⊢
    by_cases hc : commitment = op.commit.commitment
    · rw [hc, OrdMap.find?_set_self] at hr
      cases hr
      exact hdone.hasAccount
    · rw [OrdMap.find?_set_of_ne _ _ hc] at hr
      exact h.committers commitment r hr
  · rw [hresult]
    refine ((OrdMap.entries_set_perm hdone.fresh).map _).nodup_iff.mpr (List.nodup_cons.mpr ⟨?_, h.commits⟩)
    intro hmem
    obtain ⟨e, he, heq⟩ := List.mem_map.mp hmem
    exact hdone.uncommitted e.1 e.2 (OrdMap.mem_entries_iff.mp he) heq
  · rw [hresult]
    exact h.labels
  · exact h.claimants_kept (by rw [hresult]; rfl) (by rw [hresult]; rfl) hidentities
  · rw [hresult]
    exact h.distinct

/-- **A reveal.** -/
theorem nameReveal (h : NamesAligned s) {op : AuthorizedNameReveal}
    (hdone : NameRevealDone op networkBinding blockHeight params s s')
    (hidentities : ∀ id, s.identities.find id ≠ none → s'.identities.find id ≠ none) : NamesAligned s' := by
  obtain ⟨commitment, record, -, -, -, -, -, -, hresult⟩ := hdone.revealed
  have hsub : (s.names.pendingCommits.erase commitment).entries.Sublist s.names.pendingCommits.entries :=
    List.filter_sublist
  refine ⟨?_, ?_, ?_, ?_, ?_, ?_, ?_⟩
  · rw [hresult]
    exact h.bind hdone.free hdone.unnamed
  · intro label id hname
    rw [hresult] at hname ⊢
    by_cases hlabel : label = op.reveal.label
    · rw [hlabel, OrdMap.find?_set_self] at hname
      cases hname
      exact hdone.hasAccount
    · rw [OrdMap.find?_set_of_ne _ _ hlabel] at hname
      exact h.owners label id hname
  · intro c r hr
    rw [hresult] at hr ⊢
    exact h.committers c r (OrdMap.mem_entries_iff.mp (hsub.subset (OrdMap.mem_entries_iff.mpr hr)))
  · rw [hresult]
    exact h.commits.sublist (hsub.map _)
  · intro key a ha hne
    rw [hresult] at ha ⊢
    rw [OrdMap.find?_set_of_ne _ _ (hdone.unreserved key a ha)]
    exact h.labels key a ha hne
  · exact h.claimants_kept (by rw [hresult]; rfl) (by rw [hresult]; rfl) hidentities
  · rw [hresult]
    exact h.distinct

/-- **Commits that expire.** -/
theorem expireCommits (h : NamesAligned s) (ctx : BlockContext) : NamesAligned (expireCommits ctx s) := by
  unfold Cybou.expireCommits
  split
  swap
  · exact h
  refine ⟨h.inverse, h.owners, ?_, h.commits.sublist (List.filter_sublist.map _), h.labels, h.claimants,
    h.distinct⟩
  intro commitment r hr
  exact h.committers commitment r
    (OrdMap.mem_entries_iff.mp (List.filter_sublist.subset (OrdMap.mem_entries_iff.mpr hr)))

end NamesAligned

/-! ### One accepted operation -/

theorem claimantsOf_other (h : ∀ op, operation ≠ .accountCreate op)
    (key : IdentityKeyId) : claimantsOf key [operation] = [] := by
  cases operation with
  | accountCreate op => exact absurd rfl (h op)
  | payment | identityRotate | systemLock | nameCommit | nameReveal | rootPublication
  | revokePublication | storageLease | storageSettlement => rfl

theorem AllocationRun.other (h : AllocationRun key [] s s') (hother : ∀ op, operation ≠ .accountCreate op) :
    AllocationRun key [operation] s s' where
  absent := h.absent
  present := by
    rw [claimantsOf_other hother]
    exact h.present

theorem Step.registryFrame
    (h : Step ctx operation s s₁ s') (hkind : operation.isRegistry = false) : RegistryFrame s s' :=
  (h.done.registryFrame hkind).trans (RegistryFrame.recorded h.recorded)

theorem Step.allocations
    (h : Step ctx operation s s₁ s') (key : IdentityKeyId) : AllocationRun key [operation] s s' := by
  have hdone := h.done
  have hrecorded := h.recorded
  cases operation with
  | accountCreate op =>
    cases hrecorded
    exact (AccountCreateDone.opens hdone).allocations key
  | nameCommit op =>
    cases hrecorded
    have hresult := NameCommitDone.result hdone
    refine AllocationRun.other (.of_eq ?_) (fun _ => nofun)
    rw [hresult]
    rfl
  | nameReveal op =>
    cases hrecorded
    obtain ⟨_, _, -, -, -, -, -, -, hresult⟩ := NameRevealDone.revealed hdone
    refine AllocationRun.other (.of_eq ?_) (fun _ => nofun)
    rw [hresult]
    rfl
  | payment | identityRotate | systemLock | rootPublication | revokePublication | storageLease
  | storageSettlement => exact ((h.registryFrame rfl).allocations key).other (fun _ => nofun)

theorem Advances.registered (h : Advances s s') (id : AccountId)
    (hid : s.identities.find id ≠ none) : s'.identities.find id ≠ none := by
  obtain ⟨r, hr⟩ := Option.ne_none_iff_exists'.mp hid
  obtain ⟨r', hr', -⟩ := h.nonces id r hr
  rw [hr']
  exact Option.some_ne_none _

/-- **One accepted operation** keeps the alignment. -/
theorem NamesAligned.step {ctx : BlockContext} {operation : ProtocolOperation} {s s₁ s' : CybouState}
    (h : NamesAligned s) (hstep : Step ctx operation s s₁ s') (hadvances : Advances s s') :
    NamesAligned s' := by
  have hidentities := hadvances.registered
  have hdone := hstep.done
  have hrecorded := hstep.recorded
  cases operation with
  | accountCreate op =>
    cases hrecorded
    exact h.opens (AccountCreateDone.opens hdone) hidentities
  | nameCommit op =>
    cases hrecorded
    exact h.nameCommit hdone hidentities
  | nameReveal op =>
    cases hrecorded
    exact h.nameReveal hdone hidentities
  | payment | identityRotate | systemLock | rootPublication | revokePublication | storageLease
  | storageSettlement => exact h.of_frame (hstep.registryFrame rfl) hidentities

/-! ### The treasury -/

theorem NamesAligned.findCentralAuthorityAllocation (h : NamesAligned s)
    (ha : s.genesisAllocations.find? key = some a) (hlabel : a.label = CENTRAL_AUTHORITY_NAME) :
    findCentralAuthorityAllocation s = some (key, a) := by
  have hmem : (key, a) ∈ s.genesisAllocations.entries.filter
      fun e => decide (e.2.label = CENTRAL_AUTHORITY_NAME) :=
    List.mem_filter.mpr ⟨OrdMap.mem_entries_iff.mpr ha, decide_eq_true hlabel⟩
  have honly : ∀ e ∈ s.genesisAllocations.entries.filter
      fun e => decide (e.2.label = CENTRAL_AUTHORITY_NAME), e = (key, a) := by
    intro e he
    obtain ⟨hentry, hcentral⟩ := List.mem_filter.mp he
    have hfind := OrdMap.mem_entries_iff.mp hentry
    have hsame := of_decide_eq_true hcentral
    have hkey := h.distinct e.1 key e.2 a hfind ha (by rw [hsame]; decide) (hsame.trans hlabel.symm)
    rw [hkey] at hfind
    exact Prod.ext hkey (Option.some.inj (hfind.symm.trans ha))
  have hnodup : (s.genesisAllocations.entries.filter
      fun e => decide (e.2.label = CENTRAL_AUTHORITY_NAME)).Nodup :=
    (List.Pairwise.imp (fun hlt heq => absurd (congrArg Prod.fst heq) hlt.ne)
      s.genesisAllocations.ascending).filter _
  have hsingle := List.perm_singleton.mp ((List.perm_ext_iff_of_nodup hnodup (List.nodup_singleton _)).mpr
    fun e => ⟨fun he => List.mem_singleton.mpr (honly e he), fun he => List.mem_singleton.mp he ▸ hmem⟩)
  unfold Cybou.findCentralAuthorityAllocation
  rw [hsingle]

/-- **The treasury of an aligned state**: the unclaimed allocation, or the account
    of its claimant. -/
theorem NamesAligned.centralAuthorityFeeBalance (h : NamesAligned s)
    (ha : s.genesisAllocations.find? key = some a) (hlabel : a.label = CENTRAL_AUTHORITY_NAME) :
    centralAuthorityFeeBalance s = some ((a.claimedBy.map .account).getD (.allocation key)) := by
  unfold Cybou.centralAuthorityFeeBalance
  rw [h.findCentralAuthorityAllocation ha hlabel]
  have hname := h.labels key a ha (by rw [hlabel]; decide)
  rcases Option.eq_none_or_eq_some a.claimedBy with hclaim | ⟨id, hclaim⟩
  · simp only [hclaim, Option.map_none, Option.getD_none]
  · obtain ⟨haccount, hidentity⟩ := h.claimants key a id ha hclaim
    have hreverse := (h.inverse a.label id).mp (hname.trans hclaim)
    have hfound : ¬(s.hasAccount id = false ∨ s.identities.find id = none) := by
      simp [haccount, hidentity]
    have hnamed : ¬(s.names.names.find? a.label ≠ some id ∨
        s.names.accountNames.find? id ≠ some a.label) := by
      simp [hname, hclaim, hreverse]
    simp only [hclaim, if_neg hfound, if_neg hnamed, Option.map_some, Option.getD_some]

theorem totalCybou_claimed
    (ha : s.genesisAllocations.find? key = some a) (hclaim : a.claimedBy ≠ none) (amount : UInt64) :
    totalCybou { s with genesisAllocations := s.genesisAllocations.set key { a with balance := amount } } =
      totalCybou s := by
  have hvalue : ∀ b : GenesisAllocation, b.claimedBy = a.claimedBy → b.value = 0 := by
    intro b hb
    rw [GenesisAllocation.value, if_pos]
    rw [hb]
    exact Option.isSome_iff_ne_none.mpr hclaim
  have hsum := OrdMap.sum_set_of_some (v := { a with balance := amount })
    (f := fun _ a => GenesisAllocation.value a) ha
  rw [hvalue a rfl, hvalue { a with balance := amount } rfl] at hsum
  rw [← UInt64.toNat_inj, toNat_totalCybou, toNat_totalCybou]
  simp only [exactTotal]
  rw [show (s.genesisAllocations.set key { a with balance := amount }).sum (fun _ a => a.value) =
    s.genesisAllocations.sum fun _ a => a.value from by omega]

/-! ### Runs from genesis -/

structure ValidGenesis (s : CybouState) : Prop where
  valid : validateCybouState s = .none
  unopened : s.accounts = ∅

namespace ValidGenesis

variable {s : CybouState}

theorem hasAccount (h : ValidGenesis s) (id : AccountId) : s.hasAccount id = false := by
  rw [CybouState.hasAccount, h.unopened]
  rfl

theorem unclaimed (h : ValidGenesis s) {key : IdentityKeyId} {a : GenesisAllocation}
    (ha : s.genesisAllocations.find? key = some a) : a.claimedBy = none := by
  have hvalid := validateCybouState_eq_none.mp h.valid
  rcases Option.eq_none_or_eq_some a.claimedBy with hclaim | ⟨id, hclaim⟩
  · exact hclaim
  · cases (h.hasAccount id).symm.trans ((hvalid.allocation key a ha).2 id hclaim)

theorem unnamed (h : ValidGenesis s) (label : Bytes) : s.names.names.find? label = none := by
  have hvalid := validateCybouState_eq_none.mp h.valid
  cases hname : s.names.names.find? label with
  | none => rfl
  | some id => cases (h.hasAccount id).symm.trans (hvalid.name label id hname).2.2

/-- **A genesis state is aligned.** -/
theorem namesAligned (h : ValidGenesis s) : NamesAligned s := by
  have hvalid := validateCybouState_eq_none.mp h.valid
  have hnames : s.names.names = ∅ := OrdMap.ext_find? h.unnamed
  have hreverse : s.names.accountNames = ∅ := by
    have hcount := hvalid.nameCount
    rw [hnames] at hcount
    exact OrdMap.ext_entries (List.length_eq_zero_iff.mp hcount.symm)
  refine ⟨?_, ?_, ?_, hvalid.commitAccounts, ?_, ?_, ?_⟩
  · rw [hnames, hreverse]
    exact fun label id => ⟨nofun, nofun⟩
  · intro label id hname
    exact (hvalid.name label id hname).2.2
  · intro commitment r hr
    exact (hvalid.commit commitment r hr).2
  · intro key a ha hlabel
    rw [h.unnamed, h.unclaimed ha]
  · intro key a id ha hclaim
    cases (h.unclaimed ha).symm.trans hclaim
  · intro key key' a a' ha ha' hlabel heq
    exact congrArg Prod.fst (eq_of_label hvalid.allocationLabels ha' ha (heq ▸ hlabel) heq)

theorem supplyKept (h : ValidGenesis s) : SupplyKept (exactTotal s) s :=
  ⟨rfl, (validateCybouState_eq_none.mp h.valid).fundsCovered⟩

theorem total (h : ValidGenesis s) : exactTotal s < 2 ^ 64 - 1 :=
  (validateCybouState_eq_none.mp h.valid).total

end ValidGenesis

/-- **A run** keeps the alignment, and does to the allocations what its account
    creations say. -/
theorem Trace.aligned {operations : List ProtocolOperation} {total : Nat}
    (htotal : total < 2 ^ 64 - 1) (h : Trace s operations s') (hkept : SupplyKept total s)
    (haligned : NamesAligned s) :
    SupplyKept total s' ∧ NamesAligned s' ∧ ∀ key, AllocationRun key operations s s' := by
  induction h with
  | refl s => exact ⟨hkept, haligned, fun key => AllocationRun.refl key s⟩
  | @operation ctx operation s s₁ s₂ rest haccepts _ ih =>
    obtain ⟨hkept₁, -, -, hadvances⟩ := haccepts.spends htotal hkept
    obtain ⟨_, hstep⟩ := haccepts.step (hkept.total_eq ▸ htotal) hkept.funds
    obtain ⟨hkept₂, haligned₂, hruns⟩ := ih hkept₁ (haligned.step hstep hadvances)
    exact ⟨hkept₂, haligned₂, fun key => (hstep.allocations key).append (hruns key)⟩
  | @block s s₂ rest ctx _ ih =>
    obtain ⟨hkept₂, haligned₂, hruns⟩ := ih (hkept.expireCommits ctx) (haligned.expireCommits ctx)
    refine ⟨hkept₂, haligned₂, fun key => ?_⟩
    have hexpired : AllocationRun key [] s (expireCommits ctx s) := by
      refine .of_eq ?_
      unfold expireCommits
      split <;> rfl
    exact hexpired.append (hruns key)

theorem AccountCreateDone.balance (h : AccountCreateDone op networkBinding blockHeight params s s') :
    ∃ account, s'.accounts.find? op.accountId = some account ∧
      account.balance = claimedAmount (claimableAllocation s op.authorization.recoveryRoot) := by
  have hresult := h.result
  dsimp only at hresult
  rw [hresult]
  exact ⟨_, OrdMap.find?_set_self .., rfl⟩

/-- **Genesis claims and the treasury.**  In every state reached from genesis the
    treasury has a balance to resolve to, and an allocation belongs to the first
    account created with its recovery key.  Nothing afterwards changes a claimed
    allocation, takes its amount for a balance, or counts it. -/
theorem genesis_claims {genesis s : CybouState} {operations : List ProtocolOperation}
    (hgenesis : ValidGenesis genesis) (hcentral : findCentralAuthorityAllocation genesis ≠ none)
    (h : Trace genesis operations s) :
    centralAuthorityFeeBalance s ≠ none ∧
    (∀ key a, genesis.genesisAllocations.find? key = some a → ∃ a', s.genesisAllocations.find? key = some a' ∧
      a'.label = a.label ∧ a'.claimedBy = (claimantsOf key operations).head?) ∧
    ∀ key a id, s.genesisAllocations.find? key = some a → a.claimedBy = some id →
      (∀ amount, totalCybou { s with
        genesisAllocations := s.genesisAllocations.set key { a with balance := amount } } = totalCybou s) ∧
      centralAuthorityFeeBalance s ≠ some (.allocation key) ∧
      (∀ ctx op s', Accepts ctx (.accountCreate op) s s' →
        computeRecoveryKeyId op.authorization.recoveryRoot = some key →
          ∃ account, s'.accounts.find? op.accountId = some account ∧ account.balance = 0) ∧
      ∀ later s', Trace s later s' → s'.genesisAllocations.find? key = some a := by
  obtain ⟨hkept, haligned, hruns⟩ := h.aligned hgenesis.total hgenesis.supplyKept hgenesis.namesAligned
  refine ⟨?_, ?_, ?_⟩
  · obtain ⟨⟨key, a⟩, hfind⟩ := Option.ne_none_iff_exists'.mp hcentral
    obtain ⟨ha, hlabel⟩ := find?_of_findCentralAuthorityAllocation hfind
    obtain ⟨a', ha', hlabel', -⟩ := (hruns key).present a ha
    rw [haligned.centralAuthorityFeeBalance ha' (hlabel'.trans hlabel)]
    exact Option.some_ne_none _
  · intro key a ha
    obtain ⟨a', ha', hlabel, hclaim, -⟩ := (hruns key).present a ha
    rw [hgenesis.unclaimed ha, Option.none_or] at hclaim
    exact ⟨a', ha', hlabel, hclaim⟩
  · intro key a id ha hclaim
    have hclaimed : a.claimedBy ≠ none := by
      rw [hclaim]
      exact Option.some_ne_none _
    refine ⟨totalCybou_claimed ha hclaimed, ?_, ?_, ?_⟩
    · intro href
      obtain ⟨a', ha', hunclaimed⟩ := centralAuthorityFeeBalance_live href
      cases ha.symm.trans ha'
      exact hclaimed hunclaimed
    · intro ctx op s' haccepts hkey
      obtain ⟨s₁, hdone, hrecorded, -⟩ := haccepts.step (hkept.total_eq ▸ hgenesis.total) hkept.funds
      cases hrecorded
      obtain ⟨account, haccount, hbalance⟩ := AccountCreateDone.balance hdone
      have hnone : claimableAllocation s op.authorization.recoveryRoot = none := by
        simp [claimableAllocation, hkey, ha, hclaim]
      exact ⟨account, haccount, by rw [hbalance, hnone]; rfl⟩
    · intro later s' hlater
      obtain ⟨-, -, hlaterRuns⟩ := hlater.aligned hgenesis.total hkept haligned
      obtain ⟨a', ha', -, -, hsame⟩ := (hlaterRuns key).present a ha
      rw [ha', hsame hclaimed]

end

section Sample

attribute [local instance] Crypto.sample

def treasuryGenesis : CybouState :=
  { accounts := ∅
    identities := { accounts := ∅, recoveryIndex := ∅, wellFormed := RegistryMaps.wellFormed_empty }
    names := {}
    genesisAllocations := (∅ : OrdMap _ _).set (sampleKeyId 3)
      { balance := 100, label := CENTRAL_AUTHORITY_NAME, claimedBy := none }
    publications := ∅
    settlement := {}
    leases := ∅ }

theorem validGenesis_treasuryGenesis : ValidGenesis treasuryGenesis := ⟨by decide, rfl⟩

/-- `sampleContext`, without work for new accounts. -/
def openingContext : BlockContext :=
  { sampleContext with params := { devProtocolParameters with accountCreationWorkBits := 0 } }

theorem length_sampleKemPackage : (0x7a :: 0x64 :: List.replicate 1216 (1 : UInt8)).length = 1218 :=
  congrArg (· + 2) List.length_replicate

def sampleKemPackage : IdentityKemPackage := ⟨0x7a :: 0x64 :: List.replicate 1216 1, length_sampleKemPackage⟩

def sampleCreate : AccountCreateOp :=
  let authorization : IdentityAuthorization :=
    { recoveryRoot := sampleKey .recoveryRoot 3, authorizationKey := sampleKey .authorization 4 }
  let commitment := do
    let packageId ← computeIdentityKemPackageCommitment (sampleId 200) (sampleId 3) 0 sampleKemPackage
    computeAccountCreateAuthorizationCommitment authorization packageId
  { accountId := sampleId 3
    authorization
    kemPackage := sampleKemPackage
    work :=
      { networkBinding := sampleId 200, accountId := sampleId 3
        authorizationCommitment := commitment.getD Hash256.ZERO, workEpoch := 0, nonce := 0 }
    recoveryPop := { ed25519 := FixedBytes.leading 63 1, mlDsa := List.replicate 3309 1 }
    authorizationPop := { ed25519 := FixedBytes.leading 63 1, mlDsa := List.replicate 2420 1 } }

theorem sampleCreate_evaluated :
    acceptsNow openingContext (.accountCreate sampleCreate) treasuryGenesis = true ∧
      computeRecoveryKeyId sampleCreate.authorization.recoveryRoot = some (sampleKeyId 3) := by
  decide +kernel

theorem accepts_sampleCreate : ∃ s, Accepts openingContext (.accountCreate sampleCreate) treasuryGenesis s :=
  exists_accepts sampleCreate_evaluated.1

/-- Account 3 claims the treasury. -/
theorem genesis_claims_sampleCreate : ∃ s a,
    Trace treasuryGenesis [.accountCreate sampleCreate] s ∧ centralAuthorityFeeBalance s ≠ none ∧
      s.genesisAllocations.find? (sampleKeyId 3) = some a ∧ a.claimedBy = some (sampleId 3) := by
  obtain ⟨s, hs⟩ := accepts_sampleCreate
  have htrace : Trace treasuryGenesis [.accountCreate sampleCreate] s := .operation hs (.refl s)
  obtain ⟨htreasury, hclaims, -⟩ := genesis_claims validGenesis_treasuryGenesis (by decide) htrace
  obtain ⟨a, ha, -, hclaim⟩ := hclaims (sampleKeyId 3) _ (OrdMap.find?_set_self ..)
  rw [claimantsOf_create, if_pos sampleCreate_evaluated.2] at hclaim
  exact ⟨s, a, htrace, htreasury, ha, hclaim⟩

end Sample

end Cybou
