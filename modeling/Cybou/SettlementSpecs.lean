import Cybou.LeaseSpecs
import Cybou.Settlement

/-! # What a settlement does

`PAY` moves value from leases to providers and payers one entry and one term at
a time; each move keeps the total and the bounds that make the next one safe
(`PayProgress`), so no amount wraps whatever the settlement asks for.  All
three kinds only ever add to the record a term keeps of its assignments
(`TermsGrow`).
-/

namespace Cybou

open Library Proc

/-! ### Funds of a term -/

/-- What a term has paid and refunded is covered by what funded it. -/
structure TermFunds (term : StorageFundedTerm) : Prop where
  onboarding : term.paidOnboarding.toNat + term.refundedOnboarding.toNat ≤
    term.initialOnboarding.toNat
  locked : term.paidLocked.toNat + term.refundedLocked.toNat ≤ term.initialLocked.toNat
  total : term.initialOnboarding.toNat + term.initialLocked.toNat < 2 ^ 64

theorem termFunds_of_termValid {hasAccount : AccountId → Bool}
    {keyEpoch : AccountId → Option UInt64} {nextPeriod : UInt64} {lease : StorageLeaseRecord}
    {term : StorageFundedTerm} (h : termValid hasAccount keyEpoch nextPeriod lease term = true) :
    TermFunds term := by
  obtain ⟨budget, -, hfacts⟩ := termValid_iff.mp h
  have hfunds := hfacts.accounts
  simp only [termAccountsValid, Bool.and_eq_true, decide_eq_true_eq] at hfunds
  obtain ⟨⟨⟨⟨⟨⟨hpaidO, hpaidL⟩, hrefO⟩, hrefL⟩, -⟩, -⟩, -⟩ := hfunds
  rw [UInt64.le_iff_toNat_le, UInt64.toNat_sub_of_le _ _ hpaidO] at hrefO
  rw [UInt64.le_iff_toNat_le, UInt64.toNat_sub_of_le _ _ hpaidL] at hrefL
  rw [UInt64.le_iff_toNat_le] at hpaidO hpaidL
  refine ⟨by omega, by omega, ?_⟩
  rw [hfacts.total]
  exact budget.total.toNat_lt

/-- `term'` continues the assignment record of `term`. -/
structure TermGrows (term term' : StorageFundedTerm) : Prop where
  fundingOperationId : term'.fundingOperationId = term.fundingOperationId
  endPeriod : term'.endPeriod = term.endPeriod
  nextAssignmentEpoch : term.nextAssignmentEpoch ≤ term'.nextAssignmentEpoch
  declarations : ∀ d ∈ term.declarations, d ∈ term'.declarations
  assignments : ∀ a ∈ term.assignments.getLast?, ∃ a' ∈ term'.assignments.getLast?,
    a.epoch ≤ a'.epoch

namespace TermGrows

theorem refl (term : StorageFundedTerm) : TermGrows term term :=
  ⟨rfl, rfl, UInt64.le_refl _, fun _ h => h, fun a h => ⟨a, h, UInt64.le_refl _⟩⟩

theorem trans {t₁ t₂ t₃ : StorageFundedTerm} (h : TermGrows t₁ t₂) (h' : TermGrows t₂ t₃) :
    TermGrows t₁ t₃ where
  fundingOperationId := h'.fundingOperationId.trans h.fundingOperationId
  endPeriod := h'.endPeriod.trans h.endPeriod
  nextAssignmentEpoch := UInt64.le_trans h.nextAssignmentEpoch h'.nextAssignmentEpoch
  declarations := fun d hd => h'.declarations d (h.declarations d hd)
  assignments := by
    intro a ha
    obtain ⟨b, hb, hab⟩ := h.assignments a ha
    obtain ⟨c, hc, hbc⟩ := h'.assignments b hb
    exact ⟨c, hc, UInt64.le_trans hab hbc⟩

end TermGrows

section

variable [Crypto]

/-! ### Terms in the state -/

variable {s s' : CybouState} {term : StorageFundedTerm}

theorem mem_fundedTerms :
    term ∈ s.fundedTerms ↔ ∃ id lease, s.leases.find? id = some lease ∧ term ∈ lease.fundedTerms := by
  simp only [CybouState.fundedTerms, List.mem_flatten, List.mem_map, Prod.exists,
    OrdMap.mem_entries_iff]
  constructor
  · rintro ⟨_, ⟨id, lease, hfind, rfl⟩, hterm⟩
    exact ⟨id, lease, hfind, hterm⟩
  · rintro ⟨id, lease, hfind, hterm⟩
    exact ⟨_, ⟨id, lease, hfind, rfl⟩, hterm⟩

variable {target : LocatedTerm}

theorem located (h : target ∈ s.locatedTerms) :
    s.leases.find? target.publication = some target.lease ∧
      target.lease.fundedTerms[target.index]? = some target.term := by
  simp only [CybouState.locatedTerms, List.mem_flatten, List.mem_map, Prod.exists,
    OrdMap.mem_entries_iff] at h
  obtain ⟨_, ⟨id, lease, hfind, rfl⟩, hmem⟩ := h
  obtain ⟨i, hi, rfl⟩ := List.mem_mapIdx.mp hmem
  exact ⟨hfind, List.getElem?_eq_getElem hi⟩

theorem exists_located (h : term ∈ s.fundedTerms) :
    ∃ target ∈ s.locatedTerms, target.term = term := by
  obtain ⟨id, lease, hfind, hterm⟩ := mem_fundedTerms.mp h
  obtain ⟨i, hi, rfl⟩ := List.mem_iff_getElem.mp hterm
  refine ⟨⟨id, lease, i, lease.fundedTerms[i]⟩, ?_, rfl⟩
  simp only [CybouState.locatedTerms, List.mem_flatten, List.mem_map, Prod.exists,
    OrdMap.mem_entries_iff]
  exact ⟨_, ⟨id, lease, hfind, rfl⟩, List.mem_mapIdx.mpr ⟨i, hi, rfl⟩⟩

def TermsGrow (s s' : CybouState) : Prop :=
  ∀ term ∈ s.fundedTerms, ∃ term' ∈ s'.fundedTerms, TermGrows term term'

theorem TermsGrow.of_leases (h : s'.leases = s.leases) : TermsGrow s s' := by
  intro term hterm
  refine ⟨term, ?_, TermGrows.refl term⟩
  rwa [CybouState.fundedTerms, h]

theorem TermsGrow.trans {s₁ s₂ s₃ : CybouState} (h : TermsGrow s₁ s₂) (h' : TermsGrow s₂ s₃) :
    TermsGrow s₁ s₃ := by
  intro t₁ ht₁
  obtain ⟨t₂, ht₂, h₁₂⟩ := h t₁ ht₁
  obtain ⟨t₃, ht₃, h₂₃⟩ := h' t₂ ht₂
  exact ⟨t₃, ht₃, h₁₂.trans h₂₃⟩

variable {lease : StorageLeaseRecord}

theorem TermsGrow.putLease {id : Hash256} {lease' : StorageLeaseRecord} (hfind : s.leases.find? id = some lease)
    (h : ∀ term ∈ lease.fundedTerms, ∃ term' ∈ lease'.fundedTerms, TermGrows term term') :
    TermsGrow s (s.putLease id lease') := by
  intro term hterm
  obtain ⟨id', lease₀, hfind₀, hmem⟩ := mem_fundedTerms.mp hterm
  by_cases hid : id' = id
  · subst hid
    cases hfind.symm.trans hfind₀
    obtain ⟨term', hmem', hgrows⟩ := h term hmem
    exact ⟨term', mem_fundedTerms.mpr ⟨id', lease', by simp [CybouState.putLease], hmem'⟩, hgrows⟩
  · exact ⟨term, mem_fundedTerms.mpr ⟨id', lease₀, by simp [CybouState.putLease, hid, hfind₀], hmem⟩,
      TermGrows.refl term⟩

variable {index : Nat} {term' : StorageFundedTerm}

omit [Crypto] in
theorem setTerm_grows (hindex : lease.fundedTerms[index]? = some term) (h : TermGrows term term') :
    ∀ t ∈ lease.fundedTerms, ∃ t' ∈ (lease.setTerm index term').fundedTerms, TermGrows t t' := by
  intro t ht
  obtain ⟨i, hi, rfl⟩ := List.mem_iff_getElem.mp ht
  by_cases hidx : index = i
  · subst hidx
    rw [List.getElem?_eq_getElem hi, Option.some.injEq] at hindex
    refine ⟨term', List.mem_iff_getElem.mpr ⟨index, ?_, ?_⟩, hindex ▸ h⟩
    · simpa [StorageLeaseRecord.setTerm] using hi
    · simp [StorageLeaseRecord.setTerm]
  · refine ⟨lease.fundedTerms[i], List.mem_iff_getElem.mpr ⟨i, ?_, ?_⟩, TermGrows.refl _⟩
    · simpa [StorageLeaseRecord.setTerm] using hi
    · simp [StorageLeaseRecord.setTerm, hidx]

/-! ### What settlements leave alone -/

omit [Crypto] in
def StorageFundedTerm.outline (term : StorageFundedTerm) : Hash256 × UInt64 :=
  (term.fundingOperationId, term.endPeriod)

/-- Names, allocations and publications, and of every lease its end and the
    outline of its terms. -/
structure SettlementFrame (s s' : CybouState) : Prop where
  names : s'.names = s.names
  genesisAllocations : s'.genesisAllocations = s.genesisAllocations
  publications : s'.publications = s.publications
  leases : ∀ id lease', s'.leases.find? id = some lease' → ∃ lease,
    s.leases.find? id = some lease ∧ lease'.endPeriod = lease.endPeriod ∧
      lease'.fundedTerms.map StorageFundedTerm.outline =
        lease.fundedTerms.map StorageFundedTerm.outline

namespace SettlementFrame

theorem of_leases {s s' : CybouState} (hnames : s'.names = s.names)
    (hallocations : s'.genesisAllocations = s.genesisAllocations)
    (hpublications : s'.publications = s.publications) (hleases : s'.leases = s.leases) :
    SettlementFrame s s' where
  names := hnames
  genesisAllocations := hallocations
  publications := hpublications
  leases := fun _ lease' h => ⟨lease', hleases ▸ h, rfl, rfl⟩

theorem trans {s₁ s₂ s₃ : CybouState} (h : SettlementFrame s₁ s₂) (h' : SettlementFrame s₂ s₃) :
    SettlementFrame s₁ s₃ where
  names := h'.names.trans h.names
  genesisAllocations := h'.genesisAllocations.trans h.genesisAllocations
  publications := h'.publications.trans h.publications
  leases := by
    intro id lease₃ hlease₃
    obtain ⟨lease₂, hlease₂, hend₂, hterms₂⟩ := h'.leases id lease₃ hlease₃
    obtain ⟨lease₁, hlease₁, hend₁, hterms₁⟩ := h.leases id lease₂ hlease₂
    exact ⟨lease₁, hlease₁, hend₂.trans hend₁, hterms₂.trans hterms₁⟩

theorem putTerm {s : CybouState} {publication : Hash256} {lease lease' : StorageLeaseRecord}
    {index : Nat} {term term' : StorageFundedTerm}
    (hlease : s.leases.find? publication = some lease)
    (hindex : lease.fundedTerms[index]? = some term) (hgrows : TermGrows term term')
    (hend : lease'.endPeriod = lease.endPeriod)
    (hterms : lease'.fundedTerms = lease.fundedTerms.set index term') :
    SettlementFrame s (s.putLease publication lease') where
  names := rfl
  genesisAllocations := rfl
  publications := rfl
  leases := by
    intro id l hl
    by_cases hid : id = publication
    · subst hid
      rw [CybouState.putLease, OrdMap.find?_set_self] at hl
      cases hl
      refine ⟨lease, hlease, hend, ?_⟩
      obtain ⟨hlt, rfl⟩ := List.getElem?_eq_some_iff.mp hindex
      have houtline : term'.outline = lease.fundedTerms[index].outline :=
        Prod.ext hgrows.fundingOperationId hgrows.endPeriod
      rw [hterms, List.map_set, houtline]
      refine List.ext_getElem (by simp) fun i h₁ h₂ => ?_
      simp only [List.getElem_set, List.getElem_map]
      split
      · next hi => simp only [hi]
      · rfl
    · rw [CybouState.putLease, OrdMap.find?_set_of_ne _ _ hid] at hl
      exact ⟨l, hl, rfl, rfl⟩

end SettlementFrame

/-! ### Moves of value -/

/-- The payers of all leases have accounts, and all terms are covered. -/
structure FundsCovered (s : CybouState) : Prop where
  payer : ∀ id lease, s.leases.find? id = some lease → s.hasAccount lease.payer = true
  terms : ∀ id lease, s.leases.find? id = some lease → ∀ term ∈ lease.fundedTerms, TermFunds term

theorem StateInvariant.fundsCovered (h : StateInvariant s) : FundsCovered s := by
  constructor
  · intro id lease hlease
    exact (leaseValid_iff.mp (h.lease id lease hlease)).payer
  · intro id lease hlease term hterm
    exact termFunds_of_termValid ((leaseValid_iff.mp (h.lease id lease hlease)).terms term hterm)

/-- What a run of value moves keeps. -/
structure PayProgress (s s' : CybouState) : Prop where
  funds : FundsCovered s'
  total : exactTotal s' = exactTotal s
  accounts : s'.hasAccount = s.hasAccount
  identities : s'.identities = s.identities
  terms : TermsGrow s s'
  frame : SettlementFrame s s'

namespace PayProgress

theorem refl {s : CybouState} (h : FundsCovered s) : PayProgress s s :=
  ⟨h, rfl, rfl, rfl, TermsGrow.of_leases rfl, .of_leases rfl rfl rfl rfl⟩

theorem trans {s₁ s₂ s₃ : CybouState} (h : PayProgress s₁ s₂) (h' : PayProgress s₂ s₃) :
    PayProgress s₁ s₃ where
  funds := h'.funds
  total := h'.total.trans h.total
  accounts := h'.accounts.trans h.accounts
  identities := h'.identities.trans h.identities
  terms := h.terms.trans h'.terms
  frame := h.frame.trans h'.frame

/-- One move: an account and a lease change together. -/
theorem move {s : CybouState} {accountId : AccountId} {account account' : AccountState}
    {publication : Hash256} {lease : StorageLeaseRecord} {index : Nat}
    {term term' : StorageFundedTerm} {escrowOnboarding escrowLocked : UInt64}
    (hfunds : FundsCovered s) (haccount : s.accounts.find? accountId = some account)
    (hlease : s.leases.find? publication = some lease)
    (hindex : lease.fundedTerms[index]? = some term) (hterm : TermFunds term')
    (hgrows : TermGrows term term')
    (hvalue : account'.value + (escrowOnboarding.toNat + escrowLocked.toNat) =
      account.value + lease.value) :
    PayProgress s ((s.putAccount accountId account').putLease publication
      ({ lease with escrowOnboarding, escrowLocked }.setTerm index term')) := by
  have hhas := (SameFrame.putAccount haccount account').accounts
  have hput : SettlementFrame s (s.putAccount accountId account') := .of_leases rfl rfl rfl rfl
  refine ⟨⟨?_, ?_⟩, ?_, hhas, rfl, ?_, hput.trans (.putTerm hlease hindex hgrows rfl rfl)⟩
  · intro id l hl
    simp only [CybouState.putLease, OrdMap.find?_set] at hl
    have hpayer : s.hasAccount l.payer = true := by
      split at hl
      · cases hl
        exact hfunds.payer publication lease hlease
      · exact hfunds.payer id l hl
    exact (congrFun hhas l.payer).trans hpayer
  · intro id l hl t ht
    simp only [CybouState.putLease, OrdMap.find?_set] at hl
    split at hl
    · cases hl
      obtain hold | rfl := List.mem_or_eq_of_mem_set ht
      · exact hfunds.terms publication lease hlease t hold
      · exact hterm
    · exact hfunds.terms id l hl t ht
  · have hput := exactTotal_putAccount haccount account'
    have hset := exactTotal_putLease (s.putAccount accountId account') publication
      ({ lease with escrowOnboarding, escrowLocked }.setTerm index term')
    have hescrow : (s.putAccount accountId account').escrowAt publication = lease.value := by
      simp [CybouState.escrowAt, CybouState.putAccount, hlease]
    simp only [StorageLeaseRecord.setTerm, StorageLeaseRecord.value] at hset hescrow hvalue ⊢
    omega
  · have hterms : ∀ t ∈ lease.fundedTerms, ∃ t' ∈ (StorageLeaseRecord.setTerm
        { lease with escrowOnboarding, escrowLocked } index term').fundedTerms, TermGrows t t' :=
      setTerm_grows hindex hgrows
    exact TermsGrow.putLease (s := s.putAccount accountId account') hlease hterms

end PayProgress

/-! ### Payouts -/

omit [Crypto] in
theorem add_lt_of_le_max_sub {a b : UInt64} (h : b ≤ UINT64_MAX - a) : a.toNat + b.toNat < 2 ^ 64 := by
  have hlt := add_lt_of_not_gt (a := b) (b := a) (UInt64.not_lt.mpr h)
  omega

omit [Crypto] in
theorem TermGrows.paid (term : StorageFundedTerm) (paidOnboarding paidLocked : UInt64)
    (servicePayments : List StorageServicePayment) :
    TermGrows term { term with paidOnboarding, paidLocked, servicePayments } :=
  ⟨rfl, rfl, UInt64.le_refl _, fun _ h => h, fun a h => ⟨a, h, UInt64.le_refl _⟩⟩

omit [Crypto] in
theorem TermGrows.refunded (term : StorageFundedTerm) (refundedOnboarding refundedLocked : UInt64)
    (servicePayments : List StorageServicePayment) :
    TermGrows term { term with refundedOnboarding, refundedLocked, servicePayments } :=
  ⟨rfl, rfl, UInt64.le_refl _, fun _ h => h, fun a h => ⟨a, h, UInt64.le_refl _⟩⟩

omit [Crypto] in
def EntryContext.ledger (context : EntryContext) (entry : StorageSettlementEntry)
    (closedEpochCapacity : UInt64) : List StorageServicePayment :=
  context.before ++
    { slot := entry.slot, storageId := entry.storageId, payoutAccount := entry.payoutAccount
      verifiedUnitSeconds := entry.verifiedUnitSeconds, paid := context.paid + entry.amount
      closedEpochCapacity } :: context.after

omit [Crypto] in
def StorageLeaseRecord.release (lease : StorageLeaseRecord) (onboarding locked : UInt64) :
    StorageLeaseRecord :=
  { lease with
    escrowOnboarding := lease.escrowOnboarding - onboarding
    escrowLocked := lease.escrowLocked - locked }

omit [Crypto] in
def AccountState.payOut (a : AccountState) (onboarding locked : UInt64) : AccountState :=
  { a with
    balance := a.balance + locked
    systemBalance := a.systemBalance + onboarding
    onboardingSystemBalance := a.onboardingSystemBalance + onboarding }

omit [Crypto] in
def StorageFundedTerm.payOut (term : StorageFundedTerm) (onboarding locked : UInt64)
    (servicePayments : List StorageServicePayment) : StorageFundedTerm :=
  { term with
    paidOnboarding := term.paidOnboarding + onboarding
    paidLocked := term.paidLocked + locked
    servicePayments }

structure EntryPaid (entry : StorageSettlementEntry) (target : LocatedTerm)
    (context : EntryContext) (onboarding locked closedEpochCapacity : UInt64)
    (s s' : CybouState) : Prop where
  provider : s.accounts.find? entry.payoutAccount = some context.provider
  found : target ∈ s.locatedTerms
  refundedOnboarding : target.term.refundedOnboarding = 0
  refundedLocked : target.term.refundedLocked = 0
  split : onboarding.toNat + locked.toNat = entry.amount.toNat
  openOnboarding : target.term.paidOnboarding.toNat + onboarding.toNat ≤
    target.term.initialOnboarding.toNat
  openLocked : target.term.paidLocked.toNat + locked.toNat ≤ target.term.initialLocked.toNat
  escrowOnboarding : onboarding ≤ target.lease.escrowOnboarding
  escrowLocked : locked ≤ target.lease.escrowLocked
  system : context.provider.systemBalance.toNat + onboarding.toNat < 2 ^ 64
  credit : context.provider.onboardingSystemBalance.toNat + onboarding.toNat < 2 ^ 64
  liquid : context.provider.balance.toNat + locked.toNat < 2 ^ 64
  ledger : context.paid.toNat + entry.amount.toNat < 2 ^ 64
  result : s' = (s.putAccount entry.payoutAccount (context.provider.payOut onboarding locked)).putLease
    target.publication ((target.lease.release onboarding locked).setTerm target.index
      (target.term.payOut onboarding locked (context.ledger entry closedEpochCapacity)))

variable {entry : StorageSettlementEntry} {context : EntryContext}

/-- A payout that passed its checks is refused or moves exactly its amount. -/
theorem settleEntry_paid (hfunds : FundsCovered s) (htarget : target ∈ s.locatedTerms)
    (hprovider : s.accounts.find? entry.payoutAccount = some context.provider)
    (hrefundedO : target.term.refundedOnboarding = 0) (hrefundedL : target.term.refundedLocked = 0)
    (hpaid : context.paid.toNat + entry.amount.toNat < 2 ^ 64) :
    wp (settleEntry entry target context)
      (fun r s' => (∃ e, e ≠ .none ∧ r = .error e) ∨
        r = .ok () ∧ ∃ onboarding locked closedEpochCapacity,
          EntryPaid entry target context onboarding locked closedEpochCapacity s s')
      (fun _ _ => False) s := by
  obtain ⟨hlease, hindex⟩ := located htarget
  obtain ⟨honboarding, hlocked, htotal⟩ := hfunds.terms _ _ hlease _ (List.mem_of_getElem? hindex)
  have hpaidO : target.term.paidOnboarding ≤ target.term.initialOnboarding := by
    rw [UInt64.le_iff_toNat_le]
    omega
  have hopen := UInt64.toNat_sub_of_le _ _ hpaidO
  have hsum : (target.term.initialOnboarding - target.term.paidOnboarding).toNat +
      target.term.initialLocked.toNat < 2 ^ 64 := by omega
  have hopenLocked : target.term.paidLocked ≤
      target.term.initialOnboarding - target.term.paidOnboarding + target.term.initialLocked := by
    rw [UInt64.le_iff_toNat_le, toNat_add_of_lt hsum]
    omega
  unfold settleEntry
  rw [wp_bind, wp_subAmount hpaidO, wp_bind, wp_addAmount hsum, wp_bind, wp_subAmount hopenLocked]
  refine wp_refuse (fun _ => .inl ⟨_, by decide, rfl⟩) fun hamount => ?_
  rw [UInt64.not_lt, UInt64.le_iff_toNat_le, UInt64.toNat_sub_of_le _ _ hopenLocked,
    toNat_add_of_lt hsum] at hamount
  have hmin : min entry.amount (target.term.initialOnboarding - target.term.paidOnboarding) ≤
      entry.amount := by
    rw [UInt64.le_iff_toNat_le, UInt64.toNat_min]
    omega
  rw [wp_bind, wp_subAmount hmin]
  refine wp_refuse (fun _ => .inl ⟨_, by decide, rfl⟩) fun hescrow => ?_
  refine wp_refuse (fun _ => .inl ⟨_, by decide, rfl⟩) fun hbalance => ?_
  simp only [not_or, gt_iff_lt, UInt64.not_lt] at hescrow hbalance
  obtain ⟨hescrowO, hescrowL⟩ := hescrow
  obtain ⟨hsystem, hcredit, hliquid⟩ := hbalance
  have hsplitO := UInt64.toNat_min entry.amount
    (target.term.initialOnboarding - target.term.paidOnboarding)
  have hsplitL := UInt64.toNat_sub_of_le _ _ hmin
  generalize min entry.amount (target.term.initialOnboarding - target.term.paidOnboarding) =
    onboarding at *
  generalize entry.amount - onboarding = locked at *
  have hnewO : target.term.paidOnboarding.toNat + onboarding.toNat ≤
      target.term.initialOnboarding.toNat := by omega
  have hnewL : target.term.paidLocked.toNat + locked.toNat ≤ target.term.initialLocked.toNat := by
    omega
  split
  · exact .inl ⟨_, by decide, rfl⟩
  next capacity _ =>
  rw [wp_bind, wp_addAmount hpaid, wp_bind, wp_addAmount (by omega), wp_bind,
    wp_addAmount (by omega), wp_bind, wp_subAmount hescrowO, wp_bind, wp_subAmount hescrowL, wp_bind,
    wp_addAmount (add_lt_of_le_max_sub hsystem), wp_bind, wp_addAmount (add_lt_of_le_max_sub hcredit),
    wp_bind, wp_addAmount (add_lt_of_le_max_sub hliquid), wp_bind, wp_modify, wp_bind, wp_modify]
  exact .inr ⟨rfl, onboarding, locked, capacity,
    { provider := hprovider
      found := htarget
      refundedOnboarding := hrefundedO
      refundedLocked := hrefundedL
      split := by omega
      openOnboarding := hnewO
      openLocked := hnewL
      escrowOnboarding := hescrowO
      escrowLocked := hescrowL
      system := add_lt_of_le_max_sub hsystem
      credit := add_lt_of_le_max_sub hcredit
      liquid := add_lt_of_le_max_sub hliquid
      ledger := hpaid
      result := rfl }⟩

theorem EntryPaid.moved {onboarding locked closedEpochCapacity : UInt64}
    (h : EntryPaid entry target context onboarding locked closedEpochCapacity s s')
    (hfunds : FundsCovered s) : PayProgress s s' ∧ s'.settlement = s.settlement := by
  obtain ⟨hlease, hindex⟩ := located h.found
  obtain ⟨honboarding, hlocked, htotal⟩ := hfunds.terms _ _ hlease _ (List.mem_of_getElem? hindex)
  have hnewO := h.openOnboarding
  have hnewL := h.openLocked
  rw [h.result]
  refine ⟨PayProgress.move hfunds h.provider hlease hindex ?_ (TermGrows.paid ..) ?_, rfl⟩
  · refine ⟨?_, ?_, htotal⟩
    · simp only [StorageFundedTerm.payOut, h.refundedOnboarding, toNat_add_of_lt
        (show target.term.paidOnboarding.toNat + onboarding.toNat < 2 ^ 64 by omega)]
      exact hnewO
    · simp only [StorageFundedTerm.payOut, h.refundedLocked, toNat_add_of_lt
        (show target.term.paidLocked.toNat + locked.toNat < 2 ^ 64 by omega)]
      exact hnewL
  · have hleO := UInt64.le_iff_toNat_le.mp h.escrowOnboarding
    have hleL := UInt64.le_iff_toNat_le.mp h.escrowLocked
    simp only [AccountState.value, AccountState.payOut, StorageLeaseRecord.value,
      toNat_add_of_lt h.system, toNat_add_of_lt h.liquid,
      UInt64.toNat_sub_of_le _ _ h.escrowOnboarding, UInt64.toNat_sub_of_le _ _ h.escrowLocked]
    omega

def CheckedEntry (s : CybouState) (entry : StorageSettlementEntry) (target : LocatedTerm) :
    Except StorageSettlementError EntryContext → Prop
  | .error e => e ≠ .none
  | .ok context => s.accounts.find? entry.payoutAccount = some context.provider ∧
      target.term.refundedOnboarding = 0 ∧ target.term.refundedLocked = 0

theorem checkEntry_spec (op : StorageSettlement) (params : CybouProtocolParameters) (s : CybouState)
    (entry : StorageSettlementEntry) (target : LocatedTerm) :
    CheckedEntry s entry target (checkEntry op params s entry target) := by
  unfold checkEntry
  dsimp only
  split
  · exact nofun
  next hactive =>
  push Not at hactive
  split
  · exact nofun
  next provider hprovider =>
  split
  · exact nofun
  split
  · exact nofun
  split
  · exact nofun
  split
  · exact nofun
  split
  · exact nofun
  split
  · exact nofun
  · exact nofun
  · exact ⟨hprovider, hactive.2.2.2.1, hactive.2.2.2.2⟩

omit [Crypto] in
theorem payout_add_lt {budget : AssignedStorageBudget} {verified paid due : UInt64}
    (h : computeAssignedStoragePayout budget verified paid = some due) :
    paid.toNat + due.toNat < 2 ^ 64 := by
  unfold computeAssignedStoragePayout at h
  split at h
  · cases h
  dsimp only at h
  generalize UInt64.ofNat (budget.perReplica.toNat * verified.toNat /
    budget.contractedUnitSeconds.toNat) = entitlement at h
  split at h
  · cases h
  · next hle =>
    cases h
    rw [UInt64.not_lt] at hle
    rw [UInt64.toNat_sub_of_le _ _ hle]
    have := entitlement.toNat_lt
    rw [UInt64.le_iff_toNat_le] at hle
    omega

omit [Crypto] in
theorem checkDue_spec (entry : StorageSettlementEntry) (target : LocatedTerm)
    (context : EntryContext) (total : UInt64) :
    (∃ e, e ≠ .none ∧ checkDue entry target context total = .error e) ∨
      checkDue entry target context total = .ok () ∧
        context.paid.toNat + entry.amount.toNat < 2 ^ 64 := by
  unfold checkDue
  dsimp only
  split
  · exact .inl ⟨_, by decide, rfl⟩
  next due hdue =>
  split
  · exact .inl ⟨_, by decide, rfl⟩
  next hamount =>
  split
  · exact .inl ⟨_, by decide, rfl⟩
  split
  · exact .inl ⟨_, by decide, rfl⟩
  refine .inr ⟨rfl, ?_⟩
  rw [not_not.mp hamount]
  exact payout_add_lt hdue

structure PayStep (op : StorageSettlement) (params : CybouProtocolParameters)
    (entry : StorageSettlementEntry) (target : LocatedTerm) (context : EntryContext)
    (onboarding locked closedEpochCapacity : UInt64) (s s' : CybouState) : Prop
    extends EntryPaid entry target context onboarding locked closedEpochCapacity s s' where
  checked : checkEntry op params s entry target = .ok context
  due : checkDue entry target context
    (target.term.initialOnboarding + target.term.initialLocked) = .ok ()

/-- One entry of `PAY`: it is refused, or the provider is paid from the term. -/
theorem payEntry_paid (op : StorageSettlement) (params : CybouProtocolParameters)
    (entry : StorageSettlementEntry) (used : List Hash256) (hfunds : FundsCovered s) :
    wp (payEntry op params entry used)
      (fun r s' => (∃ e, e ≠ .none ∧ r = .error e) ∨
        ∃ target context onboarding locked closedEpochCapacity,
          r = .ok (used ++ context.witnesses) ∧
          PayStep op params entry target context onboarding locked closedEpochCapacity s s')
      (fun _ _ => False) s := by
  unfold payEntry
  rw [wp_get_bind]
  split
  · exact wp_pure.mpr (.inl ⟨_, by decide, rfl⟩)
  · exact wp_pure.mpr (.inl ⟨_, by decide, rfl⟩)
  next target hfilter =>
  have htarget : target ∈ s.locatedTerms := by
    refine List.mem_of_mem_filter (p := fun target : LocatedTerm =>
      decide (target.term.fundingOperationId = entry.fundingOperationId)) ?_
    rw [hfilter]
    exact List.mem_singleton_self _
  have hcheck := checkEntry_spec op params s entry target
  split
  · next e he =>
    rw [he] at hcheck
    exact wp_pure.mpr (.inl ⟨e, hcheck, rfl⟩)
  next context hcontext =>
  rw [hcontext] at hcheck
  obtain ⟨hprovider, hrefundedO, hrefundedL⟩ := hcheck
  obtain ⟨hlease, hindex⟩ := located htarget
  have hterm := hfunds.terms _ _ hlease _ (List.mem_of_getElem? hindex)
  rw [wp_bind, wp_addAmount hterm.total]
  obtain ⟨e, he, hdue⟩ | ⟨hdue, hpaid⟩ := checkDue_spec entry target context
    (target.term.initialOnboarding + target.term.initialLocked)
  · rw [hdue]
    exact wp_pure.mpr (.inl ⟨e, he, rfl⟩)
  rw [hdue, wp_bind]
  refine wp_mono (settleEntry_paid hfunds htarget hprovider hrefundedO hrefundedL hpaid) ?_
    fun _ _ h => h
  rintro r s' (⟨e, he, rfl⟩ | ⟨rfl, onboarding, locked, capacity, hdone⟩)
  · exact .inl ⟨e, he, rfl⟩
  · exact .inr ⟨target, context, onboarding, locked, capacity, rfl, hdone, hcontext, hdue⟩

inductive PaidEntries (op : StorageSettlement) (params : CybouProtocolParameters) :
    CybouState → List StorageSettlementEntry → CybouState → Prop
  | done (s : CybouState) : PaidEntries op params s [] s
  | entry {s s₁ s₂ : CybouState} {entry : StorageSettlementEntry}
      {rest : List StorageSettlementEntry} {target : LocatedTerm} {context : EntryContext}
      {onboarding locked closedEpochCapacity : UInt64}
      (hstep : PayStep op params entry target context onboarding locked closedEpochCapacity s s₁)
      (hrest : PaidEntries op params s₁ rest s₂) : PaidEntries op params s (entry :: rest) s₂

variable {op : StorageSettlement}

variable {params : CybouProtocolParameters}

theorem PaidEntries.moved {entries : List StorageSettlementEntry}
    (h : PaidEntries op params s entries s') (hfunds : FundsCovered s) :
    PayProgress s s' ∧ s'.settlement = s.settlement := by
  induction h with
  | done s => exact ⟨PayProgress.refl hfunds, rfl⟩
  | entry hstep _ ih =>
    obtain ⟨hprogress, hsettlement⟩ := hstep.moved hfunds
    obtain ⟨hrest, hsettlement'⟩ := ih hprogress.funds
    exact ⟨hprogress.trans hrest, hsettlement'.trans hsettlement⟩

theorem payEntries_paid (op : StorageSettlement) (params : CybouProtocolParameters)
    (entries : List StorageSettlementEntry) (used : List Hash256) (hfunds : FundsCovered s) :
    wp (payEntries op params entries used)
      (fun r s' => (∃ e, e ≠ .none ∧ r = .error e) ∨
        (∃ used', r = .ok used') ∧ PaidEntries op params s entries s')
      (fun _ _ => False) s := by
  induction entries generalizing used s with
  | nil => exact .inr ⟨⟨used, rfl⟩, .done s⟩
  | cons entry rest ih =>
    rw [payEntries, wp_bind]
    refine wp_mono (payEntry_paid op params entry used hfunds) ?_ fun _ _ h => h
    rintro r s₁ (⟨e, he, rfl⟩ | ⟨target, context, onboarding, locked, capacity, rfl, hstep⟩)
    · exact .inl ⟨e, he, rfl⟩
    refine wp_mono (ih _ (hstep.moved hfunds).1.funds) ?_ fun _ _ h => h
    rintro r' s₂ (hrefused | ⟨hok, hrest⟩)
    · exact .inl hrefused
    · exact .inr ⟨hok, .entry hstep hrest⟩

/-! ### Refunds -/

omit [Crypto] in
/-- The payer after a refund: only what came from onboarding credit becomes
    onboarding credit again. -/
def AccountState.refund (a : AccountState) (onboarding locked : UInt64) : AccountState :=
  { a with
    systemBalance := a.systemBalance + (onboarding + locked)
    onboardingSystemBalance := a.onboardingSystemBalance + onboarding }

omit [Crypto] in
def StorageFundedTerm.refund (term : StorageFundedTerm)
    (servicePayments : List StorageServicePayment) : StorageFundedTerm :=
  { term with
    refundedOnboarding := term.refundedOnboarding + term.remainingOnboarding
    refundedLocked := term.refundedLocked + term.remainingLocked
    servicePayments }

/-- What is left of a closed term went back to the payer. -/
structure TermRefunded (publication : Hash256) (index : Nat) (lease : StorageLeaseRecord)
    (term : StorageFundedTerm) (payer : AccountState) (servicePayments : List StorageServicePayment)
    (s s' : CybouState) : Prop where
  leaseFound : s.leases.find? publication = some lease
  termFound : lease.fundedTerms[index]? = some term
  payerFound : s.accounts.find? lease.payer = some payer
  closed : term.closed lease.endPeriod s.settlement.nextPeriod = true
  escrowOnboarding : term.remainingOnboarding ≤ lease.escrowOnboarding
  escrowLocked : term.remainingLocked ≤ lease.escrowLocked
  system : payer.systemBalance.toNat +
    (term.remainingOnboarding.toNat + term.remainingLocked.toNat) < 2 ^ 64
  credit : payer.onboardingSystemBalance.toNat + term.remainingOnboarding.toNat < 2 ^ 64
  payments : closeEpochs term s.settlement.nextPeriod lease.endPeriod term.servicePayments =
    some servicePayments
  result : s' = (s.putAccount lease.payer
    (payer.refund term.remainingOnboarding term.remainingLocked)).putLease publication
      ((lease.release term.remainingOnboarding term.remainingLocked).setTerm index
        (term.refund servicePayments))

/-- The loop body that refunds: the term is not there or still open, or it is
    refunded. -/
inductive RefundStep (publication : Hash256) (index : Nat) : CybouState → CybouState → Prop
  | kept {s : CybouState}
      (hopen : ∀ lease term, s.leases.find? publication = some lease →
        lease.fundedTerms[index]? = some term →
          term.closed lease.endPeriod s.settlement.nextPeriod = false) :
      RefundStep publication index s s
  | refunded {s s' : CybouState} {lease : StorageLeaseRecord} {term : StorageFundedTerm}
      {payer : AccountState} {servicePayments : List StorageServicePayment}
      (h : TermRefunded publication index lease term payer servicePayments s s') :
      RefundStep publication index s s'

omit [Crypto] in
/-- What is left of a term is subtracted without wrapping. -/
theorem TermFunds.parts_le (h : TermFunds term) :
    term.paidOnboarding ≤ term.initialOnboarding ∧ term.paidLocked ≤ term.initialLocked ∧
      term.refundedOnboarding ≤ term.initialOnboarding - term.paidOnboarding ∧
      term.refundedLocked ≤ term.initialLocked - term.paidLocked := by
  obtain ⟨honboarding, hlocked, -⟩ := h
  have hpaidO : term.paidOnboarding ≤ term.initialOnboarding := by
    rw [UInt64.le_iff_toNat_le]
    omega
  have hpaidL : term.paidLocked ≤ term.initialLocked := by
    rw [UInt64.le_iff_toNat_le]
    omega
  have hrefundedO : term.refundedOnboarding ≤ term.initialOnboarding - term.paidOnboarding := by
    rw [UInt64.le_iff_toNat_le, UInt64.toNat_sub_of_le _ _ hpaidO]
    omega
  have hrefundedL : term.refundedLocked ≤ term.initialLocked - term.paidLocked := by
    rw [UInt64.le_iff_toNat_le, UInt64.toNat_sub_of_le _ _ hpaidL]
    omega
  exact ⟨hpaidO, hpaidL, hrefundedO, hrefundedL⟩

omit [Crypto] in
theorem TermFunds.remaining (h : TermFunds term) :
    term.paidOnboarding.toNat + term.refundedOnboarding.toNat + term.remainingOnboarding.toNat =
        term.initialOnboarding.toNat ∧
      term.paidLocked.toNat + term.refundedLocked.toNat + term.remainingLocked.toNat =
        term.initialLocked.toNat := by
  obtain ⟨hpaidO, hpaidL, hrefundedO, hrefundedL⟩ := h.parts_le
  obtain ⟨honboarding, hlocked, -⟩ := h
  rw [StorageFundedTerm.remainingOnboarding, StorageFundedTerm.remainingLocked,
    UInt64.toNat_sub_of_le _ _ hrefundedO, UInt64.toNat_sub_of_le _ _ hpaidO,
    UInt64.toNat_sub_of_le _ _ hrefundedL, UInt64.toNat_sub_of_le _ _ hpaidL]
  omega

/-- One term of the refund loop; its subtractions do not wrap. -/
theorem refundTerm_step (publication : Hash256) (index : Nat) (hfunds : FundsCovered s) :
    wp (refundTerm publication index) (fun r s' => r = .none → RefundStep publication index s s')
      (fun _ _ => False) s := by
  unfold refundTerm
  rw [wp_get_bind]
  split
  · next hlease => exact fun _ => .kept (by simp [hlease])
  next lease hlease =>
  split
  · next hnone =>
    refine fun _ => .kept fun lease' term' hlease' hindex' => ?_
    cases hlease.symm.trans hlease'
    cases hnone.symm.trans hindex'
  next term hindex =>
  refine wp_refuse (fun hopen _ => .kept fun lease' term' hlease' hindex' => ?_) fun hclosed => ?_
  · cases hlease.symm.trans hlease'
    cases hindex.symm.trans hindex'
    exact decide_eq_false (UInt64.not_le.mpr hopen)
  have hterm := hfunds.terms _ _ hlease _ (List.mem_of_getElem? hindex)
  have honboarding := hterm.onboarding
  have hlocked := hterm.locked
  obtain ⟨hremainingO, hremainingL⟩ := hterm.remaining
  obtain ⟨payer, hpayer⟩ := OrdMap.contains_iff.mp (hfunds.payer _ _ hlease)
  obtain ⟨hpaidO, hpaidL, hrefundedO, hrefundedL⟩ := hterm.parts_le
  rw [wp_bind, wp_subAmount hpaidO, wp_bind, wp_subAmount hrefundedO, wp_bind, wp_subAmount hpaidL,
    wp_bind, wp_subAmount hrefundedL, wp_bind, wp_accountAt hpayer,
    show term.initialOnboarding - term.paidOnboarding - term.refundedOnboarding =
      term.remainingOnboarding from rfl,
    show term.initialLocked - term.paidLocked - term.refundedLocked = term.remainingLocked from rfl]
  refine wp_refuse (fun _ => nofun) fun hrefund => ?_
  simp only [not_or, gt_iff_lt, UInt64.not_lt] at hrefund
  obtain ⟨hescrowO, hescrowL, hcredit, hsystem, hboth⟩ := hrefund
  have hroom : payer.systemBalance.toNat +
      (term.remainingOnboarding.toNat + term.remainingLocked.toNat) < 2 ^ 64 := by
    have hmax : payer.systemBalance ≤ UINT64_MAX := by
      have := payer.systemBalance.toNat_lt
      rw [UInt64.le_iff_toNat_le, toNat_UINT64_MAX]
      omega
    have hlt := add_lt_of_le_max_sub hsystem
    rw [UInt64.le_iff_toNat_le, UInt64.toNat_sub_of_le _ _ hsystem,
      UInt64.toNat_sub_of_le _ _ hmax, toNat_UINT64_MAX] at hboth
    omega
  have hrefundSum : term.remainingOnboarding.toNat + term.remainingLocked.toNat < 2 ^ 64 := by omega
  have hsystemSum : payer.systemBalance.toNat +
      (term.remainingOnboarding + term.remainingLocked).toNat < 2 ^ 64 := by
    rw [toNat_add_of_lt hrefundSum]
    exact hroom
  have hdoneO : term.refundedOnboarding.toNat + term.remainingOnboarding.toNat < 2 ^ 64 := by
    have := term.initialOnboarding.toNat_lt
    omega
  have hdoneL : term.refundedLocked.toNat + term.remainingLocked.toNat < 2 ^ 64 := by
    have := term.initialLocked.toNat_lt
    omega
  rw [wp_bind, wp_addAmount hrefundSum, wp_bind, wp_addAmount hsystemSum, wp_bind,
    wp_addAmount (add_lt_of_le_max_sub hcredit), wp_bind, wp_subAmount hescrowO, wp_bind,
    wp_subAmount hescrowL, wp_bind, wp_addAmount hdoneO, wp_bind, wp_addAmount hdoneL]
  split
  · exact nofun
  next servicePayments hpayments =>
  rw [wp_bind, wp_modify, wp_bind, wp_modify]
  exact fun _ => .refunded
    { leaseFound := hlease
      termFound := hindex
      payerFound := hpayer
      closed := decide_eq_true (UInt64.not_lt.mp hclosed)
      escrowOnboarding := hescrowO
      escrowLocked := hescrowL
      system := hroom
      credit := add_lt_of_le_max_sub hcredit
      payments := hpayments
      result := rfl }

/-- What is refunded leaves the lease and reaches the payer. -/
theorem RefundStep.moved {publication : Hash256}
    (h : RefundStep publication index s s') (hfunds : FundsCovered s) :
    PayProgress s s' ∧ s'.settlement = s.settlement := by
  cases h with
  | kept => exact ⟨PayProgress.refl hfunds, rfl⟩
  | @refunded _ lease term payer servicePayments h =>
    have hterm := hfunds.terms _ _ h.leaseFound _ (List.mem_of_getElem? h.termFound)
    obtain ⟨hremainingO, hremainingL⟩ := hterm.remaining
    have hsystem := h.system
    have hsum : term.remainingOnboarding.toNat + term.remainingLocked.toNat < 2 ^ 64 := by omega
    have hbound := term.initialOnboarding.toNat_lt
    have hbound' := term.initialLocked.toNat_lt
    rw [h.result]
    refine ⟨PayProgress.move hfunds h.payerFound h.leaseFound h.termFound ?_ (TermGrows.refunded ..) ?_, rfl⟩
    · refine ⟨?_, ?_, hterm.total⟩
      · simp only [StorageFundedTerm.refund, toNat_add_of_lt (show term.refundedOnboarding.toNat +
          term.remainingOnboarding.toNat < 2 ^ 64 by omega)]
        omega
      · simp only [StorageFundedTerm.refund, toNat_add_of_lt (show term.refundedLocked.toNat +
          term.remainingLocked.toNat < 2 ^ 64 by omega)]
        omega
    · have hleO := UInt64.le_iff_toNat_le.mp h.escrowOnboarding
      have hleL := UInt64.le_iff_toNat_le.mp h.escrowLocked
      simp only [AccountState.value, AccountState.refund, StorageLeaseRecord.value,
        toNat_add_of_lt (show payer.systemBalance.toNat +
          (term.remainingOnboarding + term.remainingLocked).toNat < 2 ^ 64 by
            rw [toNat_add_of_lt hsum]; exact hsystem), toNat_add_of_lt hsum,
        UInt64.toNat_sub_of_le _ _ h.escrowOnboarding, UInt64.toNat_sub_of_le _ _ h.escrowLocked]
      omega

/-- The refund loop over a list of places. -/
inductive RefundedTerms : CybouState → List LocatedTerm → CybouState → Prop
  | done (s : CybouState) : RefundedTerms s [] s
  | term {s s₁ s₂ : CybouState} {target : LocatedTerm} {rest : List LocatedTerm}
      (hstep : RefundStep target.publication target.index s s₁)
      (hrest : RefundedTerms s₁ rest s₂) : RefundedTerms s (target :: rest) s₂

theorem RefundedTerms.moved {targets : List LocatedTerm}
    (h : RefundedTerms s targets s') (hfunds : FundsCovered s) :
    PayProgress s s' ∧ s'.settlement = s.settlement := by
  induction h with
  | done s => exact ⟨PayProgress.refl hfunds, rfl⟩
  | term hstep _ ih =>
    obtain ⟨hprogress, hsettlement⟩ := hstep.moved hfunds
    obtain ⟨hrest, hsettlement'⟩ := ih hprogress.funds
    exact ⟨hprogress.trans hrest, hsettlement'.trans hsettlement⟩

theorem refundTerms_done (targets : List LocatedTerm) (hfunds : FundsCovered s) :
    wp (refundTerms targets) (fun r s' => r = .none → RefundedTerms s targets s')
      (fun _ _ => False) s := by
  induction targets generalizing s with
  | nil => exact fun _ => .done s
  | cons target rest ih =>
    rw [refundTerms, wp_bind]
    refine wp_mono (refundTerm_step target.publication target.index hfunds) ?_ fun _ _ h => h
    intro r s₁ hr
    refine wp_refuse (fun hne heq => absurd heq hne) fun hnone => ?_
    have hstep := hr (not_not.mp hnone)
    refine wp_mono (ih (hstep.moved hfunds).1.funds) ?_ fun _ _ h => h
    intro r' s₂ hr' heq
    exact .term hstep (hr' heq)

omit [Crypto] in
def StorageSettlement.nextCursor (op : StorageSettlement) : StorageSettlementCursor :=
  { nextPeriod := op.period + 1, nextPeriodStartUtc := op.periodEndUtc }

/-- A `PAY`, phase by phase: the entries, the cursor, the refunds. -/
structure PayRun (op : StorageSettlement) (params : CybouProtocolParameters)
    (s paid s' : CybouState) : Prop where
  period : op.period = s.settlement.nextPeriod
  last : op.period ≠ UINT64_MAX
  entries : PaidEntries op params s op.entries paid
  refunds : RefundedTerms { paid with settlement := op.nextCursor }
    (CybouState.locatedTerms { paid with settlement := op.nextCursor }) s'

theorem applyPayInputs_run (op : StorageSettlement) (params : CybouProtocolParameters)
    (hfunds : FundsCovered s) :
    wp (applyPayInputs op params) (fun r s' => r = .none → ∃ paid, PayRun op params s paid s')
      (fun _ _ => False) s := by
  unfold applyPayInputs
  refine wp_refuse (fun _ => nofun) fun _ => ?_
  rw [wp_get_bind]
  refine wp_refuse (fun _ => nofun) fun hperiod => ?_
  refine wp_refuse (fun _ => nofun) fun _ => ?_
  refine wp_refuse (fun _ => nofun) fun hclock => ?_
  push Not at hclock
  rw [wp_bind]
  refine wp_mono (payEntries_paid op params op.entries [] hfunds) ?_ fun _ _ h => h
  rintro r s₁ (⟨e, he, rfl⟩ | ⟨⟨used, rfl⟩, hpaid⟩)
  · exact fun heq => absurd heq he
  refine wp_refuse (fun _ => nofun) fun _ => ?_
  rw [wp_bind, wp_modify, wp_get_bind]
  have hfunds₁ := (hpaid.moved hfunds).1.funds
  refine wp_mono (refundTerms_done _ (s := { s₁ with settlement := op.nextCursor })
    ⟨hfunds₁.payer, hfunds₁.terms⟩) ?_ fun _ _ h => h
  intro r' s₂ hr' hnone
  exact ⟨s₁, not_not.mp hperiod, hclock.2.1, hpaid, hr' hnone⟩

/-- A `PAY` that is not refused: value was moved and the cursor advanced. -/
structure PayDone (op : StorageSettlement) (s s' : CybouState) : Prop where
  progress : PayProgress s s'
  period : op.period = s.settlement.nextPeriod
  last : op.period ≠ UINT64_MAX
  cursor : s'.settlement.nextPeriod = op.period + 1

theorem PayRun.done {paid : CybouState} (h : PayRun op params s paid s') (hfunds : FundsCovered s) :
    PayDone op s s' := by
  obtain ⟨hpaid, -⟩ := h.entries.moved hfunds
  have hcursor : PayProgress paid { paid with settlement := op.nextCursor } :=
    ⟨⟨hpaid.funds.payer, hpaid.funds.terms⟩, rfl, rfl, rfl, TermsGrow.of_leases rfl,
      .of_leases rfl rfl rfl rfl⟩
  obtain ⟨hrefund, hsettlement⟩ := h.refunds.moved hcursor.funds
  exact ⟨(hpaid.trans hcursor).trans hrefund, h.period, h.last,
    congrArg StorageSettlementCursor.nextPeriod hsettlement⟩

/-! ### Assignments -/

/-- What a settlement leaves behind, each kind in its own place. -/
def SettlementMark (op : StorageSettlement) (s : CybouState) : Prop :=
  match op.action with
  | .prepare => ∃ term ∈ s.fundedTerms, term.fundingOperationId = op.fundedTermId ∧
      op.assignmentEpoch < term.nextAssignmentEpoch
  | .activate => ∃ term ∈ s.fundedTerms, ∃ d ∈ term.declarations,
      d.operationId = op.preparationId ∧ ∃ a ∈ term.assignments.getLast?, d.epoch ≤ a.epoch
  | .pay => op.period < s.settlement.nextPeriod

theorem SettlementMark.mono (h : SettlementMark op s)
    (hterms : TermsGrow s s') (hcursor : s.settlement.nextPeriod ≤ s'.settlement.nextPeriod) :
    SettlementMark op s' := by
  unfold SettlementMark at h ⊢
  split at h
  · obtain ⟨term, hterm, hid, hepoch⟩ := h
    obtain ⟨term', hterm', hgrows⟩ := hterms term hterm
    exact ⟨term', hterm', hgrows.fundingOperationId.trans hid,
      UInt64.lt_of_lt_of_le hepoch hgrows.nextAssignmentEpoch⟩
  · obtain ⟨term, hterm, d, hd, hid, a, ha, hle⟩ := h
    obtain ⟨term', hterm', hgrows⟩ := hterms term hterm
    obtain ⟨a', ha', hle'⟩ := hgrows.assignments a ha
    exact ⟨term', hterm', d, hgrows.declarations d hd, hid, a', ha', UInt64.le_trans hle hle'⟩
  · exact UInt64.lt_of_lt_of_le h hcursor

omit [Crypto] in
/-- The outcome of an assignment step: an exception, a refusal, or a result with
    the given property. -/
def Assigned {α : Type} (P : α → Prop) : Except Fault (Except StorageSettlementError α) → Prop
  | .error fault => fault = .thrown
  | .ok (.error e) => e ≠ .none
  | .ok (.ok a) => P a

theorem acceptEligible_error {network : Hash256} {height : UInt64}
    {payer : AccountId} {l : List StorageSettlementBinding} {e : StorageSettlementError}
    (h : acceptEligible s network height payer l = .error e) : e ≠ .none := by
  induction l with
  | nil => cases h
  | cons b rest ih =>
    unfold acceptEligible at h
    dsimp only at h
    split at h
    · cases h
      decide
    split at h
    · cases h
      decide
    split at h
    · cases h
      decide
    split at h
    · cases h
      decide
    cases hrest : acceptEligible s network height payer rest with
    | error e' =>
      rw [hrest] at h
      cases h
      exact ih hrest
    | ok accepted =>
      rw [hrest] at h
      cases h

theorem prepareTerm_spec (op : StorageSettlement) (s : CybouState) (network : Hash256)
    (height : UInt64) (operationId : Hash256) (target : LocatedTerm) :
    Assigned (fun term' => TermGrows target.term term' ∧
      ¬op.assignmentEpoch < target.term.nextAssignmentEpoch ∧
      op.assignmentEpoch < term'.nextAssignmentEpoch)
      (.ok (prepareTerm op s network height (some operationId) target)) := by
  unfold prepareTerm
  split
  · exact nofun
  next hepoch =>
  push Not at hepoch
  cases haccepted : acceptEligible s network height target.lease.payer op.eligible with
  | error e => exact acceptEligible_error haccepted
  | ok eligible =>
    simp only [bind, Except.bind]
    split
    · exact nofun
    have hlt := lt_add_one_of_ne_max hepoch.2.2
    refine ⟨⟨rfl, rfl, ?_, fun d hd => List.mem_append_left _ hd, fun a h => ⟨a, h, UInt64.le_refl _⟩⟩,
      hepoch.2.1, hlt⟩
    exact UInt64.le_trans (UInt64.not_lt.mp hepoch.2.1) (UInt64.le_of_lt hlt)

theorem assignChunks_spec (context : StorageAssignmentContext)
    (eligible : List StorageAssignmentProvider) (manifest : List ChunkId)
    (counts : OrdMap ServiceKey UInt32) :
    Assigned (fun _ => True) (assignChunks context eligible manifest counts) := by
  induction manifest generalizing counts with
  | nil => trivial
  | cons chunk rest ih =>
    unfold assignChunks
    split
    · exact nofun
    · exact rfl
    · split
      · exact nofun
      · exact ih _

theorem activateTerm_spec (op : StorageSettlement) (network : Hash256) (height : UInt64)
    (parent operationId : Hash256) (publication : PublicationRecord) (target : LocatedTerm)
    (declaration : StorageAssignmentDeclaration) :
    Assigned (fun term' => TermGrows target.term term' ∧
      (∀ a ∈ target.term.assignments.getLast?, ¬declaration.epoch ≤ a.epoch) ∧
      ∃ a ∈ term'.assignments.getLast?, declaration.epoch ≤ a.epoch)
      (activateTerm op network height parent (some operationId) publication target declaration) := by
  unfold activateTerm
  dsimp only
  split
  · exact nofun
  split
  · exact nofun
  next hlast =>
  split
  · exact nofun
  split
  · exact nofun
  have hnewer : ∀ a ∈ target.term.assignments.getLast?, ¬declaration.epoch ≤ a.epoch := by
    intro a ha hle
    apply hlast
    rw [Option.mem_def.mp ha]
    simpa using hle
  have hcounts := assignChunks_spec (assignmentContext network parent target declaration)
    (declaration.eligible.map fun e => { storageId := e.storageId, payoutAccount := e.payoutAccount })
    op.manifest ∅
  revert hcounts
  generalize assignChunks (assignmentContext network parent target declaration)
    (declaration.eligible.map fun e => { storageId := e.storageId, payoutAccount := e.payoutAccount })
    op.manifest ∅ = counts
  intro hcounts
  rcases counts with fault | e | counts
  · exact hcounts
  · exact hcounts
  · simp only [bind, Except.bind]
    split
    · exact nofun
    · refine ⟨⟨rfl, rfl, UInt64.le_refl _, fun _ h => h, fun a ha => ?_⟩, hnewer, _,
        List.getLast?_concat, UInt64.le_refl _⟩
      exact ⟨_, List.getLast?_concat, UInt64.le_of_lt (UInt64.not_le.mp (hnewer a ha))⟩

/-- An assignment that is not refused: one term's record has grown. -/
structure AssignmentDone (op : StorageSettlement) (s s' : CybouState) : Prop where
  total : exactTotal s' = exactTotal s
  accounts : s'.accounts = s.accounts
  identities : s'.identities = s.identities
  cursor : s'.settlement.nextPeriod = s.settlement.nextPeriod
  terms : TermsGrow s s'
  frame : SettlementFrame s s'
  fresh : ¬SettlementMark op s
  mark : SettlementMark op s'

variable {declaration : Option StorageAssignmentDeclaration}

theorem mem_assignmentTargets (h : (target, declaration) ∈ assignmentTargets op s) :
    target ∈ s.locatedTerms ∧
      (op.action = .prepare ∧ declaration = none ∧
          target.term.fundingOperationId = op.fundedTermId ∨
        op.action = .activate ∧ ∃ d ∈ target.term.declarations,
          declaration = some d ∧ d.operationId = op.preparationId) := by
  unfold assignmentTargets at h
  split at h
  · next haction =>
    obtain ⟨target', hmem, heq⟩ := List.mem_map.mp h
    cases heq
    obtain ⟨hlocated, hid⟩ := List.mem_filter.mp hmem
    exact ⟨hlocated, .inl ⟨haction, rfl, of_decide_eq_true hid⟩⟩
  · next haction =>
    obtain ⟨_, hl, hmem⟩ := List.mem_flatten.mp h
    obtain ⟨target', hlocated, rfl⟩ := List.mem_map.mp hl
    obtain ⟨d, hd, heq⟩ := List.mem_map.mp hmem
    cases heq
    obtain ⟨hdecl, hid⟩ := List.mem_filter.mp hd
    exact ⟨hlocated, .inr ⟨haction, d, hdecl, rfl, of_decide_eq_true hid⟩⟩
  · cases h

theorem mem_prepareTargets (haction : op.action = .prepare) (htarget : target ∈ s.locatedTerms)
    (hid : target.term.fundingOperationId = op.fundedTermId) :
    (target, none) ∈ assignmentTargets op s := by
  simp only [assignmentTargets, haction]
  exact List.mem_map.mpr ⟨target, List.mem_filter.mpr ⟨htarget, decide_eq_true hid⟩, rfl⟩

theorem mem_activateTargets {d : StorageAssignmentDeclaration} (haction : op.action = .activate)
    (htarget : target ∈ s.locatedTerms) (hd : d ∈ target.term.declarations)
    (hid : d.operationId = op.preparationId) : (target, some d) ∈ assignmentTargets op s := by
  simp only [assignmentTargets, haction]
  refine List.mem_flatten.mpr ⟨_, List.mem_map.mpr ⟨target, htarget, rfl⟩, ?_⟩
  exact List.mem_map.mpr ⟨d, List.mem_filter.mpr ⟨hd, decide_eq_true hid⟩, rfl⟩

theorem assignmentDone_putTerm (htarget : target ∈ s.locatedTerms)
    (hgrows : TermGrows target.term term') (hfresh : ¬SettlementMark op s) (hmark : SettlementMark op
      (s.putLease target.publication (target.lease.setTerm target.index term'))) :
    AssignmentDone op s (s.putLease target.publication (target.lease.setTerm target.index term')) := by
  obtain ⟨hlease, hindex⟩ := located htarget
  refine ⟨?_, rfl, rfl, rfl, TermsGrow.putLease hlease (setTerm_grows hindex hgrows),
    .putTerm hlease hindex hgrows rfl rfl, hfresh, hmark⟩
  have hset := exactTotal_putLease s target.publication (target.lease.setTerm target.index term')
  have hescrow : s.escrowAt target.publication = (target.lease.setTerm target.index term').value := by
    simp [CybouState.escrowAt, hlease, StorageLeaseRecord.setTerm, StorageLeaseRecord.value]
  omega

theorem mem_fundedTerms_putTerm (term' : StorageFundedTerm) (htarget : target ∈ s.locatedTerms) :
    term' ∈ (s.putLease target.publication
      (target.lease.setTerm target.index term')).fundedTerms := by
  obtain ⟨hlease, hindex⟩ := located htarget
  refine mem_fundedTerms.mpr ⟨target.publication, target.lease.setTerm target.index term',
    by simp [CybouState.putLease], ?_⟩
  obtain ⟨hlt, -⟩ := List.getElem?_eq_some_iff.mp hindex
  exact List.mem_iff_getElem.mpr
    ⟨target.index, by simpa [StorageLeaseRecord.setTerm] using hlt, by simp [StorageLeaseRecord.setTerm]⟩

/-- An accepted branch grows the one term found, which did not carry the mark
    yet. -/
theorem assignedTerm_spec (network : Hash256)
    (height : UInt64) (parent operationId : Hash256) (publication : PublicationRecord)
    (h : assignmentTargets op s = [(target, declaration)]) :
    Assigned (fun term' =>
      AssignmentDone op s (s.putLease target.publication (target.lease.setTerm target.index term')))
      (assignedTerm op s network height parent (some operationId) publication target declaration) := by
  have hmem : (target, declaration) ∈ assignmentTargets op s := by
    rw [h]
    exact List.mem_singleton_self _
  obtain ⟨htarget, ⟨haction, rfl, hid⟩ | ⟨haction, d, hd, rfl, hid⟩⟩ := mem_assignmentTargets hmem
  · have hspec := prepareTerm_spec op s network height operationId target
    rw [assignedTerm]
    generalize prepareTerm op s network height (some operationId) target = result at hspec ⊢
    rcases result with e | term'
    · exact hspec
    · obtain ⟨hgrows, hnext, hepoch⟩ := hspec
      refine assignmentDone_putTerm htarget hgrows ?_ ?_
      · rw [SettlementMark, haction]
        rintro ⟨term, hterm, hfunding, hlt⟩
        obtain ⟨target', htarget', rfl⟩ := exists_located hterm
        have hsame := mem_prepareTargets haction htarget' hfunding
        rw [h, List.mem_singleton, Prod.mk.injEq] at hsame
        rw [hsame.1] at hlt
        exact hnext hlt
      · rw [SettlementMark, haction]
        exact ⟨term', mem_fundedTerms_putTerm term' htarget,
          hgrows.fundingOperationId.trans hid, hepoch⟩
  · have hspec := activateTerm_spec op network height parent operationId publication target d
    rw [assignedTerm]
    generalize activateTerm op network height parent (some operationId) publication target d =
      result at hspec ⊢
    rcases result with fault | e | term'
    · exact hspec
    · exact hspec
    · obtain ⟨hgrows, hnewer, hlast⟩ := hspec
      refine assignmentDone_putTerm htarget hgrows ?_ ?_
      · rw [SettlementMark, haction]
        rintro ⟨term, hterm, d', hd', hprep, a, ha, hle⟩
        obtain ⟨target', htarget', rfl⟩ := exists_located hterm
        have hsame := mem_activateTargets haction htarget' hd' hprep
        rw [h, List.mem_singleton, Prod.mk.injEq, Option.some.injEq] at hsame
        rw [hsame.1] at ha
        rw [hsame.2] at hle
        exact hnewer a ha hle
      · rw [SettlementMark, haction]
        exact ⟨term', mem_fundedTerms_putTerm term' htarget, d, hgrows.declarations d hd, hid, hlast⟩

/-- What `ApplyAssignmentInputs` has checked when it comes to the action. -/
structure AssignmentFront (op : StorageSettlement) (network : Hash256) (height : UInt64) (s : CybouState)
    (target : LocatedTerm) (declaration : Option StorageAssignmentDeclaration)
    (publication : PublicationRecord) : Prop where
  body : serializeSettlementBody op ≠ none
  network : network.isNull = false
  height : height ≠ 0
  period : op.period = s.settlement.nextPeriod
  start : s.settlement.nextPeriodStartUtc = 0 ∨ s.settlement.nextPeriodStartUtc = op.periodStartUtc
  targets : assignmentTargets op s = [(target, declaration)]
  published : s.publications.find? target.publication = some publication
  first : target.term.firstPeriod ≤ op.period
  last : op.period < target.term.endPeriod
  leaseEnd : op.period < target.lease.endPeriod
  room : op.periodStartUtc ≤ UINT64_MAX - target.term.periodSeconds

def recordedId (op : StorageSettlement) (apply : Bool) : Option Hash256 :=
  if apply then computeOperationId (.storageSettlement op) else none

def CybouState.recordTerm (s : CybouState) (op : StorageSettlement) (target : LocatedTerm)
    (term : StorageFundedTerm) : CybouState :=
  let s' := s.putLease target.publication (target.lease.setTerm target.index term)
  if s.settlement.nextPeriodStartUtc = 0 then
    { s' with settlement := { s.settlement with nextPeriodStartUtc := op.periodStartUtc } }
  else s'

variable {network : Hash256} {height : UInt64}

theorem AssignmentFront.unique {target target' : LocatedTerm} {declaration declaration' : Option StorageAssignmentDeclaration}
    {publication publication' : PublicationRecord}
    (h : AssignmentFront op network height s target declaration publication)
    (h' : AssignmentFront op network height s target' declaration' publication') :
    target' = target ∧ declaration' = declaration ∧ publication' = publication := by
  have htargets := h'.targets
  rw [h.targets, List.cons.injEq, Prod.mk.injEq] at htargets
  obtain ⟨⟨rfl, rfl⟩, -⟩ := htargets
  exact ⟨rfl, rfl, Option.some.inj (h'.published.symm.trans h.published)⟩

/-- What is not refused at the front is left to the branch for the one term found. -/
theorem wp_applyAssignmentInputs {parent : Hash256} {apply : Bool}
    {Q : StorageSettlementError → CybouState → Prop} {E : Fault → CybouState → Prop}
    (hrefused : ∀ r, r ≠ .none → ((∃ target declaration publication,
      AssignmentFront op network height s target declaration publication) →
        apply = true ∧ computeOperationId (.storageSettlement op) = none) → Q r s)
    (hfound : ∀ target declaration publication,
      AssignmentFront op network height s target declaration publication →
      (apply = true → computeOperationId (.storageSettlement op) ≠ none) →
        match assignedTerm op s network height parent (recordedId op apply) publication target declaration with
        | .error fault => E fault s
        | .ok (.error e) => Q e s
        | .ok (.ok term) => Q .none (if apply = true then s.recordTerm op target term else s)) :
    wp (applyAssignmentInputs op network height parent apply) Q E s := by
  unfold applyAssignmentInputs
  refine wp_refuse (fun hguard => hrefused _ (by decide) ?_) fun hshape => ?_
  · rintro ⟨target, declaration, publication, hfront⟩
    rcases hguard with hbody | hnetwork | hheight
    · exact absurd hbody hfront.body
    · cases hnetwork.symm.trans hfront.network
    · exact absurd hheight hfront.height
  rw [wp_get_bind]
  refine wp_refuse (fun hguard => hrefused _ (by decide) ?_) fun hperiod => ?_
  · rintro ⟨target, declaration, publication, hfront⟩
    exact absurd hfront.period hguard
  refine wp_refuse (fun hguard => hrefused _ (by decide) ?_) fun hstart => ?_
  · rintro ⟨target, declaration, publication, hfront⟩
    rcases hfront.start with hzero | heq
    · exact absurd hzero hguard.1
    · exact absurd heq hguard.2
  split
  · next hnone =>
    refine hrefused _ (by decide) ?_
    rintro ⟨target, declaration, publication, hfront⟩
    cases hnone.symm.trans hfront.targets
  · next hmany =>
    refine hrefused _ (by decide) ?_
    rintro ⟨target, declaration, publication, hfront⟩
    cases hmany.symm.trans hfront.targets
  next target declaration htargets =>
  -- from here on the front can only be that of the target found
  have hsame : ∀ target' declaration' publication',
      AssignmentFront op network height s target' declaration' publication' → target' = target := by
    intro target' declaration' publication' hfront
    have heq := htargets.symm.trans hfront.targets
    rw [List.cons.injEq, Prod.mk.injEq] at heq
    exact heq.1.1.symm
  split
  · next hunpublished =>
    refine hrefused _ (by decide) ?_
    rintro ⟨target', declaration', publication, hfront⟩
    obtain rfl := hsame _ _ _ hfront
    cases hunpublished.symm.trans hfront.published
  next publication hpublication =>
  refine wp_refuse (fun hguard => hrefused _ (by decide) ?_) fun hactive => ?_
  · rintro ⟨target', declaration', publication', hfront⟩
    obtain rfl := hsame _ _ _ hfront
    rcases hguard with hfirst | hlast | hend
    · exact absurd hfirst (UInt64.not_lt.mpr hfront.first)
    · exact absurd hfront.last (UInt64.not_lt.mpr hlast)
    · exact absurd hfront.leaseEnd (UInt64.not_lt.mpr hend)
  refine wp_refuse (fun hguard => hrefused _ (by decide) ?_) fun hroom => ?_
  · rintro ⟨target', declaration', publication', hfront⟩
    obtain rfl := hsame _ _ _ hfront
    exact absurd hguard (UInt64.not_lt.mpr hfront.room)
  dsimp only
  refine wp_refuse (fun hguard => hrefused _ (by decide) fun _ => ?_) fun hid => ?_
  · obtain ⟨happly, hnone⟩ := hguard
    rw [if_pos happly] at hnone
    exact ⟨happly, hnone⟩
  push Not at hshape hperiod hstart hactive
  have h := hfound target declaration publication
    { body := hshape.1
      network := Bool.eq_false_of_not_eq_true hshape.2.1
      height := hshape.2.2
      period := hperiod
      start := or_iff_not_imp_left.mpr hstart
      targets := htargets
      published := hpublication
      first := UInt64.not_lt.mp hactive.1
      last := UInt64.not_le.mp hactive.2.1
      leaseEnd := UInt64.not_le.mp hactive.2.2
      room := UInt64.not_lt.mp hroom }
    fun happly hnone => hid ⟨happly, by rw [if_pos happly, hnone]⟩
  rw [← recordedId]
  generalize assignedTerm op s network height parent (recordedId op apply) publication target declaration =
    result at h ⊢
  rcases result with fault | e | term
  · exact h
  · exact h
  · cases apply with
    | false => exact h
    | true =>
      dsimp only
      rw [if_pos rfl, wp_set_bind, wp_bind, wp_modify]
      exact h

theorem applyAssignmentInputs_spec (op : StorageSettlement) (network : Hash256) (height : UInt64)
    (parent : Hash256) (s : CybouState) :
    wp (applyAssignmentInputs op network height parent true)
      (fun r s' => r = .none → AssignmentDone op s s') (fun e _ => e = .thrown) s := by
  refine wp_applyAssignmentInputs (fun r hr _ hnone => absurd hnone hr)
    fun target declaration publication hfront hsome => ?_
  obtain ⟨operationId, hoperationId⟩ := Option.ne_none_iff_exists'.mp (hsome rfl)
  have hspec := assignedTerm_spec network height parent operationId publication hfront.targets
  rw [recordedId, if_pos rfl, hoperationId]
  generalize assignedTerm op s network height parent (some operationId) publication target
    declaration = result at hspec ⊢
  rcases result with fault | e | term'
  · exact hspec
  · exact fun hnone => absurd hnone hspec
  · intro _
    rw [if_pos rfl]
    unfold CybouState.recordTerm
    split
    · exact ⟨hspec.total, hspec.accounts, hspec.identities, rfl, hspec.terms,
        hspec.frame.trans (.of_leases rfl rfl rfl rfl), hspec.fresh, hspec.mark.mono (TermsGrow.of_leases rfl) (UInt64.le_refl _)⟩
    · exact hspec

/-! ### The settlement itself -/

theorem wp_onCopy {α : Type} {x : Transition α} {Q : α × CybouState → CybouState → Prop}
    {E : Fault → CybouState → Prop} :
    wp (onCopy x) Q E s ↔ wp x (fun a candidate => Q (a, candidate) s) (fun e _ => E e s) s := by
  rw [onCopy, wp_get_bind]
  unfold wp
  cases x s with
  | ok a candidate => exact Iff.rfl
  | error e candidate => exact Iff.rfl

/-- An accepted settlement: the state is valid again, holds the same total, and
    carries the mark of the settlement for the first time. -/
structure SettlementDone (op : StorageSettlement) (s s' : CybouState) : Prop where
  valid : StateInvariant s'
  total : exactTotal s' = exactTotal s
  accounts : s'.hasAccount = s.hasAccount
  identities : s'.identities = s.identities
  cursor : s.settlement.nextPeriod ≤ s'.settlement.nextPeriod
  terms : TermsGrow s s'
  frame : SettlementFrame s s'
  fresh : ¬SettlementMark op s
  mark : SettlementMark op s'

theorem AssignmentDone.settled
    (h : AssignmentDone op s s') (hvalid : StateInvariant s') : SettlementDone op s s' := by
  refine ⟨hvalid, h.total, ?_, h.identities, ?_, h.terms, h.frame, h.fresh, h.mark⟩
  · funext id
    rw [CybouState.hasAccount, CybouState.hasAccount, h.accounts]
  · rw [h.cursor]
    exact UInt64.le_refl _

theorem PayDone.settled (h : PayDone op s s')
    (haction : op.action = .pay) (hvalid : StateInvariant s') : SettlementDone op s s' := by
  have hlt := lt_add_one_of_ne_max h.last
  refine ⟨hvalid, h.progress.total, h.progress.accounts, h.progress.identities, ?_,
    h.progress.terms, h.progress.frame, ?_, ?_⟩
  · rw [h.cursor, ← h.period]
    exact UInt64.le_of_lt hlt
  · rw [SettlementMark, haction, h.period]
    exact UInt64.lt_irrefl _
  · rw [SettlementMark, haction, h.cursor]
    exact hlt

/-- **A settlement is atomic**: it is refused or throws without a trace, or it is
    done. -/
theorem applyStorageSettlement_spec (settlement : StorageSettlement) (networkBinding : Hash256)
    (params : CybouProtocolParameters) (poaKey : IdentityHybridPublicKey) (blockHeight : UInt64)
    (verifiedParentId : Hash256) (h : FundsCovered s) :
    wp (applyStorageSettlement settlement networkBinding params poaKey blockHeight verifiedParentId)
      (Atomic .none s (SettlementDone settlement s)) (fun e s' => e = .thrown ∧ s' = s) s := by
  unfold applyStorageSettlement
  split
  · exact Atomic.refused (by decide)
  refine wp_guard (by decide) fun _ => ?_
  split
  · rw [wp_bind, wp_onCopy]
    refine wp_mono (applyAssignmentInputs_spec settlement networkBinding blockHeight
      verifiedParentId s) ?_ fun e _ he => ⟨he, rfl⟩
    intro r candidate hr
    refine wp_refuse (fun hne => Atomic.refused hne) fun hnone => ?_
    refine wp_guard (by decide) fun hvalid => ?_
    rw [wp_set_bind]
    exact Atomic.completed ((hr (not_not.mp hnone)).settled
      (validateCybouState_eq_none.mp (not_not.mp hvalid)))
  · next haction =>
    rw [wp_bind, wp_onCopy]
    refine wp_mono (applyPayInputs_run settlement params h) ?_ fun _ _ hf => hf.elim
    intro r candidate hr
    refine wp_refuse (fun hne => Atomic.refused hne) fun hnone => ?_
    rw [wp_get_bind]
    refine wp_guard (by decide) fun hchecked => ?_
    push Not at hchecked
    rw [wp_set_bind]
    obtain ⟨paid, hrun⟩ := hr (not_not.mp hnone)
    exact Atomic.completed ((hrun.done h).settled (not_not.mp haction)
      (validateCybouState_eq_none.mp hchecked.1))

end

end Cybou
