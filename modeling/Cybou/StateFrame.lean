import Cybou.Transitions

/-! # What a transition leaves alone, and how it moves value

Most transitions change only balances and nonces.  `SameFrame` says so: the
same accounts, identities at the same key epochs, names, allocation labels and
claims, publications and leases.  Along it the treasury stays where it is
(`centralAuthorityFeeBalance_of_frame`) and the state invariant reduces to two
facts about amounts (`StateInvariant.of_frame`).
-/

namespace Cybou

open Library

section

variable [Crypto]

/-! ### Totals under an update -/

variable {s : CybouState} {id : AccountId}

theorem exactTotal_putAccount {old : AccountState}
    (h : s.accounts.find? id = some old) (account : AccountState) :
    exactTotal (s.putAccount id account) + old.value = exactTotal s + account.value := by
  have hsum := OrdMap.sum_set_of_some (v := account) (f := fun _ a => a.value) h
  simp only [exactTotal, CybouState.putAccount]
  omega

variable {account : AccountState}

theorem value_le_exactTotal (h : s.accounts.find? id = some account) : account.value ≤ exactTotal s := by
  have hle := OrdMap.le_sum_of_find? (f := fun _ a => a.value) h
  simp only [exactTotal]
  omega

/-- The reference points at an amount that the total counts. -/
def BalanceRef.Live (s : CybouState) : BalanceRef → Prop
  | .allocation key => ∃ a, s.genesisAllocations.find? key = some a ∧ a.claimedBy = none
  | .account id => ∃ a, s.accounts.find? id = some a

omit [Crypto] in
theorem GenesisAllocation.value_of_unclaimed {a : GenesisAllocation} (h : a.claimedBy = none) :
    a.value = a.balance.toNat := by
  simp [value, h]

variable {ref : BalanceRef}

theorem BalanceRef.read_le_exactTotal (h : ref.Live s) :
    (ref.read s).toNat ≤ exactTotal s := by
  cases ref with
  | allocation key =>
    obtain ⟨a, ha, hclaim⟩ := h
    have hle := OrdMap.le_sum_of_find? (f := fun _ a => a.value) ha
    rw [GenesisAllocation.value_of_unclaimed hclaim] at hle
    simp only [read, ha, Option.map_some, Option.getD_some, exactTotal]
    omega
  | account id =>
    obtain ⟨a, ha⟩ := h
    have hle := value_le_exactTotal ha
    simp only [AccountState.value] at hle
    simp only [read, ha, Option.map_some, Option.getD_some]
    omega

theorem BalanceRef.exactTotal_write (h : ref.Live s) (amount : UInt64) :
    exactTotal (ref.write s amount) + (ref.read s).toNat = exactTotal s + amount.toNat := by
  cases ref with
  | allocation key =>
    obtain ⟨a, ha, hclaim⟩ := h
    have hsum := OrdMap.sum_set_of_some (v := { a with balance := amount })
      (f := fun _ a => a.value) ha
    have hnew : ({ a with balance := amount } : GenesisAllocation).value = amount.toNat :=
      GenesisAllocation.value_of_unclaimed hclaim
    rw [GenesisAllocation.value_of_unclaimed hclaim, hnew] at hsum
    simp only [read, write, ha, Option.map_some, Option.getD_some, exactTotal]
    omega
  | account id =>
    obtain ⟨a, ha⟩ := h
    have hput := exactTotal_putAccount ha { a with balance := amount }
    simp only [AccountState.value] at hput
    simp only [read, write, ha, Option.map_some, Option.getD_some]
    omega

/-! ### Frames -/

def CybouState.allocationClaims (s : CybouState) :
    List (IdentityKeyId × Bytes × Option AccountId) :=
  s.genesisAllocations.entries.map fun e => (e.1, e.2.label, e.2.claimedBy)

/-- `s'` differs from `s` in amounts and nonces only. -/
structure SameFrame (s s' : CybouState) : Prop where
  accounts : s'.hasAccount = s.hasAccount
  accountCount : s'.accounts.size = s.accounts.size
  identities : s'.keyEpoch = s.keyEpoch
  identityCount : s'.identities.accounts.size = s.identities.accounts.size
  names : s'.names = s.names
  allocations : s'.allocationClaims = s.allocationClaims
  publications : s'.publications = s.publications
  settlement : s'.settlement = s.settlement
  leases : s'.leases = s.leases

def onlyEntry {α : Type} : List α → Option α
  | [e] => some e
  | _ => none

namespace SameFrame

theorem refl (s : CybouState) : SameFrame s s := ⟨rfl, rfl, rfl, rfl, rfl, rfl, rfl, rfl, rfl⟩

theorem trans {s₁ s₂ s₃ : CybouState} (h : SameFrame s₁ s₂) (h' : SameFrame s₂ s₃) :
    SameFrame s₁ s₃ where
  accounts := h'.accounts.trans h.accounts
  accountCount := h'.accountCount.trans h.accountCount
  identities := h'.identities.trans h.identities
  identityCount := h'.identityCount.trans h.identityCount
  names := h'.names.trans h.names
  allocations := h'.allocations.trans h.allocations
  publications := h'.publications.trans h.publications
  settlement := h'.settlement.trans h.settlement
  leases := h'.leases.trans h.leases

variable {id : AccountId}

theorem putAccount {s : CybouState} {old : AccountState}
    (h : s.accounts.find? id = some old) (account : AccountState) :
    SameFrame s (s.putAccount id account) where
  accounts := by
    funext id'
    simp only [CybouState.hasAccount, CybouState.putAccount, OrdMap.contains_set]
    by_cases hid : id' = id
    · simp [hid, OrdMap.contains_of_find? h]
    · simp [hid]
  accountCount := OrdMap.size_set_of_some h
  identities := rfl
  identityCount := rfl
  names := rfl
  allocations := rfl
  publications := rfl
  settlement := rfl
  leases := rfl

theorem write {s : CybouState} {ref : BalanceRef} (h : ref.Live s) (amount : UInt64) :
    SameFrame s (ref.write s amount) := by
  cases ref with
  | allocation key =>
    obtain ⟨a, ha, -⟩ := h
    simp only [BalanceRef.write, ha]
    refine ⟨rfl, rfl, rfl, rfl, rfl, ?_, rfl, rfl, rfl⟩
    exact OrdMap.map_entries_set_of_some ha rfl
  | account id =>
    obtain ⟨a, ha⟩ := h
    simp only [BalanceRef.write, ha]
    exact putAccount ha _

theorem authorize (s : CybouState) (authorization : IdentityOperationAuthorization)
    (networkBinding : Hash256) : SameFrame s { s with
      identities := (s.identities.authorizeOperation authorization networkBinding).2 } := by
  obtain ⟨e, -, heq⟩ | ⟨record, digest, hrecord, -, -, -, -, -, heq⟩ :=
    s.identities.toRegistryMaps.authorizeOperation_cases authorization networkBinding
  · have hids : (s.identities.authorizeOperation authorization networkBinding).2 = s.identities :=
      IdentityRegistry.ext_maps (congrArg Prod.snd heq)
    rw [hids]
    exact refl s
  · have hmap : (s.identities.authorizeOperation authorization networkBinding).2.accounts =
        s.identities.accounts.set authorization.accountId { record with nonce := record.nonce + 1 } :=
      congrArg (fun r => r.2.accounts) heq
    refine ⟨rfl, rfl, ?_, ?_, rfl, rfl, rfl, rfl, rfl⟩
    · funext id
      simp only [CybouState.keyEpoch, IdentityRegistry.find, hmap, OrdMap.find?_set]
      by_cases hid : id = authorization.accountId
      · simp [hid, hrecord]
      · simp [hid]
    · simp only [hmap]
      exact OrdMap.size_set_of_some hrecord

variable {s s' : CybouState}

theorem find_isSome (h : SameFrame s s') (id : AccountId) :
    (s'.identities.find id).isSome = (s.identities.find id).isSome := by
  have hid := congrArg Option.isSome (congrFun h.identities id)
  simpa [CybouState.keyEpoch] using hid

theorem find_eq_none (h : SameFrame s s') :
    s'.identities.find id = none ↔ s.identities.find id = none := by
  rw [← Option.isNone_iff_eq_none, ← Option.isNone_iff_eq_none, ← Option.not_isSome,
    ← Option.not_isSome, h.find_isSome]

theorem findCentralAuthorityAllocation (h : SameFrame s s') :
    (findCentralAuthorityAllocation s').map (fun e => (e.1, e.2.label, e.2.claimedBy)) =
      (findCentralAuthorityAllocation s).map (fun e => (e.1, e.2.label, e.2.claimedBy)) := by
  have hview : ∀ s : CybouState,
      (Cybou.findCentralAuthorityAllocation s).map (fun e => (e.1, e.2.label, e.2.claimedBy)) =
        onlyEntry (s.allocationClaims.filter (fun e => decide (e.2.1 = CENTRAL_AUTHORITY_NAME))) := by
    intro s
    rw [CybouState.allocationClaims, List.filter_map, Cybou.findCentralAuthorityAllocation]
    simp only [Function.comp_def]
    generalize s.genesisAllocations.entries.filter
      (fun e => decide (e.2.label = CENTRAL_AUTHORITY_NAME)) = l
    rcases l with _ | ⟨e, _ | ⟨e', l⟩⟩ <;> rfl
  rw [hview, hview, h.allocations]

theorem centralAuthorityFeeBalance (h : SameFrame s s') :
    centralAuthorityFeeBalance s' = centralAuthorityFeeBalance s := by
  have hfind := h.findCentralAuthorityAllocation
  unfold Cybou.centralAuthorityFeeBalance
  cases hs : Cybou.findCentralAuthorityAllocation s with
  | none =>
    rw [hs, Option.map_none, Option.map_eq_none_iff] at hfind
    rw [hfind]
  | some e =>
    rw [hs, Option.map_some, Option.map_eq_some_iff] at hfind
    obtain ⟨e', he', heq⟩ := hfind
    simp only [Prod.mk.injEq] at heq
    rw [he']
    simp only [heq.1, heq.2.1, heq.2.2, h.names, h.accounts, h.find_eq_none]

theorem grantedTo (h : SameFrame s s') (label : Bytes) : s'.grantedTo label = s.grantedTo label := by
  have hview : ∀ s : CybouState, s.grantedTo label =
      (s.allocationClaims.find? fun e => decide (e.2.1 = label) && e.2.2.isSome).bind (·.2.2) := by
    intro s
    rw [CybouState.allocationClaims, List.find?_map, CybouState.grantedTo]
    simp only [Function.comp_def]
    cases s.genesisAllocations.entries.find?
      (fun e => decide (e.2.label = label) && e.2.claimedBy.isSome) <;> rfl
  rw [hview, hview, h.allocations]

theorem allocationLabels (h : SameFrame s s') : s'.allocationLabels = s.allocationLabels := by
  have hview : ∀ s : CybouState, s.genesisAllocations.entries.map (·.2.label) =
      s.allocationClaims.map (·.2.1) := by
    intro s
    simp [CybouState.allocationClaims, Function.comp_def]
  rw [CybouState.allocationLabels, CybouState.allocationLabels, hview, hview, h.allocations]

theorem allocationCount (h : SameFrame s s') :
    s'.genesisAllocations.size = s.genesisAllocations.size := by
  have hlen := congrArg List.length h.allocations
  simpa [CybouState.allocationClaims, OrdMap.size] using hlen

theorem allocation (h : SameFrame s s') {key : IdentityKeyId} {a : GenesisAllocation}
    (ha : s'.genesisAllocations.find? key = some a) :
    ∃ a', s.genesisAllocations.find? key = some a' ∧ a'.label = a.label ∧
      a'.claimedBy = a.claimedBy := by
  have hmem : (key, a.label, a.claimedBy) ∈ s.allocationClaims := by
    rw [← h.allocations]
    exact List.mem_map.mpr ⟨(key, a), OrdMap.mem_entries_iff.mpr ha, rfl⟩
  obtain ⟨⟨key', a'⟩, he, heq⟩ := List.mem_map.mp hmem
  simp only [Prod.mk.injEq] at heq
  obtain ⟨rfl, hlabel, hclaim⟩ := heq
  exact ⟨a', OrdMap.mem_entries_iff.mp he, hlabel, hclaim⟩

end SameFrame

/-! ### The invariant along a frame -/

/-- Onboarding credit is part of the system balance. -/
def OnboardingCovered (s : CybouState) : Prop :=
  ∀ id a, s.accounts.find? id = some a → a.onboardingSystemBalance ≤ a.systemBalance

theorem StateInvariant.onboardingCovered (h : StateInvariant s) :
    OnboardingCovered s := fun id a ha => (h.account id a ha).2.2

/-- **Changes of amounts keep the invariant as long as they keep the total and
    the onboarding bound.** -/
theorem StateInvariant.of_frame {s' : CybouState} (h : StateInvariant s) (hf : SameFrame s s')
    (hcovered : OnboardingCovered s') (htotal : exactTotal s' < 2 ^ 64 - 1) :
    StateInvariant s' where
  accountLimit := hf.accountCount ▸ h.accountLimit
  identityCount := by rw [hf.accountCount, hf.identityCount, h.identityCount]
  account := by
    intro id a ha
    have hhas : s.hasAccount id = true := by
      rw [← hf.accounts]
      exact OrdMap.contains_of_find? ha
    obtain ⟨a₀, ha₀⟩ := OrdMap.contains_iff.mp hhas
    obtain ⟨hnull, ⟨r, hr⟩, -⟩ := h.account id a₀ ha₀
    refine ⟨hnull, ?_, hcovered id a ha⟩
    rw [← Option.isSome_iff_exists, hf.find_isSome, hr]
    rfl
  nameCount := by rw [hf.names, h.nameCount]
  allocationLimit := hf.allocationCount ▸ h.allocationLimit
  allocation := by
    intro key a ha
    obtain ⟨a', ha', hlabel, hclaim⟩ := hf.allocation ha
    rw [← hlabel, ← hclaim, hf.accounts]
    exact h.allocation key a' ha'
  allocationLabels := hf.allocationLabels ▸ h.allocationLabels
  name := by
    intro label id hname
    rw [hf.names] at hname
    obtain ⟨hadm, hrev, hacc⟩ := h.name label id hname
    refine ⟨?_, hf.names ▸ hrev, hf.accounts ▸ hacc⟩
    simpa only [nameAdmitted, hf.grantedTo] using hadm
  commit := by
    rw [hf.names, hf.accounts]
    exact h.commit
  commitAccounts := hf.names ▸ h.commitAccounts
  commitLimit := hf.names ▸ h.commitLimit
  total := htotal
  publication := by
    rw [hf.publications, hf.accounts]
    exact h.publication
  lease := by
    rw [hf.leases, hf.publications, hf.settlement, hf.accounts, hf.identities]
    exact h.lease
  fundingIds := by
    have hids : s'.fundingIds = s.fundingIds := by
      simp only [CybouState.fundingIds, CybouState.fundedTerms, hf.leases]
    exact hids ▸ h.fundingIds
  assignmentOperationIds := by
    have hids : s'.assignmentOperationIds = s.assignmentOperationIds := by
      simp only [CybouState.assignmentOperationIds, CybouState.fundedTerms, hf.leases]
    exact hids ▸ h.assignmentOperationIds

theorem OnboardingCovered.putAccount (h : OnboardingCovered s)
    (hle : account.onboardingSystemBalance ≤ account.systemBalance) :
    OnboardingCovered (s.putAccount id account) := by
  intro id' a ha
  simp only [CybouState.putAccount, OrdMap.find?_set] at ha
  split at ha
  · cases ha
    exact hle
  · exact h id' a ha

theorem OnboardingCovered.write (h : OnboardingCovered s) (ref : BalanceRef)
    (amount : UInt64) : OnboardingCovered (ref.write s amount) := by
  cases ref with
  | allocation key =>
    simp only [BalanceRef.write]
    split <;> exact h
  | account id =>
    simp only [BalanceRef.write]
    split
    · exact h
    · next a ha => exact h.putAccount (h id a ha)

end

end Cybou
