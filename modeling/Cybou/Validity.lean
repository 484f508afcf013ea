import Cybou.LeaseValidity
import Cybou.Replay

/-! # Accepted operations keep the state valid

`ValidateCybouState` is not inductive on its own: an unclaimed allocation may
carry a label that is already a name, and the lease of a live publication may
end before its last term.  Neither arises from accepted operations, and
together with the check (`Sound`) they form an invariant that every operation
keeps.
-/

namespace Cybou

open Library Proc

section

variable [Crypto]

/-! ### The invariant -/

structure Regular (s : CybouState) : Prop where
  labels : ∀ key a, s.genesisAllocations.find? key = some a → a.claimedBy = none → a.label ≠ [] →
    s.names.names.find? a.label = none
  leases : ∀ id p lease, s.publications.find? id = some p → s.leases.find? id = some lease →
    ∀ term ∈ lease.fundedTerms, term.endPeriod ≤ lease.endPeriod

/-- A valid state as accepted operations leave it. -/
structure Sound (s : CybouState) : Prop extends StateInvariant s, Regular s

/-- The bounds of the wire format are not reached: the cursor can advance and
    every lease can take one more term. -/
structure Room (s : CybouState) : Prop where
  cursor : s.settlement.nextPeriod ≠ UINT64_MAX
  terms : ∀ id lease, s.leases.find? id = some lease → lease.fundedTerms.length < UINT32_MAX

def CybouState.Records (s : CybouState) (id : Hash256) : Prop :=
  s.publications.contains id = true ∨ s.leases.contains id = true ∨ id ∈ s.fundingIds

instance (s : CybouState) (id : Hash256) : Decidable (s.Records id) :=
  inferInstanceAs (Decidable (_ ∨ _ ∨ _))

variable {s s' : CybouState} {id networkBinding : Hash256}

theorem CybouState.Records.congr (hpublications : s'.publications = s.publications)
    (hleases : s'.leases = s.leases) (h : s'.Records id) : s.Records id := by
  simpa only [CybouState.Records, CybouState.fundingIds, CybouState.fundedTerms, hpublications,
    hleases] using h

/-! ### Amounts -/

theorem Regular.of_frame (h : Regular s) (hf : SameFrame s s') : Regular s' where
  labels := by
    intro key a ha hclaim hlabel
    obtain ⟨a', ha', heq, hclaim'⟩ := hf.allocation ha
    rw [hf.names, ← heq]
    exact h.labels key a' ha' (hclaim'.trans hclaim) (heq ▸ hlabel)
  leases := by
    rw [hf.publications, hf.leases]
    exact h.leases

theorem Sound.of_frame (h : Sound s) (hf : SameFrame s s')
    (hcovered : OnboardingCovered s') (htotal : exactTotal s' < 2 ^ 64 - 1) : Sound s' :=
  ⟨h.toStateInvariant.of_frame hf hcovered htotal, h.toRegular.of_frame hf⟩

theorem Sound.authorize (h : Sound s)
    (authorization : IdentityOperationAuthorization) (networkBinding : Hash256) :
    Sound (s.authorize authorization networkBinding) :=
  h.of_frame (SameFrame.ofAuthorize s authorization networkBinding) h.onboardingCovered h.total

variable {account : AccountState}

variable {fee blockHeight : UInt64} {ref : BalanceRef}

theorem Sound.payFee {id : AccountId} (h : Sound s) (hfind : s.accounts.find? id = some account)
    (hle : fee ≤ account.systemBalance) (href : centralAuthorityFeeBalance s = some ref) :
    Sound (s.payFee id account fee) := by
  have htotal := h.total
  refine h.of_frame (SameFrame.payFee fee hfind) (h.onboardingCovered.payFee hfind hle) ?_
  rw [exactTotal_payFee hfind hle href (by omega)]
  exact htotal

variable {params : CybouProtocolParameters}

theorem PaymentDone.sound {operation : AuthorizedPayment} (h : Sound s)
    (hdone : PaymentDone operation networkBinding params s s') : Sound s' := by
  obtain ⟨hsum, hframe⟩ := hdone.exactTotal_eq h.total
  refine h.of_frame hframe ?_ (hsum ▸ h.total)
  obtain ⟨sender, recipient, hsender, hrecipient, -, -, hfee, -, rfl⟩ := hdone.moved
  rw [← accounts_authorize s operation.authorization networkBinding] at hsender hrecipient
  have hauthorized := (h.authorize operation.authorization networkBinding).onboardingCovered
  exact (hauthorized.transfer hsender hrecipient hfee).creditTreasury _

theorem SystemLockDone.sound {operation : AuthorizedSystemLock}
    (h : Sound s) (hdone : SystemLockDone operation networkBinding s s') :
    Sound s' := by
  obtain ⟨hsum, hframe⟩ := hdone.exactTotal_eq
  refine h.of_frame hframe ?_ (hsum ▸ h.total)
  obtain ⟨account, haccount, -, hcredit, rfl⟩ := hdone.moved
  have hauthorized := (h.authorize operation.authorization networkBinding).onboardingCovered
  refine hauthorized.putAccount ?_
  have hcovered := UInt64.le_iff_toNat_le.mp (h.onboardingCovered _ account haccount)
  rw [UInt64.le_iff_toNat_le]
  simp only [AccountState.creditSystem, AccountState.debit, toNat_add_of_lt hcredit]
  omega

/-! ### Identities -/

theorem StateInvariant.leases_grow (h : StateInvariant s)
    (hgrow : AccountsGrow s.hasAccount s.keyEpoch s'.hasAccount s'.keyEpoch)
    (hleases : s'.leases = s.leases) (hpublications : s'.publications = s.publications)
    (hsettlement : s'.settlement = s.settlement) :
    ∀ id l, s'.leases.find? id = some l → leaseValid s'.hasAccount s'.keyEpoch
      s'.settlement.nextPeriod (s'.publications.find? id) id l = true := by
  intro id l hl
  rw [hleases] at hl
  have hfacts := leaseValid_iff.mp (h.lease id l hl)
  rw [hsettlement, hpublications]
  exact leaseValid_iff.mpr (hfacts.grow hgrow hfacts.published)

/-- A rotation keeps the state valid. -/
theorem Sound.rotate (h : Sound s) {request : IdentityRotate}
    (hok : (s.identities.rotateIdentity request networkBinding).1 = .none) :
    Sound (s.rotate request networkBinding) := by
  obtain ⟨e, he, heq⟩ | ⟨record, _, _, _, packageId, hrecord, -, hepoch, -, hmax, -, -, -, -, -, -,
    heq⟩ := s.identities.toRegistryMaps.rotateIdentity_cases request networkBinding
  · have herr : (s.identities.rotateIdentity request networkBinding).1 = e := congrArg Prod.fst heq
    exact absurd (herr.symm.trans hok) he
  have hmap : (s.rotate request networkBinding).identities.accounts =
      s.identities.accounts.set request.accountId _ := congrArg (fun r => r.2.accounts) heq
  have hsize : (s.rotate request networkBinding).identities.accounts.size =
      s.identities.accounts.size := by
    rw [hmap]
    exact OrdMap.size_set_of_some hrecord
  have hgrow : AccountsGrow s.hasAccount s.keyEpoch (s.rotate request networkBinding).hasAccount
      (s.rotate request networkBinding).keyEpoch := by
    refine ⟨fun _ hid => hid, fun id _ e' he' => ?_⟩
    rw [CybouState.keyEpoch, IdentityRegistry.find, hmap] at he'
    by_cases hid : id = request.accountId
    · subst hid
      rw [OrdMap.find?_set_self] at he'
      cases he'
      refine ⟨record.keyEpoch, congrArg (Option.map _) hrecord, ?_⟩
      rw [hepoch]
      exact UInt64.le_of_lt (lt_add_one_of_ne_max hmax)
    · rw [OrdMap.find?_set_of_ne _ _ hid] at he'
      exact ⟨e', he', UInt64.le_refl _⟩
  refine ⟨{ h.toStateInvariant with identityCount := ?_, account := ?_, lease := ?_ },
    ⟨h.labels, h.leases⟩⟩
  · rw [hsize]
    exact h.identityCount
  · intro id a ha
    obtain ⟨hnull, ⟨r, hr⟩, hcovered⟩ := h.account id a ha
    refine ⟨hnull, ?_, hcovered⟩
    rw [IdentityRegistry.find, hmap]
    by_cases hid : id = request.accountId
    · subst hid
      exact ⟨_, OrdMap.find?_set_self ..⟩
    · exact ⟨r, (OrdMap.find?_set_of_ne _ _ hid).trans hr⟩
  · exact h.toStateInvariant.leases_grow hgrow rfl rfl rfl

/-! ### Names -/

theorem StateInvariant.withNames (h : StateInvariant s) {names : NameRegistry}
    (hcount : names.names.size = names.accountNames.size)
    (hname : ∀ label id, names.names.find? label = some id → nameAdmitted s label id = true ∧
      names.accountNames.find? id = some label ∧ s.hasAccount id = true)
    (hcommit : ∀ c r, names.pendingCommits.find? c = some r →
      c.isNull = false ∧ s.hasAccount r.accountId = true)
    (hcommitAccounts : (names.pendingCommits.entries.map (·.2.accountId)).Nodup)
    (hcommitLimit : names.pendingCommits.size ≤ DEFAULT_MAX_PENDING_NAME_COMMITS.toNat) :
    StateInvariant { s with names } :=
  { h with
    nameCount := hcount
    name := hname
    commit := hcommit
    commitAccounts := hcommitAccounts
    commitLimit := hcommitLimit }

theorem Sound.dropCommits (h : Sound s) {commits : OrdMap Hash256 NameCommitRecord}
    (hsub : commits.entries.Sublist s.names.pendingCommits.entries) :
    Sound { s with names := { s.names with pendingCommits := commits } } := by
  refine ⟨h.withNames h.nameCount h.name ?_ ?_ ?_, ⟨h.labels, h.leases⟩⟩
  · intro c r hr
    exact h.commit c r (OrdMap.mem_entries_iff.mp (hsub.subset (OrdMap.mem_entries_iff.mpr hr)))
  · exact h.commitAccounts.sublist (hsub.map _)
  · exact hsub.length_le.trans h.commitLimit

theorem Sound.expireCommits (h : Sound s) (ctx : BlockContext) :
    Sound (expireCommits ctx s) := by
  unfold Cybou.expireCommits
  split
  · exact h.dropCommits List.filter_sublist
  · exact h

theorem NameCommitDone.sound {op : AuthorizedNameCommit} (h : Sound s)
    (hparams : params.maxPendingNameCommits ≤ DEFAULT_MAX_PENDING_NAME_COMMITS)
    (hdone : NameCommitDone op networkBinding blockHeight params s s') : Sound s' := by
  have hauthorized := h.authorize op.authorization networkBinding
  rw [hdone.result]
  refine ⟨hauthorized.withNames h.nameCount hauthorized.name ?_ ?_ ?_,
    ⟨hauthorized.labels, hauthorized.leases⟩⟩
  · intro c r hr
    by_cases hc : c = op.commit.commitment
    · subst hc
      rw [OrdMap.find?_set_self] at hr
      cases hr
      exact ⟨hdone.commitment_ne_null, hdone.hasAccount⟩
    · rw [OrdMap.find?_set_of_ne _ _ hc] at hr
      exact h.commit c r hr
  · refine ((OrdMap.entries_set_perm hdone.fresh).map _).nodup_iff.mpr (List.nodup_cons.mpr ⟨?_, ?_⟩)
    · intro hmem
      obtain ⟨e, he, heq⟩ := List.mem_map.mp hmem
      exact hdone.uncommitted e.1 e.2 (OrdMap.mem_entries_iff.mp he) heq
    · exact h.commitAccounts
  · have hle := UInt32.le_iff_toNat_le.mp hparams
    have hroom := hdone.room
    rw [OrdMap.size_set_of_none hdone.fresh]
    omega

theorem NameRevealDone.sound {op : AuthorizedNameReveal} (h : Sound s)
    (hdone : NameRevealDone op networkBinding blockHeight params s s') : Sound s' := by
  have hauthorized := h.authorize op.authorization networkBinding
  obtain ⟨commitment, record, -, -, -, -, -, -, hresult⟩ := hdone.revealed
  rw [hresult]
  have hdropped : Sound { s.authorize op.authorization networkBinding with
      names := { s.names with pendingCommits := s.names.pendingCommits.erase commitment } } :=
    hauthorized.dropCommits List.filter_sublist
  refine ⟨hauthorized.withNames ?_ ?_ hdropped.commit hdropped.commitAccounts hdropped.commitLimit,
    ⟨?_, hauthorized.leases⟩⟩
  · rw [OrdMap.size_set_of_none hdone.free, OrdMap.size_set_of_none hdone.unnamed, h.nameCount]
  · intro label id hfind
    by_cases hlabel : label = op.reveal.label
    · subst hlabel
      rw [OrdMap.find?_set_self] at hfind
      cases hfind
      exact ⟨by simp [nameAdmitted, hdone.label], OrdMap.find?_set_self .., hdone.hasAccount⟩
    · rw [OrdMap.find?_set_of_ne _ _ hlabel] at hfind
      obtain ⟨hadmitted, hreverse, haccount⟩ := hauthorized.name label id hfind
      refine ⟨hadmitted, ?_, haccount⟩
      have hid : id ≠ op.authorization.accountId := by
        rintro rfl
        have hnone := hdone.unnamed
        rw [show s.names.accountNames.find? op.authorization.accountId = some label from hreverse]
          at hnone
        cases hnone
      exact (OrdMap.find?_set_of_ne _ _ hid).trans hreverse
  · intro key a ha hclaim hlabel
    rw [OrdMap.find?_set_of_ne _ _ (hdone.unreserved key a ha)]
    exact h.labels key a ha hclaim hlabel

/-! ### Leases -/

theorem fundedTerms_fundLease (order : LeaseOrder)
    (params : CybouProtocolParameters) (budget : AssignedStorageBudget) (account : AccountState) :
    (s.fundLease order params budget account).fundedTerms.Perm
      (order.term params s budget account :: s.fundedTerms) := by
  unfold CybouState.fundedTerms CybouState.fundLease CybouState.putLease
  cases hfind : s.leases.find? order.publicationId with
  | none => exact ((OrdMap.entries_set_perm hfind).map _).flatten
  | some lease =>
    have hold := (OrdMap.entries_perm_of_find? hfind).map
      fun e : Hash256 × StorageLeaseRecord => e.2.fundedTerms
    have hset : (s.leases.set order.publicationId (fundedLease order
        (order.term params s budget account) (some lease))).find? order.publicationId = _ :=
      OrdMap.find?_set_self ..
    have hnew := (OrdMap.entries_perm_of_find? hset).map
      fun e : Hash256 × StorageLeaseRecord => e.2.fundedTerms
    rw [OrdMap.erase_set] at hnew
    refine hnew.flatten.trans (List.Perm.trans ?_ (hold.flatten.cons _).symm)
    simp only [List.map_cons, List.flatten_cons, fundedLease, List.append_assoc]
    exact List.perm_middle

variable {order : LeaseOrder} {budget : AssignedStorageBudget}

theorem LeaseFunded.records (h : LeaseFunded order params budget account s s') (hid : s'.Records id) :
    s.Records id ∨ id = order.publicationId ∨ id = order.fundingOperationId := by
  rw [h.result] at hid
  obtain hpublication | hlease | hfunding := hid
  · exact .inl (.inl hpublication)
  · simp only [CybouState.fundLease, CybouState.putLease, OrdMap.contains_set, Bool.or_eq_true,
      decide_eq_true_eq] at hlease
    obtain heq | hlease := hlease
    · exact .inr (.inl heq)
    · exact .inl (.inr (.inl hlease))
  · have hmem := ((fundedTerms_fundLease order params budget account).map
      (·.fundingOperationId)).mem_iff.mp hfunding
    obtain heq | hmem := List.mem_cons.mp hmem
    · exact .inr (.inr heq)
    · exact .inl (.inr (.inr hmem))

theorem LeaseFunded.invariant (hdone : LeaseFunded order params budget account s s') (h : StateInvariant s)
    (hfacts : LeaseFacts s.hasAccount s.keyEpoch s.settlement.nextPeriod
      (s.publications.find? order.publicationId) order.publicationId
      (fundedLease order (order.term params s budget account) (s.leases.find? order.publicationId)))
    (hfresh : order.fundingOperationId ∉ s.fundingIds) : StateInvariant s' := by
  have hframe := SameFrame.putAccount hdone.payer (account.debitSystem order.escrow)
  have hdebit := exactTotal_debited hdone.payer hdone.covered
  have htotal := h.total
  have hpaid := h.of_frame hframe (h.onboardingCovered.putAccount (AccountState.debitSystem_covered
    (h.onboardingCovered _ account hdone.payer) hdone.covered)) (by omega)
  have hperm := fundedTerms_fundLease (s := s) order params budget account
  rw [hdone.result]
  refine { hpaid with total := ?_, lease := ?_, fundingIds := ?_, assignmentOperationIds := ?_ }
  · rw [exactTotal_fundLease hdone.payer hdone.covered (by omega)]
    exact htotal
  · intro id l hl
    by_cases hid : id = order.publicationId
    · subst hid
      rw [CybouState.fundLease, CybouState.putLease, OrdMap.find?_set_self] at hl
      cases hl
      have haccounts : (s.fundLease order params budget account).hasAccount = s.hasAccount :=
        hframe.accounts
      rw [haccounts]
      exact leaseValid_iff.mpr hfacts
    · rw [CybouState.fundLease, CybouState.putLease, OrdMap.find?_set_of_ne _ _ hid] at hl
      exact hpaid.lease id l hl
  · refine (hperm.map _).nodup_iff.mpr (List.nodup_cons.mpr ⟨hfresh, h.fundingIds⟩)
  · have hids := (hperm.map (·.assignmentOperationIds)).flatten
    exact hids.nodup_iff.mpr h.assignmentOperationIds

omit [Crypto] in
theorem validateProtocolParameters_bounds (h : validateProtocolParameters params = true) :
    params.storageReplicaTarget ≤ MAX_STORAGE_LEASE_REPLICAS ∧
      params.maxPendingNameCommits ≤ DEFAULT_MAX_PENDING_NAME_COMMITS := by
  simp only [validateProtocolParameters, Bool.and_eq_true, Bool.not_eq_true', Bool.or_eq_false_iff,
    decide_eq_false_iff_not] at h
  obtain ⟨⟨⟨⟨-, hstorage⟩, -⟩, -⟩, hnames⟩ := h
  exact ⟨UInt8.not_lt.mp hstorage.1.1.1.1.2, UInt32.not_lt.mp hnames.2⟩

theorem Sound.paid (h : Sound s) {authorization : IdentityOperationAuthorization}
    (networkBinding : Hash256) {sender : AccountState}
    (hsender : s.accounts.find? authorization.accountId = some sender)
    (hle : fee ≤ sender.systemBalance) (href : centralAuthorityFeeBalance s = some ref) :
    Sound ((s.authorize authorization networkBinding).payFee authorization.accountId sender fee) := by
  have hframe := SameFrame.ofAuthorize s authorization networkBinding
  exact (h.authorize authorization networkBinding).payFee hsender hle
    (hframe.centralAuthorityFeeBalance.trans href)

theorem LeaseFunded.sound (hdone : LeaseFunded order params budget account s s') (h : Sound s) (hroom : Room s)
    (hnull : order.publicationId.isNull = false) (hunits : order.units ≠ 0)
    (hreplicas : order.replicas ≤ MAX_STORAGE_LEASE_REPLICAS)
    (hpublished : ∀ p ∈ s.publications.find? order.publicationId,
      p.owner = order.payer ∧ p.chunkCount = order.units)
    (hends : ∀ lease ∈ s.leases.find? order.publicationId, ∀ term ∈ lease.fundedTerms,
      term.endPeriod ≤ lease.endPeriod) (hfresh : order.fundingOperationId ∉ s.fundingIds) : Sound s' := by
  have hfacts := hdone.leaseFacts h.toStateInvariant hnull hunits hreplicas hpublished hends
    fun lease hlease => hroom.terms _ lease hlease
  refine ⟨hdone.invariant h.toStateInvariant hfacts hfresh, ?_⟩
  rw [hdone.result]
  refine ⟨h.labels, fun id p lease hp hl => ?_⟩
  by_cases hid : id = order.publicationId
  · subst hid
    rw [CybouState.fundLease, CybouState.putLease, OrdMap.find?_set_self] at hl
    cases hl
    exact hdone.ends hends
  · rw [CybouState.fundLease, CybouState.putLease, OrdMap.find?_set_of_ne _ _ hid] at hl
    exact h.leases id p lease hp hl

theorem Room.of_frame (h : Room s) (hf : SameFrame s s') : Room s' where
  cursor := hf.settlement ▸ h.cursor
  terms := hf.leases ▸ h.terms

/-- A lease keeps the state valid and records its own id only. -/
theorem StorageLeaseDone.sound {op : AuthorizedStorageLease} (h : Sound s) (hroom : Room s)
    (hparams : params.storageReplicaTarget ≤ MAX_STORAGE_LEASE_REPLICAS)
    (hfresh : ∀ id, computeOperationId (.storageLease op) = some id → ¬s.Records id)
    (hdone : StorageLeaseDone op networkBinding params s s') :
    Sound s' ∧ ∀ id, s'.Records id →
      s.Records id ∨ computeOperationId (.storageLease op) = some id := by
  obtain ⟨ref, href⟩ := hdone.treasury
  obtain ⟨sender, publication, escrow, fundingId, budget, account, hsender, hpublication, howner,
    hid, hdue, hfunded⟩ := hdone.funded
  have hfee : params.paymentFee ≤ sender.systemBalance := by
    rw [UInt64.le_iff_toNat_le]
    omega
  have hframe := SameFrame.paid networkBinding params.paymentFee hsender
  have hpaid := h.paid networkBinding hsender hfee href
  obtain ⟨hnull, hunits, -⟩ := h.publication _ publication hpublication
  have hreplicas : leaseReplicas params (s.leases.find? op.lease.publicationId) ≤
      MAX_STORAGE_LEASE_REPLICAS := by
    cases hfind : s.leases.find? op.lease.publicationId with
    | none => exact hparams
    | some lease => exact (leaseValid_iff.mp (h.lease _ lease hfind)).replicaLimit
  refine ⟨hfunded.sound hpaid (hroom.of_frame hframe) hnull hunits hreplicas ?_ ?_ ?_, ?_⟩
  · intro p hp
    rw [hframe.publications] at hp
    cases hpublication.symm.trans hp
    exact ⟨howner, rfl⟩
  · intro lease hlease
    rw [hframe.leases] at hlease
    exact h.leases _ publication lease hpublication hlease
  · intro hmem
    have hrecords : CybouState.Records _ fundingId := .inr (.inr hmem)
    exact hfresh fundingId hid (hrecords.congr hframe.publications hframe.leases)
  · intro id hrecords
    obtain hold | rfl | rfl := hfunded.records hrecords
    · exact .inl (hold.congr hframe.publications hframe.leases)
    · exact .inl (.inl (OrdMap.contains_of_find? hpublication))
    · exact .inr hid

/-! ### Publications -/

variable {record : PublicationRecord}

theorem Sound.publish (h : Sound s) (hnull : id.isNull = false) (hcount : record.chunkCount ≠ 0)
    (howner : s.hasAccount record.owner = true)
    (hlease : ∀ lease ∈ s.leases.find? id, lease.payer = record.owner ∧
      lease.units = record.chunkCount ∧ ∀ term ∈ lease.fundedTerms, term.endPeriod ≤ lease.endPeriod) :
    Sound { s with publications := s.publications.set id record } := by
  refine ⟨{ h.toStateInvariant with publication := ?_, lease := ?_ }, ⟨h.labels, ?_⟩⟩
  · intro id' p hp
    by_cases hid : id' = id
    · subst hid
      rw [OrdMap.find?_set_self] at hp
      cases hp
      exact ⟨hnull, hcount, howner⟩
    · rw [OrdMap.find?_set_of_ne _ _ hid] at hp
      exact h.publication id' p hp
  · intro id' l hl
    have hfacts := leaseValid_iff.mp (h.lease id' l hl)
    refine leaseValid_iff.mpr (hfacts.grow (AccountsGrow.refl _ _) ?_)
    intro p hp
    by_cases hid : id' = id
    · subst hid
      rw [OrdMap.find?_set_self] at hp
      cases hp
      obtain ⟨hpayer, hunits, -⟩ := hlease l hl
      exact ⟨hpayer.symm, hunits.symm⟩
    · rw [OrdMap.find?_set_of_ne _ _ hid] at hp
      exact hfacts.published p hp
  · intro id' p l hp hl
    by_cases hid : id' = id
    · subst hid
      exact (hlease l hl).2.2
    · rw [OrdMap.find?_set_of_ne _ _ hid] at hp
      exact h.leases id' p l hp hl

theorem CybouState.Records.publish {id' : Hash256}
    (h : CybouState.Records { s with publications := s.publications.set id record } id') :
    s.Records id' ∨ id' = id := by
  obtain hpublication | hlease | hfunding := h
  · simp only [OrdMap.contains_set, Bool.or_eq_true, decide_eq_true_eq] at hpublication
    obtain heq | hpublication := hpublication
    · exact .inr heq
    · exact .inl (.inl hpublication)
  · exact .inl (.inr (.inl hlease))
  · exact .inl (.inr (.inr hfunding))

theorem LeaseFunded.publish
    (hdone : LeaseFunded order params budget account s s') (h : Sound s) (hroom : Room s)
    (hnull : order.publicationId.isNull = false) (hunits : order.units ≠ 0)
    (hreplicas : order.replicas ≤ MAX_STORAGE_LEASE_REPLICAS)
    (hfunding : order.fundingOperationId = order.publicationId) (hfresh : ¬s.Records order.publicationId)
    (howner : record.owner = order.payer) (hcount : record.chunkCount = order.units) :
    Sound { s' with publications := s'.publications.set order.publicationId record } := by
  simp only [CybouState.Records, not_or] at hfresh
  have hpublication := OrdMap.contains_eq_false_iff.mp (eq_false_of_ne_true hfresh.1)
  have hlease := OrdMap.contains_eq_false_iff.mp (eq_false_of_ne_true hfresh.2.1)
  have hends : ∀ lease ∈ s.leases.find? order.publicationId, ∀ term ∈ lease.fundedTerms,
      term.endPeriod ≤ lease.endPeriod := by
    rw [hlease]
    nofun
  have hsound := hdone.sound h hroom hnull hunits hreplicas (by rw [hpublication]; nofun) hends
    (hfunding ▸ hfresh.2.2)
  have hfunded := hdone.ends hends
  have hfind : s'.leases.find? order.publicationId = some (fundedLease order
      (order.term params s budget account) (s.leases.find? order.publicationId)) := by
    rw [hdone.result]
    exact OrdMap.find?_set_self ..
  refine hsound.publish hnull (hcount ▸ hunits) ?_ ?_
  · rw [howner, hdone.result]
    exact OrdMap.contains_of_find? (OrdMap.find?_set_self ..)
  · intro lease hl
    cases hfind.symm.trans hl
    refine ⟨?_, ?_, hfunded⟩
    · rw [hlease, howner]
      rfl
    · rw [hlease, hcount]
      rfl

variable {ctx : BlockContext} {s₁ : CybouState}

/-- A publication keeps the state valid and records its own id only. -/
theorem RootPublicationDone.sound {op : AuthorizedRootPublication} (h : Sound s) (hroom : Room s)
    (hparams : ctx.params.storageReplicaTarget ≤ MAX_STORAGE_LEASE_REPLICAS)
    (hfresh : ∀ id, computeOperationId (.rootPublication op) = some id → ¬s.Records id)
    (hdone : RootPublicationDone op ctx.networkBinding ctx.params s s₁)
    (hrecorded : Recorded ctx (.rootPublication op) s₁ s') :
    Sound s' ∧ ∀ id, s'.Records id →
      s.Records id ∨ computeOperationId (.rootPublication op) = some id := by
  obtain ⟨id, hid, hcount, -, howner, rfl⟩ := hrecorded
  obtain ⟨ref, href⟩ := hdone.treasury
  obtain ⟨fee, publicationId, escrow, sender, hpriced, -, hsender, hdue, hresult⟩ := hdone.paid
  have hsame := computeOperationId_of_publicationFeeAndId hpriced
  rw [hid, Option.some.injEq] at hsame
  subst hsame
  have hnull := publicationFeeAndId_ne_null hpriced
  have hfee : fee ≤ sender.systemBalance := by
    rw [UInt64.le_iff_toNat_le]
    omega
  have hframe := SameFrame.paid ctx.networkBinding fee hsender
  have hpaid := h.paid ctx.networkBinding hsender hfee href
  have hunrecorded := fun hrecords : CybouState.Records _ id =>
    hfresh id hid (hrecords.congr hframe.publications hframe.leases)
  constructor
  · obtain ⟨-, rfl⟩ | ⟨-, budget, account, hfunded⟩ := hresult
    · refine hpaid.publish hnull hcount howner fun lease hlease => ?_
      exact absurd (.inr (.inl (OrdMap.contains_of_find? hlease))) hunrecorded
    · exact hfunded.publish hpaid (hroom.of_frame hframe) hnull hcount hparams rfl hunrecorded rfl rfl
  · intro id' hrecords
    obtain hold | rfl := hrecords.publish
    · obtain ⟨-, rfl⟩ | ⟨-, budget, account, hfunded⟩ := hresult
      · exact .inl (hold.congr hframe.publications hframe.leases)
      · obtain hold | rfl | rfl := hfunded.records hold
        · exact .inl (hold.congr hframe.publications hframe.leases)
        · exact .inr hid
        · exact .inr hid
    · exact .inr hid

theorem fundedTerms_closeLease (s : CybouState) (publicationId : Hash256) :
    (closeLease s publicationId).fundedTerms = s.fundedTerms := by
  unfold closeLease CybouState.fundedTerms
  split
  · rfl
  · next lease hlease =>
    exact congrArg List.flatten (OrdMap.map_entries_set_of_some (f :=
      fun e : Hash256 × StorageLeaseRecord => e.2.fundedTerms) hlease rfl)

variable {publicationId : Hash256}

theorem closeLease_cases {lease : StorageLeaseRecord}
    (h : (closeLease s publicationId).leases.find? id = some lease) :
    (id = publicationId ∧ ∃ old, s.leases.find? id = some old ∧
        lease = old.close s.settlement.nextPeriod) ∨
      (id ≠ publicationId ∧ s.leases.find? id = some lease) := by
  unfold closeLease at h
  by_cases hid : id = publicationId
  · subst hid
    split at h
    · next hnone => cases hnone.symm.trans h
    · next old hold =>
      rw [CybouState.putLease, OrdMap.find?_set_self] at h
      exact .inl ⟨rfl, old, hold, (Option.some.inj h).symm⟩
  · refine .inr ⟨hid, ?_⟩
    split at h
    · exact h
    · rwa [CybouState.putLease, OrdMap.find?_set_of_ne _ _ hid] at h

theorem Sound.unpublish (h : Sound s) (hroom : Room s) (publicationId : Hash256) :
    Sound (s.unpublish publicationId) := by
  have htotal := exactTotal_unpublish s publicationId
  have hterms := fundedTerms_closeLease s publicationId
  rw [unpublish_eq] at htotal ⊢
  refine ⟨{ h.toStateInvariant with
    total := htotal ▸ h.total, publication := ?_, lease := ?_, fundingIds := ?_
    assignmentOperationIds := ?_ }, ⟨h.labels, ?_⟩⟩
  · intro id p hp
    simp only [OrdMap.find?_erase] at hp
    split at hp
    · cases hp
    · exact h.publication id p hp
  · intro id lease hl
    obtain ⟨rfl, old, hold, rfl⟩ | ⟨hid, hl⟩ := closeLease_cases hl
    · have hfacts := (leaseValid_iff.mp (h.lease id old hold)).close hroom.cursor
      simp only [OrdMap.find?_erase, if_true]
      exact leaseValid_iff.mpr hfacts
    · simp only [OrdMap.find?_erase, if_neg hid]
      exact h.lease id lease hl
  · show ((closeLease s publicationId).fundedTerms.map (·.fundingOperationId)).Nodup
    rw [hterms]
    exact h.fundingIds
  · show ((closeLease s publicationId).fundedTerms.map (·.assignmentOperationIds)).flatten.Nodup
    rw [hterms]
    exact h.assignmentOperationIds
  · intro id p lease hp hl
    simp only [OrdMap.find?_erase] at hp
    split at hp
    · cases hp
    · next hid =>
      obtain ⟨rfl, -⟩ | ⟨-, hl⟩ := closeLease_cases hl
      · exact absurd rfl hid
      · exact h.leases id p lease hp hl

theorem CybouState.Records.unpublish (h : (s.unpublish publicationId).Records id) : s.Records id := by
  rw [unpublish_eq] at h
  obtain hpublication | hlease | hfunding := h
  · obtain ⟨p, hp⟩ := OrdMap.contains_iff.mp hpublication
    simp only [OrdMap.find?_erase] at hp
    split at hp
    · cases hp
    · exact .inl (OrdMap.contains_of_find? hp)
  · obtain ⟨lease, hl⟩ := OrdMap.contains_iff.mp hlease
    obtain ⟨-, old, hold, -⟩ | ⟨-, hl⟩ := closeLease_cases hl
    · exact .inr (.inl (OrdMap.contains_of_find? hold))
    · exact .inr (.inl (OrdMap.contains_of_find? hl))
  · have hmem : id ∈ (closeLease s publicationId).fundedTerms.map (·.fundingOperationId) := hfunding
    rw [fundedTerms_closeLease] at hmem
    exact .inr (.inr hmem)

theorem RevokePublicationDone.sound {op : AuthorizedRevokePublication} (h : Sound s) (hroom : Room s)
    (hdone : RevokePublicationDone op networkBinding params s s') :
    Sound s' ∧ ∀ id, s'.Records id → s.Records id := by
  obtain ⟨ref, href⟩ := hdone.treasury
  obtain ⟨sender, record, hsender, -, -, hfee, rfl⟩ := hdone.closed
  have hframe := SameFrame.ofAuthorize s op.authorization networkBinding
  have hclosed := (h.authorize op.authorization networkBinding).unpublish (hroom.of_frame hframe)
    op.revoke.publicationId
  have hfind := find?_unpublished op.authorization networkBinding op.revoke.publicationId hsender
  have htreasury := treasury_unpublished op.authorization networkBinding op.revoke.publicationId href
  refine ⟨hclosed.payFee hfind hfee htreasury, fun id hrecords => ?_⟩
  have hpaid := SameFrame.payFee params.paymentFee hfind
  have hold := (hrecords.congr hpaid.publications hpaid.leases).unpublish
  exact hold.congr hframe.publications hframe.leases

/-! ### Accounts -/

variable {label : Bytes}

theorem StateInvariant.names_of_accountNames (h : StateInvariant s)
    {id : AccountId} (hname : s.names.accountNames.find? id = some label) :
    s.names.names.find? label = some id := by
  -- the listing maps injectively into the reverse listing, which is no longer
  have hsub : (s.names.names.entries.map Prod.swap).Subperm s.names.accountNames.entries := by
    refine List.subperm_of_subset ?_ ?_
    · refine List.Nodup.map Prod.swap_injective ?_
      exact s.names.names.ascending.imp fun hlt heq => absurd (heq ▸ hlt) (lt_irrefl _)
    · intro e he
      obtain ⟨e', he', rfl⟩ := List.mem_map.mp he
      exact OrdMap.mem_entries_iff.mpr (h.name e'.1 e'.2 (OrdMap.mem_entries_iff.mp he')).2.1
  have hperm := hsub.perm_of_length_le (by
    rw [List.length_map]
    exact Nat.le_of_eq h.nameCount.symm)
  have hmem := hperm.mem_iff.mpr (OrdMap.mem_entries_iff.mpr hname)
  obtain ⟨e, he, heq⟩ := List.mem_map.mp hmem
  cases heq
  exact OrdMap.mem_entries_iff.mp he

/-- A new account, with nothing but system balance. -/
theorem Sound.openAccount (h : Sound s) {id : AccountId} (account : AccountState)
    {identities : IdentityRegistry} {record : IdentityRecord}
    (hroom : s.accounts.size < MAX_IDENTITY_REGISTRY_ACCOUNTS)
    (hnull : Hash256.isNull id = false) (hfresh : s.accounts.find? id = none)
    (hunregistered : s.identities.find id = none)
    (hset : identities.accounts = s.identities.accounts.set id record)
    (hcovered : account.onboardingSystemBalance ≤ account.systemBalance)
    (htotal : exactTotal { s with accounts := s.accounts.set id account } < 2 ^ 64 - 1) :
    Sound { s with accounts := s.accounts.set id account, identities } := by
  have hgrow : AccountsGrow s.hasAccount s.keyEpoch
      (CybouState.hasAccount { s with accounts := s.accounts.set id account, identities })
      (CybouState.keyEpoch { s with accounts := s.accounts.set id account, identities }) := by
    constructor
    · intro id' hid'
      simp only [CybouState.hasAccount, OrdMap.contains_set, Bool.or_eq_true] at hid' ⊢
      exact .inr hid'
    · intro id' hid' e' he'
      have hne : id' ≠ id := by
        rintro rfl
        rw [CybouState.hasAccount, OrdMap.contains_eq_false_iff.mpr hfresh] at hid'
        cases hid'
      rw [CybouState.keyEpoch, IdentityRegistry.find, hset, OrdMap.find?_set_of_ne _ _ hne] at he'
      exact ⟨e', he', UInt64.le_refl _⟩
  refine ⟨{ h.toStateInvariant with
    accountLimit := ?_, identityCount := ?_, account := ?_, allocation := ?_, name := ?_
    commit := ?_, total := htotal, publication := ?_, lease := ?_ }, ⟨h.labels, h.leases⟩⟩
  · rw [OrdMap.size_set_of_none hfresh]
    exact hroom
  · rw [hset, OrdMap.size_set_of_none hfresh, OrdMap.size_set_of_none hunregistered, h.identityCount]
  · intro id' a ha
    rw [IdentityRegistry.find, hset]
    by_cases hid : id' = id
    · subst hid
      rw [OrdMap.find?_set_self] at ha
      cases ha
      exact ⟨hnull, ⟨record, OrdMap.find?_set_self ..⟩, hcovered⟩
    · rw [OrdMap.find?_set_of_ne _ _ hid] at ha ⊢
      exact h.account id' a ha
  · intro key a ha
    obtain ⟨hlabel, hclaim⟩ := h.allocation key a ha
    exact ⟨hlabel, fun claimant hmem => hgrow.accounts _ (hclaim claimant hmem)⟩
  · intro label id' hname
    obtain ⟨hadmitted, hreverse, haccount⟩ := h.name label id' hname
    exact ⟨hadmitted, hreverse, hgrow.accounts _ haccount⟩
  · intro c r hr
    obtain ⟨hcommitNull, haccount⟩ := h.commit c r hr
    exact ⟨hcommitNull, hgrow.accounts _ haccount⟩
  · intro id' p hp
    obtain ⟨hpublicationNull, hcount, howner⟩ := h.publication id' p hp
    exact ⟨hpublicationNull, hcount, hgrow.accounts _ howner⟩
  · exact h.toStateInvariant.leases_grow hgrow rfl rfl rfl

theorem eq_of_label (h : s.allocationLabels.Nodup) {key key' : IdentityKeyId}
    {a a' : GenesisAllocation} (ha : s.genesisAllocations.find? key = some a)
    (ha' : s.genesisAllocations.find? key' = some a') (hlabel : a.label ≠ [])
    (heq : a'.label = a.label) : (key', a') = (key, a) := by
  rw [CybouState.allocationLabels, List.filter_map] at h
  have hmem : ∀ {k : IdentityKeyId} {b : GenesisAllocation},
      s.genesisAllocations.find? k = some b → b.label ≠ [] →
      (k, b) ∈ s.genesisAllocations.entries.filter
        ((fun label : Bytes => !label.isEmpty) ∘ fun e => e.2.label) := by
    intro k b hb hne
    exact List.mem_filter.mpr ⟨OrdMap.mem_entries_iff.mpr hb, by simpa using hne⟩
  exact List.inj_on_of_nodup_map h (hmem ha' (heq ▸ hlabel)) (hmem ha hlabel) heq

theorem grantedTo_iff (h : s.allocationLabels.Nodup) (hlabel : label ≠ []) {id : AccountId} :
    s.grantedTo label = some id ↔ ∃ key a, s.genesisAllocations.find? key = some a ∧
      a.label = label ∧ a.claimedBy = some id := by
  unfold CybouState.grantedTo
  constructor
  · intro hgranted
    obtain ⟨e, hfind, hclaim⟩ := Option.bind_eq_some_iff.mp hgranted
    have hmatch := List.find?_some hfind
    simp only [Bool.and_eq_true, decide_eq_true_eq] at hmatch
    exact ⟨e.1, e.2, OrdMap.mem_entries_iff.mp (List.mem_of_find?_eq_some hfind), hmatch.1, hclaim⟩
  · rintro ⟨key, a, ha, rfl, hclaim⟩
    have hsome : (s.genesisAllocations.entries.find? fun e =>
        decide (e.2.label = a.label) && e.2.claimedBy.isSome).isSome = true :=
      List.find?_isSome.mpr ⟨(key, a), OrdMap.mem_entries_iff.mpr ha, by simp [hclaim]⟩
    obtain ⟨e, hfind⟩ := Option.isSome_iff_exists.mp hsome
    have hmatch := List.find?_some hfind
    simp only [Bool.and_eq_true, decide_eq_true_eq] at hmatch
    have hsame := eq_of_label h ha (OrdMap.mem_entries_iff.mp (List.mem_of_find?_eq_some hfind))
      hlabel hmatch.1
    rw [hfind, Option.bind_some, show e = (key, a) from hsame]
    exact hclaim

theorem nameAdmitted_ne_nil {id : AccountId} (h : nameAdmitted s label id = true) : label ≠ [] := by
  rintro rfl
  simp [nameAdmitted, validateNameLabel] at h

section Claim

variable {s : CybouState} {key : IdentityKeyId} {a : GenesisAllocation} {id : AccountId}
  (ha : s.genesisAllocations.find? key = some a) (hclaim : a.claimedBy = none)

include ha in
theorem allocationLabels_claim : (s.claim key a id).allocationLabels = s.allocationLabels := by
  unfold CybouState.allocationLabels CybouState.claim
  exact congrArg _ (OrdMap.map_entries_set_of_some
    (f := fun e : IdentityKeyId × GenesisAllocation => e.2.label) ha rfl)

include ha hclaim in
theorem nameAdmitted_claim (hlabels : s.allocationLabels.Nodup) {label : Bytes} {id' : AccountId}
    (h : nameAdmitted s label id' = true) : nameAdmitted (s.claim key a id) label id' = true := by
  have hlabel := nameAdmitted_ne_nil h
  have hlabels' : (s.claim key a id).allocationLabels.Nodup := allocationLabels_claim ha ▸ hlabels
  simp only [nameAdmitted, Bool.or_eq_true, Bool.and_eq_true, decide_eq_true_eq] at h ⊢
  rcases h with hprotected | ⟨hprotected, hgranted⟩
  · exact .inl hprotected
  obtain ⟨key', a', ha', hlabel', hclaim'⟩ := (grantedTo_iff hlabels hlabel).mp hgranted
  have hne : key' ≠ key := by
    rintro rfl
    cases ha.symm.trans ha'
    cases hclaim.symm.trans hclaim'
  refine .inr ⟨hprotected, ?_⟩
  exact (grantedTo_iff hlabels' hlabel).mpr
    ⟨key', a', (OrdMap.find?_set_of_ne _ _ hne).trans ha', hlabel', hclaim'⟩

include ha hclaim in
theorem names_claim (h : Regular s) (hunnamed : s.names.accountNames.find? id = none) :
    (a.label = [] ∧ (s.claim key a id).names = s.names) ∨
      (a.label ≠ [] ∧ s.names.names.find? a.label = none ∧ (s.claim key a id).names =
        { s.names with
          names := s.names.names.set a.label id
          accountNames := s.names.accountNames.set id a.label }) := by
  by_cases hlabel : a.label = []
  · exact .inl ⟨hlabel, by simp [CybouState.claim, hlabel]⟩
  · have hfree := h.labels key a ha hclaim hlabel
    refine .inr ⟨hlabel, hfree, ?_⟩
    rw [CybouState.claim, OrdMap.emplace_of_none hfree, OrdMap.emplace_of_none hunnamed]
    simp [hlabel]

include ha hclaim in
/-- **Claiming an allocation** for an account without a name. -/
theorem Sound.claim (h : Sound s) (hid : s.hasAccount id = true)
    (hunnamed : s.names.accountNames.find? id = none) : Sound (s.claim key a id) := by
  have hlabels : (s.claim key a id).allocationLabels.Nodup :=
    allocationLabels_claim ha ▸ h.allocationLabels
  have htotal : exactTotal (s.claimFor id (some (key, a))) +
      (claimedAmount (some (key, a))).toNat = exactTotal s := by
    refine exactTotal_claimFor id fun e he => ?_
    cases he
    exact ⟨ha, hclaim⟩
  have hsum : exactTotal (s.claim key a id) ≤ exactTotal s := Nat.le.intro htotal
  have hcommits : (s.claim key a id).names.pendingCommits = s.names.pendingCommits := by
    unfold CybouState.claim
    dsimp only
    split <;> rfl
  have hnames := names_claim ha hclaim h.toRegular hunnamed
  refine ⟨{ h.toStateInvariant with
    nameCount := ?_, allocationLimit := ?_, allocation := ?_, allocationLabels := hlabels
    name := ?_, commit := ?_, commitAccounts := ?_, commitLimit := ?_
    total := Nat.lt_of_le_of_lt hsum h.total }, ⟨?_, h.leases⟩⟩
  · obtain ⟨-, heq⟩ | ⟨-, hfree, heq⟩ := hnames
    · rw [heq]
      exact h.nameCount
    · rw [heq, OrdMap.size_set_of_none hfree, OrdMap.size_set_of_none hunnamed, h.nameCount]
  · exact (OrdMap.size_set_of_some ha).trans_le h.allocationLimit
  · intro key' a' ha'
    by_cases hkey : key' = key
    · subst hkey
      rw [CybouState.claim, OrdMap.find?_set_self] at ha'
      cases ha'
      refine ⟨(h.allocation key' a ha).1, fun claimant hclaimant => ?_⟩
      cases hclaimant
      exact hid
    · rw [CybouState.claim, OrdMap.find?_set_of_ne _ _ hkey] at ha'
      exact h.allocation key' a' ha'
  · intro label id' hname
    obtain ⟨-, heq⟩ | ⟨hlabel, -, heq⟩ := hnames
    · rw [heq] at hname ⊢
      obtain ⟨hadmitted, hrest⟩ := h.name label id' hname
      exact ⟨nameAdmitted_claim ha hclaim h.allocationLabels hadmitted, hrest⟩
    · rw [heq] at hname ⊢
      by_cases hnew : label = a.label
      · subst hnew
        rw [OrdMap.find?_set_self] at hname
        cases hname
        refine ⟨?_, OrdMap.find?_set_self .., hid⟩
        have hgranted : (s.claim key a id).grantedTo a.label = some id :=
          (grantedTo_iff hlabels hlabel).mpr ⟨key, _, OrdMap.find?_set_self .., rfl, rfl⟩
        have hsyntax := (h.allocation key a ha).1.resolve_left hlabel
        simp only [wellFormedLabel, Bool.or_eq_true, decide_eq_true_eq] at hsyntax
        simpa only [nameAdmitted, Bool.or_eq_true, Bool.and_eq_true, decide_eq_true_eq, hgranted,
          and_true] using hsyntax
      · rw [OrdMap.find?_set_of_ne _ _ hnew] at hname
        obtain ⟨hadmitted, hreverse, haccount⟩ := h.name label id' hname
        refine ⟨nameAdmitted_claim ha hclaim h.allocationLabels hadmitted, ?_, haccount⟩
        have hne : id' ≠ id := by
          rintro rfl
          cases hunnamed.symm.trans hreverse
        exact (OrdMap.find?_set_of_ne _ _ hne).trans hreverse
  · rw [hcommits]
    exact h.commit
  · rw [hcommits]
    exact h.commitAccounts
  · rw [hcommits]
    exact h.commitLimit
  · intro key' a' ha' hunclaimed hlabel'
    have hkey : key' ≠ key := by
      rintro rfl
      rw [CybouState.claim, OrdMap.find?_set_self] at ha'
      cases ha'
      cases hunclaimed
    rw [CybouState.claim, OrdMap.find?_set_of_ne _ _ hkey] at ha'
    have hfree' := h.labels key' a' ha' hunclaimed hlabel'
    obtain ⟨-, heq⟩ | ⟨hlabel, -, heq⟩ := hnames
    · rw [heq]
      exact hfree'
    · rw [heq]
      refine (OrdMap.find?_set_of_ne _ _ fun hsame => ?_).trans hfree'
      have hentry := eq_of_label h.allocationLabels ha ha' hlabel hsame
      exact hkey (congrArg Prod.fst hentry)

end Claim

section Create

variable {op : AccountCreateOp} {networkBinding : Hash256} {blockHeight : UInt64}
  {params : CybouProtocolParameters} {s s' : CybouState}

omit [Crypto] in
def bonusAccount (params : CybouProtocolParameters) (blockHeight : UInt64)
    (claim : Option (IdentityKeyId × GenesisAllocation)) : AccountState :=
  { openedAccount params blockHeight claim with balance := 0 }

theorem spendTreasury_register (bonus : UInt64)
    (hregistered : (s.identities.register op networkBinding blockHeight params).1 = .none)
    (htreasury : bonus ≠ 0 → ∃ ref, centralAuthorityFeeBalance s = some ref ∧ bonus ≤ ref.read s) :
    (s.registerIdentity op networkBinding blockHeight params).spendTreasury bonus =
      { s.spendTreasury bonus with
        identities := (s.registerIdentity op networkBinding blockHeight params).identities } := by
  unfold CybouState.spendTreasury
  by_cases hzero : bonus = 0
  · simp only [hzero, if_true]
    rfl
  · obtain ⟨ref, href, -⟩ := htreasury hzero
    simp only [if_neg hzero, href, treasury_register hregistered href]
    cases ref with
    | allocation key =>
      simp only [BalanceRef.write, CybouState.registerIdentity]
      split <;> rfl
    | account id =>
      simp only [BalanceRef.write, CybouState.registerIdentity]
      split <;> rfl

theorem AccountCreateDone.result_eq (h : AccountCreateDone op networkBinding blockHeight params s s') :
    let claim := claimableAllocation s op.authorization.recoveryRoot
    let spent := s.spendTreasury (onboardingBonusFor params claim)
    s' = (CybouState.claimFor
      { spent with
        accounts := spent.accounts.set op.accountId (bonusAccount params blockHeight claim)
        identities := (s.registerIdentity op networkBinding blockHeight params).identities }
      op.accountId claim).putAccount op.accountId (openedAccount params blockHeight claim) := by
  have hresult := h.result
  dsimp only at hresult ⊢
  rw [hresult, spendTreasury_register _ h.registered h.treasury]
  cases claimableAllocation s op.authorization.recoveryRoot with
  | none => exact (putAccount_putAccount _ _ _ _).symm
  | some e => exact (putAccount_putAccount _ _ _ _).symm

theorem AccountCreateDone.accountId_ne_null
    (h : AccountCreateDone op networkBinding blockHeight params s s') :
    Hash256.isNull op.accountId = false := by
  obtain ⟨e, he, heq⟩ | ⟨_, _, _, hvalid, -, -, -, -, -, -⟩ :=
    s.identities.toRegistryMaps.register_cases op networkBinding blockHeight params
  · have herr : (s.identities.register op networkBinding blockHeight params).1 = e :=
      congrArg Prod.fst heq
    exact absurd (herr.symm.trans h.registered) he
  · exact accountId_ne_null_of_valid hvalid

/-- A creation keeps the state valid. -/
theorem AccountCreateDone.sound (h : Sound s)
    (hdone : AccountCreateDone op networkBinding blockHeight params s s') : Sound s' := by
  have hsum := hdone.exactTotal_eq
  have hspent := exactTotal_spendTreasury hdone.treasury
  have hallocations := claim_spendTreasury params op.authorization.recoveryRoot
    (rfl : s.genesisAllocations = s.genesisAllocations)
  have hresult := hdone.result_eq
  obtain ⟨hunregistered, record, hset⟩ := accounts_register hdone.registered
  have hnull := hdone.accountId_ne_null
  have htotal := h.total
  generalize claimableAllocation s op.authorization.recoveryRoot = claim at *
  dsimp only at hresult
  -- the bonus leaves the treasury
  have hframe := SameFrame.spendTreasury s (onboardingBonusFor params claim)
  have hpaid : Sound (s.spendTreasury (onboardingBonusFor params claim)) :=
    h.of_frame hframe (h.onboardingCovered.spendTreasury _) (by omega)
  have hfresh := accounts_spendTreasury_find? (onboardingBonusFor params claim) hdone.fresh
  have hunnamed : (s.spendTreasury (onboardingBonusFor params claim)).names.accountNames.find?
      op.accountId = none := by
    cases hname : (s.spendTreasury (onboardingBonusFor params claim)).names.accountNames.find?
      op.accountId with
    | none => rfl
    | some label =>
      have hlisted := hpaid.names_of_accountNames hname
      have haccount := (hpaid.name label op.accountId hlisted).2.2
      rw [CybouState.hasAccount, OrdMap.contains_eq_false_iff.mpr hfresh] at haccount
      cases haccount
  -- and becomes the account's system balance
  rw [← identities_spendTreasury s (onboardingBonusFor params claim)] at hunregistered hset
  have hnew := exactTotal_newAccount (bonusAccount params blockHeight claim) hfresh
  have hvalue : (bonusAccount params blockHeight claim).value =
    (onboardingBonusFor params claim).toNat := Nat.zero_add _
  rw [CybouState.putAccount] at hnew
  have hopened := hpaid.openAccount (bonusAccount params blockHeight claim)
    (hframe.accountCount ▸ hdone.room) hnull hfresh hunregistered hset (UInt64.le_refl _) (by omega)
  generalize s.spendTreasury (onboardingBonusFor params claim) = spent at *
  -- the allocation and its label follow
  have hclaimed : Sound (CybouState.claimFor { spent with
      accounts := spent.accounts.set op.accountId (bonusAccount params blockHeight claim)
      identities := (s.registerIdentity op networkBinding blockHeight params).identities }
      op.accountId claim) := by
    cases claim with
    | none => exact hopened
    | some e =>
      obtain ⟨ha, hunclaimed⟩ := hallocations e rfl
      exact hopened.claim ha hunclaimed (OrdMap.contains_of_find? (OrdMap.find?_set_self ..)) hunnamed
  have hfind : (CybouState.claimFor { spent with
      accounts := spent.accounts.set op.accountId (bonusAccount params blockHeight claim)
      identities := (s.registerIdentity op networkBinding blockHeight params).identities }
      op.accountId claim).accounts.find? op.accountId = some (bonusAccount params blockHeight claim) := by
    rw [claimFor_eq]
    exact OrdMap.find?_set_self ..
  rw [hresult] at hsum ⊢
  exact hclaimed.of_frame (SameFrame.putAccount hfind _)
    (hclaimed.onboardingCovered.putAccount (UInt64.le_refl _)) (hsum ▸ htotal)

end Create

/-! ### Settlements -/

theorem SettlementFrame.term (h : SettlementFrame s s')
    {lease' : StorageLeaseRecord} (hlease' : s'.leases.find? id = some lease')
    {term' : StorageFundedTerm} (hterm' : term' ∈ lease'.fundedTerms) :
    ∃ lease, s.leases.find? id = some lease ∧ lease'.endPeriod = lease.endPeriod ∧
      ∃ term ∈ lease.fundedTerms, term.outline = term'.outline := by
  obtain ⟨lease, hlease, hend, hterms⟩ := h.leases id lease' hlease'
  have hmem : term'.outline ∈ lease.fundedTerms.map StorageFundedTerm.outline :=
    hterms ▸ List.mem_map.mpr ⟨term', hterm', rfl⟩
  obtain ⟨term, hterm, heq⟩ := List.mem_map.mp hmem
  exact ⟨lease, hlease, hend, term, hterm, heq⟩

theorem SettlementDone.sound {op : StorageSettlement} (h : Sound s)
    (hdone : SettlementDone op s s') : Sound s' ∧ ∀ id, s'.Records id → s.Records id := by
  have hframe := hdone.frame
  refine ⟨⟨hdone.valid, ?_, ?_⟩, ?_⟩
  · rw [hframe.genesisAllocations, hframe.names]
    exact h.labels
  · intro id p lease' hp hlease' term' hterm'
    rw [hframe.publications] at hp
    obtain ⟨lease, hlease, hend, term, hterm, hsame⟩ := hframe.term hlease' hterm'
    have hterms : term.endPeriod = term'.endPeriod := congrArg Prod.snd hsame
    rw [hend, ← hterms]
    exact h.leases id p lease hp hlease term hterm
  · intro id hrecords
    obtain hpublication | hlease | hfunding := hrecords
    · exact .inl (hframe.publications ▸ hpublication)
    · obtain ⟨lease', hlease'⟩ := OrdMap.contains_iff.mp hlease
      obtain ⟨lease, hlease, -⟩ := hframe.leases id lease' hlease'
      exact .inr (.inl (OrdMap.contains_of_find? hlease))
    · obtain ⟨term', hterm', rfl⟩ := List.mem_map.mp hfunding
      obtain ⟨id', lease', hlease', hmem⟩ := mem_fundedTerms.mp hterm'
      obtain ⟨lease, hlease, -, term, hterm, hsame⟩ := hframe.term hlease' hmem
      exact .inr (.inr (List.mem_map.mpr ⟨term, mem_fundedTerms.mpr ⟨id', lease, hlease, hterm⟩,
        congrArg Prod.fst hsame⟩))

/-! ### Runs -/

/-- **One accepted operation**: the state stays sound, and records no other id
    than that of the operation. -/
theorem executed_sound {operation : ProtocolOperation}
    (hparams : validateProtocolParameters ctx.params = true) (h : Sound s) (hroom : Room s)
    (hfresh : ∀ id, computeOperationId operation = some id → ¬s.Records id)
    (hdone : Dispatched ctx operation s s₁) (hrecorded : Recorded ctx operation s₁ s') :
    Sound s' ∧ ∀ id, s'.Records id → s.Records id ∨ computeOperationId operation = some id := by
  obtain ⟨hreplicas, hcommits⟩ := validateProtocolParameters_bounds hparams
  have hsame : ∀ {t : CybouState}, Sound t → t.publications = s.publications → t.leases = s.leases →
      Sound t ∧ ∀ id, t.Records id → s.Records id ∨ computeOperationId operation = some id :=
    fun hsound hpublications hleases =>
      ⟨hsound, fun id hrecords => .inl (hrecords.congr hpublications hleases)⟩
  cases operation with
  | rootPublication op => exact RootPublicationDone.sound h hroom hreplicas hfresh hdone hrecorded
  | storageLease op =>
    cases hrecorded
    exact StorageLeaseDone.sound h hroom hreplicas hfresh hdone
  | revokePublication op =>
    cases hrecorded
    obtain ⟨hsound, hrecords⟩ := RevokePublicationDone.sound h hroom hdone
    exact ⟨hsound, fun id hid => .inl (hrecords id hid)⟩
  | storageSettlement op =>
    cases hrecorded
    obtain ⟨hsound, hrecords⟩ := SettlementDone.sound h hdone
    exact ⟨hsound, fun id hid => .inl (hrecords id hid)⟩
  | accountCreate op =>
    cases hrecorded
    refine hsame (AccountCreateDone.sound h hdone) ?_ (AccountCreateDone.keeps hdone).1
    have hspend := SameFrame.spendTreasury
      (s.registerIdentity op ctx.networkBinding ctx.blockHeight ctx.params)
      (onboardingBonusFor ctx.params (claimableAllocation s op.authorization.recoveryRoot))
    have hresult := AccountCreateDone.result hdone
    dsimp only at hresult
    rw [hresult, claimFor_eq]
    exact hspend.publications
  | payment op =>
    cases hrecorded
    have hframe := (PaymentDone.exactTotal_eq h.total hdone).2
    exact hsame (PaymentDone.sound h hdone) hframe.publications hframe.leases
  | identityRotate op =>
    cases hrecorded
    obtain ⟨hok, rfl⟩ := hdone
    exact hsame (h.rotate hok) rfl rfl
  | systemLock op =>
    cases hrecorded
    have hframe := (SystemLockDone.exactTotal_eq hdone).2
    exact hsame (SystemLockDone.sound h hdone) hframe.publications hframe.leases
  | nameCommit op =>
    cases hrecorded
    have hresult := NameCommitDone.result hdone
    exact hsame (NameCommitDone.sound h hcommits hdone) (by rw [hresult]; rfl) (by rw [hresult]; rfl)
  | nameReveal op =>
    cases hrecorded
    obtain ⟨_, _, -, -, -, -, -, -, hresult⟩ := NameRevealDone.revealed hdone
    exact hsame (NameRevealDone.sound h hdone) (by rw [hresult]; rfl) (by rw [hresult]; rfl)

inductive AcceptedRun : BlockExecutor → List ProtocolOperation → BlockExecutor → Prop
  | done (executor : BlockExecutor) : AcceptedRun executor [] executor
  | accepted {executor executor₁ executor₂ : BlockExecutor} {operation : ProtocolOperation}
      {result : BlockExecutionResult} {rest : List ProtocolOperation}
      (hroom : Room executor.candidate)
      (happly : BlockExecutor.applyOperation operation executor = .ok result executor₁)
      (hok : result.isOk = true) (hrest : AcceptedRun executor₁ rest executor₂) :
      AcceptedRun executor (operation :: rest) executor₂

variable {executor : BlockExecutor}

variable {executor' : BlockExecutor} {operations : List ProtocolOperation}

theorem AcceptedRun.trace (h : AcceptedRun executor operations executor') (hvalid : executor.valid = true) :
    Trace executor.candidate operations executor'.candidate := by
  induction h with
  | done executor => exact .refl _
  | @accepted executor executor₁ executor₂ operation result rest _ happly hok _ ih =>
    have hvalid₁ := (applyOperation_accepted hvalid happly hok).2.1
    exact .operation ⟨executor, executor₁, result, hvalid, rfl, rfl, happly, hok, rfl⟩ (ih hvalid₁)

theorem AcceptedRun.sound (h : AcceptedRun executor operations executor') (hvalid : executor.valid = true)
    (hparams : validateProtocolParameters executor.context.params = true) (hsound : Sound executor.candidate)
    (hids : (operations.filterMap computeOperationId).Nodup)
    (hfresh : ∀ id ∈ operations.filterMap computeOperationId, ¬executor.candidate.Records id) :
    Sound executor'.candidate ∧ executor'.valid = true := by
  induction h with
  | done executor => exact ⟨hsound, hvalid⟩
  | @accepted executor executor₁ executor₂ operation result rest hroom happly hok _ ih =>
    obtain ⟨hexecute, hvalid₁, hcontext⟩ := applyOperation_accepted hvalid happly hok
    obtain ⟨s₁, hdone, hrecorded⟩ := wp_of_ok (executeOperation_spec _ operation hsound.total
      hsound.toStateInvariant.fundsCovered) hexecute
    have hnew : ∀ id, computeOperationId operation = some id → ¬executor.candidate.Records id :=
      fun id hid => hfresh id (List.mem_filterMap.mpr ⟨operation, List.mem_cons_self, hid⟩)
    obtain ⟨hsound₁, hrecords⟩ := executed_sound hparams hsound hroom hnew hdone hrecorded
    have hrest : ∀ id ∈ rest.filterMap computeOperationId, computeOperationId operation ≠ some id := by
      intro id hmem hid
      rw [List.filterMap_cons_some hid] at hids
      exact (List.nodup_cons.mp hids).1 hmem
    refine ih hvalid₁ (hcontext ▸ hparams) hsound₁ ?_ fun id hmem hrecorded₁ => ?_
    · exact hids.sublist ((List.sublist_cons_self _ _).filterMap _)
    · obtain hold | hown := hrecords id hrecorded₁
      · obtain ⟨later, hlater, hid⟩ := List.mem_filterMap.mp hmem
        exact hfresh id (List.mem_filterMap.mpr ⟨later, List.mem_cons_of_mem _ hlater, hid⟩) hold
      · exact hrest id hmem hown

theorem BlockExecutor.finalize_valid (hvalid : executor.valid = true)
    (h : StateInvariant executor.candidate) : executor.finalize.error ≠ .invalidState := by
  have hroot : cybouStateHash executor.candidate false ≠ none := by
    rw [cybouStateHash, serializeCybouState_of_invariant h]
    exact Option.some_ne_none _
  unfold BlockExecutor.finalize
  rw [if_neg (by simp [hvalid]), if_neg (by simp [validateCybouState_eq_none.mpr h])]
  split
  · exact nofun
  · split
    · next hnone => exact absurd hnone hroot
    · exact nofun

/-- **Accepted operations keep a regular state valid and regular**, so no
    executor ends in `INVALID_STATE` after them. -/
theorem accepted_valid {ctx : BlockContext} {parent : CybouState}
    {operations : List ProtocolOperation} {executor : BlockExecutor}
    (hparams : validateProtocolParameters ctx.params = true)
    (hparent : validateCybouState parent = .none) (hregular : Regular parent)
    (hfree : CollisionFree operations)
    (hfresh : ∀ operation ∈ operations, ∀ id, computeOperationId operation = some id →
      ¬parent.Records id)
    (hrun : AcceptedRun (BlockExecutor.new parent ctx) operations executor) :
    validateCybouState executor.candidate = .none ∧ Regular executor.candidate ∧
      executor.finalize.error ≠ .invalidState := by
  have hinvariant := validateCybouState_eq_none.mp hparent
  have hnew : BlockExecutor.new parent ctx =
      { context := ctx, candidate := expireCommits ctx parent, initialSupply := totalCybou parent
        accountCreates := 0, valid := true, initError := .none } := by
    rw [BlockExecutor.new, if_neg (by simp [hparent])]
  rw [hnew] at hrun
  have hsound : Sound (expireCommits ctx parent) := Sound.expireCommits ⟨hinvariant, hregular⟩ ctx
  have htrace := hrun.trace rfl
  have hnodup := htrace.nodup hsound.total ⟨rfl, hsound.toStateInvariant.fundsCovered⟩
  have hids := hfree.nodup hnodup
  obtain ⟨hresult, hvalid⟩ := hrun.sound rfl hparams hsound hids fun id hmem hrecords => by
    obtain ⟨operation, hoperation, hid⟩ := List.mem_filterMap.mp hmem
    refine hfresh operation hoperation id hid (hrecords.congr ?_ ?_)
    · unfold expireCommits
      split <;> rfl
    · unfold expireCommits
      split <;> rfl
  exact ⟨validateCybouState_eq_none.mpr hresult.toStateInvariant, hresult.toRegular,
    BlockExecutor.finalize_valid hvalid hresult.toStateInvariant⟩

end

/-! ### Leases that end early -/

section Sample

attribute [local instance] Crypto.sample

def unrecorded (s : CybouState) (operation : ProtocolOperation) : Bool :=
  (computeOperationId operation).all fun id => decide ¬s.Records id

theorem not_records_of_unrecorded {s : CybouState} {operation : ProtocolOperation}
    (h : unrecorded s operation = true) :
    ∀ id, computeOperationId operation = some id → ¬s.Records id := by
  intro id hid
  rw [unrecorded, hid] at h
  exact of_decide_eq_true h

/-- A term of two periods under a lease of one. -/
def overlappingState : CybouState :=
  leasedState { sampleTerm with
    endPeriod := 2, replicaShare := 4, contractedUnitSeconds := 345600, initialLocked := 4 } 1 4

theorem overlappingState_evaluated :
    (validateCybouState overlappingState = .none ∧ validateProtocolParameters sampleContext.params = true ∧
      overlappingState.settlement.nextPeriod ≠ UINT64_MAX) ∧
    unrecorded overlappingState (.storageLease sampleRenewal) = true ∧
    (match BlockExecutor.applyOperation (.storageLease sampleRenewal)
        (BlockExecutor.new overlappingState sampleContext) with
      | .ok result executor => result.isOk && decide (validateCybouState executor.candidate ≠ .none)
          && decide (executor.finalize.error = .invalidState)
      | .error _ _ => false) = true := by
  decide +kernel

/-- The renewal is accepted although its term begins before the last one ends,
    and leaves a state that is refused. -/
theorem applyOperation_overlappingState :
    validateCybouState overlappingState = .none ∧
      validateProtocolParameters sampleContext.params = true ∧
      overlappingState.settlement.nextPeriod ≠ UINT64_MAX ∧
      (∀ id, computeOperationId (.storageLease sampleRenewal) = some id →
        ¬overlappingState.Records id) ∧
      ∃ result executor, BlockExecutor.applyOperation (.storageLease sampleRenewal)
          (BlockExecutor.new overlappingState sampleContext) = .ok result executor ∧
        result.isOk = true ∧ validateCybouState executor.candidate ≠ .none ∧
        executor.finalize.error = .invalidState := by
  obtain ⟨⟨hstate, hparams, hcursor⟩, hfresh, hrun⟩ := overlappingState_evaluated
  refine ⟨hstate, hparams, hcursor, not_records_of_unrecorded hfresh, ?_⟩
  split at hrun
  · next result executor happly =>
    simp only [Bool.and_eq_true, decide_eq_true_eq] at hrun
    exact ⟨result, executor, happly, hrun.1.1, hrun.1.2, hrun.2⟩
  · cases hrun

/-- The same renewal on a state whose lease ends with its term. -/
def renewableState : CybouState := leasedState sampleTerm 1 2

set_option maxRecDepth 100000 in
theorem renewableState_evaluated :
    (match BlockExecutor.applyOperation (.storageLease sampleRenewal)
        (BlockExecutor.new renewableState sampleContext) with
      | .ok result _ => result.isOk
      | .error _ _ => false) = true ∧
    unrecorded renewableState (.storageLease sampleRenewal) = true ∧
    validateProtocolParameters sampleContext.params = true ∧ validateCybouState renewableState = .none := by
  decide

theorem regular_renewableState : Regular renewableState where
  labels := (forall_entries_iff (p := fun e : IdentityKeyId × GenesisAllocation =>
    e.2.claimedBy = none → e.2.label ≠ [] →
      renewableState.names.names.find? e.2.label = none)).mp (by decide)
  leases := by
    intro id p lease _ hlease
    exact (forall_entries_iff (p := fun e : Hash256 × StorageLeaseRecord =>
      ∀ term ∈ e.2.fundedTerms, term.endPeriod ≤ e.2.endPeriod)).mp (by decide) id lease hlease

set_option maxRecDepth 100000 in
theorem room_renewableState : Room (BlockExecutor.new renewableState sampleContext).candidate where
  cursor := by decide
  terms := (forall_entries_iff (p := fun e : Hash256 × StorageLeaseRecord =>
    e.2.fundedTerms.length < UINT32_MAX)).mp (by decide)

theorem accepted_valid_renewableState :
    ∃ executor, AcceptedRun (BlockExecutor.new renewableState sampleContext)
        [.storageLease sampleRenewal] executor ∧
      validateCybouState executor.candidate = .none ∧ executor.finalize.error ≠ .invalidState := by
  obtain ⟨hrun, hfresh, hparams, hstate⟩ := renewableState_evaluated
  split at hrun
  · next result executor happly =>
    have haccepted : AcceptedRun (BlockExecutor.new renewableState sampleContext)
        [.storageLease sampleRenewal] executor :=
      .accepted room_renewableState happly hrun (.done executor)
    obtain ⟨hvalid, -, hfinal⟩ := accepted_valid hparams hstate
      regular_renewableState (by
        intro a ha b hb _ _ _
        rw [List.mem_singleton.mp ha, List.mem_singleton.mp hb]) (by
        intro operation hoperation
        rw [List.mem_singleton.mp hoperation]
        exact not_records_of_unrecorded hfresh) haccepted
    exact ⟨executor, haccepted, hvalid, hfinal⟩
  · cases hrun

end Sample

end Cybou
