import Cybou.Replay

/-! # An accepted settlement, move by move

`SettlementSpecs` says what a settlement leaves behind; the accounting of
leases also asks how it got there.  An accepted `PAY` is a `PayRun`, its
entries and its refunds one after the other; an accepted `PREPARE` or
`ACTIVATE` puts one term back with the same funds.
-/

namespace Cybou

open Library Proc

def StorageFundedTerm.account (term : StorageFundedTerm) : StorageFundedTerm :=
  { term with
    nextAssignmentEpoch := 1
    declarations := []
    assignments := []
    servicePayments := [] }

section

variable [Crypto]

variable {op : StorageSettlement} {s : CybouState} {network : Hash256} {height : UInt64}
  {operationId : Option Hash256} {target : LocatedTerm} {term : StorageFundedTerm}

theorem prepareTerm_account (h : prepareTerm op s network height operationId target = .ok term) :
    term.account = target.term.account := by
  unfold prepareTerm at h
  split at h
  · cases h
  cases haccepted : acceptEligible s network height target.lease.payer op.eligible with
  | error e =>
    rw [haccepted] at h
    cases h
  | ok eligible =>
    simp only [haccepted, bind, Except.bind] at h
    split at h
    · cases h
    cases operationId with
    | none =>
      cases h
      rfl
    | some operationId =>
      cases h
      rfl

theorem activateTerm_account {parent : Hash256} {publication : PublicationRecord}
    {declaration : StorageAssignmentDeclaration}
    (h : activateTerm op network height parent operationId publication target declaration =
      .ok (.ok term)) : term.account = target.term.account := by
  unfold activateTerm at h
  dsimp only at h
  split at h
  · cases h
  split at h
  · cases h
  split at h
  · cases h
  split at h
  · cases h
  cases hcounts : assignChunks (assignmentContext network parent target declaration)
      (declaration.eligible.map fun e =>
        { storageId := e.storageId, payoutAccount := e.payoutAccount }) op.manifest ∅ with
  | error fault =>
    rw [hcounts] at h
    cases h
  | ok counted =>
    rw [hcounts] at h
    simp only [bind, Except.bind] at h
    split at h
    · cases h
    · cases h
      rfl
    · split at h
      · cases h
      · cases h
        rfl

/-- A `PREPARE` or `ACTIVATE` that is not refused: one term is put back. -/
structure AssignmentRun (target : LocatedTerm) (term : StorageFundedTerm) (s s' : CybouState) :
    Prop where
  found : target ∈ s.locatedTerms
  account : term.account = target.term.account
  cursor : s'.settlement.nextPeriod = s.settlement.nextPeriod
  result : s' = { s.putLease target.publication (target.lease.setTerm target.index term) with
    settlement := s'.settlement }

theorem applyAssignmentInputs_run (op : StorageSettlement) (network : Hash256) (height : UInt64)
    (parent : Hash256) (s : CybouState) :
    wp (applyAssignmentInputs op network height parent true)
      (fun r s' => r = .none → ∃ target term, AssignmentRun target term s s')
      (fun _ _ => True) s := by
  refine wp_applyAssignmentInputs (fun r hr _ hnone => absurd hnone hr)
    fun target declaration publication hfront hsome => ?_
  have hmem : (target, declaration) ∈ assignmentTargets op s := by
    rw [hfront.targets]
    exact List.mem_singleton_self _
  obtain ⟨operationId, hoperationId⟩ := Option.ne_none_iff_exists'.mp (hsome rfl)
  have hspec := assignedTerm_spec network height parent operationId publication hfront.targets
  rw [recordedId, if_pos rfl, hoperationId]
  cases hassigned : assignedTerm op s network height parent (some operationId) publication target
      declaration with
  | error fault => trivial
  | ok outcome =>
    rw [hassigned] at hspec
    cases outcome with
    | error e => exact fun hnone => absurd hnone hspec
    | ok term =>
      have haccount : term.account = target.term.account := by
        cases declaration with
        | none => exact prepareTerm_account (Except.ok.inj hassigned)
        | some declaration => exact activateTerm_account hassigned
      intro _
      rw [if_pos rfl]
      refine ⟨target, term, (mem_assignmentTargets hmem).1, haccount, ?_, ?_⟩
      · unfold CybouState.recordTerm
        split <;> rfl
      · unfold CybouState.recordTerm
        split <;> rfl

/-- An accepted settlement: the state is valid again and was reached by a
    `PayRun` or by one change of a term. -/
inductive SettlementRun (op : StorageSettlement) (params : CybouProtocolParameters)
    (s s' : CybouState) : Prop
  | pay {paid : CybouState} (haction : op.action = .pay) (hrun : PayRun op params s paid s')
      (hvalid : StateInvariant s')
  | assigned {target : LocatedTerm} {term : StorageFundedTerm} (haction : op.action ≠ .pay)
      (hrun : AssignmentRun target term s s') (hvalid : StateInvariant s')

/-- A settlement that is accepted is a run of payouts or one change of a term. -/
theorem applyStorageSettlement_run (settlement : StorageSettlement) (networkBinding : Hash256)
    (params : CybouProtocolParameters) (poaKey : IdentityHybridPublicKey) (blockHeight : UInt64)
    (verifiedParentId : Hash256) (h : FundsCovered s) :
    wp (applyStorageSettlement settlement networkBinding params poaKey blockHeight verifiedParentId)
      (fun r s' => r = .none → SettlementRun settlement params s s') (fun _ _ => True) s := by
  unfold applyStorageSettlement
  split
  · exact nofun
  refine wp_refuse (fun _ => nofun) fun _ => ?_
  split
  · next haction =>
    rw [wp_bind, wp_onCopy]
    refine wp_mono (applyAssignmentInputs_run settlement networkBinding blockHeight
      verifiedParentId s) ?_ fun _ _ _ => trivial
    intro r candidate hr
    refine wp_refuse (fun hne heq => absurd heq hne) fun hnone => ?_
    refine wp_refuse (fun _ => nofun) fun hvalid => ?_
    obtain ⟨target, term, hrun⟩ := hr (not_not.mp hnone)
    rw [wp_set_bind]
    exact fun _ => .assigned haction hrun (validateCybouState_eq_none.mp (not_not.mp hvalid))
  · next haction =>
    rw [wp_bind, wp_onCopy]
    refine wp_mono (applyPayInputs_run settlement params h) ?_ fun _ _ hf => hf.elim
    intro r candidate hr
    refine wp_refuse (fun hne heq => absurd heq hne) fun hnone => ?_
    rw [wp_get_bind]
    refine wp_refuse (fun _ => nofun) fun hchecked => ?_
    push Not at hchecked
    obtain ⟨paid, hrun⟩ := hr (not_not.mp hnone)
    rw [wp_set_bind]
    exact fun _ => .pay (not_not.mp haction) hrun (validateCybouState_eq_none.mp hchecked.1)

theorem executeOperation_settlement {ctx : BlockContext} {s' : CybouState} (hfunds : FundsCovered s)
    (h : executeOperation ctx (.storageSettlement op) s = .ok none s') :
    SettlementRun op ctx.params s s' := by
  have hspec : wp (executeOperation ctx (.storageSettlement op))
      (fun r s' => r = none → SettlementRun op ctx.params s s') (fun _ _ => True) s := by
    unfold executeOperation dispatch reportFailure
    rw [wp_bind, wp_bind]
    cases ctx.poaKey with
    | none =>
      rw [wp_pure]
      refine wp_refuse (fun _ => ?_) fun hnone => absurd (by decide) hnone
      exact wp_pure.mpr nofun
    | some key =>
      refine wp_mono (applyStorageSettlement_run op ctx.networkBinding ctx.params key
        ctx.blockHeight ctx.verifiedParentId hfunds) ?_ fun _ _ _ => trivial
      intro r s₁ hr
      refine wp_refuse (fun _ => wp_pure.mpr nofun) fun hnone => ?_
      rw [wp_pure]
      exact fun _ => hr (not_not.mp hnone)
  exact wp_of_ok hspec h rfl

/-! ### One accepted operation -/

/-- An accepted operation, with everything that is known about it. -/
structure Step (ctx : BlockContext) (operation : ProtocolOperation) (s s₁ s' : CybouState) : Prop
    where
  done : Dispatched ctx operation s s₁
  recorded : Recorded ctx operation s₁ s'
  settlement : ∀ op, operation = .storageSettlement op → SettlementRun op ctx.params s s'

theorem Accepts.step {ctx : BlockContext} {operation : ProtocolOperation} {s s' : CybouState}
    (h : Accepts ctx operation s s') (htotal : exactTotal s < 2 ^ 64 - 1)
    (hfunds : FundsCovered s) : ∃ s₁, Step ctx operation s s₁ s' := by
  obtain ⟨executor, executor', result, hvalid, rfl, rfl, hrun, hok, rfl⟩ := h
  have hexecute := (applyOperation_accepted hvalid hrun hok).1
  obtain ⟨s₁, hdone, hrecorded⟩ := wp_of_ok (executeOperation_spec _ operation htotal hfunds)
    hexecute
  refine ⟨s₁, hdone, hrecorded, ?_⟩
  rintro op rfl
  exact executeOperation_settlement hfunds hexecute

end

end Cybou
