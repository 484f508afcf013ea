import Cybou.StateStore
import Cybou.Replay

/-! # What is known of a block that executes

Execution is a function of the parent state and the block.  Its result is a
valid state with its hash, an empty block without expiring commits changes
nothing, and every operation of the block survives its encoding: the payout
bindings of an accepted `PREPARE` carry signatures of the one admissible size.
-/

namespace Cybou

open Library Proc

section

variable [Crypto]

def Executes (g : VerifiedNetworkGenesis) (parent : CybouState) (block : CybouBlock) (s : CybouState)
    (root : Hash256) : Prop :=
  ∃ execution, executeBlockOperations parent block.operations (blockContext g block) = some execution ∧
    execution.isOk = true ∧ execution.state = some s ∧ execution.stateRoot = some root

/-! ### Results of an execution -/

variable {executor : BlockExecutor}

theorem BlockExecutor.finalize_ok {s : CybouState} (h : executor.finalize.state = some s) :
    StateInvariant s ∧ executor.finalize.stateRoot = cybouStateHash s false := by
  unfold BlockExecutor.finalize at h ⊢
  split at h
  · cases h
  next hvalid =>
  split at h
  · cases h
  next hstate =>
  split at h
  · cases h
  next hsupply =>
  split at h
  · cases h
  next root hroot =>
  cases h
  rw [if_neg hvalid, if_neg hstate, if_neg hsupply, hroot]
  exact ⟨validateCybouState_eq_none.mp (not_not.mp hstate), rfl⟩

variable {operations : List ProtocolOperation}

theorem executeFrom_finalize {index : Nat} {executor' : BlockExecutor} {result : BlockExecutionResult}
    (hrun : executeFrom index operations executor = .ok result executor') (hok : result.isOk = true) :
    ∃ last : BlockExecutor, result = last.finalize := by
  induction operations generalizing index executor with
  | nil =>
    cases hrun
    exact ⟨_, rfl⟩
  | cons operation rest ih =>
    rw [executeFrom, bind, EStateM.instMonad] at hrun
    simp only [EStateM.bind] at hrun
    split at hrun
    · next first executor₁ hfirst =>
      split at hrun
      · next hfailed =>
        cases hrun
        exact absurd (hok.symm.trans hfailed) (by decide)
      · exact ih hrun
    · cases hrun

variable {g : VerifiedNetworkGenesis} {parent s s' : CybouState} {block : CybouBlock}
  {root root' : Hash256}

theorem Executes.unique (h : Executes g parent block s root) (h' : Executes g parent block s' root') :
    s = s' ∧ root = root' := by
  obtain ⟨execution, hrun, -, hstate, hroot⟩ := h
  obtain ⟨execution', hrun', -, hstate', hroot'⟩ := h'
  rw [hrun] at hrun'
  cases hrun'
  rw [hstate] at hstate'
  rw [hroot] at hroot'
  cases hstate'
  cases hroot'
  exact ⟨rfl, rfl⟩

theorem Executes.parent_invariant (h : Executes g parent block s root) : StateInvariant parent := by
  obtain ⟨execution, hrun, hok, -⟩ := h
  exact validateCybouState_eq_none.mp (executeBlockOperations_ok hrun hok).1

theorem Executes.result (h : Executes g parent block s root) :
    StateInvariant s ∧ cybouStateHash s false = some root := by
  obtain ⟨execution, hrun, hok, hstate, hroot⟩ := h
  obtain ⟨-, executor, hfrom, -⟩ := executeBlockOperations_ok hrun hok
  obtain ⟨last, rfl⟩ := executeFrom_finalize hfrom hok
  obtain ⟨hinvariant, hhash⟩ := BlockExecutor.finalize_ok hstate
  exact ⟨hinvariant, hhash.symm.trans hroot⟩

theorem Executes.blockRun (h : Executes g parent block s root) :
    BlockRun (blockContext g block) (expireCommits (blockContext g block) parent) block.operations s := by
  obtain ⟨execution, hrun, hok, hstate, -⟩ := h
  exact executeBlockOperations_run hrun hok hstate

theorem Executes.trace (h : Executes g parent block s root) :
    Trace (expireCommits (blockContext g block) parent) block.operations s := h.blockRun.trace

/-! ### Empty blocks -/

theorem expireCommits_of_not_expires (hexpires : expiresName g parent block.height = false) :
    expireCommits (blockContext g block) parent = parent := by
  unfold expireCommits
  split
  · next hlifetime =>
    have hpositive : g.params.nameCommitMaxLifetime > 0 := hlifetime
    have hall : ∀ e ∈ parent.names.pendingCommits.entries,
        (!(decide ((blockContext g block).blockHeight > e.2.commitHeight) &&
          decide ((blockContext g block).blockHeight - e.2.commitHeight >
            (blockContext g block).params.nameCommitMaxLifetime))) = true := by
      intro e he
      have hone := List.any_eq_false.mp hexpires e he
      rw [Bool.and_assoc, decide_eq_true hpositive, Bool.true_and] at hone
      rw [Bool.not_eq_true']
      exact Bool.eq_false_of_not_eq_true hone
    have hfilter : parent.names.pendingCommits.filter (fun _ record =>
        !(decide ((blockContext g block).blockHeight > record.commitHeight) &&
          decide ((blockContext g block).blockHeight - record.commitHeight >
            (blockContext g block).params.nameCommitMaxLifetime))) = parent.names.pendingCommits :=
      OrdMap.ext_entries (List.filter_eq_self.mpr hall)
    rw [hfilter]
  · rfl

/-- **An empty block without expiring commits changes nothing.** -/
theorem executes_empty (hparent : StateInvariant parent) (hempty : block.operations = [])
    (hexpires : expiresName g parent block.height = false) (hroot : cybouStateHash parent false = some root) :
    Executes g parent block parent root := by
  have hvalid := validateCybouState_eq_none.mpr hparent
  have hnew : BlockExecutor.new parent (blockContext g block) =
      { context := blockContext g block, candidate := parent, initialSupply := totalCybou parent
        accountCreates := 0, valid := true, initError := .none } := by
    rw [BlockExecutor.new, if_neg (by simp [hvalid]), expireCommits_of_not_expires hexpires]
  have hfinal : (BlockExecutor.new parent (blockContext g block)).finalize =
      { state := some parent, stateRoot := some root } := by
    rw [hnew, BlockExecutor.finalize]
    simp only [hvalid, hroot, ne_eq, not_true_eq_false, if_false, Bool.true_eq_false]
  refine ⟨{ state := some parent, stateRoot := some root }, ?_, rfl, rfl, rfl⟩
  rw [hempty, executeBlockOperations, if_neg (by simp), hnew]
  dsimp only
  rw [if_neg (by simp), ← hnew]
  rw [← hfinal]
  rfl

/-! ### Operations of an executed block -/

variable {network : Hash256} {height : UInt64}

theorem acceptEligible_sized {payer : AccountId}
    {l : List StorageSettlementBinding} {accepted : List StorageAcceptedBinding}
    (h : acceptEligible s network height payer l = .ok accepted) :
    ∀ e ∈ l, e.binding.authorization.mlDsa.length = 2420 := by
  induction l generalizing accepted with
  | nil => simp
  | cons e rest ih =>
    unfold acceptEligible at h
    dsimp only at h
    split at h
    · cases h
    next identity hidentity =>
    split at h
    · cases h
    split at h
    · cases h
    split at h
    · cases h
    next hverified =>
    push Not at hverified
    cases hrest : acceptEligible s network height payer rest with
    | error e' =>
      rw [hrest] at h
      cases h
    | ok accepted' =>
      refine List.forall_mem_cons.mpr ⟨?_, ih hrest⟩
      by_contra hsize
      refine hverified.2.2 ?_
      rw [verifyIdentityMessage, hverified.2.1, if_pos]
      exact .inr hsize

variable {op : StorageSettlement} {operationId : Option Hash256} {target : LocatedTerm}

theorem prepareTerm_sized {term : StorageFundedTerm}
    (h : prepareTerm op s network height operationId target = .ok term) :
    ∀ e ∈ op.eligible, e.binding.authorization.mlDsa.length = 2420 := by
  unfold prepareTerm at h
  split at h
  · cases h
  cases haccepted : acceptEligible s network height target.lease.payer op.eligible with
  | error e =>
    rw [haccepted] at h
    cases h
  | ok accepted => exact acceptEligible_sized haccepted

theorem prepareTerm_error {e : StorageSettlementError}
    (h : prepareTerm op s network height operationId target = .error e) : e ≠ .none := by
  unfold prepareTerm at h
  split at h
  · cases h
    decide
  cases haccepted : acceptEligible s network height target.lease.payer op.eligible with
  | error e' =>
    rw [haccepted] at h
    cases h
    exact acceptEligible_error haccepted
  | ok accepted =>
    rw [haccepted] at h
    simp only [bind, Except.bind] at h
    split at h
    · cases h
      decide
    · split at h <;> cases h

theorem applyAssignmentInputs_sized (haction : op.action = .prepare)
    (network : Hash256) (height : UInt64) (parent : Hash256) (apply : Bool) :
    wp (applyAssignmentInputs op network height parent apply)
      (fun e _ => e = .none → ∀ e ∈ op.eligible, e.binding.authorization.mlDsa.length = 2420)
      (fun _ _ => True) s := by
  refine wp_applyAssignmentInputs (fun r hr _ hnone => absurd hnone hr)
    fun target declaration publication hfront _ => ?_
  have hdeclaration : declaration = none := by
    have hmem : (target, declaration) ∈ assignmentTargets op s := by
      rw [hfront.targets]
      exact List.mem_singleton.mpr rfl
    rw [assignmentTargets, haction] at hmem
    obtain ⟨_, -, heq⟩ := List.mem_map.mp hmem
    cases heq
    rfl
  subst hdeclaration
  rw [assignedTerm]
  cases hterm : prepareTerm op s network height (recordedId op apply) target with
  | error e => exact fun hnone => absurd hnone (prepareTerm_error hterm)
  | ok term => exact fun _ => prepareTerm_sized hterm

theorem applyStorageSettlement_sized (settlement : StorageSettlement) (networkBinding : Hash256)
    (params : CybouProtocolParameters) (poaKey : IdentityHybridPublicKey) (blockHeight : UInt64)
    (verifiedParentId : Hash256) (s : CybouState) :
    wp (applyStorageSettlement settlement networkBinding params poaKey blockHeight verifiedParentId)
      (fun e _ => e = .none → BindingsSized (.storageSettlement settlement)) (fun _ _ => True) s := by
  unfold applyStorageSettlement
  split
  · exact nofun
  next digest hdigest =>
  obtain ⟨body, hbody, -⟩ := Option.bind_eq_some_iff.mp hdigest
  have hshape := (serializeSettlementBody_eq_some hbody).2.2
  unfold SettlementShape at hshape
  cases haction : settlement.action with
  | prepare =>
    refine wp_refuse (fun _ => nofun) fun _ => ?_
    rw [if_pos (by decide), wp_bind, wp_onCopy]
    refine wp_mono (applyAssignmentInputs_sized haction networkBinding blockHeight verifiedParentId true)
      ?_ fun _ _ h => h
    intro r candidate hr
    refine wp_refuse (fun hne hnone => absurd hnone hne) fun hnone => ?_
    refine wp_refuse (fun _ => nofun) fun _ => ?_
    rw [wp_set_bind]
    exact fun _ => hr (not_not.mp hnone)
  | activate =>
    rw [haction] at hshape
    refine wp_mono wp_true ?_ fun _ _ h => h
    intro _ _ _ _
    rw [BindingsSized, hshape.2.2.2.2.2.2.1]
    simp
  | pay =>
    rw [haction] at hshape
    refine wp_mono wp_true ?_ fun _ _ h => h
    intro _ _ _ _
    rw [BindingsSized, hshape.2.2.2.1]
    simp

theorem executeOperation_sized (ctx : BlockContext) (settlement : StorageSettlement) (s : CybouState) :
    wp (executeOperation ctx (.storageSettlement settlement))
      (fun r _ => r = none → BindingsSized (.storageSettlement settlement)) (fun _ _ => True) s := by
  unfold executeOperation
  rw [wp_bind, dispatch, reportFailure, wp_bind]
  refine wp_mono (?_ : wp _ (fun e _ => e = .none → BindingsSized (.storageSettlement settlement))
    (fun _ _ => True) s) ?_ fun _ _ h => h
  · split
    · exact fun h => by cases h
    · exact applyStorageSettlement_sized ..
  intro e s₁ he
  refine wp_refuse (fun _ h => by cases h) fun hnone => ?_
  rw [wp_pure]
  refine wp_mono wp_true ?_ fun _ _ h => h
  intro _ _ _ _
  exact he (not_not.mp hnone)

theorem Accepts.sized {ctx : BlockContext} {operation : ProtocolOperation}
    (h : Accepts ctx operation s s') : BindingsSized operation := by
  cases operation with
  | storageSettlement settlement =>
    obtain ⟨executor, executor', result, hvalid, rfl, rfl, hrun, hok, rfl⟩ := h
    have hexecute := (applyOperation_accepted hvalid hrun hok).1
    exact wp_of_ok (executeOperation_sized _ settlement _) hexecute rfl
  | _ => trivial

theorem Trace.sized (h : Trace s operations s') :
    ∀ op ∈ operations, BindingsSized op := by
  induction h with
  | refl s => simp
  | operation haccepts _ ih => exact List.forall_mem_cons.mpr ⟨haccepts.sized, ih⟩
  | block ctx _ ih => exact ih

end

end Cybou
