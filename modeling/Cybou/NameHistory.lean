import Cybou.CanonicalStore
import Cybou.GenesisClaims

/-! # Where the names of a chain come from

Every accepted operation is kept with the height of its block (`LoggedRun`).
A pending commit points back to the operation that made it, and a name that is
no genesis label to a reveal and to the commit it opened (`NameHistory`).  The
window between the two is measured in the 64-bit sums of the source; since
heights only grow and the lifetime is no shorter than the depth, neither sum
wraps for a reveal that passes.
-/

namespace Cybou

open Library

/-- Accepted operations with the heights of their blocks, the latest first. -/
abbrev OperationLog := List (UInt64 × ProtocolOperation)

section

variable [Crypto]

/-! ### Runs with a log -/

/-- Blocks one after the other, and the operations accepted in them. -/
inductive LoggedRun (g : VerifiedNetworkGenesis) (genesis : CybouState) :
    UInt64 → OperationLog → CybouState → Prop
  | genesis : LoggedRun g genesis 0 [] genesis
  | block {height : UInt64} {log : OperationLog} {s : CybouState} (block : CybouBlock)
      (h : LoggedRun g genesis height log s) (hmax : height ≠ UINT64_MAX)
      (hheight : block.height = height + 1) :
      LoggedRun g genesis block.height log (expireCommits (blockContext g block) s)
  | operation {height : UInt64} {log : OperationLog} {s s' : CybouState} {block : CybouBlock}
      {operation : ProtocolOperation} (h : LoggedRun g genesis height log s)
      (hheight : block.height = height) (haccepts : Accepts (blockContext g block) operation s s') :
      LoggedRun g genesis height ((height, operation) :: log) s'

variable {g : VerifiedNetworkGenesis}

variable {s s' genesis : CybouState} {log : OperationLog}

theorem LoggedRun.trace {height : UInt64}
    (h : LoggedRun g genesis height log s) : Trace genesis (log.reverse.map (·.2)) s := by
  induction h with
  | genesis => exact .refl _
  | block block _ _ _ ih =>
    have hexpired := Trace.append ih (.block (blockContext g block) (.refl _))
    rwa [List.append_nil] at hexpired
  | operation _ _ haccepts ih =>
    rw [List.reverse_cons, List.map_append]
    exact Trace.append ih (.operation haccepts (.refl _))

/-! ### A reveal and its commit -/

omit [Crypto] in
theorem reveal_window {commitHeight blockHeight minDepth maxLifetime : UInt64}
    (hparams : minDepth ≤ maxLifetime) (hle : commitHeight ≤ blockHeight)
    (hdepth : commitHeight + minDepth ≤ blockHeight) (hlifetime : blockHeight ≤ commitHeight + maxLifetime) :
    commitHeight.toNat + minDepth.toNat ≤ blockHeight.toNat ∧
      blockHeight.toNat ≤ commitHeight.toNat + maxLifetime.toNat := by
  rw [UInt64.le_iff_toNat_le] at hparams hle
  rw [UInt64.le_iff_toNat_le, UInt64.toNat_add] at hdepth hlifetime
  have hcommit := commitHeight.toNat_lt
  have hmax := maxLifetime.toNat_lt
  -- a lifetime sum that wraps lies below the commit, and so below the block
  omega

omit [Crypto] in
theorem validateProtocolParameters_names {params : CybouProtocolParameters}
    (h : validateProtocolParameters params = true) :
    params.nameCommitMinDepth ≠ 0 ∧ params.nameCommitMinDepth ≤ params.nameCommitMaxLifetime := by
  simp only [validateProtocolParameters, Bool.and_eq_true, Bool.not_eq_true', Bool.or_eq_false_iff,
    decide_eq_false_iff_not] at h
  obtain ⟨-, hnames⟩ := h
  exact ⟨hnames.1.1.1.2, UInt64.not_lt.mp hnames.1.1.2⟩

/-- The account revealed the label, on a commit of its own that was old enough and
    not too old. -/
def Revealed (g : VerifiedNetworkGenesis) (log : OperationLog) (label : Bytes) (id : AccountId) : Prop :=
  ∃ (revealHeight commitHeight : UInt64) (reveal : AuthorizedNameReveal) (commit : AuthorizedNameCommit),
    (revealHeight, .nameReveal reveal) ∈ log ∧ (commitHeight, .nameCommit commit) ∈ log ∧
    reveal.reveal.label = label ∧ reveal.authorization.accountId = id ∧
    commit.authorization.accountId = id ∧
    commit.commit.commitment = computeNameCommitment g.networkBinding id label reveal.reveal.salt ∧
    commitHeight.toNat + g.params.nameCommitMinDepth.toNat ≤ revealHeight.toNat ∧
    revealHeight.toNat ≤ commitHeight.toNat + g.params.nameCommitMaxLifetime.toNat

variable {label : Bytes} {id : AccountId}

theorem Revealed.mono {log' : OperationLog}
    (h : Revealed g log label id) (hlog : log ⊆ log') : Revealed g log' label id := by
  obtain ⟨revealHeight, commitHeight, reveal, commit, hreveal, hcommit, hrest⟩ := h
  exact ⟨revealHeight, commitHeight, reveal, commit, hlog hreveal, hlog hcommit, hrest⟩

/-! ### The history of a state -/

variable {operations : List ProtocolOperation}

def GenesisLabel (s : CybouState) (label : Bytes) : Prop :=
  ∃ key a, s.genesisAllocations.find? key = some a ∧ a.label = label

theorem GenesisLabel.run
    (h : GenesisLabel s label) (hrun : ∀ key, AllocationRun key operations s s') : GenesisLabel s' label := by
  obtain ⟨key, a, ha, hlabel⟩ := h
  obtain ⟨a', ha', hlabel', -⟩ := (hrun key).present a ha
  exact ⟨key, a', ha', hlabel'.trans hlabel⟩

structure NameHistory (g : VerifiedNetworkGenesis) (height : UInt64) (log : OperationLog) (s : CybouState) :
    Prop where
  commits : ∀ commitment r, s.names.pendingCommits.find? commitment = some r → r.commitHeight ≤ height ∧
    ∃ op, (r.commitHeight, .nameCommit op) ∈ log ∧ op.commit.commitment = commitment ∧
      op.authorization.accountId = r.accountId
  names : ∀ label id, s.names.names.find? label = some id → GenesisLabel s label ∨ Revealed g log label id

namespace NameHistory

variable {height height' : UInt64} {log log' : OperationLog} {s s₁ s' : CybouState}

theorem of_subset (h : NameHistory g height log s) (hheight : height ≤ height') (hlog : log ⊆ log')
    (hcommits : ∀ commitment r, s'.names.pendingCommits.find? commitment = some r →
      s.names.pendingCommits.find? commitment = some r)
    (hnames : s'.names.names = s.names.names)
    (hlabels : ∀ label, GenesisLabel s label → GenesisLabel s' label) : NameHistory g height' log' s' where
  commits := by
    intro commitment r hr
    obtain ⟨hle, op, hop, hrest⟩ := h.commits commitment r (hcommits commitment r hr)
    exact ⟨UInt64.le_trans hle hheight, op, hlog hop, hrest⟩
  names := by
    intro label id hname
    rw [hnames] at hname
    rcases h.names label id hname with hlabel | hrevealed
    · exact .inl (hlabels label hlabel)
    · exact .inr (hrevealed.mono hlog)

theorem bind (h : NameHistory g height log s) (hlog : log ⊆ log') {label : Bytes} {id : AccountId}
    (hcommits : ∀ commitment r, s'.names.pendingCommits.find? commitment = some r →
      s.names.pendingCommits.find? commitment = some r)
    (hnames : s'.names.names = s.names.names.set label id)
    (hlabels : ∀ label, GenesisLabel s label → GenesisLabel s' label)
    (hown : GenesisLabel s' label ∨ Revealed g log' label id) : NameHistory g height log' s' where
  commits := by
    intro commitment r hr
    obtain ⟨hle, op, hop, hrest⟩ := h.commits commitment r (hcommits commitment r hr)
    exact ⟨hle, op, hlog hop, hrest⟩
  names := by
    intro label' id' hname
    rw [hnames] at hname
    by_cases heq : label' = label
    · rw [heq, OrdMap.find?_set_self] at hname
      cases hname
      exact heq ▸ hown
    · rw [OrdMap.find?_set_of_ne _ _ heq] at hname
      rcases h.names label' id' hname with hlabel | hrevealed
      · exact .inl (hlabels label' hlabel)
      · exact .inr (hrevealed.mono hlog)

theorem expireCommits (h : NameHistory g height log s) (hheight : height ≤ height') (ctx : BlockContext) :
    NameHistory g height' log (expireCommits ctx s) := by
  unfold Cybou.expireCommits
  split
  · refine h.of_subset hheight (List.Subset.refl _) ?_ rfl fun _ hlabel => hlabel
    intro commitment r hr
    exact OrdMap.mem_entries_iff.mp (List.filter_sublist.subset (OrdMap.mem_entries_iff.mpr hr))
  · exact h.of_subset hheight (List.Subset.refl _) (fun _ _ hr => hr) rfl fun _ hlabel => hlabel

/-- **One accepted operation.** -/
theorem step (h : NameHistory g height log s) (haligned : NamesAligned s) {block : CybouBlock}
    (hparams : g.params.nameCommitMinDepth ≤ g.params.nameCommitMaxLifetime)
    (hheight : block.height = height) {operation : ProtocolOperation}
    (hstep : Step (blockContext g block) operation s s₁ s') :
    NameHistory g height ((height, operation) :: log) s' := by
  have hlog : log ⊆ (height, operation) :: log := List.subset_cons_self _ _
  have hlabels : ∀ label, GenesisLabel s label → GenesisLabel s' label :=
    fun label hlabel => hlabel.run hstep.allocations
  have hdone := hstep.done
  have hrecorded := hstep.recorded
  cases operation with
  | accountCreate op =>
    cases hrecorded
    rcases haligned.names_opens (AccountCreateDone.opens hdone) with
      ⟨hnames, -⟩ | ⟨key, a, hclaimable, -, -, hnames⟩
    · refine h.of_subset (UInt64.le_refl _) hlog ?_ (by rw [hnames]) hlabels
      rw [hnames]
      exact fun _ _ hr => hr
    · have hlabel := hlabels a.label ⟨key, a, (claimableAllocation_some hclaimable).2.1, rfl⟩
      refine h.bind hlog ?_ (by rw [hnames]) hlabels (.inl hlabel)
      rw [hnames]
      exact fun _ _ hr => hr
  | nameCommit op =>
    cases hrecorded
    have hresult := NameCommitDone.result hdone
    refine ⟨?_, ?_⟩
    · intro commitment r hr
      rw [hresult] at hr
      by_cases hc : commitment = op.commit.commitment
      · rw [hc, OrdMap.find?_set_self] at hr
        cases hr
        refine ⟨hheight ▸ UInt64.le_refl _, op, ?_, hc.symm, rfl⟩
        exact hheight ▸ List.mem_cons_self
      · rw [OrdMap.find?_set_of_ne _ _ hc] at hr
        obtain ⟨hle, op', hop', hrest⟩ := h.commits commitment r hr
        exact ⟨hle, op', hlog hop', hrest⟩
    · intro label id hname
      rw [hresult] at hname
      rcases h.names label id hname with hlabel | hrevealed
      · exact .inl (hlabels label hlabel)
      · exact .inr (hrevealed.mono hlog)
  | nameReveal op =>
    cases hrecorded
    obtain ⟨commitment, record, hrecord, hcommitment, hcommitter, hdepth, hlifetime, -, hresult⟩ :=
      NameRevealDone.revealed hdone
    have hcommits : ∀ c r, s₁.names.pendingCommits.find? c = some r →
        s.names.pendingCommits.find? c = some r := by
      intro c r hr
      rw [hresult] at hr
      exact OrdMap.mem_entries_iff.mp (List.filter_sublist.subset (OrdMap.mem_entries_iff.mpr hr))
    refine h.bind hlog hcommits (by rw [hresult]) hlabels (.inr ?_)
    obtain ⟨hle, commit, hcommit, hopened, haccount⟩ := h.commits commitment record hrecord
    have hbefore : record.commitHeight ≤ block.height := hheight ▸ hle
    have hwindow := reveal_window hparams hbefore hdepth hlifetime
    refine ⟨height, record.commitHeight, op, commit, List.mem_cons_self, hlog hcommit, rfl, rfl,
      haccount.trans hcommitter, hopened.trans hcommitment, ?_⟩
    rw [← hheight]
    exact hwindow
  | payment | identityRotate | systemLock | rootPublication | revokePublication | storageLease
  | storageSettlement =>
    have hframe := hstep.registryFrame rfl
    refine h.of_subset (UInt64.le_refl _) hlog ?_ (by rw [hframe.names]) hlabels
    rw [hframe.names]
    exact fun _ _ hr => hr

end NameHistory

theorem ValidGenesis.nameHistory (h : ValidGenesis s) : NameHistory g 0 [] s where
  commits := by
    intro commitment r hr
    have hvalid := validateCybouState_eq_none.mp h.valid
    cases (h.hasAccount r.accountId).symm.trans (hvalid.commit commitment r hr).2
  names := by
    intro label id hname
    cases (h.unnamed label).symm.trans hname

/-- **Every state of a run has its history.** -/
theorem LoggedRun.nameHistory {height : UInt64}
    (h : LoggedRun g genesis height log s) (hgenesis : ValidGenesis genesis)
    (hparams : g.params.nameCommitMinDepth ≤ g.params.nameCommitMaxLifetime) : NameHistory g height log s := by
  induction h with
  | genesis => exact hgenesis.nameHistory
  | @block height log s block hrun hmax hheight ih =>
    have hle : height ≤ block.height := hheight ▸ UInt64.le_of_lt (lt_add_one_of_ne_max hmax)
    exact ih.expireCommits hle _
  | operation hrun hheight haccepts ih =>
    obtain ⟨hkept, haligned, -⟩ :=
      hrun.trace.aligned hgenesis.total hgenesis.supplyKept hgenesis.namesAligned
    obtain ⟨_, hstep⟩ := haccepts.step (hkept.total_eq ▸ hgenesis.total) hkept.funds
    exact ih.step haligned hparams hheight hstep

/-! ### Names stay -/

/-- A name that is owned stays with its owner. -/
theorem Step.names_kept {ctx : BlockContext} {operation : ProtocolOperation} {s₁ : CybouState}
    (hstep : Step ctx operation s s₁ s') (haligned : NamesAligned s)
    (hname : s.names.names.find? label = some id) : s'.names.names.find? label = some id := by
  have hset : ∀ {label' : Bytes} {id' : AccountId}, s.names.names.find? label' = none →
      (s.names.names.set label' id').find? label = some id := by
    intro label' id' hfree
    have hne : label ≠ label' := by
      intro heq
      subst heq
      cases hfree.symm.trans hname
    rw [OrdMap.find?_set_of_ne _ _ hne]
    exact hname
  have hdone := hstep.done
  have hrecorded := hstep.recorded
  cases operation with
  | accountCreate op =>
    cases hrecorded
    rcases haligned.names_opens (AccountCreateDone.opens hdone) with
      ⟨hnames, -⟩ | ⟨key, a, -, -, hfree, hnames⟩
    · rw [hnames]
      exact hname
    · rw [hnames]
      exact hset hfree
  | nameCommit op =>
    cases hrecorded
    have hresult := NameCommitDone.result hdone
    rw [hresult]
    exact hname
  | nameReveal op =>
    cases hrecorded
    obtain ⟨_, _, -, -, -, -, -, -, hresult⟩ := NameRevealDone.revealed hdone
    rw [hresult]
    exact hset (NameRevealDone.free hdone)
  | payment | identityRotate | systemLock | rootPublication | revokePublication | storageLease
  | storageSettlement =>
    rw [(hstep.registryFrame rfl).names]
    exact hname

/-- **A name keeps its owner.** -/
theorem Trace.names_kept {total : Nat}
    (htotal : total < 2 ^ 64 - 1) (h : Trace s operations s') (hkept : SupplyKept total s)
    (haligned : NamesAligned s)
    (hname : s.names.names.find? label = some id) : s'.names.names.find? label = some id := by
  induction h with
  | refl s => exact hname
  | operation haccepts _ ih =>
    obtain ⟨hkept₁, -, -, hadvances⟩ := haccepts.spends htotal hkept
    obtain ⟨_, hstep⟩ := haccepts.step (hkept.total_eq ▸ htotal) hkept.funds
    exact ih hkept₁ (haligned.step hstep hadvances) (hstep.names_kept haligned hname)
  | block ctx _ ih =>
    refine ih (hkept.expireCommits ctx) (haligned.expireCommits ctx) ?_
    unfold expireCommits
    split <;> exact hname

/-- **The name registry over whole runs.** -/
theorem name_registry_runs {genesis s : CybouState} {height : UInt64} {log : OperationLog}
    (hparams : validateProtocolParameters g.params = true) (hgenesis : ValidGenesis genesis)
    (h : LoggedRun g genesis height log s) :
    (∀ label id, s.names.names.find? label = some id ↔ s.names.accountNames.find? id = some label) ∧
    (∀ label id, s.names.names.find? label = some id → s.hasAccount id = true) ∧
    (∀ commitment commitment' r r', s.names.pendingCommits.find? commitment = some r →
      s.names.pendingCommits.find? commitment' = some r' → r.accountId = r'.accountId →
        commitment = commitment') ∧
    (∀ key a, genesis.genesisAllocations.find? key = some a → a.label ≠ [] → ∃ a',
      s.genesisAllocations.find? key = some a' ∧ s.names.names.find? a.label = a'.claimedBy) ∧
    (∀ label id, s.names.names.find? label = some id →
      (∀ key a, genesis.genesisAllocations.find? key = some a → a.label ≠ label) →
        Revealed g log label id) ∧
    ∀ later s', Trace s later s' → ∀ label id, s.names.names.find? label = some id →
      s'.names.names.find? label = some id := by
  obtain ⟨hkept, haligned, hruns⟩ :=
    h.trace.aligned hgenesis.total hgenesis.supplyKept hgenesis.namesAligned
  have hhistory := h.nameHistory hgenesis (validateProtocolParameters_names hparams).2
  refine ⟨haligned.inverse, haligned.owners, ?_, ?_, ?_, ?_⟩
  · intro commitment commitment' r r' hr hr' heq
    have hmem := OrdMap.mem_entries_iff.mpr hr
    have hmem' := OrdMap.mem_entries_iff.mpr hr'
    exact congrArg Prod.fst (List.inj_on_of_nodup_map haligned.commits hmem hmem' heq)
  · intro key a ha hne
    obtain ⟨a', ha', hlabel, -⟩ := (hruns key).present a ha
    refine ⟨a', ha', ?_⟩
    rw [← hlabel]
    exact haligned.labels key a' ha' (hlabel ▸ hne)
  · intro label id hname hother
    rcases hhistory.names label id hname with ⟨key, a', ha', hlabel'⟩ | hrevealed
    · obtain ⟨a, ha, hlabel, -⟩ := NamesAligned.before (hruns key) ha'
      exact absurd (hlabel.symm.trans hlabel') (hother key a ha)
    · exact hrevealed
  · intro later s' hlater label id hname
    exact hlater.names_kept hgenesis.total hkept haligned hname

end

section Sample

attribute [local instance] Crypto.sample

/-- The sample network, without work for new accounts. -/
def openingNetwork : VerifiedNetworkGenesis :=
  { sampleNetwork treasuryGenesis with params := openingContext.params }

def openingBlock : CybouBlock := firstBlock [.accountCreate sampleCreate] Hash256.ZERO

theorem accepts_openingBlock :
    ∃ s, Accepts (blockContext openingNetwork openingBlock) (.accountCreate sampleCreate) treasuryGenesis s :=
  exists_accepts (by decide +kernel)

/-- The claimant of the treasury gets its label. -/
theorem name_registry_runs_sampleCreate : ∃ s a,
    LoggedRun openingNetwork treasuryGenesis 1 [(1, .accountCreate sampleCreate)] s ∧
      s.genesisAllocations.find? (sampleKeyId 3) = some a ∧
      s.names.names.find? CENTRAL_AUTHORITY_NAME = a.claimedBy := by
  obtain ⟨s, hs⟩ := accepts_openingBlock
  have hempty : expireCommits (blockContext openingNetwork openingBlock) treasuryGenesis = treasuryGenesis :=
    rfl
  have hstarted : LoggedRun openingNetwork treasuryGenesis 1 []
      (expireCommits (blockContext openingNetwork openingBlock) treasuryGenesis) :=
    .block openingBlock .genesis (by decide) rfl
  rw [hempty] at hstarted
  have hrun : LoggedRun openingNetwork treasuryGenesis 1 [(1, .accountCreate sampleCreate)] s :=
    .operation hstarted rfl hs
  obtain ⟨-, -, -, hlabels, -⟩ :=
    name_registry_runs (by decide) validGenesis_treasuryGenesis hrun
  obtain ⟨a, ha, hname⟩ := hlabels (sampleKeyId 3) _ (OrdMap.find?_set_self ..)
    (show CENTRAL_AUTHORITY_NAME ≠ [] by decide)
  exact ⟨s, a, hrun, ha, hname⟩

end Sample

end Cybou
