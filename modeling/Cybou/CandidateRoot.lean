import Cybou.BlockProduction
import Cybou.TipReplacement

/-! # The root that a producer computes is the root that a commit accepts

`ComputeCandidateStateRoot`, `CommitFinalizedBlock`.

Both decide on their own whether a block is empty and lets no name commit expire,
and then take the stored root in place of an execution.  Execution would give the
same state and the same root (`executes_empty`), so that either function asks
whether the block executes on the loaded state.  A commit asks the conflict
detector as well, and the producer does not.
-/

namespace Cybou

open Library

section

variable [Crypto] {g : VerifiedNetworkGenesis} {node : Node} {loaded : CybouState} {head : FinalizedHead}
  {fb : FinalizedBlock}

/-- The node reads a valid state, stored together with its root. -/
structure StoredState (g : VerifiedNetworkGenesis) (node : Node) (loaded : CybouState) : Prop where
  snapshot : getStateSnapshotLocked g node = .ok loaded
  valid : StateInvariant loaded
  root : readHash node.db .hash = some (stateRoot loaded)

theorem ConsistentNode.storedState {genesis s : CybouState} {chain : List FinalizedBlock}
    (h : ConsistentNode g genesis chain head s node) (hgenesis : StateInvariant genesis)
    (hloaded : getStateSnapshotLocked g node = .ok loaded) : StoredState g node loaded := by
  obtain rfl := h.loaded_eq hgenesis hloaded
  exact ⟨hloaded, h.store.canonical.invariant hgenesis, readHash_encodeLocalHash h.store.hash⟩

def Commits (g : VerifiedNetworkGenesis) (node : Node) (fb : FinalizedBlock) : Prop :=
  ∃ result, (commitFinalizedBlock g node fb {}).outcome = .returned result ∧ result.error = .none

/-- The detector has no objection: it is not halted, and it knows no other certificate
    for the height and the parent of the block. -/
def Unopposed (g : VerifiedNetworkGenesis) (node : Node) (fb : FinalizedBlock) : Prop :=
  (seen g node fb {}).status = .observed ∨ (seen g node fb {}).status = .alreadyObserved

/-! ### Refusals -/

variable {block : CybouBlock} {result : BlockTransitionResult}

theorem executing_refuse {parent : CybouState} {next : CybouState → Hash256 → Plan}
    (h : executing g parent block next = .refuse result)
    (hnext : ∀ s root, next s root = .refuse result → result.error ≠ .none) : result.error ≠ .none := by
  unfold executing at h
  split at h
  · cases h
  split at h
  · split at h <;> cases h <;> exact nofun
  · split at h
    · exact hnext _ _ h
    · cases h

variable {db : NodeDb}

theorem finishExtension_refuse {edits : Batch} {state : CybouState}
    (h : finishExtension db head fb edits state = .refuse result) : result.error ≠ .none := by
  unfold finishExtension at h
  split at h
  · cases h
    exact nofun
  split at h
  · cases h
    exact nofun
  · dsimp only at h
    split at h <;> cases h

/-- A refused extension is refused for a reason. -/
theorem planExtension_refuse
    (h : planExtension g db loaded head fb = .refuse result) : result.error ≠ .none := by
  unfold planExtension at h
  dsimp only at h
  split at h
  · cases h
    exact nofun
  split at h
  · cases h
    exact nofun
  split at h
  · split at h
    · cases h
      exact nofun
    split at h
    · cases h
      exact nofun
    split at h
    · cases h
      exact nofun
    · exact finishExtension_refuse h
  · refine executing_refuse h ?_
    intro s root hs
    split at hs
    · cases hs
      exact nofun
    split at hs
    · cases hs
      exact nofun
    · exact finishExtension_refuse hs

/-! ### Both functions ask for an execution -/

variable {root : Hash256}

theorem BlockExecutor.finalize_stateRoot {executor : BlockExecutor}
    (h : executor.finalize.stateRoot = some root) : ∃ s, executor.finalize.state = some s := by
  unfold BlockExecutor.finalize at h ⊢
  split at h
  · cases h
  next hvalid =>
  split at h
  · cases h
  next hstate =>
  split at h
  · cases h
  next hsupply =>
  split at h
  · cases h
  next hroot =>
  exact ⟨executor.candidate, by rw [if_neg hvalid, if_neg hstate, if_neg hsupply]⟩

/-- **What a producer computes**: the root to which a block executes on the loaded state. -/
theorem computeCandidateStateRoot_eq_some (h : StoredState g node loaded)
    (hhead : getFinalizedHead node.db = some head) (hparent : block.parentBlockId = head.blockId) :
    computeCandidateStateRoot g node block.operations block.height = some root ↔
      head.height ≠ UINT64_MAX ∧ block.height = head.height + 1 ∧ ∃ s, Executes g loaded block s root := by
  have hnext : block.height ≠ head.height + 1 ∨ block.height = 0 ↔
      ¬(head.height ≠ UINT64_MAX ∧ block.height = head.height + 1) := by
    constructor
    · rintro (hne | hzero) ⟨hmax, hheight⟩
      · exact hne hheight
      · have hsucc := toNat_succ_of_ne_max hmax
        rw [← hheight, hzero] at hsucc
        cases hsucc
    · intro hall
      by_contra hstop
      push Not at hstop
      refine hall ⟨?_, hstop.1⟩
      intro hmax
      rw [hmax] at hstop
      exact hstop.2 hstop.1
  have hctx : blockContext g block =
      { networkBinding := g.networkBinding, blockHeight := block.height, params := g.params
        poaKey := some g.poaKey, verifiedParentId := head.blockId } := by
    rw [blockContext, hparent]
  rw [computeCandidateStateRoot, h.snapshot, hhead]
  dsimp only
  by_cases hheight : head.height ≠ UINT64_MAX ∧ block.height = head.height + 1
  swap
  · rw [if_pos (hnext.mpr hheight)]
    simp only [reduceCtorEq, false_iff]
    exact fun hall => hheight ⟨hall.1, hall.2.1⟩
  rw [if_neg (fun hstop => hnext.mp hstop hheight), and_iff_right hheight.1, and_iff_right hheight.2]
  by_cases hnoop : block.operations = [] ∧ expiresName g loaded block.height = false
  · have hexec := executes_empty (g := g) h.valid hnoop.1 hnoop.2 (cybouStateHash_of_invariant h.valid false)
    rw [if_pos hnoop, h.root, Option.some.injEq]
    constructor
    · rintro rfl
      exact ⟨loaded, hexec⟩
    · rintro ⟨s, hs⟩
      exact (hexec.unique hs).2
  · rw [if_neg hnoop, ← hctx, Option.bind_eq_some_iff]
    constructor
    · rintro ⟨execution, hrun, hroot⟩
      split at hroot
      · next hok =>
        obtain ⟨-, executor, hfrom, -⟩ := executeBlockOperations_ok hrun hok
        obtain ⟨last, rfl⟩ := executeFrom_finalize hfrom hok
        obtain ⟨s, hs⟩ := BlockExecutor.finalize_stateRoot hroot
        exact ⟨s, last.finalize, hrun, hok, hs, hroot⟩
      · cases hroot
    · rintro ⟨s, execution, hrun, hok, -, hroot⟩
      refine ⟨execution, hrun, ?_⟩
      rw [if_pos hok, hroot]

theorem Unopposed.not_halted (h : Unopposed g node fb) (hcert : Certified g fb) : node.halted = false := by
  by_contra hhalted
  have hstatus : (seen g node fb {}).status = .alreadyHalted := by
    rw [seen, Bool.eq_true_of_not_eq_false hhalted, observe, hcert.kept.serialize]
    dsimp only
    rw [if_neg (by simp [hcert.verified]), if_pos rfl]
  rcases h with h | h
  · cases hstatus.symm.trans h
  · cases hstatus.symm.trans h

/-- **What a commit accepts**: a block that executes on the loaded state to the root it names. -/
theorem commits_iff (h : StoredState g node loaded) (hhead : getFinalizedHead node.db = some head)
    (hcert : Certified g fb) (hparent : fb.block.parentBlockId = head.blockId)
    (hfresh : head.blockId ≠ computeBlockId fb.block) (hunopposed : Unopposed g node fb) :
    Commits g node fb ↔ head.height ≠ UINT64_MAX ∧ fb.block.height = head.height + 1 ∧
      ∃ s, Executes g loaded fb.block s fb.block.resultingStateRoot := by
  have hreaches : Reaches g node fb loaded head :=
    ⟨h.snapshot, hunopposed.not_halted hcert, hfresh, hcert, hhead⟩
  have hpasses : observationFailure (seen g node fb {}).status = none ∧
      (seen g node fb {}).status ≠ .canonicalReorgRequired := by
    rcases hunopposed with hstatus | hstatus <;> rw [hstatus] <;> exact ⟨rfl, nofun⟩
  have hread : readHash (seen g node fb {}).db .hash = some (stateRoot loaded) := by
    rw [readHash, seen, observe_sameChain _ _ _ _ _ .hash rfl]
    exact h.root
  have hwrite := fun batch state => @planExtension_write _ g _ loaded state head fb batch h.valid hread hcert
  rw [Commits, commitFinalizedBlock_of_reaches hreaches, hpasses.1, planOf, if_neg hpasses.2]
  dsimp only
  constructor
  · rintro ⟨result, hresult, hnone⟩
    cases hplan : planExtension g (seen g node fb {}).db loaded head fb with
    | refuse refused =>
      rw [hplan] at hresult
      cases hresult
      exact absurd hnone (planExtension_refuse hplan)
    | throw =>
      rw [hplan] at hresult
      cases hresult
    | write batch state =>
      obtain ⟨-, hmax, hheight, hexec, -⟩ := (hwrite batch state).mp hplan
      exact ⟨hmax, hheight, state, hexec⟩
  · rintro ⟨hmax, hheight, state, hexec⟩
    rw [(hwrite _ state).mpr ⟨hparent.symm, hmax, hheight, hexec, rfl⟩]
    exact ⟨{}, rfl, rfl⟩

/-- **Producer and verifier agree**: an empty block that lets no name commit expire executes
    to the loaded state and the stored root, and a producer computes the root of a certified
    block on the head exactly if a detector without objections lets the block be committed. -/
theorem candidate_root (h : StoredState g node loaded) :
    (∀ block : CybouBlock, block.operations = [] → expiresName g loaded block.height = false →
      ∃ root, readHash node.db .hash = some root ∧ Executes g loaded block loaded root) ∧
    ∀ head fb, getFinalizedHead node.db = some head → Certified g fb → fb.block.parentBlockId = head.blockId →
      head.blockId ≠ computeBlockId fb.block → Unopposed g node fb →
      (computeCandidateStateRoot g node fb.block.operations fb.block.height = some fb.block.resultingStateRoot ↔
        Commits g node fb) := by
  refine ⟨?_, ?_⟩
  · intro block hempty hexpires
    exact ⟨_, h.root, executes_empty h.valid hempty hexpires (cybouStateHash_of_invariant h.valid false)⟩
  · intro head fb hhead hcert hparent hfresh hunopposed
    rw [computeCandidateStateRoot_eq_some h hhead hparent,
      commits_iff h hhead hcert hparent hfresh hunopposed]

end

section Sample

attribute [local instance] Crypto.sample

theorem candidate_root_emptyBlock : ∃ node, Run (sampleNetwork idleState) idleState [] node ∧
    (∃ root, readHash node.db .hash = some root ∧
      Executes (sampleNetwork idleState) idleState emptyBlock.block idleState root) ∧
    (computeCandidateStateRoot (sampleNetwork idleState) node emptyBlock.block.operations
        emptyBlock.block.height = some emptyBlock.block.resultingStateRoot ↔
      Commits (sampleNetwork idleState) node emptyBlock) := by
  obtain ⟨node, hrun, hlive, hobserved, -⟩ := live_sampleNetwork invariant_idleState
  have hstored := hlive.consistent.storedState invariant_idleState hlive.loaded
  have hunopposed : Unopposed (sampleNetwork idleState) node emptyBlock := by
    refine .inl ?_
    rw [hlive.seen_eq, observe_first competitor_emptyBlock.certified {} (hobserved _ _)]
    rfl
  exact ⟨node, hrun, (candidate_root hstored).1 _ rfl (by decide),
    (candidate_root hstored).2 sampleHead emptyBlock hlive.consistent.store.getFinalizedHead
      competitor_emptyBlock.certified rfl competitor_emptyBlock.fresh hunopposed⟩

/-- A node that was halted by a lost write still computes the root, and refuses the block. -/
theorem candidate_root_halted : ∃ node, Run (sampleNetwork idleState) idleState [emptyBlock] node ∧
    StoredState (sampleNetwork idleState) node idleState ∧ getFinalizedHead node.db = some sampleHead ∧
    Certified (sampleNetwork idleState) emptyBlock ∧ emptyBlock.block.parentBlockId = sampleHead.blockId ∧
    sampleHead.blockId ≠ computeBlockId emptyBlock.block ∧
    computeCandidateStateRoot (sampleNetwork idleState) node emptyBlock.block.operations
      emptyBlock.block.height = some emptyBlock.block.resultingStateRoot ∧
    ¬Commits (sampleNetwork idleState) node emptyBlock := by
  obtain ⟨node, hrun, hlive, hobserved, -⟩ := live_sampleNetwork invariant_idleState
  have hstored := hlive.consistent.storedState invariant_idleState hlive.loaded
  have hhead := hlive.consistent.store.getFinalizedHead
  have hreply : (commitFinalizedBlock (sampleNetwork idleState) node emptyBlock { observation := .lost }).node =
      { node with snapshot := some idleState, halted := true } := by
    rw [commitFinalizedBlock_of_reaches (hlive.reaches competitor_emptyBlock.fresh competitor_emptyBlock.certified)]
    have hseen : seen (sampleNetwork idleState) node emptyBlock { observation := .lost } =
        ⟨.storageError, true, node.db⟩ := by
      rw [hlive.seen_eq, observe_first competitor_emptyBlock.certified _ (hobserved _ _)]
      rfl
    rw [seenNode, hseen]
    rfl
  have hrun' := Run.deliver emptyBlock { observation := .lost } hrun (by decide)
  rw [hreply] at hrun'
  have hstored' : StoredState (sampleNetwork idleState) { node with snapshot := some idleState, halted := true }
      idleState := ⟨rfl, hstored.valid, hstored.root⟩
  refine ⟨_, hrun', hstored', hhead, competitor_emptyBlock.certified, rfl, competitor_emptyBlock.fresh, ?_, ?_⟩
  · exact (computeCandidateStateRoot_eq_some hstored' hhead rfl).mpr
      ⟨competitor_emptyBlock.room, competitor_emptyBlock.height, competitor_emptyBlock.executes⟩
  · rintro ⟨result, hresult, hnone⟩
    cases hresult
    cases hnone

end Sample

end Cybou
