import Cybou.CanonicalStore

/-! # Competing blocks for one height and parent

Of several certified blocks on one parent the node is to end with the one of
the smallest id.  The detector keeps the smallest id it has seen, and the block
replaces the tip when it is observed for the first time; a block whose
observation is already on record is only ever tried as an extension.  So
deliveries converge exactly when no observation is left behind by a block that
did not become the tip (`tip_replacement`), and a replacement that is
interrupted between its two writes is never made up for
(`interrupted_replacement`).
-/

namespace Cybou

open Library

section

variable [Crypto] {g : VerifiedNetworkGenesis}

/-! ### Deliveries with durable writes -/

/-- `CommitFinalizedBlock` when every write is done. -/
def deliver (g : VerifiedNetworkGenesis) (node : Node) (fb : FinalizedBlock) : Node :=
  (commitFinalizedBlock g node fb {}).node

def deliverAll (g : VerifiedNetworkGenesis) (node : Node) (order : List FinalizedBlock) : Node :=
  order.foldl (deliver g) node

variable {genesis s s' : CybouState} {chain : List FinalizedBlock} {head : FinalizedHead} {node : Node}
  {fb : FinalizedBlock}

theorem deliver_of_not_reaches (h : ∀ loaded head, ¬Reaches g node fb loaded head) :
    (deliver g node fb).db = node.db ∧ (deliver g node fb).halted = node.halted ∧
      Caches g node (deliver g node fb).snapshot := by
  obtain ⟨error, snapshot, -, hcaches, heq⟩ := commitFinalizedBlock_of_not_reaches {} h
  rw [deliver, heq]
  exact ⟨rfl, rfl, hcaches⟩

variable {loaded : CybouState}

theorem deliver_of_refused (h : Reaches g node fb loaded head)
    (hrefused : observationFailure (seen g node fb {}).status = none → ∀ batch state,
      planOf g (seen g node fb {}).db (seen g node fb {}).status loaded head fb ≠ .write batch state) :
    deliver g node fb = seenNode g node fb loaded {} := by
  rw [deliver, commitFinalizedBlock_of_reaches h]
  cases hstatus : observationFailure (seen g node fb {}).status with
  | some error => rfl
  | none =>
    dsimp only
    cases hplan : planOf g (seen g node fb {}).db (seen g node fb {}).status loaded head fb with
    | refuse result => rfl
    | throw => rfl
    | write batch state => exact absurd hplan (hrefused hstatus batch state)

variable {state : CybouState} {batch : Batch}

theorem deliver_of_written (hw : Writes g node fb {} loaded head batch state) :
    deliver g node fb = writtenNode g node fb loaded {} batch state := by
  rw [deliver, commitFinalizedBlock_of_reaches hw.reaches, hw.status, hw.plan]
  rfl

/-! ### Live nodes -/

/-- A consistent node that is not halted and has its state at hand. -/
structure Live (g : VerifiedNetworkGenesis) (genesis : CybouState) (chain : List FinalizedBlock)
    (head : FinalizedHead) (s : CybouState) (node : Node) : Prop where
  consistent : ConsistentNode g genesis chain head s node
  halted : node.halted = false
  loaded : getStateSnapshotLocked g node = .ok s

variable {db : NodeDb}

theorem observe_not_halted (hcert : Certified g fb) (hrecords : RecordsKept g db) :
    (observe g false db fb.certificate fb.block {}).halted = false := by
  obtain hnone | ⟨c, hc⟩ := hrecords fb.block.height fb.block.parentBlockId
  · rw [observe_first hcert {} hnone]
    rfl
  · rw [observe_again hcert hc]
    dsimp only
    split
    · rfl
    rw [if_neg (by simp)]
    split <;> rfl

namespace Live

theorem reaches (h : Live g genesis chain head s node) (hfresh : head.blockId ≠ computeBlockId fb.block)
    (hcert : Certified g fb) : Reaches g node fb s head where
  snapshot := h.loaded
  halted := h.halted
  fresh := hfresh
  certified := hcert
  head := h.consistent.store.getFinalizedHead

theorem seen_eq (h : Live g genesis chain head s node) (fb : FinalizedBlock) (fates : CommitFates) :
    seen g node fb fates = observe g false node.db fb.certificate fb.block fates := by
  rw [seen, h.halted]

theorem deliver_head (h : Live g genesis chain head s node) (heq : head.blockId = computeBlockId fb.block) :
    Live g genesis chain head s (deliver g node fb) ∧ (deliver g node fb).db = node.db := by
  have hnot : ∀ loaded head', ¬Reaches g node fb loaded head' := by
    intro loaded head' hreaches
    have hhead := hreaches.head
    rw [h.consistent.store.getFinalizedHead] at hhead
    cases hhead
    exact hreaches.fresh heq
  obtain ⟨hdb, hhalted, hcaches⟩ := deliver_of_not_reaches hnot
  obtain hsnapshot | ⟨loaded, hloaded, hsnapshot⟩ := hcaches
  · have hsame : deliver g node fb = node := by
      cases hnode : deliver g node fb with
      | mk db snapshot halted =>
        rw [hnode] at hdb hhalted hsnapshot
        cases node
        simp_all
    rw [hsame]
    exact ⟨h, rfl⟩
  · rw [h.loaded] at hloaded
    cases hloaded
    refine ⟨⟨⟨hdb ▸ h.consistent.store, hdb ▸ h.consistent.detector, ?_⟩, hhalted.trans h.halted, ?_⟩, hdb⟩
    · intro cached hcached
      rw [hsnapshot] at hcached
      exact (Option.some.inj hcached).symm
    · rw [getStateSnapshotLocked, hsnapshot]

theorem deliver_refused (h : Live g genesis chain head s node) (hcert : Certified g fb)
    (hfresh : head.blockId ≠ computeBlockId fb.block)
    (hrefused : observationFailure (seen g node fb {}).status = none → ∀ batch state,
      planOf g (seen g node fb {}).db (seen g node fb {}).status s head fb ≠ .write batch state) :
    Live g genesis chain head s (deliver g node fb) ∧ (deliver g node fb).db = (seen g node fb {}).db := by
  have hreaches := h.reaches hfresh hcert
  rw [deliver_of_refused hreaches hrefused]
  refine ⟨⟨⟨?_, ?_, ?_⟩, ?_, rfl⟩, rfl⟩
  · exact h.consistent.store.sameChain (observe_sameChain _ _ _ _ _)
  · rw [seenNode, h.seen_eq]
    exact h.consistent.detector.effect hcert (observe_effect hcert h.consistent.detector.records _)
  · intro cached hcached
    cases hcached
    rfl
  · rw [seenNode, h.seen_eq]
    exact observe_not_halted hcert h.consistent.detector.records

theorem deliver_written {state : CybouState} {batch : Batch} (h : Live g genesis chain head s node)
    (hgenesis : StateInvariant genesis) (hids : IdsDistinct (fb :: chain))
    (hw : Writes g node fb {} s head batch state) :
    ∃ below, ((seen g node fb {}).status = .canonicalReorgRequired ∧ (∃ tip, chain = tip :: below) ∨
        (seen g node fb {}).status ≠ .canonicalReorgRequired ∧ below = chain) ∧
      Live g genesis (fb :: below) ⟨computeBlockId fb.block, fb.block.height⟩ state (deliver g node fb) ∧
      ∃ c, Observes g (deliver g node fb).db fb.block.height fb.block.parentBlockId c ∧
        c.blockId = computeBlockId fb.block := by
  obtain ⟨below, hbelow, hstore, hguarded, hdetector⟩ := h.consistent.written hgenesis hids hw
  have hcert := hw.reaches.certified
  rw [deliver_of_written hw]
  refine ⟨below, hbelow, ⟨⟨hstore, hguarded, ?_⟩, ?_, rfl⟩, ?_⟩
  · intro cached hcached
    cases hcached
    rfl
  · rw [writtenNode, h.seen_eq]
    exact observe_not_halted hcert h.consistent.detector.records
  · have hpassed := hw.status
    rw [h.seen_eq] at hpassed
    obtain ⟨-, c, hc, hid⟩ := observe_passed hcert h.consistent.detector.records hpassed
    rw [← h.seen_eq] at hc
    exact ⟨c, hc.of_eq (hdetector _ rfl), hid⟩

end Live

/-! ### One height and one parent -/

def Readable (s : CybouState) (fb : FinalizedBlock) : Prop :=
  (encodedState s).length ≤ MAX_COMPACT_SIZE ∧ (finalizedBytes fb).length ≤ MAX_COMPACT_SIZE

instance (s : CybouState) (fb : FinalizedBlock) : Decidable (Readable s fb) :=
  inferInstanceAs (Decidable (_ ∧ _))

structure Competitor (g : VerifiedNetworkGenesis) (head : FinalizedHead) (s : CybouState)
    (fb : FinalizedBlock) : Prop where
  certified : Certified g fb
  parent : head.blockId = fb.block.parentBlockId
  room : head.height ≠ UINT64_MAX
  height : fb.block.height = head.height + 1
  executes : ∃ s', Executes g s fb.block s' fb.block.resultingStateRoot
  /-- No block is its own parent. -/
  fresh : head.blockId ≠ computeBlockId fb.block

namespace Live

/-- A block that is observed first, or is the one observed, is written as an extension. -/
theorem writes_first (h : Live g genesis chain head s node) (hgenesis : StateInvariant genesis)
    (hcomp : Competitor g head s fb)
    (hobserved : node.db (.observed fb.block.height fb.block.parentBlockId) = none ∨
      ∃ c, Observes g node.db fb.block.height fb.block.parentBlockId c ∧ c.blockId = computeBlockId fb.block) :
    (seen g node fb {}).status ≠ .canonicalReorgRequired ∧
      ∃ batch state, Writes g node fb {} s head batch state := by
  have hstatus : (seen g node fb {}).status = .observed ∨ (seen g node fb {}).status = .alreadyObserved := by
    rw [h.seen_eq]
    obtain hnone | ⟨c, hc, hid⟩ := hobserved
    · rw [observe_first hcomp.certified {} hnone]
      exact .inl rfl
    · rw [observe_again hcomp.certified hc, if_pos hid]
      exact .inr rfl
  have hpassed : observationFailure (seen g node fb {}).status = none := by
    obtain hfirst | hagain := hstatus
    · rw [hfirst]
      rfl
    · rw [hagain]
      rfl
  have hextends : (seen g node fb {}).status ≠ .canonicalReorgRequired := by
    obtain hfirst | hagain := hstatus
    · simp [hfirst]
    · simp [hagain]
  have hseen : Consistent g genesis chain head s (seen g node fb {}).db :=
    h.consistent.store.sameChain (observe_sameChain _ _ _ _ _)
  obtain ⟨s', hexec⟩ := hcomp.executes
  have hplan := (hseen.planExtension_write hgenesis hcomp.certified).mpr
    ⟨hcomp.parent, hcomp.room, hcomp.height, hexec, rfl⟩
  exact ⟨hextends, _, s', h.reaches hcomp.fresh hcomp.certified, hpassed,
    by rw [planOf, if_neg hextends, hplan]⟩

/-- **The first block** on the head becomes the tip, if the detector has kept no
    other. -/
theorem deliver_first (h : Live g genesis chain head s node) (hgenesis : StateInvariant genesis)
    (hids : IdsDistinct (fb :: chain)) (hcomp : Competitor g head s fb)
    (hobserved : node.db (.observed fb.block.height fb.block.parentBlockId) = none ∨
      ∃ c, Observes g node.db fb.block.height fb.block.parentBlockId c ∧ c.blockId = computeBlockId fb.block) :
    ∃ s', Live g genesis (fb :: chain) ⟨computeBlockId fb.block, fb.block.height⟩ s' (deliver g node fb) ∧
      ∃ c, Observes g (deliver g node fb).db fb.block.height fb.block.parentBlockId c ∧
        c.blockId = computeBlockId fb.block := by
  obtain ⟨hextends, batch, s', hw⟩ := h.writes_first hgenesis hcomp hobserved
  obtain ⟨below, ⟨hreorg, -⟩ | ⟨-, rfl⟩, hlive, hkept⟩ := h.deliver_written hgenesis hids hw
  · exact absurd hreorg hextends
  · exact ⟨s', hlive, hkept⟩

theorem deliver_first_detector (h : Live g genesis chain head s node) (hgenesis : StateInvariant genesis)
    (hids : IdsDistinct (fb :: chain)) (hcert : Certified g fb) (hfresh : head.blockId ≠ computeBlockId fb.block)
    (hnone : node.db (.observed fb.block.height fb.block.parentBlockId) = none) {key : StoreKey}
    (hkey : key.isDetector = true) (hne : .observed fb.block.height fb.block.parentBlockId ≠ key) :
    (deliver g node fb).db key = node.db key := by
  rw [deliver, h.consistent.commit_detector hgenesis hids (h.reaches hfresh hcert) {} hkey, h.seen_eq,
    observe_first hcert {} hnone]
  dsimp only
  rw [write_of_forall_ne (by simpa [Edit.key] using hne)]

variable {c : PoaFinalityCertificate}

/-- **A larger block** is refused. -/
theorem deliver_larger (h : Live g genesis chain head s node)
    (hcert : Certified g fb) (hfresh : head.blockId ≠ computeBlockId fb.block)
    (hc : Observes g node.db fb.block.height fb.block.parentBlockId c)
    (hlarger : c.blockId < computeBlockId fb.block) :
    Live g genesis chain head s (deliver g node fb) ∧
      ∀ height parent, (deliver g node fb).db (.observed height parent) = node.db (.observed height parent) := by
  have hseen : seen g node fb {} = ⟨.competingNonCanonical, false, node.db.write
      [.put .detectorHalt (encodeLocalBytes
        (equivocationRecord (certificateBytes c) (certificateBytes fb.certificate)))] .done⟩ := by
    rw [h.seen_eq, observe_again hcert hc, if_neg hlarger.ne]
    dsimp only
    rw [if_neg (by simp), if_neg hlarger.not_gt]
  obtain ⟨hlive, hdb⟩ := h.deliver_refused hcert hfresh (by
    intro hpassed
    rw [hseen] at hpassed
    cases hpassed)
  refine ⟨hlive, fun height parent => ?_⟩
  rw [hdb, hseen]
  exact write_of_forall_ne (by simp [Edit.key]) .done

/-- A block smaller than what is on record is reported as a replacement. -/
theorem seen_smaller (h : Live g genesis chain head s node) (hcert : Certified g fb)
    (hc : Observes g node.db fb.block.height fb.block.parentBlockId c)
    (hsmaller : computeBlockId fb.block < c.blockId) :
    (seen g node fb {}).status = .canonicalReorgRequired ∧
      observationFailure (seen g node fb {}).status = none := by
  have hstatus : (seen g node fb {}).status = .canonicalReorgRequired := by
    rw [h.seen_eq, observe_again hcert hc, if_neg hsmaller.ne']
    dsimp only
    rw [if_neg (by simp), if_pos hsmaller]
    rfl
  exact ⟨hstatus, by rw [hstatus]; rfl⟩

/-- **A smaller block** takes the place of the tip if that tip and the state before
    it can be read, and is left observed in any case. -/
theorem deliver_smaller {tip : FinalizedBlock} {below : List FinalizedBlock}
    {parentHead : FinalizedHead} {parent : CybouState} (h : Live g genesis (tip :: below) head s node)
    (hgenesis : StateInvariant genesis) (hids : IdsDistinct (fb :: tip :: below))
    (hparent : Canonical g genesis below parentHead parent) (hcomp : Competitor g parentHead parent fb)
    (htip : tip.block.height = fb.block.height ∧ tip.block.parentBlockId = fb.block.parentBlockId)
    (hc : Observes g node.db fb.block.height fb.block.parentBlockId c)
    (hsmaller : computeBlockId fb.block < c.blockId) :
    (Readable parent tip →
      ∃ s', Live g genesis (fb :: below) ⟨computeBlockId fb.block, fb.block.height⟩ s' (deliver g node fb)) ∧
    (¬Readable parent tip →
      Live g genesis (tip :: below) head s (deliver g node fb)) ∧
    ∃ c, Observes g (deliver g node fb).db fb.block.height fb.block.parentBlockId c ∧
      c.blockId = computeBlockId fb.block := by
  obtain ⟨hstatus, hpassed⟩ := h.seen_smaller hcomp.certified hc hsmaller
  have hseen : Consistent g genesis (tip :: below) head s (seen g node fb {}).db :=
    h.consistent.store.sameChain (observe_sameChain _ _ _ _ _)
  obtain ⟨s', hexec⟩ := hcomp.executes
  -- The tip was observed, so it is not the block that is smaller than every observation.
  have hfresh : head.blockId ≠ computeBlockId fb.block := by
    obtain ⟨c', hc', hle⟩ := h.consistent.detector.tip tip below rfl
    rw [htip.1, htip.2] at hc'
    obtain rfl := hc.unique hc'
    cases h.consistent.store.canonical with
    | block => exact (hsmaller.trans_le hle).ne'
  by_cases hread : Readable parent tip
  · have hplan := (hseen.planReplacement_write hgenesis hcomp.certified).mpr
      ⟨tip, below, parentHead, parent, rfl, htip.1, htip.2, hread.2, hparent, hread.1, hexec, rfl⟩
    have hw : Writes g node fb {} s head
        (replacementBatch (seen g node fb {}).db s' head tip.block fb) s' :=
      ⟨h.reaches hfresh hcomp.certified, hpassed, by rw [planOf, if_pos hstatus, hplan]⟩
    obtain ⟨_, ⟨-, tip', heq⟩ | ⟨hextends, -⟩, hlive, hkept⟩ := h.deliver_written hgenesis hids hw
    · cases heq
      exact ⟨fun _ => ⟨s', hlive⟩, fun hnot => absurd hread hnot, hkept⟩
    · exact absurd hstatus hextends
  · have hrefused := h.deliver_refused hcomp.certified hfresh (by
      intro _ batch state hplan
      rw [planOf, if_pos hstatus, hseen.planReplacement_write hgenesis hcomp.certified] at hplan
      obtain ⟨tip', rest, parentHead', parent', heq, -, -, hsize, hcanonical, hsize', -⟩ := hplan
      cases heq
      obtain ⟨-, rfl⟩ := hcanonical.unique hparent
      exact hread ⟨hsize', hsize⟩)
    refine ⟨fun h => absurd h hread, fun _ => hrefused.1, ?_⟩
    rw [h.seen_eq] at hpassed
    obtain ⟨-, hkept⟩ := observe_passed hcomp.certified h.consistent.detector.records hpassed
    rw [hrefused.2, h.seen_eq]
    exact hkept

/-- Where the larger block never became the tip, the smaller one is observed and does not either. -/
theorem deliver_early (h : Live g genesis chain head s node)
    (hgenesis : StateInvariant genesis) (hcomp : Competitor g head s fb)
    (hc : Observes g node.db fb.block.height fb.block.parentBlockId c)
    (hsmaller : computeBlockId fb.block < c.blockId) :
    Live g genesis chain head s (deliver g node fb) ∧
      ∃ c, Observes g (deliver g node fb).db fb.block.height fb.block.parentBlockId c ∧
        c.blockId = computeBlockId fb.block := by
  obtain ⟨hstatus, hpassed⟩ := h.seen_smaller hcomp.certified hc hsmaller
  have hseen : Consistent g genesis chain head s (seen g node fb {}).db :=
    h.consistent.store.sameChain (observe_sameChain _ _ _ _ _)
  have hrefused := h.deliver_refused hcomp.certified hcomp.fresh (by
    intro _ batch state hplan
    rw [planOf, if_pos hstatus, hseen.planReplacement_write hgenesis hcomp.certified] at hplan
    obtain ⟨tip, rest, _, _, rfl, hheight, -⟩ := hplan
    have hhead : head.height = tip.block.height := by
      cases h.consistent.store.canonical with
      | block => rfl
    have hsucc := toNat_succ_of_ne_max hcomp.room
    rw [← hcomp.height, ← hheight, hhead] at hsucc
    omega)
  refine ⟨hrefused.1, ?_⟩
  rw [h.seen_eq] at hpassed
  obtain ⟨-, hkept⟩ := observe_passed hcomp.certified h.consistent.detector.records hpassed
  rw [hrefused.2, h.seen_eq]
  exact hkept

theorem deliver_late (h : Live g genesis chain head s node)
    (hgenesis : StateInvariant genesis) (hcert : Certified g fb)
    (hfresh : head.blockId ≠ computeBlockId fb.block) (hheight : fb.block.height.toNat ≤ head.height.toNat)
    (hc : Observes g node.db fb.block.height fb.block.parentBlockId c)
    (hid : c.blockId = computeBlockId fb.block) :
    Live g genesis chain head s (deliver g node fb) ∧ (deliver g node fb).db = node.db := by
  have hseen : seen g node fb {} = ⟨.alreadyObserved, false, node.db⟩ := by
    rw [h.seen_eq, observe_again hcert hc, if_pos hid]
  have hrefused := h.deliver_refused hcert hfresh (by
    intro _ batch state hplan
    rw [hseen, planOf, if_neg (by simp), h.consistent.store.planExtension_write hgenesis hcert] at hplan
    obtain ⟨-, hmax, hnext, -⟩ := hplan
    have hsucc := toNat_succ_of_ne_max hmax
    rw [← hnext] at hsucc
    omega)
  rw [hseen] at hrefused
  exact hrefused

theorem deliver_unexecutable (h : Live g genesis chain head s node) (hgenesis : StateInvariant genesis)
    (hcert : Certified g fb) (hfresh : head.blockId ≠ computeBlockId fb.block)
    (hnone : node.db (.observed fb.block.height fb.block.parentBlockId) = none)
    (hnot : ∀ s', ¬Executes g s fb.block s' fb.block.resultingStateRoot) :
    Live g genesis chain head s (deliver g node fb) ∧
      Observes g (deliver g node fb).db fb.block.height fb.block.parentBlockId fb.certificate := by
  have hseen : seen g node fb {} = ⟨.observed, false, node.db.write
      [.put (.observed fb.block.height fb.block.parentBlockId)
        (encodeLocalBytes (certificateBytes fb.certificate))] .done⟩ := by
    rw [h.seen_eq, observe_first hcert {} hnone]
    rfl
  have hstore : Consistent g genesis chain head s (seen g node fb {}).db :=
    h.consistent.store.sameChain (observe_sameChain _ _ _ _ _)
  obtain ⟨hlive, hdb⟩ := h.deliver_refused hcert hfresh (by
    intro _ batch state hplan
    rw [planOf, if_neg (by simp [hseen]), hstore.planExtension_write hgenesis hcert] at hplan
    exact hnot state hplan.2.2.2.1)
  rw [hdb, hseen]
  exact ⟨hlive, hcert.observes_write (show Fate.done ≠ .lost by decide)⟩

end Live

/-! ### Orders of delivery -/

def AtTip (g : VerifiedNetworkGenesis) (genesis : CybouState) (chain : List FinalizedBlock)
    (fb : FinalizedBlock) (node : Node) : Prop :=
  (∃ s, Live g genesis (fb :: chain) ⟨computeBlockId fb.block, fb.block.height⟩ s node) ∧
    ∃ c, Observes g node.db fb.block.height fb.block.parentBlockId c ∧ c.blockId = computeBlockId fb.block

structure Rivals (g : VerifiedNetworkGenesis) (genesis : CybouState) (chain : List FinalizedBlock)
    (head : FinalizedHead) (s : CybouState) (blocks : List FinalizedBlock) : Prop where
  validGenesis : StateInvariant genesis
  canonical : Canonical g genesis chain head s
  competitor : ∀ b ∈ blocks, Competitor g head s b
  ids : IdsDistinct (blocks ++ chain)
  distinct : ∀ a ∈ blocks, ∀ b ∈ blocks, computeBlockId a.block = computeBlockId b.block → a = b

namespace Rivals

variable {blocks : List FinalizedBlock}

variable {b tip minimum : FinalizedBlock}

variable {a : FinalizedBlock}

theorem same (h : Rivals g genesis chain head s blocks) (ha : a ∈ blocks) (hb : b ∈ blocks) :
    a.block.height = b.block.height ∧ a.block.parentBlockId = b.block.parentBlockId := by
  have hca := h.competitor a ha
  have hcb := h.competitor b hb
  exact ⟨hca.height.trans hcb.height.symm, hca.parent.symm.trans hcb.parent⟩

theorem ids_one (h : Rivals g genesis chain head s blocks) (hb : b ∈ blocks) :
    IdsDistinct (b :: chain) :=
  h.ids.mono (List.cons_subset.mpr ⟨List.mem_append_left _ hb, List.subset_append_right _ _⟩)

theorem ids_two (h : Rivals g genesis chain head s blocks) (ha : a ∈ blocks)
    (hb : b ∈ blocks) : IdsDistinct (a :: b :: chain) :=
  h.ids.mono (List.cons_subset.mpr ⟨List.mem_append_left _ ha,
    List.cons_subset.mpr ⟨List.mem_append_left _ hb, List.subset_append_right _ _⟩⟩)

theorem deliver_tip (h : Rivals g genesis chain head s blocks) {x : FinalizedBlock}
    (htip : tip ∈ blocks) (hx : x ∈ blocks) (hat : AtTip g genesis chain tip node)
    (hread : computeBlockId x.block < computeBlockId tip.block → Readable s tip) :
    ∃ next, (next = tip ∨ next = x) ∧ AtTip g genesis chain next (deliver g node x) ∧
      computeBlockId next.block ≤ computeBlockId tip.block ∧
      computeBlockId next.block ≤ computeBlockId x.block := by
  obtain ⟨⟨s', hlive⟩, c, hc, hid⟩ := hat
  obtain ⟨hheight, hparent⟩ := h.same htip hx
  have hcomp := h.competitor x hx
  rcases lt_trichotomy (computeBlockId x.block) (computeBlockId tip.block) with hlt | heq | hgt
  · rw [hheight, hparent] at hc
    obtain ⟨hreplaced, -, hkept⟩ := hlive.deliver_smaller h.validGenesis (h.ids_two hx htip) h.canonical hcomp
      ⟨hheight, hparent⟩ hc (hid ▸ hlt)
    exact ⟨x, .inr rfl, ⟨hreplaced (hread hlt), hkept⟩, hlt.le, le_refl _⟩
  · obtain ⟨hlive', hdb⟩ := hlive.deliver_head heq.symm
    exact ⟨tip, .inl rfl, ⟨⟨s', hlive'⟩, c, hdb ▸ hc, hid⟩, le_refl _, heq.ge⟩
  · rw [hheight, hparent] at hc
    obtain ⟨hlive', hobserved⟩ := hlive.deliver_larger hcomp.certified hgt.ne hc (hid ▸ hgt)
    refine ⟨tip, .inl rfl, ⟨⟨s', hlive'⟩, c, ?_, hid⟩, le_refl _, hgt.le⟩
    rw [hheight, hparent]
    exact hc.of_eq (hobserved _ _)

variable {order : List FinalizedBlock}

theorem deliverAll_smallest (h : Rivals g genesis chain head s blocks)
    (hminimum : ∀ b ∈ blocks, computeBlockId minimum.block ≤ computeBlockId b.block) (htip : tip ∈ blocks)
    (hread : ∀ b ∈ blocks, computeBlockId b.block ≤ computeBlockId tip.block →
      computeBlockId b.block ≠ computeBlockId minimum.block → Readable s b)
    (horder : order ⊆ blocks) (hat : AtTip g genesis chain tip node) :
    ∃ final ∈ blocks, AtTip g genesis chain final (deliverAll g node order) ∧
      ∀ b ∈ tip :: order, computeBlockId final.block ≤ computeBlockId b.block := by
  induction order generalizing node tip with
  | nil => exact ⟨tip, htip, hat, by simp⟩
  | cons x rest ih =>
    obtain ⟨hx, hrest⟩ := List.cons_subset.mp horder
    obtain ⟨next, hnext, hat', hle, hle'⟩ := h.deliver_tip htip hx hat fun hlt =>
      hread tip htip (le_refl _) ((hminimum x hx).trans_lt hlt).ne'
    have hmem : next ∈ blocks := by
      obtain rfl | rfl := hnext
      · exact htip
      · exact hx
    obtain ⟨final, hfinal, hat'', hall⟩ := ih hmem (fun b hb hbound => hread b hb (hbound.trans hle)) hrest hat'
    rw [List.forall_mem_cons] at hall
    refine ⟨final, hfinal, hat'', ?_⟩
    rw [List.forall_mem_cons, List.forall_mem_cons]
    exact ⟨hall.1.trans hle, hall.1.trans hle', hall.2⟩

theorem deliverAll_tip (h : Rivals g genesis chain head s blocks)
    (hminimum : ∀ b ∈ blocks, computeBlockId minimum.block ≤ computeBlockId b.block)
    (hmem : minimum ∈ blocks) (htip : tip ∈ blocks)
    (hread : ∀ b ∈ blocks, computeBlockId b.block ≤ computeBlockId tip.block →
      computeBlockId b.block ≠ computeBlockId minimum.block → Readable s b)
    (horder : order ⊆ blocks) (hdelivered : minimum ∈ tip :: order) (hat : AtTip g genesis chain tip node) :
    AtTip g genesis chain minimum (deliverAll g node order) := by
  have hsmallest : ∃ final ∈ blocks, AtTip g genesis chain final (deliverAll g node order) ∧
      ∀ b ∈ tip :: order, computeBlockId final.block ≤ computeBlockId b.block :=
    h.deliverAll_smallest hminimum htip hread horder hat
  obtain ⟨final, hfinal, hat', hall⟩ := hsmallest
  have hid := le_antisymm (hall minimum hdelivered) (hminimum final hfinal)
  exact h.distinct final hfinal minimum hmem hid ▸ hat'

variable {c : PoaFinalityCertificate}

theorem deliverAll_refused (h : Rivals g genesis chain head s blocks) (horder : order ⊆ blocks)
    (hlarger : ∀ b ∈ order, c.blockId < computeBlockId b.block) (hlive : Live g genesis chain head s node)
    (hc : ∀ b ∈ blocks, Observes g node.db b.block.height b.block.parentBlockId c) :
    Live g genesis chain head s (deliverAll g node order) ∧
      ∀ b ∈ blocks, Observes g (deliverAll g node order).db b.block.height b.block.parentBlockId c := by
  induction order generalizing node with
  | nil => exact ⟨hlive, hc⟩
  | cons x rest ih =>
    obtain ⟨hx, hrest⟩ := List.cons_subset.mp horder
    rw [List.forall_mem_cons] at hlarger
    have hcomp := h.competitor x hx
    obtain ⟨hlive', hobserved⟩ := hlive.deliver_larger hcomp.certified hcomp.fresh (hc x hx) hlarger.1
    exact ih hrest hlarger.2 hlive' fun b hb => (hc b hb).of_eq (hobserved _ _)

theorem deliverAll_stuck (h : Rivals g genesis chain head s blocks) {s' : CybouState} (htip : tip ∈ blocks)
    (hminimum : ∀ b ∈ blocks, computeBlockId minimum.block ≤ computeBlockId b.block)
    (hid : c.blockId = computeBlockId minimum.block) (horder : order ⊆ blocks)
    (hlive : Live g genesis (tip :: chain) ⟨computeBlockId tip.block, tip.block.height⟩ s' node)
    (hc : ∀ b ∈ blocks, Observes g node.db b.block.height b.block.parentBlockId c) :
    Live g genesis (tip :: chain) ⟨computeBlockId tip.block, tip.block.height⟩ s'
      (deliverAll g node order) := by
  induction order generalizing node with
  | nil => exact hlive
  | cons x rest ih =>
    obtain ⟨hx, hrest⟩ := List.cons_subset.mp horder
    have hcert := (h.competitor x hx).certified
    by_cases hsame : computeBlockId tip.block = computeBlockId x.block
    · obtain ⟨hlive', hdb⟩ := hlive.deliver_head hsame
      exact ih hrest hlive' fun b hb => hdb ▸ hc b hb
    by_cases hminimal : computeBlockId minimum.block = computeBlockId x.block
    · obtain ⟨hlive', hdb⟩ := hlive.deliver_late h.validGenesis hcert hsame
        (congrArg UInt64.toNat (h.same htip hx).1).ge (hc x hx)
        (hid.trans hminimal)
      exact ih hrest hlive' fun b hb => hdb ▸ hc b hb
    · have hlarger : c.blockId < computeBlockId x.block :=
        hid ▸ lt_of_le_of_ne (hminimum x hx) hminimal
      obtain ⟨hlive', hobserved⟩ := hlive.deliver_larger hcert hsame (hc x hx) hlarger
      exact ih hrest hlive' fun b hb => (hc b hb).of_eq (hobserved _ _)

theorem deliverAll_kept (h : Rivals g genesis chain head s blocks) (hmem : minimum ∈ blocks)
    (hminimum : ∀ b ∈ blocks, computeBlockId minimum.block ≤ computeBlockId b.block)
    (horder : order ⊆ blocks) (hdelivered : minimum ∈ order) (hid : c.blockId = computeBlockId minimum.block)
    (hlive : Live g genesis chain head s node)
    (hc : ∀ b ∈ blocks, Observes g node.db b.block.height b.block.parentBlockId c) :
    AtTip g genesis chain minimum (deliverAll g node order) := by
  induction order generalizing node with
  | nil => cases hdelivered
  | cons x rest ih =>
    obtain ⟨hx, hrest⟩ := List.cons_subset.mp horder
    have hcomp := h.competitor x hx
    by_cases hsame : computeBlockId minimum.block = computeBlockId x.block
    · obtain rfl := h.distinct minimum hmem x hx hsame
      have hat : AtTip g genesis chain minimum (deliver g node minimum) := by
        obtain ⟨s', hlive', hkept⟩ := hlive.deliver_first h.validGenesis (h.ids_one hmem) hcomp
          (.inr ⟨c, hc minimum hmem, hid⟩)
        exact ⟨⟨s', hlive'⟩, hkept⟩
      show AtTip g genesis chain minimum (deliverAll g (deliver g node minimum) rest)
      exact h.deliverAll_tip hminimum hmem hmem
        (fun b hb hle hne => absurd (le_antisymm hle (hminimum b hb)) hne) hrest List.mem_cons_self hat
    · have hlarger : c.blockId < computeBlockId x.block := hid ▸ lt_of_le_of_ne (hminimum x hx) hsame
      obtain ⟨hlive', hobserved⟩ := hlive.deliver_larger hcomp.certified hcomp.fresh (hc x hx) hlarger
      have hdelivered' : minimum ∈ rest := by
        obtain rfl | hmem' := List.mem_cons.mp hdelivered
        · exact absurd rfl hsame
        · exact hmem'
      exact ih hrest hdelivered' hlive' fun b hb => (hc b hb).of_eq (hobserved _ _)

end Rivals

theorem deliverAll_unresponsive (h : ConsistentNode g genesis chain head s node)
    (hgenesis : StateInvariant genesis)
    (hdead : ¬(node.halted = false ∧ getStateSnapshotLocked g node = .ok s)) (order : List FinalizedBlock) :
    (deliverAll g node order).db = node.db := by
  induction order generalizing node with
  | nil => rfl
  | cons x rest ih =>
    have hnot : ∀ loaded head', ¬Reaches g node x loaded head' := by
      intro loaded head' hreaches
      have hloaded := hreaches.snapshot
      rw [h.loaded_eq hgenesis hloaded] at hloaded
      exact hdead ⟨hreaches.halted, hloaded⟩
    obtain ⟨hdb, hhalted, hcaches⟩ := deliver_of_not_reaches hnot
    have hnode : ConsistentNode g genesis chain head s (deliver g node x) :=
      ⟨hdb ▸ h.store, hdb ▸ h.detector, h.cached_eq hgenesis hcaches⟩
    refine (ih hnode fun halive => hdead ⟨hhalted ▸ halive.1, ?_⟩).trans hdb
    obtain hsnapshot | ⟨loaded, hloaded, -⟩ := hcaches
    · have hloaded := halive.2
      rw [getStateSnapshotLocked, hsnapshot, hdb] at hloaded
      exact hloaded
    · rw [hloaded, h.loaded_eq hgenesis hloaded]

/-- What decides whether the deliveries converge: the node is at work and has its
    state, and the detector keeps either nothing, where each tip that may have to
    give way can be read back, or the smallest block. -/
def Converges (g : VerifiedNetworkGenesis) (node : Node) (s : CybouState) (blocks : List FinalizedBlock)
    (minimum : FinalizedBlock) : Prop :=
  node.halted = false ∧ getStateSnapshotLocked g node = .ok s ∧
    (node.db (.observed minimum.block.height minimum.block.parentBlockId) = none ∧
        (∀ b ∈ blocks, computeBlockId b.block ≠ computeBlockId minimum.block → Readable s b) ∨
      ∃ c, Observes g node.db minimum.block.height minimum.block.parentBlockId c ∧
        c.blockId = computeBlockId minimum.block)

/-- Some order of deliveries ends elsewhere when the condition fails. -/
theorem Rivals.diverges {blocks : List FinalizedBlock} {minimum : FinalizedBlock}
    (h : Rivals g genesis chain head s blocks) (hnode : ConsistentNode g genesis chain head s node)
    (hmem : minimum ∈ blocks)
    (hminimum : ∀ b ∈ blocks, computeBlockId minimum.block ≤ computeBlockId b.block)
    (hnot : ¬Converges g node s blocks minimum) :
    ∃ order, order ⊆ blocks ∧ blocks ⊆ order ∧
      getFinalizedHead (deliverAll g node order).db ≠
        some ⟨computeBlockId minimum.block, minimum.block.height⟩ := by
  have hcomp := h.competitor minimum hmem
  have hbelow : some head ≠ some (⟨computeBlockId minimum.block, minimum.block.height⟩ : FinalizedHead) := by
    intro heq
    have hheight := congrArg FinalizedHead.height (Option.some.inj heq)
    have hsucc := toNat_succ_of_ne_max hcomp.room
    rw [← hcomp.height, hheight] at hsucc
    dsimp only at hsucc
    omega
  by_cases halive : node.halted = false ∧ getStateSnapshotLocked g node = .ok s
  swap
  · refine ⟨blocks, List.Subset.refl _, List.Subset.refl _, ?_⟩
    rw [deliverAll_unresponsive hnode h.validGenesis halive, hnode.store.getFinalizedHead]
    exact hbelow
  have hlive : Live g genesis chain head s node := ⟨hnode, halive.1, halive.2⟩
  have heverywhere : ∀ {N : Node} {c : PoaFinalityCertificate},
      Observes g N.db minimum.block.height minimum.block.parentBlockId c →
      ∀ b ∈ blocks, Observes g N.db b.block.height b.block.parentBlockId c := by
    intro N c hc b hb
    obtain ⟨hheight, hparent⟩ := h.same hb hmem
    rw [hheight, hparent]
    exact hc
  obtain hnone | ⟨c, hc⟩ := hnode.detector.records minimum.block.height minimum.block.parentBlockId
  · -- A tip that cannot be read back comes first, then the smallest block.
    have hunread : ∃ b ∈ blocks, computeBlockId b.block ≠ computeBlockId minimum.block ∧ ¬Readable s b := by
      by_contra hall
      push Not at hall
      exact hnot ⟨halive.1, halive.2, .inl ⟨hnone, hall⟩⟩
    obtain ⟨b, hb, hne, hread⟩ := hunread
    obtain ⟨hheight, hparent⟩ := h.same hb hmem
    rw [← hheight, ← hparent] at hnone
    obtain ⟨s₁, hlive₁, c₁, hc₁, hid₁⟩ :=
      hlive.deliver_first h.validGenesis (h.ids_one hb) (h.competitor b hb) (.inl hnone)
    rw [hheight, hparent] at hc₁
    have hsmaller : computeBlockId minimum.block < c₁.blockId :=
      hid₁ ▸ lt_of_le_of_ne (hminimum b hb) (Ne.symm hne)
    obtain ⟨-, hrefused, c₂, hc₂, hid₂⟩ := hlive₁.deliver_smaller h.validGenesis (h.ids_two hmem hb)
      h.canonical hcomp ⟨hheight, hparent⟩ hc₁ hsmaller
    have hfinal := h.deliverAll_stuck hb hminimum hid₂ (List.Subset.refl _) (hrefused hread)
      (heverywhere hc₂)
    refine ⟨b :: minimum :: blocks, ?_, ?_, ?_⟩
    · exact List.cons_subset.mpr ⟨hb, List.cons_subset.mpr ⟨hmem, List.Subset.refl _⟩⟩
    · exact List.subset_cons_of_subset _ (List.subset_cons_self _ _)
    · intro heq
      have hhead := hfinal.consistent.store.getFinalizedHead
      change getFinalizedHead (deliverAll g (deliver g (deliver g node b) minimum) blocks).db = _ at heq
      rw [hhead] at heq
      exact hne (congrArg FinalizedHead.blockId (Option.some.inj heq))
  · have hid : c.blockId ≠ computeBlockId minimum.block := fun hid =>
      hnot ⟨halive.1, halive.2, .inr ⟨c, hc, hid⟩⟩
    obtain hlt | hgt := lt_or_gt_of_ne hid
    · obtain ⟨hfinal, -⟩ := h.deliverAll_refused (List.Subset.refl _)
        (fun b hb => hlt.trans_le (hminimum b hb)) hlive (heverywhere hc)
      refine ⟨blocks, List.Subset.refl _, List.Subset.refl _, ?_⟩
      rw [hfinal.consistent.store.getFinalizedHead]
      exact hbelow
    · -- The smallest block comes first and only once.
      obtain ⟨hlive₁, c₁, hc₁, hid₁⟩ := hlive.deliver_early h.validGenesis hcomp hc hgt
      let others := blocks.filter fun b => computeBlockId b.block ≠ computeBlockId minimum.block
      have hothers : ∀ b ∈ others, b ∈ blocks ∧ computeBlockId b.block ≠ computeBlockId minimum.block :=
        fun b hb => by simpa [others] using hb
      obtain ⟨hfinal, -⟩ := h.deliverAll_refused (fun b hb => (hothers b hb).1)
        (fun b hb => hid₁ ▸ lt_of_le_of_ne (hminimum b (hothers b hb).1) (Ne.symm (hothers b hb).2))
        hlive₁ (heverywhere hc₁)
      refine ⟨minimum :: others, ?_, ?_, ?_⟩
      · exact List.cons_subset.mpr ⟨hmem, fun b hb => (hothers b hb).1⟩
      · intro b hb
        by_cases hsame : computeBlockId b.block = computeBlockId minimum.block
        · exact h.distinct b hb minimum hmem hsame ▸ List.mem_cons_self
        · exact List.mem_cons_of_mem _ (by simp [others, hb, hsame])
      · change getFinalizedHead (deliverAll g (deliver g node minimum) others).db ≠ _
        rw [hfinal.consistent.store.getFinalizedHead]
        exact hbelow

/-- **Agreement of tip replacement.** -/
theorem tip_replacement {delivered blocks : List FinalizedBlock} (hrun : Run g genesis delivered node)
    (hids : IdsDistinct (blocks ++ delivered)) :
    ∃ chain head s, ConsistentNode g genesis chain head s node ∧
      ∀ minimum ∈ blocks, (∀ b ∈ blocks, computeBlockId minimum.block ≤ computeBlockId b.block) →
        (∀ b ∈ blocks, Competitor g head s b) →
        (∀ a ∈ blocks, ∀ b ∈ blocks, computeBlockId a.block = computeBlockId b.block → a = b) →
        ((∀ order, order ⊆ blocks → blocks ⊆ order → ∃ s', Consistent g genesis (minimum :: chain)
            ⟨computeBlockId minimum.block, minimum.block.height⟩ s' (deliverAll g node order).db) ↔
          Converges g node s blocks minimum) := by
  obtain ⟨hgenesis, chain, head, s, hchain, hnode⟩ := hrun.consistent (hids.mono (List.subset_append_right _ _))
  refine ⟨chain, head, s, hnode, fun minimum hmem hminimum hcomp hdistinct => ?_⟩
  have h : Rivals g genesis chain head s blocks :=
    ⟨hgenesis, hnode.store.canonical, hcomp,
      hids.mono (List.append_subset_of_subset_of_subset (List.subset_append_left _ _)
        (List.subset_append_of_subset_right _ hchain)), hdistinct⟩
  constructor
  · intro hall
    by_contra hnot
    obtain ⟨order, horder, hcover, hhead⟩ := h.diverges hnode hmem hminimum hnot
    obtain ⟨s', hfinal⟩ := hall order horder hcover
    exact hhead hfinal.getFinalizedHead
  · rintro ⟨hhalted, hloaded, hobserved⟩ order horder hcover
    have hlive : Live g genesis chain head s node := ⟨hnode, hhalted, hloaded⟩
    have hat : AtTip g genesis chain minimum (deliverAll g node order) := by
      obtain ⟨hnone, hread⟩ | ⟨c, hc, hid⟩ := hobserved
      · cases order with
        | nil => exact absurd (hcover hmem) List.not_mem_nil
        | cons x rest =>
          obtain ⟨hx, hrest⟩ := List.cons_subset.mp horder
          obtain ⟨hheight, hparent⟩ := h.same hx hmem
          rw [← hheight, ← hparent] at hnone
          have hat : AtTip g genesis chain x (deliver g node x) := by
            obtain ⟨s', hlive', hkept⟩ := hlive.deliver_first hgenesis (h.ids_one hx) (hcomp x hx) (.inl hnone)
            exact ⟨⟨s', hlive'⟩, hkept⟩
          show AtTip g genesis chain minimum (deliverAll g (deliver g node x) rest)
          exact h.deliverAll_tip hminimum hmem hx (fun b hb _ hne => hread b hb hne) hrest (hcover hmem) hat
      · refine h.deliverAll_kept hmem hminimum horder (hcover hmem) hid hlive fun b hb => ?_
        obtain ⟨hheight, hparent⟩ := h.same hb hmem
        rw [hheight, hparent]
        exact hc
    obtain ⟨⟨s', hfinal⟩, -⟩ := hat
    exact ⟨s', hfinal.consistent.store⟩

/-! ### Interrupted replacements -/

/-- What has to go well for a replacement to survive its interruption. -/
structure BatchDurable (g : VerifiedNetworkGenesis) (node : Node) (tip : FinalizedBlock)
    (parent : CybouState) (fb : FinalizedBlock) (fates : CommitFates) : Prop where
  /-- The observation is made by this delivery. -/
  unobserved : ∀ c, Observes g node.db fb.block.height fb.block.parentBlockId c →
    computeBlockId fb.block < c.blockId
  observation : fates.observation = .done
  batch : fates.batch ≠ .lost
  readable : Readable parent tip

theorem planExtension_height (h : planExtension g db loaded head fb = .write batch state) :
    head.height ≠ UINT64_MAX ∧ fb.block.height = head.height + 1 := by
  unfold planExtension at h
  dsimp only at h
  split at h
  · cases h
  split at h
  · cases h
  next hheight =>
  push Not at hheight
  exact hheight

variable {c : PoaFinalityCertificate}

theorem deliver_observed (hhead : getFinalizedHead node.db = some head)
    (hheight : head.height = fb.block.height) (hc : Observes g node.db fb.block.height fb.block.parentBlockId c)
    (hid : c.blockId = computeBlockId fb.block) : (deliver g node fb).db = node.db := by
  by_cases hreaches : ∃ loaded head', Reaches g node fb loaded head'
  swap
  · exact (deliver_of_not_reaches fun loaded head' h => hreaches ⟨loaded, head', h⟩).1
  obtain ⟨loaded, head', hreaches⟩ := hreaches
  have hsame := hreaches.head
  rw [hhead] at hsame
  cases hsame
  have hseen : seen g node fb {} = ⟨.alreadyObserved, false, node.db⟩ := by
    rw [seen, hreaches.halted, observe_again hreaches.certified hc, if_pos hid]
  rw [deliver_of_refused hreaches, seenNode, hseen]
  intro _ batch state hplan
  rw [hseen, planOf, if_neg (by simp)] at hplan
  obtain ⟨hmax, hnext⟩ := planExtension_height hplan
  have hsucc := toNat_succ_of_ne_max hmax
  rw [← hnext, ← hheight] at hsucc
  omega

theorem iterate_deliver_observed (hhead : getFinalizedHead node.db = some head)
    (hheight : head.height = fb.block.height) (hc : Observes g node.db fb.block.height fb.block.parentBlockId c)
    (hid : c.blockId = computeBlockId fb.block) (n : Nat) :
    ((fun node => deliver g node fb)^[n] node).db = node.db := by
  induction n with
  | zero => rfl
  | succ n ih =>
    rw [Function.iterate_succ_apply', ← ih]
    exact deliver_observed (ih ▸ hhead) hheight (ih ▸ hc) hid

variable {tip : FinalizedBlock}

/-- The head after an interrupted delivery is the new block exactly when its batch
    became durable. -/
theorem head_of_interrupted {below : List FinalizedBlock} {parentHead : FinalizedHead} {parent : CybouState}
    (h : ConsistentNode g genesis (tip :: below) head s node) (hgenesis : StateInvariant genesis)
    (hids : IdsDistinct (fb :: tip :: below)) (hparent : Canonical g genesis below parentHead parent)
    (hcomp : Competitor g parentHead parent fb)
    (htip : tip.block.height = fb.block.height ∧ tip.block.parentBlockId = fb.block.parentBlockId)
    (hsmaller : computeBlockId fb.block < computeBlockId tip.block) {fates : CommitFates}
    (hc : Observes g (commitFinalizedBlock g node fb fates).node.db fb.block.height fb.block.parentBlockId c)
    (hid : c.blockId = computeBlockId fb.block) :
    getFinalizedHead (commitFinalizedBlock g node fb fates).node.db =
        some ⟨computeBlockId fb.block, fb.block.height⟩ ↔
      BatchDurable g node tip parent fb fates := by
  have hcert := hcomp.certified
  have hhead : head = ⟨computeBlockId tip.block, tip.block.height⟩ := by
    cases h.store.canonical with
    | block => rfl
  obtain ⟨c₀, hc₀, -⟩ := h.detector.tip tip below rfl
  rw [htip.1, htip.2] at hc₀
  have hseen : Consistent g genesis (tip :: below) head s (seen g node fb fates).db :=
    h.store.sameChain (observe_sameChain _ _ _ _ _)
  constructor
  · intro hfinal
    have htipHead : ∀ db, SameChain node.db db →
        getFinalizedHead db ≠ some ⟨computeBlockId fb.block, fb.block.height⟩ := by
      intro db hsame heq
      rw [(h.store.sameChain hsame).getFinalizedHead, hhead] at heq
      exact hsmaller.ne' (congrArg FinalizedHead.blockId (Option.some.inj heq))
    obtain ⟨hdb, -⟩ | ⟨loaded, head', batch, state, hw, hbatch, -, -⟩ :=
      commitFinalizedBlock_cases g node fb fates
    · obtain heq | ⟨-, -, heq⟩ := hdb
      · exact absurd hfinal (htipHead _ (heq ▸ SameChain.refl _))
      · exact absurd hfinal (htipHead _ (heq ▸ observe_sameChain _ _ _ _ _))
    obtain rfl := h.loaded_eq hgenesis hw.reaches.snapshot
    have hsame := hw.reaches.head
    rw [h.store.getFinalizedHead] at hsame
    cases hsame
    have hplan := hw.plan
    unfold planOf at hplan
    split at hplan
    swap
    · obtain ⟨hmax, hnext⟩ := planExtension_height hplan
      have hsucc := toNat_succ_of_ne_max hmax
      rw [← hnext, ← htip.1, hhead] at hsucc
      dsimp only at hsucc
      omega
    next hreorg =>
    rw [hseen.planReplacement_write hgenesis hcert] at hplan
    obtain ⟨tip', rest, parentHead', parent', heq, -, -, hsize, hcanonical, hsize', -⟩ := hplan
    cases heq
    obtain ⟨-, rfl⟩ := hcanonical.unique hparent
    rw [seen, hw.reaches.halted, observe_again hcert hc₀] at hreorg
    dsimp only at hreorg
    split at hreorg
    · cases hreorg
    split at hreorg
    · cases hreorg
    split at hreorg
    swap
    · cases hreorg
    next hlt =>
    split at hreorg
    swap
    · cases hreorg
    next hdone =>
    exact ⟨fun c' hc' => hc₀.unique hc' ▸ hlt, hdone, hbatch, hsize', hsize⟩
  · rintro ⟨hunobserved, hobservation, hbatch, hread⟩
    have hnotKept : ¬Observes g node.db fb.block.height fb.block.parentBlockId c := fun hkept =>
      (hunobserved c hkept).ne' hid
    by_cases hreaches : ∃ loaded head', Reaches g node fb loaded head'
    swap
    · obtain ⟨error, snapshot, -, -, heq⟩ := commitFinalizedBlock_of_not_reaches fates
        fun loaded head' hreaches' => hreaches ⟨loaded, head', hreaches'⟩
      rw [heq] at hc
      exact absurd hc hnotKept
    obtain ⟨loaded, head', hreaches⟩ := hreaches
    obtain rfl := h.loaded_eq hgenesis hreaches.snapshot
    have hsame := hreaches.head
    rw [h.store.getFinalizedHead] at hsame
    cases hsame
    have hlt := hunobserved c₀ hc₀
    have hhalt : fates.halt = .done := by
      by_contra hne
      have hobserve : seen g node fb fates = ⟨.storageError, true, node.db.write [.put .detectorHalt
          (encodeLocalBytes (equivocationRecord (certificateBytes c₀) (certificateBytes fb.certificate)))]
            fates.halt⟩ := by
        rw [seen, hreaches.halted, observe_again hcert hc₀, if_neg hlt.ne']
        dsimp only
        rw [if_pos hne]
      rw [commitFinalizedBlock_of_reaches hreaches, hobserve] at hc
      refine hnotKept (hc.of_eq ?_)
      dsimp only [observationFailure, seenNode]
      rw [hobserve]
      exact (write_of_forall_ne (by simp [Edit.key]) fates.halt).symm
    have hstatus : (seen g node fb fates).status = .canonicalReorgRequired := by
      rw [seen, hreaches.halted, observe_again hcert hc₀, if_neg hlt.ne']
      dsimp only
      rw [if_neg (by simp [hhalt]), if_pos hlt, if_pos hobservation]
    have hpassed : observationFailure (seen g node fb fates).status = none := by
      rw [hstatus]
      rfl
    obtain ⟨s', hexec⟩ := hcomp.executes
    have hplan := (hseen.planReplacement_write hgenesis hcert).mpr
      ⟨tip, below, parentHead, parent, rfl, htip.1, htip.2, hread.2, hparent, hread.1, hexec, rfl⟩
    have hw : Writes g node fb fates loaded head
        (replacementBatch (seen g node fb fates).db s' head tip.block fb) s' :=
      ⟨hreaches, hpassed, by rw [planOf, if_pos hstatus, hplan]⟩
    obtain ⟨below', -, hstore, -, -⟩ := h.written hgenesis hids hw
    rw [commitFinalizedBlock_of_reaches hreaches, hpassed, hw.plan]
    cases hfate : fates.batch with
    | lost => exact absurd hfate hbatch
    | done | stored => exact hstore.getFinalizedHead

/-- **A replacement that is interrupted after its observation** becomes the head if
    and only if its batch became durable, however often the block is delivered
    again. -/
theorem interrupted_replacement {delivered : List FinalizedBlock} (hrun : Run g genesis delivered node)
    (hids : IdsDistinct (fb :: delivered)) :
    ∃ chain head s, ConsistentNode g genesis chain head s node ∧
      ∀ tip below parentHead parent fates c fate db restarted, chain = tip :: below →
        Canonical g genesis below parentHead parent → Competitor g parentHead parent fb →
        computeBlockId fb.block < computeBlockId tip.block →
        Observes g (commitFinalizedBlock g node fb fates).node.db fb.block.height
          fb.block.parentBlockId c → c.blockId = computeBlockId fb.block →
        openNode g (commitFinalizedBlock g node fb fates).node.db fate = (db, some restarted) →
        ∀ n, getFinalizedHead ((fun node => deliver g node fb)^[n] restarted).db =
            some ⟨computeBlockId fb.block, fb.block.height⟩ ↔
          BatchDurable g node tip parent fb fates := by
  obtain ⟨hgenesis, chain, head, s, hchain, hnode⟩ := hrun.consistent (hids.mono (List.subset_cons_self _ _))
  refine ⟨chain, head, s, hnode, ?_⟩
  rintro tip below parentHead parent fates c fate db restarted rfl hparent hcomp hsmaller hc hid hopen n
  obtain ⟨_, _, hparent', htipParent, -, htipHeight, -⟩ := hnode.store.parentSnapshot tip below rfl
  obtain ⟨rfl, rfl⟩ := hparent.unique hparent'
  have htip : tip.block.height = fb.block.height ∧ tip.block.parentBlockId = fb.block.parentBlockId :=
    ⟨htipHeight.trans hcomp.height.symm, htipParent.symm.trans hcomp.parent⟩
  rw [← head_of_interrupted hnode hgenesis (hids.mono (List.cons_subset_cons _ hchain)) hparent hcomp htip
    hsmaller hc hid]
  obtain ⟨hsame, -, hobserved⟩ := openNode_spec hopen
  have hhead : getFinalizedHead restarted.db =
      getFinalizedHead (commitFinalizedBlock g node fb fates).node.db := by
    rw [getFinalizedHead, hsame .head rfl, getFinalizedHead]
  have hheight : ∃ head', getFinalizedHead restarted.db = some head' ∧ head'.height = fb.block.height := by
    rw [hhead]
    have hold : head.height = fb.block.height := by
      rw [← htip.1]
      cases hnode.store.canonical with
      | block => rfl
    obtain ⟨heq | ⟨-, -, heq⟩, -⟩ | ⟨loaded, head', batch, state, hw, -, -, hwritten⟩ :=
      commitFinalizedBlock_cases g node fb fates
    · rw [heq]
      exact ⟨head, hnode.store.getFinalizedHead, hold⟩
    · rw [heq]
      exact ⟨head, (hnode.store.sameChain (observe_sameChain _ _ _ _ _)).getFinalizedHead, hold⟩
    · obtain ⟨below', -, hstore, -, -⟩ :=
        hnode.written hgenesis (hids.mono (List.cons_subset_cons _ hchain)) hw
      rw [hwritten]
      exact ⟨_, hstore.getFinalizedHead, rfl⟩
  obtain ⟨head', hhead', hheight⟩ := hheight
  rw [iterate_deliver_observed hhead' hheight (hc.of_eq (hobserved _ _)) hid n, hhead]

theorem Consistent.chain_eq_singleton {g : VerifiedNetworkGenesis} {genesis s s' : CybouState}
    {chain : List FinalizedBlock} {head head' : FinalizedHead}
    (h : Consistent g genesis chain head s db) (h' : Consistent g genesis [tip] head' s' db)
    (hsize : (finalizedBytes tip).length ≤ MAX_COMPACT_SIZE) : chain = [tip] := by
  have hhead : some head' = some head := h'.getFinalizedHead.symm.trans h.getFinalizedHead
  cases hhead
  have hlength : chain.length = 1 := by
    rw [← h.canonical.height, h'.canonical.height, List.length_singleton]
  obtain ⟨x, rfl⟩ := List.length_eq_one_iff.mp hlength
  have hx := h.getBlock List.mem_cons_self
  have htip := h'.getBlock List.mem_cons_self
  have hid : computeBlockId x.block = computeBlockId tip.block :=
    congrArg FinalizedHead.blockId (h.canonical.head_eq.symm.trans h'.canonical.head_eq)
  rw [hid, htip, if_pos hsize] at hx
  split at hx
  · cases hx
    rfl
  · cases hx

end

section Sample

attribute [local instance] Crypto.sample

def idleState : CybouState :=
  { accounts := ∅
    identities := { accounts := ∅, recoveryIndex := ∅, wellFormed := RegistryMaps.wellFormed_empty }
    names := {}
    genesisAllocations := (∅ : OrdMap _ _).set (sampleKeyId 3)
      { balance := 100, label := ascii "carol", claimedBy := none }
    publications := ∅
    settlement := {}
    leases := ∅ }

theorem invariant_idleState : StateInvariant idleState :=
  validateCybouState_eq_none.mp (by decide)

def sampleClock : StorageSettlement :=
  { period := 0, periodStartUtc := 1, poaSignature := samplePoaSignature, periodEndUtc := 86401
    evidenceRoot := sampleId 77 }

def sampleHead : FinalizedHead := ⟨sampleId 201, 0⟩

def emptyBlock : FinalizedBlock := certifiedBlock (firstBlock [] (stateRoot idleState))

/-- A certified block whose state root is not that of its execution. -/
def wrongBlock : FinalizedBlock := certifiedBlock (firstBlock [] (sampleId 250))

def executedClock : Option BlockExecutionResult :=
  executeBlockOperations idleState [.storageSettlement sampleClock]
    (blockContext (sampleNetwork idleState) (firstBlock [.storageSettlement sampleClock] Hash256.ZERO))

def clockBlock : FinalizedBlock :=
  certifiedBlock (firstBlock [.storageSettlement sampleClock]
    ((executedClock.bind (·.stateRoot)).getD Hash256.ZERO))

set_option maxRecDepth 100000 in
theorem sampleBlocks_evaluated :
    (computeBlockId wrongBlock.block < computeBlockId emptyBlock.block ∧
      computeBlockId emptyBlock.block < computeBlockId clockBlock.block) ∧
    (serializeBlock clockBlock.block).isSome = true ∧
    (match executedClock with
      | some execution => execution.isOk && execution.state.isSome &&
          decide (execution.stateRoot = some clockBlock.block.resultingStateRoot)
      | none => false) = true ∧
    expiresName (sampleNetwork idleState) idleState 1 = false ∧
    wrongBlock.block.resultingStateRoot ≠ stateRoot idleState ∧
    Readable idleState clockBlock := by
  decide

theorem wrongBlock_lt_emptyBlock : computeBlockId wrongBlock.block < computeBlockId emptyBlock.block :=
  sampleBlocks_evaluated.1.1

theorem emptyBlock_lt_clockBlock : computeBlockId emptyBlock.block < computeBlockId clockBlock.block :=
  sampleBlocks_evaluated.1.2

theorem executeBlockOperations_firstBlock (genesis : CybouState) (operations : List ProtocolOperation)
    (root : Hash256) :
    executeBlockOperations genesis (certifiedBlock (firstBlock operations root)).block.operations
        (blockContext (sampleNetwork genesis) (certifiedBlock (firstBlock operations root)).block) =
      executeBlockOperations genesis operations
        (blockContext (sampleNetwork genesis) (firstBlock operations Hash256.ZERO)) := rfl

theorem certified_empty (genesis : CybouState) (root : Hash256) :
    Certified (sampleNetwork genesis) (certifiedBlock (firstBlock [] root)) := by
  refine certified_certifiedBlock genesis ?_ (show (1 : UInt64) ≠ 0 by decide)
    (show (sampleId 201).isNull = false by decide)
  have hsome := serializeBlock_eq_some.mpr ⟨fun op (hop : op ∈ (firstBlock [] root).operations) =>
    absurd hop List.not_mem_nil, rfl⟩
  rw [hsome]
  exact Option.some_ne_none _

theorem sampleHead_ne_computeBlockId (block : CybouBlock) : sampleHead.blockId ≠ computeBlockId block := by
  intro heq
  have hbytes : (201 : UInt8) :: List.replicate 31 0 = 1 :: _ := congrArg Subtype.val heq
  exact absurd (List.cons.inj hbytes).1 (by decide)

variable {genesis : CybouState}

theorem competitor_empty (hgenesis : StateInvariant genesis)
    (hexpires : expiresName (sampleNetwork genesis) genesis 1 = false) :
    Competitor (sampleNetwork genesis) sampleHead genesis
      (certifiedBlock (firstBlock [] (stateRoot genesis))) where
  certified := certified_empty _ _
  parent := rfl
  room := by decide
  height := rfl
  executes := ⟨genesis, executes_empty hgenesis rfl hexpires (cybouStateHash_of_invariant hgenesis false)⟩
  fresh := sampleHead_ne_computeBlockId _

theorem canonical_empty (hgenesis : StateInvariant genesis)
    (hexpires : expiresName (sampleNetwork genesis) genesis 1 = false) :
    Canonical (sampleNetwork genesis) genesis [certifiedBlock (firstBlock [] (stateRoot genesis))]
      ⟨computeBlockId (firstBlock [] (stateRoot genesis)), 1⟩ genesis :=
  .block .genesis rfl (show (0 : UInt64) ≠ UINT64_MAX by decide) rfl (certified_empty _ _)
    (executes_empty hgenesis rfl hexpires (cybouStateHash_of_invariant hgenesis false))

theorem certified_wrongBlock : Certified (sampleNetwork idleState) wrongBlock := certified_empty _ _

theorem competitor_emptyBlock : Competitor (sampleNetwork idleState) sampleHead idleState emptyBlock :=
  competitor_empty invariant_idleState sampleBlocks_evaluated.2.2.2.1

/-- A first block competes where its operations execute to the root that it carries. -/
theorem competitor_executed {fb : FinalizedBlock} {operations : List ProtocolOperation} {root : Hash256}
    {execution : BlockExecutionResult} (hfb : fb = certifiedBlock (firstBlock operations root))
    (hserialize : (serializeBlock fb.block).isSome = true)
    (hexecution : executeBlockOperations genesis operations
      (blockContext (sampleNetwork genesis) (firstBlock operations Hash256.ZERO)) = some execution)
    (hok : execution.isOk = true) (hstate : execution.state.isSome = true)
    (hroot : execution.stateRoot = some fb.block.resultingStateRoot) :
    Competitor (sampleNetwork genesis) sampleHead genesis fb := by
  subst hfb
  obtain ⟨s, hs⟩ := Option.isSome_iff_exists.mp hstate
  exact {
    certified := certified_certifiedBlock genesis (Option.isSome_iff_ne_none.mp hserialize)
      (show (1 : UInt64) ≠ 0 by decide) (show (sampleId 201).isNull = false by decide)
    parent := rfl
    room := by decide
    height := rfl
    executes := ⟨s, execution, (executeBlockOperations_firstBlock genesis operations root).trans hexecution, hok, hs, hroot⟩
    fresh := sampleHead_ne_computeBlockId _ }

theorem competitor_clockBlock : Competitor (sampleNetwork idleState) sampleHead idleState clockBlock := by
  have hrun := sampleBlocks_evaluated.2.2.1
  split at hrun
  · next execution hexecution =>
    simp only [Bool.and_eq_true, decide_eq_true_eq] at hrun
    exact competitor_executed rfl sampleBlocks_evaluated.2.1 hexecution hrun.1.1 hrun.1.2 hrun.2
  · cases hrun

theorem live_sampleNetwork (hgenesis : StateInvariant genesis) :
    ∃ node, Run (sampleNetwork genesis) genesis [] node ∧
      Live (sampleNetwork genesis) genesis [] sampleHead genesis node ∧
      (∀ height parent, node.db (.observed height parent) = none) ∧ node.db .detectorHalt = none ∧
      ∃ id, computePoaFinalizerKeyId (sampleKey .poaFinalizer 9) = some id ∧
        node.db .detectorMetadata = some (encodeLocalBytes ((sampleId 200).1 ++ id.1)) := by
  obtain ⟨node, hrun, hhalted, hsnapshot, hobserved, hmetadata⟩ := run_sampleNetwork hgenesis
  have hids : IdsDistinct [] := ⟨fun _ h => absurd h List.not_mem_nil, fun _ h => absurd h List.not_mem_nil⟩
  obtain ⟨-, chain, head, s, hchain, hnode⟩ := hrun.consistent hids
  obtain rfl := List.subset_nil.mp hchain
  have hstart : Canonical (sampleNetwork genesis) genesis [] sampleHead genesis := .genesis
  obtain ⟨hhead, hs⟩ := hnode.store.canonical.unique hstart
  subst hhead hs
  exact ⟨node, hrun, ⟨hnode, hhalted, by rw [getStateSnapshotLocked, hsnapshot]⟩, hobserved, hmetadata⟩

theorem not_executes_wrongBlock (s : CybouState) :
    ¬Executes (sampleNetwork idleState) idleState wrongBlock.block s wrongBlock.block.resultingStateRoot := by
  intro h
  have hempty : Executes (sampleNetwork idleState) idleState wrongBlock.block idleState (stateRoot idleState) :=
    executes_empty invariant_idleState rfl sampleBlocks_evaluated.2.2.2.1
      (cybouStateHash_of_invariant invariant_idleState false)
  exact sampleBlocks_evaluated.2.2.2.2.1 (h.unique hempty).2

theorem idsDistinct_of_lt {a b : FinalizedBlock} (hlt : computeBlockId a.block < computeBlockId b.block)
    (hops : a.block.operations ++ b.block.operations = [] ∨
      ∃ op, a.block.operations ++ b.block.operations = [op]) : IdsDistinct [a, b] where
  block x hx y hy heq := by
    simp only [List.mem_cons, List.not_mem_nil, or_false] at hx hy
    obtain rfl | rfl := hx <;> obtain rfl | rfl := hy
    · rfl
    · exact absurd heq hlt.ne
    · exact absurd heq hlt.ne'
    · rfl
  operation x hx y hy id _ _ := by
    have hflat : ([a, b].flatMap fun fb => fb.block.operations) =
        a.block.operations ++ b.block.operations := by simp
    rw [hflat] at hx hy
    obtain hnil | ⟨op, hone⟩ := hops
    · rw [hnil] at hx
      cases hx
    · rw [hone, List.mem_singleton] at hx hy
      rw [hx, hy]

/-- A block that was refused stands in the way of the only executable one. -/
theorem tip_replacement_wrongBlock :
    ∃ node, Run (sampleNetwork idleState) idleState [wrongBlock] node ∧
      IdsDistinct ([emptyBlock] ++ [wrongBlock]) ∧
      ConsistentNode (sampleNetwork idleState) idleState [] sampleHead idleState node ∧
      Competitor (sampleNetwork idleState) sampleHead idleState emptyBlock ∧
      ∀ order, order ⊆ [emptyBlock] → getFinalizedHead (deliverAll (sampleNetwork idleState) node order).db ≠
        some ⟨computeBlockId emptyBlock.block, emptyBlock.block.height⟩ := by
  obtain ⟨node, hrun, hlive, hobserved, -⟩ := live_sampleNetwork invariant_idleState
  have hids : IdsDistinct ([emptyBlock] ++ [wrongBlock]) :=
    (idsDistinct_of_lt wrongBlock_lt_emptyBlock (.inl rfl)).mono (by simp)
  have hrivals : Rivals (sampleNetwork idleState) idleState [] sampleHead idleState [emptyBlock] :=
    ⟨invariant_idleState, .genesis, by simpa using competitor_emptyBlock, hids.mono (by simp), by simp⟩
  obtain ⟨hlive', hwrong⟩ := hlive.deliver_unexecutable invariant_idleState certified_wrongBlock
    (sampleHead_ne_computeBlockId _) (hobserved _ _)
    not_executes_wrongBlock
  refine ⟨_, .deliver wrongBlock {} hrun (by decide), hids, hlive'.consistent, competitor_emptyBlock,
    fun order horder => ?_⟩
  have hlarger : ∀ b ∈ order, wrongBlock.certificate.blockId < computeBlockId b.block := by
    intro b hb
    rw [List.mem_singleton.mp (horder hb)]
    exact wrongBlock_lt_emptyBlock
  obtain ⟨hfinal, -⟩ := hrivals.deliverAll_refused horder hlarger hlive' (fun b hb => by
    rw [List.mem_singleton.mp hb]
    exact hwrong)
  change getFinalizedHead (deliverAll _ (deliver _ node wrongBlock) order).db ≠ _
  rw [hfinal.consistent.store.getFinalizedHead]
  intro heq
  have hheight := congrArg FinalizedHead.height (Option.some.inj heq)
  exact absurd hheight (by decide)

theorem readable_clockBlock : Readable idleState clockBlock := sampleBlocks_evaluated.2.2.2.2.2

theorem rivals_sample : Rivals (sampleNetwork idleState) idleState [] sampleHead idleState
    [clockBlock, emptyBlock] where
  validGenesis := invariant_idleState
  canonical := .genesis
  competitor b hb := by
    simp only [List.mem_cons, List.not_mem_nil, or_false] at hb
    obtain rfl | rfl := hb
    · exact competitor_clockBlock
    · exact competitor_emptyBlock
  ids := (idsDistinct_of_lt emptyBlock_lt_clockBlock (.inr ⟨_, rfl⟩)).mono (by simp)
  distinct a ha b hb heq := by
    simp only [List.mem_cons, List.not_mem_nil, or_false] at ha hb
    obtain rfl | rfl := ha <;> obtain rfl | rfl := hb
    · rfl
    · exact absurd heq emptyBlock_lt_clockBlock.ne'
    · exact absurd heq emptyBlock_lt_clockBlock.ne
    · rfl

/-- On a fresh node the two executable blocks converge. -/
theorem tip_replacement_clockBlock :
    ∃ node chain, Run (sampleNetwork idleState) idleState [] node ∧
      ∀ order, order ⊆ [clockBlock, emptyBlock] → [clockBlock, emptyBlock] ⊆ order →
        ∃ s, Consistent (sampleNetwork idleState) idleState (emptyBlock :: chain)
          ⟨computeBlockId emptyBlock.block, emptyBlock.block.height⟩ s
          (deliverAll (sampleNetwork idleState) node order).db := by
  obtain ⟨node, hrun, hlive, hobserved, -⟩ := live_sampleNetwork invariant_idleState
  have hids : IdsDistinct ([clockBlock, emptyBlock] ++ []) := rivals_sample.ids
  obtain ⟨chain, head, s, hnode, hagree⟩ := tip_replacement hrun hids
  have hhead : head = sampleHead :=
    Option.some.inj (hnode.store.getFinalizedHead.symm.trans hlive.consistent.store.getFinalizedHead)
  obtain rfl := hnode.loaded_eq invariant_idleState hlive.loaded
  subst hhead
  refine ⟨node, chain, hrun, (hagree emptyBlock (by simp) ?_ rivals_sample.competitor
    rivals_sample.distinct).mpr ⟨hlive.halted, hlive.loaded, .inl ⟨hobserved _ _, ?_⟩⟩⟩
  · intro b hb
    simp only [List.mem_cons, List.not_mem_nil, or_false] at hb
    obtain rfl | rfl := hb
    · exact emptyBlock_lt_clockBlock.le
    · exact le_refl _
  · intro b hb hne
    simp only [List.mem_cons, List.not_mem_nil, or_false] at hb
    obtain rfl | rfl := hb
    · exact readable_clockBlock
    · exact absurd rfl hne

theorem ids_clockBlock : IdsDistinct [emptyBlock, clockBlock] :=
  idsDistinct_of_lt emptyBlock_lt_clockBlock (.inr ⟨_, rfl⟩)

/-- The sample node with `clockBlock` as its tip, and the restart after a delivery
    of `emptyBlock` whose batch fails. -/
theorem clockBlock_tip (batch : Fate) :
    ∃ node s, Run (sampleNetwork idleState) idleState [clockBlock] node ∧
      ConsistentNode (sampleNetwork idleState) idleState [clockBlock]
        ⟨computeBlockId clockBlock.block, clockBlock.block.height⟩ s node ∧
      (∃ c, Observes (sampleNetwork idleState) node.db clockBlock.block.height
        clockBlock.block.parentBlockId c ∧ c.blockId = computeBlockId clockBlock.block) ∧
      (∃ c, Observes (sampleNetwork idleState)
        (commitFinalizedBlock (sampleNetwork idleState) node emptyBlock { batch }).node.db
        emptyBlock.block.height emptyBlock.block.parentBlockId c ∧
        c.blockId = computeBlockId emptyBlock.block) ∧
      ∃ db restarted, openNode (sampleNetwork idleState)
        (commitFinalizedBlock (sampleNetwork idleState) node emptyBlock { batch }).node.db .done =
          (db, some restarted) := by
  obtain ⟨node, hrun, hlive, hobserved, -, id, hkey, hmetadata⟩ := live_sampleNetwork invariant_idleState
  have hcert := competitor_emptyBlock.certified
  obtain ⟨s, hlive', c, hc, hid⟩ := hlive.deliver_first invariant_idleState
    (ids_clockBlock.mono (by simp)) competitor_clockBlock (.inl (hobserved _ _))
  have hfirst : (deliver (sampleNetwork idleState) node clockBlock).db .detectorMetadata =
      some (encodeLocalBytes ((sampleId 200).1 ++ id.1)) := by
    rw [hlive.deliver_first_detector invariant_idleState (ids_clockBlock.mono (by simp))
      competitor_clockBlock.certified competitor_clockBlock.fresh (hobserved _ _) rfl (by simp), hmetadata]
  have hlt : computeBlockId emptyBlock.block < c.blockId := by
    rw [hid]
    exact emptyBlock_lt_clockBlock
  have hseen : seen (sampleNetwork idleState) (deliver (sampleNetwork idleState) node clockBlock)
      emptyBlock { batch } = ⟨.canonicalReorgRequired, false,
        ((deliver (sampleNetwork idleState) node clockBlock).db.write [.put .detectorHalt
          (encodeLocalBytes (equivocationRecord (certificateBytes c)
            (certificateBytes emptyBlock.certificate)))] .done).write
          [.put (.observed emptyBlock.block.height emptyBlock.block.parentBlockId)
            (encodeLocalBytes (certificateBytes emptyBlock.certificate))] .done⟩ := by
    rw [hlive'.seen_eq, observe_again hcert hc]
    dsimp only
    rw [if_neg hlt.ne', if_neg (by simp), if_pos hlt]
    rfl
  have hdetector : ∀ key : StoreKey, key.isDetector = true →
      (commitFinalizedBlock (sampleNetwork idleState) (deliver (sampleNetwork idleState) node clockBlock)
        emptyBlock { batch }).node.db key = (seen (sampleNetwork idleState)
          (deliver (sampleNetwork idleState) node clockBlock) emptyBlock { batch }).db key :=
    fun key => hlive'.consistent.commit_detector invariant_idleState ids_clockBlock
      (hlive'.reaches emptyBlock_lt_clockBlock.ne' hcert) { batch }
  have hmetadata' : (commitFinalizedBlock (sampleNetwork idleState)
      (deliver (sampleNetwork idleState) node clockBlock) emptyBlock { batch }).node.db .detectorMetadata =
        some (encodeLocalBytes ((sampleId 200).1 ++ id.1)) := by
    rw [hdetector _ rfl, hseen]
    dsimp only
    rw [write_of_forall_ne (by simp [Edit.key]), write_of_forall_ne (by simp [Edit.key])]
    exact hfirst
  have hhalt : (commitFinalizedBlock (sampleNetwork idleState)
      (deliver (sampleNetwork idleState) node clockBlock) emptyBlock { batch }).node.db .detectorHalt =
        some (encodeLocalBytes (equivocationRecord (certificateBytes c)
          (certificateBytes emptyBlock.certificate))) := by
    rw [hdetector _ rfl, hseen]
    dsimp only
    rw [write_of_forall_ne (by simp [Edit.key])]
    simp [Store.write, Edit.key, Edit.value]
  have hobserves : Observes (sampleNetwork idleState) (commitFinalizedBlock (sampleNetwork idleState)
      (deliver (sampleNetwork idleState) node clockBlock) emptyBlock { batch }).node.db
        emptyBlock.block.height emptyBlock.block.parentBlockId emptyBlock.certificate := by
    refine Observes.of_eq ?_ (hdetector _ rfl)
    rw [hseen]
    exact hcert.observes_write (show Fate.done ≠ .lost by decide)
  have hne : c.blockId ≠ emptyBlock.certificate.blockId := by
    rw [hcert.blockId]
    exact hlt.ne'
  have hkey' : computePoaFinalizerKeyId (sampleNetwork idleState).poaKey = some id := hkey
  have hnetwork : (sampleNetwork idleState).networkBinding.isNull = false :=
    show (sampleId 200).isNull = false by decide
  exact ⟨_, s, .deliver clockBlock {} hrun (by decide), hlive'.consistent, ⟨c, hc, hid⟩,
    ⟨emptyBlock.certificate, hobserves, hcert.blockId⟩, _, _,
    openNode_of_load hkey' hnetwork hmetadata' (loadDetector_equivocation hc.kept hcert.kept hne hhalt) .done⟩

theorem canonical_sampleHead : Canonical (sampleNetwork idleState) idleState [] sampleHead idleState := .genesis

/-- With the batch lost, the restarted node stays on the larger block for good. -/
theorem interrupted_replacement_lost :
    ∃ node restarted db, Run (sampleNetwork idleState) idleState [clockBlock] node ∧
      IdsDistinct [emptyBlock, clockBlock] ∧
      getFinalizedHead node.db = some ⟨computeBlockId clockBlock.block, clockBlock.block.height⟩ ∧
      Competitor (sampleNetwork idleState) sampleHead idleState emptyBlock ∧
      computeBlockId emptyBlock.block < computeBlockId clockBlock.block ∧
      (∃ c, Observes (sampleNetwork idleState)
        (commitFinalizedBlock (sampleNetwork idleState) node emptyBlock { batch := .lost }).node.db
        emptyBlock.block.height emptyBlock.block.parentBlockId c ∧
        c.blockId = computeBlockId emptyBlock.block) ∧
      openNode (sampleNetwork idleState)
        (commitFinalizedBlock (sampleNetwork idleState) node emptyBlock { batch := .lost }).node.db .done =
          (db, some restarted) ∧
      ∀ n, getFinalizedHead ((fun node => deliver (sampleNetwork idleState) node emptyBlock)^[n]
        restarted).db = some ⟨computeBlockId clockBlock.block, clockBlock.block.height⟩ := by
  obtain ⟨node, s, hrun, hnode, -, ⟨c, hc, hid⟩, db, restarted, hopen⟩ := clockBlock_tip .lost
  refine ⟨node, restarted, db, hrun, ids_clockBlock, ?_, competitor_emptyBlock,
    emptyBlock_lt_clockBlock, ⟨c, hc, hid⟩, hopen, fun n => ?_⟩
  · exact hnode.store.getFinalizedHead
  have hstore : Consistent (sampleNetwork idleState) idleState [clockBlock]
      ⟨computeBlockId clockBlock.block, clockBlock.block.height⟩ s
      (commitFinalizedBlock (sampleNetwork idleState) node emptyBlock { batch := .lost }).node.db := by
    obtain ⟨heq | ⟨-, -, heq⟩, -⟩ | ⟨_, _, _, _, -, hbatch, -⟩ :=
      commitFinalizedBlock_cases (sampleNetwork idleState) node emptyBlock { batch := .lost }
    · exact heq ▸ hnode.store
    · exact heq ▸ hnode.store.sameChain (observe_sameChain _ _ _ _ _)
    · exact absurd rfl hbatch
  obtain ⟨hsame, -, hobserved⟩ := openNode_spec hopen
  have hhead := (hstore.sameChain hsame).getFinalizedHead
  have hheight : clockBlock.block.height = emptyBlock.block.height := rfl
  have hkept : Observes (sampleNetwork idleState) restarted.db emptyBlock.block.height
      emptyBlock.block.parentBlockId c := hc.of_eq (hobserved _ _)
  rw [iterate_deliver_observed hhead hheight hkept hid n]
  exact hhead

/-- A batch that became durable although its write failed survives the restart. -/
theorem interrupted_replacement_stored :
    ∃ node restarted db, Run (sampleNetwork idleState) idleState [clockBlock] node ∧
      openNode (sampleNetwork idleState)
        (commitFinalizedBlock (sampleNetwork idleState) node emptyBlock { batch := .stored }).node.db .done =
          (db, some restarted) ∧
      ∀ n, getFinalizedHead ((fun node => deliver (sampleNetwork idleState) node emptyBlock)^[n]
        restarted).db = some ⟨computeBlockId emptyBlock.block, emptyBlock.block.height⟩ := by
  obtain ⟨node, s, hrun, hnode, ⟨kept, hkept, hkeptId⟩, ⟨c, hc, hid⟩, db, restarted, hopen⟩ :=
    clockBlock_tip .stored
  obtain ⟨chain, head, s', hnode', hresult⟩ := interrupted_replacement hrun ids_clockBlock
  obtain rfl : chain = [clockBlock] := hnode'.store.chain_eq_singleton hnode.store readable_clockBlock.2
  refine ⟨node, restarted, db, hrun, hopen, fun n => ?_⟩
  refine (hresult clockBlock [] sampleHead idleState { batch := .stored } c .done db restarted rfl
    canonical_sampleHead competitor_emptyBlock emptyBlock_lt_clockBlock hc hid hopen n).mpr
    ⟨fun c' hc' => ?_, rfl, by decide, readable_clockBlock⟩
  have hsame : Observes (sampleNetwork idleState) node.db emptyBlock.block.height
      emptyBlock.block.parentBlockId kept := hkept
  rw [hc'.unique hsame, hkeptId]
  exact emptyBlock_lt_clockBlock

end Sample

end Cybou
