import Cybou.LocalRecords

/-! # What a rejected block leaves behind

The detector records a certified block before the block is executed.  A block
that is then rejected is not on the chain, but later blocks for its height and
parent are compared with it.  Two nodes, one of which was given the rejected
block, go through the same heads as long as no later block is treated
differently by their detectors (`Alike`); `rejected_block` says which later
blocks are (`Rival`).
-/

namespace Cybou

open Library

section

variable [Crypto] {g : VerifiedNetworkGenesis} {genesis s : CybouState} {chain : List FinalizedBlock}
  {head : FinalizedHead} {node node' : Node} {fb : FinalizedBlock}

/-! ### Rejections -/

/-- The block is rejected because its execution fails. -/
def Rejected (g : VerifiedNetworkGenesis) (node : Node) (fb : FinalizedBlock) : Prop :=
  ∃ result, (commitFinalizedBlock g node fb {}).outcome = .returned result ∧ result.error.isExecution = true

def heads (g : VerifiedNetworkGenesis) : Node → List FinalizedBlock → List (Option FinalizedHead)
  | _, [] => []
  | node, fb :: rest => getFinalizedHead (deliver g node fb).db :: heads g (deliver g node fb) rest

variable {db : NodeDb} {result : BlockTransitionResult}

theorem planExtension_isExecution {loaded : CybouState}
    (h : planExtension g db loaded head fb = .refuse result) (herror : result.error.isExecution = true) :
    head.blockId = fb.block.parentBlockId ∧ head.height ≠ UINT64_MAX ∧ fb.block.height = head.height + 1 := by
  unfold planExtension at h
  dsimp only at h
  split at h
  · cases h
    cases herror
  next hparent =>
  split at h
  · cases h
    cases herror
  next hheight =>
  push Not at hparent hheight
  exact ⟨hparent, hheight⟩

theorem planReplacement_isExecution
    (h : planReplacement g db head fb = .refuse result) (herror : result.error.isExecution = true) :
    head.height = fb.block.height ∧ ∃ old parentBytes parent,
      getBlockAtHeight db fb.block.height = some old ∧ old.block.parentBlockId = fb.block.parentBlockId ∧
      readBytes db (.stateHeight (fb.block.height - 1)) = some parentBytes ∧
      deserializeCybouState parentBytes = some parent := by
  unfold planReplacement at h
  dsimp only at h
  split at h
  · cases h
    cases herror
  next hheight =>
  split at h
  · cases h
    cases herror
  next old hget =>
  split at h
  · cases h
    cases herror
  next hparent =>
  split at h
  · cases h
    cases herror
  next parentBytes hread =>
  split at h
  · cases h
    cases herror
  next parent hdecode =>
  push Not at hheight hparent
  exact ⟨hheight, old, parentBytes, parent, hget, hparent, hread, hdecode⟩

/-- **How a block gets to be executed and rejected**: as the next block, or in place
    of the tip. -/
theorem Rejected.cases (h : ConsistentNode g genesis chain head s node) (hgenesis : StateInvariant genesis)
    (hrejected : Rejected g node fb) :
    Live g genesis chain head s node ∧ Certified g fb ∧ head.blockId ≠ computeBlockId fb.block ∧
      observationFailure (seen g node fb {}).status = none ∧
      (∀ batch state, planOf g (seen g node fb {}).db (seen g node fb {}).status s head fb ≠ .write batch state) ∧
      ((seen g node fb {}).status ≠ .canonicalReorgRequired ∧ head.blockId = fb.block.parentBlockId ∧
          head.height ≠ UINT64_MAX ∧ fb.block.height = head.height + 1 ∧
          (∀ s', ¬Executes g s fb.block s' fb.block.resultingStateRoot) ∨
        (seen g node fb {}).status = .canonicalReorgRequired ∧ ∃ tip below parentHead parent,
          chain = tip :: below ∧ tip.block.height = fb.block.height ∧
          tip.block.parentBlockId = fb.block.parentBlockId ∧ Canonical g genesis below parentHead parent ∧
          Readable parent tip) := by
  obtain ⟨result, hreturned, herror⟩ := hrejected
  by_cases hreaches : ∃ loaded head', Reaches g node fb loaded head'
  swap
  · obtain ⟨error, snapshot, hother, -, heq⟩ := commitFinalizedBlock_of_not_reaches {}
      fun loaded head' hreaches' => hreaches ⟨loaded, head', hreaches'⟩
    rw [heq] at hreturned
    cases hreturned
    rw [hother] at herror
    cases herror
  obtain ⟨loaded, head', hreaches⟩ := hreaches
  obtain rfl := h.loaded_eq hgenesis hreaches.snapshot
  have hsame := hreaches.head
  rw [h.store.getFinalizedHead] at hsame
  cases hsame
  have hlive : Live g genesis chain head loaded node := ⟨h, hreaches.halted, hreaches.snapshot⟩
  have hcert := hreaches.certified
  have hseen : Consistent g genesis chain head loaded (seen g node fb {}).db :=
    h.store.sameChain (observe_sameChain _ _ _ _ _)
  rw [commitFinalizedBlock_of_reaches hreaches] at hreturned
  cases hpassed : observationFailure (seen g node fb {}).status with
  | some error =>
    rw [hpassed] at hreturned
    cases hreturned
    exfalso
    generalize (seen g node fb {}).status = status at hpassed
    cases status <;> cases hpassed <;> cases herror
  | none =>
    rw [hpassed] at hreturned
    dsimp only at hreturned
    cases hplan : planOf g (seen g node fb {}).db (seen g node fb {}).status loaded head fb with
    | throw =>
      rw [hplan] at hreturned
      cases hreturned
    | write batch state =>
      rw [hplan] at hreturned
      cases hreturned
      cases herror
    | refuse refused =>
      rw [hplan] at hreturned
      cases hreturned
      refine ⟨hlive, hcert, hreaches.fresh, rfl, fun batch state => by simp, ?_⟩
      unfold planOf at hplan
      split at hplan
      · next hreorg =>
        obtain ⟨hheight, old, parentBytes, parent, hget, hparent, hread, hdecode⟩ :=
          planReplacement_isExecution hplan herror
        obtain ⟨rest, parentHead, rfl, heq, hsize, hcanonical, hsize'⟩ :=
          hseen.read_tip hgenesis hheight hget hread hdecode
        exact .inr ⟨hreorg, old, rest, parentHead, parent, rfl, heq, hparent, hcanonical, hsize', hsize⟩
      · next hextends =>
        obtain ⟨hparent, hmax, hheight⟩ := planExtension_isExecution hplan herror
        refine .inl ⟨hextends, hparent, hmax, hheight, fun s' hexec => ?_⟩
        have hwrite := (hseen.planExtension_write hgenesis hcert).mpr ⟨hparent, hmax, hheight, hexec, rfl⟩
        rw [hplan] at hwrite
        cases hwrite

/-! ### Two nodes on one chain -/

theorem observe_agree {db' : NodeDb} (hcert : Certified g fb) (hrecords : RecordsKept g db)
    (heq : db' (.observed fb.block.height fb.block.parentBlockId) =
      db (.observed fb.block.height fb.block.parentBlockId)) :
    (observe g false db' fb.certificate fb.block {}).status =
        (observe g false db fb.certificate fb.block {}).status ∧
      ∀ height parent, db' (.observed height parent) = db (.observed height parent) →
        (observe g false db' fb.certificate fb.block {}).db (.observed height parent) =
          (observe g false db fb.certificate fb.block {}).db (.observed height parent) := by
  obtain hnone | ⟨c, hc⟩ := hrecords fb.block.height fb.block.parentBlockId
  · rw [observe_first hcert {} hnone, observe_first hcert {} (heq.trans hnone)]
    exact ⟨rfl, fun height parent h => Store.apply_congr h _⟩
  · rw [observe_again hcert hc, observe_again hcert (hc.of_eq heq)]
    by_cases hid : c.blockId = computeBlockId fb.block
    · rw [if_pos hid, if_pos hid]
      exact ⟨rfl, fun _ _ h => h⟩
    rw [if_neg hid, if_neg hid]
    by_cases hsmaller : computeBlockId fb.block < c.blockId
    · simp only [ne_eq, not_true_eq_false, if_false, if_pos hsmaller, if_true]
      exact ⟨trivial, fun height parent h => Store.apply_congr (Store.apply_congr h _) _⟩
    · simp only [ne_eq, not_true_eq_false, if_false, if_neg hsmaller]
      exact ⟨trivial, fun height parent h => Store.apply_congr h _⟩

namespace Live

/-- When the detectors agree on a block, both nodes end on the same chain. -/
theorem deliver_agree (h : Live g genesis chain head s node) (h' : Live g genesis chain head s node')
    (hgenesis : StateInvariant genesis) (hids : IdsDistinct (fb :: chain)) (hcert : Certified g fb)
    (hfresh : head.blockId ≠ computeBlockId fb.block)
    (hstatus : (seen g node' fb {}).status = (seen g node fb {}).status) :
    ∃ chain' head' s', chain' ⊆ fb :: chain ∧ head.height.toNat ≤ head'.height.toNat ∧
      Live g genesis chain' head' s' (deliver g node fb) ∧
      Live g genesis chain' head' s' (deliver g node' fb) := by
  have hseen : Consistent g genesis chain head s (seen g node fb {}).db :=
    h.consistent.store.sameChain (observe_sameChain _ _ _ _ _)
  have hseen' : Consistent g genesis chain head s (seen g node' fb {}).db :=
    h'.consistent.store.sameChain (observe_sameChain _ _ _ _ _)
  -- Whether the plan is a write depends on the chain and the block alone.
  have hplans : ∀ state,
      (∃ batch, planOf g (seen g node' fb {}).db (seen g node' fb {}).status s head fb = .write batch state) ↔
        ∃ batch, planOf g (seen g node fb {}).db (seen g node fb {}).status s head fb = .write batch state := by
    intro state
    rw [hstatus]
    unfold planOf
    split
    · simp only [hseen.planReplacement_write hgenesis hcert, hseen'.planReplacement_write hgenesis hcert]
      constructor
      · rintro ⟨-, tip, rest, parentHead, parent, h₁, h₂, h₃, h₄, h₅, h₆, h₇, -⟩
        exact ⟨_, tip, rest, parentHead, parent, h₁, h₂, h₃, h₄, h₅, h₆, h₇, rfl⟩
      · rintro ⟨-, tip, rest, parentHead, parent, h₁, h₂, h₃, h₄, h₅, h₆, h₇, -⟩
        exact ⟨_, tip, rest, parentHead, parent, h₁, h₂, h₃, h₄, h₅, h₆, h₇, rfl⟩
    · simp only [hseen.planExtension_write hgenesis hcert, hseen'.planExtension_write hgenesis hcert]
      constructor
      · rintro ⟨-, h₁, h₂, h₃, h₄, -⟩
        exact ⟨_, h₁, h₂, h₃, h₄, rfl⟩
      · rintro ⟨-, h₁, h₂, h₃, h₄, -⟩
        exact ⟨_, h₁, h₂, h₃, h₄, rfl⟩
  by_cases hw : ∃ batch state, Writes g node fb {} s head batch state
  · obtain ⟨batch, state, hw⟩ := hw
    obtain ⟨batch', hplan'⟩ := (hplans state).mpr ⟨batch, hw.plan⟩
    have hw' : Writes g node' fb {} s head batch' state :=
      ⟨h'.reaches hfresh hcert, hstatus ▸ hw.status, hplan'⟩
    obtain ⟨below, hbelow, hlive, -⟩ := h.deliver_written hgenesis hids hw
    obtain ⟨below', hbelow', hlive', -⟩ := h'.deliver_written hgenesis hids hw'
    have hsame : below' = below := by
      rw [hstatus] at hbelow'
      obtain ⟨hreorg, tip, rfl⟩ | ⟨hextends, rfl⟩ := hbelow
      · obtain ⟨-, tip', heq⟩ | ⟨hextends, -⟩ := hbelow'
        · exact (List.cons.inj heq).2.symm
        · exact absurd hreorg hextends
      · obtain ⟨hreorg, -⟩ | ⟨-, rfl⟩ := hbelow'
        · exact absurd hreorg hextends
        · rfl
    subst hsame
    refine ⟨_, _, state, ?_, ?_, hlive, hlive'⟩
    · refine List.cons_subset_cons _ ?_
      obtain ⟨-, tip, rfl⟩ | ⟨-, rfl⟩ := hbelow
      · exact List.subset_cons_self _ _
      · exact List.Subset.refl _
    · rw [h.consistent.store.canonical.height, hlive.consistent.store.canonical.height, List.length_cons]
      obtain ⟨-, tip, rfl⟩ | ⟨-, rfl⟩ := hbelow
      · simp
      · omega
  · have hrefused : ∀ N : Node, Live g genesis chain head s N → (∀ state batch,
        planOf g (seen g N fb {}).db (seen g N fb {}).status s head fb ≠ .write batch state ∨
          observationFailure (seen g N fb {}).status ≠ none) → Live g genesis chain head s (deliver g N fb) := by
      intro N hN hnot
      refine (hN.deliver_refused hcert hfresh fun hpassed batch state => ?_).1
      exact (hnot state batch).resolve_right (not_not.mpr hpassed)
    refine ⟨chain, head, s, List.subset_cons_self _ _, le_refl _, hrefused node h fun state batch => ?_,
      hrefused node' h' fun state batch => ?_⟩
    · by_contra hboth
      push Not at hboth
      exact hw ⟨batch, state, h.reaches hfresh hcert, hboth.2, hboth.1⟩
    · by_contra hboth
      push Not at hboth
      obtain ⟨batch', hplan⟩ := (hplans state).mp ⟨batch, hboth.1⟩
      exact hw ⟨batch', state, h.reaches hfresh hcert, hstatus ▸ hboth.2, hplan⟩

theorem deliver_observed (h : Live g genesis chain head s node) (hgenesis : StateInvariant genesis)
    (hids : IdsDistinct (fb :: chain)) (hcert : Certified g fb)
    (hfresh : head.blockId ≠ computeBlockId fb.block) (height : UInt64) (parent : Hash256) :
    (deliver g node fb).db (.observed height parent) =
      (observe g false node.db fb.certificate fb.block {}).db (.observed height parent) := by
  rw [deliver, h.consistent.commit_detector hgenesis hids (h.reaches hfresh hcert) {} rfl, h.seen_eq]

end Live

/-! ### Later blocks -/

/-- A certified block that can follow its parent wherever that is the head. -/
structure Executable (g : VerifiedNetworkGenesis) (genesis : CybouState) (fb : FinalizedBlock) : Prop where
  certified : Certified g fb
  competitor : ∀ chain head s, Canonical g genesis chain head s → head.blockId = fb.block.parentBlockId →
    Competitor g head s fb

def SameSlot (a b : FinalizedBlock) : Prop :=
  a.block.height = b.block.height ∧ a.block.parentBlockId = b.block.parentBlockId

/-- A later block that the detector treats differently once it has recorded `b`. -/
def Rival (g : VerifiedNetworkGenesis) (node : Node) (b a : FinalizedBlock) : Prop :=
  SameSlot a b ∧
    (node.db (.observed b.block.height b.block.parentBlockId) = none ∧
        computeBlockId a.block ≠ computeBlockId b.block ∨
      ∃ c, Observes g node.db b.block.height b.block.parentBlockId c ∧
        computeBlockId b.block ≤ computeBlockId a.block ∧ computeBlockId a.block < c.blockId)

/-- No block to come tells the two records of the slot of `b` apart. -/
def Indifferent (g : VerifiedNetworkGenesis) (blocks : List FinalizedBlock) (b : FinalizedBlock)
    (head : FinalizedHead) (db db' : NodeDb) : Prop :=
  db' (.observed b.block.height b.block.parentBlockId) = db (.observed b.block.height b.block.parentBlockId) ∨
    (∀ a ∈ blocks, ¬SameSlot a b) ∨
    (b.block.height.toNat ≤ head.height.toNat ∧ ∃ c c',
      Observes g db b.block.height b.block.parentBlockId c ∧
      Observes g db' b.block.height b.block.parentBlockId c' ∧ c'.blockId ≤ c.blockId ∧
      ∀ a ∈ blocks, SameSlot a b → computeBlockId a.block < c'.blockId ∨ c.blockId ≤ computeBlockId a.block)

/-- Two nodes on one chain that only the slot of `b` may tell apart. -/
def Alike (g : VerifiedNetworkGenesis) (genesis : CybouState) (pool blocks : List FinalizedBlock)
    (b : FinalizedBlock) (node node' : Node) : Prop :=
  ∃ chain head s, chain ⊆ pool ∧ Live g genesis chain head s node ∧ Live g genesis chain head s node' ∧
    (∀ height parent, ¬(height = b.block.height ∧ parent = b.block.parentBlockId) →
      node'.db (.observed height parent) = node.db (.observed height parent)) ∧
    Indifferent g blocks b head node.db node'.db

namespace Alike

variable {pool blocks : List FinalizedBlock} {b : FinalizedBlock}

theorem getFinalizedHead_eq (h : Alike g genesis pool blocks b node node') :
    getFinalizedHead node'.db = getFinalizedHead node.db := by
  obtain ⟨chain, head, s, -, hlive, hlive', -⟩ := h
  rw [hlive.consistent.store.getFinalizedHead, hlive'.consistent.store.getFinalizedHead]

variable {a : FinalizedBlock}

theorem deliver_agree (hgenesis : StateInvariant genesis) (hids : IdsDistinct pool)
    (ha : a ∈ pool) (hcert : Certified g a) (hchain : chain ⊆ pool) (hlive : Live g genesis chain head s node)
    (hlive' : Live g genesis chain head s node') (hfresh : head.blockId ≠ computeBlockId a.block)
    (hstatus : (seen g node' a {}).status = (seen g node a {}).status)
    (hother : ∀ height parent, ¬(height = b.block.height ∧ parent = b.block.parentBlockId) →
      (observe g false node'.db a.certificate a.block {}).db (.observed height parent) =
        (observe g false node.db a.certificate a.block {}).db (.observed height parent))
    (hown : ∀ head', head.height.toNat ≤ head'.height.toNat →
      Indifferent g blocks b head' (deliver g node a).db (deliver g node' a).db) :
    Alike g genesis pool blocks b (deliver g node a) (deliver g node' a) := by
  have hids' : IdsDistinct (a :: chain) := hids.mono (List.cons_subset.mpr ⟨ha, hchain⟩)
  obtain ⟨chain', head', s', hchain', hle, hnext, hnext'⟩ :=
    hlive.deliver_agree hlive' hgenesis hids' hcert hfresh hstatus
  refine ⟨chain', head', s', List.Subset.trans hchain' (List.cons_subset.mpr ⟨ha, hchain⟩), hnext, hnext',
    fun height parent hne => ?_, hown head' hle⟩
  rw [hlive.deliver_observed hgenesis hids' hcert hfresh, hlive'.deliver_observed hgenesis hids' hcert hfresh]
  exact hother height parent hne

/-- **One delivery** keeps the two nodes alike. -/
theorem deliver (h : Alike g genesis pool blocks b node node')
    (hgenesis : StateInvariant genesis) (hids : IdsDistinct pool) (hpool : blocks ⊆ pool) (ha : a ∈ blocks)
    (hcert : Certified g a) :
    Alike g genesis pool blocks b (Cybou.deliver g node a) (Cybou.deliver g node' a) := by
  obtain ⟨chain, head, s, hchain, hlive, hlive', hother, hown⟩ := h
  have hids' : IdsDistinct (a :: chain) := hids.mono (List.cons_subset.mpr ⟨hpool ha, hchain⟩)
  by_cases hfresh : head.blockId = computeBlockId a.block
  · obtain ⟨hnext, hdb⟩ := hlive.deliver_head hfresh
    obtain ⟨hnext', hdb'⟩ := hlive'.deliver_head hfresh
    exact ⟨chain, head, s, hchain, hnext, hnext', by rwa [hdb, hdb'], by rwa [hdb, hdb']⟩
  have hrecords := hlive.consistent.detector.records
  -- Where the record of the slot of `a` is the same, everything stays as it was.
  have hsame : node'.db (.observed a.block.height a.block.parentBlockId) =
        node.db (.observed a.block.height a.block.parentBlockId) →
      (SameSlot a b → node'.db (.observed b.block.height b.block.parentBlockId) =
        node.db (.observed b.block.height b.block.parentBlockId)) →
      Alike g genesis pool blocks b (Cybou.deliver g node a) (Cybou.deliver g node' a) := by
    intro heq hslot
    obtain ⟨hstatus, hobserved⟩ := observe_agree hcert hrecords heq
    rw [← hlive.seen_eq, ← hlive'.seen_eq] at hstatus
    refine deliver_agree hgenesis hids (hpool ha) hcert hchain hlive hlive' hfresh hstatus
      (fun height parent hne => hobserved height parent (hother height parent hne)) fun head' hle => ?_
    have hagree := hobserved b.block.height b.block.parentBlockId
    rw [← hlive.deliver_observed hgenesis hids' hcert hfresh,
      ← hlive'.deliver_observed hgenesis hids' hcert hfresh] at hagree
    by_cases hab : SameSlot a b
    · exact .inl (hagree (hslot hab))
    · have hkept : ∀ N : Node, Live g genesis chain head s N →
          (Cybou.deliver g N a).db (.observed b.block.height b.block.parentBlockId) =
            N.db (.observed b.block.height b.block.parentBlockId) := by
        intro N hN
        rw [hN.deliver_observed hgenesis hids' hcert hfresh]
        exact (observe_effect hcert hN.consistent.detector.records {}).other _ _
          fun hkey => hab ⟨hkey.1.symm, hkey.2.symm⟩
      obtain heq | hnone | ⟨hheight, c, c', hc, hc', hle', hall⟩ := hown
      · exact .inl (hagree heq)
      · exact .inr (.inl hnone)
      · exact .inr (.inr ⟨hheight.trans hle, c, c', hc.of_eq (hkept node hlive), hc'.of_eq (hkept node' hlive'),
          hle', hall⟩)
  by_cases hab : SameSlot a b
  swap
  · exact hsame (hother _ _ hab) fun h => absurd h hab
  obtain heq | hnone | ⟨hheight, c, c', hc, hc', hle, hall⟩ := hown
  · refine hsame ?_ fun _ => heq
    rw [hab.1, hab.2]
    exact heq
  · exact absurd hab (hnone a ha)
  have hca : Observes g node.db a.block.height a.block.parentBlockId c := by
    rw [hab.1, hab.2]
    exact hc
  have hca' : Observes g node'.db a.block.height a.block.parentBlockId c' := by
    rw [hab.1, hab.2]
    exact hc'
  obtain hsmaller | hlarger := hall a ha hab
  · -- Smaller than both records: it replaces either.
    have hboth : ∀ N : Node, Live g genesis chain head s N → ∀ k : PoaFinalityCertificate,
        Observes g N.db a.block.height a.block.parentBlockId k → computeBlockId a.block < k.blockId →
        (seen g N a {}).status = .canonicalReorgRequired ∧
        (observe g false N.db a.certificate a.block {}).db (.observed a.block.height a.block.parentBlockId) =
          some (encodeLocalBytes (certificateBytes a.certificate)) := by
      intro N hN k hk hlt
      rw [hN.seen_eq, observe_again hcert hk, if_neg hlt.ne']
      simp only [ne_eq, not_true_eq_false, if_false, if_pos hlt, if_true, true_and]
      exact (hcert.observes_write (show Fate.done ≠ .lost by decide)).record
    obtain ⟨hstatus, hrecord⟩ := hboth node hlive c hca (hsmaller.trans_le hle)
    obtain ⟨hstatus', hrecord'⟩ := hboth node' hlive' c' hca' hsmaller
    refine deliver_agree hgenesis hids (hpool ha) hcert hchain hlive hlive' hfresh (hstatus'.trans hstatus.symm)
      (fun height parent hne => ?_) fun head' _ => .inl ?_
    · have hne' : ¬(height = a.block.height ∧ parent = a.block.parentBlockId) := by
        rw [hab.1, hab.2]
        exact hne
      rw [(observe_effect hcert hlive'.consistent.detector.records {}).other _ _ hne',
        (observe_effect hcert hrecords {}).other _ _ hne', hother height parent hne]
    · rw [← hab.1, ← hab.2, hlive.deliver_observed hgenesis hids' hcert hfresh,
        hlive'.deliver_observed hgenesis hids' hcert hfresh, hrecord, hrecord']
  · -- Not smaller than either record: it is refused on both nodes.
    have hboth : ∀ N : Node, Live g genesis chain head s N → ∀ k : PoaFinalityCertificate,
        Observes g N.db a.block.height a.block.parentBlockId k → k.blockId ≤ computeBlockId a.block →
        Live g genesis chain head s (Cybou.deliver g N a) ∧ ∀ height parent,
          (Cybou.deliver g N a).db (.observed height parent) = N.db (.observed height parent) := by
      intro N hN k hk hle
      obtain heq | hlt := hle.eq_or_lt
      · obtain ⟨hnext, hdb⟩ := hN.deliver_late hgenesis hcert hfresh (hab.1 ▸ hheight) hk heq
        exact ⟨hnext, fun _ _ => by rw [hdb]⟩
      · exact hN.deliver_larger hcert hfresh hk hlt
    obtain ⟨hnext, hobserved⟩ := hboth node hlive c hca hlarger
    obtain ⟨hnext', hobserved'⟩ := hboth node' hlive' c' hca' (hle.trans hlarger)
    refine ⟨chain, head, s, hchain, hnext, hnext', fun height parent hne => ?_, .inr (.inr ⟨hheight, c, c',
      hc.of_eq (hobserved _ _), hc'.of_eq (hobserved' _ _), hle, hall⟩)⟩
    rw [hobserved, hobserved', hother height parent hne]

/-- **Alike nodes go through the same heads.** -/
theorem heads_eq (h : Alike g genesis pool blocks b node node') (hgenesis : StateInvariant genesis)
    (hids : IdsDistinct pool) (hpool : blocks ⊆ pool) (hcert : ∀ a ∈ blocks, Certified g a)
    {order : List FinalizedBlock} (horder : order ⊆ blocks) : heads g node' order = heads g node order := by
  induction order generalizing node node' with
  | nil => rfl
  | cons a rest ih =>
    obtain ⟨ha, hrest⟩ := List.cons_subset.mp horder
    have hnext := h.deliver hgenesis hids hpool ha (hcert a ha)
    rw [heads, heads, hnext.getFinalizedHead_eq, ih hnext hrest]

end Alike

/-! ### With and without the rejected block -/

variable {b : FinalizedBlock}

theorem Rejected.deliver (h : ConsistentNode g genesis chain head s node)
    (hgenesis : StateInvariant genesis) (hrejected : Rejected g node b) :
    Live g genesis chain head s (Cybou.deliver g node b) ∧
      (Cybou.deliver g node b).db = (observe g false node.db b.certificate b.block {}).db := by
  obtain ⟨hlive, hcert, hfresh, -, hnot, -⟩ := hrejected.cases h hgenesis
  obtain ⟨hnext, hdb⟩ := hlive.deliver_refused hcert hfresh fun _ => hnot
  rw [hlive.seen_eq] at hdb
  exact ⟨hnext, hdb⟩

/-- A rejected block leaves a node that no later delivery tells apart. -/
theorem Rejected.alike {pool blocks : List FinalizedBlock}
    (h : ConsistentNode g genesis chain head s node) (hgenesis : StateInvariant genesis)
    (hchain : chain ⊆ pool) (hids : IdsDistinct pool) (hb : b ∈ pool) (hpool : blocks ⊆ pool)
    (hrejected : Rejected g node b) (hblocks : ∀ a ∈ blocks, Executable g genesis a)
    (hnone : ∀ a ∈ blocks, ¬Rival g node b a) :
    Alike g genesis pool blocks b node (Cybou.deliver g node b) := by
  obtain ⟨hlive, hcert, -, hpassed, -, hcases⟩ := hrejected.cases h hgenesis
  obtain ⟨hnext, hdb⟩ := hrejected.deliver h hgenesis
  have heffect := observe_effect hcert h.detector.records {}
  rw [← hdb] at heffect
  refine ⟨chain, head, s, hchain, hlive, hnext, heffect.other, ?_⟩
  rw [hlive.seen_eq] at hpassed hcases
  obtain hempty | ⟨c, hc⟩ := h.detector.records b.block.height b.block.parentBlockId
  · -- Nothing was on record, so `b` was tried as the next block.
    refine .inr (.inl fun a ha hab => ?_)
    have hid : computeBlockId a.block = computeBlockId b.block := by
      by_contra hne
      exact hnone a ha ⟨hab, .inl ⟨hempty, hne⟩⟩
    obtain ⟨-, hparent, -, -, hnot⟩ | ⟨hreorg, -⟩ := hcases
    · obtain ⟨s', hexec⟩ := ((hblocks a ha).competitor chain head s h.store.canonical
        (hparent.trans hab.2.symm)).executes
      rw [hids.block a (hpool ha) b hb hid] at hexec
      exact hnot s' hexec
    · rw [observe_first hcert {} hempty] at hreorg
      cases hreorg
  · obtain heq | ⟨hown, hsmaller⟩ := heffect.own
    · exact .inl heq
    · have hlt := hsmaller c hc
      obtain ⟨hextends, -⟩ | ⟨-, tip, below, _, _, rfl, hheight, -⟩ := hcases
      · rw [observe_again hcert hc, if_neg hlt.ne'] at hextends
        simp only [ne_eq, not_true_eq_false, if_false, if_pos hlt, if_true] at hextends
      · refine .inr (.inr ⟨?_, c, b.certificate, hc, hown, ?_, fun a ha hab => ?_⟩)
        · rw [h.store.canonical.head_eq, hheight]
        · rw [hcert.blockId]
          exact hlt.le
        · rw [hcert.blockId]
          by_contra hboth
          push Not at hboth
          exact hnone a ha ⟨hab, .inr ⟨c, hc, hboth⟩⟩

/-- A rival is accepted without the rejected block, and refused with it. -/
theorem Rejected.diverges {a : FinalizedBlock} (h : ConsistentNode g genesis chain head s node)
    (hgenesis : StateInvariant genesis) (hids : IdsDistinct (a :: chain)) (hrejected : Rejected g node b)
    (ha : Executable g genesis a) (hrival : Rival g node b a) :
    heads g (Cybou.deliver g node b) [a] ≠ heads g node [a] := by
  obtain ⟨hlive, hcert, -, hpassed, -, hcases⟩ := hrejected.cases h hgenesis
  obtain ⟨hnext, hdb⟩ := hrejected.deliver h hgenesis
  obtain ⟨hab, hrecord⟩ := hrival
  rw [hlive.seen_eq] at hpassed hcases
  -- It is enough that the two nodes end on different heads.
  suffices hheads : ∃ s', Live g genesis chain head s (Cybou.deliver g (Cybou.deliver g node b) a) ∧
      head.blockId ≠ computeBlockId a.block ∧ ∃ below,
        Live g genesis (a :: below) ⟨computeBlockId a.block, a.block.height⟩ s' (Cybou.deliver g node a) by
    obtain ⟨s', hrefused, hne, below, haccepted⟩ := hheads
    simp only [heads, hrefused.consistent.store.getFinalizedHead,
      haccepted.consistent.store.getFinalizedHead]
    intro heq
    exact hne (congrArg FinalizedHead.blockId (Option.some.inj (List.cons.inj heq).1))
  obtain ⟨hempty, hid⟩ | ⟨c, hc, hle, hlt⟩ := hrecord
  · obtain ⟨-, hparent, -⟩ | ⟨hreorg, -⟩ := hcases
    · have hcomp := ha.competitor chain head s h.store.canonical (hparent.trans hab.2.symm)
      have hempty' : node.db (.observed a.block.height a.block.parentBlockId) = none := by
        rw [hab.1, hab.2]
        exact hempty
      obtain ⟨s', haccepted, -⟩ := hlive.deliver_first hgenesis hids hcomp (.inl hempty')
      have hobserved : Observes g (Cybou.deliver g node b).db a.block.height a.block.parentBlockId
          b.certificate := by
        rw [hab.1, hab.2, hdb, observe_first hcert {} hempty]
        exact hcert.observes_write (show Fate.done ≠ .lost by decide)
      refine ⟨s', ?_, hcomp.fresh, chain, haccepted⟩
      obtain hlt | hgt := lt_or_gt_of_ne hid
      · exact (hnext.deliver_early hgenesis hcomp hobserved (hcert.blockId ▸ hlt)).1
      · exact (hnext.deliver_larger ha.certified hcomp.fresh hobserved (hcert.blockId ▸ hgt)).1
    · rw [observe_first hcert {} hempty] at hreorg
      cases hreorg
  · have hsmaller := hle.trans_lt hlt
    obtain ⟨hextends, -⟩ | ⟨-, tip, below, parentHead, parent, rfl, hheight, hparent, hcanonical, hread⟩ :=
      hcases
    · rw [observe_again hcert hc, if_neg hsmaller.ne'] at hextends
      simp only [ne_eq, not_true_eq_false, if_false, if_pos hsmaller, if_true] at hextends
    · obtain ⟨_, _, hcanonical', hparent', -⟩ := h.store.parentSnapshot tip below rfl
      obtain ⟨rfl, rfl⟩ := hcanonical.unique hcanonical'
      have hcomp := ha.competitor below parentHead parent hcanonical
        (hparent'.trans (hparent.trans hab.2.symm))
      have hca : Observes g node.db a.block.height a.block.parentBlockId c := by
        rw [hab.1, hab.2]
        exact hc
      obtain ⟨haccepted, -⟩ := hlive.deliver_smaller hgenesis hids hcanonical hcomp
        ⟨hheight.trans hab.1.symm, hparent.trans hab.2.symm⟩ hca hlt
      obtain ⟨s', haccepted⟩ := haccepted hread
      have hfresh : head.blockId ≠ computeBlockId a.block := by
        obtain ⟨c', hc', hle'⟩ := h.detector.tip tip below rfl
        rw [hheight, hparent] at hc'
        obtain rfl := hc.unique hc'
        rw [h.store.canonical.head_eq]
        exact (hlt.trans_le hle').ne'
      have hobserved : Observes g (Cybou.deliver g node b).db a.block.height a.block.parentBlockId
          b.certificate := by
        rw [hab.1, hab.2, hdb, observe_again hcert hc, if_neg hsmaller.ne']
        simp only [ne_eq, not_true_eq_false, if_false, if_pos hsmaller, if_true]
        exact hcert.observes_write (show Fate.done ≠ .lost by decide)
      refine ⟨s', ?_, hfresh, below, haccepted⟩
      obtain heq | hlt' := hle.eq_or_lt
      · refine (hnext.deliver_late hgenesis ha.certified hfresh ?_ hobserved (hcert.blockId.trans heq)).1
        rw [h.store.canonical.head_eq, hab.1, hheight]
      · exact (hnext.deliver_larger ha.certified hfresh hobserved (hcert.blockId ▸ hlt')).1

/-- **A rejected block leaves no trace on later decisions if and only if no later
    block is its rival.** -/
theorem rejected_block {delivered blocks : List FinalizedBlock} {b : FinalizedBlock}
    (hrun : Run g genesis delivered node) (hids : IdsDistinct (blocks ++ b :: delivered))
    (hrejected : Rejected g node b) (hblocks : ∀ a ∈ blocks, Executable g genesis a) :
    (∀ order, order ⊆ blocks → heads g (deliver g node b) order = heads g node order) ↔
      ∀ a ∈ blocks, ¬Rival g node b a := by
  obtain ⟨hgenesis, chain, head, s, hchain, hnode⟩ := hrun.consistent
    (hids.mono (List.subset_append_of_subset_right _ (List.subset_cons_self _ _)))
  have hchain' : chain ⊆ blocks ++ b :: delivered :=
    List.subset_append_of_subset_right _ (List.subset_cons_of_subset _ hchain)
  have hpool : blocks ⊆ blocks ++ b :: delivered := List.subset_append_left _ _
  constructor
  · intro hall a ha hrival
    refine hrejected.diverges hnode hgenesis (hids.mono (List.cons_subset.mpr ⟨hpool ha, hchain'⟩))
      (hblocks a ha) hrival (hall [a] ?_)
    simpa using ha
  · intro hnone order horder
    have halike := hrejected.alike hnode hgenesis hchain' hids (by simp) hpool hblocks hnone
    exact halike.heads_eq hgenesis hids hpool (fun a ha => (hblocks a ha).certified) horder

end

section Sample

attribute [local instance] Crypto.sample

theorem executable_emptyBlock : Executable (sampleNetwork idleState) idleState emptyBlock where
  certified := competitor_emptyBlock.certified
  competitor chain head s hcanonical hparent := by
    cases hcanonical with
    | genesis => exact competitor_emptyBlock
    | block => exact absurd hparent.symm (sampleHead_ne_computeBlockId _)

theorem rejected_wrongBlock {node : Node}
    (hlive : Live (sampleNetwork idleState) idleState [] sampleHead idleState node)
    (hobserved : ∀ height parent, node.db (.observed height parent) = none) :
    Rejected (sampleNetwork idleState) node wrongBlock := by
  have hreaches := hlive.reaches (sampleHead_ne_computeBlockId _) certified_wrongBlock
  have hseen : seen (sampleNetwork idleState) node wrongBlock {} = ⟨.observed, false, node.db.write
      [.put (.observed wrongBlock.block.height wrongBlock.block.parentBlockId)
        (encodeLocalBytes (certificateBytes wrongBlock.certificate))] .done⟩ := by
    rw [hlive.seen_eq, observe_first certified_wrongBlock {} (hobserved _ _)]
    rfl
  have hstore : Consistent (sampleNetwork idleState) idleState [] sampleHead idleState
      (seen (sampleNetwork idleState) node wrongBlock {}).db :=
    hlive.consistent.store.sameChain (observe_sameChain _ _ _ _ _)
  have hempty : wrongBlock.block.operations = [] ∧
      expiresName (sampleNetwork idleState) idleState wrongBlock.block.height = false :=
    ⟨rfl, by decide⟩
  have hroot : stateRoot idleState ≠ wrongBlock.block.resultingStateRoot := by decide
  refine ⟨{ error := .stateRootMismatch }, ?_, rfl⟩
  rw [commitFinalizedBlock_of_reaches hreaches, hseen]
  rw [hseen] at hstore
  dsimp only [observationFailure]
  rw [planOf, if_neg (by simp), planExtension, if_neg (show ¬sampleHead.blockId ≠
    wrongBlock.block.parentBlockId from not_not.mpr rfl), if_neg, if_pos hempty,
    readHash_encodeLocalHash hstore.hash]
  · dsimp only
    rw [if_pos hroot]
    rfl
  · rintro (h | h)
    · exact absurd h (by decide)
    · exact h rfl

/-- The block that is rejected keeps the only executable one from the head. -/
theorem rejected_block_wrongBlock :
    ∃ node, Run (sampleNetwork idleState) idleState [] node ∧
      IdsDistinct ([emptyBlock] ++ [wrongBlock]) ∧ Rejected (sampleNetwork idleState) node wrongBlock ∧
      Executable (sampleNetwork idleState) idleState emptyBlock ∧
      heads (sampleNetwork idleState) (deliver (sampleNetwork idleState) node wrongBlock) [emptyBlock] ≠
        heads (sampleNetwork idleState) node [emptyBlock] := by
  obtain ⟨node, hrun, hlive, hobserved, -⟩ := live_sampleNetwork invariant_idleState
  have hids : IdsDistinct ([emptyBlock] ++ [wrongBlock]) :=
    (idsDistinct_of_lt wrongBlock_lt_emptyBlock (.inl rfl)).mono (by simp)
  have hrejected := rejected_wrongBlock hlive hobserved
  exact ⟨node, hrun, hids, hrejected, executable_emptyBlock,
    hrejected.diverges hlive.consistent invariant_idleState (hids.mono (by simp)) executable_emptyBlock
      ⟨⟨rfl, rfl⟩, .inl ⟨hobserved _ _, wrongBlock_lt_emptyBlock.ne'⟩⟩⟩

/-- The sample node, with that block as the only one to come. -/
theorem rejected_block_emptyBlock :
    ∃ node, Run (sampleNetwork idleState) idleState [] node ∧
      ((∀ order, order ⊆ [emptyBlock] →
          heads (sampleNetwork idleState) (deliver (sampleNetwork idleState) node wrongBlock) order =
            heads (sampleNetwork idleState) node order) ↔
        ∀ a ∈ [emptyBlock], ¬Rival (sampleNetwork idleState) node wrongBlock a) := by
  obtain ⟨node, hrun, hlive, hobserved, -⟩ := live_sampleNetwork invariant_idleState
  have hids : IdsDistinct ([emptyBlock] ++ [wrongBlock]) :=
    (idsDistinct_of_lt wrongBlock_lt_emptyBlock (.inl rfl)).mono (by simp)
  refine ⟨node, hrun, rejected_block hrun hids (rejected_wrongBlock hlive hobserved) ?_⟩
  simpa using executable_emptyBlock

end Sample

end Cybou
