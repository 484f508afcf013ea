import Cybou.ConflictDetector

/-! # The store along a run of deliveries

A run starts from an initialised store and delivers blocks in any order, each
accepted, refused, thrown out or interrupted, with restarts in between.  After
every step the store describes one canonical chain (`Consistent`): its state is
the execution of the chain from genesis, and its indexes hold the chain and
nothing else.

One delivery either leaves every key outside the conflict detector as it was or
writes one batch (`commitFinalizedBlock_cases`); what a batch leaves is
`Committed`.
-/

namespace Cybou

open Library

section

variable [Crypto] {g : VerifiedNetworkGenesis}

/-! ### One delivery -/

def seen (g : VerifiedNetworkGenesis) (node : Node) (fb : FinalizedBlock) (fates : CommitFates) :
    Observation :=
  observe g node.halted node.db fb.certificate fb.block fates

def seenNode (g : VerifiedNetworkGenesis) (node : Node) (fb : FinalizedBlock) (loaded : CybouState)
    (fates : CommitFates) : Node where
  db := (seen g node fb fates).db
  snapshot := some loaded
  halted := (seen g node fb fates).halted

/-- What is planned after the detector has spoken. -/
def planOf (g : VerifiedNetworkGenesis) (db : NodeDb) (status : PoaConflictStatus) (loaded : CybouState)
    (head : FinalizedHead) (fb : FinalizedBlock) : Plan :=
  if status = .canonicalReorgRequired then planReplacement g db head fb
  else planExtension g db loaded head fb

structure Reaches (g : VerifiedNetworkGenesis) (node : Node) (fb : FinalizedBlock) (loaded : CybouState)
    (head : FinalizedHead) : Prop where
  snapshot : getStateSnapshotLocked g node = .ok loaded
  halted : node.halted = false
  fresh : head.blockId ≠ computeBlockId fb.block
  certified : Certified g fb
  head : getFinalizedHead node.db = some head

structure Writes (g : VerifiedNetworkGenesis) (node : Node) (fb : FinalizedBlock) (fates : CommitFates)
    (loaded : CybouState) (head : FinalizedHead) (batch : Batch) (state : CybouState) : Prop where
  reaches : Reaches g node fb loaded head
  status : observationFailure (seen g node fb fates).status = none
  plan : planOf g (seen g node fb fates).db (seen g node fb fates).status loaded head fb =
    .write batch state

def Caches (g : VerifiedNetworkGenesis) (node : Node) (snapshot : Option CybouState) : Prop :=
  snapshot = node.snapshot ∨ ∃ s, getStateSnapshotLocked g node = .ok s ∧ snapshot = some s

def BlockTransitionError.isExecution : BlockTransitionError → Bool
  | .invalidOperation | .tooManyAccountCreates | .stateRootMismatch => true
  | _ => false

variable {node : Node}

theorem commitFinalizedBlock_of_not_reaches {fb : FinalizedBlock} (fates : CommitFates)
    (h : ∀ loaded head, ¬Reaches g node fb loaded head) :
    ∃ error snapshot, error.isExecution = false ∧ Caches g node snapshot ∧
      commitFinalizedBlock g node fb fates = ⟨.returned { error }, { node with snapshot }⟩ := by
  unfold commitFinalizedBlock
  cases hloaded : getStateSnapshotLocked g node with
  | error e => exact ⟨loadFailure e, node.snapshot, by cases e <;> rfl, .inl rfl, rfl⟩
  | ok loaded =>
    dsimp only
    have hstop : ∀ error : BlockTransitionError, error.isExecution = false →
        ∃ error' snapshot, error'.isExecution = false ∧ Caches g node snapshot ∧
        (⟨.returned { error }, { node with snapshot := some loaded }⟩ : CommitReply) =
          ⟨.returned { error := error' }, { node with snapshot }⟩ :=
      fun error herror => ⟨error, some loaded, herror, .inr ⟨loaded, hloaded, rfl⟩, rfl⟩
    by_cases hhalted : node.halted = true
    · rw [if_pos hhalted]
      exact hstop .poaSafetyHalted rfl
    by_cases hid : (computeBlockId fb.block).isNull = true
    · rw [if_neg hhalted, if_pos hid]
      exact hstop .invalidBlockId rfl
    rw [if_neg hhalted, if_neg hid]
    cases hhead : getFinalizedHead node.db with
    | none => exact hstop .corruptHead rfl
    | some head =>
      dsimp only
      by_cases hfresh : head.blockId = computeBlockId fb.block
      · rw [if_pos hfresh]
        exact hstop .blockAlreadyApplied rfl
      by_cases hmatches : certificateMatches g fb = true
      · exact absurd ⟨hloaded, Bool.eq_false_of_not_eq_true hhalted, hfresh,
          (certificateMatches_iff.mp hmatches).2, hhead⟩ (h loaded head)
      · rw [if_neg hfresh, if_pos (Bool.eq_false_of_not_eq_true hmatches)]
        exact hstop .invalidCertificate rfl

theorem commitFinalizedBlock_of_reaches {node : Node} {fb : FinalizedBlock} {loaded : CybouState}
    {head : FinalizedHead} (h : Reaches g node fb loaded head) (fates : CommitFates) :
    commitFinalizedBlock g node fb fates =
      match observationFailure (seen g node fb fates).status with
      | some error => ⟨.returned { error }, seenNode g node fb loaded fates⟩
      | none => (planOf g (seen g node fb fates).db (seen g node fb fates).status loaded head fb).run
          (seenNode g node fb loaded fates) fates.batch := by
  have hid : ¬(computeBlockId fb.block).isNull = true := by
    rw [h.certified.facts.2.1]
    exact Bool.false_ne_true
  rw [commitFinalizedBlock]
  simp only [h.snapshot, h.halted, h.head, seenNode, seen]
  rw [if_neg (by simp), if_neg hid, if_neg h.fresh, if_neg (by simp [h.certified.matches_eq])]
  rfl

def writtenNode (g : VerifiedNetworkGenesis) (node : Node) (fb : FinalizedBlock) (loaded : CybouState)
    (fates : CommitFates) (batch : Batch) (state : CybouState) : Node where
  db := (seen g node fb fates).db.apply batch
  snapshot := if fates.batch = .done then some state else some loaded
  halted := (seen g node fb fates).halted

theorem writtenNode_cache {fb : FinalizedBlock} {loaded : CybouState} {fates : CommitFates}
    {batch : Batch} {state : CybouState} (hlost : fates.batch ≠ .lost) (hstored : fates.batch ≠ .stored) :
    ∀ cached ∈ (writtenNode g node fb loaded fates batch state).snapshot, cached = state := by
  have hdone : fates.batch = .done := by
    cases hcase : fates.batch with
    | done => rfl
    | lost => exact absurd hcase hlost
    | stored => exact absurd hcase hstored
  intro cached hcached
  rw [writtenNode, if_pos hdone] at hcached
  cases hcached
  rfl

/-- **A delivery leaves the chain as it was, or writes one batch.** -/
theorem commitFinalizedBlock_cases (g : VerifiedNetworkGenesis) (node : Node) (fb : FinalizedBlock)
    (fates : CommitFates) :
    (((commitFinalizedBlock g node fb fates).node.db = node.db ∨
        node.halted = false ∧ Certified g fb ∧
          (commitFinalizedBlock g node fb fates).node.db = (seen g node fb fates).db) ∧
      Caches g node (commitFinalizedBlock g node fb fates).node.snapshot) ∨
    ∃ loaded head batch state, Writes g node fb fates loaded head batch state ∧ fates.batch ≠ .lost ∧
      (commitFinalizedBlock g node fb fates).outcome =
        (if fates.batch = .done then .returned {} else .thrown) ∧
      (commitFinalizedBlock g node fb fates).node = writtenNode g node fb loaded fates batch state := by
  by_cases hreaches : ∃ loaded head, Reaches g node fb loaded head
  swap
  · obtain ⟨error, snapshot, -, hcaches, heq⟩ := commitFinalizedBlock_of_not_reaches fates
      (fun loaded head h => hreaches ⟨loaded, head, h⟩)
    rw [heq]
    exact .inl ⟨.inl rfl, hcaches⟩
  obtain ⟨loaded, head, hreaches⟩ := hreaches
  have hcaches : Caches g node (some loaded) := .inr ⟨loaded, hreaches.snapshot, rfl⟩
  rw [commitFinalizedBlock_of_reaches hreaches]
  cases hstatus : observationFailure (seen g node fb fates).status with
  | some error => exact .inl ⟨.inr ⟨hreaches.halted, hreaches.certified, rfl⟩, hcaches⟩
  | none =>
    dsimp only
    cases hplan : planOf g (seen g node fb fates).db (seen g node fb fates).status loaded head fb with
    | refuse result => exact .inl ⟨.inr ⟨hreaches.halted, hreaches.certified, rfl⟩, hcaches⟩
    | throw => exact .inl ⟨.inr ⟨hreaches.halted, hreaches.certified, rfl⟩, hcaches⟩
    | write batch state =>
      cases hfate : fates.batch with
      | lost => exact .inl ⟨.inr ⟨hreaches.halted, hreaches.certified, rfl⟩, hcaches⟩
      | done =>
        refine .inr ⟨loaded, head, batch, state, ⟨hreaches, hstatus, hplan⟩, by simp, rfl, ?_⟩
        rw [writtenNode, hfate]
        rfl
      | stored =>
        refine .inr ⟨loaded, head, batch, state, ⟨hreaches, hstatus, hplan⟩, by simp, rfl, ?_⟩
        rw [writtenNode, hfate]
        rfl

/-! ### Canonical chains -/

/-- A chain of certified blocks, tip first, its head, and the state its execution
    leaves. -/
inductive Canonical (g : VerifiedNetworkGenesis) (genesis : CybouState) :
    List FinalizedBlock → FinalizedHead → CybouState → Prop where
  | genesis : Canonical g genesis [] ⟨g.genesisAnchor, 0⟩ genesis
  | block {chain : List FinalizedBlock} {head : FinalizedHead} {s s' : CybouState} {fb : FinalizedBlock} :
      Canonical g genesis chain head s → head.blockId = fb.block.parentBlockId →
      head.height ≠ UINT64_MAX → fb.block.height = head.height + 1 → Certified g fb →
      Executes g s fb.block s' fb.block.resultingStateRoot →
      Canonical g genesis (fb :: chain) ⟨computeBlockId fb.block, fb.block.height⟩ s'

def chainOperations (chain : List FinalizedBlock) : List ProtocolOperation :=
  chain.reverse.flatMap fun fb => fb.block.operations

/-- Blocks and operations are told apart by their ids. -/
structure IdsDistinct (blocks : List FinalizedBlock) : Prop where
  block : ∀ a ∈ blocks, ∀ b ∈ blocks, computeBlockId a.block = computeBlockId b.block → a.block = b.block
  operation : CollisionFree (blocks.flatMap fun fb => fb.block.operations)

theorem IdsDistinct.mono {blocks blocks' : List FinalizedBlock} (h : IdsDistinct blocks)
    (hsubset : blocks' ⊆ blocks) : IdsDistinct blocks' where
  block a ha b hb := h.block a (hsubset ha) b (hsubset hb)
  operation := by
    have hops : ∀ op ∈ blocks'.flatMap fun fb => fb.block.operations,
        op ∈ blocks.flatMap fun fb => fb.block.operations := by
      intro op hop
      obtain ⟨fb, hfb, hop⟩ := List.mem_flatMap.mp hop
      exact List.mem_flatMap.mpr ⟨fb, hsubset hfb, hop⟩
    exact fun a ha b hb => h.operation a (hops a ha) b (hops b hb)

omit [Crypto] in
theorem toNat_succ_of_ne_max {n : UInt64} (h : n ≠ UINT64_MAX) : (n + 1).toNat = n.toNat + 1 := by
  have hmax : UINT64_MAX.toNat = 2 ^ 64 - 1 := rfl
  have hne : n.toNat ≠ UINT64_MAX.toNat := fun heq => h (UInt64.toNat_inj.mp heq)
  have hlt := n.toNat_lt
  rw [UInt64.toNat_add, UInt64.toNat_one, Nat.mod_eq_of_lt (by omega)]

namespace Canonical

variable {genesis s : CybouState} {chain : List FinalizedBlock} {head : FinalizedHead}

theorem height (h : Canonical g genesis chain head s) : head.height.toNat = chain.length := by
  induction h with
  | genesis => rfl
  | block _ _ hmax hheight _ _ ih =>
    rw [hheight, toNat_succ_of_ne_max hmax, ih, List.length_cons]

theorem height_le (h : Canonical g genesis chain head s) :
    ∀ fb ∈ chain, 0 < fb.block.height.toNat ∧ fb.block.height.toNat ≤ head.height.toNat := by
  induction h with
  | genesis => simp
  | block _ _ hmax hheight _ _ ih =>
    have hsucc := toNat_succ_of_ne_max hmax
    rw [← hheight] at hsucc
    refine List.forall_mem_cons.mpr ⟨⟨by omega, le_refl _⟩, fun fb hfb => ?_⟩
    have hle := ih fb hfb
    exact ⟨hle.1, by dsimp only; omega⟩

theorem certified (h : Canonical g genesis chain head s) : ∀ fb ∈ chain, Certified g fb := by
  induction h with
  | genesis => simp
  | block _ _ _ _ hcert _ ih => exact List.forall_mem_cons.mpr ⟨hcert, ih⟩

theorem sized (h : Canonical g genesis chain head s) :
    ∀ fb ∈ chain, ∀ op ∈ fb.block.operations, BindingsSized op := by
  induction h with
  | genesis => simp
  | block _ _ _ _ _ hexec ih => exact List.forall_mem_cons.mpr ⟨hexec.trace.sized, ih⟩

theorem invariant (h : Canonical g genesis chain head s) (hgenesis : StateInvariant genesis) :
    StateInvariant s := by
  cases h with
  | genesis => exact hgenesis
  | block _ _ _ _ _ hexec => exact hexec.result.1

theorem head_eq {tip : FinalizedBlock} (h : Canonical g genesis (tip :: chain) head s) :
    head = ⟨computeBlockId tip.block, tip.block.height⟩ := by
  cases h with
  | block => rfl

theorem unique {head' : FinalizedHead} {s' : CybouState} (h : Canonical g genesis chain head s)
    (h' : Canonical g genesis chain head' s') : head = head' ∧ s = s' := by
  induction h generalizing head' s' with
  | genesis =>
    cases h'
    exact ⟨rfl, rfl⟩
  | block _ _ _ _ _ hexec ih =>
    cases h' with
    | block hchain _ _ _ _ hexec' =>
      obtain ⟨-, rfl⟩ := ih hchain
      exact ⟨rfl, (hexec.unique hexec').1⟩

theorem trace (h : Canonical g genesis chain head s) : Trace genesis (chainOperations chain) s := by
  induction h with
  | genesis => exact .refl _
  | block _ _ _ _ _ hexec ih =>
    rw [chainOperations, List.reverse_cons, List.flatMap_append, List.flatMap_singleton]
    exact Trace.append ih (.block _ hexec.trace)

omit [Crypto] in
theorem mem_chainOperations {op : ProtocolOperation} :
    op ∈ chainOperations chain ↔ ∃ fb ∈ chain, op ∈ fb.block.operations := by
  simp [chainOperations]

theorem disjoint {fb : FinalizedBlock} (h : Canonical g genesis (fb :: chain) head s)
    (hgenesis : StateInvariant genesis) (hids : IdsDistinct (fb :: chain)) :
    ∀ old ∈ chain, ∀ id ∈ blockOperationIds old.block, id ∉ blockOperationIds fb.block := by
  have hops := h.trace.nodup hgenesis.total ⟨rfl, hgenesis.fundsCovered⟩
  have hfree : CollisionFree (chainOperations (fb :: chain)) := by
    have hmem : ∀ op ∈ chainOperations (fb :: chain),
        op ∈ (fb :: chain).flatMap fun fb => fb.block.operations := by
      intro op hop
      exact List.mem_flatMap.mpr (mem_chainOperations.mp hop)
    exact fun a ha b hb => hids.operation a (hmem a ha) b (hmem b hb)
  have hnodup := hfree.nodup hops
  rw [chainOperations, List.reverse_cons, List.flatMap_append, List.flatMap_singleton,
    List.filterMap_append, List.nodup_append] at hnodup
  intro old hold id hid hid'
  refine hnodup.2.2 id ?_ id hid' rfl
  obtain ⟨op, hop, heq⟩ := List.mem_filterMap.mp hid
  exact List.mem_filterMap.mpr ⟨op, mem_chainOperations.mpr ⟨old, hold, hop⟩, heq⟩

end Canonical

/-! ### Consistent stores -/

structure Consistent (g : VerifiedNetworkGenesis) (genesis : CybouState) (chain : List FinalizedBlock)
    (head : FinalizedHead) (s : CybouState) (db : NodeDb) : Prop where
  canonical : Canonical g genesis chain head s
  state : db .state = some (encodeLocalBytes (encodedState s))
  hash : db .hash = some (encodeLocalHash (stateRoot s))
  networkId : db .networkId = some (encodeLocalHash g.networkBinding)
  block : ∀ fb ∈ chain,
    db (.block (computeBlockId fb.block)) = some (encodeLocalBytes (finalizedBytes fb))
  blockHeight : ∀ fb ∈ chain,
    db (.blockHeight fb.block.height) = some (encodeLocalHash (computeBlockId fb.block))
  noBlockHeight : ∀ height, (∀ fb ∈ chain, fb.block.height ≠ height) → db (.blockHeight height) = none
  operation : ∀ fb ∈ chain, ∀ id ∈ blockOperationIds fb.block,
    db (.operation id) = some (encodeLocalHash (computeBlockId fb.block))
  noOperation : ∀ id, (∀ fb ∈ chain, id ∉ blockOperationIds fb.block) → db (.operation id) = none
  snapshot : db (.stateHeight head.height) = some (encodeLocalBytes (encodedState s))
  /-- The state a replacement of the tip starts from. -/
  parentSnapshot : ∀ fb rest, chain = fb :: rest → ∃ parentHead parent,
    Canonical g genesis rest parentHead parent ∧ parentHead.blockId = fb.block.parentBlockId ∧
      parentHead.height ≠ UINT64_MAX ∧ fb.block.height = parentHead.height + 1 ∧
      db (.stateHeight parentHead.height) = some (encodeLocalBytes (encodedState parent))
  headRecord : db .head = some (encodeFinalizedHead head)

namespace Consistent

variable {genesis s s' : CybouState} {chain : List FinalizedBlock} {head : FinalizedHead} {db db' : NodeDb}

theorem sameRecords (h : Consistent g genesis chain head s db)
    (hsame : ∀ key : StoreKey, key.isDetector = false → key.isEvent = false → db' key = db key) :
    Consistent g genesis chain head s db' where
  canonical := h.canonical
  state := (hsame _ rfl rfl).trans h.state
  hash := (hsame _ rfl rfl).trans h.hash
  networkId := (hsame _ rfl rfl).trans h.networkId
  block fb hfb := (hsame _ rfl rfl).trans (h.block fb hfb)
  blockHeight fb hfb := (hsame _ rfl rfl).trans (h.blockHeight fb hfb)
  noBlockHeight height hheight := (hsame _ rfl rfl).trans (h.noBlockHeight height hheight)
  operation fb hfb id hid := (hsame _ rfl rfl).trans (h.operation fb hfb id hid)
  noOperation id hid := (hsame _ rfl rfl).trans (h.noOperation id hid)
  snapshot := (hsame _ rfl rfl).trans h.snapshot
  parentSnapshot fb rest heq := by
    obtain ⟨parentHead, parent, hcanonical, hparent, hmax, hheight, hrecord⟩ :=
      h.parentSnapshot fb rest heq
    exact ⟨parentHead, parent, hcanonical, hparent, hmax, hheight, (hsame _ rfl rfl).trans hrecord⟩
  headRecord := (hsame _ rfl rfl).trans h.headRecord

theorem sameChain (h : Consistent g genesis chain head s db) (hsame : SameChain db db') :
    Consistent g genesis chain head s db' :=
  h.sameRecords fun key hkey _ => hsame key hkey

theorem getFinalizedHead (h : Consistent g genesis chain head s db) :
    getFinalizedHead db = some head :=
  getFinalizedHead_encodeFinalizedHead h.headRecord

variable {fb : FinalizedBlock}

theorem getBlock (h : Consistent g genesis chain head s db) (hfb : fb ∈ chain) :
    getBlock db (computeBlockId fb.block) =
      if (finalizedBytes fb).length ≤ MAX_COMPACT_SIZE then some fb else none := by
  rw [Cybou.getBlock, readBytes_encodeLocalBytes (h.block fb hfb)]
  split
  · next hsize =>
    exact deserialize_finalizedBytes (h.canonical.certified fb hfb) (h.canonical.sized fb hfb) hsize
  · rfl

theorem getBlockAtHeight (h : Consistent g genesis chain head s db) (hfb : fb ∈ chain) :
    getBlockAtHeight db fb.block.height =
      if (finalizedBytes fb).length ≤ MAX_COMPACT_SIZE then some fb else none := by
  have hpos := (h.canonical.height_le fb hfb).1
  have hne : ¬fb.block.height = 0 := by
    intro heq
    rw [heq] at hpos
    exact absurd hpos (by decide)
  rw [Cybou.getBlockAtHeight, if_neg hne, getBlockIdAtHeight,
    readHash_encodeLocalHash (h.blockHeight fb hfb)]
  dsimp only
  rw [h.getBlock hfb]
  by_cases hsize : (finalizedBytes fb).length ≤ MAX_COMPACT_SIZE
  · rw [if_pos hsize]
    simp
  · rw [if_neg hsize]

/-- **The next block.** -/
theorem extend (h : Consistent g genesis chain head s db)
    (hgenesis : StateInvariant genesis) (hids : IdsDistinct (fb :: chain))
    (hparent : head.blockId = fb.block.parentBlockId) (hmax : head.height ≠ UINT64_MAX)
    (hheight : fb.block.height = head.height + 1) (hcert : Certified g fb)
    (hexec : Executes g s fb.block s' fb.block.resultingStateRoot)
    (hdb : Committed db db' fb s' [] (if fb.block.height > 16 then some (fb.block.height - 16) else none)) :
    Consistent g genesis (fb :: chain) ⟨computeBlockId fb.block, fb.block.height⟩ s' db' := by
  have hcanonical : Canonical g genesis (fb :: chain) ⟨computeBlockId fb.block, fb.block.height⟩ s' :=
    .block h.canonical hparent hmax hheight hcert hexec
  have hsucc := toNat_succ_of_ne_max hmax
  rw [← hheight] at hsucc
  have hlower : ∀ old ∈ chain, old.block.height ≠ fb.block.height := by
    intro old hold heq
    have hle := (h.canonical.height_le old hold).2
    rw [heq] at hle
    omega
  have hother : ∀ old ∈ chain, computeBlockId old.block ≠ computeBlockId fb.block := by
    intro old hold heq
    exact hlower old hold (congrArg CybouBlock.height
      (hids.block old (List.mem_cons_of_mem _ hold) fb List.mem_cons_self heq))
  have hwindow : ∀ height : UInt64, height = fb.block.height ∨ height = head.height →
      ¬some height = if fb.block.height > 16 then some (fb.block.height - 16) else none := by
    intro height hor
    split
    · next hlarge =>
      have hlt : 16 < fb.block.height.toNat := UInt64.lt_iff_toNat_lt.mp hlarge
      have hsub : (fb.block.height - 16).toNat = fb.block.height.toNat - 16 :=
        UInt64.toNat_sub_of_le _ _ (UInt64.le_iff_toNat_le.mpr hlt.le)
      rw [Option.some.injEq, ← UInt64.toNat_inj, hsub]
      obtain rfl | rfl := hor <;> omega
    · exact Option.some_ne_none _
  refine
    { canonical := hcanonical
      state := hdb.state
      hash := hdb.hash
      networkId := hdb.networkId.trans h.networkId
      headRecord := hdb.head
      snapshot := ?_
      block := ?_
      blockHeight := ?_
      noBlockHeight := ?_
      operation := ?_
      noOperation := ?_
      parentSnapshot := ?_ }
  · refine List.forall_mem_cons.mpr ⟨?_, fun old hold => ?_⟩
    · rw [hdb.block, if_pos rfl]
    · rw [hdb.block, if_neg (hother old hold), h.block old hold]
  · refine List.forall_mem_cons.mpr ⟨?_, fun old hold => ?_⟩
    · rw [hdb.blockHeight, if_pos rfl]
    · rw [hdb.blockHeight, if_neg (hlower old hold), h.blockHeight old hold]
  · intro height hnone
    rw [List.forall_mem_cons] at hnone
    rw [hdb.blockHeight, if_neg (Ne.symm hnone.1), h.noBlockHeight height hnone.2]
  · refine List.forall_mem_cons.mpr ⟨fun id hid => ?_, fun old hold id hid => ?_⟩
    · rw [hdb.operation, if_pos hid]
    · have hnot := hcanonical.disjoint hgenesis hids old hold id hid
      rw [hdb.operation, if_neg hnot, if_neg List.not_mem_nil, h.operation old hold id hid]
  · intro id hnone
    rw [List.forall_mem_cons] at hnone
    rw [hdb.operation, if_neg hnone.1, if_neg List.not_mem_nil, h.noOperation id hnone.2]
  · dsimp only
    rw [hdb.stateHeight, if_neg (hwindow _ (.inl rfl)), if_pos rfl]
  · intro fb' rest heq
    cases heq
    refine ⟨head, s, h.canonical, hparent, hmax, hheight, ?_⟩
    have hne : head.height ≠ fb.block.height := by
      rw [Ne, ← UInt64.toNat_inj]
      omega
    rw [hdb.stateHeight, if_neg (hwindow _ (.inr rfl)), if_neg hne, h.snapshot]

/-- **A competitor of the tip.** -/
theorem replace {tip : FinalizedBlock} (h : Consistent g genesis (tip :: chain) head s db)
    (hgenesis : StateInvariant genesis) (hids : IdsDistinct (fb :: tip :: chain))
    (hcanonical : Canonical g genesis (fb :: chain) ⟨computeBlockId fb.block, fb.block.height⟩ s')
    (hheight : tip.block.height = fb.block.height) (hparent : tip.block.parentBlockId = fb.block.parentBlockId)
    (hdb : Committed db db' fb s' (blockOperationIds tip.block) none) :
    Consistent g genesis (fb :: chain) ⟨computeBlockId fb.block, fb.block.height⟩ s' db' := by
  obtain ⟨parentHead, parent, hparentCanonical, hid, hmax, hnext, hrecord⟩ := h.parentSnapshot tip chain rfl
  have hsucc := toNat_succ_of_ne_max hmax
  rw [← hnext, hheight] at hsucc
  have hlower : ∀ old ∈ chain, old.block.height ≠ fb.block.height := by
    intro old hold heq
    have hle := (hparentCanonical.height_le old hold).2
    rw [heq] at hle
    omega
  have hother : ∀ old ∈ chain, computeBlockId old.block ≠ computeBlockId fb.block := by
    intro old hold heq
    exact hlower old hold (congrArg CybouBlock.height
      (hids.block old (by simp [hold]) fb List.mem_cons_self heq))
  refine
    { canonical := hcanonical
      state := hdb.state
      hash := hdb.hash
      networkId := hdb.networkId.trans h.networkId
      headRecord := hdb.head
      snapshot := ?_
      block := ?_
      blockHeight := ?_
      noBlockHeight := ?_
      operation := ?_
      noOperation := ?_
      parentSnapshot := ?_ }
  · refine List.forall_mem_cons.mpr ⟨?_, fun old hold => ?_⟩
    · rw [hdb.block, if_pos rfl]
    · rw [hdb.block, if_neg (hother old hold), h.block old (List.mem_cons_of_mem _ hold)]
  · refine List.forall_mem_cons.mpr ⟨?_, fun old hold => ?_⟩
    · rw [hdb.blockHeight, if_pos rfl]
    · rw [hdb.blockHeight, if_neg (hlower old hold), h.blockHeight old (List.mem_cons_of_mem _ hold)]
  · intro height hnone
    rw [List.forall_mem_cons] at hnone
    rw [hdb.blockHeight, if_neg (Ne.symm hnone.1)]
    exact h.noBlockHeight height (List.forall_mem_cons.mpr ⟨hheight ▸ hnone.1, hnone.2⟩)
  · refine List.forall_mem_cons.mpr ⟨fun id hid => ?_, fun old hold id hid => ?_⟩
    · rw [hdb.operation, if_pos hid]
    · -- Neither the old tip nor the new one shares an operation with the chain below.
      have hnot := hcanonical.disjoint hgenesis
        (hids.mono (List.cons_subset_cons _ (List.subset_cons_self _ _))) old hold id hid
      have hnot' := h.canonical.disjoint hgenesis (hids.mono (List.subset_cons_self _ _)) old hold id hid
      rw [hdb.operation, if_neg hnot, if_neg hnot',
        h.operation old (List.mem_cons_of_mem _ hold) id hid]
  · intro id hnone
    rw [List.forall_mem_cons] at hnone
    rw [hdb.operation, if_neg hnone.1]
    split
    · rfl
    · next hnot => exact h.noOperation id (List.forall_mem_cons.mpr ⟨hnot, hnone.2⟩)
  · dsimp only
    rw [hdb.stateHeight, if_neg (by simp), if_pos rfl]
  · intro fb' rest heq
    cases heq
    refine ⟨parentHead, parent, hparentCanonical, hid.trans hparent, hmax, hheight.symm.trans hnext, ?_⟩
    have hne : parentHead.height ≠ fb.block.height := by
      rw [Ne, ← UInt64.toNat_inj]
      omega
    rw [hdb.stateHeight, if_neg (by simp), if_neg hne, hrecord]

theorem getFinalizedOperationHeight (h : Consistent g genesis chain head s db) :
    (∀ fb ∈ chain, ∀ id ∈ blockOperationIds fb.block,
      getFinalizedOperationHeight g db id =
        if (finalizedBytes fb).length ≤ MAX_COMPACT_SIZE then some fb.block.height else none) ∧
    ∀ id, (∀ fb ∈ chain, id ∉ blockOperationIds fb.block) →
      getFinalizedOperationHeight g db id = none := by
  constructor
  · intro fb hfb id hid
    obtain ⟨op, hop, hopId⟩ := List.mem_filterMap.mp hid
    have hcert := h.canonical.certified fb hfb
    obtain ⟨hpos, hle⟩ := h.canonical.height_le fb hfb
    have hnull : ¬id.isNull = true := by simp [computeOperationId_ne_null hopId]
    rw [Cybou.getFinalizedOperationHeight, if_neg hnull, readHash_encodeLocalHash (h.operation fb hfb id hid),
      h.getFinalizedHead]
    dsimp only
    rw [h.getBlock hfb]
    by_cases hsize : (finalizedBytes fb).length ≤ MAX_COMPACT_SIZE
    · have hzero : fb.block.height ≠ 0 := by
        intro heq
        rw [heq] at hpos
        exact absurd hpos (by decide)
      have hheight : ¬fb.block.height > head.height := by
        rw [gt_iff_lt, UInt64.lt_iff_toNat_lt]
        omega
      rw [if_pos hsize, if_pos hsize]
      dsimp only
      rw [if_neg (by simp [hzero, hheight, hcert.blockId, hcert.height, hcert.network]), if_pos]
      exact List.any_eq_true.mpr ⟨op, hop, by simp [hopId]⟩
    · rw [if_neg hsize, if_neg hsize]
  · intro id hnone
    rw [Cybou.getFinalizedOperationHeight, readHash, h.noOperation id hnone]
    simp

theorem loadStateLocked (h : Consistent g genesis chain head s db) (hgenesis : StateInvariant genesis) :
    loadStateLocked g db =
      if (encodedState s).length ≤ MAX_COMPACT_SIZE then .ok s else .error .corrupt := by
  have hinvariant := h.canonical.invariant hgenesis
  rw [Cybou.loadStateLocked, if_neg (by simp [h.state]), if_neg (by
    simp [h.state, h.hash, h.headRecord, h.networkId]), readHash_encodeLocalHash h.networkId]
  dsimp only
  rw [if_neg (not_not.mpr rfl), readBytes_encodeLocalBytes h.state, readHash_encodeLocalHash h.hash]
  by_cases hsize : (encodedState s).length ≤ MAX_COMPACT_SIZE
  · rw [if_pos hsize, if_pos hsize]
    dsimp only
    rw [deserialize_encodedState hinvariant hsize]
    dsimp only
    rw [cybouStateHash_of_invariant hinvariant, if_neg (not_not.mpr rfl)]
  · rw [if_neg hsize, if_neg hsize]

theorem planExtension_write {fb : FinalizedBlock} {batch : Batch}
    (h : Consistent g genesis chain head s db) (hgenesis : StateInvariant genesis)
    (hcert : Certified g fb) :
    planExtension g db s head fb = .write batch s' ↔
      head.blockId = fb.block.parentBlockId ∧ head.height ≠ UINT64_MAX ∧
        fb.block.height = head.height + 1 ∧ Executes g s fb.block s' fb.block.resultingStateRoot ∧
        batch = extensionBatch g db s s' head fb :=
  Cybou.planExtension_write (h.canonical.invariant hgenesis) (readHash_encodeLocalHash h.hash) hcert

theorem read_tip {height : UInt64} {old : FinalizedBlock} {parentBytes : Bytes} {parent : CybouState}
    (h : Consistent g genesis chain head s db) (hgenesis : StateInvariant genesis)
    (hheight : head.height = height) (hget : Cybou.getBlockAtHeight db height = some old)
    (hread : readBytes db (.stateHeight (height - 1)) = some parentBytes)
    (hdecode : deserializeCybouState parentBytes = some parent) :
    ∃ rest parentHead, chain = old :: rest ∧ old.block.height = height ∧
      (finalizedBytes old).length ≤ MAX_COMPACT_SIZE ∧ Canonical g genesis rest parentHead parent ∧
      (encodedState parent).length ≤ MAX_COMPACT_SIZE := by
  have htip : ∃ tip rest, chain = tip :: rest ∧ tip.block.height = height := by
    cases h.canonical with
    | genesis =>
      rw [← hheight] at hget
      cases hget
    | block => exact ⟨_, _, rfl, hheight⟩
  obtain ⟨tip, rest, rfl, heq⟩ := htip
  rw [← heq, h.getBlockAtHeight List.mem_cons_self] at hget
  split at hget
  swap
  · cases hget
  next hsize =>
  cases hget
  obtain ⟨parentHead, parent', hcanonical, hid, hmax, hnext, hrecord⟩ := h.parentSnapshot old rest rfl
  have hpredecessor : height - 1 = parentHead.height := by
    rw [← heq, hnext]
    simp
  rw [hpredecessor, readBytes_encodeLocalBytes hrecord] at hread
  split at hread
  swap
  · cases hread
  next hsize' =>
  cases hread
  rw [deserialize_encodedState (hcanonical.invariant hgenesis) hsize'] at hdecode
  cases hdecode
  exact ⟨rest, parentHead, rfl, heq, hsize, hcanonical, hsize'⟩

/-- When a competitor of the tip is written, in terms of the chain. -/
theorem planReplacement_write {batch : Batch}
    (h : Consistent g genesis chain head s db) (hgenesis : StateInvariant genesis) (hcert : Certified g fb) :
    planReplacement g db head fb = .write batch s' ↔
      ∃ tip rest parentHead parent, chain = tip :: rest ∧ tip.block.height = fb.block.height ∧
        tip.block.parentBlockId = fb.block.parentBlockId ∧
        (finalizedBytes tip).length ≤ MAX_COMPACT_SIZE ∧ Canonical g genesis rest parentHead parent ∧
        (encodedState parent).length ≤ MAX_COMPACT_SIZE ∧
        Executes g parent fb.block s' fb.block.resultingStateRoot ∧
        batch = replacementBatch db s' head tip.block fb := by
  have hold : head.height = fb.block.height → ∀ old, Cybou.getBlockAtHeight db fb.block.height = some old →
      old ∈ chain := by
    intro hheight old hget
    cases hcanonical : h.canonical with
    | genesis =>
      rw [← hheight] at hget
      cases hget
    | block =>
      rw [← hheight, h.getBlockAtHeight List.mem_cons_self] at hget
      split at hget
      · cases hget
        exact List.mem_cons_self
      · cases hget
  rw [Cybou.planReplacement_write hcert fun hheight old hget op hop =>
    (h.canonical.certified old (hold hheight old hget)).operationIds op hop]
  constructor
  · rintro ⟨hheight, old, parentBytes, parent, hget, hparent, hread, hdecode, hexec, rfl⟩
    obtain ⟨rest, parentHead, rfl, heq, hsize, hcanonical, hsize'⟩ :=
      h.read_tip hgenesis hheight hget hread hdecode
    exact ⟨old, rest, parentHead, parent, rfl, heq, hparent, hsize, hcanonical, hsize', hexec, rfl⟩
  · rintro ⟨tip, rest, parentHead, parent, rfl, heq, hparent, hsize, hcanonical, hsize', hexec, rfl⟩
    obtain ⟨_, _, hcanonical', -, -, hnext, hrecord⟩ := h.parentSnapshot tip rest rfl
    obtain ⟨rfl, rfl⟩ := hcanonical.unique hcanonical'
    have hheight : head.height = fb.block.height := by
      rw [h.canonical.head_eq]
      exact heq
    have hpredecessor : fb.block.height - 1 = parentHead.height := by
      rw [← heq, hnext]
      simp
    refine ⟨hheight, tip, encodedState parent, parent, ?_, hparent, ?_, ?_, hexec, rfl⟩
    · rw [← heq, h.getBlockAtHeight List.mem_cons_self, if_pos hsize]
    · rw [hpredecessor, readBytes_of_small hrecord hsize']
    · exact deserialize_encodedState (hcanonical.invariant hgenesis) hsize'

end Consistent

/-! ### Deliveries to a consistent node -/

/-- A node on a consistent store, with nothing else in its cache. -/
structure ConsistentNode (g : VerifiedNetworkGenesis) (genesis : CybouState) (chain : List FinalizedBlock)
    (head : FinalizedHead) (s : CybouState) (node : Node) : Prop where
  store : Consistent g genesis chain head s node.db
  detector : Guarded g chain node.db
  cache : ∀ cached ∈ node.snapshot, cached = s

namespace ConsistentNode

variable {genesis s : CybouState} {chain : List FinalizedBlock} {head : FinalizedHead} {node : Node}

variable {loaded : CybouState}

theorem loaded_eq (h : ConsistentNode g genesis chain head s node)
    (hgenesis : StateInvariant genesis) (hloaded : getStateSnapshotLocked g node = .ok loaded) :
    loaded = s := by
  unfold getStateSnapshotLocked at hloaded
  split at hloaded
  · next cached hcached =>
    cases hloaded
    exact h.cache _ hcached
  · rw [h.store.loadStateLocked hgenesis] at hloaded
    split at hloaded
    · cases hloaded
      rfl
    · cases hloaded

theorem cached_eq {snapshot : Option CybouState} (h : ConsistentNode g genesis chain head s node)
    (hgenesis : StateInvariant genesis) (hcaches : Caches g node snapshot) :
    ∀ cached ∈ snapshot, cached = s := by
  intro cached hcached
  obtain rfl | ⟨loaded, hloaded, rfl⟩ := hcaches
  · exact h.cache cached hcached
  · cases hcached
    exact h.loaded_eq hgenesis hloaded

variable {fb : FinalizedBlock} {fates : CommitFates} {head' : FinalizedHead}

theorem planned {state : CybouState} {batch : Batch} (h : ConsistentNode g genesis chain head s node)
    (hgenesis : StateInvariant genesis) (hw : Writes g node fb fates loaded head' batch state) :
    loaded = s ∧ head' = head ∧ Consistent g genesis chain head s (seen g node fb fates).db ∧
      (((seen g node fb fates).status = .canonicalReorgRequired ∧ ∃ tip rest parentHead parent,
          chain = tip :: rest ∧ tip.block.height = fb.block.height ∧
          tip.block.parentBlockId = fb.block.parentBlockId ∧ Canonical g genesis rest parentHead parent ∧
          Executes g parent fb.block state fb.block.resultingStateRoot ∧
          batch = replacementBatch (seen g node fb fates).db state head tip.block fb) ∨
        ((seen g node fb fates).status ≠ .canonicalReorgRequired ∧ head.blockId = fb.block.parentBlockId ∧
          head.height ≠ UINT64_MAX ∧ fb.block.height = head.height + 1 ∧
          Executes g s fb.block state fb.block.resultingStateRoot ∧
          batch = extensionBatch g (seen g node fb fates).db s state head fb)) := by
  have hcert := hw.reaches.certified
  obtain rfl := h.loaded_eq hgenesis hw.reaches.snapshot
  have hhead := hw.reaches.head
  rw [h.store.getFinalizedHead] at hhead
  cases hhead
  have hseen : Consistent g genesis chain head loaded (seen g node fb fates).db :=
    h.store.sameChain (observe_sameChain _ _ _ _ _)
  refine ⟨rfl, rfl, hseen, ?_⟩
  have hplan := hw.plan
  unfold planOf at hplan
  split at hplan
  · next hreorg =>
    rw [hseen.planReplacement_write hgenesis hcert] at hplan
    obtain ⟨tip, rest, parentHead, parent, hchain, hheight, hparent, -, hcanonical, -, hexec, hbatch⟩ := hplan
    exact .inl ⟨hreorg, tip, rest, parentHead, parent, hchain, hheight, hparent, hcanonical, hexec, hbatch⟩
  · next hreorg =>
    rw [hseen.planExtension_write hgenesis hcert] at hplan
    exact .inr ⟨hreorg, hplan⟩

/-- The step: what a delivery writes is again the state of a chain. -/
theorem written {state : CybouState} {batch : Batch} (h : ConsistentNode g genesis chain head s node)
    (hgenesis : StateInvariant genesis) (hids : IdsDistinct (fb :: chain))
    (hw : Writes g node fb fates loaded head' batch state) :
    ∃ below, ((seen g node fb fates).status = .canonicalReorgRequired ∧ (∃ tip, chain = tip :: below) ∨
        (seen g node fb fates).status ≠ .canonicalReorgRequired ∧ below = chain) ∧
      Consistent g genesis (fb :: below) ⟨computeBlockId fb.block, fb.block.height⟩ state
        ((seen g node fb fates).db.apply batch) ∧
      Guarded g (fb :: below) ((seen g node fb fates).db.apply batch) ∧
      ∀ key : StoreKey, key.isDetector = true →
        (seen g node fb fates).db.apply batch key = (seen g node fb fates).db key := by
  have hcert := hw.reaches.certified
  have hpassed := hw.status
  rw [seen, hw.reaches.halted] at hpassed
  obtain ⟨-, c, hc, hid⟩ := observe_passed hcert h.detector.records hpassed
  rw [← hw.reaches.halted] at hc
  have hrecords : RecordsKept g (seen g node fb fates).db := by
    rw [seen, hw.reaches.halted]
    exact (observe_effect hcert h.detector.records fates).recordsKept h.detector.records
  have hguarded : ∀ below, Guarded g (fb :: below) (seen g node fb fates).db := by
    refine fun below => ⟨hrecords, fun tip rest heq => ?_⟩
    cases heq
    exact ⟨c, hc, hid.le⟩
  obtain ⟨rfl, rfl, hseen, hplan⟩ := h.planned hgenesis hw
  rcases hplan with ⟨hreorg, tip, rest, parentHead, parent, rfl, hheight, hparent, hcanonical, hexec, rfl⟩ |
    ⟨hreorg, hparent, hmax, hheight, hexec, rfl⟩
  · obtain ⟨_, _, hcanonical', hid, hmax, hnext, -⟩ := hseen.parentSnapshot tip rest rfl
    obtain ⟨rfl, rfl⟩ := hcanonical.unique hcanonical'
    have hold := (hseen.canonical.certified tip List.mem_cons_self).operationIds
    have hcommitted := @committed_replacement _ _ (seen g node fb fates).db state head' _ _ hcert hold
    exact ⟨rest, .inl ⟨hreorg, tip, rfl⟩, hseen.replace hgenesis hids
      (.block hcanonical (hid.trans hparent) hmax (hheight.symm.trans hnext) hcert hexec) hheight hparent
      hcommitted, (hguarded rest).congr hcommitted.observed, hcommitted.detector⟩
  · have hnoop : fb.block.operations = [] ∧ expiresName g loaded fb.block.height = false →
        state = loaded := fun hempty =>
      (hexec.unique (executes_empty hexec.parent_invariant hempty.1 hempty.2
        (cybouStateHash_of_invariant hexec.parent_invariant false))).1
    have hcommitted := @committed_extension _ _ _ _ _ head' _ hcert hseen.state hseen.hash hnoop
    exact ⟨chain, .inr ⟨hreorg, rfl⟩,
      hseen.extend hgenesis hids hparent hmax hheight hcert hexec hcommitted,
      (hguarded chain).congr hcommitted.observed, hcommitted.detector⟩

theorem kept (h : ConsistentNode g genesis chain head s node) (hgenesis : StateInvariant genesis) {node' : Node}
    (hdb : node'.db = node.db ∨
      node.halted = false ∧ Certified g fb ∧ node'.db = (seen g node fb fates).db)
    (hcaches : Caches g node node'.snapshot) :
    ConsistentNode g genesis chain head s node' ∧ SameChain node.db node'.db := by
  have hcache := h.cached_eq hgenesis hcaches
  rcases hdb with heq | ⟨hhalted, hcert, heq⟩
  · have hsame : SameChain node.db node'.db := heq ▸ SameChain.refl _
    exact ⟨⟨h.store.sameChain hsame, heq ▸ h.detector, hcache⟩, hsame⟩
  · have hsame : SameChain node.db node'.db := heq ▸ observe_sameChain _ _ _ _ _
    refine ⟨⟨h.store.sameChain hsame, ?_, hcache⟩, hsame⟩
    rw [heq, seen, hhalted]
    exact h.detector.effect hcert (observe_effect hcert h.detector.records fates)

theorem commit_detector (h : ConsistentNode g genesis chain head s node) (hgenesis : StateInvariant genesis)
    (hids : IdsDistinct (fb :: chain)) (hreaches : Reaches g node fb loaded head') (fates : CommitFates)
    {key : StoreKey} (hkey : key.isDetector = true) :
    (commitFinalizedBlock g node fb fates).node.db key = (seen g node fb fates).db key := by
  rw [commitFinalizedBlock_of_reaches hreaches]
  cases hstatus : observationFailure (seen g node fb fates).status with
  | some error => rfl
  | none =>
    dsimp only
    cases hplan : planOf g (seen g node fb fates).db (seen g node fb fates).status loaded head' fb with
    | refuse result => rfl
    | throw => rfl
    | write batch state =>
      obtain ⟨_, -, -, -, hdetector⟩ := h.written hgenesis hids ⟨hreaches, hstatus, hplan⟩
      cases hfate : fates.batch with
      | lost => rfl
      | done | stored => exact hdetector key hkey

/-- **One delivery keeps the store consistent**; only a batch that became durable
    although its write failed leaves the cache behind. -/
theorem deliver (h : ConsistentNode g genesis chain head s node) (hgenesis : StateInvariant genesis)
    (fb : FinalizedBlock) (fates : CommitFates) (hids : IdsDistinct (fb :: chain)) :
    ∃ chain' head' s', chain' ⊆ fb :: chain ∧
      Consistent g genesis chain' head' s' (commitFinalizedBlock g node fb fates).node.db ∧
      Guarded g chain' (commitFinalizedBlock g node fb fates).node.db ∧
      (fates.batch ≠ .stored →
        ∀ cached ∈ (commitFinalizedBlock g node fb fates).node.snapshot, cached = s') := by
  obtain ⟨hdb, hcaches⟩ | ⟨loaded, head', batch, state, hw, hfate, -, hnode⟩ :=
    commitFinalizedBlock_cases g node fb fates
  · obtain ⟨hnode, -⟩ := h.kept hgenesis hdb hcaches
    exact ⟨chain, head, s, List.subset_cons_self _ _, hnode.store, hnode.detector, fun _ => hnode.cache⟩
  · obtain ⟨below, hbelow, hstore, hguarded, -⟩ := h.written hgenesis hids hw
    have hsubset : below ⊆ chain := by
      obtain ⟨-, tip, rfl⟩ | ⟨-, rfl⟩ := hbelow
      · exact List.subset_cons_self _ _
      · exact List.Subset.refl _
    rw [hnode]
    exact ⟨fb :: below, _, state, List.cons_subset_cons _ hsubset, hstore, hguarded,
      writtenNode_cache hfate⟩

end ConsistentNode

/-! ### Runs -/

/-- The nodes of a run, with the blocks delivered so far.  A delivery whose batch
    became durable although its write failed is followed by a restart. -/
inductive Run (g : VerifiedNetworkGenesis) (genesis : CybouState) : List FinalizedBlock → Node → Prop where
  | start {db : NodeDb} {opened node : Node} :
      openNode g (fun _ => none) .done = (db, some opened) →
      initializeGenesis g opened genesis .done = (.ok .none, node) → Run g genesis [] node
  | deliver {delivered : List FinalizedBlock} {node : Node} (fb : FinalizedBlock) (fates : CommitFates) :
      Run g genesis delivered node → fates.batch ≠ .stored →
      Run g genesis (fb :: delivered) (commitFinalizedBlock g node fb fates).node
  | restart {delivered : List FinalizedBlock} {node node' : Node} {db : NodeDb} {fate : Fate} :
      Run g genesis delivered node → openNode g node.db fate = (db, some node') →
      Run g genesis delivered node'
  | interrupted {delivered : List FinalizedBlock} {node node' : Node} {db : NodeDb} {fate : Fate}
      (fb : FinalizedBlock) (fates : CommitFates) :
      Run g genesis delivered node →
      openNode g (commitFinalizedBlock g node fb fates).node.db fate = (db, some node') →
      Run g genesis (fb :: delivered) node'

theorem openNode_spec {db db' : NodeDb} {fate : Fate}
    (h : openNode g db fate = (db', some node)) : SameChain db node.db ∧ node.snapshot = none ∧
      ∀ height parent, node.db (.observed height parent) = db (.observed height parent) := by
  unfold openNode at h
  split at h
  · cases h
  split at h
  · cases h
  dsimp only at h
  split at h
  · split at h
    · cases h
    · obtain ⟨rfl, hnode⟩ := Prod.mk.inj h
      obtain ⟨halted, -, rfl⟩ := Option.map_eq_some_iff.mp hnode
      exact ⟨SameChain.refl _, rfl, fun _ _ => rfl⟩
  · split at h
    · cases h
    · obtain ⟨rfl, hnode⟩ := Prod.mk.inj h
      split at hnode
      · cases hnode
        exact ⟨(SameChain.refl db).write (by simp [Edit.key, StoreKey.isDetector]) fate, rfl,
          fun _ _ => write_of_forall_ne (by simp [Edit.key]) fate⟩
      · cases hnode

/-- A node is initialized with a valid state only. -/
theorem initializeGenesis_spec {opened : Node} {genesis : CybouState} {fate : Fate}
    (h : initializeGenesis g opened genesis fate = (.ok .none, node)) :
    StateInvariant genesis ∧
      node = { opened with
        db := opened.db.apply (genesisBatch g (stateRoot genesis) (encodedState genesis))
        snapshot := some genesis } := by
  unfold initializeGenesis at h
  split at h
  · cases h
  split at h
  swap
  · cases h
  next stateHash bytes hhash hbytes =>
  split at h
  · cases h
  dsimp only at h
  split at h
  swap
  · cases h
  next hdone =>
  cases h
  have hvalid : StateInvariant genesis := by
    rw [← validateCybouState_eq_none]
    by_contra hinvalid
    rw [serializeCybouState, if_pos ⟨rfl, hinvalid⟩] at hbytes
    cases hbytes
  rw [cybouStateHash_of_invariant hvalid] at hhash
  rw [serializeCybouState_eq_encodedState hvalid] at hbytes
  cases hhash
  cases hbytes
  rw [hdone]
  exact ⟨hvalid, rfl⟩

/-- The run: every node that can be reached stores the chain of blocks delivered to it. -/
theorem Run.consistent {genesis : CybouState} {delivered : List FinalizedBlock}
    (h : Run g genesis delivered node) (hids : IdsDistinct delivered) :
    StateInvariant genesis ∧ ∃ chain head s, chain ⊆ delivered ∧ ConsistentNode g genesis chain head s node := by
  induction h with
  | start hopen hinit =>
    obtain ⟨hgenesis, rfl⟩ := initializeGenesis_spec hinit
    obtain ⟨hsame, -, hobserved⟩ := openNode_spec hopen
    refine ⟨hgenesis, [], ⟨g.genesisAnchor, 0⟩, _, List.Subset.refl _, ?_, ⟨fun height parent => .inl ?_, fun _ => nofun⟩,
      fun _ h => (Option.some.inj h).symm⟩
    swap
    · simp [genesisBatch, Edit.key, Edit.value, hobserved]
    exact
      { canonical := .genesis
        state := by simp [genesisBatch, Edit.key, Edit.value]
        hash := by simp [genesisBatch, Edit.key, Edit.value]
        networkId := by simp [genesisBatch, Edit.key, Edit.value]
        headRecord := by simp [genesisBatch, Edit.key, Edit.value]
        snapshot := by simp [genesisBatch, Edit.key, Edit.value]
        block := by simp
        blockHeight := by simp
        noBlockHeight := fun height _ => by
          simp [genesisBatch, Edit.key, Edit.value, hsame (.blockHeight height) rfl]
        operation := by simp
        noOperation := fun id _ => by
          simp [genesisBatch, Edit.key, Edit.value, hsame (.operation id) rfl]
        parentSnapshot := fun _ => nofun }
  | deliver fb fates _ hfate ih =>
    obtain ⟨hgenesis, chain, head, s, hchain, hnode⟩ := ih (hids.mono (List.subset_cons_self _ _))
    obtain ⟨chain', head', s', hsubset, hstore, hguarded, hcache⟩ :=
      hnode.deliver hgenesis fb fates (hids.mono (List.cons_subset_cons _ hchain))
    exact ⟨hgenesis, chain', head', s', List.Subset.trans hsubset (List.cons_subset_cons _ hchain),
      hstore, hguarded, hcache hfate⟩
  | restart _ hopen ih =>
    obtain ⟨hgenesis, chain, head, s, hchain, hnode⟩ := ih hids
    obtain ⟨hsame, hsnapshot, hobserved⟩ := openNode_spec hopen
    exact ⟨hgenesis, chain, head, s, hchain, hnode.store.sameChain hsame, hnode.detector.congr hobserved,
      by simp [hsnapshot]⟩
  | interrupted fb fates _ hopen ih =>
    obtain ⟨hgenesis, chain, head, s, hchain, hnode⟩ := ih (hids.mono (List.subset_cons_self _ _))
    obtain ⟨chain', head', s', hsubset, hstore, hguarded, -⟩ :=
      hnode.deliver hgenesis fb fates (hids.mono (List.cons_subset_cons _ hchain))
    obtain ⟨hsame, hsnapshot, hobserved⟩ := openNode_spec hopen
    exact ⟨hgenesis, chain', head', s', List.Subset.trans hsubset (List.cons_subset_cons _ hchain),
      hstore.sameChain hsame, hguarded.congr hobserved, by simp [hsnapshot]⟩

/-- **The store is consistent after every call of every run**, and a call that
    returns an error leaves every key of the chain as it was. -/
theorem store_consistent {genesis : CybouState} {delivered : List FinalizedBlock} {node : Node}
    (hrun : Run g genesis delivered node) (hids : IdsDistinct delivered) :
    (∃ chain head s, chain ⊆ delivered ∧ Consistent g genesis chain head s node.db ∧
      (∀ cached ∈ node.snapshot, cached = s) ∧
      serializeCybouState s true = some (encodedState s) ∧ cybouStateHash s true = some (stateRoot s) ∧
      (∀ fb ∈ chain, ∀ id ∈ blockOperationIds fb.block, getFinalizedOperationHeight g node.db id =
        if (finalizedBytes fb).length ≤ MAX_COMPACT_SIZE then some fb.block.height else none) ∧
      ∀ id, (∀ fb ∈ chain, id ∉ blockOperationIds fb.block) →
        getFinalizedOperationHeight g node.db id = none) ∧
    ∀ fb fates result, (commitFinalizedBlock g node fb fates).outcome = .returned result →
      result.error ≠ .none → SameChain node.db (commitFinalizedBlock g node fb fates).node.db := by
  obtain ⟨hgenesis, chain, head, s, hchain, hnode⟩ := hrun.consistent hids
  have hinvariant := hnode.store.canonical.invariant hgenesis
  obtain ⟨hfound, hnone⟩ := hnode.store.getFinalizedOperationHeight
  refine ⟨⟨chain, head, s, hchain, hnode.store, hnode.cache,
    serializeCybouState_eq_encodedState hinvariant true, cybouStateHash_of_invariant hinvariant true,
    hfound, hnone⟩, fun fb fates result hreturned herror => ?_⟩
  obtain ⟨heq | ⟨-, -, heq⟩, -⟩ | ⟨_, _, _, _, -, -, houtcome, -⟩ :=
    commitFinalizedBlock_cases g node fb fates
  · rw [heq]
    exact SameChain.refl _
  · rw [heq]
    exact observe_sameChain _ _ _ _ _
  · rw [houtcome] at hreturned
    split at hreturned
    · cases hreturned
      exact absurd rfl herror
    · cases hreturned

end

section Sample

set_option maxRecDepth 10000

attribute [local instance] Crypto.sample

def sampleNetwork (genesis : CybouState) : VerifiedNetworkGenesis where
  networkBinding := sampleId 200
  genesisAnchor := sampleId 201
  genesisStateRoot := stateRoot genesis
  poaKey := sampleKey .poaFinalizer 9
  params := devProtocolParameters

def samplePoaSignature : IdentityHybridSignature :=
  { ed25519 := FixedBytes.leading 63 1, mlDsa := 1 :: List.replicate 3308 0 }

def certifiedBlock (block : CybouBlock) : FinalizedBlock where
  block := block
  certificate :=
    { networkBinding := sampleId 200, blockId := computeBlockId block, height := block.height
      parentBlockId := block.parentBlockId, signature := samplePoaSignature }

theorem certified_certifiedBlock (genesis : CybouState) {block : CybouBlock}
    (hserialize : serializeBlock block ≠ none) (hheight : block.height ≠ 0)
    (hparent : block.parentBlockId.isNull = false) :
    Certified (sampleNetwork genesis) (certifiedBlock block) := by
  have hid : (computeBlockId block).isNull = false := Crypto.sha256_ne_null _
  have hnetwork : (sampleId 200).isNull = false := by decide
  have hsignature : samplePoaSignature.mlDsa.length = 3309 ∧ isZero samplePoaSignature.mlDsa = false ∧
      isZero samplePoaSignature.ed25519.1 = false := by
    refine ⟨by rw [samplePoaSignature, List.length_cons, List.length_replicate], ?_, by decide⟩
    rw [samplePoaSignature, isZero, List.all_cons]
    rfl
  have hkey : (sampleKey .poaFinalizer 9).mlDsa.length = 1952 ∧
      isZero (sampleKey .poaFinalizer 9).mlDsa = false := by
    constructor
    · rw [sampleKey, List.length_append, List.length_replicate]
      rfl
    · rw [sampleKey, isZero, List.all_append, Bool.and_eq_false_iff]
      exact .inr rfl
  have hvalid : (certifiedBlock block).certificate.validFields = true := by
    simp [PoaFinalityCertificate.validFields, certifiedBlock, hnetwork, hid, hheight, hparent, hsignature]
  refine ⟨rfl, rfl, rfl, ?_⟩
  unfold verifyPoaCertificateForBlock
  rw [if_neg (show ¬serializeBlock (certifiedBlock block).block = none from hserialize),
    if_neg (show ¬(computeBlockId (certifiedBlock block).block).isNull = true by simp [certifiedBlock, hid])]
  unfold verifyPoaFinalityCertificate
  rw [if_neg]
  · rw [verifyIdentityMessage, if_neg]
    · rfl
    · rintro (h | h)
      · exact h hkey.1
      · exact h hsignature.1
  · have hpurpose : (sampleKey .poaFinalizer 9).purpose = .poaFinalizer := rfl
    have hed : isZero (sampleKey .poaFinalizer 9).ed25519.1 = false := by decide
    simp [hvalid, sampleNetwork, hkey, hpurpose, hed]
    simp [certifiedBlock]

theorem run_sampleNetwork {genesis : CybouState} (hgenesis : StateInvariant genesis) :
    ∃ node, Run (sampleNetwork genesis) genesis [] node ∧ node.halted = false ∧
      node.snapshot = some genesis ∧ (∀ height parent, node.db (.observed height parent) = none) ∧
      node.db .detectorHalt = none ∧ ∃ id, computePoaFinalizerKeyId (sampleKey .poaFinalizer 9) = some id ∧
        node.db .detectorMetadata = some (encodeLocalBytes ((sampleId 200).1 ++ id.1)) := by
  have hkey : ∃ id, computePoaFinalizerKeyId (sampleKey .poaFinalizer 9) = some id := by
    have hsome : (computePoaFinalizerKeyId (sampleKey .poaFinalizer 9)).isSome = true := by decide
    exact Option.isSome_iff_exists.mp hsome
  obtain ⟨id, hid⟩ := hkey
  have hnetwork : ¬(sampleId 200).isNull = true := by decide
  let opened : Node :=
    { db := Store.apply (fun _ => none)
        [.put .detectorMetadata (encodeLocalBytes ((sampleId 200).1 ++ id.1))] }
  have hopen : openNode (sampleNetwork genesis) (fun _ => none) .done = (opened.db, some opened) := by
    unfold openNode
    have hid' : computePoaFinalizerKeyId (sampleNetwork genesis).poaKey = some id := hid
    rw [hid']
    dsimp only
    rw [if_neg (show ¬(sampleNetwork genesis).networkBinding.isNull = true from hnetwork)]
    rfl
  have hinit : initializeGenesis (sampleNetwork genesis) opened genesis .done =
      (.ok .none, { opened with
        db := opened.db.apply (genesisBatch (sampleNetwork genesis) (stateRoot genesis) (encodedState genesis))
        snapshot := some genesis }) := by
    unfold initializeGenesis
    rw [if_neg (by simp [opened, Edit.key, Edit.value]), cybouStateHash_of_invariant hgenesis,
      serializeCybouState_eq_encodedState hgenesis]
    dsimp only
    rw [if_neg (show ¬stateRoot genesis ≠ (sampleNetwork genesis).genesisStateRoot from not_not.mpr rfl)]
    rfl
  refine ⟨_, .start hopen hinit, rfl, rfl, fun height parent => ?_, ?_, id, hid, ?_⟩
  · simp [genesisBatch, opened, Edit.key, Edit.value]
  · simp [genesisBatch, opened, Edit.key, Edit.value]
  · simp [genesisBatch, opened, Edit.key, Edit.value]

def firstBlock (operations : List ProtocolOperation) (root : Hash256) : CybouBlock :=
  { parentBlockId := sampleId 201, height := 1, operations, resultingStateRoot := root }

theorem store_consistent_firstBlock :
    ∃ node, Run (sampleNetwork sampleState) sampleState
        [certifiedBlock (firstBlock [] (stateRoot sampleState))] node ∧
      ∃ chain head s, Consistent (sampleNetwork sampleState) sampleState chain head s node.db := by
  obtain ⟨node, hrun, -⟩ := run_sampleNetwork (validateCybouState_eq_none.mp validateCybouState_sampleState)
  have hrun' := Run.deliver (certifiedBlock (firstBlock [] (stateRoot sampleState))) {} hrun (by decide)
  have hids : IdsDistinct [certifiedBlock (firstBlock [] (stateRoot sampleState))] := by
    constructor
    · intro a ha b hb _
      rw [List.mem_singleton.mp ha, List.mem_singleton.mp hb]
    · exact fun a ha => absurd ha (by simp [certifiedBlock, firstBlock])
  obtain ⟨⟨chain, head, s, -, hconsistent, -⟩, -⟩ := store_consistent hrun' hids
  exact ⟨_, hrun', chain, head, s, hconsistent⟩

end Sample

end Cybou
