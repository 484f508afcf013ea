import Cybou.BlockProduction
import Cybou.TipReplacement

/-! # Production after a crash

The journal and the store agree when the journal is at the head of the store or one
intent ahead of it (`Intends`).  A production keeps this, crash or not, as long as it
signs the block that it intends.  A candidate kept in memory is that block; a candidate
made after a crash need not be, and then the journal halts for good
(`journal_recovery`).
-/

namespace Cybou

open Library

/-! ### The journal -/

namespace PoaSigningJournal

variable {j j' : PoaSigningJournal} {db : JournalDb} {fate : Fate}

theorem tipMatches_congr (hanchor : j'.genesisAnchor = j.genesisAnchor) (hhead : j'.head = j.head)
    (height : UInt64) (tip : Hash256) : j'.tipMatches height tip = j.tipMatches height tip := by
  rw [tipMatches, tipMatches, hanchor, hhead]

theorem tipMatches_at (tip : Hash256) (hpositive : j.head.height ≠ 0) :
    j.tipMatches j.head.height tip = true ↔ tip = j.head.blockId := by
  rw [tipMatches, if_neg hpositive, if_pos rfl, decide_eq_true_iff]

variable {height : UInt64} {tip : Hash256}

theorem tipMatches_ahead (hmax : height ≠ UINT64_MAX)
    (hahead : j.head.height = height + 1) : j.tipMatches height tip = true ↔ tip = j.head.parentBlockId := by
  have hsucc := toNat_succ_of_ne_max hmax
  rw [← hahead] at hsucc
  have hpositive : j.head.height ≠ 0 := by
    intro hzero
    rw [hzero] at hsucc
    exact absurd hsucc (by simp)
  have hne : height ≠ j.head.height := by
    intro heq
    rw [← heq] at hsucc
    omega
  rw [tipMatches, if_neg hpositive, if_neg hne, if_pos ⟨hmax, hahead.symm⟩, decide_eq_true_iff]

theorem checkCanonicalTip_of_matches (hrunning : j.halted = false)
    (hmatches : j.tipMatches height tip = true) : j.checkCanonicalTip db height tip fate =
      ⟨.none, { j with verifiedHeight := height, verifiedTip := tip, historyVerified := true }, db⟩ := by
  unfold checkCanonicalTip
  rw [if_neg (by simp [hrunning]), if_pos hmatches]

theorem load_anchor {genesisAnchor : Hash256} {expected metadata : Bytes}
    (h : load genesisAnchor expected metadata db = .ok j) : j.genesisAnchor = genesisAnchor := by
  unfold load at h
  split at h
  · cases h
  split at h
  · cases h
  split at h
  · cases h
  split at h
  · cases h
  split at h
  · split at h
    · obtain rfl := Except.ok.inj h
      rfl
    · cases h
  · split at h
    · cases h
    · obtain rfl := Except.ok.inj h
      rfl

theorem construct_anchor {id : JournalIdentity} {db' : JournalDb} (h : construct id db fate = (db', .ok j)) :
    j.genesisAnchor = id.genesisAnchor := by
  replace h : (construct id db fate).2 = .ok j := by rw [h]
  unfold construct at h
  split at h
  · cases h
  split at h
  · cases h
  dsimp only at h
  split at h
  · exact load_anchor h
  split at h
  · cases h
  dsimp only at h
  split at h
  · obtain rfl := Except.ok.inj h
    rfl
  · cases h

variable {next : PoaJournalHead}

theorem prepareToSign_halt (hagrees : next.height = j.head.height → next = j.head) :
    (j.prepareToSign db next fate).db .halt = db .halt := by
  unfold prepareToSign
  by_cases hhalted : j.halted = true
  · rw [if_pos hhalted]
  by_cases hverified : (!j.historyVerified) = true
  · rw [if_neg hhalted, if_pos hverified]
  rw [if_neg hhalted, if_neg hverified]
  by_cases hrequest : next.height = 0 ∨ Hash256.isNull next.parentBlockId = true ∨
      Hash256.isNull next.blockId = true
  · rw [if_pos hrequest]
  rw [if_neg hrequest]
  by_cases hheight : next.height = j.head.height
  · have hsame := hagrees hheight
    rw [if_pos hheight, if_pos ⟨congrArg _ hsame, congrArg _ hsame⟩]
  rw [if_neg hheight]
  have hother : db.write [.put .head (encodeLocalBytes (encodeHead next))] fate .halt = db .halt :=
    JournalDb.write_of_ne (by decide)
  split
  · rfl
  split
  · rfl
  split
  · rfl
  dsimp only
  split
  · exact hother
  · exact hother

/-- What a journal that is not contradicted leaves: the intent it had or the new one. -/
structure Prepared (j : PoaSigningJournal) (db : JournalDb) (next : PoaJournalHead) (reply : Reply)
    (intent : PoaJournalHead) : Prop where
  anchor : reply.journal.genesisAnchor = j.genesisAnchor
  durable : (intent = j.head ∧ reply.db .head = db .head) ∨
    (intent = next ∧ next.WellFormed ∧ reply.db .head = some (encodeLocalBytes (encodeHead next)))
  cached : reply.journal.halted = false → reply.journal.head = intent
  permitted : reply.status = .none ∨ reply.status = .alreadyPrepared → intent = next

theorem prepareToSign_prepared (j : PoaSigningJournal) (db : JournalDb) (next : PoaJournalHead) (fate : Fate) :
    ∃ intent, Prepared j db next (j.prepareToSign db next fate) intent := by
  have houtcome := prepareToSign_outcome j db next fate
  generalize j.prepareToSign db next fate = reply at houtcome
  cases houtcome with
  | refused hnone hagain =>
    refine ⟨j.head, rfl, .inl ⟨rfl, rfl⟩, fun _ => rfl, fun hstatus => ?_⟩
    rcases hstatus with hstatus | hstatus
    · exact absurd hstatus hnone
    · exact absurd hstatus hagain
  | again _ hsame => exact ⟨j.head, rfl, .inl ⟨rfl, rfl⟩, fun _ => rfl, fun _ => hsame.symm⟩
  | conflict =>
    refine ⟨j.head, rfl, .inl ⟨rfl, JournalDb.write_of_ne (by decide)⟩, fun _ => rfl, fun hstatus => ?_⟩
    simp only [persistHalt] at hstatus
    by_cases hfate : fate = .done
    · rw [if_pos hfate] at hstatus
      rcases hstatus with hstatus | hstatus <;> cases hstatus
    · rw [if_neg hfate] at hstatus
      rcases hstatus with hstatus | hstatus <;> cases hstatus
  | advance _ _ _ hwell =>
    cases fate with
    | done =>
      have hwritten : db.write [.put .head (encodeLocalBytes (encodeHead next))] .done .head =
          some (encodeLocalBytes (encodeHead next)) := JournalDb.write_self (by decide)
      exact ⟨next, rfl, .inr ⟨rfl, hwell, hwritten⟩, fun _ => rfl, fun _ => rfl⟩
    | lost => exact ⟨j.head, rfl, .inl ⟨rfl, rfl⟩, by simp, by simp⟩
    | stored =>
      have hwritten : db.write [.put .head (encodeLocalBytes (encodeHead next))] .stored .head =
          some (encodeLocalBytes (encodeHead next)) := JournalDb.write_self (by decide)
      exact ⟨next, rfl, .inr ⟨rfl, hwell, hwritten⟩, by simp, fun _ => rfl⟩

theorem prepareToSign_contradicted (hrunning : j.halted = false)
    (hverified : j.historyVerified = true) (hwell : next.WellFormed) (hpositive : next.height ≠ 0)
    (hheight : next.height = j.head.height) (hdiffers : next.blockId ≠ j.head.blockId) (hfate : fate ≠ .lost) :
    (j.prepareToSign db next fate).db .halt ≠ none := by
  have hparent : ¬next.parentBlockId.isNull = true := fun hnull => hpositive (hwell.2.mpr hnull)
  unfold prepareToSign
  rw [if_neg (by simp [hrunning]), if_neg (by simp [hverified]), if_neg (by simp [hpositive, hparent, hwell.1]),
    if_pos hheight, if_neg fun hsame => hdiffers hsame.2]
  rw [persistHalt]
  dsimp only
  rw [JournalDb.write_self hfate]
  simp

end PoaSigningJournal

section

variable [Crypto] {g : VerifiedNetworkGenesis}

/-! ### Signing -/

structure PoaFinalizer.Signs (journal : PoaSigningJournal) (db : JournalDb) (next : PoaJournalHead)
    (result : PoaSigningResult) (finalizer : PoaFinalizer) (db' : JournalDb) (intent : PoaJournalHead) : Prop where
  anchor : finalizer.journal.genesisAnchor = journal.genesisAnchor
  durable : (intent = journal.head ∧ db' .head = db .head) ∨
    (intent = next ∧ next.WellFormed ∧ db' .head = some (encodeLocalBytes (encodeHead next)))
  cached : finalizer.journal.halted = false → finalizer.journal.head = intent
  certified : result.certificate ≠ none → intent = next

variable {height : UInt64} {tip : Hash256}

theorem PoaFinalizer.signFinality_signs {finalizer : PoaFinalizer}
    (db : JournalDb) (block : CybouBlock) (outcome : ProductionOutcome)
    (hmatches : finalizer.journal.tipMatches height tip = true) :
    ∃ intent, Signs finalizer.journal db (intentOf block)
      (finalizer.signFinality g db height tip block outcome).1
      (finalizer.signFinality g db height tip block outcome).2.1
      (finalizer.signFinality g db height tip block outcome).2.2 intent := by
  have hstay : ∀ status, Signs finalizer.journal db (intentOf block) { status } finalizer db
      finalizer.journal.head :=
    fun status => ⟨rfl, .inl ⟨rfl, rfl⟩, fun _ => rfl, fun hsome => absurd rfl hsome⟩
  unfold signFinality
  split
  · exact ⟨_, hstay _⟩
  split
  · exact ⟨_, hstay _⟩
  next hable =>
    have hrunning : finalizer.journal.halted = false := by
      simpa using fun hhalted => hable (.inr hhalted)
    dsimp only
    rw [PoaSigningJournal.checkCanonicalTip_of_matches hrunning hmatches, if_neg (by simp)]
    dsimp only
    obtain ⟨intent, hprepared⟩ := PoaSigningJournal.prepareToSign_prepared
      { finalizer.journal with verifiedHeight := height, verifiedTip := tip, historyVerified := true } db
      (intentOf block) outcome.journal
    split
    · exact ⟨intent, hprepared.anchor, hprepared.durable, hprepared.cached, fun hsome => absurd rfl hsome⟩
    next hpermitted =>
      refine ⟨intent, hprepared.anchor, hprepared.durable, hprepared.cached, fun _ => hprepared.permitted ?_⟩
      rw [not_and_or, not_not, not_not] at hpermitted
      exact hpermitted

theorem PoaFinalizer.signFinality_halt {finalizer : PoaFinalizer}
    {block : CybouBlock} (db : JournalDb) (outcome : ProductionOutcome)
    (hmatches : finalizer.journal.tipMatches height tip = true)
    (hagrees : block.height = finalizer.journal.head.height → intentOf block = finalizer.journal.head) :
    (finalizer.signFinality g db height tip block outcome).2.2 .halt = db .halt := by
  unfold signFinality
  split
  · rfl
  split
  · rfl
  next hable =>
    have hrunning : finalizer.journal.halted = false := by
      simpa using fun hhalted => hable (.inr hhalted)
    dsimp only
    rw [PoaSigningJournal.checkCanonicalTip_of_matches hrunning hmatches, if_neg (by simp)]
    dsimp only
    split
    · exact PoaSigningJournal.prepareToSign_halt hagrees
    · exact PoaSigningJournal.prepareToSign_halt hagrees

/-! ### Commits -/

variable {db : NodeDb} {head : FinalizedHead} {fb : FinalizedBlock} {state : CybouState}
  {batch : Batch}

theorem planReplacement_height
    (h : planReplacement g db head fb = .write batch state) : head.height = fb.block.height := by
  unfold planReplacement at h
  dsimp only at h
  split at h
  · cases h
  next hheight => exact not_not.mp hheight

theorem finishExtension_head {edits : Batch} {state' : CybouState} (hcert : Certified g fb)
    (h : finishExtension db head fb edits state' = .write batch state) (s : NodeDb) :
    s.apply batch .head = some (encodeFinalizedHead ⟨computeBlockId fb.block, fb.block.height⟩) := by
  have hevents := eventsOf_keys db head hcert.operationIds (fun old (hold : old ∈ none) => absurd hold (by simp))
  rw [finishExtension_eq hcert] at h
  obtain ⟨rfl, -⟩ := Plan.write.inj h
  have hwindow : ∀ e ∈ windowEdits fb.block, e.key ≠ .head := by
    unfold windowEdits
    split <;> simp [Edit.key]
  rw [Store.apply_append, apply_events hevents rfl, Store.apply_append, Store.apply_of_forall_ne hwindow,
    Store.apply_append, apply_indexOperations_of_ne _ _ rfl, Store.apply_append]
  simp [blockEdits, Edit.key, Edit.value]

theorem planExtension_head {loaded : CybouState}
    (hcert : Certified g fb) (h : planExtension g db loaded head fb = .write batch state) (s : NodeDb) :
    s.apply batch .head = some (encodeFinalizedHead ⟨computeBlockId fb.block, fb.block.height⟩) := by
  unfold planExtension at h
  dsimp only at h
  split at h
  · cases h
  split at h
  · cases h
  split at h
  · split at h
    · cases h
    split at h
    · cases h
    split at h
    · cases h
    · exact finishExtension_head hcert h s
  · obtain ⟨state', root, -, h⟩ := executing_eq_write.mp h
    split at h
    · cases h
    split at h
    · cases h
    · exact finishExtension_head hcert h s

/-- **A commit of the next block** leaves the head or moves it there. -/
theorem commitFinalizedBlock_head {node : Node} (fates : CommitFates)
    (hhead : getFinalizedHead node.db = some head) (hnext : head.height < fb.block.height) :
    getFinalizedHead (commitFinalizedBlock g node fb fates).node.db = some head ∨
      getFinalizedHead (commitFinalizedBlock g node fb fates).node.db =
        some ⟨computeBlockId fb.block, fb.block.height⟩ := by
  have hseen : getFinalizedHead (seen g node fb fates).db = some head := by
    rw [getFinalizedHead, seen, observe_sameChain node.halted node.db fb.certificate fb.block fates .head rfl]
    exact hhead
  rcases commitFinalizedBlock_cases g node fb fates with ⟨hdb, -⟩ | ⟨loaded, head', batch, state, hwrites, -, -, hnode⟩
  · rcases hdb with hdb | ⟨-, -, hdb⟩
    · rw [hdb]
      exact .inl hhead
    · rw [hdb]
      exact .inl hseen
  · have hsame := hwrites.reaches.head
    rw [hhead] at hsame
    obtain rfl := Option.some.inj hsame
    rw [hnode]
    have hplan := hwrites.plan
    rw [planOf] at hplan
    by_cases hreorg : (seen g node fb fates).status = .canonicalReorgRequired
    · rw [if_pos hreorg] at hplan
      rw [planReplacement_height hplan] at hnext
      exact absurd hnext (UInt64.lt_irrefl _)
    · rw [if_neg hreorg] at hplan
      exact .inr (getFinalizedHead_encodeFinalizedHead (planExtension_head hwrites.reaches.certified hplan _))

/-! ### The journal and the store -/

namespace ChainCore

variable {core core' : ChainCore} {head : FinalizedHead} {intent : PoaJournalHead}
  {operations : List ProtocolOperation} {outcome : ProductionOutcome}

/-- **The durable intent and the head of the store**, and what the process remembers of
    them. -/
structure Intends (g : VerifiedNetworkGenesis) (core : ChainCore) (head : FinalizedHead)
    (intent : PoaJournalHead) : Prop where
  durable : core.journalDb .head = some (encodeLocalBytes (encodeHead intent))
  fits : intent.Fits (journalIdentity g)
  /-- The journal is at the head or one block ahead of it. -/
  agrees : PoaSigningJournal.tipMatches { genesisAnchor := g.genesisAnchor, head := intent }
    head.height head.blockId = true
  cached : ∀ finalizer, core.poaFinalizer = some finalizer →
    finalizer.journal.genesisAnchor = g.genesisAnchor ∧
      (finalizer.journal.halted = false → finalizer.journal.head = intent)
  /-- A candidate is the intended block, or nothing is intended yet. -/
  candidate : ∀ block, core.productionCandidate = some block → head.height < block.height →
    block.height = head.height + 1 ∧ block.parentBlockId = head.blockId ∧
      (block.height = intent.height → computeBlockId block = intent.blockId)
  finalized : ∀ fb, core.productionFinalized = some fb → core.productionCandidate = some fb.block ∧
    (head.height < fb.block.height → intent = intentOf fb.block)

/-- The journal has not been created. -/
structure Unjournaled (g : VerifiedNetworkGenesis) (core : ChainCore) (head : FinalizedHead) : Prop where
  durable : core.journalDb .head = none
  head : head = ⟨g.genesisAnchor, 0⟩
  finalizer : core.poaFinalizer = none
  candidate : core.productionCandidate = none
  finalized : core.productionFinalized = none

/-- **A node that can go on producing.** -/
structure Recoverable (g : VerifiedNetworkGenesis) (core : ChainCore) : Prop where
  halt : core.journalDb .halt = none
  intends : ∃ head, getFinalizedHead core.store.db = some head ∧
    (core.Unjournaled g head ∨ ∃ intent, core.Intends g head intent)

/-- The intent of an interrupted production, which is one block ahead of the head and no
    longer in memory, and the block that the production is taken up with. -/
def rebuilt (g : VerifiedNetworkGenesis) (core : ChainCore) (operations : List ProtocolOperation) :
    Option (PoaJournalHead × CybouBlock) :=
  match core.beginProduction g with
  | (_, none) => none
  | (begun, some (finalizer, head)) =>
    if finalizer.journal.head.height = head.height + 1 ∧
        (core.productionCandidate.all fun old => decide (old.height ≤ head.height)) = true then
      (newCandidate g begun.store head operations).map fun block => (finalizer.journal.head, block)
    else none

/-- **The condition of a production**: what takes up an interrupted production is the block
    that the journal intends. -/
def Repeats (g : VerifiedNetworkGenesis) (core : ChainCore) (operations : List ProtocolOperation) : Prop :=
  ((core.rebuilt g operations).all fun p => decide (computeBlockId p.2 = p.1.blockId)) = true

instance (operations : List ProtocolOperation) : Decidable (core.Repeats g operations) :=
  inferInstanceAs (Decidable (_ = true))

def AllRepeat (g : VerifiedNetworkGenesis) : ChainCore → List ProductionEvent → Prop
  | _, [] => True
  | core, .produceBlock operations outcome :: events =>
    (core.running = true → core.Repeats g operations) ∧
      AllRepeat g (core.step g (.produceBlock operations outcome)) events
  | core, event :: events => AllRepeat g (core.step g event) events

/-! ### Steps that keep the intent -/

theorem Intends.congr (h : core.Intends g head intent) (hdb : core'.journalDb = core.journalDb)
    (hfinalizer : core'.poaFinalizer = core.poaFinalizer)
    (hcandidate : core'.productionCandidate = core.productionCandidate)
    (hfinalized : core'.productionFinalized = core.productionFinalized) : core'.Intends g head intent := by
  obtain ⟨hdurable, hfits, hagrees, hcached, hblock, hcertified⟩ := h
  constructor
  · rw [hdb]
    exact hdurable
  · exact hfits
  · exact hagrees
  · rw [hfinalizer]
    exact hcached
  · rw [hcandidate]
    exact hblock
  · rw [hfinalized, hcandidate]
    exact hcertified

theorem Unjournaled.congr (h : core.Unjournaled g head) (hdb : core'.journalDb = core.journalDb)
    (hfinalizer : core'.poaFinalizer = core.poaFinalizer)
    (hcandidate : core'.productionCandidate = core.productionCandidate)
    (hfinalized : core'.productionFinalized = core.productionFinalized) : core'.Unjournaled g head :=
  ⟨hdb ▸ h.durable, h.head, hfinalizer ▸ h.finalizer, hcandidate ▸ h.candidate, hfinalized ▸ h.finalized⟩

theorem Recoverable.congr (h : core.Recoverable g) (hstore : core'.store.db = core.store.db)
    (hdb : core'.journalDb = core.journalDb) (hfinalizer : core'.poaFinalizer = core.poaFinalizer)
    (hcandidate : core'.productionCandidate = core.productionCandidate)
    (hfinalized : core'.productionFinalized = core.productionFinalized) : core'.Recoverable g := by
  obtain ⟨hhalt, head, hhead, hcases⟩ := h
  refine ⟨hdb ▸ hhalt, head, hstore ▸ hhead, ?_⟩
  rcases hcases with hnone | ⟨intent, hintends⟩
  · exact .inl (hnone.congr hdb hfinalizer hcandidate hfinalized)
  · exact .inr ⟨intent, hintends.congr hdb hfinalizer hcandidate hfinalized⟩

/-- The start of a production changes its status at most. -/
structure Begun (core core' : ChainCore) (found : Option (PoaFinalizer × FinalizedHead)) : Prop where
  store : core'.store.db = core.store.db
  journalDb : core'.journalDb = core.journalDb
  poaFinalizer : core'.poaFinalizer = core.poaFinalizer
  candidate : core'.productionCandidate = core.productionCandidate
  finalized : core'.productionFinalized = core.productionFinalized
  found : ∀ finalizer head, found = some (finalizer, head) → core.poaFinalizer = some finalizer ∧
    finalizer.signerEnabled = true ∧ finalizer.journal.halted = false ∧
    getFinalizedHead core.store.db = some head ∧ head.height ≠ UINT64_MAX

theorem begun (g : VerifiedNetworkGenesis) (core : ChainCore) :
    Begun core (core.beginProduction g).1 (core.beginProduction g).2 := by
  unfold beginProduction
  split
  · exact ⟨rfl, rfl, rfl, rfl, rfl, by simp⟩
  split
  · exact ⟨rfl, rfl, rfl, rfl, rfl, by simp⟩
  next finalizer hfinalizer =>
  split
  · exact ⟨rfl, rfl, rfl, rfl, rfl, by simp⟩
  next hsigner =>
  split
  · exact ⟨rfl, rfl, rfl, rfl, rfl, by simp⟩
  next hhalted =>
  split
  · exact ⟨rfl, rfl, rfl, rfl, rfl, by simp⟩
  dsimp only
  split
  · exact ⟨rfl, rfl, rfl, rfl, rfl, by simp⟩
  next head hhead =>
  split
  · exact ⟨rfl, rfl, rfl, rfl, rfl, by simp⟩
  next hmax =>
  refine ⟨rfl, rfl, rfl, rfl, rfl, fun finalizer' head' heq => ?_⟩
  obtain ⟨rfl, rfl⟩ := Prod.mk.inj (Option.some.inj heq)
  rw [not_or] at hhalted
  exact ⟨hfinalizer, by simpa using hsigner, by simpa using hhalted.2, hhead, hmax⟩

theorem dropReached_spec (core : ChainCore) (head : FinalizedHead) :
    (core.dropReached head).store = core.store ∧ (core.dropReached head).journalDb = core.journalDb ∧
      (core.dropReached head).poaFinalizer = core.poaFinalizer ∧
      (((core.dropReached head).productionCandidate = core.productionCandidate ∧
          (core.dropReached head).productionFinalized = core.productionFinalized ∧
          ∀ block, core.productionCandidate = some block → head.height < block.height) ∨
        ((core.dropReached head).productionCandidate = none ∧
          (core.dropReached head).productionFinalized = none ∧
          ∃ block, core.productionCandidate = some block ∧ block.height ≤ head.height)) := by
  unfold dropReached
  cases hcandidate : core.productionCandidate with
  | none =>
    rw [if_neg (by simp)]
    exact ⟨rfl, rfl, rfl, .inl ⟨hcandidate, rfl, by simp⟩⟩
  | some block =>
    by_cases hreached : block.height ≤ head.height
    · rw [if_pos (by simpa using hreached)]
      exact ⟨rfl, rfl, rfl, .inr ⟨rfl, rfl, block, rfl, hreached⟩⟩
    · rw [if_neg (by simpa using hreached)]
      refine ⟨rfl, rfl, rfl, .inl ⟨hcandidate, rfl, fun block' heq => ?_⟩⟩
      obtain rfl := Option.some.inj heq
      exact UInt64.not_le.mp hreached

theorem Intends.finalizer (h : core.Intends g head intent) {finalizer : PoaFinalizer}
    (hanchor : finalizer.journal.genesisAnchor = g.genesisAnchor)
    (hcached : finalizer.journal.halted = false → finalizer.journal.head = intent) :
    Intends g { core with poaFinalizer := some finalizer } head intent := by
  refine ⟨h.durable, h.fits, h.agrees, fun finalizer' heq => ?_, h.candidate, h.finalized⟩
  obtain rfl := Option.some.inj heq
  exact ⟨hanchor, hcached⟩

/-- A running journal of the process caches the durable intent. -/
theorem Intends.running (h : core.Intends g head intent) {finalizer : PoaFinalizer}
    (hfinalizer : core.poaFinalizer = some finalizer) (hrunning : finalizer.journal.halted = false) :
    finalizer.journal.genesisAnchor = g.genesisAnchor ∧ finalizer.journal.head = intent ∧
      finalizer.journal.tipMatches head.height head.blockId = true := by
  obtain ⟨hanchor, hcached⟩ := h.cached finalizer hfinalizer
  refine ⟨hanchor, hcached hrunning, ?_⟩
  rw [← h.agrees]
  exact PoaSigningJournal.tipMatches_congr hanchor (hcached hrunning) _ _

theorem Recoverable.loaded (h : core.Recoverable g) (hhead : getFinalizedHead core.store.db = some head)
    {finalizer : PoaFinalizer} (hfinalizer : core.poaFinalizer = some finalizer) :
    core.journalDb .halt = none ∧ ∃ intent, core.Intends g head intent := by
  obtain ⟨hhalt, head', hhead', hcases⟩ := h
  rw [hhead] at hhead'
  obtain rfl := Option.some.inj hhead'
  rcases hcases with hnone | hintends
  · rw [hnone.finalizer] at hfinalizer
    cases hfinalizer
  · exact ⟨hhalt, hintends⟩

theorem Intends.cleared (h : core.Intends g head intent) (hcandidate : core'.productionCandidate = none)
    (hfinalized : core'.productionFinalized = none) (hdb : core'.journalDb = core.journalDb)
    (hfinalizer : core'.poaFinalizer = core.poaFinalizer) : core'.Intends g head intent := by
  refine ⟨hdb ▸ h.durable, h.fits, h.agrees, hfinalizer ▸ h.cached, fun block heq => ?_, fun fb heq => ?_⟩
  · rw [hcandidate] at heq
    cases heq
  · rw [hfinalized] at heq
    cases heq

theorem Intends.parent (h : core.Intends g head intent) (hmax : head.height ≠ UINT64_MAX)
    (hahead : intent.height = head.height + 1) : intent.parentBlockId = head.blockId :=
  ((PoaSigningJournal.tipMatches_ahead hmax hahead).mp h.agrees).symm

theorem Intends.advance (h : core.Intends g head intent) {fb : FinalizedBlock}
    (hfb : core.productionFinalized = some fb) (hnext : head.height < fb.block.height) :
    core.Intends g ⟨computeBlockId fb.block, fb.block.height⟩ intent := by
  obtain ⟨hcandidate, hintent⟩ := h.finalized fb hfb
  have heq := hintent hnext
  have hpositive : intent.height ≠ 0 := by
    rw [heq]
    intro hzero
    rw [show fb.block.height = 0 from hzero] at hnext
    exact absurd hnext UInt64.not_lt_zero
  refine ⟨h.durable, h.fits, ?_, h.cached, fun block hblock hlt => ?_, fun fb' hfb' => ?_⟩
  · have hat := PoaSigningJournal.tipMatches_at
      (j := { genesisAnchor := g.genesisAnchor, head := intent }) (computeBlockId fb.block) hpositive
    dsimp only at hat
    rw [heq] at hat ⊢
    exact hat.mpr rfl
  · rw [hcandidate] at hblock
    obtain rfl := Option.some.inj hblock
    exact absurd hlt (UInt64.lt_irrefl _)
  · rw [hfb] at hfb'
    obtain rfl := Option.some.inj hfb'
    exact ⟨hcandidate, fun hlt => absurd hlt (UInt64.lt_irrefl _)⟩

/-! ### One production -/

theorem Intends.commitProduced (h : core.Intends g head intent) (hhalt : core.journalDb .halt = none)
    (hhead : getFinalizedHead core.store.db = some head) {fb : FinalizedBlock}
    (hfb : core.productionFinalized = some fb) (hnext : head.height < fb.block.height) (fates : CommitFates) :
    (core.commitProduced g fb fates).1.Recoverable g := by
  have hstart : core.Recoverable g := ⟨hhalt, head, hhead, .inr ⟨intent, h⟩⟩
  unfold ChainCore.commitProduced
  split
  · exact hstart.congr rfl rfl rfl rfl rfl
  dsimp only
  have hcommitted : ∃ head', getFinalizedHead (commitFinalizedBlock g core.store fb fates).node.db = some head' ∧
      core.Intends g head' intent := by
    rcases commitFinalizedBlock_head fates hhead hnext with hsame | hmoved
    · exact ⟨head, hsame, h⟩
    · exact ⟨_, hmoved, h.advance hfb hnext⟩
  obtain ⟨head', hhead', h'⟩ := hcommitted
  have hkept : Recoverable g { core with store := (commitFinalizedBlock g core.store fb fates).node } :=
    ⟨hhalt, head', hhead', .inr ⟨intent, h'.congr rfl rfl rfl rfl⟩⟩
  split
  · exact hkept
  · split
    · exact hkept
    · exact ⟨hhalt, head', hhead', .inr ⟨intent, h'.cleared rfl rfl rfl rfl⟩⟩

variable {block : CybouBlock}

/-- **Signing and committing** the block in memory. -/
theorem Intends.signAndCommit (h : core.Intends g head intent) (hhalt : core.journalDb .halt = none)
    (hhead : getFinalizedHead core.store.db = some head) (hmax : head.height ≠ UINT64_MAX)
    {finalizer : PoaFinalizer} (hfinalizer : core.poaFinalizer = some finalizer)
    (hrunning : finalizer.journal.halted = false)
    (hblock : core.productionCandidate = some block) (hnext : head.height < block.height) :
    (core.signAndCommit g finalizer head block outcome).1.Recoverable g := by
  obtain ⟨hheight, hparent, hagrees⟩ := h.candidate block hblock hnext
  obtain ⟨hanchor, hjournal, hmatches⟩ := h.running hfinalizer hrunning
  have hsame : block.height = finalizer.journal.head.height → intentOf block = finalizer.journal.head := by
    rw [hjournal]
    intro heq
    rw [intentOf, heq, hparent, hagrees heq, ← h.parent hmax (heq ▸ hheight)]
  unfold ChainCore.signAndCommit
  cases hfinalized : core.productionFinalized with
  | some fb =>
    obtain ⟨hcandidate, -⟩ := h.finalized fb hfinalized
    rw [hblock] at hcandidate
    obtain rfl := Option.some.inj hcandidate
    exact h.commitProduced hhalt hhead hfinalized hnext _
  | none =>
    dsimp only
    obtain ⟨intent', hsigns⟩ := PoaFinalizer.signFinality_signs (g := g) core.journalDb block outcome hmatches
    have hhalt' := (PoaFinalizer.signFinality_halt (g := g) core.journalDb outcome hmatches hsame).trans hhalt
    rcases hsign : finalizer.signFinality g core.journalDb head.height head.blockId block outcome with
      ⟨result, finalizer', journalDb⟩
    rw [hsign] at hsigns hhalt'
    dsimp only at hsigns hhalt' ⊢
    have hsucc := toNat_succ_of_ne_max hmax
    rw [← hheight] at hsucc
    have hnextAgrees : PoaSigningJournal.tipMatches { genesisAnchor := g.genesisAnchor, head := intentOf block }
        head.height head.blockId = true :=
      (PoaSigningJournal.tipMatches_ahead hmax hheight).mpr hparent.symm
    have hnextGenesis : (intentOf block).height = 0 → (intentOf block).blockId = (journalIdentity g).genesisAnchor := by
      intro hzero
      rw [show block.height = 0 from hzero] at hsucc
      exact absurd hsucc (by simp)
    -- the intent that the signature leaves
    have hsigned : Intends g { core with poaFinalizer := some finalizer', journalDb } head intent' := by
      have hcached' : ∀ f, some finalizer' = some f → f.journal.genesisAnchor = g.genesisAnchor ∧
          (f.journal.halted = false → f.journal.head = intent') := by
        intro f heq
        obtain rfl := Option.some.inj heq
        exact ⟨hsigns.anchor.trans hanchor, hsigns.cached⟩
      have hcertified : ∀ fb, core.productionFinalized = some fb → core.productionCandidate = some fb.block ∧
          (head.height < fb.block.height → intent' = intentOf fb.block) := by
        rw [hfinalized]
        intro fb heq
        cases heq
      rcases hsigns.durable with ⟨hkept, hdb⟩ | ⟨hintent, hwell, hdb⟩
      · rw [hkept, hjournal] at hcached' hcertified ⊢
        exact ⟨hdb.trans h.durable, h.fits, h.agrees, hcached', h.candidate, hcertified⟩
      · rw [hintent] at hcached' hcertified ⊢
        refine ⟨hdb, ⟨hwell, hnextGenesis⟩, hnextAgrees, hcached', fun block' hblock' _ => ?_, hcertified⟩
        dsimp only at hblock'
        rw [hblock] at hblock'
        obtain rfl := Option.some.inj hblock'
        exact ⟨hheight, hparent, fun _ => rfl⟩
    have hretry : Recoverable g { core with poaFinalizer := some finalizer', journalDb } :=
      ⟨hhalt', head, hhead, .inr ⟨intent', hsigned⟩⟩
    cases hcertificate : result.certificate with
    | none =>
      dsimp only
      split
      · exact hretry.congr rfl rfl rfl rfl hfinalized.symm
      · exact hretry.congr rfl rfl rfl rfl hfinalized.symm
    | some certificate =>
      have hintent := hsigns.certified (by rw [hcertificate]; simp)
      rw [hintent] at hsigned
      have hcertified : Intends g { core with
          poaFinalizer := some finalizer', journalDb, productionFinalized := some { block, certificate } }
          head (intentOf block) := by
        refine ⟨hsigned.durable, hsigned.fits, hsigned.agrees, hsigned.cached, hsigned.candidate, fun fb heq => ?_⟩
        obtain rfl := Option.some.inj heq
        exact ⟨hblock, fun _ => rfl⟩
      exact hcertified.commitProduced hhalt' hhead rfl hnext _

theorem newCandidate_spec {node : Node} (h : newCandidate g node head operations = some block) :
    block.height = head.height + 1 ∧ block.parentBlockId = head.blockId ∧
      (∃ bytes, serializeBlock block = some bytes) := by
  unfold newCandidate at h
  obtain ⟨root, -, h⟩ := Option.bind_eq_some_iff.mp h
  obtain ⟨encoded, hencoded, h⟩ := Option.bind_eq_some_iff.mp h
  rw [Option.ite_none_left_eq_some] at h
  obtain rfl := Option.some.inj h.2
  exact ⟨rfl, rfl, encoded, hencoded⟩

/-- **From the choice of the candidate on.** -/
theorem Intends.choose (h : core.Intends g head intent) (hhalt : core.journalDb .halt = none)
    (hhead : getFinalizedHead core.store.db = some head) (hmax : head.height ≠ UINT64_MAX)
    {finalizer : PoaFinalizer} (hfinalizer : core.poaFinalizer = some finalizer)
    (hrunning : finalizer.journal.halted = false)
    (hrepeats : (∀ old, core.productionCandidate = some old → old.height ≤ head.height) →
      intent.height = head.height + 1 → ∀ block, newCandidate g core.store head operations = some block →
      computeBlockId block = intent.blockId) :
    (match (core.dropReached head).productionCandidate.or
        (newCandidate g (core.dropReached head).store head operations) with
      | none => (core.dropReached head, none)
      | some block => ChainCore.signAndCommit g { core.dropReached head with productionCandidate := some block }
        finalizer head block outcome).1.Recoverable g := by
  obtain ⟨hstore, hdb, hkeep, hcandidate⟩ := dropReached_spec core head
  generalize core.dropReached head = core' at *
  have hsucc := toNat_succ_of_ne_max hmax
  have hintends : core'.Intends g head intent := by
    rcases hcandidate with ⟨hsame, hcertified, -⟩ | ⟨hnone, hcertified, -⟩
    · exact h.congr hdb hkeep hsame hcertified
    · exact h.cleared hnone hcertified hdb hkeep
  rw [← hstore] at hhead hrepeats
  rw [← hdb] at hhalt
  rw [← hkeep] at hfinalizer
  rcases Option.eq_none_or_eq_some core'.productionCandidate with hold | ⟨block, hold⟩
  swap
  · rw [hold, Option.some_or]
    dsimp only
    have hnext : head.height < block.height := by
      rcases hcandidate with ⟨hsame, -, hahead⟩ | ⟨hnone, -⟩
      · exact hahead block (hsame.symm.trans hold)
      · rw [hold] at hnone
        cases hnone
    have hchosen : Intends g { core' with productionCandidate := some block } head intent :=
      hintends.congr rfl rfl hold.symm rfl
    exact hchosen.signAndCommit hhalt hhead hmax hfinalizer hrunning rfl hnext
  · rw [hold, Option.none_or]
    cases hnew : newCandidate g core'.store head operations with
    | none => exact ⟨hhalt, head, hhead, .inr ⟨intent, hintends⟩⟩
    | some block =>
      obtain ⟨hheight, hparent, -⟩ := newCandidate_spec hnew
      have hreached : ∀ old, core.productionCandidate = some old → old.height ≤ head.height := by
        intro old heq
        rcases hcandidate with ⟨hsame, -⟩ | ⟨-, -, block', hblock', hle⟩
        · rw [hsame, heq] at hold
          cases hold
        · rw [heq] at hblock'
          obtain rfl := Option.some.inj hblock'
          exact hle
      have hfinalized : core'.productionFinalized = none := by
        cases hcase : core'.productionFinalized with
        | none => rfl
        | some fb =>
          have hblock := (hintends.finalized fb hcase).1
          rw [hold] at hblock
          cases hblock
      have hchosen : Intends g { core' with productionCandidate := some block } head intent := by
        refine ⟨hintends.durable, hintends.fits, hintends.agrees, hintends.cached, fun block' heq _ => ?_,
          fun fb heq => ?_⟩
        · obtain rfl := Option.some.inj heq
          exact ⟨hheight, hparent, fun hsame => hrepeats hreached (hsame ▸ hheight) block hnew⟩
        · dsimp only at heq
          rw [hfinalized] at heq
          cases heq
      have hnext : head.height < block.height := by
        rw [hheight, UInt64.lt_iff_toNat_lt, hsucc]
        omega
      exact hchosen.signAndCommit hhalt hhead hmax hfinalizer hrunning rfl hnext

/-- The step: a production that repeats the intended block stays recoverable. -/
theorem Recoverable.produceBlock (h : core.Recoverable g) (hrepeats : core.Repeats g operations) :
    (core.produceBlock g operations outcome).1.Recoverable g := by
  have hbegun := begun g core
  unfold ChainCore.produceBlock
  rcases hbegin : core.beginProduction g with ⟨core₁, found⟩
  rw [hbegin] at hbegun
  dsimp only at hbegun
  have h₁ : core₁.Recoverable g :=
    h.congr hbegun.store hbegun.journalDb hbegun.poaFinalizer hbegun.candidate hbegun.finalized
  cases found with
  | none => exact h₁
  | some pair =>
    obtain ⟨finalizer, head⟩ := pair
    obtain ⟨hfinalizer, hsigner, hrunning, hhead, hmax⟩ := hbegun.found finalizer head rfl
    rw [← hbegun.store] at hhead
    rw [← hbegun.poaFinalizer] at hfinalizer
    obtain ⟨hhalt, intent, hintends⟩ := h₁.loaded hhead hfinalizer
    obtain ⟨hanchor, hjournal, hmatches⟩ := hintends.running hfinalizer hrunning
    dsimp only
    rw [PoaSigningJournal.checkCanonicalTip_of_matches hrunning hmatches, if_neg (by simp)]
    have hverified : Intends g { core₁ with poaFinalizer := some { finalizer with journal :=
        { finalizer.journal with
          verifiedHeight := head.height, verifiedTip := head.blockId, historyVerified := true } } } head intent :=
      hintends.finalizer hanchor fun _ => hjournal
    refine hverified.choose hhalt hhead hmax rfl hrunning fun hreached hahead block hnew => ?_
    have hold : (core.productionCandidate.all fun old => decide (old.height ≤ head.height)) = true := by
      rw [← hbegun.candidate, Option.all_eq_true]
      intro old heq
      exact decide_eq_true (hreached old heq)
    rw [Repeats, rebuilt, hbegin] at hrepeats
    dsimp only at hrepeats
    rw [hjournal, if_pos ⟨hahead, hold⟩, hnew] at hrepeats
    exact of_decide_eq_true hrepeats

/-! ### Runs -/

theorem Recoverable.mapFinalizer (h : core.Recoverable g) {f : PoaFinalizer → PoaFinalizer}
    (hf : ∀ finalizer, (f finalizer).journal = finalizer.journal) :
    Recoverable g { core with poaFinalizer := core.poaFinalizer.map f } := by
  obtain ⟨hhalt, head, hhead, hcases⟩ := h
  refine ⟨hhalt, head, hhead, ?_⟩
  rcases hcases with hnone | ⟨intent, hintends⟩
  · exact .inl ⟨hnone.durable, hnone.head, by rw [hnone.finalizer]; rfl, hnone.candidate, hnone.finalized⟩
  · refine .inr ⟨intent, hintends.durable, hintends.fits, hintends.agrees, fun finalizer heq => ?_,
      hintends.candidate, hintends.finalized⟩
    obtain ⟨old, hold, rfl⟩ := Option.map_eq_some_iff.mp heq
    rw [hf old]
    exact hintends.cached old hold

/-- A restart reads the intent back. -/
theorem Recoverable.constructFinalizer (h : core.Recoverable g) (fate : Fate) :
    (core.constructFinalizer g fate).Recoverable g := by
  unfold ChainCore.constructFinalizer
  cases hfinalizer : core.poaFinalizer with
  | some finalizer => exact h
  | none =>
    obtain ⟨hhalt, head, hhead, hcases⟩ := h
    obtain ⟨hdb, hopened⟩ := PoaSigningJournal.construct_cases (journalIdentity g) core.journalDb fate
    rcases hconstruct : PoaSigningJournal.construct (journalIdentity g) core.journalDb fate with ⟨journalDb, result⟩
    rw [hconstruct] at hdb hopened
    dsimp only at hdb hopened ⊢
    have hhalt' : journalDb .halt = none := by
      rcases hdb with rfl | ⟨-, -, -, hnone, -⟩
      · exact hhalt
      · exact hnone
    -- the journal that the constructor leaves, before its object is kept
    have hleft : Recoverable g { core with journalDb } := by
      refine ⟨hhalt', head, hhead, ?_⟩
      rcases hdb with rfl | ⟨hempty, -, hfits, -, hwritten⟩
      · exact hcases
      · rcases hcases with hnone | ⟨intent, hintends⟩
        · refine .inr ⟨genesisHead (journalIdentity g), hwritten, hfits, ?_, ?_, ?_, ?_⟩
          · rw [hnone.head]
            simp [PoaSigningJournal.tipMatches, genesisHead]
          · simp [hfinalizer]
          · simp [hnone.candidate]
          · simp [hnone.finalized]
        · rw [hintends.durable] at hempty
          cases hempty
    cases result with
    | error fault => exact hleft.congr rfl rfl hfinalizer.symm rfl rfl
    | ok journal =>
      dsimp only
      split
      · exact hleft.congr rfl rfl hfinalizer.symm rfl rfl
      · obtain ⟨-, hfits, hread⟩ := hopened journal rfl
        have hanchor : journal.genesisAnchor = g.genesisAnchor :=
          PoaSigningJournal.construct_anchor hconstruct
        obtain ⟨-, head', hhead', hcases'⟩ := hleft
        refine ⟨hhalt', head', hhead', .inr ?_⟩
        rcases hcases' with hnone | ⟨intent, hintends⟩
        · have hempty : journalDb .head = none := hnone.durable
          rw [readBytes, hempty] at hread
          cases hread
        · have hdurable : readBytes journalDb .head = some (encodeHead intent) := readBytes_head hintends.durable
          rw [hread] at hdurable
          have hsame := encodeHead_inj hfits.wellFormed hintends.fits.wellFormed (Option.some.inj hdurable)
          exact ⟨intent, hintends.finalizer hanchor fun _ => hsame⟩

theorem Recoverable.enablePoaSigner (h : core.Recoverable g) (key : Option IdentityHybridPublicKey) (fate : Fate) :
    (core.enablePoaSigner g key fate).Recoverable g := by
  have hconstructed := h.constructFinalizer fate
  unfold ChainCore.enablePoaSigner
  generalize core.constructFinalizer g fate = core' at *
  dsimp only
  split
  · exact hconstructed
  · exact hconstructed.mapFinalizer fun finalizer => by split <;> rfl

theorem openNode_sameChain (db : NodeDb) (fate : Fate) : SameChain db (openNode g db fate).1 := by
  unfold openNode
  split
  · exact SameChain.refl db
  split
  · exact SameChain.refl db
  dsimp only
  split
  · split
    · exact SameChain.refl db
    · exact SameChain.refl db
  · split
    · exact SameChain.refl db
    · exact (SameChain.refl db).write (by simp [Edit.key, StoreKey.isDetector]) fate

theorem Recoverable.restart (h : core.Recoverable g) (fate : Fate) : (core.restart g fate).Recoverable g := by
  obtain ⟨hhalt, head, hhead, hcases⟩ := h
  have hforgets : ∀ core' : ChainCore, SameChain core.store.db core'.store.db → core'.journalDb = core.journalDb →
      core'.poaFinalizer = none → core'.productionCandidate = none → core'.productionFinalized = none →
      core'.Recoverable g := by
    intro core' hchain hdb hfinalizer hcandidate hfinalized
    refine ⟨hdb ▸ hhalt, head, ?_, ?_⟩
    · rw [getFinalizedHead, hchain .head rfl]
      exact hhead
    · rcases hcases with hnone | ⟨intent, hintends⟩
      · exact .inl ⟨hdb ▸ hnone.durable, hnone.head, hfinalizer, hcandidate, hfinalized⟩
      · exact .inr ⟨intent, hdb ▸ hintends.durable, hintends.fits, hintends.agrees, by simp [hfinalizer],
          by simp [hcandidate], by simp [hfinalized]⟩
  unfold ChainCore.restart
  rcases hopen : openNode g core.store.db fate with ⟨db, _ | store⟩
  · have hchain := openNode_sameChain (g := g) core.store.db fate
    rw [hopen] at hchain
    exact hforgets _ hchain rfl rfl rfl rfl
  · exact hforgets _ (openNode_spec hopen).1 rfl rfl rfl rfl

theorem Recoverable.step (h : core.Recoverable g) {event : ProductionEvent}
    (hrepeats : ∀ operations outcome, event = .produceBlock operations outcome → core.running = true →
      core.Repeats g operations) : (core.step g event).Recoverable g := by
  cases event with
  | produceBlock operations outcome =>
    rw [ChainCore.step]
    split
    next hrunning => exact h.produceBlock (hrepeats operations outcome rfl hrunning)
    next => exact h
  | enablePoaSigner key fate =>
    rw [ChainCore.step]
    split
    · exact h.enablePoaSigner key fate
    · exact h
  | disablePoaSigner =>
    rw [ChainCore.step]
    split
    · exact h.mapFinalizer fun _ => rfl
    · exact h
  | restart fate => exact h.restart fate

theorem Recoverable.run (h : core.Recoverable g) {events : List ProductionEvent}
    (hrepeats : core.AllRepeat g events) : (core.run g events).Recoverable g := by
  induction events generalizing core with
  | nil => exact h
  | cons event events ih =>
    cases event with
    | produceBlock operations outcome =>
      refine ih (h.step fun operations' outcome' heq => ?_) hrepeats.2
      obtain ⟨rfl, rfl⟩ := ProductionEvent.produceBlock.inj heq
      exact hrepeats.1
    | enablePoaSigner key fate => exact ih (h.step (by simp)) hrepeats
    | disablePoaSigner => exact ih (h.step (by simp)) hrepeats
    | restart fate => exact ih (h.step (by simp)) hrepeats

/-! ### A production that does not repeat -/

theorem commitProduced_journalDb (core : ChainCore) (fb : FinalizedBlock) (fates : CommitFates) :
    (core.commitProduced g fb fates).1.journalDb = core.journalDb := by
  unfold ChainCore.commitProduced
  split
  · rfl
  dsimp only
  split
  · rfl
  · split
    · rfl
    · rfl

theorem signAndCommit_journalDb {finalizer : PoaFinalizer} (hfinalized : core.productionFinalized = none) :
    (core.signAndCommit g finalizer head block outcome).1.journalDb =
      (finalizer.signFinality g core.journalDb head.height head.blockId block outcome).2.2 := by
  unfold ChainCore.signAndCommit
  rw [hfinalized]
  dsimp only
  split
  · split
    · rfl
    · rfl
  · exact commitProduced_journalDb _ _ _

theorem signAndCommit_halts {finalizer : PoaFinalizer} (hfinalized : core.productionFinalized = none)
    (hhalt : (finalizer.signFinality g core.journalDb head.height head.blockId block outcome).2.2 .halt ≠ none) :
    (core.signAndCommit g finalizer head block outcome).1.journalDb .halt ≠ none := by
  rw [signAndCommit_journalDb hfinalized]
  exact hhalt

theorem Intends.dropReached (h : core.Intends g head intent)
    (hreached : ∀ old, core.productionCandidate = some old → old.height ≤ head.height) :
    (core.dropReached head).productionCandidate = none ∧ (core.dropReached head).productionFinalized = none := by
  obtain ⟨-, -, -, hcandidate⟩ := dropReached_spec core head
  rcases hcandidate with ⟨hsame, hcertified, hlt⟩ | ⟨hcleared, hcertified, -⟩
  · have hempty : core.productionCandidate = none := by
      cases hcase : core.productionCandidate with
      | none => rfl
      | some old => exact absurd (hlt old hcase) (UInt64.not_lt.mpr (hreached old hcase))
    refine ⟨hsame.trans hempty, hcertified.trans ?_⟩
    cases hcase : core.productionFinalized with
    | none => rfl
    | some fb =>
      have hblock := (h.finalized fb hcase).1
      rw [hempty] at hblock
      cases hblock
  · exact ⟨hcleared, hcertified⟩

theorem signFinality_contradicted {finalizer : PoaFinalizer} {db : JournalDb} {bytes : Bytes}
    (hserialize : serializeBlock block = some bytes) (hsigner : finalizer.signerEnabled = true)
    (hrunning : finalizer.journal.halted = false)
    (hmatches : finalizer.journal.tipMatches head.height head.blockId = true)
    (hparent : block.parentBlockId.isNull = false) (hpositive : block.height ≠ 0)
    (hheight : block.height = finalizer.journal.head.height)
    (hdiffers : computeBlockId block ≠ finalizer.journal.head.blockId) (hfate : outcome.journal ≠ .lost) :
    (finalizer.signFinality g db head.height head.blockId block outcome).2.2 .halt ≠ none := by
  have hid : (computeBlockId block).isNull = false := Crypto.sha256_ne_null _
  have hwell : (intentOf block).WellFormed := by
    refine ⟨hid, fun hzero => absurd hzero hpositive, fun hnull => ?_⟩
    rw [show (intentOf block).parentBlockId = block.parentBlockId from rfl, hparent] at hnull
    cases hnull
  unfold PoaFinalizer.signFinality
  rw [if_neg (by simp [hserialize, hid]), if_neg (by simp [hsigner, hrunning])]
  dsimp only
  rw [PoaSigningJournal.checkCanonicalTip_of_matches hrunning hmatches, if_neg (by simp)]
  dsimp only
  let verified : PoaSigningJournal := { finalizer.journal with
    verifiedHeight := head.height, verifiedTip := head.blockId, historyVerified := true }
  have hhalt : (verified.prepareToSign db (intentOf block) outcome.journal).db .halt ≠ none :=
    PoaSigningJournal.prepareToSign_contradicted hrunning rfl hwell hpositive hheight hdiffers hfate
  split
  · exact hhalt
  · exact hhalt

/-- **A production that takes up another block halts the journal**, and for good unless
    the record is lost. -/
theorem Recoverable.produceBlock_halts (h : core.Recoverable g) (hrepeats : ¬core.Repeats g operations)
    (hfate : outcome.journal ≠ .lost) : (core.produceBlock g operations outcome).1.journalDb .halt ≠ none := by
  have hbegun := begun g core
  unfold ChainCore.produceBlock
  unfold Repeats rebuilt at hrepeats
  rcases hbegin : core.beginProduction g with ⟨core₁, found⟩
  rw [hbegin] at hbegun hrepeats
  dsimp only at hbegun
  cases found with
  | none => exact absurd rfl hrepeats
  | some pair =>
  obtain ⟨finalizer, head⟩ := pair
  dsimp only at hrepeats
  by_cases hinterrupted : finalizer.journal.head.height = head.height + 1 ∧
      (core.productionCandidate.all fun old => decide (old.height ≤ head.height)) = true
  swap
  · rw [if_neg hinterrupted] at hrepeats
    exact absurd rfl hrepeats
  rw [if_pos hinterrupted] at hrepeats
  obtain ⟨hahead, hold⟩ := hinterrupted
  cases hnew : newCandidate g core₁.store head operations with
  | none =>
    rw [hnew] at hrepeats
    exact absurd rfl hrepeats
  | some block =>
  have hdiffers : computeBlockId block ≠ finalizer.journal.head.blockId := by
    intro heq
    rw [hnew] at hrepeats
    exact hrepeats (decide_eq_true heq)
  obtain ⟨hfinalizer, hsigner, hrunning, hhead, hmax⟩ := hbegun.found finalizer head rfl
  obtain ⟨-, intent, hintends⟩ := h.loaded hhead hfinalizer
  obtain ⟨hanchor, hjournal, hmatches⟩ := hintends.running hfinalizer hrunning
  dsimp only
  rw [PoaSigningJournal.checkCanonicalTip_of_matches hrunning hmatches, if_neg (by simp)]
  dsimp only
  -- what the process remembers has been reached by the head
  have hverified : Intends g { core₁ with poaFinalizer := some { finalizer with journal :=
      { finalizer.journal with
        verifiedHeight := head.height, verifiedTip := head.blockId, historyVerified := true } } } head intent := by
    have hkept : core₁.Intends g head intent :=
      hintends.congr hbegun.journalDb hbegun.poaFinalizer hbegun.candidate hbegun.finalized
    exact hkept.finalizer hanchor fun _ => hjournal
  have hreached : ∀ old, core₁.productionCandidate = some old → old.height ≤ head.height := by
    intro old heq
    rw [hbegun.candidate] at heq
    rw [heq] at hold
    exact of_decide_eq_true hold
  obtain ⟨hstore, -⟩ := dropReached_spec { core₁ with poaFinalizer := some { finalizer with journal :=
      { finalizer.journal with
        verifiedHeight := head.height, verifiedTip := head.blockId, historyVerified := true } } } head
  have hnone := hverified.dropReached hreached
  generalize ChainCore.dropReached _ head = core₂ at *
  rw [hnone.1, Option.none_or, hstore]
  dsimp only
  rw [hnew]
  dsimp only
  obtain ⟨hheight, hparent, bytes, hserialize⟩ := newCandidate_spec hnew
  have hsucc := toNat_succ_of_ne_max hmax
  rw [← hheight] at hsucc
  have hpositive : block.height ≠ 0 := by
    intro hzero
    rw [hzero] at hsucc
    exact absurd hsucc (by simp)
  have hnotNull : block.parentBlockId.isNull = false := by
    have hintentParent := hintends.parent hmax (hjournal ▸ hahead)
    rw [hparent, ← hintentParent, Bool.eq_false_iff]
    intro hnull
    have hzero := hintends.fits.wellFormed.2.mpr hnull
    rw [← hjournal, hahead, ← hheight] at hzero
    exact hpositive hzero
  refine signAndCommit_halts hnone.2 (signFinality_contradicted hserialize hsigner hrunning ?_ hnotNull hpositive
    (hheight.trans hahead.symm) hdiffers hfate)
  exact (PoaSigningJournal.tipMatches_congr rfl rfl _ _).trans hmatches

/-- **When the journal survives.**  In every run of productions, crashes and restarts whose
    productions meet the condition, the journal is not halted for good; and the next
    production halts it as soon as it does not meet the condition. -/
theorem journal_recovery {start : ChainCore} {events : List ProductionEvent} (hstart : start.Recoverable g)
    (hrepeats : start.AllRepeat g events) :
    (start.run g events).journalDb .halt = none ∧
      ∀ operations outcome, (start.run g events).running = true →
        ¬(start.run g events).Repeats g operations → outcome.journal ≠ .lost →
        ((start.run g events).step g (.produceBlock operations outcome)).journalDb .halt ≠ none := by
  have hreached := hstart.run hrepeats
  refine ⟨hreached.halt, fun operations outcome hrunning hdiffers hfate => ?_⟩
  rw [ChainCore.step, if_pos hrunning]
  exact hreached.produceBlock_halts hdiffers hfate

end ChainCore

end

section Sample

attribute [local instance] Crypto.sample

/-- The store of the sample network right after its genesis, without a journal. -/
def sampleCore : ChainCore where
  store :=
    { db := Store.apply (fun _ => none) (genesisBatch (sampleNetwork idleState) (stateRoot idleState)
        (encodedState idleState)) }
  journalDb _ := none

def lockedSigner : ProductionOutcome := { signature := none }

/-- A production is interrupted behind its intent, and the node is started again. -/
def interruptedProduction : List ProductionEvent :=
  [.enablePoaSigner (some (sampleNetwork idleState).poaKey) .done,
    .produceBlock [.storageSettlement sampleClock] lockedSigner, .restart .done,
    .enablePoaSigner (some (sampleNetwork idleState).poaKey) .done]

theorem sampleCore_recoverable : sampleCore.Recoverable (sampleNetwork idleState) := by
  refine ⟨rfl, sampleHead, ?_, .inl ⟨rfl, rfl, rfl, rfl, rfl⟩⟩
  refine getFinalizedHead_encodeFinalizedHead ?_
  simp [sampleCore, genesisBatch, Edit.key, Edit.value, sampleHead, sampleNetwork]

theorem interruptedProduction_evaluated :
    ((sampleCore.run (sampleNetwork idleState) interruptedProduction).running = true ∧
      (sampleCore.run (sampleNetwork idleState) interruptedProduction).Repeats (sampleNetwork idleState)
        [.storageSettlement sampleClock] ∧
      ¬(sampleCore.run (sampleNetwork idleState) interruptedProduction).Repeats (sampleNetwork idleState) []) ∧
    (sampleCore.run (sampleNetwork idleState)
      (interruptedProduction ++ [.produceBlock [] lockedSigner])).journalDb .halt ≠ none := by
  decide +kernel

theorem interruptedProduction_repeats :
    sampleCore.AllRepeat (sampleNetwork idleState) interruptedProduction := by
  refine ⟨fun _ => ?_, trivial⟩
  decide +kernel

/-- The pool is empty after the crash, and the journal halts for good. -/
theorem journal_not_recovered : ¬∀ events : List ProductionEvent,
    (sampleCore.run (sampleNetwork idleState) events).journalDb .halt = none :=
  fun hall => interruptedProduction_evaluated.2 (hall _)

theorem journal_recovery_sample :
    (sampleCore.run (sampleNetwork idleState) interruptedProduction).journalDb .halt = none ∧
      ((sampleCore.run (sampleNetwork idleState) interruptedProduction).step (sampleNetwork idleState)
        (.produceBlock [] lockedSigner)).journalDb .halt ≠ none := by
  obtain ⟨hhalt, hnext⟩ := ChainCore.journal_recovery sampleCore_recoverable interruptedProduction_repeats
  obtain ⟨hrunning, -, hdiffers⟩ := interruptedProduction_evaluated.1
  exact ⟨hhalt, hnext [] lockedSigner hrunning hdiffers (by decide)⟩

end Sample

end Cybou
