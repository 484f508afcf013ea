import Cybou.EventIndex
import Cybou.SettlementRuns
import Cybou.TipReplacement

/-! # The event index is what a rebuild would write

Along any run the index either has no marker, or its marker names the head and
its rows are those of the canonical chain (`Indexed`).  An extension adds the rows
of one block.  A replacement erases the rows of the tip before it writes its own,
and no block below the tip loses a row by that: operation ids do not repeat along
a chain, and neither do the key epochs of an account.
-/

namespace Cybou

open Library

section

variable [Crypto] {g : VerifiedNetworkGenesis}

/-! ### Key epochs -/

def KemUsed (s : CybouState) (account : AccountId) (epoch : UInt64) : Prop :=
  ∃ record, s.identities.find account = some record ∧ epoch ≤ record.keyEpoch

/-- Epochs once used stay used. -/
def KemGrows (s s' : CybouState) : Prop :=
  ∀ account epoch, KemUsed s account epoch → KemUsed s' account epoch

variable {s s' genesis : CybouState}

theorem KemGrows.of_identities (h : s'.identities = s.identities) : KemGrows s s' := by
  intro account epoch hused
  rw [KemUsed, h]
  exact hused

variable {account : AccountId}

theorem KemGrows.of_set {record : IdentityRecord}
    (hset : s'.identities.accounts = s.identities.accounts.set account record)
    (hold : ∀ old, s.identities.find account = some old → old.keyEpoch ≤ record.keyEpoch) :
    KemGrows s s' := by
  intro account' epoch hused
  obtain ⟨old, hfind, hle⟩ := hused
  by_cases hid : account' = account
  · subst hid
    refine ⟨record, ?_, UInt64.le_trans hle (hold old hfind)⟩
    rw [IdentityRegistry.find, hset, OrdMap.find?_set_self]
  · refine ⟨old, ?_, hle⟩
    rw [IdentityRegistry.find, hset, OrdMap.find?_set_of_ne _ _ hid]
    exact hfind

variable {ctx : BlockContext} {operation : ProtocolOperation}

/-- **An operation that publishes keys uses an epoch of its account for the first
    time.** -/
theorem Dispatched.kemUsed (h : Dispatched ctx operation s s') : KemGrows s s' ∧
      ∀ account epoch, kemKey operation = some (.eventsKem account epoch) →
        ¬KemUsed s account epoch ∧ KemUsed s' account epoch := by
  cases operation with
  | accountCreate op =>
    obtain ⟨-, -, hidentities, -⟩ := AccountCreateDone.keeps h
    obtain ⟨hfresh, record, hset⟩ := accounts_register (AccountCreateDone.registered h)
    rw [← hidentities] at hset
    refine ⟨KemGrows.of_set hset ?_, ?_⟩
    · intro old hold
      cases hfresh.symm.trans hold
    · intro account epoch hkey
      cases hkey
      refine ⟨?_, record, ?_, UInt64.le_iff_toNat_le.mpr (Nat.zero_le _)⟩
      · intro hused
        obtain ⟨old, hold, -⟩ := hused
        cases hfresh.symm.trans hold
      · rw [IdentityRegistry.find, hset, OrdMap.find?_set_self]
  | identityRotate op =>
    obtain ⟨hok, rfl⟩ := h
    rcases s.identities.toRegistryMaps.rotateIdentity_cases op ctx.networkBinding with ⟨e, he, heq⟩ |
      ⟨record, _, _, _, _, hrecord, -, hepoch, -, hmax, -, -, -, -, -, -, heq⟩
    · exact absurd ((congrArg Prod.fst heq).symm.trans hok) he
    have hset := congrArg (fun r => r.2.accounts) heq
    have hlt : record.keyEpoch < op.keyEpoch := hepoch ▸ lt_add_one_of_ne_max hmax
    refine ⟨KemGrows.of_set hset ?_, ?_⟩
    · intro old hold
      cases hrecord.symm.trans hold
      exact UInt64.le_of_lt hlt
    · intro account epoch hkey
      cases hkey
      refine ⟨?_, _, (congrArg (·.find? op.accountId) hset).trans (OrdMap.find?_set_self ..), UInt64.le_refl _⟩
      intro hused
      obtain ⟨old, hold, hle⟩ := hused
      cases hrecord.symm.trans hold
      exact UInt64.lt_irrefl _ (UInt64.lt_of_lt_of_le hlt hle)
  | storageSettlement op => exact ⟨KemGrows.of_identities (SettlementDone.identities h), fun _ _ hkey => by cases hkey⟩
  | payment op | systemLock op | nameCommit op | nameReveal op | rootPublication op
  | revokePublication op | storageLease op =>
    refine ⟨?_, fun _ _ hkey => by cases hkey⟩
    obtain ⟨hok, hidentities⟩ := h.authorized rfl
    rcases s.identities.toRegistryMaps.authorizeOperation_cases op.authorization ctx.networkBinding with
      ⟨e, he, heq⟩ | ⟨record, digest, hrecord, -, -, -, -, -, heq⟩
    · exact absurd ((congrArg Prod.fst heq).symm.trans hok) he
    have hset : s'.identities.accounts = s.identities.accounts.set op.authorization.accountId
        { record with nonce := record.nonce + 1 } := by
      rw [hidentities]
      exact congrArg (fun r => r.2.accounts) heq
    refine KemGrows.of_set hset ?_
    intro old hold
    cases hrecord.symm.trans hold
    exact UInt64.le_refl _

theorem Recorded.identities (h : Recorded ctx operation s s') : s'.identities = s.identities := by
  cases operation with
  | rootPublication op =>
    obtain ⟨id, -, -, -, -, rfl⟩ := h
    rfl
  | accountCreate | payment | identityRotate | systemLock | nameCommit | nameReveal
  | revokePublication | storageLease | storageSettlement =>
    cases h
    rfl

theorem KemGrows.expireCommits (ctx : BlockContext) (s : CybouState) : KemGrows s (expireCommits ctx s) := by
  refine KemGrows.of_identities ?_
  unfold Cybou.expireCommits
  split <;> rfl

variable {total : Nat}

theorem Accepts.kemUsed (htotal : total < 2 ^ 64 - 1) (hkept : SupplyKept total s)
    (h : Accepts ctx operation s s') : SupplyKept total s' ∧ KemGrows s s' ∧
      ∀ account epoch, kemKey operation = some (.eventsKem account epoch) →
        ¬KemUsed s account epoch ∧ KemUsed s' account epoch := by
  obtain ⟨hkept', -⟩ := h.spends htotal hkept
  obtain ⟨s₁, hstep⟩ := h.step (hkept.total_eq ▸ htotal) hkept.funds
  have hlast := KemGrows.of_identities hstep.recorded.identities
  obtain ⟨hgrows, hkem⟩ := hstep.done.kemUsed
  refine ⟨hkept', ?_, ?_⟩
  · intro account epoch hused
    exact hlast account epoch (hgrows account epoch hused)
  · intro account epoch hkey
    obtain ⟨hunused, hused⟩ := hkem account epoch hkey
    exact ⟨hunused, hlast account epoch hused⟩

variable {operations : List ProtocolOperation}

theorem Trace.kemKey_notMem {epoch : UInt64} (htotal : total < 2 ^ 64 - 1) (h : Trace s operations s')
    (hkept : SupplyKept total s) (hused : KemUsed s account epoch) :
    .eventsKem account epoch ∉ operations.filterMap kemKey := by
  induction h with
  | refl s => exact List.not_mem_nil
  | operation haccepts _ ih =>
    obtain ⟨hkept₁, hgrows, hkem⟩ := haccepts.kemUsed htotal hkept
    intro hmem
    obtain ⟨op, hop, hkey⟩ := List.mem_filterMap.mp hmem
    rcases List.mem_cons.mp hop with rfl | hop
    · exact (hkem account epoch hkey).1 hused
    · exact ih hkept₁ (hgrows account epoch hused) (List.mem_filterMap.mpr ⟨op, hop, hkey⟩)
  | block ctx _ ih =>
    exact ih (hkept.expireCommits ctx) (KemGrows.expireCommits ctx _ account epoch hused)

/-- **No key epoch of an account is published twice.** -/
theorem Trace.kemKeys_nodup
    (htotal : total < 2 ^ 64 - 1) (h : Trace s operations s') (hkept : SupplyKept total s) :
    (operations.filterMap kemKey).Nodup := by
  induction h with
  | refl s => exact List.nodup_nil
  | @operation ctx op s s₁ s₂ rest haccepts ht ih =>
    obtain ⟨hkept₁, -, hkem⟩ := haccepts.kemUsed htotal hkept
    cases hkey : kemKey op with
    | none =>
      rw [List.filterMap_cons_none hkey]
      exact ih hkept₁
    | some key =>
      obtain ⟨account, epoch, rfl⟩ := kemKey_eq_some hkey
      rw [List.filterMap_cons_some hkey, List.nodup_cons]
      exact ⟨ht.kemKey_notMem htotal hkept₁ (hkem account epoch hkey).2, ih hkept₁⟩
  | block ctx _ ih => exact ih (hkept.expireCommits ctx)

/-! ### The keys of a chain -/

namespace Canonical

variable {genesis s : CybouState} {chain : List FinalizedBlock} {head : FinalizedHead}

theorem operationIds (h : Canonical g genesis chain head s) :
    ∀ fb ∈ chain, ∀ op ∈ fb.block.operations, ∃ id, computeOperationId op = some id :=
  fun fb hfb => (h.certified fb hfb).operationIds

variable {tip : FinalizedBlock}

theorem heights_ne (h : Canonical g genesis (tip :: chain) head s) :
    ∀ fb ∈ chain, fb.block.height ≠ tip.block.height := by
  cases h with
  | block hchain _ hmax hheight _ _ =>
    intro fb hfb heq
    have hle := (hchain.height_le fb hfb).2
    rw [heq, hheight, toNat_succ_of_ne_max hmax] at hle
    omega

theorem kemKeys_disjoint (h : Canonical g genesis (tip :: chain) head s) (hgenesis : StateInvariant genesis) :
    ∀ fb ∈ chain, ∀ key ∈ fb.block.operations.filterMap kemKey,
      key ∉ tip.block.operations.filterMap kemKey := by
  have hnodup := h.trace.kemKeys_nodup hgenesis.total ⟨rfl, hgenesis.fundsCovered⟩
  rw [chainOperations, List.reverse_cons, List.flatMap_append, List.flatMap_singleton,
    List.filterMap_append, List.nodup_append] at hnodup
  intro fb hfb key hkey hkey'
  refine hnodup.2.2 key ?_ key hkey' rfl
  obtain ⟨op, hop, heq⟩ := List.mem_filterMap.mp hkey
  exact List.mem_filterMap.mpr ⟨op, mem_chainOperations.mpr ⟨fb, hfb, hop⟩, heq⟩

end Canonical

variable {block : CybouBlock} {key : StoreKey}

theorem mem_eventKeys : key ∈ eventKeys block ↔
    (∃ id ∈ blockOperationIds block, key = .eventsOperation id) ∨
      key ∈ block.operations.filterMap kemKey ∨ key = .eventsPublication block.height := by
  rw [eventKeys, List.mem_append, List.mem_singleton, ← or_assoc]
  refine or_congr_left ?_
  constructor
  · intro h
    obtain ⟨op, hop, hkey⟩ := List.mem_flatMap.mp h
    rcases mem_operationKeys.mp hkey with ⟨id, hid, heq⟩ | hkem
    · exact .inl ⟨id, List.mem_filterMap.mpr ⟨op, hop, hid⟩, heq⟩
    · exact .inr (List.mem_filterMap.mpr ⟨op, hop, hkem⟩)
  · intro h
    rcases h with ⟨id, hid, rfl⟩ | hkem
    · exact eventsOperation_mem.mpr hid
    · obtain ⟨op, hop, hkey⟩ := List.mem_filterMap.mp hkem
      exact List.mem_flatMap.mpr ⟨op, hop, mem_operationKeys.mpr (.inr hkey)⟩

variable {chain delivered : List FinalizedBlock} {head : FinalizedHead}

variable {tip : FinalizedBlock}

/-- **No block below the tip has a row in common with it.** -/
theorem Canonical.eventKeys_disjoint (h : Canonical g genesis (tip :: chain) head s)
    (hgenesis : StateInvariant genesis) (hids : IdsDistinct (tip :: chain)) :
    ∀ fb ∈ chain, ∀ key ∈ eventKeys fb.block, key ∉ eventKeys tip.block := by
  intro fb hfb key hkey hkey'
  rcases mem_eventKeys.mp hkey with ⟨id, hid, rfl⟩ | hkem | rfl
  · rcases mem_eventKeys.mp hkey' with ⟨id', hid', heq⟩ | hkem | heq
    · cases heq
      exact h.disjoint hgenesis hids fb hfb id hid hid'
    · obtain ⟨op, -, hop⟩ := List.mem_filterMap.mp hkem
      obtain ⟨account, epoch, heq⟩ := kemKey_eq_some hop
      cases heq
    · cases heq
  · obtain ⟨op, -, hop⟩ := List.mem_filterMap.mp hkem
    obtain ⟨account, epoch, rfl⟩ := kemKey_eq_some hop
    rcases mem_eventKeys.mp hkey' with ⟨id', -, heq⟩ | hkem' | heq
    · cases heq
    · exact h.kemKeys_disjoint hgenesis fb hfb _ hkem hkem'
    · cases heq
  · rcases mem_eventKeys.mp hkey' with ⟨id', -, heq⟩ | hkem | heq
    · cases heq
    · obtain ⟨op, -, hop⟩ := List.mem_filterMap.mp hkem
      obtain ⟨account, epoch, heq⟩ := kemKey_eq_some hop
      cases heq
    · exact h.heights_ne fb hfb (StoreKey.eventsPublication.inj heq)

/-! ### Indexed stores -/

/-- There is no marker, or it names the head and the rows are those of the chain. -/
def Indexed (chain : List FinalizedBlock) (head : FinalizedHead) (db : NodeDb) : Prop :=
  db .eventsHead = none ∨
    (db .eventsHead = some (encodeLocalBytes (encodeFinalizedHead head)) ∧
      ∀ key : StoreKey, key.isEventRow = true → db key = eventRows chain key)

variable {db db' : NodeDb}

omit [Crypto] in
theorem readBytes_eventsHead (h : db .eventsHead = some (encodeLocalBytes (encodeFinalizedHead head))) :
    readBytes db .eventsHead = some (encodeFinalizedHead head) := by
  refine readBytes_of_small h ?_
  have hid : (encodeLocalHash head.blockId).length = 32 := head.blockId.2
  have hheight : (encodeLocalUnsigned 8 head.height.toNat).length = 8 := length_leBytes ..
  have hmax : MAX_COMPACT_SIZE = 33554432 := rfl
  rw [encodeFinalizedHead, List.length_append, hid, hheight]
  omega

omit [Crypto] in
theorem isEventRow_isEvent (h : key.isEventRow = true) : key.isEvent = true := by
  cases key <;> first | rfl | cases h

def markerEdits (db : NodeDb) (block : CybouBlock) (previous : FinalizedHead) : Batch :=
  if readBytes db .eventsHead = some (encodeFinalizedHead previous) then
    [.put .eventsHead (encodeLocalBytes (encodeFinalizedHead ⟨computeBlockId block, block.height⟩))]
  else []

variable {previous : FinalizedHead}

theorem eventsOf_none (hops : ∀ op ∈ block.operations, ∃ id, computeOperationId op = some id) :
    eventsOf db block previous none = rowsOf block false ++ markerEdits db block previous := by
  rw [eventsOf, appendFinalizedEvents, eraseReplaced, (writeEvents_eq block false hops).1]
  rfl

variable {old : CybouBlock}

theorem eventsOf_some (hops : ∀ op ∈ block.operations, ∃ id, computeOperationId op = some id)
    (hold : ∀ op ∈ old.operations, ∃ id, computeOperationId op = some id) :
    eventsOf db block previous (some old) =
      rowsOf old true ++ rowsOf block false ++ markerEdits db block previous := by
  rw [eventsOf, appendFinalizedEvents, eraseReplaced, (writeEvents_eq old true hold).1,
    (writeEvents_eq block false hops).1]
  rfl

theorem eventsHead_notMem (block : CybouBlock) : StoreKey.eventsHead ∉ eventKeys block :=
  fun h => absurd (isEventRow_of_mem h) (by decide)

theorem Indexed.moved {chain' : List FinalizedBlock} {rows : Batch} (h : Indexed chain head db)
    (hmarker : ∀ db : NodeDb, db.apply rows .eventsHead = db .eventsHead)
    (hrows : ∀ db : NodeDb, (∀ key : StoreKey, key.isEventRow = true → db key = eventRows chain key) →
      ∀ key : StoreKey, key.isEventRow = true → db.apply rows key = eventRows chain' key)
    (hdb : ∀ key : StoreKey, key.isEvent = true →
      db' key = db.apply (rows ++ markerEdits db block head) key) :
    Indexed chain' ⟨computeBlockId block, block.height⟩ db' := by
  rcases h with hnone | ⟨hhead, hchain⟩
  · have hmissing : markerEdits db block head = [] := by
      rw [markerEdits, readBytes, hnone]
      rfl
    refine .inl ?_
    rw [hdb _ rfl, hmissing, List.append_nil, hmarker, hnone]
  · have hmoves : markerEdits db block head = [.put .eventsHead
        (encodeLocalBytes (encodeFinalizedHead ⟨computeBlockId block, block.height⟩))] := by
      rw [markerEdits, if_pos (readBytes_eventsHead hhead)]
    refine .inr ⟨?_, ?_⟩
    · rw [hdb _ rfl, hmoves, Store.apply_append]
      simp [Edit.key, Edit.value]
    · intro key hkey
      have hne : key ≠ .eventsHead := by
        intro heq
        subst heq
        cases hkey
      rw [hdb _ (isEventRow_isEvent hkey), hmoves, Store.apply_append, Store.apply_cons, Store.apply_nil,
        Edit.key, Function.update_of_ne hne]
      exact hrows db hchain key hkey

theorem Indexed.sameEvents
    (h : Indexed chain head db) (hdb : ∀ key : StoreKey, key.isEvent = true → db' key = db key) :
    Indexed chain head db' := by
  rcases h with hnone | ⟨hhead, hchain⟩
  · exact .inl ((hdb _ rfl).trans hnone)
  · refine .inr ⟨(hdb _ rfl).trans hhead, ?_⟩
    intro key hkey
    exact (hdb key (isEventRow_isEvent hkey)).trans (hchain key hkey)

variable {fb : FinalizedBlock}

/-- **An extension.** -/
theorem Indexed.extend (h : Indexed chain head db)
    (hops : ∀ op ∈ fb.block.operations, ∃ id, computeOperationId op = some id)
    (hdb : ∀ key : StoreKey, key.isEvent = true → db' key = db.apply (eventsOf db fb.block head none) key) :
    Indexed (fb :: chain) ⟨computeBlockId fb.block, fb.block.height⟩ db' := by
  rw [eventsOf_none hops] at hdb
  refine h.moved ?_ ?_ hdb
  · intro db
    exact apply_rowsOf_of_notMem hops (eventsHead_notMem _)
  · intro db hchain key hkey
    exact Store.apply_congr (hchain key hkey) _

/-- **A replacement.** -/
theorem Indexed.replace (h : Indexed (tip :: chain) head db)
    (hchain : ∀ fb ∈ tip :: chain, ∀ op ∈ fb.block.operations, ∃ id, computeOperationId op = some id)
    (hdisjoint : ∀ fb ∈ chain, ∀ key ∈ eventKeys fb.block, key ∉ eventKeys tip.block)
    (hops : ∀ op ∈ fb.block.operations, ∃ id, computeOperationId op = some id)
    (hdb : ∀ key : StoreKey, key.isEvent = true →
      db' key = db.apply (eventsOf db fb.block head (some tip.block)) key) :
    Indexed (fb :: chain) ⟨computeBlockId fb.block, fb.block.height⟩ db' := by
  have htip := hchain tip List.mem_cons_self
  rw [eventsOf_some hops htip] at hdb
  refine h.moved ?_ ?_ hdb
  · intro db
    rw [Store.apply_append, apply_rowsOf_of_notMem hops (eventsHead_notMem _),
      apply_rowsOf_of_notMem htip (eventsHead_notMem _)]
  · intro db hrows key hkey
    rw [Store.apply_append, eventRows]
    refine Store.apply_congr ?_ _
    rw [Store.apply_congr (hrows key hkey)]
    exact eventRows_undo key hchain hdisjoint

/-! ### Deliveries -/

theorem apply_extensionBatch_event (hkey : key.isEvent = true) :
    db.apply (extensionBatch g db s s' head fb) key = db.apply (eventsOf db fb.block head none) key := by
  rw [extensionBatch, Store.apply_append]
  refine Store.apply_congr (Store.apply_of_forall_ne ?_) _
  intro e he heq
  subst heq
  rw [List.mem_append, List.mem_append, List.mem_append] at he
  rcases he with ((he | he) | he) | he
  · unfold extensionEdits at he
    split at he
    · rw [List.mem_singleton.mp he] at hkey
      cases hkey
    · simp only [stateEdits, List.mem_cons, List.not_mem_nil, or_false] at he
      rcases he with rfl | rfl | rfl <;> cases hkey
  · simp only [blockEdits, List.mem_cons, List.not_mem_nil, or_false] at he
    rcases he with rfl | rfl | rfl <;> cases hkey
  · obtain ⟨id, -, rfl⟩ := List.mem_map.mp he
    cases hkey
  · unfold windowEdits at he
    split at he
    · rw [List.mem_singleton.mp he] at hkey
      cases hkey
    · cases he

theorem apply_replacementBatch_event (hkey : key.isEvent = true) :
    db.apply (replacementBatch db s head old fb) key =
      db.apply (eventsOf db fb.block head (some old)) key := by
  rw [replacementBatch, Store.apply_append]
  refine Store.apply_congr (Store.apply_of_forall_ne ?_) _
  intro e he heq
  subst heq
  rw [List.mem_append, List.mem_append, List.mem_append] at he
  rcases he with ((he | he) | he) | he
  · obtain ⟨id, -, rfl⟩ := List.mem_map.mp he
    cases hkey
  · simp only [stateEdits, List.mem_cons, List.not_mem_nil, or_false] at he
    rcases he with rfl | rfl | rfl <;> cases hkey
  · simp only [blockEdits, List.mem_cons, List.not_mem_nil, or_false] at he
    rcases he with rfl | rfl | rfl <;> cases hkey
  · obtain ⟨id, -, rfl⟩ := List.mem_map.mp he
    cases hkey

omit [Crypto] in
theorem isDetector_of_isEvent (h : key.isEvent = true) : key.isDetector = false := by
  cases key <;> first | rfl | cases h

variable {node : Node}

/-- **One delivery keeps the index.** -/
theorem ConsistentNode.deliver_indexed (h : ConsistentNode g genesis chain head s node)
    (hindexed : Indexed chain head node.db) (hgenesis : StateInvariant genesis) (fb : FinalizedBlock)
    (fates : CommitFates) (hids : IdsDistinct (fb :: chain)) :
    ∃ chain' head' s', chain' ⊆ fb :: chain ∧
      Consistent g genesis chain' head' s' (commitFinalizedBlock g node fb fates).node.db ∧
      Guarded g chain' (commitFinalizedBlock g node fb fates).node.db ∧
      (fates.batch ≠ .stored →
        ∀ cached ∈ (commitFinalizedBlock g node fb fates).node.snapshot, cached = s') ∧
      Indexed chain' head' (commitFinalizedBlock g node fb fates).node.db := by
  rcases commitFinalizedBlock_cases g node fb fates with ⟨hdb, hcaches⟩ |
    ⟨loaded, head', batch, state, hw, hfate, -, hnode⟩
  · obtain ⟨hnode, hsame⟩ := h.kept hgenesis hdb hcaches
    refine ⟨chain, head, s, List.subset_cons_self _ _, hnode.store, hnode.detector, fun _ => hnode.cache, ?_⟩
    exact hindexed.sameEvents fun key hkey => hsame key (isDetector_of_isEvent hkey)
  · have hops := hw.reaches.certified.operationIds
    obtain ⟨below, hbelow, hstore, hguarded, -⟩ := h.written hgenesis hids hw
    obtain ⟨rfl, rfl, hseen, hplan⟩ := h.planned hgenesis hw
    have hindexed' : Indexed chain head' (seen g node fb fates).db :=
      hindexed.sameEvents fun key hkey => observe_sameChain _ _ _ _ _ key (isDetector_of_isEvent hkey)
    have hmoved : below ⊆ chain ∧ Indexed (fb :: below) ⟨computeBlockId fb.block, fb.block.height⟩
        ((seen g node fb fates).db.apply batch) := by
      rcases hplan with ⟨hreorg, tip, rest, _, _, rfl, -, -, -, -, rfl⟩ | ⟨hreorg, -, -, -, -, rfl⟩
      · rcases hbelow with ⟨-, tip', heq⟩ | ⟨hnot, -⟩
        swap
        · exact absurd hreorg hnot
        cases heq
        refine ⟨List.subset_cons_self _ _, hindexed'.replace hseen.canonical.operationIds
          (hseen.canonical.eventKeys_disjoint hgenesis (hids.mono (List.subset_cons_self _ _))) hops ?_⟩
        intro key hkey
        exact apply_replacementBatch_event hkey
      · rcases hbelow with ⟨hyes, -⟩ | ⟨-, rfl⟩
        · exact absurd hyes hreorg
        refine ⟨List.Subset.refl _, hindexed'.extend hops ?_⟩
        intro key hkey
        exact apply_extensionBatch_event hkey
    rw [hnode]
    refine ⟨fb :: below, _, state, List.cons_subset_cons _ hmoved.1, hstore, hguarded, ?_, hmoved.2⟩
    exact fun hne => writtenNode_cache hfate hne

/-! ### Rebuilding a canonical chain -/

variable {i : Nat}

theorem ids_of_operationEvents {erase : Bool} {edits : Batch}
    {ops : List ProtocolOperation} (h : operationEvents block erase i ops = some edits) :
    ∀ op ∈ ops, ∃ id, computeOperationId op = some id := by
  induction ops generalizing i edits with
  | nil => exact fun _ => nofun
  | cons op rest ih =>
    obtain ⟨id, hid, h⟩ := Option.bind_eq_some_iff.mp h
    obtain ⟨tail, htail, -⟩ := Option.bind_eq_some_iff.mp h
    exact List.forall_mem_cons.mpr ⟨⟨id, hid⟩, ih htail⟩

theorem rewriteEvents_frame {n : Nat} {height : UInt64} {previous : Hash256} (hkey : key.isEventRow = false) :
    (rewriteEvents g n height previous db).2 key = db key := by
  induction n generalizing height previous db with
  | zero => rfl
  | succ n ih =>
    unfold rewriteEvents
    cases hblock : getBlockAtHeight db height with
    | none => rfl
    | some fb =>
      dsimp only
      split
      · rfl
      cases hwritten : writeEvents fb.block false with
      | none => rfl
      | some batch =>
        obtain ⟨edits, hedits, -⟩ := Option.bind_eq_some_iff.mp hwritten
        have hops := ids_of_operationEvents hedits
        have hbatch : batch = rowsOf fb.block false := by rw [rowsOf, hwritten, Option.getD_some]
        have hnot : key ∉ eventKeys fb.block := by
          intro hmem
          cases hkey.symm.trans (isEventRow_of_mem hmem)
        dsimp only
        rw [ih, hbatch, apply_rowsOf_of_notMem hops hnot]

omit [Crypto] in
theorem clearEvents_of_not_event {kept : StoreKey → Bool}
    (hkey : key.isEvent = false) : clearEvents db kept key = db key := by
  cases key <;> first | rfl | cases hkey

omit [Crypto] in
theorem isEventRow_eq_false (hkey : key.isEvent = false) : key.isEventRow = false := by
  cases key <;> first | rfl | cases hkey

def ReadableChain (chain : List FinalizedBlock) : Prop :=
  ∀ fb ∈ chain, (finalizedBytes fb).length ≤ MAX_COMPACT_SIZE

def writeRows (db : NodeDb) (blocks : List FinalizedBlock) : NodeDb :=
  blocks.foldl (fun db fb => db.apply (rowsOf fb.block false)) db

theorem writeRows_reverse (h : db key = none) : writeRows db chain.reverse key = eventRows chain key := by
  rw [writeRows, List.foldl_reverse]
  induction chain with
  | nil => exact h
  | cons fb below ih => exact Store.apply_congr ih _

variable {below : List FinalizedBlock}

theorem Canonical.of_suffix {above : List FinalizedBlock} (h : Canonical g genesis (above ++ below) head s) :
    ∃ head' s', Canonical g genesis below head' s' := by
  induction above generalizing head s with
  | nil => exact ⟨head, s, h⟩
  | cons fb above ih =>
    cases h with
    | block hchain => exact ih hchain

/-- **The loop of a rebuild goes through the rest of the chain**, up to a block that
    cannot be read. -/
theorem rewriteEvents_canonical (next : List FinalizedBlock)
    {parentHead : FinalizedHead} {parent : CybouState} (hchain : chain = next.reverse ++ below)
    (hparent : Canonical g genesis below parentHead parent) (h : Consistent g genesis chain head s db) :
    (ReadableChain next → rewriteEvents g next.length (parentHead.height + 1) parentHead.blockId db =
      (.ok (some head.blockId), writeRows db next)) ∧
    (¬ReadableChain next →
      (rewriteEvents g next.length (parentHead.height + 1) parentHead.blockId db).1 = .ok none) := by
  induction next generalizing below parentHead parent db with
  | nil =>
    subst hchain
    obtain ⟨rfl, -⟩ := h.canonical.unique hparent
    exact ⟨fun _ => rfl, fun hnot => absurd (fun _ => nofun) hnot⟩
  | cons fb rest ih =>
    rw [List.reverse_cons, List.append_assoc, List.singleton_append] at hchain
    have hmem : fb ∈ chain := by
      rw [hchain]
      exact List.mem_append_right _ List.mem_cons_self
    obtain ⟨head', s', hcanonical⟩ := Canonical.of_suffix (hchain ▸ h.canonical)
    have hcanonical' := hcanonical
    cases hcanonical with
    | block hbelow hid hmax hheight hcert hexec =>
      obtain ⟨rfl, rfl⟩ := hbelow.unique hparent
      have hops := hcert.operationIds
      have hget := h.getBlockAtHeight hmem
      rw [hheight] at hget
      have hnext : Consistent g genesis chain head s (db.apply (rowsOf fb.block false)) := by
        refine h.sameRecords ?_
        intro key _ hkey
        refine apply_rowsOf_of_notMem hops ?_
        intro hrow
        cases (isEventRow_eq_false hkey).symm.trans (isEventRow_of_mem hrow)
      have hrest := ih hchain hcanonical' hnext
      dsimp only at hrest
      rw [ReadableChain, List.forall_mem_cons, List.length_cons, rewriteEvents, hget]
      by_cases hsize : (finalizedBytes fb).length ≤ MAX_COMPACT_SIZE
      · rw [if_pos hsize]
        dsimp only
        rw [if_neg (by simp [hid, hcert.verified]), (writeEvents_eq fb.block false hops).1]
        dsimp only
        rw [← hheight]
        exact ⟨fun hreadable => hrest.1 hreadable.2, fun hnot => hrest.2 fun hreadable => hnot ⟨hsize, hreadable⟩⟩
      · rw [if_neg hsize]
        exact ⟨fun hreadable => absurd hreadable.1 hsize, fun _ => rfl⟩

/-- The store after a rebuild that got to its end. -/
structure Rebuilt (chain : List FinalizedBlock) (head : FinalizedHead) (db db' : NodeDb) : Prop where
  marker : db' .eventsHead = some (encodeLocalBytes (encodeFinalizedHead head))
  rows : ∀ key : StoreKey, key.isEventRow = true → db' key = eventRows chain key
  others : ∀ key : StoreKey, key.isEvent = false → db' key = db key

theorem Rebuilt.indexed (h : Rebuilt chain head db db') : Indexed chain head db' := .inr ⟨h.marker, h.rows⟩

omit [Crypto] in
theorem ne_eventsHead (h : key.isEventRow = true ∨ key.isEvent = false) :
    key ≠ .eventsHead := by
  intro heq
  subst heq
  rcases h with h | h <;> cases h

/-- **A rebuild writes the rows of the chain**, or leaves no marker because a block
    cannot be read. -/
theorem Consistent.rebuild (h : Consistent g genesis chain head s db) {force : Bool}
    (hforce : ¬(force = false ∧ readBytes db .eventsHead = some (encodeFinalizedHead head))) :
    (ReadableChain chain → ∃ db', ensureFinalizedEvents g db force = (.ok true, db') ∧
      Rebuilt chain head db db') ∧
    (¬ReadableChain chain → ∃ db', ensureFinalizedEvents g db force = (.ok false, db') ∧
      db' .eventsHead = none ∧ ∀ key : StoreKey, key.isEvent = false → db' key = db key) := by
  have hcleared : Consistent g genesis chain head s (clearEvents db fun _ => false) :=
    h.sameRecords fun key _ hkey => clearEvents_of_not_event hkey
  have hloop := rewriteEvents_canonical chain.reverse (by rw [List.reverse_reverse, List.append_nil])
    .genesis hcleared
  have hread : ReadableChain chain.reverse ↔ ReadableChain chain := by simp only [ReadableChain, List.mem_reverse]
  rw [hread, List.length_reverse, ← h.canonical.height, show (0 : UInt64) + 1 = 1 from rfl] at hloop
  have hframe : ∀ key : StoreKey, key.isEvent = false → (rewriteEvents g head.height.toNat 1 g.genesisAnchor
      (clearEvents db fun _ => false)).2 key = db key := by
    intro key hkey
    rw [rewriteEvents_frame (isEventRow_eq_false hkey)]
    exact clearEvents_of_not_event hkey
  have hmarker : (rewriteEvents g head.height.toNat 1 g.genesisAnchor
      (clearEvents db fun _ => false)).2 .eventsHead = none := rewriteEvents_frame rfl
  rw [ensureFinalizedEvents, h.getFinalizedHead]
  dsimp only at hloop ⊢
  rw [if_neg hforce]
  constructor
  · intro hreadable
    rw [hloop.1 hreadable] at hframe ⊢
    dsimp only at hframe ⊢
    rw [if_neg (not_not.mpr rfl), Store.apply_cons, Store.apply_nil]
    refine ⟨_, rfl, by simp [Edit.key, Edit.value], ?_, ?_⟩
    · intro key hkey
      have hne := ne_eventsHead (.inl hkey)
      rw [Edit.key, Function.update_of_ne hne]
      refine writeRows_reverse ?_
      rw [clearEvents, if_neg hne, if_pos (by simp [hkey])]
    · intro key hkey
      rw [Edit.key, Function.update_of_ne (ne_eventsHead (.inr hkey))]
      exact hframe key hkey
  · intro hreadable
    have hnone := hloop.2 hreadable
    generalize rewriteEvents g head.height.toNat 1 g.genesisAnchor (clearEvents db fun _ => false) = rewritten
      at hnone hframe hmarker ⊢
    obtain ⟨outcome, db'⟩ := rewritten
    dsimp only at hnone hframe hmarker ⊢
    subst hnone
    exact ⟨db', rfl, hmarker, hframe⟩

theorem Consistent.ensure (h : Consistent g genesis chain head s db) (hindexed : Indexed chain head db)
    (force : Bool) :
    (ReadableChain chain → ∃ db', ensureFinalizedEvents g db force = (.ok true, db') ∧
      Rebuilt chain head db db') ∧
    Indexed chain head (ensureFinalizedEvents g db force).2 ∧
    ∀ key : StoreKey, key.isEvent = false → (ensureFinalizedEvents g db force).2 key = db key := by
  by_cases hforce : force = false ∧ readBytes db .eventsHead = some (encodeFinalizedHead head)
  · have hsame : ensureFinalizedEvents g db force = (.ok true, db) := by
      rw [ensureFinalizedEvents, h.getFinalizedHead]
      dsimp only
      rw [if_pos hforce]
    rw [hsame]
    refine ⟨fun _ => ⟨db, rfl, ?_⟩, hindexed, fun _ _ => rfl⟩
    rcases hindexed with hnone | ⟨hmarker, hrows⟩
    · rw [readBytes, hnone] at hforce
      cases hforce.2
    · exact ⟨hmarker, hrows, fun _ _ => rfl⟩
  · obtain ⟨hcomplete, hincomplete⟩ := h.rebuild hforce
    refine ⟨hcomplete, ?_⟩
    by_cases hreadable : ReadableChain chain
    · obtain ⟨db', heq, hrebuilt⟩ := hcomplete hreadable
      rw [heq]
      exact ⟨hrebuilt.indexed, hrebuilt.others⟩
    · obtain ⟨db', heq, hmarker, hframe⟩ := hincomplete hreadable
      rw [heq]
      exact ⟨.inl hmarker, hframe⟩

theorem Consistent.stopped (h : Consistent g genesis chain head s db) (stop : RebuildStop) :
    Indexed chain head (stoppedRebuild g db stop) ∧
      ∀ key : StoreKey, key.isEvent = false → stoppedRebuild g db stop key = db key := by
  rw [stoppedRebuild, h.getFinalizedHead]
  cases stop with
  | clearing kept => exact ⟨.inl rfl, fun key hkey => clearEvents_of_not_event hkey⟩
  | rewriting blocks =>
    refine ⟨.inl (rewriteEvents_frame rfl), ?_⟩
    intro key hkey
    dsimp only
    rw [rewriteEvents_frame (isEventRow_eq_false hkey)]
    exact clearEvents_of_not_event hkey

/-! ### Runs -/

/-- The nodes of a run of deliveries, starts and rebuilds, with the blocks delivered
    so far.  A rebuild is forced or not, and gets to its end or is stopped. -/
inductive IndexRun (g : VerifiedNetworkGenesis) (genesis : CybouState) :
    List FinalizedBlock → Node → Prop where
  | start {db : NodeDb} {opened node : Node} :
      openNode g (fun _ => none) .done = (db, some opened) →
      initializeGenesis g opened genesis .done = (.ok .none, node) → IndexRun g genesis [] node
  | deliver {delivered : List FinalizedBlock} {node : Node} (fb : FinalizedBlock) (fates : CommitFates) :
      IndexRun g genesis delivered node → fates.batch ≠ .stored →
      IndexRun g genesis (fb :: delivered) (commitFinalizedBlock g node fb fates).node
  | restart {delivered : List FinalizedBlock} {node node' : Node} {db : NodeDb} {fate : Fate} :
      IndexRun g genesis delivered node → openNode g node.db fate = (db, some node') →
      IndexRun g genesis delivered node'
  | interrupted {delivered : List FinalizedBlock} {node node' : Node} {db : NodeDb} {fate : Fate}
      (fb : FinalizedBlock) (fates : CommitFates) :
      IndexRun g genesis delivered node →
      openNode g (commitFinalizedBlock g node fb fates).node.db fate = (db, some node') →
      IndexRun g genesis (fb :: delivered) node'
  | ensured {delivered : List FinalizedBlock} {node : Node} (force : Bool) :
      IndexRun g genesis delivered node →
      IndexRun g genesis delivered { node with db := (ensureFinalizedEvents g node.db force).2 }
  | stopped {delivered : List FinalizedBlock} {node : Node} (stop : RebuildStop) :
      IndexRun g genesis delivered node →
      IndexRun g genesis delivered { node with db := stoppedRebuild g node.db stop }

theorem Run.indexRun (h : Run g genesis delivered node) : IndexRun g genesis delivered node := by
  induction h with
  | start hopen hinit => exact .start hopen hinit
  | deliver fb fates _ hfate ih => exact .deliver fb fates ih hfate
  | restart _ hopen ih => exact .restart ih hopen
  | interrupted fb fates _ hopen ih => exact .interrupted fb fates ih hopen

theorem ConsistentNode.sameRecords (h : ConsistentNode g genesis chain head s node)
    (hsame : ∀ key : StoreKey, key.isEvent = false → db key = node.db key) :
    ConsistentNode g genesis chain head s { node with db } where
  store := h.store.sameRecords fun key _ hkey => hsame key hkey
  detector := h.detector.congr fun height parent => hsame (.observed height parent) rfl
  cache := h.cache

/-- **Every node of a run is on a canonical chain, with an index of it.** -/
theorem IndexRun.indexed (h : IndexRun g genesis delivered node) (hids : IdsDistinct delivered) :
    StateInvariant genesis ∧ ∃ chain head s, chain ⊆ delivered ∧
      ConsistentNode g genesis chain head s node ∧ Indexed chain head node.db := by
  induction h with
  | start hopen hinit =>
    obtain ⟨hgenesis, chain, head, s, hchain, hnode⟩ := (Run.start hopen hinit).consistent hids
    obtain rfl := List.subset_nil.mp hchain
    cases hcanonical : hnode.store.canonical
    obtain ⟨-, rfl⟩ := initializeGenesis_spec hinit
    obtain ⟨hsame, -⟩ := openNode_spec hopen
    refine ⟨hgenesis, [], _, _, List.Subset.refl _, hnode, .inr ⟨by simp [genesisBatch, Edit.key, Edit.value], ?_⟩⟩
    intro key hkey
    refine (Store.apply_of_forall_ne ?_).trans (hsame key (isDetector_of_isEvent (isEventRow_isEvent hkey)))
    intro e he heq
    subst heq
    simp only [genesisBatch, List.mem_cons, List.not_mem_nil, or_false] at he
    rcases he with rfl | rfl | rfl | rfl | rfl | rfl <;> cases hkey
  | deliver fb fates _ hfate ih =>
    obtain ⟨hgenesis, chain, head, s, hchain, hnode, hindexed⟩ := ih (hids.mono (List.subset_cons_self _ _))
    obtain ⟨chain', head', s', hsubset, hstore, hguarded, hcache, hindexed'⟩ :=
      hnode.deliver_indexed hindexed hgenesis fb fates (hids.mono (List.cons_subset_cons _ hchain))
    exact ⟨hgenesis, chain', head', s', List.Subset.trans hsubset (List.cons_subset_cons _ hchain),
      ⟨hstore, hguarded, hcache hfate⟩, hindexed'⟩
  | restart _ hopen ih =>
    obtain ⟨hgenesis, chain, head, s, hchain, hnode, hindexed⟩ := ih hids
    obtain ⟨hsame, hsnapshot, hobserved⟩ := openNode_spec hopen
    exact ⟨hgenesis, chain, head, s, hchain,
      ⟨hnode.store.sameChain hsame, hnode.detector.congr hobserved, by simp [hsnapshot]⟩,
      hindexed.sameEvents fun key hkey => hsame key (isDetector_of_isEvent hkey)⟩
  | interrupted fb fates _ hopen ih =>
    obtain ⟨hgenesis, chain, head, s, hchain, hnode, hindexed⟩ := ih (hids.mono (List.subset_cons_self _ _))
    obtain ⟨chain', head', s', hsubset, hstore, hguarded, -, hindexed'⟩ :=
      hnode.deliver_indexed hindexed hgenesis fb fates (hids.mono (List.cons_subset_cons _ hchain))
    obtain ⟨hsame, hsnapshot, hobserved⟩ := openNode_spec hopen
    exact ⟨hgenesis, chain', head', s', List.Subset.trans hsubset (List.cons_subset_cons _ hchain),
      ⟨hstore.sameChain hsame, hguarded.congr hobserved, by simp [hsnapshot]⟩,
      hindexed'.sameEvents fun key hkey => hsame key (isDetector_of_isEvent hkey)⟩
  | ensured force _ ih =>
    obtain ⟨hgenesis, chain, head, s, hchain, hnode, hindexed⟩ := ih hids
    obtain ⟨-, hindexed', hframe⟩ := hnode.store.ensure hindexed force
    exact ⟨hgenesis, chain, head, s, hchain, hnode.sameRecords hframe, hindexed'⟩
  | stopped stop _ ih =>
    obtain ⟨hgenesis, chain, head, s, hchain, hnode, -⟩ := ih hids
    obtain ⟨hindexed', hframe⟩ := hnode.store.stopped stop
    exact ⟨hgenesis, chain, head, s, hchain, hnode.sameRecords hframe, hindexed'⟩

/-! ### Lookups -/

variable {id : Hash256}

/-- The row of an operation names the one block of the chain that holds it. -/
theorem Canonical.eventRows_operation
    (h : Canonical g genesis chain head s) (hgenesis : StateInvariant genesis) (hids : IdsDistinct chain)
    (hfb : fb ∈ chain) (hid : fb.block.operations[i]?.bind computeOperationId = some id) :
    eventRows chain (.eventsOperation id) =
      some (encodeLocalBytes (encodeLocation fb.block.height (UInt32.ofNat i) (computeBlockId fb.block))) := by
  induction h with
  | genesis => cases hfb
  | @block below parentHead parent s' tip hbelow hparent hmax hheight hcert hexec ih =>
    have hcanonical : Canonical g genesis (tip :: below) _ s' := .block hbelow hparent hmax hheight hcert hexec
    have hmem : id ∈ blockOperationIds fb.block := by
      obtain ⟨op, hop, hopId⟩ := Option.bind_eq_some_iff.mp hid
      exact List.mem_filterMap.mpr ⟨op, List.mem_of_getElem? hop, hopId⟩
    rw [eventRows]
    rcases List.mem_cons.mp hfb with rfl | hfb
    · have hops := hcert.operationIds
      have hnodup : (fb.block.operations.filterMap computeOperationId).Nodup := by
        have hfree : CollisionFree fb.block.operations := fun a ha b hb =>
          hids.operation a (List.mem_flatMap.mpr ⟨fb, List.mem_cons_self, ha⟩) b
            (List.mem_flatMap.mpr ⟨fb, List.mem_cons_self, hb⟩)
        have hinvariant := hbelow.invariant hgenesis
        exact hfree.nodup ((Trace.block _ hexec.trace).nodup hinvariant.total ⟨rfl, hinvariant.fundsCovered⟩)
      obtain ⟨edits, hedits, -⟩ := keys_operationEvents fb.block false hops 0
      have hrow := @apply_operationEvents _ fb.block (eventRows below) edits id fb.block.operations 0 i hops
        hedits hnodup hid
      rw [Nat.zero_add] at hrow
      have hwritten : ∃ last : Edit StoreKey Bytes, rowsOf fb.block false = edits ++ [last] ∧
          last.key = .eventsPublication fb.block.height := by
        refine ⟨_, by rw [rowsOf, writeEvents, hedits]; rfl, ?_⟩
        split <;> rfl
      obtain ⟨last, hrows, hkey⟩ := hwritten
      have hne : StoreKey.eventsOperation id ≠ .eventsPublication fb.block.height := fun h => by cases h
      rw [hrows, Store.apply_append, Store.apply_cons, Store.apply_nil, hkey, Function.update_of_ne hne]
      exact hrow
    · have hnot : .eventsOperation id ∉ eventKeys tip.block :=
        hcanonical.eventKeys_disjoint hgenesis hids fb hfb _ (mem_eventKeys.mpr (.inl ⟨id, hmem, rfl⟩))
      rw [apply_rowsOf_of_notMem hcert.operationIds hnot]
      exact ih (hids.mono (List.subset_cons_self _ _)) hfb

theorem Canonical.eventRows_absent (h : Canonical g genesis chain head s)
    (habsent : ∀ fb ∈ chain, id ∉ blockOperationIds fb.block) :
    eventRows chain (.eventsOperation id) = none := by
  refine eventRows_eq_none h.operationIds ?_
  intro fb hfb hmem
  rcases mem_eventKeys.mp hmem with ⟨id', hid', heq⟩ | hkem | heq
  · cases heq
    exact habsent fb hfb hid'
  · obtain ⟨op, -, hop⟩ := List.mem_filterMap.mp hkem
    obtain ⟨account, epoch, heq⟩ := kemKey_eq_some hop
    cases heq
  · cases heq

theorem Canonical.parent_of_mem (h : Canonical g genesis chain head s) :
    ∀ fb ∈ chain, (fb.block.height = 1 ∧ fb.block.parentBlockId = g.genesisAnchor) ∨
      ∃ previous ∈ chain, fb.block.height = previous.block.height + 1 ∧ 0 < previous.block.height.toNat ∧
        previous.block.height ≠ UINT64_MAX ∧ fb.block.parentBlockId = computeBlockId previous.block := by
  induction h with
  | genesis => exact fun _ => nofun
  | @block below parentHead parent s' tip hbelow hparent hmax hheight hcert hexec ih =>
    refine List.forall_mem_cons.mpr ⟨?_, ?_⟩
    · cases hbelow with
      | genesis => exact .inl ⟨hheight, hparent.symm⟩
      | @block below' _ _ _ previous hbelow' hparent' hmax' hheight' hcert' hexec' =>
        have hpos := ((Canonical.block hbelow' hparent' hmax' hheight' hcert' hexec').height_le previous
          List.mem_cons_self).1
        exact .inr ⟨previous, by simp, hheight, hpos, hmax, hparent.symm⟩
    · intro fb hfb
      rcases ih fb hfb with hfirst | ⟨previous, hprevious, hrest⟩
      · exact .inl hfirst
      · exact .inr ⟨previous, List.mem_cons_of_mem _ hprevious, hrest⟩

theorem Consistent.validateFinalizedEvent {genesis s : CybouState} {chain : List FinalizedBlock}
    {head : FinalizedHead} {db : NodeDb} {fb : FinalizedBlock} {index : UInt32}
    (h : Consistent g genesis chain head s db) (hreadable : ReadableChain chain) (hfb : fb ∈ chain)
    (hindex : index.toNat < fb.block.operations.length) :
    validateFinalizedEvent g db ⟨fb.block.height, index, computeBlockId fb.block⟩ = true := by
  obtain ⟨hpos, hle⟩ := h.canonical.height_le fb hfb
  have hzero : fb.block.height ≠ 0 := by
    intro heq
    rw [heq] at hpos
    exact absurd hpos (by decide)
  have hheight : ¬fb.block.height > head.height := by
    rw [gt_iff_lt, UInt64.lt_iff_toNat_lt]
    omega
  have hparent : (if fb.block.height > 1 then readHash db (.blockHeight (fb.block.height - 1))
      else some g.genesisAnchor) = some fb.block.parentBlockId := by
    rcases h.canonical.parent_of_mem fb hfb with ⟨hone, hanchor⟩ |
      ⟨previous, hprevious, hnext, hpos', hmax, hid⟩
    · rw [hone, if_neg (by decide), hanchor]
    · have hgt : fb.block.height > 1 := by
        rw [gt_iff_lt, UInt64.lt_iff_toNat_lt, hnext, toNat_succ_of_ne_max hmax]
        have hone : (1 : UInt64).toNat = 1 := rfl
        omega
      have hsub : fb.block.height - 1 = previous.block.height := by
        rw [hnext]
        simp
      rw [if_pos hgt, hsub, readHash_encodeLocalHash (h.blockHeight previous hprevious), hid]
  rw [Cybou.validateFinalizedEvent, h.getFinalizedHead, h.getBlockAtHeight hfb, if_pos (hreadable fb hfb)]
  dsimp only
  rw [if_neg (by simp [hzero, hheight, hindex]), hparent, (h.canonical.certified fb hfb).verified]
  simp

/-- **What one attempt finds on a complete index.** -/
theorem Consistent.findAttempt (h : Consistent g genesis chain head s db)
    (hgenesis : StateInvariant genesis) (hids : IdsDistinct chain) (hreadable : ReadableChain chain)
    (hrows : ∀ key : StoreKey, key.isEventRow = true → db key = eventRows chain key) (id : Hash256) :
    (∀ fb ∈ chain, ∀ i : Nat, fb.block.operations[i]?.bind computeOperationId = some id →
      (UInt32.ofNat i).toNat = i ∧ findAttempt g db id =
        some ⟨true, some ⟨fb.block.height, UInt32.ofNat i, computeBlockId fb.block⟩⟩) ∧
    ((∀ fb ∈ chain, id ∉ blockOperationIds fb.block) →
      findAttempt g db id = some { complete := true }) := by
  constructor
  · intro fb hfb i hid
    obtain ⟨op, hop, hopId⟩ := Option.bind_eq_some_iff.mp hid
    have hlt : i < fb.block.operations.length := (List.getElem?_eq_some_iff.mp hop).1
    have hindex : (UInt32.ofNat i).toNat = i := by
      have hlength := (h.canonical.certified fb hfb).length_operations
      have hsize := hreadable fb hfb
      have hmax : MAX_COMPACT_SIZE = 33554432 := rfl
      exact UInt32.toNat_ofNat_of_lt' (by rw [UInt32.size]; omega)
    refine ⟨hindex, ?_⟩
    have hrow := (hrows (.eventsOperation id) rfl).trans (h.canonical.eventRows_operation hgenesis hids hfb hid)
    have hvalid := @Consistent.validateFinalizedEvent _ _ _ _ _ _ _ _ (UInt32.ofNat i) h hreadable hfb
      (hindex.symm ▸ hlt)
    have hdecode := decodeLocation_encodeLocation ⟨fb.block.height, UInt32.ofNat i, computeBlockId fb.block⟩
    rw [Cybou.findAttempt, readBytes_of_small hrow (length_encodeLocation _ _ _)]
    dsimp only at hdecode ⊢
    rw [hdecode]
    dsimp only
    rw [hvalid, if_neg (by decide), h.getBlockAtHeight hfb, if_pos (hreadable fb hfb)]
    dsimp only
    rw [hindex, if_pos hid]
  · intro habsent
    have hrow := (hrows (.eventsOperation id) rfl).trans (h.canonical.eventRows_absent habsent)
    rw [Cybou.findAttempt, readBytes, hrow, Option.bind_none]
    dsimp only
    rw [if_pos (by simp [h.noOperation id habsent])]

/-- **The index is what a rebuild would write, and a lookup finds the operations of
    the chain.** -/
theorem event_index_runs {genesis : CybouState} {delivered : List FinalizedBlock} {node : Node}
    (hrun : IndexRun g genesis delivered node) (hids : IdsDistinct delivered) :
    ∃ chain head s, chain ⊆ delivered ∧ Consistent g genesis chain head s node.db ∧
      (readBytes node.db .eventsHead = some (encodeFinalizedHead head) →
        ∀ key : StoreKey, key.isEventRow = true → node.db key = eventRows chain key) ∧
      ((∀ fb ∈ delivered, (finalizedBytes fb).length ≤ MAX_FINALIZED_BLOCK_BYTES) →
        (∃ db, ensureFinalizedEvents g node.db true = (.ok true, db) ∧ Rebuilt chain head node.db db ∧
          (readBytes node.db .eventsHead = some (encodeFinalizedHead head) → db = node.db)) ∧
        ∀ id, ∃ location, (findIndexedOperation g node.db id).1 = .ok { complete := true, location } ∧
          ∀ found : FinalizedEventLocation, location = some found ↔
            ∃ fb ∈ chain, found.height = fb.block.height ∧ found.blockId = computeBlockId fb.block ∧
              fb.block.operations[found.operationIndex.toNat]?.bind computeOperationId = some id) := by
  obtain ⟨hgenesis, chain, head, s, hchain, hnode, hindexed⟩ := hrun.indexed hids
  have hstore := hnode.store
  have hcomplete : readBytes node.db .eventsHead = some (encodeFinalizedHead head) →
      node.db .eventsHead = some (encodeLocalBytes (encodeFinalizedHead head)) ∧
        ∀ key : StoreKey, key.isEventRow = true → node.db key = eventRows chain key := by
    intro hmarker
    rcases hindexed with hnone | hcomplete
    · rw [readBytes, hnone] at hmarker
      cases hmarker
    · exact hcomplete
  refine ⟨chain, head, s, hchain, hstore, fun hmarker => (hcomplete hmarker).2, ?_⟩
  intro hsizes
  have hreadable : ReadableChain chain := fun fb hfb => hsizes fb (hchain hfb)
  constructor
  · obtain ⟨db, hensure, hrebuilt⟩ := (hstore.ensure hindexed true).1 hreadable
    refine ⟨db, hensure, hrebuilt, ?_⟩
    intro hmarker
    funext key
    by_cases hrow : key.isEventRow = true
    · exact (hrebuilt.rows key hrow).trans ((hcomplete hmarker).2 key hrow).symm
    by_cases hevent : key.isEvent = true
    · have hkey : key = .eventsHead := by
        cases key <;> first | rfl | exact absurd rfl hrow | cases hevent
      rw [hkey, hrebuilt.marker, (hcomplete hmarker).1]
    · exact hrebuilt.others key (Bool.eq_false_of_not_eq_true hevent)
  · intro id
    obtain ⟨db, hensure, hrebuilt⟩ := (hstore.ensure hindexed false).1 hreadable
    have hstore' : Consistent g genesis chain head s db := hstore.sameRecords fun key _ hkey =>
      hrebuilt.others key hkey
    obtain ⟨hpresent, habsent⟩ := hstore'.findAttempt hgenesis (hids.mono hchain) hreadable hrebuilt.rows id
    have hfind : ∀ lookup, findAttempt g db id = some lookup →
        (findIndexedOperation g node.db id).1 = .ok lookup := by
      intro lookup hattempt
      rw [findIndexedOperation, findFrom, hensure]
      dsimp only
      rw [hattempt]
    by_cases hex : ∃ fb ∈ chain, ∃ i : Nat, fb.block.operations[i]?.bind computeOperationId = some id
    · obtain ⟨fb, hfb, i, hid⟩ := hex
      obtain ⟨hindex, hattempt⟩ := hpresent fb hfb i hid
      refine ⟨_, hfind _ hattempt, ?_⟩
      intro found
      constructor
      · intro heq
        cases heq
        exact ⟨fb, hfb, rfl, rfl, by rw [hindex]; exact hid⟩
      · intro hfound
        obtain ⟨fb', hfb', hheight, hblockId, hid'⟩ := hfound
        obtain ⟨-, hattempt'⟩ := hpresent fb' hfb' _ hid'
        rw [UInt32.ofNat_toNat, ← hheight, ← hblockId, hattempt] at hattempt'
        exact congrArg FinalizedEventLookup.location (Option.some.inj hattempt')
    · have hnone : ∀ fb ∈ chain, id ∉ blockOperationIds fb.block := by
        intro fb hfb hmem
        obtain ⟨op, hop, hopId⟩ := List.mem_filterMap.mp hmem
        obtain ⟨i, hi⟩ := List.mem_iff_getElem?.mp hop
        exact hex ⟨fb, hfb, i, by rw [hi]; exact hopId⟩
      refine ⟨none, hfind _ (habsent hnone), ?_⟩
      intro found
      constructor
      · exact fun h => by cases h
      · intro hfound
        obtain ⟨fb, hfb, -, -, hid⟩ := hfound
        exact absurd ⟨fb, hfb, _, hid⟩ hex

end

section Sample

attribute [local instance] Crypto.sample

set_option maxRecDepth 100000 in
theorem event_index_runs_clockBlock :
    ∃ node chain head s, IndexRun (sampleNetwork idleState) idleState [clockBlock] node ∧
      Consistent (sampleNetwork idleState) idleState chain head s node.db ∧
      ∀ id, ∃ location, (findIndexedOperation (sampleNetwork idleState) node.db id).1 =
        .ok { complete := true, location } := by
  obtain ⟨node, -, hrun, -⟩ := clockBlock_tip .done
  have hsize : (finalizedBytes clockBlock).length ≤ MAX_FINALIZED_BLOCK_BYTES := by decide
  obtain ⟨chain, head, s, -, hstore, -, hlookup⟩ :=
    event_index_runs hrun.indexRun (ids_clockBlock.mono (by simp))
  have hfound := (hlookup fun fb hfb => by rw [List.mem_singleton.mp hfb]; exact hsize).2
  refine ⟨node, chain, head, s, hrun.indexRun, hstore, ?_⟩
  intro id
  obtain ⟨location, hlocation, -⟩ := hfound id
  exact ⟨location, hlocation⟩

end Sample

end Cybou
