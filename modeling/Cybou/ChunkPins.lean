import Cybou.ChunkRuns

/-! # Pinned blobs (`chunk_retention.h`, and the precondition of `ChunkBlobStore::Remove`)

A collection asks the registry and then the admission store.  A purge asks neither
the registry nor anyone who does, so the user's copy of a chunk goes with the
provider's.
-/

namespace Cybou

open Library

namespace ChunkRetentionRegistry

variable {registry registry' : ChunkRetentionRegistry} {chunk : ChunkId}

/-! ### The two indexes of the registry -/

/-- Every reference is in both indexes or in neither. -/
def Aligned (registry : ChunkRetentionRegistry) : Prop :=
  ∀ chunk owner, registry.pins.find? (toLex (chunk, owner)) = registry.refs.find? (toLex (owner, chunk))

theorem Aligned.of_rows (h : registry.Aligned) (hpins : registry'.pins = registry.pins)
    (hrefs : registry'.refs = registry.refs) : registry'.Aligned := by
  intro chunk owner
  rw [hpins, hrefs]
  exact h chunk owner

theorem Aligned.written (h : registry.Aligned) (h' : registry'.Aligned) (fate : Fate) :
    (registry.written registry' fate).Aligned := by
  cases fate with
  | done => exact h'
  | lost => exact h
  | stored => exact h'

theorem Aligned.foldl {step : ChunkRetentionRegistry → ChunkId → ChunkRetentionRegistry}
    (hstep : ∀ registry chunk, registry.Aligned → (step registry chunk).Aligned) (h : registry.Aligned)
    (chunks : List ChunkId) : (chunks.foldl step registry).Aligned := by
  induction chunks generalizing registry with
  | nil => exact h
  | cons chunk chunks ih => exact ih (hstep registry chunk h)

theorem pair_eq_iff {chunk chunk' : ChunkId} {owner owner' : FixedBytes 32 ×ₗ FixedBytes 32} :
    toLex (chunk', owner') = toLex (chunk, owner) ↔ toLex (owner', chunk') = toLex (owner, chunk) := by
  constructor
  · intro heq
    obtain ⟨rfl, rfl⟩ := Prod.mk.inj (toLex.injective heq)
    rfl
  · intro heq
    obtain ⟨rfl, rfl⟩ := Prod.mk.inj (toLex.injective heq)
    rfl

theorem Aligned.pin (h : registry.Aligned) (key : RetentionKey) (chunks : List ChunkId) (fate : Fate) :
    (registry.pin key chunks fate).Aligned := by
  refine h.written (Aligned.foldl ?_ h chunks) fate
  intro registry chunk haligned other owner
  dsimp only
  rw [OrdMap.find?_set, OrdMap.find?_set]
  by_cases heq : toLex (other, owner) = toLex (chunk, key.owner)
  · rw [if_pos heq, if_pos (pair_eq_iff.mp heq)]
  · rw [if_neg heq, if_neg fun h => heq (pair_eq_iff.mpr h)]
    exact haligned other owner

theorem Aligned.release (h : registry.Aligned) (key : RetentionKey) (nowMs : UInt64) (fate : Fate) :
    (registry.release key nowMs fate).Aligned := by
  refine h.written (Aligned.foldl ?_ h _) fate
  intro registry chunk haligned other owner
  dsimp only
  rw [OrdMap.find?_erase, OrdMap.find?_erase]
  by_cases heq : toLex (other, owner) = toLex (chunk, key.owner)
  · rw [if_pos heq, if_pos (pair_eq_iff.mp heq)]
  · rw [if_neg heq, if_neg fun h => heq (pair_eq_iff.mpr h)]
    exact haligned other owner

theorem mem_pinned {key : RetentionKey} :
    chunk ∈ registry.pinned key ↔ registry.refs.find? (toLex (key.owner, chunk)) = some () := by
  unfold pinned
  constructor
  · intro h
    obtain ⟨entry, hentry, rfl⟩ := List.mem_map.mp h
    obtain ⟨hmem, howner⟩ := List.mem_filter.mp hentry
    have hrow := OrdMap.mem_entries_iff.mp hmem
    rw [← of_decide_eq_true howner]
    exact hrow
  · intro h
    refine List.mem_map.mpr ⟨(toLex (key.owner, chunk), ()), List.mem_filter.mpr ⟨?_, ?_⟩, rfl⟩
    · exact OrdMap.mem_entries_iff.mpr h
    · exact decide_eq_true rfl

/-- **`IsPinned` is right**: some reference holds the chunk. -/
theorem Aligned.isPinned_iff (h : registry.Aligned) :
    registry.isPinned chunk = true ↔ ∃ key, chunk ∈ registry.pinned key := by
  rw [isPinned, List.any_eq_true]
  constructor
  · rintro ⟨⟨row, _⟩, hmem, hchunk⟩
    refine ⟨{ holder := (ofLex (ofLex row).2).1, reference := (ofLex (ofLex row).2).2 }, mem_pinned.mpr ?_⟩
    have hrow := OrdMap.mem_entries_iff.mp hmem
    rw [← of_decide_eq_true hchunk]
    exact (h _ _).symm.trans hrow
  · rintro ⟨key, hpinned⟩
    have hrow := mem_pinned.mp hpinned
    rw [← h chunk key.owner] at hrow
    exact ⟨_, OrdMap.mem_entries_iff.mpr hrow, decide_eq_true rfl⟩

theorem not_pinned_of_mem_candidates {blobs : ChunkBlobStore} {candidate : UInt64 × ChunkId × UInt64}
    (h : candidate ∈ registry.candidates blobs) : registry.isPinned candidate.2.1 = false := by
  obtain ⟨entry, -, hentry⟩ := List.mem_filterMap.mp h
  split at hentry
  · cases hentry
  next size hsize =>
    rw [Option.ite_none_left_eq_some] at hentry
    obtain rfl := Option.some.inj hentry.2
    simpa using hentry.1

end ChunkRetentionRegistry

section

variable [Crypto]

namespace ChunkNode

variable {node node' : ChunkNode}

/-- **The invariant of the pins of a node**: no pin appears while a collection holds the
    lock, so none of its candidates is pinned. -/
structure PinsSound (node : ChunkNode) : Prop where
  aligned : node.retention.Aligned
  evictable : ∀ collection, node.collecting = some collection → ∀ candidate ∈ collection.evictable,
    node.retention.isPinned candidate.2.1 = false

omit [Crypto] in
theorem PinsSound.of_none (haligned : node.retention.Aligned) (hcollecting : node.collecting = none) :
    node.PinsSound := by
  refine ⟨haligned, fun collection hsome => ?_⟩
  rw [hcollecting] at hsome
  cases hsome

omit [Crypto] in
theorem PinsSound.congr (h : node.PinsSound) (hretention : node'.retention = node.retention)
    (hcollecting : node'.collecting = node.collecting) : node'.PinsSound := by
  obtain ⟨haligned, hevictable⟩ := h
  constructor
  · rw [hretention]
    exact haligned
  · rw [hretention, hcollecting]
    exact hevictable

omit [Crypto] in
theorem PinsSound.registryCall {retention : ChunkRetentionRegistry} (haligned : retention.Aligned)
    (hstep : node.registryCall retention = some node') : node'.PinsSound := by
  rw [ChunkNode.registryCall, Option.ite_none_right_eq_some] at hstep
  obtain ⟨⟨hcollecting, -⟩, hstep⟩ := hstep
  obtain rfl := Option.some.inj hstep
  exact PinsSound.of_none haligned hcollecting

omit [Crypto] in
theorem next_evictable {collection : Collection} {removed : Bool} {candidate : UInt64 × ChunkId × UInt64}
    (h : candidate ∈ (collection.next removed).evictable) : candidate ∈ collection.evictable := by
  unfold Collection.next at h
  split at h
  next => exact h
  next used id size rest hall =>
    rw [hall]
    by_cases hremoved : removed = true
    · rw [if_pos hremoved] at h
      exact List.mem_cons_of_mem _ h
    · rw [if_neg hremoved] at h
      exact List.mem_cons_of_mem _ h

/-- **Every step keeps the invariant of the pins.** -/
theorem PinsSound.step (h : node.PinsSound) {event : ChunkEvent} (hstep : node.step event = some node') :
    node'.PinsSound := by
  cases event with
  | putChunk request outcome =>
    rw [ChunkNode.step, Option.ite_none_right_eq_some] at hstep
    obtain rfl := Option.some.inj hstep.2
    exact h.congr rfl rfl
  | purgePublication publication fate =>
    rw [ChunkNode.step, Option.ite_none_right_eq_some] at hstep
    obtain ⟨-, hstep⟩ := hstep
    split at hstep
    · obtain rfl := Option.some.inj hstep
      exact h
    · cases fate <;> obtain rfl := Option.some.inj hstep <;> exact h.congr rfl rfl
  | retryPendingPurges maxChunks =>
    rw [ChunkNode.step, Option.ite_none_right_eq_some] at hstep
    obtain rfl := Option.some.inj hstep.2
    exact h.congr rfl rfl
  | purgeNext unlinked fate =>
    rw [ChunkNode.step, ChunkNode.purgeNext] at hstep
    split at hstep
    · rw [Option.ite_none_right_eq_some] at hstep
      obtain rfl := Option.some.inj hstep.2
      exact h.congr rfl rfl
    · obtain rfl := Option.some.inj hstep
      exact h.congr rfl rfl
  | removeUnlessAdmitted chunk unlinked =>
    rw [ChunkNode.step, Option.ite_none_right_eq_some] at hstep
    obtain rfl := Option.some.inj hstep.2
    exact h.congr rfl rfl
  | pin key chunks fate => exact PinsSound.registryCall (h.aligned.pin key chunks fate) hstep
  | release key nowMs fate => exact PinsSound.registryCall (h.aligned.release key nowMs fate) hstep
  | noteCacheUse chunk nowMs fate =>
    refine PinsSound.registryCall (h.aligned.written ?_ fate) hstep
    exact h.aligned.of_rows rfl rfl
  | collect cacheBudgetBytes nowMs graceMs maxRemovals =>
    rw [ChunkNode.step, Option.ite_none_right_eq_some] at hstep
    obtain rfl := Option.some.inj hstep.2
    refine ⟨h.aligned, fun collection hsome candidate hmem => ?_⟩
    obtain rfl := Option.some.inj hsome
    exact ChunkRetentionRegistry.not_pinned_of_mem_candidates (List.mem_mergeSort.mp hmem)
  | collectNext unlinked =>
    rw [ChunkNode.step, ChunkNode.collectNext] at hstep
    split at hstep
    · cases hstep
    next collection hcollecting =>
      rw [Option.ite_none_left_eq_some] at hstep
      obtain ⟨-, hstep⟩ := hstep
      split at hstep
      · cases hstep
      next used chunk size rest _ =>
        obtain rfl := Option.some.inj hstep
        refine ⟨h.aligned, fun collection' hsome candidate hmem => ?_⟩
        obtain rfl := Option.some.inj hsome
        exact h.evictable collection hcollecting candidate (next_evictable hmem)
  | endCollect fate =>
    obtain ⟨collection, -, hstep⟩ := Option.bind_eq_some_iff.mp hstep
    rw [Option.ite_none_right_eq_some] at hstep
    obtain rfl := Option.some.inj hstep.2
    refine PinsSound.of_none (h.aligned.written ?_ fate) rfl
    exact h.aligned.of_rows rfl rfl
  | crash capacityBytes =>
    obtain rfl := Option.some.inj hstep
    exact PinsSound.of_none h.aligned rfl
  | opened fate =>
    rw [ChunkNode.step, ChunkNode.opened, Option.ite_none_right_eq_some] at hstep
    obtain ⟨-, hstep⟩ := hstep
    split at hstep
    · obtain rfl := Option.some.inj hstep
      exact h.congr rfl rfl
    · cases fate <;> obtain rfl := Option.some.inj hstep <;> exact h.congr rfl rfl

theorem PinsSound.run (h : node.PinsSound) {events : List ChunkEvent} (hrun : node.run events = some node') :
    node'.PinsSound := by
  induction events generalizing node with
  | nil =>
    obtain rfl := Option.some.inj hrun
    exact h
  | cons event events ih =>
    obtain ⟨next, hstep, hrest⟩ := Option.bind_eq_some_iff.mp hrun
    exact ih (h.step hstep) hrest

/-! ### What a purge does to pinned blobs -/

def PurgeSparesPins (node : ChunkNode) : ChunkEvent → Prop
  | .purgeNext unlinked _ => ∀ id rest, node.pending = id :: rest → unlinked = true → node.blobs id ≠ none →
      node.retention.isPinned id = false
  | _ => True

theorem Sound.purgeNext_deletes (h : node.Sound) {id : ChunkId} {rest : List ChunkId} {fate : Fate}
    (hpending : node.pending = id :: rest) (hstep : node.step (.purgeNext true fate) = some node') : node'.blobs id = none := by
  have hhead : node.store.purges.find? id ≠ none := h.purging id (by rw [hpending]; exact List.mem_cons_self)
  rw [ChunkNode.step, ChunkNode.purgeNext, hpending] at hstep
  rcases hone : node.store.purgeOne node.blobs id true fate with ⟨result, store', blobs'⟩
  dsimp only at hstep
  rw [hone] at hstep
  obtain rfl := Option.some.inj hstep
  rcases (h.rows.purgeOne hhead hone).removed with ⟨-, hgone, -⟩ | ⟨-, -, -, hresists⟩
  · dsimp only
    rw [hgone, Function.update_self]
  · cases hresists

/-- **When pinned blobs are kept.**  In every run of calls, outcomes of the disk and
    crashes, a step of the store or of the registry deletes no pinned blob if and only if
    it is not a purge that takes up one. -/
theorem pins_kept_iff {start : ChunkNode} {events : List ChunkEvent} {event : ChunkEvent}
    (hfresh : start.Fresh) (haligned : start.retention.Aligned) (hrun : start.run events = some node)
    (hdirect : ∀ chunk unlinked, event ≠ .removeUnlessAdmitted chunk unlinked)
    (hstep : node.step event = some node') :
    (∀ id, (∃ key, id ∈ node.retention.pinned key) → node.blobs id ≠ none → node'.blobs id ≠ none) ↔
      node.PurgeSparesPins event := by
  have hsound := hfresh.sound.run hrun
  have hpins := (PinsSound.of_none haligned hfresh.collecting).run hrun
  constructor
  · intro hkept
    cases event with
    | purgeNext unlinked fate =>
      intro id rest hpending hunlinked hpresent
      rw [hunlinked] at hstep
      by_contra hpinned
      have hkey := hpins.aligned.isPinned_iff.mp (by simpa using hpinned)
      exact hkept id hkey hpresent (hsound.purgeNext_deletes hpending hstep)
    | _ => trivial
  · intro hspares id hkey hpresent hgone
    have hpinned := hpins.aligned.isPinned_iff.mpr hkey
    cases hsound.deletes hstep hpresent hgone with
    | purge hpending =>
      have hfree := hspares id _ hpending rfl hpresent
      rw [hpinned] at hfree
      cases hfree
    | direct => exact hdirect _ _ rfl
    | evict hcollecting hnext =>
      have hfree := hpins.evictable _ hcollecting _ (by rw [hnext]; exact List.mem_cons_self)
      rw [hpinned] at hfree
      cases hfree

end ChunkNode

end

section Sample

attribute [local instance] Crypto.sample

theorem sampleChunkNode_aligned : sampleChunkNode.retention.Aligned := by
  intro chunk owner
  rfl

theorem sample_purge_deletes_pin : ∃ node node', sampleChunkNode.run sampleChunkEvents = some node ∧
    node.step (.purgeNext true .done) = some node' ∧ node.blobs sampleChunkId ≠ none ∧
    sampleChunkId ∈ node.retention.pinned sampleRetentionKey ∧ node'.blobs sampleChunkId = none := by
  obtain ⟨node, hrun, hpending, hblob, hpinned⟩ := sampleChunkRun
  have hsome : (node.step (.purgeNext true .done)).isSome = true := by
    rw [ChunkNode.step, ChunkNode.purgeNext, hpending]
    rfl
  obtain ⟨node', hstep⟩ := Option.isSome_iff_exists.mp hsome
  have hpresent : node.blobs sampleChunkId ≠ none := by
    rw [hblob]
    simp
  refine ⟨node, node', hrun, hstep, hpresent, ?_, ?_⟩
  · rw [hpinned]
    exact List.mem_cons_self
  · exact (sampleChunkNode_fresh.sound.run hrun).purgeNext_deletes hpending hstep

/-- The promise of the registry is broken in a run of pins, puts and purges. -/
theorem pins_not_kept : ¬∀ (events : List ChunkEvent) (event : ChunkEvent) (node node' : ChunkNode),
    sampleChunkNode.run events = some node → node.step event = some node' →
      (∀ chunk unlinked, event ≠ .removeUnlessAdmitted chunk unlinked) →
      ∀ id, (∃ key, id ∈ node.retention.pinned key) → node.blobs id ≠ none → node'.blobs id ≠ none := by
  intro hall
  obtain ⟨node, node', hrun, hstep, hpresent, hpinned, hgone⟩ := sample_purge_deletes_pin
  exact hall sampleChunkEvents (.purgeNext true .done) node node' hrun hstep (by simp) sampleChunkId
    ⟨sampleRetentionKey, hpinned⟩ hpresent hgone

theorem pins_kept_iff_sample : ∃ node node', sampleChunkNode.run sampleChunkEvents = some node ∧
    node.step (.purgeNext true .done) = some node' ∧ ¬node.PurgeSparesPins (.purgeNext true .done) := by
  obtain ⟨node, node', hrun, hstep, hpresent, hpinned, hgone⟩ := sample_purge_deletes_pin
  have h := ChunkNode.pins_kept_iff sampleChunkNode_fresh sampleChunkNode_aligned hrun (by simp) hstep
  refine ⟨node, node', hrun, hstep, fun hspares => ?_⟩
  exact h.mpr hspares sampleChunkId ⟨sampleRetentionKey, hpinned⟩ hpresent hgone

end Sample

end Cybou
