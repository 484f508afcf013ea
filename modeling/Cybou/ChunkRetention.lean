import Cybou.BlobAccounting
import Cybou.ChunkPins

/-! # Eviction from the blob cache (`chunk_retention.cpp`)

A pass of `Collect` looks at the cached blobs that nothing pins, the least recently used
first, and stops at the first one that is still in its grace period: those behind it are
fresher.  The end of a grace period is a sum of two 64-bit numbers.  Where it wraps, the
freshest blob of all is behind the others and yet long overdue.

What a pass removes is written out first (`mem_evicted_iff`); the passes that do what they
are for are then those that reach no such blob (`retained_iff`).
-/

namespace Cybou

open Library

/-! ### Calls -/

/-- A candidate of `Collect`: the time of its last use, the blob and its size. -/
abbrev Candidate := UInt64 × ChunkId × UInt64

/-- The blob files of a store that is open: it counts their bytes with 64 bits. -/
structure BlobFiles where
  files : OrdMap ChunkId BlobFile
  fits : totalBytes files < 2 ^ 64

def BlobFiles.blobs (blobs : BlobFiles) : ChunkBlobStore := fun id => (blobs.files.find? id).map Subtype.val

/-- What has come of a pass when its loop ends. -/
structure Sweep where
  collection : Collection
  /-- The candidates whose blobs are gone, in the order of their removal. -/
  evicted : List Candidate
  /-- No call of `remove` has thrown. -/
  finished : Bool

/-- The loop of `Collect`; `remove` is `none` where it throws. -/
def Collection.sweep (remove : ChunkId → Option Bool) : Nat → Collection → Sweep
  | 0, c => { collection := c, evicted := [], finished := true }
  | fuel + 1, c =>
    if c.stops = true then { collection := c, evicted := [], finished := true }
    else
      match c.evictable with
      | [] => { collection := c, evicted := [], finished := true }
      | candidate :: _ =>
        match remove candidate.2.1 with
        | none => { collection := c, evicted := [], finished := false }
        | some wasRemoved =>
          let rest := (c.next wasRemoved).sweep remove fuel
          { rest with evicted := if wasRemoved = true then candidate :: rest.evicted else rest.evicted }

/-- The arguments of `Collect`, and what becomes of its batch. -/
structure CollectCall where
  cacheBudgetBytes : UInt64
  nowMs : UInt64
  graceMs : UInt64
  maxRemovals : Nat
  /-- The callback; `none` where it throws. -/
  remove : ChunkId → Option Bool
  fate : Fate

structure CollectResult where
  cacheBytes : UInt64
  removed : Nat
  removedBytes : UInt64
deriving DecidableEq, Repr

theorem totalBytes_erase_le (files : OrdMap ChunkId BlobFile) (id : ChunkId) :
    totalBytes (files.erase id) ≤ totalBytes files := by
  cases h : files.find? id with
  | none => exact (congrArg totalBytes (OrdMap.ext_entries (eraseIn_of_none h))).le
  | some file => exact (Nat.le_add_right _ _).trans (totalBytes_erase h).le

theorem totalBytes_foldl_erase_le (files : OrdMap ChunkId BlobFile) (ids : List ChunkId) :
    totalBytes (ids.foldl (fun files id => files.erase id) files) ≤ totalBytes files := by
  induction ids generalizing files with
  | nil => exact le_rfl
  | cons id ids ih => exact (ih (files.erase id)).trans (totalBytes_erase_le files id)

def BlobFiles.without (blobs : BlobFiles) (ids : List ChunkId) : BlobFiles where
  files := ids.foldl (fun files id => files.erase id) blobs.files
  fits := (totalBytes_foldl_erase_le blobs.files ids).trans_lt blobs.fits

/-- A registry and the blobs it keeps the reasons of. -/
structure RetentionStore where
  registry : ChunkRetentionRegistry
  blobs : BlobFiles

inductive RetentionEvent where
  | pin (key : RetentionKey) (chunks : List ChunkId) (fate : Fate)
  | release (key : RetentionKey) (nowMs : UInt64) (fate : Fate)
  | noteCacheUse (chunk : ChunkId) (nowMs : UInt64) (fate : Fate)
  | collect (call : CollectCall)
  /-- Whatever else is done to the blobs between two calls. -/
  | disk (blobs : BlobFiles)

namespace RetentionStore

variable (s : RetentionStore)

/-- The registry and the blobs of a node that has just been set up. -/
def fresh (blobs : BlobFiles) : RetentionStore where
  registry := { pins := ∅, refs := ∅, cache := ∅ }
  blobs := blobs

def start (call : CollectCall) : Collection :=
  s.registry.startCollect s.blobs.blobs call.cacheBudgetBytes call.nowMs call.graceMs call.maxRemovals

def sweep (call : CollectCall) : Sweep :=
  (s.start call).sweep call.remove (s.start call).evictable.length

/-- The candidates that a `Collect` removes. -/
def evicted (call : CollectCall) : List Candidate := (s.sweep call).evicted

/-- `Collect`, where the database can be read. -/
def collect (call : CollectCall) : CollectResult × RetentionStore :=
  let sweep := s.sweep call
  ({ cacheBytes := sweep.collection.cacheBytes
     removed := sweep.collection.removed
     removedBytes := sweep.collection.removedBytes },
    { registry := if sweep.finished = true then s.registry.endCollect sweep.collection call.fate else s.registry
      blobs := s.blobs.without (sweep.evicted.map fun c => c.2.1) })

def step : RetentionEvent → RetentionStore
  | .pin key chunks fate => { s with registry := s.registry.pin key chunks fate }
  | .release key nowMs fate => { s with registry := s.registry.release key nowMs fate }
  | .noteCacheUse chunk nowMs fate => { s with registry := s.registry.noteCacheUse chunk nowMs fate }
  | .collect call => (s.collect call).2
  | .disk blobs => { s with blobs }

end RetentionStore

/-! ### What the calls are for -/

/-- The first was used before the second, or has the smaller id. -/
def Older (a b : Candidate) : Prop := a.1 < b.1 ∨ a.1 = b.1 ∧ a.2.1 < b.2.1

def sizeSum (candidates : List Candidate) : Nat := (candidates.map fun c => c.2.2.toNat).sum

namespace RetentionStore

def unpinnedCacheBytes (s : RetentionStore) : Nat := sizeSum (s.registry.candidates s.blobs.blobs)

structure CollectRight (s : RetentionStore) (call : CollectCall) : Prop where
  /-- Only what is cached, there, not pinned and past its grace period goes, if the
      callback agrees. -/
  eligible : ∀ c ∈ s.evicted call, s.registry.cache.find? c.2.1 = some c.1 ∧
    s.blobs.blobs.storedSize c.2.1 = some c.2.2 ∧ (∀ key, c.2.1 ∉ s.registry.pinned key) ∧
    c.1.toNat + call.graceMs.toNat ≤ call.nowMs.toNat ∧ call.remove c.2.1 = some true
  /-- The oldest go first. -/
  ordered : (s.evicted call).Pairwise Older
  /-- Nothing older that the callback would have removed is left behind. -/
  oldest : ∀ c ∈ s.evicted call, ∀ d ∈ s.registry.candidates s.blobs.blobs, Older d c →
    call.remove d.2.1 = some true → d ∈ s.evicted call
  atMost : (s.evicted call).length ≤ call.maxRemovals
  /-- Before each removal the cache is over its budget. -/
  needed : ∀ earlier c later, s.evicted call = earlier ++ c :: later →
    call.cacheBudgetBytes.toNat + sizeSum earlier < s.unpinnedCacheBytes
  /-- The result tells the bytes that are left, and what has gone. -/
  cacheBytes : (s.collect call).1.cacheBytes.toNat = (s.collect call).2.unpinnedCacheBytes
  removed : (s.collect call).1.removed = (s.evicted call).length
  removedBytes : (s.collect call).1.removedBytes.toNat = sizeSum (s.evicted call)

def StepRight (s : RetentionStore) (event : RetentionEvent) : Prop :=
  match event with
  | .pin key chunks fate => ∀ key' chunk, chunk ∈ (s.step event).registry.pinned key' ↔
      chunk ∈ s.registry.pinned key' ∨ fate ≠ .lost ∧ key' = key ∧ chunk ∈ chunks
  | .release key _ fate => ∀ key' chunk, chunk ∈ (s.step event).registry.pinned key' ↔
      chunk ∈ s.registry.pinned key' ∧ (fate ≠ .lost → key' ≠ key)
  | .collect call => s.CollectRight call
  | .noteCacheUse _ _ _ | .disk _ => True

end RetentionStore

/-- The registry does what it is for, in every state of a run and at every step. -/
def Retained (s : RetentionStore) : List RetentionEvent → Prop
  | [] => s.registry.Aligned
  | event :: rest => s.registry.Aligned ∧ s.StepRight event ∧ Retained (s.step event) rest

def agreed (remove : ChunkId → Option Bool) (candidates : List Candidate) : List Candidate :=
  candidates.filter fun c => decide (remove c.2.1 = some true)

/-- A pass that starts as `c` comes to the candidate `e` after the candidates `before`, and
    removes it. -/
structure Collection.Reaches (c : Collection) (remove : ChunkId → Option Bool) (before : List Candidate)
    (e : Candidate) : Prop where
  /-- Those before it are all those in front of it. -/
  next : ∃ after, c.evictable = before ++ e :: after
  /-- The callback answers for each of them, and removes `e`. -/
  asked : ∀ d ∈ before, remove d.2.1 ≠ none
  removes : remove e.2.1 = some true
  /-- The 64-bit sums are over. -/
  due : ∀ d ∈ before ++ [e], ¬d.1 + c.graceMs > c.nowMs
  /-- Neither limit has stopped the pass. -/
  room : c.removed + (agreed remove before).length < c.maxRemovals
  exceeding : c.cacheBudgetBytes.toNat + sizeSum (agreed remove before) < c.cacheBytes.toNat

/-- No pass of the run comes to a blob whose grace period ends after 2⁶⁴ milliseconds. -/
def Unwrapped (s : RetentionStore) : List RetentionEvent → Prop
  | [] => True
  | event :: rest => (∀ call, event = .collect call → ∀ before c, (s.start call).Reaches call.remove before c →
      c.1.toNat + call.graceMs.toNat < 2 ^ 64) ∧ Unwrapped (s.step event) rest

/-! ### The loop of a pass -/

@[simp] theorem sizeSum_nil : sizeSum [] = 0 := rfl

@[simp] theorem sizeSum_cons (c : Candidate) (rest : List Candidate) :
    sizeSum (c :: rest) = c.2.2.toNat + sizeSum rest := by
  simp [sizeSum]

@[simp] theorem sizeSum_append (first second : List Candidate) :
    sizeSum (first ++ second) = sizeSum first + sizeSum second := by
  simp [sizeSum]

variable {first second candidates : List Candidate}

theorem sizeSum_perm (h : first.Perm second) : sizeSum first = sizeSum second :=
  (h.map _).sum_eq

theorem sizeSum_sublist (h : first.Sublist second) :
    sizeSum first ≤ sizeSum second := by
  induction h with
  | slnil => exact le_rfl
  | cons c _ ih => simpa using ih.trans (Nat.le_add_left _ _)
  | cons_cons c _ ih => simpa using ih

namespace Collection

variable {c : Collection} {remove : ChunkId → Option Bool} {candidate : Candidate} {rest : List Candidate}
  {wasRemoved : Bool}

theorem stops_cons (h : c.evictable = candidate :: rest) : c.stops = false ↔
    c.cacheBudgetBytes.toNat < c.cacheBytes.toNat ∧ c.removed < c.maxRemovals ∧
      ¬candidate.1 + c.graceMs > c.nowMs := by
  simp only [stops, h, Bool.or_eq_false_iff, decide_eq_false_iff_not, UInt64.not_le, UInt64.lt_iff_toNat_lt,
    ge_iff_le, Nat.not_le, and_assoc]

theorem next_kept (h : c.evictable = candidate :: rest) : c.next false = { c with evictable := rest } := by
  simp only [next, h, Bool.false_eq_true, if_false]

theorem next_removed (h : c.evictable = candidate :: rest) : c.next true =
    { c with
      evictable := rest
      forget := c.forget ++ [candidate.2.1]
      cacheBytes := c.cacheBytes - candidate.2.2
      removedBytes := c.removedBytes + candidate.2.2
      removed := c.removed + 1 } := by
  simp only [next, h, if_true]

variable {fuel : Nat}

/-- **The induction of a pass**: it stops, the callback throws, or it answers and the pass
    goes on. -/
theorem sweep_induction {motive : Collection → Sweep → Prop}
    (stop : ∀ c, c.stops = true → motive c { collection := c, evicted := [], finished := true })
    (throws : ∀ c candidate rest, c.evictable = candidate :: rest → c.stops = false →
      remove candidate.2.1 = none → motive c { collection := c, evicted := [], finished := false })
    (kept : ∀ c candidate rest sweep, c.evictable = candidate :: rest → c.stops = false →
      remove candidate.2.1 = some false → motive (c.next false) sweep → motive c sweep)
    (removes : ∀ c candidate rest sweep, c.evictable = candidate :: rest → c.stops = false →
      remove candidate.2.1 = some true → motive (c.next true) sweep →
        motive c { sweep with evicted := candidate :: sweep.evicted })
    (c : Collection) (hfuel : c.evictable.length ≤ fuel) : motive c (c.sweep remove fuel) := by
  induction fuel generalizing c with
  | zero =>
    have hnil := List.length_eq_zero_iff.mp (Nat.le_zero.mp hfuel)
    refine stop c ?_
    simp only [stops, hnil]
  | succ fuel ih =>
    rw [sweep]
    by_cases hstops : c.stops = true
    · rw [if_pos hstops]
      exact stop c hstops
    · rw [if_neg hstops]
      have hgoes := eq_false_of_ne_true hstops
      cases hevictable : c.evictable with
      | nil =>
        refine absurd ?_ hstops
        simp only [stops, hevictable]
      | cons candidate rest =>
        rw [hevictable, List.length_cons] at hfuel
        dsimp only
        cases hremove : remove candidate.2.1 with
        | none => exact throws c candidate rest hevictable hgoes hremove
        | some wasRemoved =>
          cases wasRemoved with
          | false =>
            refine kept c candidate rest _ hevictable hgoes hremove (ih (c.next false) ?_)
            rw [next_kept hevictable]
            exact Nat.le_of_succ_le_succ hfuel
          | true =>
            refine removes c candidate rest _ hevictable hgoes hremove (ih (c.next true) ?_)
            rw [next_removed hevictable]
            exact Nat.le_of_succ_le_succ hfuel

structure Counts (c : Collection) : Prop where
  fits : sizeSum c.evictable ≤ c.cacheBytes.toNat
  small : c.removedBytes.toNat + c.cacheBytes.toNat < 2 ^ 64

theorem Counts.kept (h : c.Counts) (hcons : c.evictable = candidate :: rest) : (c.next false).Counts := by
  have hfits := h.fits
  rw [hcons, sizeSum_cons] at hfits
  rw [next_kept hcons]
  exact ⟨(Nat.le_add_left _ _).trans hfits, h.small⟩

theorem Counts.cacheBytes_next (h : c.Counts) (hcons : c.evictable = candidate :: rest) :
    (c.next true).cacheBytes.toNat + candidate.2.2.toNat = c.cacheBytes.toNat := by
  have hfits := h.fits
  rw [hcons, sizeSum_cons] at hfits
  have hle : candidate.2.2.toNat ≤ c.cacheBytes.toNat := (Nat.le_add_right _ _).trans hfits
  rw [next_removed hcons]
  dsimp only
  rw [UInt64.toNat_sub_of_le _ _ (UInt64.le_iff_toNat_le.mpr hle)]
  exact Nat.sub_add_cancel hle

theorem Counts.removedBytes_next (h : c.Counts) (hcons : c.evictable = candidate :: rest) :
    (c.next true).removedBytes.toNat = c.removedBytes.toNat + candidate.2.2.toNat := by
  have hnext := h.cacheBytes_next hcons
  have hsmall := h.small
  rw [next_removed hcons]
  dsimp only
  rw [UInt64.toNat_add]
  exact Nat.mod_eq_of_lt (by omega)

theorem Counts.removes (h : c.Counts) (hcons : c.evictable = candidate :: rest) : (c.next true).Counts := by
  have hfits := h.fits
  rw [hcons, sizeSum_cons] at hfits
  have hcache := h.cacheBytes_next hcons
  have hremoved := h.removedBytes_next hcons
  have hsmall := h.small
  refine ⟨?_, by omega⟩
  rw [next_removed hcons] at hcache ⊢
  dsimp only at hcache ⊢
  omega

/-- **What every pass does.** -/
structure Swept (c : Collection) (remove : ChunkId → Option Bool) (sweep : Sweep) : Prop where
  sublist : sweep.evicted.Sublist c.evictable
  agrees : ∀ e ∈ sweep.evicted, remove e.2.1 = some true
  forget : sweep.collection.forget = c.forget ++ sweep.evicted.map fun e => e.2.1
  cacheBytes : sweep.collection.cacheBytes.toNat + sizeSum sweep.evicted = c.cacheBytes.toNat
  removedBytes : sweep.collection.removedBytes.toNat = c.removedBytes.toNat + sizeSum sweep.evicted
  removed : sweep.collection.removed = c.removed + sweep.evicted.length
  atMost : c.removed ≤ c.maxRemovals → c.removed + sweep.evicted.length ≤ c.maxRemovals
  needed : ∀ earlier e later, sweep.evicted = earlier ++ e :: later →
    c.cacheBudgetBytes.toNat + sizeSum earlier < c.cacheBytes.toNat

theorem Swept.ends (finished : Bool) :
    c.Swept remove { collection := c, evicted := [], finished } where
  sublist := List.nil_sublist _
  agrees := fun e he => absurd he List.not_mem_nil
  forget := (List.append_nil _).symm
  cacheBytes := rfl
  removedBytes := rfl
  removed := rfl
  atMost := id
  needed := fun earlier e later h => by cases earlier <;> cases h

theorem Swept.kept {sweep : Sweep} (hcons : c.evictable = candidate :: rest) (h : (c.next false).Swept remove sweep) :
    c.Swept remove sweep := by
  rw [next_kept hcons] at h
  exact
    { h with
      sublist := by
        rw [hcons]
        exact h.sublist.trans (List.sublist_cons_self _ _) }

/-- A turn of the pass that removes its candidate. -/
theorem Swept.removes {sweep : Sweep} (hcounts : c.Counts) (hcons : c.evictable = candidate :: rest)
    (hstops : c.stops = false) (hremove : remove candidate.2.1 = some true) (h : (c.next true).Swept remove sweep) :
    c.Swept remove { sweep with evicted := candidate :: sweep.evicted } := by
  obtain ⟨hbudget, hroom, -⟩ := (stops_cons hcons).mp hstops
  have hcache := hcounts.cacheBytes_next hcons
  have hremoved := hcounts.removedBytes_next hcons
  have hcacheBytes := h.cacheBytes
  have hremovedBytes := h.removedBytes
  have hneeded := h.needed
  rw [next_removed hcons] at h hcache hremoved hcacheBytes hremovedBytes hneeded
  refine ⟨?_, ?_, ?_, ?_, ?_, ?_, ?_, ?_⟩
  · rw [hcons]
    exact h.sublist.cons_cons candidate
  · intro e he
    rcases List.mem_cons.mp he with rfl | he
    · exact hremove
    · exact h.agrees e he
  · rw [h.forget, List.map_cons, List.append_assoc]
    rfl
  · dsimp only at hcache hcacheBytes ⊢
    rw [sizeSum_cons]
    omega
  · dsimp only at hremoved hremovedBytes ⊢
    rw [sizeSum_cons]
    omega
  · rw [h.removed, List.length_cons]
    dsimp only
    omega
  · intro _
    have hatMost := h.atMost hroom
    rw [List.length_cons]
    dsimp only at hatMost
    omega
  · intro earlier e later heq
    cases earlier with
    | nil => exact hbudget
    | cons first earlier =>
      obtain ⟨rfl, htail⟩ := List.cons.inj heq
      have hafter := hneeded earlier e later htail
      dsimp only at hcache hafter
      rw [sizeSum_cons]
      omega

theorem sweep_swept (h : c.Counts) (hfuel : c.evictable.length ≤ fuel) :
    c.Swept remove (c.sweep remove fuel) := by
  revert h
  refine sweep_induction (motive := fun c sweep => c.Counts → c.Swept remove sweep) ?_ ?_ ?_ ?_ c hfuel
  · intro c _ _
    exact .ends true
  · intro c candidate rest _ _ _ _
    exact .ends false
  · intro c candidate rest sweep hcons _ _ ih h
    exact .kept hcons (ih (h.kept hcons))
  · intro c candidate rest sweep hcons hstops hremove ih h
    exact .removes h hcons hstops hremove (ih (h.removes hcons))

/-! ### Which candidates a pass comes to -/

variable {before : List Candidate} {e : Candidate}

theorem agreed_cons (remove : ChunkId → Option Bool) (d : Candidate) (before : List Candidate) :
    agreed remove (d :: before) = agreed remove [d] ++ agreed remove before :=
  List.filter_append [d] before

theorem agreed_sublist (remove : ChunkId → Option Bool) {first second : List Candidate} (h : first.Sublist second) :
    (agreed remove first).Sublist (agreed remove second) :=
  h.filter _

theorem next_answered (h : c.Counts) (hcons : c.evictable = candidate :: rest)
    (hremove : remove candidate.2.1 = some wasRemoved) :
    (c.next wasRemoved).removed = c.removed + (agreed remove [candidate]).length ∧
      (c.next wasRemoved).cacheBytes.toNat + sizeSum (agreed remove [candidate]) = c.cacheBytes.toNat := by
  cases wasRemoved with
  | false =>
    have hnone : agreed remove [candidate] = [] := by simp [agreed, hremove]
    rw [hnone, next_kept hcons]
    exact ⟨rfl, rfl⟩
  | true =>
    have hone : agreed remove [candidate] = [candidate] := by simp [agreed, hremove]
    have hcache := h.cacheBytes_next hcons
    rw [hone]
    refine ⟨?_, by simpa using hcache⟩
    rw [next_removed hcons]
    rfl

theorem next_limits (hcons : c.evictable = candidate :: rest) (wasRemoved : Bool) :
    (c.next wasRemoved).evictable = rest ∧ (c.next wasRemoved).graceMs = c.graceMs ∧
      (c.next wasRemoved).nowMs = c.nowMs ∧ (c.next wasRemoved).cacheBudgetBytes = c.cacheBudgetBytes ∧
      (c.next wasRemoved).maxRemovals = c.maxRemovals := by
  cases wasRemoved with
  | false =>
    rw [next_kept hcons]
    exact ⟨rfl, rfl, rfl, rfl, rfl⟩
  | true =>
    rw [next_removed hcons]
    exact ⟨rfl, rfl, rfl, rfl, rfl⟩

theorem Reaches.not_stops (h : c.Reaches remove before e) : c.stops = false := by
  obtain ⟨after, hnext⟩ := h.next
  have hroom := h.room
  have hexceeding := h.exceeding
  cases before with
  | nil => exact (stops_cons hnext).mpr ⟨by omega, by omega, h.due e (by simp)⟩
  | cons d before => exact (stops_cons hnext).mpr ⟨by omega, by omega, h.due d (by simp)⟩

theorem Reaches.first_answered (h : c.Reaches remove before e) (hcons : c.evictable = candidate :: rest) :
    remove candidate.2.1 ≠ none := by
  obtain ⟨after, hnext⟩ := h.next
  cases before with
  | nil =>
    obtain ⟨rfl, -⟩ := List.cons.inj (hcons.symm.trans hnext)
    rw [h.removes]
    simp
  | cons d before =>
    obtain ⟨rfl, -⟩ := List.cons.inj (hcons.symm.trans hnext)
    exact h.asked candidate List.mem_cons_self

theorem reaches_nil_iff (hcons : c.evictable = candidate :: rest) (hstops : c.stops = false) :
    c.Reaches remove [] e ↔ e = candidate ∧ remove candidate.2.1 = some true := by
  obtain ⟨hbudget, hroom, hdue⟩ := (stops_cons hcons).mp hstops
  constructor
  · intro h
    obtain ⟨after, hnext⟩ := h.next
    obtain ⟨rfl, -⟩ := List.cons.inj (hcons.symm.trans hnext)
    exact ⟨rfl, h.removes⟩
  · rintro ⟨rfl, hremove⟩
    refine ⟨⟨rest, hcons⟩, fun d hd => absurd hd List.not_mem_nil, hremove, ?_, hroom, hbudget⟩
    intro d hd
    obtain rfl := List.mem_singleton.mp hd
    exact hdue

/-- One candidate further, the pass comes to the same ones. -/
theorem reaches_cons_iff (h : c.Counts) (hcons : c.evictable = candidate :: rest) (hstops : c.stops = false)
    (hremove : remove candidate.2.1 = some wasRemoved) :
    c.Reaches remove (candidate :: before) e ↔ (c.next wasRemoved).Reaches remove before e := by
  obtain ⟨-, -, hdue⟩ := (stops_cons hcons).mp hstops
  obtain ⟨hremoved, hcache⟩ := next_answered h hcons hremove
  obtain ⟨hevictable, hgrace, hnow, hbudget, hmax⟩ := next_limits hcons wasRemoved
  constructor
  · intro hreaches
    obtain ⟨after, hnext⟩ := hreaches.next
    have hroom := hreaches.room
    have hexceeding := hreaches.exceeding
    rw [agreed_cons, List.length_append] at hroom
    rw [agreed_cons, sizeSum_append] at hexceeding
    refine ⟨⟨after, ?_⟩, fun d hd => hreaches.asked d (List.mem_cons_of_mem _ hd), hreaches.removes, ?_, ?_, ?_⟩
    · rw [hevictable]
      exact (List.cons.inj (hcons.symm.trans hnext)).2
    · intro d hd
      rw [hgrace, hnow]
      exact hreaches.due d (List.mem_cons_of_mem _ hd)
    · rw [hremoved, hmax]
      omega
    · rw [hbudget]
      omega
  · intro hreaches
    obtain ⟨after, hnext⟩ := hreaches.next
    have hroom := hreaches.room
    have hexceeding := hreaches.exceeding
    rw [hremoved, hmax] at hroom
    rw [hbudget] at hexceeding
    refine ⟨⟨after, ?_⟩, ?_, hreaches.removes, ?_, ?_, ?_⟩
    · rw [hcons, ← hevictable, hnext, List.cons_append]
    · intro d hd
      rcases List.mem_cons.mp hd with rfl | hd
      · rw [hremove]
        simp
      · exact hreaches.asked d hd
    · intro d hd
      rcases List.mem_cons.mp hd with rfl | hd
      · exact hdue
      · have hlate := hreaches.due d hd
        rwa [hgrace, hnow] at hlate
    · rw [agreed_cons, List.length_append]
      omega
    · rw [agreed_cons, sizeSum_append]
      omega

theorem exists_reaches_iff (h : c.Counts) (hcons : c.evictable = candidate :: rest) (hstops : c.stops = false)
    (hremove : remove candidate.2.1 = some wasRemoved) :
    (∃ before, c.Reaches remove before e) ↔
      e = candidate ∧ wasRemoved = true ∨ ∃ before, (c.next wasRemoved).Reaches remove before e := by
  have hfirst := @reaches_nil_iff c remove candidate rest e hcons hstops
  rw [hremove, Option.some.injEq] at hfirst
  constructor
  · rintro ⟨before, hreaches⟩
    cases before with
    | nil => exact .inl (hfirst.mp hreaches)
    | cons d before =>
      obtain ⟨after, hnext⟩ := hreaches.next
      obtain ⟨rfl, -⟩ := List.cons.inj (hcons.symm.trans hnext)
      exact .inr ⟨before, (reaches_cons_iff h hcons hstops hremove).mp hreaches⟩
  · rintro (hhead | ⟨before, hreaches⟩)
    · exact ⟨[], hfirst.mpr hhead⟩
    · exact ⟨candidate :: before, (reaches_cons_iff h hcons hstops hremove).mpr hreaches⟩

/-- **A pass removes exactly the candidates it comes to.** -/
theorem mem_evicted_iff (h : c.Counts) (hfuel : c.evictable.length ≤ fuel) :
    e ∈ (c.sweep remove fuel).evicted ↔ ∃ before, c.Reaches remove before e := by
  revert h
  refine sweep_induction (motive := fun c sweep => c.Counts →
    (e ∈ sweep.evicted ↔ ∃ before, c.Reaches remove before e)) ?_ ?_ ?_ ?_ c hfuel
  · intro c hstops _
    refine iff_of_false List.not_mem_nil ?_
    rintro ⟨before, hreaches⟩
    rw [hreaches.not_stops] at hstops
    cases hstops
  · intro c candidate rest hcons _ hremove _
    refine iff_of_false List.not_mem_nil ?_
    rintro ⟨before, hreaches⟩
    exact hreaches.first_answered hcons hremove
  · intro c candidate rest sweep hcons hstops hremove ih h
    rw [exists_reaches_iff h hcons hstops hremove, ih (h.kept hcons)]
    simp
  · intro c candidate rest sweep hcons hstops hremove ih h
    rw [exists_reaches_iff h hcons hstops hremove, ← ih (h.removes hcons), List.mem_cons]
    simp

end Collection

/-! ### The candidates of a collection -/

variable {K : Type}

theorem find?_foldl_erase {V : Type} [LinearOrder K] (m : OrdMap K V) (rows : List K) (row : K) :
    (rows.foldl (fun m row => m.erase row) m).find? row = if row ∈ rows then none else m.find? row := by
  induction rows generalizing m with
  | nil => simp
  | cons first rest ih =>
    rw [List.foldl_cons, ih, OrdMap.find?_erase]
    by_cases hfirst : row = first
    · simp [hfirst]
    · simp [hfirst]

theorem find?_foldl_set [LinearOrder K] (m : OrdMap K Unit) (rows : List K) (row : K) :
    (rows.foldl (fun m row => m.set row ()) m).find? row = if row ∈ rows then some () else m.find? row := by
  induction rows generalizing m with
  | nil => simp
  | cons first rest ih =>
    rw [List.foldl_cons, ih, OrdMap.find?_set]
    by_cases hfirst : row = first
    · simp [hfirst]
    · simp [hfirst]

theorem BlobFiles.storedSize_eq_some {blobs : BlobFiles} {id : ChunkId} {size : UInt64}
    (h : blobs.blobs.storedSize id = some size) :
    ∃ file, blobs.files.find? id = some file ∧ size.toNat = file.1.length := by
  rw [ChunkBlobStore.storedSize, Option.ite_none_left_eq_some, Option.bind_eq_some_iff] at h
  obtain ⟨-, bytes, hbytes, hsize⟩ := h
  obtain ⟨file, hfile, rfl⟩ := Option.map_eq_some_iff.mp hbytes
  rw [Option.ite_none_right_eq_some] at hsize
  obtain rfl := Option.some.inj hsize.2
  exact ⟨file, hfile, UInt64.toNat_ofNat_of_lt file.2⟩

theorem BlobFiles.storedSize_without (blobs : BlobFiles) (ids : List ChunkId) (id : ChunkId) :
    (blobs.without ids).blobs.storedSize id = if id ∈ ids then none else blobs.blobs.storedSize id := by
  have hblob : (blobs.without ids).blobs id = if id ∈ ids then none else blobs.blobs id := by
    rw [BlobFiles.blobs, BlobFiles.without, find?_foldl_erase]
    split_ifs <;> rfl
  rw [ChunkBlobStore.storedSize, ChunkBlobStore.storedSize, hblob]
  split_ifs <;> rfl

namespace ChunkRetentionRegistry

variable {registry : ChunkRetentionRegistry} {blobs : ChunkBlobStore}

variable {a b c : Candidate}

theorem mem_candidates_iff : c ∈ registry.candidates blobs ↔
    registry.cache.find? c.2.1 = some c.1 ∧ blobs.storedSize c.2.1 = some c.2.2 ∧
      registry.isPinned c.2.1 = false := by
  unfold candidates
  rw [List.mem_filterMap]
  constructor
  · rintro ⟨⟨id, used⟩, hmem, hentry⟩
    have hcached := OrdMap.mem_entries_iff.mp hmem
    split at hentry
    · cases hentry
    next size hsize =>
      rw [Option.ite_none_left_eq_some] at hentry
      obtain rfl := Option.some.inj hentry.2
      exact ⟨hcached, hsize, eq_false_of_ne_true hentry.1⟩
  · obtain ⟨used, id, size⟩ := c
    rintro ⟨hcached, hsize, hpinned⟩
    refine ⟨(id, used), OrdMap.mem_entries_iff.mpr hcached, ?_⟩
    dsimp only at hsize hpinned ⊢
    rw [hsize]
    dsimp only
    rw [hpinned, if_neg Bool.false_ne_true]

theorem candidates_nodup_ids (registry : ChunkRetentionRegistry) (blobs : ChunkBlobStore) :
    ((registry.candidates blobs).map fun c => c.2.1).Nodup := by
  rw [List.Nodup, List.pairwise_map, candidates, List.pairwise_filterMap]
  refine registry.cache.ascending.imp ?_
  intro a b hlt c hc d hd
  have hne : a.1 ≠ b.1 := hlt.ne
  split at hc
  · cases hc
  split at hd
  · cases hd
  rw [Option.ite_none_left_eq_some] at hc hd
  obtain rfl := Option.some.inj hc.2
  obtain rfl := Option.some.inj hd.2
  exact hne

theorem eq_of_mem_candidates {d : Candidate} (hc : c ∈ registry.candidates blobs)
    (hd : d ∈ registry.candidates blobs) (hid : c.2.1 = d.2.1) : c = d := by
  obtain ⟨hused, hsize, -⟩ := mem_candidates_iff.mp hc
  obtain ⟨hused', hsize', -⟩ := mem_candidates_iff.mp hd
  rw [hid] at hused hsize
  have hfirst := Option.some.inj (hused.symm.trans hused')
  have hlast := Option.some.inj (hsize.symm.trans hsize')
  exact Prod.ext hfirst (Prod.ext hid hlast)

/-! ### Their order -/

theorem candidateLe_iff : candidateLe a b = true ↔
    toLex (a.1.toNat, toLex (a.2.1, a.2.2.toNat)) ≤ toLex (b.1.toNat, toLex (b.2.1, b.2.2.toNat)) := by
  rw [Prod.Lex.toLex_le_toLex, Prod.Lex.toLex_le_toLex, candidateLe]
  by_cases hused : a.1 = b.1
  · by_cases hid : a.2.1 = b.2.1
    · simp [hused, hid, UInt64.le_iff_toNat_le]
    · simp [hused, hid]
  · have hne : a.1.toNat ≠ b.1.toNat := fun h => hused (UInt64.toNat_inj.mp h)
    simp [hused, hne, UInt64.lt_iff_toNat_lt]

theorem candidateLe_trans (a b c : Candidate) (hab : candidateLe a b = true) (hbc : candidateLe b c = true) :
    candidateLe a c = true :=
  candidateLe_iff.mpr ((candidateLe_iff.mp hab).trans (candidateLe_iff.mp hbc))

theorem candidateLe_total (a b : Candidate) : (candidateLe a b || candidateLe b a) = true := by
  rw [Bool.or_eq_true, candidateLe_iff, candidateLe_iff]
  exact le_total _ _

theorem older_of_candidateLe (h : candidateLe a b = true) (hid : a.2.1 ≠ b.2.1) : Older a b := by
  rw [candidateLe_iff, Prod.Lex.toLex_le_toLex, Prod.Lex.toLex_le_toLex] at h
  rcases h with hused | ⟨hused, hid' | ⟨hid', -⟩⟩
  · exact .inl (UInt64.lt_iff_toNat_lt.mpr hused)
  · exact .inr ⟨UInt64.toNat_inj.mp hused, hid'⟩
  · exact absurd hid' hid

end ChunkRetentionRegistry

theorem Older.asymm {a b : Candidate} (h : Older a b) : ¬Older b a := by
  rintro (hused | ⟨hused, hid⟩)
  · rcases h with hused' | ⟨hused', -⟩
    · exact UInt64.lt_asymm hused hused'
    · exact UInt64.ne_of_lt hused hused'.symm
  · rcases h with hused' | ⟨-, hid'⟩
    · exact UInt64.ne_of_lt hused' hused.symm
    · exact hid.asymm hid'

/-! ### A whole `Collect` -/

theorem sizeSum_le_totalBytes {files : OrdMap ChunkId BlobFile} (hnodup : (candidates.map fun c => c.2.1).Nodup)
    (hfiles : ∀ c ∈ candidates, ∃ file, files.find? c.2.1 = some file ∧ c.2.2.toNat = file.1.length) :
    sizeSum candidates ≤ totalBytes files := by
  induction candidates generalizing files with
  | nil => exact Nat.zero_le _
  | cons c rest ih =>
    obtain ⟨hc, hrest⟩ := List.nodup_cons.mp hnodup
    obtain ⟨file, hfile, hsize⟩ := hfiles c List.mem_cons_self
    have herase := totalBytes_erase hfile
    have hle : sizeSum rest ≤ totalBytes (files.erase c.2.1) := by
      refine ih hrest ?_
      intro d hd
      obtain ⟨other, hother, hsize'⟩ := hfiles d (List.mem_cons_of_mem _ hd)
      refine ⟨other, ?_, hsize'⟩
      rw [OrdMap.find?_erase, if_neg ?_]
      · exact hother
      · intro hid
        exact hc (List.mem_map.mpr ⟨d, hd, hid⟩)
    rw [sizeSum_cons]
    omega

theorem toNat_sum_sizes (h : sizeSum candidates < 2 ^ 64) :
    (candidates.map fun c : Candidate => c.2.2).sum.toNat = sizeSum candidates := by
  induction candidates with
  | nil => rfl
  | cons c rest ih =>
    rw [sizeSum_cons] at h ⊢
    have hrest := ih (by omega)
    rw [List.map_cons, List.sum_cons, UInt64.toNat_add, hrest]
    exact Nat.mod_eq_of_lt h

namespace RetentionStore

variable {s : RetentionStore} {call : CollectCall} {c : Candidate}

theorem unpinnedCacheBytes_lt (s : RetentionStore) : s.unpinnedCacheBytes < 2 ^ 64 := by
  refine lt_of_le_of_lt (sizeSum_le_totalBytes (s.registry.candidates_nodup_ids _) ?_) s.blobs.fits
  intro c hc
  exact BlobFiles.storedSize_eq_some (ChunkRetentionRegistry.mem_candidates_iff.mp hc).2.1

theorem start_cacheBytes (s : RetentionStore) (call : CollectCall) :
    (s.start call).cacheBytes.toNat = s.unpinnedCacheBytes :=
  toNat_sum_sizes s.unpinnedCacheBytes_lt

theorem evictable_perm (s : RetentionStore) (call : CollectCall) :
    (s.start call).evictable.Perm (s.registry.candidates s.blobs.blobs) :=
  List.mergeSort_perm _ _

theorem start_counts (s : RetentionStore) (call : CollectCall) : (s.start call).Counts where
  fits := by
    rw [start_cacheBytes, sizeSum_perm (s.evictable_perm call)]
    exact le_rfl
  small := by
    rw [start_cacheBytes]
    exact (Nat.zero_add _).trans_lt s.unpinnedCacheBytes_lt

theorem swept (s : RetentionStore) (call : CollectCall) : (s.start call).Swept call.remove (s.sweep call) :=
  Collection.sweep_swept (s.start_counts call) le_rfl

theorem mem_evicted : c ∈ s.evicted call ↔ ∃ before, (s.start call).Reaches call.remove before c :=
  Collection.mem_evicted_iff (s.start_counts call) le_rfl

theorem mem_candidates_of_evicted (h : c ∈ s.evicted call) : c ∈ s.registry.candidates s.blobs.blobs :=
  (s.evictable_perm call).mem_iff.mp ((s.swept call).sublist.mem h)

theorem evictable_older (s : RetentionStore) (call : CollectCall) : (s.start call).evictable.Pairwise Older := by
  have hsorted := List.pairwise_mergeSort ChunkRetentionRegistry.candidateLe_trans
    ChunkRetentionRegistry.candidateLe_total (s.registry.candidates s.blobs.blobs)
  have hids : ((s.start call).evictable.map fun c => c.2.1).Nodup :=
    (((s.evictable_perm call).map _).nodup_iff).mpr (s.registry.candidates_nodup_ids _)
  refine (hsorted.and (List.pairwise_map.mp hids)).imp ?_
  rintro a b ⟨hle, hid⟩
  exact ChunkRetentionRegistry.older_of_candidateLe hle hid

variable {d : Candidate}

theorem reaches_earlier {earlier between : List Candidate}
    (h : (s.start call).Reaches call.remove (earlier ++ d :: between) c) (hremove : call.remove d.2.1 = some true) :
    (s.start call).Reaches call.remove earlier d := by
  obtain ⟨after, hnext⟩ := h.next
  have hsub : (agreed call.remove earlier).Sublist (agreed call.remove (earlier ++ d :: between)) :=
    Collection.agreed_sublist _ (List.sublist_append_left _ _)
  have hlength := hsub.length_le
  have hsizes := sizeSum_sublist hsub
  have hroom := h.room
  have hexceeding := h.exceeding
  refine ⟨⟨between ++ c :: after, ?_⟩, ?_, hremove, ?_, by omega, by omega⟩
  · rw [hnext, List.append_assoc, List.cons_append]
  · intro x hx
    exact h.asked x (List.mem_append_left _ hx)
  · intro x hx
    refine h.due x (List.mem_append_left _ ?_)
    rcases List.mem_append.mp hx with hx | hx
    · exact List.mem_append_left _ hx
    · rw [List.mem_singleton.mp hx]
      exact List.mem_append_right _ List.mem_cons_self

theorem evicted_of_older (hc : c ∈ s.evicted call) (hd : d ∈ s.registry.candidates s.blobs.blobs)
    (holder : Older d c) (hremove : call.remove d.2.1 = some true) : d ∈ s.evicted call := by
  obtain ⟨before, hreaches⟩ := mem_evicted.mp hc
  obtain ⟨after, hnext⟩ := hreaches.next
  have hmem := (s.evictable_perm call).mem_iff.mpr hd
  have hordered := s.evictable_older call
  rw [hnext] at hmem hordered
  rcases List.mem_append.mp hmem with hbefore | hlater
  · obtain ⟨earlier, between, rfl⟩ := List.append_of_mem hbefore
    exact mem_evicted.mpr ⟨earlier, reaches_earlier hreaches hremove⟩
  · rcases List.mem_cons.mp hlater with rfl | hafter
    · exact absurd holder holder.asymm
    · exact absurd ((List.pairwise_cons.mp (List.pairwise_append.mp hordered).2.1).1 d hafter) holder.asymm

/-! ### What is left of it -/

theorem collect_rows (s : RetentionStore) (call : CollectCall) :
    (s.collect call).2.registry.pins = s.registry.pins ∧ (s.collect call).2.registry.refs = s.registry.refs := by
  rw [collect]
  dsimp only
  split_ifs
  · rw [ChunkRetentionRegistry.endCollect]
    cases call.fate <;> exact ⟨rfl, rfl⟩
  · exact ⟨rfl, rfl⟩

abbrev gone (s : RetentionStore) (call : CollectCall) : List ChunkId := (s.evicted call).map fun c => c.2.1

theorem collect_cache (s : RetentionStore) (call : CollectCall) (id : ChunkId) :
    (s.collect call).2.registry.cache.find? id = s.registry.cache.find? id ∨
      (s.collect call).2.registry.cache.find? id = none ∧
        (s.blobs.blobs.storedSize id = none ∨ id ∈ s.gone call) := by
  have hforget := (s.swept call).forget
  rw [collect]
  dsimp only
  split_ifs
  · rw [ChunkRetentionRegistry.endCollect]
    cases call.fate with
    | lost => exact .inl rfl
    | done | stored =>
      dsimp only [ChunkRetentionRegistry.written]
      rw [find?_foldl_erase]
      split_ifs with hid
      · refine .inr ⟨rfl, ?_⟩
        rw [hforget, List.mem_append] at hid
        refine hid.imp_left ?_
        intro habsent
        obtain ⟨entry, hentry, rfl⟩ := List.mem_map.mp habsent
        exact of_decide_eq_true (List.mem_filter.mp hentry).2
      · exact .inl rfl
  · exact .inl rfl

theorem mem_candidates_collect : c ∈ (s.collect call).2.registry.candidates (s.collect call).2.blobs.blobs ↔
    c ∈ s.registry.candidates s.blobs.blobs ∧ c.2.1 ∉ s.gone call := by
  have hpinned : (s.collect call).2.registry.isPinned c.2.1 = s.registry.isPinned c.2.1 := by
    rw [ChunkRetentionRegistry.isPinned, ChunkRetentionRegistry.isPinned, (collect_rows s call).1]
  have hsize : (s.collect call).2.blobs.blobs.storedSize c.2.1 =
      if c.2.1 ∈ s.gone call then none else s.blobs.blobs.storedSize c.2.1 :=
    s.blobs.storedSize_without _ _
  rw [ChunkRetentionRegistry.mem_candidates_iff, ChunkRetentionRegistry.mem_candidates_iff, hpinned, hsize]
  by_cases hgone : c.2.1 ∈ s.gone call
  · rw [if_pos hgone]
    exact iff_of_false (fun h => by cases h.2.1) fun h => h.2 hgone
  · rw [if_neg hgone]
    constructor
    · rintro ⟨hcached, hstored, hfree⟩
      refine ⟨⟨?_, hstored, hfree⟩, hgone⟩
      rcases s.collect_cache call c.2.1 with hsame | ⟨hnone, -⟩
      · exact hsame.symm.trans hcached
      · cases hnone.symm.trans hcached
    · rintro ⟨⟨hcached, hstored, hfree⟩, -⟩
      refine ⟨?_, hstored, hfree⟩
      rcases s.collect_cache call c.2.1 with hsame | ⟨-, habsent | hin⟩
      · exact hsame.trans hcached
      · cases habsent.symm.trans hstored
      · exact absurd hin hgone

theorem candidates_perm (s : RetentionStore) (call : CollectCall) :
    (s.registry.candidates s.blobs.blobs).Perm (s.evicted call ++
      (s.collect call).2.registry.candidates (s.collect call).2.blobs.blobs) := by
  have hnodup (registry : ChunkRetentionRegistry) (blobs : ChunkBlobStore) : (registry.candidates blobs).Nodup :=
    List.Nodup.of_map _ (registry.candidates_nodup_ids blobs)
  have hevicted : (s.evicted call).Nodup :=
    (((s.evictable_perm call).nodup_iff).mpr (hnodup _ _)).sublist (s.swept call).sublist
  have hdisjoint : (s.evicted call).Disjoint
      ((s.collect call).2.registry.candidates (s.collect call).2.blobs.blobs) := by
    intro c hc hleft
    exact (mem_candidates_collect.mp hleft).2 (List.mem_map_of_mem hc)
  refine (List.perm_ext_iff_of_nodup (hnodup _ _) (hevicted.append (hnodup _ _) hdisjoint)).mpr ?_
  intro c
  rw [List.mem_append, mem_candidates_collect]
  constructor
  · intro hc
    by_cases hgone : c.2.1 ∈ s.gone call
    · obtain ⟨e, he, hid⟩ := List.mem_map.mp hgone
      rw [← ChunkRetentionRegistry.eq_of_mem_candidates (mem_candidates_of_evicted he) hc hid]
      exact .inl he
    · exact .inr ⟨hc, hgone⟩
  · rintro (hc | hc)
    · exact mem_candidates_of_evicted hc
    · exact hc.1

theorem cacheBytes_collect (s : RetentionStore) (call : CollectCall) :
    (s.collect call).1.cacheBytes.toNat = (s.collect call).2.unpinnedCacheBytes := by
  have hswept := (s.swept call).cacheBytes
  have hperm := sizeSum_perm (s.candidates_perm call)
  rw [start_cacheBytes] at hswept
  rw [sizeSum_append] at hperm
  have htotal : s.unpinnedCacheBytes = sizeSum (s.evicted call) + (s.collect call).2.unpinnedCacheBytes := hperm
  have hresult : (s.collect call).1.cacheBytes.toNat + sizeSum (s.evicted call) = s.unpinnedCacheBytes := hswept
  omega

end RetentionStore

/-! ### Pins -/

theorem RetentionKey.owner_injective : Function.Injective RetentionKey.owner := by
  rintro ⟨holder, reference⟩ ⟨holder', reference'⟩ h
  obtain ⟨rfl, rfl⟩ := Prod.mk.inj (toLex.injective h)
  rfl

namespace ChunkRetentionRegistry

variable {registry : ChunkRetentionRegistry} {key key' : RetentionKey} {chunk : ChunkId}

variable {fate : Fate}

theorem refs_pin (chunks : List ChunkId) (hfate : fate ≠ .lost) :
    (registry.pin key chunks fate).refs = (chunks.map fun chunk => toLex (key.owner, chunk)).foldl
      (fun refs row => refs.set row ()) registry.refs := by
  have hwritten : registry.pin key chunks fate = registry.pin key chunks .done := by
    cases fate with
    | lost => exact absurd rfl hfate
    | done | stored => rfl
  rw [hwritten, List.foldl_map]
  change (chunks.foldl _ registry).refs = _
  clear hwritten
  induction chunks generalizing registry with
  | nil => rfl
  | cons first rest ih => exact ih

theorem refs_release (nowMs : UInt64) (hfate : fate ≠ .lost) :
    (registry.release key nowMs fate).refs = ((registry.pinned key).map fun chunk => toLex (key.owner, chunk)).foldl
      (fun refs row => refs.erase row) registry.refs := by
  have hwritten : registry.release key nowMs fate = registry.release key nowMs .done := by
    cases fate with
    | lost => exact absurd rfl hfate
    | done | stored => rfl
  rw [hwritten, List.foldl_map, release]
  generalize registry.pinned key = chunks
  change (chunks.foldl _ registry).refs = _
  clear hwritten
  induction chunks generalizing registry with
  | nil => rfl
  | cons first rest ih => exact ih

theorem row_mem_map_iff {chunks : List ChunkId} :
    toLex (key'.owner, chunk) ∈ (chunks.map fun chunk => toLex (key.owner, chunk)) ↔ key' = key ∧ chunk ∈ chunks := by
  rw [List.mem_map]
  constructor
  · rintro ⟨other, hother, hrow⟩
    obtain ⟨howner, rfl⟩ := Prod.mk.inj (toLex.injective hrow)
    exact ⟨RetentionKey.owner_injective howner.symm, hother⟩
  · rintro ⟨rfl, hchunk⟩
    exact ⟨chunk, hchunk, rfl⟩

theorem mem_pinned_pin (chunks : List ChunkId) (fate : Fate) : chunk ∈ (registry.pin key chunks fate).pinned key' ↔
    chunk ∈ registry.pinned key' ∨ fate ≠ .lost ∧ key' = key ∧ chunk ∈ chunks := by
  by_cases hfate : fate = .lost
  · rw [hfate]
    simp [pin, written]
  · rw [mem_pinned, mem_pinned, refs_pin chunks hfate, find?_foldl_set]
    by_cases hrow : toLex (key'.owner, chunk) ∈ (chunks.map fun chunk => toLex (key.owner, chunk))
    · rw [if_pos hrow]
      exact iff_of_true rfl (.inr ⟨hfate, row_mem_map_iff.mp hrow⟩)
    · rw [if_neg hrow]
      constructor
      · exact .inl
      · rintro (hold | ⟨-, hnew⟩)
        · exact hold
        · exact absurd (row_mem_map_iff.mpr hnew) hrow

/-- **`Release` removes the pins of its reference, all of them and no others.** -/
theorem mem_pinned_release (nowMs : UInt64) (fate : Fate) : chunk ∈ (registry.release key nowMs fate).pinned key' ↔
    chunk ∈ registry.pinned key' ∧ (fate ≠ .lost → key' ≠ key) := by
  by_cases hfate : fate = .lost
  · rw [hfate]
    simp [release, written]
  · rw [mem_pinned, refs_release nowMs hfate, find?_foldl_erase]
    by_cases hrow : toLex (key'.owner, chunk) ∈ ((registry.pinned key).map fun chunk => toLex (key.owner, chunk))
    · rw [if_pos hrow]
      refine iff_of_false (fun h => by cases h) ?_
      rintro ⟨-, hkey⟩
      exact hkey hfate (row_mem_map_iff.mp hrow).1
    · rw [if_neg hrow, ← mem_pinned]
      constructor
      · intro hold
        refine ⟨hold, fun _ => ?_⟩
        rintro rfl
        exact hrow (row_mem_map_iff.mpr ⟨rfl, hold⟩)
      · exact And.left

end ChunkRetentionRegistry

/-! ### Runs -/

namespace RetentionStore

variable {s : RetentionStore} {event : RetentionEvent}

/-- **A `Collect` does what it is for exactly if no sum of a blob it comes to wraps.** -/
theorem collectRight_iff (h : s.registry.Aligned) (call : CollectCall) : s.CollectRight call ↔
    ∀ before c, (s.start call).Reaches call.remove before c → c.1.toNat + call.graceMs.toNat < 2 ^ 64 := by
  have hswept := s.swept call
  constructor
  · intro hright before c hreaches
    have hover := (hright.eligible c (mem_evicted.mpr ⟨before, hreaches⟩)).2.2.2.1
    exact hover.trans_lt call.nowMs.toNat_lt
  · intro hunwrapped
    refine
      { eligible := ?_
        ordered := (s.evictable_older call).sublist hswept.sublist
        oldest := fun c hc d hd holder hremove => evicted_of_older hc hd holder hremove
        atMost := ?_
        needed := ?_
        cacheBytes := s.cacheBytes_collect call
        removed := ?_
        removedBytes := ?_ }
    · intro c hc
      obtain ⟨before, hreaches⟩ := mem_evicted.mp hc
      obtain ⟨hcached, hsize, hfree⟩ :=
        ChunkRetentionRegistry.mem_candidates_iff.mp (mem_candidates_of_evicted hc)
      have hdue : ¬c.1 + call.graceMs > call.nowMs :=
        hreaches.due c (List.mem_append_right _ List.mem_cons_self)
      refine ⟨hcached, hsize, ?_, ?_, hreaches.removes⟩
      · intro key hkey
        have hpinned := h.isPinned_iff.mpr ⟨key, hkey⟩
        rw [hfree] at hpinned
        cases hpinned
      · rw [gt_iff_lt, UInt64.not_lt, UInt64.le_iff_toNat_le, UInt64.toNat_add,
          Nat.mod_eq_of_lt (hunwrapped before c hreaches)] at hdue
        exact hdue
    · have hatMost := hswept.atMost (Nat.zero_le _)
      exact (Nat.zero_add _).symm.trans_le hatMost
    · intro earlier c later heq
      have hneeded := hswept.needed earlier c later heq
      rwa [start_cacheBytes] at hneeded
    · exact hswept.removed.trans (Nat.zero_add _)
    · exact hswept.removedBytes.trans (Nat.zero_add _)

theorem step_aligned (h : s.registry.Aligned) (event : RetentionEvent) : (s.step event).registry.Aligned := by
  cases event with
  | pin key chunks fate => exact h.pin key chunks fate
  | release key nowMs fate => exact h.release key nowMs fate
  | noteCacheUse chunk nowMs fate =>
    have hnoted : ({ s.registry with cache := s.registry.cache.set chunk nowMs } : ChunkRetentionRegistry).Aligned :=
      h.of_rows rfl rfl
    exact h.written hnoted fate
  | collect call => exact h.of_rows (s.collect_rows call).1 (s.collect_rows call).2
  | disk blobs => exact h

theorem stepRight_iff (h : s.registry.Aligned) (event : RetentionEvent) : s.StepRight event ↔
    ∀ call, event = .collect call → ∀ before c, (s.start call).Reaches call.remove before c →
      c.1.toNat + call.graceMs.toNat < 2 ^ 64 := by
  cases event with
  | pin key chunks fate =>
    exact iff_of_true (fun _ _ => ChunkRetentionRegistry.mem_pinned_pin chunks fate) fun _ h => by cases h
  | release key nowMs fate =>
    exact iff_of_true (fun _ _ => ChunkRetentionRegistry.mem_pinned_release nowMs fate) fun _ h => by cases h
  | noteCacheUse chunk nowMs fate => exact iff_of_true trivial fun _ h => by cases h
  | disk blobs => exact iff_of_true trivial fun _ h => by cases h
  | collect call =>
    rw [show s.StepRight (.collect call) = s.CollectRight call from rfl, collectRight_iff h]
    constructor
    · rintro hright call' heq
      obtain rfl := RetentionEvent.collect.inj heq
      exact hright
    · intro hright
      exact hright call rfl

end RetentionStore

theorem retained_of_aligned {s : RetentionStore} (h : s.registry.Aligned) (events : List RetentionEvent) :
    Retained s events ↔ Unwrapped s events := by
  induction events generalizing s with
  | nil => exact iff_of_true h trivial
  | cons event rest ih =>
    rw [Retained, Unwrapped, RetentionStore.stepRight_iff h, ih (RetentionStore.step_aligned h event)]
    exact and_iff_right h

/-- **The registry does what it is for exactly in the runs in which no pass comes to a blob
    whose grace period ends beyond 64 bits.** -/
theorem retained_iff (blobs : BlobFiles) (events : List RetentionEvent) :
    Retained (.fresh blobs) events ↔ Unwrapped (.fresh blobs) events :=
  retained_of_aligned (fun _ _ => rfl) events

/-! ### A sum that wraps -/

section Sample

def cachedId : ChunkId := FixedBytes.leading 31 7

theorem length_sampleBlob : sampleBlob.1.length = 1100 := List.length_replicate

theorem totalBytes_cached : totalBytes ((∅ : OrdMap ChunkId BlobFile).set cachedId sampleBlob) = 1100 := by
  rw [totalBytes_set_of_none (OrdMap.find?_empty _), length_sampleBlob]
  rfl

def cachedBlobs : BlobFiles where
  files := (∅ : OrdMap ChunkId BlobFile).set cachedId sampleBlob
  fits := totalBytes_cached.trans_lt (by decide)

def collectAll : CollectCall where
  cacheBudgetBytes := 0
  nowMs := 1000
  graceMs := 1
  maxRemovals := 1
  remove := fun _ => some true
  fate := .done

/-- The blob has been used at the last moment that there is, and goes a second after the
    first. -/
def wrappedRun : List RetentionEvent := [.noteCacheUse cachedId UINT64_MAX .done, .collect collectAll]

def wrappedStart : RetentionStore := (RetentionStore.fresh cachedBlobs).step (.noteCacheUse cachedId UINT64_MAX .done)

theorem storedSize_cachedId : cachedBlobs.blobs.storedSize cachedId = some 1100 := by
  have hblob : cachedBlobs.blobs cachedId = some sampleBlob.1 := by
    rw [BlobFiles.blobs, cachedBlobs, OrdMap.find?_set_self]
    rfl
  rw [ChunkBlobStore.storedSize, if_neg (by decide), hblob, Option.bind_some, length_sampleBlob]
  rfl

theorem wrappedStart_candidates :
    wrappedStart.registry.candidates wrappedStart.blobs.blobs = [(UINT64_MAX, cachedId, 1100)] := by
  have hsize : wrappedStart.blobs.blobs.storedSize cachedId = some 1100 := storedSize_cachedId
  have hentries : wrappedStart.registry.cache.entries = [(cachedId, UINT64_MAX)] := rfl
  have hfree : wrappedStart.registry.isPinned cachedId = false := rfl
  rw [ChunkRetentionRegistry.candidates, hentries, List.filterMap_cons, hsize]
  simp [hfree]

/-- A blob is removed whose grace period is not over, and is not for 584 million years. -/
theorem wrappedRun_not_retained : ¬Retained (.fresh cachedBlobs) wrappedRun := by
  intro h
  have hright : wrappedStart.CollectRight collectAll := h.2.2.2.1
  have hperm := wrappedStart.evictable_perm collectAll
  rw [wrappedStart_candidates] at hperm
  have hevictable := List.perm_singleton.mp hperm
  have hbytes : (wrappedStart.start collectAll).cacheBytes.toNat = 1100 := by
    rw [RetentionStore.start_cacheBytes, RetentionStore.unpinnedCacheBytes, wrappedStart_candidates]
    rfl
  have hreaches : (wrappedStart.start collectAll).Reaches collectAll.remove [] (UINT64_MAX, cachedId, 1100) := by
    refine ⟨⟨[], hevictable⟩, by simp, rfl, ?_, by decide, ?_⟩
    · intro d hd
      rw [List.mem_singleton.mp hd]
      decide
    · rw [hbytes]
      decide
  have hover := (hright.eligible _ (RetentionStore.mem_evicted.mpr ⟨[], hreaches⟩)).2.2.2.1
  exact absurd hover (by decide)

end Sample

end Cybou
