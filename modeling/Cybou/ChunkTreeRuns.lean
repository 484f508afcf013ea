import Cybou.Library.Levels
import Cybou.ChunkTreeSpecs

/-! # A tree that was built is read back whole (`encrypted_chunk_tree.cpp`)

Every child on level `k` of the builder stands for a subtree of height `k`, and the
pieces below the levels, the highest level first, are the source so far.  Levels
cannot run out: a child of a full list stands for at least `128 ^ k` chunks, of which
there are at most `2 ^ 20`.  During the final pass this holds of every list but the
one being carried up, and that is enough, because a list is only carried up while a
higher one is in use.
-/

namespace Cybou

open Library

section

/-! ### The accumulator counts in binary -/

namespace ChunkAuthorizationAccumulator

variable [Crypto]

/-- The number whose binary digits are the places of the frontier in use. -/
def frontierCount : List (Option ChunkId) → Nat
  | [] => 0
  | none :: above => 2 * frontierCount above
  | some _ :: above => 1 + 2 * frontierCount above

structure Accumulates (acc : ChunkAuthorizationAccumulator) (n : Nat) : Prop where
  failed : acc.failed = false
  count : acc.chunkCount = n
  size : acc.frontier.length = 32
  frontier : frontierCount acc.frontier = n

omit [Crypto] in
theorem Accumulates.initial : Accumulates initial 0 := ⟨rfl, rfl, rfl, rfl⟩

variable {frontier : List (Option ChunkId)}

theorem carryInto_isSome (carry : ChunkId) (h : frontierCount frontier + 1 < 2 ^ frontier.length) :
    ∃ frontier', carryInto frontier carry = some frontier' ∧ frontier'.length = frontier.length ∧
      frontierCount frontier' = frontierCount frontier + 1 := by
  induction frontier generalizing carry with
  | nil => simp [frontierCount] at h
  | cons place above ih =>
    rw [List.length_cons, Nat.pow_succ] at h
    cases place with
    | none =>
      exact ⟨some carry :: above, rfl, rfl, Nat.add_comm 1 _⟩
    | some left =>
      rw [frontierCount] at h
      obtain ⟨above', hcarry, hlength, hcount⟩ := ih (hashNode left carry) (by omega)
      refine ⟨none :: above', by rw [carryInto, hcarry, Option.map_some], ?_, ?_⟩
      · rw [List.length_cons, List.length_cons, hlength]
      · rw [frontierCount, frontierCount, hcount]
        omega

variable {acc : ChunkAuthorizationAccumulator} {n : Nat}

theorem Accumulates.add {chunk : ChunkId}
    (h : Accumulates acc n) (hn : n < MAX_PUBLICATION_CHUNKS.toNat) (hid : isZero chunk.1 = false) :
    ∃ acc', acc.add chunk = (true, acc') ∧ Accumulates acc' (n + 1) := by
  have hroom : frontierCount acc.frontier + 1 < 2 ^ acc.frontier.length := by
    rw [h.frontier, h.size]
    have hmax : MAX_PUBLICATION_CHUNKS.toNat < 2 ^ 32 := UInt32.toNat_lt _
    omega
  obtain ⟨frontier, hcarry, hlength, hcount⟩ := carryInto_isSome (hashLeaf chunk) hroom
  refine ⟨{ acc with frontier, chunkCount := acc.chunkCount + 1 }, ?_, ?_⟩
  · unfold ChunkAuthorizationAccumulator.add
    rw [if_neg]
    · rw [hcarry]
    · rw [h.failed, h.count, hid]
      rintro (hfailed | hfull | hzero)
      · cases hfailed
      · omega
      · cases hzero
  · exact ⟨h.failed, by rw [h.count], by rw [hlength, h.size], by rw [hcount, h.frontier]⟩

theorem foldFrontier_isSome {level : Nat}
    {root : Option (ChunkId × Nat)} (h : root.isSome = true ∨ frontierCount frontier ≠ 0) :
    (foldFrontier frontier level root).isSome = true := by
  induction frontier generalizing level root with
  | nil => exact h.resolve_right fun hne => hne rfl
  | cons place above ih =>
    cases place with
    | none =>
      refine ih (h.imp_right fun hne habove => hne ?_)
      rw [frontierCount, habove]
    | some node =>
      cases root with
      | none => exact ih (.inl rfl)
      | some root => exact ih (.inl rfl)

theorem Accumulates.finish (h : Accumulates acc n) (hn : 0 < n) : ∃ root, acc.finish = some (root, n) := by
  have hsome : (foldFrontier acc.frontier 0 none).isSome = true :=
    foldFrontier_isSome (.inr (by rw [h.frontier]; omega))
  obtain ⟨root, hroot⟩ := Option.isSome_iff_exists.mp hsome
  refine ⟨root.1, ?_⟩
  unfold ChunkAuthorizationAccumulator.finish
  rw [if_neg, hroot, Option.map_some, h.count]
  rw [h.failed, h.count]
  rintro (hfailed | hnone)
  · cases hfailed
  · omega

end ChunkAuthorizationAccumulator

/-! ### Storing -/

variable [ChunkCipher]

variable (input : TreeInput) (key : ContentKey) (reads : List (Option Bytes))

def TreeFault.Cause : TreeFault → TreeBuilder → Prop
  | .source read room, _ => read ∈ reads ∧
      (read = none ∨ ∃ bytes, read = some bytes ∧ room < bytes.length)
  | .stage leafIndex chunk, _ => input.stage leafIndex chunk = false
  | .draw fault, _ => fault.Cause input.random
  | .tooManyChunks, b => b.staged.length = MAX_PUBLICATION_CHUNKS.toNat
  | .refused, _ => False

def readableOf (staged : List EncryptedChunk) (id : ChunkId) (plaintext : Bytes) : Prop :=
  ∃ chunk ∈ staged, chunk.id = id ∧ decryptChunk input.network key id chunk.storedBytes = some plaintext

structure Staged (b : TreeBuilder) : Prop where
  count : b.summary.chunkCount = b.staged.length
  bound : b.staged.length ≤ MAX_PUBLICATION_CHUNKS.toNat
  authorization : b.authorization.Accumulates b.staged.length

structure Stored (plaintext : Bytes) (b : TreeBuilder) (id : ChunkId) (b' : TreeBuilder) : Prop where
  staged : Staged b'
  added : ∃ chunk, b'.staged = b.staged ++ [chunk] ∧ chunk.id = id
  readable : readableOf input key b'.staged id plaintext
  nonzero : isZero id.1 = false
  levels : b'.levels = b.levels
  plaintextBytes : b'.summary.plaintextBytes = b.summary.plaintextBytes
  contentKey : b'.summary.contentKey = b.summary.contentKey

variable {input key reads} {b : TreeBuilder} {plaintext : Bytes}

omit [ChunkCipher] in
theorem drawing_spec {α : Type} {x : Drawing α} {Q : α → Prop}
    (h : Proc.wp x (fun a _ => Q a) (fun fault _ => fault.Cause input.random) b.draws) :
    Proc.wp (drawing x) (fun a b' => Q a ∧ ∃ draws, b' = { b with draws })
      (fun fault b' => fault.Cause input reads b') b := by
  unfold Proc.wp at h ⊢
  unfold drawing
  cases hx : x b.draws with
  | ok a draws =>
    rw [hx] at h
    exact ⟨h, draws, rfl⟩
  | error fault draws =>
    rw [hx] at h
    exact h

/-- A chunk that is stored is staged, counted and handed to the authorization. -/
theorem Staged.store_spec (h : Staged b) {chunk : EncryptedChunk} (hid : isZero chunk.id.1 = false) :
    Proc.wp (store input chunk)
      (fun _ b' => Staged b' ∧ ∃ authorization, b' = { b with
        authorization
        staged := b.staged ++ [chunk]
        summary := { b.summary with chunkCount := b.summary.chunkCount + 1 } })
      (fun fault b' => fault.Cause input reads b') b := by
  have hmax : MAX_PUBLICATION_CHUNKS.toNat < UINT64_MAX.toNat := by decide
  unfold store
  rw [Proc.wp_get_bind]
  dsimp only
  by_cases hfull : b.summary.chunkCount ≥ MAX_PUBLICATION_CHUNKS.toNat
  · rw [if_pos hfull]
    exact le_antisymm h.bound (by rw [← h.count]; exact hfull)
  rw [if_neg hfull]
  by_cases hstage : input.stage (UInt32.ofNat b.summary.chunkCount) chunk = false
  · rw [if_pos hstage]
    exact hstage
  rw [if_neg hstage]
  have hroom : b.staged.length < MAX_PUBLICATION_CHUNKS.toNat := by
    rw [← h.count]
    exact not_le.mp hfull
  obtain ⟨authorization, hadd, hauthorization⟩ := h.authorization.add hroom hid
  rw [hadd]
  dsimp only
  rw [if_neg (by omega)]
  refine ⟨⟨?_, ?_, ?_⟩, authorization, rfl⟩
  · change b.summary.chunkCount + 1 = (b.staged ++ [chunk]).length
    rw [h.count, List.length_append, List.length_singleton]
  · change (b.staged ++ [chunk]).length ≤ _
    rw [List.length_append, List.length_singleton]
    exact hroom
  · change authorization.Accumulates (b.staged ++ [chunk]).length
    rwa [List.length_append, List.length_singleton]

theorem Staged.storeEncrypted_spec (h : Staged b)
    (hsize : plaintext.length ≤ ENCRYPTED_CHUNK_MAX_PLAINTEXT_BYTES) :
    Proc.wp (storeEncrypted input key plaintext) (fun id b' => Stored input key plaintext b id b')
      (fun fault b' => fault.Cause input reads b') b := by
  unfold Cybou.storeEncrypted
  rw [Proc.wp_bind]
  refine Proc.wp_mono (drawing_spec (encryptChunk_spec hsize)) ?_ (fun _ _ hcause => hcause)
  rintro chunk _ ⟨⟨hid, hdecrypt⟩, draws, rfl⟩
  have hnonzero : isZero chunk.id.1 = false := by
    rw [hid]
    exact ChunkCipher.blake3_ne_null _
  have hdrawn : Staged { b with draws } := ⟨h.count, h.bound, h.authorization⟩
  rw [Proc.wp_bind]
  refine Proc.wp_mono (hdrawn.store_spec hnonzero) ?_ (fun _ _ hcause => hcause)
  rintro _ b' ⟨hstaged, authorization, rfl⟩
  exact ⟨hstaged, ⟨chunk, rfl, rfl⟩, ⟨chunk, List.mem_append_right _ (List.mem_singleton_self _), rfl,
    hdecrypt⟩, hnonzero, rfl, rfl, rfl⟩

/-! ### What the levels stand for -/

def branchesAt (forest : Nat → List Branch) (level : Nat) : List Branch :=
  Levels.fromTop forest level (TREE_LEVELS - level)

variable {forest forest' : Nat → List Branch} {level : Nat}

omit [ChunkCipher] in
theorem branchesAt_of_lt (h : level < TREE_LEVELS) :
    branchesAt forest level = branchesAt forest (level + 1) ++ forest level := by
  have hroom : TREE_LEVELS - level = TREE_LEVELS - (level + 1) + 1 := by omega
  rw [branchesAt, hroom]
  rfl

omit [ChunkCipher] in
theorem branchesAt_congr (h : ∀ k, level ≤ k → forest k = forest' k) :
    branchesAt forest level = branchesAt forest' level := Levels.fromTop_congr h

variable {k height : Nat}

omit [ChunkCipher] in
theorem branchesAt_update (forest : Nat → List Branch) (v : List Branch) (h : k < TREE_LEVELS) :
    ((branchesAt (Function.update forest k v) 0).flatMap (·.ids) ++ (forest k).flatMap (·.ids)).Perm
      ((branchesAt forest 0).flatMap (·.ids) ++ v.flatMap (·.ids)) := by
  have hlevels : (Levels.fromTop (Function.update forest k v) 0 TREE_LEVELS ++ forest k).Perm
      (Levels.fromTop forest 0 TREE_LEVELS ++ v) :=
    Levels.fromTop_update v (Nat.zero_le k) (by omega)
  have hperm := hlevels.flatMap_right fun c : Branch => c.ids
  rwa [List.flatMap_append, List.flatMap_append] at hperm

/-- From `level` on, a subtree on level `k` has at least `128 ^ k` chunks. -/
def Heavy (forest : Nat → List Branch) (level : Nat) : Prop :=
  ∀ k, level ≤ k → ∀ c ∈ forest k, 128 ^ k ≤ c.ids.length

omit [ChunkCipher] in
theorem Heavy.mono {higher : Nat} (h : Heavy forest level) (hle : level ≤ higher) : Heavy forest higher :=
  fun k hk => h k (hle.trans hk)

variable {branches : List Branch}

omit [ChunkCipher] in
theorem mul_length_le_flatMap {weight : Nat} (h : ∀ c ∈ branches, weight ≤ c.ids.length) :
    branches.length * weight ≤ (branches.flatMap (·.ids)).length := by
  induction branches with
  | nil => simp
  | cons c branches ih =>
    have hc := h c List.mem_cons_self
    have hrest := ih fun d hd => h d (List.mem_cons_of_mem _ hd)
    rw [List.length_cons, Nat.add_mul, List.flatMap_cons, List.length_append]
    omega

variable (input key)

/-- The builder holds the subtrees of `forest`; `pending` are the chunks of a subtree that
    is not on a level. -/
structure Grown (b : TreeBuilder) (pending : List ChunkId) (forest : Nat → List Branch) : Prop where
  staged : Staged b
  levels : ∀ k, b.levels k = (forest k).map (·.child)
  stands : ∀ k, ∀ c ∈ forest k, Stands (readableOf input key b.staged) k c
  count : ∀ k, (forest k).length ≤ ENCRYPTED_TREE_MAX_CHILDREN
  ids : (pending ++ (branchesAt forest 0).flatMap (·.ids)).Perm (b.staged.map (·.id))

structure ChunksKept (b b' : TreeBuilder) : Prop where
  plaintextBytes : b'.summary.plaintextBytes = b.summary.plaintextBytes
  contentKey : b'.summary.contentKey = b.summary.contentKey
  staged : ∃ more, b'.staged = b.staged ++ more

variable {input key} {pending : List ChunkId} {branch : Branch} {id : ChunkId} {b' b'' : TreeBuilder}

omit [ChunkCipher] in
theorem ChunksKept.trans (h : ChunksKept b b') (h' : ChunksKept b' b'') : ChunksKept b b'' := by
  rcases h.staged with ⟨more, hmore⟩
  rcases h'.staged with ⟨more', hmore'⟩
  refine ⟨h'.plaintextBytes.trans h.plaintextBytes, h'.contentKey.trans h.contentKey, more ++ more', ?_⟩
  rw [hmore', hmore, List.append_assoc]

theorem Grown.length_le (h : Grown input key b pending forest) (hk : k < TREE_LEVELS) :
    ((forest k).flatMap (·.ids)).length ≤ MAX_PUBLICATION_CHUNKS.toNat := by
  have hpart : ((forest k).flatMap (·.ids)).length ≤ ((branchesAt forest 0).flatMap (·.ids)).length :=
    Levels.length_le_fromTop (fun c : Branch => c.ids) (Nat.zero_le k) (by omega)
  have hall := h.ids.length_eq
  rw [List.length_append, List.length_map] at hall
  have hbound := h.staged.bound
  omega

theorem Grown.lt_of_full (h : Grown input key b pending forest) (hlevel : level < TREE_LEVELS)
    (hfull : 128 * 128 ^ level ≤ ((forest level).flatMap (·.ids)).length) :
    level + 1 < TREE_LEVELS := by
  by_contra hnot
  have hthree : 3 ≤ level + 1 := by
    have hlevels : TREE_LEVELS = 30 := rfl
    omega
  have hpow : 128 ^ 3 ≤ 128 ^ (level + 1) := Nat.pow_le_pow_right (by decide) hthree
  have hlength := h.length_le hlevel
  have hmax : MAX_PUBLICATION_CHUNKS.toNat < 128 ^ 3 := by decide
  rw [Nat.pow_succ] at hpow
  omega

/-- A subtree joins its level. -/
theorem Grown.append (h : Grown input key b (branch.ids ++ pending) forest)
    (hstands : Stands (readableOf input key b.staged) level branch) (hlevel : level < TREE_LEVELS)
    (hroom : (forest level).length < ENCRYPTED_TREE_MAX_CHILDREN) :
    Grown input key
      { b with levels := Function.update b.levels level (b.levels level ++ [branch.child]) } pending
      (Function.update forest level (forest level ++ [branch])) where
  staged := ⟨h.staged.count, h.staged.bound, h.staged.authorization⟩
  levels k := by
    by_cases hk : k = level
    · subst hk
      simp only [Function.update_self, h.levels, List.map_append, List.map_singleton]
    · simp only [Function.update_of_ne hk, h.levels]
  stands k c hc := by
    by_cases hk : k = level
    · subst hk
      rw [Function.update_self] at hc
      rcases List.mem_append.mp hc with hc | hc
      · exact h.stands k c hc
      · rwa [List.mem_singleton.mp hc]
    · rw [Function.update_of_ne hk] at hc
      exact h.stands k c hc
  count k := by
    by_cases hk : k = level
    · subst hk
      rw [Function.update_self, List.length_append, List.length_singleton]
      exact hroom
    · rw [Function.update_of_ne hk]
      exact h.count k
  ids := by
    have hupdate := branchesAt_update forest (forest level ++ [branch]) hlevel
    have hids := h.ids
    rw [List.perm_iff_count] at hupdate hids ⊢
    intro id
    have hupdateId := hupdate id
    have hidsId := hids id
    simp only [List.flatMap_append, List.flatMap_singleton, List.count_append] at hupdateId hidsId ⊢
    omega

def indexBranch (id : ChunkId) (below : List Branch) : Branch where
  child := { id, kind := INDEX_KIND }
  pieces := below.flatMap (·.pieces)
  ids := id :: below.flatMap (·.ids)

variable {staged : List EncryptedChunk}

theorem readableOf_append {more : List EncryptedChunk} {id : ChunkId} {plaintext : Bytes}
    (h : readableOf input key staged id plaintext) : readableOf input key (staged ++ more) id plaintext := by
  rcases h with ⟨chunk, hchunk, hrest⟩
  exact ⟨chunk, List.mem_append_left _ hchunk, hrest⟩

omit [ChunkCipher] in
theorem ChunksKept.with_levels (h : ChunksKept b b') (levels : Nat → List ChildRef) : ChunksKept b { b' with levels } :=
  ⟨h.plaintextBytes, h.contentKey, h.staged⟩

theorem Stored.kept (h : Stored input key plaintext b id b') : ChunksKept b b' := by
  rcases h.added with ⟨chunk, hadded, -⟩
  exact ⟨h.plaintextBytes, h.contentKey, [chunk], hadded⟩

theorem ChunksKept.stands (h : ChunksKept b b')
    (hstands : Stands (readableOf input key b.staged) height branch) :
    Stands (readableOf input key b'.staged) height branch := by
  rcases h.staged with ⟨more, hmore⟩
  rw [hmore]
  exact hstands.mono fun _ _ => readableOf_append

theorem Grown.stands_stored (h : Grown input key b pending forest)
    (hstored : Stored input key plaintext b id b') (k : Nat) :
    ∀ c ∈ forest k, Stands (readableOf input key b'.staged) k c :=
  fun c hc => hstored.kept.stands (h.stands k c hc)

/-- A full level becomes one subtree of the level above. -/
theorem Grown.clear (h : Grown input key b pending forest) (hlevel : level < TREE_LEVELS)
    (hstored : Stored input key plaintext b id b') :
    Grown input key { b' with levels := Function.update b'.levels level [] }
      ((indexBranch id (forest level)).ids ++ pending) (Function.update forest level []) where
  staged := ⟨hstored.staged.count, hstored.staged.bound, hstored.staged.authorization⟩
  levels k := by
    by_cases hk : k = level
    · subst hk
      simp only [Function.update_self, List.map_nil]
    · simp only [Function.update_of_ne hk, hstored.levels, h.levels]
  stands k c hc := by
    by_cases hk : k = level
    · subst hk
      rw [Function.update_self] at hc
      cases hc
    · rw [Function.update_of_ne hk] at hc
      exact h.stands_stored hstored k c hc
  count k := by
    by_cases hk : k = level
    · subst hk
      rw [Function.update_self]
      exact Nat.zero_le _
    · rw [Function.update_of_ne hk]
      exact h.count k
  ids := by
    have hupdate := branchesAt_update forest [] hlevel
    have hids := h.ids
    rcases hstored.added with ⟨chunk, hadded, hid⟩
    change List.Perm _ (b'.staged.map (·.id))
    rw [hadded, List.map_append, List.map_singleton, hid]
    rw [List.perm_iff_count] at hupdate hids ⊢
    intro other
    have hupdateOther := hupdate other
    have hidsOther := hids other
    simp only [indexBranch, List.flatMap_nil, List.append_nil, List.count_append, List.count_cons,
      List.count_nil, List.cons_append] at hupdateOther hidsOther ⊢
    omega

theorem Grown.stands_index (h : Grown input key b pending forest) (hne : forest level ≠ [])
    (hstored : Stored input key (nodeBytes INDEX_KIND (kindAt level) ((forest level).map (·.child)) [])
      b id b') :
    Stands (readableOf input key b'.staged) (level + 1) (indexBranch id (forest level)) :=
  ⟨rfl, forest level, hne, h.count level, h.stands_stored hstored level, hstored.readable, rfl, rfl⟩

theorem Grown.makeMetadata_index (h : Grown input key b pending forest) (hne : forest level ≠ []) :
    makeMetadata INDEX_KIND (b.levels level) [] =
      some (nodeBytes INDEX_KIND (kindAt level) ((forest level).map (·.child)) []) := by
  have hnonempty : (forest level).map (·.child) ≠ [] := fun hnil => hne (List.map_eq_nil_iff.mp hnil)
  rw [h.levels, makeMetadata_eq_some (by rw [List.length_map]; exact h.count level)
    (fun _ => hnonempty) (Nat.zero_le _), (Stands.ofKind (h.stands level)).childKindOf hnonempty]

/-! ### Push and Flush -/

/-- What `Push` of a subtree leaves. -/
structure Pushed (input : TreeInput) (key : ContentKey) (pending : List ChunkId) (level : Nat)
    (branch : Branch) (b : TreeBuilder) (forest : Nat → List Branch) (b' : TreeBuilder)
    (forest' : Nat → List Branch) : Prop where
  grown : Grown input key b' pending forest'
  below : ∀ k, k < level → forest' k = forest k
  pieces : (branchesAt forest' level).flatMap (·.pieces) =
    (branchesAt forest level).flatMap (·.pieces) ++ branch.pieces
  heavyAbove : Heavy forest' (level + 1)
  heavy : 128 ^ level ≤ branch.ids.length → Heavy forest' level
  kept : ChunksKept b b'

structure Flushed (input : TreeInput) (key : ContentKey) (pending : List ChunkId) (level : Nat)
    (b : TreeBuilder) (forest : Nat → List Branch) (b' : TreeBuilder)
    (forest' : Nat → List Branch) : Prop where
  grown : Grown input key b' pending forest'
  below : ∀ k, k < level → forest' k = forest k
  empty : forest' level = []
  pieces : (branchesAt forest' (level + 1)).flatMap (·.pieces) =
    (branchesAt forest level).flatMap (·.pieces)
  heavyAbove : Heavy forest' (level + 2)
  heavy : 128 * 128 ^ level ≤ ((forest level).flatMap (·.ids)).length → Heavy forest' (level + 1)
  kept : ChunksKept b b'

/-- Flushing a level pushes its subtree, whose size is that of a full level. -/
theorem flushWith_spec {pushAbove : ChildRef → Building Unit} (hlevel : level + 1 < TREE_LEVELS)
    (h : Grown input key b pending forest) (hne : forest level ≠ []) (hheavy : Heavy forest (level + 1))
    (hpush : ∀ b forest branch, Grown input key b (branch.ids ++ pending) forest →
      Stands (readableOf input key b.staged) (level + 1) branch → Heavy forest (level + 1) →
      Proc.wp (pushAbove branch.child)
        (fun _ b' => ∃ forest', Pushed input key pending (level + 1) branch b forest b' forest')
        (fun fault b' => fault.Cause input reads b') b) :
    Proc.wp (flushWith input key pushAbove level)
      (fun _ b' => ∃ forest', Flushed input key pending level b forest b' forest')
      (fun fault b' => fault.Cause input reads b') b := by
  have hlevels : b.levels level ≠ [] := by
    rw [h.levels]
    exact fun hnil => hne (List.map_eq_nil_iff.mp hnil)
  have hchildren : ((forest level).map (·.child)).length ≤ ENCRYPTED_TREE_MAX_CHILDREN := by
    rw [List.length_map]
    exact h.count level
  have hempty : ([] : Bytes).length ≤ ENCRYPTED_TREE_ROOT_PRIVATE_METADATA_MAX_BYTES := Nat.zero_le _
  have hsize := length_nodeBytes_le INDEX_KIND (kindAt level) hchildren hempty
  unfold flushWith
  rw [Proc.wp_get_bind, if_neg, h.makeMetadata_index hne]
  · rw [Proc.wp_bind]
    change Proc.wp (if _ then _ else _) _ _ b
    rw [if_neg (not_lt.mpr hsize), Proc.wp_bind]
    refine Proc.wp_mono (h.staged.storeEncrypted_spec hsize) ?_ (fun _ _ hcause => hcause)
    intro id b1 hstored
    have hbelow : level < TREE_LEVELS := by omega
    have hclear := h.clear hbelow hstored
    have hstands := h.stands_index hne hstored
    have habove : Heavy (Function.update forest level []) (level + 1) := by
      intro k hk c hc
      rw [Function.update_of_ne (by omega)] at hc
      exact hheavy k hk c hc
    rw [Proc.wp_bind]
    change Proc.wp (pushAbove (indexBranch id (forest level)).child) _ _ _
    refine Proc.wp_mono (hpush _ _ _ hclear hstands habove) ?_ (fun _ _ hcause => hcause)
    intro _ b' hpushed
    rcases hpushed with ⟨forest', hpushed⟩
    have hsame : branchesAt (Function.update forest level []) (level + 1) = branchesAt forest (level + 1) := by
      apply branchesAt_congr
      intro k hk
      rw [Function.update_of_ne (by omega)]
    refine ⟨forest', hpushed.grown, ?_, ?_, ?_, hpushed.heavyAbove, ?_, ?_⟩
    · intro k hk
      rw [hpushed.below k (by omega), Function.update_of_ne (by omega)]
    · rw [hpushed.below level (by omega), Function.update_self]
    · rw [hpushed.pieces, hsame, branchesAt_of_lt (by omega : level < TREE_LEVELS), List.flatMap_append]
      rfl
    · intro hfull
      apply hpushed.heavy
      rw [indexBranch, List.length_cons, Nat.pow_succ]
      omega
    · exact ChunksKept.trans (hstored.kept.with_levels _) hpushed.kept
  · rintro (hhigh | hnil)
    · omega
    · exact hlevels hnil

theorem Grown.pushed (h : Grown input key b (branch.ids ++ pending) forest)
    (hstands : Stands (readableOf input key b.staged) level branch) (hlevel : level < TREE_LEVELS)
    (hroom : (forest level).length < ENCRYPTED_TREE_MAX_CHILDREN) (habove : Heavy forest (level + 1))
    (hheavy : ∀ c ∈ forest level, 128 ^ level ≤ c.ids.length) :
    Pushed input key pending level branch b forest
      { b with levels := Function.update b.levels level (b.levels level ++ [branch.child]) }
      (Function.update forest level (forest level ++ [branch])) where
  grown := h.append hstands hlevel hroom
  below k hk := by rw [Function.update_of_ne (by omega)]
  pieces := by
    have hsame : branchesAt (Function.update forest level (forest level ++ [branch])) (level + 1) =
        branchesAt forest (level + 1) := by
      apply branchesAt_congr
      intro k hk
      rw [Function.update_of_ne (by omega)]
    rw [branchesAt_of_lt hlevel, hsame, Function.update_self, branchesAt_of_lt hlevel]
    simp only [List.flatMap_append, List.flatMap_singleton, List.append_assoc]
  heavyAbove k hk c hc := by
    rw [Function.update_of_ne (by omega)] at hc
    exact habove k hk c hc
  heavy hbranch k hk c hc := by
    by_cases hsame : k = level
    · subst hsame
      rw [Function.update_self] at hc
      rcases List.mem_append.mp hc with hc | hc
      · exact hheavy c hc
      · rwa [List.mem_singleton.mp hc]
    · rw [Function.update_of_ne hsame] at hc
      exact habove k (by omega) c hc
  kept := ⟨rfl, rfl, [], (List.append_nil _).symm⟩

/-- A push keeps the forest; by induction on the levels that are above. -/
theorem pushWithin_spec {room : Nat} (hroom : 0 < room) (hle : room ≤ TREE_LEVELS)
    (hlevel : level = TREE_LEVELS - room) (h : Grown input key b (branch.ids ++ pending) forest)
    (hstands : Stands (readableOf input key b.staged) level branch) (hheavy : Heavy forest level) :
    Proc.wp (pushWithin input key room branch.child)
      (fun _ b' => ∃ forest', Pushed input key pending level branch b forest b' forest')
      (fun fault b' => fault.Cause input reads b') b := by
  induction room generalizing level b branch pending forest with
  | zero => omega
  | succ room ih =>
    rw [pushWithin, Proc.wp_get_bind, ← hlevel]
    have hlt : level < TREE_LEVELS := by omega
    have hlength : (b.levels level).length = (forest level).length := by rw [h.levels, List.length_map]
    by_cases hfull : (b.levels level).length = ENCRYPTED_TREE_MAX_CHILDREN
    · have hweight : 128 * 128 ^ level ≤ ((forest level).flatMap (·.ids)).length := by
        have hle := mul_length_le_flatMap (hheavy level (Nat.le_refl level))
        rwa [← hlength, hfull] at hle
      have hnext := h.lt_of_full hlt hweight
      have hne : forest level ≠ [] := by
        intro hnil
        rw [hlength, hnil] at hfull
        cases hfull
      rw [if_pos hfull, Proc.wp_bind]
      refine Proc.wp_mono (flushWith_spec hnext h hne (hheavy.mono (Nat.le_succ level)) ?_) ?_
        (fun _ _ hcause => hcause)
      · intro b1 forest1 branch1 h1 hstands1 hheavy1
        exact ih (by omega) (by omega) (by omega) h1 hstands1 hheavy1
      intro _ b1 hflushed
      rcases hflushed with ⟨forest1, hflushed⟩
      have hpushed := hflushed.grown.pushed (hflushed.kept.stands hstands) hlt
        (by rw [hflushed.empty]; decide) (hflushed.heavy hweight)
        (by rw [hflushed.empty]; exact fun c hc => absurd hc List.not_mem_nil)
      refine ⟨_, hpushed.grown, ?_, ?_, hpushed.heavyAbove, hpushed.heavy, hflushed.kept.trans hpushed.kept⟩
      · intro k hk
        rw [hpushed.below k hk, hflushed.below k hk]
      · rw [hpushed.pieces, branchesAt_of_lt hlt, hflushed.empty, List.append_nil, hflushed.pieces]
    · rw [if_neg hfull]
      have hroomLeft : (forest level).length < ENCRYPTED_TREE_MAX_CHILDREN := by
        rw [hlength] at hfull
        exact lt_of_le_of_ne (h.count level) hfull
      exact ⟨_, h.pushed hstands hlt hroomLeft (hheavy.mono (Nat.le_succ level))
        (hheavy level (Nat.le_refl level))⟩

theorem push_spec (hlevel : level < TREE_LEVELS) (h : Grown input key b (branch.ids ++ pending) forest)
    (hstands : Stands (readableOf input key b.staged) level branch) (hheavy : Heavy forest level) :
    Proc.wp (push input key level branch.child)
      (fun _ b' => ∃ forest', Pushed input key pending level branch b forest b' forest')
      (fun fault b' => fault.Cause input reads b') b :=
  pushWithin_spec (by omega) (by omega) (by omega) h hstands hheavy

theorem flush_spec (hlevel : level + 1 < TREE_LEVELS) (h : Grown input key b pending forest)
    (hne : forest level ≠ []) (hheavy : Heavy forest (level + 1)) :
    Proc.wp (flush input key level)
      (fun _ b' => ∃ forest', Flushed input key pending level b forest b' forest')
      (fun fault b' => fault.Cause input reads b') b :=
  flushWith_spec hlevel h hne hheavy fun _ _ _ h1 hstands1 hheavy1 => push_spec hlevel h1 hstands1 hheavy1

/-- A piece of data becomes a leaf behind all others. -/
theorem addData_spec (h : Grown input key b [] forest) (hheavy : Heavy forest 0)
    (hsize : plaintext.length ≤ ENCRYPTED_TREE_DATA_MAX_BYTES) :
    Proc.wp (addData input key plaintext)
      (fun _ b' => ∃ forest', Grown input key b' [] forest' ∧ Heavy forest' 0 ∧
        (branchesAt forest' 0).flatMap (·.pieces) =
          (branchesAt forest 0).flatMap (·.pieces) ++ [plaintext] ∧ ChunksKept b b')
      (fun fault b' => fault.Cause input reads b') b := by
  have hplaintext : plaintext.length ≤ ENCRYPTED_CHUNK_MAX_PLAINTEXT_BYTES := hsize.trans (by decide)
  unfold addData
  rw [Proc.wp_bind]
  refine Proc.wp_mono (h.staged.storeEncrypted_spec hplaintext) ?_ (fun _ _ hcause => hcause)
  intro id b1 hstored
  let leaf : Branch := { child := { id, kind := DATA_KIND }, pieces := [plaintext], ids := [id] }
  have hleaf : Stands (readableOf input key b1.staged) 0 leaf :=
    ⟨rfl, plaintext, hstored.readable, hsize, rfl, rfl⟩
  have hgrown : Grown input key b1 (leaf.ids ++ []) forest := by
    refine ⟨hstored.staged, fun k => by rw [hstored.levels, h.levels], h.stands_stored hstored,
      h.count, ?_⟩
    rcases hstored.added with ⟨chunk, hadded, hid⟩
    have hids := h.ids
    rw [List.nil_append] at hids
    rw [hadded, List.map_append, List.map_singleton, hid, List.append_nil]
    exact (hids.append_left leaf.ids).trans List.perm_append_comm
  refine Proc.wp_mono (push_spec (by decide) hgrown hleaf hheavy) ?_ (fun _ _ hcause => hcause)
  intro _ b' hpushed
  rcases hpushed with ⟨forest', hpushed⟩
  exact ⟨forest', hpushed.grown, hpushed.heavy (Nat.le_refl 1), hpushed.pieces,
    hstored.kept.trans hpushed.kept⟩

/-! ### Finish -/

/-- A root was written over the pieces: it stands, and its chunks are those staged. -/
structure Rooted (input : TreeInput) (key : ContentKey) (privateMetadata : Bytes) (pieces : List Bytes)
    (rootId : ChunkId) (b : TreeBuilder) : Prop where
  staged : Staged b
  nonzero : isZero rootId.1 = false
  stands : ∃ branches height,
    RootStands (readableOf input key b.staged) rootId privateMetadata branches height ∧
      branches.flatMap (·.pieces) = pieces ∧
      (rootId :: branches.flatMap (·.ids)).Perm (b.staged.map (·.id))

variable {privateMetadata : Bytes}

theorem finishRoot_spec (h : Staged b)
    (hcount : branches.length ≤ ENCRYPTED_TREE_MAX_CHILDREN) (hheight : height < TREE_LEVELS)
    (hstands : ∀ c ∈ branches, Stands (readableOf input key b.staged) height c)
    (hids : (branches.flatMap (·.ids)).Perm (b.staged.map (·.id)))
    (hmetadata : privateMetadata.length ≤ ENCRYPTED_TREE_ROOT_PRIVATE_METADATA_MAX_BYTES) :
    Proc.wp (finishRoot input key (branches.map (·.child)) privateMetadata)
      (fun rootId b' => Rooted input key privateMetadata (branches.flatMap (·.pieces)) rootId b' ∧ ChunksKept b b')
      (fun fault b' => fault.Cause input reads b') b := by
  have hchildren : (branches.map (·.child)).length ≤ ENCRYPTED_TREE_MAX_CHILDREN := by
    rwa [List.length_map]
  have hsize := length_nodeBytes_le ROOT_KIND (childKindOf (branches.map (·.child))) hchildren hmetadata
  unfold finishRoot
  rw [makeMetadata_eq_some hchildren (fun habsurd => absurd habsurd (by decide)) hmetadata, Proc.wp_bind]
  change Proc.wp (storeEncrypted input key _ >>= _) _ _ b
  rw [Proc.wp_bind]
  refine Proc.wp_mono (h.storeEncrypted_spec hsize) ?_ (fun _ _ hcause => hcause)
  intro rootId b1 hstored
  rcases hstored.added with ⟨chunk, hadded, hid⟩
  have hpositive : 0 < b1.staged.length := by
    rw [hadded, List.length_append, List.length_singleton]
    omega
  obtain ⟨root, hfinish⟩ := hstored.staged.authorization.finish hpositive
  rw [Proc.wp_get_bind, hfinish]
  change Proc.wp (if _ then _ else _) _ _ b1
  rw [if_neg (not_not.mpr hstored.staged.count.symm)]
  refine ⟨⟨⟨hstored.staged.count, hstored.staged.bound, hstored.staged.authorization⟩, hstored.nonzero,
    branches, height, ⟨hcount, ?_, fun c hc => hstored.kept.stands (hstands c hc), hmetadata,
      hstored.readable⟩, rfl, ?_⟩, hstored.plaintextBytes, hstored.contentKey, [chunk], hadded⟩
  · exact hheight.trans (by decide)
  · change List.Perm _ (b1.staged.map (·.id))
    rw [hadded, List.map_append, List.map_singleton, hid]
    exact (hids.cons rootId).trans (List.perm_append_singleton rootId _).symm

omit [ChunkCipher] in
theorem branchesAt_skip (h : ∀ k, k < level → forest k = []) (hlevel : level ≤ TREE_LEVELS) :
    branchesAt forest 0 = branchesAt forest level := by
  have hskip : Levels.fromTop forest 0 (level + (TREE_LEVELS - level)) =
      Levels.fromTop forest (0 + level) (TREE_LEVELS - level) :=
    Levels.fromTop_skip fun k _ hk => h k (by omega)
  rw [Nat.add_sub_cancel' hlevel, Nat.zero_add] at hskip
  exact hskip

theorem Grown.staged_ne_nil (h : Grown input key b [] forest) (hlevel : level < TREE_LEVELS)
    (hne : forest level ≠ []) : b.staged ≠ [] := by
  intro hnil
  have hids := h.ids
  rw [hnil, List.nil_append, List.map_nil, List.perm_nil, List.flatMap_eq_nil_iff] at hids
  obtain ⟨c, hc⟩ := List.exists_mem_of_ne_nil _ hne
  have hmem : c ∈ branchesAt forest 0 :=
    Levels.mem_fromTop.mpr ⟨level, Nat.zero_le level, by omega, hc⟩
  have hstands := h.stands level c hc
  have hempty := hids c hmem
  cases level with
  | zero =>
    rcases hstands with ⟨_, _, _, _, _, hself⟩
    rw [hself] at hempty
    cases hempty
  | succ level =>
    rcases hstands with ⟨_, _, _, _, _, _, _, hself⟩
    rw [hself] at hempty
    cases hempty

theorem Grown.exists_level (h : Grown input key b [] forest) (hne : b.staged ≠ []) :
    ∃ k, k < TREE_LEVELS ∧ forest k ≠ [] := by
  by_contra hnone
  push Not at hnone
  have hempty : branchesAt forest 0 = [] :=
    Levels.fromTop_eq_nil fun k _ hk => hnone k (by omega)
  have hids := h.ids
  rw [hempty, List.flatMap_nil, List.append_nil] at hids
  exact hne (List.map_eq_nil_iff.mp (List.nil_perm.mp hids))

/-- The loop of `Finish`: below its level nothing is left, at the top the root is written. -/
theorem finishFrom_spec {n : Nat} (hn : level + n = TREE_LEVELS) (h : Grown input key b [] forest)
    (hbelow : ∀ k, k < level → forest k = []) (habove : Heavy forest (level + 1))
    (hsome : ∃ k, level ≤ k ∧ k < TREE_LEVELS ∧ forest k ≠ [])
    (hmetadata : privateMetadata.length ≤ ENCRYPTED_TREE_ROOT_PRIVATE_METADATA_MAX_BYTES) :
    Proc.wp (finishFrom input key privateMetadata (List.range' level n))
      (fun rootId b' =>
        Rooted input key privateMetadata ((branchesAt forest level).flatMap (·.pieces)) rootId b' ∧
          ChunksKept b b')
      (fun fault b' => fault.Cause input reads b') b := by
  have hlevels : ∀ k, b.levels k = [] ↔ forest k = [] := by
    intro k
    rw [h.levels, List.map_eq_nil_iff]
  induction n generalizing level b forest with
  | zero =>
    rcases hsome with ⟨k, hle, hlt, -⟩
    omega
  | succ n ih =>
    have hlt : level < TREE_LEVELS := by omega
    rw [List.range'_succ, finishFrom, Proc.wp_get_bind]
    by_cases hempty : forest level = []
    · rw [if_pos ((hlevels level).mpr hempty), branchesAt_of_lt hlt, hempty, List.append_nil]
      refine ih (by omega) h ?_ (habove.mono (Nat.le_succ _)) ?_ hlevels
      · intro k hk
        by_cases hsame : k = level
        · rw [hsame, hempty]
        · exact hbelow k (by omega)
      · rcases hsome with ⟨k, hle, hk, hne⟩
        refine ⟨k, ?_, hk, hne⟩
        have hdifferent : k ≠ level := by
          rintro rfl
          exact hne hempty
        omega
    rw [if_neg fun hnil => hempty ((hlevels level).mp hnil)]
    by_cases hhigher : (List.range' (level + 1) n).any (fun higher => decide (b.levels higher ≠ [])) = false
    · have hnone : ∀ k, level + 1 ≤ k → k < level + 1 + n → forest k = [] := by
        intro k hle hk
        rw [List.any_eq_false] at hhigher
        have hk' := hhigher k (List.mem_range'_1.mpr ⟨hle, hk⟩)
        rw [decide_eq_true_eq, not_not] at hk'
        exact (hlevels k).mp hk'
      have hrest : branchesAt forest (level + 1) = [] := by
        apply Levels.fromTop_eq_nil
        intro k hle hk
        exact hnone k hle (by omega)
      have hall : branchesAt forest level = forest level := by
        rw [branchesAt_of_lt hlt, hrest, List.nil_append]
      have hids := h.ids
      rw [List.nil_append, branchesAt_skip hbelow hlt.le, hall] at hids
      rw [if_pos hhigher, hall, h.levels]
      exact finishRoot_spec h.staged (h.count level) hlt (h.stands level) hids hmetadata
    · have hnext : level + 1 < TREE_LEVELS := by
        rw [Bool.not_eq_false, List.any_eq_true] at hhigher
        rcases hhigher with ⟨k, hk, -⟩
        have hrange := List.mem_range'_1.mp hk
        omega
      rw [if_neg hhigher, Proc.wp_bind]
      refine Proc.wp_mono (flush_spec hnext h hempty habove) ?_ (fun _ _ hcause => hcause)
      intro _ b1 hflushed
      rcases hflushed with ⟨forest1, hflushed⟩
      have hbelow1 : ∀ k, k < level + 1 → forest1 k = [] := by
        intro k hk
        by_cases hsame : k = level
        · rw [hsame, hflushed.empty]
        · rw [hflushed.below k (by omega), hbelow k (by omega)]
      have hstaged : b1.staged ≠ [] := by
        rcases hflushed.kept.staged with ⟨more, hmore⟩
        rw [hmore]
        exact fun hnil => h.staged_ne_nil hlt hempty (List.append_eq_nil_iff.mp hnil).1
      have hsome1 : ∃ k, level + 1 ≤ k ∧ k < TREE_LEVELS ∧ forest1 k ≠ [] := by
        obtain ⟨k, hk, hne⟩ := hflushed.grown.exists_level hstaged
        exact ⟨k, not_lt.mp fun hlow => hne (hbelow1 k hlow), hk, hne⟩
      have hlevels1 : ∀ k, b1.levels k = [] ↔ forest1 k = [] := by
        intro k
        rw [hflushed.grown.levels, List.map_eq_nil_iff]
      have hfinish := ih (by omega) hflushed.grown hbelow1 hflushed.heavyAbove hsome1 hlevels1
      rw [hflushed.pieces] at hfinish
      exact Proc.wp_mono hfinish (fun _ _ hrooted => ⟨hrooted.1, hflushed.kept.trans hrooted.2⟩)
        (fun _ _ hcause => hcause)

theorem finish_spec (h : Grown input key b [] forest) (hheavy : Heavy forest 0)
    (hmetadata : privateMetadata.length ≤ ENCRYPTED_TREE_ROOT_PRIVATE_METADATA_MAX_BYTES) :
    Proc.wp (finish input key privateMetadata)
      (fun rootId b' =>
        Rooted input key privateMetadata ((branchesAt forest 0).flatMap (·.pieces)) rootId b' ∧ ChunksKept b b')
      (fun fault b' => fault.Cause input reads b') b := by
  have hlevels : ∀ k, b.levels k = [] ↔ forest k = [] := by
    intro k
    rw [h.levels, List.map_eq_nil_iff]
  unfold finish
  rw [Proc.wp_get_bind, List.range_eq_range']
  by_cases hnone : (List.range' 0 TREE_LEVELS).any (fun level => decide (b.levels level ≠ [])) = false
  · have hempty : branchesAt forest 0 = [] := by
      apply Levels.fromTop_eq_nil
      intro k _ hk
      rw [List.any_eq_false] at hnone
      have hk' := hnone k (List.mem_range'_1.mpr ⟨Nat.zero_le k, hk⟩)
      rw [decide_eq_true_eq, not_not] at hk'
      exact (hlevels k).mp hk'
    have hids := h.ids
    rw [List.nil_append, hempty] at hids
    rw [if_pos hnone, hempty]
    have hcount : ([] : List Branch).length ≤ ENCRYPTED_TREE_MAX_CHILDREN := Nat.zero_le _
    have hheight : 0 < TREE_LEVELS := by decide
    exact finishRoot_spec h.staged hcount hheight
      (fun c hc => absurd hc List.not_mem_nil) hids hmetadata
  · rw [if_neg hnone]
    refine finishFrom_spec (Nat.zero_add _) h (fun k hk => absurd hk (Nat.not_lt_zero k))
      (hheavy.mono (Nat.zero_le 1)) ?_ hmetadata
    rw [Bool.not_eq_false, List.any_eq_true] at hnone
    rcases hnone with ⟨k, hk, hne⟩
    have hrange := List.mem_range'_1.mp hk
    rw [decide_eq_true_eq] at hne
    exact ⟨k, hrange.1, by omega, fun hnil => hne ((hlevels k).mpr hnil)⟩

/-! ### Reading the source -/

def grownBytes (forest : Nat → List Branch) : Bytes := ((branchesAt forest 0).flatMap (·.pieces)).flatten

theorem Grown.length_grownBytes (h : Grown input key b [] forest) :
    (grownBytes forest).length ≤ MAX_PUBLICATION_CHUNKS.toNat * ENCRYPTED_TREE_DATA_MAX_BYTES := by
  have hpieces : (grownBytes forest).length ≤
      ((branchesAt forest 0).flatMap (·.ids)).length * ENCRYPTED_TREE_DATA_MAX_BYTES := by
    apply length_flatten_flatMap_le
    intro c hc
    rcases Levels.mem_fromTop.mp hc with ⟨k, -, -, hmem⟩
    exact (h.stands k c hmem).length_pieces_le
  have hids := h.ids.length_eq
  rw [List.nil_append, List.length_map] at hids
  rw [hids] at hpieces
  exact hpieces.trans (Nat.mul_le_mul_right _ h.staged.bound)

omit [ChunkCipher] in
theorem randomDataTarget_spec {draws : Nat} :
    Proc.wp (randomDataTarget input.random)
      (fun target _ => 0 < target ∧ target ≤ ENCRYPTED_TREE_DATA_MAX_BYTES)
      (fun fault _ => fault.Cause input.random) draws := by
  unfold randomDataTarget
  rw [Proc.wp_bind]
  refine Proc.wp_mono (randBytes_spec 4) (fun bytes _ _ => ?_) (fun _ _ hcause => hcause)
  have hmod := Nat.mod_lt (leNat bytes.1.reverse)
    (show 0 < ENCRYPTED_TREE_DATA_MAX_BYTES - ENCRYPTED_TREE_DATA_MIN_BYTES + 1 by omega)
  have hmin : 0 < ENCRYPTED_TREE_DATA_MIN_BYTES := by decide
  have hmax : ENCRYPTED_TREE_DATA_MIN_BYTES ≤ ENCRYPTED_TREE_DATA_MAX_BYTES := by decide
  rw [Proc.wp_pure]
  omega

def SourceRead (input : TreeInput) (key : ContentKey) (source : Bytes) (b b' : TreeBuilder) : Prop :=
  ∃ forest, Grown input key b' [] forest ∧ Heavy forest 0 ∧ grownBytes forest = source ∧
    b'.summary.plaintextBytes = source.length ∧ b'.summary.contentKey = b.summary.contentKey

theorem addTail_spec (h : Grown input key b [] forest) (hheavy : Heavy forest 0)
    (hsize : plaintext.length ≤ ENCRYPTED_TREE_DATA_MAX_BYTES)
    (hcount : b.summary.plaintextBytes = (grownBytes forest ++ plaintext).length) :
    Proc.wp (addTail input key plaintext)
      (fun _ b' => SourceRead input key (grownBytes forest ++ plaintext) b b')
      (fun fault b' => fault.Cause input reads b') b := by
  unfold addTail
  by_cases hnil : plaintext = []
  · rw [hnil, List.append_nil] at hcount
    rw [if_pos hnil, hnil, List.append_nil]
    exact ⟨forest, h, hheavy, rfl, hcount, rfl⟩
  · rw [if_neg hnil]
    refine Proc.wp_mono (addData_spec h hheavy hsize) ?_ (fun _ _ hcause => hcause)
    intro _ b' hadded
    rcases hadded with ⟨forest', hgrown, hheavy', hpieces, hkept⟩
    refine ⟨forest', hgrown, hheavy', ?_, by rw [hkept.plaintextBytes, hcount], hkept.contentKey⟩
    rw [grownBytes, hpieces, List.flatten_append, List.flatten_singleton]
    rfl

omit [ChunkCipher] in
theorem delivered_cons {read : Bytes} (h : read ≠ []) (rest : List (Option Bytes)) :
    delivered (some read :: rest) = read ++ delivered rest := by
  cases read with
  | nil => exact absurd rfl h
  | cons byte bytes => rfl

/-- The loop over the reads: what is built and what is buffered are the bytes so far. -/
theorem readSource_spec {target : Nat} {rest : List (Option Bytes)} (htarget : 0 < target)
    (hmax : target ≤ ENCRYPTED_TREE_DATA_MAX_BYTES) (hfilled : plaintext.length < target)
    (h : Grown input key b [] forest) (hheavy : Heavy forest 0)
    (hcount : b.summary.plaintextBytes = (grownBytes forest ++ plaintext).length)
    (hreads : ∀ read ∈ rest, read ∈ reads) :
    Proc.wp (readSource input key target plaintext rest)
      (fun _ b' => SourceRead input key (grownBytes forest ++ plaintext ++ delivered rest) b b')
      (fun fault b' => fault.Cause input reads b') b := by
  induction rest generalizing target plaintext b forest with
  | nil =>
    have hnone : delivered [] = [] := rfl
    rw [hnone, List.append_nil]
    exact addTail_spec h hheavy (by omega) hcount
  | cons read rest ih =>
    have hread := hreads read List.mem_cons_self
    have hrest : ∀ read ∈ rest, read ∈ reads := fun other hother =>
      hreads other (List.mem_cons_of_mem _ hother)
    cases read with
    | none => exact ⟨hread, .inl rfl⟩
    | some read =>
      rw [readSource]
      by_cases hlong : read.length > target - plaintext.length
      · rw [if_pos hlong]
        exact ⟨hread, .inr ⟨read, rfl, hlong⟩⟩
      rw [if_neg hlong]
      by_cases heof : read = []
      · have hend : delivered (some read :: rest) = [] := by
          rw [heof]
          rfl
        rw [if_pos heof, hend, List.append_nil]
        exact addTail_spec h hheavy (by omega) hcount
      have hfits : (plaintext ++ read).length ≤ target := by
        rw [List.length_append]
        omega
      have hnoOverflow : ¬(plaintext ++ read).length > UINT64_MAX.toNat - b.summary.plaintextBytes := by
        have hgrown := h.length_grownBytes
        have hlimit : MAX_PUBLICATION_CHUNKS.toNat * ENCRYPTED_TREE_DATA_MAX_BYTES +
            ENCRYPTED_TREE_DATA_MAX_BYTES + ENCRYPTED_TREE_DATA_MAX_BYTES ≤ UINT64_MAX.toNat := by decide
        rw [List.length_append] at hcount
        omega
      have hdelivered : grownBytes forest ++ plaintext ++ delivered (some read :: rest) =
          grownBytes forest ++ (plaintext ++ read) ++ delivered rest := by
        rw [delivered_cons heof]
        simp only [List.append_assoc]
      have hcounted : b.summary.plaintextBytes + read.length =
          (grownBytes forest ++ (plaintext ++ read)).length := by
        rw [hcount]
        simp only [List.length_append, Nat.add_assoc]
      rw [if_neg heof, Proc.wp_get_bind, if_neg hnoOverflow, Proc.wp_set_bind, hdelivered]
      -- counting the bytes changes nothing that the levels stand for
      have hsame : Grown input key { b with
          summary := { b.summary with plaintextBytes := b.summary.plaintextBytes + read.length } }
          [] forest :=
        ⟨⟨h.staged.count, h.staged.bound, h.staged.authorization⟩, h.levels, h.stands, h.count, h.ids⟩
      by_cases hroom : (plaintext ++ read).length < target
      · rw [if_pos hroom]
        exact ih htarget hmax hroom hsame hheavy hcounted hrest
      rw [if_neg hroom, Proc.wp_bind]
      refine Proc.wp_mono (addData_spec hsame hheavy (hfits.trans hmax)) ?_ (fun _ _ hcause => hcause)
      intro _ b1 hadded
      rcases hadded with ⟨forest1, hgrown, hheavy1, hpieces, hkept⟩
      have hbytes : grownBytes forest1 = grownBytes forest ++ (plaintext ++ read) := by
        rw [grownBytes, hpieces, List.flatten_append, List.flatten_singleton]
        rfl
      rw [Proc.wp_bind]
      refine Proc.wp_mono (drawing_spec randomDataTarget_spec) ?_ (fun _ _ hcause => hcause)
      intro target' b2 hdrawn
      rcases hdrawn with ⟨hbounds, draws, rfl⟩
      have hgrown2 : Grown input key { b1 with draws } [] forest1 :=
        ⟨⟨hgrown.staged.count, hgrown.staged.bound, hgrown.staged.authorization⟩, hgrown.levels,
          hgrown.stands, hgrown.count, hgrown.ids⟩
      have hcount2 : b1.summary.plaintextBytes = (grownBytes forest1 ++ []).length := by
        rw [hkept.plaintextBytes, List.append_nil, hbytes]
        exact hcounted
      have hfilled : ([] : Bytes).length < target' := hbounds.1
      have hloop := ih hbounds.1 hbounds.2 hfilled hgrown2 hheavy1 hcount2 hrest
      rw [List.append_nil, hbytes] at hloop
      refine Proc.wp_mono hloop ?_ (fun _ _ hcause => hcause)
      intro _ b' hsource
      rcases hsource with ⟨forest', hgrown', hheavy', hbytes', hcount', hkey⟩
      exact ⟨forest', hgrown', hheavy', hbytes', hcount', hkey.trans hkept.contentKey⟩

/-! ### Build -/

/-- What a build leaves: a root over the whole source. -/
structure Built (input : TreeInput) (privateMetadata source : Bytes) (summary : EncryptedTreeSummary)
    (b : TreeBuilder) : Prop where
  nonzero : isZero summary.rootChunkId.1 = false
  plaintextBytes : summary.plaintextBytes = source.length
  chunkCount : summary.chunkCount = b.staged.length
  stands : ∃ branches height,
    RootStands (readableOf input summary.contentKey b.staged) summary.rootChunkId privateMetadata
      branches height ∧ (branches.flatMap (·.pieces)).flatten = source ∧
      (summary.rootChunkId :: branches.flatMap (·.ids)).Perm (b.staged.map (·.id))

/-- The run: the tree stands over the bytes delivered, or a fault has its cause. -/
theorem buildEncryptedChunkTree_spec
    (hmetadata : privateMetadata.length ≤ ENCRYPTED_TREE_ROOT_PRIVATE_METADATA_MAX_BYTES) :
    Proc.wp (buildEncryptedChunkTree input privateMetadata reads)
      (fun summary b => Built input privateMetadata (delivered reads) summary b)
      (fun fault b => fault.Cause input reads b) TreeBuilder.initial := by
  unfold buildEncryptedChunkTree
  rw [if_neg (not_lt.mpr hmetadata), Proc.wp_bind]
  refine Proc.wp_mono (drawing_spec generateContentKey_spec) ?_ (fun _ _ hcause => hcause)
  intro key b1 hdrawn
  rcases hdrawn with ⟨-, draws1, rfl⟩
  rw [Proc.wp_bind]
  change Proc.wp (drawing (randomDataTarget input.random) >>= _) _ _ _
  rw [Proc.wp_bind]
  refine Proc.wp_mono (drawing_spec randomDataTarget_spec) ?_ (fun _ _ hcause => hcause)
  intro target b2 hdrawn2
  rcases hdrawn2 with ⟨htarget, draws2, rfl⟩
  have hempty : branchesAt (fun _ => []) 0 = [] := Levels.fromTop_eq_nil fun _ _ _ => rfl
  have hnoBytes : grownBytes (fun _ => []) = [] := by
    rw [grownBytes, hempty]
    rfl
  have hgrown : Grown input key
      { TreeBuilder.initial with
        draws := draws2
        summary := { TreeBuilder.initial.summary with contentKey := key } } [] (fun _ => []) := by
    refine ⟨⟨rfl, Nat.zero_le _, .initial⟩, fun _ => rfl, ?_, fun _ => Nat.zero_le _, ?_⟩
    · intro k c hc
      cases hc
    · rw [hempty]
      exact List.Perm.refl _
  have hfilled : ([] : Bytes).length < target := htarget.1
  have hread := readSource_spec htarget.1 htarget.2 hfilled hgrown
    (fun _ _ _ hc => absurd hc List.not_mem_nil) (by rw [hnoBytes]; rfl) (fun read (hread : read ∈ reads) => hread)
  rw [hnoBytes, List.nil_append, List.nil_append] at hread
  rw [Proc.wp_bind]
  refine Proc.wp_mono hread ?_ (fun _ _ hcause => hcause)
  intro _ b3 hsource
  rcases hsource with ⟨forest, hgrown3, hheavy3, hbytes, hcount, hkey⟩
  rw [Proc.wp_bind]
  refine Proc.wp_mono (finish_spec hgrown3 hheavy3 hmetadata) ?_ (fun _ _ hcause => hcause)
  intro rootId b4 hfinished
  rcases hfinished with ⟨⟨hstaged, hnonzero, branches, height, hstands, hpieces, hids⟩, hkept⟩
  have hkey4 : b4.summary.contentKey = key := hkept.contentKey.trans hkey
  refine ⟨hnonzero, hkept.plaintextBytes.trans hcount, hstaged.count, branches, height, ?_, ?_, hids⟩
  · change RootStands (readableOf input b4.summary.contentKey b4.staged) _ _ _ _
    rwa [hkey4]
  · rw [hpieces]
    exact hbytes

/-- Callbacks that accept everything and look chunks up among those staged. -/
structure BuilderAccepts (callbacks : TreeCallbacks) (staged : List EncryptedChunk) : Prop where
  lookup : ∀ chunk ∈ staged, callbacks.lookup chunk.id = some chunk.storedBytes
  visit : ∀ visited id, callbacks.visit visited id = true
  rootMetadata : ∀ metadata, callbacks.rootMetadata metadata = true
  sink : ∀ emitted plaintext, callbacks.sink emitted plaintext = true

theorem BuilderAccepts.serves {callbacks : TreeCallbacks} (h : BuilderAccepts callbacks staged) :
    Serves input.network key callbacks (readableOf input key staged) where
  lookup id plaintext hread := by
    rcases hread with ⟨chunk, hchunk, rfl, hdecrypt⟩
    exact ⟨chunk.storedBytes, h.lookup chunk hchunk, hdecrypt⟩
  visit := h.visit
  rootMetadata := h.rootMetadata
  sink := h.sink

/-- A build fails by the source, the stage callback, the random generator or the limit on
    chunks.  When it succeeds, a reader gets the private metadata and the source back, and
    an enumeration meets every staged chunk once. -/
theorem buildEncryptedChunkTree_roundTrip (input : TreeInput) (reads : List (Option Bytes))
    (privateMetadata : Bytes)
    (hmetadata : privateMetadata.length ≤ ENCRYPTED_TREE_ROOT_PRIVATE_METADATA_MAX_BYTES) :
    Proc.wp (buildEncryptedChunkTree input privateMetadata reads)
      (fun summary b => (b.staged.map (·.id)).Nodup → ∀ callbacks, BuilderAccepts callbacks b.staged →
        (∀ maxOutputBytes : UInt64, (delivered reads).length ≤ maxOutputBytes.toNat →
          ∃ r, fetchEncryptedChunkTree summary.contentKey input.network callbacks
              summary.rootChunkId maxOutputBytes TreeReading.initial =
                some ((delivered reads).length, r) ∧
            r.rootMetadata = some privateMetadata ∧ r.emitted.flatten = delivered reads) ∧
        ∃ r, enumerateEncryptedTreeChunks summary.contentKey input.network callbacks
            summary.rootChunkId TreeReading.initial = some ((), r) ∧
          r.visited.Nodup ∧ r.visited.Perm (b.staged.map (·.id)))
      (fun fault b => fault.Cause input reads b) TreeBuilder.initial := by
  refine Proc.wp_mono (buildEncryptedChunkTree_spec hmetadata) ?_ (fun _ _ hcause => hcause)
  intro summary b hbuilt hdistinct callbacks haccepts
  rcases hbuilt.stands with ⟨branches, height, hstands, hbytes, hids⟩
  have hserves : Serves input.network summary.contentKey callbacks
      (readableOf input summary.contentKey b.staged) := haccepts.serves
  have hnodup := hids.nodup_iff.mpr hdistinct
  refine ⟨fun maxOutputBytes hmax => ?_, ?_⟩
  · rw [← hbytes] at hmax ⊢
    obtain ⟨r, hfetch, hroot, hemitted⟩ := fetch_rootStands hserves hstands hnodup hmax
    exact ⟨r, hfetch, hroot, by rw [hemitted]⟩
  · obtain ⟨r, henumerate, hvisited⟩ := enumerate_rootStands hserves hstands hbuilt.nonzero hnodup
    refine ⟨r, henumerate, ?_, ?_⟩
    · rwa [hvisited]
    · rwa [hvisited]

/-- Draws that differ from call to call, and a callback that accepts every chunk. -/
def sampleTreeInput : TreeInput where
  network := FixedBytes.zero 32
  random draw n := some ⟨List.replicate n (UInt8.ofNat (draw + 1)), List.length_replicate⟩
  stage _ _ := true

def stagedCallbacks (staged : List EncryptedChunk) : TreeCallbacks where
  lookup id := (staged.find? fun chunk => decide (chunk.id = id)).map (·.storedBytes)
  visit _ _ := true
  rootMetadata _ := true
  sink _ _ := true

omit [ChunkCipher] in
theorem accepts_stagedCallbacks (h : (staged.map (·.id)).Nodup) :
    BuilderAccepts (stagedCallbacks staged) staged where
  lookup chunk hchunk := by
    have hfind : staged.find? (fun other => decide (other.id = chunk.id)) = some chunk := by
      have hsome : (staged.find? fun other => decide (other.id = chunk.id)).isSome = true :=
        List.find?_isSome.mpr ⟨chunk, hchunk, decide_eq_true rfl⟩
      obtain ⟨found, hfound⟩ := Option.isSome_iff_exists.mp hsome
      have hmatch := List.find?_some hfound
      have hid : found.id = chunk.id := of_decide_eq_true hmatch
      rw [hfound, List.inj_on_of_nodup_map h (List.mem_of_find?_eq_some hfound) hchunk hid]
    change (staged.find? fun other => decide (other.id = chunk.id)).map (·.storedBytes) = _
    rw [hfind, Option.map_some]
  visit _ _ := rfl
  rootMetadata _ := rfl
  sink _ _ := rfl

end

section

attribute [local instance] ChunkCipher.sample

def sampleTreeBuilt : Bool :=
  match buildEncryptedChunkTree sampleTreeInput [7] [some [1, 2, 3], some [4], some []] .initial with
  | .ok _ b => decide (b.staged.map (·.id)).Nodup
  | .error _ _ => false

theorem sampleTreeBuilt_eq_true : sampleTreeBuilt = true := by decide +kernel

theorem exists_sampleTree : ∃ summary b,
    buildEncryptedChunkTree sampleTreeInput [7] [some [1, 2, 3], some [4], some []] .initial =
      .ok summary b ∧ (b.staged.map (·.id)).Nodup := by
  have hbuilt := sampleTreeBuilt_eq_true
  unfold sampleTreeBuilt at hbuilt
  cases hrun : buildEncryptedChunkTree sampleTreeInput [7] [some [1, 2, 3], some [4], some []] .initial with
  | ok summary b =>
    rw [hrun] at hbuilt
    exact ⟨summary, b, rfl, of_decide_eq_true hbuilt⟩
  | error fault b =>
    rw [hrun] at hbuilt
    cases hbuilt

theorem buildEncryptedChunkTree_roundTrip_sample : ∃ summary b r,
    buildEncryptedChunkTree sampleTreeInput [7] [some [1, 2, 3], some [4], some []] .initial =
      .ok summary b ∧
    fetchEncryptedChunkTree summary.contentKey sampleTreeInput.network (stagedCallbacks b.staged)
      summary.rootChunkId 4 TreeReading.initial = some (4, r) ∧
    r.rootMetadata = some [7] ∧ r.emitted.flatten = [1, 2, 3, 4] := by
  obtain ⟨summary, b, hbuild, hdistinct⟩ := exists_sampleTree
  have hmetadata : ([7] : Bytes).length ≤ ENCRYPTED_TREE_ROOT_PRIVATE_METADATA_MAX_BYTES := by
    unfold ENCRYPTED_TREE_ROOT_PRIVATE_METADATA_MAX_BYTES
    simp
  -- the input is hidden so that nothing evaluates the run
  generalize sampleTreeInput = input at hbuild ⊢
  have hround := Proc.wp_of_ok (buildEncryptedChunkTree_roundTrip input
    [some [1, 2, 3], some [4], some []] [7] hmetadata) hbuild
  obtain ⟨r, hfetch, hroot, hemitted⟩ :=
    (hround hdistinct _ (accepts_stagedCallbacks hdistinct)).1 4 (by decide)
  exact ⟨summary, b, r, hbuild, hfetch, hroot, hemitted⟩

end

end Cybou
