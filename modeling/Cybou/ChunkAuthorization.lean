import Cybou.Library.Merkle
import Cybou.ChunkStore
import Cybou.ChunkTreeRuns

/-! # The authorization tree of a publication (`chunk_authorization.cpp`)

The root is computed three times: by the levels of `BuildChunkAuthorizationTree`,
by the frontier of `ChunkAuthorizationAccumulator` while chunks are streamed, and
by a verifier from one chunk and its siblings.  `Merkle.root` is what all three
are compared with: the frontier keeps the leaves it was given
(`carryInto_holds`), and a path that reaches the root is the path of the tree
unless two of the hashed inputs collide (`foldPath_sound`).
-/

namespace Cybou

open Library

section

variable [Crypto]

/-! ### The tree and its proofs -/

structure ChunkAuthorizationTree where
  root : ChunkId
  chunkCount : UInt32
  levels : List (List ChunkId)
deriving DecidableEq, Repr

def ChunkAuthorizationTree.build (chunks : List ChunkId) : Option ChunkAuthorizationTree := do
  let levels ← buildChunkAuthorizationTree chunks
  let top ← levels.getLast?
  let root ← top.head?
  return { root, chunkCount := UInt32.ofNat chunks.length, levels }

omit [Crypto] in
/-- The loop of `Proof`; `none` where the source reads past a level. -/
def proofSiblings : List (List ChunkId) → Nat → Nat → Option (List ChunkId)
  | [], _, width => if width ≤ 1 then some [] else none
  | level :: levels, index, width =>
    if width ≤ 1 then some []
    else do
      let sibling ← level[if index ^^^ 1 < width then index ^^^ 1 else index]?
      let rest ← proofSiblings levels (index / 2) ((width + 1) / 2)
      return sibling :: rest

omit [Crypto] in
/-- `ChunkAuthorizationTree::Proof`; `none` where it throws. -/
def ChunkAuthorizationTree.proof (tree : ChunkAuthorizationTree) (leafIndex : UInt32) :
    Option ChunkAuthorizationProof :=
  if leafIndex ≥ tree.chunkCount then none
  else (proofSiblings tree.levels leafIndex.toNat tree.chunkCount.toNat).map fun siblings =>
    { leafIndex, siblings }

/-! ### The levels -/

theorem nextLevel_eq (l : List ChunkId) : nextLevel l = Merkle.above hashNode l := by
  induction l using nextLevel.induct with
  | case1 => rfl
  | case2 last => rfl
  | case3 left right rest ih =>
    rw [nextLevel, ih]
    rfl

variable {l chunks : List ChunkId}

theorem treeLevels_of_two_le (h : 2 ≤ l.length) :
    treeLevels l = l :: treeLevels (Merkle.above hashNode l) := by
  rw [← nextLevel_eq, treeLevels, dif_neg (by omega)]

theorem treeLevels_of_le_one (h : l.length ≤ 1) : treeLevels l = [l] := by
  rw [treeLevels, dif_pos h]

theorem length_above_lt (h : 2 ≤ l.length) :
    (Merkle.above hashNode l).length < l.length := by
  rw [Merkle.length_above]
  omega

theorem treeLevels_ne_nil (l : List ChunkId) : treeLevels l ≠ [] := by
  rw [treeLevels]
  split <;> exact List.cons_ne_nil _ _

theorem treeLevels_root (l : List ChunkId) :
    (treeLevels l).getLast?.bind List.head? = Merkle.root hashNode l := by
  induction l using (measure List.length).wf.induction with
  | h l ih =>
    by_cases hlen : 2 ≤ l.length
    · have habove := ih (Merkle.above hashNode l) (length_above_lt hlen)
      rw [treeLevels_of_two_le hlen, Merkle.root_above hashNode hlen, ← habove,
        List.getLast?_cons_of_ne_nil (treeLevels_ne_nil _)]
    · rw [treeLevels_of_le_one (by omega)]
      match l, hlen with
      | [], _ => simp
      | [last], _ => simp
      | left :: right :: rest, hlen => simp at hlen

theorem build_eq_some {tree : ChunkAuthorizationTree} :
    ChunkAuthorizationTree.build chunks = some tree ↔
      validChunkSet chunks = true ∧ chunks.Nodup ∧
        Merkle.root hashNode (chunks.map hashLeaf) = some tree.root ∧
        tree.chunkCount = UInt32.ofNat chunks.length ∧
        tree.levels = treeLevels (chunks.map hashLeaf) := by
  have hroot := treeLevels_root (chunks.map hashLeaf)
  obtain ⟨root, chunkCount, levels⟩ := tree
  simp only [ChunkAuthorizationTree.build, buildChunkAuthorizationTree, Option.bind_eq_bind,
    Option.bind_eq_some_iff, Option.ite_none_left_eq_some, Option.some.injEq, not_or, not_not,
    Bool.not_eq_false, Option.pure_def, ChunkAuthorizationTree.mk.injEq]
  constructor
  · rintro ⟨_, ⟨⟨hvalid, hnodup⟩, rfl⟩, top, htop, _, hhead, rfl, rfl, rfl⟩
    refine ⟨hvalid, hnodup, ?_, rfl, rfl⟩
    rw [← hroot, htop, Option.bind_some, hhead]
  · rintro ⟨hvalid, hnodup, htree, rfl, rfl⟩
    rw [← hroot, Option.bind_eq_some_iff] at htree
    obtain ⟨top, htop, hhead⟩ := htree
    exact ⟨_, ⟨⟨hvalid, hnodup⟩, rfl⟩, top, htop, _, hhead, rfl, rfl, rfl⟩

/-! ### Paths -/

def hashedPairs : Nat → Nat → ChunkId → List ChunkId → List (ChunkId × ChunkId)
  | _, _, _, [] => []
  | index, width, current, sibling :: rest =>
    if width ≤ 1 then []
    else
      let pair := Merkle.ordered index current sibling
      pair :: hashedPairs (index / 2) ((width + 1) / 2) (hashNode pair.1 pair.2) rest

omit [Crypto] in
def treePairs (levels : List (List ChunkId)) : List (ChunkId × ChunkId) :=
  levels.dropLast.flatMap Merkle.pairs

theorem treePairs_treeLevels (h : 2 ≤ l.length) :
    treePairs (treeLevels l) =
      Merkle.pairs l ++ treePairs (treeLevels (Merkle.above hashNode l)) := by
  rw [treeLevels_of_two_le h, treePairs, List.dropLast_cons_of_ne_nil (treeLevels_ne_nil _),
    List.flatMap_cons, treePairs]

variable {index width : Nat}

theorem foldPath_of_le_one (h : width ≤ 1) (current : ChunkId)
    (siblings : List ChunkId) : foldPath index width current siblings = some (current, siblings) := by
  rw [foldPath, dif_pos h]

variable {root current : ChunkId}

theorem foldPath_cons_eq_some (h : 2 ≤ width) {sibling : ChunkId}
    {rest : List ChunkId} {x : ChunkId × List ChunkId} :
    foldPath index width current (sibling :: rest) = some x ↔
      (index % 2 = 0 → width ≤ index + 1 → sibling = current) ∧
        foldPath (index / 2) ((width + 1) / 2)
          (hashNode (Merkle.ordered index current sibling).1
            (Merkle.ordered index current sibling).2) rest = some x := by
  rw [foldPath, dif_neg (by omega), Merkle.ordered]
  simp only
  by_cases hodd : index % 2 = 1
  · rw [if_pos hodd, if_pos hodd, and_iff_right]
    omega
  · rw [if_neg hodd, if_neg hodd]
    by_cases hlast : index + 1 ≥ width
    · rw [if_pos hlast]
      by_cases hsame : sibling = current
      · rw [if_neg (not_not.mpr hsame), and_iff_right (fun _ _ => hsame)]
      · rw [if_pos hsame]
        constructor
        · intro hnone
          cases hnone
        · rintro ⟨hself, -⟩
          exact absurd (hself (by omega) hlast) hsame
    · rw [if_neg hlast, and_iff_right]
      omega

theorem proofSiblings_singleton (last : ChunkId) (index : Nat) :
    proofSiblings (treeLevels [last]) index [last].length = some [] := by
  rw [treeLevels_of_le_one (by simp), proofSiblings, if_pos (by simp)]

theorem foldPath_complete {levels : Nat}
    (hroot : Merkle.root hashNode l = some root) (h : index < l.length) (hlevels : l.length ≤ 2 ^ levels) :
    ∃ siblings, proofSiblings (treeLevels l) index l.length = some siblings ∧
      foldPath index l.length l[index] siblings = some (root, []) ∧ siblings.length ≤ levels := by
  induction levels generalizing l index with
  | zero =>
    obtain ⟨last, rfl⟩ := List.length_eq_one_iff.mp (show l.length = 1 by omega)
    rw [Merkle.root_singleton, Option.some.injEq] at hroot
    refine ⟨[], proofSiblings_singleton last index, ?_, Nat.le_refl 0⟩
    rw [foldPath_of_le_one (by simp), ← hroot]
    simp
  | succ levels ih =>
    by_cases hlen : 2 ≤ l.length
    · obtain ⟨sibling, hsibling, hpair, hlast⟩ := Merkle.pairs_at h
      have hup := Merkle.getElem?_above hashNode hpair
      obtain ⟨hbound, hparent⟩ := List.getElem?_eq_some_iff.mp hup
      rw [Merkle.root_above hashNode hlen] at hroot
      have hhalf : (Merkle.above hashNode l).length = (l.length + 1) / 2 := Merkle.length_above _ l
      obtain ⟨rest, hrest, hfold, hcount⟩ := ih hroot hbound (by rw [hhalf, Nat.pow_succ] at *; omega)
      refine ⟨sibling :: rest, ?_, ?_, Nat.succ_le_succ hcount⟩
      · rw [treeLevels_of_two_le hlen, proofSiblings, if_neg (by omega), hsibling, ← hhalf, hrest]
        rfl
      · rw [foldPath_cons_eq_some hlen, ← hhalf, ← hparent]
        exact ⟨hlast, hfold⟩
    · obtain ⟨last, rfl⟩ := List.length_eq_one_iff.mp (show l.length = 1 by omega)
      rw [Merkle.root_singleton, Option.some.injEq] at hroot
      refine ⟨[], proofSiblings_singleton last index, ?_, Nat.zero_le _⟩
      rw [foldPath_of_le_one (by simp), ← hroot]
      simp

/-- **A path to the root is the path of the tree**, unless a pair hashed on it
    collides with a pair of the tree.  The induction is on the siblings: the last
    pair is that of the root, and each pair fixes the one below. -/
theorem foldPath_sound {siblings : List ChunkId}
    (hroot : Merkle.root hashNode l = some root) (h : index < l.length)
    (hfold : foldPath index l.length current siblings = some (root, []))
    (hfree : ∀ p ∈ hashedPairs index l.length current siblings, ∀ q ∈ treePairs (treeLevels l),
      hashNode p.1 p.2 = hashNode q.1 q.2 → p = q) :
    l[index] = current ∧ proofSiblings (treeLevels l) index l.length = some siblings := by
  induction siblings generalizing l index current with
  | nil =>
    by_cases hlen : 2 ≤ l.length
    · rw [foldPath, dif_neg (by omega)] at hfold
      cases hfold
    · obtain ⟨last, rfl⟩ := List.length_eq_one_iff.mp (show l.length = 1 by omega)
      rw [foldPath_of_le_one (by simp)] at hfold
      rw [Merkle.root_singleton] at hroot
      cases hfold
      cases hroot
      exact ⟨by simp, proofSiblings_singleton _ index⟩
  | cons sibling rest ih =>
    by_cases hlen : 2 ≤ l.length
    · obtain ⟨neighbour, hneighbour, hpair, -⟩ := Merkle.pairs_at h
      have hup := Merkle.getElem?_above hashNode hpair
      obtain ⟨hbound, hparent⟩ := List.getElem?_eq_some_iff.mp hup
      have hhalf : (Merkle.above hashNode l).length = (l.length + 1) / 2 := Merkle.length_above _ l
      rw [Merkle.root_above hashNode hlen] at hroot
      rw [foldPath_cons_eq_some hlen, ← hhalf] at hfold
      rw [treePairs_treeLevels hlen, hashedPairs, if_neg (by omega), ← hhalf] at hfree
      obtain ⟨hnode, hrest⟩ := ih hroot hbound hfold.2 fun p hp q hq =>
        hfree p (List.mem_cons_of_mem _ hp) q (List.mem_append_right _ hq)
      rw [hparent] at hnode
      have hsame := hfree _ List.mem_cons_self _
        (List.mem_append_left _ (List.mem_of_getElem? hpair)) hnode.symm
      obtain ⟨hcurrent, rfl⟩ := Merkle.ordered_inj hsame
      refine ⟨hcurrent.symm, ?_⟩
      rw [treeLevels_of_two_le hlen, proofSiblings, if_neg (by omega), hneighbour, ← hhalf, hrest]
      rfl
    · rw [foldPath_of_le_one (by omega)] at hfold
      cases hfold

/-! ### Proofs of a built tree -/

omit [Crypto] in
theorem length_of_validChunkSet (h : validChunkSet chunks = true) :
    chunks ≠ [] ∧ chunks.length ≤ 2 ^ 20 ∧ ∀ chunk ∈ chunks, isZero chunk.1 = false := by
  simp only [validChunkSet, Bool.and_eq_true, decide_eq_true_eq, List.all_eq_true,
    Bool.not_eq_true'] at h
  exact ⟨h.1.1, h.1.2, h.2⟩

/-- No input a verifier hashes on a path collides with an input of the tree. -/
structure PathCollisionFree (chunks : List ChunkId) (tree : ChunkAuthorizationTree) (chunkId : ChunkId)
    (leafIndex : UInt32) (siblings : List ChunkId) : Prop where
  leaf : ∀ chunk ∈ chunks, hashLeaf chunkId = hashLeaf chunk → chunkId = chunk
  node : ∀ p ∈ hashedPairs leafIndex.toNat tree.chunkCount.toNat (hashLeaf chunkId) siblings,
    ∀ q ∈ treePairs tree.levels, hashNode p.1 p.2 = hashNode q.1 q.2 → p = q

/-- **The tree authorizes its chunks and nothing else**: the proof of every leaf is
    accepted, and what is accepted at a leaf is the chunk of this leaf with the
    siblings of its proof, unless the hash collides (with an injective hash it
    cannot). -/
theorem chunkAuthorization_exact {chunks : List ChunkId} {tree : ChunkAuthorizationTree}
    (hbuild : ChunkAuthorizationTree.build chunks = some tree) :
    (∀ leafIndex, leafIndex < tree.chunkCount → ∃ chunkId siblings,
      chunks[leafIndex.toNat]? = some chunkId ∧
        tree.proof leafIndex = some { leafIndex, siblings } ∧
        verifyChunkAuthorizationPath tree.root chunkId leafIndex tree.chunkCount siblings = true) ∧
    ∀ leafIndex chunkId siblings,
      verifyChunkAuthorizationPath tree.root chunkId leafIndex tree.chunkCount siblings = true →
      PathCollisionFree chunks tree chunkId leafIndex siblings →
        chunks[leafIndex.toNat]? = some chunkId ∧ tree.proof leafIndex = some { leafIndex, siblings } := by
  obtain ⟨hvalid, -, hroot, hcount, hlevels⟩ := build_eq_some.mp hbuild
  obtain ⟨hne, hlen, hids⟩ := length_of_validChunkSet hvalid
  have hmap : (chunks.map hashLeaf).length = chunks.length := List.length_map _
  have hwidth : tree.chunkCount.toNat = (chunks.map hashLeaf).length := by
    rw [hcount, hmap]
    exact UInt32.toNat_ofNat_of_lt' (show _ < 2 ^ 32 by omega)
  have hproof {leafIndex : UInt32} (hlt : leafIndex < tree.chunkCount) {siblings : List ChunkId}
      (h : proofSiblings (treeLevels (chunks.map hashLeaf)) leafIndex.toNat
        (chunks.map hashLeaf).length = some siblings) :
      tree.proof leafIndex = some { leafIndex, siblings } := by
    rw [ChunkAuthorizationTree.proof, if_neg (UInt32.not_le.mpr hlt), hlevels, hwidth, h]
    rfl
  constructor
  · intro leafIndex hlt
    have hin : leafIndex.toNat < (chunks.map hashLeaf).length := hwidth ▸ UInt32.lt_iff_toNat_lt.mp hlt
    obtain ⟨siblings, hsiblings, hfold, hdepth⟩ := foldPath_complete hroot hin (hmap ▸ hlen)
    have hin' : leafIndex.toNat < chunks.length := hmap ▸ hin
    refine ⟨chunks[leafIndex.toNat], siblings, List.getElem?_eq_getElem hin', hproof hlt hsiblings, ?_⟩
    rw [verifyChunkAuthorizationPath, if_neg, hwidth, decide_eq_true_eq, ← hfold, List.getElem_map]
    rw [hids _ (List.getElem_mem hin')]
    rintro (hzero | hge | hnull | hlong)
    · rw [hzero] at hwidth
      exact hne (List.length_eq_zero_iff.mp (hmap ▸ hwidth.symm))
    · exact absurd hlt (UInt32.not_lt.mpr hge)
    · cases hnull
    · omega
  · intro leafIndex chunkId siblings haccepted hfree
    rw [verifyChunkAuthorizationPath] at haccepted
    split at haccepted
    · cases haccepted
    next hchecks =>
    push Not at hchecks
    have hlt := UInt32.not_le.mp hchecks.2.1
    rw [hwidth, decide_eq_true_eq] at haccepted
    have hin : leafIndex.toNat < (chunks.map hashLeaf).length := hwidth ▸ UInt32.lt_iff_toNat_lt.mp hlt
    have hin' : leafIndex.toNat < chunks.length := hmap ▸ hin
    obtain ⟨hleaf, hsiblings⟩ := foldPath_sound hroot hin haccepted (hlevels ▸ hwidth ▸ hfree.node)
    rw [List.getElem_map] at hleaf
    refine ⟨?_, hproof hlt hsiblings⟩
    rw [List.getElem?_eq_getElem hin', hfree.leaf _ (List.getElem_mem hin') hleaf.symm]

end

/-! ### The accumulator -/

section

variable [Crypto]

namespace ChunkAuthorizationAccumulator

/-- Add chunks one after the other; `none` when one of them is refused. -/
def addAll (acc : ChunkAuthorizationAccumulator) : List ChunkId → Option ChunkAuthorizationAccumulator
  | [] => some acc
  | chunk :: rest =>
    match acc.add chunk with
    | (true, acc) => acc.addAll rest
    | (false, _) => none

variable {frontier : List (Option ChunkId)} {l : List ChunkId}

theorem carryInto_holds {frontier' : List (Option ChunkId)}
    {carry : ChunkId} (h : Merkle.Holds hashNode frontier l)
    (hcarry : carryInto frontier carry = some frontier') :
    Merkle.Holds hashNode frontier' (l ++ [carry]) := by
  induction frontier generalizing frontier' l carry with
  | nil => cases hcarry
  | cons place above ih =>
    cases place with
    | none =>
      cases hcarry
      exact ⟨l, rfl, h.1, h.2⟩
    | some left =>
      obtain ⟨paired, rfl, heven, habove⟩ := h
      obtain ⟨above', hcarry', rfl⟩ := Option.map_eq_some_iff.mp hcarry
      rw [List.append_assoc, List.singleton_append]
      refine ⟨?_, ?_⟩
      · simp only [List.length_append, List.length_cons, List.length_nil]
        omega
      · rw [Merkle.above_append hashNode heven]
        exact ih habove hcarry'

theorem raised_succ (root : ChunkId) (levels : Nat) :
    raised root (levels + 1) = hashNode (raised root levels) (raised root levels) := by
  induction levels generalizing root with
  | zero => rfl
  | succ levels ih => rw [raised, ih, raised]

theorem foldFrontier_some {level rootLevel : Nat}
    (root : ChunkId) (h : Merkle.Holds hashNode frontier l) (hlevel : rootLevel ≤ level) :
    (foldFrontier frontier level (some (root, rootLevel))).map Prod.fst =
      if l = [] then some root
      else Merkle.root hashNode (l ++ [raised root (level - rootLevel)]) := by
  induction frontier generalizing l level root rootLevel with
  | nil =>
    cases h
    rw [if_pos rfl]
    rfl
  | cons place above ih =>
    cases place with
    | none =>
      obtain ⟨heven, habove⟩ := h
      rw [foldFrontier, ih root habove (by omega)]
      by_cases hl : l = []
      · rw [if_pos hl, if_pos ((Merkle.above_eq_nil hashNode).mpr hl)]
      · rw [if_neg hl, if_neg (mt (Merkle.above_eq_nil hashNode).mp hl),
          Merkle.root_append_singleton hashNode hl heven, ← raised_succ,
          Nat.succ_sub hlevel]
    | some node =>
      obtain ⟨paired, rfl, heven, habove⟩ := h
      rw [foldFrontier, ih _ habove (Nat.le_refl _), if_neg (List.append_ne_nil_of_right_ne_nil _ (List.cons_ne_nil _ _)),
        List.append_assoc, List.singleton_append, Merkle.root_append_pair hashNode heven, Nat.sub_self]
      by_cases hpaired : paired = []
      · rw [if_pos ((Merkle.above_eq_nil hashNode).mpr hpaired), hpaired]
        exact (Merkle.root_singleton hashNode _).symm
      · rw [if_neg (mt (Merkle.above_eq_nil hashNode).mp hpaired)]
        rfl

theorem foldFrontier_none {frontier : List (Option ChunkId)} {l : List ChunkId} {level : Nat}
    (h : Merkle.Holds hashNode frontier l) :
    (foldFrontier frontier level none).map Prod.fst = Merkle.root hashNode l := by
  induction frontier generalizing l level with
  | nil =>
    rw [h, Merkle.root_nil]
    rfl
  | cons place above ih =>
    cases place with
    | none =>
      obtain ⟨heven, habove⟩ := h
      rw [foldFrontier, ih habove]
      by_cases hl : l = []
      · subst hl
        rfl
      · have hpos := List.length_pos_iff.mpr hl
        rw [Merkle.root_above hashNode (l := l) (by omega)]
    | some node =>
      obtain ⟨paired, rfl, heven, habove⟩ := h
      rw [foldFrontier, foldFrontier_some node habove (Nat.le_succ level), Nat.succ_sub (Nat.le_refl level),
        Nat.sub_self]
      by_cases hpaired : paired = []
      · rw [if_pos ((Merkle.above_eq_nil hashNode).mpr hpaired), hpaired]
        exact (Merkle.root_singleton hashNode _).symm
      · rw [if_neg (mt (Merkle.above_eq_nil hashNode).mp hpaired),
          Merkle.root_append_singleton hashNode hpaired heven]
        rfl

variable {acc : ChunkAuthorizationAccumulator}

theorem add_holds {acc' : ChunkAuthorizationAccumulator} {chunk : ChunkId}
    (h : Merkle.Holds hashNode acc.frontier l) (hadd : acc.add chunk = (true, acc')) :
    Merkle.Holds hashNode acc'.frontier (l ++ [hashLeaf chunk]) := by
  unfold ChunkAuthorizationAccumulator.add at hadd
  split at hadd
  · cases hadd
  split at hadd
  · cases hadd
  next frontier hcarry =>
  cases hadd
  exact carryInto_holds h hcarry

theorem addAll_holds {n : Nat} {chunks : List ChunkId}
    (hacc : Accumulates acc n) (hholds : Merkle.Holds hashNode acc.frontier l)
    (hroom : n + chunks.length ≤ MAX_PUBLICATION_CHUNKS.toNat)
    (hids : ∀ chunk ∈ chunks, isZero chunk.1 = false) :
    ∃ acc', acc.addAll chunks = some acc' ∧ Accumulates acc' (n + chunks.length) ∧
      Merkle.Holds hashNode acc'.frontier (l ++ chunks.map hashLeaf) := by
  induction chunks generalizing acc n l with
  | nil => exact ⟨acc, rfl, hacc, by rwa [List.map_nil, List.append_nil]⟩
  | cons chunk rest ih =>
    rw [List.forall_mem_cons] at hids
    rw [List.length_cons] at hroom
    obtain ⟨acc₁, hadd, hacc₁⟩ := hacc.add (by omega) hids.1
    obtain ⟨acc', hall, hacc', hholds'⟩ := ih hacc₁ (add_holds hholds hadd) (by omega) hids.2
    refine ⟨acc', ?_, ?_, ?_⟩
    · rw [addAll, hadd]
      exact hall
    · rw [List.length_cons]
      rwa [Nat.add_assoc, Nat.add_comm 1] at hacc'
    · rwa [List.append_assoc, List.singleton_append, ← List.map_cons] at hholds'

end ChunkAuthorizationAccumulator

/-- **The streamed root is the root of the tree**: chunks that can be published are
    all taken in, and `Finish` gives the root and the count of the tree. -/
theorem accumulator_eq_tree {chunks : List ChunkId} (hne : chunks ≠ [])
    (hlen : chunks.length ≤ MAX_PUBLICATION_CHUNKS.toNat) (hnodup : chunks.Nodup)
    (hids : ∀ chunk ∈ chunks, isZero chunk.1 = false) :
    ∃ acc tree, ChunkAuthorizationAccumulator.initial.addAll chunks = some acc ∧
      ChunkAuthorizationTree.build chunks = some tree ∧
      acc.finish = some (tree.root, tree.chunkCount.toNat) := by
  have hleaves : chunks.map hashLeaf ≠ [] := mt List.map_eq_nil_iff.mp hne
  obtain ⟨root, hroot⟩ := Option.isSome_iff_exists.mp (Merkle.root_isSome hashNode hleaves)
  obtain ⟨acc, hall, hacc, hholds⟩ := ChunkAuthorizationAccumulator.addAll_holds
    ChunkAuthorizationAccumulator.Accumulates.initial (Merkle.holds_replicate hashNode 32)
    (by rwa [Nat.zero_add]) hids
  rw [Nat.zero_add] at hacc
  rw [List.nil_append] at hholds
  have hvalid : validChunkSet chunks = true := by
    simp only [validChunkSet, Bool.and_eq_true, decide_eq_true_eq, List.all_eq_true, Bool.not_eq_true']
    exact ⟨⟨hne, hlen⟩, hids⟩
  have hcount : (UInt32.ofNat chunks.length).toNat = chunks.length := by
    have hmax : MAX_PUBLICATION_CHUNKS.toNat < 2 ^ 32 := UInt32.toNat_lt _
    exact UInt32.toNat_ofNat_of_lt' (show _ < 2 ^ 32 by omega)
  refine ⟨acc, ⟨root, UInt32.ofNat chunks.length, treeLevels (chunks.map hashLeaf)⟩, hall,
    build_eq_some.mpr ⟨hvalid, hnodup, hroot, rfl, rfl⟩, ?_⟩
  have hfold := @ChunkAuthorizationAccumulator.foldFrontier_none _ _ _ 0 hholds
  obtain ⟨folded, hfolded, hfst⟩ := Option.map_eq_some_iff.mp (hfold.trans hroot)
  have hpos := List.length_pos_iff.mpr hne
  rw [ChunkAuthorizationAccumulator.finish, if_neg, hfolded, Option.map_some, hfst, hacc.count, hcount]
  rw [hacc.failed, hacc.count]
  rintro (hfailed | hnone)
  · cases hfailed
  · omega

end

section

attribute [local instance] Crypto.sample

def taggedChunk (tag : UInt8) : ChunkId :=
  ⟨List.replicate 31 0 ++ [tag], by rw [List.length_append, List.length_replicate]; rfl⟩

def taggedChunks : List ChunkId := [taggedChunk 1, taggedChunk 2, taggedChunk 3]

theorem accumulator_eq_tree_taggedChunks : ∃ acc tree,
    ChunkAuthorizationAccumulator.initial.addAll taggedChunks = some acc ∧
      ChunkAuthorizationTree.build taggedChunks = some tree ∧
      acc.finish = some (tree.root, tree.chunkCount.toNat) :=
  accumulator_eq_tree (by decide) (by decide) (by decide) (by decide)

/-- The last chunk of three has itself as its first sibling. -/
theorem chunkAuthorization_exact_taggedChunks : ∃ tree siblings,
    ChunkAuthorizationTree.build taggedChunks = some tree ∧
      verifyChunkAuthorizationPath tree.root (taggedChunk 3) 2 tree.chunkCount siblings = true ∧
      tree.proof 2 = some { leafIndex := 2, siblings } := by
  obtain ⟨-, tree, -, hbuild, -⟩ := accumulator_eq_tree_taggedChunks
  obtain ⟨-, -, -, hcount, hlevels⟩ := build_eq_some.mp hbuild
  have hlevels₃ : tree.levels = [taggedChunks.map hashLeaf,
      Merkle.above hashNode (taggedChunks.map hashLeaf),
      Merkle.above hashNode (Merkle.above hashNode (taggedChunks.map hashLeaf))] := by
    rw [hlevels, treeLevels_of_two_le (by decide), treeLevels_of_two_le (by decide),
      treeLevels_of_le_one (by decide)]
  have hthree : tree.chunkCount = 3 := hcount
  obtain ⟨hcomplete, hsound⟩ := chunkAuthorization_exact hbuild
  obtain ⟨chunkId, siblings, hchunk, hproof, haccepted⟩ := hcomplete 2 (by rw [hthree]; decide)
  cases hchunk
  have hsiblings : siblings = [hashLeaf (taggedChunk 3),
      hashNode (hashLeaf (taggedChunk 1)) (hashLeaf (taggedChunk 2))] := by
    rw [ChunkAuthorizationTree.proof, hthree, hlevels₃, if_neg (by decide)] at hproof
    cases hproof
    rfl
  have hfree : PathCollisionFree taggedChunks tree (taggedChunk 3) 2 siblings := by
    refine ⟨by decide, ?_⟩
    rw [hthree, hlevels₃, hsiblings]
    decide
  exact ⟨tree, siblings, hbuild, haccepted, (hsound 2 (taggedChunk 3) siblings haccepted hfree).2⟩

end

end Cybou
