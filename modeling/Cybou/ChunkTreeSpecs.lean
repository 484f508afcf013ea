import Cybou.ChunkTree
import Mathlib.Algebra.Order.Group.Nat

/-! # What a reader finds below a chunk (`encrypted_chunk_tree.cpp`)

`Stands` says what there is below a child: the pieces of the source and the ids of
the chunks.  It is stated over what can be read under an id, so that it holds of the
chunks staged so far while the tree is built, and of the store the reader looks
chunks up in.  Both traversals are evaluated once here, by induction on the height.
-/

namespace Cybou

open Library

/-! ### Nodes are parsed back -/

theorem length_concat_children (children : List ChildRef) :
    (Reader.concat (fun child : ChildRef => child.id.1) children).length = children.length * 32 :=
  Reader.length_concat (fun child => child.id.2) children

def nodeBytes (kind childKind : UInt8) (children : List ChildRef) (privateMetadata : Bytes) : Bytes :=
  [kind] ++ [childKind] ++ le16 (UInt16.ofNat children.length) ++
    Reader.concat (fun child : ChildRef => child.id.1) children ++
    (if kind = ROOT_KIND then le32Of privateMetadata.length ++ privateMetadata else [])

variable {children : List ChildRef} {privateMetadata : Bytes}

theorem length_nodeBytes_le (kind childKind : UInt8) (hchildren : children.length ≤ ENCRYPTED_TREE_MAX_CHILDREN)
    (hmetadata : privateMetadata.length ≤ ENCRYPTED_TREE_ROOT_PRIVATE_METADATA_MAX_BYTES) :
    (nodeBytes kind childKind children privateMetadata).length ≤ ENCRYPTED_CHUNK_MAX_PLAINTEXT_BYTES := by
  unfold nodeBytes
  simp only [List.length_append, length_concat_children, length_le16, List.length_singleton]
  unfold ENCRYPTED_TREE_MAX_CHILDREN at hchildren
  unfold ENCRYPTED_TREE_ROOT_PRIVATE_METADATA_MAX_BYTES at hmetadata
  unfold ENCRYPTED_CHUNK_MAX_PLAINTEXT_BYTES
  split
  · rw [List.length_append, length_le32Of]
    omega
  · rw [List.length_nil]
    omega

def childKindOf (children : List ChildRef) : UInt8 := (children.head?.map (·.kind)).getD DATA_KIND

theorem makeMetadata_eq_some {kind : UInt8} (hchildren : children.length ≤ ENCRYPTED_TREE_MAX_CHILDREN)
    (hindex : kind = INDEX_KIND → children ≠ [])
    (hmetadata : privateMetadata.length ≤ ENCRYPTED_TREE_ROOT_PRIVATE_METADATA_MAX_BYTES) :
    makeMetadata kind children privateMetadata =
      some (nodeBytes kind (childKindOf children) children privateMetadata) := by
  have hlength := length_nodeBytes_le kind (childKindOf children) hchildren hmetadata
  unfold makeMetadata
  rw [if_neg, if_neg]
  · exact if_neg (not_lt.mpr hlength)
  · rintro ⟨-, hlong⟩
    omega
  · rintro (hmany | ⟨hkind, hnone⟩)
    · omega
    · exact hindex hkind hnone

def OfKind (kind : UInt8) (children : List ChildRef) : Prop := ∀ child ∈ children, child.kind = kind

theorem OfKind.map_id {kind : UInt8} (h : OfKind kind children) :
    (children.map (·.id)).map (fun id => ({ id, kind } : ChildRef)) = children := by
  induction children with
  | nil => rfl
  | cons child children ih =>
    have hchild : child.kind = kind := h child List.mem_cons_self
    have hrest := ih fun other hother => h other (List.mem_cons_of_mem _ hother)
    rw [List.map_cons, List.map_cons, hrest, ← hchild]

theorem OfKind.childKindOf {kind : UInt8} (h : OfKind kind children)
    (hnonempty : children ≠ []) : childKindOf children = kind := by
  cases children with
  | nil => exact absurd rfl hnonempty
  | cons child children => exact h child List.mem_cons_self

theorem concat_ids (children : List ChildRef) :
    Reader.concat (fun child : ChildRef => child.id.1) children =
      Reader.concat (fun id : ChunkId => id.1) (children.map (·.id)) := by
  induction children with
  | nil => rfl
  | cons child children ih => rw [List.map_cons, Reader.concat_cons, Reader.concat_cons, ih]

def metadataOf (kind : UInt8) (privateMetadata : Bytes) : Bytes :=
  if kind = ROOT_KIND then privateMetadata else []

/-- A node is read back as it was written. -/
theorem parseMetadata_nodeBytes {kind childKind : UInt8}
    (hchildren : children.length ≤ ENCRYPTED_TREE_MAX_CHILDREN)
    (hchildKind : childKind = INDEX_KIND ∨ childKind = DATA_KIND) (hkind : OfKind childKind children)
    (hindex : kind = INDEX_KIND → children ≠ [])
    (hmetadata : privateMetadata.length ≤ ENCRYPTED_TREE_ROOT_PRIVATE_METADATA_MAX_BYTES) :
    parseMetadata (nodeBytes kind childKind children privateMetadata) kind =
      some (children, metadataOf kind privateMetadata) := by
  have hlength := length_nodeBytes_le kind childKind hchildren hmetadata
  have hcount : (UInt16.ofNat children.length).toNat = children.length := by
    refine UInt16.toNat_ofNat_of_lt' ?_
    unfold ENCRYPTED_TREE_MAX_CHILDREN at hchildren
    exact lt_of_le_of_lt hchildren (by decide)
  have hcheck : ¬((childKind ≠ INDEX_KIND ∧ childKind ≠ DATA_KIND) ∨
      (UInt16.ofNat children.length).toNat > ENCRYPTED_TREE_MAX_CHILDREN ∨
      (kind = INDEX_KIND ∧ UInt16.ofNat children.length = 0)) := by
    rw [hcount]
    rintro (⟨hindexKind, hdataKind⟩ | hmany | ⟨hkind, hzero⟩)
    · exact hchildKind.elim hindexKind hdataKind
    · omega
    · have hnone : children.length = 0 := by
        rw [← hcount, hzero]
        rfl
      exact hindex hkind (List.length_eq_zero_iff.mp hnone)
  have hids : (children.map (·.id)).length = (UInt16.ofNat children.length).toNat ∧
      ∀ id ∈ children.map (·.id), True := ⟨by rw [List.length_map, hcount], fun _ _ => trivial⟩
  unfold parseMetadata
  rw [if_neg (not_lt.mpr hlength), Reader.whole_eq_some, nodeBytes, concat_ids]
  simp only [readNode, List.append_assoc]
  rw [Reader.u8_exact.bind_append trivial, Reader.require_bind_apply, if_pos rfl,
    Reader.u8_exact.bind_append trivial, Reader.u16_exact.bind_append trivial,
    Reader.require_bind_apply, if_pos hcheck,
    (Reader.repeatN_exact (Reader.fixed_exact 32) _).bind_append hids]
  rw [hkind.map_id]
  by_cases hroot : kind = ROOT_KIND
  · have hsize : (UInt32.ofNat privateMetadata.length).toNat = privateMetadata.length := by
      refine UInt32.toNat_ofNat_of_lt' ?_
      unfold ENCRYPTED_TREE_ROOT_PRIVATE_METADATA_MAX_BYTES at hmetadata
      exact lt_of_le_of_lt hmetadata (by decide)
    have hbytes : Reader.bytes (UInt32.ofNat privateMetadata.length).toNat privateMetadata =
        some (privateMetadata, []) := by
      rw [Reader.bytes_eq_some, hsize, List.append_nil]
      exact ⟨rfl, rfl⟩
    rw [if_pos hroot, if_pos hroot, metadataOf, if_pos hroot, le32Of,
      Reader.u32_exact.bind_append trivial, Reader.require_bind_apply, if_pos (by rwa [hsize]),
      Reader.bind_eq_some]
    exact ⟨privateMetadata, [], hbytes, rfl⟩
  · rw [if_neg hroot, if_neg hroot, metadataOf, if_neg hroot]
    rfl

/-! ### What stands below a child -/

/-- A subtree: the child that refers to it, the pieces of the source in it, and its
    chunks in the order in which a traversal meets them. -/
structure Branch where
  child : ChildRef
  pieces : List Bytes
  ids : List ChunkId

def kindAt : Nat → UInt8
  | 0 => DATA_KIND
  | _ + 1 => INDEX_KIND

def Stands (readable : ChunkId → Bytes → Prop) : Nat → Branch → Prop
  | 0, b => b.child.kind = DATA_KIND ∧ ∃ plaintext, readable b.child.id plaintext ∧
      plaintext.length ≤ ENCRYPTED_TREE_DATA_MAX_BYTES ∧ b.pieces = [plaintext] ∧ b.ids = [b.child.id]
  | height + 1, b => b.child.kind = INDEX_KIND ∧ ∃ below : List Branch, below ≠ [] ∧
      below.length ≤ ENCRYPTED_TREE_MAX_CHILDREN ∧ (∀ c ∈ below, Stands readable height c) ∧
      readable b.child.id (nodeBytes INDEX_KIND (kindAt height) (below.map (·.child)) []) ∧
      b.pieces = below.flatMap (·.pieces) ∧ b.ids = b.child.id :: below.flatMap (·.ids)

variable {readable : ChunkId → Bytes → Prop} {height : Nat} {b : Branch}

theorem Stands.kind (h : Stands readable height b) : b.child.kind = kindAt height := by
  cases height with
  | zero => exact h.1
  | succ height => exact h.1

variable {branches : List Branch}

theorem Stands.ofKind (h : ∀ b ∈ branches, Stands readable height b) :
    OfKind (kindAt height) (branches.map (·.child)) := by
  intro child hchild
  rcases List.mem_map.mp hchild with ⟨b, hb, rfl⟩
  exact (h b hb).kind

theorem kindAt_child (height : Nat) : kindAt height = INDEX_KIND ∨ kindAt height = DATA_KIND := by
  cases height with
  | zero => exact .inr rfl
  | succ height => exact .inl rfl

theorem Stands.mono {more : ChunkId → Bytes → Prop} (hmore : ∀ id plaintext, readable id plaintext →
    more id plaintext) (h : Stands readable height b) : Stands more height b := by
  induction height generalizing b with
  | zero =>
    rcases h with ⟨hkind, plaintext, hread, hrest⟩
    exact ⟨hkind, plaintext, hmore _ _ hread, hrest⟩
  | succ height ih =>
    rcases h with ⟨hkind, below, hnonempty, hcount, hbelow, hread, hrest⟩
    exact ⟨hkind, below, hnonempty, hcount, fun c hc => ih (hbelow c hc), hmore _ _ hread, hrest⟩

theorem length_flatten_flatMap_le {size : Nat}
    (h : ∀ b ∈ branches, b.pieces.flatten.length ≤ b.ids.length * size) :
    (branches.flatMap (·.pieces)).flatten.length ≤ (branches.flatMap (·.ids)).length * size := by
  induction branches with
  | nil => simp
  | cons b branches ih =>
    have hb := h b List.mem_cons_self
    have hrest := ih fun c hc => h c (List.mem_cons_of_mem _ hc)
    rw [List.flatMap_cons, List.flatMap_cons, List.flatten_append, List.length_append,
      List.length_append, Nat.add_mul]
    exact Nat.add_le_add hb hrest

theorem Stands.length_pieces_le (h : Stands readable height b) :
    b.pieces.flatten.length ≤ b.ids.length * ENCRYPTED_TREE_DATA_MAX_BYTES := by
  induction height generalizing b with
  | zero =>
    rcases h with ⟨-, plaintext, -, hsize, hpieces, hids⟩
    rw [hpieces, hids]
    simpa using hsize
  | succ height ih =>
    rcases h with ⟨-, below, -, -, hbelow, -, hpieces, hids⟩
    have hle := length_flatten_flatMap_le fun c hc => ih (hbelow c hc)
    rw [hpieces, hids, List.length_cons, Nat.add_mul]
    exact hle.trans (Nat.le_add_right _ _)

/-! ### Traversals -/

section

variable [ChunkCipher] {network : NetworkBinding} {key : ContentKey} {callbacks : TreeCallbacks}

omit [ChunkCipher] in
theorem Traversal.bind_of {α β : Type} {x : Traversal α} {f : α → Traversal β} {r r' : TreeReading}
    {a : α} (h : x r = some (a, r')) : (x >>= f) r = f a r' := by
  change (x r).bind (fun result => f result.1 result.2) = f a r'
  rw [h, Option.bind_some]

/-- Callbacks that accept everything and look up what is readable. -/
structure Serves (network : NetworkBinding) (key : ContentKey) (callbacks : TreeCallbacks)
    (readable : ChunkId → Bytes → Prop) : Prop where
  lookup : ∀ id plaintext, readable id plaintext → ∃ stored, callbacks.lookup id = some stored ∧
    decryptChunk network key id stored = some plaintext
  visit : ∀ visited id, callbacks.visit visited id = true
  rootMetadata : ∀ metadata, callbacks.rootMetadata metadata = true
  sink : ∀ emitted plaintext, callbacks.sink emitted plaintext = true

variable {r : TreeReading} {id : ChunkId} {plaintext : Bytes}

theorem Serves.visitChunk (h : Serves network key callbacks readable) :
    visitChunk callbacks id r = some ((), { r with visited := r.visited ++ [id] }) := by
  change (if _ then _ else _ : Traversal Unit) r = _
  rw [if_neg (by rw [h.visit]; decide)]
  rfl

omit [ChunkCipher] in
theorem enterChunk_of_not_mem (h : id ∉ r.path) :
    enterChunk id r = some ((), { r with path := id :: r.path }) := by
  change (if _ then _ else _ : Traversal Unit) r = _
  rw [if_neg h]
  rfl

theorem Serves.fetchChunk (h : Serves network key callbacks readable) (hread : readable id plaintext) :
    fetchChunk key network callbacks id r = some (plaintext, r) := by
  obtain ⟨stored, hlookup, hdecrypt⟩ := h.lookup id plaintext hread
  have hstored : (liftM (callbacks.lookup id) : Traversal Bytes) r = some (stored, r) := by
    rw [hlookup]
    rfl
  rw [Cybou.fetchChunk, Traversal.bind_of hstored, hdecrypt]
  rfl

variable {maxOutputBytes : UInt64}

theorem Serves.emitData (h : Serves network key callbacks readable)
    (hmax : r.outputBytes + plaintext.length ≤ maxOutputBytes.toNat) :
    emitData callbacks maxOutputBytes plaintext r = some ((), { r with
      emitted := r.emitted ++ [plaintext], outputBytes := r.outputBytes + plaintext.length }) := by
  change (if _ then _ else _ : Traversal Unit) r = _
  rw [if_neg]
  · rfl
  · rintro (hover | hover | hrefused)
    · omega
    · omega
    · rw [h.sink] at hrefused
      exact absurd hrefused (by decide)

/-- A traversal that has visited and passed on a subtree. -/
def TreeReading.after (r : TreeReading) (ids : List ChunkId) (pieces : List Bytes) : TreeReading :=
  { r with
    visited := r.visited ++ ids
    emitted := r.emitted ++ pieces
    outputBytes := r.outputBytes + pieces.flatten.length }

omit [ChunkCipher] in
theorem TreeReading.after_after (r : TreeReading) (ids ids' : List ChunkId) (pieces pieces' : List Bytes) :
    (r.after ids pieces).after ids' pieces' = r.after (ids ++ ids') (pieces ++ pieces') := by
  simp [TreeReading.after, Nat.add_assoc]

omit [ChunkCipher] in
theorem forM_read {visitNode : ChildRef → Traversal Unit}
    {branches : List Branch} (hnode : ∀ b ∈ branches, ∀ r : TreeReading, b.ids.Nodup →
      (∀ id ∈ b.ids, id ∉ r.path) → r.outputBytes + b.pieces.flatten.length ≤ maxOutputBytes.toNat →
      visitNode b.child r = some ((), r.after b.ids b.pieces))
    (hnodup : (branches.flatMap (·.ids)).Nodup) (hpath : ∀ id ∈ branches.flatMap (·.ids), id ∉ r.path)
    (hmax : r.outputBytes + (branches.flatMap (·.pieces)).flatten.length ≤ maxOutputBytes.toNat) :
    (branches.map (·.child)).forM visitNode r =
      some ((), r.after (branches.flatMap (·.ids)) (branches.flatMap (·.pieces))) := by
  induction branches generalizing r with
  | nil => simp [TreeReading.after, pure, StateT.pure]
  | cons b branches ih =>
    rw [List.flatMap_cons] at hnodup hmax
    rw [List.flatten_append, List.length_append] at hmax
    have hsplit := List.nodup_append.mp hnodup
    have hfirst := hnode b List.mem_cons_self r hsplit.1
      (fun id hid => hpath id (List.mem_flatMap.mpr ⟨b, List.mem_cons_self, hid⟩)) (by omega)
    have hrest := ih (r := r.after b.ids b.pieces)
      (fun c hc => hnode c (List.mem_cons_of_mem _ hc)) hsplit.2.1
      (fun id hid => hpath id (by
        rw [List.flatMap_cons]
        exact List.mem_append_right _ hid))
      (by simp only [TreeReading.after]; omega)
    rw [List.map_cons, List.flatMap_cons, List.flatMap_cons, ← TreeReading.after_after, ← hrest]
    exact Traversal.bind_of hfirst

variable {room : Nat}

omit [ChunkCipher] in
/-- An index node parses to its children, and none of the path is met again below it. -/
theorem Stands.index (h : Stands readable (height + 1) b) (hnodup : b.ids.Nodup) (hpath : ∀ id ∈ b.ids, id ∉ r.path) :
    ∃ below : List Branch, b.child.kind ≠ DATA_KIND ∧ b.child.id ∉ r.path ∧
      (below.flatMap Branch.ids).Nodup ∧ (∀ id ∈ below.flatMap Branch.ids, id ∉ b.child.id :: r.path) ∧
      (∀ c ∈ below, Stands readable height c) ∧ (∃ plaintext, readable b.child.id plaintext ∧
        parseMetadata plaintext INDEX_KIND = some (below.map (·.child), [])) ∧
      b.pieces = below.flatMap Branch.pieces ∧ b.ids = b.child.id :: below.flatMap Branch.ids := by
  obtain ⟨hkind, below, hnonempty, hcount, hbelow, hread, hpieces, hids⟩ := h
  rw [hids] at hnodup hpath
  obtain ⟨hself, hnodup⟩ := List.nodup_cons.mp hnodup
  refine ⟨below, by rw [hkind]; decide, hpath _ List.mem_cons_self, hnodup, ?_, hbelow, ⟨_, hread, ?_⟩, hpieces, hids⟩
  · intro id hid hmem
    rcases List.mem_cons.mp hmem with rfl | hmem
    · exact hself hid
    · exact hpath id (List.mem_cons_of_mem _ hid) hmem
  · exact parseMetadata_nodeBytes (by rwa [List.length_map]) (kindAt_child height) (Stands.ofKind hbelow)
      (fun _ hnone => hnonempty (List.map_eq_nil_iff.mp hnone)) (Nat.zero_le _)

omit [ChunkCipher] in
/-- A node that parses takes nothing from the traversal. -/
theorem liftM_parseMetadata {plaintext : Bytes} {parsed : List ChildRef × Bytes}
    (hparse : parseMetadata plaintext INDEX_KIND = some parsed) (r : TreeReading) :
    (liftM (parseMetadata plaintext INDEX_KIND) : Traversal (List ChildRef × Bytes)) r = some (parsed, r) := by
  rw [hparse]
  rfl

/-- What stands below a node is read in order; by induction on its height. -/
theorem readTreeNode_stands (hserves : Serves network key callbacks readable)
    (hroom : height < room) (h : Stands readable height b) (hnodup : b.ids.Nodup)
    (hpath : ∀ id ∈ b.ids, id ∉ r.path)
    (hmax : r.outputBytes + b.pieces.flatten.length ≤ maxOutputBytes.toNat) :
    readTreeNode key network callbacks maxOutputBytes room b.child r =
      some ((), r.after b.ids b.pieces) := by
  induction height generalizing room b r with
  | zero =>
    rcases h with ⟨hkind, plaintext, hread, -, hpieces, hids⟩
    obtain ⟨room, rfl⟩ := Nat.exists_eq_succ_of_ne_zero (Nat.ne_zero_of_lt hroom)
    have hnew : b.child.id ∉ r.path := hpath b.child.id (by rw [hids]; exact List.mem_singleton_self _)
    have hlength : b.pieces.flatten.length = plaintext.length := by rw [hpieces]; simp
    rw [readTreeNode]
    refine (Traversal.bind_of hserves.visitChunk).trans ?_
    refine (Traversal.bind_of (enterChunk_of_not_mem (by exact hnew))).trans ?_
    refine (Traversal.bind_of (hserves.fetchChunk hread)).trans ?_
    dsimp only
    rw [if_pos hkind]
    refine (Traversal.bind_of (hserves.emitData (by rw [← hlength]; exact hmax))).trans ?_
    change some ((), { r with
      path := (b.child.id :: r.path).erase b.child.id
      visited := r.visited ++ [b.child.id]
      emitted := r.emitted ++ [plaintext]
      outputBytes := r.outputBytes + plaintext.length }) = _
    rw [List.erase_cons_head, TreeReading.after, hlength, hids, hpieces]
  | succ height ih =>
    obtain ⟨below, hnotData, hnew, hbelowNodup, hbelowPath, hbelow, ⟨plaintext, hread, hparse⟩, hpieces, hids⟩ :=
      h.index hnodup hpath
    obtain ⟨room, rfl⟩ := Nat.exists_eq_succ_of_ne_zero (Nat.ne_zero_of_lt hroom)
    rw [hpieces] at hmax
    have hloop := forM_read (r := { r with
        path := b.child.id :: r.path, visited := r.visited ++ [b.child.id] })
      (fun c hc r hnodup hpath hmax => ih (Nat.lt_of_succ_lt_succ hroom) (hbelow c hc) hnodup hpath hmax)
      hbelowNodup hbelowPath hmax
    rw [readTreeNode]
    refine (Traversal.bind_of hserves.visitChunk).trans ?_
    refine (Traversal.bind_of (enterChunk_of_not_mem (by exact hnew))).trans ?_
    refine (Traversal.bind_of (hserves.fetchChunk hread)).trans ?_
    dsimp only
    rw [if_neg hnotData]
    refine (Traversal.bind_of (liftM_parseMetadata hparse _)).trans ?_
    refine (Traversal.bind_of hloop).trans ?_
    change some ((), { r with
      path := (b.child.id :: r.path).erase b.child.id
      visited := (r.visited ++ [b.child.id]) ++ below.flatMap Branch.ids
      emitted := r.emitted ++ below.flatMap Branch.pieces
      outputBytes := r.outputBytes + (below.flatMap Branch.pieces).flatten.length }) = _
    rw [List.erase_cons_head, TreeReading.after, hids, hpieces, List.append_assoc, List.singleton_append]

def TreeReading.seen (r : TreeReading) (ids : List ChunkId) : TreeReading :=
  { r with path := ids.reverse ++ r.path, visited := r.visited ++ ids }

omit [ChunkCipher] in
theorem TreeReading.seen_seen (r : TreeReading) (ids ids' : List ChunkId) :
    (r.seen ids).seen ids' = r.seen (ids ++ ids') := by
  simp [TreeReading.seen]

omit [ChunkCipher] in
theorem forM_enumerate {visitNode : ChildRef → Traversal Unit} {branches : List Branch}
    (hnode : ∀ b ∈ branches, ∀ r : TreeReading, b.ids.Nodup → (∀ id ∈ b.ids, id ∉ r.path) →
      visitNode b.child r = some ((), r.seen b.ids))
    (hnodup : (branches.flatMap (·.ids)).Nodup) (hpath : ∀ id ∈ branches.flatMap (·.ids), id ∉ r.path) :
    (branches.map (·.child)).forM visitNode r = some ((), r.seen (branches.flatMap (·.ids))) := by
  induction branches generalizing r with
  | nil => simp [TreeReading.seen, pure, StateT.pure]
  | cons b branches ih =>
    rw [List.flatMap_cons] at hnodup hpath
    have hsplit := List.nodup_append.mp hnodup
    have hfirst := hnode b List.mem_cons_self r hsplit.1
      (fun id hid => hpath id (List.mem_append_left _ hid))
    have hrest := ih (r := r.seen b.ids) (fun c hc => hnode c (List.mem_cons_of_mem _ hc)) hsplit.2.1
      (by
        intro id hid hmem
        rcases List.mem_append.mp hmem with hmem | hmem
        · exact hsplit.2.2 id (List.mem_reverse.mp hmem) id hid rfl
        · exact hpath id (List.mem_append_right _ hid) hmem)
    rw [List.map_cons, List.flatMap_cons, ← TreeReading.seen_seen, ← hrest]
    exact Traversal.bind_of hfirst

/-- What stands below a node is visited once each. -/
theorem enumerateTreeNode_stands (hserves : Serves network key callbacks readable)
    (hroom : height < room) (h : Stands readable height b) (hnodup : b.ids.Nodup)
    (hpath : ∀ id ∈ b.ids, id ∉ r.path) :
    enumerateTreeNode key network callbacks room b.child r = some ((), r.seen b.ids) := by
  induction height generalizing room b r with
  | zero =>
    rcases h with ⟨hkind, -, -, -, -, hids⟩
    obtain ⟨room, rfl⟩ := Nat.exists_eq_succ_of_ne_zero (Nat.ne_zero_of_lt hroom)
    have hnew : b.child.id ∉ r.path := hpath b.child.id (by rw [hids]; exact List.mem_singleton_self _)
    rw [enumerateTreeNode]
    refine (Traversal.bind_of (enterChunk_of_not_mem hnew)).trans ?_
    refine (Traversal.bind_of hserves.visitChunk).trans ?_
    rw [if_pos hkind, TreeReading.seen, hids]
    rfl
  | succ height ih =>
    obtain ⟨below, hnotData, hnew, hbelowNodup, hbelowPath, hbelow, ⟨plaintext, hread, hparse⟩, -, hids⟩ :=
      h.index hnodup hpath
    obtain ⟨room, rfl⟩ := Nat.exists_eq_succ_of_ne_zero (Nat.ne_zero_of_lt hroom)
    have hloop := forM_enumerate (r := r.seen [b.child.id])
      (fun c hc r hnodup hpath => ih (Nat.lt_of_succ_lt_succ hroom) (hbelow c hc) hnodup hpath)
      hbelowNodup hbelowPath
    rw [enumerateTreeNode]
    refine (Traversal.bind_of (enterChunk_of_not_mem hnew)).trans ?_
    refine (Traversal.bind_of hserves.visitChunk).trans ?_
    rw [if_neg hnotData]
    refine (Traversal.bind_of (hserves.fetchChunk hread)).trans ?_
    refine (Traversal.bind_of (liftM_parseMetadata hparse _)).trans ?_
    refine hloop.trans ?_
    rw [TreeReading.seen_seen, hids, List.singleton_append]

/-! ### Whole trees -/

/-- What `readable` lets a reader find below a root: the pieces, the private metadata and
    the chunks, the root first. -/
structure RootStands (readable : ChunkId → Bytes → Prop) (rootId : ChunkId) (privateMetadata : Bytes)
    (branches : List Branch) (height : Nat) : Prop where
  count : branches.length ≤ ENCRYPTED_TREE_MAX_CHILDREN
  shallow : height < ENCRYPTED_TREE_MAX_DEPTH - 1
  stands : ∀ b ∈ branches, Stands readable height b
  metadata : privateMetadata.length ≤ ENCRYPTED_TREE_ROOT_PRIVATE_METADATA_MAX_BYTES
  root : readable rootId (nodeBytes ROOT_KIND (childKindOf (branches.map (·.child)))
    (branches.map (·.child)) privateMetadata)

variable {rootId : ChunkId} {privateMetadata : Bytes} {branches : List Branch}

omit [ChunkCipher] in
theorem RootStands.parse (h : RootStands readable rootId privateMetadata branches height) :
    parseMetadata (nodeBytes ROOT_KIND (childKindOf (branches.map (·.child)))
      (branches.map (·.child)) privateMetadata) ROOT_KIND =
        some (branches.map (·.child), privateMetadata) := by
  have hkind : OfKind (kindAt height) (branches.map (·.child)) := Stands.ofKind h.stands
  by_cases hnone : branches = []
  · subst hnone
    exact parseMetadata_nodeBytes (Nat.zero_le _) (.inr rfl) (fun _ hchild => absurd hchild List.not_mem_nil)
      (fun habsurd => absurd habsurd (by decide)) h.metadata
  · have hchildKind := hkind.childKindOf fun hempty => hnone (List.map_eq_nil_iff.mp hempty)
    rw [hchildKind]
    exact parseMetadata_nodeBytes (by rw [List.length_map]; exact h.count) (kindAt_child height) hkind
      (fun habsurd => absurd habsurd (by decide)) h.metadata

def TreeReading.atRoot (rootId : ChunkId) (rootMetadata : Option Bytes) : TreeReading where
  path := [rootId]
  visited := [rootId]
  rootMetadata := rootMetadata
  emitted := []
  outputBytes := 0

omit [ChunkCipher] in
theorem not_mem_atRoot {ids : List ChunkId} (h : (rootId :: ids).Nodup) (metadata : Option Bytes) :
    ∀ id ∈ ids, id ∉ (TreeReading.atRoot rootId metadata).path := by
  intro id hid hmem
  rw [List.mem_singleton.mp hmem] at hid
  exact (List.nodup_cons.mp h).1 hid

theorem fetch_rootStands (hserves : Serves network key callbacks readable)
    (h : RootStands readable rootId privateMetadata branches height)
    (hnodup : (rootId :: branches.flatMap (·.ids)).Nodup)
    (hmax : (branches.flatMap (·.pieces)).flatten.length ≤ maxOutputBytes.toNat) :
    ∃ r, fetchEncryptedChunkTree key network callbacks rootId maxOutputBytes TreeReading.initial =
        some ((branches.flatMap (·.pieces)).flatten.length, r) ∧
      r.rootMetadata = some privateMetadata ∧ r.emitted = branches.flatMap (·.pieces) := by
  have hloop := forM_read (r := TreeReading.atRoot rootId (some privateMetadata))
    (fun c hc r hnodup hpath hmax =>
      readTreeNode_stands hserves h.shallow (h.stands c hc) hnodup hpath hmax)
    (List.nodup_cons.mp hnodup).2 (not_mem_atRoot hnodup _)
    (by
      change 0 + _ ≤ _
      rwa [Nat.zero_add])
  refine ⟨(TreeReading.atRoot rootId (some privateMetadata)).after (branches.flatMap (·.ids))
    (branches.flatMap (·.pieces)), ?_, rfl, rfl⟩
  unfold fetchEncryptedChunkTree
  refine (Traversal.bind_of hserves.visitChunk).trans ?_
  refine (Traversal.bind_of (hserves.fetchChunk h.root)).trans ?_
  rw [h.parse]
  refine (Traversal.bind_of (a := (branches.map (·.child), privateMetadata)) rfl).trans ?_
  refine (Traversal.bind_of rfl).trans ?_
  rw [if_neg (by rw [hserves.rootMetadata]; decide)]
  refine (Traversal.bind_of (enterChunk_of_not_mem List.not_mem_nil)).trans ?_
  refine (Traversal.bind_of hloop).trans ?_
  change some (0 + (branches.flatMap (·.pieces)).flatten.length, _) = _
  rw [Nat.zero_add]

theorem enumerate_rootStands (hserves : Serves network key callbacks readable)
    (h : RootStands readable rootId privateMetadata branches height)
    (hroot : isZero rootId.1 = false) (hnodup : (rootId :: branches.flatMap (·.ids)).Nodup) :
    ∃ r, enumerateEncryptedTreeChunks key network callbacks rootId TreeReading.initial = some ((), r) ∧
      r.visited = rootId :: branches.flatMap (·.ids) := by
  have hloop := forM_enumerate (r := TreeReading.atRoot rootId none)
    (fun c hc r hnodup hpath =>
      enumerateTreeNode_stands hserves h.shallow (h.stands c hc) hnodup hpath)
    (List.nodup_cons.mp hnodup).2 (not_mem_atRoot hnodup _)
  refine ⟨(TreeReading.atRoot rootId none).seen (branches.flatMap (·.ids)), ?_, rfl⟩
  unfold enumerateEncryptedTreeChunks
  rw [if_neg (by rw [hroot]; decide)]
  refine (Traversal.bind_of hserves.visitChunk).trans ?_
  refine (Traversal.bind_of (hserves.fetchChunk h.root)).trans ?_
  rw [h.parse]
  refine (Traversal.bind_of (a := (branches.map (·.child), privateMetadata)) rfl).trans ?_
  refine (Traversal.bind_of (enterChunk_of_not_mem List.not_mem_nil)).trans ?_
  exact hloop

end

end Cybou
