import Cybou.CanonicalStore
import Cybou.IdentityRuns

/-! # The index of finalized events (`finalized_event_index.cpp`)

The rows are a cache of the canonical blocks, with a marker that names the head
they are complete for.  A commit keeps both up to date in its own batch; a
rebuild erases the marker first and the rows after it, writes the rows of every
block again and puts the marker back last, so a rebuild that is stopped leaves
an index without a marker.

`eventRows` is what the blocks of a chain write from nothing.  A replacement
erases the rows of the block it takes off the chain, and that undoes exactly what
this block wrote: an operation, and a key epoch of an account, occur in one block
of a chain only (`apply_rowsOf_erase`).
-/

namespace Cybou

open Library

section

variable [Crypto]

/-! ### Locations -/

structure FinalizedEventLocation where
  height : UInt64
  operationIndex : UInt32
  blockId : Hash256
deriving DecidableEq

structure FinalizedEventLookup where
  complete : Bool := false
  location : Option FinalizedEventLocation := none
deriving DecidableEq

omit [Crypto] in
def decodeLocation (value : Bytes) : Option FinalizedEventLocation :=
  if value.length ≠ 44 then none
  else do
    let height ← decodeLocalUnsigned 8 (value.take 8)
    let operationIndex ← decodeLocalUnsigned 4 ((value.drop 8).take 4)
    let blockId ← decodeLocalHash (value.drop 12)
    return { height := UInt64.ofNat height, operationIndex := UInt32.ofNat operationIndex, blockId }

omit [Crypto] in
theorem decodeLocation_encodeLocation (location : FinalizedEventLocation) :
    decodeLocation (encodeLocation location.height location.operationIndex location.blockId) =
      some location := by
  have hheight : (encodeLocalUnsigned 8 location.height.toNat).length = 8 := length_leBytes ..
  have hindex : (encodeLocalUnsigned 4 location.operationIndex.toNat).length = 4 := length_leBytes ..
  have hid : location.blockId.1.length = 32 := location.blockId.2
  have hprefix : (encodeLocalUnsigned 8 location.height.toNat ++
      encodeLocalUnsigned 4 location.operationIndex.toNat).length = 12 := by
    rw [List.length_append, hheight, hindex]
  have hdecodedHeight := @decodeLocalUnsigned_encodeLocalUnsigned 8 _ location.height.toNat_lt []
  have hdecodedIndex := @decodeLocalUnsigned_encodeLocalUnsigned 4 _ location.operationIndex.toNat_lt []
  have hdecodedId := decodeLocalHash_encodeLocalHash location.blockId []
  rw [List.append_nil] at hdecodedHeight hdecodedIndex hdecodedId
  rw [decodeLocation, encodeLocation, if_neg (by simp only [List.length_append, hheight, hindex, hid]; decide),
    List.drop_left' hprefix, List.append_assoc, List.take_left' hheight, List.drop_left' hheight,
    List.take_left' hindex, hdecodedHeight, hdecodedIndex]
  rw [encodeLocalHash] at hdecodedId
  simp [hdecodedId]

omit [Crypto] in
theorem length_encodeLocation (height : UInt64) (operationIndex : UInt32) (blockId : Hash256) :
    (encodeLocation height operationIndex blockId).length ≤ MAX_COMPACT_SIZE := by
  have hheight : (encodeLocalUnsigned 8 height.toNat).length = 8 := length_leBytes ..
  have hindex : (encodeLocalUnsigned 4 operationIndex.toNat).length = 4 := length_leBytes ..
  have hmax : MAX_COMPACT_SIZE = 33554432 := rfl
  simp only [encodeLocation, List.length_append, hheight, hindex, blockId.2]
  omega

/-! ### Rebuilding -/

def StoreKey.isEventRow : StoreKey → Bool
  | .eventsOperation _ | .eventsKem _ _ | .eventsPublication _ => true
  | _ => false

/-- The marker is gone, and of the rows only those that are kept are left. -/
def clearEvents (db : NodeDb) (kept : StoreKey → Bool) : NodeDb := fun key =>
  if key = .eventsHead then none else if key.isEventRow && !kept key then none else db key

/-- The loop of a rebuild over `n` heights.  It gives the id of the last block, or
    nothing where it returns false. -/
def rewriteEvents (g : VerifiedNetworkGenesis) :
    Nat → UInt64 → Hash256 → NodeDb → Except Fault (Option Hash256) × NodeDb
  | 0, _, previous, db => (.ok (some previous), db)
  | n + 1, height, previous, db =>
    match getBlockAtHeight db height with
    | none => (.ok none, db)
    | some fb =>
      if fb.block.parentBlockId ≠ previous ∨
          verifyPoaCertificateForBlock fb.certificate g.poaKey g.networkBinding fb.block = false then
        (.ok none, db)
      else
        match writeEvents fb.block false with
        | none => (.error .thrown, db)
        | some batch => rewriteEvents g n (height + 1) (computeBlockId fb.block) (db.apply batch)

/-- `EnsureFinalizedEventsLocked`. -/
def ensureFinalizedEvents (g : VerifiedNetworkGenesis) (db : NodeDb) (force : Bool) :
    Except Fault Bool × NodeDb :=
  match getFinalizedHead db with
  | none => (.ok false, db)
  | some head =>
    if force = false ∧ readBytes db .eventsHead = some (encodeFinalizedHead head) then (.ok true, db)
    else
      match rewriteEvents g head.height.toNat 1 g.genesisAnchor (clearEvents db fun _ => false) with
      | (.error fault, db) => (.error fault, db)
      | (.ok previous, db) =>
        if previous ≠ some head.blockId then (.ok false, db)
        else (.ok true, db.apply [.put .eventsHead (encodeLocalBytes (encodeFinalizedHead head))])

/-- Where a failed write or a crash stops a rebuild. -/
inductive RebuildStop where
  /-- While the rows are erased, with some still there. -/
  | clearing (kept : StoreKey → Bool)
  /-- When the rows of some blocks have been written. -/
  | rewriting (blocks : Nat)

def stoppedRebuild (g : VerifiedNetworkGenesis) (db : NodeDb) (stop : RebuildStop) : NodeDb :=
  match getFinalizedHead db with
  | none => db
  | some head =>
    match stop with
    | .clearing kept => clearEvents db kept
    | .rewriting blocks => (rewriteEvents g (min blocks head.height.toNat) 1 g.genesisAnchor
        (clearEvents db fun _ => false)).2

/-! ### The rows of a chain -/

def rowsOf (block : CybouBlock) (erase : Bool) : Batch := (writeEvents block erase).getD []

def eventRows : List FinalizedBlock → NodeDb
  | [] => fun _ => none
  | fb :: below => (eventRows below).apply (rowsOf fb.block false)

def operationKeys (op : ProtocolOperation) : List StoreKey :=
  ((computeOperationId op).map StoreKey.eventsOperation).toList ++ (kemKey op).toList

def eventKeys (block : CybouBlock) : List StoreKey :=
  block.operations.flatMap operationKeys ++ [.eventsPublication block.height]

variable {op : ProtocolOperation} {key : StoreKey}

theorem mem_operationKeys : key ∈ operationKeys op ↔
    (∃ id, computeOperationId op = some id ∧ key = .eventsOperation id) ∨ kemKey op = some key := by
  rw [operationKeys, List.mem_append, Option.mem_toList, Option.mem_toList, Option.map_eq_some_iff]
  simp only [@eq_comm _ key]

omit [Crypto] in
theorem kemKey_eq_some (h : kemKey op = some key) :
    ∃ account epoch, key = .eventsKem account epoch := by
  cases op with
  | accountCreate op => exact ⟨op.accountId, 0, (Option.some.inj h).symm⟩
  | identityRotate op => exact ⟨op.accountId, op.keyEpoch, (Option.some.inj h).symm⟩
  | _ => cases h

variable {ops : List ProtocolOperation}

theorem eventsOperation_mem {id : Hash256} :
    .eventsOperation id ∈ ops.flatMap operationKeys ↔ id ∈ ops.filterMap computeOperationId := by
  rw [List.mem_flatMap, List.mem_filterMap]
  constructor
  · intro h
    obtain ⟨op, hop, hkey⟩ := h
    rcases mem_operationKeys.mp hkey with ⟨id', hid, heq⟩ | hkem
    · cases heq
      exact ⟨op, hop, hid⟩
    · obtain ⟨account, epoch, heq⟩ := kemKey_eq_some hkem
      cases heq
  · intro h
    obtain ⟨op, hop, hid⟩ := h
    exact ⟨op, hop, mem_operationKeys.mpr (.inl ⟨id, hid, rfl⟩)⟩

theorem keys_operationEvents (block : CybouBlock) (erase : Bool)
    (h : ∀ op ∈ ops, ∃ id, computeOperationId op = some id) (i : Nat) :
    ∃ edits, operationEvents block erase i ops = some edits ∧
      edits.map Edit.key = ops.flatMap operationKeys ∧
      (erase = true → ∀ e ∈ edits, e.value = none) := by
  induction ops generalizing i with
  | nil => exact ⟨[], rfl, rfl, by simp⟩
  | cons op rest ih =>
    rw [List.forall_mem_cons] at h
    obtain ⟨⟨id, hid⟩, hrest⟩ := h
    obtain ⟨edits, hedits, hkeys, hvalues⟩ := ih hrest (i + 1)
    refine ⟨_, by rw [operationEvents, hid, Option.bind_eq_bind, Option.bind_some, hedits]; rfl, ?_, ?_⟩
    · rw [List.flatMap_cons, operationKeys, hid, ← hkeys]
      cases erase <;> cases hkem : kemKey op <;> simp [Edit.key]
    · intro herase
      subst herase
      intro e he
      simp only [if_true, List.cons_append, List.mem_cons, List.mem_append] at he
      rcases he with rfl | he | he
      · rfl
      · obtain ⟨key, -, rfl⟩ := Option.map_eq_some_iff.mp (Option.mem_toList.mp he)
        rfl
      · exact hvalues rfl e he

theorem writeEvents_eq (block : CybouBlock) (erase : Bool)
    (h : ∀ op ∈ block.operations, ∃ id, computeOperationId op = some id) :
    writeEvents block erase = some (rowsOf block erase) ∧
      (rowsOf block erase).map Edit.key = eventKeys block ∧
      (erase = true → ∀ e ∈ rowsOf block erase, e.value = none) := by
  obtain ⟨edits, hedits, hkeys, hvalues⟩ := keys_operationEvents block erase h 0
  have hwritten : ∃ last : Edit StoreKey Bytes, writeEvents block erase = some (edits ++ [last]) ∧
      last.key = .eventsPublication block.height ∧ (erase = true → last.value = none) := by
    refine ⟨_, by rw [writeEvents, hedits]; rfl, ?_, ?_⟩
    · split <;> rfl
    · intro herase
      rw [herase]
      rfl
  obtain ⟨last, hsome, hkey, hvalue⟩ := hwritten
  rw [rowsOf, hsome, Option.getD_some]
  refine ⟨rfl, ?_, ?_⟩
  · rw [List.map_append, hkeys, List.map_singleton, hkey, eventKeys]
  · intro herase e he
    rcases List.mem_append.mp he with he | he
    · exact hvalues herase e he
    · rw [List.mem_singleton.mp he]
      exact hvalue herase

variable {block : CybouBlock}

theorem isEventRow_of_mem (h : key ∈ eventKeys block) :
    key.isEventRow = true := by
  rcases List.mem_append.mp h with h | h
  · obtain ⟨op, -, hop⟩ := List.mem_flatMap.mp h
    rcases mem_operationKeys.mp hop with ⟨id, -, rfl⟩ | hkem
    · rfl
    · obtain ⟨account, epoch, rfl⟩ := kemKey_eq_some hkem
      rfl
  · rw [List.mem_singleton.mp h]
    rfl

variable {db : NodeDb}

theorem apply_rowsOf_of_notMem {erase : Bool}
    (hops : ∀ op ∈ block.operations, ∃ id, computeOperationId op = some id)
    (h : key ∉ eventKeys block) : db.apply (rowsOf block erase) key = db key := by
  obtain ⟨-, hkeys, -⟩ := writeEvents_eq block erase hops
  refine Store.apply_of_forall_ne ?_
  intro e he heq
  rw [← hkeys, ← heq] at h
  exact h (List.mem_map_of_mem he)

theorem apply_rowsOf_erase (hops : ∀ op ∈ block.operations, ∃ id, computeOperationId op = some id) :
    db.apply (rowsOf block true) key = if key ∈ eventKeys block then none else db key := by
  obtain ⟨-, hkeys, hvalues⟩ := writeEvents_eq block true hops
  by_cases h : key ∈ eventKeys block
  · rw [if_pos h]
    rw [← hkeys] at h
    exact Store.apply_of_mem (hvalues rfl) h
  · rw [if_neg h]
    exact apply_rowsOf_of_notMem hops h

variable {chain : List FinalizedBlock}

theorem eventRows_eq_none
    (hops : ∀ fb ∈ chain, ∀ op ∈ fb.block.operations, ∃ id, computeOperationId op = some id)
    (h : ∀ fb ∈ chain, key ∉ eventKeys fb.block) : eventRows chain key = none := by
  induction chain with
  | nil => rfl
  | cons fb below ih =>
    rw [List.forall_mem_cons] at hops h
    rw [eventRows, apply_rowsOf_of_notMem hops.1 h.1]
    exact ih hops.2 h.2

/-- **Erasing the rows of a tip undoes what it wrote**, if no block below has one of
    its keys. -/
theorem eventRows_undo {tip : FinalizedBlock} (key : StoreKey)
    (hops : ∀ fb ∈ tip :: chain, ∀ op ∈ fb.block.operations, ∃ id, computeOperationId op = some id)
    (hdisjoint : ∀ fb ∈ chain, ∀ key ∈ eventKeys fb.block, key ∉ eventKeys tip.block) :
    (eventRows (tip :: chain)).apply (rowsOf tip.block true) key = eventRows chain key := by
  rw [List.forall_mem_cons] at hops
  rw [apply_rowsOf_erase hops.1]
  by_cases hkey : key ∈ eventKeys tip.block
  · rw [if_pos hkey]
    refine (eventRows_eq_none hops.2 ?_).symm
    intro fb hfb hmem
    exact hdisjoint fb hfb key hmem hkey
  · rw [if_neg hkey, eventRows]
    exact apply_rowsOf_of_notMem hops.1 hkey

/-- Every operation of a block has its row. -/
theorem apply_operationEvents {block : CybouBlock} {db : NodeDb} {edits : Batch} {id : Hash256}
    {ops : List ProtocolOperation} {i j : Nat} (hops : ∀ op ∈ ops, ∃ id, computeOperationId op = some id)
    (h : operationEvents block false i ops = some edits)
    (hnodup : (ops.filterMap computeOperationId).Nodup)
    (hid : ops[j]?.bind computeOperationId = some id) :
    db.apply edits (.eventsOperation id) =
      some (encodeLocalBytes (encodeLocation block.height (UInt32.ofNat (i + j)) (computeBlockId block))) := by
  induction ops generalizing db edits i j with
  | nil => cases hid
  | cons op rest ih =>
    obtain ⟨first, hfirst, h⟩ := Option.bind_eq_some_iff.mp h
    obtain ⟨tail, htail, h⟩ := Option.bind_eq_some_iff.mp h
    cases h
    rw [List.filterMap_cons_some hfirst, List.nodup_cons] at hnodup
    have hrest := (List.forall_mem_cons.mp hops).2
    have hkem : ∀ db : NodeDb, ∀ id, db.apply ((kemKey op).map fun key => Edit.put key (encodeLocalBytes
        (encodeLocation block.height (UInt32.ofNat i) (computeBlockId block)))).toList
        (.eventsOperation id) = db (.eventsOperation id) := by
      intro db id
      refine Store.apply_of_forall_ne ?_
      intro e he
      obtain ⟨key, hkey, rfl⟩ := Option.map_eq_some_iff.mp (Option.mem_toList.mp he)
      obtain ⟨account, epoch, rfl⟩ := kemKey_eq_some hkey
      exact nofun
    simp only [Bool.false_eq_true, if_false, List.cons_append, Store.apply_cons]
    rw [Store.apply_append]
    cases j with
    | zero =>
      cases hfirst.symm.trans hid
      have htouched : ∀ e ∈ tail, e.key ≠ .eventsOperation id := by
        obtain ⟨edits, hedits, hkeys, -⟩ := keys_operationEvents block false hrest (i + 1)
        cases htail.symm.trans hedits
        intro e he heq
        have hmem : e.key ∈ tail.map Edit.key := List.mem_map_of_mem he
        rw [hkeys, heq, eventsOperation_mem] at hmem
        exact hnodup.1 hmem
      rw [Store.apply_of_forall_ne htouched, hkem]
      simp [Edit.key, Edit.value]
    | succ j =>
      rw [ih hrest htail hnodup.2 hid]
      congr 4
      omega

/-! ### Looking up -/

def validateFinalizedEvent (g : VerifiedNetworkGenesis) (db : NodeDb)
    (location : FinalizedEventLocation) : Bool :=
  match getFinalizedHead db, getBlockAtHeight db location.height with
  | some head, some fb =>
    if location.height = 0 ∨ location.height > head.height ∨ computeBlockId fb.block ≠ location.blockId ∨
        fb.block.operations.length ≤ location.operationIndex.toNat then false
    else
      let parent := if location.height > 1 then readHash db (.blockHeight (location.height - 1))
        else some g.genesisAnchor
      decide (parent = some fb.block.parentBlockId) &&
        verifyPoaCertificateForBlock fb.certificate g.poaKey g.networkBinding fb.block
  | _, _ => false

/-- One attempt of `FindIndexedOperation`; without an answer it is repeated on a
    rebuilt index. -/
def findAttempt (g : VerifiedNetworkGenesis) (db : NodeDb) (id : Hash256) :
    Option FinalizedEventLookup :=
  match readBytes db (.eventsOperation id) with
  | some row =>
    match decodeLocation row with
    | none => none
    | some location =>
      if validateFinalizedEvent g db location = false then none
      else
        match getBlockAtHeight db location.height with
        | none => none
        | some fb =>
          if fb.block.operations[location.operationIndex.toNat]?.bind computeOperationId = some id then
            some { complete := true, location := some location }
          else none
  | none => if (db (.operation id)).isNone then some { complete := true } else none

def findFrom (g : VerifiedNetworkGenesis) (attempt : NodeDb → Option FinalizedEventLookup) :
    List Bool → NodeDb → Except Fault FinalizedEventLookup × NodeDb
  | [], db => (.ok {}, db)
  | force :: rest, db =>
    match ensureFinalizedEvents g db force with
    | (.error fault, db) => (.error fault, db)
    | (.ok false, db) => (.ok {}, db)
    | (.ok true, db) =>
      match attempt db with
      | some lookup => (.ok lookup, db)
      | none => findFrom g attempt rest db

def findIndexedOperation (g : VerifiedNetworkGenesis) (db : NodeDb) (id : Hash256) :
    Except Fault FinalizedEventLookup × NodeDb :=
  findFrom g (fun db => findAttempt g db id) [false, true] db

end

end Cybou
