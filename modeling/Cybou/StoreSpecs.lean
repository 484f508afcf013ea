import Cybou.ExecutedBlock

/-! # What a commit writes

A plan that ends in a batch is characterised by the execution behind it
(`planExtension_write`, `planReplacement_write`), and what either batch leaves
in the store is one statement, `Committed`: it says of every key that is not
an event what it holds afterwards.
-/

namespace Cybou

open Library

section

variable [Crypto]

/-! ### Encodings of valid states and certified blocks -/

def encodedState (s : CybouState) : Bytes :=
  stateBytes s s.names.names.entries s.names.pendingCommits.entries

def stateRoot (s : CybouState) : Hash256 := Crypto.sha256 (ascii "CYBOU/STATE" ++ encodedState s)

variable {s : CybouState}

theorem serializeCybouState_eq_encodedState (h : StateInvariant s) (validate : Bool) :
    serializeCybouState s validate = some (encodedState s) :=
  serializeCybouState_of_invariant h validate

theorem cybouStateHash_of_invariant (h : StateInvariant s) (validate : Bool) :
    cybouStateHash s validate = some (stateRoot s) := by
  rw [cybouStateHash, serializeCybouState_of_invariant h]
  rfl

theorem deserialize_encodedState (h : StateInvariant s) (hsize : (encodedState s).length ≤ MAX_COMPACT_SIZE) :
    deserializeCybouState (encodedState s) = some s := by
  have hpublications : s.publications.entries.length * 1 ≤
      (Reader.concat writePublication s.publications.entries).length :=
    Reader.mul_length_le_concat fun e _ => by
      rw [writePublication, List.length_append]
      simp only [List.length_append, e.1.2]
      omega
  have hleases : s.leases.entries.length * 1 ≤ (Reader.concat writeLease s.leases.entries).length :=
    Reader.mul_length_le_concat fun e _ => by
      rw [writeLease, List.length_append]
      simp only [List.length_append, e.1.2]
      omega
  have hmax : MAX_COMPACT_SIZE = 33554432 := rfl
  rw [encodedState, stateBytes] at hsize
  simp only [List.length_append] at hsize
  refine deserializeCybouState_iff.mpr ⟨h, ⟨?_, ?_⟩, _, _, List.Perm.refl _, List.Perm.refl _, rfl⟩
  · rw [OrdMap.size]
    omega
  · rw [OrdMap.size]
    omega

def finalizedBytes (fb : FinalizedBlock) : Bytes := (serializeFinalizedBlock fb).getD []

theorem computeOperationId_ne_none {op : ProtocolOperation}
    (h : serializeProtocolOperation op ≠ none) : ∃ id, computeOperationId op = some id := by
  obtain ⟨b, hb⟩ := Option.ne_none_iff_exists'.mp h
  obtain ⟨body, -, heq⟩ := Option.bind_eq_some_iff.mp hb
  cases heq
  exact ⟨_, by rw [computeOperationId, hb, Option.bind_eq_bind, Option.bind_some,
    computeOperationIdOfBytes, if_neg (by simp)]⟩

/-- What the checks of `CommitFinalizedBlock` say about a block. -/
structure Certified (g : VerifiedNetworkGenesis) (fb : FinalizedBlock) : Prop where
  blockId : fb.certificate.blockId = computeBlockId fb.block
  height : fb.certificate.height = fb.block.height
  parent : fb.certificate.parentBlockId = fb.block.parentBlockId
  verified : verifyPoaCertificateForBlock fb.certificate g.poaKey g.networkBinding fb.block = true

variable {g : VerifiedNetworkGenesis} {fb : FinalizedBlock}

theorem certificateMatches_iff :
    certificateMatches g fb = true ↔
      fb.certificate.networkBinding = g.networkBinding ∧ Certified g fb := by
  simp only [certificateMatches, Bool.and_eq_true, decide_eq_true_eq]
  constructor
  · rintro ⟨⟨⟨⟨hnetwork, hid⟩, hheight⟩, hparent⟩, hverified⟩
    exact ⟨hnetwork, hid, hheight, hparent, hverified⟩
  · rintro ⟨hnetwork, hid, hheight, hparent, hverified⟩
    exact ⟨⟨⟨⟨hnetwork, hid⟩, hheight⟩, hparent⟩, hverified⟩

theorem verifyPoaFinalityCertificate_valid {certificate : PoaFinalityCertificate}
    {key : IdentityHybridPublicKey} {network id parent : Hash256} {height : UInt64}
    (h : verifyPoaFinalityCertificate certificate key network id height parent = true) :
    certificate.validFields = true ∧ certificate.networkBinding = network := by
  unfold verifyPoaFinalityCertificate at h
  split at h
  · cases h
  · next hguard =>
    push Not at hguard
    exact ⟨by simpa using hguard.1, hguard.2.2.2.2.2.1⟩

namespace Certified

variable {g : VerifiedNetworkGenesis} {fb : FinalizedBlock}

theorem facts (h : Certified g fb) :
    serializeBlock fb.block ≠ none ∧ (computeBlockId fb.block).isNull = false ∧
      verifyPoaFinalityCertificate fb.certificate g.poaKey g.networkBinding (computeBlockId fb.block)
        fb.block.height fb.block.parentBlockId = true := by
  have hverified := h.verified
  unfold verifyPoaCertificateForBlock at hverified
  split at hverified
  · cases hverified
  next hblock =>
  split at hverified
  · cases hverified
  next hid => exact ⟨hblock, by simpa using hid, hverified⟩

theorem network (h : Certified g fb) : fb.certificate.networkBinding = g.networkBinding :=
  (verifyPoaFinalityCertificate_valid h.facts.2.2).2

theorem matches_eq (h : Certified g fb) : certificateMatches g fb = true :=
  certificateMatches_iff.mpr ⟨h.network, h⟩

theorem certificate (h : Certified g fb) :
    ∃ encoded, serializePoaFinalityCertificate fb.certificate = some encoded := by
  rw [serializePoaFinalityCertificate, if_neg]
  · exact ⟨_, rfl⟩
  · simp [(verifyPoaFinalityCertificate_valid h.facts.2.2).1]

theorem serialize (h : Certified g fb) : serializeFinalizedBlock fb = some (finalizedBytes fb) := by
  obtain ⟨block, hblock⟩ := Option.ne_none_iff_exists'.mp h.facts.1
  obtain ⟨encoded, hencoded⟩ := h.certificate
  have hsome : serializeFinalizedBlock fb = some (framed block ++ framed encoded) :=
    serializeFinalizedBlock_eq_some.mpr ⟨block, encoded, hblock, hencoded, rfl⟩
  rw [finalizedBytes, hsome]
  rfl

theorem operationIds (h : Certified g fb) :
    ∀ op ∈ fb.block.operations, ∃ id, computeOperationId op = some id := by
  obtain ⟨block, hblock⟩ := Option.ne_none_iff_exists'.mp h.facts.1
  exact fun op hop => computeOperationId_ne_none ((serializeBlock_eq_some.mp hblock).1 op hop)

end Certified

/-! ### Reading records back -/

omit [Crypto] in
theorem decodeFinalizedHead_encodeFinalizedHead (head : FinalizedHead) :
    decodeFinalizedHead (encodeFinalizedHead head) = some head := by
  have hid : (encodeLocalHash head.blockId).length = 32 := head.blockId.2
  have hheight : (encodeLocalUnsigned 8 head.height.toNat).length = 8 := length_leBytes ..
  have hdecodedId := decodeLocalHash_encodeLocalHash head.blockId []
  have hdecodedHeight := @decodeLocalUnsigned_encodeLocalUnsigned 8 _ head.height.toNat_lt []
  rw [List.append_nil] at hdecodedId hdecodedHeight
  rw [decodeFinalizedHead, encodeFinalizedHead, if_neg (by rw [List.length_append, hid, hheight]; omega),
    List.take_left' hid, List.drop_left' hid, hdecodedId, hdecodedHeight]
  simp

variable {db : NodeDb} {head : FinalizedHead}

omit [Crypto] in
theorem getFinalizedHead_encodeFinalizedHead
    (h : db .head = some (encodeFinalizedHead head)) : getFinalizedHead db = some head := by
  rw [getFinalizedHead, h, Option.bind_some, decodeFinalizedHead_encodeFinalizedHead]

omit [Crypto] in
theorem length_le_framed (b : Bytes) : 4 ≤ (framed b).length := by
  rw [framed, List.length_append, length_le32Of]
  omega

theorem Certified.length_block (h : Certified g fb) :
    ∃ block, serializeBlock fb.block = some block ∧ block.length ≤ (finalizedBytes fb).length := by
  obtain ⟨block, cert, hblock, -, heq⟩ := serializeFinalizedBlock_eq_some.mp h.serialize
  refine ⟨block, hblock, ?_⟩
  rw [heq, framed]
  simp only [List.length_append]
  omega

theorem Certified.length_operations (h : Certified g fb) :
    fb.block.operations.length * 4 ≤ (finalizedBytes fb).length := by
  obtain ⟨block, hblock, hlen⟩ := h.length_block
  have hframes : fb.block.operations.length * 4 ≤
      (Reader.concat (fun op => framed (operationBytes op)) fb.block.operations).length :=
    Reader.mul_length_le_concat fun op _ => length_le_framed _
  rw [(serializeBlock_eq_some.mp hblock).2, blockBytes, List.length_append] at hlen
  omega

theorem deserialize_finalizedBytes
    (hcert : Certified g fb) (hops : ∀ op ∈ fb.block.operations, BindingsSized op)
    (hsize : (finalizedBytes fb).length ≤ MAX_COMPACT_SIZE) :
    deserializeFinalizedBlock (finalizedBytes fb) = some fb := by
  refine (deserialize_serializeFinalizedBlock hcert.serialize).mpr ?_
  obtain ⟨block, hblock, hlen⟩ := hcert.length_block
  have hframes := hcert.length_operations
  have hmax : MAX_COMPACT_SIZE = 33554432 := rfl
  refine ⟨⟨by omega, hops⟩, fun b hb => ?_⟩
  rw [hblock] at hb
  cases hb
  omega

/-! ### Events -/

def StoreKey.isEvent : StoreKey → Bool
  | .eventsHead | .eventsOperation _ | .eventsKem _ _ | .eventsPublication _ => true
  | _ => false

def StoreKey.isOperation : StoreKey → Bool
  | .operation _ => true
  | _ => false

theorem operationEvents_spec (block : CybouBlock) (erase : Bool) (i : Nat) {ops : List ProtocolOperation}
    (h : ∀ op ∈ ops, ∃ id, computeOperationId op = some id) :
    ∃ edits, operationEvents block erase i ops = some edits ∧ ∀ e ∈ edits, e.key.isEvent = true := by
  induction ops generalizing i with
  | nil => exact ⟨[], rfl, by simp⟩
  | cons op rest ih =>
    rw [List.forall_mem_cons] at h
    obtain ⟨⟨id, hid⟩, hrest⟩ := h
    obtain ⟨edits, hedits, hkeys⟩ := ih (i + 1) hrest
    refine ⟨_, by rw [operationEvents, hid, Option.bind_eq_bind, Option.bind_some, hedits]; rfl, ?_⟩
    have hedit : ∀ key : StoreKey, key.isEvent = true → ∀ value : Bytes,
        (if erase then Edit.erase key else Edit.put key value : Edit StoreKey Bytes).key.isEvent =
          true := by
      intro key hkey value
      cases erase <;> exact hkey
    intro e he
    rw [List.cons_append, List.mem_cons, List.mem_append] at he
    obtain rfl | he | he := he
    · exact hedit _ rfl _
    · cases op with
      | accountCreate op =>
        rw [kemKey, Option.map_some, Option.toList_some, List.mem_singleton] at he
        exact he ▸ hedit _ rfl _
      | identityRotate op =>
        rw [kemKey, Option.map_some, Option.toList_some, List.mem_singleton] at he
        exact he ▸ hedit _ rfl _
      | _ => cases he
    · exact hkeys e he

variable {block : CybouBlock}

theorem writeEvents_spec (erase : Bool) (h : ∀ op ∈ block.operations, ∃ id, computeOperationId op = some id) :
    ∃ edits, writeEvents block erase = some edits ∧ ∀ e ∈ edits, e.key.isEvent = true := by
  obtain ⟨edits, hedits, hkeys⟩ := operationEvents_spec block erase 0 h
  refine ⟨_, by rw [writeEvents, hedits]; rfl, ?_⟩
  intro e he
  rw [List.mem_append, List.mem_singleton] at he
  obtain he | rfl := he
  · exact hkeys e he
  · split <;> rfl

theorem appendFinalizedEvents_spec (db : NodeDb) (previous : FinalizedHead)
    {replaced : Option CybouBlock} (h : ∀ op ∈ block.operations, ∃ id, computeOperationId op = some id)
    (hreplaced : ∀ old ∈ replaced, ∀ op ∈ old.operations, ∃ id, computeOperationId op = some id) :
    ∃ events, appendFinalizedEvents db block previous replaced = some events ∧
      ∀ e ∈ events, e.key.isEvent = true := by
  obtain ⟨written, hwritten, hkeys⟩ := writeEvents_spec false h
  have herased : ∃ erased, eraseReplaced replaced = some erased ∧ ∀ e ∈ erased, e.key.isEvent = true := by
    cases replaced with
    | none => exact ⟨[], rfl, by simp⟩
    | some old => exact writeEvents_spec true (hreplaced old rfl)
  obtain ⟨erased, herased, hkeys'⟩ := herased
  refine ⟨_, by
    rw [appendFinalizedEvents, herased, Option.bind_eq_bind, Option.bind_some, hwritten]; rfl, ?_⟩
  intro e he
  rw [List.mem_append, List.mem_append] at he
  obtain (he | he) | he := he
  · exact hkeys' e he
  · exact hkeys e he
  · split at he
    · rw [List.mem_singleton] at he
      exact he ▸ rfl
    · cases he

/-! ### Plans -/

theorem executing_eq_write {parent : CybouState}
    {next : CybouState → Hash256 → Plan} {batch : Batch} {state : CybouState} :
    executing g parent block next = .write batch state ↔
      ∃ s root, Executes g parent block s root ∧ next s root = .write batch state := by
  unfold executing
  constructor
  · intro h
    split at h
    · cases h
    next execution hrun =>
    split at h
    · split at h <;> cases h
    next hok =>
    split at h
    · next s root hstate hroot =>
      exact ⟨s, root, ⟨execution, hrun, eq_true_of_ne_false hok, hstate, hroot⟩, h⟩
    · cases h
  · rintro ⟨s, root, ⟨execution, hrun, hok, hstate, hroot⟩, h⟩
    simp only [hrun, hok, hstate, hroot, Bool.true_eq_false, if_false]
    exact h

def extensionEdits (g : VerifiedNetworkGenesis) (loaded state : CybouState) (block : CybouBlock) : Batch :=
  if block.operations = [] ∧ expiresName g loaded block.height = false then
    [.put (.stateHeight block.height) (encodeLocalBytes (encodedState state))]
  else stateEdits block.height (stateRoot state) (encodedState state)

def windowEdits (block : CybouBlock) : Batch :=
  if block.height > 16 then [.erase (.stateHeight (block.height - 16))] else []

def eventsOf (db : NodeDb) (block : CybouBlock) (previous : FinalizedHead)
    (replaced : Option CybouBlock) : Batch :=
  (appendFinalizedEvents db block previous replaced).getD []

def extensionBatch (g : VerifiedNetworkGenesis) (db : NodeDb) (loaded state : CybouState)
    (head : FinalizedHead) (fb : FinalizedBlock) : Batch :=
  extensionEdits g loaded state fb.block ++ blockEdits fb.block (finalizedBytes fb) ++
    indexOperations fb.block ++ windowEdits fb.block ++ eventsOf db fb.block head none

def replacementBatch (db : NodeDb) (state : CybouState) (head : FinalizedHead) (old : CybouBlock)
    (fb : FinalizedBlock) : Batch :=
  eraseOperations old ++ stateEdits fb.block.height (stateRoot state) (encodedState state) ++
    blockEdits fb.block (finalizedBytes fb) ++ indexOperations fb.block ++
    eventsOf db fb.block head (some old)

theorem finishExtension_eq (hcert : Certified g fb) (edits : Batch) (state : CybouState) :
    finishExtension db head fb edits state = .write (edits ++ blockEdits fb.block (finalizedBytes fb) ++
      indexOperations fb.block ++ windowEdits fb.block ++ eventsOf db fb.block head none) state := by
  have hids : ¬(fb.block.operations.any fun op => (computeOperationId op).isNone) = true := by
    rw [Bool.not_eq_true, List.any_eq_false]
    intro op hop
    obtain ⟨id, hid⟩ := hcert.operationIds op hop
    simp [hid]
  obtain ⟨events, hevents, -⟩ := appendFinalizedEvents_spec db head hcert.operationIds
    (fun old (hold : old ∈ none) => absurd hold (by simp))
  simp only [finishExtension, hcert.serialize, if_neg hids, hevents, eventsOf, Option.getD_some,
    windowEdits]

/-- **When the next block is written**: it follows the head and executes to the
    root it names. -/
theorem planExtension_write {g : VerifiedNetworkGenesis} {db : NodeDb} {loaded state : CybouState}
    {head : FinalizedHead} {fb : FinalizedBlock} {batch : Batch} (hloaded : StateInvariant loaded)
    (hread : readHash db .hash = some (stateRoot loaded)) (hcert : Certified g fb) :
    planExtension g db loaded head fb = .write batch state ↔
      head.blockId = fb.block.parentBlockId ∧ head.height ≠ UINT64_MAX ∧
        fb.block.height = head.height + 1 ∧
        Executes g loaded fb.block state fb.block.resultingStateRoot ∧
        batch = extensionBatch g db loaded state head fb := by
  unfold planExtension
  by_cases hparent : head.blockId = fb.block.parentBlockId
  swap
  · simp [hparent, refusal]
  by_cases hheight : head.height = UINT64_MAX ∨ fb.block.height ≠ head.height + 1
  · rw [if_neg (not_not.mpr hparent), if_pos hheight]
    simp only [refusal, reduceCtorEq, false_iff]
    tauto
  rw [if_neg (not_not.mpr hparent), if_neg hheight]
  push Not at hheight
  rw [and_iff_right hparent, and_iff_right hheight.1, and_iff_right hheight.2]
  by_cases hnoop : fb.block.operations = [] ∧ expiresName g loaded fb.block.height = false
  · have hexec := executes_empty (g := g) hloaded hnoop.1 hnoop.2
      (cybouStateHash_of_invariant hloaded false)
    simp only [if_pos hnoop, hread, serializeCybouState_eq_encodedState hloaded]
    by_cases hroot : stateRoot loaded = fb.block.resultingStateRoot
    · rw [if_neg (not_not.mpr hroot), finishExtension_eq hcert]
      rw [hroot] at hexec
      constructor
      · intro h
        cases h
        exact ⟨hexec, by rw [extensionBatch, extensionEdits, if_pos hnoop]⟩
      · rintro ⟨hexec', rfl⟩
        obtain ⟨rfl, -⟩ := hexec.unique hexec'
        rw [extensionBatch, extensionEdits, if_pos hnoop]
    · rw [if_pos hroot]
      simp only [refusal, reduceCtorEq, false_iff, not_and]
      intro hexec'
      exact absurd (hexec.unique hexec').2 hroot
  · simp only [if_neg hnoop, executing_eq_write]
    constructor
    · rintro ⟨s, root, hexec, h⟩
      obtain ⟨hinvariant, hhash'⟩ := hexec.result
      split at h
      · cases h
      next hroot =>
      rw [not_not] at hroot
      rw [serializeCybouState_eq_encodedState hinvariant] at h
      dsimp only at h
      rw [finishExtension_eq hcert] at h
      cases h
      refine ⟨hroot ▸ hexec, ?_⟩
      rw [cybouStateHash_of_invariant hinvariant] at hhash'
      rw [extensionBatch, extensionEdits, if_neg hnoop, Option.some.inj hhash']
    · rintro ⟨hexec, rfl⟩
      refine ⟨state, _, hexec, ?_⟩
      obtain ⟨hinvariant, hhash'⟩ := hexec.result
      rw [cybouStateHash_of_invariant hinvariant] at hhash'
      rw [if_neg (not_not.mpr rfl), serializeCybouState_eq_encodedState hinvariant]
      dsimp only
      rw [finishExtension_eq hcert, extensionBatch, extensionEdits, if_neg hnoop, Option.some.inj hhash']

/-- **When a competitor is written**: the tip and the parent state are readable,
    and it executes on the parent state to the root it names. -/
theorem planReplacement_write {state : CybouState} {batch : Batch} (hcert : Certified g fb)
    (hold : head.height = fb.block.height → ∀ old, getBlockAtHeight db fb.block.height = some old →
      ∀ op ∈ old.block.operations, ∃ id, computeOperationId op = some id) :
    planReplacement g db head fb = .write batch state ↔
      head.height = fb.block.height ∧ ∃ old parentBytes parent,
        getBlockAtHeight db fb.block.height = some old ∧
        old.block.parentBlockId = fb.block.parentBlockId ∧
        readBytes db (.stateHeight (fb.block.height - 1)) = some parentBytes ∧
        deserializeCybouState parentBytes = some parent ∧
        Executes g parent fb.block state fb.block.resultingStateRoot ∧
        batch = replacementBatch db state head old.block fb := by
  unfold planReplacement
  by_cases hheight : head.height = fb.block.height
  swap
  · simp [hheight, refusal]
  rw [if_neg (not_not.mpr hheight), and_iff_right hheight]
  cases hget : getBlockAtHeight db fb.block.height with
  | none => simp [refusal]
  | some old =>
    by_cases hparent : old.block.parentBlockId = fb.block.parentBlockId
    swap
    · simp [hparent, refusal]
    dsimp only
    rw [if_neg (not_not.mpr hparent)]
    cases hread : readBytes db (.stateHeight (fb.block.height - 1)) with
    | none => simp [refusal]
    | some parentBytes =>
      dsimp only
      cases hdecode : deserializeCybouState parentBytes with
      | none => simp [hdecode, refusal]
      | some parent =>
        obtain ⟨events, hevents, -⟩ := appendFinalizedEvents_spec db head hcert.operationIds
          (fun o (ho : o ∈ some old.block) => by cases ho; exact hold hheight old hget)
        simp only [executing_eq_write]
        have hbatch : replacementBatch db state head old.block fb =
            eraseOperations old.block ++ stateEdits fb.block.height (stateRoot state) (encodedState state) ++
              blockEdits fb.block (finalizedBytes fb) ++ indexOperations fb.block ++ events := by
          rw [replacementBatch, eventsOf, hevents]
          rfl
        constructor
        · rintro ⟨s, root, hexec, h⟩
          obtain ⟨hinvariant, hhash⟩ := hexec.result
          rw [cybouStateHash_of_invariant hinvariant] at hhash
          split at h
          · cases h
          next hroot =>
          rw [not_not] at hroot
          simp only [serializeCybouState_eq_encodedState hinvariant, hcert.serialize, hevents] at h
          cases h
          refine ⟨old, parentBytes, parent, rfl, hparent, rfl, hdecode, hroot ▸ hexec, ?_⟩
          rw [hbatch, Option.some.inj hhash]
        · rintro ⟨_, _, parent', heq, -, heq', hdecode', hexec, rfl⟩
          cases heq
          cases heq'
          rw [hdecode] at hdecode'
          cases hdecode'
          obtain ⟨hinvariant, hhash⟩ := hexec.result
          rw [cybouStateHash_of_invariant hinvariant] at hhash
          refine ⟨state, _, hexec, ?_⟩
          rw [if_neg (not_not.mpr rfl)]
          simp only [serializeCybouState_eq_encodedState hinvariant, hcert.serialize, hevents]
          rw [hbatch, Option.some.inj hhash]

/-! ### The store behind a batch -/

def blockOperationIds (block : CybouBlock) : List Hash256 := block.operations.filterMap computeOperationId

/-- What a commit leaves in the store: `dropped` are the operations of the block it
    replaces, `window` is the snapshot that falls out of the window. -/
structure Committed (db db' : NodeDb) (fb : FinalizedBlock) (s : CybouState)
    (dropped : List Hash256) (window : Option UInt64) : Prop where
  state : db' .state = some (encodeLocalBytes (encodedState s))
  hash : db' .hash = some (encodeLocalHash (stateRoot s))
  head : db' .head = some (encodeFinalizedHead ⟨computeBlockId fb.block, fb.block.height⟩)
  networkId : db' .networkId = db .networkId
  block : ∀ id, db' (.block id) = if id = computeBlockId fb.block then
    some (encodeLocalBytes (finalizedBytes fb)) else db (.block id)
  blockHeight : ∀ height, db' (.blockHeight height) = if height = fb.block.height then
    some (encodeLocalHash (computeBlockId fb.block)) else db (.blockHeight height)
  operation : ∀ id, db' (.operation id) = if id ∈ blockOperationIds fb.block then
    some (encodeLocalHash (computeBlockId fb.block))
    else if id ∈ dropped then none else db (.operation id)
  stateHeight : ∀ height, db' (.stateHeight height) = if some height = window then none
    else if height = fb.block.height then some (encodeLocalBytes (encodedState s))
    else db (.stateHeight height)
  observed : ∀ height parent, db' (.observed height parent) = db (.observed height parent)
  detectorHalt : db' .detectorHalt = db .detectorHalt
  detectorMetadata : db' .detectorMetadata = db .detectorMetadata

omit [Crypto] in
theorem operation_injective : Function.Injective StoreKey.operation := fun _ _ h => by cases h; rfl

variable {key : StoreKey}

omit [Crypto] in
theorem apply_events {s : NodeDb} {events : Batch} (h : ∀ e ∈ events, e.key.isEvent = true)
    (hkey : key.isEvent = false) : s.apply events key = s key := by
  refine Store.apply_of_forall_ne fun e he heq => ?_
  have hevent := h e he
  rw [heq, hkey] at hevent
  cases hevent

theorem apply_indexOperations (s : NodeDb) (block : CybouBlock) (id : Hash256) :
    s.apply (indexOperations block) (.operation id) = if id ∈ blockOperationIds block then
      some (encodeLocalHash (computeBlockId block)) else s (.operation id) :=
  Store.apply_map (fun id => .put (StoreKey.operation id) (encodeLocalHash (computeBlockId block)))
    operation_injective (fun _ => rfl) (fun _ => rfl) s _ id

theorem apply_eraseOperations (s : NodeDb) (block : CybouBlock) (id : Hash256) :
    s.apply (eraseOperations block) (.operation id) =
      if id ∈ blockOperationIds block then none else s (.operation id) :=
  Store.apply_map (fun id => .erase (StoreKey.operation id)) operation_injective (fun _ => rfl)
    (fun _ => rfl) s _ id

theorem apply_indexOperations_of_ne (s : NodeDb) (block : CybouBlock)
    (h : key.isOperation = false) : s.apply (indexOperations block) key = s key := by
  refine Store.apply_of_forall_ne fun e he heq => ?_
  obtain ⟨id, -, rfl⟩ := List.mem_map.mp he
  rw [← heq] at h
  cases h

theorem apply_eraseOperations_of_ne (s : NodeDb) (block : CybouBlock)
    (h : key.isOperation = false) : s.apply (eraseOperations block) key = s key := by
  refine Store.apply_of_forall_ne fun e he heq => ?_
  obtain ⟨id, -, rfl⟩ := List.mem_map.mp he
  rw [← heq] at h
  cases h

/-- The keys that are neither events nor operations, after a commit. -/
def committedValue (db : NodeDb) (fb : FinalizedBlock) (s : CybouState) (window : Option UInt64)
    (key : StoreKey) : Option Bytes :=
  if window.map .stateHeight = some key then none
  else if key = .blockHeight fb.block.height then some (encodeLocalHash (computeBlockId fb.block))
  else if key = .block (computeBlockId fb.block) then some (encodeLocalBytes (finalizedBytes fb))
  else if key = .head then some (encodeFinalizedHead ⟨computeBlockId fb.block, fb.block.height⟩)
  else if key = .stateHeight fb.block.height then some (encodeLocalBytes (encodedState s))
  else if key = .hash then some (encodeLocalHash (stateRoot s))
  else if key = .state then some (encodeLocalBytes (encodedState s)) else db key

theorem Committed.of_value {db' : NodeDb} {dropped : List Hash256} {window : Option UInt64}
    (hvalue : ∀ key : StoreKey, key.isEvent = false → key.isOperation = false →
      db' key = committedValue db fb s window key)
    (hoperation : ∀ id, db' (.operation id) = if id ∈ blockOperationIds fb.block then
      some (encodeLocalHash (computeBlockId fb.block))
      else if id ∈ dropped then none else db (.operation id)) :
    Committed db db' fb s dropped window where
  state := by simp [hvalue .state rfl rfl, committedValue]
  hash := by simp [hvalue .hash rfl rfl, committedValue]
  head := by simp [hvalue .head rfl rfl, committedValue]
  networkId := by simp [hvalue .networkId rfl rfl, committedValue]
  block id := by simp [hvalue (.block id) rfl rfl, committedValue]
  blockHeight height := by simp [hvalue (.blockHeight height) rfl rfl, committedValue]
  operation := hoperation
  stateHeight height := by
    simp [hvalue (.stateHeight height) rfl rfl, committedValue, eq_comm (b := some height)]
  observed height parent := by simp [hvalue (.observed height parent) rfl rfl, committedValue]
  detectorHalt := by simp [hvalue .detectorHalt rfl rfl, committedValue]
  detectorMetadata := by simp [hvalue .detectorMetadata rfl rfl, committedValue]

omit [Crypto] in
theorem apply_operation_of_ne (s : NodeDb) {edits : Batch} (h : ∀ e ∈ edits, e.key.isOperation = false)
    (id : Hash256) : s.apply edits (.operation id) = s (.operation id) := by
  refine Store.apply_of_forall_ne fun e he heq => ?_
  have hother := h e he
  rw [heq] at hother
  cases hother

theorem eventsOf_keys (db : NodeDb) (previous : FinalizedHead)
    {replaced : Option CybouBlock} (h : ∀ op ∈ block.operations, ∃ id, computeOperationId op = some id)
    (hreplaced : ∀ old ∈ replaced, ∀ op ∈ old.operations, ∃ id, computeOperationId op = some id) :
    ∀ e ∈ eventsOf db block previous replaced, e.key.isEvent = true := by
  obtain ⟨events, hevents, hkeys⟩ := appendFinalizedEvents_spec db previous h hreplaced
  rw [eventsOf, hevents]
  exact hkeys

theorem committed_replacement {g : VerifiedNetworkGenesis} {db : NodeDb} {state : CybouState}
    {head : FinalizedHead} {fb : FinalizedBlock} {old : CybouBlock} (hcert : Certified g fb)
    (hold : ∀ op ∈ old.operations, ∃ id, computeOperationId op = some id) :
    Committed db (db.apply (replacementBatch db state head old fb)) fb state (blockOperationIds old) none := by
  have hevents := eventsOf_keys db head hcert.operationIds
    (fun o (ho : o ∈ some old) => by cases ho; exact hold)
  refine Committed.of_value ?_ ?_
  · intro key hevent hoperation
    rw [replacementBatch, Store.apply_append, apply_events hevents hevent, Store.apply_append,
      apply_indexOperations_of_ne _ _ hoperation, List.append_assoc, Store.apply_append,
      Store.apply_congr (apply_eraseOperations_of_ne _ _ hoperation)]
    simp [stateEdits, blockEdits, Function.update_apply, Edit.key, Edit.value, committedValue]
  · intro id
    have hedits : ∀ e ∈ stateEdits fb.block.height (stateRoot state) (encodedState state) ++
        blockEdits fb.block (finalizedBytes fb), e.key.isOperation = false := by
      simp [stateEdits, blockEdits, Edit.key, StoreKey.isOperation]
    rw [replacementBatch, Store.apply_append, apply_events hevents rfl, Store.apply_append,
      apply_indexOperations, List.append_assoc, Store.apply_append, apply_operation_of_ne _ hedits,
      apply_eraseOperations]

/-- What the batch of an extension leaves. -/
theorem committed_extension {g : VerifiedNetworkGenesis} {db : NodeDb} {loaded state : CybouState}
    {head : FinalizedHead} {fb : FinalizedBlock} (hcert : Certified g fb)
    (hstate : db .state = some (encodeLocalBytes (encodedState loaded)))
    (hhash : db .hash = some (encodeLocalHash (stateRoot loaded)))
    (hnoop : fb.block.operations = [] ∧ expiresName g loaded fb.block.height = false → state = loaded) :
    Committed db (db.apply (extensionBatch g db loaded state head fb)) fb state []
      (if fb.block.height > 16 then some (fb.block.height - 16) else none) := by
  have hevents := eventsOf_keys db head hcert.operationIds
    (fun old (hold : old ∈ none) => absurd hold (by simp))
  refine Committed.of_value ?_ ?_
  · intro key hevent hoperation
    have hwindow : ∀ s : NodeDb, s.apply (windowEdits fb.block) key =
        if (if fb.block.height > 16 then some (fb.block.height - 16) else none).map
          StoreKey.stateHeight = some key then none else s key := by
      intro s
      unfold windowEdits
      split <;> simp [Function.update_apply, Edit.key, Edit.value, eq_comm]
    rw [extensionBatch, Store.apply_append, apply_events hevents hevent, Store.apply_append, hwindow,
      Store.apply_append, apply_indexOperations_of_ne _ _ hoperation, committedValue]
    congr 1
    unfold extensionEdits
    by_cases hempty : fb.block.operations = [] ∧ expiresName g loaded fb.block.height = false
    · rw [if_pos hempty]
      simp only [blockEdits, List.cons_append, List.nil_append, Store.apply_cons, Store.apply_nil,
        Function.update_apply, Edit.key, Edit.value]
      cases hnoop hempty
      by_cases hkey : key = .hash
      · simp [hkey, hhash]
      by_cases hkey' : key = .state
      · simp [hkey', hstate]
      rw [if_neg hkey, if_neg hkey']
    · rw [if_neg hempty]
      simp only [stateEdits, blockEdits, List.cons_append, List.nil_append, Store.apply_cons,
        Store.apply_nil, Function.update_apply, Edit.key, Edit.value]
  · intro id
    have hedits : ∀ e ∈ extensionEdits g loaded state fb.block ++ blockEdits fb.block (finalizedBytes fb),
        e.key.isOperation = false := by
      unfold extensionEdits
      split <;> simp [stateEdits, blockEdits, Edit.key, StoreKey.isOperation]
    have hwindow : ∀ e ∈ windowEdits fb.block, e.key.isOperation = false := by
      unfold windowEdits
      split <;> simp [Edit.key, StoreKey.isOperation]
    rw [extensionBatch, Store.apply_append, apply_events hevents rfl, Store.apply_append,
      apply_operation_of_ne _ hwindow, Store.apply_append, apply_indexOperations,
      apply_operation_of_ne _ hedits]
    simp

end

end Cybou
