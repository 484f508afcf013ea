import Cybou.TipReplacement

/-! # Records that can be read back (`kv_store.h`)

Every kind of value that the node stores comes back as it was written, except a
byte vector or a string above 32 MiB (`LocalValue.decode_encode`).  The largest
vector is the state, which has no such limit, so a node can accept a block and
then fail to start from it (`local_records`).
-/

namespace Cybou

open Library

/-! ### The record codecs -/

inductive LocalValue where
  | bytes (value : Bytes)
  | text (value : Bytes)
  | unsigned (width : Nat) (value : Fin (256 ^ width))
  | hash (value : Hash256)
  | head (value : FinalizedHead)
deriving DecidableEq

inductive LocalKind where
  | bytes
  | text
  | unsigned (width : Nat)
  | hash
  | head
deriving DecidableEq

namespace LocalValue

def kind : LocalValue → LocalKind
  | bytes _ => .bytes
  | text _ => .text
  | unsigned width _ => .unsigned width
  | hash _ => .hash
  | head _ => .head

/-- `SerializeLocalRecord`. -/
def encode : LocalValue → Bytes
  | bytes value | text value => encodeLocalBytes value
  | unsigned width value => encodeLocalUnsigned width value
  | hash value => encodeLocalHash value
  | head value => encodeFinalizedHead value

/-- `DeserializeLocalRecord`. -/
def decode : LocalKind → Bytes → Option LocalValue
  | .bytes, b => (decodeLocalBytes b).map bytes
  | .text, b => (decodeLocalBytes b).map text
  | .unsigned width, b =>
    (decodeLocalUnsigned width b).bind fun value =>
      if h : value < 256 ^ width then some (unsigned width ⟨value, h⟩) else none
  | .hash, b => (decodeLocalHash b).map hash
  | .head, b => (decodeFinalizedHead b).map head

/-- Vectors and strings up to the limit of `ReadCompactSize`, and every other value. -/
def Fits : LocalValue → Prop
  | bytes value | text value => value.length ≤ MAX_COMPACT_SIZE
  | unsigned _ _ | hash _ | head _ => True

theorem decode_encode (value : LocalValue) :
    decode value.kind value.encode = some value ↔ value.Fits := by
  cases value with
  | bytes value =>
    rw [kind, encode, decode, decodeLocalBytes_encodeLocalBytes, Fits]
    split <;> simp_all
  | text value =>
    rw [kind, encode, decode, decodeLocalBytes_encodeLocalBytes, Fits]
    split <;> simp_all
  | unsigned width value =>
    have hdecode := decodeLocalUnsigned_encodeLocalUnsigned value.2 []
    rw [List.append_nil] at hdecode
    simp [kind, encode, decode, Fits, hdecode]
  | hash value =>
    have hdecode := decodeLocalHash_encodeLocalHash value []
    rw [List.append_nil] at hdecode
    simp [kind, encode, decode, Fits, hdecode]
  | head value => simp [kind, encode, decode, Fits, decodeFinalizedHead_encodeFinalizedHead]

def read {K : Type} (db : Store K Bytes) (key : K) (kind : LocalKind) : Option LocalValue :=
  (db key).bind (decode kind)

theorem read_write {K : Type} [DecidableEq K] (db : Store K Bytes) (key : K) (value : LocalValue) :
    read (db.write [.put key value.encode] .done) key value.kind = some value ↔ value.Fits := by
  have hrecord : db.write [.put key value.encode] .done key = some value.encode := by
    simp [Store.write, Edit.key, Edit.value]
  rw [read, hrecord, Option.bind_some]
  exact decode_encode value

end LocalValue

/-! ### The record of the state -/

section

variable [Crypto] {g : VerifiedNetworkGenesis}

/-- **A stored value is read back if and only if it fits**, the state of every node
    among them. -/
theorem local_records {genesis : CybouState} {delivered : List FinalizedBlock} {node : Node}
    (hrun : Run g genesis delivered node) (hids : IdsDistinct delivered) :
    (∀ (K : Type) [DecidableEq K] (db : Store K Bytes) (key : K) (value : LocalValue),
      LocalValue.read (db.write [.put key value.encode] .done) key value.kind = some value ↔ value.Fits) ∧
    ∃ chain head s, Consistent g genesis chain head s node.db ∧
      ∀ fate db restarted, openNode g node.db fate = (db, some restarted) →
        (loadStateLocked g restarted.db = .ok s ↔ (encodedState s).length ≤ MAX_COMPACT_SIZE) := by
  obtain ⟨hgenesis, chain, head, s, -, hnode⟩ := hrun.consistent hids
  refine ⟨fun K _ db key value => LocalValue.read_write db key value, chain, head, s, hnode.store,
    fun fate db restarted hopen => ?_⟩
  have hstore := hnode.store.sameChain (openNode_spec hopen).1
  rw [hstore.loadStateLocked hgenesis]
  split <;> simp_all

end

section Sample

attribute [local instance] Crypto.sample

def crowdId (n : Nat) : Hash256 := ⟨leBytes 32 (n + 1), length_leBytes ..⟩

def crowd : Nat → OrdMap Hash256 PublicationRecord
  | 0 => ∅
  | n + 1 => (crowd n).set (crowdId n)
      { owner := sampleId 1, chunkAuthorizationRoot := sampleId 9, chunkCount := 1, height := 4 }

theorem crowdId_injective {i n : Nat} (hi : i < 2 ^ 64) (hn : n < 2 ^ 64) (h : crowdId i = crowdId n) : i = n := by
  have hbytes := congrArg (leNat ·.1) h
  dsimp only [crowdId] at hbytes
  rw [leNat_leBytes (by omega), leNat_leBytes (by omega)] at hbytes
  omega

theorem crowdId_ne_null {n : Nat} (hn : n < 2 ^ 64) : (crowdId n).isNull = false := by
  rw [Bool.eq_false_iff, ne_eq, Hash256.isNull_iff]
  intro hnull
  have hbytes := congrArg (leNat ·.1) hnull
  have hzero : leNat Hash256.ZERO.1 = 0 := by decide
  dsimp only [crowdId] at hbytes
  rw [leNat_leBytes (by omega), hzero] at hbytes
  omega

theorem find?_crowd {n : Nat} {id : Hash256} {p : PublicationRecord} (h : (crowd n).find? id = some p) :
    (∃ i < n, id = crowdId i) ∧ p.chunkCount = 1 ∧ p.owner = sampleId 1 := by
  induction n with
  | zero => cases h
  | succ n ih =>
    rw [crowd, OrdMap.find?_set] at h
    split at h
    · next heq =>
      cases h
      exact ⟨⟨n, by omega, heq⟩, rfl, rfl⟩
    · obtain ⟨⟨i, hi, hid⟩, hp⟩ := ih h
      exact ⟨⟨i, by omega, hid⟩, hp⟩

theorem size_crowd {n : Nat} (hn : n < 2 ^ 64) : (crowd n).size = n := by
  induction n with
  | zero => rfl
  | succ n ih =>
    have hnone : (crowd n).find? (crowdId n) = none := by
      by_contra hsome
      obtain ⟨p, hp⟩ := Option.ne_none_iff_exists'.mp hsome
      obtain ⟨⟨i, hi, hid⟩, -⟩ := find?_crowd hp
      have heq := crowdId_injective (by omega) (by omega) hid
      omega
    rw [crowd, OrdMap.size_set_of_none hnone, ih (by omega)]

/-- The sample state with many publications instead of its lease. -/
def crowdedState (n : Nat) : CybouState :=
  { sampleState with publications := crowd n, leases := ∅ }

theorem invariant_crowdedState {n : Nat} (hn : n < 2 ^ 64) : StateInvariant (crowdedState n) := by
  have h := validateCybouState_eq_none.mp validateCybouState_sampleState
  have howner : sampleState.hasAccount (sampleId 1) = true := by decide
  exact
    { h with
      total := by
        have htotal : exactTotal (crowdedState n) ≤ exactTotal sampleState := Nat.le_add_right _ _
        exact htotal.trans_lt h.total
      publication := by
        intro id p hp
        obtain ⟨⟨i, hi, rfl⟩, hcount, hp⟩ := find?_crowd hp
        exact ⟨crowdId_ne_null (hi.trans hn), by simp [hcount], by rw [hp]; exact howner⟩
      lease := fun _ _ hl => by cases hl
      fundingIds := List.nodup_nil
      assignmentOperationIds := List.nodup_nil }

theorem length_encodedState_crowdedState {n : Nat} (hn : n < 2 ^ 64) :
    n * 32 ≤ (encodedState (crowdedState n)).length := by
  have hlength : (crowd n).entries.length * 32 ≤
      (Reader.concat writePublication (crowd n).entries).length :=
    Reader.mul_length_le_concat fun e _ => by
      rw [writePublication]
      simp only [List.length_append, e.1.2]
      omega
  have hsize : (crowd n).entries.length = n := size_crowd hn
  rw [hsize] at hlength
  refine hlength.trans ?_
  rw [encodedState, stateBytes]
  simp only [List.length_append]
  have hpublications : (crowdedState n).publications = crowd n := rfl
  rw [hpublications]
  omega

theorem expiresName_crowdedState (n : Nat) :
    expiresName (sampleNetwork (crowdedState n)) (crowdedState n) 1 = false := by
  have hexpires : expiresName (sampleNetwork sampleState) sampleState 1 = false := by decide
  simp only [expiresName, sampleNetwork, crowdedState] at hexpires ⊢
  exact hexpires

/-- A node that accepts a block and cannot read its state after a restart. -/
theorem local_records_crowdedState :
    ∃ g genesis fb node db restarted, Run g genesis [] node ∧ IdsDistinct [fb] ∧
      (commitFinalizedBlock g node fb {}).outcome = .returned {} ∧
      openNode g (commitFinalizedBlock g node fb {}).node.db .done = (db, some restarted) ∧
      loadStateLocked g restarted.db = .error .corrupt := by
  have hn : 1048577 < 2 ^ 64 := by decide
  generalize hcrowded : crowdedState 1048577 = genesis
  have hgenesis : StateInvariant genesis := hcrowded ▸ invariant_crowdedState hn
  have hexpires : expiresName (sampleNetwork genesis) genesis 1 = false :=
    hcrowded ▸ expiresName_crowdedState 1048577
  have hlength : MAX_COMPACT_SIZE < (encodedState genesis).length := by
    have hmax : MAX_COMPACT_SIZE = 33554432 := rfl
    have hle := length_encodedState_crowdedState hn
    rw [hcrowded] at hle
    omega
  have hcomp := competitor_empty hgenesis hexpires
  obtain ⟨node, hrun, hlive, hobserved, hhalt, id, hkey, hmetadata⟩ := live_sampleNetwork hgenesis
  generalize hblock : certifiedBlock (firstBlock [] (stateRoot genesis)) = fb at hcomp
  have hids : IdsDistinct [fb] := by
    refine ⟨fun a ha b hb _ => ?_, ?_⟩
    · rw [List.mem_singleton.mp ha, List.mem_singleton.mp hb]
    · rw [← hblock]
      exact fun a ha => absurd ha (by simp [certifiedBlock, firstBlock])
  obtain ⟨-, batch, state, hw⟩ := hlive.writes_first hgenesis hcomp (.inl (hobserved _ _))
  obtain ⟨s, hlive', -⟩ := hlive.deliver_first hgenesis hids hcomp (.inl (hobserved _ _))
  have hdetector : ∀ key : StoreKey, key.isDetector = true →
      .observed fb.block.height fb.block.parentBlockId ≠ key →
      (deliver (sampleNetwork genesis) node fb).db key = node.db key := fun key =>
    hlive.deliver_first_detector hgenesis hids hcomp.certified hcomp.fresh (hobserved _ _)
  have hcanonical := canonical_empty hgenesis hexpires
  rw [hblock] at hcanonical
  obtain ⟨-, rfl⟩ := hlive'.consistent.store.canonical.unique hcanonical
  have hmetadata' : (deliver (sampleNetwork s) node fb).db .detectorMetadata =
      some (encodeLocalBytes ((sampleId 200).1 ++ id.1)) :=
    (hdetector _ rfl (by simp)).trans hmetadata
  have hload : loadDetector (sampleNetwork s) (deliver (sampleNetwork s) node fb).db = some false :=
    loadDetector_of_none ((hdetector _ rfl (by simp)).trans hhalt)
  have hkey' : computePoaFinalizerKeyId (sampleNetwork s).poaKey = some id := hkey
  have hnetwork : (sampleNetwork s).networkBinding.isNull = false :=
    show (sampleId 200).isNull = false by decide
  refine ⟨_, _, fb, node, _, _, hrun, hids, ?_, openNode_of_load hkey' hnetwork hmetadata' hload .done, ?_⟩
  · rw [commitFinalizedBlock_of_reaches hw.reaches, hw.status, hw.plan]
    rfl
  · dsimp only
    rw [hlive'.consistent.store.loadStateLocked hgenesis, if_neg hlength.not_ge]

/-- A node that has taken a block. -/
theorem local_records_clockBlock :
    ∃ start, Run (sampleNetwork idleState) idleState [] start ∧
      (commitFinalizedBlock (sampleNetwork idleState) start clockBlock {}).outcome = .returned {} ∧
      ∃ chain head s, Consistent (sampleNetwork idleState) idleState chain head s
          (commitFinalizedBlock (sampleNetwork idleState) start clockBlock {}).node.db ∧
        ∀ fate db restarted, openNode (sampleNetwork idleState)
            (commitFinalizedBlock (sampleNetwork idleState) start clockBlock {}).node.db fate = (db, some restarted) →
          (loadStateLocked (sampleNetwork idleState) restarted.db = .ok s ↔
            (encodedState s).length ≤ MAX_COMPACT_SIZE) := by
  obtain ⟨node, hrun, hlive, hobserved, -⟩ := live_sampleNetwork invariant_idleState
  have hids : IdsDistinct [clockBlock] := ids_clockBlock.mono (List.subset_cons_self _ _)
  have hdelivered := Run.deliver clockBlock {} hrun (by decide)
  obtain ⟨-, batch, state, hw⟩ := hlive.writes_first invariant_idleState competitor_clockBlock (.inl (hobserved _ _))
  refine ⟨node, hrun, ?_, (local_records hdelivered hids).2⟩
  rw [commitFinalizedBlock_of_reaches hw.reaches, hw.status, hw.plan]
  rfl

end Sample

end Cybou
