import Cybou.StoreSpecs

/-! # What the conflict detector remembers (`poa_conflict_detector.cpp`)

For each height and parent the detector keeps one certificate, and an
observation replaces it only by one of a smaller block id (`observe_effect`).
It writes under keys of its own, so the chain is not touched
(`observe_sameChain`).
-/

namespace Cybou

open Library

/-! ### The detector's part of the store -/

def StoreKey.isDetector : StoreKey → Bool
  | .observed _ _ | .detectorMetadata | .detectorHalt => true
  | _ => false

/-- The stores agree outside the detector. -/
def SameChain (db db' : NodeDb) : Prop := ∀ key : StoreKey, key.isDetector = false → db' key = db key

namespace SameChain

theorem refl (db : NodeDb) : SameChain db db := fun _ _ => rfl

end SameChain

variable {db : NodeDb} {batch : Batch}

theorem write_of_forall_ne {key : StoreKey} (h : ∀ e ∈ batch, e.key ≠ key)
    (fate : Fate) : db.write batch fate key = db key := by
  cases fate with
  | done | stored => exact Store.apply_of_forall_ne h
  | lost => rfl

theorem SameChain.write {db' : NodeDb} (h : SameChain db db')
    (hbatch : ∀ e ∈ batch, e.key.isDetector = true) (fate : Fate) :
    SameChain db (db'.write batch fate) := by
  intro key hkey
  rw [← h key hkey]
  refine write_of_forall_ne (fun e he heq => ?_) fate
  have hdetector := hbatch e he
  rw [heq, hkey] at hdetector
  cases hdetector

section

variable [Crypto] {g : VerifiedNetworkGenesis}

variable {db' : NodeDb}

theorem Committed.detector {db : NodeDb} {fb : FinalizedBlock} {s : CybouState} {dropped : List Hash256}
    {window : Option UInt64} (h : Committed db db' fb s dropped window) (key : StoreKey)
    (hkey : key.isDetector = true) : db' key = db key := by
  cases key with
  | observed height parent => exact h.observed height parent
  | detectorHalt => exact h.detectorHalt
  | detectorMetadata => exact h.detectorMetadata
  | _ => cases hkey

/-- The detector does not touch the chain. -/
theorem observe_sameChain (halted : Bool) (db : NodeDb) (certificate : PoaFinalityCertificate)
    (block : CybouBlock) (fates : CommitFates) :
    SameChain db (observe g halted db certificate block fates).db := by
  have hhalt : ∀ (db' : NodeDb) (value : Bytes) (fate : Fate), SameChain db db' →
      SameChain db (db'.write [.put .detectorHalt value] fate) := fun db' value fate h =>
    h.write (by simp [Edit.key, StoreKey.isDetector]) fate
  have hobserved : ∀ (db' : NodeDb) (height : UInt64) (parent : Hash256) (value : Bytes) (fate : Fate),
      SameChain db db' → SameChain db (db'.write [.put (.observed height parent) value] fate) :=
    fun db' height parent value fate h => h.write (by simp [Edit.key, StoreKey.isDetector]) fate
  have hrefl := SameChain.refl db
  unfold observe
  split
  · exact hrefl
  split
  · exact hrefl
  split
  · exact hrefl
  dsimp only
  split
  · split
    · exact hhalt db _ _ hrefl
    · split
      · exact hobserved db _ _ _ _ hrefl
      · exact hobserved db _ _ _ _ hrefl
  · unfold observeAgain persistHalt
    split
    · exact hhalt db _ _ hrefl
    split
    · exact hhalt db _ _ hrefl
    split
    · exact hrefl
    split
    · exact hhalt db _ _ hrefl
    split
    · split
      · exact hobserved _ _ _ _ _ (hhalt db _ _ hrefl)
      · exact hobserved _ _ _ _ _ (hhalt db _ _ hrefl)
    · exact hhalt db _ _ hrefl

/-! ### Kept certificates -/

structure Kept (g : VerifiedNetworkGenesis) (height : UInt64) (parent : Hash256)
    (certificate : PoaFinalityCertificate) : Prop where
  network : certificate.networkBinding = g.networkBinding
  height : certificate.height = height
  parent : certificate.parentBlockId = parent
  verified : verifyPoaFinalityCertificate certificate g.poaKey g.networkBinding certificate.blockId
    certificate.height certificate.parentBlockId = true

def certificateBytes (certificate : PoaFinalityCertificate) : Bytes :=
  (serializePoaFinalityCertificate certificate).getD []

structure Observes (g : VerifiedNetworkGenesis) (db : NodeDb) (height : UInt64) (parent : Hash256)
    (certificate : PoaFinalityCertificate) : Prop where
  kept : Kept g height parent certificate
  record : db (.observed height parent) = some (encodeLocalBytes (certificateBytes certificate))

namespace Kept

variable {height : UInt64} {parent : Hash256} {certificate : PoaFinalityCertificate}

theorem serialize (h : Kept g height parent certificate) :
    serializePoaFinalityCertificate certificate = some (certificateBytes certificate) := by
  have hvalid := (verifyPoaFinalityCertificate_valid h.verified).1
  have hsome : serializePoaFinalityCertificate certificate ≠ none := by
    rw [serializePoaFinalityCertificate, if_neg (by simp [hvalid])]
    exact Option.some_ne_none _
  obtain ⟨b, hb⟩ := Option.ne_none_iff_exists'.mp hsome
  rw [certificateBytes, hb]
  rfl

theorem deserialize (h : Kept g height parent certificate) :
    deserializePoaFinalityCertificate (certificateBytes certificate) = some certificate :=
  (poaFinalityCertificate_inverse _ _).mpr h.serialize

theorem length (h : Kept g height parent certificate) :
    (certificateBytes certificate).length = POA_FINALITY_CERTIFICATE_SIZE :=
  Reader.length_of_sized h.deserialize

theorem length_le (h : Kept g height parent certificate) :
    (certificateBytes certificate).length ≤ MAX_COMPACT_SIZE := by
  have hmax : POA_FINALITY_CERTIFICATE_SIZE ≤ MAX_COMPACT_SIZE := by decide
  rw [h.length]
  exact hmax

end Kept

theorem Certified.kept {fb : FinalizedBlock} (h : Certified g fb) :
    Kept g fb.block.height fb.block.parentBlockId fb.certificate where
  network := h.network
  height := h.height
  parent := h.parent
  verified := by
    rw [h.blockId, h.height, h.parent]
    exact h.facts.2.2

namespace Observes

variable {db : NodeDb} {height : UInt64} {parent : Hash256} {certificate : PoaFinalityCertificate}

theorem read (h : Observes g db height parent certificate) :
    readBytes db (.observed height parent) = some (certificateBytes certificate) :=
  readBytes_of_small h.record h.kept.length_le

theorem unique {certificate' : PoaFinalityCertificate} (h : Observes g db height parent certificate)
    (h' : Observes g db height parent certificate') : certificate = certificate' := by
  have hbytes := h.read
  rw [h'.read] at hbytes
  have hsame := h.kept.deserialize
  rw [← Option.some.inj hbytes, h'.kept.deserialize] at hsame
  exact (Option.some.inj hsame).symm

end Observes

/-! ### Observations of a certified block -/

variable {db : NodeDb} {fb : FinalizedBlock}

theorem observe_certified (hcert : Certified g fb) (db : NodeDb) (fates : CommitFates) :
    observe g false db fb.certificate fb.block fates =
      match readBytes db (.observed fb.block.height fb.block.parentBlockId) with
      | none =>
        if (db (.observed fb.block.height fb.block.parentBlockId)).isSome then persistHalt db fates.halt
        else
          let db := db.write [.put (.observed fb.block.height fb.block.parentBlockId)
            (encodeLocalBytes (certificateBytes fb.certificate))] fates.observation
          if fates.observation = .done then ⟨.observed, false, db⟩ else ⟨.storageError, true, db⟩
      | some previousBytes =>
        observeAgain g db fb.certificate (certificateBytes fb.certificate) previousBytes fates := by
  rw [← hcert.height, ← hcert.parent]
  unfold observe
  rw [hcert.kept.serialize]
  dsimp only
  rw [if_neg (by simp [hcert.verified])]
  exact if_neg (by simp)

theorem observe_first (hcert : Certified g fb) (fates : CommitFates)
    (hnone : db (.observed fb.block.height fb.block.parentBlockId) = none) :
    observe g false db fb.certificate fb.block fates =
      { status := if fates.observation = .done then .observed else .storageError
        halted := decide (fates.observation ≠ .done)
        db := db.write [.put (.observed fb.block.height fb.block.parentBlockId)
          (encodeLocalBytes (certificateBytes fb.certificate))] fates.observation } := by
  rw [observe_certified hcert, readBytes, hnone]
  dsimp only [Option.bind_none]
  rw [if_neg (by simp)]
  split
  · next hdone => simp [hdone]
  · next hdone => simp [hdone]

variable {first second certificate : PoaFinalityCertificate}

theorem observe_again (hcert : Certified g fb)
    (h : Observes g db fb.block.height fb.block.parentBlockId certificate) (fates : CommitFates) :
    observe g false db fb.certificate fb.block fates =
      if certificate.blockId = computeBlockId fb.block then ⟨.alreadyObserved, false, db⟩
      else
        let db := db.write [.put .detectorHalt (encodeLocalBytes
          (equivocationRecord (certificateBytes certificate) (certificateBytes fb.certificate)))] fates.halt
        if fates.halt ≠ .done then ⟨.storageError, true, db⟩
        else if computeBlockId fb.block < certificate.blockId then
          let db := db.write [.put (.observed fb.block.height fb.block.parentBlockId)
            (encodeLocalBytes (certificateBytes fb.certificate))] fates.observation
          if fates.observation = .done then ⟨.canonicalReorgRequired, false, db⟩
          else ⟨.storageError, true, db⟩
        else ⟨.competingNonCanonical, false, db⟩ := by
  have hvalid : observationValid g certificate fb.certificate = true := by
    simp [observationValid, h.kept.network, h.kept.height, h.kept.parent, hcert.height, hcert.parent]
    have hverified := h.kept.verified
    rw [h.kept.height, h.kept.parent] at hverified
    exact hverified
  rw [observe_certified hcert, h.read]
  dsimp only
  unfold observeAgain
  rw [h.kept.deserialize]
  dsimp only
  rw [if_neg (by simp [hvalid]), hcert.blockId, hcert.height, hcert.parent]

/-- Every observation on record is a certificate for its key. -/
def RecordsKept (g : VerifiedNetworkGenesis) (db : NodeDb) : Prop :=
  ∀ height parent, db (.observed height parent) = none ∨ ∃ c, Observes g db height parent c

variable {height : UInt64} {parent : Hash256}

theorem Observes.of_eq (h : Observes g db height parent certificate)
    (heq : db' (.observed height parent) = db (.observed height parent)) :
    Observes g db' height parent certificate := ⟨h.kept, heq.trans h.record⟩

theorem Certified.observes_write (hcert : Certified g fb) {fate : Fate} (hfate : fate ≠ .lost) :
    Observes g (db.write [.put (.observed fb.block.height fb.block.parentBlockId)
      (encodeLocalBytes (certificateBytes fb.certificate))] fate)
      fb.block.height fb.block.parentBlockId fb.certificate := by
  refine ⟨hcert.kept, ?_⟩
  cases fate with
  | lost => exact absurd rfl hfate
  | done | stored => simp [Store.write, Edit.key, Edit.value]

/-- What an observation may change: the certificate of its own height and parent,
    where there was none or one of a larger block id. -/
structure ObservationEffect (g : VerifiedNetworkGenesis) (fb : FinalizedBlock) (db db' : NodeDb) : Prop where
  other : ∀ height parent, ¬(height = fb.block.height ∧ parent = fb.block.parentBlockId) →
    db' (.observed height parent) = db (.observed height parent)
  own : db' (.observed fb.block.height fb.block.parentBlockId) =
      db (.observed fb.block.height fb.block.parentBlockId) ∨
    Observes g db' fb.block.height fb.block.parentBlockId fb.certificate ∧
      ∀ c, Observes g db fb.block.height fb.block.parentBlockId c → computeBlockId fb.block < c.blockId

theorem ObservationEffect.refl (fb : FinalizedBlock) (db : NodeDb) : ObservationEffect g fb db db :=
  ⟨fun _ _ _ => rfl, .inl rfl⟩

theorem ObservationEffect.put {db₀ : NodeDb} (hcert : Certified g fb)
    (hobserved : ∀ height parent, db (.observed height parent) = db₀ (.observed height parent))
    (hsmaller : ∀ c, Observes g db₀ fb.block.height fb.block.parentBlockId c →
      computeBlockId fb.block < c.blockId) (fate : Fate) :
    ObservationEffect g fb db₀ (db.write [.put (.observed fb.block.height fb.block.parentBlockId)
      (encodeLocalBytes (certificateBytes fb.certificate))] fate) where
  other height parent hne := by
    rw [write_of_forall_ne _ fate, hobserved]
    intro e he heq
    rw [List.mem_singleton.mp he] at heq
    cases heq
    exact hne ⟨rfl, rfl⟩
  own := by
    by_cases hfate : fate = .lost
    · subst hfate
      exact .inl (hobserved _ _)
    · exact .inr ⟨hcert.observes_write hfate, hsmaller⟩

/-- **What an observation does**, whatever becomes of its writes. -/
theorem observe_effect (hcert : Certified g fb) (hrecords : RecordsKept g db) (fates : CommitFates) :
    ObservationEffect g fb db (observe g false db fb.certificate fb.block fates).db := by
  obtain hnone | ⟨c, hc⟩ := hrecords fb.block.height fb.block.parentBlockId
  · rw [observe_first hcert fates hnone]
    refine .put hcert (fun _ _ => rfl) (fun c hc => ?_) _
    have hrecord := hc.record
    rw [hnone] at hrecord
    cases hrecord
  · have hhalt : ∀ (value : Bytes) (fate : Fate) (height : UInt64) (parent : Hash256),
        db.write [.put .detectorHalt value] fate (.observed height parent) =
          db (.observed height parent) := fun value fate height parent =>
      write_of_forall_ne (by simp [Edit.key]) fate
    have hevidence : ∀ (value : Bytes) (fate : Fate),
        ObservationEffect g fb db (db.write [.put .detectorHalt value] fate) := fun value fate =>
      ⟨fun height parent _ => hhalt value fate height parent, .inl (hhalt value fate _ _)⟩
    rw [observe_again hcert hc]
    dsimp only
    split
    · exact .refl fb db
    split
    · exact hevidence _ _
    split
    · next hsmaller =>
      split
      · exact .put hcert (hhalt _ fates.halt) (fun c' hc' => hc.unique hc' ▸ hsmaller) fates.observation
      · exact .put hcert (hhalt _ fates.halt) (fun c' hc' => hc.unique hc' ▸ hsmaller) fates.observation
    · exact hevidence _ _

/-- A block that passes the detector is the one observed. -/
theorem observe_passed (hcert : Certified g fb) (hrecords : RecordsKept g db) {fates : CommitFates}
    (h : observationFailure (observe g false db fb.certificate fb.block fates).status = none) :
    (observe g false db fb.certificate fb.block fates).halted = false ∧
      ∃ c, Observes g (observe g false db fb.certificate fb.block fates).db fb.block.height
        fb.block.parentBlockId c ∧ c.blockId = computeBlockId fb.block := by
  obtain hnone | ⟨c, hc⟩ := hrecords fb.block.height fb.block.parentBlockId
  · rw [observe_first hcert fates hnone] at h ⊢
    dsimp only at h ⊢
    split at h
    swap
    · cases h
    next hdone =>
    refine ⟨by simp [hdone], fb.certificate, hcert.observes_write (by simp [hdone]), hcert.blockId⟩
  · rw [observe_again hcert hc] at h ⊢
    dsimp only at h ⊢
    split
    · next heq => exact ⟨rfl, c, hc, heq⟩
    next hne =>
    rw [if_neg hne] at h
    split
    · next hhalt =>
      rw [if_pos hhalt] at h
      cases h
    next hhalt =>
    rw [if_neg hhalt] at h
    split
    · next hsmaller =>
      rw [if_pos hsmaller] at h
      split
      · next hdone =>
        exact ⟨rfl, fb.certificate, hcert.observes_write (by simp [hdone]), hcert.blockId⟩
      · next hdone =>
        rw [if_neg hdone] at h
        cases h
    · next hsmaller =>
      rw [if_neg hsmaller] at h
      cases h

theorem ObservationEffect.recordsKept (h : ObservationEffect g fb db db')
    (hrecords : RecordsKept g db) : RecordsKept g db' := by
  intro height parent
  by_cases hkey : height = fb.block.height ∧ parent = fb.block.parentBlockId
  · obtain ⟨rfl, rfl⟩ := hkey
    obtain heq | ⟨hown, -⟩ := h.own
    · rw [heq]
      obtain hnone | ⟨c, hc⟩ := hrecords fb.block.height fb.block.parentBlockId
      · exact .inl hnone
      · exact .inr ⟨c, hc.of_eq heq⟩
    · exact .inr ⟨_, hown⟩
  · have heq := h.other height parent hkey
    obtain hnone | ⟨c, hc⟩ := hrecords height parent
    · exact .inl (heq.trans hnone)
    · exact .inr ⟨c, hc.of_eq heq⟩

theorem ObservationEffect.smaller (h : ObservationEffect g fb db db') (hcert : Certified g fb)
    {c : PoaFinalityCertificate} (hc : Observes g db height parent c) :
    ∃ c', Observes g db' height parent c' ∧ c'.blockId ≤ c.blockId := by
  by_cases hkey : height = fb.block.height ∧ parent = fb.block.parentBlockId
  · obtain ⟨rfl, rfl⟩ := hkey
    obtain heq | ⟨hown, hsmaller⟩ := h.own
    · exact ⟨c, hc.of_eq heq, le_refl _⟩
    · refine ⟨fb.certificate, hown, ?_⟩
      rw [hcert.blockId]
      exact le_of_lt (hsmaller c hc)
  · exact ⟨c, hc.of_eq (h.other height parent hkey), le_refl _⟩

/-! ### Restarts -/

theorem validConflictRecord_equivocationRecord (hfirst : Kept g height parent first)
    (hsecond : Kept g height parent second) (hne : first.blockId ≠ second.blockId) :
    validConflictRecord g (equivocationRecord (certificateBytes first) (certificateBytes second)) = true := by
  have hlength : (equivocationRecord (certificateBytes first) (certificateBytes second)).length =
      1 + 2 * POA_FINALITY_CERTIFICATE_SIZE := by
    simp only [equivocationRecord, List.length_append, List.length_singleton, hfirst.length, hsecond.length]
    omega
  have htake : ((equivocationRecord (certificateBytes first) (certificateBytes second)).drop 1).take
      POA_FINALITY_CERTIFICATE_SIZE = certificateBytes first := by
    rw [equivocationRecord, List.append_assoc, List.drop_left' (List.length_singleton),
      List.take_left' hfirst.length]
  have hdrop : ((equivocationRecord (certificateBytes first) (certificateBytes second)).drop
      (1 + POA_FINALITY_CERTIFICATE_SIZE)).take POA_FINALITY_CERTIFICATE_SIZE = certificateBytes second := by
    rw [equivocationRecord, List.drop_left', ← hsecond.length, List.take_length]
    rw [List.length_append, List.length_singleton, hfirst.length]
  unfold validConflictRecord
  rw [if_neg, htake, hdrop, hfirst.deserialize, hsecond.deserialize]
  · dsimp only
    rw [hfirst.verified, hsecond.verified]
    simp [hfirst.network, hsecond.network, hfirst.height, hsecond.height, hfirst.parent, hsecond.parent, hne]
  · rintro (h | h)
    · exact h hlength
    · exact h rfl

theorem openNode_of_load {id : IdentityKeyId} {halted : Bool}
    (hkey : computePoaFinalizerKeyId g.poaKey = some id) (hnetwork : g.networkBinding.isNull = false)
    (hmetadata : db .detectorMetadata = some (encodeLocalBytes (g.networkBinding.1 ++ id.1)))
    (hload : loadDetector g db = some halted) (fate : Fate) :
    openNode g db fate = (db, some { db, halted }) := by
  have hmax : MAX_COMPACT_SIZE = 33554432 := rfl
  have hread := readBytes_of_small hmetadata (by
    rw [List.length_append, g.networkBinding.2, id.2]
    omega)
  rw [openNode, hkey]
  dsimp only
  rw [if_neg (by simp [hnetwork]), hread]
  dsimp only
  rw [if_neg (not_not.mpr rfl), hload]
  rfl

theorem loadDetector_of_none (h : db .detectorHalt = none) : loadDetector g db = some false := by
  rw [loadDetector, readBytes, h]
  rfl

theorem loadDetector_equivocation (hfirst : Kept g height parent first) (hsecond : Kept g height parent second)
    (hne : first.blockId ≠ second.blockId) (hhalt : db .detectorHalt = some (encodeLocalBytes
      (equivocationRecord (certificateBytes first) (certificateBytes second)))) :
    loadDetector g db = some false := by
  have hmax : MAX_COMPACT_SIZE = 33554432 ∧ POA_FINALITY_CERTIFICATE_SIZE = 3477 := ⟨rfl, rfl⟩
  have hread := readBytes_of_small hhalt (by
    simp only [equivocationRecord, List.length_append, List.length_singleton, hfirst.length, hsecond.length]
    omega)
  have hnot : equivocationRecord (certificateBytes first) (certificateBytes second) ≠ [HALT_CORRUPT_STORAGE] := by
    simp [equivocationRecord, HALT_EQUIVOCATION, HALT_CORRUPT_STORAGE]
  rw [loadDetector, hread]
  dsimp only
  rw [if_neg hnot, if_pos (validConflictRecord_equivocationRecord hfirst hsecond hne)]

/-! ### The tip under observation -/

/-- The detector's records are in order, and the one for the tip is of no larger
    block id. -/
structure Guarded (g : VerifiedNetworkGenesis) (chain : List FinalizedBlock) (db : NodeDb) : Prop where
  records : RecordsKept g db
  tip : ∀ tip rest, chain = tip :: rest → ∃ c,
    Observes g db tip.block.height tip.block.parentBlockId c ∧ c.blockId ≤ computeBlockId tip.block

namespace Guarded

variable {chain : List FinalizedBlock} {db' : NodeDb}

theorem effect (h : Guarded g chain db) (hcert : Certified g fb) (heffect : ObservationEffect g fb db db') :
    Guarded g chain db' where
  records := heffect.recordsKept h.records
  tip tip rest heq := by
    obtain ⟨c, hc, hle⟩ := h.tip tip rest heq
    obtain ⟨c', hc', hle'⟩ := heffect.smaller hcert hc
    exact ⟨c', hc', hle'.trans hle⟩

theorem congr (h : Guarded g chain db)
    (heq : ∀ height parent, db' (.observed height parent) = db (.observed height parent)) :
    Guarded g chain db' where
  records height parent := by
    obtain hnone | ⟨c, hc⟩ := h.records height parent
    · exact .inl ((heq _ _).trans hnone)
    · exact .inr ⟨c, hc.of_eq (heq _ _)⟩
  tip tip rest hchain := by
    obtain ⟨c, hc, hle⟩ := h.tip tip rest hchain
    exact ⟨c, hc.of_eq (heq _ _), hle⟩

end Guarded

end

end Cybou
