import Cybou.FrozenAssignments
import Cybou.ProductionRecovery

/-! # Runs of freezing and attesting

A record of a plan and a signature of one are written where there was nothing and stay for
good.  The key signs a plan only after its record is there, so that for one slot it never
signs two.
-/

namespace Cybou

open Library PrivateApplicationStore

section

variable [Crypto]

/-! ### Steps -/

structure AssignmentSlot where
  networkBinding : FixedBytes 32
  publication : FixedBytes 32
  chunk : FixedBytes 32
  epoch : UInt64
  termStart : UInt64
  termEnd : UInt64
deriving DecidableEq, Repr

omit [Crypto] in
def StorageAssignmentContext.slot (c : StorageAssignmentContext) : AssignmentSlot where
  networkBinding := c.networkBinding
  publication := c.publication
  chunk := c.chunk
  epoch := c.epoch
  termStart := c.termStart
  termEnd := c.termEnd

structure SignedPlan where
  plan : StorageAssignmentPlan
  digest : Hash256

/-- The database of a node and what its key has been asked to sign. -/
structure AssignmentNode where
  db : PrivateApplicationStore
  signed : List SignedPlan

def OwnedRow (name : Bytes) : Prop :=
  (∃ context, name = storageAssignmentKey context) ∨ ∃ commitment, name = attestationKey commitment

def AssignmentNode.attest (g : VerifiedNetworkGenesis) (node : AssignmentNode) (call : AttestCall) : AssignmentNode where
  db := (attestStorageAssignment g node.db call).db
  signed := ((attestStorageAssignment g node.db call).signed.map fun digest => ⟨call.plan, digest⟩).toList ++ node.signed

/-- One step of a node: a call, or anything else that leaves the owned rows alone, such as the
    other records, locking and unlocking.  Loading changes nothing. -/
inductive AssignmentStep (g : VerifiedNetworkGenesis) (node : AssignmentNode) : AssignmentNode → Prop where
  | freeze {plan : StorageAssignmentPlan} {fate : Fate} {answer : Bool} {db : PrivateApplicationStore}
    (h : freezeStorageAssignment node.db plan fate = some (answer, db)) : AssignmentStep g node { node with db }
  | attest (call : AttestCall) : AssignmentStep g node (node.attest g call)
  | other {db : PrivateApplicationStore} (h : ∀ name, OwnedRow name → db.rows name = node.db.rows name) :
    AssignmentStep g node { node with db }

abbrev AssignmentNodeRun (g : VerifiedNetworkGenesis) : AssignmentNode → AssignmentNode → Prop :=
  Relation.ReflTransGen (AssignmentStep g)

structure AssignmentNode.Fresh (node : AssignmentNode) : Prop where
  rows : ∀ name, OwnedRow name → node.db.rows name = none
  signed : node.signed = []

/-! ### What a batch adds -/

/-- No row that was there has changed. -/
def OwnedKept (db db' : PrivateApplicationStore) : Prop :=
  ∀ name row, OwnedRow name → db.rows name = some row → db'.rows name = some row

def RecordsSound (db : PrivateApplicationStore) : Prop :=
  ∀ context row, db.rows (storageAssignmentKey context) = some row →
    ∃ plan : StorageAssignmentPlan, plan.Canonical ∧ row = .value (encodeStorageAssignment plan)

theorem storageAssignmentKey_congr {c c' : StorageAssignmentContext} (h : c.slot = c'.slot) :
    storageAssignmentKey c = storageAssignmentKey c' := by
  unfold StorageAssignmentContext.slot at h
  obtain ⟨hnetwork, hpublication, hchunk, hepoch, hstart, hend⟩ := AssignmentSlot.mk.inj h
  unfold storageAssignmentKey
  rw [hnetwork, hpublication, hchunk, hepoch, hstart, hend]

theorem storageAssignmentKey_ne_attestationKey (context : StorageAssignmentContext) (commitment : FixedBytes 32) :
    storageAssignmentKey context ≠ attestationKey commitment := by
  intro h
  have hlength := congrArg List.length h
  have hassignment : (ascii "storage/assignment/").length = 19 := by decide
  have hattestation : (ascii "storage/assignment-attestation/").length = 31 := by decide
  rw [storageAssignmentKey, attestationKey, List.length_append, List.length_append, length_hex, length_hex,
    (Crypto.sha256 _).2, commitment.2, hassignment, hattestation] at hlength
  omega

theorem bindingKey_not_owned (commitment storage : FixedBytes 32) : ¬OwnedRow (attestationBindingKey commitment storage) := by
  have hassignment : (ascii "storage/assignment/").length = 19 := by decide
  have hattestation : (ascii "storage/assignment-attestation/").length = 31 := by decide
  have hbinding : (ascii "/binding/").length = 9 := by decide
  have hlength : (attestationBindingKey commitment storage).length = 31 + 64 + 9 + 64 := by
    rw [attestationBindingKey, attestationKey, List.length_append, List.length_append, List.length_append, length_hex,
      length_hex, commitment.2, storage.2, hattestation, hbinding]
  rintro (⟨context, h⟩ | ⟨commitment', h⟩)
  · rw [h, storageAssignmentKey, List.length_append, length_hex, (Crypto.sha256 _).2, hassignment] at hlength
    omega
  · rw [h, attestationKey, List.length_append, length_hex, commitment'.2, hattestation] at hlength
    omega

variable {g : VerifiedNetworkGenesis} {db db' : PrivateApplicationStore} {plan : StorageAssignmentPlan}
  {edits : List (Edit Bytes ApplicationRow)}

omit [Crypto] in
theorem absent_of_not_has {name : Bytes} (hunlocked : db.unlocked = true) (husable : usable name = true)
    (h : db.has name ≠ true) : db.rows name = none := by
  unfold PrivateApplicationStore.has at h
  rw [hunlocked, husable, Bool.true_and, Bool.true_and] at h
  exact Option.not_isSome_iff_eq_none.mp h

omit [Crypto] in
theorem unlocked_of_canPut {name bytes : Bytes} (h : db.canPut name bytes = true) :
    usable name = true ∧ db.unlocked = true := by
  unfold canPut at h
  rw [Bool.and_eq_true, Bool.and_eq_true] at h
  exact ⟨h.1.1, h.2⟩

theorem encodeStorageAssignment_injective {plan plan' : StorageAssignmentPlan} (h : plan.Canonical) (h' : plan'.Canonical)
    (heq : encodeStorageAssignment plan = encodeStorageAssignment plan') : plan = plan' := by
  have hread := @readFrozen_encode plan.context plan h.shape
  have hread' := @readFrozen_encode plan.context plan' h'.shape
  rw [if_pos rfl, heq, hread'] at hread
  split at hread
  next hcontext =>
    obtain ⟨heligible, -⟩ := Prod.mk.inj (Option.some.inj hread)
    unfold StorageAssignmentPlan.Canonical at h h'
    rw [hcontext, heligible, h] at h'
    exact AssignmentOutcome.plan.inj h'
  · cases hread

theorem OwnedKept.refl (db : PrivateApplicationStore) : OwnedKept db db := fun _ _ _ h => h

theorem OwnedKept.trans {db'' : PrivateApplicationStore} (h : OwnedKept db db') (h' : OwnedKept db' db'') : OwnedKept db db'' :=
  fun name row howned hrow => h' name row howned (h name row howned hrow)

theorem grows_of_edits (h : ∀ e ∈ edits, OwnedRow e.key → db.rows e.key = none) (fate : Fate) :
    OwnedKept db { db with rows := db.rows.write edits fate } := by
  intro name row howned hrow
  have happly : db.rows.apply edits name = some row := by
    rw [Store.apply_of_forall_ne fun e he heq => ?_, hrow]
    have hnone := h e he (heq ▸ howned)
    rw [heq, hrow] at hnone
    cases hnone
  cases fate with
  | done => exact happly
  | lost => exact hrow
  | stored => exact happly

omit [Crypto] in
theorem commitBatch_cases (db : PrivateApplicationStore) (edits : List (Edit Bytes ApplicationRow)) (fate : Fate) :
    commitBatch db edits fate = (false, db) ∨
      commitBatch db edits fate = (decide (fate = .done), { db with rows := db.rows.write edits fate }) := by
  unfold commitBatch
  split
  · exact .inl rfl
  · exact .inr rfl

/-- **What freezing stages**: nothing where the record is there, and the record where there is none. -/
theorem freezeEdits_spec (h : freezeEdits db plan = some (some edits)) : plan.Canonical ∧
    (edits = [] ∧ db.rows (storageAssignmentKey plan.context) = some (.value (encodeStorageAssignment plan)) ∨
      edits = [.put (storageAssignmentKey plan.context) (.value (encodeStorageAssignment plan))] ∧
        db.rows (storageAssignmentKey plan.context) = none) := by
  unfold freezeEdits at h
  obtain ⟨canonical, hcanonical, h⟩ := Option.map_eq_some_iff.mp h
  split at h
  · cases h
  next htrue =>
  rw [Bool.not_eq_false] at htrue
  subst htrue
  refine ⟨isCanonical_eq_true.mp hcanonical, ?_⟩
  dsimp only at h
  cases hget : db.get (storageAssignmentKey plan.context) with
  | some prior =>
    rw [hget] at h
    dsimp only at h
    split at h
    next hprior =>
      obtain rfl := Option.some.inj h
      exact .inl ⟨rfl, hprior ▸ row_of_get hget⟩
    · cases h
  | none =>
    rw [hget] at h
    dsimp only at h
    split at h
    · cases h
    next hput =>
    rw [not_or, Bool.not_eq_false] at hput
    obtain ⟨husable, hunlocked⟩ := unlocked_of_canPut hput.2
    obtain rfl := Option.some.inj h
    exact .inr ⟨rfl, absent_of_not_has hunlocked husable hput.1⟩

theorem RecordsSound.put (h : RecordsSound db) (hcanonical : plan.Canonical) : RecordsSound
    { db with rows := db.rows.apply [.put (storageAssignmentKey plan.context) (.value (encodeStorageAssignment plan))] } := by
  intro context row hrow
  by_cases hkey : storageAssignmentKey context = storageAssignmentKey plan.context
  · rw [hkey] at hrow
    have hself : db.rows.apply [.put (storageAssignmentKey plan.context) (.value (encodeStorageAssignment plan))]
        (storageAssignmentKey plan.context) = some (.value (encodeStorageAssignment plan)) := Function.update_self ..
    exact ⟨plan, hcanonical, Option.some.inj (hrow.symm.trans hself)⟩
  · exact h context row ((Function.update_of_ne hkey _ _).symm.trans hrow)

theorem freeze_commit (h : freezeEdits db plan = some (some edits)) (fate : Fate) :
    OwnedKept db (commitBatch db edits fate).2 ∧ (RecordsSound db → RecordsSound (commitBatch db edits fate).2) ∧
      ((commitBatch db edits fate).1 = true →
        (commitBatch db edits fate).2.rows (storageAssignmentKey plan.context) = some (.value (encodeStorageAssignment plan))) := by
  obtain ⟨hcanonical, hedits⟩ := freezeEdits_spec h
  rcases commitBatch_cases db edits fate with hcommit | hcommit
  · rw [hcommit]
    exact ⟨.refl db, id, fun hfalse => absurd hfalse Bool.false_ne_true⟩
  rw [hcommit]
  rcases hedits with ⟨rfl, hrow⟩ | ⟨rfl, hnone⟩
  · have hsame : db.rows.write [] fate = db.rows := by
      cases fate with
      | done => rfl
      | lost => rfl
      | stored => rfl
    rw [hsame]
    exact ⟨.refl db, id, fun _ => hrow⟩
  · refine ⟨grows_of_edits (fun e he _ => ?_) fate, fun hsound => ?_, fun hdone => ?_⟩
    · rw [List.mem_singleton.mp he]
      exact hnone
    · cases fate with
      | done => exact hsound.put hcanonical
      | lost => exact hsound
      | stored => exact hsound.put hcanonical
    · obtain rfl := of_decide_eq_true hdone
      exact Function.update_self ..

theorem attestationEdits_spec {commitment : FixedBytes 32} {signature : IdentityHybridSignature}
    {proofs : List StorageAssignmentBindingProof} (h : attestationEdits db commitment signature proofs = some edits)
    (hnone : db.has (attestationKey commitment) ≠ true) : ∀ e ∈ edits, OwnedRow e.key →
      e.key = attestationKey commitment ∧ db.rows e.key = none := by
  unfold attestationEdits at h
  dsimp only at h
  split at h
  swap
  · cases h
  next hput =>
  obtain rfl := Option.some.inj h
  rw [List.all_eq_true] at hput
  intro e he howned
  obtain ⟨row, hrow, rfl⟩ := List.mem_map.mp he
  rcases List.mem_append.mp hrow with hbinding | hsignature
  · obtain ⟨proof, -, rfl⟩ := List.mem_map.mp hbinding
    exact absurd howned (bindingKey_not_owned commitment proof.storageId)
  · obtain ⟨husable, hunlocked⟩ := unlocked_of_canPut (hput row hrow)
    rw [List.mem_singleton.mp hsignature] at husable ⊢
    exact ⟨rfl, absent_of_not_has hunlocked husable hnone⟩

theorem RecordsSound.write (h : RecordsSound db) (hedits : ∀ e ∈ edits, ∀ context, e.key ≠ storageAssignmentKey context)
    (fate : Fate) : RecordsSound { db with rows := db.rows.write edits fate } := by
  intro context row hrow
  have happly : db.rows.apply edits (storageAssignmentKey context) = db.rows (storageAssignmentKey context) :=
    Store.apply_of_forall_ne fun e he => hedits e he context
  cases fate with
  | done => exact h context row (happly.symm.trans hrow)
  | lost => exact h context row hrow
  | stored => exact h context row (happly.symm.trans hrow)

/-- An attestation keeps what is frozen and signs the frozen digest. -/
theorem attestFrozen_spec (db : PrivateApplicationStore) (call : AttestCall) (digest : Hash256) :
    OwnedKept db (attestFrozen g db call digest).db ∧ (RecordsSound db → RecordsSound (attestFrozen g db call digest).db) ∧
      ∀ d, (attestFrozen g db call digest).signed = some d → d = digest := by
  unfold attestFrozen
  split
  · exact ⟨.refl db, id, fun d hd => by cases hd⟩
  · split
    · exact ⟨.refl db, id, fun d hd => by cases hd⟩
    · exact ⟨.refl db, id, fun d hd => by cases hd⟩
    · exact ⟨.refl db, id, fun d hd => by cases hd⟩
  split
  · exact ⟨.refl db, id, fun d hd => by cases hd⟩
  next hhas =>
  split
  · exact ⟨.refl db, id, fun d hd => (Option.some.inj hd).symm⟩
  split
  · exact ⟨.refl db, id, fun d hd => (Option.some.inj hd).symm⟩
  · exact ⟨.refl db, id, fun d hd => (Option.some.inj hd).symm⟩
  split
  · exact ⟨.refl db, id, fun d hd => (Option.some.inj hd).symm⟩
  next edits hedits =>
  have hspec := attestationEdits_spec hedits hhas
  refine ⟨?_, fun hsound => ?_, fun d hd => (Option.some.inj hd).symm⟩
  · rcases commitBatch_cases db edits call.fate with hcommit | hcommit
    · rw [hcommit]
      exact .refl db
    · rw [hcommit]
      exact grows_of_edits (fun e he howned => (hspec e he howned).2) call.fate
  · rcases commitBatch_cases db edits call.fate with hcommit | hcommit
    · rw [hcommit]
      exact hsound
    · rw [hcommit]
      refine hsound.write (fun e he context heq => ?_) call.fate
      have hkey := (hspec e he (heq ▸ .inl ⟨context, rfl⟩)).1
      exact storageAssignmentKey_ne_attestationKey context call.plan.commitment (heq.symm.trans hkey)

/-- **What one call of `AttestStorageAssignment` does**: it signs a plan only where its record is. -/
theorem attestStorageAssignment_spec (db : PrivateApplicationStore) (call : AttestCall) :
    OwnedKept db (attestStorageAssignment g db call).db ∧
    (RecordsSound db → RecordsSound (attestStorageAssignment g db call).db) ∧
    ∀ digest, (attestStorageAssignment g db call).signed = some digest →
      call.plan.Canonical ∧ attestationDigest g call.plan = some (some digest) ∧
        (attestStorageAssignment g db call).db.rows (storageAssignmentKey call.plan.context) =
          some (.value (encodeStorageAssignment call.plan)) := by
  unfold attestStorageAssignment
  cases hdigest : attestationDigest g call.plan with
  | none => exact ⟨.refl db, id, fun d hd => by cases hd⟩
  | some found =>
    cases found with
    | none => exact ⟨.refl db, id, fun d hd => by cases hd⟩
    | some digest =>
      dsimp only
      split
      · exact ⟨.refl db, id, fun d hd => by cases hd⟩
      split
      · exact ⟨.refl db, id, fun d hd => by cases hd⟩
      · exact ⟨.refl db, id, fun d hd => by cases hd⟩
      cases hedits : freezeEdits db call.plan with
      | none => exact ⟨.refl db, id, fun d hd => by cases hd⟩
      | some staged =>
        cases staged with
        | none => exact ⟨.refl db, id, fun d hd => by cases hd⟩
        | some edits =>
          obtain ⟨hgrows, hrecords, hrow⟩ := freeze_commit hedits call.freezeFate
          obtain ⟨hcanonical, -⟩ := freezeEdits_spec hedits
          dsimp only
          split
          next hfrozen =>
            obtain ⟨hgrows', hrecords', hsigned⟩ := @attestFrozen_spec _ g (commitBatch db edits call.freezeFate).2 call digest
            refine ⟨hgrows.trans hgrows', fun hsound => hrecords' (hrecords hsound), fun d hd => ?_⟩
            obtain rfl := hsigned d hd
            exact ⟨hcanonical, rfl, hgrows' _ _ (.inl ⟨call.plan.context, rfl⟩) (hrow hfrozen)⟩
          · exact ⟨hgrows, hrecords, fun d hd => by cases hd⟩

/-! ### Runs -/

/-- **The invariant of a node**: records are of plans, and what was signed has a record. -/
structure AssignmentNode.Sound (g : VerifiedNetworkGenesis) (node : AssignmentNode) : Prop where
  records : RecordsSound node.db
  signed : ∀ e ∈ node.signed, e.plan.Canonical ∧ attestationDigest g e.plan = some (some e.digest) ∧
    node.db.rows (storageAssignmentKey e.plan.context) = some (.value (encodeStorageAssignment e.plan))

theorem AssignmentNode.Fresh.sound {node : AssignmentNode} (h : node.Fresh) : node.Sound g where
  records context row hrow := by
    rw [h.rows _ (.inl ⟨context, rfl⟩)] at hrow
    cases hrow
  signed e he := by
    rw [h.signed] at he
    cases he

theorem AssignmentNode.Sound.grow {node : AssignmentNode} (h : node.Sound g) (hgrows : OwnedKept node.db db)
    (hrecords : RecordsSound db) : AssignmentNode.Sound g { node with db } where
  records := hrecords
  signed e he := by
    obtain ⟨hcanonical, hdigest, hrow⟩ := h.signed e he
    exact ⟨hcanonical, hdigest, hgrows _ _ (.inl ⟨e.plan.context, rfl⟩) hrow⟩

theorem freezeStorageAssignment_spec {fate : Fate} {answer : Bool}
    (h : freezeStorageAssignment db plan fate = some (answer, db')) :
    OwnedKept db db' ∧ (RecordsSound db → RecordsSound db') := by
  unfold freezeStorageAssignment at h
  obtain ⟨staged, hstaged, h⟩ := Option.map_eq_some_iff.mp h
  split at h
  · obtain ⟨-, rfl⟩ := Prod.mk.inj h
    exact ⟨.refl db, id⟩
  · obtain ⟨-, rfl⟩ := Prod.mk.inj h
    exact ⟨.refl db, id⟩
  next edits _ =>
    obtain ⟨hgrows, hrecords, -⟩ := freeze_commit hstaged fate
    rw [h] at hgrows hrecords
    exact ⟨hgrows, hrecords⟩

theorem AssignmentNode.Sound.step {node next : AssignmentNode} (h : node.Sound g) (hstep : AssignmentStep g node next) :
    next.Sound g ∧ OwnedKept node.db next.db := by
  cases hstep with
  | freeze hfreeze =>
    obtain ⟨hgrows, hrecords⟩ := freezeStorageAssignment_spec hfreeze
    exact ⟨h.grow hgrows (hrecords h.records), hgrows⟩
  | attest call =>
    obtain ⟨hgrows, hrecords, hsigned⟩ := @attestStorageAssignment_spec _ g node.db call
    have hgrown := h.grow hgrows (hrecords h.records)
    refine ⟨⟨hgrown.records, fun e he => ?_⟩, hgrows⟩
    rcases List.mem_append.mp he with hnew | hold
    · obtain ⟨digest, hdigest, rfl⟩ := Option.map_eq_some_iff.mp (Option.mem_toList.mp hnew)
      exact hsigned digest hdigest
    · exact hgrown.signed e hold
  | other hrows =>
    have hgrows : ∀ name row, OwnedRow name → node.db.rows name = some row → _ = some row :=
      fun name row howned hrow => (hrows name howned).trans hrow
    refine ⟨h.grow hgrows fun context row hrow => ?_, hgrows⟩
    rw [hrows _ (.inl ⟨context, rfl⟩)] at hrow
    exact h.records context row hrow

theorem AssignmentNode.Sound.run {node last : AssignmentNode} (h : node.Sound g) (hrun : AssignmentNodeRun g node last) :
    last.Sound g ∧ OwnedKept node.db last.db := by
  induction hrun with
  | refl => exact ⟨h, .refl node.db⟩
  | tail _ hstep ih =>
    obtain ⟨hsound, hgrows⟩ := ih
    obtain ⟨hsound', hgrows'⟩ := hsound.step hstep
    exact ⟨hsound', hgrows.trans hgrows'⟩

/-! ### Digests -/

structure DigestsApart (plan plan' : StorageAssignmentPlan) : Prop where
  attestation : Crypto.sha256 (ascii "CYBOU/STORAGE-ASSIGNMENT-ATTESTATION" ++ plan.commitment.1) =
    Crypto.sha256 (ascii "CYBOU/STORAGE-ASSIGNMENT-ATTESTATION" ++ plan'.commitment.1) → plan.commitment = plan'.commitment
  commitment : Crypto.sha256 (ascii "CYBOU/STORAGE-ASSIGNMENT-COMMITMENT" ++ encodeStorageAssignment plan) =
    Crypto.sha256 (ascii "CYBOU/STORAGE-ASSIGNMENT-COMMITMENT" ++ encodeStorageAssignment plan') →
      encodeStorageAssignment plan = encodeStorageAssignment plan'

theorem StorageAssignmentPlan.Canonical.commitment_eq (h : plan.Canonical) :
    plan.commitment = Crypto.sha256 (ascii "CYBOU/STORAGE-ASSIGNMENT-COMMITMENT" ++ encodeStorageAssignment plan) := by
  obtain ⟨-, heligible, -, -⟩ := prepareStorageAssignment_fields h
  have hprepare := h
  unfold StorageAssignmentPlan.Canonical prepareStorageAssignment at hprepare
  split at hprepare
  · cases hprepare
  dsimp only at hprepare
  split at hprepare
  · cases hprepare
  split at hprepare
  · cases hprepare
  split at hprepare
  · cases hprepare
  split at hprepare
  · cases hprepare
  next selected hselected =>
  have hplan := AssignmentOutcome.plan.inj hprepare
  have hcommitment := congrArg StorageAssignmentPlan.commitment hplan
  have hselected' := congrArg StorageAssignmentPlan.selected hplan
  dsimp only at hcommitment hselected'
  rw [← hcommitment, encodeStorageAssignment, ← hselected']
  unfold sortUnique at heligible
  rw [← heligible]

theorem plan_of_digest {digest : Hash256} {plan' : StorageAssignmentPlan} (h : plan.Canonical)
    (hdigest : attestationDigest g plan = some (some digest)) (hdigest' : attestationDigest g plan' = some (some digest))
    (hapart : DigestsApart plan plan') : plan = plan' := by
  have hspec : ∀ {p : StorageAssignmentPlan}, attestationDigest g p = some (some digest) → p.Canonical ∧
      Crypto.sha256 (ascii "CYBOU/STORAGE-ASSIGNMENT-ATTESTATION" ++ p.commitment.1) = digest := by
    intro p hp
    unfold attestationDigest at hp
    split at hp
    · cases hp
    obtain ⟨canonical, hcanonical, hp⟩ := Option.map_eq_some_iff.mp hp
    split at hp
    · cases hp
    next htrue =>
    rw [Bool.not_eq_false] at htrue
    subst htrue
    exact ⟨isCanonical_eq_true.mp hcanonical, Option.some.inj hp⟩
  obtain ⟨-, heq⟩ := hspec hdigest
  obtain ⟨h', heq'⟩ := hspec hdigest'
  have hcommitment := hapart.attestation (heq.trans heq'.symm)
  rw [h.commitment_eq, h'.commitment_eq] at hcommitment
  exact encodeStorageAssignment_injective h h' (hapart.commitment hcommitment)

/-- **Frozen assignments.**  From a node that has frozen nothing, through any calls and failures:
    a record and a signature stay as they are, the key signs one plan of a slot at the most,
    loading returns the record of a context, and attestations come back as they were. -/
theorem frozen_assignments {start node last : AssignmentNode} (hfresh : start.Fresh) (hbefore : AssignmentNodeRun g start node)
    (hafter : AssignmentNodeRun g node last) :
    -- one plan is stored for a slot, now and later
    (∀ c c' row, c.slot = c'.slot → node.db.rows (storageAssignmentKey c) = some row →
      last.db.rows (storageAssignmentKey c') = some row ∧
        ∃ plan : StorageAssignmentPlan, plan.Canonical ∧ row = .value (encodeStorageAssignment plan) ∧
          ∀ plan' : StorageAssignmentPlan, plan'.Canonical → row = .value (encodeStorageAssignment plan') → plan' = plan) ∧
    -- the key signs what is stored, and one plan for a slot
    (∀ e ∈ last.signed, last.db.rows (storageAssignmentKey e.plan.context) = some (.value (encodeStorageAssignment e.plan)) ∧
      (∀ e' ∈ last.signed, e'.plan.context.slot = e.plan.context.slot → e'.plan = e.plan) ∧
      ∀ plan, attestationDigest g plan = some (some e.digest) → DigestsApart e.plan plan → e.plan = plan) ∧
    -- a stored signature is never replaced
    (∀ commitment row, node.db.rows (attestationKey commitment) = some row →
      last.db.rows (attestationKey commitment) = some row) ∧
    -- loading returns the frozen plan of a context, and nothing for another context of its slot
    (∀ plan : StorageAssignmentPlan, plan.Canonical → last.db.unlocked = true →
      last.db.rows (storageAssignmentKey plan.context) = some (.value (encodeStorageAssignment plan)) →
      loadStorageAssignment last.db plan.context = some (some plan) ∧
        ∀ c, c.slot = plan.context.slot → c ≠ plan.context → loadStorageAssignment last.db c = some none) ∧
    (∀ c plan, loadStorageAssignment last.db c = some (some plan) →
      plan.context = c ∧ last.db.rows (storageAssignmentKey c) = some (.value (encodeStorageAssignment plan))) ∧
    -- encoding and decoding of attestations undo each other
    (∀ assignment b, decodeStorageAssignmentAttestation b = some (some assignment) ↔
      encodeStorageAssignmentAttestation assignment = some (some b)) := by
  obtain ⟨hnode, -⟩ := (hfresh.sound (g := g)).run hbefore
  obtain ⟨hlast, hgrows⟩ := hnode.run hafter
  refine ⟨fun c c' row hslot hrow => ?_, fun e he => ?_, fun commitment row hrow => ?_, fun plan hcanonical hunlocked hrow => ?_,
    fun c plan hload => ?_, fun assignment b => attestation_inverse⟩
  · refine ⟨storageAssignmentKey_congr hslot ▸ hgrows _ row (.inl ⟨c, rfl⟩) hrow, ?_⟩
    obtain ⟨plan, hcanonical, rfl⟩ := hnode.records c row hrow
    refine ⟨plan, hcanonical, rfl, fun plan' hcanonical' heq => ?_⟩
    exact encodeStorageAssignment_injective hcanonical' hcanonical (ApplicationRow.value.inj heq).symm
  · obtain ⟨hcanonical, hdigest, hrow⟩ := hlast.signed e he
    refine ⟨hrow, fun e' he' hslot => ?_, fun plan hplan hapart => plan_of_digest hcanonical hdigest hplan hapart⟩
    obtain ⟨hcanonical', -, hrow'⟩ := hlast.signed e' he'
    rw [storageAssignmentKey_congr hslot, hrow] at hrow'
    exact encodeStorageAssignment_injective hcanonical' hcanonical (ApplicationRow.value.inj (Option.some.inj hrow')).symm
  · exact hgrows _ row (.inr ⟨commitment, rfl⟩) hrow
  · refine ⟨?_, fun c hslot hne => ?_⟩
    · rw [loadStorageAssignment_of_row hcanonical hunlocked hrow, if_pos rfl]
    · rw [← storageAssignmentKey_congr hslot] at hrow
      rw [loadStorageAssignment_of_row hcanonical hunlocked hrow, if_neg hne.symm]
  · obtain ⟨hcontext, -, hrow⟩ := row_of_loadStorageAssignment hload
    exact ⟨hcontext, hrow⟩

end

section Sample

attribute [local instance] Crypto.sample

def boundProvider : StorageAssignmentProvider where
  storageId := ⟨2 :: List.replicate 31 1, rfl⟩
  payoutAccount := sampleId 1

def seededPlan (seed : UInt8) : StorageAssignmentPlan where
  context :=
    { networkBinding := sampleId 200, publication := FixedBytes.leading 31 2
      chunk := FixedBytes.leading 31 3, finalizedSeed := FixedBytes.leading 31 seed
      payer := FixedBytes.leading 31 5, epoch := 1, termStart := 10, termEnd := 12, replicas := 1 }
  eligible := [boundProvider]
  selected := [boundProvider]
  commitment := FixedBytes.leading 31 1

def seededCall (seed : UInt8) : AttestCall where
  plan := seededPlan seed
  registry := sampleIdentities
  snapshotId := FixedBytes.leading 31 seed
  proofs :=
    [{ storageId := boundProvider.storageId
       binding :=
        { payoutAccount := sampleId 1, authorization := sampleSignature
          storageProof := List.replicate STORAGE_PROOF_SIZE 1 } }]
  signer := { publicKey := some (sampleKey .poaFinalizer 9), sign := fun _ => some samplePoaSignature }
  freezeFate := .done
  fate := .done

def freshAssignmentNode : AssignmentNode where
  db := { unlocked := true, rows := fun _ => none }
  signed := []

theorem freshAssignmentNode_fresh : freshAssignmentNode.Fresh where
  rows _ _ := rfl
  signed := rfl

/-- The node after it was asked to attest the plans of two seeds. -/
def attestedNode : AssignmentNode :=
  (freshAssignmentNode.attest (sampleNetwork idleState) (seededCall 4)).attest (sampleNetwork idleState) (seededCall 6)

theorem attestedNode_evaluated :
    (seededPlan 4).Canonical ∧
    (attestStorageAssignment (sampleNetwork idleState) freshAssignmentNode.db (seededCall 4)).answer =
      some (some { plan := seededPlan 4, signature := samplePoaSignature }) ∧
    (attestStorageAssignment (sampleNetwork idleState) freshAssignmentNode.db (seededCall 4)).signed.isSome = true ∧
    attestedNode.db.unlocked = true := by
  unfold StorageAssignmentPlan.Canonical
  decide +kernel

/-- The first plan of a slot is frozen and signed, the second one is not. -/
theorem frozen_assignments_attestedNode :
    (attestStorageAssignment (sampleNetwork idleState) freshAssignmentNode.db (seededCall 4)).answer =
        some (some { plan := seededPlan 4, signature := samplePoaSignature }) ∧
      (∃ e ∈ attestedNode.signed, e.plan = seededPlan 4) ∧ (∀ e ∈ attestedNode.signed, e.plan ≠ seededPlan 6) ∧
      loadStorageAssignment attestedNode.db (seededPlan 4).context = some (some (seededPlan 4)) ∧
      loadStorageAssignment attestedNode.db (seededPlan 6).context = some none := by
  obtain ⟨hcanonical, hanswer, hsigned, hunlocked⟩ := attestedNode_evaluated
  have hrun : AssignmentNodeRun (sampleNetwork idleState) freshAssignmentNode attestedNode :=
    .tail (.single (.attest (seededCall 4))) (.attest (seededCall 6))
  obtain ⟨-, honce, -, hload, -⟩ := frozen_assignments freshAssignmentNode_fresh .refl hrun
  obtain ⟨digest, hdigest⟩ := Option.isSome_iff_exists.mp hsigned
  have hmem : (⟨seededPlan 4, digest⟩ : SignedPlan) ∈ attestedNode.signed := by
    refine List.mem_append_right _ (List.mem_append_left _ ?_)
    rw [hdigest]
    exact List.mem_singleton_self _
  obtain ⟨hrow, hsame, -⟩ := honce _ hmem
  obtain ⟨hloaded, hothers⟩ := hload (seededPlan 4) hcanonical hunlocked hrow
  refine ⟨hanswer, ⟨_, hmem, rfl⟩, fun e he heq => ?_, hloaded, hothers _ rfl (by decide)⟩
  have hfirst : seededPlan 6 = seededPlan 4 := heq.symm.trans (hsame e he (by rw [heq]; rfl))
  exact absurd hfirst (by decide)

end Sample

end Cybou
