import Cybou.EvidenceLedger

/-! # Memory and rows of the evidence ledger agree, and no interval is credited twice

`storage_evidence_ledger.cpp`.

`EvidenceLedger.Recorded` is the invariant: the index lists the providers in memory, each
once, and the row of each decodes to its record.  A save keeps it as long as a commit that
is reported as failed has written nothing.  The successful checks of one replica are a
chain: each starts where the one before it ended, or starts anew because the entry of the
replica was dropped in between.
-/

namespace Cybou

open Library PrivateApplicationStore

namespace EvidenceLedger

/-! ### Names -/

theorem evidenceKey_injective : Function.Injective evidenceKey := fun _ _ h =>
  Subtype.ext (hex_injective (List.append_cancel_left h))

theorem evidenceKey_ne_index (storageId : FixedBytes 32) : evidenceKey storageId ≠ EVIDENCE_INDEX_KEY := by
  intro h
  have hlength := congrArg List.length h
  have hindex : EVIDENCE_INDEX_KEY.length = 22 := by decide
  rw [evidenceKey, List.length_append, length_hex, storageId.2, hindex] at hlength
  omega

theorem usable_indexKey : usable EVIDENCE_INDEX_KEY = true := by decide

theorem usable_evidenceKey (storageId : FixedBytes 32) : usable (evidenceKey storageId) = true := by
  have hprefix : (ascii "storage/evidence/").length = 17 := by decide
  refine usable_of_length (by decide) (by decide) ?_
  rw [List.length_append, length_hex, storageId.2, hprefix]
  decide

/-! ### The eviction -/

variable {entries : List (FixedBytes 32 × StorageProviderEvidence)}

theorem leastSeen_mem
    {entry : FixedBytes 32 × StorageProviderEvidence} (h : leastSeen entries = some entry) : entry ∈ entries := by
  induction entries generalizing entry with
  | nil => cases h
  | cons first rest ih =>
    rw [leastSeen] at h
    cases hrest : leastSeen rest with
    | none =>
      rw [hrest] at h
      cases h
      exact List.mem_cons_self
    | some other =>
      rw [hrest] at h
      dsimp only at h
      split at h
      · cases h
        exact List.mem_cons_of_mem _ (ih hrest)
      · cases h
        exact List.mem_cons_self

theorem leastSeen_isSome (h : entries ≠ []) :
    (leastSeen entries).isSome = true := by
  cases entries with
  | nil => exact absurd rfl h
  | cons first rest =>
    rw [leastSeen]
    cases leastSeen rest with
    | none => rfl
    | some other =>
      dsimp only
      split <;> rfl

section

variable {l : EvidenceLedger} {storageId : FixedBytes 32} {e : StorageProviderEvidence}

variable {id : FixedBytes 32}

theorem evicted_eq_some (h : l.evicted storageId = some id) :
    l.evidence.contains storageId = false ∧ ∃ old, l.evidence.find? id = some old := by
  unfold evicted at h
  rw [Option.ite_none_left_eq_some, Bool.not_eq_true, Option.ite_none_right_eq_some, Option.map_eq_some_iff] at h
  obtain ⟨hnew, -, entry, hentry, rfl⟩ := h
  exact ⟨hnew, entry.2, OrdMap.mem_entries_iff.mp (leastSeen_mem hentry)⟩

theorem size_kept (hnew : l.evidence.contains storageId = false) (hlimit : l.evidence.size ≤ MAX_TRACKED_STORAGE_PROVIDERS) :
    (l.kept storageId).size + 1 ≤ MAX_TRACKED_STORAGE_PROVIDERS := by
  have hnone := Bool.eq_false_iff.mp hnew
  unfold kept
  cases hevicted : l.evicted storageId with
  | none =>
    unfold evicted at hevicted
    rw [if_neg hnone] at hevicted
    by_cases hfull : l.evidence.size ≥ MAX_TRACKED_STORAGE_PROVIDERS
    · rw [if_pos hfull, Option.map_eq_none_iff] at hevicted
      have hentries : l.evidence.entries ≠ [] := by
        intro hnil
        have hzero : l.evidence.size = 0 := congrArg List.length hnil
        rw [hzero] at hfull
        exact absurd hfull (by decide)
      have hsome := leastSeen_isSome hentries
      rw [hevicted] at hsome
      cases hsome
    · exact Nat.lt_of_not_le hfull
  | some id =>
    obtain ⟨-, old, hold⟩ := evicted_eq_some hevicted
    dsimp only
    rw [OrdMap.size_erase_of_some hold]
    exact hlimit

theorem kept_of_contains (h : l.evidence.contains storageId = true) : l.kept storageId = l.evidence := by
  have hnone : l.evicted storageId = none := if_pos h
  rw [kept, hnone]

theorem find?_kept :
    (l.kept storageId).find? id = some e ↔ l.evidence.find? id = some e ∧ l.evicted storageId ≠ some id := by
  unfold kept
  cases hevicted : l.evicted storageId with
  | none => simp
  | some other =>
    dsimp only
    rw [OrdMap.find?_erase]
    by_cases hid : id = other
    · simp [hid]
    · simp [hid, Ne.symm hid]

/-! ### The invariant -/

def IndexLists (rows : Store Bytes ApplicationRow) (ids : List (FixedBytes 32)) : Prop :=
  rows EVIDENCE_INDEX_KEY = some (.value (Reader.concat (fun id : FixedBytes 32 => id.1) ids)) ∨
    rows EVIDENCE_INDEX_KEY = none ∧ ids = []

/-- **The invariant**: the rows say what memory does. -/
structure Recorded (l : EvidenceLedger) : Prop where
  index : ∃ ids, IndexLists l.db.rows ids ∧ ids.Perm (l.evidence.entries.map Prod.fst)
  limit : l.evidence.size ≤ MAX_TRACKED_STORAGE_PROVIDERS
  rows : ∀ id e, l.evidence.find? id = some e → l.db.rows (evidenceKey id) = some (.value e.encode)
  carried : ∀ id e, l.evidence.find? id = some e → e.Carried

variable {db : PrivateApplicationStore}

theorem recorded_construct (h : db.rows EVIDENCE_INDEX_KEY = none) :
    (construct db).Recorded := by
  have hempty : (construct db).evidence = ∅ := by
    unfold construct loadEvidence
    rw [get_of_absent h]
  refine ⟨⟨[], .inr ⟨h, rfl⟩, ?_⟩, ?_, fun id e hfind => ?_, fun id e hfind => ?_⟩
  · rw [hempty]
    exact List.Perm.refl _
  · rw [hempty]
    exact Nat.zero_le _
  · rw [hempty] at hfind
    cases hfind
  · rw [hempty] at hfind
    cases hfind

/-! ### What a save writes -/

variable {edits : List (Edit Bytes ApplicationRow)}

theorem saveEdits_of_contains (h : l.evidence.contains storageId = true)
    (hedits : l.saveEdits storageId e = some edits) : edits = [.put (evidenceKey storageId) (.value e.encode)] := by
  unfold saveEdits at hedits
  rw [if_pos h, Option.ite_none_left_eq_some, Option.some.injEq] at hedits
  exact hedits.2.symm

theorem saveEdits_of_new (h : l.evidence.contains storageId = false)
    (hedits : l.saveEdits storageId e = some edits) :
    l.db.rows.apply edits EVIDENCE_INDEX_KEY =
      some (.value (Reader.concat (fun id : FixedBytes 32 => id.1) (l.savedIndex storageId))) ∧
    l.db.rows.apply edits (evidenceKey storageId) = some (.value e.encode) ∧
    ∀ id, id ≠ storageId → l.evicted storageId ≠ some id →
      l.db.rows.apply edits (evidenceKey id) = l.db.rows (evidenceKey id) := by
  unfold saveEdits at hedits
  rw [if_neg (Bool.eq_false_iff.mp h), Option.ite_none_left_eq_some, Option.some.injEq] at hedits
  obtain ⟨-, rfl⟩ := hedits
  simp only [Store.apply_append, Store.apply_cons, Store.apply_nil, Edit.key, Edit.value]
  refine ⟨?_, Function.update_self _ _ _, fun id hne hkept => ?_⟩
  · rw [Function.update_of_ne (evidenceKey_ne_index storageId).symm, Function.update_self]
  · rw [Function.update_of_ne (fun heq => hne (evidenceKey_injective heq)), Function.update_of_ne (evidenceKey_ne_index id)]
    refine Store.apply_of_forall_ne fun edit hedit heq => ?_
    obtain ⟨other, hother, rfl⟩ := List.mem_map.mp hedit
    rw [evidenceKey_injective heq] at hother
    exact hkept (Option.mem_toList.mp hother)

/-- **A committed save keeps the invariant.** -/
theorem Recorded.save (h : l.Recorded) (he : e.Carried) (hedits : l.saveEdits storageId e = some edits) :
    Recorded { l with
      db := { l.db with rows := l.db.rows.apply edits }
      evidence := (l.kept storageId).set storageId e } := by
  have hcarried : ∀ id e', ((l.kept storageId).set storageId e).find? id = some e' → e'.Carried := by
    intro id e' hfind
    rw [OrdMap.find?_set] at hfind
    split at hfind
    · cases hfind
      exact he
    · exact h.carried id e' (find?_kept.mp hfind).1
  by_cases hold : l.evidence.contains storageId = true
  · obtain rfl := saveEdits_of_contains hold hedits
    obtain ⟨ids, hlists, hperm⟩ := h.index
    obtain ⟨old, hfind⟩ := OrdMap.contains_iff.mp hold
    rw [kept_of_contains hold] at hcarried ⊢
    refine ⟨⟨ids, ?_, ?_⟩, ?_, fun id e' hfind' => ?_, hcarried⟩
    · have hsame : l.db.rows.apply [.put (evidenceKey storageId) (.value e.encode)] EVIDENCE_INDEX_KEY =
          l.db.rows EVIDENCE_INDEX_KEY :=
        Store.apply_of_forall_ne fun edit hedit => List.mem_singleton.mp hedit ▸ evidenceKey_ne_index storageId
      unfold IndexLists at hlists ⊢
      dsimp only
      rw [hsame]
      exact hlists
    · have hkeys : (l.evidence.set storageId e).entries.map Prod.fst = l.evidence.entries.map Prod.fst :=
        OrdMap.map_entries_set_of_some hfind rfl
      dsimp only
      rw [hkeys]
      exact hperm
    · dsimp only
      rw [OrdMap.size_set_of_some hfind]
      exact h.limit
    · dsimp only at hfind' ⊢
      rw [OrdMap.find?_set] at hfind'
      simp only [Store.apply_cons, Store.apply_nil, Edit.key, Edit.value]
      split at hfind'
      next heq =>
        cases hfind'
        rw [heq]
        exact Function.update_self _ _ _
      next hne =>
        rw [Function.update_of_ne (fun heq => hne (evidenceKey_injective heq))]
        exact h.rows id e' hfind'
  · have hnew := eq_false_of_ne_true hold
    have habsent : (l.kept storageId).find? storageId = none := by
      refine Option.eq_none_iff_forall_ne_some.mpr fun old hfind => ?_
      have hold := (find?_kept.mp hfind).1
      rw [OrdMap.contains_eq_false_iff.mp hnew] at hold
      cases hold
    obtain ⟨hindex, hrow, hothers⟩ := saveEdits_of_new hnew hedits
    refine ⟨⟨l.savedIndex storageId, .inl hindex, ?_⟩, ?_, fun id e' hfind => ?_, hcarried⟩
    · have hperm := (OrdMap.entries_set_perm (v := e) habsent).map Prod.fst
      exact (List.perm_append_singleton _ _).trans hperm.symm
    · dsimp only
      rw [OrdMap.size_set_of_none habsent]
      exact size_kept hnew h.limit
    · dsimp only at hfind ⊢
      rw [OrdMap.find?_set] at hfind
      split at hfind
      next heq =>
        cases hfind
        rw [heq]
        exact hrow
      next hne =>
        obtain ⟨hfind, hkept⟩ := find?_kept.mp hfind
        rw [hothers id hne hkept]
        exact h.rows id e' hfind

theorem Recorded.congr {l' : EvidenceLedger} (h : l.Recorded) (hrows : l'.db.rows = l.db.rows)
    (hevidence : l'.evidence = l.evidence) : l'.Recorded := by
  obtain ⟨hindex, hlimit, hrecords, hcarried⟩ := h
  rw [← hrows, ← hevidence] at hindex
  rw [← hevidence] at hlimit hrecords hcarried
  rw [← hrows] at hrecords
  exact ⟨hindex, hlimit, hrecords, hcarried⟩

/-- **A save**: refused, with memory as it was, or committed. -/
theorem saveEvidenceLocked_cases (l : EvidenceLedger) (storageId : FixedBytes 32) (e : StorageProviderEvidence) (fate : Fate) :
    (∃ rows, l.saveEvidenceLocked storageId e fate = (false, { l with db := { l.db with rows } }) ∧
      (fate ≠ .stored → rows = l.db.rows)) ∨
    ∃ edits, l.saveEdits storageId e = some edits ∧ l.saveEvidenceLocked storageId e fate = (true, { l with
      db := { l.db with rows := l.db.rows.apply edits }
      evidence := (l.kept storageId).set storageId e }) := by
  unfold saveEvidenceLocked
  cases hedits : l.saveEdits storageId e with
  | none => exact .inl ⟨l.db.rows, rfl, fun _ => rfl⟩
  | some edits =>
    cases fate with
    | done => exact .inr ⟨edits, rfl, rfl⟩
    | lost => exact .inl ⟨l.db.rows, rfl, fun _ => rfl⟩
    | stored => exact .inl ⟨l.db.rows.apply edits, rfl, fun h => absurd rfl h⟩

/-! ### Loading -/

theorem find?_loadLoop {db : PrivateApplicationStore} {target : OrdMap (FixedBytes 32) StorageProviderEvidence}
    {ids : List (FixedBytes 32)} {m : OrdMap (FixedBytes 32) StorageProviderEvidence}
    (hrows : ∀ id ∈ ids, ∃ e, target.find? id = some e ∧
      (db.get (evidenceKey id)).bind StorageProviderEvidence.decode = some e)
    (hnodup : ids.Nodup) (hnew : ∀ id ∈ ids, m.find? id = none)
    (hroom : m.size + ids.length ≤ MAX_TRACKED_STORAGE_PROVIDERS) (id : FixedBytes 32) :
    (loadLoop db ids m).find? id = if id ∈ ids then target.find? id else m.find? id := by
  induction ids generalizing m with
  | nil => simp [loadLoop]
  | cons first ids ih =>
    obtain ⟨hfirst, hrest⟩ := List.forall_mem_cons.mp hrows
    obtain ⟨hother, hnodup⟩ := List.nodup_cons.mp hnodup
    obtain ⟨hnone, hnones⟩ := List.forall_mem_cons.mp hnew
    obtain ⟨e, hfind, hget⟩ := hfirst
    rw [List.length_cons] at hroom
    rw [loadLoop, if_pos (by omega), hget]
    dsimp only
    rw [OrdMap.emplace_of_none hnone, ih hrest hnodup]
    · by_cases hid : id ∈ ids
      · rw [if_pos hid, if_pos (List.mem_cons_of_mem _ hid)]
      · rw [if_neg hid, OrdMap.find?_set]
        by_cases heq : id = first
        · rw [if_pos heq, heq, if_pos List.mem_cons_self, hfind]
        · rw [if_neg heq, if_neg (by rw [List.mem_cons, not_or]; exact ⟨heq, hid⟩)]
    · intro other hmem
      have hne : other ≠ first := by
        rintro rfl
        exact hother hmem
      rw [OrdMap.find?_set_of_ne _ _ hne]
      exact hnones other hmem
    · rw [OrdMap.size_set_of_none hnone]
      omega

/-- **Loading gives back what is in memory.** -/
theorem Recorded.load (h : l.Recorded) (hunlocked : db.unlocked = true)
    (hdb : db.rows = l.db.rows) : loadEvidence db = l.evidence := by
  obtain ⟨ids, hlists, hperm⟩ := h.index
  have hmem : ∀ id, id ∈ ids ↔ ∃ e, l.evidence.find? id = some e := by
    intro id
    rw [hperm.mem_iff, List.mem_map]
    constructor
    · rintro ⟨entry, hentry, rfl⟩
      exact ⟨entry.2, OrdMap.mem_entries_iff.mp hentry⟩
    · rintro ⟨e, hfind⟩
      exact ⟨(id, e), OrdMap.mem_entries_iff.mpr hfind, rfl⟩
  refine OrdMap.ext_find? fun id => ?_
  rcases hlists with hrow | ⟨hnone, rfl⟩
  · have hlength : (Reader.concat (fun id : FixedBytes 32 => id.1) ids).length = ids.length * 32 :=
      Reader.length_concat (fun id => id.2) ids
    unfold loadEvidence
    rw [get_of_usable hunlocked usable_indexKey (hdb ▸ hrow)]
    dsimp only
    rw [hlength, if_neg (by omega), Nat.mul_div_cancel _ (by decide), chunkIds_concat]
    rw [@find?_loadLoop db l.evidence ids ∅ ?_ (hperm.nodup_iff.mpr l.evidence.nodup_keys) (fun _ _ => rfl) ?_ id]
    · rw [OrdMap.find?_empty]
      split
      · rfl
      next hid =>
        cases hevidence : l.evidence.find? id with
        | none => rfl
        | some e => exact absurd ((hmem id).mpr ⟨e, hevidence⟩) hid
    · intro other hother
      obtain ⟨e, hfind⟩ := (hmem other).mp hother
      refine ⟨e, hfind, ?_⟩
      rw [get_of_usable hunlocked (usable_evidenceKey other) (hdb ▸ h.rows other e hfind), Option.bind_some]
      exact StorageProviderEvidence.decode_encode (h.carried other e hfind)
    · have hsize := hperm.length_eq
      rw [List.length_map] at hsize
      rw [hsize]
      exact (Nat.zero_add _).trans_le h.limit
  · have hempty : loadEvidence db = ∅ := by
      unfold loadEvidence
      rw [get_of_absent (hdb ▸ hnone)]
    rw [hempty]
    cases hevidence : l.evidence.find? id with
    | none => rfl
    | some e => exact absurd ((hmem id).mpr ⟨e, hevidence⟩) List.not_mem_nil

end

/-! ### Calls -/

/-- A call of the ledger, with what becomes of its write; the keystore may be locked between
    calls, and the ledger opened again. -/
inductive LedgerCall where
  | credit (storageId : FixedBytes 32) (chunkId : ChunkId) (storedBytes : UInt64) (nowMs : Int64) (fate : Fate)
  | forget (storageId : FixedBytes 32) (chunkId : ChunkId)
  | record (storageId : FixedBytes 32) (update : StorageProviderEvidence → StorageProviderEvidence) (fate : Fate)
  | keystore (unlocked : Bool)
  | reopen

def LedgerCall.fate : LedgerCall → Fate
  | .credit _ _ _ _ fate => fate
  | .record _ _ fate => fate
  | _ => .done

def call (l : EvidenceLedger) : LedgerCall → Bool × EvidenceLedger
  | .credit storageId chunkId storedBytes nowMs fate => l.creditReplica storageId chunkId storedBytes nowMs fate
  | .forget storageId chunkId => (true, l.forgetReplica storageId chunkId)
  | .record storageId update fate => l.recordEvidence storageId update fate
  | .keystore unlocked => (true, { l with db := { l.db with unlocked } })
  | .reopen => (true, construct { l.db with unlocked := true })

def run (l : EvidenceLedger) : List LedgerCall → EvidenceLedger
  | [] => l
  | call :: calls => run (l.call call).2 calls

/-- An accepted check of a replica: the time it counts from, 0 where none was remembered, its
    own time and the units that are stored. -/
structure Check where
  previousMs : Int64
  nowMs : Int64
  units : UInt64
deriving DecidableEq

def Check.seconds (check : Check) : Nat :=
  if 0 < check.previousMs.toInt ∧ check.nowMs.toInt - check.previousMs.toInt ≤ 86400000 then
    ((check.nowMs.toInt - check.previousMs.toInt) / 1000).toNat else 0

section

variable (chunkId : ChunkId) (storageId : FixedBytes 32)

/-- The check that a call adds to those of a replica: one that succeeds and is not late. -/
def accepted (l : EvidenceLedger) : LedgerCall → Option Check
  | .credit storage chunk storedBytes nowMs fate =>
    let previousMs := l.previousMs chunk storage
    if (storage = storageId ∧ chunk = chunkId) ∧ (l.creditReplica storage chunk storedBytes nowMs fate).1 = true ∧
        ¬(previousMs ≠ 0 ∧ nowMs ≤ previousMs) then
      some { previousMs, nowMs, units := storageBillingUnits storedBytes }
    else none
  | _ => none

def checks (l : EvidenceLedger) : List LedgerCall → List Check
  | [] => []
  | call :: calls => (accepted chunkId storageId l call).toList ++ checks (l.call call).2 calls

def unitSeconds (l : EvidenceLedger) : Nat := (l.evidenceOf storageId).verifiedUnitSeconds.toNat

def gain (l : EvidenceLedger) : LedgerCall → Int
  | .credit storage chunk storedBytes nowMs fate =>
    if storage = storageId ∧ chunk = chunkId then
      (unitSeconds storageId (l.creditReplica storage chunk storedBytes nowMs fate).2 : Int) - unitSeconds storageId l
    else 0
  | _ => 0

def added (l : EvidenceLedger) : List LedgerCall → Int
  | [] => 0
  | call :: calls => gain chunkId storageId l call + added (l.call call).2 calls

end

/-! ### What a call does -/

section

variable {l : EvidenceLedger} {chunkId : ChunkId} {storageId : FixedBytes 32}

/-- **A check**: it is accepted and credits exactly its unit-seconds, or it is late, or refused
    with memory as it was. -/
theorem creditReplica_cases (l : EvidenceLedger) (storageId : FixedBytes 32) (chunkId : ChunkId) (storedBytes : UInt64)
    (nowMs : Int64) (fate : Fate) :
    (∃ rows, l.creditReplica storageId chunkId storedBytes nowMs fate = (false, { l with db := { l.db with rows } }) ∧
      (fate ≠ .stored → rows = l.db.rows)) ∨
    (l.creditReplica storageId chunkId storedBytes nowMs fate = (true, l) ∧ l.previousMs chunkId storageId ≠ 0 ∧
      nowMs ≤ l.previousMs chunkId storageId) ∨
    (0 < nowMs ∧ ¬(l.previousMs chunkId storageId ≠ 0 ∧ nowMs ≤ l.previousMs chunkId storageId) ∧
      ∃ saved : EvidenceLedger, l.creditReplica storageId chunkId storedBytes nowMs fate =
          (true, saved.noteVerified chunkId storageId nowMs) ∧
        (l.Recorded → saved.Recorded) ∧ saved.replicaVerifiedMs = l.replicaVerifiedMs ∧
        unitSeconds storageId saved = unitSeconds storageId l + (storageBillingUnits storedBytes).toNat *
          (storageVerifiedIntervalSeconds (l.previousMs chunkId storageId) nowMs STORAGE_MAX_CREDITED_GAP_MS).toNat) := by
  unfold creditReplica
  by_cases hguard : nowMs ≤ 0 ∨ l.db.unlocked = false
  · rw [if_pos hguard]
    exact .inl ⟨l.db.rows, rfl, fun _ => rfl⟩
  rw [if_neg hguard]
  dsimp only
  by_cases hlate : l.previousMs chunkId storageId ≠ 0 ∧ nowMs ≤ l.previousMs chunkId storageId
  · rw [if_pos hlate]
    exact .inr (.inl ⟨rfl, hlate⟩)
  rw [if_neg hlate]
  have hpositive : 0 < nowMs := Int64.not_le.mp fun h => hguard (.inl h)
  by_cases hseconds : storageVerifiedIntervalSeconds (l.previousMs chunkId storageId) nowMs STORAGE_MAX_CREDITED_GAP_MS = 0
  · rw [if_pos hseconds, hseconds]
    exact .inr (.inr ⟨hpositive, hlate, l, rfl, id, rfl, rfl⟩)
  rw [if_neg hseconds]
  cases hcredited : (l.evidenceOf storageId).credited (storageBillingUnits storedBytes)
      (storageVerifiedIntervalSeconds (l.previousMs chunkId storageId) nowMs STORAGE_MAX_CREDITED_GAP_MS) with
  | none => exact .inl ⟨l.db.rows, rfl, fun _ => rfl⟩
  | some e =>
    obtain ⟨hcarried, hsum⟩ := StorageProviderEvidence.credited_eq_some hseconds hcredited
    dsimp only
    rcases saveEvidenceLocked_cases l storageId e fate with ⟨rows, hsave, hrows⟩ | ⟨edits, hedits, hsave⟩
    · rw [hsave]
      exact .inl ⟨rows, rfl, hrows⟩
    · rw [hsave]
      refine .inr (.inr ⟨hpositive, hlate, _, rfl, fun h => h.save hcarried hedits, rfl, ?_⟩)
      unfold unitSeconds
      rw [← hsum, evidenceOf, OrdMap.find?_set_self]
      rfl

/-- **Every call keeps the invariant**, as long as a commit that fails has written nothing. -/
theorem Recorded.call (h : l.Recorded) {call : LedgerCall} (hfate : call.fate ≠ .stored) : (l.call call).2.Recorded := by
  cases call with
  | credit storageId chunkId storedBytes nowMs fate =>
    have hcases := creditReplica_cases l storageId chunkId storedBytes nowMs fate
    rcases hcases with ⟨rows, hrefused, hrows⟩ | ⟨hlate, -⟩ | ⟨-, -, saved, haccepted, hsaved, -⟩
    · rw [EvidenceLedger.call, hrefused]
      exact h.congr (hrows hfate) rfl
    · rw [EvidenceLedger.call, hlate]
      exact h
    · rw [EvidenceLedger.call, haccepted]
      exact (hsaved h).congr rfl rfl
  | forget storageId chunkId => exact h.congr rfl rfl
  | record storageId update fate =>
    rw [EvidenceLedger.call]
    unfold recordEvidence
    dsimp only
    by_cases hlowered : (l.evidenceOf storageId).lowered (update (l.evidenceOf storageId)) = true
    · rw [if_pos hlowered]
      exact h
    · rw [if_neg hlowered]
      have hcarried := StorageProviderEvidence.carried_of_not_lowered (eq_false_of_ne_true hlowered)
      rcases saveEvidenceLocked_cases l storageId (update (l.evidenceOf storageId)) fate with
        ⟨rows, hsave, hrows⟩ | ⟨edits, hedits, hsave⟩
      · rw [hsave]
        exact h.congr (hrows hfate) rfl
      · rw [hsave]
        exact h.save hcarried hedits
  | keystore unlocked => exact h.congr rfl rfl
  | reopen => exact h.congr rfl (h.load rfl rfl)

theorem Recorded.run (h : l.Recorded) {calls : List LedgerCall} (hfates : ∀ call ∈ calls, call.fate ≠ .stored) :
    (l.run calls).Recorded := by
  induction calls generalizing l with
  | nil => exact h
  | cons call calls ih =>
    obtain ⟨hfate, hfates⟩ := List.forall_mem_cons.mp hfates
    exact ih (h.call hfate) hfates

/-! ### The checks of a replica -/

theorem previousMs_noteVerified (l : EvidenceLedger) (chunkId : ChunkId) (storageId : FixedBytes 32) (nowMs : Int64) :
    (l.noteVerified chunkId storageId nowMs).previousMs chunkId storageId = nowMs := by
  unfold previousMs noteVerified
  rw [OrdMap.find?_set_self, Option.getD_some]

theorem previousMs_noteVerified_of_ne {other : FixedBytes 32} {chunk : ChunkId} (h : ¬(other = storageId ∧ chunk = chunkId))
    (nowMs : Int64) : (l.noteVerified chunk other nowMs).previousMs chunkId storageId = l.previousMs chunkId storageId ∨
      (l.noteVerified chunk other nowMs).previousMs chunkId storageId = 0 := by
  have hkey : toLex (chunkId, storageId) ≠ toLex (chunk, other) := by
    intro heq
    obtain ⟨rfl, rfl⟩ := Prod.mk.inj (toLex_inj.mp heq)
    exact h ⟨rfl, rfl⟩
  unfold previousMs noteVerified
  dsimp only
  rw [OrdMap.find?_set_of_ne _ _ hkey]
  split
  · exact .inr rfl
  · exact .inl rfl

/-- A call of another kind than an accepted check keeps the entry of the replica, or drops it. -/
theorem previousMs_call {call : LedgerCall} (h : accepted chunkId storageId l call = none) :
    (l.call call).2.previousMs chunkId storageId = l.previousMs chunkId storageId ∨
      (l.call call).2.previousMs chunkId storageId = 0 := by
  cases call with
  | credit storage chunk storedBytes nowMs fate =>
    unfold accepted at h
    dsimp only at h
    rw [ite_eq_right_iff, imp_iff_not (Option.some_ne_none _)] at h
    rw [EvidenceLedger.call]
    have hcases := creditReplica_cases l storage chunk storedBytes nowMs fate
    rcases hcases with ⟨rows, hrefused, -⟩ | ⟨hlate, -⟩ | ⟨-, hforward, saved, haccepted, -, htable, -⟩
    · rw [hrefused]
      exact .inl rfl
    · rw [hlate]
      exact .inl rfl
    · rw [haccepted] at h ⊢
      have hother : ¬(storage = storageId ∧ chunk = chunkId) := fun heq => h ⟨heq, rfl, hforward⟩
      have hsame : saved.previousMs chunkId storageId = l.previousMs chunkId storageId := by
        unfold previousMs
        rw [htable]
      rw [← hsame]
      exact previousMs_noteVerified_of_ne hother nowMs
  | forget storage chunk =>
    change ((l.replicaVerifiedMs.erase _).find? _).getD 0 = _ ∨ ((l.replicaVerifiedMs.erase _).find? _).getD 0 = 0
    rw [OrdMap.find?_erase]
    split
    · exact .inr rfl
    · exact .inl rfl
  | record storage update fate =>
    have htable : (l.recordEvidence storage update fate).2.replicaVerifiedMs = l.replicaVerifiedMs := by
      unfold recordEvidence
      dsimp only
      split
      · rfl
      · rcases saveEvidenceLocked_cases l storage (update (l.evidenceOf storage)) fate with ⟨rows, hsave, -⟩ | ⟨edits, -, hsave⟩
        · rw [hsave]
        · rw [hsave]
    unfold previousMs
    rw [EvidenceLedger.call, htable]
    exact .inl rfl
  | keystore unlocked => exact .inl rfl
  | reopen => exact .inr rfl

/-- **An accepted check**: it counts from the entry of the replica, comes after it, and leaves
    its own time as the entry. -/
theorem accepted_eq_some {call : LedgerCall} {check : Check} (h : accepted chunkId storageId l call = some check) :
    check.previousMs = l.previousMs chunkId storageId ∧ check.previousMs.toInt < check.nowMs.toInt ∧
      (l.call call).2.previousMs chunkId storageId = check.nowMs ∧
      gain chunkId storageId l call = (check.units.toNat * check.seconds : Nat) := by
  cases call with
  | credit storage chunk storedBytes nowMs fate =>
    unfold accepted at h
    dsimp only at h
    rw [Option.ite_none_right_eq_some, Option.some.injEq] at h
    obtain ⟨⟨⟨rfl, rfl⟩, hanswer, hforward⟩, rfl⟩ := h
    have hcases := creditReplica_cases l storage chunk storedBytes nowMs fate
    rcases hcases with ⟨rows, hrefused, -⟩ | ⟨-, hlate⟩ | ⟨hpositive, -, saved, haccepted, -, -, hsum⟩
    · rw [hrefused] at hanswer
      cases hanswer
    · exact absurd hlate hforward
    · have hlater : (l.previousMs chunk storage).toInt < nowMs.toInt := by
        by_cases hzero : l.previousMs chunk storage = 0
        · rw [hzero]
          exact Int64.lt_iff_toInt_lt.mp hpositive
        · exact Int64.lt_iff_toInt_lt.mp (Int64.not_le.mp fun hle => hforward ⟨hzero, hle⟩)
      refine ⟨rfl, hlater, ?_, ?_⟩
      · rw [EvidenceLedger.call, haccepted, previousMs_noteVerified]
      · unfold gain
        dsimp only
        rw [if_pos ⟨rfl, rfl⟩, haccepted]
        change (unitSeconds storage saved : Int) - unitSeconds storage l = _
        have hseconds := toNat_verifiedIntervalSeconds hlater
        rw [hsum, hseconds, Int.natCast_add, add_sub_cancel_left]
        rfl
  | forget storage chunk => cases h
  | record storage update fate => cases h
  | keystore unlocked => cases h
  | reopen => cases h

/-- **A check that is not accepted adds nothing.** -/
theorem gain_eq_zero {call : LedgerCall} (h : accepted chunkId storageId l call = none) :
    gain chunkId storageId l call = 0 := by
  cases call with
  | credit storage chunk storedBytes nowMs fate =>
    unfold accepted at h
    dsimp only at h
    rw [ite_eq_right_iff, imp_iff_not (Option.some_ne_none _)] at h
    unfold gain
    dsimp only
    rw [ite_eq_right_iff]
    intro heq
    have hcases := creditReplica_cases l storage chunk storedBytes nowMs fate
    rcases hcases with ⟨rows, hrefused, -⟩ | ⟨hlate, -⟩ | ⟨-, hforward, saved, haccepted, -⟩
    · rw [hrefused]
      exact sub_self _
    · rw [hlate]
      exact sub_self _
    · rw [haccepted] at h
      exact absurd ⟨heq, rfl, hforward⟩ h
  | forget storage chunk => rfl
  | record storage update fate => rfl
  | keystore unlocked => rfl
  | reopen => rfl

def creditOf (checks : List Check) : Nat := (checks.map fun check => check.units.toNat * check.seconds).sum

/-- **What is added on behalf of a replica** is the unit-seconds of its accepted checks. -/
theorem added_eq (l : EvidenceLedger) (calls : List LedgerCall) :
    added chunkId storageId l calls = creditOf (checks chunkId storageId l calls) := by
  induction calls generalizing l with
  | nil => rfl
  | cons call calls ih =>
    rw [added, checks, ih]
    cases haccepted : accepted chunkId storageId l call with
    | none =>
      rw [gain_eq_zero haccepted, Int.zero_add]
      rfl
    | some check =>
      rw [(accepted_eq_some haccepted).2.2.2]
      unfold creditOf
      rw [Option.toList_some, List.singleton_append, List.map_cons, List.sum_cons, Int.natCast_add]

/-- Two checks of a replica that follow each other: the later one counts from the earlier one,
    or from nothing. -/
def Follows (earlier later : Check) : Prop := later.previousMs = earlier.nowMs ∨ later.previousMs = 0

/-- The checks of a replica follow each other, from what the ledger remembers. -/
theorem checks_chain (l : EvidenceLedger) (calls : List LedgerCall) :
    (∀ check ∈ (checks chunkId storageId l calls).head?, check.previousMs = l.previousMs chunkId storageId ∨
      check.previousMs = 0) ∧
    (checks chunkId storageId l calls).IsChain Follows ∧
    ∀ check ∈ checks chunkId storageId l calls, check.previousMs.toInt < check.nowMs.toInt := by
  induction calls generalizing l with
  | nil =>
    refine ⟨fun check hcheck => ?_, List.isChain_nil, List.forall_mem_nil _⟩
    cases hcheck
  | cons call calls ih =>
    obtain ⟨hhead, hchain, hlater⟩ := ih (l.call call).2
    rw [checks]
    cases haccepted : accepted chunkId storageId l call with
    | none =>
      refine ⟨fun check hcheck => ?_, hchain, hlater⟩
      rcases hhead check hcheck with hsame | hzero
      · rw [hsame]
        exact previousMs_call haccepted
      · exact .inr hzero
    | some check =>
      obtain ⟨hprevious, hforward, hentry, -⟩ := accepted_eq_some haccepted
      rw [Option.toList_some, List.singleton_append]
      refine ⟨fun first hfirst => ?_, ?_, ?_⟩
      · cases hfirst
        exact .inl hprevious
      · refine List.isChain_cons.mpr ⟨fun next hnext => ?_, hchain⟩
        have hnext := hhead next hnext
        rwa [hentry] at hnext
      · exact List.forall_mem_cons.mpr ⟨hforward, hlater⟩

/-- The clock goes on: no check that counts from nothing is earlier than the check before it. -/
def NeverSetBack (checks : List Check) : Prop :=
  checks.IsChain fun earlier later => later.previousMs = 0 → earlier.nowMs ≤ later.nowMs

theorem after_first {first : Check} {rest : List Check} (hchain : (first :: rest).IsChain Follows)
    (hlater : ∀ check ∈ rest, check.previousMs.toInt < check.nowMs.toInt) (hclock : NeverSetBack (first :: rest)) :
    ∀ check ∈ rest, first.nowMs ≤ check.nowMs ∧ (check.previousMs ≠ 0 → first.nowMs ≤ check.previousMs) := by
  induction rest generalizing first with
  | nil => exact List.forall_mem_nil _
  | cons next rest ih =>
    obtain ⟨hfollows, hchain⟩ := List.isChain_cons_cons.mp hchain
    obtain ⟨hset, hclock⟩ := List.isChain_cons_cons.mp hclock
    obtain ⟨hnext, hlater⟩ := List.forall_mem_cons.mp hlater
    have hnot : first.nowMs ≤ next.nowMs := by
      rcases hfollows with hsame | hzero
      · rw [← hsame, Int64.le_iff_toInt_le]
        exact hnext.le
      · exact hset hzero
    refine List.forall_mem_cons.mpr ⟨⟨hnot, fun hne => ?_⟩, fun check hcheck => ?_⟩
    · rw [hfollows.resolve_right hne]
      exact Int64.le_refl _
    · obtain ⟨hnow, hspan⟩ := ih hchain hlater hclock check hcheck
      exact ⟨Int64.le_trans hnot hnow, fun hne => Int64.le_trans hnot (hspan hne)⟩

/-- **The spans are disjoint**: a check that counts from an earlier time counts from no time
    before the end of any earlier one. -/
theorem spans_disjoint {checks : List Check} (hchain : checks.IsChain Follows)
    (hlater : ∀ check ∈ checks, check.previousMs.toInt < check.nowMs.toInt) (hclock : NeverSetBack checks) :
    checks.Pairwise fun earlier later => later.previousMs ≠ 0 → earlier.nowMs ≤ later.previousMs := by
  induction checks with
  | nil => exact List.Pairwise.nil
  | cons first rest ih =>
    obtain ⟨-, hlater⟩ := List.forall_mem_cons.mp hlater
    refine List.pairwise_cons.mpr ⟨fun check hcheck => ?_, ih hchain.tail hlater hclock.tail⟩
    exact (after_first hchain hlater hclock check hcheck).2

end

/-! ### Every run -/

/-- **The provider evidence ledger.**  Memory and rows agree after every call, as long as a
    commit that fails has written nothing, so that loading gives back what is in memory.  What
    is added on behalf of a replica is the unit-seconds of its accepted checks, which form a
    chain; their spans are disjoint, unless the clock is set back while the ledger does not
    remember the last check. -/
theorem evidence_ledger (chunkId : ChunkId) (storageId : FixedBytes 32) {l : EvidenceLedger} (hstart : l.Recorded)
    (calls : List LedgerCall) :
    ((∀ call ∈ calls, call.fate ≠ .stored) →
      (l.run calls).Recorded ∧
      (∀ id e, (l.run calls).evidence.find? id = some e → ∃ bytes,
        (l.run calls).db.rows (evidenceKey id) = some (.value bytes) ∧ StorageProviderEvidence.decode bytes = some e) ∧
      loadEvidence { (l.run calls).db with unlocked := true } = (l.run calls).evidence) ∧
    added chunkId storageId l calls = creditOf (checks chunkId storageId l calls) ∧
    (checks chunkId storageId l calls).IsChain Follows ∧
    (∀ check ∈ checks chunkId storageId l calls, check.previousMs.toInt < check.nowMs.toInt) ∧
    (NeverSetBack (checks chunkId storageId l calls) → (checks chunkId storageId l calls).Pairwise
      fun earlier later => later.previousMs ≠ 0 → earlier.nowMs ≤ later.previousMs) := by
  obtain ⟨-, hchain, hlater⟩ := @checks_chain chunkId storageId l calls
  refine ⟨fun hfates => ?_, added_eq l calls, hchain, hlater, spans_disjoint hchain hlater⟩
  have hrecorded := hstart.run hfates
  refine ⟨hrecorded, fun id e hfind => ?_, hrecorded.load rfl rfl⟩
  exact ⟨_, hrecorded.rows id e hfind, StorageProviderEvidence.decode_encode (hrecorded.carried id e hfind)⟩

def sampleLedger : EvidenceLedger := construct emptyApplicationStore

theorem recorded_sampleLedger : sampleLedger.Recorded := recorded_construct rfl

def sampleCheck (nowMs : Int64) (fate : Fate) : LedgerCall :=
  .credit (FixedBytes.leading 31 1) (FixedBytes.leading 31 2) 524288 nowMs fate

/-- Checks after one, two and four seconds, the last one made again because its save fails. -/
def sampleChecks : List LedgerCall :=
  [sampleCheck 1000 .done, sampleCheck 2000 .done, sampleCheck 4000 .lost, sampleCheck 4000 .done]

theorem evidence_ledger_sample :
    loadEvidence { (sampleLedger.run sampleChecks).db with unlocked := true } = (sampleLedger.run sampleChecks).evidence ∧
    added (FixedBytes.leading 31 2) (FixedBytes.leading 31 1) sampleLedger sampleChecks = 3 ∧
    (checks (FixedBytes.leading 31 2) (FixedBytes.leading 31 1) sampleLedger sampleChecks).Pairwise
      fun earlier later => later.previousMs ≠ 0 → earlier.nowMs ≤ later.previousMs := by
  have hrun := evidence_ledger (FixedBytes.leading 31 2) (FixedBytes.leading 31 1) recorded_sampleLedger sampleChecks
  have hchecks : checks (FixedBytes.leading 31 2) (FixedBytes.leading 31 1) sampleLedger sampleChecks =
      [⟨0, 1000, 1⟩, ⟨1000, 2000, 1⟩, ⟨2000, 4000, 1⟩] := by decide
  refine ⟨(hrun.1 ?_).2.2, hrun.2.1.trans ?_, hrun.2.2.2.2 ?_⟩
  · decide
  · rw [hchecks]
    decide
  · rw [hchecks]
    unfold NeverSetBack
    decide

/-- The entry of a replica is forgotten and the clock set back: two seconds are credited twice.
    And a commit that is written although it is reported as failed leaves a provider in
    the index that is not in memory. -/
theorem interval_credited_twice :
    (¬∀ (l : EvidenceLedger) (calls : List LedgerCall) (chunkId : ChunkId) (storageId : FixedBytes 32), l.Recorded →
      (∀ call ∈ calls, call.fate ≠ .stored) → (checks chunkId storageId l calls).Pairwise
        fun earlier later => later.previousMs ≠ 0 → earlier.nowMs ≤ later.previousMs) ∧
    ¬∀ (l : EvidenceLedger) (calls : List LedgerCall), l.Recorded →
      loadEvidence { (l.run calls).db with unlocked := true } = (l.run calls).evidence := by
  constructor
  · intro hall
    have hrun := hall sampleLedger [sampleCheck 1000 .done, sampleCheck 4000 .done,
      .forget (FixedBytes.leading 31 1) (FixedBytes.leading 31 2), sampleCheck 2000 .done, sampleCheck 6000 .done]
      (FixedBytes.leading 31 2) (FixedBytes.leading 31 1) recorded_sampleLedger ?_
    · revert hrun
      decide
    · decide
  · intro hall
    have hrun := hall sampleLedger [sampleCheck 1000 .done, sampleCheck 2000 .stored] recorded_sampleLedger
    revert hrun
    decide

end EvidenceLedger

end Cybou
