import Cybou.KvStore

/-! # The durable journal of signing intents (`poa_signing_journal.cpp`)

The finalizer records what it is about to sign before it signs it.  A journal
object caches the durable head; a write may fail with the record stored or
not, and the process may be restarted at any point, which runs the
constructor on whatever the store holds.  `Finalizer.run` is a run of such
calls, writes and restarts, in any order and with any arguments.

The durable head only moves to its own successor, and a running journal that
has not halted caches exactly the durable head (`Tracks`).  The parent of a
permitted block is the block journaled at the previous height, which need not
have been permitted: a write that is reported as failed may still be the head
that the next process starts from (`parent_without_permission`).
-/

namespace Cybou

open Library

/-! ### Records -/

inductive JournalKey where
  | metadata
  | head
  | halt
deriving DecidableEq, Repr

abbrev JournalDb := Store JournalKey Bytes

structure PoaJournalHead where
  height : UInt64
  parentBlockId : Hash256
  blockId : Hash256
deriving DecidableEq, Repr

inductive PoaJournalStatus where
  | none
  | alreadyPrepared
  | invalidRequest
  | historyNotVerified
  | historyMismatch
  | heightMismatch
  | parentMismatch
  | equivocation
  | journalHalted
  | storageError
deriving DecidableEq, Repr

/-- The value of the `uint8_t` enumeration. -/
def PoaJournalStatus.code (status : PoaJournalStatus) : UInt8 := UInt8.ofNat status.ctorIdx

inductive JournalFault where
  | invalidPublicKey
  | invalidIdentity
  | identityMismatch
  | missingHead
  | corruptHead
  | corruptHaltRecord
  | incomplete
  | storage
deriving DecidableEq, Repr

def encodeHead (head : PoaJournalHead) : Bytes :=
  le64 head.height ++ head.parentBlockId.1 ++ head.blockId.1

/-- A genesis head has no parent and every other head has one. -/
def PoaJournalHead.WellFormed (head : PoaJournalHead) : Prop :=
  Hash256.isNull head.blockId = false ∧
    (head.height = 0 ↔ Hash256.isNull head.parentBlockId = true)

instance (head : PoaJournalHead) : Decidable head.WellFormed :=
  inferInstanceAs (Decidable (_ ∧ _))

def readHead : Reader PoaJournalHead := do
  let height ← Reader.u64
  let parentBlockId ← Reader.fixed 32
  let blockId ← Reader.fixed 32
  let head : PoaJournalHead := ⟨height, parentBlockId, blockId⟩
  Reader.require (¬(Hash256.isNull head.blockId = true ∨
    (head.height = 0 ∧ ¬Hash256.isNull head.parentBlockId = true) ∨
    (head.height ≠ 0 ∧ Hash256.isNull head.parentBlockId = true)))
  return head

def decodeHead (bytes : Bytes) : Option PoaJournalHead := Reader.whole readHead bytes

/-! ### The journal object -/

/-- The arguments of the constructor; `finalizerKeyId` is what
    `ComputePoaFinalizerKeyId` makes of the finalizer's key. -/
structure JournalIdentity where
  networkBinding : Hash256
  genesisAnchor : Hash256
  finalizerKeyId : Option Hash256

structure PoaSigningJournal where
  genesisAnchor : Hash256
  head : PoaJournalHead
  verifiedHeight : UInt64 := 0
  verifiedTip : Hash256 := Hash256.ZERO
  historyVerified : Bool := false
  halted : Bool := false

def expectedMetadata (networkBinding keyId genesisAnchor : Hash256) : Bytes :=
  networkBinding.1 ++ keyId.1 ++ genesisAnchor.1

def haltRecordValid (halt : Bytes) : Bool :=
  halt == [PoaJournalStatus.historyMismatch.code] || halt == [PoaJournalStatus.equivocation.code]

/-- The branch of the constructor that finds readable metadata. -/
def PoaSigningJournal.load (genesisAnchor : Hash256) (expected metadata : Bytes) (db : JournalDb) :
    Except JournalFault PoaSigningJournal :=
  if metadata ≠ expected then .error .identityMismatch
  else match readBytes db .head with
  | none => .error .missingHead
  | some encodedHead =>
    match decodeHead encodedHead with
    | none => .error .corruptHead
    | some head =>
      if head.height = 0 ∧ head.blockId ≠ genesisAnchor then .error .corruptHead
      else match readBytes db .halt with
      | some halt =>
        if haltRecordValid halt then .ok { genesisAnchor, head, halted := true }
        else .error .corruptHaltRecord
      | none =>
        if (db .halt).isSome then .error .corruptHaltRecord else .ok { genesisAnchor, head }

/-- The constructor, on the durable store.  The fate is that of its only batch,
    which a store without a journal receives. -/
def PoaSigningJournal.construct (id : JournalIdentity) (db : JournalDb) (fate : Fate) :
    JournalDb × Except JournalFault PoaSigningJournal :=
  match id.finalizerKeyId with
  | none => (db, .error .invalidPublicKey)
  | some keyId =>
    if Hash256.isNull id.networkBinding || Hash256.isNull id.genesisAnchor then
      (db, .error .invalidIdentity)
    else
      let expected := expectedMetadata id.networkBinding keyId id.genesisAnchor
      match readBytes db .metadata with
      | some metadata => (db, PoaSigningJournal.load id.genesisAnchor expected metadata db)
      | none =>
        if (db .metadata).isSome || (db .head).isSome || (db .halt).isSome then
          (db, .error .incomplete)
        else
          let head : PoaJournalHead := ⟨0, Hash256.ZERO, id.genesisAnchor⟩
          let db := db.write [.put .metadata (encodeLocalBytes expected),
            .put .head (encodeLocalBytes (encodeHead head))] fate
          (db, if fate = .done then .ok { genesisAnchor := id.genesisAnchor, head }
            else .error .storage)

namespace PoaSigningJournal

/-- What a call returns, with the object and the store it leaves. -/
structure Reply where
  status : PoaJournalStatus
  journal : PoaSigningJournal
  db : JournalDb

/-- `PersistHalt`, with the status its two callers make of its result. -/
def persistHalt (j : PoaSigningJournal) (db : JournalDb) (reason : PoaJournalStatus)
    (fate : Fate) : Reply where
  status := if fate = .done then reason else .storageError
  journal := { j with halted := true, historyVerified := false }
  db := db.write [.put .halt (encodeLocalBytes [reason.code])] fate

def tipMatches (j : PoaSigningJournal) (finalizedHeight : UInt64) (finalizedTip : Hash256) : Bool :=
  if j.head.height = 0 then finalizedHeight = 0 ∧ finalizedTip = j.genesisAnchor
  else if finalizedHeight = j.head.height then finalizedTip = j.head.blockId
  else if finalizedHeight ≠ UINT64_MAX ∧ finalizedHeight + 1 = j.head.height then
    finalizedTip = j.head.parentBlockId
  else false

def checkCanonicalTip (j : PoaSigningJournal) (db : JournalDb) (finalizedHeight : UInt64)
    (finalizedTip : Hash256) (fate : Fate) : Reply :=
  if j.halted then ⟨.journalHalted, j, db⟩
  else if j.tipMatches finalizedHeight finalizedTip then
    ⟨.none, { j with verifiedHeight := finalizedHeight, verifiedTip := finalizedTip,
                     historyVerified := true }, db⟩
  else { j with historyVerified := false }.persistHalt db .historyMismatch fate

def prepareToSign (j : PoaSigningJournal) (db : JournalDb) (next : PoaJournalHead)
    (fate : Fate) : Reply :=
  if j.halted then ⟨.journalHalted, j, db⟩
  else if !j.historyVerified then ⟨.historyNotVerified, j, db⟩
  else if next.height = 0 ∨ Hash256.isNull next.parentBlockId = true ∨
      Hash256.isNull next.blockId = true then ⟨.invalidRequest, j, db⟩
  else if next.height = j.head.height then
    if next.parentBlockId = j.head.parentBlockId ∧ next.blockId = j.head.blockId then
      ⟨.alreadyPrepared, j, db⟩
    else j.persistHalt db .equivocation fate
  else if j.head.height = UINT64_MAX ∨ next.height ≠ j.head.height + 1 then
    ⟨.heightMismatch, j, db⟩
  else if j.verifiedHeight ≠ j.head.height ∨ j.verifiedTip ≠ j.head.blockId then
    ⟨.historyNotVerified, j, db⟩
  else if next.parentBlockId ≠ j.head.blockId then ⟨.parentMismatch, j, db⟩
  else
    let db := db.write [.put .head (encodeLocalBytes (encodeHead next))] fate
    if fate = .done then ⟨.none, { j with head := next }, db⟩
    else ⟨.storageError, { j with halted := true, historyVerified := false }, db⟩

end PoaSigningJournal

/-! ### Runs -/

/-- One call, with what becomes of the record it may write.  A restart drops
    the object and runs the constructor on the durable store. -/
inductive JournalCall where
  | checkCanonicalTip (finalizedHeight : UInt64) (finalizedTip : Hash256) (fate : Fate)
  | prepareToSign (next : PoaJournalHead) (fate : Fate)
  | restart (fate : Fate)
deriving DecidableEq, Repr

def JournalCall.isRestart : JournalCall → Bool
  | .restart _ => true
  | _ => false

/-- The durable store and the journal object of the running process, if any. -/
structure Finalizer where
  db : JournalDb
  journal : Option PoaSigningJournal

namespace Finalizer

def initial : Finalizer := ⟨fun _ => none, none⟩

def after (reply : PoaSigningJournal.Reply) : Finalizer := ⟨reply.db, some reply.journal⟩

def step (id : JournalIdentity) (s : Finalizer) : JournalCall → Finalizer
  | .checkCanonicalTip finalizedHeight finalizedTip fate =>
    match s.journal with
    | some j => after (j.checkCanonicalTip s.db finalizedHeight finalizedTip fate)
    | none => s
  | .prepareToSign next fate =>
    match s.journal with
    | some j => after (j.prepareToSign s.db next fate)
    | none => s
  | .restart fate =>
    let (db, result) := PoaSigningJournal.construct id s.db fate
    ⟨db, result.toOption⟩

def run (id : JournalIdentity) : Finalizer → List JournalCall → Finalizer
  | s, [] => s
  | s, call :: calls => run id (step id s call) calls

def prepared (s : Finalizer) : JournalCall → Option (PoaJournalHead × PoaJournalStatus)
  | .prepareToSign next fate => s.journal.map fun j => (next, (j.prepareToSign s.db next fate).status)
  | _ => none

def permission (s : Finalizer) (call : JournalCall) : Option PoaJournalHead :=
  match s.prepared call with
  | some (next, .none) | some (next, .alreadyPrepared) => some next
  | _ => none

/-- The triple whose intent write the call reports as failed although it has
    become the durable head. -/
def failedIntent (id : JournalIdentity) (s : Finalizer) (call : JournalCall) :
    Option PoaJournalHead :=
  match s.prepared call with
  | some (next, .storageError) =>
    if (step id s call).db .head = some (encodeLocalBytes (encodeHead next)) then some next else none
  | _ => none

/-- What `f` extracts from the calls of a run, in order. -/
def collect {α : Type} (id : JournalIdentity) (f : Finalizer → JournalCall → Option α) :
    Finalizer → List JournalCall → List α
  | _, [] => []
  | s, call :: calls => (f s call).toList ++ collect id f (step id s call) calls

def permissions (id : JournalIdentity) : Finalizer → List JournalCall → List PoaJournalHead :=
  collect id permission

def failedIntents (id : JournalIdentity) : Finalizer → List JournalCall → List PoaJournalHead :=
  collect id (failedIntent id)

/-- The durable head that a call permits or leaves behind. -/
def journals (id : JournalIdentity) (s : Finalizer) (call : JournalCall) : Option PoaJournalHead :=
  (s.permission call).or (s.failedIntent id call)

def journaled (id : JournalIdentity) : Finalizer → List JournalCall → List PoaJournalHead :=
  collect id (journals id)

end Finalizer

/-! ### Records read back -/

theorem readHead_exact : Reader.Exact readHead encodeHead PoaJournalHead.WellFormed := by
  intro b head rest
  simp only [readHead, Reader.u64_exact.bind, (Reader.fixed_exact 32).bind, Reader.require_bind,
    Reader.pure_eq_some, true_and, PoaJournalHead.WellFormed, encodeHead]
  constructor
  · rintro ⟨height, _, rfl, parent, _, rfl, block, _, rfl, hok, rfl, rfl⟩
    refine ⟨?_, by simp⟩
    simp only at hok ⊢
    grind
  · rintro ⟨hok, rfl⟩
    refine ⟨head.height, _, by simp only [List.append_assoc], head.parentBlockId, _, rfl,
      head.blockId, _, rfl, ?_, rfl, rfl⟩
    grind

variable {a b head : PoaJournalHead}

theorem decodeHead_eq_some {bytes : Bytes} :
    decodeHead bytes = some head ↔ head.WellFormed ∧ bytes = encodeHead head :=
  readHead_exact.whole

theorem encodeHead_inj (ha : a.WellFormed) (hb : b.WellFormed) (h : encodeHead a = encodeHead b) : a = b := by
  have hdecode : decodeHead (encodeHead a) = some a := decodeHead_eq_some.mpr ⟨ha, rfl⟩
  rw [decodeHead_eq_some.mpr ⟨hb, h⟩] at hdecode
  exact (Option.some.inj hdecode).symm

theorem length_encodeHead (head : PoaJournalHead) : (encodeHead head).length = 72 := by
  simp [encodeHead, head.parentBlockId.2, head.blockId.2]

variable {db : JournalDb}

theorem readBytes_head (h : db .head = some (encodeLocalBytes (encodeHead head))) :
    readBytes db .head = some (encodeHead head) :=
  readBytes_of_small h (by rw [length_encodeHead]; decide)

theorem headRecord_inj (ha : a.WellFormed) (hb : b.WellFormed)
    (h : encodeLocalBytes (encodeHead a) = encodeLocalBytes (encodeHead b)) : a = b := by
  let db : JournalDb := fun _ => some (encodeLocalBytes (encodeHead a))
  have hread : readBytes db .head = some (encodeHead a) := readBytes_head rfl
  rw [readBytes_head (h ▸ rfl : db .head = some (encodeLocalBytes (encodeHead b)))] at hread
  exact encodeHead_inj ha hb (Option.some.inj hread).symm

/-! ### What each call does -/

variable {key : JournalKey} {value : Bytes} {fate : Fate}

theorem JournalDb.write_of_ne {other : JournalKey}
    (h : other ≠ key) : db.write [.put key value] fate other = db other := by
  cases fate with
  | done => exact Function.update_of_ne h _ db
  | lost => rfl
  | stored => exact Function.update_of_ne h _ db

theorem JournalDb.write_self (h : fate ≠ .lost) : db.write [.put key value] fate key = some value := by
  cases fate with
  | done => exact Function.update_self key _ db
  | lost => exact absurd rfl h
  | stored => exact Function.update_self key _ db

namespace PoaSigningJournal

theorem checkCanonicalTip_head (j : PoaSigningJournal) (db : JournalDb) (finalizedHeight : UInt64)
    (finalizedTip : Hash256) (fate : Fate) :
    (j.checkCanonicalTip db finalizedHeight finalizedTip fate).db .head = db .head := by
  unfold checkCanonicalTip
  split
  · rfl
  split
  · rfl
  · exact JournalDb.write_of_ne (by decide)

theorem checkCanonicalTip_running {j : PoaSigningJournal} {db : JournalDb} {finalizedHeight : UInt64}
    {finalizedTip : Hash256} {fate : Fate}
    (h : (j.checkCanonicalTip db finalizedHeight finalizedTip fate).journal.halted = false) :
    j.halted = false ∧ (j.checkCanonicalTip db finalizedHeight finalizedTip fate).db = db ∧
      (j.checkCanonicalTip db finalizedHeight finalizedTip fate).journal.head = j.head := by
  unfold checkCanonicalTip at h ⊢
  cases hj : j.halted with
  | true => simp [hj] at h
  | false =>
    simp only [hj, Bool.false_eq_true, if_false] at h ⊢
    split at h
    · rename_i hmatch
      simp [hmatch]
    · simp [persistHalt] at h

inductive PrepareOutcome (j : PoaSigningJournal) (db : JournalDb) (next : PoaJournalHead)
    (fate : Fate) : Reply → Prop where
  | refused {status : PoaJournalStatus} (hnone : status ≠ .none)
      (hagain : status ≠ .alreadyPrepared) (hfail : status ≠ .storageError) :
      PrepareOutcome j db next fate ⟨status, j, db⟩
  | again (running : j.halted = false) (same : next = j.head) (positive : next.height ≠ 0) :
      PrepareOutcome j db next fate ⟨.alreadyPrepared, j, db⟩
  | conflict (running : j.halted = false) (differs : next ≠ j.head) (wellFormed : next.WellFormed) :
      PrepareOutcome j db next fate (j.persistHalt db .equivocation fate)
  | advance (running : j.halted = false)
      (succ : next.height.toNat = j.head.height.toNat + 1)
      (parent : next.parentBlockId = j.head.blockId) (wellFormed : next.WellFormed) :
      PrepareOutcome j db next fate
        ⟨if fate = .done then .none else .storageError,
          if fate = .done then { j with head := next }
          else { j with halted := true, historyVerified := false },
          db.write [.put .head (encodeLocalBytes (encodeHead next))] fate⟩

/-- The four outcomes of `PrepareToSign`. -/
theorem prepareToSign_outcome (j : PoaSigningJournal) (db : JournalDb) (next : PoaJournalHead)
    (fate : Fate) : PrepareOutcome j db next fate (j.prepareToSign db next fate) := by
  unfold prepareToSign
  by_cases hhalted : j.halted = true
  · rw [if_pos hhalted]
    exact .refused (by decide) (by decide) (by decide)
  · have hrunning : j.halted = false := by simpa using hhalted
    rw [if_neg hhalted]
    split
    · exact .refused (by decide) (by decide) (by decide)
    split
    · exact .refused (by decide) (by decide) (by decide)
    rename_i hrequest
    have hwell : next.WellFormed := by
      unfold PoaJournalHead.WellFormed
      grind
    split
    · rename_i hheight
      split
      · rename_i hsame
        have hnext : next = j.head := by
          obtain ⟨height, parent, block⟩ := next
          simp only at hheight hsame
          rw [hheight, hsame.1, hsame.2]
        exact .again hrunning hnext fun h => hrequest (.inl h)
      · rename_i hdiffers
        exact .conflict hrunning (fun h => hdiffers (by simp [h])) hwell
    split
    · exact .refused (by decide) (by decide) (by decide)
    rename_i hsucc
    split
    · exact .refused (by decide) (by decide) (by decide)
    split
    · exact .refused (by decide) (by decide) (by decide)
    rename_i hparent
    have hnat : next.height.toNat = j.head.height.toNat + 1 := by
      have hmax : j.head.height ≠ UINT64_MAX := fun h => hsucc (.inl h)
      have hnext : next.height = j.head.height + 1 := by
        by_contra h
        exact hsucc (.inr h)
      have hbound : j.head.height.toNat ≠ UINT64_MAX.toNat := fun h => hmax (UInt64.toNat_inj.mp h)
      have hlt := j.head.height.toNat_lt
      have hval : UINT64_MAX.toNat = 2 ^ 64 - 1 := by decide
      rw [hnext, UInt64.toNat_add]
      change (j.head.height.toNat + 1) % 2 ^ 64 = _
      omega
    have hadvance : PrepareOutcome j db next fate _ :=
      .advance hrunning hnat (by simpa using hparent) hwell
    by_cases hfate : fate = .done
    · simpa only [hfate, if_true] using hadvance
    · simpa only [hfate, if_false] using hadvance

end PoaSigningJournal

def genesisHead (id : JournalIdentity) : PoaJournalHead := ⟨0, Hash256.ZERO, id.genesisAnchor⟩

structure PoaJournalHead.Fits (id : JournalIdentity) (head : PoaJournalHead) : Prop where
  wellFormed : head.WellFormed
  genesis : head.height = 0 → head.blockId = id.genesisAnchor

namespace PoaSigningJournal

theorem load_ok {genesisAnchor : Hash256} {expected metadata : Bytes} {db : JournalDb}
    {j : PoaSigningJournal} (h : load genesisAnchor expected metadata db = .ok j) :
    (∃ bytes, readBytes db .head = some bytes ∧ decodeHead bytes = some j.head) ∧
      (j.head.height = 0 → j.head.blockId = genesisAnchor) ∧ j.halted = (db .halt).isSome := by
  unfold load at h
  split at h
  · cases h
  split at h
  · cases h
  rename_i bytes hbytes
  split at h
  · cases h
  rename_i head hhead
  split at h
  · cases h
  rename_i hgenesis
  have hzero : head.height = 0 → head.blockId = genesisAnchor := by
    intro h0
    by_contra hne
    exact hgenesis ⟨h0, hne⟩
  split at h
  · rename_i halt hhalt
    have hsome : (db .halt).isSome = true := by
      cases hdb : db .halt with
      | none => simp [readBytes, hdb] at hhalt
      | some _ => rfl
    split at h
    · cases h
      exact ⟨⟨bytes, hbytes, hhead⟩, hzero, hsome.symm⟩
    · cases h
  · split at h
    · cases h
    · rename_i hnone
      cases h
      exact ⟨⟨bytes, hbytes, hhead⟩, hzero, by simpa using hnone⟩

/-- The constructor leaves the store alone or, on a store without a journal,
    installs the genesis head; a journal it returns caches the head it leaves
    and is halted if there is a halt record. -/
theorem construct_cases (id : JournalIdentity) (db : JournalDb) (fate : Fate) :
    ((construct id db fate).1 = db ∨
      (db .head = none ∧ db .halt = none ∧ (genesisHead id).Fits id ∧
        (construct id db fate).1 .halt = none ∧
        (construct id db fate).1 .head = some (encodeLocalBytes (encodeHead (genesisHead id))))) ∧
    ∀ j, (construct id db fate).2 = .ok j →
      j.halted = ((construct id db fate).1 .halt).isSome ∧ j.head.Fits id ∧
        readBytes (construct id db fate).1 .head = some (encodeHead j.head) := by
  unfold construct
  split
  · exact ⟨.inl rfl, nofun⟩
  split
  · exact ⟨.inl rfl, nofun⟩
  rename_i keyId _ hnull
  dsimp only
  split
  · refine ⟨.inl rfl, fun j hj => ?_⟩
    obtain ⟨⟨bytes, hbytes, hhead⟩, hgenesis, hhalted⟩ := load_ok hj
    obtain ⟨hwell, rfl⟩ := decodeHead_eq_some.mp hhead
    exact ⟨hhalted, ⟨hwell, hgenesis⟩, hbytes⟩
  split
  · exact ⟨.inl rfl, nofun⟩
  rename_i habsent
  simp only [Bool.or_eq_true, Option.isSome_iff_ne_none, not_or, not_not] at habsent
  have hfits : (genesisHead id).Fits id := by
    refine ⟨⟨?_, ?_⟩, fun _ => rfl⟩
    · simp only [Bool.or_eq_true, not_or, Bool.not_eq_true] at hnull
      exact hnull.2
    · simp [genesisHead, Hash256.isNull_iff]
  cases fate with
  | lost => exact ⟨.inl rfl, nofun⟩
  | stored =>
    refine ⟨.inr ⟨habsent.1.2, habsent.2, hfits, ?_, ?_⟩, nofun⟩
    · simpa [Store.write, Edit.key, Edit.value] using habsent.2
    · simp [Store.write, Edit.key, Edit.value, genesisHead]
  | done =>
    have hhead : db.write [.put .metadata (encodeLocalBytes
        (expectedMetadata id.networkBinding keyId id.genesisAnchor)),
        .put .head (encodeLocalBytes (encodeHead (genesisHead id)))] .done .head =
        some (encodeLocalBytes (encodeHead (genesisHead id))) := by
      simp [Store.write, Edit.key, Edit.value]
    have hhalt : db.write [.put .metadata (encodeLocalBytes
        (expectedMetadata id.networkBinding keyId id.genesisAnchor)),
        .put .head (encodeLocalBytes (encodeHead (genesisHead id)))] .done .halt = none := by
      simpa [Store.write, Edit.key, Edit.value] using habsent.2
    refine ⟨.inr ⟨habsent.1.2, habsent.2, hfits, hhalt, hhead⟩, fun j hj => ?_⟩
    cases hj
    refine ⟨?_, hfits, readBytes_head hhead⟩
    change false = (Store.write db _ .done .halt).isSome
    rw [show (⟨0, Hash256.ZERO, id.genesisAnchor⟩ : PoaJournalHead) = genesisHead id from rfl, hhalt]
    rfl

end PoaSigningJournal

/-! ### The durable head along a run -/

namespace Finalizer

variable {id : JournalIdentity} {s : Finalizer} {head : PoaJournalHead} {J : List PoaJournalHead}

/-- The parent of `a` is the genesis anchor or a block of `J` one below it. -/
def ParentIn (id : JournalIdentity) (J : List PoaJournalHead) (a : PoaJournalHead) : Prop :=
  (a.height = 1 ∧ a.parentBlockId = id.genesisAnchor) ∨
    ∃ p ∈ J, p.height.toNat + 1 = a.height.toNat ∧ p.blockId = a.parentBlockId

structure Tracks (id : JournalIdentity) (s : Finalizer) (head : PoaJournalHead)
    (J : List PoaJournalHead) : Prop where
  durable : s.db .head = some (encodeLocalBytes (encodeHead head))
  fits : head.Fits id
  cached : ∀ j, s.journal = some j → j.halted = false → j.head = head
  below : ∀ a ∈ J, a.height ≤ head.height ∧ (a.height = head.height → a = head)
  reached : head.height = 0 ∨ head ∈ J
  ordered : J.Pairwise fun a b => a.height ≤ b.height ∧ (a.height = b.height → a = b)
  parents : ∀ a ∈ J, ParentIn id J a

def Consistent (id : JournalIdentity) (s : Finalizer) (J : List PoaJournalHead) : Prop :=
  (s.db .head = none ∧ s.journal = none ∧ J = []) ∨ ∃ head, Tracks id s head J

variable {a : PoaJournalHead}

theorem ParentIn.mono {J' : List PoaJournalHead} (h : ParentIn id J a)
    (hsub : ∀ p ∈ J, p ∈ J') : ParentIn id J' a := by
  obtain h | ⟨p, hp, hrest⟩ := h
  · exact .inl h
  · exact .inr ⟨p, hsub p hp, hrest⟩

variable {s' : Finalizer}

theorem Tracks.stay (h : Tracks id s head J) (hdb : s'.db .head = s.db .head)
    (hcached : ∀ j, s'.journal = some j → j.halted = false → j.head = head) :
    Tracks id s' head J where
  durable := hdb.trans h.durable
  fits := h.fits
  cached := hcached
  below := h.below
  reached := h.reached
  ordered := h.ordered
  parents := h.parents

theorem Tracks.again (h : Tracks id s head J) (hpos : head.height ≠ 0) :
    Tracks id s head (J ++ [head]) := by
  have hmem : head ∈ J := h.reached.resolve_left hpos
  refine ⟨h.durable, h.fits, h.cached, ?_, .inr (by simp), ?_, ?_⟩
  · intro a ha
    rcases List.mem_append.mp ha with ha | ha
    · exact h.below a ha
    · rw [List.mem_singleton.mp ha]
      exact ⟨UInt64.le_refl _, fun _ => rfl⟩
  · rw [List.pairwise_append]
    refine ⟨h.ordered, List.pairwise_singleton _ _, ?_⟩
    intro a ha b hb
    rw [List.mem_singleton.mp hb]
    exact h.below a ha
  · intro a ha
    have ha' : a ∈ J := by
      rcases List.mem_append.mp ha with ha | ha
      · exact ha
      · rw [List.mem_singleton.mp ha]
        exact hmem
    exact (h.parents a ha').mono fun p hp => List.mem_append_left _ hp

theorem Tracks.advance {next : PoaJournalHead} (h : Tracks id s head J)
    (hsucc : next.height.toNat = head.height.toNat + 1) (hparent : next.parentBlockId = head.blockId)
    (hwell : next.WellFormed) (hdb : s'.db .head = some (encodeLocalBytes (encodeHead next)))
    (hcached : ∀ j, s'.journal = some j → j.halted = false → j.head = next) :
    Tracks id s' next (J ++ [next]) := by
  have hlt : ∀ a ∈ J, a.height < next.height := by
    intro a ha
    have hle := UInt64.le_iff_toNat_le.mp (h.below a ha).1
    rw [UInt64.lt_iff_toNat_lt]
    omega
  refine ⟨hdb, ⟨hwell, ?_⟩, hcached, ?_, .inr (by simp), ?_, ?_⟩
  · intro h0
    simp [h0] at hsucc
  · intro a ha
    rcases List.mem_append.mp ha with ha | ha
    · exact ⟨UInt64.le_of_lt (hlt a ha), fun heq => absurd (heq ▸ hlt a ha) (UInt64.lt_irrefl _)⟩
    · rw [List.mem_singleton.mp ha]
      exact ⟨UInt64.le_refl _, fun _ => rfl⟩
  · rw [List.pairwise_append]
    refine ⟨h.ordered, List.pairwise_singleton _ _, ?_⟩
    intro a ha b hb
    rw [List.mem_singleton.mp hb]
    exact ⟨UInt64.le_of_lt (hlt a ha), fun heq => absurd (heq ▸ hlt a ha) (UInt64.lt_irrefl _)⟩
  · intro a ha
    rcases List.mem_append.mp ha with ha | ha
    · exact (h.parents a ha).mono fun p hp => List.mem_append_left _ hp
    · rw [List.mem_singleton.mp ha]
      rcases h.reached with h0 | hmem
      · refine .inl ⟨?_, hparent.trans (h.fits.genesis h0)⟩
        apply UInt64.toNat_inj.mp
        rw [hsucc, h0]
        rfl
      · exact .inr ⟨head, List.mem_append_left _ hmem, hsucc.symm, hparent.symm⟩

theorem restart_head {fate : Fate} {j : PoaSigningJournal} (hfits : head.Fits id)
    (hdb : (step id s (.restart fate)).db .head = some (encodeLocalBytes (encodeHead head)))
    (hj : (step id s (.restart fate)).journal = some j) : j.head = head := by
  obtain ⟨-, hopened⟩ := PoaSigningJournal.construct_cases id s.db fate
  cases hresult : (PoaSigningJournal.construct id s.db fate).2 with
  | error fault => simp [step, hresult, Except.toOption] at hj
  | ok j' =>
    obtain rfl : j' = j := by simpa [step, hresult, Except.toOption] using hj
    obtain ⟨-, hfits', hread⟩ := hopened j' hresult
    have hhead : some (encodeHead head) = some (encodeHead j'.head) := (readBytes_head hdb).symm.trans hread
    exact (encodeHead_inj hfits.wellFormed hfits'.wellFormed (Option.some.inj hhead)).symm

theorem Consistent.restart (h : Consistent id s J) (fate : Fate) :
    Consistent id (step id s (.restart fate)) J := by
  obtain ⟨hdb, hopened⟩ := PoaSigningJournal.construct_cases id s.db fate
  obtain ⟨hnone, -, rfl⟩ | ⟨head, h⟩ := h
  · rcases hdb with hsame | ⟨-, -, hfits, -, hwritten⟩
    · have hempty : (step id s (.restart fate)).db .head = none := (congrFun hsame _).trans hnone
      refine .inl ⟨hempty, ?_, rfl⟩
      cases hresult : (PoaSigningJournal.construct id s.db fate).2 with
      | error fault => simp [step, hresult, Except.toOption]
      | ok j =>
        have hread := (hopened j hresult).2.2
        rw [hsame, readBytes, hnone] at hread
        cases hread
    · exact .inr ⟨genesisHead id, hwritten, hfits, fun j hj _ => restart_head hfits hwritten hj,
        by simp, .inl rfl, List.Pairwise.nil, by simp⟩
  · have hsame : (step id s (.restart fate)).db .head = s.db .head := by
      rcases hdb with hsame | ⟨hnone, -⟩
      · exact congrFun hsame _
      · rw [h.durable] at hnone
        cases hnone
    exact .inr ⟨head, h.stay hsame fun j hj _ => restart_head h.fits (hsame.trans h.durable) hj⟩

/-- The step: the journaled intents stay a chain whose last one is durable. -/
theorem Consistent.prepareToSign (h : Consistent id s J) (next : PoaJournalHead) (fate : Fate) :
    Consistent id (step id s (.prepareToSign next fate))
      (J ++ (journals id s (.prepareToSign next fate)).toList) := by
  cases hjournal : s.journal with
  | none => simpa [step, journals, permission, failedIntent, prepared, hjournal] using h
  | some j =>
    obtain ⟨-, hnone, -⟩ | ⟨head, h⟩ := h
    · rw [hnone] at hjournal
      cases hjournal
    have houtcome := j.prepareToSign_outcome s.db next fate
    generalize hreply : j.prepareToSign s.db next fate = reply at houtcome
    have hstep : step id s (.prepareToSign next fate) = after reply := by
      simp only [step, hjournal, hreply]
    have hprepared : s.prepared (.prepareToSign next fate) = some (next, reply.status) := by
      simp only [prepared, hjournal, hreply, Option.map_some]
    refine .inr ?_
    cases houtcome with
    | refused h₁ h₂ h₃ =>
      rename_i status
      have hquiet : journals id s (.prepareToSign next fate) = none := by
        cases status <;> simp_all [journals, permission, failedIntent]
      rw [hstep, hquiet, Option.toList_none, List.append_nil]
      refine ⟨head, h.stay rfl ?_⟩
      intro j' hj' hrunning
      obtain rfl : j = j' := Option.some.inj hj'
      exact h.cached j hjournal hrunning
    | again running same positive =>
      have hhead : j.head = head := h.cached j hjournal running
      have hagain : journals id s (.prepareToSign next fate) = some next := by
        simp [journals, permission, hprepared]
      rw [hstep, hagain, same, hhead]
      rw [same, hhead] at positive
      refine ⟨head, (h.again positive).stay rfl ?_⟩
      intro j' hj' hrunning
      obtain rfl : j = j' := Option.some.inj hj'
      exact hhead
    | conflict running differs wellFormed =>
      have hhead : j.head = head := h.cached j hjournal running
      have hdb : (after (j.persistHalt s.db .equivocation fate)).db .head = s.db .head :=
        JournalDb.write_of_ne (by decide)
      have hquiet : journals id s (.prepareToSign next fate) = none := by
        have hother : ¬s.db .head = some (encodeLocalBytes (encodeHead next)) := by
          rw [h.durable]
          intro heq
          apply differs
          rw [hhead]
          exact headRecord_inj wellFormed h.fits.wellFormed (Option.some.inj heq).symm
        simp only [journals, permission, failedIntent, hprepared, hstep, hdb]
        by_cases hfate : fate = .done
        · simp [PoaSigningJournal.persistHalt, hfate]
        · simp [PoaSigningJournal.persistHalt, hfate, hother]
      rw [hstep, hquiet, Option.toList_none, List.append_nil]
      refine ⟨head, h.stay hdb ?_⟩
      intro j' hj' hrunning
      obtain rfl := Option.some.inj hj'
      cases hrunning
    | advance running succ parent wellFormed =>
      have hhead : j.head = head := h.cached j hjournal running
      rw [hhead] at succ parent
      cases fate with
      | lost =>
        have hquiet : journals id s (.prepareToSign next .lost) = none := by
          have hother : ¬s.db .head = some (encodeLocalBytes (encodeHead next)) := by
            rw [h.durable]
            intro heq
            have hsame := headRecord_inj h.fits.wellFormed wellFormed (Option.some.inj heq)
            rw [hsame] at succ
            omega
          simpa [journals, permission, failedIntent, hprepared, hstep, after, Store.write] using hother
        rw [hstep, hquiet, Option.toList_none, List.append_nil]
        refine ⟨head, h.stay rfl ?_⟩
        intro j' hj' hrunning
        obtain rfl := Option.some.inj hj'
        cases hrunning
      | stored =>
        have hwritten : s.db.write [.put .head (encodeLocalBytes (encodeHead next))] .stored .head =
            some (encodeLocalBytes (encodeHead next)) := JournalDb.write_self (by decide)
        have hintent : journals id s (.prepareToSign next .stored) = some next := by
          simp [journals, permission, failedIntent, hprepared, hstep, after, Store.write, Edit.key,
            Edit.value]
        rw [hstep, hintent]
        refine ⟨next, h.advance succ parent wellFormed hwritten ?_⟩
        intro j' hj' hrunning
        obtain rfl := Option.some.inj hj'
        cases hrunning
      | done =>
        have hwritten : s.db.write [.put .head (encodeLocalBytes (encodeHead next))] .done .head =
            some (encodeLocalBytes (encodeHead next)) := JournalDb.write_self (by decide)
        have hintent : journals id s (.prepareToSign next .done) = some next := by
          simp [journals, permission, hprepared]
        rw [hstep, hintent]
        refine ⟨next, h.advance succ parent wellFormed hwritten ?_⟩
        intro j' hj' _
        obtain rfl := Option.some.inj hj'
        rfl

theorem Consistent.checkCanonicalTip (h : Consistent id s J) (finalizedHeight : UInt64)
    (finalizedTip : Hash256) (fate : Fate) :
    Consistent id (step id s (.checkCanonicalTip finalizedHeight finalizedTip fate)) J := by
  cases hjournal : s.journal with
  | none => simpa [step, hjournal] using h
  | some j =>
    obtain ⟨-, hnone, -⟩ | ⟨head, h⟩ := h
    · rw [hnone] at hjournal
      cases hjournal
    refine .inr ⟨head, h.stay ?_ ?_⟩
    · simp only [step, hjournal, after]
      exact j.checkCanonicalTip_head ..
    · intro j' hj' hrunning
      simp only [step, hjournal, after, Option.some.injEq] at hj'
      subst hj'
      obtain ⟨hrun, -, hsame⟩ := PoaSigningJournal.checkCanonicalTip_running hrunning
      rw [hsame]
      exact h.cached j hjournal hrun

theorem Consistent.step (h : Consistent id s J) (call : JournalCall) :
    Consistent id (step id s call) (J ++ (journals id s call).toList) := by
  cases call with
  | checkCanonicalTip finalizedHeight finalizedTip fate =>
    simpa [journals, permission, failedIntent, prepared]
      using h.checkCanonicalTip finalizedHeight finalizedTip fate
  | prepareToSign next fate => exact h.prepareToSign next fate
  | restart fate => simpa [journals, permission, failedIntent, prepared] using h.restart fate

variable {calls : List JournalCall}

theorem Consistent.run (h : Consistent id s J) :
    Consistent id (run id s calls) (J ++ journaled id s calls) := by
  induction calls generalizing s J with
  | nil => simpa [Finalizer.run, journaled, collect] using h
  | cons call calls ih =>
    have := ih (h.step call)
    rwa [List.append_assoc] at this

theorem consistent_initial : Consistent id initial [] := .inl ⟨rfl, rfl, rfl⟩

/-! ### Halts -/

theorem collect_eq_nil {α : Type} {f : Finalizer → JournalCall → Option α} {P : Finalizer → Prop} (hs : P s)
    (hstep : ∀ s, P s → ∀ call ∈ calls, f s call = none ∧ P (Finalizer.step id s call)) :
    collect id f s calls = [] := by
  induction calls generalizing s with
  | nil => rfl
  | cons call calls ih =>
    obtain ⟨hnone, hnext⟩ := hstep s hs call List.mem_cons_self
    rw [collect, hnone, Option.toList_none, List.nil_append]
    exact ih hnext fun s hs call hcall => hstep s hs call (List.mem_cons_of_mem _ hcall)

/-- No process, or one whose journal has halted. -/
def Silent (s : Finalizer) : Prop := ∀ j, s.journal = some j → j.halted = true

theorem Silent.prepared (h : Silent s) (call : JournalCall) :
    s.prepared call = none ∨ ∃ next, s.prepared call = some (next, .journalHalted) := by
  cases call with
  | checkCanonicalTip _ _ _ => exact .inl rfl
  | restart _ => exact .inl rfl
  | prepareToSign next fate =>
    cases hj : s.journal with
    | none => exact .inl (by simp [Finalizer.prepared, hj])
    | some j =>
      exact .inr ⟨next, by simp [Finalizer.prepared, hj, PoaSigningJournal.prepareToSign, h j hj]⟩

theorem Silent.permission (h : Silent s) (call : JournalCall) : s.permission call = none := by
  rcases h.prepared call with hnone | ⟨next, hhalted⟩
  · simp [Finalizer.permission, hnone]
  · simp [Finalizer.permission, hhalted]

theorem Silent.step_eq (h : Silent s) {call : JournalCall} (hcall : call.isRestart = false) :
    Finalizer.step id s call = s := by
  obtain ⟨db, journal⟩ := s
  cases journal with
  | none =>
    cases call with
    | restart _ => cases hcall
    | _ => rfl
  | some j =>
    have hj : j.halted = true := h j rfl
    cases call with
    | restart _ => cases hcall
    | checkCanonicalTip _ _ _ => simp [Finalizer.step, after, PoaSigningJournal.checkCanonicalTip, hj]
    | prepareToSign _ _ => simp [Finalizer.step, after, PoaSigningJournal.prepareToSign, hj]

/-- Only halted journals run beside a halt record. -/
def HaltSafe (s : Finalizer) : Prop := (s.db .halt).isSome → s.Silent

theorem HaltSafe.restart (s : Finalizer) (fate : Fate) :
    HaltSafe (Finalizer.step id s (.restart fate)) := by
  obtain ⟨-, hopened⟩ := PoaSigningJournal.construct_cases id s.db fate
  intro hhalt j hj
  cases hresult : (PoaSigningJournal.construct id s.db fate).2 with
  | error fault => simp [Finalizer.step, hresult, Except.toOption] at hj
  | ok j' =>
    obtain rfl : j' = j := by simpa [Finalizer.step, hresult, Except.toOption] using hj
    exact (hopened j' hresult).1.trans hhalt

theorem HaltSafe.call {call : JournalCall} (hnone : (s.db .halt).isSome = false)
    (hcall : call.isRestart = false) : HaltSafe (Finalizer.step id s call) := by
  intro hhalt j hj
  by_contra hrunning
  rw [Bool.not_eq_true] at hrunning
  apply Bool.false_ne_true
  rw [← hnone, ← hhalt]
  cases hjournal : s.journal with
  | none =>
    cases call with
    | restart _ => cases hcall
    | _ => simp [Finalizer.step, hjournal] at hj
  | some j₀ =>
    cases call with
    | restart _ => cases hcall
    | checkCanonicalTip finalizedHeight finalizedTip fate =>
      simp only [Finalizer.step, hjournal, after, Option.some.injEq] at hj ⊢
      subst hj
      rw [(PoaSigningJournal.checkCanonicalTip_running hrunning).2.1]
    | prepareToSign next fate =>
      simp only [Finalizer.step, hjournal, after, Option.some.injEq] at hj ⊢
      have houtcome := j₀.prepareToSign_outcome s.db next fate
      generalize j₀.prepareToSign s.db next fate = reply at houtcome hj
      cases houtcome with
      | refused _ _ _ => rfl
      | again _ _ _ => rfl
      | conflict _ _ _ =>
        subst hj
        cases hrunning
      | advance _ _ _ _ => exact congrArg Option.isSome (JournalDb.write_of_ne (by decide)).symm

theorem HaltSafe.step (h : HaltSafe s) (call : JournalCall) :
    HaltSafe (Finalizer.step id s call) ∧
      ((s.db .halt).isSome → ((Finalizer.step id s call).db .halt).isSome) := by
  cases hcall : call.isRestart with
  | true =>
    cases call with
    | restart fate =>
      refine ⟨HaltSafe.restart s fate, fun hhalt => ?_⟩
      obtain ⟨hsame | ⟨-, hnone, -⟩, -⟩ := PoaSigningJournal.construct_cases id s.db fate
      · simpa [Finalizer.step, hsame] using hhalt
      · rw [hnone] at hhalt
        cases hhalt
    | _ => cases hcall
  | false =>
    cases hhalt : (s.db .halt).isSome with
    | true =>
      rw [(h hhalt).step_eq hcall]
      exact ⟨h, fun _ => hhalt⟩
    | false => exact ⟨HaltSafe.call hhalt hcall, nofun⟩

theorem haltSafe_run (h : HaltSafe s) : HaltSafe (run id s calls) := by
  induction calls generalizing s with
  | nil => exact h
  | cons call calls ih => exact ih (h.step call).1

/-! ### The journal never equivocates -/

theorem permissions_sublist (s : Finalizer) (calls : List JournalCall) :
    (permissions id s calls).Sublist (journaled id s calls) := by
  induction calls generalizing s with
  | nil => exact List.Sublist.refl _
  | cons call calls ih =>
    refine List.Sublist.append ?_ (ih _)
    cases hpermission : s.permission call with
    | none => simp
    | some next => simp [journals, hpermission]

theorem mem_journaled {s : Finalizer} (h : a ∈ journaled id s calls) :
    a ∈ permissions id s calls ∨ a ∈ failedIntents id s calls := by
  induction calls generalizing s with
  | nil => cases h
  | cons call calls ih =>
    simp only [journaled, permissions, failedIntents, collect, List.mem_append,
      Option.mem_toList] at h ih ⊢
    rcases h with h | h
    · cases hpermission : s.permission call with
      | none =>
        rw [journals, hpermission, Option.none_or] at h
        exact .inr (.inl h)
      | some next =>
        rw [journals, hpermission, Option.some_or] at h
        exact .inl (.inl h)
    · rcases ih h with h | h
      · exact .inl (.inr h)
      · exact .inr (.inr h)

/-- What holds of the permissions of a run from an empty store. -/
structure SafeRun (id : JournalIdentity) (calls : List JournalCall) : Prop where
  /-- One triple at each height. -/
  unique : ∀ a ∈ permissions id initial calls, ∀ b ∈ permissions id initial calls,
    a.height = b.height → a = b
  /-- Its parent was permitted, or its intent was stored by a write reported as failed. -/
  parent : ∀ a ∈ permissions id initial calls,
    (a.height = 1 ∧ a.parentBlockId = id.genesisAnchor) ∨
    ∃ p, (p ∈ permissions id initial calls ∨ p ∈ failedIntents id initial calls) ∧
      p.height.toNat + 1 = a.height.toNat ∧ p.blockId = a.parentBlockId
  /-- Heights do not decrease. -/
  ascending : (permissions id initial calls).Pairwise fun a b => a.height ≤ b.height
  /-- A halted process permits nothing. -/
  halted : ∀ before after, calls = before ++ after → (∀ call ∈ after, call.isRestart = false) →
    ∀ j, (run id initial before).journal = some j → j.halted = true →
      permissions id (run id initial before) after = []
  /-- Nothing is permitted once there is a halt record. -/
  haltRecord : ∀ before after, calls = before ++ after →
    ((run id initial before).db .halt).isSome → permissions id (run id initial before) after = []

theorem haltSafe_initial : HaltSafe initial := fun h => by cases h

/-- **No run permits two blocks of one height.** -/
theorem never_equivocates (id : JournalIdentity) (calls : List JournalCall) : SafeRun id calls := by
  have hrun : Consistent id (run id initial calls) ([] ++ journaled id initial calls) :=
    consistent_initial.run
  rw [List.nil_append] at hrun
  have hfacts : (journaled id initial calls).Pairwise
      (fun a b => a.height ≤ b.height ∧ (a.height = b.height → a = b)) ∧
      ∀ a ∈ journaled id initial calls, ParentIn id (journaled id initial calls) a := by
    obtain ⟨-, -, hnil⟩ | ⟨head, h⟩ := hrun
    · rw [hnil]
      exact ⟨List.Pairwise.nil, nofun⟩
    · exact ⟨h.ordered, h.parents⟩
  have hsub : (permissions id initial calls).Sublist (journaled id initial calls) :=
    permissions_sublist initial calls
  have hordered := hfacts.1.sublist hsub
  refine ⟨?_, ?_, ?_, ?_, ?_⟩
  · intro a ha b hb hheight
    by_contra hne
    have hget := List.pairwise_iff_getElem.mp hordered
    obtain ⟨i, hi, rfl⟩ := List.mem_iff_getElem.mp ha
    obtain ⟨k, hk, rfl⟩ := List.mem_iff_getElem.mp hb
    rcases Nat.lt_trichotomy i k with hlt | rfl | hlt
    · exact hne ((hget i k hi hk hlt).2 hheight)
    · exact hne rfl
    · exact hne ((hget k i hk hi hlt).2 hheight.symm).symm
  · intro a ha
    obtain hgenesis | ⟨p, hp, hrest⟩ := hfacts.2 a (hsub.mem ha)
    · exact .inl hgenesis
    · exact .inr ⟨p, mem_journaled hp, hrest⟩
  · exact hordered.imp fun h => h.1
  · intro before after _ hafter j hj hhalted
    have hsilent : Silent (run id initial before) := by
      intro j' hj'
      rw [hj] at hj'
      obtain rfl := Option.some.inj hj'
      exact hhalted
    refine collect_eq_nil (P := Silent) hsilent fun s hs call hcall => ⟨hs.permission call, ?_⟩
    rw [hs.step_eq (hafter call hcall)]
    exact hs
  · intro before after _ hhalt
    refine collect_eq_nil (P := fun s => HaltSafe s ∧ (s.db .halt).isSome)
      ⟨haltSafe_run haltSafe_initial, hhalt⟩ fun s hs call _ => ⟨(hs.1 hs.2).permission call, ?_⟩
    exact ⟨(hs.1.step call).1, (hs.1.step call).2 hs.2⟩

/-! The process below stores its intent for height 1 in a write that is
reported as failed; the next process extends that block. -/

def sampleJournal : JournalIdentity :=
  ⟨FixedBytes.leading 31 1, FixedBytes.leading 31 2, some (FixedBytes.leading 31 3)⟩

def sampleFirst : PoaJournalHead := ⟨1, FixedBytes.leading 31 2, FixedBytes.leading 31 4⟩

def sampleSecond : PoaJournalHead := ⟨2, FixedBytes.leading 31 4, FixedBytes.leading 31 5⟩

def interruptedCalls : List JournalCall :=
  [.restart .done, .checkCanonicalTip 0 (FixedBytes.leading 31 2) .done,
    .prepareToSign sampleFirst .stored, .restart .done,
    .checkCanonicalTip 1 (FixedBytes.leading 31 4) .done, .prepareToSign sampleSecond .done]

theorem parent_without_permission :
    ¬∀ a ∈ permissions sampleJournal initial interruptedCalls,
      a.parentBlockId = sampleJournal.genesisAnchor ∨
      ∃ p ∈ permissions sampleJournal initial interruptedCalls,
        p.height.toNat + 1 = a.height.toNat ∧ p.blockId = a.parentBlockId := by
  have hpermissions : permissions sampleJournal initial interruptedCalls = [sampleSecond] := by
    decide
  rw [hpermissions]
  decide

end Finalizer

end Cybou
