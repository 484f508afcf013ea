import Cybou.ExecutorFailure
import Cybou.OperationSubmission
import Cybou.StoreSpecs
import Cybou.Validity

/-! # The pool of candidate operations (`operation_pool.cpp`, `operation_work.cpp`)

An operation is held once it was executed on the working context: the last
finalized state with the operations before it applied.  A context belongs to one
head.  When the head has moved, the next call replays the entries on the new state,
and keeps no context if one of them fails.

`PoolOk` says what the counters count and that the limits hold; it survives any
call, also one that throws.  `Replays` says that the context is the one a producer
of the next block would build from the entries.
-/

namespace Cybou

open Library Proc

/-! ## Relay work -/

def OPERATION_WORK_BITS : UInt32 := 22
def NAME_OPERATION_EXTRA_WORK_BITS : UInt32 := 4

def authorizingAccount : ProtocolOperation → Option AccountId
  | .accountCreate _ | .storageSettlement _ => none
  | .identityRotate op => some op.accountId
  | .payment op => some op.authorization.accountId
  | .systemLock op => some op.authorization.accountId
  | .nameCommit op => some op.authorization.accountId
  | .nameReveal op => some op.authorization.accountId
  | .rootPublication op => some op.authorization.accountId
  | .revokePublication op => some op.authorization.accountId
  | .storageLease op => some op.authorization.accountId

def isNameOperation : ProtocolOperation → Bool
  | .nameCommit _ | .nameReveal _ => true
  | _ => false

def requiredOperationWorkBits (operation : ProtocolOperation) : UInt32 :=
  if authorizingAccount operation = none then 0
  else OPERATION_WORK_BITS + if isNameOperation operation then NAME_OPERATION_EXTRA_WORK_BITS else 0

/-! ## The pool -/

structure OperationPoolLimits where
  maxCount : Nat := 256
  maxBytes : Nat := 8 * 1024 * 1024
  maxPeerCount : Nat := 32
  maxPeerBytes : Nat := 1024 * 1024
  /-- Only for tests: one difficulty in place of the real ones. -/
  operationWorkBits : Option UInt32 := none

/-- `OperationPool::Entry`. -/
structure PoolEntry where
  operation : ProtocolOperation
  id : Hash256
  workNonce : UInt64
  bytes : Nat
  sourcePeer : Option Bytes

/-- `OperationPool::PeerUsage`. -/
structure PeerUsage where
  count : Nat := 0
  bytes : Nat := 0

section

variable [Crypto]

/-- `OperationPool::WorkingContext`. -/
structure WorkingContext where
  head : FinalizedHead
  finalizedState : CybouState
  executor : BlockExecutor

/-- What a call reads of the store.  The mutex of the finalized state is held during
    the whole call, so this does not change under it. -/
structure PoolView where
  head : Option FinalizedHead
  /-- `GetStateSnapshot`. -/
  state : Option CybouState
  hasIndexedFinalizedOperation : Hash256 → Bool

/-- `OperationPool`.  The counters are natural numbers: the limits are values of
    `size_t`, and no counter passes its limit. -/
structure OperationPool where
  limits : OperationPoolLimits
  entries : List PoolEntry := []
  ids : Finset Hash256 := ∅
  peerUsage : Store Bytes PeerUsage := fun _ => none
  bytes : Nat := 0
  working : Option WorkingContext := none

def computeOperationWorkHash (networkBinding operationId : Hash256) (nonce : UInt64) : Hash256 :=
  Crypto.sha256 (ascii "CYBOU/OP-WORK" ++ networkBinding.1 ++ operationId.1 ++ le64 nonce)

def checkOperationWork (networkBinding operationId : Hash256) (nonce : UInt64) (requiredBits : UInt32) : Bool :=
  if requiredBits = 0 then true
  else if requiredBits > 256 ∨ networkBinding.isNull = true ∨ operationId.isNull = true then false
  else decide (requiredBits.toNat ≤ leadingZeroBits (computeOperationWorkHash networkBinding operationId nonce).1)

def BlockExecutor.canFinalize (executor : BlockExecutor) : Bool :=
  if executor.valid = false then false
  else if validateCybouState executor.candidate ≠ .none then false
  else decide (totalCybou executor.candidate = executor.initialSupply)

def nextContext (g : VerifiedNetworkGenesis) (head : FinalizedHead) : BlockContext where
  networkBinding := g.networkBinding
  blockHeight := head.height + 1
  params := g.params
  poaKey := some g.poaKey
  verifiedParentId := head.blockId

namespace OperationPool

def fitsGlobalLimits (pool : OperationPool) (bytes : Nat) : Bool :=
  decide (pool.entries.length < pool.limits.maxCount) && decide (pool.bytes ≤ pool.limits.maxBytes) &&
    decide (bytes ≤ pool.limits.maxBytes - pool.bytes)

def fitsPeerLimits (pool : OperationPool) (peer : Bytes) (bytes : Nat) : Bool :=
  let usage := (pool.peerUsage peer).getD {}
  decide (usage.count < pool.limits.maxPeerCount) && decide (usage.bytes ≤ pool.limits.maxPeerBytes) &&
    decide (bytes ≤ pool.limits.maxPeerBytes - usage.bytes)

def recordUsage (peerUsage : Store Bytes PeerUsage) (peer : Bytes) (bytes : Nat) : Store Bytes PeerUsage :=
  let usage := (peerUsage peer).getD {}
  Function.update peerUsage peer (some { count := usage.count + 1, bytes := usage.bytes + bytes })

def requiredWorkBits (limits : OperationPoolLimits) (operation : ProtocolOperation) : UInt32 :=
  let bits := requiredOperationWorkBits operation
  if bits = 0 then bits else limits.operationWorkBits.getD bits

def snapshot (pool : OperationPool) : List ProtocolOperation := pool.entries.map (·.operation)

/-- `Ids`. -/
def listIds (pool : OperationPool) : List Hash256 := pool.entries.map (·.id)

def clear (pool : OperationPool) : OperationPool := { limits := pool.limits }

/-- A call of a method.  What an exception leaves behind is the state it was thrown in. -/
abbrev Call (α : Type) := Proc Fault OperationPool α

/-- The loop of `EnsureWorkingContext`, on the context that is being built. -/
def replayEntries : List PoolEntry → WorkingContext → Call PUnit
  | [], working => fun pool => .ok ⟨⟩ { pool with working := some working }
  | entry :: rest, working => fun pool =>
    match BlockExecutor.applyOperation entry.operation working.executor with
    | .error e executor => .error e { pool with working := some { working with executor } }
    | .ok result executor =>
      if result.isOk = false then .ok ⟨⟩ { pool with working := none }
      else replayEntries rest { working with executor } pool

def ensureWorkingContext (g : VerifiedNetworkGenesis) (view : PoolView) (head : FinalizedHead) : Call PUnit :=
  fun pool =>
    if pool.working.map (·.head.blockId) = some head.blockId then .ok ⟨⟩ pool
    else
      match view.state with
      | none => .ok ⟨⟩ { pool with working := none }
      | some loaded =>
        let executor := BlockExecutor.new loaded (nextContext g head)
        if executor.valid = false then .ok ⟨⟩ { pool with working := none }
        else replayEntries pool.entries { head, finalizedState := loaded, executor } pool

def candidate (operation : ProtocolOperation) (workNonce : UInt64) (sourcePeer : Option Bytes) : Option PoolEntry := do
  let encoded ← serializeProtocolOperation operation
  if encoded = [] ∨ encoded.length > MAX_OPERATION_PAYLOAD_BYTES then none
  else
    let id ← computeOperationIdOfBytes encoded
    if id.isNull = true then none
    else some { operation, id, workNonce, bytes := encoded.length, sourcePeer }

def createsExisting (finalized : CybouState) : ProtocolOperation → Bool
  | .accountCreate op => finalized.accounts.contains op.accountId
  | _ => false

def refusesPeer (pool : OperationPool) (bytes : Nat) : Option Bytes → Bool
  | none => false
  | some peer => decide (peer = []) || !pool.fitsPeerLimits peer bytes

/-- The checks before the execution, in their order. -/
def refuses (g : VerifiedNetworkGenesis) (pool : OperationPool) (working : WorkingContext) (entry : PoolEntry) : Bool :=
  createsExisting working.finalizedState entry.operation ||
    !checkOperationWork g.networkBinding entry.id entry.workNonce (requiredWorkBits pool.limits entry.operation) ||
    !pool.fitsGlobalLimits entry.bytes || pool.refusesPeer entry.bytes entry.sourcePeer

def hold (pool : OperationPool) (working : WorkingContext) (entry : PoolEntry) (executor : BlockExecutor) :
    OperationPool :=
  { pool with
    entries := pool.entries ++ [entry]
    ids := insert entry.id pool.ids
    bytes := pool.bytes + entry.bytes
    peerUsage :=
      match entry.sourcePeer with
      | none => pool.peerUsage
      | some peer => recordUsage pool.peerUsage peer entry.bytes
    working := some { working with executor } }

/-- The execution on a copy of the executor; an exception loses the copy only. -/
def tryHold (working : WorkingContext) (entry : PoolEntry) : Call Bool := fun pool =>
  match BlockExecutor.applyOperation entry.operation working.executor with
  | .error e _ => .error e pool
  | .ok result executor =>
    if result.isOk = false ∨ executor.canFinalize = false then .ok false pool
    else .ok true (pool.hold working entry executor)

/-- `Admit` with the context ensured. -/
def admitEntry (g : VerifiedNetworkGenesis) (entry : PoolEntry) : Call PoolAdmission := do
  let pool ← get
  match pool.working with
  | none => return .rejected
  | some working =>
    if working.executor.valid = false ∨ pool.refuses g working entry = true then return .rejected
    else
      let held ← tryHold working entry
      return if held then .accepted else .rejected

/-- `Admit`. -/
def admitOperation (g : VerifiedNetworkGenesis) (view : PoolView) (operation : ProtocolOperation) (workNonce : UInt64)
    (sourcePeer : Option Bytes) : Call PoolAdmission := do
  match candidate operation workNonce sourcePeer with
  | none => return .rejected
  | some entry =>
    let pool ← get
    if entry.id ∈ pool.ids then return .alreadyPending
    else if view.hasIndexedFinalizedOperation entry.id = true then return .alreadyFinalized
    else
      match view.head with
      | none => return .rejected
      | some head =>
        if head.height = UINT64_MAX then return .rejected
        else
          ensureWorkingContext g view head
          admitEntry g entry

/-- `GetAccountCreates() >= max_account_creates_per_block`, for a creation. -/
def createsTooMany (g : VerifiedNetworkGenesis) (working : WorkingContext) (operation : ProtocolOperation) : Bool :=
  BlockExecutor.isAccountCreate operation &&
    decide (working.executor.accountCreates ≥ g.params.maxAccountCreatesPerBlock.toNat)

/-- One turn of the loop of `Revalidate`: whether the entry stays. -/
def keepEntry (g : VerifiedNetworkGenesis) (view : PoolView) (entry : PoolEntry) : Call Bool := do
  let pool ← get
  match pool.working with
  -- the context was there before the loop, and no turn takes it away
  | none => return false
  | some working =>
    if entry.id ∈ pool.ids ∨ view.hasIndexedFinalizedOperation entry.id = true ∨
        createsTooMany g working entry.operation = true ∨ pool.refuses g working entry = true then return false
    else tryHold working entry

/-- The loop of `Revalidate`, with the ids it drops. -/
def revalidateFrom (g : VerifiedNetworkGenesis) (view : PoolView) : List PoolEntry → Call (List Hash256)
  | [] => return []
  | entry :: rest => do
    let kept ← keepEntry g view entry
    let dropped ← revalidateFrom g view rest
    return if kept then dropped else entry.id :: dropped

/-- `Revalidate` with the context ensured. -/
def revalidateEntries (g : VerifiedNetworkGenesis) (view : PoolView) (previous : List PoolEntry) :
    Call (List Hash256) := do
  let pool ← get
  match pool.working with
  | none => return previous.map (·.id)
  | some working =>
    if working.executor.valid = false then return previous.map (·.id) else revalidateFrom g view previous

def revalidate (g : VerifiedNetworkGenesis) (view : PoolView) : Call (List Hash256) := do
  let pool ← get
  set pool.clear
  if pool.entries.isEmpty = true then return []
  else
    match view.head with
    | none => return pool.listIds
    | some head =>
      if head.height = UINT64_MAX then return pool.listIds
      else
        ensureWorkingContext g view head
        revalidateEntries g view pool.entries

/-! ## What the counters count -/

def bytesOf (entries : List PoolEntry) : Nat := (entries.map (·.bytes)).sum

def ofPeer (entries : List PoolEntry) (peer : Bytes) : List PoolEntry :=
  entries.filter fun entry => decide (entry.sourcePeer = some peer)

/-- The record of a source with these entries; there is none where it has no entry. -/
def usageOf : List PoolEntry → Option PeerUsage
  | [] => none
  | entry :: rest => some { count := rest.length + 1, bytes := bytesOf (entry :: rest) }

/-- What is held was made by `Admit`, from a source with a name if any, and has its work. -/
structure Held (g : VerifiedNetworkGenesis) (limits : OperationPoolLimits) (entry : PoolEntry) : Prop where
  made : candidate entry.operation entry.workNonce entry.sourcePeer = some entry
  named : entry.sourcePeer ≠ some []
  worked : checkOperationWork g.networkBinding entry.id entry.workNonce
    (requiredWorkBits limits entry.operation) = true

/-- The counters agree with the entries, and the limits hold. -/
structure PoolOk (g : VerifiedNetworkGenesis) (limits : OperationPoolLimits) (pool : OperationPool) : Prop where
  sameLimits : pool.limits = limits
  bytes : pool.bytes = bytesOf pool.entries
  ids : ∀ id, id ∈ pool.ids ↔ id ∈ pool.listIds
  nodup : pool.listIds.Nodup
  usage : ∀ peer, pool.peerUsage peer = usageOf (ofPeer pool.entries peer)
  count : pool.entries.length ≤ limits.maxCount
  byteLimit : pool.bytes ≤ limits.maxBytes
  peerLimit : ∀ peer usage, pool.peerUsage peer = some usage →
    usage.count ≤ limits.maxPeerCount ∧ usage.bytes ≤ limits.maxPeerBytes
  held : ∀ entry ∈ pool.entries, Held g limits entry

variable {g : VerifiedNetworkGenesis} {limits : OperationPoolLimits} {pool : OperationPool} {view : PoolView}
  {entry : PoolEntry} {entries : List PoolEntry} {working : WorkingContext} {head : FinalizedHead}

omit [Crypto] in
theorem bytesOf_snoc (entries : List PoolEntry) (entry : PoolEntry) :
    bytesOf (entries ++ [entry]) = bytesOf entries + entry.bytes := by
  simp [bytesOf]

omit [Crypto] in
theorem usageOf_snoc (mine : List PoolEntry) (entry : PoolEntry) :
    usageOf (mine ++ [entry]) = some
      { count := ((usageOf mine).getD {}).count + 1, bytes := ((usageOf mine).getD {}).bytes + entry.bytes } := by
  cases mine with
  | nil => simp [usageOf, bytesOf]
  | cons first rest => simp [usageOf, bytesOf, Nat.add_assoc]

theorem refuses_eq_false (h : pool.refuses g working entry = false) :
    checkOperationWork g.networkBinding entry.id entry.workNonce (requiredWorkBits pool.limits entry.operation) = true ∧
      pool.entries.length < pool.limits.maxCount ∧ pool.bytes + entry.bytes ≤ pool.limits.maxBytes ∧
      ∀ peer, entry.sourcePeer = some peer → peer ≠ [] ∧
        ((pool.peerUsage peer).getD {}).count < pool.limits.maxPeerCount ∧
        ((pool.peerUsage peer).getD {}).bytes + entry.bytes ≤ pool.limits.maxPeerBytes := by
  simp only [refuses, Bool.or_eq_false_iff, Bool.not_eq_false', fitsGlobalLimits, Bool.and_eq_true,
    decide_eq_true_eq] at h
  obtain ⟨⟨⟨-, hwork⟩, ⟨hcount, hbytes⟩, hroom⟩, hpeer⟩ := h
  refine ⟨hwork, hcount, by omega, ?_⟩
  intro peer hsource
  rw [hsource] at hpeer
  simp only [refusesPeer, fitsPeerLimits, Bool.or_eq_false_iff, decide_eq_false_iff_not, Bool.not_eq_false',
    Bool.and_eq_true, decide_eq_true_eq] at hpeer
  obtain ⟨hnamed, ⟨hpeerCount, hpeerBytes⟩, hpeerRoom⟩ := hpeer
  exact ⟨hnamed, hpeerCount, by omega⟩

theorem PoolOk.clear (h : PoolOk g limits pool) : PoolOk g limits pool.clear where
  sameLimits := h.sameLimits
  bytes := rfl
  ids id := by simp [OperationPool.clear, listIds]
  nodup := List.nodup_nil
  usage _ := rfl
  count := Nat.zero_le _
  byteLimit := Nat.zero_le _
  peerLimit := fun _ => nofun
  held _ hentry := absurd hentry List.not_mem_nil

theorem PoolOk.withWorking (h : PoolOk g limits pool) (working : Option WorkingContext) :
    PoolOk g limits { pool with working } :=
  ⟨h.sameLimits, h.bytes, h.ids, h.nodup, h.usage, h.count, h.byteLimit, h.peerLimit, h.held⟩

/-- One more entry that was not refused. -/
theorem PoolOk.hold (h : PoolOk g limits pool)
    (hmade : candidate entry.operation entry.workNonce entry.sourcePeer = some entry) (hfresh : entry.id ∉ pool.ids)
    (hrefuses : pool.refuses g working entry = false) (executor : BlockExecutor) :
    PoolOk g limits (pool.hold working entry executor) := by
  obtain ⟨hworked, hcount, hbytes, hpeer⟩ := refuses_eq_false hrefuses
  rw [h.sameLimits] at hworked hcount hbytes hpeer
  have hmine : ∀ peer, ofPeer (pool.entries ++ [entry]) peer =
      ofPeer pool.entries peer ++ if entry.sourcePeer = some peer then [entry] else [] := by
    intro peer
    rw [ofPeer, List.filter_append, List.filter_singleton]
    simp [ofPeer]
  have husage : ∀ peer, (pool.hold working entry executor).peerUsage peer =
      if entry.sourcePeer = some peer then some
        { count := ((pool.peerUsage peer).getD {}).count + 1
          bytes := ((pool.peerUsage peer).getD {}).bytes + entry.bytes }
      else pool.peerUsage peer := by
    intro peer
    simp only [OperationPool.hold]
    cases hsource : entry.sourcePeer with
    | none => simp
    | some source =>
      by_cases heq : source = peer
      · subst heq
        simp [recordUsage]
      · simp [recordUsage, heq, Function.update_of_ne (Ne.symm heq)]
  constructor
  · exact h.sameLimits
  · show pool.bytes + entry.bytes = bytesOf (pool.entries ++ [entry])
    rw [bytesOf_snoc, h.bytes]
  · intro id
    simp only [OperationPool.hold, listIds, List.map_append, List.map_cons, List.map_nil, List.mem_append,
      List.mem_singleton, Finset.mem_insert, h.ids id]
    exact or_comm
  · simp only [OperationPool.hold, listIds, List.map_append, List.map_cons, List.map_nil]
    refine h.nodup.append (List.nodup_singleton _) ?_
    intro id hid hid'
    rw [List.mem_singleton.mp hid'] at hid
    exact hfresh ((h.ids _).mpr hid)
  · intro peer
    rw [husage]
    show _ = usageOf (ofPeer (pool.entries ++ [entry]) peer)
    rw [hmine]
    split
    · rw [usageOf_snoc, h.usage]
    · rw [List.append_nil, h.usage]
  · simp only [OperationPool.hold, List.length_append, List.length_singleton]
    omega
  · exact hbytes
  · intro peer usage hpeerUsage
    rw [husage] at hpeerUsage
    split at hpeerUsage
    next hsource =>
      cases hpeerUsage
      obtain ⟨-, hpeerCount, hpeerBytes⟩ := hpeer peer hsource
      exact ⟨hpeerCount, hpeerBytes⟩
    next => exact h.peerLimit peer usage hpeerUsage
  · intro held hheld
    rcases List.mem_append.mp hheld with hold | hnew
    · exact h.held held hold
    · rw [List.mem_singleton.mp hnew]
      exact ⟨hmade, fun hsource => (hpeer [] hsource).1 rfl, hworked⟩

/-! ## What a call does to the pool -/

/-- One more entry, which was not refused and executed on the copy. -/
def Holds (g : VerifiedNetworkGenesis) (entry : PoolEntry) (pool pool' : OperationPool) : Prop :=
  ∃ working result executor, pool.working = some working ∧ pool.refuses g working entry = false ∧
    BlockExecutor.applyOperation entry.operation working.executor = .ok result executor ∧ result.isOk = true ∧
    executor.canFinalize = true ∧ pool' = pool.hold working entry executor

theorem tryHold_spec (hworking : pool.working = some working) (hrefuses : pool.refuses g working entry = false) :
    wp (tryHold working entry) (fun held pool' => if held = true then Holds g entry pool pool' else pool' = pool)
      (fun _ pool' => pool' = pool) pool := by
  unfold wp tryHold
  cases happly : BlockExecutor.applyOperation entry.operation working.executor with
  | error e executor => rfl
  | ok result executor =>
    dsimp only
    by_cases hfailed : result.isOk = false ∨ executor.canFinalize = false
    · rw [if_pos hfailed]
      exact rfl
    · rw [if_neg hfailed]
      push Not at hfailed
      exact ⟨working, result, executor, hworking, hrefuses, happly, eq_true_of_ne_false hfailed.1,
        eq_true_of_ne_false hfailed.2, rfl⟩

theorem admitEntry_spec (g : VerifiedNetworkGenesis) (entry : PoolEntry) (pool : OperationPool) :
    wp (admitEntry g entry)
      (fun admission pool' => admission = .accepted ∧ Holds g entry pool pool' ∨ admission = .rejected ∧ pool' = pool)
      (fun _ pool' => pool' = pool) pool := by
  unfold admitEntry
  rw [wp_get_bind]
  cases hworking : pool.working with
  | none => exact .inr ⟨rfl, rfl⟩
  | some working =>
    refine wp_refuse (fun _ => .inr ⟨rfl, rfl⟩) fun hpassed => ?_
    push Not at hpassed
    rw [wp_bind]
    refine wp_mono (tryHold_spec hworking (eq_false_of_ne_true hpassed.2)) ?_ fun _ _ h => h
    intro held pool' h
    cases held with
    | false => exact .inr ⟨rfl, h⟩
    | true => exact .inl ⟨rfl, h⟩

theorem keepEntry_spec (g : VerifiedNetworkGenesis) (view : PoolView) (entry : PoolEntry) (pool : OperationPool) :
    wp (keepEntry g view entry)
      (fun kept pool' => if kept = true then entry.id ∉ pool.ids ∧ Holds g entry pool pool' else pool' = pool)
      (fun _ pool' => pool' = pool) pool := by
  unfold keepEntry
  rw [wp_get_bind]
  cases hworking : pool.working with
  | none => exact rfl
  | some working =>
    refine wp_refuse (fun _ => rfl) fun hpassed => ?_
    push Not at hpassed
    refine wp_mono (tryHold_spec hworking (eq_false_of_ne_true hpassed.2.2.2)) ?_ fun _ _ h => h
    intro kept pool' h
    cases kept with
    | false => exact h
    | true => exact ⟨hpassed.1, h⟩

end OperationPool

end

end Cybou
