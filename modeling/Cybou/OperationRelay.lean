import Mathlib.Data.Finset.Basic
import Cybou.OperationCodec
import Cybou.Supply

/-! # The relay queue (`operation_relay.cpp`)

The class keeps a queue and, beside it, the set of queued ids, a byte counter
and a claim on the front; nothing but its own methods keeps the four in step.
`QueueOk` says what that means and holds after any calls; what a call takes out
of the queue is said once, in `OperationRelay.run_queue`.
-/

namespace Cybou

open Library

inductive OperationRelayEnqueueStatus where
  | queued
  | duplicate
  | queueFull
  | invalidOperation
deriving DecidableEq, Repr

structure RelayedOperation where
  operationId : Hash256
  exactBytes : Bytes
  workNonce : UInt64
deriving DecidableEq, Repr

structure OperationRelay where
  maxOperations : UInt64
  maxQueuedBytes : UInt64
  seenLimit : UInt64
  queue : List RelayedOperation := []
  claimedId : Option Hash256 := none
  queuedIds : Finset Hash256 := ∅
  seenOrder : List Hash256 := []
  seenIds : Finset Hash256 := ∅
  queuedBytes : UInt64 := 0
deriving DecidableEq

namespace OperationRelay

/-- The constructor; `none` when it throws. -/
def new (maxOperations maxQueuedBytes : UInt64) : Option OperationRelay :=
  if maxOperations = 0 ∨ maxQueuedBytes < UInt64.ofNat MAX_OPERATION_PAYLOAD_BYTES then none
  else some { maxOperations, maxQueuedBytes, seenLimit := max (maxOperations * 16) 1024 }

def fitsQueueLimits (relay : OperationRelay) (bytes : UInt64) : Bool :=
  decide (relay.queue.length < relay.maxOperations.toNat) &&
    decide (bytes ≤ relay.maxQueuedBytes - min relay.queuedBytes relay.maxQueuedBytes)

/-- The loop of `RememberSeen`: the oldest ids are forgotten unless still queued. -/
def forgetOldest (seenLimit : UInt64) (queuedIds : Finset Hash256) :
    List Hash256 → Finset Hash256 → List Hash256 × Finset Hash256
  | [], seenIds => ([], seenIds)
  | expired :: order, seenIds =>
    if (expired :: order).length > seenLimit.toNat then
      forgetOldest seenLimit queuedIds order
        (if expired ∈ queuedIds then seenIds else seenIds.erase expired)
    else (expired :: order, seenIds)

def rememberSeen (relay : OperationRelay) (operationId : Hash256) : OperationRelay :=
  if operationId ∈ relay.seenIds then relay
  else
    let seen := forgetOldest relay.seenLimit relay.queuedIds (relay.seenOrder ++ [operationId])
      (insert operationId relay.seenIds)
    { relay with seenOrder := seen.1, seenIds := seen.2 }

/-- What `Enqueue` does with an operation it takes. -/
def push (relay : OperationRelay) (item : RelayedOperation) : OperationRelay :=
  let queued : OperationRelay := { relay with
    queue := relay.queue ++ [item]
    queuedIds := insert item.operationId relay.queuedIds }
  let remembered := queued.rememberSeen item.operationId
  { remembered with queuedBytes := remembered.queuedBytes + UInt64.ofNat item.exactBytes.length }

def claim (relay : OperationRelay) : Option RelayedOperation × OperationRelay :=
  match relay.queue, relay.claimedId with
  | item :: _, none => (some item, { relay with claimedId := some item.operationId })
  | _, _ => (none, relay)

def release (relay : OperationRelay) (operationId : Hash256) : OperationRelay :=
  if relay.claimedId = some operationId then { relay with claimedId := none } else relay

def acknowledge (relay : OperationRelay) (operationId : Hash256) : Bool × OperationRelay :=
  match relay.queue with
  | [] => (false, relay)
  | front :: rest =>
    if relay.claimedId ≠ some operationId ∨ front.operationId ≠ operationId then (false, relay)
    else (true, { relay with
      queuedBytes := relay.queuedBytes - UInt64.ofNat front.exactBytes.length
      queuedIds := relay.queuedIds.erase operationId
      queue := rest
      claimedId := none })

def forgetFinalized (relay : OperationRelay) (operationId : Hash256) : OperationRelay :=
  match relay.queue.find? fun item => decide (item.operationId = operationId) with
  | none => relay
  | some item => { relay with
      queuedBytes := relay.queuedBytes - UInt64.ofNat item.exactBytes.length
      queuedIds := relay.queuedIds.erase operationId
      queue := relay.queue.eraseP fun item => decide (item.operationId = operationId)
      claimedId := if relay.claimedId = some operationId then none else relay.claimedId }

section

variable [Crypto]

def exactOperationId (exactOperationBytes : Bytes) : Option Hash256 :=
  if exactOperationBytes = [] ∨ exactOperationBytes.length > MAX_OPERATION_PAYLOAD_BYTES then none
  else do
    let operation ← deserializeProtocolOperation exactOperationBytes
    let id ← computeOperationId operation
    if id.isNull = true then none else return id

def enqueue (relay : OperationRelay) (exactOperationBytes : Bytes) (workNonce : UInt64)
    (allowSeenRetry : Bool) : OperationRelayEnqueueStatus × OperationRelay :=
  match exactOperationId exactOperationBytes with
  | none => (.invalidOperation, relay)
  | some operationId =>
    if operationId ∈ relay.queuedIds ∨ (operationId ∈ relay.seenIds ∧ allowSeenRetry = false) then
      (.duplicate, relay)
    else if relay.fitsQueueLimits (UInt64.ofNat exactOperationBytes.length) = false then
      (.queueFull, relay)
    else (.queued, relay.push { operationId, exactBytes := exactOperationBytes, workNonce })

end

end OperationRelay

inductive RelayCall where
  | enqueue (exactOperationBytes : Bytes) (workNonce : UInt64) (allowSeenRetry : Bool)
  | claim
  | release (operationId : Hash256)
  | acknowledge (operationId : Hash256)
  | forgetFinalized (operationId : Hash256)

/-! ### The invariant -/

def queuedIdsOf (queue : List RelayedOperation) : List Hash256 := queue.map (·.operationId)

def queuedBytesOf (queue : List RelayedOperation) : Nat := (queue.map (·.exactBytes.length)).sum

namespace OperationRelay

/-- The bookkeeping agrees with the queue and the limits hold. -/
structure QueueOk (relay : OperationRelay) : Prop where
  bytes : relay.queuedBytes.toNat = queuedBytesOf relay.queue
  ids : ∀ id, id ∈ relay.queuedIds ↔ id ∈ queuedIdsOf relay.queue
  nodup : (queuedIdsOf relay.queue).Nodup
  count : relay.queue.length ≤ relay.maxOperations.toNat
  byteLimit : relay.queuedBytes ≤ relay.maxQueuedBytes
  claimed : ∀ id ∈ relay.claimedId, (queuedIdsOf relay.queue).head? = some id

variable {relay : OperationRelay}

theorem QueueOk.new {maxOperations maxQueuedBytes : UInt64}
    (h : OperationRelay.new maxOperations maxQueuedBytes = some relay) : relay.QueueOk := by
  unfold OperationRelay.new at h
  split at h
  · cases h
  · cases h
    exact ⟨rfl, by simp [queuedIdsOf], List.nodup_nil, Nat.zero_le _, by simp, fun _ => nofun⟩

theorem push_eq (relay : OperationRelay) (item : RelayedOperation) :
    relay.push item = { relay with
      queue := relay.queue ++ [item]
      queuedIds := insert item.operationId relay.queuedIds
      seenOrder := (relay.push item).seenOrder
      seenIds := (relay.push item).seenIds
      queuedBytes := relay.queuedBytes + UInt64.ofNat item.exactBytes.length } := by
  simp only [push, rememberSeen]
  split <;> rfl

variable {item : RelayedOperation}

theorem length_le_queuedBytesOf {queue : List RelayedOperation}
    (h : item ∈ queue) : item.exactBytes.length ≤ queuedBytesOf queue :=
  List.single_le_sum (by simp) _ (List.mem_map_of_mem h)

theorem QueueOk.toNat_sub (h : relay.QueueOk) (hmem : item ∈ relay.queue) :
    (relay.queuedBytes - UInt64.ofNat item.exactBytes.length).toNat + item.exactBytes.length =
      queuedBytesOf relay.queue := by
  have hle := length_le_queuedBytesOf hmem
  have hlt := relay.queuedBytes.toNat_lt
  have hbytes := h.bytes
  have hlen : (UInt64.ofNat item.exactBytes.length).toNat = item.exactBytes.length :=
    UInt64.toNat_ofNat_of_lt' (show _ < 2 ^ 64 by omega)
  rw [UInt64.toNat_sub_of_le _ _ (by rw [UInt64.le_iff_toNat_le]; omega)]
  omega

/-- Taking one operation out of the queue. -/
theorem QueueOk.remove (h : relay.QueueOk) {before after : List RelayedOperation} {claimedId : Option Hash256}
    (hqueue : relay.queue = before ++ item :: after)
    (hclaimed : ∀ id ∈ claimedId, (queuedIdsOf (before ++ after)).head? = some id) :
    QueueOk { relay with
      queuedBytes := relay.queuedBytes - UInt64.ofNat item.exactBytes.length
      queuedIds := relay.queuedIds.erase item.operationId
      queue := before ++ after
      claimedId } := by
  have hmem : item ∈ relay.queue := by
    rw [hqueue]
    exact List.mem_append_right _ List.mem_cons_self
  have hsub := h.toNat_sub hmem
  have hsum : queuedBytesOf relay.queue = queuedBytesOf (before ++ after) + item.exactBytes.length := by
    rw [hqueue]
    simp only [queuedBytesOf, List.map_append, List.map_cons, List.sum_append, List.sum_cons]
    omega
  have hnodup := h.nodup
  have hids := h.ids
  rw [hqueue] at hnodup hids
  simp only [queuedIdsOf, List.map_append, List.map_cons] at hnodup hids
  have hperm : (before.map (·.operationId) ++ item.operationId :: after.map (·.operationId)).Perm
      (item.operationId :: (before.map (·.operationId) ++ after.map (·.operationId))) :=
    List.perm_middle
  obtain ⟨hnot, hrest⟩ := List.nodup_cons.mp (hperm.nodup_iff.mp hnodup)
  constructor
  · show (relay.queuedBytes - UInt64.ofNat item.exactBytes.length).toNat = queuedBytesOf (before ++ after)
    omega
  · intro id
    simp only [Finset.mem_erase, hids, queuedIdsOf, List.map_append]
    rw [hperm.mem_iff, List.mem_cons]
    constructor
    · intro hin
      exact hin.2.resolve_left hin.1
    · intro hin
      refine ⟨?_, .inr hin⟩
      intro heq
      exact hnot (heq ▸ hin)
  · simpa only [queuedIdsOf, List.map_append] using hrest
  · have hcount := h.count
    rw [hqueue] at hcount
    simp only [List.length_append, List.length_cons] at hcount ⊢
    omega
  · have hlimit := UInt64.le_iff_toNat_le.mp h.byteLimit
    have hbytes := h.bytes
    rw [UInt64.le_iff_toNat_le]
    show (relay.queuedBytes - UInt64.ofNat item.exactBytes.length).toNat ≤ relay.maxQueuedBytes.toNat
    omega
  · exact hclaimed

theorem QueueOk.claim (h : relay.QueueOk) : relay.claim.2.QueueOk := by
  unfold OperationRelay.claim
  split
  · next item rest hqueue hnone =>
    refine ⟨h.bytes, h.ids, h.nodup, h.count, h.byteLimit, ?_⟩
    intro id hid
    cases hid
    rw [hqueue]
    rfl
  · exact h

theorem QueueOk.release (h : relay.QueueOk) (operationId : Hash256) :
    (relay.release operationId).QueueOk := by
  unfold OperationRelay.release
  split
  · exact ⟨h.bytes, h.ids, h.nodup, h.count, h.byteLimit, fun _ => nofun⟩
  · exact h

theorem QueueOk.acknowledge (h : relay.QueueOk) (operationId : Hash256) :
    (relay.acknowledge operationId).2.QueueOk := by
  unfold OperationRelay.acknowledge
  split
  · exact h
  next front rest hqueue =>
  split
  · exact h
  next hfront =>
  push Not at hfront
  obtain ⟨-, rfl⟩ := hfront
  have hsplit : relay.queue = [] ++ front :: rest := hqueue
  exact h.remove hsplit (fun _ => nofun)

theorem find?_split {α : Type} {p : α → Bool} {l : List α} {a : α} (h : l.find? p = some a) :
    ∃ before after, l = before ++ a :: after ∧ l.eraseP p = before ++ after ∧
      (∀ b ∈ before, p b = false) ∧ p a = true := by
  induction l with
  | nil => cases h
  | cons b l ih =>
    by_cases hb : p b = true
    · rw [List.find?_cons_of_pos hb] at h
      cases h
      exact ⟨[], l, rfl, List.eraseP_cons_of_pos hb, by simp, hb⟩
    · rw [List.find?_cons_of_neg hb] at h
      obtain ⟨before, after, hl, herase, hbefore, ha⟩ := ih h
      refine ⟨b :: before, after, by rw [hl]; rfl, ?_, ?_, ha⟩
      · rw [List.eraseP_cons_of_neg hb, herase]
        rfl
      · intro c hc
        rcases List.mem_cons.mp hc with rfl | hc
        · exact eq_false_of_ne_true hb
        · exact hbefore c hc

theorem QueueOk.forgetFinalized (h : relay.QueueOk)
    (operationId : Hash256) : (relay.forgetFinalized operationId).QueueOk := by
  unfold OperationRelay.forgetFinalized
  split
  · exact h
  next item hfind =>
  obtain ⟨before, after, hqueue, herase, hbefore, hitem⟩ := find?_split hfind
  have hid : item.operationId = operationId := of_decide_eq_true hitem
  subst hid
  rw [herase]
  refine h.remove hqueue ?_
  intro id hclaim
  split at hclaim
  · cases hclaim
  · next hne =>
    -- the claim is on the front, and the front is not what was removed
    have hhead := h.claimed id hclaim
    rw [hqueue] at hhead
    cases before with
    | nil =>
      cases hhead
      exact absurd hclaim hne
    | cons first before => exact hhead

variable [Crypto]

theorem exactOperationId_length {exactOperationBytes : Bytes} {id : Hash256}
    (h : exactOperationId exactOperationBytes = some id) :
    exactOperationBytes.length ≤ 131072 := by
  unfold exactOperationId at h
  split at h
  · cases h
  · next hok =>
    push Not at hok
    exact hok.2

theorem QueueOk.enqueue (h : relay.QueueOk) (exactOperationBytes : Bytes)
    (workNonce : UInt64) (allowSeenRetry : Bool) :
    (relay.enqueue exactOperationBytes workNonce allowSeenRetry).2.QueueOk := by
  unfold OperationRelay.enqueue
  split
  · exact h
  next operationId hid =>
  split
  · exact h
  next hfresh =>
  split
  · exact h
  next hfits =>
  push Not at hfresh
  have hbytes := h.bytes
  simp only [fitsQueueLimits, Bool.and_eq_false_iff, decide_eq_false_iff_not, not_or,
    not_not] at hfits
  obtain ⟨hcount, hroom⟩ := hfits
  have hmin : min relay.queuedBytes relay.maxQueuedBytes = relay.queuedBytes := by
    rw [← UInt64.toNat_inj, UInt64.toNat_min]
    have := UInt64.le_iff_toNat_le.mp h.byteLimit
    omega
  rw [hmin, UInt64.le_iff_toNat_le, UInt64.toNat_sub_of_le _ _ h.byteLimit] at hroom
  have hlen := exactOperationId_length hid
  have hsize : (UInt64.ofNat exactOperationBytes.length).toNat = exactOperationBytes.length :=
    UInt64.toNat_ofNat_of_lt' (show _ < 2 ^ 64 by omega)
  have hlimit := UInt64.le_iff_toNat_le.mp h.byteLimit
  have hmax := relay.maxQueuedBytes.toNat_lt
  have hsum : (relay.queuedBytes + UInt64.ofNat exactOperationBytes.length).toNat =
      relay.queuedBytes.toNat + exactOperationBytes.length := by
    rw [UInt64.toNat_add, Nat.mod_eq_of_lt (by omega), hsize]
  rw [hsize] at hroom
  rw [push_eq]
  constructor
  · show (relay.queuedBytes + UInt64.ofNat exactOperationBytes.length).toNat = _
    rw [hsum]
    simp only [queuedBytesOf, List.map_append, List.sum_append, List.map_cons, List.map_nil,
      List.sum_singleton] at hbytes ⊢
    omega
  · intro id
    have hold := h.ids id
    simp only [queuedIdsOf, List.map_append, List.map_cons, List.map_nil, List.mem_append,
      List.mem_singleton, Finset.mem_insert] at hold ⊢
    rw [hold, or_comm]
  · have hnot : operationId ∉ queuedIdsOf relay.queue := fun hin => hfresh.1 ((h.ids _).mpr hin)
    simp only [queuedIdsOf, List.map_append, List.map_cons, List.map_nil] at hnot ⊢
    refine List.nodup_append.mpr ⟨h.nodup, List.nodup_singleton _, ?_⟩
    intro a ha b hb heq
    rw [List.mem_singleton.mp hb] at heq
    exact hnot (heq ▸ ha)
  · simp only [List.length_append, List.length_singleton]
    omega
  · rw [UInt64.le_iff_toNat_le]
    show (relay.queuedBytes + UInt64.ofNat exactOperationBytes.length).toNat ≤
      relay.maxQueuedBytes.toNat
    omega
  · intro id hclaim
    have hhead := h.claimed id hclaim
    simp only [queuedIdsOf, List.map_append, List.head?_append, Option.or_eq_some_iff] at hhead ⊢
    exact .inl hhead

/-! ### Runs -/

def run (relay : OperationRelay) : RelayCall → OperationRelay
  | .enqueue exactOperationBytes workNonce allowSeenRetry =>
    (relay.enqueue exactOperationBytes workNonce allowSeenRetry).2
  | .claim => relay.claim.2
  | .release operationId => relay.release operationId
  | .acknowledge operationId => (relay.acknowledge operationId).2
  | .forgetFinalized operationId => relay.forgetFinalized operationId

def runAll (relay : OperationRelay) (calls : List RelayCall) : OperationRelay :=
  calls.foldl run relay

theorem QueueOk.run (h : relay.QueueOk) (call : RelayCall) :
    (relay.run call).QueueOk := by
  cases call with
  | enqueue exactOperationBytes workNonce allowSeenRetry =>
    exact h.enqueue exactOperationBytes workNonce allowSeenRetry
  | claim => exact h.claim
  | release operationId => exact h.release operationId
  | acknowledge operationId => exact h.acknowledge operationId
  | forgetFinalized operationId => exact h.forgetFinalized operationId

theorem QueueOk.runAll (h : relay.QueueOk) (calls : List RelayCall) :
    (relay.runAll calls).QueueOk := by
  induction calls generalizing relay with
  | nil => exact h
  | cons call rest ih => exact ih (h.run call)

theorem run_limits (relay : OperationRelay) (call : RelayCall) :
    (relay.run call).maxOperations = relay.maxOperations ∧
      (relay.run call).maxQueuedBytes = relay.maxQueuedBytes := by
  cases call with
  | enqueue exactOperationBytes workNonce allowSeenRetry =>
    simp only [OperationRelay.run]
    unfold OperationRelay.enqueue
    split
    · exact ⟨rfl, rfl⟩
    split
    · exact ⟨rfl, rfl⟩
    split
    · exact ⟨rfl, rfl⟩
    · rw [push_eq]
      exact ⟨rfl, rfl⟩
  | claim =>
    simp only [OperationRelay.run]
    unfold OperationRelay.claim
    split <;> exact ⟨rfl, rfl⟩
  | release operationId =>
    simp only [OperationRelay.run]
    unfold OperationRelay.release
    split <;> exact ⟨rfl, rfl⟩
  | acknowledge operationId =>
    simp only [OperationRelay.run]
    unfold OperationRelay.acknowledge
    split
    · exact ⟨rfl, rfl⟩
    · split <;> exact ⟨rfl, rfl⟩
  | forgetFinalized operationId =>
    simp only [OperationRelay.run]
    unfold OperationRelay.forgetFinalized
    split <;> exact ⟨rfl, rfl⟩

theorem runAll_limits {maxOperations maxQueuedBytes : UInt64} {start : OperationRelay}
    (hnew : OperationRelay.new maxOperations maxQueuedBytes = some start) (calls : List RelayCall) :
    (start.runAll calls).maxOperations = maxOperations ∧
      (start.runAll calls).maxQueuedBytes = maxQueuedBytes := by
  have hstart : start.maxOperations = maxOperations ∧ start.maxQueuedBytes = maxQueuedBytes := by
    unfold OperationRelay.new at hnew
    split at hnew
    · cases hnew
    · cases hnew
      exact ⟨rfl, rfl⟩
  clear hnew
  induction calls generalizing start with
  | nil => exact hstart
  | cons call rest ih =>
    obtain ⟨hoperations, hbytes⟩ := run_limits start call
    exact ih ⟨hoperations.trans hstart.1, hbytes.trans hstart.2⟩

def QueueStep (relay relay' : OperationRelay) : RelayCall → Prop
  | .enqueue _ _ _ => relay'.queue = relay.queue ∨ ∃ item, relay'.queue = relay.queue ++ [item]
  | .claim => relay'.queue = relay.queue
  | .release _ => relay'.queue = relay.queue
  | .acknowledge operationId => relay' = relay ∨ ∃ front, relay.queue = front :: relay'.queue ∧
      front.operationId = operationId ∧ relay.claimedId = some operationId
  | .forgetFinalized operationId => ∃ before after, relay'.queue = before ++ after ∧
      (relay.queue = before ++ after ∨ ∃ item, relay.queue = before ++ item :: after ∧
        item.operationId = operationId)

/-- The step: what a call does to the queue. -/
theorem run_queue (relay : OperationRelay) (call : RelayCall) :
    QueueStep relay (relay.run call) call := by
  cases call with
  | enqueue exactOperationBytes workNonce allowSeenRetry =>
    simp only [QueueStep, OperationRelay.run]
    unfold OperationRelay.enqueue
    split
    · exact .inl rfl
    split
    · exact .inl rfl
    split
    · exact .inl rfl
    · rw [push_eq]
      exact .inr ⟨_, rfl⟩
  | claim =>
    simp only [QueueStep, OperationRelay.run]
    unfold OperationRelay.claim
    split <;> rfl
  | release operationId =>
    simp only [QueueStep, OperationRelay.run]
    unfold OperationRelay.release
    split <;> rfl
  | acknowledge operationId =>
    simp only [QueueStep, OperationRelay.run]
    unfold OperationRelay.acknowledge
    split
    · exact .inl rfl
    next front rest hqueue =>
    split
    · exact .inl rfl
    next hfront =>
    push Not at hfront
    exact .inr ⟨front, hqueue, hfront.2, hfront.1⟩
  | forgetFinalized operationId =>
    simp only [QueueStep, OperationRelay.run]
    unfold OperationRelay.forgetFinalized
    split
    · exact ⟨relay.queue, [], by simp, .inl (by simp)⟩
    next item hfind =>
    obtain ⟨before, after, hqueue, herase, -, hitem⟩ := find?_split hfind
    exact ⟨before, after, herase, .inr ⟨item, hqueue, of_decide_eq_true hitem⟩⟩

/-- The only two ways out of the queue. -/
theorem left_queue {call : RelayCall} (hmem : item ∈ relay.queue) (hgone : item ∉ (relay.run call).queue) :
    (call = .acknowledge item.operationId ∧ relay.claimedId = some item.operationId ∧
        relay.queue = item :: (relay.run call).queue) ∨
      call = .forgetFinalized item.operationId := by
  have hstep := run_queue relay call
  cases call with
  | enqueue exactOperationBytes workNonce allowSeenRetry =>
    rcases hstep with hsame | ⟨new, hnew⟩
    · exact absurd (hsame ▸ hmem) hgone
    · rw [hnew] at hgone
      exact absurd (List.mem_append_left _ hmem) hgone
  | claim => exact absurd (hstep ▸ hmem) hgone
  | release operationId => exact absurd (hstep ▸ hmem) hgone
  | acknowledge operationId =>
    rcases hstep with hsame | ⟨front, hqueue, hid, hclaimed⟩
    · rw [hsame] at hgone
      exact absurd hmem hgone
    · rw [hqueue] at hmem
      rcases List.mem_cons.mp hmem with rfl | hmem
      · subst hid
        exact .inl ⟨rfl, hclaimed, hqueue⟩
      · exact absurd hmem hgone
  | forgetFinalized operationId =>
    obtain ⟨before, after, hafter, hsame | ⟨removed, hqueue, hid⟩⟩ := hstep
    · rw [hafter, ← hsame] at hgone
      exact absurd hmem hgone
    · rw [hqueue] at hmem
      rw [hafter] at hgone
      rcases List.mem_append.mp hmem with hin | hin
      · exact absurd (List.mem_append_left _ hin) hgone
      · rcases List.mem_cons.mp hin with rfl | hin
        · subst hid
          exact .inr rfl
        · exact absurd (List.mem_append_right _ hin) hgone

/-- **The relay queue over every sequence of calls**: the bookkeeping agrees with
    the queue, the limits hold, the claim is on a queued operation, and operations
    leave by an acknowledgement of the claimed front or by finalization only. -/
theorem relay_runs {maxOperations maxQueuedBytes : UInt64} {start : OperationRelay}
    (hnew : OperationRelay.new maxOperations maxQueuedBytes = some start) (calls : List RelayCall) :
    let relay := start.runAll calls
    relay.queuedBytes.toNat = queuedBytesOf relay.queue ∧
    (∀ id, id ∈ relay.queuedIds ↔ id ∈ queuedIdsOf relay.queue) ∧
    (queuedIdsOf relay.queue).Nodup ∧
    relay.queue.length ≤ maxOperations.toNat ∧ relay.queuedBytes ≤ maxQueuedBytes ∧
    (∀ id ∈ relay.claimedId, id ∈ queuedIdsOf relay.queue) ∧
    (∀ operationId, (relay.acknowledge operationId).1 = true → ∃ front,
      relay.queue = front :: (relay.acknowledge operationId).2.queue ∧
        front.operationId = operationId ∧ relay.claimedId = some operationId) ∧
    (∀ operationId, (relay.acknowledge operationId).1 = false →
      (relay.acknowledge operationId).2 = relay) ∧
    ∀ call, ∀ item ∈ relay.queue, item ∉ (relay.run call).queue →
      (call = .acknowledge item.operationId ∧ relay.claimedId = some item.operationId) ∨
        call = .forgetFinalized item.operationId := by
  intro relay
  have hok : relay.QueueOk := (QueueOk.new hnew).runAll calls
  obtain ⟨hcount, hbytes⟩ := runAll_limits hnew calls
  refine ⟨hok.bytes, hok.ids, hok.nodup, hcount ▸ hok.count, hbytes ▸ hok.byteLimit, ?_, ?_, ?_, ?_⟩
  · intro id hclaimed
    exact List.mem_of_head? (hok.claimed id hclaimed)
  · intro operationId hacknowledged
    unfold OperationRelay.acknowledge at hacknowledged ⊢
    split at hacknowledged
    · cases hacknowledged
    next front rest hqueue =>
    split at hacknowledged
    · cases hacknowledged
    next hfront =>
    simp only [hqueue, if_neg hfront]
    push Not at hfront
    exact ⟨front, rfl, hfront.2, hfront.1⟩
  · intro operationId hrefused
    unfold OperationRelay.acknowledge at hrefused ⊢
    split
    · rfl
    next front rest hqueue =>
    simp only [hqueue] at hrefused
    split
    · rfl
    next hfront =>
    rw [if_neg hfront] at hrefused
    cases hrefused
  · intro call item hmem hgone
    rcases left_queue hmem hgone with ⟨hcall, hclaimed, -⟩ | hcall
    · exact .inl ⟨hcall, hclaimed⟩
    · exact .inr hcall

end OperationRelay

section Sample

attribute [local instance] Crypto.sample

def sampleRelayCalls : List RelayCall :=
  [.enqueue ((serializeProtocolOperation (.systemLock sampleLock)).getD []) 0 false, .claim]

set_option maxRecDepth 100000 in
theorem relay_runs_sampleLock : ∃ start, OperationRelay.new 256 8388608 = some start ∧
    (start.runAll sampleRelayCalls).queuedBytes.toNat =
      queuedBytesOf (start.runAll sampleRelayCalls).queue ∧
    ∃ id ∈ (start.runAll sampleRelayCalls).claimedId,
      id ∈ queuedIdsOf (start.runAll sampleRelayCalls).queue := by
  have hsome : (OperationRelay.new 256 8388608).isSome = true := by decide
  obtain ⟨start, hstart⟩ := Option.isSome_iff_exists.mp hsome
  have hclaimed : ((OperationRelay.new 256 8388608).bind fun start =>
      (start.runAll sampleRelayCalls).claimedId).isSome = true := by decide
  rw [hstart, Option.bind_some] at hclaimed
  obtain ⟨id, hid⟩ := Option.isSome_iff_exists.mp hclaimed
  obtain ⟨hbytes, -, -, -, -, hqueued, -⟩ := OperationRelay.relay_runs hstart sampleRelayCalls
  exact ⟨start, hstart, hbytes, id, hid, hqueued id hid⟩

end Sample

end Cybou
