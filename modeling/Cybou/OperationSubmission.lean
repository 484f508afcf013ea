import Cybou.StateStore

/-! # Submitting an operation to the node's own runtime (`node_runtime.cpp`, `node_runtime_chain.cpp`)

The runtime executes the operation in its pool and then offers it to the peers.
What the pool, the store and the peers answer is given by the environment
(`SubmissionView`).  The runtime remembers one status for each of the last 256
operations it has heard of; the memory is lost with the process.

A refusal by the node itself and a missing answer of the peers are different
results, and `SubmissionView.refuses` and `SubmissionView.offers` say which
environments lead to which (`submitOperation_cases`).
-/

namespace Cybou

open Library

inductive OperationSubmitStatus where
  | rejected
  | accepted
  | alreadyPending
  | alreadyFinalized
  | invalidPayload
  | networkMismatch
  | relayQueued
  | poaSignerUnavailable
  | relayQueueFull
deriving DecidableEq, Repr

structure OperationSubmitResult where
  status : OperationSubmitStatus := .rejected
  opId : Hash256
  deliveryUncertain : Bool := false
deriving DecidableEq, Repr

def OperationSubmitResult.isOk (result : OperationSubmitResult) : Bool :=
  decide (result.status = .accepted ∨ result.status = .alreadyPending ∨ result.status = .alreadyFinalized ∨
    result.status = .relayQueued)

inductive PoolAdmission where
  | accepted
  | alreadyPending
  | alreadyFinalized
  | rejected
deriving DecidableEq, Repr

/-! ### Remembered statuses -/

inductive OperationStatusKind where
  | unknown
  | localPending
  | acceptedRemote
  | finalized
  | rejectedKnown
  | historyUnavailable
deriving DecidableEq, Repr

structure OperationStatus where
  kind : OperationStatusKind := .unknown
  finalizedHeight : UInt64 := 0
deriving DecidableEq, Repr

/-- `recent_operation_status` in `recent_operation_status_order`, the oldest first. -/
abbrev RecentStatuses := List (Hash256 × OperationStatus)

def rememberOperationStatus (statuses : RecentStatuses) (id : Hash256) (status : OperationStatus) :
    RecentStatuses :=
  if id.isNull then statuses
  else
    let updated :=
      if statuses.any (fun e => decide (e.1 = id)) then
        statuses.map fun e => if e.1 = id then (id, status) else e
      else statuses ++ [(id, status)]
    updated.drop (updated.length - 256)

theorem mem_rememberOperationStatus {statuses : RecentStatuses} {id : Hash256} {status : OperationStatus}
    {e : Hash256 × OperationStatus} (h : e ∈ rememberOperationStatus statuses id status) :
    e = (id, status) ∨ (e.1 = id → id.isNull = true) ∧ e ∈ statuses := by
  unfold rememberOperationStatus at h
  split at h
  · next hnull => exact .inr ⟨fun _ => hnull, h⟩
  replace h := List.mem_of_mem_drop h
  split at h
  · obtain ⟨old, hold, heq⟩ := List.mem_map.mp h
    by_cases hsame : old.1 = id
    · rw [if_pos hsame] at heq
      exact .inl heq.symm
    · rw [if_neg hsame] at heq
      exact .inr (heq ▸ ⟨fun h => absurd h hsame, hold⟩)
  · next hnew =>
    rcases List.mem_append.mp h with hold | hlast
    · refine .inr ⟨fun hsame => absurd ?_ hnew, hold⟩
      exact List.any_eq_true.mpr ⟨e, hold, decide_eq_true hsame⟩
    · exact .inl (List.mem_singleton.mp hlast)

/-- What the store and the pool say of an operation. -/
structure StatusView where
  /-- `GetFinalizedOperationHeight`. -/
  finalizedHeight : Option UInt64 := none
  signerEnabled : Bool := false
  inPool : Bool := false

def getOperationStatus (statuses : RecentStatuses) (view : StatusView) (opId : Hash256) : OperationStatus :=
  if opId.isNull then {}
  else
    match view.finalizedHeight with
    | some height => { kind := .finalized, finalizedHeight := height }
    | none =>
      if view.signerEnabled && view.inPool then { kind := .localPending }
      else ((statuses.find? fun e => decide (e.1 = opId)).map (·.2)).getD {}

theorem mem_of_getOperationStatus {statuses : RecentStatuses} {view : StatusView} {opId : Hash256}
    (hkind : (getOperationStatus statuses view opId).kind = .rejectedKnown ∨
      (getOperationStatus statuses view opId).kind = .finalized ∧ view.finalizedHeight = none) :
    (opId, getOperationStatus statuses view opId) ∈ statuses := by
  unfold getOperationStatus at hkind ⊢
  split at hkind
  · rcases hkind with h | ⟨h, -⟩ <;> cases h
  next hnull =>
  rw [if_neg hnull]
  split at hkind
  · next height hheight =>
    rcases hkind with h | ⟨-, h⟩
    · cases h
    · rw [hheight] at h
      cases h
  next hheight =>
  split at hkind
  · rcases hkind with h | ⟨h, -⟩ <;> cases h
  next hpool =>
  rw [if_neg hpool]
  cases hfind : statuses.find? (fun e => decide (e.1 = opId)) with
  | none =>
    rw [hfind] at hkind
    rcases hkind with h | ⟨h, -⟩ <;> cases h
  | some e =>
    have hid := List.find?_some hfind
    simp only [decide_eq_true_eq] at hid
    have hmem := List.mem_of_find?_eq_some hfind
    rw [Option.map_some, Option.getD_some, ← hid]
    exact hmem

/-! ### A submission -/

/-- `PeerSubmitResult`: the last answer, and whether some peer never answered. -/
structure PeerSubmitResult where
  acknowledgment : Option OperationSubmitResult := none
  deliveryUncertain : Bool := false

/-- What a submission meets, in the order it meets it. -/
structure SubmissionView where
  /-- `PrepareOperationWork`. -/
  work : Option UInt64 := some 0
  /-- The error of `GetStateSnapshot`, if any. -/
  snapshotError : Option StateLoadError := none
  safetyHalted : Bool := false
  admission : PoolAdmission := .accepted
  finalizedHeight : Option UInt64 := none
  signerEnabled : Bool := false
  /-- `SubmitOperationToAny`, where the node has a peer manager. -/
  peers : Option PeerSubmitResult := some {}
  /-- `GetFinalizedOperationHeight` after the peers were asked. -/
  finalizedAfter : Option UInt64 := none

namespace SubmissionView

/-- The operation gets into the pool. -/
def admits (view : SubmissionView) : Bool :=
  view.work.isSome && view.snapshotError.isNone && !view.safetyHalted &&
    decide (view.admission = .accepted ∨ view.admission = .alreadyPending)

/-- The operation is offered to the peers: from here on copies may be anywhere. -/
def offers (view : SubmissionView) : Bool := view.admits && !view.signerEnabled && view.peers.isSome

def findsFinalized (view : SubmissionView) : Bool :=
  (view.work.isSome && view.snapshotError.isNone && !view.safetyHalted &&
    decide (view.admission = .alreadyFinalized)) || (view.offers && view.finalizedAfter.isSome)

/-- The node itself refuses the operation: no work or state, a halt, the pool, or no
    peer manager. -/
def refuses (view : SubmissionView) : Bool :=
  view.work.isNone || view.snapshotError.isSome || view.safetyHalted || decide (view.admission = .rejected) ||
    (view.admits && !view.signerEnabled && view.peers.isNone)

theorem ready_of_admits {view : SubmissionView} (h : view.admits = true) :
    view.work.isSome = true ∧ view.snapshotError.isNone = true ∧ view.safetyHalted = false ∧
      (view.admission = .accepted ∨ view.admission = .alreadyPending) := by
  simpa only [admits, Bool.and_eq_true, Bool.not_eq_true', decide_eq_true_eq, and_assoc] using h

theorem offers_of_refuses {view : SubmissionView} (h : view.refuses = true) : view.offers = false := by
  rw [← Bool.not_eq_true]
  intro hoffers
  simp only [offers, Bool.and_eq_true, Bool.not_eq_true'] at hoffers
  obtain ⟨⟨hadmits, hsigner⟩, hpeers⟩ := hoffers
  obtain ⟨hwork, hsnapshot, hhalted, hadmission⟩ := ready_of_admits hadmits
  have hrefused : view.admission ≠ .rejected := by
    rcases hadmission with h | h <;> rw [h] <;> decide
  rw [Option.isSome_iff_ne_none] at hwork hpeers
  simp [refuses, hwork, Option.isNone_iff_eq_none.mp hsnapshot, hhalted, hrefused, hpeers] at h

theorem findsFinalized_of_refuses {view : SubmissionView} (h : view.refuses = true) :
    view.findsFinalized = false := by
  rw [← Bool.not_eq_true]
  intro hfinds
  simp only [findsFinalized, offers_of_refuses h, Bool.false_and, Bool.or_false, Bool.and_eq_true,
    Bool.not_eq_true', decide_eq_true_eq] at hfinds
  obtain ⟨⟨⟨hwork, hsnapshot⟩, hhalted⟩, hadmission⟩ := hfinds
  rw [Option.isSome_iff_ne_none] at hwork
  simp [refuses, admits, hwork, Option.isNone_iff_eq_none.mp hsnapshot, hhalted, hadmission] at h

end SubmissionView

def acknowledgePeers (view : SubmissionView) (submitted : PeerSubmitResult) (opId : Hash256)
    (statuses : RecentStatuses) : OperationSubmitResult × RecentStatuses :=
  let acknowledged := submitted.acknowledgment.getD { status := .rejected, opId }
  let taken := acknowledged.status = .accepted ∨ acknowledged.status = .alreadyPending ∨
    acknowledged.status = .relayQueued
  let result : OperationSubmitResult := { acknowledged with
    deliveryUncertain := submitted.deliveryUncertain || submitted.acknowledgment.isNone || decide ¬taken }
  if taken then (result, rememberOperationStatus statuses opId { kind := .acceptedRemote })
  else
    match view.finalizedAfter with
    | some height =>
      ({ result with status := .alreadyFinalized, deliveryUncertain := false },
        rememberOperationStatus statuses opId { kind := .finalized, finalizedHeight := height })
    | none =>
      if result.deliveryUncertain then
        ({ result with status := if result.status = .alreadyFinalized then .rejected else result.status },
          rememberOperationStatus statuses opId { kind := .unknown })
      else (result, rememberOperationStatus statuses opId { kind := .rejectedKnown })

/-- `SubmitOperationInternal` of a local operation, without the relay queue it also
    enters. -/
def submitOperationInternal (view : SubmissionView) (opId : Hash256) (statuses : RecentStatuses) :
    OperationSubmitResult × RecentStatuses :=
  match view.snapshotError with
  | some error =>
    ({ status := if error = .networkMismatch then .networkMismatch else .rejected, opId }, statuses)
  | none =>
    if view.safetyHalted then ({ status := .rejected, opId }, statuses)
    else
      match view.admission with
      | .alreadyFinalized =>
        ({ status := .alreadyFinalized, opId }, rememberOperationStatus statuses opId
          { kind := .finalized, finalizedHeight := view.finalizedHeight.getD 0 })
      | .rejected => ({ status := .rejected, opId }, rememberOperationStatus statuses opId { kind := .rejectedKnown })
      | admission =>
        if view.signerEnabled then
          ({ status := if admission = .accepted then .accepted else .alreadyPending, opId },
            rememberOperationStatus statuses opId { kind := .localPending })
        else
          match view.peers with
          | some submitted => acknowledgePeers view submitted opId statuses
          | none => ({ status := .rejected, opId }, statuses)

def submitOperation (view : SubmissionView) (opId : Hash256) (statuses : RecentStatuses) :
    OperationSubmitResult × RecentStatuses :=
  match view.work with
  | none => ({ status := .rejected, opId }, statuses)
  | some _ => submitOperationInternal view opId statuses

inductive Submitted (view : SubmissionView) (opId : Hash256) (statuses : RecentStatuses) :
    OperationSubmitResult → RecentStatuses → Prop
  | refused {result : OperationSubmitResult} {statuses' : RecentStatuses} (hrefuses : view.refuses = true)
      (hok : result.isOk = false) (hcertain : result.deliveryUncertain = false)
      (hstatuses : statuses' = statuses ∨
        statuses' = rememberOperationStatus statuses opId { kind := .rejectedKnown }) :
      Submitted view opId statuses result statuses'
  | finalized {result : OperationSubmitResult} (hfinds : view.findsFinalized = true) (height : UInt64)
      (hstatus : result.status = .alreadyFinalized) (hcertain : result.deliveryUncertain = false) :
      Submitted view opId statuses result
        (rememberOperationStatus statuses opId { kind := .finalized, finalizedHeight := height })
  | held {result : OperationSubmitResult} (hadmits : view.admits = true) (hoffers : view.offers = false)
      (hstatus : result.status = .accepted ∨ result.status = .alreadyPending)
      (hcertain : result.deliveryUncertain = false) :
      Submitted view opId statuses result (rememberOperationStatus statuses opId { kind := .localPending })
  | taken {result : OperationSubmitResult} (hoffers : view.offers = true)
      (hstatus : result.status = .accepted ∨ result.status = .alreadyPending ∨ result.status = .relayQueued) :
      Submitted view opId statuses result (rememberOperationStatus statuses opId { kind := .acceptedRemote })
  | uncertain {result : OperationSubmitResult} (hoffers : view.offers = true) (hok : result.isOk = false)
      (huncertain : result.deliveryUncertain = true) :
      Submitted view opId statuses result (rememberOperationStatus statuses opId { kind := .unknown })

/-- What the answers of the peers make of a submission. -/
theorem acknowledgePeers_cases {view : SubmissionView} (hoffers : view.offers = true)
    (submitted : PeerSubmitResult) (opId : Hash256) (statuses : RecentStatuses) :
    Submitted view opId statuses (acknowledgePeers view submitted opId statuses).1
      (acknowledgePeers view submitted opId statuses).2 := by
  unfold acknowledgePeers
  generalize submitted.acknowledgment.getD { status := .rejected, opId } = acknowledged
  dsimp only
  by_cases htaken : acknowledged.status = .accepted ∨ acknowledged.status = .alreadyPending ∨
      acknowledged.status = .relayQueued
  · rw [if_pos htaken]
    exact .taken hoffers htaken
  rw [if_neg htaken]
  cases hfinal : view.finalizedAfter with
  | some height =>
    refine .finalized ?_ height rfl rfl
    simp [SubmissionView.findsFinalized, hoffers, hfinal]
  | none =>
    -- an answer that is no success always counts as uncertain
    have huncertain : (submitted.deliveryUncertain || submitted.acknowledgment.isNone ||
        decide ¬(acknowledged.status = .accepted ∨ acknowledged.status = .alreadyPending ∨
          acknowledged.status = .relayQueued)) = true := by simp [htaken]
    dsimp only
    rw [if_pos huncertain]
    refine .uncertain hoffers ?_ huncertain
    push Not at htaken
    by_cases hfinalized : acknowledged.status = .alreadyFinalized
    · simp [OperationSubmitResult.isOk, hfinalized]
    · simp [OperationSubmitResult.isOk, hfinalized, htaken.1, htaken.2.1, htaken.2.2]

/-- **How a submission ends**, and what the runtime remembers of it. -/
theorem submitOperation_cases (view : SubmissionView) (opId : Hash256) (statuses : RecentStatuses) :
    Submitted view opId statuses (submitOperation view opId statuses).1
      (submitOperation view opId statuses).2 := by
  unfold submitOperation
  split
  · next hwork =>
    refine .refused ?_ rfl rfl (.inl rfl)
    simp [SubmissionView.refuses, hwork]
  next nonce hwork =>
  unfold submitOperationInternal
  split
  · next error herror =>
    refine .refused ?_ ?_ rfl (.inl rfl)
    · simp [SubmissionView.refuses, herror]
    · by_cases hmismatch : error = .networkMismatch <;> simp [OperationSubmitResult.isOk, hmismatch]
  next hsnapshot =>
  by_cases hhalted : view.safetyHalted = true
  · rw [if_pos hhalted]
    refine .refused ?_ rfl rfl (.inl rfl)
    simp [SubmissionView.refuses, hhalted]
  rw [if_neg hhalted]
  have hadmits : view.admission = .accepted ∨ view.admission = .alreadyPending → view.admits = true := by
    intro hadmission
    simp [SubmissionView.admits, hwork, hsnapshot, hhalted, hadmission]
  split
  · next hadmission =>
    refine .finalized ?_ _ rfl rfl
    simp [SubmissionView.findsFinalized, hwork, hsnapshot, hhalted, hadmission]
  · next hadmission =>
    refine .refused ?_ rfl rfl (.inr rfl)
    simp [SubmissionView.refuses, hadmission]
  · next hfinalized hrejected =>
    have hadmission : view.admission = .accepted ∨ view.admission = .alreadyPending := by
      cases hcases : view.admission with
      | accepted => exact .inl rfl
      | alreadyPending => exact .inr rfl
      | alreadyFinalized => exact absurd hcases hfinalized
      | rejected => exact absurd hcases hrejected
    by_cases hsigner : view.signerEnabled = true
    · rw [if_pos hsigner]
      refine .held (hadmits hadmission) ?_ ?_ rfl
      · simp [SubmissionView.offers, hsigner]
      · dsimp only
        by_cases haccepted : view.admission = .accepted
        · exact .inl (if_pos haccepted)
        · exact .inr (if_neg haccepted)
    rw [if_neg hsigner]
    split
    · next submitted hpeers =>
      refine acknowledgePeers_cases ?_ submitted opId statuses
      simp [SubmissionView.offers, hadmits hadmission, hsigner, hpeers]
    · next hpeers =>
      refine .refused ?_ rfl rfl (.inl rfl)
      simp [SubmissionView.refuses, hadmits hadmission, hsigner, hpeers]

end Cybou
