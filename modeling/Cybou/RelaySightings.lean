import Mathlib.Data.Finset.Card
import Mathlib.Data.List.DropRight
import Cybou.OperationRelay

/-! # What the relay remembers of the ids it has seen (`operation_relay.cpp`)

`m_seen_ids` suppresses duplicates and `m_seen_order` bounds it: an id that
falls out of the order is forgotten, unless it is still queued.  Neither
`Acknowledge` nor `ForgetFinalized` forgets it later, so such an id stays
remembered for good.  `SeenTemporary` says what the seen set is for;
`seenTemporary_iff` says in which runs it is that.
-/

namespace Cybou

open Library

/-! ### The end of a list -/

variable {α : Type}

theorem rtake_append_of_le {n : Nat} {l m : List α} (h : n ≤ m.length) :
    (l ++ m).rtake n = m.rtake n := by
  simp only [List.rtake, List.length_append]
  rw [show l.length + m.length - n = l.length + (m.length - n) by omega, ← List.drop_drop,
    List.drop_left]

theorem rtake_of_length_le {n : Nat} {l : List α} (h : l.length ≤ n) : l.rtake n = l := by
  rw [List.rtake, Nat.sub_eq_zero_of_le h, List.drop_zero]

theorem length_rtake (n : Nat) (l : List α) : (l.rtake n).length = min n l.length := by
  rw [List.rtake, List.length_drop]
  omega

theorem rtake_rtake_append (n : Nat) (l m : List α) :
    (l.rtake n ++ m).rtake n = (l ++ m).rtake n := by
  by_cases hlen : l.length ≤ n
  · rw [rtake_of_length_le hlen]
  · have hsplit : l ++ m = l.take (l.length - n) ++ (l.rtake n ++ m) := by
      rw [← List.append_assoc, List.rtake, List.take_append_drop]
    have hroom : n ≤ (l.rtake n ++ m).length := by
      rw [List.length_append, length_rtake]
      omega
    rw [hsplit, rtake_append_of_le hroom]

namespace OperationRelay

/-! ### Remembering an id -/

theorem forgetOldest_order (seenLimit : UInt64) (queuedIds : Finset Hash256)
    (order : List Hash256) (seenIds : Finset Hash256) :
    (forgetOldest seenLimit queuedIds order seenIds).1 = order.rtake seenLimit.toNat := by
  induction order generalizing seenIds with
  | nil => simp [forgetOldest, List.rtake]
  | cons expired order ih =>
    rw [forgetOldest]
    split
    · next hlong =>
      rw [List.length_cons] at hlong
      have hsame := rtake_append_of_le (l := [expired]) (m := order) (n := seenLimit.toNat) (by omega)
      rw [ih, ← hsame, List.singleton_append]
    · next hshort => exact (rtake_of_length_le (Nat.le_of_not_lt hshort)).symm

/-- An id is forgotten with the oldest ones unless it is queued. -/
theorem mem_forgetOldest (seenLimit : UInt64) (queuedIds : Finset Hash256)
    (order : List Hash256) (seenIds : Finset Hash256) (id : Hash256) :
    id ∈ (forgetOldest seenLimit queuedIds order seenIds).2 ↔
      id ∈ seenIds ∧ (id ∈ order.take (order.length - seenLimit.toNat) → id ∈ queuedIds) := by
  induction order generalizing seenIds with
  | nil => simp [forgetOldest]
  | cons expired order ih =>
    rw [forgetOldest]
    split
    · next hlong =>
      rw [List.length_cons] at hlong
      rw [List.length_cons, show order.length + 1 - seenLimit.toNat =
        (order.length - seenLimit.toNat) + 1 by omega, List.take_succ_cons, ih]
      by_cases hqueued : expired ∈ queuedIds
      · rw [if_pos hqueued]
        simp only [List.mem_cons]
        constructor
        · rintro ⟨hseen, hkept⟩
          refine ⟨hseen, ?_⟩
          rintro (rfl | hdropped)
          · exact hqueued
          · exact hkept hdropped
        · rintro ⟨hseen, hkept⟩
          exact ⟨hseen, fun hdropped => hkept (.inr hdropped)⟩
      · rw [if_neg hqueued]
        simp only [List.mem_cons, Finset.mem_erase]
        constructor
        · rintro ⟨⟨hne, hseen⟩, hkept⟩
          refine ⟨hseen, ?_⟩
          rintro (rfl | hdropped)
          · exact absurd rfl hne
          · exact hkept hdropped
        · rintro ⟨hseen, hkept⟩
          refine ⟨⟨?_, hseen⟩, fun hdropped => hkept (.inr hdropped)⟩
          rintro rfl
          exact hqueued (hkept (.inl rfl))
    · next hshort =>
      rw [Nat.sub_eq_zero_of_le (Nat.le_of_not_lt hshort)]
      simp

/-! ### Sightings -/

section

variable [Crypto]

def newSightings (relay : OperationRelay) : RelayCall → List Hash256
  | .enqueue exactOperationBytes workNonce allowSeenRetry =>
    if (relay.enqueue exactOperationBytes workNonce allowSeenRetry).1 = .queued then
      (exactOperationId exactOperationBytes).toList.filter fun id => decide (id ∉ relay.seenIds)
    else []
  | _ => []

def sightings (relay : OperationRelay) : List RelayCall → List Hash256
  | [] => []
  | call :: rest => relay.newSightings call ++ (relay.run call).sightings rest

inductive SeenStep (relay relay' : OperationRelay) (call : RelayCall) : List Hash256 → Prop
  | same (horder : relay'.seenOrder = relay.seenOrder) (hseen : relay'.seenIds = relay.seenIds)
      (hqueued : relay'.queuedIds = relay.queuedIds) : SeenStep relay relay' call []
  | retried (id : Hash256) (hid : id ∈ relay.seenIds) (horder : relay'.seenOrder = relay.seenOrder)
      (hseen : relay'.seenIds = relay.seenIds)
      (hqueued : relay'.queuedIds = insert id relay.queuedIds) : SeenStep relay relay' call []
  | left (id : Hash256) (hcall : call = .acknowledge id ∧ relay.claimedId = some id ∨
        call = .forgetFinalized id)
      (hid : id ∈ relay.queuedIds) (horder : relay'.seenOrder = relay.seenOrder)
      (hseen : relay'.seenIds = relay.seenIds)
      (hqueued : relay'.queuedIds = relay.queuedIds.erase id) : SeenStep relay relay' call []
  | sighted (id : Hash256) (hid : id ∉ relay.seenIds)
      (horder : relay'.seenOrder = (relay.seenOrder ++ [id]).rtake relay.seenLimit.toNat)
      (hseen : ∀ x, x ∈ relay'.seenIds ↔ x ∈ insert id relay.seenIds ∧
        (x ∈ (relay.seenOrder ++ [id]).take
            ((relay.seenOrder ++ [id]).length - relay.seenLimit.toNat) → x ∈ relay'.queuedIds))
      (hqueued : relay'.queuedIds = insert id relay.queuedIds) : SeenStep relay relay' call [id]

theorem seenStep_enqueue (relay : OperationRelay) (exactOperationBytes : Bytes)
    (workNonce : UInt64) (allowSeenRetry : Bool) :
    SeenStep relay (relay.run (.enqueue exactOperationBytes workNonce allowSeenRetry))
      (.enqueue exactOperationBytes workNonce allowSeenRetry)
      (relay.newSightings (.enqueue exactOperationBytes workNonce allowSeenRetry)) := by
  simp only [newSightings, OperationRelay.run]
  unfold OperationRelay.enqueue
  split
  · exact .same rfl rfl rfl
  next id hid =>
  split
  · exact .same rfl rfl rfl
  split
  · exact .same rfl rfl rfl
  · rw [if_pos rfl, hid]
    simp only [push, rememberSeen, Option.toList_some]
    by_cases hseen : id ∈ relay.seenIds
    · rw [if_pos hseen, List.filter_cons_of_neg (by simpa using hseen)]
      exact .retried id hseen rfl rfl rfl
    · rw [if_neg hseen, List.filter_cons_of_pos (by simpa using hseen)]
      refine .sighted id hseen (forgetOldest_order ..) (fun x => ?_) rfl
      exact mem_forgetOldest ..

variable {relay : OperationRelay}

/-- The step: which ids a call remembers. -/
theorem seenStep (hok : relay.QueueOk) (call : RelayCall) :
    SeenStep relay (relay.run call) call (relay.newSightings call) := by
  cases call with
  | enqueue exactOperationBytes workNonce allowSeenRetry =>
    exact seenStep_enqueue relay exactOperationBytes workNonce allowSeenRetry
  | claim =>
    simp only [OperationRelay.run]
    unfold OperationRelay.claim
    split <;> exact .same rfl rfl rfl
  | release id =>
    simp only [OperationRelay.run]
    unfold OperationRelay.release
    split <;> exact .same rfl rfl rfl
  | acknowledge id =>
    simp only [OperationRelay.run]
    unfold OperationRelay.acknowledge
    split
    · exact .same rfl rfl rfl
    next front rest hqueue =>
    split
    · exact .same rfl rfl rfl
    next hfront =>
    push Not at hfront
    obtain ⟨hclaimed, rfl⟩ := hfront
    refine .left front.operationId (.inl ⟨rfl, hclaimed⟩) ?_ rfl rfl rfl
    rw [hok.ids, hqueue]
    exact List.mem_cons_self
  | forgetFinalized id =>
    simp only [OperationRelay.run]
    unfold OperationRelay.forgetFinalized
    split
    · exact .same rfl rfl rfl
    next item hfind =>
    have hid : decide (item.operationId = id) = true :=
      List.find?_some (p := fun item : RelayedOperation => decide (item.operationId = id)) hfind
    rw [decide_eq_true_eq] at hid
    refine .left id (.inr rfl) ?_ rfl rfl rfl
    rw [hok.ids, ← hid]
    exact List.mem_map_of_mem (List.mem_of_find?_eq_some hfind)

/-! ### What always holds of the seen set -/

/-- The order is a duplicate-free part of the seen set within its limit, and what
    is queued is remembered. -/
structure SeenOk (relay : OperationRelay) : Prop where
  length : relay.seenOrder.length ≤ relay.seenLimit.toNat
  nodup : relay.seenOrder.Nodup
  ordered : ∀ id ∈ relay.seenOrder, id ∈ relay.seenIds
  queued : ∀ id ∈ relay.queuedIds, id ∈ relay.seenIds

theorem run_seenLimit (relay : OperationRelay) (call : RelayCall) :
    (relay.run call).seenLimit = relay.seenLimit := by
  cases call with
  | enqueue exactOperationBytes workNonce allowSeenRetry =>
    simp only [OperationRelay.run]
    unfold OperationRelay.enqueue
    split
    · rfl
    split
    · rfl
    split
    · rfl
    · rw [push_eq]
  | claim =>
    simp only [OperationRelay.run]
    unfold OperationRelay.claim
    split <;> rfl
  | release id =>
    simp only [OperationRelay.run]
    unfold OperationRelay.release
    split <;> rfl
  | acknowledge id =>
    simp only [OperationRelay.run]
    unfold OperationRelay.acknowledge
    split
    · rfl
    · split <;> rfl
  | forgetFinalized id =>
    simp only [OperationRelay.run]
    unfold OperationRelay.forgetFinalized
    split <;> rfl

theorem runAll_seenLimit (relay : OperationRelay) (calls : List RelayCall) :
    (relay.runAll calls).seenLimit = relay.seenLimit := by
  induction calls generalizing relay with
  | nil => rfl
  | cons call rest ih => exact (ih (relay.run call)).trans (run_seenLimit relay call)

omit [Crypto] in
theorem SeenOk.new {maxOperations maxQueuedBytes : UInt64}
    (h : OperationRelay.new maxOperations maxQueuedBytes = some relay) : relay.SeenOk := by
  unfold OperationRelay.new at h
  split at h
  · cases h
  · cases h
    exact ⟨Nat.zero_le _, List.nodup_nil, nofun, nofun⟩

/-- The queue stays among the remembered ids. -/
theorem SeenOk.run (h : relay.SeenOk) (hok : relay.QueueOk) (call : RelayCall) : (relay.run call).SeenOk := by
  have hlimit := run_seenLimit relay call
  have hstep := seenStep hok call
  generalize relay.newSightings call = new at hstep
  cases hstep with
  | same horder hseen hqueued =>
    refine ⟨?_, ?_, ?_, ?_⟩
    · rw [horder, hlimit]; exact h.length
    · rw [horder]; exact h.nodup
    · rw [horder, hseen]; exact h.ordered
    · rw [hqueued, hseen]; exact h.queued
  | retried id hid horder hseen hqueued =>
    refine ⟨?_, ?_, ?_, ?_⟩
    · rw [horder, hlimit]; exact h.length
    · rw [horder]; exact h.nodup
    · rw [horder, hseen]; exact h.ordered
    · rw [hqueued, hseen]
      intro x hx
      rcases Finset.mem_insert.mp hx with rfl | hx
      · exact hid
      · exact h.queued x hx
  | left id hcall hid horder hseen hqueued =>
    refine ⟨?_, ?_, ?_, ?_⟩
    · rw [horder, hlimit]; exact h.length
    · rw [horder]; exact h.nodup
    · rw [horder, hseen]; exact h.ordered
    · rw [hqueued, hseen]
      intro x hx
      exact h.queued x (Finset.mem_of_mem_erase hx)
  | sighted id hid horder hseen hqueued =>
    have hnodup : (relay.seenOrder ++ [id]).Nodup := by
      refine List.nodup_append.mpr ⟨h.nodup, List.nodup_singleton _, ?_⟩
      intro x hx y hy heq
      rw [List.mem_singleton.mp hy] at heq
      exact hid (heq ▸ h.ordered x hx)
    refine ⟨?_, ?_, ?_, ?_⟩
    · rw [horder, length_rtake, hlimit]
      exact Nat.min_le_left _ _
    · rw [horder]
      exact hnodup.sublist (List.drop_sublist _ _)
    · intro x hx
      rw [horder] at hx
      refine (hseen x).mpr ⟨?_, ?_⟩
      · rcases List.mem_append.mp (List.mem_of_mem_drop hx) with hold | hnew
        · exact Finset.mem_insert_of_mem (h.ordered x hold)
        · rw [List.mem_singleton.mp hnew]
          exact Finset.mem_insert_self _ _
      · -- a duplicate-free order does not drop an id and keep it
        intro hdropped
        rw [← List.take_append_drop ((relay.seenOrder ++ [id]).length - relay.seenLimit.toNat)
          (relay.seenOrder ++ [id])] at hnodup
        exact absurd rfl ((List.nodup_append.mp hnodup).2.2 x hdropped x hx)
    · intro x hx
      refine (hseen x).mpr ⟨?_, fun _ => hx⟩
      rw [hqueued] at hx
      rcases Finset.mem_insert.mp hx with rfl | hx
      · exact Finset.mem_insert_self _ _
      · exact Finset.mem_insert_of_mem (h.queued x hx)

theorem SeenOk.runAll (h : relay.SeenOk) (hok : relay.QueueOk)
    (calls : List RelayCall) : (relay.runAll calls).SeenOk := by
  induction calls generalizing relay with
  | nil => exact h
  | cons call rest ih => exact ih (h.run hok call) (hok.run call)

theorem seenOrder_runAll (h : relay.SeenOk) (hok : relay.QueueOk)
    (calls : List RelayCall) : (relay.runAll calls).seenOrder =
      (relay.seenOrder ++ relay.sightings calls).rtake relay.seenLimit.toNat := by
  induction calls generalizing relay with
  | nil =>
    rw [sightings, List.append_nil, rtake_of_length_le h.length]
    rfl
  | cons call rest ih =>
    have hstep : (relay.run call).seenOrder =
        (relay.seenOrder ++ relay.newSightings call).rtake relay.seenLimit.toNat := by
      have hstep := seenStep hok call
      generalize relay.newSightings call = new at hstep ⊢
      cases hstep with
      | same horder => rw [horder, List.append_nil, rtake_of_length_le h.length]
      | retried id hid horder => rw [horder, List.append_nil, rtake_of_length_le h.length]
      | left id hcall hid horder => rw [horder, List.append_nil, rtake_of_length_le h.length]
      | sighted id hid horder => exact horder
    have hrest := ih (h.run hok call) (hok.run call)
    rw [run_seenLimit, hstep, rtake_rtake_append, List.append_assoc] at hrest
    exact hrest

theorem sightings_append (relay : OperationRelay) (calls calls' : List RelayCall) :
    relay.sightings (calls ++ calls') =
      relay.sightings calls ++ (relay.runAll calls).sightings calls' := by
  induction calls generalizing relay with
  | nil => rfl
  | cons call rest ih =>
    rw [List.cons_append, sightings, sightings, ih, List.append_assoc]
    rfl

theorem mem_seenIds_run {relay : OperationRelay} (hok : relay.QueueOk) {call : RelayCall}
    {id : Hash256} (h : id ∈ (relay.run call).seenIds) :
    id ∈ relay.seenIds ∨ id ∈ relay.newSightings call := by
  have hstep := seenStep hok call
  generalize relay.newSightings call = new at hstep ⊢
  cases hstep with
  | same horder hseen => exact .inl (hseen ▸ h)
  | retried id hid horder hseen => exact .inl (hseen ▸ h)
  | left id hcall hid horder hseen => exact .inl (hseen ▸ h)
  | sighted new hid horder hseen =>
    rcases Finset.mem_insert.mp ((hseen id).mp h).1 with rfl | hold
    · exact .inr (List.mem_singleton_self _)
    · exact .inl hold

/-! ### What the seen set is for -/

/-- Every remembered id is in the seen order or queued. -/
def SeenBounded (relay : OperationRelay) : Prop :=
  ∀ id ∈ relay.seenIds, id ∈ relay.seenOrder ∨ id ∈ relay.queuedIds

/-- Duplicate suppression is bounded and temporary in the state a run ends in. -/
structure SeenTemporary (start : OperationRelay) (calls : List RelayCall) : Prop where
  bounded : (start.runAll calls).SeenBounded
  size : (start.runAll calls).seenIds.card ≤ start.seenLimit.toNat + start.maxOperations.toNat
  again : ∀ exactOperationBytes workNonce id, exactOperationId exactOperationBytes = some id →
    id ∉ (start.runAll calls).queuedIds → id ∉ (start.sightings calls).rtake start.seenLimit.toNat →
      ((start.runAll calls).enqueue exactOperationBytes workNonce false).1 =
        if (start.runAll calls).fitsQueueLimits (UInt64.ofNat exactOperationBytes.length) = true then
          .queued
        else .queueFull

def KeepsSeen (relay : OperationRelay) : RelayCall → Prop
  | .acknowledge id => relay.claimedId = some id → id ∈ relay.seenOrder
  | .forgetFinalized id => id ∈ relay.queuedIds → id ∈ relay.seenOrder
  | _ => True

/-- A call that keeps the order list complete keeps the remembered ids bounded. -/
theorem SeenBounded.run (h : relay.SeenBounded) (hok : relay.QueueOk)
    {call : RelayCall} (hkeeps : relay.KeepsSeen call) : (relay.run call).SeenBounded := by
  intro x hx
  have hstep := seenStep hok call
  generalize relay.newSightings call = new at hstep
  cases hstep with
  | same horder hseen hqueued =>
    rw [horder, hqueued]
    exact h x (hseen ▸ hx)
  | retried id hid horder hseen hqueued =>
    rw [horder, hqueued]
    exact (h x (hseen ▸ hx)).imp_right Finset.mem_insert_of_mem
  | left id hcall hid horder hseen hqueued =>
    rw [horder, hqueued]
    rcases h x (hseen ▸ hx) with hordered | hin
    · exact .inl hordered
    by_cases hxid : x = id
    · subst hxid
      left
      rcases hcall with ⟨rfl, hclaimed⟩ | rfl
      · exact hkeeps hclaimed
      · exact hkeeps hid
    · exact .inr (Finset.mem_erase.mpr ⟨hxid, hin⟩)
  | sighted id hid horder hseen hqueued =>
    obtain ⟨hin, hkept⟩ := (hseen x).mp hx
    by_cases hdropped : x ∈ (relay.seenOrder ++ [id]).take
        ((relay.seenOrder ++ [id]).length - relay.seenLimit.toNat)
    · exact .inr (hkept hdropped)
    have hplace : x ∈ relay.seenOrder ++ [id] ∨ x ∈ relay.queuedIds := by
      rcases Finset.mem_insert.mp hin with rfl | hold
      · exact .inl (List.mem_append_right _ (List.mem_singleton_self _))
      · exact (h x hold).imp_left (List.mem_append_left _)
    rcases hplace with hordered | hold
    · left
      rw [horder]
      rw [← List.take_append_drop ((relay.seenOrder ++ [id]).length - relay.seenLimit.toNat)
        (relay.seenOrder ++ [id])] at hordered
      exact (List.mem_append.mp hordered).resolve_left hdropped
    · right
      rw [hqueued]
      exact Finset.mem_insert_of_mem hold

/-- A call that takes out an id the order has dropped leaves it remembered. -/
theorem not_seenBounded_of_not_keepsSeen (h : relay.SeenOk)
    (hok : relay.QueueOk) {call : RelayCall} (hkeeps : ¬relay.KeepsSeen call) :
    ¬(relay.run call).SeenBounded := by
  obtain ⟨id, hqueued, hdropped, hrun⟩ : ∃ id, id ∈ relay.queuedIds ∧ id ∉ relay.seenOrder ∧
      (relay.run call).seenOrder = relay.seenOrder ∧ (relay.run call).seenIds = relay.seenIds ∧
        (relay.run call).queuedIds = relay.queuedIds.erase id := by
    cases call with
    | acknowledge id =>
      simp only [KeepsSeen, Classical.not_imp] at hkeeps
      obtain ⟨hclaimed, hdropped⟩ := hkeeps
      have hhead := hok.claimed id hclaimed
      refine ⟨id, (hok.ids id).mpr (List.mem_of_head? hhead), hdropped, ?_⟩
      simp only [OperationRelay.run]
      unfold OperationRelay.acknowledge
      split
      · next hnil =>
        rw [hnil] at hhead
        cases hhead
      next front rest hqueue =>
      rw [hqueue, queuedIdsOf, List.map_cons, List.head?_cons, Option.some.injEq] at hhead
      rw [if_neg (by simp [hclaimed, hhead])]
      exact ⟨rfl, rfl, rfl⟩
    | forgetFinalized id =>
      simp only [KeepsSeen, Classical.not_imp] at hkeeps
      obtain ⟨hqueued, hdropped⟩ := hkeeps
      refine ⟨id, hqueued, hdropped, ?_⟩
      simp only [OperationRelay.run]
      unfold OperationRelay.forgetFinalized
      split
      · next hnone =>
        obtain ⟨item, hitem, rfl⟩ := List.mem_map.mp ((hok.ids id).mp hqueued)
        exact absurd (decide_eq_true rfl) (List.find?_eq_none.mp hnone item hitem)
      · exact ⟨rfl, rfl, rfl⟩
    | enqueue _ _ _ => exact absurd trivial hkeeps
    | claim => exact absurd trivial hkeeps
    | release _ => exact absurd trivial hkeeps
  obtain ⟨horder, hseen, hleft⟩ := hrun
  intro hbounded
  rcases hbounded id (hseen ▸ h.queued id hqueued) with hin | hin
  · exact hdropped (horder ▸ hin)
  · rw [hleft] at hin
    exact Finset.notMem_erase _ _ hin

omit [Crypto] in
theorem SeenBounded.card_le (h : relay.SeenBounded) (hseen : relay.SeenOk) (hok : relay.QueueOk) :
    relay.seenIds.card ≤ relay.seenLimit.toNat + relay.maxOperations.toNat := by
  have hsub : relay.seenIds ⊆ relay.seenOrder.toFinset ∪ (queuedIdsOf relay.queue).toFinset := by
    intro id hid
    rw [Finset.mem_union, List.mem_toFinset, List.mem_toFinset, ← hok.ids]
    exact h id hid
  calc relay.seenIds.card
      ≤ (relay.seenOrder.toFinset ∪ (queuedIdsOf relay.queue).toFinset).card :=
        Finset.card_le_card hsub
    _ ≤ relay.seenOrder.toFinset.card + (queuedIdsOf relay.queue).toFinset.card :=
        Finset.card_union_le _ _
    _ ≤ relay.seenOrder.length + (queuedIdsOf relay.queue).length :=
        Nat.add_le_add (List.toFinset_card_le _) (List.toFinset_card_le _)
    _ ≤ relay.seenLimit.toNat + relay.maxOperations.toNat := by
        rw [queuedIdsOf, List.length_map]
        exact Nat.add_le_add hseen.length hok.count

theorem enqueue_unseen {exactOperationBytes : Bytes} {id : Hash256}
    (hid : exactOperationId exactOperationBytes = some id) (hqueued : id ∉ relay.queuedIds)
    (hseen : id ∉ relay.seenIds) (workNonce : UInt64) :
    (relay.enqueue exactOperationBytes workNonce false).1 =
      if relay.fitsQueueLimits (UInt64.ofNat exactOperationBytes.length) = true then .queued
      else .queueFull := by
  rw [OperationRelay.enqueue, hid]
  simp only [hqueued, hseen, false_and, or_self, if_false]
  by_cases hfits : relay.fitsQueueLimits (UInt64.ofNat exactOperationBytes.length) = true
  · rw [if_pos hfits, if_neg (by simp [hfits])]
  · rw [if_neg hfits, if_pos (eq_false_of_ne_true hfits)]

/-- **Duplicate suppression over every run**: it stays bounded and temporary in
    every state reached exactly when no call takes an id out of the queue that the
    seen order has dropped. -/
theorem seenTemporary_iff {maxOperations maxQueuedBytes : UInt64} {start : OperationRelay}
    (hnew : OperationRelay.new maxOperations maxQueuedBytes = some start) (calls : List RelayCall) :
    (∀ before after, calls = before ++ after → SeenTemporary start before) ↔
      ∀ before call after, calls = before ++ call :: after →
        (start.runAll before).KeepsSeen call := by
  have hok := QueueOk.new hnew
  have hseen := SeenOk.new hnew
  have hrun_append (before : List RelayCall) (call : RelayCall) :
      start.runAll (before ++ [call]) = (start.runAll before).run call := by
    simp [OperationRelay.runAll]
  constructor
  · intro h before call after hcalls
    by_contra hkeeps
    have hbounded := (h (before ++ [call]) after (by simp [hcalls])).bounded
    rw [hrun_append] at hbounded
    exact not_seenBounded_of_not_keepsSeen (hseen.runAll hok before) (hok.runAll before) hkeeps hbounded
  · intro h before
    suffices hbounded : ∀ after, calls = before ++ after → (start.runAll before).SeenBounded by
      intro after hcalls
      have hb := hbounded after hcalls
      obtain ⟨hcount, -⟩ := runAll_limits hnew before
      obtain ⟨hcount', -⟩ := runAll_limits hnew []
      have hcard := hb.card_le (hseen.runAll hok before) (hok.runAll before)
      rw [runAll_seenLimit, hcount, ← hcount'] at hcard
      refine ⟨hb, hcard, ?_⟩
      intro exactOperationBytes workNonce id hid hqueued hlast
      refine enqueue_unseen hid hqueued ?_ workNonce
      intro hin
      rcases hb id hin with hordered | hin
      · rw [seenOrder_runAll hseen hok] at hordered
        have hempty : start.seenOrder = [] := by
          unfold OperationRelay.new at hnew
          split at hnew
          · cases hnew
          · cases hnew
            rfl
        rw [hempty, List.nil_append] at hordered
        exact hlast hordered
      · exact hqueued hin
    induction before using List.reverseRecOn with
    | nil =>
      intro _ _ id hid
      unfold OperationRelay.new at hnew
      split at hnew
      · cases hnew
      · cases hnew
        exact absurd hid (Finset.notMem_empty id)
    | append_singleton before call ih =>
      intro after hcalls
      rw [hrun_append]
      rw [List.append_assoc, List.singleton_append] at hcalls
      exact (ih (call :: after) hcalls).run (hok.runAll before) (h before call after hcalls)

end

end OperationRelay

section Sample

set_option maxRecDepth 10000

attribute [local instance] Crypto.sample

open OperationRelay

def relayLock (n : Nat) : AuthorizedSystemLock :=
  let amount := UInt64.ofNat (n + 1)
  { authorization :=
      { accountId := sampleId 1, nonce := 0, keyEpoch := 0, kind := .systemLock
        payloadCommitment := Crypto.sha256 (ascii "CYBOU/SYSTEM-LOCK-PAYLOAD" ++ le64 amount)
        signature := sampleSignature }
    lock := { amount } }

@[irreducible] def relayLockBytes (n : Nat) : Bytes :=
  (serializeProtocolOperation (.systemLock (relayLock n))).getD []

@[irreducible] def relayLockId (n : Nat) : Hash256 := Crypto.sha256 (ascii "CYBOU/OP-ID" ++ relayLockBytes n)

variable {n : Nat}

theorem serialize_relayLock (h : n < 5000) : ∃ out,
    out.length = IDENTITY_OPERATION_AUTH_SIZE ∧
      serializeProtocolOperation (.systemLock (relayLock n)) =
        some (4 :: (out ++ le64 (UInt64.ofNat (n + 1)))) := by
  have hamount : UInt64.ofNat (n + 1) ≠ 0 := by
    intro heq
    have htoNat := congrArg UInt64.toNat heq
    rw [UInt64.toNat_ofNat_of_lt' (show n + 1 < 2 ^ 64 by omega)] at htoNat
    cases htoNat
  have hpayload : serializeSystemLockPayload (relayLock n).lock =
      some (le64 (UInt64.ofNat (n + 1))) := if_neg hamount
  have hcommitment : computeSystemLockPayloadCommitment (relayLock n).lock =
      some (relayLock n).authorization.payloadCommitment := by
    rw [computeSystemLockPayloadCommitment, payloadCommitment, hpayload]
    rfl
  have hcommitted : isZero (relayLock n).authorization.payloadCommitment.1 = false :=
    Crypto.sha256_ne_null _
  have hfields : Hash256.isNull (sampleId 1) = false ∧ sampleSignature.mlDsa.length = 2420 ∧
      isZero sampleSignature.ed25519.1 = false ∧ isZero sampleSignature.mlDsa = false := by
    decide
  obtain ⟨hid, hlength, hed, hml⟩ := hfields
  have hauth : (serializeIdentityOperationAuthorization (relayLock n).authorization
      .systemLock).isSome = true := by
    rw [serializeIdentityOperationAuthorization, if_neg]
    · rfl
    · simp only [not_or, Bool.not_eq_true]
      exact ⟨not_not.mpr rfl, hid, not_not.mpr hlength, hcommitted, hed, hml⟩
  obtain ⟨out, hout⟩ := Option.isSome_iff_exists.mp hauth
  refine ⟨out, Reader.length_of_sized ((identityOperationAuthorization_inverse .systemLock _ _).mpr hout), ?_⟩
  have hbody : serializeOperationBody (.systemLock (relayLock n)) =
      some (out ++ le64 (UInt64.ofNat (n + 1))) := by
    rw [serializeOperationBody, serializeAuthorizedPayload, hpayload, Option.bind_eq_bind,
      Option.bind_some, if_neg (not_not.mpr hcommitment), hout]
    rfl
  exact serializeProtocolOperation_cons.mpr ⟨rfl, hbody⟩

theorem relayLockBytes_eq (h : n < 5000) : ∃ out,
    out.length = IDENTITY_OPERATION_AUTH_SIZE ∧
      relayLockBytes n = 4 :: (out ++ le64 (UInt64.ofNat (n + 1))) := by
  obtain ⟨out, hlength, hserialized⟩ := serialize_relayLock h
  exact ⟨out, hlength, by rw [relayLockBytes, hserialized, Option.getD_some]⟩

theorem length_relayLockBytes (h : n < 5000) : (relayLockBytes n).length = 2574 := by
  obtain ⟨out, hlength, hbytes⟩ := relayLockBytes_eq h
  rw [hbytes, List.length_cons, List.length_append, hlength, length_le64]
  rfl

theorem exactOperationId_relayLock (h : n < 5000) :
    exactOperationId (relayLockBytes n) = some (relayLockId n) := by
  obtain ⟨out, hlength, hserialized⟩ := serialize_relayLock h
  have hbytes : relayLockBytes n = 4 :: (out ++ le64 (UInt64.ofNat (n + 1))) := by
    rw [relayLockBytes, hserialized, Option.getD_some]
  have hid : computeOperationIdOfBytes (relayLockBytes n) = some (relayLockId n) := by
    rw [computeOperationIdOfBytes, if_neg (by simp [hbytes]), relayLockId]
  have hdeserialized : deserializeProtocolOperation (relayLockBytes n) =
      some (.systemLock (relayLock n)) := by
    rw [hbytes]
    exact (deserialize_serializeProtocolOperation hserialized).mpr trivial
  have hcomputed : computeOperationId (.systemLock (relayLock n)) = some (relayLockId n) := by
    rw [computeOperationId, hserialized, ← hbytes]
    exact hid
  have hsize : ¬(relayLockBytes n = [] ∨ (relayLockBytes n).length > MAX_OPERATION_PAYLOAD_BYTES) := by
    rw [length_relayLockBytes h, hbytes]
    simp [MAX_OPERATION_PAYLOAD_BYTES]
  rw [exactOperationId, if_neg hsize, hdeserialized]
  simp only [Option.bind_eq_bind, Option.bind_some, hcomputed, computeOperationId_ne_null hcomputed,
    Bool.false_eq_true, if_false]
  rfl

theorem relayLockId_inj {m : Nat} (hn : n < 5000) (hm : m < 5000)
    (h : relayLockId n = relayLockId m) : n = m := by
  have hkept (k : Nat) (hk : k < 5000) :
      ((relayLockId k).1.drop 1).take 8 = (le64 (UInt64.ofNat (k + 1))).reverse := by
    obtain ⟨out, -, hbytes⟩ := relayLockBytes_eq hk
    have hbody : ((relayLockId k).1.drop 1) =
        ((ascii "CYBOU/OP-ID" ++ relayLockBytes k).reverse ++ List.replicate 31 0).take 31 := by
      rw [relayLockId]
      rfl
    rw [hbody, hbytes, List.take_take, List.reverse_append, List.reverse_cons, List.reverse_append,
      List.append_assoc, List.append_assoc, List.append_assoc]
    exact List.take_left' (by simp)
  have heq : le64 (UInt64.ofNat (n + 1)) = le64 (UInt64.ofNat (m + 1)) := by
    rw [← List.reverse_inj, ← hkept n hn, ← hkept m hm, h]
  have hnat := congrArg leNat heq
  rw [le64, le64, UInt64.toNat_ofNat_of_lt' (show n + 1 < 2 ^ 64 by omega),
    UInt64.toNat_ofNat_of_lt' (show m + 1 < 2 ^ 64 by omega), leNat_leBytes (by omega),
    leNat_leBytes (by omega)] at hnat
  omega

/-- Operation 0 stays queued while `n` others come and are finalized. -/
def floodCalls : Nat → List RelayCall
  | 0 => [.enqueue (relayLockBytes 0) 0 false]
  | n + 1 => floodCalls n ++
    [.enqueue (relayLockBytes (n + 1)) 0 false, .forgetFinalized (relayLockId (n + 1))]

structure Flooded (start : OperationRelay) (n : Nat) : Prop where
  queue : (start.runAll (floodCalls n)).queue = [⟨relayLockId 0, relayLockBytes 0, 0⟩]
  seen : ∀ id ∈ (start.runAll (floodCalls n)).seenIds, ∃ k ≤ n, id = relayLockId k
  sightings : start.sightings (floodCalls n) = (List.range (n + 1)).map relayLockId

theorem enqueue_fresh {relay : OperationRelay} {n : Nat} (hn : n < 5000) (hqueue : relay.queue.length ≤ 1)
    (hcount : relay.maxOperations = 256) (hlimit : relay.maxQueuedBytes = 8388608)
    (hbytes : relay.queuedBytes.toNat ≤ 2574) (hqueued : relayLockId n ∉ relay.queuedIds)
    (hseen : relayLockId n ∉ relay.seenIds) :
    relay.enqueue (relayLockBytes n) 0 false =
      (.queued, relay.push ⟨relayLockId n, relayLockBytes n, 0⟩) := by
  have hmin : min relay.queuedBytes 8388608 = relay.queuedBytes := by
    rw [← UInt64.toNat_inj, UInt64.toNat_min]
    exact Nat.min_eq_left (Nat.le_trans hbytes (by decide))
  have hle : relay.queuedBytes ≤ 8388608 := by
    rw [UInt64.le_iff_toNat_le]
    exact Nat.le_trans hbytes (by decide)
  have hfits : relay.fitsQueueLimits (UInt64.ofNat (relayLockBytes n).length) = true := by
    rw [fitsQueueLimits, hcount, hlimit, hmin, length_relayLockBytes hn, Bool.and_eq_true,
      decide_eq_true_eq, decide_eq_true_eq, UInt64.le_iff_toNat_le, UInt64.toNat_sub_of_le _ _ hle]
    refine ⟨Nat.lt_of_le_of_lt hqueue (by decide), ?_⟩
    show 2574 ≤ 8388608 - relay.queuedBytes.toNat
    omega
  rw [OperationRelay.enqueue, exactOperationId_relayLock hn]
  simp only [hqueued, hseen, false_and, or_self, if_false, hfits, Bool.true_eq_false]

theorem newSightings_fresh {relay : OperationRelay} {n : Nat} (hn : n < 5000)
    (hqueued : (relay.enqueue (relayLockBytes n) 0 false).1 = .queued)
    (hseen : relayLockId n ∉ relay.seenIds) :
    relay.newSightings (.enqueue (relayLockBytes n) 0 false) = [relayLockId n] := by
  rw [newSightings, if_pos hqueued, exactOperationId_relayLock hn, Option.toList_some]
  exact List.filter_cons_of_pos (decide_eq_true hseen)

variable {start : OperationRelay}

theorem flooded_zero (hnew : OperationRelay.new 256 8388608 = some start) : Flooded start 0 := by
  have hok := QueueOk.new hnew
  have hstart : start.queue = [] ∧ start.seenIds = ∅ ∧ start.queuedIds = ∅ ∧ start.queuedBytes = 0 ∧
      start.maxOperations = 256 ∧ start.maxQueuedBytes = 8388608 := by
    cases hnew
    exact ⟨rfl, rfl, rfl, rfl, rfl, rfl⟩
  obtain ⟨hqueue, hseen, hqueued, hbytes, hcount, hlimit⟩ := hstart
  have hfresh := @enqueue_fresh start 0 (by omega) (by simp [hqueue]) hcount hlimit
    (by simp [hbytes]) (by simp [hqueued]) (by simp [hseen])
  have hsighted := @newSightings_fresh start 0 (by omega) (by rw [hfresh])
    (by simp [hseen])
  refine ⟨?_, ?_, ?_⟩
  · show (start.enqueue (relayLockBytes 0) 0 false).2.queue = _
    rw [hfresh, push_eq, hqueue]
    rfl
  · intro id hid
    rcases @mem_seenIds_run _ start hok (.enqueue (relayLockBytes 0) 0 false) id hid with hold | hnow
    · rw [hseen] at hold
      exact absurd hold (Finset.notMem_empty id)
    · rw [hsighted, List.mem_singleton] at hnow
      exact ⟨0, Nat.le_refl 0, hnow⟩
  · rw [floodCalls, sightings, hsighted, sightings]
    rfl

/-- The operation leaves the queue while its sighting is in the order. -/
theorem seenTemporary_forgotten : ∃ start, OperationRelay.new 256 8388608 = some start ∧
    (start.runAll (floodCalls 0 ++ [.forgetFinalized (relayLockId 0)])).queue = [] ∧
    SeenTemporary start (floodCalls 0 ++ [.forgetFinalized (relayLockId 0)]) := by
  have hsome : (OperationRelay.new 256 8388608).isSome = true := by decide
  obtain ⟨start, hstart⟩ := Option.isSome_iff_exists.mp hsome
  have hflooded := flooded_zero hstart
  have horder := seenOrder_runAll (SeenOk.new hstart) (QueueOk.new hstart) (floodCalls 0)
  have hnil : start.seenOrder = [] ∧ 1 ≤ start.seenLimit.toNat := by
    cases hstart
    decide
  rw [hnil.1, hflooded.sightings, List.nil_append, rtake_of_length_le (by simpa using hnil.2)] at horder
  refine ⟨start, hstart, ?_, (seenTemporary_iff hstart _).mpr ?_ _ [] (List.append_nil _).symm⟩
  · rw [OperationRelay.runAll, List.foldl_append]
    show ((start.runAll (floodCalls 0)).forgetFinalized (relayLockId 0)).queue = []
    rw [forgetFinalized, hflooded.queue, List.find?_cons_of_pos (by simp)]
    simp
  · intro before call after hcalls
    match before, hcalls with
    | [], hcalls =>
      cases hcalls
      trivial
    | [_], hcalls =>
      cases hcalls
      intro _
      show relayLockId 0 ∈ (start.runAll (floodCalls 0)).seenOrder
      rw [horder]
      exact List.mem_cons_self
    | _ :: _ :: before, hcalls =>
      have hlength := congrArg List.length hcalls
      simp [floodCalls] at hlength

theorem flooded_succ (hnew : OperationRelay.new 256 8388608 = some start)
    (hn : n + 1 < 5000) (h : Flooded start n) : Flooded start (n + 1) := by
  have hok : (start.runAll (floodCalls n)).QueueOk := (QueueOk.new hnew).runAll _
  obtain ⟨hcount, hlimit⟩ := runAll_limits hnew (floodCalls n)
  obtain ⟨hqueue, hseen, hsightings⟩ := h
  have hrun : start.runAll (floodCalls (n + 1)) =
      ((start.runAll (floodCalls n)).run (.enqueue (relayLockBytes (n + 1)) 0 false)).run
        (.forgetFinalized (relayLockId (n + 1))) := by
    rw [floodCalls, OperationRelay.runAll, List.foldl_append]
    rfl
  have hne : relayLockId 0 ≠ relayLockId (n + 1) := by
    intro heq
    cases relayLockId_inj (by omega) hn heq
  have hnew_seen : relayLockId (n + 1) ∉ (start.runAll (floodCalls n)).seenIds := by
    intro hin
    obtain ⟨k, hk, heq⟩ := hseen _ hin
    have hk' := relayLockId_inj hn (by omega) heq
    omega
  have hnew_queued : relayLockId (n + 1) ∉ (start.runAll (floodCalls n)).queuedIds := by
    rw [hok.ids, hqueue]
    simpa [queuedIdsOf] using hne.symm
  have hbytes : (start.runAll (floodCalls n)).queuedBytes.toNat ≤ 2574 := by
    rw [hok.bytes, hqueue]
    simp [queuedBytesOf, length_relayLockBytes (show 0 < 5000 by omega)]
  have hfresh := enqueue_fresh hn (by simp [hqueue]) hcount hlimit hbytes hnew_queued hnew_seen
  have hsighted := newSightings_fresh hn (by rw [hfresh]) hnew_seen
  generalize hrelay : start.runAll (floodCalls n) = relay at *
  have hpushed : relay.run (.enqueue (relayLockBytes (n + 1)) 0 false) =
      relay.push ⟨relayLockId (n + 1), relayLockBytes (n + 1), 0⟩ := by
    rw [OperationRelay.run, hfresh]
  have hpushedQueue : (relay.push ⟨relayLockId (n + 1), relayLockBytes (n + 1), 0⟩).queue =
      [⟨relayLockId 0, relayLockBytes 0, 0⟩, ⟨relayLockId (n + 1), relayLockBytes (n + 1), 0⟩] := by
    rw [push_eq, hqueue]
    rfl
  have hpushedOk : (relay.push ⟨relayLockId (n + 1), relayLockBytes (n + 1), 0⟩).QueueOk :=
    hpushed ▸ hok.run _
  refine ⟨?_, ?_, ?_⟩
  · rw [hrun, hpushed]
    simp only [OperationRelay.run]
    rw [forgetFinalized, hpushedQueue, List.find?_cons_of_neg (by simpa using hne),
      List.find?_cons_of_pos (by simp)]
    simp only
    rw [List.eraseP_cons_of_neg (by simpa using hne), List.eraseP_cons_of_pos (by simp)]
  · intro id hid
    rw [hrun, hpushed] at hid
    rcases mem_seenIds_run hpushedOk hid with hold | hnone
    · rw [← hpushed] at hold
      rcases mem_seenIds_run hok hold with hold | hnow
      · obtain ⟨k, hk, heq⟩ := hseen id hold
        exact ⟨k, by omega, heq⟩
      · rw [hsighted, List.mem_singleton] at hnow
        exact ⟨n + 1, Nat.le_refl _, hnow⟩
    · cases hnone
  · rw [floodCalls, sightings_append, hrelay, hsightings, sightings, sightings, sightings, hsighted,
      List.range_succ (n := n + 1), List.map_append]
    rfl

theorem Flooded.dropped (h : Flooded start n) (hn : n < 5000)
    (hnew : OperationRelay.new 256 8388608 = some start) (hlimit : start.seenLimit.toNat = n) :
    ¬(start.runAll (floodCalls n)).KeepsSeen (.forgetFinalized (relayLockId 0)) := by
  have hstart : start.seenOrder = [] := by
    cases hnew
    rfl
  have hok := QueueOk.new hnew
  have horder := seenOrder_runAll (SeenOk.new hnew) hok (floodCalls n)
  rw [hlimit, hstart, h.sightings, List.nil_append, List.range_succ_eq_map, List.map_cons,
    ← List.singleton_append, rtake_append_of_le (by simp), rtake_of_length_le (by simp)] at horder
  intro hkeeps
  have hqueued : relayLockId 0 ∈ (start.runAll (floodCalls n)).queuedIds := by
    rw [(hok.runAll _).ids, h.queue]
    exact List.mem_singleton_self _
  have hin : relayLockId 0 ∈ (start.runAll (floodCalls n)).seenOrder := hkeeps hqueued
  rw [horder, List.mem_map] at hin
  obtain ⟨k, hk, heq⟩ := hin
  obtain ⟨j, hj, rfl⟩ := List.mem_map.mp hk
  have hjn := List.mem_range.mp hj
  cases relayLockId_inj (by omega) (by omega) heq

/-- An id that stays queued while `m_seen_limit` others are sighted is remembered
    for good: it leaves the queue and is in neither the queue nor the order. -/
theorem seenTemporary_flood : ∃ start calls, OperationRelay.new 256 8388608 = some start ∧
    ¬SeenTemporary start calls := by
  have hsome : (OperationRelay.new 256 8388608).isSome = true := by decide
  obtain ⟨start, hstart⟩ := Option.isSome_iff_exists.mp hsome
  have hflooded (n : Nat) (hn : n < 5000) : Flooded start n := by
    induction n with
    | zero => exact flooded_zero hstart
    | succ n ih => exact flooded_succ hstart hn (ih (by omega))
  have hlimit : start.seenLimit.toNat < 5000 := by
    cases hstart
    decide
  generalize hn : start.seenLimit.toNat = n at hlimit
  refine ⟨start, floodCalls n ++ [.forgetFinalized (relayLockId 0)], hstart, ?_⟩
  intro htemporary
  have hbounded := htemporary.bounded
  rw [OperationRelay.runAll, List.foldl_append] at hbounded
  exact not_seenBounded_of_not_keepsSeen ((SeenOk.new hstart).runAll (QueueOk.new hstart) _)
    ((QueueOk.new hstart).runAll _) ((hflooded n hlimit).dropped hlimit hstart hn) hbounded

end Sample

end Cybou
