import Cybou.StagingRules
import Cybou.Library.Latest

/-! # Applying opened publications to the Files index (`application_service.cpp`)

`ApplyFiles` keeps for each item the mutation that is last in the canonical order, so the
catalog does not depend on the order in which roots become available.
-/

namespace Cybou

open Library

/-! ### Accessible publications -/

inductive AccessibleRootState where
  | discovered
  | indexed
  | temporarilyUnavailable
  | invalid
deriving DecidableEq, Repr

structure Accessible where
  state : AccessibleRootState
  height : UInt64
  operationIndex : UInt32
  sender : AccountId
  senderNonce : UInt64
  senderKeyEpoch : UInt64
  rootChunkId : ChunkId
  contentKey : ContentKey
deriving DecidableEq

/-! ### Applying -/

def mutationRecord (operationId : Hash256) (order : PrivateOrder) (mutation : FileMutation) : Option FileRecord :=
  if mutation.kind = .deleteItem then
    some { item := .blank mutation.itemId, operationId, order, deleted := true, starred := false }
  else mutation.item.map fun item => { item, operationId, order, deleted := false, starred := false }

/-- One turn of `ApplyFiles`. -/
def applyMutation (operationId : Hash256) (order : PrivateOrder) (mutation : FileMutation) : Staging Bool := do
  let s ← get
  if (loadFile s.rows mutation.itemId false).any (fun existing => decide (existing.order ≥ order)) = true then
    addId .filesIndex mutation.itemId
  else
    match mutationRecord operationId order mutation with
    | none => return false
    | some record => saveFile record false

/-- The loop of `ApplyFiles`, from the mutation of this number. -/
def applyMutations (operationId : Hash256) (accessible : Accessible) : UInt32 → List FileMutation → Staging Bool
  | _, [] => return true
  | i, mutation :: mutations => do
    let order : PrivateOrder :=
      { height := accessible.height, operationIndex := accessible.operationIndex, mutationIndex := i }
    if (← applyMutation operationId order mutation) = false then return false
    applyMutations operationId accessible (i + 1) mutations

def applyFiles (me : Option AccountId) (operationId : Hash256) (accessible : Accessible)
    (batch : FilesMutationBatch) : Staging Bool :=
  if me ≠ some accessible.sender then return false
  else applyMutations operationId accessible 0 batch.mutations

/-! ### Calls that return `true` -/

/-- The call returns `true`, and the batch is as open as before. -/
def Returns (x : Staging Bool) (s : StagedRows) : Prop :=
  ∃ s', x s = .ok true s' ∧ s'.failed = s.failed ∧ s'.unlocked = s.unlocked

section

variable {x y : Staging Bool} {P : StagedRows → Prop} {s : StagedRows}

theorem Returns.next (hx : Returns x s)
    (hy : ∀ s', x s = .ok true s' → s'.unlocked = s.unlocked → Returns y s') :
    Returns (x >>= fun ok => if ok = false then pure false else y) s := by
  rcases hx with ⟨s₁, hrun, hfailed, hunlocked⟩
  rcases hy s₁ hrun hunlocked with ⟨s₂, hrun', hfailed', hunlocked'⟩
  refine ⟨s₂, ?_, hfailed'.trans hfailed, hunlocked'.trans hunlocked⟩
  change EStateM.bind x _ s = _
  rw [EStateM.bind, hrun]
  exact hrun'

theorem Completes.of_run (h : Completes x P s) {s' : StagedRows} (hrun : x s = .ok true s') : P s' := by
  rw [Completes, Proc.wp, hrun] at h
  exact h rfl

theorem Returns.putRow {key : ApplicationKey} {value : Bytes} (hunlocked : s.unlocked = true)
    (husable : key.usable = true) (hlength : value.length ≤ MAX_VALUE_BYTES) : Returns (putRow key value) s := by
  have htakes : s.takes key value = true := by
    rw [StagedRows.takes, hunlocked, husable, decide_eq_true hlength]
    rfl
  refine ⟨s.with key (some value), ?_, rfl, rfl⟩
  change (if s.takes key value = false then _ else _ : Staging Bool) s = _
  rw [if_neg (by rw [htakes]; exact Bool.noConfusion)]
  rfl

theorem Returns.addId {kind : KeyKind} {id : FixedBytes 32} (hunlocked : s.unlocked = true)
    (hlength : (withId (readIds (s.rows (.only kind))) id).length * 32 ≤ MAX_VALUE_BYTES) :
    Returns (addId kind id) s := by
  change Returns (if id ∈ readIds (s.rows (.only kind)) then pure true
    else Cybou.putRow (.only kind) (idsRow (readIds (s.rows (.only kind)) ++ [id]))) s
  unfold withId at hlength
  by_cases hmem : id ∈ readIds (s.rows (.only kind))
  · rw [if_pos hmem]
    exact ⟨s, rfl, rfl, rfl⟩
  · rw [if_neg hmem] at hlength ⊢
    refine Returns.putRow hunlocked (ApplicationKey.usable_only kind) ?_
    rw [length_idsRow]
    exact hlength

end

end Cybou
