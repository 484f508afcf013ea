import Cybou.ExecutorSpecs
import Cybou.Library.History

/-! # Calls on an executor after a failed one (`block_executor.cpp`)

A failed `ApplyOperation` clears `m_valid` and keeps its error to itself: later calls
answer with `m_init_error`, which only the constructor sets.  So they report an error
exactly when the parent state was refused; the candidate is finalised in no case.
-/

namespace Cybou

open Library Proc

section

variable [Crypto]

/-- A call on an executor, with what it returned; `ApplyOperation` may also throw. -/
inductive ExecutorEvent where
  | applied (operation : ProtocolOperation) (result : BlockExecutionResult)
  | threw (operation : ProtocolOperation)
  | finalized (result : BlockExecutionResult)

def ExecutorEvent.result : ExecutorEvent → Option BlockExecutionResult
  | .applied _ result => some result
  | .threw _ => none
  | .finalized result => some result

/-- A call of `ApplyOperation` that returned an error. -/
def ExecutorEvent.Failed : ExecutorEvent → Prop
  | .applied _ result => result.isOk = false
  | _ => False

namespace BlockExecutor

inductive Step : BlockExecutor → ExecutorEvent → BlockExecutor → Prop where
  | applied {executor executor' : BlockExecutor} {operation : ProtocolOperation} {result : BlockExecutionResult}
      (h : applyOperation operation executor = .ok result executor') :
      Step executor (.applied operation result) executor'
  | threw {executor executor' : BlockExecutor} {operation : ProtocolOperation} {fault : Fault}
      (h : applyOperation operation executor = .error fault executor') :
      Step executor (.threw operation) executor'
  | finalized (executor : BlockExecutor) : Step executor (.finalized executor.finalize) executor
  -- `Finalize() &&` has moved the candidate out when it succeeds, and anything may be left
  | moved (executor : BlockExecutor) (h : executor.finalize.state.isSome = true) (left : CybouState) :
      Step executor (.finalized executor.finalize) { executor with candidate := left }

/-- Any sequence of calls, the newest first, each with the executor it was made on. -/
inductive Calls (start : BlockExecutor) : List (BlockExecutor × ExecutorEvent) → BlockExecutor → Prop where
  | none : Calls start [] start
  | call {history : List (BlockExecutor × ExecutorEvent)} {executor executor' : BlockExecutor}
      {event : ExecutorEvent} (before : Calls start history executor) (h : Step executor event executor') :
      Calls start ((executor, event) :: history) executor'

/-! ### One call -/

variable {executor executor' : BlockExecutor} {event : ExecutorEvent} {parent : CybouState} {ctx : BlockContext}

theorem applyOperation_invalid (h : executor.valid = false) (operation : ProtocolOperation) :
    applyOperation operation executor = .ok { error := executor.initError } executor := by
  cases executor
  cases h
  rfl

theorem applyOperation_valid (h : executor.valid = true) (operation : ProtocolOperation) :
    wp (applyOperation operation)
      (fun result executor' => executor'.initError = executor.initError ∧ executor'.valid = result.isOk)
      (fun _ executor' => executor'.initError = executor.initError ∧ executor'.valid = true) executor := by
  unfold applyOperation
  rw [wp_get_bind, if_neg (by rw [h]; exact Bool.noConfusion)]
  split
  · exact ⟨rfl, rfl⟩
  · rw [wp_bind, wp_onCandidate]
    refine wp_mono (executeOperation_failure executor.context operation executor.candidate) ?_
      fun _ _ _ => ⟨rfl, h⟩
    intro failure candidate hfailure
    cases failure with
    | some failure => exact ⟨rfl, (hfailure failure rfl).symm⟩
    | none =>
      dsimp only
      rw [wp_bind, wp_modify]
      split
      · exact ⟨rfl, h⟩
      · exact ⟨rfl, h⟩

theorem finalize_invalid (h : executor.valid = false) : executor.finalize = { error := executor.initError } :=
  if_pos h

/-- The step: which calls invalidate the context. -/
theorem Step.flags (h : Step executor event executor') :
    executor'.initError = executor.initError ∧
      (executor'.valid = false ↔ executor.valid = false ∨ event.Failed) := by
  cases hvalid : executor.valid with
  | false =>
    cases h with
    | applied h =>
      rw [applyOperation_invalid hvalid] at h
      cases h
      exact ⟨rfl, iff_of_true hvalid (.inl rfl)⟩
    | threw h =>
      rw [applyOperation_invalid hvalid] at h
      cases h
    | finalized => exact ⟨rfl, iff_of_true hvalid (.inl rfl)⟩
    | moved _ left => exact ⟨rfl, iff_of_true hvalid (.inl rfl)⟩
  | true =>
    have hlive : ¬true = false := Bool.noConfusion
    cases h with
    | applied h =>
      obtain ⟨hinit, hflag⟩ := wp_of_ok (applyOperation_valid hvalid _) h
      rw [hflag]
      exact ⟨hinit, (or_iff_right hlive).symm⟩
    | threw h =>
      obtain ⟨hinit, hflag⟩ := wp_of_error (applyOperation_valid hvalid _) h
      rw [hflag]
      exact ⟨hinit, iff_of_false hlive fun hor => hor.elim hlive id⟩
    | finalized =>
      rw [hvalid]
      exact ⟨rfl, iff_of_false hlive fun hor => hor.elim hlive id⟩
    | moved _ left => exact ⟨rfl, iff_of_false (hvalid ▸ hlive) fun hor => hor.elim hlive id⟩

theorem Step.result_invalid (h : Step executor event executor') (hvalid : executor.valid = false) :
    event.result = some { error := executor.initError } := by
  cases h with
  | applied h =>
    rw [applyOperation_invalid hvalid] at h
    cases h
    rfl
  | threw h =>
    rw [applyOperation_invalid hvalid] at h
    cases h
  | finalized => exact congrArg some (finalize_invalid hvalid)
  | moved => exact congrArg some (finalize_invalid hvalid)

/-! ### Any sequence of calls -/

variable {start : BlockExecutor} {history : List (BlockExecutor × ExecutorEvent)}

theorem Calls.flags (h : Calls start history executor) :
    executor.initError = start.initError ∧
      (executor.valid = false ↔ start.valid = false ∨ ∃ entry ∈ history, entry.2.Failed) := by
  induction h with
  | none => exact ⟨rfl, by simp⟩
  | call _ hstep ih =>
    obtain ⟨hinit, hflag⟩ := hstep.flags
    refine ⟨hinit.trans ih.1, ?_⟩
    rw [hflag, ih.2]
    simp only [List.mem_cons, exists_eq_or_imp]
    exact or_assoc.trans (or_congr_right or_comm)

def Reports (entry : BlockExecutor × ExecutorEvent) : Prop := ∀ result ∈ entry.2.result, result.isOk = false

/-- After a failure every call reports an error. -/
def PoisonedByFailure (history : List (BlockExecutor × ExecutorEvent)) : Prop :=
  History.Always (fun entry earlier => (∃ failed ∈ earlier, failed.2.Failed) → Reports entry) history

def NothingFinalized (history : List (BlockExecutor × ExecutorEvent)) : Prop :=
  History.Always (fun entry earlier => (∃ failed ∈ earlier, failed.2.Failed) →
    ∀ result ∈ entry.2.result, result.state = none ∧ result.stateRoot = none) history

theorem new_initError (parent : CybouState) (ctx : BlockContext) :
    ((new parent ctx).initError = .none ↔ validateCybouState parent = .none) ∧
      ((new parent ctx).valid = true ↔ validateCybouState parent = .none) := by
  unfold new
  split
  · next h => exact ⟨iff_of_false nofun h, iff_of_false nofun h⟩
  · next h => exact ⟨iff_of_true rfl (not_not.mp h), iff_of_true rfl (not_not.mp h)⟩

theorem Calls.nothingFinalized (h : Calls start history executor) : NothingFinalized history := by
  induction h with
  | none => exact History.always_nil
  | call hcalls hstep ih =>
    refine ⟨fun hfailed result hresult => ?_, ih⟩
    rw [hstep.result_invalid (hcalls.flags.2.mpr (.inr hfailed))] at hresult
    cases hresult
    exact ⟨rfl, rfl⟩

theorem Calls.poisoned_of_start (h : Calls start history executor)
    (hstart : start.initError = .none ↔ start.valid = true) :
    PoisonedByFailure history ↔ start.valid = false ∨ ∀ entry ∈ history, entry.1.valid = true := by
  induction h with
  | none => exact iff_of_true History.always_nil (.inr fun _ hmem => absurd hmem List.not_mem_nil)
  | call hcalls hstep ih =>
    obtain ⟨herror, hflag⟩ := hcalls.flags
    unfold PoisonedByFailure at ih ⊢
    rw [History.always_cons, ih, List.forall_mem_cons]
    cases hvalid : start.valid with
    | true =>
      have hlive : ¬true = false := Bool.noConfusion
      rw [hvalid, or_iff_right hlive] at hflag
      rw [or_iff_right hlive, or_iff_right hlive]
      refine and_congr_left fun hearlier => ⟨fun hreports => ?_, fun hcalled hfailed => ?_⟩
      · -- the error of a later call is the one of the constructor, which succeeded
        by_contra hdead
        have hdead := eq_false_of_ne_true hdead
        have hok := hreports (hflag.mp hdead) _ (hstep.result_invalid hdead)
        rw [herror, hstart.mpr hvalid] at hok
        cases hok
      · rw [hflag.mpr hfailed] at hcalled
        cases hcalled
    | false =>
      have hrefused : start.initError ≠ .none := fun heq => by
        rw [hstart.mp heq] at hvalid
        cases hvalid
      refine iff_of_true ⟨fun _ result hresult => ?_, .inl rfl⟩ (.inl rfl)
      rw [hstep.result_invalid (hflag.mpr (.inl hvalid))] at hresult
      cases hresult
      rw [BlockExecutionResult.isOk, decide_eq_false_iff_not, herror]
      exact hrefused

/-- **After a failed `ApplyOperation`** nothing is finalised, and later calls report an
    error exactly when the parent state was refused, or no call follows. -/
theorem poisonedByFailure_iff (h : Calls (new parent ctx) history executor) :
    NothingFinalized history ∧
      (PoisonedByFailure history ↔
        validateCybouState parent ≠ .none ∨ ∀ entry ∈ history, entry.1.valid = true) := by
  obtain ⟨hinit, hvalid⟩ := new_initError parent ctx
  refine ⟨h.nothingFinalized, ?_⟩
  rw [h.poisoned_of_start (hinit.trans hvalid.symm), ← Bool.not_eq_true, hvalid]

end BlockExecutor

end

/-! ### A settlement without a PoA key -/

section Sample

attribute [local instance] Crypto.sample

def unkeyedSettlement : StorageSettlement := { period := 0, periodStartUtc := 0, poaSignature := sampleSignature }

def unkeyedFailure : BlockExecutionResult :=
  { error := .invalidStorageSettlement, settlementError := .invalidSignature }

/-- The executor of `sampleContext`, which has no PoA key. -/
def unkeyedExecutor : BlockExecutor := .new sampleState sampleContext

/-- The settlement is refused, and `Finalize` is called all the same. -/
def unkeyedCalls : List (BlockExecutor × ExecutorEvent) :=
  [({ unkeyedExecutor with valid := false }, .finalized {}),
    (unkeyedExecutor, .applied (.storageSettlement unkeyedSettlement) unkeyedFailure)]

theorem calls_unkeyed : unkeyedExecutor.Calls unkeyedCalls { unkeyedExecutor with valid := false } := by
  have hnew : unkeyedExecutor =
      { context := sampleContext, candidate := expireCommits sampleContext sampleState
        initialSupply := totalCybou sampleState, accountCreates := 0, valid := true, initError := .none } := by
    rw [unkeyedExecutor, BlockExecutor.new, if_neg (not_not.mpr validateCybouState_sampleState)]
  have happly : BlockExecutor.applyOperation (.storageSettlement unkeyedSettlement) unkeyedExecutor =
      .ok unkeyedFailure { unkeyedExecutor with valid := false } := by
    rw [hnew]
    rfl
  have hfinalize : ({ unkeyedExecutor with valid := false } : BlockExecutor).finalize = {} := by
    have hinit : unkeyedExecutor.initError = .none :=
      (BlockExecutor.new_initError sampleState sampleContext).1.mpr validateCybouState_sampleState
    have herror : ({ unkeyedExecutor with valid := false } : BlockExecutor).initError = .none := by
      dsimp only
      exact hinit
    rw [BlockExecutor.finalize_invalid rfl, herror]
  refine .call (.call .none (.applied happly)) ?_
  have hstep := BlockExecutor.Step.finalized { unkeyedExecutor with valid := false }
  rwa [hfinalize] at hstep

/-- `Finalize` reports no error. -/
theorem not_poisonedByFailure_unkeyed :
    unkeyedExecutor.Calls unkeyedCalls { unkeyedExecutor with valid := false } ∧
      ¬BlockExecutor.PoisonedByFailure unkeyedCalls := by
  refine ⟨calls_unkeyed, fun h => ?_⟩
  have hreports := h.1 ⟨_, List.mem_singleton_self _, rfl⟩ _ rfl
  cases hreports

theorem poisonedByFailure_iff_unkeyed :
    BlockExecutor.NothingFinalized unkeyedCalls ∧
      (BlockExecutor.PoisonedByFailure unkeyedCalls ↔
        validateCybouState sampleState ≠ .none ∨ ∀ entry ∈ unkeyedCalls, entry.1.valid = true) :=
  BlockExecutor.poisonedByFailure_iff calls_unkeyed

end Sample

end Cybou
