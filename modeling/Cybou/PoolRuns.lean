import Cybou.OperationPool

/-! # The operation pool over whole runs (`operation_pool.cpp`)

The bookkeeping of the pool holds after any calls, whatever the store answers and
whichever calls throw (`pool_bookkeeping`).  What the pool offers is executable
as the next block right after it took an operation or checked all of them again
(`pool_executes`); in between the head may have moved.
-/

namespace Cybou

open Library Proc

section

variable [Crypto]

/-! ## Executors that have come through -/

/-- The operations were applied one after the other without an error. -/
inductive Applies : BlockExecutor → List ProtocolOperation → BlockExecutor → Prop where
  | nil (executor : BlockExecutor) : Applies executor [] executor
  | cons {executor executor₁ executor₂ : BlockExecutor} {operation : ProtocolOperation}
      {rest : List ProtocolOperation} {result : BlockExecutionResult}
      (h : BlockExecutor.applyOperation operation executor = .ok result executor₁) (hok : result.isOk = true)
      (hrest : Applies executor₁ rest executor₂) : Applies executor (operation :: rest) executor₂

variable {executor executor' : BlockExecutor} {operation : ProtocolOperation} {operations : List ProtocolOperation}
  {result : BlockExecutionResult} {s : CybouState} {ctx : BlockContext}

theorem Applies.snoc {executor'' : BlockExecutor} (h : Applies executor operations executor')
    (hstep : BlockExecutor.applyOperation operation executor' = .ok result executor'') (hok : result.isOk = true) :
    Applies executor (operations ++ [operation]) executor'' := by
  induction h with
  | nil => exact .cons hstep hok (.nil _)
  | cons hfirst hfirstOk _ ih => exact .cons hfirst hfirstOk (ih hstep)

theorem Applies.executeFrom (h : Applies executor operations executor') (index : Nat) :
    executeFrom index operations executor = .ok executor'.finalize executor' := by
  induction h generalizing index with
  | nil => rfl
  | cons hfirst hok _ ih =>
    rw [Cybou.executeFrom, bind, EStateM.instMonad]
    simp only [EStateM.bind, hfirst, hok, Bool.true_eq_false, if_false]
    exact ih _

theorem accountCreates_applied (hvalid : executor.valid = true)
    (h : BlockExecutor.applyOperation operation executor = .ok result executor') (hok : result.isOk = true) :
    executor'.accountCreates = executor.accountCreates + (if BlockExecutor.isAccountCreate operation then 1 else 0) ∧
      (BlockExecutor.isAccountCreate operation = true →
        executor.accountCreates < executor.context.params.maxAccountCreatesPerBlock.toNat) := by
  have hspec : wp (BlockExecutor.applyOperation operation)
      (fun result executor' => result.isOk = true →
        executor'.accountCreates =
          executor.accountCreates + (if BlockExecutor.isAccountCreate operation then 1 else 0) ∧
        (BlockExecutor.isAccountCreate operation = true →
          executor.accountCreates < executor.context.params.maxAccountCreatesPerBlock.toNat))
      (fun _ _ => True) executor := by
    unfold BlockExecutor.applyOperation
    rw [wp_get_bind, if_neg (by simp [hvalid])]
    split
    · intro htooMany
      cases htooMany
    next hroom =>
    rw [wp_bind, wp_onCandidate]
    refine wp_mono (executeOperation_failure executor.context operation executor.candidate) ?_ fun _ _ _ => trivial
    intro failure candidate hfailure
    cases failure with
    | some failure =>
      intro haccepted
      exact absurd (haccepted.symm.trans (hfailure failure rfl)) (by decide)
    | none =>
      intro _
      cases hcreate : BlockExecutor.isAccountCreate operation with
      | false => exact ⟨by simp, by simp⟩
      | true => exact ⟨by simp, fun _ => by simpa [hcreate] using hroom⟩
  exact wp_of_ok hspec h hok

theorem Applies.creates (h : Applies executor operations executor') (hvalid : executor.valid = true)
    (hroom : executor.accountCreates ≤ executor.context.params.maxAccountCreatesPerBlock.toNat) :
    executor.accountCreates + operations.countP BlockExecutor.isAccountCreate ≤
      executor.context.params.maxAccountCreatesPerBlock.toNat := by
  induction h with
  | nil => simpa using hroom
  | @cons executor executor₁ _ operation rest _ hfirst hok _ ih =>
    obtain ⟨hcount, hless⟩ := accountCreates_applied hvalid hfirst hok
    obtain ⟨-, hvalid₁, hcontext⟩ := applyOperation_accepted hvalid hfirst hok
    rw [hcontext] at ih
    rw [List.countP_cons]
    cases hcreate : BlockExecutor.isAccountCreate operation with
    | false =>
      simp only [hcreate, Bool.false_eq_true, if_false, Nat.add_zero] at hcount ⊢
      have hrest := ih hvalid₁ (by omega)
      omega
    | true =>
      simp only [hcreate, if_true] at hcount ⊢
      have hless := hless hcreate
      have hrest := ih hvalid₁ (by omega)
      omega

theorem BlockExecutor.finalize_isOk (h : executor.canFinalize = true) : executor.finalize.isOk = true := by
  unfold BlockExecutor.canFinalize at h
  split at h
  · cases h
  next hvalid =>
  split at h
  · cases h
  next hstate =>
  have hinvariant := validateCybouState_eq_none.mp (not_not.mp hstate)
  rw [BlockExecutor.finalize, if_neg hvalid, if_neg hstate, if_neg (not_not.mpr (of_decide_eq_true h)),
    cybouStateHash_of_invariant hinvariant]
  rfl

theorem StateInvariant.expireCommits (h : StateInvariant s) (ctx : BlockContext) :
    StateInvariant (expireCommits ctx s) := by
  unfold Cybou.expireCommits
  split
  · refine h.withNames h.nameCount h.name ?_ ?_ ?_
    · intro c record hrecord
      have hmem := List.mem_filter.mp (OrdMap.mem_entries_iff.mpr hrecord)
      exact h.commit c record (OrdMap.mem_entries_iff.mp hmem.1)
    · exact h.commitAccounts.sublist (List.filter_sublist.map _)
    · exact List.filter_sublist.length_le.trans h.commitLimit
  · exact h

theorem BlockExecutor.new_ready (h : StateInvariant s) (ctx : BlockContext) :
    (new s ctx).valid = true ∧ (new s ctx).canFinalize = true ∧ (new s ctx).context = ctx ∧
      (new s ctx).accountCreates = 0 := by
  have hnew : new s ctx = { context := ctx, candidate := expireCommits ctx s, initialSupply := totalCybou s
                            accountCreates := 0, valid := true, initError := .none } := by
    rw [new, if_neg (not_not.mpr (validateCybouState_eq_none.mpr h))]
  have htotal : totalCybou (expireCommits ctx s) = totalCybou s := by
    rw [← UInt64.toNat_inj, toNat_totalCybou, toNat_totalCybou, exactTotal_expireCommits]
  rw [hnew, canFinalize]
  simp [validateCybouState_eq_none.mpr (h.expireCommits ctx), htotal]

theorem BlockExecutor.invariant_of_valid (h : (new s ctx).valid = true) : StateInvariant s := by
  unfold new at h
  split at h
  · cases h
  next hstate => exact validateCybouState_eq_none.mp (not_not.mp hstate)

/-- **What an executor has applied and can finalize is an executable block.** -/
theorem Applies.executes (hs : StateInvariant s) (h : Applies (BlockExecutor.new s ctx) operations executor)
    (hfinal : executor.canFinalize = true) :
    ∃ execution, executeBlockOperations s operations ctx = some execution ∧ execution.isOk = true := by
  obtain ⟨hvalid, -, hcontext, hzero⟩ := BlockExecutor.new_ready hs ctx
  have hcreates := h.creates hvalid (by rw [hzero]; exact Nat.zero_le _)
  rw [hcontext, hzero, Nat.zero_add] at hcreates
  refine ⟨executor.finalize, ?_, BlockExecutor.finalize_isOk hfinal⟩
  rw [executeBlockOperations, if_neg (Nat.not_lt.mpr hcreates)]
  simp only [hvalid, Bool.true_eq_false, if_false, h.executeFrom 0]

namespace OperationPool

variable {g : VerifiedNetworkGenesis} {limits : OperationPoolLimits} {pool pool' : OperationPool} {view : PoolView}
  {entry : PoolEntry} {head : FinalizedHead}

/-! ## The working context -/

theorem replayEntries_spec (entries : List PoolEntry) (working : WorkingContext) (pool : OperationPool) :
    wp (replayEntries entries working)
      (fun _ pool' => pool' = { pool with working := none } ∨
        ∃ executor, Applies working.executor (entries.map (·.operation)) executor ∧
          pool' = { pool with working := some { working with executor } })
      (fun _ pool' => ∃ left, pool' = { pool with working := left }) pool := by
  induction entries generalizing working with
  | nil => exact .inr ⟨working.executor, .nil _, rfl⟩
  | cons entry rest ih =>
    unfold wp replayEntries
    cases happly : BlockExecutor.applyOperation entry.operation working.executor with
    | error e executor => exact ⟨_, rfl⟩
    | ok result executor =>
      dsimp only
      by_cases hfailed : result.isOk = false
      · rw [if_pos hfailed]
        exact .inl rfl
      · rw [if_neg hfailed]
        refine wp_mono (ih { working with executor }) ?_ fun _ _ h => h
        rintro - pool' (hnone | ⟨last, hlast, hpool'⟩)
        · exact .inl hnone
        · exact .inr ⟨last, .cons happly (eq_true_of_ne_false hfailed) hlast, hpool'⟩

/-- What `EnsureWorkingContext` leaves: the context it found, none, or a new one. -/
inductive Ensured (g : VerifiedNetworkGenesis) (view : PoolView) (head : FinalizedHead) (pool : OperationPool) :
    OperationPool → Prop where
  | found (h : pool.working.map (·.head.blockId) = some head.blockId) : Ensured g view head pool pool
  | none : Ensured g view head pool { pool with working := none }
  | made {loaded : CybouState} {executor : BlockExecutor} (hstate : view.state = some loaded)
      (hvalid : (BlockExecutor.new loaded (nextContext g head)).valid = true)
      (happlied : Applies (BlockExecutor.new loaded (nextContext g head)) pool.snapshot executor) :
      Ensured g view head pool { pool with working := some { head, finalizedState := loaded, executor } }

theorem ensureWorkingContext_spec (g : VerifiedNetworkGenesis) (view : PoolView) (head : FinalizedHead)
    (pool : OperationPool) :
    wp (ensureWorkingContext g view head) (fun _ pool' => Ensured g view head pool pool')
      (fun _ pool' => ∃ left, pool' = { pool with working := left }) pool := by
  unfold wp ensureWorkingContext
  by_cases hfound : pool.working.map (·.head.blockId) = some head.blockId
  · rw [if_pos hfound]
    exact .found hfound
  · rw [if_neg hfound]
    cases hstate : view.state with
    | none => exact .none
    | some loaded =>
      dsimp only
      by_cases hinvalid : (BlockExecutor.new loaded (nextContext g head)).valid = false
      · rw [if_pos hinvalid]
        exact .none
      · rw [if_neg hinvalid]
        refine wp_mono (replayEntries_spec pool.entries _ pool) ?_ fun _ _ h => h
        rintro - pool' (rfl | ⟨executor, happlied, rfl⟩)
        · exact .none
        · exact .made hstate (eq_true_of_ne_false hinvalid) happlied

theorem Ensured.frame (h : Ensured g view head pool pool') : ∃ left, pool' = { pool with working := left } := by
  cases h with
  | found => exact ⟨pool.working, rfl⟩
  | none => exact ⟨_, rfl⟩
  | made => exact ⟨_, rfl⟩

/-! ## What the methods do -/

variable {workNonce : UInt64} {sourcePeer : Option Bytes}

theorem candidate_eq (h : candidate operation workNonce sourcePeer = some entry) :
    candidate entry.operation entry.workNonce entry.sourcePeer = some entry := by
  have hfields : entry.operation = operation ∧ entry.workNonce = workNonce ∧ entry.sourcePeer = sourcePeer := by
    obtain ⟨encoded, -, h⟩ := Option.bind_eq_some_iff.mp h
    split at h
    · cases h
    obtain ⟨id, -, h⟩ := Option.bind_eq_some_iff.mp h
    split at h
    · cases h
    · cases h
      exact ⟨rfl, rfl, rfl⟩
  rw [hfields.1, hfields.2.1, hfields.2.2]
  exact h

/-- A candidate is taken, on a context that was ensured before. -/
def Admitted (g : VerifiedNetworkGenesis) (view : PoolView) (pool pool' : OperationPool) : Prop :=
  ∃ head entry ensured, view.head = some head ∧
    candidate entry.operation entry.workNonce entry.sourcePeer = some entry ∧ entry.id ∉ pool.ids ∧
    Ensured g view head pool ensured ∧ Holds g entry ensured pool'

theorem admitOperation_spec (g : VerifiedNetworkGenesis) (view : PoolView) (operation : ProtocolOperation)
    (workNonce : UInt64) (sourcePeer : Option Bytes) (pool : OperationPool) :
    wp (admitOperation g view operation workNonce sourcePeer)
      (fun admission pool' => admission = .accepted ∧ Admitted g view pool pool' ∨
        admission ≠ .accepted ∧ (pool' = pool ∨ ∃ head, view.head = some head ∧ Ensured g view head pool pool'))
      (fun _ pool' => ∃ left, pool' = { pool with working := left }) pool := by
  unfold admitOperation
  cases hmade : candidate operation workNonce sourcePeer with
  | none => exact .inr ⟨nofun, .inl rfl⟩
  | some entry =>
    dsimp only
    rw [wp_get_bind]
    refine wp_refuse (fun _ => .inr ⟨nofun, .inl rfl⟩) fun hfresh => ?_
    refine wp_refuse (fun _ => .inr ⟨nofun, .inl rfl⟩) fun _ => ?_
    cases hhead : view.head with
    | none => exact .inr ⟨nofun, .inl rfl⟩
    | some head =>
      refine wp_refuse (fun _ => .inr ⟨nofun, .inl rfl⟩) fun _ => ?_
      rw [wp_bind]
      refine wp_mono (ensureWorkingContext_spec g view head pool) ?_ fun _ _ h => h
      intro _ ensured hensured
      refine wp_mono (admitEntry_spec g entry ensured) ?_ ?_
      · rintro admission pool' (⟨rfl, hholds⟩ | ⟨rfl, rfl⟩)
        · exact .inl ⟨rfl, head, entry, ensured, hhead, candidate_eq hmade, hfresh, hensured, hholds⟩
        · exact .inr ⟨nofun, .inr ⟨head, rfl, hensured⟩⟩
      · rintro - pool' rfl
        exact hensured.frame

theorem Holds.entries (h : Holds g entry pool pool') : pool'.entries = pool.entries ++ [entry] := by
  obtain ⟨working, result, executor, -, -, -, -, -, rfl⟩ := h
  rfl

/-- The loop keeps what each entry it takes back keeps. -/
theorem revalidateFrom_spec {Kept : OperationPool → Prop} (entries : List PoolEntry)
    (hstep : ∀ entry ∈ entries, ∀ pool pool', Kept pool → entry.id ∉ pool.ids → Holds g entry pool pool' → Kept pool')
    (h : Kept pool) :
    wp (revalidateFrom g view entries)
      (fun dropped pool' => Kept pool' ∧ ∃ held, held.Sublist entries ∧ pool'.entries = pool.entries ++ held ∧
        (held.map (·.id) ++ dropped).Perm (entries.map (·.id)))
      (fun _ pool' => Kept pool') pool := by
  induction entries generalizing pool with
  | nil => exact ⟨h, [], List.Sublist.slnil, (List.append_nil _).symm, List.Perm.refl _⟩
  | cons entry rest ih =>
    unfold revalidateFrom
    rw [wp_bind]
    refine wp_mono (keepEntry_spec g view entry pool) ?_ ?_
    · intro kept next hnext
      rw [wp_bind]
      have hrest := fun later hlater => hstep later (List.mem_cons_of_mem _ hlater)
      cases kept with
      | false =>
        cases hnext
        refine wp_mono (ih hrest h) ?_ fun _ _ h => h
        rintro dropped pool' ⟨hkept, held, hsub, hentries, hperm⟩
        refine ⟨hkept, held, hsub.cons _, hentries, ?_⟩
        exact List.perm_middle.trans (hperm.cons _)
      | true =>
        obtain ⟨hfresh, hholds⟩ := hnext
        refine wp_mono (ih hrest (hstep entry List.mem_cons_self pool next h hfresh hholds)) ?_ fun _ _ h => h
        rintro dropped pool' ⟨hkept, held, hsub, hentries, hperm⟩
        refine ⟨hkept, entry :: held, hsub.cons_cons _, ?_, hperm.cons _⟩
        rw [hentries, hholds.entries, List.append_assoc, List.singleton_append]
    · rintro - pool' rfl
      exact h

/-- `Revalidate` in the same way. -/
theorem revalidate_spec {Kept Thrown : OperationPool → Prop} (pool : OperationPool)
    (hstep : ∀ entry ∈ pool.entries, ∀ pool pool',
      Kept pool → entry.id ∉ pool.ids → Holds g entry pool pool' → Kept pool')
    (hclear : Kept pool.clear)
    (hensured : ∀ head pool', view.head = some head → Ensured g view head pool.clear pool' → Kept pool')
    (hthrown : ∀ left, Thrown { pool.clear with working := left }) (hkept : ∀ pool, Kept pool → Thrown pool) :
    wp (revalidate g view)
      (fun dropped pool' => Kept pool' ∧ pool'.entries.Sublist pool.entries ∧
        (pool'.listIds ++ dropped).Perm pool.listIds)
      (fun _ pool' => Thrown pool') pool := by
  have hlost : ∀ cleared, Kept cleared → cleared.entries = [] → Kept cleared ∧
      cleared.entries.Sublist pool.entries ∧ (cleared.listIds ++ pool.listIds).Perm pool.listIds := by
    intro cleared hkept hnil
    rw [listIds, hnil]
    exact ⟨hkept, List.nil_sublist _, List.Perm.refl _⟩
  unfold revalidate
  rw [wp_get_bind, wp_set_bind]
  refine wp_refuse (fun hempty => ?_) fun _ => ?_
  · have hnil := List.isEmpty_iff.mp hempty
    have hids : pool.listIds = [] := by rw [listIds, hnil, List.map_nil]
    obtain ⟨hkept, hsub, hperm⟩ := hlost pool.clear hclear rfl
    exact ⟨hkept, hsub, by rwa [hids] at hperm ⊢⟩
  cases hhead : view.head with
  | none => exact hlost _ hclear rfl
  | some head =>
    refine wp_refuse (fun _ => hlost _ hclear rfl) fun _ => ?_
    rw [wp_bind]
    refine wp_mono (ensureWorkingContext_spec g view head pool.clear) ?_ ?_
    · intro _ ensured hmade
      have hready := hensured head ensured hhead hmade
      have hnil : ensured.entries = [] := by
        obtain ⟨left, rfl⟩ := hmade.frame
        rfl
      unfold revalidateEntries
      rw [wp_get_bind]
      cases ensured.working with
      | none => exact hlost _ hready hnil
      | some working =>
        refine wp_refuse (fun _ => hlost _ hready hnil) fun _ => ?_
        refine wp_mono (revalidateFrom_spec pool.entries hstep hready) ?_ fun _ pool' h => hkept pool' h
        rintro dropped pool' ⟨hkept', held, hsub, hentries, hperm⟩
        rw [hnil, List.nil_append] at hentries
        rw [listIds, hentries]
        exact ⟨hkept', hsub, hperm⟩
    · rintro - pool' ⟨left, rfl⟩
      exact hthrown left

/-! ## Runs -/

inductive PoolCall where
  | admitOperation (operation : ProtocolOperation) (workNonce : UInt64) (sourcePeer : Option Bytes)
  | revalidate
  | clear

inductive PoolAnswer where
  | admission (admission : PoolAdmission)
  | dropped (ids : List Hash256)
  | cleared

def run (g : VerifiedNetworkGenesis) (view : PoolView) : PoolCall → Call PoolAnswer
  | .admitOperation operation workNonce sourcePeer => do
    let admission ← admitOperation g view operation workNonce sourcePeer
    return .admission admission
  | .revalidate => do
    let dropped ← revalidate g view
    return .dropped dropped
  | .clear => do
    modify clear
    return .cleared

/-- A pool after any calls, with what they read of the store, and whether one of them threw. -/
inductive PoolRun (g : VerifiedNetworkGenesis) (limits : OperationPoolLimits) :
    List PoolView → Bool → OperationPool → Prop where
  | start : PoolRun g limits [] false { limits }
  | returned {views : List PoolView} {threw : Bool} {pool pool' : OperationPool} {view : PoolView} {call : PoolCall}
      {answer : PoolAnswer} (before : PoolRun g limits views threw pool)
      (h : run g view call pool = .ok answer pool') : PoolRun g limits (view :: views) threw pool'
  | thrown {views : List PoolView} {threw : Bool} {pool pool' : OperationPool} {view : PoolView} {call : PoolCall}
      {e : Fault} (before : PoolRun g limits views threw pool)
      (h : run g view call pool = .error e pool') : PoolRun g limits (view :: views) true pool'

/-! ### The bookkeeping -/

theorem PoolOk.start : PoolOk g limits { limits } where
  sameLimits := rfl
  bytes := rfl
  ids id := by simp [listIds]
  nodup := List.nodup_nil
  usage _ := rfl
  count := Nat.zero_le _
  byteLimit := Nat.zero_le _
  peerLimit := fun _ => nofun
  held _ hentry := absurd hentry List.not_mem_nil

theorem PoolOk.holds (h : PoolOk g limits pool)
    (hmade : candidate entry.operation entry.workNonce entry.sourcePeer = some entry) (hfresh : entry.id ∉ pool.ids)
    (hholds : Holds g entry pool pool') : PoolOk g limits pool' := by
  obtain ⟨working, result, executor, -, hrefuses, -, -, -, rfl⟩ := hholds
  exact h.hold hmade hfresh hrefuses executor

theorem PoolOk.revalidate (h : PoolOk g limits pool) :
    wp (OperationPool.revalidate g view)
      (fun dropped pool' => PoolOk g limits pool' ∧ pool'.entries.Sublist pool.entries ∧
        (pool'.listIds ++ dropped).Perm pool.listIds)
      (fun _ pool' => PoolOk g limits pool') pool := by
  refine revalidate_spec pool ?_ h.clear ?_ (fun left => h.clear.withWorking left) fun _ hkept => hkept
  · intro entry hentry pool₁ pool₂ hkept hfresh hholds
    exact hkept.holds (h.held entry hentry).made hfresh hholds
  · intro head pool' _ hensured
    obtain ⟨left, rfl⟩ := hensured.frame
    exact h.clear.withWorking left

/-- **One call keeps the bookkeeping**, returned or thrown. -/
theorem PoolOk.run (h : PoolOk g limits pool) (view : PoolView) (call : PoolCall) :
    wp (OperationPool.run g view call) (fun _ pool' => PoolOk g limits pool') (fun _ pool' => PoolOk g limits pool')
      pool := by
  cases call with
  | admitOperation operation workNonce sourcePeer =>
    simp only [OperationPool.run, wp_bind]
    refine wp_mono (admitOperation_spec g view operation workNonce sourcePeer pool) ?_ ?_
    · rintro admission pool' (⟨-, head, entry, ensured, -, hmade, hfresh, hensured, hholds⟩ | ⟨-, rfl | ⟨head, -, hensured⟩⟩)
      · obtain ⟨left, rfl⟩ := hensured.frame
        exact (h.withWorking left).holds hmade hfresh hholds
      · exact h
      · obtain ⟨left, rfl⟩ := hensured.frame
        exact h.withWorking left
    · rintro - pool' ⟨left, rfl⟩
      exact h.withWorking left
  | revalidate =>
    simp only [OperationPool.run, wp_bind]
    exact wp_mono h.revalidate (fun _ _ hdone => hdone.1) fun _ _ hkept => hkept
  | clear =>
    simp only [OperationPool.run, wp_bind, wp_modify, wp_pure]
    exact h.clear

variable {views : List PoolView} {threw : Bool}

/-- **The bookkeeping of the pool**: after any calls the counters, the ids and the usage of
    every source are those of the entries, all limits hold and no operation is held twice;
    and what `Revalidate` returns are the ids of the entries that left. -/
theorem pool_bookkeeping (h : PoolRun g limits views threw pool) :
    PoolOk g limits pool ∧ ∀ view dropped pool', revalidate g view pool = .ok dropped pool' →
      pool'.entries.Sublist pool.entries ∧ (pool'.listIds ++ dropped).Perm pool.listIds := by
  have hok : PoolOk g limits pool := by
    induction h with
    | start => exact .start
    | @returned _ _ _ _ view call _ _ hcall ih =>
      have hkept := wp_of_ok (ih.run view call) hcall
      exact hkept
    | @thrown _ _ _ _ view call _ _ hcall ih =>
      have hkept := wp_of_error (ih.run view call) hcall
      exact hkept
  exact ⟨hok, fun view dropped pool' hcall => (wp_of_ok hok.revalidate hcall).2⟩

/-! ### What is offered -/

structure Replayed (g : VerifiedNetworkGenesis) (stateAt : Hash256 → UInt64 × CybouState) (entries : List PoolEntry)
    (working : WorkingContext) : Prop where
  height : working.head.height = (stateAt working.head.blockId).1
  state : working.finalizedState = (stateAt working.head.blockId).2
  applied : Applies (BlockExecutor.new working.finalizedState (nextContext g working.head))
    (entries.map (·.operation)) working.executor

def Replays (g : VerifiedNetworkGenesis) (stateAt : Hash256 → UInt64 × CybouState) (pool : OperationPool) : Prop :=
  ∀ working, pool.working = some working → Replayed g stateAt pool.entries working

/-- The store answers with the height and the state that belong to the block id of the head. -/
def PoolView.Follows (stateAt : Hash256 → UInt64 × CybouState) (view : PoolView) : Prop :=
  ∀ head, view.head = some head → head.height = (stateAt head.blockId).1 ∧
    ∀ loaded, view.state = some loaded → loaded = (stateAt head.blockId).2

variable {stateAt : Hash256 → UInt64 × CybouState}

theorem Replays.of_none (h : pool.working = none) : Replays g stateAt pool := by
  intro working hworking
  rw [h] at hworking
  exact absurd hworking.symm (Option.some_ne_none working)

theorem Replays.ensured (h : Replays g stateAt pool) (hview : PoolView.Follows stateAt view)
    (hhead : view.head = some head) (hensured : Ensured g view head pool pool') :
    Replays g stateAt pool' ∧ ∀ working, pool'.working = some working → working.head.blockId = head.blockId := by
  obtain ⟨hheight, hstate⟩ := hview head hhead
  cases hensured with
  | found hfound =>
    refine ⟨h, fun working hworking => ?_⟩
    rw [hworking] at hfound
    exact Option.some.inj hfound
  | none => exact ⟨.of_none rfl, fun working hworking => absurd hworking.symm (Option.some_ne_none working)⟩
  | made hloaded hvalid happlied =>
    constructor
    · intro working hworking
      obtain rfl := Option.some.inj hworking
      exact ⟨hheight, hstate _ hloaded, happlied⟩
    · intro working hworking
      obtain rfl := Option.some.inj hworking
      rfl

theorem Replays.holds (h : Replays g stateAt pool) (hholds : Holds g entry pool pool') :
    ∃ before after, pool.working = some before ∧ pool'.working = some after ∧ after.head = before.head ∧
      Replayed g stateAt pool'.entries after ∧ after.executor.canFinalize = true := by
  obtain ⟨working, result, executor, hworking, -, happly, hok, hfinal, rfl⟩ := hholds
  obtain ⟨hheight, hstate, happlied⟩ := h working hworking
  refine ⟨working, { working with executor }, hworking, rfl, rfl, ⟨hheight, hstate, ?_⟩, hfinal⟩
  simp only [OperationPool.hold, List.map_append, List.map_cons, List.map_nil]
  exact happlied.snoc happly hok

/-- Every entry is executed on the state of the head, and the result could be finalized. -/
structure Ready (g : VerifiedNetworkGenesis) (stateAt : Hash256 → UInt64 × CybouState) (blockId : Hash256)
    (pool : OperationPool) : Prop where
  contexts : ∀ working, pool.working = some working → working.head.blockId = blockId ∧
    Replayed g stateAt pool.entries working ∧ working.executor.canFinalize = true
  contextless : pool.working = none → pool.entries = []

variable {blockId : Hash256}

theorem Ready.replays (h : Ready g stateAt blockId pool) : Replays g stateAt pool :=
  fun working hworking => (h.contexts working hworking).2.1

theorem Ready.of_none (hworking : pool.working = none) (hentries : pool.entries = []) :
    Ready g stateAt blockId pool where
  contexts working h := absurd (hworking.symm.trans h).symm (Option.some_ne_none working)
  contextless _ := hentries

theorem Ready.of_some {working : WorkingContext} (hworking : pool.working = some working)
    (hid : working.head.blockId = blockId) (hreplayed : Replayed g stateAt pool.entries working)
    (hfinal : working.executor.canFinalize = true) : Ready g stateAt blockId pool where
  contexts other h := by
    obtain rfl := Option.some.inj (hworking.symm.trans h)
    exact ⟨hid, hreplayed, hfinal⟩
  contextless h := absurd (hworking.symm.trans h) (Option.some_ne_none working)

theorem Ready.holds (h : Ready g stateAt blockId pool) (hholds : Holds g entry pool pool') :
    Ready g stateAt blockId pool' := by
  obtain ⟨before, after, hbefore, hafter, hhead, hreplayed, hfinal⟩ := h.replays.holds hholds
  exact .of_some hafter (hhead ▸ (h.contexts before hbefore).1) hreplayed hfinal

/-- **What a ready pool offers is an executable block.** -/
theorem Ready.executes (h : Ready g stateAt head.blockId pool) (hheight : head.height = (stateAt head.blockId).1)
    (hvalid : StateInvariant (stateAt head.blockId).2) :
    ∃ execution, executeBlockOperations (stateAt head.blockId).2 pool.snapshot (nextContext g head) = some execution ∧
      execution.isOk = true := by
  cases hworking : pool.working with
  | none =>
    rw [snapshot, h.contextless hworking]
    exact Applies.executes hvalid (.nil _) (BlockExecutor.new_ready hvalid _).2.1
  | some working =>
    obtain ⟨hid, ⟨hheight', hstate, happlied⟩, hfinal⟩ := h.contexts working hworking
    have hhead : working.head = head := by
      rw [hid] at hheight'
      obtain ⟨blockId, height⟩ := head
      cases hworkingHead : working.head
      rw [hworkingHead] at hid hheight'
      cases hid
      rw [FinalizedHead.mk.injEq]
      exact ⟨rfl, hheight'.trans hheight.symm⟩
    rw [hstate, hhead] at happlied
    exact happlied.executes hvalid hfinal

variable {dropped : List Hash256}

theorem ready_revalidate (hview : PoolView.Follows stateAt view) (hhead : view.head = some head)
    (h : revalidate g view pool = .ok dropped pool') :
    Ready g stateAt head.blockId pool' := by
  have hclear : Ready g stateAt head.blockId pool.clear := .of_none rfl rfl
  refine (wp_of_ok (revalidate_spec pool (fun _ _ _ _ hready _ hholds => hready.holds hholds) hclear ?_
    (fun _ => trivial) fun _ _ => trivial) h).1
  intro head' ensured hhead' hensured
  rw [hhead] at hhead'
  cases hhead'
  cases hensured with
  | found hfound => exact absurd hfound.symm (Option.some_ne_none _)
  | none => exact .of_none rfl rfl
  | @made loaded executor hloaded hvalid happlied =>
    obtain ⟨hheight, hstate⟩ := hview head hhead
    refine .of_some rfl rfl ⟨hheight, hstate _ hloaded, happlied⟩ ?_
    cases happlied
    exact (BlockExecutor.new_ready (BlockExecutor.invariant_of_valid hvalid) _).2.1

theorem Replays.revalidate (hview : PoolView.Follows stateAt view)
    (h : revalidate g view pool = .ok dropped pool') : Replays g stateAt pool' := by
  have hclear : Replays g stateAt pool.clear := .of_none rfl
  refine (wp_of_ok (revalidate_spec pool ?_ hclear (fun head _ hhead hensured =>
    (hclear.ensured hview hhead hensured).1) (fun _ => trivial) fun _ _ => trivial) h).1
  intro _ _ _ _ hreplays _ hholds working hworking
  obtain ⟨-, after, -, hafter, -, hreplayed, -⟩ := hreplays.holds hholds
  obtain rfl := Option.some.inj (hafter.symm.trans hworking)
  exact hreplayed

theorem Replays.admitted (h : Replays g stateAt pool) (hview : PoolView.Follows stateAt view)
    (hadmitted : Admitted g view pool pool') :
    Replays g stateAt pool' ∧ ∀ head, view.head = some head → Ready g stateAt head.blockId pool' := by
  obtain ⟨head, entry, ensured, hhead, -, -, hensured, hholds⟩ := hadmitted
  obtain ⟨hreplays, hids⟩ := h.ensured hview hhead hensured
  obtain ⟨before, after, hbefore, hafter, hsame, hreplayed, hfinal⟩ := hreplays.holds hholds
  constructor
  · intro working hworking
    obtain rfl := Option.some.inj (hafter.symm.trans hworking)
    exact hreplayed
  · intro head' hhead'
    obtain rfl := Option.some.inj (hhead.symm.trans hhead')
    exact .of_some hafter (hsame ▸ hids before hbefore) hreplayed hfinal

theorem Replays.admitOperation (h : Replays g stateAt pool) (hview : PoolView.Follows stateAt view)
    {admission : PoolAdmission}
    (hcall : OperationPool.admitOperation g view operation workNonce sourcePeer pool = .ok admission pool') :
    Replays g stateAt pool' := by
  rcases wp_of_ok (admitOperation_spec g view operation workNonce sourcePeer pool) hcall with
    ⟨-, hadmitted⟩ | ⟨-, rfl | ⟨head, hhead, hensured⟩⟩
  · exact (h.admitted hview hadmitted).1
  · exact h
  · exact (h.ensured hview hhead hensured).1

variable {answer : PoolAnswer}

theorem run_admitOperation (h : run g view (.admitOperation operation workNonce sourcePeer) pool = .ok answer pool') :
    ∃ admission, answer = .admission admission ∧
      admitOperation g view operation workNonce sourcePeer pool = .ok admission pool' := by
  simp only [run, bind, EStateM.bind] at h
  split at h
  · next admission left hcall =>
    cases h
    exact ⟨admission, rfl, hcall⟩
  · cases h

theorem run_revalidate (h : run g view .revalidate pool = .ok answer pool') :
    ∃ dropped, answer = .dropped dropped ∧ revalidate g view pool = .ok dropped pool' := by
  simp only [run, bind, EStateM.bind] at h
  split at h
  · next dropped left hcall =>
    cases h
    exact ⟨dropped, rfl, hcall⟩
  · cases h

/-- **The context is the one of the entries**, over every run in which no call threw. -/
theorem PoolRun.replays (h : PoolRun g limits views threw pool)
    (hreturned : threw = false) (hviews : ∀ view ∈ views, PoolView.Follows stateAt view) : Replays g stateAt pool := by
  induction h with
  | start => exact .of_none rfl
  | thrown => cases hreturned
  | @returned _ _ _ _ view call _ _ hcall ih =>
    obtain ⟨hview, hviews⟩ := List.forall_mem_cons.mp hviews
    cases call with
    | admitOperation operation workNonce sourcePeer =>
      obtain ⟨admission, -, hanswer⟩ := run_admitOperation hcall
      exact (ih hreturned hviews).admitOperation hview hanswer
    | revalidate =>
      obtain ⟨dropped, -, hrevalidate⟩ := run_revalidate hcall
      exact Replays.revalidate hview hrevalidate
    | clear =>
      cases hcall
      exact .of_none rfl

/-- **What the pool offers is an executable block**: after a taken operation, and after
    `Revalidate`, the operations in their order execute on the state of the head at the
    next height. -/
theorem pool_executes (hrun : PoolRun g limits views false pool) {call : PoolCall}
    (hcall : run g view call pool = .ok answer pool')
    (hchecked : answer = .admission .accepted ∨ call = .revalidate)
    (hviews : ∀ v ∈ view :: views, PoolView.Follows stateAt v) (hhead : view.head = some head)
    (hvalid : validateCybouState (stateAt head.blockId).2 = .none) :
    ∃ execution, executeBlockOperations (stateAt head.blockId).2 pool'.snapshot (nextContext g head) = some execution ∧
      execution.isOk = true := by
  obtain ⟨hview, hviews⟩ := List.forall_mem_cons.mp hviews
  have hready : Ready g stateAt head.blockId pool' := by
    cases call with
    | admitOperation operation workNonce sourcePeer =>
      obtain ⟨admission, rfl, hanswer⟩ := run_admitOperation hcall
      have hadmission := PoolAnswer.admission.inj (hchecked.resolve_right nofun)
      rcases wp_of_ok (admitOperation_spec g view operation workNonce sourcePeer pool) hanswer with
        ⟨-, hadmitted⟩ | ⟨hrefused, -⟩
      · exact ((hrun.replays rfl hviews).admitted hview hadmitted).2 head hhead
      · exact absurd hadmission hrefused
    | revalidate =>
      obtain ⟨dropped, -, hrevalidate⟩ := run_revalidate hcall
      exact ready_revalidate hview hhead hrevalidate
    | clear =>
      cases hcall
      rcases hchecked with hanswer | hanswer <;> cases hanswer
  exact hready.executes (hview head hhead).1 (validateCybouState_eq_none.mp hvalid)

end OperationPool

end

section Sample

attribute [local instance] Crypto.sample

namespace OperationPool

def samplePoolNetwork : VerifiedNetworkGenesis where
  networkBinding := sampleId 200
  genesisAnchor := sampleId 201
  genesisStateRoot := sampleId 202
  poaKey := sampleKey .poaFinalizer 9
  params := devProtocolParameters

def samplePoolLimits : OperationPoolLimits := { operationWorkBits := some 0 }

def samplePoolView : PoolView where
  head := some { blockId := sampleId 201, height := 9 }
  state := some sampleState
  hasIndexedFinalizedOperation _ := false

def answerOf {α : Type} : EStateM.Result Fault OperationPool α → Option α
  | .ok answer _ => some answer
  | .error _ _ => none

theorem samplePool_evaluated :
    answerOf (admitOperation samplePoolNetwork samplePoolView (.systemLock sampleLock) 0 none
      { limits := samplePoolLimits }) = some .accepted := by
  decide +kernel

theorem exists_samplePool :
    ∃ pool, run samplePoolNetwork samplePoolView (.admitOperation (.systemLock sampleLock) 0 none)
      { limits := samplePoolLimits } = .ok (.admission .accepted) pool := by
  have hanswer := samplePool_evaluated
  cases hcall : admitOperation samplePoolNetwork samplePoolView (.systemLock sampleLock) 0 none
      { limits := samplePoolLimits } with
  | error e pool =>
    rw [hcall] at hanswer
    cases hanswer
  | ok admission pool =>
    rw [hcall] at hanswer
    obtain rfl := Option.some.inj hanswer
    refine ⟨pool, ?_⟩
    simp only [run, bind, EStateM.bind, hcall]
    rfl

theorem pool_bookkeeping_sampleLock : ∃ pool, PoolRun samplePoolNetwork samplePoolLimits [samplePoolView] false pool ∧
    PoolOk samplePoolNetwork samplePoolLimits pool := by
  obtain ⟨pool, hcall⟩ := exists_samplePool
  have hrun := PoolRun.returned .start hcall
  exact ⟨pool, hrun, (pool_bookkeeping hrun).1⟩

theorem pool_executes_sampleLock : ∃ pool, PoolRun samplePoolNetwork samplePoolLimits [samplePoolView] false pool ∧
    ∃ execution, executeBlockOperations sampleState pool.snapshot
      (nextContext samplePoolNetwork { blockId := sampleId 201, height := 9 }) = some execution ∧
        execution.isOk = true := by
  obtain ⟨pool, hcall⟩ := exists_samplePool
  have hview : PoolView.Follows (fun _ => (9, sampleState)) samplePoolView := by
    intro head hhead
    obtain rfl := Option.some.inj hhead
    exact ⟨rfl, fun loaded hloaded => (Option.some.inj hloaded).symm⟩
  refine ⟨pool, .returned .start hcall, ?_⟩
  have hviews : ∀ view ∈ [samplePoolView], PoolView.Follows (fun _ => (9, sampleState)) view := by
    intro view hmem
    rw [List.mem_singleton.mp hmem]
    exact hview
  have hexecutes := pool_executes .start hcall (.inl rfl) hviews rfl validateCybouState_sampleState
  exact hexecutes

end OperationPool

end Sample

end Cybou
