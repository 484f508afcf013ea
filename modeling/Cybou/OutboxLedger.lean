import Cybou.OutboxRuns

/-! # The Outbox over runs of calls (`local_application_service.cpp`)

A run is a history of calls and answers.  Each call may fail at any write, may be written
although it reports a failure, and may find the keystore locked.  `Ledger` says which jobs
a history has queued, with the last status of each; the rows mirror it in every state
reached.
-/

namespace Cybou

open Library

/-! ### Calls -/

def KeyKind.isFiles : KeyKind → Bool
  | file | fileDesired | fileDesiredJob | filesIndex => true
  | _ => false

inductive LocalCall where
  | queue (job : Bytes) (content : LocalPreparedContent) (document : PrivateApplicationDocument)
      (recipient : Option AccountId) (draftId : Bytes)
  | setStatus (job : Bytes) (status : PublicationJobResult)
  | importFile (incoming : FileRecord)
  | pendingOutbox (limit : Nat)
  /-- A call of the service that neither reads nor writes rows of the Outbox or of the Files. -/
  | elsewhere (after : ApplicationRows)

def LocalCall.Admissible (rows : ApplicationRows) : LocalCall → Prop
  | .queue _ _ _ recipient _ => recipient ≠ some Hash256.ZERO
  | .elsewhere after => ∀ key, key.kind.isOutbox = true ∨ key.kind.isFiles = true → after key = rows key
  | _ => True

def LocalCall.applied (jobs : List PendingPublication) : LocalCall → List PendingPublication
  | .queue job content document recipient _ =>
    if job ∈ jobIds jobs then jobs else jobs ++ [newJob jobs job content document recipient]
  | .setStatus job status => withStatus jobs job status
  | _ => jobs

structure LocalEvent where
  call : LocalCall
  env : CallEnv
  answer : Except RuntimeError Bool

/-- Jobs that a history can have left. -/
inductive Ledger (start : List PendingPublication) : List LocalEvent → List PendingPublication → Prop where
  | start : Ledger start [] start
  | written {history : List LocalEvent} {jobs : List PendingPublication} {event : LocalEvent}
      (before : Ledger start history jobs) (h : event.answer = .ok true ∨ event.env.fate = .stored) :
      Ledger start (history ++ [event]) (event.call.applied jobs)
  | kept {history : List LocalEvent} {jobs : List PendingPublication} {event : LocalEvent}
      (before : Ledger start history jobs) (h : event.answer ≠ .ok true) :
      Ledger start (history ++ [event]) jobs

section

variable [Crypto]

/-- `account` is the Identity of the store. -/
def LocalCall.run (account : AccountId) (env : CallEnv) (rows : ApplicationRows) :
    LocalCall → Except RuntimeError Bool × ApplicationRows
  | .queue job content document recipient draftId =>
    queuePublication account env rows job content document recipient draftId
  | .setStatus job status => setPublicationStatus env rows job status
  | .importFile incoming => Cybou.importFile env rows incoming
  | .pendingOutbox limit =>
    ((Cybou.pendingOutbox env rows limit).1.map fun _ => true, (Cybou.pendingOutbox env rows limit).2)
  | .elsewhere after => (.ok true, after)

inductive LocalRun (account : AccountId) (start : ApplicationRows) :
    List LocalEvent → ApplicationRows → Prop where
  | start : LocalRun account start [] start
  | call {history : List LocalEvent} {rows : ApplicationRows} (before : LocalRun account start history rows)
      (call : LocalCall) (env : CallEnv) (h : call.Admissible rows) :
      LocalRun account start (history ++ [⟨call, env, (call.run account env rows).1⟩])
        (call.run account env rows).2

end

/-! ### One call -/

section

variable {rows : ApplicationRows} {jobs : List PendingPublication} {env : CallEnv}

theorem answered_or_stored {fate : Fate} (h : fate ≠ .lost) :
    (Except.ok (decide (fate = .done)) : Except RuntimeError Bool) = .ok true ∨ fate = .stored := by
  cases fate with
  | done => exact .inl rfl
  | lost => exact absurd rfl h
  | stored => exact .inr rfl

theorem putAlone_cases (unlocked : Bool) (fate : Fate) (rows : ApplicationRows) (key : ApplicationKey)
    (value : Bytes) :
    (putAlone unlocked fate rows key value).2 = rows ∨
    (unlocked = true ∧ (putAlone unlocked fate rows key value).2 = Function.update rows key (some value)) := by
  unfold putAlone
  by_cases htakes : (StagedRows.opened unlocked rows).takes key value = false
  · rw [if_pos htakes]
    exact .inl rfl
  · rw [if_neg htakes]
    have hunlocked : unlocked = true := by
      rw [StagedRows.takes, Bool.not_eq_false, Bool.and_eq_true, Bool.and_eq_true] at htakes
      exact htakes.1.1
    cases fate with
    | done => exact .inr ⟨hunlocked, rfl⟩
    | lost => exact .inl rfl
    | stored => exact .inr ⟨hunlocked, rfl⟩

theorem visible_update {key : ApplicationKey} {value : Option Bytes} (h : key.usable = true) :
    visible true (Function.update rows key value) = Function.update (visible true rows) key value := by
  funext key'
  rw [visible]
  by_cases heq : key' = key
  · rw [heq, Function.update_self, Function.update_self, if_pos ⟨rfl, h⟩]
  · rw [Function.update_of_ne heq, Function.update_of_ne heq]
    rfl

theorem initialized_mirrors (h : Mirrors (visible true rows) jobs) :
    Mirrors (visible true (Function.update rows (.only .outboxActive) (some (namesRow (activeJobs jobs))))) jobs := by
  rw [visible_update (ApplicationKey.usable_only _)]
  refine h.withActive (Function.update_self ..) fun key _ hkey => ?_
  exact Function.update_of_ne (ApplicationKey.ne_of_kind hkey) ..

theorem length_namesRow (names : List Bytes) :
    (namesRow names).length = (names.map fun name => name.length + 1).sum := by
  rw [namesRow, List.length_flatMap]
  refine congrArg List.sum (List.map_congr_left fun name _ => ?_)
  rw [List.length_append, List.length_singleton]

theorem length_activeJobs_le (jobs : List PendingPublication) :
    (namesRow (activeJobs jobs)).length ≤ (namesRow (jobIds jobs)).length := by
  rw [length_namesRow, length_namesRow]
  have hpart : (activeJobs jobs).Sublist (jobIds jobs) := List.filter_sublist.map _
  exact (hpart.map _).sum_le_sum fun _ _ => Nat.zero_le _

def Settles (env : CallEnv) (written kept : ApplicationRows → Prop)
    (result : Except RuntimeError Bool × ApplicationRows) : Prop :=
  (written (visible true result.2) ∧ (result.1 = .ok true ∨ env.fate = .stored)) ∨
    (kept (visible true result.2) ∧ result.1 ≠ .ok true)

section

variable {W K : ApplicationRows → Prop}

theorem Settles.both {result : Except RuntimeError Bool × ApplicationRows} (h : W (visible true result.2)) :
    Settles env W W result := by
  by_cases hanswer : result.1 = .ok true
  · exact .inl ⟨h, .inl hanswer⟩
  · exact .inr ⟨h, hanswer⟩

theorem Settles.refused (h : K (visible true rows)) {answer : Except RuntimeError Bool}
    (hanswer : answer ≠ .ok true) : Settles env W K (answer, rows) :=
  .inr ⟨h, hanswer⟩

theorem transact_settles {body : Staging Bool} (hkept : K (visible true rows))
    (hbody : env.unlocked = true →
      Completes body (fun s => W (visible true s.rows)) (.opened env.unlocked rows)) :
    Settles env W K (transact env.unlocked env.fate rows body) := by
  rcases transact_completes hbody with ⟨hrows, hanswer⟩ | ⟨s, hs, hfate, hwritten⟩
  · refine .inr ⟨?_, hanswer⟩
    rw [hrows]
    exact hkept
  · rw [hwritten]
    refine .inl ⟨?_, answered_or_stored hfate⟩
    rw [visible_over]
    exact hs

theorem setPublicationStatus_settles (h : Mirrors (visible true rows) jobs) {job : Bytes}
    {status : PublicationJobResult} (hkept : K (visible true rows))
    (hbody : status.error.length ≤ MAX_STATUS_ERROR → job ∈ jobIds jobs →
      Completes (statusBody job status) (fun s => W (visible true s.rows)) (.opened true rows)) :
    Settles env W K (setPublicationStatus env rows job status) := by
  unfold setPublicationStatus
  by_cases hrefused : visible env.unlocked rows (outboxJobKey job) = none ∨ status.error.length > MAX_STATUS_ERROR
  · rw [if_pos hrefused]
    exact .refused hkept nofun
  · rw [if_neg hrefused]
    rw [not_or, not_lt] at hrefused
    refine transact_settles hkept fun hunlocked => ?_
    rw [hunlocked] at hrefused ⊢
    obtain ⟨row, hrow⟩ := Option.ne_none_iff_exists'.mp hrefused.1
    rcases h.mem_of_job hrow with ⟨found, hfound, rfl⟩
    exact hbody hrefused.2 (List.mem_map_of_mem hfound)

theorem importFile_settles {incoming : FileRecord} (hkept : K (visible true rows))
    (hearly : (loadFile (visible true rows) incoming.item.itemId false).any
      (fun old => decide (old.order ≥ incoming.order)) = true → W (visible true rows))
    (hbody : ¬(loadFile (visible true rows) incoming.item.itemId false).any
      (fun old => decide (old.order ≥ incoming.order)) = true →
      Completes (importBody incoming) (fun s => W (visible true s.rows)) (.opened true rows)) :
    Settles env W K (importFile env rows incoming) := by
  unfold importFile
  by_cases hstored : (loadFile (visible env.unlocked rows) incoming.item.itemId false).any
      (fun old => decide (old.order ≥ incoming.order)) = true
  · rw [if_pos hstored]
    have hunlocked : env.unlocked = true := by
      by_contra hlocked
      rw [Bool.not_eq_true] at hlocked
      rw [hlocked] at hstored
      cases hstored
    rw [hunlocked] at hstored
    exact .inl ⟨hearly hstored, .inl rfl⟩
  · rw [if_neg hstored]
    refine transact_settles hkept fun hunlocked => ?_
    rw [hunlocked] at hstored ⊢
    exact hbody hstored

end

theorem readPending (h : Mirrors (visible true rows) jobs) {row : Bytes}
    (hactive : visible true rows (.only .outboxActive) = some row) (limit : Nat) :
    readOutbox (visible true rows) ((readNamesRow (visible true rows (.only .outboxActive))).take limit) =
      .ok ((jobs.filter fun job => decide (job.status.phase ≠ .isProtected)).take limit) := by
  rw [h.readActive hactive, activeJobs, ← List.map_take]
  exact h.readOutbox fun job hjob => List.mem_of_mem_filter (List.mem_of_mem_take hjob)

theorem pendingOutbox_cases (h : Mirrors (visible true rows) jobs) (limit : Nat) :
    (pendingOutbox env rows limit).2 = rows ∨ (pendingOutbox env rows limit).2 =
      Function.update rows (.only .outboxActive) (some (namesRow (activeJobs jobs))) := by
  unfold pendingOutbox
  by_cases hlimit : limit = 0
  · rw [if_pos hlimit]
    exact .inl rfl
  rw [if_neg hlimit]
  dsimp only
  by_cases hactive : (visible env.unlocked rows (.only .outboxActive)).isSome = true
  · rw [if_pos hactive]
    exact .inl rfl
  rw [if_neg hactive]
  rcases env with ⟨unlocked, fate⟩
  cases unlocked with
  | false => exact .inl rfl
  | true =>
    rw [h.outbox]
    have hput := putAlone_cases true fate rows (.only .outboxActive) (namesRow (activeJobs jobs))
    dsimp only
    split
    · exact hput.imp_right And.right
    · exact hput.imp_right And.right

/-- **`PendingOutbox` returns the first active jobs**, unless the list has to be made and is not
written. -/
theorem pendingOutbox_eq (h : Mirrors (visible true rows) jobs) (hunlocked : env.unlocked = true)
    (hready : visible true rows (.only .outboxActive) ≠ none ∨ env.fate = .done) (limit : Nat) :
    (pendingOutbox env rows limit).1 =
      .ok ((jobs.filter fun job => decide (job.status.phase ≠ .isProtected)).take limit) := by
  unfold pendingOutbox
  by_cases hlimit : limit = 0
  · rw [if_pos hlimit, hlimit]
    rfl
  rw [if_neg hlimit, hunlocked]
  dsimp only
  by_cases hactive : (visible true rows (.only .outboxActive)).isSome = true
  · rw [if_pos hactive]
    obtain ⟨row, hrow⟩ := Option.isSome_iff_exists.mp hactive
    exact readPending h hrow limit
  · rw [if_neg hactive, h.outbox]
    rw [Bool.not_eq_true, Option.isSome_eq_false_iff, Option.isNone_iff_eq_none] at hactive
    have hfate : env.fate = .done := hready.resolve_left fun hsome => hsome hactive
    have htakes : (StagedRows.opened true rows).takes (.only .outboxActive) (namesRow (activeJobs jobs)) = true := by
      rw [StagedRows.takes, ApplicationKey.usable_only, decide_eq_true
        (le_trans (length_activeJobs_le jobs) h.bounded)]
      rfl
    have hput : putAlone true env.fate rows (.only .outboxActive) (namesRow (activeJobs jobs)) =
        (true, Function.update rows (.only .outboxActive) (some (namesRow (activeJobs jobs)))) := by
      rw [putAlone, if_neg (by rw [htakes]; exact Bool.noConfusion), hfate]
      rfl
    have hrow : visible true (Function.update rows (.only .outboxActive) (some (namesRow (activeJobs jobs))))
        (.only .outboxActive) = some (namesRow (activeJobs jobs)) := by
      rw [visible_update (ApplicationKey.usable_only _), Function.update_self]
    dsimp only
    rw [hput]
    exact readPending (initialized_mirrors h) hrow limit

section

variable [Crypto] {account : AccountId} {job draftId : Bytes} {content : LocalPreparedContent}
  {document : PrivateApplicationDocument} {recipient : Option AccountId}

omit [Crypto] in
theorem describes_eq_true {existing : PendingPublication} (hvalid : existing.Valid)
    (h : existing.describes content document recipient = true) :
    existing.document = document ∧ content.leaves ≠ [] ∧
      content.leaves.length = content.bundle.chunkCount.toNat := by
  obtain ⟨hdocument, _, hleaves, _, _, _, hcount⟩ := of_decide_eq_true h
  rw [← hleaves, ← hcount]
  refine ⟨hdocument, fun hnil => hvalid.count.1 ?_, hvalid.leaves⟩
  rw [← hvalid.leaves, hnil]
  rfl

/-- **A job that is queued again changes nothing.** -/
theorem queuePublication_again (h : Mirrors (visible true rows) jobs) (hunlocked : env.unlocked = true)
    {existing : PendingPublication} (hmem : existing ∈ jobs) :
    queuePublication account env rows existing.jobId content document recipient draftId =
      (.ok (existing.describes content document recipient), rows) := by
  have hstored := h.stored existing hmem
  have hvalid := h.valid existing hmem
  obtain ⟨row, hrow, hjob⟩ := hstored.document
  unfold queuePublication
  by_cases hrefused : validDraftId existing.jobId = false ∨ content.leaves = [] ∨
      content.leaves.length ≠ content.bundle.chunkCount.toNat
  · rw [if_pos hrefused]
    cases hdescribes : existing.describes content document recipient with
    | false => rfl
    | true =>
      obtain ⟨_, hnil, hleaves⟩ := describes_eq_true hvalid hdescribes
      rcases hrefused with hid | hempty | hcount
      · rw [hvalid.jobId] at hid
        cases hid
      · exact absurd hempty hnil
      · exact absurd hleaves hcount
  rw [if_neg hrefused]
  cases hencode : encodePrivateApplicationDocument document with
  | none =>
    cases hdescribes : existing.describes content document recipient with
    | false => rfl
    | true =>
      rw [← (describes_eq_true hvalid hdescribes).1, hrow] at hencode
      cases hencode
  | some encoded =>
    dsimp only
    have hpart : ∀ other ∈ [existing], other ∈ jobs := fun other hother => List.mem_singleton.mp hother ▸ hmem
    have hread : readOutbox (visible true rows) [existing.jobId] = .ok [existing] := h.readOutbox hpart
    rw [hunlocked, if_pos (by rw [hjob]; rfl), hread]
    rfl

theorem queuePublication_settles (h : Mirrors (visible true rows) jobs) {W K : ApplicationRows → Prop}
    (hkept : K (visible true rows)) (hagain : job ∈ jobIds jobs → W (visible true rows) ∧ K (visible true rows))
    (hbody : ∀ encoded, visible true rows (outboxJobKey job) = none → validDraftId job = true →
      content.leaves ≠ [] → content.leaves.length = content.bundle.chunkCount.toNat →
      encodePrivateApplicationDocument document = some encoded →
      Completes (queueBody account job content document encoded recipient draftId)
        (fun s => W (visible true s.rows)) (.opened true rows)) :
    Settles env W K (queuePublication account env rows job content document recipient draftId) := by
  unfold queuePublication
  by_cases hrefused : validDraftId job = false ∨ content.leaves = [] ∨
      content.leaves.length ≠ content.bundle.chunkCount.toNat
  · rw [if_pos hrefused]
    exact .refused hkept nofun
  rw [if_neg hrefused]
  rw [not_or, not_or, Bool.not_eq_false, not_not] at hrefused
  obtain ⟨hid, hnil, hleaves⟩ := hrefused
  cases hencode : encodePrivateApplicationDocument document with
  | none => exact .refused hkept nofun
  | some encoded =>
    dsimp only
    by_cases hstored : (visible env.unlocked rows (outboxJobKey job)).isSome = true
    · rw [if_pos hstored]
      obtain ⟨row, hrow⟩ := Option.isSome_iff_exists.mp hstored
      have hunlocked : env.unlocked = true := by
        by_contra hlocked
        rw [Bool.not_eq_true] at hlocked
        rw [hlocked] at hrow
        cases hrow
      rw [hunlocked] at hrow
      rcases h.mem_of_job hrow with ⟨existing, hmem, rfl⟩
      have hkeeps := hagain (List.mem_map_of_mem hmem)
      split
      · exact .refused hkept nofun
      · next found _ =>
        by_cases hanswer : (found.head?.any fun existing => existing.describes content document recipient) = true
        · rw [hanswer]
          exact .inl ⟨hkeeps.1, .inl rfl⟩
        · rw [Bool.not_eq_true] at hanswer
          rw [hanswer]
          exact .refused hkept nofun
    · rw [if_neg hstored]
      refine transact_settles hkept fun hunlocked => ?_
      rw [hunlocked] at hstored ⊢
      rw [Bool.not_eq_true, Option.isSome_eq_false_iff, Option.isNone_iff_eq_none] at hstored
      exact hbody encoded hstored hid hnil hleaves hencode

omit [Crypto] in
theorem importBody_frames (incoming : FileRecord) : Frames KeyKind.isOutbox (importBody incoming) := by
  have herase : Frames KeyKind.isOutbox (do
      let _ ← eraseRow (.ofId .fileDesired incoming.item.itemId)
      eraseRow (.ofId .fileDesiredJob incoming.item.itemId)) :=
    Frames.bind (Frames.eraseRow rfl) fun _ => Frames.eraseRow rfl
  refine (Frames.saveFile _ false rfl rfl).bind fun saved => (Frames.pure false).ite ?_
  refine Frames.get.bind fun s => ?_
  cases s.rows (.ofId .fileDesiredJob incoming.item.itemId) with
  | none => exact Frames.pure true
  | some job => exact (Frames.orThrow _).bind fun pending => herase.ite (Frames.pure true)

/-- **What one call does to the jobs.** -/
theorem LocalCall.run_settles (h : Mirrors (visible true rows) jobs) {call : LocalCall}
    (hadmissible : call.Admissible rows) :
    Settles env (fun view => Mirrors view (call.applied jobs)) (fun view => Mirrors view jobs)
      (call.run account env rows) := by
  cases call with
  | queue job content document recipient draftId =>
    refine queuePublication_settles h h (fun hmem => ⟨?_, h⟩) fun encoded hnone hid hnil hleaves hencode => ?_
    · rw [LocalCall.applied, if_pos hmem]
      exact h
    · rw [LocalCall.applied, if_neg (h.not_mem hnone)]
      exact (queueBody_spec h hnone hid hnil hleaves hadmissible hencode).mono fun s hs => hs.visible
  | setStatus job status =>
    refine setPublicationStatus_settles h h fun herror hmem => ?_
    exact (statusBody_spec h herror hmem).mono fun s hs => hs.visible
  | importFile incoming =>
    refine importFile_settles h (fun _ => h) fun _ => (importBody_frames incoming).completes fun s hsame => ?_
    exact (h.congr hsame).visible
  | pendingOutbox limit =>
    refine Settles.both ?_
    rcases pendingOutbox_cases h limit with hsame | hwritten
    · rw [LocalCall.run, hsame]
      exact h
    · rw [LocalCall.run, hwritten]
      exact initialized_mirrors h
  | elsewhere after =>
    refine Settles.both (h.congr fun key hkey => ?_)
    have hsame : after key = rows key := hadmissible key (.inl hkey)
    simp only [LocalCall.run, visible, hsame]

theorem LocalRun.mirrors {start : ApplicationRows} {jobs₀ : List PendingPublication}
    (hstart : Mirrors (visible true start) jobs₀) {history : List LocalEvent}
    (hrun : LocalRun account start history rows) :
    ∃ jobs, Ledger jobs₀ history jobs ∧ Mirrors (visible true rows) jobs := by
  induction hrun with
  | start => exact ⟨jobs₀, .start, hstart⟩
  | call before call env hadmissible ih =>
    rcases ih with ⟨jobs, hledger, hmirrors⟩
    rcases (LocalCall.run_settles hmirrors hadmissible : Settles env _ _ (call.run account env _)) with
      ⟨hafter, hanswer⟩ | ⟨hafter, hanswer⟩
    · exact ⟨call.applied jobs, .written hledger hanswer, hafter⟩
    · exact ⟨jobs, .kept hledger hanswer, hafter⟩

/-- **The Outbox is what the history of calls left of it**, whichever calls failed. -/
theorem outbox_mirrors_history {start : ApplicationRows} {jobs₀ : List PendingPublication}
    (hstart : Mirrors (visible true start) jobs₀) {history : List LocalEvent}
    (hrun : LocalRun account start history rows) :
    ∃ jobs, Ledger jobs₀ history jobs ∧
      readNamesRow (visible true rows (.only .outboxIndex)) = jobIds jobs ∧ (jobIds jobs).Nodup ∧
      (jobs.Pairwise fun job later => job.sequence < later.sequence) ∧
      (visible true rows (.only .outboxActive) ≠ none →
        readNamesRow (visible true rows (.only .outboxActive)) = activeJobs jobs) ∧
      (∀ part, (∀ job ∈ part, job ∈ jobs) → readOutbox (visible true rows) (jobIds part) = .ok part) ∧
      (∀ (env : CallEnv) (limit : Nat), env.unlocked = true →
        visible true rows (.only .outboxActive) ≠ none ∨ env.fate = .done →
        (pendingOutbox env rows limit).1 =
          .ok ((jobs.filter fun job => decide (job.status.phase ≠ .isProtected)).take limit)) ∧
      ∀ (env : CallEnv) (content : LocalPreparedContent) (document : PrivateApplicationDocument)
        (recipient : Option AccountId) (draftId : Bytes), env.unlocked = true → ∀ existing ∈ jobs,
        queuePublication account env rows existing.jobId content document recipient draftId =
          (.ok (existing.describes content document recipient), rows) := by
  rcases hrun.mirrors hstart with ⟨jobs, hledger, h⟩
  refine ⟨jobs, hledger, h.readIndex, h.nodup, h.increasing, fun hactive => ?_, fun part hpart => ?_, ?_, ?_⟩
  · obtain ⟨row, hrow⟩ := Option.ne_none_iff_exists'.mp hactive
    exact h.readActive hrow
  · exact h.readOutbox hpart
  · intro env limit hunlocked hready
    exact pendingOutbox_eq h hunlocked hready limit
  · intro env content document recipient draftId hunlocked existing hmem
    exact queuePublication_again h hunlocked hmem

end

end

theorem Mirrors.empty {rows : ApplicationRows} (h : ∀ key, key.kind.isOutbox = true → rows key = none) :
    Mirrors rows [] := by
  refine ⟨nofun, nofun, fun id _ => ⟨h _ rfl, h _ rfl⟩, List.nodup_nil, .nil, .inl ⟨rfl, h _ rfl⟩,
    .inr ⟨h _ rfl, rfl⟩, Nat.zero_le _, fun row hrow => ?_⟩
  rw [h (.only .outboxActive) rfl] at hrow
  cases hrow

/-! ### A job of one chunk -/

section Sample

set_option maxRecDepth 10000

attribute [local instance] Crypto.sample

def sampleContent : LocalPreparedContent where
  bundle :=
    { rootChunkId := FixedBytes.leading 31 1, contentKey := FixedBytes.leading 31 2
      chunkAuthorizationRoot := FixedBytes.leading 31 3, chunkCount := 1 }
  leaves := [FixedBytes.leading 31 1]

def sampleRemoval : PrivateApplicationDocument :=
  .files { mutations := [{ kind := .deleteItem, itemId := FixedBytes.leading 31 5, item := none }] }

def sampleSecuring : PublicationJobResult where
  phase := .securing
  operationId := FixedBytes.leading 31 7
  finalizedHeight := 1
  error := []
  durabilityPercent := 40

def noRows : ApplicationRows := fun _ => none

def sampleCallEnv : CallEnv := ⟨true, .done⟩

def sampleOwner : AccountId := FixedBytes.leading 31 9

def sampleQueue (recipient : Option AccountId) : LocalCall :=
  .queue (ascii "a") sampleContent sampleRemoval recipient []

def sampleQueued (recipient : Option AccountId) : Except RuntimeError Bool × ApplicationRows :=
  (sampleQueue recipient).run sampleOwner sampleCallEnv noRows

def sampleSecured : Except RuntimeError Bool × ApplicationRows :=
  setPublicationStatus sampleCallEnv (sampleQueued none).2 (ascii "a") sampleSecuring

/-- The percentage of a status is not saved, and a job for the null account cannot be read. -/
theorem outbox_forgets_percent :
    (sampleQueued none).1 = .ok true ∧ sampleSecured.1 = .ok true ∧
    ((outbox (visible true sampleSecured.2)).toOption.getD []).map (·.status) = [sampleSecuring.saved] ∧
    sampleSecuring.saved ≠ sampleSecuring ∧
    (sampleQueued (some Hash256.ZERO)).1 = .ok true ∧
    (pendingOutbox sampleCallEnv (sampleQueued (some Hash256.ZERO)).2 1).1 =
      .error ⟨"Outbox recipient invalid"⟩ := by
  decide

def sampleSecond : LocalCall :=
  .queue (ascii "b") sampleContent
    (.files { mutations := [{ kind := .deleteItem, itemId := FixedBytes.leading 31 6, item := none }] })
    (some (FixedBytes.leading 31 8)) []

def sampleProtected : LocalCall :=
  .setStatus (ascii "a") { sampleSecuring with phase := .isProtected, durabilityPercent := 100 }

def sampleLocalRows (calls : List LocalCall) : ApplicationRows :=
  calls.foldl (fun rows call => (call.run sampleOwner sampleCallEnv rows).2) noRows

def sampleLocalEvent (calls : List LocalCall) (call : LocalCall) : LocalEvent :=
  ⟨call, sampleCallEnv, (call.run sampleOwner sampleCallEnv (sampleLocalRows calls)).1⟩

def sampleLocalCalls : List LocalCall := [sampleQueue none, sampleSecond, sampleProtected]

theorem sampleLocalCalls_evaluated :
    (sampleLocalEvent [] (sampleQueue none)).answer = .ok true ∧
    (sampleLocalEvent [sampleQueue none] sampleSecond).answer = .ok true ∧
    (sampleLocalEvent [sampleQueue none, sampleSecond] sampleProtected).answer = .ok true ∧
    readNamesRow (visible true (sampleLocalRows sampleLocalCalls) (.only .outboxIndex)) =
      [ascii "a", ascii "b"] ∧
    (visible true (sampleLocalRows sampleLocalCalls) (.only .outboxActive)).map
      (fun row => readNamesRow (some row)) = some [ascii "b"] := by
  decide

/-- Two jobs are queued and one of them gets protected, so that the other one is pending. -/
theorem outbox_mirrors_history_sample :
    ∃ jobs, Ledger [] (sampleLocalCalls.map fun call => ⟨call, sampleCallEnv, .ok true⟩) jobs ∧
      jobIds jobs = [ascii "a", ascii "b"] ∧ activeJobs jobs = [ascii "b"] ∧
      (pendingOutbox sampleCallEnv (sampleLocalRows sampleLocalCalls) 2).1 =
        .ok ((jobs.filter fun job => decide (job.status.phase ≠ .isProtected)).take 2) := by
  obtain ⟨hfirst, hsecond, hprotected, hindex, hactive⟩ := sampleLocalCalls_evaluated
  have hstart : LocalRun sampleOwner noRows [] noRows := .start
  have hrun := ((hstart.call (sampleQueue none) sampleCallEnv nofun).call sampleSecond sampleCallEnv
    (show some _ ≠ some Hash256.ZERO by decide)).call sampleProtected sampleCallEnv trivial
  have hempty : Mirrors (visible true noRows) [] := Mirrors.empty fun _ _ => ite_self _
  obtain ⟨jobs, hledger, hids, -, -, hnames, -, hpending, -⟩ := outbox_mirrors_history hempty hrun
  obtain ⟨row, hrow, hrow'⟩ := Option.map_eq_some_iff.mp hactive
  have hnone : visible true (sampleLocalRows sampleLocalCalls) (.only .outboxActive) ≠ none := by
    rw [hrow]
    exact Option.some_ne_none row
  have hjobs := hnames hnone
  change Ledger [] [sampleLocalEvent [] (sampleQueue none), sampleLocalEvent [sampleQueue none] sampleSecond,
    sampleLocalEvent [sampleQueue none, sampleSecond] sampleProtected] jobs at hledger
  refine ⟨jobs, ?_, hids.symm.trans hindex, ?_, hpending sampleCallEnv 2 rfl (.inl hnone)⟩
  · have hevents : ∀ {calls call}, (sampleLocalEvent calls call).answer = .ok true →
        sampleLocalEvent calls call = ⟨call, sampleCallEnv, .ok true⟩ := by
      rintro calls call h
      rw [← h]
      rfl
    rwa [hevents hfirst, hevents hsecond, hevents hprotected] at hledger
  · rw [← hjobs]
    exact (congrArg readNamesRow hrow).trans hrow'

end Sample

end Cybou
