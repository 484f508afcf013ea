import Cybou.LocalApplication
import Cybou.StagingRules

/-! # The Outbox over any calls (`local_application_service.cpp`)

`Ledger` says which jobs a history of calls and answers has queued, with the last status
of each.  `Mirrors` relates such a list of jobs to the rows: the two indexes, the sequence
number, a row for each job and its status.  Every call keeps it, and what is read from
mirrored rows is the list itself.
-/

namespace Cybou

open Library

def KeyKind.isOutbox : KeyKind → Bool
  | outboxJob | outboxStatus | outboxIndex | outboxActive | outboxSequence => true
  | _ => false

variable {α β : Type}

theorem Frames.orThrow {kept : KeyKind → Bool} (read : Except RuntimeError α) :
    Frames kept (orThrow read) := by
  intro s
  cases read with
  | error e => exact trivial
  | ok a => exact fun _ _ => rfl

/-- Calls that change drafts and messages only. -/
structure KeepsMail (kept : KeyKind → Bool) : Prop where
  draft : kept .draft = false
  draftIndex : kept .draftIndex = false
  mail : kept .mail = false
  mailIndex : kept .mailIndex = false

theorem deleteDraft_frames {kept : KeyKind → Bool} (h : KeepsMail kept) (draftId : Bytes) :
    Frames kept (deleteDraft draftId) := by
  refine (Frames.pure false).ite (Frames.innerBatch ?_)
  refine (Frames.getRow _).bind fun names => ?_
  have herase : Frames kept (eraseRow ⟨.draft, draftId⟩) := Frames.eraseRow h.draft
  exact herase.bind fun _ => Frames.putRow _ h.draftIndex

theorem queueFiles_frames (job : Bytes) (mutations : List FileMutation) :
    Frames KeyKind.isOutbox (queueFiles job mutations) := by
  induction mutations with
  | nil => exact Frames.pure true
  | cons mutation mutations ih =>
    refine (Frames.saveFile _ true rfl rfl).bind fun saved => (Frames.pure false).ite ?_
    have hput : Frames KeyKind.isOutbox (putRow (.ofId .fileDesiredJob mutation.itemId) job) := Frames.putRow _ rfl
    exact hput.bind fun _ => (Frames.pure false).ite ih

section

variable [Crypto]

theorem queueMail_frames {kept : KeyKind → Bool} (h : KeepsMail kept) (account : AccountId)
    (message : MailMessage) (draftId : Bytes) : Frames kept (queueMail account message draftId) := by
  have hdrop : Frames kept (dropAcceptedDraft draftId) := by
    refine (Frames.pure true).ite (Frames.get.bind fun s => ?_)
    cases (listDrafts s.rows).find? fun draft => decide (draft.draftId = draftId) with
    | none => exact Frames.pure true
    | some current => exact (deleteDraft_frames h draftId).ite (Frames.pure true)
  exact (Frames.saveMail _ h.mail h.mailIndex).bind fun saved => (Frames.pure false).ite hdrop

theorem queueDocument_frames (account : AccountId) (job draftId : Bytes)
    (document : PrivateApplicationDocument) :
    Frames KeyKind.isOutbox (queueDocument account job draftId document) := by
  cases document with
  | mail message => exact queueMail_frames ⟨rfl, rfl, rfl, rfl⟩ account message draftId
  | files batch => exact queueFiles_frames job batch.mutations
  | bridge bridge => exact Frames.pure true

end

theorem ensureActiveOutboxIndex_frames {kept : KeyKind → Bool} (h : kept .outboxActive = false) :
    Frames kept ensureActiveOutboxIndex := by
  refine Frames.get.bind fun s => (Frames.pure true).ite ?_
  exact (Frames.orThrow _).bind fun jobs => Frames.putRow _ h

/-! ### A job and its rows -/

/-- What every job of the Outbox satisfies. -/
structure PendingPublication.Valid (job : PendingPublication) : Prop where
  jobId : validDraftId job.jobId = true
  leaves : job.content.leaves.length = job.content.bundle.chunkCount.toNat
  count : job.content.bundle.chunkCount.toNat ≠ 0 ∧
    job.content.bundle.chunkCount.toNat ≤ MAX_PUBLICATION_CHUNKS.toNat
  recipient : job.recipient ≠ some Hash256.ZERO
  error : job.status.error.length ≤ MAX_STATUS_ERROR
  percent : job.status.durabilityPercent = -1

structure PendingPublication.Stored (rows : ApplicationRows) (job : PendingPublication) : Prop where
  document : ∃ encoded, encodePrivateApplicationDocument job.document = some encoded ∧
    rows (outboxJobKey job.jobId) = some (outboxJobRow job.sequence job.content job.recipient encoded)
  status : rows (outboxStatusKey job.jobId) = some (outboxStatusRow job.status) ∨
    (rows (outboxStatusKey job.jobId) = none ∧ job.status = .initial)

theorem PublicationJobPhase.ofCode_code (phase : PublicationJobPhase) :
    PublicationJobPhase.ofCode phase.code = some phase := by
  cases phase <;> rfl

theorem getString_bind_append {maximum : Nat} {text : Bytes} (h : text.length ≤ maximum)
    (hmax : maximum < 2 ^ 32) (f : Bytes → Reader β) (rest : Bytes) :
    (getString maximum >>= f) (putString text ++ rest) = f text rest := by
  rw [getString, putString, List.append_assoc, bind_assoc,
    Reader.count_exact.bind_append (lt_of_le_of_lt h hmax), bind_assoc, Reader.require_bind_apply, if_pos h]
  exact (Reader.bytes_exact text.length).bind_append rfl f rest

theorem readStatus_outboxStatusRow {status : PublicationJobResult}
    (herror : status.error.length ≤ MAX_STATUS_ERROR) (hpercent : status.durabilityPercent = -1) :
    readStatus.whole (outboxStatusRow status) = some status := by
  have hread : ∀ {β : Type} (a : PublicationJobPhase) (f : PublicationJobPhase → Reader β) (b : Bytes),
      (Reader.ofOption (some a) >>= f) b = f a b := fun _ _ _ => rfl
  have hstring : ∀ f : Bytes → Reader PublicationJobResult,
      (getString MAX_STATUS_ERROR >>= f) (putString status.error) = f status.error [] := by
    intro f
    rw [← getString_bind_append herror (by decide) f [], List.append_nil]
  rw [Reader.whole_eq_some]
  simp only [readStatus, outboxStatusRow, List.append_assoc]
  rw [Reader.u8_exact.bind_append trivial, PublicationJobPhase.ofCode_code, hread,
    (Reader.fixed_exact 32).bind_append trivial, Reader.u64_exact.bind_append trivial, hstring, ← hpercent]
  rfl

theorem readBundle_append (sequence : UInt64) (root key authorization : FixedBytes 32) (rest : Bytes) :
    readBundle (le64 sequence ++ (root.1 ++ (key.1 ++ (authorization.1 ++ rest)))) =
      some ((sequence, root, key, authorization), rest) := by
  rw [readBundle, Reader.u64_exact.bind_append trivial, (Reader.fixed_exact 32).bind_append trivial,
    (Reader.fixed_exact 32).bind_append trivial, (Reader.fixed_exact 32).bind_append trivial]
  rfl

variable {count : UInt32}

theorem readBounds_append {flag : UInt8}
    (hcount : count.toNat ≠ 0 ∧ count.toNat ≤ MAX_PUBLICATION_CHUNKS.toNat) (hflag : flag ≤ 1) (rest : Bytes) :
    readBounds (le32 count ++ (flag :: rest)) = some ((count, flag), rest) := by
  rw [readBounds, Reader.u32_exact.bind_append trivial, ← List.singleton_append,
    Reader.u8_exact.bind_append trivial, Reader.require_bind_apply, if_pos ⟨hcount.1, hcount.2, hflag⟩]
  rfl

theorem readLeaves_append {leaves : List ChunkId} {count : Nat} (h : leaves.length = count) (rest : Bytes) :
    Reader.repeatN (Reader.fixed 32) count (idsRow leaves ++ rest) = some (leaves, rest) :=
  (Reader.repeatN_exact (Reader.fixed_exact 32) count _ _ _).mpr ⟨⟨h, fun _ _ => trivial⟩, rfl⟩

theorem readRecipient_append
    (hcount : count.toNat ≠ 0 ∧ count.toNat ≤ MAX_PUBLICATION_CHUNKS.toNat) {recipient : Option AccountId}
    (hrecipient : recipient ≠ some Hash256.ZERO) (rest : Bytes) :
    ∃ flag tail, readBounds (le32 count ++ (writeOptional Subtype.val recipient ++ rest)) =
      some ((count, flag), tail) ∧ readRecipient flag tail = .ok (recipient, rest) := by
  cases recipient with
  | none => exact ⟨0, rest, readBounds_append hcount (by decide) rest, rfl⟩
  | some account =>
    refine ⟨1, account.1 ++ rest, readBounds_append hcount (by decide) _, ?_⟩
    have hnull : Hash256.isNull account = false := by
      rw [← Bool.not_eq_true, Hash256.isNull_iff]
      intro hzero
      exact hrecipient (congrArg some hzero)
    rw [readRecipient, if_neg (by decide), parseOrThrow, readAccountId_exact.bind_append hnull]
    rfl

variable {rows : ApplicationRows} {job : PendingPublication}

theorem readOutboxStatus_stored (hvalid : job.Valid)
    (hstored : job.Stored rows) : readOutboxStatus rows job.jobId = .ok job.status := by
  unfold readOutboxStatus
  rcases hstored.status with hsaved | ⟨hnone, hinitial⟩
  · rw [hsaved]
    dsimp only
    rw [readStatus_outboxStatusRow hvalid.error hvalid.percent]
  · rw [hnone, hinitial]

/-- **A job is read back as it was saved.** -/
theorem readOutboxJob_stored (hvalid : job.Valid)
    (hstored : job.Stored rows) : readOutboxJob rows job.jobId = .ok job := by
  obtain ⟨encoded, hencoded, hrow⟩ := hstored.document
  have hdocument := decodePrivateApplicationDocument_eq_some.mpr hencoded
  have hstatus := readOutboxStatus_stored hvalid hstored
  obtain ⟨flag, tail, hbounds, hrecipient⟩ :=
    readRecipient_append hvalid.count hvalid.recipient (idsRow job.content.leaves ++ encoded)
  have hleaves := readLeaves_append hvalid.leaves encoded
  unfold readOutboxJob
  rw [hrow]
  simp only [outboxJobRow, List.append_assoc, parseOrThrow, readBundle_append, bind, Except.bind, hbounds,
    hrecipient, hleaves, hdocument, hstatus]
  rfl

/-! ### Mirrored rows -/

def jobIds (jobs : List PendingPublication) : List Bytes := jobs.map (·.jobId)

/-- The rows are those of these jobs, in this order. -/
structure Mirrors (rows : ApplicationRows) (jobs : List PendingPublication) : Prop where
  valid : ∀ job ∈ jobs, job.Valid
  stored : ∀ job ∈ jobs, job.Stored rows
  absent : ∀ id, id ∉ jobIds jobs → rows (outboxJobKey id) = none ∧ rows (outboxStatusKey id) = none
  nodup : (jobIds jobs).Nodup
  increasing : jobs.Pairwise fun job later => job.sequence < later.sequence
  sequence : (jobs = [] ∧ rows (.only .outboxSequence) = none) ∨
    ∃ last, jobs.getLast? = some last ∧ rows (.only .outboxSequence) = some (le64 last.sequence)
  index : rows (.only .outboxIndex) = some (namesRow (jobIds jobs)) ∨
    (rows (.only .outboxIndex) = none ∧ jobs = [])
  bounded : (namesRow (jobIds jobs)).length ≤ MAX_VALUE_BYTES
  /-- A store of an older version has no list of active jobs. -/
  active : ∀ row, rows (.only .outboxActive) = some row → row = namesRow (activeJobs jobs)

variable {id : Bytes}

theorem listedName_of_valid (h : validDraftId id = true) : ListedName id := by
  simp only [validDraftId, Bool.and_eq_true, decide_eq_true_eq, List.all_eq_true] at h
  refine ⟨h.1.1, fun hmem => ?_⟩
  have hnewline := h.2 10 hmem
  revert hnewline
  decide

theorem length_le_of_valid (h : validDraftId id = true) : id.length ≤ 64 := by
  simp only [validDraftId, Bool.and_eq_true, decide_eq_true_eq] at h
  exact h.1.2

theorem mapM_ok {ε : Type} {f : α → Except ε β} {g : α → β} {l : List α}
    (h : ∀ a ∈ l, f a = .ok (g a)) : l.mapM f = .ok (l.map g) := by
  induction l with
  | nil => rfl
  | cons a l ih =>
    rw [List.forall_mem_cons] at h
    rw [List.mapM_cons, h.1, ih h.2]
    rfl

namespace Mirrors

variable {rows rows' : ApplicationRows} {jobs : List PendingPublication}

variable {part : List PendingPublication}

theorem names (h : Mirrors rows jobs) (hpart : ∀ job ∈ part, job ∈ jobs) :
    readNamesRow (some (namesRow (jobIds part))) = jobIds part := by
  refine readNamesRow_namesRow fun name hname => ?_
  rcases List.mem_map.mp hname with ⟨job, hjob, rfl⟩
  exact listedName_of_valid (h.valid job (hpart job hjob)).jobId

theorem readIndex (h : Mirrors rows jobs) : readNamesRow (rows (.only .outboxIndex)) = jobIds jobs := by
  rcases h.index with hindex | ⟨hnone, rfl⟩
  · rw [hindex]
    exact h.names fun job hjob => hjob
  · rw [hnone]
    rfl

theorem activeJobs_eq (jobs : List PendingPublication) :
    activeJobs jobs = jobIds (jobs.filter fun job => decide (job.status.phase ≠ .isProtected)) := rfl

variable {id row : Bytes}

theorem readActive (h : Mirrors rows jobs) (hrow : rows (.only .outboxActive) = some row) :
    readNamesRow (rows (.only .outboxActive)) = activeJobs jobs := by
  rw [hrow, h.active row hrow, activeJobs_eq]
  exact h.names fun job hjob => List.mem_of_mem_filter hjob

/-- **What is read of any jobs is what was saved of them.** -/
theorem readOutbox (h : Mirrors rows jobs) (hpart : ∀ job ∈ part, job ∈ jobs) :
    readOutbox rows (jobIds part) = .ok part := by
  rw [Cybou.readOutbox, jobIds, List.mapM_map]
  refine (mapM_ok fun job hjob => ?_).trans (congrArg Except.ok (List.map_id part))
  exact readOutboxJob_stored (h.valid job (hpart job hjob)) (h.stored job (hpart job hjob))

theorem outbox (h : Mirrors rows jobs) : outbox rows = .ok jobs := by
  rw [Cybou.outbox, h.readIndex]
  exact h.readOutbox fun job hjob => hjob

theorem mem_of_job (h : Mirrors rows jobs) (hrow : rows (outboxJobKey id) = some row) :
    ∃ job ∈ jobs, job.jobId = id := by
  by_contra hnot
  have habsent := (h.absent id fun hmem => hnot (List.mem_map.mp hmem)).1
  rw [hrow] at habsent
  cases habsent

theorem not_mem (h : Mirrors rows jobs) (hrow : rows (outboxJobKey id) = none) : id ∉ jobIds jobs := by
  intro hmem
  rcases List.mem_map.mp hmem with ⟨job, hjob, rfl⟩
  obtain ⟨_, _, hsome⟩ := (h.stored job hjob).document
  rw [hrow] at hsome
  cases hsome

theorem congr (h : Mirrors rows jobs) (hsame : ∀ key, key.kind.isOutbox = true → rows' key = rows key) :
    Mirrors rows' jobs := by
  have hjob : ∀ id, rows' (outboxJobKey id) = rows (outboxJobKey id) := fun id => hsame (outboxJobKey id) rfl
  have hstatus : ∀ id, rows' (outboxStatusKey id) = rows (outboxStatusKey id) :=
    fun id => hsame (outboxStatusKey id) rfl
  refine ⟨h.valid, fun job hmem => ⟨?_, ?_⟩, fun id hid => ?_, h.nodup, h.increasing, ?_, ?_, h.bounded, ?_⟩
  · rw [hjob]
    exact (h.stored job hmem).document
  · rw [hstatus]
    exact (h.stored job hmem).status
  · rw [hjob, hstatus]
    exact h.absent id hid
  · rw [hsame (.only .outboxSequence) rfl]
    exact h.sequence
  · rw [hsame (.only .outboxIndex) rfl]
    exact h.index
  · rw [hsame (.only .outboxActive) rfl]
    exact h.active

theorem visible (h : Mirrors rows jobs) : Mirrors (visible true rows) jobs := by
  have honly : ∀ kind, Cybou.visible true rows (.only kind) = rows (.only kind) :=
    fun kind => visible_of_usable (ApplicationKey.usable_only kind) rows
  have hjob : ∀ job ∈ jobs, ∀ kind, Cybou.visible true rows ⟨kind, job.jobId⟩ = rows ⟨kind, job.jobId⟩ :=
    fun job hmem kind => visible_of_usable
      (ApplicationKey.usable_of_short (length_le_of_valid (h.valid job hmem).jobId)) rows
  have hnone : ∀ key, rows key = none → Cybou.visible true rows key = none := by
    intro key hkey
    rw [Cybou.visible, hkey, ite_self]
  refine ⟨h.valid, fun job hmem => ⟨?_, ?_⟩, fun id hid => ?_, h.nodup, h.increasing, ?_, ?_, h.bounded, ?_⟩
  · rw [outboxJobKey, hjob job hmem]
    exact (h.stored job hmem).document
  · rw [outboxStatusKey, hjob job hmem]
    exact (h.stored job hmem).status
  · exact ⟨hnone _ (h.absent id hid).1, hnone _ (h.absent id hid).2⟩
  · rw [honly]
    exact h.sequence
  · rw [honly]
    exact h.index
  · rw [honly]
    exact h.active

end Mirrors

/-! ### What each call does to mirrored rows -/

section

variable {s : StagedRows} {jobs : List PendingPublication}

theorem with_isOutbox {key : ApplicationKey} (value : Option Bytes) {key' : ApplicationKey}
    (h : key'.kind ≠ key.kind) : (s.with key value).rows key' = s.rows key' :=
  StagedRows.with_other (ApplicationKey.ne_of_kind h)

variable {rows rows' : ApplicationRows}

theorem Mirrors.withActive (h : Mirrors rows jobs)
    (hactive : rows' (.only .outboxActive) = some (namesRow (activeJobs jobs)))
    (hsame : ∀ key, key.kind.isOutbox = true → key.kind ≠ .outboxActive → rows' key = rows key) :
    Mirrors rows' jobs := by
  have hjob : ∀ id, rows' (outboxJobKey id) = rows (outboxJobKey id) := fun id => hsame _ rfl nofun
  have hstatus : ∀ id, rows' (outboxStatusKey id) = rows (outboxStatusKey id) := fun id => hsame _ rfl nofun
  refine ⟨h.valid, fun job hmem => ⟨?_, ?_⟩, fun id hid => ?_, h.nodup, h.increasing, ?_, ?_, h.bounded, ?_⟩
  · rw [hjob]
    exact (h.stored job hmem).document
  · rw [hstatus]
    exact (h.stored job hmem).status
  · rw [hjob, hstatus]
    exact h.absent id hid
  · rw [hsame (.only .outboxSequence) rfl nofun]
    exact h.sequence
  · rw [hsame (.only .outboxIndex) rfl nofun]
    exact h.index
  · intro row hrow
    rw [hactive] at hrow
    exact (Option.some.inj hrow).symm

theorem ensureActiveOutboxIndex_spec (h : Mirrors s.rows jobs) :
    Completes ensureActiveOutboxIndex (fun s' => Mirrors s'.rows jobs ∧
      s'.rows (.only .outboxActive) = some (namesRow (activeJobs jobs))) s := by
  unfold ensureActiveOutboxIndex
  rw [Completes, Proc.wp_get_bind]
  by_cases hsome : (s.rows (.only .outboxActive)).isSome = true
  · rw [if_pos hsome]
    intro _
    obtain ⟨row, hrow⟩ := Option.isSome_iff_exists.mp hsome
    exact ⟨h, hrow.trans (congrArg some (h.active row hrow))⟩
  · rw [if_neg hsome, h.outbox]
    refine Completes.putRow fun _ => ⟨?_, StagedRows.with_same _⟩
    exact h.withActive (StagedRows.with_same _) fun key _ hkey => with_isOutbox _ hkey

def nextSequence (jobs : List PendingPublication) : UInt64 := ((jobs.getLast?.map (·.sequence)).getD 0) + 1

theorem Mirrors.lastSequence (h : Mirrors s.rows jobs) {last : UInt64}
    (hlast : lastSequence (s.rows (.only .outboxSequence)) = some last) :
    last + 1 = nextSequence jobs ∧ ∀ job ∈ jobs, job.sequence < last + 1 := by
  rcases h.sequence with ⟨rfl, hnone⟩ | ⟨job, hjob, hrow⟩
  · rw [hnone] at hlast
    cases hlast
    exact ⟨rfl, fun _ => nofun⟩
  · have hread : Reader.u64.whole (le64 job.sequence) = some job.sequence :=
      Reader.u64_exact.whole.mpr ⟨trivial, rfl⟩
    rw [hrow, Cybou.lastSequence, hread, Option.filter_some] at hlast
    split at hlast
    · next hmax =>
      cases hlast
      refine ⟨by rw [nextSequence, hjob]; rfl, fun other hother => ?_⟩
      have hnot : job.sequence ≠ UINT64_MAX := by simpa using hmax
      have hstep := lt_add_one_of_ne_max hnot
      rcases List.getLast?_eq_some_iff.mp hjob with ⟨before, rfl⟩
      rcases List.mem_append.mp hother with hother | hother
      · have hless := (List.pairwise_append.mp h.increasing).2.2 other hother job (List.mem_singleton_self job)
        exact UInt64.lt_trans hless hstep
      · rw [List.mem_singleton.mp hother]
        exact hstep
    · cases hlast

/-- A new job goes to the end of the index. -/
theorem Mirrors.snoc {new : PendingPublication} (h : Mirrors rows jobs)
    (hvalid : new.Valid) (hstored : new.Stored rows') (hnew : new.jobId ∉ jobIds jobs)
    (hlater : ∀ job ∈ jobs, job.sequence < new.sequence)
    (hsequence : rows' (.only .outboxSequence) = some (le64 new.sequence))
    (hindex : rows' (.only .outboxIndex) = some (namesRow (jobIds (jobs ++ [new]))))
    (hbounded : (namesRow (jobIds (jobs ++ [new]))).length ≤ MAX_VALUE_BYTES)
    (hactive : rows' (.only .outboxActive) = some (namesRow (activeJobs (jobs ++ [new]))))
    (hjob : ∀ id, id ≠ new.jobId → rows' (outboxJobKey id) = rows (outboxJobKey id))
    (hstatus : ∀ id, id ≠ new.jobId → rows' (outboxStatusKey id) = rows (outboxStatusKey id)) :
    Mirrors rows' (jobs ++ [new]) := by
  have hids : jobIds (jobs ++ [new]) = jobIds jobs ++ [new.jobId] := List.map_append
  have hne : ∀ job ∈ jobs, job.jobId ≠ new.jobId :=
    fun job hmem heq => hnew (heq ▸ List.mem_map_of_mem hmem)
  refine ⟨fun job hmem => ?_, fun job hmem => ?_, fun id hid => ?_, ?_, ?_, .inr ⟨new, ?_, hsequence⟩,
    .inl hindex, hbounded, fun row hrow => ?_⟩
  · rcases List.mem_append.mp hmem with hold | hsingle
    · exact h.valid job hold
    · rw [List.mem_singleton.mp hsingle]
      exact hvalid
  · rcases List.mem_append.mp hmem with hold | hsingle
    · refine ⟨?_, ?_⟩
      · rw [hjob _ (hne job hold)]
        exact (h.stored job hold).document
      · rw [hstatus _ (hne job hold)]
        exact (h.stored job hold).status
    · rw [List.mem_singleton.mp hsingle]
      exact hstored
  · rw [hids, List.mem_append, not_or, List.mem_singleton] at hid
    rw [hjob id hid.2, hstatus id hid.2]
    exact h.absent id hid.1
  · rw [hids]
    refine List.nodup_append.mpr ⟨h.nodup, List.nodup_singleton _, fun id hid other hother heq => hnew ?_⟩
    rw [← List.mem_singleton.mp hother, ← heq]
    exact hid
  · refine List.pairwise_append.mpr ⟨h.increasing, List.pairwise_singleton _ _, fun job hold other hother => ?_⟩
    rw [List.mem_singleton.mp hother]
    exact hlater job hold
  · rw [List.getLast?_append, List.getLast?_singleton, Option.some_or]
  · rw [hactive] at hrow
    exact (Option.some.inj hrow).symm

end

section

variable [Crypto] {s : StagedRows} {jobs : List PendingPublication}

/-- The job that a call of `QueuePublication` adds. -/
def newJob (jobs : List PendingPublication) (id : Bytes) (content : LocalPreparedContent)
    (document : PrivateApplicationDocument) (recipient : Option AccountId) : PendingPublication where
  jobId := id
  sequence := nextSequence jobs
  content
  document
  recipient
  status := .initial

variable {id encoded : Bytes} {content : LocalPreparedContent}
  {document : PrivateApplicationDocument} {recipient : Option AccountId}

omit [Crypto] in
theorem newJob_valid {sequence : UInt64} (hid : validDraftId id = true)
    (hnil : content.leaves ≠ []) (hleaves : content.leaves.length = content.bundle.chunkCount.toNat)
    (hrecipient : recipient ≠ some Hash256.ZERO)
    (hfits : (outboxJobRow sequence content recipient encoded).length ≤ MAX_VALUE_BYTES) :
    (newJob jobs id content document recipient).Valid := by
  have hmany : content.leaves.length * 32 ≤ MAX_VALUE_BYTES := by
    refine le_trans ?_ hfits
    rw [outboxJobRow, List.length_append, List.length_append, length_idsRow]
    omega
  have hmax : MAX_VALUE_BYTES ≤ MAX_PUBLICATION_CHUNKS.toNat * 32 := by decide
  have hpos := List.length_pos_iff.mpr hnil
  have hcount : content.bundle.chunkCount.toNat ≠ 0 ∧
      content.bundle.chunkCount.toNat ≤ MAX_PUBLICATION_CHUNKS.toNat := by omega
  exact ⟨hid, hleaves, hcount, hrecipient, Nat.zero_le _, rfl⟩

/-- A new job is added behind the jobs that the rows mirror. -/
theorem queueBody_spec {account : AccountId} {draftId : Bytes} (h : Mirrors s.rows jobs)
    (hnew : s.rows (outboxJobKey id) = none) (hid : validDraftId id = true) (hnil : content.leaves ≠ [])
    (hleaves : content.leaves.length = content.bundle.chunkCount.toNat)
    (hrecipient : recipient ≠ some Hash256.ZERO)
    (hencoded : encodePrivateApplicationDocument document = some encoded) :
    Completes (queueBody account id content document encoded recipient draftId)
      (fun s' => Mirrors s'.rows (jobs ++ [newJob jobs id content document recipient])) s := by
  have hfresh := h.not_mem hnew
  refine (ensureActiveOutboxIndex_spec h).next fun s₁ hs₁ => ?_
  obtain ⟨h₁, hactive⟩ := hs₁
  rw [Completes, wp_getRow_bind]
  cases hlast : lastSequence (s₁.rows (.only .outboxSequence)) with
  | none => exact Completes.refused
  | some last =>
    obtain ⟨hnext, hlater⟩ := h₁.lastSequence hlast
    dsimp only
    rw [wp_getRow_bind, wp_getRow_bind, h₁.readIndex, h₁.readActive hactive, hnext]
    refine Completes.putRow_next fun htaken => Completes.putRow_next fun _ =>
      Completes.putRow_next fun hbounded => Completes.putRow_next fun _ => ?_
    refine (queueDocument_frames account id draftId document).completes fun s' hsame => ?_
    have hvalid : (newJob jobs id content document recipient).Valid :=
      newJob_valid hid hnil hleaves hrecipient (takes_length htaken)
    have hids : jobIds jobs ++ [id] = jobIds (jobs ++ [newJob jobs id content document recipient]) := by
      rw [jobIds, jobIds, List.map_append]
      rfl
    have hactives : activeJobs jobs ++ [id] = activeJobs (jobs ++ [newJob jobs id content document recipient]) := by
      rw [activeJobs, activeJobs, List.filter_append, List.map_append]
      rfl
    have hrows : ∀ key, key.kind.isOutbox = true → s'.rows key =
        if key = .only .outboxActive then some (namesRow (activeJobs jobs ++ [id]))
        else if key = .only .outboxIndex then some (namesRow (jobIds jobs ++ [id]))
        else if key = .only .outboxSequence then some (le64 (nextSequence jobs))
        else if key = outboxJobKey id then some (outboxJobRow (nextSequence jobs) content recipient encoded)
        else s₁.rows key := by
      intro key hkey
      rw [hsame key hkey]
      simp only [StagedRows.with, Function.update_apply]
    rw [hids, hactives] at hrows
    have hjob : ∀ other, s'.rows (outboxJobKey other) = if other = id then
        some (outboxJobRow (nextSequence jobs) content recipient encoded) else s₁.rows (outboxJobKey other) := by
      intro other
      rw [hrows (outboxJobKey other) rfl]
      simp [outboxJobKey, ApplicationKey.only]
    have hstatus : ∀ other, s'.rows (outboxStatusKey other) = s₁.rows (outboxStatusKey other) := by
      intro other
      rw [hrows (outboxStatusKey other) rfl]
      simp [outboxStatusKey, outboxJobKey, ApplicationKey.only]
    refine h₁.snoc hvalid ⟨⟨encoded, hencoded, ?_⟩, .inr ⟨?_, rfl⟩⟩ hfresh ?_ ?_ ?_ ?_ ?_ ?_ ?_
    · rw [newJob, hjob, if_pos rfl]
    · rw [newJob, hstatus]
      exact (h₁.absent id hfresh).2
    · rw [newJob, ← hnext]
      exact hlater
    · rw [hrows (.only .outboxSequence) rfl]
      rfl
    · rw [hrows (.only .outboxIndex) rfl]
      rfl
    · rw [← hids]
      exact takes_length hbounded
    · exact hrows (.only .outboxActive) rfl
    · intro other hother
      exact (hjob other).trans (if_neg hother)
    · intro other _
      exact hstatus other

end

/-! ### A status and the list of active jobs -/

theorem takeWhile_cons_dropWhile {p : α → Bool} {l l' : List α} {a : α}
    (hkeep : ∀ b ∈ l, p b = true) (hstop : ∀ b ∈ l', p b = false) :
    (l ++ l').takeWhile p ++ a :: (l ++ l').dropWhile p = l ++ a :: l' := by
  rw [List.takeWhile_append_of_pos hkeep, List.dropWhile_append_of_pos hkeep]
  cases l' with
  | nil => simp
  | cons b l' =>
    have hb : ¬p b = true := Bool.not_eq_true _ ▸ hstop b List.mem_cons_self
    rw [List.takeWhile_cons_of_neg hb, List.dropWhile_cons_of_neg hb, List.append_nil]

theorem reinsert_eq {before after active active' : List Bytes}
    (hnodup : (before ++ id :: after).Nodup) (hbefore : ∀ other ∈ active, other ∈ before)
    (hafter : ∀ other ∈ active', other ∈ after) :
    reinsert (before ++ id :: after) id (active ++ active') = active ++ id :: active' := by
  have hparts := List.nodup_append.mp hnodup
  have hid : id ∉ before := fun hmem => hparts.2.2 id hmem id List.mem_cons_self rfl
  have hposition : (before ++ id :: after).idxOf id = before.length := by
    rw [List.idxOf_append_of_notMem hid, List.idxOf_cons_self]
    rfl
  have hearlier : ∀ other ∈ active, ¬(before ++ id :: after).idxOf other > before.length := by
    intro other hother
    have hmem := hbefore other hother
    rw [List.idxOf_append_of_mem hmem]
    exact not_lt_of_gt (List.idxOf_lt_length_iff.mpr hmem)
  have hlater : ∀ other ∈ active', (before ++ id :: after).idxOf other > before.length := by
    intro other hother
    have hmem := hafter other hother
    have hout : other ∉ before := fun hin => hparts.2.2 other hin other (List.mem_cons_of_mem _ hmem) rfl
    have hne : id ≠ other := fun heq => (List.nodup_cons.mp hparts.2.1).1 (heq ▸ hmem)
    rw [List.idxOf_append_of_notMem hout, List.idxOf_cons_ne _ hne]
    exact Nat.lt_add_of_pos_right (Nat.succ_pos _)
  unfold reinsert
  dsimp only
  rw [hposition]
  have hkeep : ∀ other ∈ active, (!decide ((before ++ id :: after).idxOf other > before.length)) = true := by
    intro other hother
    rw [decide_eq_false (hearlier other hother)]
    rfl
  refine takeWhile_cons_dropWhile hkeep fun other hother => ?_
  rw [decide_eq_true (hlater other hother)]
  rfl

def PublicationJobResult.saved (status : PublicationJobResult) : PublicationJobResult :=
  { status with durabilityPercent := -1 }

def withStatus (jobs : List PendingPublication) (id : Bytes) (status : PublicationJobResult) :
    List PendingPublication :=
  jobs.map fun job => if job.jobId = id then { job with status := status.saved } else job

section

variable {jobs before after : List PendingPublication} {job : PendingPublication} {id : Bytes}
  {status : PublicationJobResult}

@[simp] theorem jobIds_withStatus : jobIds (withStatus jobs id status) = jobIds jobs := by
  rw [jobIds, withStatus, List.map_map]
  refine List.map_congr_left fun job _ => ?_
  dsimp only [Function.comp]
  split <;> rfl

theorem withStatus_of_not_mem (h : id ∉ jobIds jobs) : withStatus jobs id status = jobs := by
  refine (List.map_congr_left fun job hjob => if_neg fun heq => ?_).trans (List.map_id jobs)
  exact h (heq ▸ List.mem_map_of_mem hjob)

theorem activeJobs_subset (jobs : List PendingPublication) : ∀ id ∈ activeJobs jobs, id ∈ jobIds jobs := by
  intro id hid
  rcases List.mem_map.mp hid with ⟨job, hjob, rfl⟩
  exact List.mem_map_of_mem (List.mem_of_mem_filter hjob)

theorem activeJobs_append (jobs more : List PendingPublication) :
    activeJobs (jobs ++ more) = activeJobs jobs ++ activeJobs more := by
  rw [activeJobs, List.filter_append, List.map_append]
  rfl

theorem activeJobs_cons (job : PendingPublication) (jobs : List PendingPublication) :
    activeJobs (job :: jobs) =
      if job.status.phase ≠ .isProtected then job.jobId :: activeJobs jobs else activeJobs jobs := by
  rw [activeJobs, List.filter_cons]
  by_cases h : job.status.phase ≠ .isProtected
  · rw [if_pos h, if_pos (decide_eq_true h)]
    rfl
  · rw [if_neg h, if_neg (by simpa using h)]
    rfl

/-- **The list is updated in place to what it is made of anew.** -/
theorem activeJobs_withStatus (hnodup : (jobIds jobs).Nodup) (hmem : id ∈ jobIds jobs) :
    activeJobs (withStatus jobs id status) = nextActive (jobIds jobs) (activeJobs jobs) id status.phase := by
  rcases List.mem_map.mp hmem with ⟨job, hjob, rfl⟩
  rcases List.append_of_mem hjob with ⟨before, after, rfl⟩
  have hids : jobIds (before ++ job :: after) = jobIds before ++ job.jobId :: jobIds after := List.map_append
  rw [hids] at hnodup
  have hparts := List.nodup_append.mp hnodup
  have hbefore : job.jobId ∉ jobIds before := fun hin => hparts.2.2 _ hin _ List.mem_cons_self rfl
  have hafter : job.jobId ∉ jobIds after := (List.nodup_cons.mp hparts.2.1).1
  have hwith : withStatus (before ++ job :: after) job.jobId status =
      before ++ { job with status := status.saved } :: after := by
    have hsplit : withStatus (before ++ job :: after) job.jobId status =
        withStatus before job.jobId status ++ { job with status := status.saved } ::
          withStatus after job.jobId status := by
      rw [withStatus, List.map_append, List.map_cons, if_pos rfl]
      rfl
    rw [hsplit, withStatus_of_not_mem hbefore, withStatus_of_not_mem hafter]
  have hbefore' : job.jobId ∉ activeJobs before := fun hin => hbefore (activeJobs_subset before _ hin)
  have hafter' : job.jobId ∉ activeJobs after := fun hin => hafter (activeJobs_subset after _ hin)
  have hupdated : activeJobs ({ job with status := status.saved } :: after) =
      if status.phase ≠ .isProtected then job.jobId :: activeJobs after else activeJobs after := activeJobs_cons _ _
  rw [hwith, hids, activeJobs_append, activeJobs_append, hupdated, activeJobs_cons, nextActive]
  by_cases hprotected : status.phase = .isProtected
  · rw [if_pos hprotected, if_neg (not_not.mpr hprotected), List.erase_append_right _ hbefore']
    split
    · rw [List.erase_cons_head]
    · rw [List.erase_of_not_mem hafter']
  · rw [if_neg hprotected, if_pos hprotected]
    by_cases hwas : job.status.phase ≠ .isProtected
    · rw [if_pos hwas, if_pos (List.mem_append_right _ List.mem_cons_self)]
    · rw [if_neg hwas, if_neg (fun hin => (List.mem_append.mp hin).elim hbefore' hafter')]
      exact (reinsert_eq hnodup (activeJobs_subset before) (activeJobs_subset after)).symm

/-- The rows of a job whose status is set. -/
theorem Mirrors.withStatus {rows rows' : ApplicationRows} (h : Mirrors rows jobs)
    (herror : status.error.length ≤ MAX_STATUS_ERROR) (hmem : id ∈ jobIds jobs)
    (hstatus : rows' (outboxStatusKey id) = some (outboxStatusRow status))
    (hactive : rows' (.only .outboxActive) = some (namesRow (activeJobs (withStatus jobs id status))))
    (hsame : ∀ key, key.kind.isOutbox = true → key ≠ outboxStatusKey id → key ≠ .only .outboxActive →
      rows' key = rows key) :
    Mirrors rows' (Cybou.withStatus jobs id status) := by
  have hrow : ∀ other, rows' (outboxJobKey other) = rows (outboxJobKey other) :=
    fun other => hsame _ rfl (ApplicationKey.ne_of_kind nofun) (ApplicationKey.ne_of_kind nofun)
  have hother : ∀ other, other ≠ id → rows' (outboxStatusKey other) = rows (outboxStatusKey other) :=
    fun other hne => hsame _ rfl (fun heq => hne (congrArg ApplicationKey.rest heq))
      (ApplicationKey.ne_of_kind nofun)
  have honly : ∀ kind, kind.isOutbox = true → kind ≠ .outboxStatus → kind ≠ .outboxActive →
      rows' (.only kind) = rows (.only kind) :=
    fun kind hkind hnot hnot' => hsame _ hkind (ApplicationKey.ne_of_kind hnot) (ApplicationKey.ne_of_kind hnot')
  have hold : ∀ job ∈ Cybou.withStatus jobs id status, ∃ old ∈ jobs,
      job = if old.jobId = id then { old with status := status.saved } else old := by
    intro job hjob
    rcases List.mem_map.mp hjob with ⟨old, hmem, rfl⟩
    exact ⟨old, hmem, rfl⟩
  have hnumber : ∀ old : PendingPublication,
      (if old.jobId = id then { old with status := status.saved } else old).sequence = old.sequence := by
    intro old
    split <;> rfl
  refine ⟨fun job hjob => ?_, fun job hjob => ?_, fun other hother' => ?_, ?_, ?_, ?_, ?_, ?_, ?_⟩
  · rcases hold job hjob with ⟨old, hmem', rfl⟩
    have hvalid := h.valid old hmem'
    split
    · exact ⟨hvalid.jobId, hvalid.leaves, hvalid.count, hvalid.recipient, herror, rfl⟩
    · exact hvalid
  · rcases hold job hjob with ⟨old, hmem', rfl⟩
    have hstored := h.stored old hmem'
    split
    · next heq =>
      refine ⟨?_, .inl ?_⟩
      · rw [hrow]
        exact hstored.document
      · dsimp only
        rw [heq]
        exact hstatus
    · next hne =>
      refine ⟨?_, ?_⟩
      · rw [hrow]
        exact hstored.document
      · rw [hother _ hne]
        exact hstored.status
  · rw [jobIds_withStatus] at hother'
    rw [hrow, hother other fun heq => hother' (heq ▸ hmem)]
    exact h.absent other hother'
  · rw [jobIds_withStatus]
    exact h.nodup
  · refine List.pairwise_map.mpr (h.increasing.imp fun hless => ?_)
    rw [hnumber, hnumber]
    exact hless
  · rw [honly .outboxSequence rfl nofun nofun]
    rcases h.sequence with ⟨rfl, hnone⟩ | ⟨last, hlast, hrow⟩
    · exact .inl ⟨rfl, hnone⟩
    · refine .inr ⟨_, List.getLast?_map.trans (congrArg _ hlast), ?_⟩
      rw [hnumber]
      exact hrow
  · rw [honly .outboxIndex rfl nofun nofun, jobIds_withStatus]
    rcases h.index with hindex | ⟨hnone, rfl⟩
    · exact .inl hindex
    · exact .inr ⟨hnone, rfl⟩
  · rw [jobIds_withStatus]
    exact h.bounded
  · intro row hrow
    rw [hactive] at hrow
    exact (Option.some.inj hrow).symm

theorem statusBody_spec {s : StagedRows} (h : Mirrors s.rows jobs)
    (herror : status.error.length ≤ MAX_STATUS_ERROR) (hmem : id ∈ jobIds jobs) :
    Completes (statusBody id status) (fun s' => Mirrors s'.rows (withStatus jobs id status)) s := by
  refine (ensureActiveOutboxIndex_spec h).next fun s₁ hs₁ => ?_
  obtain ⟨h₁, hactive⟩ := hs₁
  rw [Completes, wp_getRow_bind, wp_getRow_bind, h₁.readIndex, h₁.readActive hactive]
  dsimp only
  rw [← activeJobs_withStatus h.nodup hmem]
  refine Completes.putRow_next fun _ => Completes.putRow fun _ => ?_
  refine h₁.withStatus herror hmem ?_ (StagedRows.with_same _) fun key _ hstatus hactive' => ?_
  · exact (with_isOutbox _ fun heq => KeyKind.noConfusion heq).trans (StagedRows.with_same _)
  · rw [StagedRows.with_other hactive', StagedRows.with_other hstatus]

end

end Cybou
