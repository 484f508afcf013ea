import Cybou.OutboxLedger

/-! # The pending values of Files over runs of calls (`local_application_service.cpp`)

What a user changes is shown at once from the pending rows, and from the imported record
once the operation of the job is imported.  `ImportFile` drops the pending value only on
its way to writing a record: where the record is there already it returns before.  In a
run where that never concerns the operation a pending value waits for, the greatest
imported record is shown.
-/

namespace Cybou

open Library

/-! ### The test of a pending value -/

def PrivateApplicationDocument.items : PrivateApplicationDocument → List PrivateItemId
  | .files batch => batch.mutations.map (·.itemId)
  | _ => []

def lastFor (jobs : List PendingPublication) (id : PrivateItemId) : Option PendingPublication :=
  (jobs.filter fun job => decide (id ∈ job.document.items)).getLast?

/-- Whether the status of the job that the pending value of an item waits for names the operation
of a record. -/
def namesOperation (rows : ApplicationRows) (incoming : FileRecord) : Bool :=
  (rows (.ofId .fileDesiredJob incoming.item.itemId)).any fun job =>
    ((readOutbox rows [job]).toOption.getD []).any fun pending => decide (pending.jobId = job ∧
      pending.status.operationId = incoming.operationId ∧ incoming.operationId.isNull = false)

def alreadyImported (rows : ApplicationRows) (incoming : FileRecord) : Bool :=
  (loadFile rows incoming.item.itemId false).any fun old => decide (old.order ≥ incoming.order)

/-- The import returns early although the pending value waits for its operation. -/
def overlooks (rows : ApplicationRows) (incoming : FileRecord) : Bool :=
  alreadyImported rows incoming && namesOperation rows incoming

section

variable {rows rows' : ApplicationRows} {jobs : List PendingPublication} {incoming : FileRecord}

theorem namesOperation_eq (h : Mirrors rows jobs) {job : PendingPublication} (hmem : job ∈ jobs)
    (hrow : rows (.ofId .fileDesiredJob incoming.item.itemId) = some job.jobId) :
    namesOperation rows incoming =
      decide (job.status.operationId = incoming.operationId ∧ incoming.operationId.isNull = false) := by
  have hpart : ∀ other ∈ [job], other ∈ jobs := fun other hother => List.mem_singleton.mp hother ▸ hmem
  have hread : readOutbox rows [job.jobId] = .ok [job] := h.readOutbox hpart
  rw [namesOperation, hrow, Option.any_some, hread]
  simp [Except.toOption]

theorem readOutboxJob_congr (hsame : ∀ key, key.kind.isOutbox = true → rows' key = rows key) (id : Bytes) :
    readOutboxJob rows' id = readOutboxJob rows id := by
  unfold readOutboxJob readOutboxStatus
  rw [hsame (outboxJobKey id) rfl, hsame (outboxStatusKey id) rfl]

theorem readOutbox_congr (hsame : ∀ key, key.kind.isOutbox = true → rows' key = rows key) (ids : List Bytes) :
    readOutbox rows' ids = readOutbox rows ids := by
  have hfun : readOutboxJob rows' = readOutboxJob rows := funext (readOutboxJob_congr hsame)
  rw [readOutbox, readOutbox, hfun]

theorem namesOperation_congr (hsame : ∀ key, key.kind.isOutbox = true → rows' key = rows key)
    (hjob : rows' (.ofId .fileDesiredJob incoming.item.itemId) = rows (.ofId .fileDesiredJob incoming.item.itemId)) :
    namesOperation rows' incoming = namesOperation rows incoming := by
  unfold namesOperation
  rw [hjob]
  simp only [readOutbox_congr hsame]

end

/-! ### What each call does to the rows of the Files -/

def SameFiles (rows rows' : ApplicationRows) : Prop := ∀ key, key.kind.isFiles = true → rows' key = rows key

structure Pending (job : Bytes) (items : List PrivateItemId) (rows rows' : ApplicationRows) : Prop where
  file : ∀ id, rows' (fileKey false id) = rows (fileKey false id)
  named : ∀ id ∈ items, rows' (.ofId .fileDesiredJob id) = some job
  others : ∀ id, id ∉ items → rows' (fileKey true id) = rows (fileKey true id) ∧
    rows' (.ofId .fileDesiredJob id) = rows (.ofId .fileDesiredJob id)
  index : ∀ id ∈ readIds (rows (.only .filesIndex)), id ∈ readIds (rows' (.only .filesIndex))

/-- A record has been written, and its pending value dropped if it waited for the record. -/
structure Imported (incoming : FileRecord) (rows rows' : ApplicationRows) : Prop where
  written : ∃ encoded, fileRow incoming = some encoded ∧ rows' (fileKey false incoming.item.itemId) = some encoded
  file : ∀ id, id ≠ incoming.item.itemId → rows' (fileKey false id) = rows (fileKey false id)
  dropped : namesOperation rows incoming = true → rows' (fileKey true incoming.item.itemId) = none ∧
    rows' (.ofId .fileDesiredJob incoming.item.itemId) = none
  others : ∀ id, id ≠ incoming.item.itemId ∨ namesOperation rows incoming = false →
    rows' (fileKey true id) = rows (fileKey true id) ∧
    rows' (.ofId .fileDesiredJob id) = rows (.ofId .fileDesiredJob id)
  listed : incoming.item.itemId ∈ readIds (rows' (.only .filesIndex))
  index : ∀ id ∈ readIds (rows (.only .filesIndex)), id ∈ readIds (rows' (.only .filesIndex))

variable {job : Bytes}

theorem Pending.trans {items more : List PrivateItemId} {rows₀ rows₁ rows₂ : ApplicationRows}
    (h : Pending job items rows₀ rows₁) (h' : Pending job more rows₁ rows₂) :
    Pending job (items ++ more) rows₀ rows₂ := by
  refine ⟨fun id => (h'.file id).trans (h.file id), fun id hid => ?_, fun id hid => ?_,
    fun id hid => h'.index id (h.index id hid)⟩
  · by_cases hmore : id ∈ more
    · exact h'.named id hmore
    · rw [(h'.others id hmore).2]
      exact h.named id ((List.mem_append.mp hid).resolve_right hmore)
  · rw [List.mem_append, not_or] at hid
    exact ⟨(h'.others id hid.2).1.trans (h.others id hid.1).1, (h'.others id hid.2).2.trans (h.others id hid.1).2⟩

theorem Pending.of_same {rows rows' : ApplicationRows} (h : SameFiles rows rows') :
    Pending job [] rows rows' := by
  refine ⟨fun id => h _ rfl, fun _ => nofun, fun id _ => ⟨h _ rfl, h _ rfl⟩, fun id hid => ?_⟩
  rw [h (.only .filesIndex) rfl]
  exact hid

section

variable {s : StagedRows}

/-- The mutation of a queued job becomes the pending value of its item. -/
theorem savePending_spec (job : Bytes) {mutation : FileMutation}
    (hitem : (desiredRecord mutation).item.itemId = mutation.itemId) {rest : Staging Bool}
    {P : StagedRows → Prop} (hrest : ∀ s', Pending job [mutation.itemId] s.rows s'.rows → Completes rest P s') :
    Completes (do
      if (← saveFile (desiredRecord mutation) true) = false then return false
      if (← putRow (.ofId .fileDesiredJob mutation.itemId) job) = false then return false
      rest) P s := by
  refine (saveFile_spec (desiredRecord mutation) true).next fun s₁ hs₁ => Completes.putRow_next fun _ => ?_
  obtain ⟨_, hindex, hother⟩ := hs₁
  rw [hitem] at hindex hother
  have hrow : ∀ key, key ≠ .ofId .fileDesiredJob mutation.itemId → key ≠ fileKey true mutation.itemId →
      key ≠ .only .filesIndex → (s₁.with (.ofId .fileDesiredJob mutation.itemId) (some job)).rows key = s.rows key := by
    intro key hjob hfile hlist
    rw [StagedRows.with_other hjob, hother key hfile hlist]
  refine hrest _ ⟨fun id => ?_, fun id hid => ?_, fun id hid => ⟨?_, ?_⟩, fun id hid => ?_⟩
  · exact hrow _ (ApplicationKey.ne_of_kind nofun) (ApplicationKey.ne_of_kind nofun)
      (ApplicationKey.ne_of_kind nofun)
  · rw [List.mem_singleton.mp hid]
    exact StagedRows.with_same _
  · rw [List.mem_singleton] at hid
    exact hrow _ (ApplicationKey.ne_of_kind nofun) (fun heq => hid (ApplicationKey.ofId_injective _ heq))
      (ApplicationKey.ne_of_kind nofun)
  · rw [List.mem_singleton] at hid
    exact hrow _ (fun heq => hid (ApplicationKey.ofId_injective _ heq)) (ApplicationKey.ne_of_kind nofun)
      (ApplicationKey.ne_of_kind nofun)
  · have hlist : (s₁.with (.ofId .fileDesiredJob mutation.itemId) (some job)).rows (.only .filesIndex) =
        s₁.rows (.only .filesIndex) := StagedRows.with_other (ApplicationKey.ne_of_kind nofun)
    rw [hlist, hindex]
    exact mem_withId.mpr (.inl hid)

variable {mutations : List FileMutation}

theorem queueFiles_spec (job : Bytes)
    (hitems : ∀ mutation ∈ mutations, (desiredRecord mutation).item.itemId = mutation.itemId) (s : StagedRows) :
    Completes (queueFiles job mutations)
      (fun s' => Pending job (mutations.map (·.itemId)) s.rows s'.rows) s := by
  induction mutations generalizing s with
  | nil => exact fun _ => Pending.of_same fun _ _ => rfl
  | cons mutation mutations ih =>
    rw [List.forall_mem_cons] at hitems
    refine savePending_spec job hitems.1 fun s₁ h₁ => (ih hitems.2 s₁).mono fun s₂ h₂ => ?_
    exact h₁.trans h₂

theorem item_of_encode {encoded : Bytes}
    (h : encodePrivateApplicationDocument (.files { mutations }) = some encoded) :
    ∀ mutation ∈ mutations, (desiredRecord mutation).item.itemId = mutation.itemId := by
  intro mutation hmem
  have hmutation : validMutation mutation = true := validMutation_of_wellFormed (wellFormed_of_encode h).1 hmem
  unfold validMutation at hmutation
  unfold desiredRecord
  cases hitem : mutation.item with
  | none => rfl
  | some item =>
    rw [hitem] at hmutation
    cases hkind : mutation.kind with
    | upsertItem =>
      rw [hkind, Bool.and_eq_true] at hmutation
      simp only [Bool.and_eq_true, decide_eq_true_eq] at hmutation
      exact hmutation.2.1
    | deleteItem =>
      rw [hkind, Bool.and_eq_true] at hmutation
      exact absurd hmutation.2 nofun

section

variable [Crypto]

variable {account : AccountId} {job draftId encoded : Bytes} {document : PrivateApplicationDocument}

theorem queueDocument_files (hencoded : encodePrivateApplicationDocument document = some encoded) :
    Completes (queueDocument account job draftId document)
      (fun s' => Pending job document.items s.rows s'.rows) s := by
  cases document with
  | mail message =>
    have hmail : Frames KeyKind.isFiles (queueMail account message draftId) :=
      queueMail_frames ⟨rfl, rfl, rfl, rfl⟩ account message draftId
    exact hmail.completes fun s' hsame => Pending.of_same hsame
  | files batch => exact queueFiles_spec job (item_of_encode hencoded) s
  | bridge bridge => exact fun _ => Pending.of_same fun _ _ => rfl

theorem queueBody_files {content : LocalPreparedContent} {recipient : Option AccountId}
    (hencoded : encodePrivateApplicationDocument document = some encoded) :
    Completes (queueBody account job content document encoded recipient draftId)
      (fun s' => Pending job document.items s.rows s'.rows) s := by
  have hactive : Frames KeyKind.isFiles ensureActiveOutboxIndex := ensureActiveOutboxIndex_frames rfl
  have hput : ∀ (key : ApplicationKey) (value : Bytes), key.kind.isFiles = false →
      Frames KeyKind.isFiles (putRow key value) := fun key value hkey => Frames.putRow value hkey
  refine Completes.framed hactive fun s₁ h₁ => ?_
  rw [Completes, wp_getRow_bind]
  cases lastSequence (s₁.rows (.only .outboxSequence)) with
  | none => exact Completes.refused
  | some last =>
    dsimp only
    rw [wp_getRow_bind, wp_getRow_bind]
    refine Completes.framed (hput _ _ rfl) fun s₂ h₂ => Completes.framed (hput _ _ rfl) fun s₃ h₃ =>
      Completes.framed (hput _ _ rfl) fun s₄ h₄ => Completes.framed (hput _ _ rfl) fun s₅ h₅ =>
      (queueDocument_files hencoded).mono fun s' hs' => ?_
    have hputs : SameFiles s.rows s₅.rows := by
      intro key hkey
      rw [h₅ key hkey, h₄ key hkey, h₃ key hkey, h₂ key hkey, h₁ key hkey]
    exact (Pending.of_same hputs).trans hs'

end

theorem statusBody_files (job : Bytes) (status : PublicationJobResult) :
    Frames KeyKind.isFiles (statusBody job status) := by
  refine (ensureActiveOutboxIndex_frames rfl).bind fun _ => (Frames.pure false).ite ?_
  refine (Frames.getRow _).bind fun _ => (Frames.getRow _).bind fun _ => ?_
  have hput : Frames KeyKind.isFiles (putRow (outboxStatusKey job) (outboxStatusRow status)) := Frames.putRow _ rfl
  exact hput.bind fun _ => (Frames.pure false).ite (Frames.putRow _ rfl)

theorem dropDesired_spec (incoming : FileRecord) :
    Completes (dropDesired incoming) (fun s' => s'.rows =
      if namesOperation s.rows incoming = true then
        Function.update (Function.update s.rows (fileKey true incoming.item.itemId) none)
          (.ofId .fileDesiredJob incoming.item.itemId) none
      else s.rows) s := by
  unfold dropDesired
  rw [Completes, Proc.wp_get_bind, namesOperation]
  cases s.rows (.ofId .fileDesiredJob incoming.item.itemId) with
  | none => exact fun _ => rfl
  | some job =>
    dsimp only
    rw [Option.any_some]
    cases readOutbox s.rows [job] with
    | error e => trivial
    | ok pending =>
      have hpending : ((Except.ok pending : Except RuntimeError _).toOption).getD [] = pending := rfl
      rw [hpending]
      change Completes (ite _ _ _) _ s
      by_cases hnamed : (pending.any fun pending => decide (pending.jobId = job ∧
          pending.status.operationId = incoming.operationId ∧ incoming.operationId.isNull = false)) = true
      · rw [if_pos hnamed, if_pos hnamed]
        exact fun _ => rfl
      · rw [if_neg hnamed, if_neg hnamed]
        exact fun _ => rfl

/-- What `ImportFile` does to the rows of the Files where it writes. -/
theorem importBody_files (incoming : FileRecord) :
    Completes (importBody incoming) (fun s' => Imported incoming s.rows s'.rows) s := by
  have houtbox : Frames KeyKind.isOutbox (saveFile incoming false) := Frames.saveFile _ false rfl rfl
  refine ((saveFile_spec incoming false).and (houtbox.completes fun s₁ hsame => hsame)).next fun s₁ hs₁ => ?_
  obtain ⟨⟨⟨encoded, hencoded, hrow⟩, hindex, hother⟩, hsame⟩ := hs₁
  refine (dropDesired_spec incoming).mono fun s' hs' => ?_
  have hpending : ∀ key, key.kind = .fileDesired ∨ key.kind = .fileDesiredJob → s₁.rows key = s.rows key := by
    intro key hkey
    refine hother key (ApplicationKey.ne_of_kind fun heq => ?_) (ApplicationKey.ne_of_kind fun heq => ?_)
    · rw [heq] at hkey
      exact hkey.elim nofun nofun
    · rw [heq] at hkey
      exact hkey.elim nofun nofun
  have hnamed : namesOperation s₁.rows incoming = namesOperation s.rows incoming :=
    namesOperation_congr hsame (hpending _ (.inr rfl))
  rw [hnamed] at hs'
  have hkeep : ∀ key, key ≠ fileKey true incoming.item.itemId →
      key ≠ .ofId .fileDesiredJob incoming.item.itemId → s'.rows key = s₁.rows key := by
    intro key hkey hkey'
    rw [hs']
    split
    · rw [Function.update_of_ne hkey', Function.update_of_ne hkey]
    · rfl
  have hfile : ∀ id, s'.rows (fileKey false id) = s₁.rows (fileKey false id) :=
    fun id => hkeep _ (ApplicationKey.ne_of_kind nofun) (ApplicationKey.ne_of_kind nofun)
  have hne : fileKey true incoming.item.itemId ≠ .ofId .fileDesiredJob incoming.item.itemId :=
    ApplicationKey.ne_of_kind nofun
  have hlist : s'.rows (.only .filesIndex) = s₁.rows (.only .filesIndex) :=
    hkeep _ (ApplicationKey.ne_of_kind nofun) (ApplicationKey.ne_of_kind nofun)
  refine ⟨⟨encoded, hencoded, ?_⟩, fun id hid => ?_, fun hdrop => ?_, fun id hid => ?_, ?_, fun id hid => ?_⟩
  · rw [hfile]
    exact hrow
  · rw [hfile]
    exact hother _ (fun heq => hid (ApplicationKey.ofId_injective _ heq)) (ApplicationKey.ne_of_kind nofun)
  · rw [hs', if_pos hdrop, Function.update_self, Function.update_of_ne hne, Function.update_self]
    exact ⟨rfl, rfl⟩
  · rw [← hpending (fileKey true id) (.inl rfl), ← hpending (.ofId .fileDesiredJob id) (.inr rfl)]
    rcases hid with hid | hnot
    · exact ⟨hkeep _ (fun heq => hid (ApplicationKey.ofId_injective _ heq)) (ApplicationKey.ne_of_kind nofun),
        hkeep _ (ApplicationKey.ne_of_kind nofun) (fun heq => hid (ApplicationKey.ofId_injective _ heq))⟩
    · rw [hs', if_neg (by rw [hnot]; exact Bool.noConfusion)]
      exact ⟨rfl, rfl⟩
  · rw [hlist, hindex]
    exact mem_withId.mpr (.inr rfl)
  · rw [hlist, hindex]
    exact mem_withId.mpr (.inl hid)

end

/-! ### What is seen of the rows -/

section

variable {rows rows' : ApplicationRows}

theorem visible_ofId (rows : ApplicationRows) (kind : KeyKind) (id : FixedBytes 32) :
    visible true rows (.ofId kind id) = rows (.ofId kind id) :=
  visible_of_usable (ApplicationKey.usable_ofId kind id) rows

theorem visible_fileKey (rows : ApplicationRows) (desired : Bool) (id : PrivateItemId) :
    visible true rows (fileKey desired id) = rows (fileKey desired id) :=
  visible_ofId rows _ id

theorem visible_only (rows : ApplicationRows) (kind : KeyKind) :
    visible true rows (.only kind) = rows (.only kind) :=
  visible_of_usable (ApplicationKey.usable_only kind) rows

theorem SameFiles.visible (h : SameFiles (visible true rows) rows') :
    SameFiles (visible true rows) (visible true rows') := by
  intro key hkey
  have hsame := h key hkey
  by_cases husable : key.usable = true
  · rw [visible_of_usable husable rows', hsame]
  · rw [Cybou.visible, Cybou.visible, if_neg fun hor => husable hor.2, if_neg fun hor => husable hor.2]

theorem Pending.visible {job : Bytes} {items : List PrivateItemId} (h : Pending job items rows rows') :
    Pending job items rows (visible true rows') := by
  refine ⟨fun id => ?_, fun id hid => ?_, fun id hid => ?_, fun id hid => ?_⟩
  · rw [visible_fileKey]
    exact h.file id
  · rw [visible_ofId]
    exact h.named id hid
  · rw [visible_fileKey, visible_ofId]
    exact h.others id hid
  · rw [visible_only]
    exact h.index id hid

variable {incoming : FileRecord}

theorem Imported.visible (h : Imported incoming rows rows') :
    Imported incoming rows (visible true rows') := by
  refine ⟨?_, fun id hid => ?_, fun hdrop => ?_, fun id hid => ?_, ?_, fun id hid => ?_⟩
  · rw [visible_fileKey]
    exact h.written
  · rw [visible_fileKey]
    exact h.file id hid
  · rw [visible_fileKey, visible_ofId]
    exact h.dropped hdrop
  · rw [visible_fileKey, visible_ofId]
    exact h.others id hid
  · rw [visible_only]
    exact h.listed
  · rw [visible_only]
    exact h.index id hid

def LocalCall.FilesEffect (jobs : List PendingPublication) (rows rows' : ApplicationRows) : LocalCall → Prop
  | .queue job _ document _ _ =>
    if job ∈ jobIds jobs then SameFiles rows rows' else Pending job document.items rows rows'
  | .importFile incoming =>
    (alreadyImported rows incoming = true ∧ SameFiles rows rows') ∨
      (alreadyImported rows incoming = false ∧ Imported incoming rows rows')
  | _ => SameFiles rows rows'

theorem SameFiles.refl (rows : ApplicationRows) : SameFiles rows rows := fun _ _ => rfl

variable {env : CallEnv} {jobs : List PendingPublication}

theorem importFile_files (h : Mirrors (Cybou.visible true rows) jobs) :
    Settles env
      (fun after => Mirrors after jobs ∧
        (LocalCall.importFile incoming).FilesEffect jobs (Cybou.visible true rows) after)
      (fun after => Mirrors after jobs ∧ SameFiles (Cybou.visible true rows) after)
      (importFile env rows incoming) := by
  have hkept : SameFiles (Cybou.visible true rows) (Cybou.visible true rows) := SameFiles.refl _
  refine importFile_settles ⟨h, hkept⟩ (fun hearly => ⟨h, .inl ⟨hearly, hkept⟩⟩) fun hnew => ?_
  refine (((importBody_frames incoming).completes fun s hsame => hsame).and (importBody_files incoming)).mono ?_
  intro s hs
  exact ⟨(h.congr hs.1).visible, .inr ⟨Bool.not_eq_true _ ▸ hnew, hs.2.visible⟩⟩

/-- **What one call does to the jobs and to the rows of the Files.** -/
theorem LocalCall.run_files [Crypto] {account : AccountId}
    (h : Mirrors (Cybou.visible true rows) jobs) {call : LocalCall} (hadmissible : call.Admissible rows) :
    Settles env
      (fun after => Mirrors after (call.applied jobs) ∧ call.FilesEffect jobs (Cybou.visible true rows) after)
      (fun after => Mirrors after jobs ∧ SameFiles (Cybou.visible true rows) after)
      (call.run account env rows) := by
  have hkept : Mirrors (Cybou.visible true rows) jobs ∧
      SameFiles (Cybou.visible true rows) (Cybou.visible true rows) := ⟨h, SameFiles.refl _⟩
  cases call with
  | queue job content document recipient draftId =>
    refine queuePublication_settles h hkept (fun hmem => ⟨?_, hkept⟩) fun encoded hnone hid hnil hleaves hencode => ?_
    · rw [LocalCall.applied, LocalCall.FilesEffect, if_pos hmem, if_pos hmem]
      exact hkept
    · rw [LocalCall.applied, if_neg (h.not_mem hnone)]
      refine ((queueBody_spec h hnone hid hnil hleaves hadmissible hencode).and (queueBody_files hencode)).mono ?_
      intro s hs
      refine ⟨hs.1.visible, ?_⟩
      rw [LocalCall.FilesEffect, if_neg (h.not_mem hnone)]
      exact hs.2.visible
  | setStatus job status =>
    refine setPublicationStatus_settles h hkept fun herror hmem => ?_
    refine ((statusBody_spec h herror hmem).and ((statusBody_files job status).completes fun s hsame => hsame)).mono ?_
    exact fun s hs => ⟨hs.1.visible, SameFiles.visible hs.2⟩
  | importFile incoming => exact importFile_files h
  | pendingOutbox limit =>
    refine Settles.both ?_
    rcases pendingOutbox_cases h limit with hsame | hwritten
    · rw [LocalCall.run, hsame]
      exact hkept
    · rw [LocalCall.run, hwritten]
      refine ⟨initialized_mirrors h, ?_⟩
      rw [visible_update (ApplicationKey.usable_only _)]
      intro key hkey
      refine Function.update_of_ne (ApplicationKey.ne_of_kind fun heq => ?_) ..
      rw [heq] at hkey
      cases hkey
  | elsewhere after =>
    have hsame : ∀ key, key.kind.isOutbox = true ∨ key.kind.isFiles = true →
        Cybou.visible true after key = Cybou.visible true rows key := by
      intro key hkey
      simp only [Cybou.visible, hadmissible key hkey]
    exact Settles.both ⟨h.congr fun key hkey => hsame key (.inl hkey), fun key hkey => hsame key (.inr hkey)⟩

end

/-! ### The last job of an item -/

def lastJobFor (jobs : List PendingPublication) (id : PrivateItemId) : Option Bytes :=
  (lastFor jobs id).map (·.jobId)

section

variable {jobs : List PendingPublication} {id : PrivateItemId}

theorem lastFor_mem {job : PendingPublication} (h : lastFor jobs id = some job) : job ∈ jobs :=
  List.mem_of_mem_filter (List.mem_of_getLast? h)

theorem lastJobFor_snoc (jobs : List PendingPublication) (new : PendingPublication) (id : PrivateItemId) :
    lastJobFor (jobs ++ [new]) id = if id ∈ new.document.items then some new.jobId else lastJobFor jobs id := by
  unfold lastJobFor lastFor
  rw [List.filter_append]
  by_cases h : id ∈ new.document.items
  · rw [if_pos h, List.filter_cons_of_pos (by simpa using h), List.filter_nil, List.getLast?_append,
      List.getLast?_singleton, Option.some_or, Option.map_some]
  · rw [if_neg h, List.filter_cons_of_neg (by simpa using h), List.filter_nil, List.append_nil]

theorem lastJobFor_withStatus (job : Bytes) (status : PublicationJobResult) :
    lastJobFor (withStatus jobs job status) id = lastJobFor jobs id := by
  have hdocument : ∀ old : PendingPublication,
      (if old.jobId = job then { old with status := status.saved } else old).document = old.document ∧
      (if old.jobId = job then { old with status := status.saved } else old).jobId = old.jobId := by
    intro old
    split <;> exact ⟨rfl, rfl⟩
  unfold lastJobFor lastFor withStatus
  rw [List.filter_map, List.getLast?_map, Option.map_map]
  have hfilter : (fun old : PendingPublication => decide (id ∈
      (if old.jobId = job then { old with status := status.saved } else old).document.items)) =
      fun old => decide (id ∈ old.document.items) := by
    funext old
    rw [(hdocument old).1]
  have hname : ((·.jobId) ∘ fun old : PendingPublication =>
      if old.jobId = job then { old with status := status.saved } else old) = (·.jobId) := by
    funext old
    exact (hdocument old).2
  rw [hname]
  exact congrArg (fun keep => ((jobs.filter keep).getLast?).map (·.jobId)) hfilter

end

/-! ### What one call does to one item -/

/-- Neither the rows of the item nor its last job change. -/
structure ItemKept (event : LocalEvent) (jobs jobs' : List PendingPublication) (rows rows' : ApplicationRows)
    (id : PrivateItemId) : Prop where
  last : lastJobFor jobs' id = lastJobFor jobs id
  file : rows' (fileKey false id) = rows (fileKey false id)
  pending : rows' (fileKey true id) = rows (fileKey true id) ∧
    rows' (.ofId .fileDesiredJob id) = rows (.ofId .fileDesiredJob id)
  early : ∀ record, event.call = .importFile record → event.answer = .ok true → record.item.itemId = id →
    alreadyImported rows record = true

structure ItemQueued (event : LocalEvent) (job : Bytes) (jobs jobs' : List PendingPublication)
    (rows rows' : ApplicationRows) (id : PrivateItemId) : Prop where
  call : ∀ record, event.call ≠ .importFile record
  fresh : job ∉ jobIds jobs
  last : lastJobFor jobs' id = some job
  file : rows' (fileKey false id) = rows (fileKey false id)
  waits : rows' (.ofId .fileDesiredJob id) = some job

structure ItemImported (incoming : FileRecord) (jobs jobs' : List PendingPublication)
    (rows rows' : ApplicationRows) (id : PrivateItemId) : Prop where
  item : incoming.item.itemId = id
  last : lastJobFor jobs' id = lastJobFor jobs id
  new : alreadyImported rows incoming = false
  imported : Imported incoming rows rows'

section

variable {jobs : List PendingPublication} {rows rows' : ApplicationRows} {call : LocalCall} {event : LocalEvent}

theorem SameFiles.item (h : SameFiles rows rows') {jobs' : List PendingPublication} {id : PrivateItemId}
    (hlast : lastJobFor jobs' id = lastJobFor jobs id)
    (hearly : ∀ record, event.call = .importFile record → event.answer = .ok true → record.item.itemId = id →
      alreadyImported rows record = true) :
    ItemKept event jobs jobs' rows rows' id :=
  ⟨hlast, h _ rfl, ⟨h _ rfl, h _ rfl⟩, hearly⟩

/-- The step for one item: it is kept, queued or imported. -/
theorem LocalCall.FilesEffect.item (h : event.call.FilesEffect jobs rows rows') (id : PrivateItemId) :
    ItemKept event jobs (event.call.applied jobs) rows rows' id ∨
    (∃ job, ItemQueued event job jobs (event.call.applied jobs) rows rows' id) ∨
    ∃ incoming, event.call = .importFile incoming ∧
      ItemImported incoming jobs (event.call.applied jobs) rows rows' id := by
  rcases event with ⟨call, env, answer⟩
  cases call with
  | queue job content document recipient draftId =>
    change (if job ∈ jobIds jobs then SameFiles rows rows' else Pending job document.items rows rows') at h
    by_cases hmem : job ∈ jobIds jobs
    · have happlied : (LocalCall.queue job content document recipient draftId).applied jobs = jobs := if_pos hmem
      rw [if_pos hmem] at h
      rw [happlied]
      exact .inl (h.item rfl (fun _ => nofun))
    · have happlied : (LocalCall.queue job content document recipient draftId).applied jobs =
          jobs ++ [newJob jobs job content document recipient] := if_neg hmem
      rw [if_neg hmem] at h
      rw [happlied]
      have hlast := lastJobFor_snoc jobs (newJob jobs job content document recipient) id
      by_cases hitem : id ∈ document.items
      · exact .inr (.inl ⟨job, fun _ => nofun, hmem, hlast.trans (if_pos hitem), h.file id, h.named id hitem⟩)
      · exact .inl ⟨hlast.trans (if_neg hitem), h.file id, h.others id hitem, fun _ => nofun⟩
  | setStatus job status => exact .inl (SameFiles.item h (lastJobFor_withStatus job status) (fun _ => nofun))
  | importFile incoming =>
    rcases h with ⟨hearly, hsame⟩ | ⟨hnew, himported⟩
    · refine .inl (hsame.item rfl fun record hcall _ _ => ?_)
      cases hcall
      exact hearly
    · by_cases hitem : incoming.item.itemId = id
      · exact .inr (.inr ⟨incoming, rfl, hitem, rfl, hnew, himported⟩)
      · refine .inl ⟨rfl, himported.file id (Ne.symm hitem), himported.others id (.inl (Ne.symm hitem)), ?_⟩
        intro record hcall _ heq
        cases hcall
        exact absurd heq hitem
  | pendingOutbox limit => exact .inl (SameFiles.item h rfl (fun _ => nofun))
  | elsewhere after => exact .inl (SameFiles.item h rfl (fun _ => nofun))

theorem LocalCall.FilesEffect.index (h : call.FilesEffect jobs rows rows') :
    ∀ id ∈ readIds (rows (.only .filesIndex)), id ∈ readIds (rows' (.only .filesIndex)) := by
  have hkept : SameFiles rows rows' →
      ∀ id ∈ readIds (rows (.only .filesIndex)), id ∈ readIds (rows' (.only .filesIndex)) := by
    intro hsame id hid
    rw [hsame (.only .filesIndex) rfl]
    exact hid
  cases call with
  | queue job content document recipient draftId =>
    change (if job ∈ jobIds jobs then SameFiles rows rows' else Pending job document.items rows rows') at h
    split at h
    · exact hkept h
    · exact h.index
  | setStatus job status => exact hkept h
  | importFile incoming => exact h.elim (fun hearly => hkept hearly.2) fun hnew => hnew.2.index
  | pendingOutbox limit => exact hkept h
  | elsewhere after => exact hkept h

theorem jobIds_applied (call : LocalCall) (jobs : List PendingPublication) :
    ∀ id ∈ jobIds jobs, id ∈ jobIds (call.applied jobs) := by
  intro id hid
  cases call with
  | queue job content document recipient draftId =>
    change id ∈ jobIds (ite _ _ _)
    split
    · exact hid
    · rw [jobIds, List.map_append]
      exact List.mem_append_left _ hid
  | setStatus job status =>
    change id ∈ jobIds (withStatus jobs job status)
    rw [jobIds_withStatus]
    exact hid
  | importFile incoming => exact hid
  | pendingOutbox limit => exact hid
  | elsewhere after => exact hid

end

/-! ### Runs -/

/-- The record of a call that was answered with success. -/
def ImportDone (history : List LocalEvent) (record : FileRecord) : Prop :=
  ∃ event ∈ history, event.call = .importFile record ∧ event.answer = .ok true

/-- The record of a call that may have been written. -/
def ImportTried (history : List LocalEvent) (record : FileRecord) : Prop :=
  ∃ event ∈ history, event.call = .importFile record ∧ (event.answer = .ok true ∨ event.env.fate = .stored)

def Finalized (history : List LocalEvent) (rows : ApplicationRows) (id : PrivateItemId) : Prop :=
  (rows (fileKey false id) = none ∧ ∀ record, ImportDone history record → record.item.itemId ≠ id) ∨
    ∃ best, best.item.itemId = id ∧ ImportTried history best ∧
      (∃ encoded, fileRow best = some encoded ∧ rows (fileKey false id) = some encoded) ∧
      ∀ record, ImportDone history record → record.item.itemId = id → record.order ≤ best.order

/-- An item is without a pending value, or waits for the last job that changes it. -/
def Waits (jobs : List PendingPublication) (rows : ApplicationRows) (id : PrivateItemId) : Prop :=
  (rows (fileKey true id) = none ∧ rows (.ofId .fileDesiredJob id) = none) ∨
    ∃ job, lastJobFor jobs id = some job ∧ rows (.ofId .fileDesiredJob id) = some job

def Listed (rows : ApplicationRows) (id : PrivateItemId) : Prop :=
  rows (fileKey false id) ≠ none → id ∈ readIds (rows (.only .filesIndex))

/-- The pending value of an item is gone, or a later job than this one has changed it. -/
def Dropped (job : Bytes) (jobs : List PendingPublication) (rows : ApplicationRows) (id : PrivateItemId) : Prop :=
  job ∈ jobIds jobs ∧
    ((rows (fileKey true id) = none ∧ rows (.ofId .fileDesiredJob id) = none) ∨ lastJobFor jobs id ≠ some job)

section

variable {history : List LocalEvent} {rows rows' : ApplicationRows} {jobs jobs' : List PendingPublication}
  {id : PrivateItemId} {event : LocalEvent}

variable {record incoming : FileRecord}

theorem importDone_snoc : ImportDone (history ++ [event]) record ↔
    ImportDone history record ∨ (event.call = .importFile record ∧ event.answer = .ok true) := by
  simp only [ImportDone, List.mem_append, List.mem_singleton, or_and_right, exists_or, exists_eq_left]

theorem ImportTried.snoc (h : ImportTried history record) :
    ImportTried (history ++ [event]) record := by
  rcases h with ⟨found, hmem, hfound⟩
  exact ⟨found, List.mem_append_left _ hmem, hfound⟩

theorem loadFile_row {encoded : Bytes} (h : fileRow record = some encoded)
    (hrow : rows (fileKey false record.item.itemId) = some encoded) :
    loadFile rows record.item.itemId false =
      some (record.stored (rows (.ofId .fileStar record.item.itemId)).isSome) := by
  have hread := readFileRecord_fileRow (rows (.ofId .fileStar record.item.itemId)).isSome h
  unfold loadFile
  rw [hrow]
  exact hread

theorem exists_of_alreadyImported (h : alreadyImported rows record = true) :
    ∃ old, loadFile rows record.item.itemId false = some old ∧ record.order ≤ old.order := by
  unfold alreadyImported at h
  cases hload : loadFile rows record.item.itemId false with
  | none =>
    rw [hload] at h
    cases h
  | some old =>
    rw [hload, Option.any_some, decide_eq_true_eq] at h
    exact ⟨old, rfl, h⟩

theorem Finalized.snoc (h : Finalized history rows id) (hfile : rows' (fileKey false id) = rows (fileKey false id))
    (hearly : ∀ record, event.call = .importFile record → event.answer = .ok true → record.item.itemId = id →
      alreadyImported rows record = true) : Finalized (history ++ [event]) rows' id := by
  rcases h with ⟨hnone, hnever⟩ | ⟨best, rfl, htried, ⟨encoded, hencoded, hbest⟩, hmax⟩
  · refine .inl ⟨hfile.trans hnone, fun record hdone hitem => ?_⟩
    rcases importDone_snoc.mp hdone with hbefore | ⟨hcall, hanswer⟩
    · exact hnever record hbefore hitem
    · rcases exists_of_alreadyImported (hearly record hcall hanswer hitem) with ⟨old, hold, _⟩
      unfold loadFile at hold
      rw [hitem, hnone] at hold
      cases hold
  · refine .inr ⟨best, rfl, htried.snoc, ⟨encoded, hencoded, hfile.trans hbest⟩, fun record hdone hitem => ?_⟩
    rcases importDone_snoc.mp hdone with hbefore | ⟨hcall, hanswer⟩
    · exact hmax record hbefore hitem
    · rcases exists_of_alreadyImported (hearly record hcall hanswer hitem) with ⟨old, hold, hle⟩
      rw [hitem, loadFile_row hencoded hbest] at hold
      cases hold
      rw [FileRecord.stored_order] at hle
      exact hle

theorem Finalized.imported (h : Finalized history rows id)
    (hcall : event.call = .importFile incoming) (hanswer : event.answer = .ok true ∨ event.env.fate = .stored)
    (himported : ItemImported incoming jobs jobs' rows rows' id) : Finalized (history ++ [event]) rows' id := by
  obtain ⟨rfl, _, hnew, hrows⟩ := himported
  refine .inr ⟨incoming, rfl, ⟨event, List.mem_append_right _ (List.mem_singleton_self _), hcall, hanswer⟩,
    hrows.written, fun record hdone hitem => ?_⟩
  rcases importDone_snoc.mp hdone with hbefore | ⟨hcall', _⟩
  · rcases h with ⟨_, hnever⟩ | ⟨best, hbest, _, ⟨encoded, hencoded, hrow⟩, hmax⟩
    · exact absurd hitem (hnever record hbefore)
    · have hload := loadFile_row hencoded (hbest ▸ hrow)
      rw [alreadyImported, ← hbest, hload, Option.any_some, decide_eq_false_iff_not,
        FileRecord.stored_order, ge_iff_le, not_le] at hnew
      exact (hmax record hbefore hitem).trans hnew.le
  · rw [hcall] at hcall'
    cases hcall'
    exact le_rfl

theorem Waits.kept (h : Waits jobs rows id) (hkept : ItemKept event jobs jobs' rows rows' id) :
    Waits jobs' rows' id := by
  rcases h with ⟨hdesired, hnone⟩ | ⟨job, hlast, hjob⟩
  · exact .inl ⟨hkept.pending.1.trans hdesired, hkept.pending.2.trans hnone⟩
  · exact .inr ⟨job, hkept.last.trans hlast, hkept.pending.2.trans hjob⟩

theorem Waits.imported (h : Waits jobs rows id)
    (himported : ItemImported incoming jobs jobs' rows rows' id) : Waits jobs' rows' id := by
  obtain ⟨rfl, hlast, _, hrows⟩ := himported
  cases hnamed : namesOperation rows incoming with
  | true => exact .inl (hrows.dropped hnamed)
  | false =>
    obtain ⟨hdesired, hjob⟩ := hrows.others incoming.item.itemId (.inr hnamed)
    rcases h with ⟨hnone, hnone'⟩ | ⟨job, hlast', hjob'⟩
    · exact .inl ⟨hdesired.trans hnone, hjob.trans hnone'⟩
    · exact .inr ⟨job, hlast.trans hlast', hjob.trans hjob'⟩

variable {job : Bytes}

theorem Dropped.kept (h : Dropped job jobs rows id) (hids : ∀ id ∈ jobIds jobs, id ∈ jobIds jobs')
    (hkept : ItemKept event jobs jobs' rows rows' id) : Dropped job jobs' rows' id := by
  refine ⟨hids job h.1, ?_⟩
  rcases h.2 with ⟨hdesired, hnone⟩ | hlast
  · exact .inl ⟨hkept.pending.1.trans hdesired, hkept.pending.2.trans hnone⟩
  · exact .inr (hkept.last ▸ hlast)

theorem Dropped.queued {new : Bytes} (h : Dropped job jobs rows id)
    (hids : ∀ id ∈ jobIds jobs, id ∈ jobIds jobs') (hqueued : ItemQueued event new jobs jobs' rows rows' id) :
    Dropped job jobs' rows' id := by
  refine ⟨hids job h.1, .inr fun heq => hqueued.fresh ?_⟩
  rw [hqueued.last, Option.some.injEq] at heq
  rw [heq]
  exact h.1

theorem Dropped.imported (h : Dropped job jobs rows id) (hids : ∀ id ∈ jobIds jobs, id ∈ jobIds jobs')
    (himported : ItemImported incoming jobs jobs' rows rows' id) : Dropped job jobs' rows' id := by
  refine ⟨hids job h.1, ?_⟩
  obtain ⟨rfl, hlast, _, hrows⟩ := himported
  cases hnamed : namesOperation rows incoming with
  | true => exact .inl (hrows.dropped hnamed)
  | false =>
    obtain ⟨hdesired, hjob⟩ := hrows.others incoming.item.itemId (.inr hnamed)
    rcases h.2 with ⟨hnone, hnone'⟩ | hother
    · exact .inl ⟨hdesired.trans hnone, hjob.trans hnone'⟩
    · exact .inr (hlast ▸ hother)

/-- What holds of an item in every state of a run. -/
structure ItemMirror (history : List LocalEvent) (jobs : List PendingPublication) (rows : ApplicationRows)
    (id : PrivateItemId) : Prop where
  finalized : Finalized history rows id
  waits : Waits jobs rows id
  listed : Listed rows id

theorem ItemMirror.kept (h : ItemMirror history jobs rows id) (hkept : ItemKept event jobs jobs' rows rows' id)
    (hindex : ∀ id ∈ readIds (rows (.only .filesIndex)), id ∈ readIds (rows' (.only .filesIndex))) :
    ItemMirror (history ++ [event]) jobs' rows' id :=
  ⟨h.finalized.snoc hkept.file hkept.early, h.waits.kept hkept,
    fun hrow => hindex id (h.listed (hkept.file ▸ hrow))⟩

theorem ItemMirror.queued (h : ItemMirror history jobs rows id)
    (hqueued : ItemQueued event job jobs jobs' rows rows' id)
    (hindex : ∀ id ∈ readIds (rows (.only .filesIndex)), id ∈ readIds (rows' (.only .filesIndex))) :
    ItemMirror (history ++ [event]) jobs' rows' id :=
  ⟨h.finalized.snoc hqueued.file fun record hcall => absurd hcall (hqueued.call record),
    .inr ⟨job, hqueued.last, hqueued.waits⟩, fun hrow => hindex id (h.listed (hqueued.file ▸ hrow))⟩

theorem ItemMirror.imported (h : ItemMirror history jobs rows id)
    (hcall : event.call = .importFile incoming) (hanswer : event.answer = .ok true ∨ event.env.fate = .stored)
    (himported : ItemImported incoming jobs jobs' rows rows' id) : ItemMirror (history ++ [event]) jobs' rows' id :=
  ⟨h.finalized.imported hcall hanswer himported, h.waits.imported himported,
    fun _ => himported.item ▸ himported.imported.listed⟩

end

/-- What holds of the rows in every state of a run. -/
structure FilesMirror (history : List LocalEvent) (jobs : List PendingPublication) (rows : ApplicationRows) :
    Prop where
  mirrors : Mirrors rows jobs
  item : ∀ id, ItemMirror history jobs rows id

section

variable [Crypto] {account : AccountId} {history : List LocalEvent} {rows : ApplicationRows}
  {jobs : List PendingPublication} {call : LocalCall}

/-- **One call keeps what holds of the rows**, and what is dropped stays dropped. -/
theorem FilesMirror.step (account : AccountId) (env : CallEnv)
    (h : FilesMirror history jobs (visible true rows)) (hadmissible : call.Admissible rows) :
    ∃ jobs', FilesMirror (history ++ [⟨call, env, (call.run account env rows).1⟩]) jobs'
        (visible true (call.run account env rows).2) ∧
      ∀ job id, Dropped job jobs (visible true rows) id →
        Dropped job jobs' (visible true (call.run account env rows).2) id := by
  have hsettles : Settles env _ _ (call.run account env rows) := LocalCall.run_files h.mirrors hadmissible
  rcases hsettles with ⟨⟨hmirrors, heffect⟩, hanswer⟩ | ⟨⟨hmirrors, hsame⟩, hanswer⟩
  · obtain ⟨event, hevent⟩ : ∃ event, event = LocalEvent.mk call env (call.run account env rows).1 := ⟨_, rfl⟩
    have hcall : event.call = call := by rw [hevent]
    have hanswer' : event.answer = .ok true ∨ event.env.fate = .stored := by rw [hevent]; exact hanswer
    have hids := jobIds_applied call jobs
    have hindex := heffect.index
    rw [← hcall] at heffect
    have hitem := heffect.item
    rw [hcall] at hitem
    rw [← hevent]
    refine ⟨call.applied jobs, ⟨hmirrors, fun id => ?_⟩, fun job id hdropped => ?_⟩
    · rcases hitem id with hkept | ⟨job, hqueued⟩ | ⟨incoming, hincoming, himported⟩
      · exact (h.item id).kept hkept hindex
      · exact (h.item id).queued hqueued hindex
      · exact (h.item id).imported (hcall.trans hincoming) hanswer' himported
    · rcases hitem id with hkept | ⟨job, hqueued⟩ | ⟨incoming, _, himported⟩
      · exact hdropped.kept hids hkept
      · exact hdropped.queued hids hqueued
      · exact hdropped.imported hids himported
  · have hkept : ∀ id, ItemKept ⟨call, env, (call.run account env rows).1⟩ jobs jobs (visible true rows)
        (visible true (call.run account env rows).2) id :=
      fun id => hsame.item rfl fun record _ hok => absurd hok hanswer
    have hindex : ∀ id ∈ readIds (visible true rows (.only .filesIndex)),
        id ∈ readIds (visible true (call.run account env rows).2 (.only .filesIndex)) := by
      intro id hid
      rw [hsame (.only .filesIndex) rfl]
      exact hid
    exact ⟨jobs, ⟨hmirrors, fun id => (h.item id).kept (hkept id) hindex⟩,
      fun job id hdropped => hdropped.kept (fun _ hmem => hmem) (hkept id)⟩

theorem LocalRun.files {start : ApplicationRows} {earlier : List LocalEvent} {jobs₀ : List PendingPublication}
    (hstart : FilesMirror earlier jobs₀ (visible true start)) (hrun : LocalRun account start history rows) :
    ∃ jobs, FilesMirror (earlier ++ history) jobs (visible true rows) ∧
      ∀ job id, Dropped job jobs₀ (visible true start) id → Dropped job jobs (visible true rows) id := by
  induction hrun with
  | start =>
    rw [List.append_nil]
    exact ⟨jobs₀, hstart, fun _ _ hdropped => hdropped⟩
  | call before call env hadmissible ih =>
    rcases ih with ⟨jobs, hmirror, hdrops⟩
    rcases hmirror.step account env hadmissible with ⟨jobs', hmirror', hdrops'⟩
    rw [← List.append_assoc]
    exact ⟨jobs', hmirror', fun job id hdropped => hdrops' job id (hdrops job id hdropped)⟩

end

section

variable {rows rows' : ApplicationRows} {jobs : List PendingPublication} {incoming : FileRecord}

theorem FilesMirror.fresh (h : ∀ key, key.kind.isOutbox = true ∨ key.kind.isFiles = true → rows key = none) :
    FilesMirror [] [] (visible true rows) := by
  have hnone : ∀ key, key.kind.isOutbox = true ∨ key.kind.isFiles = true → visible true rows key = none := by
    intro key hkey
    rw [visible, h key hkey, ite_self]
  refine ⟨Mirrors.empty fun key hkey => hnone key (.inl hkey), fun id => ⟨.inl ⟨hnone _ (.inr rfl), ?_⟩,
    .inl ⟨hnone _ (.inr rfl), hnone _ (.inr rfl)⟩, fun hrow => absurd (hnone _ (.inr rfl)) hrow⟩⟩
  intro record hdone
  rcases hdone with ⟨event, hmem, _⟩
  cases hmem

variable {job : PendingPublication}

theorem Waits.named (h : Mirrors rows jobs) (hwaits : Waits jobs rows incoming.item.itemId)
    (hlast : lastFor jobs incoming.item.itemId = some job)
    (hrecorded : job.status.operationId = incoming.operationId) (hoperation : incoming.operationId.isNull = false) :
    (rows (fileKey true incoming.item.itemId) = none ∧ rows (.ofId .fileDesiredJob incoming.item.itemId) = none) ∨
      namesOperation rows incoming = true := by
  rcases hwaits with hnone | ⟨name, hname, hrow⟩
  · exact .inl hnone
  · rw [lastJobFor, hlast, Option.map_some, Option.some.injEq] at hname
    rw [← hname] at hrow
    rw [namesOperation_eq h (lastFor_mem hlast) hrow]
    exact .inr (decide_eq_true ⟨hrecorded, hoperation⟩)

/-- **An import that is heeded drops the pending value.** -/
theorem dropped_of_import {env : CallEnv} (h : Mirrors (visible true rows) jobs)
    (hwaits : Waits jobs (visible true rows) incoming.item.itemId)
    (hlast : lastFor jobs incoming.item.itemId = some job)
    (hrecorded : job.status.operationId = incoming.operationId) (hoperation : incoming.operationId.isNull = false)
    (hheeds : overlooks (visible true rows) incoming = false) (hanswer : (importFile env rows incoming).1 = .ok true) :
    Mirrors (visible true (importFile env rows incoming).2) jobs ∧
      Dropped job.jobId jobs (visible true (importFile env rows incoming).2) incoming.item.itemId := by
  have hmem : job.jobId ∈ jobIds jobs := List.mem_map_of_mem (lastFor_mem hlast)
  have hnamed := Waits.named h hwaits hlast hrecorded hoperation
  have hsettles : Settles env _ _ (importFile env rows incoming) := importFile_files h
  rcases hsettles with ⟨⟨hmirrors, heffect⟩, _⟩ | ⟨_, hrefused⟩
  · refine ⟨hmirrors, hmem, .inl ?_⟩
    rcases heffect with ⟨hearly, hsame⟩ | ⟨_, himported⟩
    · rw [hsame _ rfl, hsame _ rfl]
      refine hnamed.resolve_right fun hnamed => ?_
      rw [overlooks, hearly, hnamed] at hheeds
      cases hheeds
    · cases hdrop : namesOperation (visible true rows) incoming with
      | true => exact himported.dropped hdrop
      | false =>
        obtain ⟨hdesired, hjob⟩ := himported.others incoming.item.itemId (.inr hdrop)
        rw [hdesired, hjob]
        exact hnamed.resolve_right fun hnamed => Bool.noConfusion (hdrop.symm.trans hnamed)
  · exact absurd hanswer hrefused

end

/-! ### What is shown -/

section

variable {rows : ApplicationRows} {id : PrivateItemId}

variable {record : FileRecord}

theorem readFileRecord_itemId {starred : Bool} {b r : Bytes}
    (h : readFileRecord id starred b = some (record, r)) : record.item.itemId = id := by
  unfold readFileRecord at h
  obtain ⟨_, _, _, h⟩ := Reader.bind_eq_some.mp h
  obtain ⟨_, _, _, h⟩ := Reader.bind_eq_some.mp h
  obtain ⟨_, _, _, h⟩ := Reader.bind_eq_some.mp h
  obtain ⟨_, h⟩ := Reader.require_bind.mp h
  obtain ⟨_, _, _, h⟩ := Reader.bind_eq_some.mp h
  obtain ⟨_, _, _, h⟩ := Reader.bind_eq_some.mp h
  obtain ⟨_, _, _, h⟩ := Reader.bind_eq_some.mp h
  obtain ⟨deleted, _, _, h⟩ := Reader.bind_eq_some.mp h
  split at h
  · rw [Reader.pure_eq_some] at h
    rw [← h.1]
    rfl
  · obtain ⟨_, _, _, h⟩ := Reader.bind_eq_some.mp h
    obtain ⟨_, _, h⟩ := Reader.ofOption_bind.mp h
    split at h
    · obtain ⟨hitem, h⟩ := Reader.require_bind.mp h
      rw [Reader.pure_eq_some] at h
      rw [← h.1]
      exact hitem
    · cases h

theorem loadFile_itemId {desired : Bool} (h : loadFile rows id desired = some record) :
    record.item.itemId = id := by
  unfold loadFile at h
  obtain ⟨encoded, _, h⟩ := Option.bind_eq_some_iff.mp h
  exact readFileRecord_itemId (Reader.whole_eq_some.mp h)

theorem mem_listFiles (hlisted : loadFile rows id true ≠ none → id ∈ readIds (rows (.only .filesIndex))) :
    (record ∈ listFiles rows ∧ record.item.itemId = id) ↔ getFile rows id = some record := by
  unfold listFiles getFile
  rw [List.mem_filterMap]
  constructor
  · intro h
    rcases h with ⟨⟨other, _, hload⟩, rfl⟩
    have hother : record.item.itemId = other := loadFile_itemId (Option.eq_some_of_filter_eq_some hload)
    rw [hother]
    exact hload
  · intro h
    have hload := Option.eq_some_of_filter_eq_some h
    exact ⟨⟨id, hlisted (by rw [hload]; exact nofun), h⟩, loadFile_itemId hload⟩

theorem getFile_row {best : FileRecord} {encoded : Bytes} (h : fileRow best = some encoded)
    (hrow : rows (fileKey false best.item.itemId) = some encoded)
    (hnone : rows (fileKey true best.item.itemId) = none) :
    getFile rows best.item.itemId = if best.deleted = true then none
      else some { best with starred := (rows (.ofId .fileStar best.item.itemId)).isSome } := by
  have hload : loadFile rows best.item.itemId true = loadFile rows best.item.itemId false := by
    unfold loadFile
    rw [if_pos rfl, hnone]
    rfl
  rw [getFile, hload, loadFile_row h hrow, FileRecord.stored]
  split
  · next hdeleted => rw [Option.filter_some, if_neg (by simp [hdeleted])]
  · next hkept => rw [Option.filter_some, if_pos (by simp [hkept])]

end

section

variable [Crypto] {account : AccountId}

/-- **The imported record is shown**, not the pending value, once the record of an item's last job
is imported with its operation in the status of the job, unless `ImportFile` overlooks it. -/
theorem filesOverlay_converges {start rows₁ rows₂ : ApplicationRows} {before after : List LocalEvent}
    {incoming : FileRecord} {env : CallEnv} {jobs₁ jobs₂ : List PendingPublication} {job : PendingPublication}
    (hstart : ∀ key, key.kind.isOutbox = true ∨ key.kind.isFiles = true → start key = none)
    (hbefore : LocalRun account start before rows₁) (hjobs₁ : outbox (visible true rows₁) = .ok jobs₁)
    (hlast : lastFor jobs₁ incoming.item.itemId = some job)
    (hrecorded : job.status.operationId = incoming.operationId) (hoperation : incoming.operationId.isNull = false)
    (hheeds : overlooks (visible true rows₁) incoming = false)
    (hanswer : (importFile env rows₁ incoming).1 = .ok true)
    (hafter : LocalRun account (importFile env rows₁ incoming).2 after rows₂)
    (hjobs₂ : outbox (visible true rows₂) = .ok jobs₂)
    (hstill : lastJobFor jobs₂ incoming.item.itemId = some job.jobId) :
    ∃ best, best.item.itemId = incoming.item.itemId ∧
      ImportTried (before ++ [⟨.importFile incoming, env, .ok true⟩] ++ after) best ∧
      (∀ record, ImportDone (before ++ [⟨.importFile incoming, env, .ok true⟩] ++ after) record →
        record.item.itemId = incoming.item.itemId → record.order ≤ best.order) ∧
      (getFile (visible true rows₂) incoming.item.itemId = if best.deleted = true then none
        else some { best with
          starred := (visible true rows₂ (.ofId .fileStar incoming.item.itemId)).isSome }) ∧
      ∀ record, (record ∈ listFiles (visible true rows₂) ∧ record.item.itemId = incoming.item.itemId) ↔
        getFile (visible true rows₂) incoming.item.itemId = some record := by
  have hunique : ∀ {rows : ApplicationRows} {jobs jobs' : List PendingPublication}, Mirrors rows jobs →
      outbox rows = .ok jobs' → jobs = jobs' := fun h hread => Except.ok.inj (h.outbox.symm.trans hread)
  rcases hbefore.files (FilesMirror.fresh hstart) with ⟨jobs, h₁, _⟩
  rw [List.nil_append] at h₁
  obtain rfl := hunique h₁.mirrors hjobs₁
  obtain ⟨hmirrors, hdropped⟩ := dropped_of_import h₁.mirrors (h₁.item _).waits hlast hrecorded hoperation
    hheeds hanswer
  have hadmissible : (LocalCall.importFile incoming).Admissible rows₁ := trivial
  rcases h₁.step account env hadmissible with ⟨jobs', h, _⟩
  change FilesMirror (before ++ [⟨.importFile incoming, env, (importFile env rows₁ incoming).1⟩]) jobs'
    (visible true (importFile env rows₁ incoming).2) at h
  rw [hanswer] at h
  obtain rfl := hunique h.mirrors hmirrors.outbox
  rcases hafter.files h with ⟨jobs, h₂, hdrops⟩
  obtain rfl := hunique h₂.mirrors hjobs₂
  obtain ⟨hnone, _⟩ := (hdrops job.jobId incoming.item.itemId hdropped).2.resolve_right fun hlater => hlater hstill
  have hdone : ImportDone (before ++ [⟨.importFile incoming, env, .ok true⟩] ++ after) incoming :=
    ⟨_, List.mem_append_left _ (List.mem_append_right _ (List.mem_singleton_self _)), rfl, rfl⟩
  rcases (h₂.item incoming.item.itemId).finalized with ⟨_, hnever⟩ |
    ⟨best, hbest, htried, ⟨encoded, hencoded, hrow⟩, hmax⟩
  · exact absurd rfl (hnever incoming hdone)
  · refine ⟨best, hbest, htried, hmax, ?_, fun record => mem_listFiles fun _ => ?_⟩
    · rw [← hbest] at hrow hnone ⊢
      exact getFile_row hencoded hrow hnone
    · refine (h₂.item _).listed ?_
      rw [hrow]
      exact nofun

end

/-! ### A folder -/

section Sample

set_option maxRecDepth 10000

attribute [local instance] Crypto.sample

def sampleFolder : FileItem :=
  { FileItem.blank (FixedBytes.leading 31 5) with kind := .folder, name := ascii "d", modifiedMs := 1 }

def sampleCreated : LocalCall :=
  .queue (ascii "a") sampleContent sampleFolder.document none []

def sampleFolderRecord : FileRecord where
  item := sampleFolder
  operationId := sampleSecuring.operationId
  order := ⟨1, 0, 0⟩
  deleted := false
  starred := false

def sampleCreatedRows : ApplicationRows := (sampleCreated.run sampleOwner sampleCallEnv noRows).2

/-- The folder is imported, its operation is recorded, and it is imported again. -/
def sampleOverlooked : List (Except RuntimeError Bool) × ApplicationRows :=
  let imported := importFile sampleCallEnv sampleCreatedRows sampleFolderRecord
  let recorded := setPublicationStatus sampleCallEnv imported.2 (ascii "a") sampleSecuring
  let again := importFile sampleCallEnv recorded.2 sampleFolderRecord
  ([imported.1, recorded.1, again.1], again.2)

theorem filesOverlay_stays :
    (sampleCreated.run sampleOwner sampleCallEnv noRows).1 = .ok true ∧
    sampleOverlooked.1 = [.ok true, .ok true, .ok true] ∧
    (getFile (visible true sampleOverlooked.2) sampleFolder.itemId).map (·.order) = some .zero ∧
    (loadFile (visible true sampleOverlooked.2) sampleFolder.itemId false).map (·.order) =
      some sampleFolderRecord.order := by
  decide

def sampleRecordedRows : ApplicationRows :=
  (setPublicationStatus sampleCallEnv sampleCreatedRows (ascii "a") sampleSecuring).2

def sampleRecordedJob : PendingPublication where
  jobId := ascii "a"
  sequence := 1
  content := sampleContent
  document := sampleFolder.document
  recipient := none
  status := sampleSecuring.saved

theorem filesOverlay_converges_sample :
    ∃ best : FileRecord, sampleFolderRecord.order ≤ best.order ∧
      getFile (visible true (importFile sampleCallEnv sampleRecordedRows sampleFolderRecord).2) sampleFolder.itemId =
        if best.deleted = true then none
        else some { best with
          starred := (visible true (importFile sampleCallEnv sampleRecordedRows sampleFolderRecord).2
            (.ofId .fileStar sampleFolder.itemId)).isSome } := by
  have hbefore : LocalRun sampleOwner noRows [] noRows := .start
  have hcreated := hbefore.call sampleCreated sampleCallEnv nofun
  have hrecorded := hcreated.call (.setStatus (ascii "a") sampleSecuring) sampleCallEnv trivial
  have hjobs : outbox (visible true sampleRecordedRows) = .ok [sampleRecordedJob] := by decide
  have hlast : lastFor [sampleRecordedJob] sampleFolder.itemId = some sampleRecordedJob := by decide
  have hheeds : overlooks (visible true sampleRecordedRows) sampleFolderRecord = false := by decide
  have hanswer : (importFile sampleCallEnv sampleRecordedRows sampleFolderRecord).1 = .ok true := by decide
  have hstill : lastJobFor [sampleRecordedJob] sampleFolder.itemId = some sampleRecordedJob.jobId := by
    decide
  have hjobs' : outbox (visible true (importFile sampleCallEnv sampleRecordedRows sampleFolderRecord).2) =
      .ok [sampleRecordedJob] := by decide
  rcases filesOverlay_converges (fun _ _ => rfl) hrecorded hjobs hlast rfl (by decide) hheeds hanswer .start
    hjobs' hstill with ⟨best, _, _, hmax, hshown, _⟩
  refine ⟨best, hmax sampleFolderRecord ⟨_, List.mem_append_left _ (List.mem_append_right _
    (List.mem_singleton_self _)), rfl, rfl⟩ rfl, hshown⟩

end Sample

end Cybou
