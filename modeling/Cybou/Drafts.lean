import Cybou.OutboxRuns

/-! # Saved drafts (`local_application_service.cpp`)

`SaveDraft` bounds the texts of a draft and the number of its attachments.  `ListDrafts`
bounds the strings of each attachment as well, and passes over a draft that it cannot
read.  A draft is therefore listed as it was saved exactly if its attachments are such as
`ListDrafts` reads (`draft_kept_iff`).
-/

namespace Cybou

open Library

/-! ### Calls -/

def putAttachment (attachment : DraftAttachment) : Bytes :=
  putString attachment.name ++ le64 attachment.logicalSize ++ putString attachment.sourcePath ++
    putString attachment.referenceId

def draftRow (draft : MailDraft) : Bytes :=
  DRAFT_MAGIC ++ putString draft.draftId ++ putString draft.toText ++ putString draft.subject ++
    putString draft.body ++ le64 draft.updatedMs ++ le32Of draft.attachments.length ++
    Reader.concat putAttachment draft.attachments

def draftKey (id : Bytes) : ApplicationKey := ⟨.draft, id⟩

def MailDraft.savable (draft : MailDraft) : Bool :=
  validDraftId draft.draftId && decide (draft.toText.length ≤ MAX_DRAFT_TEXT) &&
    decide (draft.subject.length ≤ MAX_DRAFT_TEXT) && decide (draft.body.length ≤ MAX_DRAFT_TEXT) &&
    decide (draft.attachments.length ≤ MAX_DRAFT_ATTACHMENTS)

def saveDraftBody (draft : MailDraft) : Staging Bool := do
  if (← putRow (draftKey draft.draftId) (draftRow draft)) = false then return false
  let names := readNamesRow (← getRow (.only .draftIndex))
  if draft.draftId ∈ names then return true
  putRow (.only .draftIndex) (namesRow (names ++ [draft.draftId]))

def saveDraft (env : CallEnv) (rows : ApplicationRows) (draft : MailDraft) :
    Except RuntimeError Bool × ApplicationRows :=
  if draft.savable = false then (.ok false, rows)
  else transact env.unlocked env.fate rows (saveDraftBody draft)

/-- The batch of `DeleteDraft`. -/
def removeDraftBody (draftId : Bytes) (keepSendBinding : Bool) : Staging Bool := do
  let names := readNamesRow (← getRow (.only .draftIndex))
  let _ ← eraseRow (draftKey draftId)
  if keepSendBinding = true then
    putRow (.only .draftIndex) (namesRow (names.filter (· ≠ draftId)))
  else
    let _ ← eraseRow ⟨.draftSend, draftId⟩
    let _ ← eraseRow ⟨.draftSendContent, draftId⟩
    putRow (.only .draftIndex) (namesRow (names.filter (· ≠ draftId)))

/-- `DeleteDraft`, called from outside; `deleteDraft` is the one in the batch of a job. -/
def removeDraft (env : CallEnv) (rows : ApplicationRows) (draftId : Bytes) (keepSendBinding : Bool) :
    Except RuntimeError Bool × ApplicationRows :=
  if validDraftId draftId = false then (.ok false, rows)
  else transact env.unlocked env.fate rows (removeDraftBody draftId keepSendBinding)

inductive DraftCall where
  | save (env : CallEnv) (draft : MailDraft)
  | delete (env : CallEnv) (draftId : Bytes) (keepSendBinding : Bool)

namespace DraftCall

def draftId : DraftCall → Bytes
  | save _ draft => draft.draftId
  | delete _ draftId _ => draftId

def run (rows : ApplicationRows) : DraftCall → Except RuntimeError Bool × ApplicationRows
  | save env draft => saveDraft env rows draft
  | delete env draftId keepSendBinding => removeDraft env rows draftId keepSendBinding

end DraftCall

def afterDraftCalls (rows : ApplicationRows) (calls : List DraftCall) : ApplicationRows :=
  calls.foldl (fun rows call => (call.run rows).2) rows

/-! ### What they are for -/

def draftNames (rows : ApplicationRows) : List Bytes := readNamesRow (rows (.only .draftIndex))

/-- `ListDrafts` returns the draft, with every field, once and nothing else under its id, and
    the index names it once. -/
structure DraftKept (rows : ApplicationRows) (draft : MailDraft) : Prop where
  listed : (listDrafts (visible true rows)).filter (fun other => decide (other.draftId = draft.draftId)) = [draft]
  named : (draftNames rows).count draft.draftId = 1

structure DraftAttachment.Readable (attachment : DraftAttachment) : Prop where
  name : attachment.name.length ≤ 4096
  sourcePath : attachment.sourcePath.length ≤ 32768
  referenceId : attachment.referenceId.length ≤ 256

/-! ### Reading a row -/

theorem getString_exact {maximum : Nat} (hmax : maximum < 2 ^ 32) :
    Reader.Exact (getString maximum) putString fun text => text.length ≤ maximum := by
  intro b text r
  simp only [getString, Reader.count_exact.bind, Reader.require_bind, Reader.bytes_eq_some]
  constructor
  · rintro ⟨size, rest, -, rfl, hsize, rfl, rfl⟩
    exact ⟨hsize, by rw [putString, List.append_assoc]⟩
  · rintro ⟨htext, rfl⟩
    exact ⟨text.length, text ++ r, lt_of_le_of_lt htext hmax, by rw [putString, List.append_assoc], htext, rfl, rfl⟩

theorem readDraftAttachment_exact :
    Reader.Exact readDraftAttachment putAttachment DraftAttachment.Readable := by
  intro b attachment r
  have hname := getString_exact (show 4096 < 2 ^ 32 by decide)
  have hpath := getString_exact (show 32768 < 2 ^ 32 by decide)
  have hreference := getString_exact (show 256 < 2 ^ 32 by decide)
  simp only [readDraftAttachment, hname.bind, hpath.bind, hreference.bind, Reader.u64_exact.bind,
    Reader.pure_eq_some, true_and]
  constructor
  · rintro ⟨name, _, hname, rfl, size, _, rfl, path, _, hpath, rfl, reference, _, hreference, rfl, rfl, rfl⟩
    exact ⟨⟨hname, hpath, hreference⟩, by simp only [putAttachment, List.append_assoc]⟩
  · rintro ⟨hreadable, rfl⟩
    refine ⟨attachment.name, _, hreadable.name, ?_, attachment.logicalSize, _, rfl, attachment.sourcePath, _,
      hreadable.sourcePath, rfl, attachment.referenceId, _, hreadable.referenceId, rfl, rfl, rfl⟩
    simp only [putAttachment, List.append_assoc]

structure MailDraft.Readable (draft : MailDraft) : Prop where
  draftId : draft.draftId.length ≤ 64
  toText : draft.toText.length ≤ MAX_DRAFT_TEXT
  subject : draft.subject.length ≤ MAX_DRAFT_TEXT
  body : draft.body.length ≤ MAX_DRAFT_TEXT
  count : draft.attachments.length ≤ MAX_DRAFT_ATTACHMENTS
  attachments : ∀ attachment ∈ draft.attachments, attachment.Readable

theorem readDraft_exact (id : Bytes) :
    Reader.Exact (readDraft id) draftRow fun draft => draft.draftId = id ∧ draft.Readable := by
  intro b draft r
  have hid := getString_exact (show 64 < 2 ^ 32 by decide)
  have htext := getString_exact (show MAX_DRAFT_TEXT < 2 ^ 32 by decide)
  simp only [readDraft, (Reader.literal_exact DRAFT_MAGIC).bind, hid.bind, htext.bind, Reader.u64_exact.bind, Reader.u32_exact.bind,
    Reader.require_bind, (Reader.repeatN_exact readDraftAttachment_exact _).bind, Reader.pure_eq_some, true_and]
  constructor
  · rintro ⟨-, _, rfl, draftId, _, hdraftId, rfl, toText, _, htoText, rfl, subject, _, hsubject, rfl, body, _, hbody, rfl,
      updatedMs, _, rfl, count, _, rfl, ⟨hsame, hcount⟩, attachments, _, ⟨hlength, hattachments⟩, rfl, rfl, rfl⟩
    refine ⟨⟨hsame, hdraftId, htoText, hsubject, hbody, hlength.trans_le hcount, hattachments⟩, ?_⟩
    have hle32 : le32Of attachments.length = le32 count := by rw [hlength, le32Of, UInt32.ofNat_toNat]
    simp only [draftRow, hle32, List.append_assoc]
  · rintro ⟨⟨hsame, hreadable⟩, rfl⟩
    have hcount : (UInt32.ofNat draft.attachments.length).toNat = draft.attachments.length :=
      UInt32.toNat_ofNat_of_lt' (lt_of_le_of_lt hreadable.count (by decide))
    refine ⟨(), _, ?_, draft.draftId, _, hreadable.draftId, rfl, draft.toText, _, hreadable.toText, rfl, draft.subject, _,
      hreadable.subject, rfl, draft.body, _, hreadable.body, rfl, draft.updatedMs, _, rfl,
      UInt32.ofNat draft.attachments.length, _, rfl, ⟨hsame, hcount.trans_le hreadable.count⟩, draft.attachments, r,
      ⟨hcount.symm, hreadable.attachments⟩, rfl, rfl, rfl⟩
    simp only [draftRow, le32Of, List.append_assoc]

/-! ### A row tells its draft apart -/

theorem putString_inj {text text' r r' : Bytes} (h : (putString text ++ r).length < 2 ^ 32)
    (heq : putString text ++ r = putString text' ++ r') : text = text' ∧ r = r' := by
  have h' : (putString text' ++ r').length < 2 ^ 32 := by rwa [← heq]
  rw [putString, List.length_append, List.length_append] at h h'
  exact (getString_exact (show 2 ^ 32 - 1 < 2 ^ 32 by decide)).append_inj (by omega) (by omega) heq

theorem putAttachment_inj {attachment attachment' : DraftAttachment} {r r' : Bytes}
    (h : (putAttachment attachment ++ r).length < 2 ^ 32)
    (heq : putAttachment attachment ++ r = putAttachment attachment' ++ r') : attachment = attachment' ∧ r = r' := by
  simp only [putAttachment, List.append_assoc] at h heq
  obtain ⟨hname, heq⟩ := putString_inj h heq
  have hsmaller := h
  rw [List.length_append] at hsmaller
  obtain ⟨hsize, heq⟩ := Reader.u64_exact.append_inj trivial trivial heq
  have hpaths : (putString attachment.sourcePath ++ (putString attachment.referenceId ++ r)).length < 2 ^ 32 := by
    rw [List.length_append] at hsmaller
    omega
  obtain ⟨hpath, heq⟩ := putString_inj hpaths heq
  rw [List.length_append] at hpaths
  obtain ⟨hreference, hrest⟩ := putString_inj (by omega) heq
  cases attachment
  cases attachment'
  dsimp only at hname hsize hpath hreference
  subst hname hsize hpath hreference
  exact ⟨rfl, hrest⟩

theorem concat_putAttachment_inj {attachments attachments' : List DraftAttachment}
    (h : (Reader.concat putAttachment attachments).length < 2 ^ 32)
    (hlength : attachments.length = attachments'.length)
    (heq : Reader.concat putAttachment attachments = Reader.concat putAttachment attachments') :
    attachments = attachments' := by
  induction attachments generalizing attachments' with
  | nil => exact (List.length_eq_zero_iff.mp hlength.symm).symm
  | cons attachment rest ih =>
    cases attachments' with
    | nil => cases hlength
    | cons attachment' rest' =>
      rw [Reader.concat_cons] at h heq
      rw [Reader.concat_cons] at heq
      obtain ⟨rfl, hrest⟩ := putAttachment_inj h heq
      rw [List.length_append] at h
      rw [ih (by omega) (Nat.succ.inj hlength) hrest]

variable {draft : MailDraft}

theorem draftRow_inj {draft' : MailDraft} (h : (draftRow draft).length < 2 ^ 32)
    (hcount : draft.attachments.length ≤ MAX_DRAFT_ATTACHMENTS)
    (hcount' : draft'.attachments.length ≤ MAX_DRAFT_ATTACHMENTS) (heq : draftRow draft = draftRow draft') :
    draft = draft' := by
  have hmax : MAX_DRAFT_ATTACHMENTS < 2 ^ 32 := by decide
  simp only [draftRow, List.append_assoc] at h heq
  rw [List.append_cancel_left_eq] at heq
  rw [List.length_append] at h
  obtain ⟨hid, heq⟩ := putString_inj (by omega) heq
  rw [List.length_append] at h
  obtain ⟨hto, heq⟩ := putString_inj (by omega) heq
  rw [List.length_append] at h
  obtain ⟨hsubject, heq⟩ := putString_inj (by omega) heq
  rw [List.length_append] at h
  obtain ⟨hbody, heq⟩ := putString_inj (by omega) heq
  rw [List.length_append, List.length_append, List.length_append] at h
  obtain ⟨hupdated, heq⟩ := Reader.u64_exact.append_inj trivial trivial heq
  obtain ⟨hlength, heq⟩ := Reader.count_exact.append_inj (lt_of_le_of_lt hcount hmax)
    (lt_of_le_of_lt hcount' hmax) heq
  have hattachments := concat_putAttachment_inj (by omega) hlength heq
  cases draft
  cases draft'
  dsimp only at hid hto hsubject hbody hupdated hattachments
  subst hid hto hsubject hbody hupdated hattachments
  rfl

theorem MailDraft.readable_iff (h : draft.savable = true) :
    draft.Readable ↔ ∀ attachment ∈ draft.attachments, attachment.Readable := by
  simp only [savable, Bool.and_eq_true, decide_eq_true_eq] at h
  obtain ⟨⟨⟨⟨hid, hto⟩, hsubject⟩, hbody⟩, hcount⟩ := h
  exact ⟨fun hreadable => hreadable.attachments,
    fun hattachments => ⟨length_le_of_valid hid, hto, hsubject, hbody, hcount, hattachments⟩⟩

theorem MailDraft.count_le (h : draft.savable = true) :
    draft.attachments.length ≤ MAX_DRAFT_ATTACHMENTS := by
  simp only [savable, Bool.and_eq_true, decide_eq_true_eq] at h
  exact h.2

theorem readDraft_draftRow (h : draft.Readable) :
    (readDraft draft.draftId).whole (draftRow draft) = some draft :=
  (readDraft_exact draft.draftId).whole.mpr ⟨⟨rfl, h⟩, rfl⟩

theorem readDraft_draftRow_of_not (hsaved : draft.savable = true)
    (hrow : (draftRow draft).length ≤ MAX_VALUE_BYTES) (h : ¬draft.Readable) :
    (readDraft draft.draftId).whole (draftRow draft) = none := by
  by_contra hsome
  obtain ⟨other, hother⟩ := Option.ne_none_iff_exists'.mp hsome
  obtain ⟨⟨-, hreadable⟩, heq⟩ := (readDraft_exact draft.draftId).whole.mp hother
  have hsame : draft = other :=
    draftRow_inj (lt_of_le_of_lt hrow (by decide)) (MailDraft.count_le hsaved) hreadable.count heq
  rw [← hsame] at hreadable
  exact h hreadable

/-! ### The list -/

variable {id : Bytes}

theorem draftId_of_read {row : Bytes} (h : (readDraft id).whole row = some draft) :
    draft.draftId = id :=
  ((readDraft_exact id).whole.mp h).1.1

def listedDraft (rows : ApplicationRows) (name : Bytes) : Option MailDraft :=
  (rows (draftKey name)).bind (readDraft name).whole

theorem filter_filterMap_listedDraft (rows : ApplicationRows) (names : List Bytes) (id : Bytes) :
    (names.filterMap (listedDraft rows)).filter (fun draft => decide (draft.draftId = id)) =
      (names.filter (· == id)).filterMap (listedDraft rows) := by
  induction names with
  | nil => rfl
  | cons name rest ih =>
    cases hread : listedDraft rows name with
    | none =>
      rw [List.filterMap_cons_none hread, ih, List.filter_cons]
      by_cases hname : name = id
      · rw [if_pos (beq_iff_eq.mpr hname), List.filterMap_cons_none hread]
      · rw [if_neg (mt beq_iff_eq.mp hname)]
    | some draft =>
      obtain ⟨row, -, hrow⟩ := Option.bind_eq_some_iff.mp hread
      have hid := draftId_of_read hrow
      have hsame : decide (draft.draftId = id) = true ↔ name = id := by rw [decide_eq_true_eq, hid]
      rw [List.filterMap_cons_some hread, List.filter_cons, List.filter_cons]
      by_cases hname : name = id
      · rw [if_pos (hsame.mpr hname), if_pos (beq_iff_eq.mpr hname), List.filterMap_cons_some hread, ih]
      · rw [if_neg (mt hsame.mp hname), if_neg (mt beq_iff_eq.mp hname), ih]

variable {rows : ApplicationRows}

theorem filter_listDrafts (hnamed : (draftNames rows).count id = 1) :
    (listDrafts rows).filter (fun draft => decide (draft.draftId = id)) = (listedDraft rows id).toList := by
  have hperm : ((listDrafts rows).filter fun draft => decide (draft.draftId = id)).Perm
      (listedDraft rows id).toList := by
    refine ((List.mergeSort_perm _ _).filter _).trans (List.Perm.of_eq ?_)
    refine (filter_filterMap_listedDraft rows (draftNames rows) id).trans ?_
    rw [List.filter_beq, hnamed]
    cases hread : listedDraft rows id with
    | none => exact List.filterMap_cons_none hread
    | some draft => exact List.filterMap_cons_some hread
  cases hread : listedDraft rows id with
  | none =>
    rw [hread] at hperm
    exact hperm.eq_nil
  | some draft =>
    rw [hread] at hperm
    exact List.perm_singleton.mp hperm

/-! ### What a call changes -/

theorem listedName_of_mem_splitNames {current encoded : Bytes} (h : 10 ∉ current) :
    ∀ name ∈ splitNames current encoded, ListedName name := by
  induction encoded generalizing current with
  | nil => exact fun name hname => absurd hname List.not_mem_nil
  | cons c encoded ih =>
    rw [splitNames]
    by_cases hnewline : c = 10
    · rw [if_pos hnewline]
      by_cases hempty : current = []
      · rw [if_pos hempty]
        exact ih List.not_mem_nil
      · rw [if_neg hempty]
        intro name hname
        rcases List.mem_cons.mp hname with rfl | hname
        · exact ⟨hempty, h⟩
        · exact ih List.not_mem_nil name hname
    · rw [if_neg hnewline]
      refine ih ?_
      rw [List.mem_append, List.mem_singleton, not_or]
      exact ⟨h, Ne.symm hnewline⟩

theorem listedName_of_mem_readNamesRow {row : Option Bytes} {name : Bytes} (h : name ∈ readNamesRow row) :
    ListedName name := by
  cases row with
  | none => exact absurd h List.not_mem_nil
  | some encoded => exact listedName_of_mem_splitNames List.not_mem_nil name h

/-- A call about one draft leaves the others, and an index without doubles. -/
structure KeepsOthers (rows rows' : ApplicationRows) (id : Bytes) : Prop where
  kept : ∀ other, other ≠ id → rows' (draftKey other) = rows (draftKey other)
  named : ∀ other, other ≠ id → (other ∈ draftNames rows' ↔ other ∈ draftNames rows)
  nodup : (draftNames rows).Nodup → (draftNames rows').Nodup

theorem KeepsOthers.refl (rows : ApplicationRows) (id : Bytes) : KeepsOthers rows rows id :=
  ⟨fun _ _ => rfl, fun _ _ => Iff.rfl, fun h => h⟩

/-- What the batches do to the staged rows; `present` tells whether the draft stays. -/
structure Edits (s s' : StagedRows) (id : Bytes) (present : Bool) : Prop where
  kept : ∀ other, other ≠ id → s'.rows (draftKey other) = s.rows (draftKey other)
  names : draftNames s'.rows = (if present = true then
    (if id ∈ draftNames s.rows then draftNames s.rows else draftNames s.rows ++ [id])
    else (draftNames s.rows).filter (· ≠ id))

theorem draftKey_ne {other : Bytes} (h : other ≠ id) : draftKey other ≠ draftKey id :=
  fun heq => h (congrArg ApplicationKey.rest heq)

theorem draftKey_ne_of_kind {kind : KeyKind} {rest : Bytes} (h : kind ≠ .draft) : draftKey id ≠ ⟨kind, rest⟩ :=
  ApplicationKey.ne_of_kind h.symm

variable {s : StagedRows}

theorem draftNames_with {key : ApplicationKey} {value : Option Bytes} (h : key.kind ≠ .draftIndex) :
    draftNames (s.with key value).rows = draftNames s.rows :=
  congrArg readNamesRow (StagedRows.with_other (ApplicationKey.only_ne h.symm))

theorem draftNames_put {names : List Bytes} (h : ∀ name ∈ names, ListedName name) :
    draftNames (s.with (.only .draftIndex) (some (namesRow names))).rows = names := by
  rw [draftNames, StagedRows.with_same]
  exact readNamesRow_namesRow h

/-- A saved draft is in its row, and only its rows change. -/
theorem wp_saveDraftBody (hvalid : validDraftId draft.draftId = true) :
    Proc.wp (saveDraftBody draft) (fun ok s' => ok = true → Edits s s' draft.draftId true ∧
        s'.rows (draftKey draft.draftId) = some (draftRow draft) ∧ (draftRow draft).length ≤ MAX_VALUE_BYTES)
      (fun _ _ => False) s := by
  rw [saveDraftBody, Proc.wp_bind]
  refine wp_putRow (fun htaken => ?_) fun _ hfalse => by cases hfalse
  rw [if_neg Bool.noConfusion, wp_getRow_bind]
  have hlength : (draftRow draft).length ≤ MAX_VALUE_BYTES := by
    simp only [StagedRows.takes, Bool.and_eq_true, decide_eq_true_eq] at htaken
    exact htaken.2
  have hkind : (draftKey draft.draftId).kind ≠ .draftIndex := by
    intro h
    cases h
  have hnames : readNamesRow ((s.with (draftKey draft.draftId) (some (draftRow draft))).rows (.only .draftIndex)) =
      draftNames s.rows := draftNames_with hkind
  have hother (other : Bytes) (hne : other ≠ draft.draftId) :
      (s.with (draftKey draft.draftId) (some (draftRow draft))).rows (draftKey other) = s.rows (draftKey other) :=
    StagedRows.with_other (draftKey_ne hne)
  rw [hnames]
  refine Proc.wp_refuse (fun hmem _ => ?_) fun hmem => ?_
  · refine ⟨⟨hother, ?_⟩, StagedRows.with_same _, hlength⟩
    rw [if_pos rfl, if_pos hmem]
    exact hnames
  · refine wp_putRow (fun _ _ => ?_) fun _ hfalse => by cases hfalse
    have hindex (id : Bytes) : draftKey id ≠ .only .draftIndex := draftKey_ne_of_kind (by decide)
    refine ⟨⟨fun other hne => ?_, ?_⟩, ?_, hlength⟩
    · rw [StagedRows.with_other (hindex other)]
      exact hother other hne
    · rw [if_pos rfl, if_neg hmem]
      refine draftNames_put fun name hname => ?_
      rcases List.mem_append.mp hname with hold | hnew
      · exact listedName_of_mem_readNamesRow hold
      · rw [List.mem_singleton.mp hnew]
        exact listedName_of_valid hvalid
    · rw [StagedRows.with_other (hindex _)]
      exact StagedRows.with_same _

theorem wp_removeDraftBody {draftId : Bytes} {keepSendBinding : Bool} :
    Proc.wp (removeDraftBody draftId keepSendBinding) (fun ok s' => ok = true → Edits s s' draftId false)
      (fun _ _ => False) s := by
  have hindex (id : Bytes) : draftKey id ≠ .only .draftIndex := draftKey_ne_of_kind (by decide)
  have hlisted : ∀ name ∈ (draftNames s.rows).filter (· ≠ draftId), ListedName name := fun name hname =>
    listedName_of_mem_readNamesRow (List.mem_of_mem_filter hname)
  rw [removeDraftBody, wp_getRow_bind, Proc.wp_bind]
  refine wp_eraseRow ?_
  cases keepSendBinding with
  | true =>
    rw [if_pos rfl]
    refine wp_putRow (fun _ _ => ?_) fun _ hfalse => by cases hfalse
    refine ⟨fun other hne => ?_, draftNames_put hlisted⟩
    rw [StagedRows.with_other (hindex other), StagedRows.with_other (draftKey_ne hne)]
  | false =>
    rw [if_neg Bool.noConfusion, Proc.wp_bind]
    refine wp_eraseRow ?_
    rw [Proc.wp_bind]
    refine wp_eraseRow ?_
    refine wp_putRow (fun _ _ => ?_) fun _ hfalse => by cases hfalse
    refine ⟨fun other hne => ?_, draftNames_put hlisted⟩
    rw [StagedRows.with_other (hindex other), StagedRows.with_other (draftKey_ne_of_kind (by decide)),
      StagedRows.with_other (draftKey_ne_of_kind (by decide)), StagedRows.with_other (draftKey_ne hne)]

theorem over_of_kept {key : ApplicationKey}
    (h : s.rows key = visible true rows key) : s.over rows key = rows key := by
  rw [StagedRows.over]
  by_cases husable : key.usable = true
  · rw [if_pos husable, h, visible_of_usable husable]
  · rw [if_neg husable]

theorem draftNames_over (s : StagedRows) (rows : ApplicationRows) : draftNames (s.over rows) = draftNames s.rows :=
  congrArg readNamesRow (if_pos (ApplicationKey.usable_only .draftIndex))

theorem draftNames_visible (rows : ApplicationRows) : draftNames (visible true rows) = draftNames rows :=
  congrArg readNamesRow (visible_of_usable (ApplicationKey.usable_only .draftIndex) rows)

theorem Edits.keepsOthers {present : Bool}
    (h : Edits (.opened true rows) s id present) : KeepsOthers rows (s.over rows) id := by
  have hopened : draftNames (StagedRows.opened true rows).rows = draftNames rows := draftNames_visible rows
  have hnames := h.names
  rw [← draftNames_over s rows, hopened] at hnames
  refine ⟨fun other hne => over_of_kept (h.kept other hne), fun other hne => ?_, fun hnodup => ?_⟩
  · rw [hnames]
    split_ifs with hpresent hmem
    · exact Iff.rfl
    · simp [hne]
    · simp [hne]
  · rw [hnames]
    split_ifs with hpresent hmem
    · exact hnodup
    · refine hnodup.append (List.nodup_singleton id) ?_
      rwa [List.disjoint_singleton]
    · exact hnodup.filter _

/-- What a `SaveDraft` that returns `true` leaves. -/
structure Saved (rows : ApplicationRows) (draft : MailDraft) : Prop where
  savable : draft.savable = true
  row : rows (draftKey draft.draftId) = some (draftRow draft)
  bounded : (draftRow draft).length ≤ MAX_VALUE_BYTES
  named : draft.draftId ∈ draftNames rows

theorem saveDraft_spec (env : CallEnv) (rows : ApplicationRows) (draft : MailDraft) :
    KeepsOthers rows (saveDraft env rows draft).2 draft.draftId ∧
      ((saveDraft env rows draft).1 = .ok true → Saved (saveDraft env rows draft).2 draft) := by
  rw [saveDraft]
  by_cases hsavable : draft.savable = false
  · rw [if_pos hsavable]
    exact ⟨.refl rows _, fun h => by cases h⟩
  · rw [if_neg hsavable]
    rw [Bool.not_eq_false] at hsavable
    have hvalid : validDraftId draft.draftId = true := by
      simp only [MailDraft.savable, Bool.and_eq_true] at hsavable
      exact hsavable.1.1.1.1
    rcases transact_cases env.unlocked env.fate rows (saveDraftBody draft) with
      ⟨hsame, hrefused⟩ | ⟨s, hrun, -, hunlocked, -, heq⟩
    · rw [hsame]
      exact ⟨.refl rows _, fun h => absurd h hrefused⟩
    · rw [hunlocked] at hrun
      obtain ⟨hedits, hrow, hbounded⟩ := Proc.wp_of_ok (wp_saveDraftBody hvalid) hrun rfl
      rw [heq]
      refine ⟨hedits.keepsOthers, fun _ => ⟨hsavable, ?_, hbounded, ?_⟩⟩
      · have husable : (draftKey draft.draftId).usable = true :=
          ApplicationKey.usable_of_short (length_le_of_valid hvalid)
        exact (if_pos husable).trans hrow
      · rw [draftNames_over, hedits.names, if_pos rfl]
        split_ifs with hmem
        · exact hmem
        · exact List.mem_append_right _ (List.mem_singleton_self _)

theorem DraftCall.keepsOthers (rows : ApplicationRows) (call : DraftCall) :
    KeepsOthers rows (call.run rows).2 call.draftId := by
  cases call with
  | save env draft => exact (saveDraft_spec env rows draft).1
  | delete env draftId keepSendBinding =>
    rw [run, removeDraft]
    by_cases hvalid : validDraftId draftId = false
    · rw [if_pos hvalid]
      exact .refl rows _
    · rw [if_neg hvalid]
      rcases transact_cases env.unlocked env.fate rows (removeDraftBody draftId keepSendBinding) with
        ⟨hsame, -⟩ | ⟨s, hrun, -, hunlocked, -, heq⟩
      · rw [hsame]
        exact .refl rows _
      · rw [hunlocked] at hrun
        have hedits : Edits (.opened true rows) s draftId false := Proc.wp_of_ok wp_removeDraftBody hrun rfl
        rw [heq]
        exact hedits.keepsOthers

/-! ### Runs -/

theorem draftNames_nodup_afterDraftCalls (h : (draftNames rows).Nodup)
    (calls : List DraftCall) : (draftNames (afterDraftCalls rows calls)).Nodup := by
  induction calls generalizing rows with
  | nil => exact h
  | cons call rest ih => exact ih ((call.keepsOthers rows).nodup h)

theorem Saved.afterDraftCalls (h : Saved rows draft)
    {calls : List DraftCall} (hothers : ∀ call ∈ calls, call.draftId ≠ draft.draftId) :
    Saved (afterDraftCalls rows calls) draft := by
  induction calls generalizing rows with
  | nil => exact h
  | cons call rest ih =>
    rw [List.forall_mem_cons] at hothers
    have hkeeps := call.keepsOthers rows
    refine ih ⟨h.savable, ?_, h.bounded, ?_⟩ hothers.2
    · exact (hkeeps.kept _ hothers.1.symm).trans h.row
    · exact (hkeeps.named _ hothers.1.symm).mpr h.named

theorem Saved.kept_iff (h : Saved rows draft) (hnodup : (draftNames rows).Nodup) :
    DraftKept rows draft ↔ ∀ attachment ∈ draft.attachments, attachment.Readable := by
  have hsavable := h.savable
  simp only [MailDraft.savable, Bool.and_eq_true] at hsavable
  have husable : (draftKey draft.draftId).usable = true :=
    ApplicationKey.usable_of_short (length_le_of_valid hsavable.1.1.1.1)
  have hcount : (draftNames rows).count draft.draftId = 1 := List.count_eq_one_of_mem hnodup h.named
  have hvisible : (draftNames (visible true rows)).count draft.draftId = 1 := by rwa [draftNames_visible]
  have hlisted := filter_listDrafts hvisible
  rw [listedDraft, visible_of_usable husable, h.row, Option.bind_some] at hlisted
  rw [← MailDraft.readable_iff h.savable]
  constructor
  · intro hkept
    by_contra hnot
    rw [readDraft_draftRow_of_not h.savable h.bounded hnot] at hlisted
    cases hlisted.symm.trans hkept.listed
  · intro hreadable
    rw [readDraft_draftRow hreadable] at hlisted
    exact ⟨hlisted, hcount⟩

/-- **A draft that was saved is listed as it was, whatever is done to others, exactly if its
    attachments are within the bounds of `ListDrafts`.** -/
theorem draft_kept_iff {rows : ApplicationRows} (hfresh : rows (.only .draftIndex) = none)
    (earlier : List DraftCall) (env : CallEnv) (draft : MailDraft)
    (hsaved : (saveDraft env (afterDraftCalls rows earlier) draft).1 = .ok true)
    (later : List DraftCall) (hothers : ∀ call ∈ later, call.draftId ≠ draft.draftId) :
    DraftKept (afterDraftCalls (saveDraft env (afterDraftCalls rows earlier) draft).2 later) draft ↔
      ∀ attachment ∈ draft.attachments, attachment.Readable := by
  have hstart : (draftNames rows).Nodup := by
    rw [draftNames, hfresh]
    exact List.nodup_nil
  obtain ⟨hkeeps, hspec⟩ := saveDraft_spec env (afterDraftCalls rows earlier) draft
  have hnodup := hkeeps.nodup (draftNames_nodup_afterDraftCalls hstart earlier)
  exact ((hspec hsaved).afterDraftCalls hothers).kept_iff (draftNames_nodup_afterDraftCalls hnodup later)

/-! ### A name of 4097 characters -/

theorem saveDraft_succeeds (hsavable : draft.savable = true) (hrow : (draftRow draft).length ≤ MAX_VALUE_BYTES)
    (hindex : (namesRow (draftNames rows ++ [draft.draftId])).length ≤ MAX_VALUE_BYTES) :
    (saveDraft { unlocked := true, fate := .done } rows draft).1 = .ok true := by
  have hvalid : validDraftId draft.draftId = true := by
    simp only [MailDraft.savable, Bool.and_eq_true] at hsavable
    exact hsavable.1.1.1.1
  have husable : (draftKey draft.draftId).usable = true := ApplicationKey.usable_of_short (length_le_of_valid hvalid)
  have hbody : Proc.wp (saveDraftBody draft) (fun ok s' => ok = true ∧ s'.failed = false) (fun _ _ => False)
      (.opened true rows) := by
    rw [saveDraftBody, Proc.wp_bind]
    refine wp_putRow (fun _ => ?_) fun hrefused => ?_
    · rw [if_neg Bool.noConfusion, wp_getRow_bind]
      have hnames : readNamesRow (((StagedRows.opened true rows).with (draftKey draft.draftId)
          (some (draftRow draft))).rows (.only .draftIndex)) = draftNames rows :=
        (draftNames_with (fun h => by cases h)).trans (draftNames_visible rows)
      rw [hnames]
      refine Proc.wp_refuse (fun _ => ⟨rfl, rfl⟩) fun _ => ?_
      refine wp_putRow (fun _ => ⟨rfl, rfl⟩) fun hrefused => ?_
      simp [StagedRows.takes, StagedRows.opened, ApplicationKey.usable_only, hindex] at hrefused
    · simp [StagedRows.takes, StagedRows.opened, husable, hrow] at hrefused
  rw [saveDraft, if_neg (by simp [hsavable]), transact]
  unfold Proc.wp at hbody
  split at hbody
  · next ok s hrun =>
    obtain ⟨rfl, hfailed⟩ := hbody
    simp [hrun, hfailed]
  · exact hbody.elim

section Sample

def sampleDraftEnv : CallEnv where
  unlocked := true
  fate := .done

def noDrafts : ApplicationRows := fun _ => none

def attachmentDraft (nameLength : Nat) : MailDraft where
  draftId := ascii "draft-1"
  toText := ascii "bobby"
  subject := []
  body := []
  updatedMs := 1000
  attachments := [{ name := List.replicate nameLength 97, logicalSize := 1, sourcePath := [], referenceId := [] }]

theorem attachmentDraft_saved {nameLength : Nat} (h : nameLength ≤ 5000) :
    (saveDraft sampleDraftEnv noDrafts (attachmentDraft nameLength)).1 = .ok true := by
  have hindex : (namesRow [ascii "draft-1"]).length ≤ MAX_VALUE_BYTES := by decide
  refine saveDraft_succeeds rfl ?_ hindex
  have hmax : MAX_VALUE_BYTES = 4194304 := rfl
  have hmagic : DRAFT_MAGIC.length = 4 := rfl
  have hid : (ascii "draft-1").length = 7 := rfl
  have hto : (ascii "bobby").length = 5 := rfl
  simp only [attachmentDraft, draftRow, putAttachment, putString, Reader.concat_cons, Reader.concat_nil,
    List.length_append, List.length_replicate, List.length_nil, length_le32Of, length_le64, hmax, hmagic, hid, hto]
  omega

/-- An attachment of a name that can be read, and another draft is deleted. -/
theorem draft_kept_sample : DraftKept (afterDraftCalls (saveDraft sampleDraftEnv (afterDraftCalls noDrafts [])
    (attachmentDraft 3)).2 [.delete sampleDraftEnv (ascii "draft-2") false]) (attachmentDraft 3) := by
  refine (draft_kept_iff rfl [] sampleDraftEnv (attachmentDraft 3) (attachmentDraft_saved (by decide)) _ ?_).mpr ?_
  · intro call hcall
    rw [List.mem_singleton.mp hcall]
    decide
  · intro attachment hattachment
    rw [List.mem_singleton.mp hattachment]
    exact ⟨by simp, by simp, by simp⟩

/-- `SaveDraft` returns `true`, and the draft is nowhere to be found. -/
theorem attachmentDraft_lost : (saveDraft sampleDraftEnv noDrafts (attachmentDraft 4097)).1 = .ok true ∧
    ¬DraftKept (saveDraft sampleDraftEnv noDrafts (attachmentDraft 4097)).2 (attachmentDraft 4097) := by
  have haccepted := attachmentDraft_saved (show 4097 ≤ 5000 by decide)
  refine ⟨haccepted, fun hkept => ?_⟩
  obtain ⟨hkeeps, hspec⟩ := saveDraft_spec sampleDraftEnv noDrafts (attachmentDraft 4097)
  have hreadable := ((hspec haccepted).kept_iff (hkeeps.nodup List.nodup_nil)).mp hkept
  have hname := (hreadable _ (List.mem_singleton_self _)).name
  rw [List.length_replicate] at hname
  exact absurd hname (by decide)

end Sample

end Cybou
