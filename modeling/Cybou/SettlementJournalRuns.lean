import Cybou.SettlementJournal
import Cybou.ExecutedBlock

/-! # One body and one signature for each action scope (`storage_service.cpp`)

`BodyRecorded` says what the rows of one scope can look like: nothing, or a body that decodes
to a settlement of this scope, with the evidence it commits to, and perhaps the signed
record of this body.  `JournalOk` is that for every scope.  A transaction only fills rows
that were empty, so what a call has read stays true while others run.
-/

namespace Cybou

open Library

/-! ### Names -/

structure ActionScope where
  action : StorageSettlementAction
  period : UInt64
  /-- The funded term of a `PREPARE`, the preparation of an `ACTIVATE`. -/
  subject : Hash256
  /-- The epoch of a `PREPARE`. -/
  epoch : UInt64
deriving DecidableEq

def StorageSettlement.actionScope (s : StorageSettlement) : ActionScope :=
  match s.action with
  | .prepare => ⟨.prepare, s.period, s.fundedTermId, s.assignmentEpoch⟩
  | .activate => ⟨.activate, s.period, s.preparationId, 0⟩
  | .pay => ⟨.pay, s.period, Hash256.ZERO, 0⟩

theorem decimal_append_inj {m n : Nat} {a b : Bytes}
    (h : decimal m ++ (ascii "/" ++ a) = decimal n ++ (ascii "/" ++ b)) : m = n ∧ a = b := by
  have hslash : ∀ n, (47 : UInt8) ∉ decimal n := by
    intro n hmem
    exact absurd (toNat_of_mem_decimal hmem).1 (by decide)
  have hcons : decimal m ++ 47 :: a = decimal n ++ 47 :: b := h
  rcases List.append_eq_append_iff.mp hcons with ⟨c, hdecimal, hrest⟩ | ⟨c, hdecimal, hrest⟩
  · cases c with
    | nil =>
      rw [List.append_nil] at hdecimal
      exact ⟨(decimal_injective hdecimal).symm, (List.cons.inj hrest).2⟩
    | cons x c =>
      obtain ⟨rfl, -⟩ := List.cons.inj hrest
      exact absurd (hdecimal ▸ List.mem_append_right _ List.mem_cons_self) (hslash n)
  · cases c with
    | nil =>
      rw [List.append_nil] at hdecimal
      exact ⟨decimal_injective hdecimal, (List.cons.inj hrest).2.symm⟩
    | cons x c =>
      obtain ⟨rfl, -⟩ := List.cons.inj hrest
      exact absurd (hdecimal ▸ List.mem_append_right _ List.mem_cons_self) (hslash m)

/-- What follows the period in the name of a journal. -/
def scopeRest (s : StorageSettlement) : Bytes :=
  match s.action with
  | .prepare => ascii "/" ++ (hex s.fundedTermId.1 ++ (ascii "/" ++ decimal s.assignmentEpoch.toNat))
  | .activate => ascii "/" ++ hex s.preparationId.1
  | .pay => []

theorem settlementJournalKey_eq (network : Hash256) (s : StorageSettlement) :
    settlementJournalKey network s = ascii "storage/settlement/" ++ (hex network.1 ++ (ascii "/action/" ++
      (decimal s.action.toByte.toNat ++ (ascii "/" ++ (decimal s.period.toNat ++ scopeRest s))))) := by
  unfold settlementJournalKey scopeRest
  cases s.action <;> simp only [List.append_assoc]

/-- **A journal has one name, and it belongs to one action scope.** -/
theorem settlementJournalKey_inj {network : Hash256} {s t : StorageSettlement} :
    settlementJournalKey network s = settlementJournalKey network t ↔ s.actionScope = t.actionScope := by
  rw [settlementJournalKey_eq, settlementJournalKey_eq, List.append_right_inj, List.append_right_inj,
    List.append_right_inj]
  constructor
  · intro h
    obtain ⟨haction, h⟩ := decimal_append_inj h
    unfold StorageSettlement.actionScope scopeRest at *
    cases hs : s.action <;> cases ht : t.action <;> rw [hs, ht] at haction <;> rw [hs, ht] at h
    all_goals try exact absurd haction (by decide)
    · obtain ⟨hperiod, h⟩ := decimal_append_inj h
      have hterm := List.append_inj h (by rw [length_hex, length_hex, s.fundedTermId.2, t.fundedTermId.2])
      have hepoch := decimal_injective (List.append_cancel_left hterm.2)
      rw [UInt64.toNat_inj.mp hperiod, Subtype.ext (hex_injective hterm.1), UInt64.toNat_inj.mp hepoch]
    · obtain ⟨hperiod, h⟩ := decimal_append_inj h
      rw [UInt64.toNat_inj.mp hperiod, Subtype.ext (hex_injective h)]
    · rw [List.append_nil, List.append_nil] at h
      rw [UInt64.toNat_inj.mp (decimal_injective h)]
  · intro h
    unfold StorageSettlement.actionScope scopeRest at *
    cases hs : s.action <;> cases ht : t.action <;> rw [hs, ht] at h <;> injection h with haction hperiod hsubject hepoch
    all_goals try cases haction
    · rw [hperiod, hsubject, hepoch]
    · rw [hperiod, hsubject]
    · rw [hperiod]

/-! ### Rows -/

def ROW_SUFFIXES : List Bytes := [PREPARED_SUFFIX, SIGNED_SUFFIX, EVIDENCE_SUFFIX]

theorem row_inj {key key' suffix suffix' : Bytes} (hsuffix : suffix ∈ ROW_SUFFIXES) (hsuffix' : suffix' ∈ ROW_SUFFIXES)
    (h : key ++ suffix = key' ++ suffix') : key = key' ∧ suffix = suffix' := by
  have hall : ∀ a ∈ ROW_SUFFIXES, ∀ b ∈ ROW_SUFFIXES, a.isSuffixOf b = true → a = b := by
    decide
  have hends : suffix <:+ key' ++ suffix' := ⟨key, h⟩
  have hends' : suffix' <:+ key' ++ suffix' := ⟨key', rfl⟩
  have hsame : suffix = suffix' := by
    rcases List.suffix_or_suffix_of_suffix hends hends' with hle | hle
    · exact hall suffix hsuffix suffix' hsuffix' (List.isSuffixOf_iff_suffix.mpr hle)
    · exact (hall suffix' hsuffix' suffix hsuffix (List.isSuffixOf_iff_suffix.mpr hle)).symm
  subst hsame
  exact ⟨List.append_cancel_right h, rfl⟩

theorem mem_prepared : PREPARED_SUFFIX ∈ ROW_SUFFIXES := List.mem_cons_self

theorem mem_signed : SIGNED_SUFFIX ∈ ROW_SUFFIXES := List.mem_cons_of_mem _ List.mem_cons_self

theorem mem_evidence : EVIDENCE_SUFFIX ∈ ROW_SUFFIXES :=
  List.mem_cons_of_mem _ (List.mem_cons_of_mem _ List.mem_cons_self)

theorem journalName_row (network : Hash256) (s : StorageSettlement) (suffix : Bytes) :
    JournalName (settlementJournalKey network s ++ suffix) := by
  rw [settlementJournalKey_eq, List.append_assoc]
  exact ⟨_, rfl⟩

theorem periodKey_ne (network : Hash256) (period : UInt64) (s : StorageSettlement) (suffix suffix' : Bytes) :
    settlementPeriodKey network period ++ suffix ≠ settlementJournalKey network s ++ suffix' := by
  rw [settlementJournalKey_eq, settlementPeriodKey]
  intro h
  simp only [List.append_assoc, List.append_right_inj] at h
  obtain ⟨d, digits, hdigits⟩ := List.exists_cons_of_ne_nil (decimal_ne_nil period.toNat)
  have hdigit := toNat_of_mem_decimal (hdigits ▸ List.mem_cons_self : d ∈ decimal period.toNat)
  rw [hdigits] at h
  obtain ⟨rfl, -⟩ := List.cons.inj (List.cons.inj h).2
  exact absurd hdigit.2 (by decide)

theorem usable_row (network : Hash256) (s : StorageSettlement) {suffix : Bytes} (h : suffix ∈ ROW_SUFFIXES) :
    PrivateApplicationStore.usable (settlementJournalKey network s ++ suffix) = true := by
  have hall : ∀ suffix ∈ ROW_SUFFIXES, suffix.length ≤ 9 := by decide
  have hsuffix := hall suffix h
  have hrest : (scopeRest s).length ≤ 86 := by
    have hepoch := length_decimal_uint64 s.assignmentEpoch
    have hslash : (ascii "/").length = 1 := by decide
    unfold scopeRest
    cases s.action
    · simp only [List.length_append, length_hex, s.fundedTermId.2, hslash]
      omega
    · simp only [List.length_append, length_hex, s.preparationId.2, hslash]
      omega
    · exact Nat.zero_le _
  have haction := length_decimal_uint8 s.action.toByte
  have hperiod := length_decimal_uint64 s.period
  have hstart : (ascii "storage/settlement/").length = 19 := by decide
  have hmiddle : (ascii "/action/").length = 8 := by decide
  have hslash : (ascii "/").length = 1 := by decide
  rw [settlementJournalKey_eq, List.append_assoc]
  refine usable_of_length (by decide) (by decide) ?_
  simp only [List.length_append, length_hex, network.2, hstart, hmiddle, hslash, MAX_NAME_BYTES]
  omega

section

variable [Crypto]

/-! ### Bodies -/

def StorageSettlement.blank (s : StorageSettlement) : StorageSettlement := { s with poaSignature := blankSignature }

theorem decodeSettlement_eq_some {b : Bytes} {s : StorageSettlement} :
    decodeSettlement b = some s ↔
      serializeProtocolOperation (.storageSettlement s) = some b ∧ BindingsSized (.storageSettlement s) := by
  rw [decodeSettlement]
  constructor
  · intro h
    split at h
    · cases h
    next operation hoperation =>
      split at h
      · cases h
      next hserialize =>
        rw [not_not] at hserialize
        split at h
        next settlement =>
          cases h
          exact ⟨hserialize, (deserialize_serializeProtocolOperation hserialize).mp hoperation⟩
        · cases h
  · rintro ⟨hserialize, hsized⟩
    rw [(deserialize_serializeProtocolOperation hserialize).mpr hsized]
    dsimp only
    rw [if_neg (not_not.mpr hserialize)]

theorem serializeSettlementBody_of_preparedBytes {s : StorageSettlement} {b : Bytes} (h : preparedBytes s = some b) :
    ∃ out, serializeSettlementBody s = some out ∧ b = 10 :: (out ++ blankSignature.ed25519.1 ++ blankSignature.mlDsa) := by
  obtain ⟨body, hbody, heq⟩ := Option.bind_eq_some_iff.mp h
  obtain ⟨out, hout, hsigned⟩ := Option.bind_eq_some_iff.mp hbody
  rw [Option.ite_none_left_eq_some] at hsigned
  refine ⟨out, hout, ?_⟩
  rw [← Option.some.inj heq, ← Option.some.inj hsigned.2]
  rfl

theorem bindingsSized_of_checkInputs {node : SettlementNode} {env : SettlementEnv} {s : StorageSettlement} {b : Bytes}
    (hbody : preparedBytes s = some b) (h : node.checkInputs env s = .none) : BindingsSized (.storageSettlement s) := by
  obtain ⟨out, hout, -⟩ := serializeSettlementBody_of_preparedBytes hbody
  have hshape := (serializeSettlementBody_eq_some hout).2.2
  unfold SettlementShape at hshape
  cases haction : s.action with
  | activate =>
    rw [haction] at hshape
    rw [BindingsSized, hshape.2.2.2.2.2.2.1]
    exact fun _ h => by cases h
  | pay =>
    rw [haction] at hshape
    rw [BindingsSized, hshape.2.2.2.1]
    exact fun _ h => by cases h
  | prepare =>
    unfold SettlementNode.checkInputs at h
    split at h
    · cases h
    next chain hchain =>
      split at h
      · cases h
      have hspec : Proc.wp (checkStorageSettlementInputs s node.params node.network (chain.height + 1) chain.blockId)
          (fun e _ => e = .none → BindingsSized (.storageSettlement s)) (fun _ _ => True) chain.state := by
        unfold checkStorageSettlementInputs
        rw [haction, if_pos (by decide), Proc.wp_bind, wp_onCopy]
        exact applyAssignmentInputs_sized haction node.network (chain.height + 1) chain.blockId false
      split at h
      next error state hrun => exact Proc.wp_of_ok hspec hrun h
      · cases h

/-! ### The rows of one scope -/

structure BodyRecorded (node : SettlementNode) (rows : JournalRows) (key : Bytes) (body : StorageSettlement) : Prop where
  blank : body.blank = body
  sized : BindingsSized (.storageSettlement body)
  key_eq : settlementJournalKey node.network body = key
  prepared : ∃ b, preparedBytes body = some b ∧ rows (key ++ PREPARED_SUFFIX) = some (.value b)
  evidence : if body.action = .pay then
      ∃ e, rows (key ++ EVIDENCE_SUFFIX) = some (.value e) ∧ evidenceValid e body = true
    else rows (key ++ EVIDENCE_SUFFIX) = none
  /-- A signed record is only there where the body alone does not verify. -/
  signed : rows (key ++ SIGNED_SUFFIX) = none ∨
    ∃ s bytes, rows (key ++ SIGNED_SUFFIX) = some (.value bytes) ∧
      serializeProtocolOperation (.storageSettlement s) = some bytes ∧ s.blank = body ∧ node.verifies s = true ∧
      node.verifies body = false

def VacantScope (rows : JournalRows) (key : Bytes) : Prop := ∀ suffix ∈ ROW_SUFFIXES, rows (key ++ suffix) = none

structure JournalOk (node : SettlementNode) (rows : JournalRows) : Prop where
  noPeriod : ∀ period, ∀ suffix ∈ ROW_SUFFIXES, rows (settlementPeriodKey node.network period ++ suffix) = none
  scope : ∀ request, VacantScope rows (settlementJournalKey node.network request) ∨
    ∃ body, BodyRecorded node rows (settlementJournalKey node.network request) body

variable {node : SettlementNode} {rows rows' : JournalRows} {key : Bytes} {body : StorageSettlement}

omit [Crypto] in
theorem VacantScope.congr (h : VacantScope rows key) (hsame : ∀ suffix ∈ ROW_SUFFIXES, rows' (key ++ suffix) = rows (key ++ suffix)) :
    VacantScope rows' key := by
  intro suffix hsuffix
  rw [hsame suffix hsuffix, h suffix hsuffix]

theorem BodyRecorded.congr (h : BodyRecorded node rows key body)
    (hsame : ∀ suffix ∈ ROW_SUFFIXES, rows' (key ++ suffix) = rows (key ++ suffix)) : BodyRecorded node rows' key body := by
  refine ⟨h.blank, h.sized, h.key_eq, ?_, ?_, ?_⟩
  · rw [hsame _ mem_prepared]
    exact h.prepared
  · rw [hsame _ mem_evidence]
    exact h.evidence
  · rw [hsame _ mem_signed]
    exact h.signed

theorem BodyRecorded.decode (h : BodyRecorded node rows key body) {b : Bytes}
    (hrow : rows (key ++ PREPARED_SUFFIX) = some (.value b)) :
    preparedBytes body = some b ∧ decodeSettlement b = some body := by
  obtain ⟨b', hb', hrow'⟩ := h.prepared
  rw [hrow, Option.some.injEq, ApplicationRow.value.injEq] at hrow'
  subst hrow'
  refine ⟨hb', decodeSettlement_eq_some.mpr ⟨?_, h.sized⟩⟩
  rw [← h.blank]
  exact hb'

theorem JournalOk.update (h : JournalOk node rows) (request : StorageSettlement)
    (hsame : ∀ name, (∀ suffix ∈ ROW_SUFFIXES, name ≠ settlementJournalKey node.network request ++ suffix) →
      rows' name = rows name)
    (hscope : ∃ body, BodyRecorded node rows' (settlementJournalKey node.network request) body) : JournalOk node rows' := by
  refine ⟨fun period suffix hsuffix => ?_, fun other => ?_⟩
  · rw [hsame _ fun suffix' _ => periodKey_ne _ _ _ _ _]
    exact h.noPeriod period suffix hsuffix
  · by_cases hkey : settlementJournalKey node.network other = settlementJournalKey node.network request
    · rw [hkey]
      exact .inr hscope
    · have hrows : ∀ suffix ∈ ROW_SUFFIXES, rows' (settlementJournalKey node.network other ++ suffix) =
          rows (settlementJournalKey node.network other ++ suffix) := by
        intro suffix hsuffix
        exact hsame _ fun suffix' hsuffix' heq => hkey (row_inj hsuffix hsuffix' heq).1
      rcases h.scope other with hvacant | ⟨body, hbody⟩
      · exact .inl (hvacant.congr hrows)
      · exact .inr ⟨body, hbody.congr hrows⟩

theorem JournalOk.congr (h : JournalOk node rows) (hsame : ∀ name, JournalName name → rows' name = rows name) :
    JournalOk node rows' := by
  refine ⟨fun period suffix hsuffix => ?_, fun request => ?_⟩
  · rw [hsame _ ⟨_, by rw [settlementPeriodKey, List.append_assoc, List.append_assoc, List.append_assoc]⟩]
    exact h.noPeriod period suffix hsuffix
  · rcases h.scope request with hvacant | ⟨body, hbody⟩
    · exact .inl (hvacant.congr fun suffix _ => hsame _ (journalName_row _ _ _))
    · exact .inr ⟨body, hbody.congr fun suffix _ => hsame _ (journalName_row _ _ _)⟩

theorem JournalOk.empty (h : ∀ name, JournalName name → rows name = none) : JournalOk node rows := by
  refine ⟨fun period suffix _ => h _ ?_, fun request => .inl fun suffix _ => h _ (journalName_row _ _ _)⟩
  exact ⟨_, by rw [settlementPeriodKey, List.append_assoc, List.append_assoc, List.append_assoc]⟩

/-! ### Reading the journal -/

/-- What `PreparedSettlement` returns where a body is recorded: the body, or its signed record. -/
structure ReadBack (node : SettlementNode) (rows : JournalRows) (key : Bytes) (body settlement : StorageSettlement) : Prop where
  recorded : BodyRecorded node rows key body
  blank : settlement.blank = body
  current : settlement = body ∨
    ∃ bytes, rows (key ++ SIGNED_SUFFIX) = some (.value bytes) ∧
      serializeProtocolOperation (.storageSettlement settlement) = some bytes ∧ node.verifies settlement = true ∧
      node.verifies body = false
  signed : rows (key ++ SIGNED_SUFFIX) ≠ none → node.verifies settlement = true

variable {db : PrivateApplicationStore} {request : StorageSettlement}

omit [Crypto] in
theorem has_of_present {name : Bytes} {row : ApplicationRow} (hunlocked : db.unlocked = true)
    (husable : PrivateApplicationStore.usable name = true) (hrow : db.rows name = some row) : db.has name = true := by
  rw [PrivateApplicationStore.has, hunlocked, husable, hrow]
  rfl

theorem signedSettlement_recorded (h : BodyRecorded node db.rows (settlementJournalKey node.network request) body)
    (hunlocked : db.unlocked = true) {b : Bytes}
    (hrow : db.rows (settlementJournalKey node.network request ++ PREPARED_SUFFIX) = some (.value b)) :
    ∃ settlement, signedSettlement node db (settlementJournalKey node.network request) b body = .ok settlement ∧
      ReadBack node db.rows (settlementJournalKey node.network request) body settlement := by
  rw [signedSettlement]
  rcases h.signed with hnone | ⟨s, bytes, hsigned, hserialize, hblank, hverifies, hbody⟩
  · rw [PrivateApplicationStore.get_of_absent hnone, PrivateApplicationStore.has_of_absent hnone]
    exact ⟨body, rfl, h, h.blank, .inl rfl, fun hne => absurd hnone hne⟩
  · rw [PrivateApplicationStore.get_of_usable hunlocked (usable_row _ _ mem_signed) hsigned]
    have hsized : BindingsSized (.storageSettlement s) := by
      have hsized := h.sized
      rw [← hblank] at hsized
      exact hsized
    have hprepared : preparedBytes s = some b := by
      rw [← (h.decode hrow).1, ← hblank]
      rfl
    dsimp only
    rw [decodeSettlement_eq_some.mpr ⟨hserialize, hsized⟩]
    dsimp only
    rw [if_neg]
    · exact ⟨s, rfl, h, hblank, .inr ⟨bytes, hsigned, hserialize, hverifies, hbody⟩, fun _ => hverifies⟩
    · rintro (hne | hfalse)
      · exact hne hprepared
      · rw [hverifies] at hfalse
        cases hfalse

theorem evidenceFault_recorded (h : BodyRecorded node db.rows (settlementJournalKey node.network request) body)
    (hunlocked : db.unlocked = true) : evidenceFault db (settlementJournalKey node.network request) body = none := by
  have hevidence := h.evidence
  rw [evidenceFault]
  cases haction : body.action with
  | pay =>
    rw [haction, if_pos rfl] at hevidence
    obtain ⟨e, hrow, hvalid⟩ := hevidence
    rw [PrivateApplicationStore.get_of_usable hunlocked (usable_row _ _ mem_evidence) hrow]
    dsimp only
    rw [hvalid, if_neg (by decide)]
  | prepare =>
    rw [haction, if_neg (by decide)] at hevidence
    dsimp only
    rw [PrivateApplicationStore.has_of_absent hevidence, if_neg (by decide)]
  | activate =>
    rw [haction, if_neg (by decide)] at hevidence
    dsimp only
    rw [PrivateApplicationStore.has_of_absent hevidence, if_neg (by decide)]

/-- **`PreparedSettlement` does not throw on an unlocked store**, and returns what is recorded. -/
theorem preparedSettlement_ok (db : PrivateApplicationStore) (h : JournalOk node db.rows) (hunlocked : db.unlocked = true)
    (request : StorageSettlement) :
    preparedSettlement node db true request = .ok none ∧ VacantScope db.rows (settlementJournalKey node.network request) ∨
    ∃ body settlement, preparedSettlement node db true request = .ok (some settlement) ∧
      ReadBack node db.rows (settlementJournalKey node.network request) body settlement := by
  rw [preparedSettlement, if_neg (by rw [hunlocked]; decide)]
  dsimp only
  rw [PrivateApplicationStore.has_of_absent (h.noPeriod _ _ mem_prepared),
    PrivateApplicationStore.has_of_absent (h.noPeriod _ _ mem_signed), if_neg (by decide)]
  rcases h.scope request with hvacant | ⟨body, hbody⟩
  · rw [PrivateApplicationStore.get_of_absent (hvacant _ mem_prepared),
      PrivateApplicationStore.has_of_absent (hvacant _ mem_prepared),
      PrivateApplicationStore.has_of_absent (hvacant _ mem_signed),
      PrivateApplicationStore.has_of_absent (hvacant _ mem_evidence)]
    exact .inl ⟨rfl, hvacant⟩
  · obtain ⟨b, hb, hrow⟩ := hbody.prepared
    obtain ⟨settlement, hsigned, hread⟩ := signedSettlement_recorded hbody hunlocked hrow
    rw [PrivateApplicationStore.get_of_usable hunlocked (usable_row _ _ mem_prepared) hrow]
    dsimp only
    rw [(hbody.decode hrow).2]
    dsimp only
    rw [if_neg (by rw [hbody.key_eq, hb]; simp), evidenceFault_recorded hbody hunlocked]
    dsimp only
    rw [hsigned]
    exact .inr ⟨body, settlement, rfl, hread⟩

/-! ### What a call has read stays true -/

def Grows (rows rows' : JournalRows) : Prop :=
  ∀ name, JournalName name → ∀ row, rows name = some row → rows' name = some row

omit [Crypto] in
theorem Grows.refl (rows : JournalRows) : Grows rows rows := fun _ _ _ h => h

omit [Crypto] in
theorem Grows.trans {rows'' : JournalRows} (h : Grows rows rows') (h' : Grows rows' rows'') : Grows rows rows'' :=
  fun name hname row hrow => h' name hname row (h name hname row hrow)

def BodyStored (node : SettlementNode) (rows : JournalRows) (request : StorageSettlement) (b : Bytes) : Prop :=
  rows (settlementJournalKey node.network request ++ PREPARED_SUFFIX) = some (.value b)

omit [Crypto] in
theorem BodyStored.grow {b : Bytes} (h : BodyStored node rows request b) (hgrows : Grows rows rows') :
    BodyStored node rows' request b := hgrows _ (journalName_row _ _ _) _ h

/-- A settlement that can be submitted: it is the body that is stored for its scope, and it
    is signed.  Either the signed record is there with its bytes, or the body alone verifies. -/
structure Submittable (node : SettlementNode) (rows : JournalRows) (s : StorageSettlement) (b : Bytes) : Prop where
  stored : BodyStored node rows s b
  prepared : preparedBytes s = some b
  decodes : decodeSettlement b = some s.blank
  verifies : node.verifies s = true
  signed : s.blank = s ∨ ∃ bytes, rows (settlementJournalKey node.network s ++ SIGNED_SUFFIX) = some (.value bytes) ∧
    serializeProtocolOperation (.storageSettlement s) = some bytes

theorem Submittable.grow {s : StorageSettlement} {b : Bytes} (h : Submittable node rows s b) (hgrows : Grows rows rows') :
    Submittable node rows' s b := by
  refine ⟨h.stored.grow hgrows, h.prepared, h.decodes, h.verifies, ?_⟩
  rcases h.signed with hblank | ⟨bytes, hrow, hserialize⟩
  · exact .inl hblank
  · exact .inr ⟨bytes, hgrows _ (journalName_row _ _ _) _ hrow, hserialize⟩

def EvidenceOk (requested : StorageSettlement) (evidence : Option Bytes) : Prop :=
  if requested.action = .pay then ∃ e, evidence = some e ∧ evidenceValid e requested = true else evidence = none

/-- The request may be stored: it is retained, or its inputs were valid. -/
def Submission.Accepted (c : Submission) : Prop := c.retained.isSome = true ∨ c.inputs = some .none

def Submission.Knows (node : SettlementNode) (rows : JournalRows) (c : Submission) (b : Bytes) : Prop :=
  match c.point with
  | .read => c.retained = none ∧ c.inputs = none ∧ c.wrote = false
  | .evidence => c.inputs = none ∧ c.wrote = false ∧ (c.retained = none ∨ BodyStored node rows c.requested b)
  | .check evidence => c.inputs = none ∧ c.wrote = false ∧ (c.retained = none ∨ BodyStored node rows c.requested b) ∧
      EvidenceOk c.requested evidence
  | .prepare evidence => c.Accepted ∧ EvidenceOk c.requested evidence ∧
      (BindingsSized (.storageSettlement c.requested) ∨ BodyStored node rows c.requested b)
  | .reread => c.Accepted ∧ BodyStored node rows c.requested b
  | .sign s => c.Accepted ∧ BodyStored node rows c.requested b ∧ decodeSettlement b = some s ∧
      s.blank = s ∧ node.verifies s = false
  | .save s => c.Accepted ∧ BodyStored node rows c.requested b ∧ decodeSettlement b = some s.blank ∧
      node.verifies s = true ∧ node.verifies s.blank = false
  | .confirm => c.Accepted ∧ BodyStored node rows c.requested b ∧
      rows (settlementJournalKey node.network c.requested ++ SIGNED_SUFFIX) ≠ none
  | .submit s => c.Accepted ∧ Submittable node rows s b
  | .finished _ => c.Accepted ∨ c.wrote = false

theorem Submission.Knows.grow {c : Submission} {b : Bytes} (h : c.Knows node rows b) (hgrows : Grows rows rows') :
    c.Knows node rows' b := by
  unfold Submission.Knows at h ⊢
  cases hpoint : c.point with
  | read =>
    rw [hpoint] at h
    exact h
  | evidence =>
    rw [hpoint] at h
    exact ⟨h.1, h.2.1, h.2.2.imp id fun hstored => hstored.grow hgrows⟩
  | check evidence =>
    rw [hpoint] at h
    exact ⟨h.1, h.2.1, h.2.2.1.imp id fun hstored => hstored.grow hgrows, h.2.2.2⟩
  | prepare evidence =>
    rw [hpoint] at h
    exact ⟨h.1, h.2.1, h.2.2.imp id fun hstored => hstored.grow hgrows⟩
  | reread =>
    rw [hpoint] at h
    exact ⟨h.1, h.2.grow hgrows⟩
  | sign s =>
    rw [hpoint] at h
    exact ⟨h.1, h.2.1.grow hgrows, h.2.2⟩
  | save s =>
    rw [hpoint] at h
    exact ⟨h.1, h.2.1.grow hgrows, h.2.2⟩
  | confirm =>
    rw [hpoint] at h
    refine ⟨h.1, h.2.1.grow hgrows, ?_⟩
    obtain ⟨row, hrow⟩ := Option.ne_none_iff_exists'.mp h.2.2
    rw [hgrows _ (journalName_row _ _ _) row hrow]
    exact nofun
  | submit s =>
    rw [hpoint] at h
    exact ⟨h.1, h.2.grow hgrows⟩
  | finished outcome =>
    rw [hpoint] at h
    exact h

/-- A call that runs: what it knows, or it ends at once because its request has no body. -/
def Submission.Sound (node : SettlementNode) (rows : JournalRows) (c : Submission) : Prop :=
  (preparedBytes c.requested = none → c.wrote = false) ∧ ∀ b, preparedBytes c.requested = some b → c.Knows node rows b

theorem preparedSettlement_locked (db : PrivateApplicationStore) (hlocked : db.unlocked = false)
    (request : StorageSettlement) :
    preparedSettlement node db true request = .error ⟨"settlement journal unavailable"⟩ := by
  rw [preparedSettlement, if_pos (.inr hlocked)]

variable {signed settlement : StorageSettlement}

theorem readBack_of_read {unlocked : Bool} (h : JournalOk node rows)
    (hread : preparedSettlement node { unlocked, rows } true request = .ok (some settlement)) :
    ∃ body, ReadBack node rows (settlementJournalKey node.network request) body settlement := by
  cases hunlocked : unlocked with
  | false =>
    rw [preparedSettlement_locked _ hunlocked] at hread
    cases hread
  | true =>
    rcases preparedSettlement_ok { unlocked, rows } h hunlocked request with ⟨hok, -⟩ | ⟨body, other, hok, hback⟩
    · rw [hok] at hread
      cases hread
    · rw [hok] at hread
      cases hread
      exact ⟨body, hback⟩

theorem bodyStored_of_read {unlocked : Bool} {b : Bytes} (h : JournalOk node rows)
    (hread : preparedSettlement node { unlocked, rows } true request = .ok (some settlement))
    (hb : preparedBytes settlement = some b) : BodyStored node rows request b := by
  obtain ⟨body, hback⟩ := readBack_of_read h hread
  obtain ⟨b', hb', hrow⟩ := hback.recorded.prepared
  have hsame : preparedBytes settlement = preparedBytes body := by
    rw [← hback.blank]
    rfl
  rw [BodyStored, hrow, ← Option.some.inj (hb.symm.trans (hsame.trans hb'))]

theorem ReadBack.submittable {b : Bytes}
    (h : ReadBack node rows (settlementJournalKey node.network request) body settlement)
    (hstored : BodyStored node rows request b) (hverifies : node.verifies settlement = true) :
    Submittable node rows settlement b := by
  obtain ⟨hprepared, hdecode⟩ := h.recorded.decode hstored
  have hkey : settlementJournalKey node.network settlement = settlementJournalKey node.network request := by
    rw [← h.recorded.key_eq, ← h.blank]
    rfl
  refine ⟨?_, ?_, ?_, hverifies, ?_⟩
  · rw [BodyStored, hkey]
    exact hstored
  · rw [← hprepared, ← h.blank]
    rfl
  · rw [hdecode, h.blank]
  · rcases h.current with rfl | ⟨bytes, hrow, hserialize, -⟩
    · exact .inl h.blank
    · rw [hkey]
      exact .inr ⟨bytes, hrow, hserialize⟩

/-! ### The two batches -/

variable {edits : List (Edit Bytes ApplicationRow)}

omit [Crypto] in
theorem grows_of_vacant (h : ∀ e ∈ edits, rows e.key = none) :
    Grows rows (rows.apply edits) := by
  intro name _ row hrow
  rw [Store.apply_of_forall_ne, hrow]
  rintro e he rfl
  rw [h e he] at hrow
  cases hrow

omit [Crypto] in
theorem apply_bodyEdits (rows : JournalRows) (key b : Bytes) (evidence : Option Bytes) :
    rows.apply (bodyEdits key b evidence) (key ++ PREPARED_SUFFIX) = some (.value b) ∧
    rows.apply (bodyEdits key b evidence) (key ++ EVIDENCE_SUFFIX) =
      (evidence.map .value).or (rows (key ++ EVIDENCE_SUFFIX)) ∧
    rows.apply (bodyEdits key b evidence) (key ++ SIGNED_SUFFIX) = rows (key ++ SIGNED_SUFFIX) := by
  have hprepared : key ++ PREPARED_SUFFIX ≠ key ++ EVIDENCE_SUFFIX :=
    fun heq => absurd (row_inj mem_prepared mem_evidence heq).2 (by decide)
  have hsigned : key ++ SIGNED_SUFFIX ≠ key ++ EVIDENCE_SUFFIX :=
    fun heq => absurd (row_inj mem_signed mem_evidence heq).2 (by decide)
  have hsigned' : key ++ SIGNED_SUFFIX ≠ key ++ PREPARED_SUFFIX :=
    fun heq => absurd (row_inj mem_signed mem_prepared heq).2 (by decide)
  cases evidence with
  | none =>
    rw [bodyEdits, Option.toList_none, List.map_nil, Store.apply_cons, Store.apply_nil, Edit.key, Edit.value]
    refine ⟨Function.update_self .., ?_, Function.update_of_ne hsigned' ..⟩
    rw [Function.update_of_ne hprepared.symm, Option.map_none, Option.none_or]
  | some e =>
    rw [bodyEdits, Option.toList_some, List.map_cons, List.map_nil, Store.apply_cons, Store.apply_cons, Store.apply_nil,
      Edit.key, Edit.value, Edit.key, Edit.value]
    refine ⟨?_, Function.update_self .., ?_⟩
    · rw [Function.update_of_ne hprepared, Function.update_self]
    · rw [Function.update_of_ne hsigned, Function.update_of_ne hsigned']

variable {evidence : Option Bytes}

theorem bodyRecorded_apply {requested : StorageSettlement} {b : Bytes}
    (hb : preparedBytes requested = some b) (hsized : BindingsSized (.storageSettlement requested))
    (hevidence : EvidenceOk requested evidence)
    (hvacant : VacantScope rows (settlementJournalKey node.network requested)) :
    BodyRecorded node (rows.apply (bodyEdits (settlementJournalKey node.network requested) b evidence))
      (settlementJournalKey node.network requested) requested.blank := by
  obtain ⟨hprepared, hrow, hsigned⟩ := apply_bodyEdits rows (settlementJournalKey node.network requested) b evidence
  have haction : requested.blank.action = requested.action := rfl
  refine ⟨rfl, hsized, rfl, ⟨b, hb, hprepared⟩, ?_, .inl (hsigned.trans (hvacant _ mem_signed))⟩
  rw [haction, hrow, hvacant _ mem_evidence]
  rw [EvidenceOk] at hevidence
  split
  next hpay =>
    rw [if_pos hpay] at hevidence
    obtain ⟨e, rfl, hvalid⟩ := hevidence
    exact ⟨e, rfl, hvalid⟩
  next hpay =>
    rw [if_neg hpay] at hevidence
    rw [hevidence]
    rfl

/-- What the changes of a batch leave for the scope of a request. -/
structure BatchOk (node : SettlementNode) (rows : JournalRows) (request : StorageSettlement) (b : Bytes)
    (edits : List (Edit Bytes ApplicationRow)) : Prop where
  journal : JournalOk node (rows.apply edits)
  grows : Grows rows (rows.apply edits)
  stored : BodyStored node (rows.apply edits) request b

/-- The batch of `Prepare` is sound for the scope of its request. -/
theorem prepareEdits_ok (db : PrivateApplicationStore) (h : JournalOk node db.rows) {b : Bytes}
    (hb : preparedBytes request = some b)
    (hsized : BindingsSized (.storageSettlement request) ∨ BodyStored node db.rows request b)
    (hevidence : EvidenceOk request evidence)
    (hedits : prepareEdits db (settlementJournalKey node.network request) b evidence = .ok edits) :
    BatchOk node db.rows request b edits := by
  rw [prepareEdits] at hedits
  split at hedits
  · cases hedits
  next hunlocked =>
    rw [Bool.not_eq_false] at hunlocked
    split at hedits
    next prior hprior =>
      split at hedits
      · cases hedits
      split at hedits
      · cases hedits
      next hsame =>
        cases hedits
        refine ⟨h, Grows.refl _, ?_⟩
        rw [BodyStored, Store.apply_nil, PrivateApplicationStore.row_of_get hprior, not_not.mp hsame]
    next hnone =>
      split at hedits
      · cases hedits
      · cases hedits
        have hvacant : VacantScope db.rows (settlementJournalKey node.network request) := by
          rcases h.scope request with hvacant | ⟨body, hbody⟩
          · exact hvacant
          · obtain ⟨b', -, hrow⟩ := hbody.prepared
            rw [PrivateApplicationStore.get_of_usable hunlocked (usable_row _ _ mem_prepared) hrow] at hnone
            cases hnone
        have hsized : BindingsSized (.storageSettlement request) := by
          rcases hsized with hsized | hstored
          · exact hsized
          · rw [BodyStored, hvacant _ mem_prepared] at hstored
            cases hstored
        have hrecorded := bodyRecorded_apply hb hsized hevidence hvacant
        refine ⟨h.update request (fun name hname => ?_) ⟨_, hrecorded⟩, grows_of_vacant fun e he => ?_, ?_⟩
        · refine Store.apply_of_forall_ne fun e he => ?_
          rcases List.mem_cons.mp he with rfl | he
          · exact (hname _ mem_prepared).symm
          · obtain ⟨bytes, -, rfl⟩ := List.mem_map.mp he
            exact (hname _ mem_evidence).symm
        · rcases List.mem_cons.mp he with rfl | he
          · exact hvacant _ mem_prepared
          · obtain ⟨bytes, -, rfl⟩ := List.mem_map.mp he
            exact hvacant _ mem_evidence
        · exact (apply_bodyEdits db.rows _ b evidence).1

theorem bodyRecorded_signed (h : BodyRecorded node rows key body) {bytes : Bytes}
    (hserialize : serializeProtocolOperation (.storageSettlement signed) = some bytes) (hblank : signed.blank = body)
    (hverifies : node.verifies signed = true) (hbody : node.verifies body = false) :
    BodyRecorded node (rows.apply [.put (key ++ SIGNED_SUFFIX) (.value bytes)]) key body := by
  have hkept : ∀ suffix ∈ ROW_SUFFIXES, suffix ≠ SIGNED_SUFFIX →
      rows.apply [.put (key ++ SIGNED_SUFFIX) (.value bytes)] (key ++ suffix) = rows (key ++ suffix) := by
    intro suffix hsuffix hne
    refine Store.apply_of_forall_ne fun e he heq => ?_
    rw [List.mem_singleton.mp he] at heq
    exact hne (row_inj mem_signed hsuffix heq).2.symm
  have hrow : rows.apply [.put (key ++ SIGNED_SUFFIX) (.value bytes)] (key ++ SIGNED_SUFFIX) = some (.value bytes) := by
    rw [Store.apply_cons, Store.apply_nil, Edit.key, Edit.value, Function.update_self]
  refine ⟨h.blank, h.sized, h.key_eq, ?_, ?_, .inr ⟨signed, bytes, hrow, hserialize, hblank, hverifies, hbody⟩⟩
  · rw [hkept _ mem_prepared (by decide)]
    exact h.prepared
  · rw [hkept _ mem_evidence (by decide)]
    exact h.evidence

/-- The batch that saves a signed settlement is sound for its scope. -/
theorem saveEdits_ok (db : PrivateApplicationStore) (h : JournalOk node db.rows) {b bytes : Bytes}
    (hstored : BodyStored node db.rows request b)
    (hdecode : decodeSettlement b = some signed.blank) (hverifies : node.verifies signed = true)
    (hbody : node.verifies signed.blank = false)
    (hserialize : serializeProtocolOperation (.storageSettlement signed) = some bytes)
    (hedits : saveEdits db (settlementJournalKey node.network request) b bytes = .ok edits) :
    BatchOk node db.rows request b edits ∧
      db.rows.apply edits (settlementJournalKey node.network request ++ SIGNED_SUFFIX) ≠ none := by
  rw [saveEdits] at hedits
  split at hedits
  · cases hedits
  split at hedits
  next hhas =>
    cases hedits
    refine ⟨⟨h, Grows.refl _, hstored⟩, fun hnone => ?_⟩
    rw [PrivateApplicationStore.has_of_absent hnone] at hhas
    cases hhas
  next hhas =>
    split at hedits
    · cases hedits
    next hput =>
      cases hedits
      rw [PrivateApplicationStore.canPut, Bool.not_eq_false, Bool.and_eq_true] at hput
      have hnone : db.rows (settlementJournalKey node.network request ++ SIGNED_SUFFIX) = none := by
        by_contra hrow
        obtain ⟨row, hrow⟩ := Option.ne_none_iff_exists'.mp hrow
        exact hhas (has_of_present hput.2 (usable_row _ _ mem_signed) hrow)
      have hrecorded : ∃ body, BodyRecorded node
          (db.rows.apply [.put (settlementJournalKey node.network request ++ SIGNED_SUFFIX) (.value bytes)])
          (settlementJournalKey node.network request) body := by
        rcases h.scope request with hvacant | ⟨body, hrecorded⟩
        · rw [BodyStored, hvacant _ mem_prepared] at hstored
          cases hstored
        · have hblank : signed.blank = body :=
            Option.some.inj (hdecode.symm.trans (hrecorded.decode hstored).2)
          exact ⟨body, bodyRecorded_signed hrecorded hserialize hblank hverifies (hblank ▸ hbody)⟩
      refine ⟨⟨h.update request (fun name hname => ?_) hrecorded, grows_of_vacant fun e he => ?_, ?_⟩, ?_⟩
      · refine Store.apply_of_forall_ne fun e he heq => ?_
        rw [List.mem_singleton.mp he] at heq
        exact hname _ mem_signed heq.symm
      · rw [List.mem_singleton.mp he]
        exact hnone
      · rw [BodyStored, Store.apply_of_forall_ne, hstored]
        intro e he heq
        rw [List.mem_singleton.mp he] at heq
        exact absurd (row_inj mem_signed mem_prepared heq).2 (by decide)
      · rw [Store.apply_cons, Store.apply_nil, Edit.key, Edit.value, Function.update_self]
        exact fun h => by cases h

/-! ### One transaction -/

structure TransactionOk (node : SettlementNode) (rows : JournalRows) (requested : StorageSettlement) (b : Bytes)
    (left : SubmissionStep) : Prop where
  requested_eq : left.call.requested = requested
  journal : JournalOk node left.rows
  grows : Grows rows left.rows
  knows : left.call.Knows node left.rows b
  handed : ∀ s ∈ left.handed, Submittable node left.rows s b
  /-- A call that has handed nothing to the database has left the rows alone. -/
  idle : left.call.wrote = false → left.rows = rows

variable {c : Submission} {b : Bytes}

theorem TransactionOk.goto (h : JournalOk node rows) {point : SubmitPoint}
    (hknows : Submission.Knows node rows { c with point } b) : TransactionOk node rows c.requested b (c.goto rows point) :=
  ⟨rfl, h, Grows.refl _, hknows, nofun, fun _ => rfl⟩

theorem TransactionOk.finish (h : JournalOk node rows) (hidle : c.Accepted ∨ c.wrote = false)
    (outcome : Except RuntimeError SubmitOutcome) : TransactionOk node rows c.requested b (c.finish rows outcome) :=
  .goto h hidle

theorem TransactionOk.commit (db : PrivateApplicationStore)
    (next : SubmitPoint) (h : JournalOk node db.rows) (hbatch : BatchOk node db.rows c.requested b edits)
    (haccepted : c.Accepted)
    (hnext : ∀ wrote, Submission.Knows node (db.rows.apply edits) { c with point := next, wrote } b) (fate : Fate)
    (fault : RuntimeError) : TransactionOk node db.rows c.requested b (c.commit db edits fate next fault) := by
  have hidle : (c.wrote || !edits.isEmpty) = false → db.rows.apply edits = db.rows := by
    intro hwrote
    rw [Bool.or_eq_false_iff, Bool.not_eq_false', List.isEmpty_iff] at hwrote
    rw [hwrote.2, Store.apply_nil]
  rw [Submission.commit, commitEdits]
  by_cases hlocked : db.unlocked = false
  · rw [if_pos hlocked]
    exact ⟨rfl, h, Grows.refl _, .inl haccepted, nofun, fun _ => rfl⟩
  · rw [if_neg hlocked]
    cases fate with
    | done => exact ⟨rfl, hbatch.journal, hbatch.grows, hnext _, nofun, hidle⟩
    | lost => exact ⟨rfl, h, Grows.refl _, .inl haccepted, nofun, fun _ => rfl⟩
    | stored => exact ⟨rfl, hbatch.journal, hbatch.grows, .inl haccepted, nofun, hidle⟩

theorem evidenceOk_of_submitEvidence (h : submitEvidence db key c = some evidence) :
    EvidenceOk c.requested evidence := by
  rw [submitEvidence] at h
  rw [EvidenceOk]
  cases haction : c.requested.action with
  | pay =>
    rw [haction] at h
    dsimp only at h
    rw [if_pos rfl]
    split at h
    · cases h
    next bytes hbytes =>
      rw [Option.ite_none_left_eq_some] at h
      exact ⟨bytes, (Option.some.inj h.2).symm, Bool.not_eq_false _ ▸ h.1⟩
  | prepare =>
    rw [haction] at h
    rw [if_neg (by decide)]
    exact (Option.some.inj (Option.ite_none_left_eq_some.mp h).2).symm
  | activate =>
    rw [haction] at h
    rw [if_neg (by decide)]
    exact (Option.some.inj (Option.ite_none_left_eq_some.mp h).2).symm

theorem SettlementNode.sign_eq_some {env : SettlementEnv} {s : StorageSettlement} (h : node.sign env s = some signed) :
    signed.blank = s.blank ∧ node.verifies signed = true := by
  rw [SettlementNode.sign, Option.ite_none_left_eq_some] at h
  obtain ⟨digest, hdigest, h⟩ := Option.bind_eq_some_iff.mp h.2
  obtain ⟨signature, -, h⟩ := Option.bind_eq_some_iff.mp h
  rw [Option.ite_none_left_eq_some, Bool.not_eq_false] at h
  obtain ⟨hverify, heq⟩ := h
  cases heq
  refine ⟨rfl, ?_⟩
  have hsame : computeStorageSettlementDigest node.network { s with poaSignature := signature } = some digest := hdigest
  rw [SettlementNode.verifies, hsame]
  exact hverify

/-- A transaction at any of its places keeps the journal sound. -/
theorem transaction_ok (h : JournalOk node rows) (hb : preparedBytes c.requested = some b) (hknows : c.Knows node rows b)
    (env : SettlementEnv) : TransactionOk node rows c.requested b (c.stepWith node b env rows) := by
  rw [Submission.stepWith]
  dsimp only
  unfold Submission.Knows at hknows
  cases hpoint : c.point with
  | read =>
    rw [hpoint] at hknows
    dsimp only
    obtain ⟨hretained, hinputs, hwrote⟩ := hknows
    cases hread : preparedSettlement node { unlocked := env.unlocked, rows } true c.requested with
    | error e => exact .finish h (.inr hwrote) _
    | ok retained =>
      cases retained with
      | none => exact .goto h ⟨hinputs, hwrote, .inl hretained⟩
      | some retained =>
        dsimp only
        split
        · exact .finish h (.inr hwrote) _
        next hsame =>
          exact TransactionOk.goto (c := { c with retained := some retained }) h
            ⟨hinputs, hwrote, .inr (bodyStored_of_read h hread (not_not.mp hsame))⟩
  | evidence =>
    rw [hpoint] at hknows
    dsimp only
    cases hevidence : submitEvidence { unlocked := env.unlocked, rows } (settlementJournalKey node.network c.requested) c with
    | none => exact .finish h (.inr hknows.2.1) _
    | some evidence => exact .goto h ⟨hknows.1, hknows.2.1, hknows.2.2, evidenceOk_of_submitEvidence hevidence⟩
  | check evidence =>
    rw [hpoint] at hknows
    dsimp only
    obtain ⟨hinputs, hwrote, hretained, hevidence⟩ := hknows
    split
    next hsome =>
      refine .goto h ⟨.inl hsome, hevidence, .inr ?_⟩
      rcases hretained with hnone | hstored
      · rw [hnone] at hsome
        cases hsome
      · exact hstored
    · split
      · exact TransactionOk.finish (c := { c with inputs := some (node.checkInputs env c.requested) }) h (.inr hwrote) _
      next hvalid =>
        rw [not_not] at hvalid
        exact TransactionOk.goto (c := { c with inputs := some (node.checkInputs env c.requested) }) h
          ⟨.inr (congrArg some hvalid), hevidence, .inl (bindingsSized_of_checkInputs hb hvalid)⟩
  | prepare evidence =>
    rw [hpoint] at hknows
    dsimp only
    obtain ⟨haccepted, hevidence, hsized⟩ := hknows
    cases hedits : prepareEdits { unlocked := env.unlocked, rows } (settlementJournalKey node.network c.requested) b
        evidence with
    | error e => exact .finish h (.inl haccepted) _
    | ok edits =>
      have hbatch := prepareEdits_ok _ h hb hsized hevidence hedits
      exact .commit _ .reread h hbatch haccepted (fun _ => ⟨haccepted, hbatch.stored⟩) env.fate _
  | reread =>
    rw [hpoint] at hknows
    dsimp only
    obtain ⟨haccepted, hstored⟩ := hknows
    cases hread : preparedSettlement node { unlocked := env.unlocked, rows } true c.requested with
    | error e => exact .finish h (.inl haccepted) _
    | ok settlement =>
      cases settlement with
      | none => exact .finish h (.inl haccepted) _
      | some settlement =>
        dsimp only
        split
        · exact .finish h (.inl haccepted) _
        · obtain ⟨body, hback⟩ := readBack_of_read h hread
          split
          next hverifies => exact .goto h ⟨haccepted, hback.submittable hstored hverifies⟩
          next hverifies =>
            obtain ⟨-, hdecode⟩ := hback.recorded.decode hstored
            rcases hback.current with rfl | ⟨bytes, -, -, hsigned, -⟩
            · exact .goto h ⟨haccepted, hstored, hdecode, hback.blank, Bool.not_eq_true _ ▸ hverifies⟩
            · exact absurd hsigned hverifies
  | sign s =>
    rw [hpoint] at hknows
    dsimp only
    obtain ⟨haccepted, hstored, hdecode, hblank, hverifies⟩ := hknows
    cases hsigned : node.sign env s with
    | none => exact .finish h (.inl haccepted) _
    | some signed =>
      obtain ⟨hsame, hsound⟩ := SettlementNode.sign_eq_some hsigned
      refine .goto h ⟨haccepted, hstored, ?_, hsound, ?_⟩
      · rw [hsame, hblank, hdecode]
      · rw [hsame, hblank, hverifies]
  | save s =>
    rw [hpoint] at hknows
    dsimp only
    obtain ⟨haccepted, hstored, hdecode, hverifies, hbody⟩ := hknows
    cases hserialize : serializeProtocolOperation (.storageSettlement s) with
    | none => exact .finish h (.inl haccepted) _
    | some bytes =>
      dsimp only
      cases hedits : saveEdits { unlocked := env.unlocked, rows } (settlementJournalKey node.network c.requested) b
          bytes with
      | error e => exact .finish h (.inl haccepted) _
      | ok edits =>
        obtain ⟨hbatch, hsigned⟩ := saveEdits_ok _ h hstored hdecode hverifies hbody hserialize hedits
        exact .commit _ .confirm h hbatch haccepted (fun _ => ⟨haccepted, hbatch.stored, hsigned⟩) env.fate _
  | confirm =>
    rw [hpoint] at hknows
    dsimp only
    obtain ⟨haccepted, hstored, hsigned⟩ := hknows
    cases hread : preparedSettlement node { unlocked := env.unlocked, rows } true c.requested with
    | error e => exact .finish h (.inl haccepted) _
    | ok settlement =>
      cases settlement with
      | none => exact .finish h (.inl haccepted) _
      | some settlement =>
        obtain ⟨body, hback⟩ := readBack_of_read h hread
        exact .goto h ⟨haccepted, hback.submittable hstored (hback.signed hsigned)⟩
  | submit s =>
    rw [hpoint] at hknows
    dsimp only
    obtain ⟨haccepted, hsubmittable⟩ := hknows
    split
    · exact .finish h (.inl haccepted) _
    · split
      · exact .finish h (.inl haccepted) _
      · refine ⟨rfl, h, Grows.refl _, .inl haccepted, fun other hother => ?_, fun _ => rfl⟩
        cases hother
        exact hsubmittable
  | finished outcome =>
    rw [hpoint] at hknows
    exact .finish h hknows outcome

/-! ### Runs -/

theorem Submission.Sound.grow (h : c.Sound node rows) (hgrows : Grows rows rows') : c.Sound node rows' :=
  ⟨h.1, fun b hb => (h.2 b hb).grow hgrows⟩

/-- What a transaction leaves of a call that may have no body. -/
structure StepOk (node : SettlementNode) (rows : JournalRows) (left : SubmissionStep) : Prop where
  journal : JournalOk node left.rows
  grows : Grows rows left.rows
  sound : left.call.Sound node left.rows
  handed : ∀ s ∈ left.handed, ∃ b, Submittable node left.rows s b
  idle : left.call.wrote = false → left.rows = rows

theorem step_ok (h : JournalOk node rows) (hsound : c.Sound node rows) (env : SettlementEnv) :
    StepOk node rows (c.step node env rows) := by
  rw [Submission.step]
  cases hbody : preparedBytes c.requested with
  | none =>
    refine ⟨h, Grows.refl _, ⟨fun _ => hsound.1 hbody, fun b hb => ?_⟩, nofun, fun _ => rfl⟩
    have hnone : preparedBytes c.requested = some b := hb
    rw [hbody] at hnone
    cases hnone
  | some b =>
    have hok := transaction_ok h hbody (hsound.2 b hbody) env
    refine ⟨hok.journal, hok.grows, ⟨fun hnone => ?_, fun b' hb' => ?_⟩, fun s hs => ⟨b, hok.handed s hs⟩, hok.idle⟩
    · rw [hok.requested_eq, hbody] at hnone
      cases hnone
    · rw [hok.requested_eq, hbody, Option.some.injEq] at hb'
      exact hb' ▸ hok.knows

structure StateOk (node : SettlementNode) (s : SettlementState) : Prop where
  journal : JournalOk node s.rows
  calls : ∀ c ∈ s.calls, c.Sound node s.rows
  submitted : ∀ t ∈ s.submitted, ∃ b, Submittable node s.rows t b

variable {s s' : SettlementState} {event : SettlementEvent}

theorem StateOk.step (h : StateOk node s) (hstep : s.Step node event s') : StateOk node s' ∧ Grows s.rows s'.rows := by
  cases hstep with
  | submitSettlement requested references =>
    refine ⟨⟨h.journal, fun c hc => ?_, h.submitted⟩, Grows.refl _⟩
    rcases List.mem_append.mp hc with hc | hc
    · exact h.calls c hc
    · rw [List.mem_singleton.mp hc]
      exact ⟨fun _ => rfl, fun _ _ => ⟨rfl, rfl, rfl⟩⟩
  | transaction i env c hcall =>
    have hok := step_ok h.journal (h.calls c (List.mem_of_getElem? hcall)) env
    refine ⟨⟨hok.journal, fun other hother => ?_, fun t ht => ?_⟩, hok.grows⟩
    · rcases List.mem_or_eq_of_mem_set hother with hold | rfl
      · exact (h.calls other hold).grow hok.grows
      · exact hok.sound
    · rcases List.mem_append.mp ht with hnew | hold
      · exact hok.handed t (Option.mem_toList.mp hnew)
      · obtain ⟨b, hsubmittable⟩ := h.submitted t hold
        exact ⟨b, hsubmittable.grow hok.grows⟩
  | prepareSettlement period => exact ⟨h, Grows.refl _⟩
  | restart => exact ⟨⟨h.journal, fun _ hc => absurd hc List.not_mem_nil, h.submitted⟩, Grows.refl _⟩
  | other rows hrows =>
    have hgrows : Grows s.rows rows := fun name hname row hrow => (hrows name hname).trans hrow
    refine ⟨⟨h.journal.congr hrows, fun c hc => (h.calls c hc).grow hgrows, fun t ht => ?_⟩, hgrows⟩
    obtain ⟨b, hsubmittable⟩ := h.submitted t ht
    exact ⟨b, hsubmittable.grow hgrows⟩

theorem StateOk.run (h : StateOk node s) (hrun : s.Run node s') : StateOk node s' ∧ Grows s.rows s'.rows := by
  induction hrun with
  | refl => exact ⟨h, Grows.refl _⟩
  | step before hstep ih =>
    obtain ⟨hok, hgrows⟩ := ih.1.step hstep
    exact ⟨hok, ih.2.trans hgrows⟩

theorem StateOk.initial {rows : JournalRows} (h : ∀ name, JournalName name → rows name = none) :
    StateOk node (.initial rows) :=
  ⟨.empty h, fun _ hc => absurd hc List.not_mem_nil, fun _ ht => absurd ht List.not_mem_nil⟩

/-- A call whose request is neither retained nor known to be valid has stored nothing. -/
theorem Submission.Sound.idle (h : c.Sound node rows) (hretained : c.retained = none) (hinputs : c.inputs ≠ some .none) :
    c.wrote = false := by
  have hrefused : ¬c.Accepted := by
    rintro (hsome | hvalid)
    · rw [hretained] at hsome
      cases hsome
    · exact hinputs hvalid
  cases hbody : preparedBytes c.requested with
  | none => exact h.1 hbody
  | some b =>
    have hknows := h.2 b hbody
    unfold Submission.Knows at hknows
    cases hpoint : c.point with
    | read =>
      rw [hpoint] at hknows
      exact hknows.2.2
    | evidence =>
      rw [hpoint] at hknows
      exact hknows.2.1
    | check evidence =>
      rw [hpoint] at hknows
      exact hknows.2.1
    | finished outcome =>
      rw [hpoint] at hknows
      exact hknows.resolve_left hrefused
    | prepare evidence =>
      rw [hpoint] at hknows
      exact absurd hknows.1 hrefused
    | reread =>
      rw [hpoint] at hknows
      exact absurd hknows.1 hrefused
    | sign s =>
      rw [hpoint] at hknows
      exact absurd hknows.1 hrefused
    | save s =>
      rw [hpoint] at hknows
      exact absurd hknows.1 hrefused
    | confirm =>
      rw [hpoint] at hknows
      exact absurd hknows.1 hrefused
    | submit s =>
      rw [hpoint] at hknows
      exact absurd hknows.1 hrefused

/-! ### The journal is safe -/

def SettlementState.row (node : SettlementNode) (s : SettlementState) (request : StorageSettlement) (suffix : Bytes) :
    Option ApplicationRow := s.rows (settlementJournalKey node.network request ++ suffix)

/-- What holds at every state of a run. -/
structure SettlementSafe (node : SettlementNode) (s : SettlementState) : Prop where
  /-- What is prepared for a scope is a body of this scope, and stays the only one. -/
  prepared : ∀ request row, s.row node request PREPARED_SUFFIX = some row →
    (∃ b body, row = .value b ∧ decodeSettlement b = some body ∧ preparedBytes body = some b ∧
      body.actionScope = request.actionScope) ∧
    ∀ s', s.Run node s' → s'.row node request PREPARED_SUFFIX = some row
  /-- Every settlement handed to `SubmitOperation` has exactly the body of its scope. -/
  submittedBody : ∀ t ∈ s.submitted, ∃ b, preparedBytes t = some b ∧ s.row node t PREPARED_SUFFIX = some (.value b)
  /-- Once a signed record is stored it stays. -/
  signed : ∀ request row, s.row node request SIGNED_SUFFIX = some row →
    ∀ s', s.Run node s' → s'.row node request SIGNED_SUFFIX = some row
  /-- All submissions of its scope carry its bytes. -/
  submittedSigned : ∀ t ∈ s.submitted, ∀ row, s.row node t SIGNED_SUFFIX = some row →
    ∃ bytes, row = .value bytes ∧ serializeProtocolOperation (.storageSettlement t) = some bytes
  /-- A request that is not retained and whose inputs are not valid hands nothing to the
      database, and a call that has handed nothing to it leaves the rows alone. -/
  refused : ∀ c ∈ s.calls, c.retained = none → c.inputs ≠ some .none → c.wrote = false
  idle : ∀ c ∈ s.calls, ∀ env, (c.step node env s.rows).call.wrote = false → (c.step node env s.rows).rows = s.rows
  /-- `PreparedSettlement` does not throw outside other transactions on an unlocked store. -/
  neverThrows : ∀ request, ∃ result, preparedSettlement node { unlocked := true, rows := s.rows } true request = .ok result

/-- What the invariant says of a single state. -/
theorem StateOk.safe (h : StateOk node s) : SettlementSafe node s where
  prepared := by
    intro request row hrow
    refine ⟨?_, fun s' hrun => (h.run hrun).2 _ (journalName_row _ _ _) row hrow⟩
    rcases h.journal.scope request with hvacant | ⟨body, hrecorded⟩
    · rw [SettlementState.row, hvacant _ mem_prepared] at hrow
      cases hrow
    · obtain ⟨b, hb, hstored⟩ := hrecorded.prepared
      rw [SettlementState.row, hstored] at hrow
      refine ⟨b, body, (Option.some.inj hrow).symm, (hrecorded.decode hstored).2, hb, ?_⟩
      exact settlementJournalKey_inj.mp hrecorded.key_eq
  submittedBody := by
    intro t ht
    obtain ⟨b, hsubmittable⟩ := h.submitted t ht
    exact ⟨b, hsubmittable.prepared, hsubmittable.stored⟩
  signed := fun request row hrow s' hrun => (h.run hrun).2 _ (journalName_row _ _ _) row hrow
  submittedSigned := by
    intro t ht row hrow
    obtain ⟨b, hsubmittable⟩ := h.submitted t ht
    rcases hsubmittable.signed with hblank | ⟨bytes, hsigned, hserialize⟩
    · -- The body alone verifies, so that nothing is ever signed for this scope.
      rcases h.journal.scope t with hvacant | ⟨body, hrecorded⟩
      · rw [SettlementState.row, hvacant _ mem_signed] at hrow
        cases hrow
      · have hbody : t = body := by
          rw [← hblank]
          exact Option.some.inj (hsubmittable.decodes.symm.trans (hrecorded.decode hsubmittable.stored).2)
        rcases hrecorded.signed with hnone | ⟨_, _, -, -, -, -, hunverified⟩
        · rw [SettlementState.row, hnone] at hrow
          cases hrow
        · rw [← hbody, hsubmittable.verifies] at hunverified
          cases hunverified
    · rw [SettlementState.row, hsigned] at hrow
      exact ⟨bytes, (Option.some.inj hrow).symm, hserialize⟩
  refused := fun c hc hretained hinputs => (h.calls c hc).idle hretained hinputs
  idle := fun c hc env => (step_ok h.journal (h.calls c hc) env).idle
  neverThrows := by
    intro request
    rcases preparedSettlement_ok { unlocked := true, rows := s.rows } h.journal rfl request with
      ⟨hok, -⟩ | ⟨body, settlement, hok, -⟩
    · exact ⟨none, hok⟩
    · exact ⟨some settlement, hok⟩

/-- **The settlement journal**, from a database without one, whatever calls are made. -/
theorem settlementJournal_safe {rows : JournalRows} (hfree : ∀ name, JournalName name → rows name = none)
    (hrun : (SettlementState.initial rows).Run node s) : SettlementSafe node s :=
  ((StateOk.initial hfree).run hrun).1.safe

end

/-! ### A settlement that is prepared, signed and submitted -/

def SettlementState.drive [Crypto] (node : SettlementNode) (env : SettlementEnv) (s : SettlementState)
    (c : Submission) : Nat → SettlementState
  | 0 => { s with calls := [c] }
  | n + 1 => drive node env
      { s with
        rows := (c.step node env s.rows).rows
        submitted := (c.step node env s.rows).handed.toList ++ s.submitted }
      (c.step node env s.rows).call n

theorem SettlementState.run_drive [Crypto] {node : SettlementNode} {env : SettlementEnv} {start : SettlementState} (n : Nat) :
    ∀ {s : SettlementState} {c : Submission}, start.Run node { s with calls := [c] } →
      start.Run node (s.drive node env c n) := by
  induction n with
  | zero => exact fun hrun => hrun
  | succ n ih =>
    intro s c hrun
    exact ih (hrun.step (.transaction 0 env c rfl))

section Sample

/-- Of all signatures only zeros are refused. -/
@[reducible] def Crypto.signing : Crypto :=
  { Crypto.sample with verify := fun _ _ signature _ => !isZero signature }

attribute [local instance] Crypto.signing

def sampleSettlementNode : SettlementNode where
  network := FixedBytes.leading 31 9
  params := devProtocolParameters
  poaKey :=
    { purpose := .poaFinalizer
      ed25519 := FixedBytes.leading 31 1
      mlDsa := List.replicate IdentityKeyPurpose.poaFinalizer.publicSize 1 }

def samplePayout : StorageSettlement where
  period := 0
  periodStartUtc := 86400
  periodEndUtc := 172800
  evidenceRoot := Crypto.sha256 (le32Of 0)
  poaSignature := blankSignature

def samplePayoutState : CybouState where
  accounts := ∅
  identities := .empty
  names := {}
  genesisAllocations := (∅ : OrdMap _ _).set (FixedBytes.leading 31 3)
    { balance := 100, label := ascii "carol", claimedBy := none }
  publications := ∅
  settlement := {}
  leases := ∅

def sampleSettlementEnv : SettlementEnv where
  unlocked := true
  fate := .done
  chain := some { state := samplePayoutState, height := 1, blockId := FixedBytes.leading 31 4 }
  signerEnabled := true
  signature := some { ed25519 := FixedBytes.leading 63 1, mlDsa := List.replicate 3309 1 }
  finalized := false

def sampleSettlementRun : SettlementState :=
  (SettlementState.initial fun _ => none).drive sampleSettlementNode sampleSettlementEnv (.start samplePayout []) 9

theorem settlementJournal_safe_sample : sampleSettlementRun.submitted.length = 1 ∧
    SettlementSafe sampleSettlementNode sampleSettlementRun := by
  refine ⟨by decide +kernel, settlementJournal_safe (fun _ _ => rfl) (SettlementState.run_drive 9 ?_)⟩
  exact .step .refl (.submitSettlement samplePayout [])

end Sample

end Cybou
