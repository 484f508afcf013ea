import Cybou.KeyRotationRuns

/-! # Every sequence of calls keeps one data key (`private_application_store.cpp`)

`Under` is the invariant of a run: until a data key is wrapped the rows are those of an
older version, and from then on they are `Wrapped` with the same key.  What the claim of a
rotation is about, `RotationSafe`, follows from it at every state that is reached.
-/

namespace Cybou

open Library

section

variable [RecordCipher] {account : AccountId} {file : StoreFile} {first : RecoveryEntropy} {s s' : RotationState}
  {dataKey : FixedBytes 32}

/-! ### Writing records -/

variable {env : StoreEnv} {changes : List (Bytes × Option Bytes)}

variable {store : SealedStore} {draw : Nat} {batch edits : List (Edit Bytes Bytes)}

theorem recordKey_of_mem_batchEdits (h : store.batchEdits env draw changes = some edits) :
    ∀ e ∈ edits, ∃ change ∈ changes, recordKey store.account store.key change.1 = some e.key := by
  induction changes generalizing draw edits with
  | nil =>
    cases h
    exact fun _ => nofun
  | cons change changes ih =>
    obtain ⟨name, value⟩ := change
    obtain ⟨record, edit, rest, draw', rfl, hrecord, rfl, -, hrest⟩ := batchEdits_cons h
    intro e he
    rcases List.mem_cons.mp he with rfl | he
    · exact ⟨(name, value), List.mem_cons_self, hrecord⟩
    · obtain ⟨other, hother, hkey⟩ := ih hrest e he
      exact ⟨other, List.mem_cons_of_mem _ hother, hkey⟩

/-- No change is to the row of a name. -/
def Spares (account : AccountId) (dataKey : FixedBytes 32) (name : Bytes) (changes : List (Bytes × Option Bytes)) : Prop :=
  ∀ change ∈ changes, recordKey account dataKey change.1 ≠ recordKey account dataKey name

variable {name : Bytes}

theorem rowHolds_of_batchEdits {value : Option Bytes} {before after : List (Bytes × Option Bytes)}
    (h : store.batchEdits env draw (before ++ (name, value) :: after) = some edits)
    (hafter : Spares store.account store.key name after) (rows : DatabaseRows) :
    ∃ record, recordKey store.account store.key name = some record ∧
      RowHolds store.account store.key name ((rows.apply edits).find? record) value := by
  induction before generalizing draw edits rows with
  | nil =>
    obtain ⟨record, edit, rest, draw', rfl, hrecord, hkey, hholds, hrest⟩ := batchEdits_cons h
    refine ⟨record, hrecord, ?_⟩
    have hkept : ((rows.edit edit).apply rest).find? record = (rows.edit edit).find? record := by
      refine OrdMap.find?_write_of_forall_ne (fun e he heq => ?_) .done
      obtain ⟨change, hchange, hsame⟩ := recordKey_of_mem_batchEdits hrest e he
      exact hafter change hchange (by rw [hsame, heq, hrecord])
    change RowHolds store.account store.key name (((rows.edit edit).apply rest).find? record) value
    rw [hkept, ← hkey, OrdMap.find?_edit_self]
    exact hholds
  | cons change before ih =>
    obtain ⟨other, otherValue⟩ := change
    obtain ⟨-, edit, rest, draw', rfl, -, -, -, hrest⟩ := batchEdits_cons h
    exact ih hrest (rows.edit edit)

variable {rows : DatabaseRows}

variable {value : Bytes}

theorem storedValue_of_rowHolds {record : Bytes} (hrecord : recordKey account dataKey name = some record)
    (h : RowHolds account dataKey name (rows.find? record) (some value)) :
    (recordsUnder account rows dataKey).storedValue name = some value := by
  obtain ⟨encoded, hrow, hlength, hdecrypt⟩ := h
  rw [SealedStore.storedValue]
  change ((recordKey account dataKey name).bind fun record => (readBytes rows.find? record).bind
    (decryptRecord account dataKey name)) = some value
  rw [hrecord, Option.bind_some, readBytes_of_small hrow hlength, Option.bind_some, hdecrypt]

variable {rows' : DatabaseRows}

theorem storedValue_congr
    (h : ∀ record, recordKey account dataKey name = some record → rows'.find? record = rows.find? record) :
    (recordsUnder account rows' dataKey).storedValue name = (recordsUnder account rows dataKey).storedValue name := by
  change ((recordKey account dataKey name).bind fun record => (readBytes rows'.find? record).bind
      (decryptRecord account dataKey name)) =
    (recordKey account dataKey name).bind fun record => (readBytes rows.find? record).bind
      (decryptRecord account dataKey name)
  cases hrecord : recordKey account dataKey name with
  | none => rfl
  | some record => rw [Option.bind_some, Option.bind_some, readBytes, readBytes, h record hrecord]

/-! ### The states of a run -/

/-- Nothing has opened the database yet. -/
structure Fresh (account : AccountId) (first : RecoveryEntropy) (s : RotationState) : Prop where
  rows : LegacyRows account first s.rows
  session : s.session = none
  known : s.known = [first]
  lastPrepared : s.lastPrepared = none

structure Holding (account : AccountId) (file : StoreFile) (first : RecoveryEntropy) (s : RotationState)
    (dataKey : FixedBytes 32) : Prop where
  wrapped : Wrapped account s.rows s.known s.lastPrepared dataKey
  session : ∀ check, s.session = some check → check = keyCheck dataKey ∧ CheckedBy account s.rows dataKey
  adopted : file = .app → dataKey = deriveApplicationStoreKey account first

def RotationCall.Spares (account : AccountId) (dataKey : FixedBytes 32) (name : Bytes) : RotationCall → Prop
  | .write _ changes _ => Cybou.Spares account dataKey name changes
  | _ => True

def KeepsRecord (account : AccountId) (dataKey : FixedBytes 32) (name : Bytes) (s s' : RotationState) : Prop :=
  ∀ record, recordKey account dataKey name = some record → s'.rows.find? record = s.rows.find? record

theorem Fresh.initial (h : LegacyRows account first rows) :
    Fresh account first (.initial first rows) := ⟨h, rfl, rfl, rfl⟩

variable {key check : FixedBytes 32} {current lastPrepared : Option RecoveryEntropy}

theorem unwrapKey_of_accessKey (h : accessKey account rows check current = some key) :
    ∃ phrase, current = some phrase ∧ unwrapKey account rows (deriveApplicationStoreKey account phrase) = some key := by
  rw [accessKey, Option.bind_eq_bind, Option.bind_eq_some_iff] at h
  obtain ⟨phrase, hcurrent, h⟩ := h
  rw [Option.bind_eq_some_iff] at h
  obtain ⟨unwrapped, hunwrap, h⟩ := h
  split at h
  · cases h
    exact ⟨phrase, hcurrent, hunwrap⟩
  · cases h

theorem Holding.accessKey (h : Holding account file first s dataKey) (hapart : PhrasesApart account)
    (hkey : accessKey account s.rows check current = some key) : key = dataKey := by
  obtain ⟨phrase, -, hunwrap⟩ := unwrapKey_of_accessKey hkey
  exact Option.some.inj (hunwrap.symm.trans (h.wrapped.unwraps hapart (find?_of_unwrapKey hunwrap)))

omit [RecordCipher] in
theorem record_apart (h : inScan ROW_DB_PREFIX name = true) :
    name ≠ CHECK_DB_KEY ∧ name ≠ ROTATION_DB_KEY ∧ inScan ACCESS_DB_PREFIX name = false := by
  have hlength := length_of_inScan h
  refine ⟨?_, ?_, ?_⟩
  · rintro rfl
    exact absurd hlength (by decide)
  · rintro rfl
    exact absurd hlength (by decide)
  · by_contra hscan
    rw [length_of_inScan (Bool.not_eq_false _ ▸ hscan)] at hlength
    exact absurd hlength (by decide)

/-! ### The rows of an older version -/

omit [RecordCipher] in
theorem NothingStored.empty : NothingStored ∅ := ⟨OrdMap.find?_empty _, fun _ _ => OrdMap.find?_empty _⟩

theorem LegacyRows.empty : LegacyRows account first ∅ :=
  ⟨OrdMap.find?_empty _, fun _ h => h.2 (OrdMap.find?_empty _), OrdMap.find?_empty _, .inl .empty⟩

theorem LegacyRows.congr (h : LegacyRows account first rows)
    (hsame : ∀ name, inScan ROW_DB_PREFIX name = false → name ≠ CHECK_DB_KEY → rows'.find? name = rows.find? name)
    (hcheck : NothingStored rows' ∨ CheckedBy account rows' (deriveApplicationStoreKey account first)) :
    LegacyRows account first rows' := by
  refine ⟨?_, fun name hname => ?_, ?_, hcheck⟩
  · rw [hsame _ (by decide) (by decide), h.notPresent]
  · have hscan : inScan ROW_DB_PREFIX name = false := by
      by_contra hscan
      exact absurd ((record_apart (Bool.not_eq_false _ ▸ hscan)).2.2.symm.trans hname.1) (by decide)
    refine h.noAccess name ⟨hname.1, ?_⟩
    rw [← hsame name hscan]
    · exact hname.2
    · rintro rfl
      exact absurd (length_of_inScan hname.1) (by decide)
  · rw [hsame _ (by decide) (by decide), h.noRotation]

theorem LegacyRows.openLegacyStore (h : LegacyRows account first rows) (env : OpenEnv) :
    LegacyRows account first (openLegacyStore account rows first env).2 := by
  have hopened := openCheck_spec h.check env
  have hrows : (Cybou.openLegacyStore account rows first env).2 =
      (openCheck account rows (deriveApplicationStoreKey account first) env).2 := by
    rw [Cybou.openLegacyStore]
    rcases openCheck account rows (deriveApplicationStoreKey account first) env with ⟨result, rows'⟩
    cases result with
    | error e => rfl
    | ok => rfl
  rw [hrows]
  exact h.congr (fun name _ hname => hopened.frame name hname) hopened.check

theorem find?_write_batchEdits (h : (recordsUnder account rows dataKey).batchEdits env 0 changes = some batch)
    (hname : inScan ROW_DB_PREFIX name = false) (fate : Fate) :
    (rows.write batch fate).find? name = rows.find? name := by
  refine OrdMap.find?_write_of_forall_ne (fun e he heq => ?_) fate
  obtain ⟨change, -, hkey⟩ := recordKey_of_mem_batchEdits h e he
  have hscan : inScan ROW_DB_PREFIX e.key = true := inScan_of_recordKey hkey
  rw [heq, hname] at hscan
  cases hscan

/-! ### One call -/

variable {phrase : RecoveryEntropy}

theorem step_open {env : OpenEnv} (h : s.step account file (.open phrase env) = some s') :
    s.session = none ∧ phrase ∈ s.known ∧
      s' = { s with
        rows := (openStore account file s.rows phrase env).2
        session := (openStore account file s.rows phrase env).1.toOption } := by
  rw [RotationState.step, Option.ite_none_left_eq_some, not_or, not_not] at h
  obtain ⟨⟨hclosed, hknown⟩, h⟩ := h
  exact ⟨Option.not_isSome_iff_eq_none.mp hclosed, hknown, (Option.some.inj h).symm⟩

theorem step_prepare {entropy : RecoveryEntropy} {loadable : Bool}
    {nonce : Option (FixedBytes 12)} {fate : Fate}
    (h : s.step account file (.prepare current entropy loadable nonce fate) = some s') :
    s' = { s with known := entropy :: s.known } ∨
    ∃ check key batch, s.session = some check ∧ accessKey account s.rows check current = some key ∧
      wrapKeyEdits account (deriveApplicationStoreKey account entropy) key true nonce = some batch ∧
      s' = { s with
        rows := s.rows.apply batch
        known := entropy :: s.known
        lastPrepared := some entropy } := by
  rw [RotationState.step, Option.map_eq_some_iff] at h
  obtain ⟨check, hcheck, h⟩ := h
  cases hbatch : prepareKeyRotationEdits account s.rows check current entropy loadable nonce with
  | none =>
    rw [hbatch] at h
    exact .inl h.symm
  | some batch =>
    rw [hbatch] at h
    rw [prepareKeyRotationEdits, Option.bind_eq_bind, Option.bind_eq_some_iff] at hbatch
    obtain ⟨key, hkey, hbatch⟩ := hbatch
    rw [Option.ite_none_left_eq_some] at hbatch
    cases fate with
    | lost => exact .inl h.symm
    | done => exact .inr ⟨check, key, batch, hcheck, hkey, hbatch.2, h.symm⟩
    | stored => exact .inr ⟨check, key, batch, hcheck, hkey, hbatch.2, h.symm⟩

theorem step_write (h : s.step account file (.write current changes env) = some s') :
    s' = s ∨
    ∃ check key batch, s.session = some check ∧ accessKey account s.rows check current = some key ∧
      (recordsUnder account s.rows key).batchEdits env 0 changes = some batch ∧
      s' = { s with rows := s.rows.write batch env.fate } := by
  rw [RotationState.step, Option.map_eq_some_iff] at h
  obtain ⟨check, hcheck, h⟩ := h
  cases hbatch : recordEdits account s.rows check current changes env with
  | none =>
    rw [hbatch] at h
    exact .inl h.symm
  | some batch =>
    rw [hbatch] at h
    rw [recordEdits, Option.bind_eq_bind, Option.bind_eq_some_iff] at hbatch
    obtain ⟨key, hkey, hbatch⟩ := hbatch
    exact .inr ⟨check, key, batch, hcheck, hkey, hbatch, h.symm⟩

omit [RecordCipher] in
theorem eq_ok_of_toOption {error value : Type} {result : Except error value} {a : value}
    (h : result.toOption = some a) : result = .ok a := by
  cases result with
  | error e => cases h
  | ok b =>
    cases h
    rfl

variable {known : List RecoveryEntropy}

theorem OpenedWrapped.own_kept {env : OpenEnv} {opened : Except StoreOpenError (FixedBytes 32) × DatabaseRows}
    (h : OpenedWrapped account known lastPrepared dataKey phrase env rows opened) (hok : opened.1 = .ok check) :
    opened.2.find? (accessName (deriveApplicationStoreKey account phrase)) ≠ none := by
  rw [h.frame _ (fun heq => absurd (heq ▸ length_accessName _) (by decide))
    (fun heq => absurd (heq ▸ length_accessName _) (by decide)) fun _ => rfl]
  exact h.own check hok

theorem OpenedWrapped.record {env : OpenEnv} {opened : Except StoreOpenError (FixedBytes 32) × DatabaseRows}
    (h : OpenedWrapped account known lastPrepared dataKey phrase env rows opened) {record : Bytes}
    (hrecord : inScan ROW_DB_PREFIX record = true) : opened.2.find? record = rows.find? record := by
  obtain ⟨hcheck, hrotation, haccess⟩ := record_apart hrecord
  refine h.frame record hcheck hrotation fun hscan => ?_
  rw [haccess] at hscan
  cases hscan

/-- The step before the first opening that succeeds. -/
theorem Fresh.step {call : RotationCall} (h : Fresh account first s) (hapart : PhrasesApart account)
    (hstep : s.step account file call = some s') :
    Fresh account first s' ∧ s'.rows = s.rows ∨
    ∃ dataKey, Holding account file first s' dataKey ∧ (∀ name, KeepsRecord account dataKey name s s') ∧
      ∃ env, call = .open first env ∧ (s'.session.isSome = true →
        s'.rows.find? (accessName (deriveApplicationStoreKey account first)) ≠ none) := by
  cases call with
  | «open» phrase env =>
    obtain ⟨-, hknown, rfl⟩ := step_open hstep
    rw [h.known, List.mem_singleton] at hknown
    subst hknown
    rcases openStore_legacy h.rows hapart file env with ⟨error, hopened⟩ | ⟨dataKey, wrapped, hopened⟩
    · rw [hopened]
      exact .inl ⟨⟨h.rows, rfl, h.known, h.lastPrepared⟩, rfl⟩
    · refine .inr ⟨dataKey, ⟨?_, fun check hcheck => ?_, hopened.adopted⟩, fun name record hrecord => ?_, env, rfl, ?_⟩
      · rw [h.known, h.lastPrepared]
        exact hopened.opened.wrapped
      · exact hopened.opened.session check (eq_ok_of_toOption hcheck)
      · have hscan := inScan_of_recordKey hrecord
        exact (hopened.opened.record hscan).trans (hopened.written.record hscan)
      · intro hsession
        obtain ⟨check, hcheck⟩ := Option.isSome_iff_exists.mp hsession
        exact hopened.opened.own_kept (eq_ok_of_toOption hcheck)
  | close =>
    cases hstep
    exact .inl ⟨⟨h.rows, rfl, h.known, h.lastPrepared⟩, rfl⟩
  | prepare current entropy loadable nonce fate =>
    rw [RotationState.step, h.session] at hstep
    cases hstep
  | write current changes env =>
    rw [RotationState.step, h.session] at hstep
    cases hstep

theorem Wrapped.know (h : Wrapped account rows known lastPrepared dataKey) (entropy : RecoveryEntropy) :
    Wrapped account rows (entropy :: known) lastPrepared dataKey := by
  refine ⟨h.present, fun name hname => ?_, h.rotation, h.check⟩
  obtain ⟨phrase, hphrase, hkey⟩ := h.access name hname
  exact ⟨phrase, List.mem_cons_of_mem _ hphrase, hkey⟩

/-- The step: the store keeps its data key. -/
theorem Holding.step {call : RotationCall} (h : Holding account file first s dataKey) (hapart : PhrasesApart account)
    (hstep : s.step account file call = some s') : Holding account file first s' dataKey := by
  cases call with
  | «open» phrase env =>
    obtain ⟨-, -, rfl⟩ := step_open hstep
    have hopened := openStore_wrapped h.wrapped hapart file phrase env
    exact ⟨hopened.wrapped, fun check hcheck => hopened.session check (eq_ok_of_toOption hcheck), h.adopted⟩
  | close =>
    cases hstep
    exact ⟨h.wrapped, fun _ => nofun, h.adopted⟩
  | prepare current entropy loadable nonce fate =>
    rcases step_prepare hstep with rfl | ⟨check, key, batch, hcheck, hkey, hbatch, rfl⟩
    · exact ⟨h.wrapped.know entropy, h.session, h.adopted⟩
    · obtain rfl := h.accessKey hapart hkey
      have hwritten : WrapWritten account (deriveApplicationStoreKey account entropy) key true s.rows
          (s.rows.apply batch) := wrapWritten_of_apply hbatch
      refine ⟨h.wrapped.prepared hwritten, fun check' hcheck' => ?_, h.adopted⟩
      obtain ⟨heq, row, hread, hdecrypt⟩ := h.session check' hcheck'
      exact ⟨heq, row, by rwa [readBytes, hwritten.check], hdecrypt⟩
  | write current changes env =>
    rcases step_write hstep with rfl | ⟨check, key, batch, hcheck, hkey, hbatch, rfl⟩
    · exact h
    · obtain rfl := h.accessKey hapart hkey
      have hcheckRow : (s.rows.write batch env.fate).find? CHECK_DB_KEY = s.rows.find? CHECK_DB_KEY :=
        find?_write_batchEdits hbatch (by decide) _
      have hchecked : CheckedBy account (s.rows.write batch env.fate) key := by
        obtain ⟨-, row, hread, hdecrypt⟩ := h.session check hcheck
        exact ⟨row, by rwa [readBytes, hcheckRow], hdecrypt⟩
      refine ⟨h.wrapped.congr (fun name hname _ => find?_write_batchEdits hbatch hname _) (.inr hchecked), ?_, h.adopted⟩
      intro check' hcheck'
      exact ⟨(h.session check' hcheck').1, hchecked⟩

variable {call : RotationCall}

theorem Holding.keepsRecord (h : Holding account file first s dataKey)
    (hapart : PhrasesApart account) (hstep : s.step account file call = some s')
    (hspares : call.Spares account dataKey name) : KeepsRecord account dataKey name s s' := by
  intro record hrecord
  have hscan := inScan_of_recordKey hrecord
  cases call with
  | «open» phrase env =>
    obtain ⟨-, -, rfl⟩ := step_open hstep
    exact (openStore_wrapped h.wrapped hapart file phrase env).record hscan
  | close =>
    cases hstep
    rfl
  | prepare current entropy loadable nonce fate =>
    rcases step_prepare hstep with rfl | ⟨check, key, batch, hcheck, hkey, hbatch, rfl⟩
    · rfl
    · exact (wrapWritten_of_apply hbatch).record hscan
  | write current changes env =>
    rcases step_write hstep with rfl | ⟨check, key, batch, hcheck, hkey, hbatch, rfl⟩
    · rfl
    · obtain rfl := h.accessKey hapart hkey
      refine OrdMap.find?_write_of_forall_ne (fun e he heq => ?_) env.fate
      obtain ⟨change, hchange, hsame⟩ := recordKey_of_mem_batchEdits hbatch e he
      exact hspares change hchange (hsame.trans (heq ▸ hrecord.symm))

/-- Only an opening under the phrase that was prepared last erases an access record, and
    never that of its own phrase. -/
theorem Holding.erased (h : Holding account file first s dataKey) (hapart : PhrasesApart account)
    (hstep : s.step account file call = some s') (hname : HasAccess s.rows name)
    (hgone : ¬HasAccess s'.rows name) :
    ∃ phrase env, call = .open phrase env ∧ s.lastPrepared = some phrase ∧
      name ≠ accessName (deriveApplicationStoreKey account phrase) := by
  have hkept : s'.rows.find? name ≠ s.rows.find? name := by
    intro heq
    exact hgone ⟨hname.1, heq ▸ hname.2⟩
  have hlength := length_of_inScan hname.1
  have hcheck : name ≠ CHECK_DB_KEY := by
    rintro rfl
    exact absurd hlength (by decide)
  have hrotation : name ≠ ROTATION_DB_KEY := by
    rintro rfl
    exact absurd hlength (by decide)
  cases call with
  | «open» phrase env =>
    obtain ⟨-, -, rfl⟩ := step_open hstep
    have hopened := openStore_wrapped h.wrapped hapart file phrase env
    refine ⟨phrase, env, rfl, ?_, ?_⟩
    · by_contra hlast
      exact hkept (hopened.kept hlast name hcheck)
    · intro heq
      exact hkept (hopened.frame name hcheck hrotation fun _ => heq)
  | close =>
    cases hstep
    exact absurd rfl hkept
  | prepare current entropy loadable nonce fate =>
    rcases step_prepare hstep with rfl | ⟨check, key, batch, -, -, hbatch, rfl⟩
    · exact absurd rfl hkept
    · have hwritten : WrapWritten account (deriveApplicationStoreKey account entropy) key true s.rows
          (s.rows.apply batch) := wrapWritten_of_apply hbatch
      by_cases hown : name = accessName (deriveApplicationStoreKey account entropy)
      · rw [hown] at hgone
        exact absurd ⟨inScan_accessName _, find?_of_unwrapKey hwritten.unwraps⟩ hgone
      · exact absurd (hwritten.access hname.1 hown) hkept
  | write current changes env =>
    rcases step_write hstep with rfl | ⟨check, key, batch, -, -, hbatch, rfl⟩
    · exact absurd rfl hkept
    · refine absurd (find?_write_batchEdits hbatch ?_ _) hkept
      by_contra hscan
      rw [length_of_inScan (Bool.not_eq_false _ ▸ hscan)] at hlength
      exact absurd hlength (by decide)

/-! ### Runs -/

variable {calls : List RotationCall}

theorem run_cons (h : s.run account file (call :: calls) = some s') :
    ∃ mid, s.step account file call = some mid ∧ mid.run account file calls = some s' :=
  Option.bind_eq_some_iff.mp h

theorem Holding.run (h : Holding account file first s dataKey) (hapart : PhrasesApart account)
    (hrun : s.run account file calls = some s') : Holding account file first s' dataKey := by
  induction calls generalizing s with
  | nil =>
    cases hrun
    exact h
  | cons call calls ih =>
    obtain ⟨mid, hstep, hrest⟩ := run_cons hrun
    exact ih (h.step hapart hstep) hrest

theorem Holding.keepsRecord_run (h : Holding account file first s dataKey)
    (hapart : PhrasesApart account) (hrun : s.run account file calls = some s')
    (hspares : ∀ call ∈ calls, call.Spares account dataKey name) : KeepsRecord account dataKey name s s' := by
  induction calls generalizing s with
  | nil =>
    cases hrun
    exact fun _ _ => rfl
  | cons call calls ih =>
    obtain ⟨mid, hstep, hrest⟩ := run_cons hrun
    intro record hrecord
    have hfirst := h.keepsRecord hapart hstep (hspares call List.mem_cons_self) record hrecord
    have hlater := ih (h.step hapart hstep) hrest (fun other hother => hspares other (List.mem_cons_of_mem _ hother))
      record hrecord
    exact hlater.trans hfirst

theorem Fresh.run (h : Fresh account first s) (hapart : PhrasesApart account)
    (hrun : s.run account file calls = some s') :
    Fresh account first s' ∧ s'.rows = s.rows ∨
    ∃ dataKey, Holding account file first s' dataKey := by
  induction calls generalizing s with
  | nil =>
    cases hrun
    exact .inl ⟨h, rfl⟩
  | cons call calls ih =>
    obtain ⟨mid, hstep, hrest⟩ := run_cons hrun
    rcases h.step hapart hstep with ⟨hfresh, hrows⟩ | ⟨dataKey, hholding, -⟩
    · rcases ih hfresh hrest with ⟨hfresh', hrows'⟩ | hholding
      · exact .inl ⟨hfresh', hrows'.trans hrows⟩
      · exact .inr hholding
    · exact .inr ⟨dataKey, hholding.run hapart hrest⟩

/-- The key that the records of a state are sealed with: the one that its access records
    wrap, or before there is one the key of an existing `app.db`. -/
def DataKeyOf (account : AccountId) (file : StoreFile) (first : RecoveryEntropy) (s : RotationState)
    (dataKey : FixedBytes 32) : Prop :=
  (file = .app ∧ dataKey = deriveApplicationStoreKey account first) ∨
    ∃ phrase, unwrapKey account s.rows (deriveApplicationStoreKey account phrase) = some dataKey

def WrapsAll (account : AccountId) (s : RotationState) (dataKey : FixedBytes 32) : Prop :=
  ∀ name, HasAccess s.rows name → ∃ phrase ∈ s.known, name = accessName (deriveApplicationStoreKey account phrase) ∧
    unwrapKey account s.rows (deriveApplicationStoreKey account phrase) = some dataKey

theorem Holding.wrapsAll (h : Holding account file first s dataKey) : WrapsAll account s dataKey := h.wrapped.access

theorem Holding.dataKeyOf (h : Holding account file first s dataKey) (hapart : PhrasesApart account)
    (hkey : DataKeyOf account file first s key) : key = dataKey := by
  rcases hkey with ⟨hfile, rfl⟩ | ⟨phrase, hunwrap⟩
  · exact (h.adopted hfile).symm
  · exact Option.some.inj (hunwrap.symm.trans (h.wrapped.unwraps hapart (find?_of_unwrapKey hunwrap)))

theorem Fresh.dataKeyOf (h : Fresh account first s) (hkey : DataKeyOf account file first s key) :
    file = .app ∧ key = deriveApplicationStoreKey account first := by
  rcases hkey with hadopted | ⟨phrase, hunwrap⟩
  · exact hadopted
  · exact absurd ⟨inScan_accessName _, find?_of_unwrapKey hunwrap⟩ (h.rows.noAccess _)

theorem Fresh.wrapsAll (h : Fresh account first s) : WrapsAll account s dataKey :=
  fun name hname => absurd hname (h.rows.noAccess name)

/-- The environment of an opening in which nothing fails. -/
structure OpenEnv.Succeeds (env : OpenEnv) : Prop where
  accessFate : env.accessFate = .done
  checkNonce : env.checkNonce.isSome = true
  checkFate : env.checkFate = .done
  retireFate : env.retireFate = .done

theorem Holding.get (h : Holding account file first s dataKey)
    (hapart : PhrasesApart account) (hsession : s.session = some check)
    (hrow : s.rows.find? (accessName (deriveApplicationStoreKey account phrase)) ≠ none) (name : Bytes) :
    s.get account (some phrase) name = (recordsUnder account s.rows dataKey).storedValue name := by
  have hkey : Cybou.accessKey account s.rows check (some phrase) = some dataKey := by
    rw [Cybou.accessKey, Option.bind_eq_bind, Option.bind_some, h.wrapped.unwraps hapart hrow,
      Option.bind_some, if_pos (h.session check hsession).1.symm]
  rw [RotationState.get, hsession, Option.bind_eq_bind, Option.bind_some, hkey, Option.bind_some]

/-- Every phrase that has a row opens the store again. -/
theorem Holding.reopen {env : OpenEnv} (h : Holding account file first s dataKey)
    (hapart : PhrasesApart account) (hrow : s.rows.find? (accessName (deriveApplicationStoreKey account phrase)) ≠ none)
    (henv : env.Succeeds) :
    ∃ s', s.run account file [.close, .open phrase env] = some s' ∧
      ∀ name, s'.get account (some phrase) name = (recordsUnder account s.rows dataKey).storedValue name := by
  have hknown : phrase ∈ s.known := by
    obtain ⟨phrase', hphrase', hname, -⟩ := h.wrapped.access _ ⟨inScan_accessName _, hrow⟩
    rwa [hapart.eq hname]
  have hopened := openStore_wrapped h.wrapped hapart file phrase env
  have hok := hopened.opens hrow henv.accessFate henv.checkFate henv.checkNonce henv.retireFate
  let s' : RotationState :=
    { s with
      rows := (openStore account file s.rows phrase env).2
      session := (openStore account file s.rows phrase env).1.toOption }
  have hsession : s'.session = some (keyCheck dataKey) := by
    change (openStore account file s.rows phrase env).1.toOption = some (keyCheck dataKey)
    rw [hok]
    rfl
  have hrun : s.run account file [.close, .open phrase env] = some s' := by
    change ((RotationState.step account file { s with session := none } (.open phrase env)).bind fun s => some s) = some s'
    rw [Option.bind_fun_some, RotationState.step, if_neg]
    rintro (hopen | hunknown)
    · cases hopen
    · exact hunknown hknown
  have hholding : Holding account file first s' dataKey := h.run hapart hrun
  refine ⟨s', hrun, fun name => ?_⟩
  rw [hholding.get hapart hsession (hopened.own_kept hok)]
  refine storedValue_congr fun record hrecord => ?_
  exact hopened.record (inScan_of_recordKey hrecord)

theorem Fresh.keepsRecord_run (h : Fresh account first s) (hapart : PhrasesApart account)
    (hfile : file = .app) (hrun : s.run account file calls = some s')
    (hspares : ∀ call ∈ calls, call.Spares account (deriveApplicationStoreKey account first) name) :
    KeepsRecord account (deriveApplicationStoreKey account first) name s s' := by
  induction calls generalizing s with
  | nil =>
    cases hrun
    exact fun _ _ => rfl
  | cons call calls ih =>
    obtain ⟨mid, hstep, hrest⟩ := run_cons hrun
    have hlater : ∀ other ∈ calls, other.Spares account (deriveApplicationStoreKey account first) name :=
      fun other hother => hspares other (List.mem_cons_of_mem _ hother)
    rcases h.step hapart hstep with ⟨hfresh, hrows⟩ | ⟨dataKey, hholding, hkept, -⟩
    · intro record hrecord
      rw [← hrows]
      exact ih hfresh hrest hlater record hrecord
    · obtain rfl := hholding.adopted hfile
      intro record hrecord
      exact (hholding.keepsRecord_run hapart hrest hlater record hrecord).trans (hkept name record hrecord)

/-! ### The safety of rotations -/

/-- What holds at every state of a run. -/
structure RotationSafe (account : AccountId) (file : StoreFile) (first : RecoveryEntropy) (s : RotationState) : Prop where
  /-- All access records wrap one data key. -/
  wraps : ∃ dataKey, WrapsAll account s dataKey
  /-- It is the same in all later states. -/
  wrapsLater : ∀ dataKey, DataKeyOf account file first s dataKey → ∀ calls s', s.run account file calls = some s' →
    WrapsAll account s' dataKey
  /-- An opening that succeeds has an access record for its phrase. -/
  own : ∀ phrase env s', s.step account file (.open phrase env) = some s' → s'.session.isSome = true →
    s'.rows.find? (accessName (deriveApplicationStoreKey account phrase)) ≠ none
  /-- Only an opening under the phrase that was prepared last erases an access record, and
      never that of its own phrase. -/
  erased : ∀ call s' name, s.step account file call = some s' → HasAccess s.rows name → ¬HasAccess s'.rows name →
    ∃ phrase env, call = .open phrase env ∧ s.lastPrepared = some phrase ∧
      name ≠ accessName (deriveApplicationStoreKey account phrase)
  /-- Where it succeeds, no other access record is left. -/
  retired : ∀ phrase env s', s.step account file (.open phrase env) = some s' → s'.session.isSome = true →
    s.lastPrepared = some phrase →
    ∀ name, HasAccess s'.rows name ↔ name = accessName (deriveApplicationStoreKey account phrase)
  /-- A record that was written reads back as its last change. -/
  written : ∀ check current before after name value env batch, s.session = some check →
    recordEdits account s.rows check current (before ++ (name, some value) :: after) env = some batch →
    env.fate = .done → ∀ s', s.step account file (.write current (before ++ (name, some value) :: after) env) = some s' →
    ∃ dataKey, DataKeyOf account file first s' dataKey ∧ (Spares account dataKey name after →
      (recordsUnder account s'.rows dataKey).storedValue name = some value)
  /-- It stays readable under every phrase whose access record remains, in the session that
      is open and in a new one, until a call writes its row. -/
  readable : ∀ dataKey name value, DataKeyOf account file first s dataKey →
    (recordsUnder account s.rows dataKey).storedValue name = some value →
    ∀ calls s', s.run account file calls = some s' → (∀ call ∈ calls, call.Spares account dataKey name) →
    ∀ phrase, s'.rows.find? (accessName (deriveApplicationStoreKey account phrase)) ≠ none →
      (s'.session.isSome = true → s'.get account (some phrase) name = some value) ∧
      ∀ env : OpenEnv, env.Succeeds → ∃ s'', s'.run account file [.close, .open phrase env] = some s'' ∧
        s''.get account (some phrase) name = some value

theorem Holding.readable (h : Holding account file first s dataKey) (hapart : PhrasesApart account)
    (hvalue : (recordsUnder account s.rows dataKey).storedValue name = some value)
    (hrow : s.rows.find? (accessName (deriveApplicationStoreKey account phrase)) ≠ none) :
    (s.session.isSome = true → s.get account (some phrase) name = some value) ∧
      ∀ env : OpenEnv, env.Succeeds → ∃ s', s.run account file [.close, .open phrase env] = some s' ∧
        s'.get account (some phrase) name = some value := by
  constructor
  · intro hsession
    obtain ⟨check, hcheck⟩ := Option.isSome_iff_exists.mp hsession
    rw [h.get hapart hcheck hrow, hvalue]
  · intro env henv
    obtain ⟨s', hrun, hget⟩ := h.reopen hapart hrow henv
    exact ⟨s', hrun, (hget name).trans hvalue⟩

theorem Fresh.safe (h : Fresh account first s) (hapart : PhrasesApart account) : RotationSafe account file first s where
  wraps := ⟨deriveApplicationStoreKey account first, h.wrapsAll⟩
  wrapsLater := by
    intro key hkey calls s' hrun
    obtain ⟨hfile, rfl⟩ := h.dataKeyOf hkey
    rcases h.run hapart hrun with ⟨hfresh, -⟩ | ⟨dataKey, hholding⟩
    · exact hfresh.wrapsAll
    · rw [← hholding.adopted hfile]
      exact hholding.wrapsAll
  own := by
    intro phrase env s' hstep hsession
    rcases h.step hapart hstep with ⟨hfresh, -⟩ | ⟨dataKey, -, -, env', hcall, hown⟩
    · rw [hfresh.session] at hsession
      cases hsession
    · cases hcall
      exact hown hsession
  erased := fun _ _ name _ hname _ => absurd hname (h.rows.noAccess name)
  retired := by
    intro phrase env s' hstep hsession hlast
    rw [h.lastPrepared] at hlast
    cases hlast
  written := by
    intro check current before after name value env batch hsession
    rw [h.session] at hsession
    cases hsession
  readable := by
    intro key name value hkey hvalue calls s' hrun hspares phrase hrow
    obtain ⟨hfile, rfl⟩ := h.dataKeyOf hkey
    have hkept := h.keepsRecord_run hapart hfile hrun hspares
    rcases h.run hapart hrun with ⟨hfresh, -⟩ | ⟨dataKey, hholding⟩
    · exact absurd ⟨inScan_accessName _, hrow⟩ (hfresh.rows.noAccess _)
    · obtain rfl := hholding.adopted hfile
      exact hholding.readable hapart ((storedValue_congr hkept).trans hvalue) hrow

theorem Holding.safe (h : Holding account file first s dataKey) (hapart : PhrasesApart account) :
    RotationSafe account file first s where
  wraps := ⟨dataKey, h.wrapsAll⟩
  wrapsLater := by
    intro key hkey calls s' hrun
    obtain rfl := h.dataKeyOf hapart hkey
    exact (h.run hapart hrun).wrapsAll
  own := by
    intro phrase env s' hstep hsession
    obtain ⟨-, -, rfl⟩ := step_open hstep
    obtain ⟨check, hcheck⟩ := Option.isSome_iff_exists.mp hsession
    exact (openStore_wrapped h.wrapped hapart file phrase env).own_kept (eq_ok_of_toOption hcheck)
  erased := fun _ _ _ hstep hname hgone => h.erased hapart hstep hname hgone
  retired := by
    intro phrase env s' hstep hsession hlast name
    obtain ⟨-, -, rfl⟩ := step_open hstep
    obtain ⟨check, hcheck⟩ := Option.isSome_iff_exists.mp hsession
    have hopened := openStore_wrapped h.wrapped hapart file phrase env
    refine ⟨hopened.retired check (eq_ok_of_toOption hcheck) hlast name, ?_⟩
    rintro rfl
    exact ⟨inScan_accessName _, hopened.own_kept (eq_ok_of_toOption hcheck)⟩
  written := by
    intro check current before after name value env batch hsession hbatch hfate s' hstep
    have hwritten : s' = { s with rows := s.rows.apply batch, session := some check } := by
      rw [RotationState.step, hsession, Option.map_some, hbatch, hfate] at hstep
      exact (Option.some.inj hstep).symm
    subst hwritten
    rw [recordEdits, Option.bind_eq_bind, Option.bind_eq_some_iff] at hbatch
    obtain ⟨key, hkey, hedits⟩ := hbatch
    obtain ⟨phrase, -, hunwrap⟩ := unwrapKey_of_accessKey hkey
    refine ⟨key, .inr ⟨phrase, ?_⟩, fun hafter => ?_⟩
    · have hscan : inScan ROW_DB_PREFIX (accessName (deriveApplicationStoreKey account phrase)) = false := by
        by_contra hscan
        exact absurd ((record_apart (Bool.not_eq_false _ ▸ hscan)).2.2.symm.trans (inScan_accessName _)) (by decide)
      exact (unwrapKey_congr (find?_write_batchEdits hedits hscan .done)).trans hunwrap
    · obtain ⟨record, hrecord, hholds⟩ := rowHolds_of_batchEdits hedits hafter s.rows
      exact storedValue_of_rowHolds hrecord hholds
  readable := by
    intro key name value hkey hvalue calls s' hrun hspares phrase hrow
    obtain rfl := h.dataKeyOf hapart hkey
    have hkept := h.keepsRecord_run hapart hrun hspares
    exact (h.run hapart hrun).readable hapart ((storedValue_congr hkept).trans hvalue) hrow

/-- **Application data survives the rotation of its phrase.** -/
theorem rotation_safe {rows : DatabaseRows} {calls : List RotationCall} (hapart : PhrasesApart account)
    (hlegacy : LegacyRows account first rows)
    (hrun : (RotationState.initial first rows).run account file calls = some s) : RotationSafe account file first s := by
  rcases (Fresh.initial hlegacy).run hapart hrun with ⟨hfresh, -⟩ | ⟨dataKey, hholding⟩
  · exact hfresh.safe hapart
  · exact hholding.safe hapart

end

section

@[reducible] def RecordCipher.phrases : RecordCipher where
  toChunkCipher := { ChunkCipher.sample with
    hkdfSha256 := fun secret _ _ => if h : secret.length = 32 then ⟨secret, h⟩ else FixedBytes.zero 32 }
  hmacSha256 key data := if data = KEY_CHECK_DOMAIN then key else Crypto.sample.blake3 data

attribute [local instance] RecordCipher.phrases

theorem phrasesApart_phrases (account : AccountId) : PhrasesApart account := by
  have hcheck : ∀ phrase, keyCheck (deriveApplicationStoreKey account phrase) = phrase := by
    intro phrase
    change (if KEY_CHECK_DOMAIN = KEY_CHECK_DOMAIN then
      (if h : phrase.1.length = 32 then (⟨phrase.1, h⟩ : FixedBytes 32) else FixedBytes.zero 32)
      else Crypto.sample.blake3 KEY_CHECK_DOMAIN) = phrase
    rw [if_pos rfl, dif_pos phrase.2]
  intro phrase phrase' heq
  exact (hcheck phrase).symm.trans (heq.trans (hcheck phrase'))

def sampleOpenEnv : OpenEnv where
  dataKey := some (FixedBytes.leading 31 9)
  accessNonce := some (FixedBytes.zero 12)
  checkNonce := some (FixedBytes.zero 12)
  accessFate := .done
  checkFate := .done
  retireFate := .done

def rotatedAccount : AccountId := FixedBytes.leading 31 7

def oldPhrase : RecoveryEntropy := FixedBytes.leading 31 1

def newPhrase : RecoveryEntropy := FixedBytes.leading 31 2

def sampleRotation : List RotationCall :=
  [.open oldPhrase sampleOpenEnv, .prepare (some oldPhrase) newPhrase true (some (FixedBytes.zero 12)) .done, .close,
    .open newPhrase sampleOpenEnv]

def legacyRows : DatabaseRows := (openLegacyStore rotatedAccount ∅ oldPhrase sampleOpenEnv).2

set_option maxRecDepth 100000 in
theorem exists_sampleRotation :
    ∃ s, (RotationState.initial oldPhrase legacyRows).run rotatedAccount .local sampleRotation = some s ∧
      s.session.isSome = true := by
  have hrun : ((RotationState.initial oldPhrase legacyRows).run rotatedAccount .local sampleRotation).any
      (fun s => s.session.isSome) = true := by decide
  exact (Option.any_eq_true _ _).mp hrun

theorem rotation_safe_sample :
    ∃ s, (RotationState.initial oldPhrase legacyRows).run rotatedAccount .local sampleRotation = some s ∧
      s.session.isSome = true ∧ RotationSafe rotatedAccount .local oldPhrase s := by
  obtain ⟨s, hrun, hsession⟩ := exists_sampleRotation
  exact ⟨s, hrun, hsession,
    rotation_safe (phrasesApart_phrases _) (LegacyRows.empty.openLegacyStore sampleOpenEnv) hrun⟩

end

end Cybou
