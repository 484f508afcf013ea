import Cybou.PrivateStoreRuns
import Cybou.ApplicationRows

/-! # The sealed store is the store by name (`private_application_store.cpp`)

The services read and write rows by name; nothing of MACs, nonces and staged maps shows
there.  As long as no two of the names in use have the same MAC, that view is right: what
is read between batches is the view, and a `Commit`, `Put` or `Erase` writes its changes
to the view with one fate, `lost` where the call gives up before it writes
(`sealed_refines_byName`).  The keys of the services are different names, so the same
holds of their rows.
-/

namespace Cybou

open Library

/-! ### Rows of the services -/

def ApplicationRow.bytes? : ApplicationRow → Option Bytes
  | .unreadable => none
  | .value bytes => some bytes

def applicationRows (rows : Store Bytes ApplicationRow) : ApplicationRows := fun key =>
  (rows key.name).bind ApplicationRow.bytes?

def namedEdit : Edit ApplicationKey Bytes → Edit Bytes ApplicationRow
  | .put key value => .put key.name (.value value)
  | .erase key => .erase key.name

theorem visible_applicationRows (db : PrivateApplicationStore) (key : ApplicationKey) :
    visible db.unlocked (applicationRows db.rows) key = db.get key.name := by
  rw [visible, PrivateApplicationStore.get, ApplicationKey.usable, applicationRows]
  simp only [Bool.and_eq_true]
  split
  case isTrue =>
    cases db.rows key.name with
    | none => rfl
    | some row =>
      cases row with
      | unreadable => rfl
      | value bytes => rfl
  case isFalse => rfl

theorem applicationRows_update (rows : Store Bytes ApplicationRow) (edit : Edit ApplicationKey Bytes) :
    applicationRows (Function.update rows (namedEdit edit).key (namedEdit edit).value) =
      Function.update (applicationRows rows) edit.key edit.value := by
  have hkey : (namedEdit edit).key = edit.key.name := by cases edit <;> rfl
  have hvalue : (namedEdit edit).value.bind ApplicationRow.bytes? = edit.value := by cases edit <;> rfl
  funext key
  rw [applicationRows, hkey]
  by_cases hsame : key = edit.key
  · rw [hsame, Function.update_self, Function.update_self, hvalue]
  · rw [Function.update_of_ne fun heq => hsame (ApplicationKey.name_injective heq), Function.update_of_ne hsame]
    rfl

/-- The services' rows are written with the store by name. -/
theorem applicationRows_write (rows : Store Bytes ApplicationRow) (edits : List (Edit ApplicationKey Bytes))
    (fate : Fate) : applicationRows (rows.write (edits.map namedEdit) fate) = (applicationRows rows).write edits fate := by
  have happly : applicationRows (rows.apply (edits.map namedEdit)) = (applicationRows rows).apply edits := by
    induction edits generalizing rows with
    | nil => rfl
    | cons edit edits ih => rw [List.map_cons, Store.apply_cons, ih, applicationRows_update, Store.apply_cons]
  cases fate with
  | lost => rfl
  | done => exact happly
  | stored => exact happly

section

variable [RecordCipher]

theorem rows_byName (store : SealedStore) (unlocked : Bool) (name : Bytes) :
    (store.byName unlocked).rows name =
      if store.storedRow name = true then
        match store.storedValue name with
        | none => some .unreadable
        | some value => some (.value value)
      else none := rfl

/-! ### Reads -/

variable {name : Bytes} {account : AccountId} {key : FixedBytes 32}

theorem storedValue_of_storedRow {store : SealedStore} (h : store.storedRow name = false) :
    store.storedValue name = none := by
  unfold SealedStore.storedRow at h
  unfold SealedStore.storedValue
  cases hrecord : recordKey store.account store.key name with
  | none => rfl
  | some record =>
    rw [hrecord] at h
    have hrow : store.rows record = none := Option.not_isSome_iff_eq_none.mp (by simp [h])
    rw [Option.bind_eq_bind, Option.bind_some, readBytes, hrow]
    rfl

theorem recordKey_of_usable
    (h : PrivateApplicationStore.usable name = false) : recordKey account key name = none := by
  unfold recordKey
  refine if_pos ?_
  by_contra hvalid
  simp_all [PrivateApplicationStore.usable]

theorem get_byName {store : SealedStore} (hidle : store.staged = none) (name : Bytes) (unlocked : Bool) :
    store.get name unlocked = (store.byName unlocked).get name := by
  have hnone : PrivateApplicationStore.usable name = false → store.storedValue name = none := by
    intro h
    rw [SealedStore.storedValue, recordKey_of_usable h]
    rfl
  have hrowless : store.storedRow name = false → store.storedValue name = none := storedValue_of_storedRow
  simp only [SealedStore.get, hidle, Option.bind_none, PrivateApplicationStore.get, SealedStore.byName]
  cases unlocked with
  | false => rfl
  | true =>
    cases husable : PrivateApplicationStore.usable name with
    | false =>
      rw [hnone husable]
      rfl
    | true =>
      cases hrow : store.storedRow name with
      | false =>
        rw [hrowless hrow]
        rfl
      | true =>
        cases store.storedValue name with
        | none => rfl
        | some value => rfl


theorem has_byName {store : SealedStore} (hidle : store.staged = none) (name : Bytes) (unlocked : Bool) :
    store.has name unlocked = (store.byName unlocked).has name := by
  simp only [SealedStore.has, hidle, Option.bind_none, PrivateApplicationStore.has, SealedStore.byName]
  cases unlocked with
  | false => rfl
  | true =>
    cases husable : PrivateApplicationStore.usable name with
    | false =>
      rw [SealedStore.storedRow, recordKey_of_usable husable]
      rfl
    | true =>
      cases hrow : store.storedRow name with
      | false => rfl
      | true =>
        cases store.storedValue name with
        | none => rfl
        | some value => rfl

/-! ### Writes -/

def nameEdit : Bytes × Option Bytes → Edit Bytes ApplicationRow
  | (name, some value) => .put name (.value value)
  | (name, none) => .erase name

omit [RecordCipher] in
theorem key_nameEdit (change : Bytes × Option Bytes) : (nameEdit change).key = change.1 := by
  obtain ⟨name, value⟩ := change
  cases value with
  | none => rfl
  | some value => rfl

/-- The changes are written to the store by name with one fate: the one of the write, or
    none of them where the call gives up before it. -/
def WritesByName (before after : SealedStore) (changes : List (Bytes × Option Bytes)) (ok : Bool) (fate : Fate) : Prop :=
  ∃ written, (written = fate ∨ written = .lost) ∧ ok = decide (written = .done) ∧
    ∀ unlocked name, Separate before.account before.key (· ∈ changes.map Prod.fst) name →
      (after.byName unlocked).rows name =
        (before.byName unlocked).rows.write (changes.map nameEdit) written name

theorem WritesByName.nothing (store : SealedStore) (changes : List (Bytes × Option Bytes)) (fate : Fate) :
    WritesByName store store changes false fate :=
  ⟨.lost, .inr rfl, rfl, fun _ _ _ => rfl⟩

variable {before after store : SealedStore} {changes : StagedChanges} {env : StoreEnv}

theorem rows_of_shows (h : Shows before after name (changes.find? name)) (unlocked : Bool) :
    (after.byName unlocked).rows name =
      (before.byName unlocked).rows.apply (changes.entries.map nameEdit) name := by
  have hkeys : (changes.entries.map nameEdit).map Edit.key = changes.entries.map Prod.fst := by
    rw [List.map_map]
    exact List.map_congr_left fun change _ => key_nameEdit change
  obtain ⟨hvalue, hrow⟩ := h
  cases hchange : changes.find? name with
  | none =>
    rw [hchange, Option.getD_none] at hvalue
    rw [hchange, Option.map_none, Option.getD_none] at hrow
    rw [Store.apply_of_forall_ne, rows_byName, rows_byName, hrow, hvalue]
    intro e he heq
    obtain ⟨⟨other, value⟩, hmem, rfl⟩ := List.mem_map.mp he
    rw [key_nameEdit] at heq
    rw [← heq, OrdMap.mem_entries_iff.mp hmem] at hchange
    cases hchange
  | some change =>
    rw [hchange, Option.getD_some] at hvalue
    rw [hchange, Option.map_some, Option.getD_some] at hrow
    have hmem : nameEdit (name, change) ∈ changes.entries.map nameEdit :=
      List.mem_map_of_mem (OrdMap.mem_entries_iff.mpr hchange)
    have happly := Store.apply_of_nodup (s := (before.byName unlocked).rows) (hkeys ▸ changes.nodup_keys) hmem
    rw [key_nameEdit] at happly
    rw [happly, rows_byName, hrow, hvalue]
    cases change with
    | none => rfl
    | some value => rfl

theorem writeBatch_byName (store : SealedStore) (changes : StagedChanges) (env : StoreEnv) :
    WritesByName store (store.writeBatch changes.entries env).2 changes.entries
      (store.writeBatch changes.entries env).1 env.fate := by
  unfold SealedStore.writeBatch
  by_cases hlocked : env.unlocked = false
  · rw [if_pos hlocked]
    exact .nothing store _ _
  rw [if_neg hlocked]
  cases hedits : store.batchEdits env 0 changes.entries with
  | none => exact .nothing store _ _
  | some edits =>
    refine ⟨env.fate, .inl rfl, rfl, fun unlocked name hseparate => ?_⟩
    have hshows := shows_of_batchEdits hedits fun other hother => hseparate other <| by
      obtain ⟨value, hvalue⟩ := Option.isSome_iff_exists.mp hother
      exact List.mem_map_of_mem (f := Prod.fst) (OrdMap.mem_entries_iff.mpr hvalue)
    cases hfate : env.fate with
    | lost => rfl
    | done => exact rows_of_shows hshows unlocked
    | stored => exact rows_of_shows hshows unlocked

theorem put_eq_writeBatch (hidle : store.staged = none) (name plaintext : Bytes) :
    store.put name plaintext env = store.writeBatch [(name, some plaintext)] env := by
  simp only [SealedStore.put, hidle, SealedStore.writeBatch, SealedStore.batchEdits]
  split
  case isTrue => rfl
  case isFalse =>
    cases recordKey store.account store.key name with
    | none => rfl
    | some record =>
      cases encryptRecord store.account store.key (env.nonce 0) name plaintext with
      | none => simp
      | some encoded => simp

theorem erase_eq_writeBatch (hidle : store.staged = none) (name : Bytes) :
    store.erase name env = store.writeBatch [(name, none)] env := by
  simp only [SealedStore.erase, hidle, SealedStore.writeBatch, SealedStore.batchEdits]
  split
  case isTrue => rfl
  case isFalse =>
    cases recordKey store.account store.key name with
    | none => rfl
    | some record => rfl

theorem writeBatch_single_byName (store : SealedStore) (name : Bytes) (value : Option Bytes) (env : StoreEnv) :
    WritesByName store (store.writeBatch [(name, value)] env).2 [(name, value)]
      (store.writeBatch [(name, value)] env).1 env.fate :=
  writeBatch_byName store ((∅ : StagedChanges).set name value) env

variable {start s s' : StoreSession} {history : List (StoreCall × StoreAnswer)} {levels : BatchLevels}

theorem Agrees.commit_byName (h : Agrees s levels) {newer : Nat} {object : BatchObject} {ok : Bool}
    (hobject : s.batches[newer]? = some object) (hdone : object.batch.done = false)
    (houtermost : object.batch.outermost = true) (hstep : s.step (.commit newer env) = some (.flag ok, s')) :
    WritesByName s.store s'.store (replay levels.ops).entries ok env.fate := by
  obtain ⟨rfl, hstore⟩ := commit_of_step hobject hstep
  have hopen := h.objects.anyOpen_of_mem (List.mem_of_getElem? hobject) hdone
  rw [hstore, Cybou.commit_outermost hdone houtermost]
  split
  case isTrue => exact .nothing s.store _ _
  case isFalse =>
    rw [h.staged_of_open hopen, Option.getD_some]
    exact writeBatch_byName { s.store with staged := none } (replay levels.ops) env

/-- **The store by name is right.**  Between batches `Get` and `Has` are those of the store
    by name.  The outermost `Commit`, and `Put` and `Erase` outside a batch, write their
    changes to it.  The rows that the services name are written with it. -/
theorem sealed_refines_byName (hidle : Idle start) (hrun : StoreSession.Run start history s) :
    (s.store.staged = none → ∀ name unlocked, s.store.get name unlocked = (s.store.byName unlocked).get name ∧
      s.store.has name unlocked = (s.store.byName unlocked).has name) ∧
    (∀ newer object env ok s', s.batches[newer]? = some object → object.batch.done = false →
      object.batch.outermost = true → s.step (.commit newer env) = some (.flag ok, s') →
      WritesByName s.store s'.store (replay (batchLevels history).ops).entries ok env.fate) ∧
    (∀ name value env ok s', s.store.staged = none → s.step (.put name value env) = some (.flag ok, s') →
      WritesByName s.store s'.store [(name, some value)] ok env.fate) ∧
    (∀ name env ok s', s.store.staged = none → s.step (.erase name env) = some (.flag ok, s') →
      WritesByName s.store s'.store [(name, none)] ok env.fate) ∧
    (∀ (db : PrivateApplicationStore) key, visible db.unlocked (applicationRows db.rows) key = db.get key.name) ∧
    ∀ rows edits fate, applicationRows (rows.write (edits.map namedEdit) fate) =
      (applicationRows rows).write edits fate := by
  refine ⟨fun hclosed name unlocked => ⟨get_byName hclosed name unlocked, has_byName hclosed name unlocked⟩,
    ?_, ?_, ?_, visible_applicationRows, applicationRows_write⟩
  · intro newer object env ok s' hobject hdone houtermost hstep
    exact (agrees_of_run hidle hrun).commit_byName hobject hdone houtermost hstep
  · intro name value env ok s' hclosed hstep
    rw [StoreSession.step, put_eq_writeBatch hclosed] at hstep
    cases hstep
    exact writeBatch_single_byName s.store name (some value) env
  · intro name env ok s' hclosed hstep
    rw [StoreSession.step, erase_eq_writeBatch hclosed] at hstep
    cases hstep
    exact writeBatch_single_byName s.store name none env

end

section Sample

attribute [local instance] RecordCipher.sample

theorem exists_committedRun : ∃ s s', StoreSession.Run emptySession abandonedHistory s ∧
    s.step (.commit 0 sampleStoreEnv) = some (.flag true, s') ∧
      ∃ object, s.batches[0]? = some object ∧ object.batch.done = false ∧ object.batch.outermost = true := by
  refine ⟨_, _, @StoreSession.Run.step _ _ [_, _, _, _] _ _ _ _ (@StoreSession.Run.step _ _ [_, _, _] _ _ _ _
    (@StoreSession.Run.step _ _ [_, _] _ _ _ _ (@StoreSession.Run.step _ _ [_] _ _ _ _
      (@StoreSession.Run.step _ _ [] _ _ _ _ .refl rfl) rfl) rfl) rfl) rfl, rfl, _, rfl, rfl, rfl⟩

/-- The change of the outer batch is stored under its name, the abandoned one is not. -/
theorem sealed_refines_byName_abandoned : ∃ s s', StoreSession.Run emptySession abandonedHistory s ∧
    s.step (.commit 0 sampleStoreEnv) = some (.flag true, s') ∧
      (s'.store.byName true).rows [97] = some (.value [1]) := by
  obtain ⟨s, s', hrun, hstep, object, hobject, hdone, houtermost⟩ := exists_committedRun
  have hchanges : (replay (batchLevels abandonedHistory).ops).entries = [([97], some [1])] := by decide
  obtain ⟨written, -, hok, hrows⟩ := (sealed_refines_byName ⟨rfl, rfl⟩ hrun).2.1 0 object sampleStoreEnv true s'
    hobject hdone houtermost hstep
  obtain rfl : written = .done := of_decide_eq_true hok.symm
  refine ⟨s, s', hrun, hstep, ?_⟩
  rw [hchanges] at hrows
  exact hrows true [97] fun other hother _ => List.mem_singleton.mp hother

end Sample

end Cybou
