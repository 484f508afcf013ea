import Cybou.ApplicationIndex
import Mathlib.Data.List.Dedup

/-! # The Files catalog does not depend on the order of indexing (`application_service.cpp`)

Each applied mutation goes through the stored record of its item, read back from its row.
The record kept is the latest of all mutations seen, so the rows after any sequence of
calls are those of the set of publications, as long as the index of ids fits in one row.
-/

namespace Cybou

open Library

/-! ### One record fits -/

theorem length_writeOptional_le (value : Option (FixedBytes 32)) :
    (writeOptional Subtype.val value).length ≤ 33 := by
  cases value with
  | none => decide
  | some id =>
    rw [writeOptional, List.length_append, id.2]
    exact le_rfl

variable {item : FileItem}

theorem length_writeItem_le (h : item.name.length ≤ MAX_FILENAME_BYTES) :
    (writeItem item).length ≤ 512 := by
  have hparent := length_writeOptional_le item.parentId
  have hroot := length_writeOptional_le item.rootChunkId
  have hkey := length_writeOptional_le item.contentKey
  have hname : (writeText item.name).length = 4 + item.name.length := by
    rw [writeText, List.length_append]
    rfl
  have hle64 : ∀ n, (le64 n).length = 8 := fun n => rfl
  simp only [writeItem, List.length_append, hname, hle64, List.length_singleton]
  rw [MAX_FILENAME_BYTES] at h
  omega

variable {batch : FilesMutationBatch} {mutation : FileMutation}

theorem encode_item (h : (PrivateApplicationDocument.files batch).WellFormed)
    (hmem : mutation ∈ batch.mutations) (hitem : mutation.item = some item)
    (hkind : mutation.kind = .upsertItem) :
    ∃ encoded, encodePrivateApplicationDocument item.document = some encoded ∧ encoded.length ≤ 1024 := by
  have hvalid := validMutation_of_wellFormed h hmem
  have htext : ValidText MAX_FILENAME_BYTES item.name := by
    refine h.2 (MAX_FILENAME_BYTES, item.name) (List.mem_flatMap.mpr ⟨mutation, hmem, ?_⟩)
    rw [hitem]
    exact List.mem_singleton_self _
  have hsame : item.itemId = mutation.itemId ∧ validFileItem item = true := by
    rw [validMutation, hkind, hitem] at hvalid
    simp only [Bool.and_eq_true, decide_eq_true_eq] at hvalid
    exact hvalid.2
  have hlength : (writeDocument item.document).length ≤ 1024 := by
    have hwritten := length_writeItem_le htext.1
    have hdocument : (writeDocument item.document).length = 36 + (writeItem item).length := by
      simp [writeDocument, FileItem.document, writeFiles, writeCounted, Reader.concat, writeMutation, le16,
        item.itemId.2]
      omega
    omega
  refine ⟨writeDocument item.document, ?_, hlength⟩
  have hformed : item.document.WellFormed := by
    refine ⟨?_, fun text htext' => ?_⟩
    · have hnonzero : validMutation { kind := .upsertItem, itemId := item.itemId, item := some item } = true := by
        rw [validMutation, hkind, hitem] at hvalid
        simp only [Bool.and_eq_true] at hvalid
        simp only [validMutation, hsame.1, hsame.2, hvalid.1, decide_true, Bool.and_self]
      simp [PrivateApplicationDocument.valid, FileItem.document, validFiles, MAX_MUTATIONS, hnonzero]
    · have hmem' : text = (MAX_FILENAME_BYTES, item.name) := by
        simpa [FileItem.document, PrivateApplicationDocument.texts] using htext'
      rw [hmem']
      exact htext
  have hlimit : (1024 : Nat) ≤ BINARY_LIMIT := by decide
  rw [encodePrivateApplicationDocument, if_pos hformed, binaryObject, if_pos (hlength.trans hlimit)]

theorem upsert_of_item (h : (PrivateApplicationDocument.files batch).WellFormed)
    (hmem : mutation ∈ batch.mutations) (hitem : item ∈ mutation.item) :
    mutation.kind = .upsertItem := by
  have hvalid := validMutation_of_wellFormed h hmem
  cases hkind : mutation.kind with
  | upsertItem => rfl
  | deleteItem =>
    rw [validMutation, hkind, Option.mem_def.mp hitem, Bool.and_eq_true] at hvalid
    exact absurd hvalid.2 Bool.noConfusion

/-- A written document is read back, a document that is read is written to the same bytes, and
    each item of a batch can be saved in a document of its own. -/
theorem privateDocument_exact :
    (∀ document encoded, encodePrivateApplicationDocument document = some encoded →
      decodePrivateApplicationDocument encoded = some document) ∧
    (∀ encoded document, decodePrivateApplicationDocument encoded = some document →
      encodePrivateApplicationDocument document = some encoded) ∧
    ∀ encoded batch, decodePrivateApplicationDocument encoded = some (.files batch) →
      ∀ mutation ∈ batch.mutations, ∀ item ∈ mutation.item,
        (∃ single, encodePrivateApplicationDocument item.document = some single ∧
          decodePrivateApplicationDocument single = some item.document) ∧
        ∀ record : FileRecord, record.item = item → (fileRow record).isSome = true := by
  refine ⟨fun document encoded hencoded => ?_, fun encoded document hdecoded => ?_,
    fun encoded batch hdecoded mutation hmem item hitem => ?_⟩
  · exact decodePrivateApplicationDocument_eq_some.mpr hencoded
  · exact decodePrivateApplicationDocument_eq_some.mp hdecoded
  · have hformed := (wellFormed_of_encode (decodePrivateApplicationDocument_eq_some.mp hdecoded)).1
    obtain ⟨single, hsingle, -⟩ := encode_item hformed hmem hitem (upsert_of_item hformed hmem hitem)
    refine ⟨⟨single, hsingle, decodePrivateApplicationDocument_eq_some.mpr hsingle⟩, ?_⟩
    rintro record rfl
    rw [fileRow, hsingle]
    split
    · rfl
    · rfl

def plainFolder : FileItem :=
  { itemId := FixedBytes.leading 31 1, parentId := none, kind := .folder, name := ascii "a", logicalSize := 0
    rootChunkId := none, contentKey := none, modifiedMs := 1 }

theorem privateDocument_exact_folder :
    ∃ encoded, encodePrivateApplicationDocument plainFolder.document = some encoded ∧
      decodePrivateApplicationDocument encoded = some plainFolder.document ∧
      ∃ single, encodePrivateApplicationDocument plainFolder.document = some single := by
  have hencoded : encodePrivateApplicationDocument plainFolder.document =
      some (writeDocument plainFolder.document) := by decide
  have hdecoded := privateDocument_exact.1 _ _ hencoded
  obtain ⟨⟨single, hsingle, -⟩, -⟩ :=
    privateDocument_exact.2.2 _ _ hdecoded _ List.mem_cons_self plainFolder rfl
  exact ⟨_, hencoded, hdecoded, single, hsingle⟩

/-! ### Publications and their records -/

structure FilesPublication where
  operationId : Hash256
  accessible : Accessible
  batch : FilesMutationBatch
deriving DecidableEq

def FilesPublication.items (publication : FilesPublication) : List PrivateItemId :=
  publication.batch.mutations.map (·.itemId)

def recordsFrom (operationId : Hash256) (accessible : Accessible) : UInt32 → List FileMutation → List FileRecord
  | _, [] => []
  | i, mutation :: mutations =>
    (mutationRecord operationId
      { height := accessible.height, operationIndex := accessible.operationIndex, mutationIndex := i }
      mutation).toList ++ recordsFrom operationId accessible (i + 1) mutations

def FilesPublication.records (publication : FilesPublication) : List FileRecord :=
  recordsFrom publication.operationId publication.accessible 0 publication.batch.mutations

structure FileMutation.Applicable (mutation : FileMutation) : Prop where
  item : ∀ item ∈ mutation.item, item.itemId = mutation.itemId
  upsert : mutation.kind = .upsertItem → mutation.item.isSome = true
  fits : ∀ item ∈ mutation.item, mutation.kind = .upsertItem →
    ∃ encoded, encodePrivateApplicationDocument item.document = some encoded ∧ encoded.length ≤ 1024

section

variable {mutation : FileMutation}

theorem applicable_of_wellFormed {batch : FilesMutationBatch}
    (h : (PrivateApplicationDocument.files batch).WellFormed) (hmem : mutation ∈ batch.mutations) :
    mutation.Applicable := by
  have hvalid := validMutation_of_wellFormed h hmem
  rw [validMutation, Bool.and_eq_true] at hvalid
  refine ⟨fun item hitem => ?_, fun hkind => ?_, fun item hitem hkind => encode_item h hmem hitem hkind⟩
  · rw [Option.mem_def] at hitem
    cases hkind : mutation.kind with
    | upsertItem =>
      rw [hkind, hitem] at hvalid
      simp only [Bool.and_eq_true, decide_eq_true_eq] at hvalid
      exact hvalid.2.1
    | deleteItem =>
      rw [hkind, hitem] at hvalid
      exact absurd hvalid.2 Bool.noConfusion
  · cases hitem : mutation.item with
    | none =>
      rw [hkind, hitem] at hvalid
      exact absurd hvalid.2 Bool.noConfusion
    | some item => rfl

theorem FileMutation.Applicable.exists_row (h : mutation.Applicable) (operationId : Hash256)
    (order : PrivateOrder) : ∃ record encoded,
    mutationRecord operationId order mutation = some record ∧ record.order = order ∧
    record.item.itemId = mutation.itemId ∧ fileRow record = some encoded ∧ encoded.length ≤ MAX_VALUE_BYTES := by
  have hheader : ∀ record : FileRecord, (fileHeader record).length = 85 := by
    intro record
    simp [fileHeader, FILE_MAGIC, ascii, le64, le32, record.operationId.2, record.item.itemId.2]
  have hmax : (2048 : Nat) ≤ MAX_VALUE_BYTES := by decide
  unfold mutationRecord
  cases hkind : mutation.kind with
  | deleteItem =>
    rw [if_pos rfl]
    refine ⟨_, _, rfl, rfl, rfl, rfl, ?_⟩
    rw [hheader]
    omega
  | upsertItem =>
    rw [if_neg (by decide)]
    obtain ⟨item, hitem⟩ := Option.isSome_iff_exists.mp (h.upsert hkind)
    rcases h.fits item hitem hkind with ⟨encoded, hencoded, hlength⟩
    have hrow : ∀ record : FileRecord, record.item = item → record.deleted = false →
        fileRow record = some (fileHeader record ++ encoded) := by
      intro record hsame hkept
      rw [fileRow, if_neg (by rw [hkept]; exact Bool.noConfusion), hsame, hencoded]
      rfl
    rw [hitem, Option.map_some]
    refine ⟨_, _, rfl, rfl, h.item item hitem, hrow _ rfl rfl, ?_⟩
    rw [List.length_append, hheader]
    omega

end

/-! ### The catalog -/

/-- How many ids fit in the row of an index. -/
def INDEX_CAPACITY : Nat := MAX_VALUE_BYTES / 32

def recordsOf (seen : List FileRecord) (id : PrivateItemId) : List FileRecord :=
  seen.filter fun record => decide (record.item.itemId = id)

theorem recordsOf_snoc (seen : List FileRecord) (record : FileRecord) (id : PrivateItemId) :
    recordsOf (seen ++ [record]) id =
      if record.item.itemId = id then recordsOf seen id ++ [record] else recordsOf seen id := by
  rw [recordsOf, List.filter_append, List.filter_cons, List.filter_nil]
  by_cases hitem : record.item.itemId = id
  · rw [if_pos hitem, if_pos (decide_eq_true hitem)]
    rfl
  · rw [if_neg hitem, if_neg (by simpa using hitem), List.append_nil]
    rfl

theorem mem_recordsOf {seen : List FileRecord} {record : FileRecord} {id : PrivateItemId} :
    record ∈ recordsOf seen id ↔ record ∈ seen ∧ record.item.itemId = id := by
  rw [recordsOf, List.mem_filter, decide_eq_true_eq]

structure Catalog (seen : List FileRecord) (rows : ApplicationRows) : Prop where
  latest : ∀ id, ∃ kept, IsLatest FileRecord.order (recordsOf seen id) kept ∧
    rows (fileKey false id) = kept.bind fileRow ∧ ∀ record ∈ kept, (fileRow record).isSome = true
  nodup : (readIds (rows (.only .filesIndex))).Nodup
  listed : ∀ id, id ∈ readIds (rows (.only .filesIndex)) ↔ ∃ record ∈ seen, record.item.itemId = id

variable {ids : List (FixedBytes 32)}

theorem nodup_withId (h : ids.Nodup) (id : FixedBytes 32) : (withId ids id).Nodup := by
  unfold withId
  by_cases hmem : id ∈ ids
  · rw [if_pos hmem]
    exact h
  · rw [if_neg hmem]
    exact List.nodup_append.mpr ⟨h, List.nodup_singleton _, fun other hother last hlast heq =>
      hmem (by rw [← List.mem_singleton.mp hlast, ← heq]; exact hother)⟩

theorem length_le_of_subset {among : List (FixedBytes 32)} (hnodup : ids.Nodup)
    (hsubset : ∀ id ∈ ids, id ∈ among) (hfits : among.length ≤ INDEX_CAPACITY) :
    ids.length * 32 ≤ MAX_VALUE_BYTES := by
  have hlength := (List.subperm_of_subset hnodup hsubset).length_le
  have hcapacity : INDEX_CAPACITY * 32 = MAX_VALUE_BYTES := by decide
  omega

namespace Catalog

variable {seen : List FileRecord} {rows rows' : ApplicationRows}

theorem congr (h : Catalog seen rows) (hsame : ∀ key, key.usable = true → rows' key = rows key) :
    Catalog seen rows' := by
  refine ⟨fun id => ?_, ?_, ?_⟩
  · rw [hsame (fileKey false id) (ApplicationKey.usable_ofId _ id)]
    exact h.latest id
  · rw [hsame _ (ApplicationKey.usable_only _)]
    exact h.nodup
  · rw [hsame _ (ApplicationKey.usable_only _)]
    exact h.listed

theorem load (h : Catalog seen rows) (id : PrivateItemId) :
    ∃ kept, IsLatest FileRecord.order (recordsOf seen id) kept ∧ rows (fileKey false id) = kept.bind fileRow ∧
      (∀ record ∈ kept, (fileRow record).isSome = true) ∧
      loadFile rows id false = kept.map fun record => record.stored (rows (.ofId .fileStar id)).isSome := by
  rcases h.latest id with ⟨kept, hlatest, hrow, hstored⟩
  refine ⟨kept, hlatest, hrow, hstored, ?_⟩
  cases kept with
  | none =>
    unfold loadFile
    rw [hrow]
    rfl
  | some record =>
    obtain ⟨encoded, hencoded⟩ := Option.isSome_iff_exists.mp (hstored record rfl)
    have hitem : record.item.itemId = id := (mem_recordsOf.mp hlatest.1).2
    subst hitem
    unfold loadFile
    rw [hrow, Option.bind_some, hencoded]
    exact readFileRecord_fileRow _ hencoded

variable {record : FileRecord}

theorem listed_snoc (h : Catalog seen rows)
    (hindex : readIds (rows' (.only .filesIndex)) = withId (readIds (rows (.only .filesIndex))) record.item.itemId) :
    (readIds (rows' (.only .filesIndex))).Nodup ∧ ∀ id, id ∈ readIds (rows' (.only .filesIndex)) ↔
      ∃ other ∈ seen ++ [record], other.item.itemId = id := by
  rw [hindex]
  refine ⟨nodup_withId h.nodup _, fun id => ?_⟩
  rw [mem_withId, h.listed]
  simp only [List.mem_append, List.mem_singleton, or_and_right, exists_or, exists_eq_left]
  exact or_congr_right eq_comm

theorem keep (h : Catalog seen rows) (hloaded : (loadFile rows record.item.itemId false).any
      (fun existing => decide (existing.order ≥ record.order)) = true)
    (hindex : readIds (rows' (.only .filesIndex)) = withId (readIds (rows (.only .filesIndex))) record.item.itemId)
    (hsame : ∀ id, rows' (fileKey false id) = rows (fileKey false id)) : Catalog (seen ++ [record]) rows' := by
  obtain ⟨hnodup, hlisted⟩ := h.listed_snoc hindex
  refine ⟨fun id => ?_, hnodup, hlisted⟩
  rw [hsame id, recordsOf_snoc]
  by_cases hitem : record.item.itemId = id
  · rw [if_pos hitem]
    subst hitem
    rcases h.load record.item.itemId with ⟨kept, hlatest, hrow, hstored, hload⟩
    rw [hload] at hloaded
    cases kept with
    | none => cases hloaded
    | some old =>
      rw [Option.map_some, Option.any_some, decide_eq_true_eq, FileRecord.stored_order] at hloaded
      exact ⟨some old, hlatest.keep hloaded, hrow, hstored⟩
  · rw [if_neg hitem]
    exact h.latest id

theorem replace (h : Catalog seen rows) (hloaded : ¬(loadFile rows record.item.itemId false).any
      (fun existing => decide (existing.order ≥ record.order)) = true)
    (hrow : ∃ encoded, fileRow record = some encoded ∧ rows' (fileKey false record.item.itemId) = some encoded)
    (hindex : readIds (rows' (.only .filesIndex)) = withId (readIds (rows (.only .filesIndex))) record.item.itemId)
    (hsame : ∀ id, id ≠ record.item.itemId → rows' (fileKey false id) = rows (fileKey false id)) :
    Catalog (seen ++ [record]) rows' := by
  obtain ⟨hnodup, hlisted⟩ := h.listed_snoc hindex
  refine ⟨fun id => ?_, hnodup, hlisted⟩
  rw [recordsOf_snoc]
  by_cases hitem : record.item.itemId = id
  · rw [if_pos hitem]
    subst hitem
    rcases hrow with ⟨encoded, hencoded, hrow⟩
    rcases h.load record.item.itemId with ⟨kept, hlatest, _, _, hload⟩
    refine ⟨some record, hlatest.replace fun old hold => ?_, ?_, fun other hother => ?_⟩
    · rw [Option.mem_def] at hold
      rw [hload, hold, Option.map_some, Option.any_some, decide_eq_true_eq, FileRecord.stored_order,
        ge_iff_le, not_le] at hloaded
      exact hloaded
    · rw [hrow, Option.bind_some, hencoded]
    · cases hother
      rw [hencoded]
      rfl
  · rw [if_neg hitem, hsame id (Ne.symm hitem)]
    exact h.latest id

end Catalog

/-! ### One publication -/

section

variable {seen : List FileRecord} {s : StagedRows} {among : List PrivateItemId}

structure IndexRoom (among : List PrivateItemId) (seen : List FileRecord) : Prop where
  subset : ∀ record ∈ seen, record.item.itemId ∈ among
  fits : among.length ≤ INDEX_CAPACITY

theorem IndexRoom.withId (h : IndexRoom among seen) {rows : ApplicationRows} (hcatalog : Catalog seen rows) {id : PrivateItemId}
    (hid : id ∈ among) : (Cybou.withId (readIds (rows (.only .filesIndex))) id).length * 32 ≤ MAX_VALUE_BYTES := by
  refine length_le_of_subset (nodup_withId hcatalog.nodup id) (fun other hother => ?_) h.fits
  rcases mem_withId.mp hother with hlisted | rfl
  · rcases (hcatalog.listed other).mp hlisted with ⟨record, hmem, rfl⟩
    exact h.subset record hmem
  · exact hid

theorem saveFile_returns {record : FileRecord} {encoded : Bytes} (hunlocked : s.unlocked = true)
    (hrow : fileRow record = some encoded) (hlength : encoded.length ≤ MAX_VALUE_BYTES)
    (hroom : (withId (readIds (s.rows (.only .filesIndex))) record.item.itemId).length * 32 ≤ MAX_VALUE_BYTES) :
    Returns (saveFile record false) s := by
  have husable : (fileKey false record.item.itemId).usable = true := ApplicationKey.usable_ofId _ _
  have hput : Completes (putRow (fileKey false record.item.itemId) encoded)
      (fun s' => s'.rows (.only .filesIndex) = s.rows (.only .filesIndex)) s :=
    Completes.putRow fun _ => StagedRows.with_other (ApplicationKey.ne_of_kind nofun)
  unfold saveFile
  rw [hrow]
  refine (Returns.putRow hunlocked husable hlength).next fun s₁ hrun hunlocked₁ => ?_
  refine Returns.addId (hunlocked₁.trans hunlocked) ?_
  rw [hput.of_run hrun]
  exact hroom

/-- **One mutation is applied**, and its record is one more that the catalog has seen. -/
theorem applyMutation_spec (h : Catalog seen s.rows) (hroom : IndexRoom among seen) {mutation : FileMutation}
    (hmutation : mutation.Applicable) (hitem : mutation.itemId ∈ among) (hunlocked : s.unlocked = true)
    (operationId : Hash256) (order : PrivateOrder) :
    ∃ record s', mutationRecord operationId order mutation = some record ∧ record.item.itemId = mutation.itemId ∧
      applyMutation operationId order mutation s = .ok true s' ∧ s'.failed = s.failed ∧
      s'.unlocked = s.unlocked ∧ Catalog (seen ++ [record]) s'.rows := by
  rcases hmutation.exists_row operationId order with
    ⟨record, encoded, hrecord, rfl, hsame, hrow, hlength⟩
  rw [← hsame] at hitem ⊢
  have hroom' := hroom.withId h hitem
  by_cases hkept : (loadFile s.rows record.item.itemId false).any
      (fun existing => decide (existing.order ≥ record.order)) = true
  · have happly : applyMutation operationId record.order mutation s = addId .filesIndex record.item.itemId s := by
      change (if _ then _ else _ : Staging Bool) s = _
      rw [← hsame, if_pos hkept]
    rcases Returns.addId hunlocked hroom' with ⟨s', hrun, hfailed, hunlocked'⟩
    obtain ⟨hindex, hother⟩ := (addId_spec .filesIndex record.item.itemId).of_run hrun
    refine ⟨record, s', hrecord, rfl, happly.trans hrun, hfailed, hunlocked', ?_⟩
    exact h.keep hkept hindex fun id => hother _ (ApplicationKey.ne_of_kind nofun)
  · have happly : applyMutation operationId record.order mutation s = saveFile record false s := by
      change (if _ then _ else _ : Staging Bool) s = _
      rw [← hsame, if_neg hkept, hrecord]
    rcases saveFile_returns hunlocked hrow hlength hroom' with ⟨s', hrun, hfailed, hunlocked'⟩
    obtain ⟨hwritten, hindex, hother⟩ := (saveFile_spec record false).of_run hrun
    refine ⟨record, s', hrecord, rfl, happly.trans hrun, hfailed, hunlocked', ?_⟩
    refine h.replace hkept hwritten hindex fun id hid => ?_
    exact hother _ (fun heq => hid (ApplicationKey.ofId_injective _ heq)) (ApplicationKey.ne_of_kind nofun)

/-- The run over the mutations: each leaves a catalog of what was seen. -/
theorem applyMutations_spec (operationId : Hash256) (accessible : Accessible) {mutations : List FileMutation}
    (i : UInt32)
    (h : Catalog seen s.rows) (hroom : IndexRoom among seen) (happlicable : ∀ mutation ∈ mutations, mutation.Applicable)
    (hitems : ∀ mutation ∈ mutations, mutation.itemId ∈ among) (hunlocked : s.unlocked = true) :
    ∃ s', applyMutations operationId accessible i mutations s = .ok true s' ∧ s'.failed = s.failed ∧
      Catalog (seen ++ recordsFrom operationId accessible i mutations) s'.rows ∧
      IndexRoom among (seen ++ recordsFrom operationId accessible i mutations) := by
  induction mutations generalizing i seen s with
  | nil =>
    refine ⟨s, rfl, rfl, ?_, ?_⟩
    · rw [recordsFrom, List.append_nil]
      exact h
    · rw [recordsFrom, List.append_nil]
      exact hroom
  | cons mutation mutations ih =>
    rw [List.forall_mem_cons] at happlicable hitems
    rcases applyMutation_spec h hroom happlicable.1 hitems.1 hunlocked operationId
      { height := accessible.height, operationIndex := accessible.operationIndex, mutationIndex := i } with
      ⟨record, s₁, hrecord, hitem, hrun, hfailed, hunlocked₁, h₁⟩
    have hroom₁ : IndexRoom among (seen ++ [record]) := by
      refine ⟨fun other hother => ?_, hroom.fits⟩
      rcases List.mem_append.mp hother with hold | hnew
      · exact hroom.subset other hold
      · rw [List.mem_singleton.mp hnew, hitem]
        exact hitems.1
    rcases ih (i + 1) h₁ hroom₁ happlicable.2 hitems.2 (hunlocked₁.trans hunlocked) with
      ⟨s₂, hrun', hfailed', h₂, hroom₂⟩
    have hrecords : recordsFrom operationId accessible i (mutation :: mutations) =
        [record] ++ recordsFrom operationId accessible (i + 1) mutations := by
      rw [recordsFrom, hrecord]
      rfl
    rw [hrecords, ← List.append_assoc]
    refine ⟨s₂, ?_, hfailed'.trans hfailed, h₂, hroom₂⟩
    unfold applyMutations
    change EStateM.bind (applyMutation operationId _ mutation) _ s = _
    rw [EStateM.bind, hrun]
    exact hrun'

end

/-! ### Any sequence of calls -/

def indexFiles (me : AccountId) (rows : ApplicationRows) (publication : FilesPublication) :
    Except RuntimeError Bool × ApplicationRows :=
  transact true .done rows (applyFiles (some me) publication.operationId publication.accessible publication.batch)

def filesIndexed (me : AccountId) (start : ApplicationRows) (calls : List FilesPublication) : ApplicationRows :=
  calls.foldl (fun rows publication => (indexFiles me rows publication).2) start

section

variable {me : AccountId} {rows : ApplicationRows} {seen : List FileRecord} {among : List PrivateItemId}

structure FilesPublication.Owned (me : AccountId) (publication : FilesPublication) : Prop where
  sender : publication.accessible.sender = me
  wellFormed : (PrivateApplicationDocument.files publication.batch).WellFormed

theorem indexFiles_spec (h : Catalog seen rows) (hroom : IndexRoom among seen) {publication : FilesPublication}
    (howned : publication.Owned me) (hitems : ∀ id ∈ publication.items, id ∈ among) :
    (indexFiles me rows publication).1 = .ok true ∧
      Catalog (seen ++ publication.records) (indexFiles me rows publication).2 ∧
      IndexRoom among (seen ++ publication.records) := by
  have hopened : Catalog seen (StagedRows.opened true rows).rows :=
    h.congr fun key hkey => visible_of_usable hkey rows
  rcases applyMutations_spec publication.operationId publication.accessible 0 hopened hroom
    (fun mutation hmem => applicable_of_wellFormed howned.wellFormed hmem)
    (fun mutation hmem => hitems mutation.itemId (List.mem_map_of_mem hmem)) rfl with
    ⟨s, hrun, hfailed, hcatalog, hroom'⟩
  have hbody : applyFiles (some me) publication.operationId publication.accessible publication.batch
      (.opened true rows) = .ok true s := by
    rw [applyFiles, if_neg (not_not.mpr (congrArg some howned.sender.symm))]
    exact hrun
  have hindexed : indexFiles me rows publication = (.ok true, s.over rows) := by
    rw [indexFiles, transact, hbody]
    dsimp only
    rw [if_neg (by rw [hfailed]; exact fun hor => hor.elim Bool.noConfusion Bool.noConfusion), if_neg nofun]
    rfl
  rw [hindexed]
  exact ⟨rfl, hcatalog.congr fun key hkey => if_pos hkey, hroom'⟩

variable {calls : List FilesPublication}

theorem filesIndexed_spec (h : Catalog seen rows) (hroom : IndexRoom among seen)
    (howned : ∀ publication ∈ calls, publication.Owned me)
    (hitems : ∀ publication ∈ calls, ∀ id ∈ publication.items, id ∈ among) :
    Catalog (seen ++ calls.flatMap FilesPublication.records) (filesIndexed me rows calls) ∧
      IndexRoom among (seen ++ calls.flatMap FilesPublication.records) := by
  induction calls generalizing rows seen with
  | nil =>
    rw [List.flatMap_nil, List.append_nil]
    exact ⟨h, hroom⟩
  | cons publication calls ih =>
    rw [List.forall_mem_cons] at howned hitems
    obtain ⟨_, hcatalog, hroom'⟩ := indexFiles_spec h hroom howned.1 hitems.1
    rw [List.flatMap_cons, ← List.append_assoc]
    exact ih hcatalog hroom' howned.2 hitems.2

variable {operationId : Hash256} {accessible : Accessible} {i : UInt32}
  {mutations : List FileMutation} {record : FileRecord}

theorem mem_recordsFrom (h : record ∈ recordsFrom operationId accessible i mutations) :
    ∃ k mutation, mutations[k]? = some mutation ∧ mutationRecord operationId
      { height := accessible.height, operationIndex := accessible.operationIndex
        mutationIndex := i + UInt32.ofNat k } mutation = some record := by
  induction mutations generalizing i with
  | nil => cases h
  | cons mutation mutations ih =>
    rw [recordsFrom, List.mem_append, Option.mem_toList] at h
    rcases h with hfirst | hrest
    · have hzero : i + UInt32.ofNat 0 = i := UInt32.add_zero i
      refine ⟨0, mutation, rfl, ?_⟩
      rw [hzero]
      exact hfirst
    · rcases ih hrest with ⟨k, other, hk, hrecord⟩
      refine ⟨k + 1, other, hk, ?_⟩
      rw [UInt32.ofNat_add, UInt32.add_comm (UInt32.ofNat k), ← UInt32.add_assoc]
      exact hrecord

theorem order_mutationRecord {order : PrivateOrder} {mutation : FileMutation}
    (h : mutationRecord operationId order mutation = some record) : record.order = order := by
  unfold mutationRecord at h
  split at h
  · cases h
    rfl
  · rcases Option.map_eq_some_iff.mp h with ⟨item, _, rfl⟩
    rfl

theorem records_injective (howned : ∀ publication ∈ calls, publication.Owned me)
    (hdistinct : ∀ publication ∈ calls, ∀ other ∈ calls, publication.accessible.height = other.accessible.height →
      publication.accessible.operationIndex = other.accessible.operationIndex → publication = other) :
    ∀ record ∈ calls.flatMap FilesPublication.records, ∀ other ∈ calls.flatMap FilesPublication.records,
      record.order = other.order → record = other := by
  have hsmall : ∀ publication ∈ calls, publication.batch.mutations.length < 2 ^ 32 := by
    intro publication hmem
    have hvalid : validFiles publication.batch = true := (howned publication hmem).wellFormed.1
    simp only [validFiles, Bool.and_eq_true, decide_eq_true_eq] at hvalid
    exact lt_of_le_of_lt hvalid.1.2 (by decide)
  intro record hrecord other hother horder
  rcases List.mem_flatMap.mp hrecord with ⟨publication, hpublication, hmem⟩
  rcases List.mem_flatMap.mp hother with ⟨publication', hpublication', hmem'⟩
  rcases mem_recordsFrom hmem with ⟨k, mutation, hk, hmutation⟩
  rcases mem_recordsFrom hmem' with ⟨k', mutation', hk', hmutation'⟩
  rw [order_mutationRecord hmutation, order_mutationRecord hmutation', PrivateOrder.mk.injEq] at horder
  obtain ⟨hheight, hindex, hposition⟩ := horder
  have hpublications := hdistinct publication hpublication publication' hpublication' hheight hindex
  subst hpublications
  have hlt := (List.getElem?_eq_some_iff.mp hk).1
  have hlt' := (List.getElem?_eq_some_iff.mp hk').1
  have hlength := hsmall publication hpublication
  have hnat := congrArg UInt32.toNat ((UInt32.add_right_inj 0).mp hposition)
  rw [UInt32.toNat_ofNat', UInt32.toNat_ofNat', Nat.mod_eq_of_lt (by omega), Nat.mod_eq_of_lt (by omega)] at hnat
  subst hnat
  rw [hk] at hk'
  cases hk'
  rw [hmutation] at hmutation'
  exact Option.some.inj hmutation'

theorem items_recordsFrom (happlicable : ∀ mutation ∈ mutations, mutation.Applicable) :
    (recordsFrom operationId accessible i mutations).map (·.item.itemId) = mutations.map (·.itemId) := by
  induction mutations generalizing i with
  | nil => rfl
  | cons mutation mutations ih =>
    rw [List.forall_mem_cons] at happlicable
    rcases happlicable.1.exists_row operationId
      { height := accessible.height, operationIndex := accessible.operationIndex, mutationIndex := i } with
      ⟨record, _, hrecord, _, hitem, _, _⟩
    rw [recordsFrom, hrecord, Option.toList_some, List.map_append, ih happlicable.2]
    exact congrArg (· :: mutations.map (·.itemId)) hitem

theorem mem_items (howned : ∀ publication ∈ calls, publication.Owned me)
    (id : PrivateItemId) : id ∈ calls.flatMap FilesPublication.items ↔
      ∃ record ∈ calls.flatMap FilesPublication.records, record.item.itemId = id := by
  have hitems : calls.flatMap FilesPublication.items =
      (calls.flatMap FilesPublication.records).map (·.item.itemId) := by
    rw [List.map_flatMap]
    refine List.flatMap_congr fun publication hmem => ?_
    exact (items_recordsFrom fun mutation hmutation =>
      applicable_of_wellFormed (howned publication hmem).wellFormed hmutation).symm
  rw [hitems, List.mem_map]

theorem Catalog.empty {rows : ApplicationRows}
    (h : ∀ key, key.kind = .file ∨ key.kind = .filesIndex → rows key = none) : Catalog [] rows := by
  have hindex : readIds (rows (.only .filesIndex)) = [] := by
    rw [h (.only .filesIndex) (.inr rfl)]
    rfl
  refine ⟨fun id => ⟨none, rfl, h (fileKey false id) (.inl rfl), nofun⟩, ?_, fun id => ?_⟩
  · rw [hindex]
    exact List.nodup_nil
  · rw [hindex]
    exact ⟨nofun, nofun⟩

/-- **The Files catalog does not depend on the order of indexing.** -/
theorem applyFiles_orderFree {start : ApplicationRows}
    (hstart : ∀ key, key.kind = .file ∨ key.kind = .filesIndex → start key = none)
    (howned : ∀ publication ∈ calls, publication.Owned me)
    (hdistinct : ∀ publication ∈ calls, ∀ other ∈ calls, publication.accessible.height = other.accessible.height →
      publication.accessible.operationIndex = other.accessible.operationIndex → publication = other)
    (hfits : (calls.flatMap FilesPublication.items).dedup.length ≤ INDEX_CAPACITY) :
    (∀ before publication after, calls = before ++ publication :: after →
      (indexFiles me (filesIndexed me start before) publication).1 = .ok true) ∧
    (∀ record ∈ calls.flatMap FilesPublication.records,
      (∀ other ∈ calls.flatMap FilesPublication.records, other.item.itemId = record.item.itemId →
        other.order ≤ record.order) →
      loadFile (filesIndexed me start calls) record.item.itemId false =
        some (record.stored (filesIndexed me start calls (.ofId .fileStar record.item.itemId)).isSome)) ∧
    (readIds (filesIndexed me start calls (.only .filesIndex))).Nodup ∧
    ∀ id, id ∈ readIds (filesIndexed me start calls (.only .filesIndex)) ↔
      id ∈ calls.flatMap FilesPublication.items := by
  have hempty := Catalog.empty hstart
  have hroom : IndexRoom (calls.flatMap FilesPublication.items).dedup [] := ⟨nofun, hfits⟩
  have hitems : ∀ publication ∈ calls, ∀ id ∈ publication.items,
      id ∈ (calls.flatMap FilesPublication.items).dedup :=
    fun publication hmem id hid => List.mem_dedup.mpr (List.mem_flatMap.mpr ⟨publication, hmem, hid⟩)
  obtain ⟨h, _⟩ := filesIndexed_spec hempty hroom howned hitems
  rw [List.nil_append] at h
  refine ⟨fun before publication after hcalls => ?_, fun record hrecord hmax => ?_, h.nodup, fun id => ?_⟩
  · have hbefore : ∀ other ∈ before, other ∈ calls := by
      intro other hother
      rw [hcalls]
      exact List.mem_append_left _ hother
    have hmem : publication ∈ calls := by
      rw [hcalls]
      exact List.mem_append_right _ List.mem_cons_self
    obtain ⟨hcatalog, hroom'⟩ := filesIndexed_spec hempty hroom (fun other hother => howned other (hbefore other hother))
      (fun other hother => hitems other (hbefore other hother))
    exact (indexFiles_spec hcatalog hroom' (howned publication hmem) (hitems publication hmem)).1
  · rcases h.load record.item.itemId with ⟨kept, hlatest, _, _, hload⟩
    rw [hload]
    have hown : record ∈ recordsOf (calls.flatMap FilesPublication.records) record.item.itemId :=
      mem_recordsOf.mpr ⟨hrecord, rfl⟩
    cases kept with
    | none =>
      rw [IsLatest] at hlatest
      rw [hlatest] at hown
      cases hown
    | some old =>
      obtain ⟨hold, hitem⟩ := mem_recordsOf.mp hlatest.1
      have horder := le_antisymm (hmax old hold hitem) (hlatest.2 record hown)
      rw [records_injective howned hdistinct old hold record hrecord horder]
      rfl
  · rw [h.listed, mem_items howned]

end

def folderAt (height : UInt64) : FilesPublication where
  operationId := FixedBytes.leading 31 2
  accessible :=
    { state := .discovered, height, operationIndex := 0, sender := FixedBytes.leading 31 3, senderNonce := 1
      senderKeyEpoch := 1, rootChunkId := FixedBytes.leading 31 4, contentKey := FixedBytes.leading 31 5 }
  batch := { mutations := [{ kind := .upsertItem, itemId := plainFolder.itemId, item := some plainFolder }] }

/-- The later publication is indexed first, and is the one that stays. -/
theorem applyFiles_orderFree_folder :
    ∃ record starred, (folderAt 7).records = [record] ∧
      loadFile (filesIndexed (FixedBytes.leading 31 3) (fun _ => none) [folderAt 7, folderAt 5]) plainFolder.itemId false =
        some (record.stored starred) := by
  have howned : ∀ publication ∈ [folderAt 7, folderAt 5], publication.Owned (FixedBytes.leading 31 3) := by
    intro publication hmem
    rcases List.mem_pair.mp hmem with rfl | rfl
    · exact ⟨rfl, by decide⟩
    · exact ⟨rfl, by decide⟩
  have hdistinct : ∀ publication ∈ [folderAt 7, folderAt 5], ∀ other ∈ [folderAt 7, folderAt 5],
      publication.accessible.height = other.accessible.height →
        publication.accessible.operationIndex = other.accessible.operationIndex → publication = other := by
    decide
  have hfits : ([folderAt 7, folderAt 5].flatMap FilesPublication.items).dedup.length ≤ INDEX_CAPACITY := by decide
  obtain ⟨-, hlatest, -⟩ := applyFiles_orderFree (fun _ _ => rfl) howned hdistinct hfits
  obtain ⟨record, hrecords, hitem, hgreatest⟩ : ∃ record, (folderAt 7).records = [record] ∧
      record.item.itemId = plainFolder.itemId ∧
      ∀ other ∈ [folderAt 7, folderAt 5].flatMap FilesPublication.records, other.order ≤ record.order :=
    ⟨_, rfl, rfl, by decide⟩
  have hmem : record ∈ [folderAt 7, folderAt 5].flatMap FilesPublication.records := by
    refine List.mem_flatMap.mpr ⟨folderAt 7, List.mem_cons_self, ?_⟩
    rw [hrecords]
    exact List.mem_singleton_self _
  have hload := hlatest record hmem fun other hother _ => hgreatest other hother
  rw [hitem] at hload
  exact ⟨record, _, hrecords, hload⟩

end Cybou
