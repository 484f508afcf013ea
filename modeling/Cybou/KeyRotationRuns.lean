import Cybou.KeyRotation

/-! # Application data survives the rotation of its phrase (`private_application_store.cpp`)

`Wrapped` says what the rows look like once a data key was wrapped: every access record is
that of a known phrase and wraps this key, and the marker of a rotation names the phrase
that was prepared last.  Without the marker there is one access record at most.  Every call
keeps it, with the same data key.
-/

namespace Cybou

open Library

section

variable [RecordCipher] {account : AccountId} {file : StoreFile}

/-! ### Names are apart -/

theorem length_accessName (key : FixedBytes 32) : (accessName key).length = 75 := by
  rw [accessName, List.length_append, length_hex, (keyCheck key).2]
  rfl

theorem inScan_accessName (key : FixedBytes 32) : inScan ACCESS_DB_PREFIX (accessName key) = true := by
  rw [inScan, length_accessName, accessName, List.take_left, Bool.and_eq_true, decide_eq_true_eq, decide_eq_true_eq]
  exact ⟨rfl, rfl⟩

variable {name : Bytes}

omit [RecordCipher] in
theorem length_of_inScan {start : Bytes} (h : inScan start name = true) : name.length = start.length + 64 := by
  rw [inScan, Bool.and_eq_true, decide_eq_true_eq, decide_eq_true_eq] at h
  exact h.2

variable {key dataKey : FixedBytes 32}

theorem accessName_injective {key' : FixedBytes 32} (h : accessName key = accessName key') :
    keyCheck key = keyCheck key' :=
  Subtype.ext (hex_injective (List.append_cancel_left h))

theorem inScan_of_recordKey {record : Bytes}
    (h : recordKey account key name = some record) : inScan ROW_DB_PREFIX record = true := by
  rw [recordKey, Option.ite_none_left_eq_some, Option.some.injEq] at h
  obtain ⟨-, rfl⟩ := h
  rw [inScan, List.take_left, List.length_append, length_hex, Bool.and_eq_true, decide_eq_true_eq, decide_eq_true_eq,
    (RecordCipher.hmacSha256 key (associatedData account name)).2]
  exact ⟨rfl, rfl⟩

/-! ### Access records -/

variable {rows rows' : DatabaseRows}

theorem unwrapKey_congr (h : rows'.find? (accessName key) = rows.find? (accessName key)) :
    unwrapKey account rows' key = unwrapKey account rows key := by
  rw [unwrapKey, unwrapKey, readBytes, readBytes, h]

theorem find?_of_unwrapKey
    (h : unwrapKey account rows key = some dataKey) : rows.find? (accessName key) ≠ none := by
  intro hnone
  rw [unwrapKey, readBytes, hnone] at h
  cases h

variable {wrappingKey : FixedBytes 32} {preparedRotation : Bool} {nonce : Option (FixedBytes 12)}
  {batch : List (Edit Bytes Bytes)}

theorem wrapKeyEdits_eq_some
    (h : wrapKeyEdits account wrappingKey dataKey preparedRotation nonce = some batch) :
    ∃ encoded, decryptRecord account wrappingKey DATA_KEY_NAME encoded = some dataKey.1 ∧
      encoded.length ≤ MAX_COMPACT_SIZE ∧
      batch = [.put (accessName wrappingKey) (encodeLocalBytes encoded),
          .put DATA_KEY_PRESENT_DB_KEY (encodeLocalBytes [1])] ++
        if preparedRotation = true then [.put ROTATION_DB_KEY (encodeLocalBytes (keyCheck wrappingKey).1)] else [] := by
  rw [wrapKeyEdits, Option.bind_eq_bind, Option.bind_eq_some_iff] at h
  obtain ⟨encoded, hencoded, h⟩ := h
  obtain ⟨hdecrypt, hlength⟩ := decryptRecord_encryptRecord hencoded
  exact ⟨encoded, hdecrypt, hlength, (Option.some.inj h).symm⟩

structure WrapWritten (account : AccountId) (wrappingKey dataKey : FixedBytes 32) (preparedRotation : Bool)
    (rows rows' : DatabaseRows) : Prop where
  unwraps : unwrapKey account rows' wrappingKey = some dataKey
  present : rows'.find? DATA_KEY_PRESENT_DB_KEY ≠ none
  rotation : rows'.find? ROTATION_DB_KEY =
    if preparedRotation = true then some (encodeLocalBytes (keyCheck wrappingKey).1) else rows.find? ROTATION_DB_KEY
  frame : ∀ name, name ≠ accessName wrappingKey → name ≠ DATA_KEY_PRESENT_DB_KEY → name ≠ ROTATION_DB_KEY →
    rows'.find? name = rows.find? name

theorem wrapWritten_of_apply
    (h : wrapKeyEdits account wrappingKey dataKey preparedRotation nonce = some batch) :
    WrapWritten account wrappingKey dataKey preparedRotation rows (rows.apply batch) := by
  obtain ⟨encoded, hdecrypt, hlength, rfl⟩ := wrapKeyEdits_eq_some h
  have haccess : accessName wrappingKey ≠ DATA_KEY_PRESENT_DB_KEY ∧ accessName wrappingKey ≠ ROTATION_DB_KEY := by
    constructor
    · intro heq
      exact absurd (heq ▸ length_accessName wrappingKey) (by decide)
    · intro heq
      exact absurd (heq ▸ length_accessName wrappingKey) (by decide)
  have hmarkers : DATA_KEY_PRESENT_DB_KEY ≠ ROTATION_DB_KEY := by decide
  -- The rows of the record and of the marker that a key is present.
  let wrapped := (rows.set (accessName wrappingKey) (encodeLocalBytes encoded)).set DATA_KEY_PRESENT_DB_KEY
    (encodeLocalBytes [1])
  have hrow : wrapped.find? (accessName wrappingKey) = some (encodeLocalBytes encoded) := by
    rw [OrdMap.find?_set_of_ne _ _ haccess.1, OrdMap.find?_set_self]
  have hpresent : wrapped.find? DATA_KEY_PRESENT_DB_KEY = some (encodeLocalBytes [1]) := OrdMap.find?_set_self _ _ _
  have hframe : ∀ name, name ≠ accessName wrappingKey → name ≠ DATA_KEY_PRESENT_DB_KEY →
      wrapped.find? name = rows.find? name := by
    intro name hname hmarker
    rw [OrdMap.find?_set_of_ne _ _ hmarker, OrdMap.find?_set_of_ne _ _ hname]
  have hunwraps : ∀ rows' : DatabaseRows, rows'.find? (accessName wrappingKey) = some (encodeLocalBytes encoded) →
      unwrapKey account rows' wrappingKey = some dataKey := by
    intro rows' hrow'
    rw [unwrapKey, readBytes_of_small hrow' hlength, Option.bind_eq_bind, Option.bind_some, hdecrypt,
      Option.bind_some, dif_pos dataKey.2]
  cases preparedRotation with
  | false =>
    change WrapWritten account wrappingKey dataKey false rows wrapped
    refine ⟨hunwraps _ hrow, ?_, ?_, fun name hname hmarker _ => hframe name hname hmarker⟩
    · rw [hpresent]
      exact nofun
    · rw [if_neg (by decide), hframe _ haccess.2.symm hmarkers.symm]
  | true =>
    change WrapWritten account wrappingKey dataKey true rows
      (wrapped.set ROTATION_DB_KEY (encodeLocalBytes (keyCheck wrappingKey).1))
    refine ⟨hunwraps _ ?_, ?_, ?_, fun name hname hmarker hrotation => ?_⟩
    · rw [OrdMap.find?_set_of_ne _ _ haccess.2, hrow]
    · rw [OrdMap.find?_set_of_ne _ _ hmarkers, hpresent]
      exact nofun
    · rw [OrdMap.find?_set_self, if_pos rfl]
    · rw [OrdMap.find?_set_of_ne _ _ hrotation, hframe name hname hmarker]

/-! ### The rows once a key was wrapped -/

def HasAccess (rows : DatabaseRows) (name : Bytes) : Prop :=
  inScan ACCESS_DB_PREFIX name = true ∧ rows.find? name ≠ none

def CheckedBy (account : AccountId) (rows : DatabaseRows) (dataKey : FixedBytes 32) : Prop :=
  ∃ check, readBytes rows.find? CHECK_DB_KEY = some check ∧ decryptRecord account dataKey CHECK_NAME check = some CHECK_VALUE

def NothingStored (rows : DatabaseRows) : Prop :=
  rows.find? CHECK_DB_KEY = none ∧ ∀ name, inScan ROW_DB_PREFIX name = true → rows.find? name = none

structure Wrapped (account : AccountId) (rows : DatabaseRows) (known : List RecoveryEntropy)
    (lastPrepared : Option RecoveryEntropy) (dataKey : FixedBytes 32) : Prop where
  present : rows.find? DATA_KEY_PRESENT_DB_KEY ≠ none
  access : ∀ name, HasAccess rows name → ∃ phrase ∈ known, name = accessName (deriveApplicationStoreKey account phrase) ∧
    unwrapKey account rows (deriveApplicationStoreKey account phrase) = some dataKey
  /-- The marker names the phrase that was prepared last; without it there is one access
      record at most. -/
  rotation :
    (∃ phrase, lastPrepared = some phrase ∧
      rows.find? ROTATION_DB_KEY = some (encodeLocalBytes (keyCheck (deriveApplicationStoreKey account phrase)).1)) ∨
    rows.find? ROTATION_DB_KEY = none ∧ ∃ phrase, (∀ prepared ∈ lastPrepared, prepared = phrase) ∧
      ∀ name, HasAccess rows name → name = accessName (deriveApplicationStoreKey account phrase)
  check : NothingStored rows ∨ CheckedBy account rows dataKey

/-- The rows before a data key is wrapped: those of a database that the first phrase opened
    without preserving its data key, if any did. -/
structure LegacyRows (account : AccountId) (first : RecoveryEntropy) (rows : DatabaseRows) : Prop where
  notPresent : rows.find? DATA_KEY_PRESENT_DB_KEY = none
  noAccess : ∀ name, ¬HasAccess rows name
  noRotation : rows.find? ROTATION_DB_KEY = none
  check : NothingStored rows ∨ CheckedBy account rows (deriveApplicationStoreKey account first)

variable {known : List RecoveryEntropy} {lastPrepared : Option RecoveryEntropy}

/-- The rows of the records do not matter. -/
theorem Wrapped.congr (h : Wrapped account rows known lastPrepared dataKey)
    (hsame : ∀ name, inScan ROW_DB_PREFIX name = false → name ≠ CHECK_DB_KEY → rows'.find? name = rows.find? name)
    (hcheck : NothingStored rows' ∨ CheckedBy account rows' dataKey) :
    Wrapped account rows' known lastPrepared dataKey := by
  have hmarker : ∀ name, name.length < 64 → inScan ROW_DB_PREFIX name = false := by
    intro name hshort
    by_contra hscan
    have hlength := length_of_inScan (Bool.not_eq_false _ ▸ hscan)
    omega
  have haccess : ∀ name, inScan ACCESS_DB_PREFIX name = true → rows'.find? name = rows.find? name := by
    intro name hname
    have hlength := length_of_inScan hname
    refine hsame name ?_ ?_
    · by_contra hscan
      have hrow := length_of_inScan (Bool.not_eq_false _ ▸ hscan)
      rw [hlength] at hrow
      exact absurd hrow (by decide)
    · rintro rfl
      exact absurd hlength (by decide)
  have hhas : ∀ name, HasAccess rows' name → HasAccess rows name := by
    rintro name ⟨hname, hrow⟩
    exact ⟨hname, haccess name hname ▸ hrow⟩
  have hrotation : rows'.find? ROTATION_DB_KEY = rows.find? ROTATION_DB_KEY :=
    hsame _ (hmarker _ (by decide)) (by decide)
  refine ⟨?_, fun name hname => ?_, ?_, hcheck⟩
  · rw [hsame _ (hmarker _ (by decide)) (by decide)]
    exact h.present
  · obtain ⟨phrase, hphrase, hkey, hunwrap⟩ := h.access name (hhas name hname)
    exact ⟨phrase, hphrase, hkey, (unwrapKey_congr (haccess _ (inScan_accessName _))).trans hunwrap⟩
  · rw [hrotation]
    rcases h.rotation with hprepared | ⟨hnone, phrase, hlast, hsole⟩
    · exact .inl hprepared
    · exact .inr ⟨hnone, phrase, hlast, fun name hname => hsole name (hhas name hname)⟩

/-- Distinct phrases have distinct access records. -/
def PhrasesApart (account : AccountId) : Prop :=
  Function.Injective fun phrase => keyCheck (deriveApplicationStoreKey account phrase)

variable {phrase : RecoveryEntropy}

theorem PhrasesApart.eq (h : PhrasesApart account) {phrase' : RecoveryEntropy}
    (heq : accessName (deriveApplicationStoreKey account phrase) =
      accessName (deriveApplicationStoreKey account phrase')) : phrase = phrase' :=
  h (accessName_injective heq)

theorem Wrapped.unwraps (h : Wrapped account rows known lastPrepared dataKey) (hapart : PhrasesApart account)
    (hrow : rows.find? (accessName (deriveApplicationStoreKey account phrase)) ≠ none) :
    unwrapKey account rows (deriveApplicationStoreKey account phrase) = some dataKey := by
  obtain ⟨phrase', -, hname, hunwrap⟩ := h.access _ ⟨inScan_accessName _, hrow⟩
  rwa [hapart.eq hname]

section

variable {rows rows' : DatabaseRows} {wrappingKey dataKey : FixedBytes 32} {preparedRotation : Bool}

variable {name : Bytes}

theorem WrapWritten.access (h : WrapWritten account wrappingKey dataKey preparedRotation rows rows')
    (hname : inScan ACCESS_DB_PREFIX name = true) (hne : name ≠ accessName wrappingKey) :
    rows'.find? name = rows.find? name := by
  have hlength := length_of_inScan hname
  refine h.frame name hne ?_ ?_
  · rintro rfl
    exact absurd hlength (by decide)
  · rintro rfl
    exact absurd hlength (by decide)

theorem WrapWritten.record (h : WrapWritten account wrappingKey dataKey preparedRotation rows rows')
    (hname : inScan ROW_DB_PREFIX name = true) : rows'.find? name = rows.find? name := by
  have hlength := length_of_inScan hname
  refine h.frame name ?_ ?_ ?_
  · rintro rfl
    rw [length_accessName] at hlength
    exact absurd hlength (by decide)
  · rintro rfl
    exact absurd hlength (by decide)
  · rintro rfl
    exact absurd hlength (by decide)

theorem WrapWritten.check (h : WrapWritten account wrappingKey dataKey preparedRotation rows rows') :
    rows'.find? CHECK_DB_KEY = rows.find? CHECK_DB_KEY := by
  refine h.frame _ ?_ (by decide) (by decide)
  intro heq
  exact absurd (heq ▸ length_accessName wrappingKey) (by decide)

theorem WrapWritten.stored (h : WrapWritten account wrappingKey dataKey preparedRotation rows rows')
    {key : FixedBytes 32} (hcheck : NothingStored rows ∨ CheckedBy account rows key) :
    NothingStored rows' ∨ CheckedBy account rows' key := by
  rcases hcheck with ⟨hcheck, hrows⟩ | ⟨check, hcheck, hdecrypt⟩
  · refine .inl ⟨h.check.trans hcheck, fun name hname => ?_⟩
    rw [h.record hname, hrows name hname]
  · refine .inr ⟨check, ?_, hdecrypt⟩
    rwa [readBytes, h.check]

end

theorem Wrapped.prepared (h : Wrapped account rows known lastPrepared dataKey) {entropy : RecoveryEntropy}
    (hwritten : WrapWritten account (deriveApplicationStoreKey account entropy) dataKey true rows rows') :
    Wrapped account rows' (entropy :: known) (some entropy) dataKey := by
  refine ⟨hwritten.present, fun name hname => ?_, .inl ⟨entropy, rfl, ?_⟩, hwritten.stored h.check⟩
  · by_cases hown : name = accessName (deriveApplicationStoreKey account entropy)
    · exact ⟨entropy, List.mem_cons_self, hown, hwritten.unwraps⟩
    · have hkept := hwritten.access hname.1 hown
      obtain ⟨phrase, hphrase, rfl, hunwrap⟩ := h.access name ⟨hname.1, hkept ▸ hname.2⟩
      exact ⟨phrase, List.mem_cons_of_mem _ hphrase, rfl, (unwrapKey_congr hkept).trans hunwrap⟩
  · rw [hwritten.rotation, if_pos rfl]

theorem LegacyRows.wrapped {first : RecoveryEntropy}
    (h : LegacyRows account first rows) (hopens : opensCheck account rows dataKey = true)
    (hwritten : WrapWritten account (deriveApplicationStoreKey account first) dataKey false rows rows') :
    Wrapped account rows' [first] none dataKey := by
  have hown : ∀ name, HasAccess rows' name → name = accessName (deriveApplicationStoreKey account first) := by
    intro name hname
    by_contra hne
    exact h.noAccess name ⟨hname.1, hwritten.access hname.1 hne ▸ hname.2⟩
  have hcheck : NothingStored rows ∨ CheckedBy account rows dataKey := by
    rcases h.check with hnothing | ⟨check, hcheck, -⟩
    · exact .inl hnothing
    · rw [opensCheck, hcheck, decide_eq_true_eq] at hopens
      exact .inr ⟨check, hcheck, hopens⟩
  refine ⟨hwritten.present, fun name hname => ?_, .inr ⟨?_, first, nofun, hown⟩, hwritten.stored hcheck⟩
  · exact ⟨first, List.mem_singleton_self _, hown name hname, hwritten.unwraps⟩
  · rw [hwritten.rotation, if_neg (by decide), h.noRotation]

/-! ### Opening -/

section

variable {rows : DatabaseRows} {known : List RecoveryEntropy} {lastPrepared : Option RecoveryEntropy}
  {dataKey : FixedBytes 32}

omit [RecordCipher] in
theorem scanRows_of_nothing {start : Bytes} (h : ∀ name, inScan start name = true → rows.find? name = none) :
    scanRows rows start = some [] := by
  have hkeys : rows.keysIn (inScan start) = [] := by
    refine List.eq_nil_iff_forall_not_mem.mpr fun name hname => ?_
    obtain ⟨hstart, hrow⟩ := OrdMap.mem_keysIn.mp hname
    exact hrow (h name hstart)
  rw [scanRows, hkeys]
  rfl

/-- What verifying or writing the check row leaves. -/
structure CheckOpened (account : AccountId) (key : FixedBytes 32) (env : OpenEnv) (rows : DatabaseRows)
    (opened : Except StoreOpenError Unit × DatabaseRows) : Prop where
  frame : ∀ name, name ≠ CHECK_DB_KEY → opened.2.find? name = rows.find? name
  check : NothingStored opened.2 ∨ CheckedBy account opened.2 key
  checked : opened.1 = .ok () → CheckedBy account opened.2 key
  opens : env.checkFate = .done → env.checkNonce.isSome = true → opened.1 = .ok ()

variable {key : FixedBytes 32}

theorem CheckOpened.refl {env : OpenEnv} (h : CheckedBy account rows key) :
    CheckOpened account key env rows (.ok (), rows) :=
  ⟨fun _ _ => rfl, .inr h, fun _ => h, fun _ _ => rfl⟩

theorem checkedBy_write {nonce : Option (FixedBytes 12)} {encoded : Bytes}
    (h : encryptRecord account key nonce CHECK_NAME CHECK_VALUE = some encoded) :
    CheckedBy account (rows.apply [.put CHECK_DB_KEY (encodeLocalBytes encoded)]) key := by
  obtain ⟨hdecrypt, hlength⟩ := decryptRecord_encryptRecord h
  exact ⟨encoded, readBytes_of_small (OrdMap.find?_set_self _ _ _) hlength, hdecrypt⟩

/-- The check row opens under the data key, or is written. -/
theorem openCheck_spec (h : NothingStored rows ∨ CheckedBy account rows key) (env : OpenEnv) :
    CheckOpened account key env rows (openCheck account rows key env) := by
  rcases h with ⟨hnone, hrows⟩ | hchecked
  · have hread : readBytes rows.find? CHECK_DB_KEY = none := by rw [readBytes, hnone, Option.bind_none]
    rw [openCheck, hread]
    dsimp only
    rw [hnone, if_neg (by decide), scanRows_of_nothing hrows]
    dsimp only
    rw [if_neg (by decide)]
    cases hencoded : encryptRecord account key env.checkNonce CHECK_NAME CHECK_VALUE with
    | none =>
      refine ⟨fun _ _ => rfl, .inl ⟨hnone, hrows⟩, fun h => (by cases h), fun _ hnonce => ?_⟩
      rw [encryptRecord, if_neg (by decide), Option.map_eq_none_iff] at hencoded
      rw [hencoded] at hnonce
      cases hnonce
    | some encoded =>
      dsimp only
      have hwritten : CheckedBy account (rows.apply [.put CHECK_DB_KEY (encodeLocalBytes encoded)]) key :=
        checkedBy_write hencoded
      have hframe : ∀ name, name ≠ CHECK_DB_KEY →
          (rows.write [.put CHECK_DB_KEY (encodeLocalBytes encoded)] env.checkFate).find? name = rows.find? name := by
        intro name hname
        exact OrdMap.find?_write_of_forall_ne (List.forall_mem_singleton.mpr (Ne.symm hname)) _
      refine ⟨hframe, ?_, fun hok => ?_, fun hfate _ => ?_⟩
      · rw [writeOrThrow]
        cases env.checkFate with
        | done => exact .inr hwritten
        | stored => exact .inr hwritten
        | lost => exact .inl ⟨hnone, hrows⟩
      · rw [writeOrThrow] at hok ⊢
        split at hok
        next hfate =>
          rw [hfate]
          exact hwritten
        · cases hok
      · rw [writeOrThrow, if_pos hfate]
  · obtain ⟨check, hread, hdecrypt⟩ := hchecked
    rw [openCheck, hread]
    dsimp only
    rw [if_pos hdecrypt]
    exact .refl ⟨check, hread, hdecrypt⟩

/-- What retiring the other access records leaves. -/
structure Retired (account : AccountId) (lastPrepared : Option RecoveryEntropy) (phrase : RecoveryEntropy)
    (env : OpenEnv) (rows : DatabaseRows) (opened : Except StoreOpenError Unit × DatabaseRows) : Prop where
  /-- Only the other access records and the marker can go. -/
  frame : ∀ name, name ≠ ROTATION_DB_KEY →
    (inScan ACCESS_DB_PREFIX name = true → name = accessName (deriveApplicationStoreKey account phrase)) →
    opened.2.find? name = rows.find? name
  /-- They go where this is the phrase that was prepared last. -/
  retired : opened.1 = .ok () → lastPrepared = some phrase → ∀ name, HasAccess opened.2 name →
    name = accessName (deriveApplicationStoreKey account phrase)
  kept : lastPrepared ≠ some phrase → opened.2 = rows
  opens : env.retireFate = .done → opened.1 = .ok ()

theorem Wrapped.scanRows (h : Wrapped account rows known lastPrepared dataKey) :
    scanRows rows ACCESS_DB_PREFIX = some (rows.keysIn (inScan ACCESS_DB_PREFIX)) := by
  rw [Cybou.scanRows, if_pos]
  refine List.all_eq_true.mpr fun name hname => ?_
  obtain ⟨phrase, -, rfl, hunwrap⟩ := h.access name (OrdMap.mem_keysIn.mp hname)
  rw [unwrapKey, Option.bind_eq_bind, Option.bind_eq_some_iff] at hunwrap
  obtain ⟨encoded, hread, -⟩ := hunwrap
  rw [hread]
  rfl

/-- The batch that retires the access records other than `own`. -/
def retireEdits (rows : DatabaseRows) (own : Bytes) : List (Edit Bytes Bytes) :=
  ((rows.keysIn (inScan ACCESS_DB_PREFIX)).filter fun name => decide (name ≠ own)).map .erase ++ [.erase ROTATION_DB_KEY]

variable {own name : Bytes}

omit [RecordCipher] in
theorem find?_retireEdits_of_keep (hrotation : name ≠ ROTATION_DB_KEY)
    (hname : inScan ACCESS_DB_PREFIX name = true → name = own) (fate : Fate) :
    (rows.write (retireEdits rows own) fate).find? name = rows.find? name := by
  refine OrdMap.find?_write_of_forall_ne (fun e he => ?_) fate
  rcases List.mem_append.mp he with he | he
  · obtain ⟨other, hother, rfl⟩ := List.mem_map.mp he
    obtain ⟨hscan, hne⟩ := List.mem_filter.mp hother
    rintro rfl
    exact of_decide_eq_true hne (hname (OrdMap.mem_keysIn.mp hscan).1)
  · rw [List.mem_singleton.mp he]
    exact Ne.symm hrotation

omit [RecordCipher] in
theorem retireEdits_erase : ∀ e ∈ retireEdits rows own, e.value = none := by
  intro e he
  rcases List.mem_append.mp he with he | he
  · obtain ⟨other, -, rfl⟩ := List.mem_map.mp he
    rfl
  · rw [List.mem_singleton.mp he]
    rfl

omit [RecordCipher] in
theorem mem_retireEdits (hname : name = ROTATION_DB_KEY ∨ HasAccess rows name ∧ name ≠ own) :
    name ∈ (retireEdits rows own).map Edit.key := by
  rw [retireEdits, List.map_append, List.mem_append]
  rcases hname with rfl | ⟨hhas, hne⟩
  · exact .inr (List.mem_singleton_self _)
  · refine .inl (List.mem_map.mpr ⟨.erase name, List.mem_map.mpr ⟨name, ?_, rfl⟩, rfl⟩)
    exact List.mem_filter.mpr ⟨OrdMap.mem_keysIn.mpr hhas, decide_eq_true hne⟩

omit [RecordCipher] in
theorem hasAccess_retired (h : HasAccess (rows.apply (retireEdits rows own)) name) : name = own := by
  obtain ⟨hscan, hfind⟩ := h
  by_contra hne
  by_cases hhad : rows.find? name = none
  · exact hfind (OrdMap.find?_apply_of_none retireEdits_erase hhad)
  · exact hfind (OrdMap.find?_apply_of_mem retireEdits_erase (mem_retireEdits (.inr ⟨⟨hscan, hhad⟩, hne⟩)))

variable {phrase : RecoveryEntropy}

/-- Retiring access leaves the row of the phrase prepared last. -/
theorem Wrapped.retire (h : Wrapped account rows known lastPrepared dataKey) (hapart : PhrasesApart account)
    (hlast : lastPrepared = some phrase)
    (hrow : rows.find? (accessName (deriveApplicationStoreKey account phrase)) ≠ none) :
    Wrapped account (rows.apply (retireEdits rows (accessName (deriveApplicationStoreKey account phrase)))) known
      lastPrepared dataKey := by
  have hkeep : ∀ name, name ≠ ROTATION_DB_KEY →
      (inScan ACCESS_DB_PREFIX name = true → name = accessName (deriveApplicationStoreKey account phrase)) →
      (rows.apply (retireEdits rows (accessName (deriveApplicationStoreKey account phrase)))).find? name =
        rows.find? name :=
    fun name hrotation hname => find?_retireEdits_of_keep hrotation hname .done
  have hown := hkeep (accessName (deriveApplicationStoreKey account phrase))
    (fun heq => absurd (heq ▸ length_accessName _) (by decide)) fun _ => rfl
  have hcheck := hkeep CHECK_DB_KEY (by decide) fun hscan => absurd (length_of_inScan hscan) (by decide)
  obtain ⟨phrase', hknown, hname, hunwrap⟩ := h.access _ ⟨inScan_accessName _, hrow⟩
  obtain rfl := hapart.eq hname
  refine ⟨?_, fun name hname => ?_, .inr ⟨?_, phrase, ?_, fun name hname => hasAccess_retired hname⟩, ?_⟩
  · rw [hkeep _ (by decide) fun hscan => absurd (length_of_inScan hscan) (by decide)]
    exact h.present
  · obtain rfl := hasAccess_retired hname
    exact ⟨phrase, hknown, rfl, (unwrapKey_congr hown).trans hunwrap⟩
  · exact OrdMap.find?_apply_of_mem retireEdits_erase (mem_retireEdits (.inl rfl))
  · intro prepared hprepared
    rw [hlast] at hprepared
    exact (Option.some.inj hprepared).symm
  · rcases h.check with ⟨hnone, hrows⟩ | ⟨check, hread, hdecrypt⟩
    · refine .inl ⟨hcheck.trans hnone, fun name hname => ?_⟩
      have hlength := length_of_inScan hname
      rw [hkeep name ?_ ?_, hrows name hname]
      · rintro rfl
        exact absurd hlength (by decide)
      · intro hscan
        rw [length_of_inScan hscan] at hlength
        exact absurd hlength (by decide)
    · refine .inr ⟨check, ?_, hdecrypt⟩
      rwa [readBytes, hcheck]

theorem Wrapped.rotation_eq (h : Wrapped account rows known lastPrepared dataKey) (hapart : PhrasesApart account)
    (hmarker : readBytes rows.find? ROTATION_DB_KEY = some (keyCheck (deriveApplicationStoreKey account phrase)).1) :
    lastPrepared = some phrase := by
  rcases h.rotation with ⟨prepared, hlast, hrow⟩ | ⟨hnone, -⟩
  · have hsmall : (keyCheck (deriveApplicationStoreKey account prepared)).1.length ≤ MAX_COMPACT_SIZE := by
      rw [(keyCheck _).2]
      decide
    rw [readBytes_of_small hrow hsmall, Option.some.injEq] at hmarker
    rw [hlast, hapart (Subtype.ext hmarker)]
  · rw [readBytes, hnone] at hmarker
    cases hmarker

theorem retireAccess_spec (h : Wrapped account rows known lastPrepared dataKey) (hapart : PhrasesApart account)
    (hrow : rows.find? (accessName (deriveApplicationStoreKey account phrase)) ≠ none) (env : OpenEnv) :
    Retired account lastPrepared phrase env rows (retireAccess rows (deriveApplicationStoreKey account phrase) env) ∧
      Wrapped account (retireAccess rows (deriveApplicationStoreKey account phrase) env).2 known lastPrepared dataKey := by
  rw [retireAccess]
  split
  next hmarker =>
    have hlast := h.rotation_eq hapart hmarker
    rw [h.scanRows]
    change Retired account lastPrepared phrase env rows
        (writeOrThrow rows (retireEdits rows (accessName (deriveApplicationStoreKey account phrase))) .writeFailed
          env.retireFate) ∧
      Wrapped account (rows.write (retireEdits rows (accessName (deriveApplicationStoreKey account phrase)))
        env.retireFate) known lastPrepared dataKey
    refine ⟨⟨fun name hrotation hname => find?_retireEdits_of_keep hrotation hname _, fun hok _ name hname => ?_,
      fun hne => absurd hlast hne, fun hfate => if_pos hfate⟩, ?_⟩
    · rw [writeOrThrow] at hok hname
      split at hok
      next hfate =>
        rw [hfate] at hname
        exact hasAccess_retired hname
      · cases hok
    · cases env.retireFate with
      | done => exact h.retire hapart hlast hrow
      | stored => exact h.retire hapart hlast hrow
      | lost => exact h
  next hmarker =>
    refine ⟨⟨fun _ _ _ => rfl, fun _ hlast name hname => ?_, fun _ => rfl, fun _ => rfl⟩, h⟩
    rcases h.rotation with ⟨prepared, hprepared, hrotation⟩ | ⟨-, sole, hprepared, hsole⟩
    · refine absurd ?_ hmarker
      have hsmall : (keyCheck (deriveApplicationStoreKey account prepared)).1.length ≤ MAX_COMPACT_SIZE := by
        rw [(keyCheck _).2]
        decide
      obtain rfl := Option.some.inj (hprepared.symm.trans hlast)
      exact readBytes_of_small hrotation hsmall
    · rw [hprepared phrase hlast]
      exact hsole name hname

structure OpenedWrapped (account : AccountId) (known : List RecoveryEntropy) (lastPrepared : Option RecoveryEntropy)
    (dataKey : FixedBytes 32) (phrase : RecoveryEntropy) (env : OpenEnv) (rows : DatabaseRows)
    (opened : Except StoreOpenError (FixedBytes 32) × DatabaseRows) : Prop where
  wrapped : Wrapped account opened.2 known lastPrepared dataKey
  session : ∀ check, opened.1 = .ok check → check = keyCheck dataKey ∧ CheckedBy account opened.2 dataKey
  /-- Besides the check row only the other access records and the marker can change. -/
  frame : ∀ name, name ≠ CHECK_DB_KEY → name ≠ ROTATION_DB_KEY →
    (inScan ACCESS_DB_PREFIX name = true → name = accessName (deriveApplicationStoreKey account phrase)) →
    opened.2.find? name = rows.find? name
  own : ∀ check, opened.1 = .ok check → rows.find? (accessName (deriveApplicationStoreKey account phrase)) ≠ none
  retired : ∀ check, opened.1 = .ok check → lastPrepared = some phrase → ∀ name, HasAccess opened.2 name →
    name = accessName (deriveApplicationStoreKey account phrase)
  kept : lastPrepared ≠ some phrase → ∀ name, name ≠ CHECK_DB_KEY → opened.2.find? name = rows.find? name
  opens : rows.find? (accessName (deriveApplicationStoreKey account phrase)) ≠ none → env.accessFate = .done →
    env.checkFate = .done → env.checkNonce.isSome = true → env.retireFate = .done → opened.1 = .ok (keyCheck dataKey)

/-- Opening under a wrapped phrase finds the data key. -/
theorem openWithDataKey_wrapped (h : Wrapped account rows known lastPrepared dataKey) (hapart : PhrasesApart account)
    (hrow : rows.find? (accessName (deriveApplicationStoreKey account phrase)) ≠ none) (env : OpenEnv) :
    OpenedWrapped account known lastPrepared dataKey phrase env rows
      (openWithDataKey account rows (deriveApplicationStoreKey account phrase) dataKey env) := by
  rw [openWithDataKey]
  have hcheck := openCheck_spec h.check env
  rcases hopened : openCheck account rows dataKey env with ⟨result, rows'⟩
  rw [hopened] at hcheck
  have hwrapped : Wrapped account rows' known lastPrepared dataKey :=
    h.congr (fun name _ hname => hcheck.frame name hname) hcheck.check
  have hrow' : rows'.find? (accessName (deriveApplicationStoreKey account phrase)) ≠ none := by
    rw [hcheck.frame _ fun heq => absurd (heq ▸ length_accessName _) (by decide)]
    exact hrow
  cases result with
  | error e =>
    refine ⟨hwrapped, nofun, fun name hname _ _ => hcheck.frame name hname, nofun, nofun,
      fun _ name hname => hcheck.frame name hname, fun _ _ hfate hnonce _ => ?_⟩
    cases hcheck.opens hfate hnonce
  | ok =>
    dsimp only
    have hchecked := hcheck.checked rfl
    obtain ⟨hretire, hretired⟩ := retireAccess_spec hwrapped hapart hrow' env
    rcases hopened' : retireAccess rows' (deriveApplicationStoreKey account phrase) env with ⟨result, rows''⟩
    rw [hopened'] at hretire hretired
    have hframe : ∀ name, name ≠ CHECK_DB_KEY → name ≠ ROTATION_DB_KEY →
        (inScan ACCESS_DB_PREFIX name = true → name = accessName (deriveApplicationStoreKey account phrase)) →
        rows''.find? name = rows.find? name := by
      intro name hname hrotation hown
      rw [hretire.frame name hrotation hown]
      exact hcheck.frame name hname
    have hkept : lastPrepared ≠ some phrase → ∀ name, name ≠ CHECK_DB_KEY → rows''.find? name = rows.find? name := by
      intro hne name hname
      rw [show rows'' = rows' from hretire.kept hne]
      exact hcheck.frame name hname
    cases result with
    | error e =>
      refine ⟨hretired, nofun, hframe, nofun, nofun, hkept, fun _ _ _ _ hfate => ?_⟩
      cases hretire.opens hfate
    | ok =>
      have hcheckKept : rows''.find? CHECK_DB_KEY = rows'.find? CHECK_DB_KEY :=
        hretire.frame _ (by decide) fun hscan => absurd (length_of_inScan hscan) (by decide)
      refine ⟨hretired, fun check hok => ?_, hframe, fun _ _ => hrow, fun _ _ => hretire.retired rfl, hkept,
        fun _ _ _ _ _ => rfl⟩
      cases hok
      obtain ⟨check, hread, hdecrypt⟩ := hchecked
      exact ⟨rfl, check, by rwa [readBytes, hcheckKept], hdecrypt⟩

theorem openStore_wrapped (h : Wrapped account rows known lastPrepared dataKey) (hapart : PhrasesApart account)
    (file : StoreFile) (phrase : RecoveryEntropy) (env : OpenEnv) :
    OpenedWrapped account known lastPrepared dataKey phrase env rows (openStore account file rows phrase env) := by
  rw [openStore, openDataKey, if_pos (Option.isSome_iff_ne_none.mpr h.present)]
  cases hunwrap : unwrapKey account rows (deriveApplicationStoreKey account phrase) with
  | none =>
    refine ⟨h, fun _ hopened => ?_, fun _ _ _ _ => rfl, fun _ hopened => ?_, fun _ hopened => ?_, fun _ _ _ => rfl,
      fun hrow => ?_⟩
    · cases hopened
    · cases hopened
    · cases hopened
    rw [h.unwraps hapart hrow] at hunwrap
    cases hunwrap
  | some key =>
    have hrow := find?_of_unwrapKey hunwrap
    obtain rfl : dataKey = key := Option.some.inj ((h.unwraps hapart hrow).symm.trans hunwrap)
    exact openWithDataKey_wrapped h hapart hrow env

structure OpenedFirst (account : AccountId) (file : StoreFile) (first : RecoveryEntropy) (env : OpenEnv)
    (rows : DatabaseRows) (opened : Except StoreOpenError (FixedBytes 32) × DatabaseRows)
    (dataKey : FixedBytes 32) (wrapped : DatabaseRows) : Prop where
  adopted : file = .app → dataKey = deriveApplicationStoreKey account first
  written : WrapWritten account (deriveApplicationStoreKey account first) dataKey false rows wrapped
  opened : OpenedWrapped account [first] none dataKey first env wrapped opened

/-- The first opening adopts the key of the older store. -/
theorem openStore_legacy {first : RecoveryEntropy} (h : LegacyRows account first rows) (hapart : PhrasesApart account)
    (file : StoreFile) (env : OpenEnv) :
    (∃ error, openStore account file rows first env = (.error error, rows)) ∨
      ∃ dataKey wrapped, OpenedFirst account file first env rows (openStore account file rows first env) dataKey wrapped := by
  rw [openStore, openDataKey, h.notPresent, if_neg (by decide)]
  cases hdataKey : newDataKey file (deriveApplicationStoreKey account first) env.dataKey with
  | none => exact .inl ⟨_, rfl⟩
  | some dataKey =>
    have hadopted : file = .app → dataKey = deriveApplicationStoreKey account first := by
      rintro rfl
      exact (Option.some.inj hdataKey).symm
    dsimp only
    rw [adoptDataKey]
    by_cases hopens : opensCheck account rows dataKey = false
    · rw [if_pos hopens]
      exact .inl ⟨_, rfl⟩
    rw [if_neg hopens]
    cases hbatch : wrapKeyEdits account (deriveApplicationStoreKey account first) dataKey false env.accessNonce with
    | none => exact .inl ⟨_, rfl⟩
    | some batch =>
      dsimp only [writeOrThrow]
      have hwritten : WrapWritten account (deriveApplicationStoreKey account first) dataKey false rows
          (rows.apply batch) := wrapWritten_of_apply hbatch
      have hwrapped := h.wrapped (Bool.not_eq_false _ ▸ hopens) hwritten
      cases haccess : env.accessFate with
      | lost => exact .inl ⟨_, rfl⟩
      | stored =>
        refine .inr ⟨dataKey, rows.apply batch, hadopted, hwritten, hwrapped, fun _ hopened => ?_,
          fun _ _ _ _ => rfl, fun _ hopened => ?_, fun _ hopened => ?_, fun _ _ _ => rfl, fun _ hfate => ?_⟩
        · cases hopened
        · cases hopened
        · cases hopened
        rw [haccess] at hfate
        cases hfate
      | done =>
        refine .inr ⟨dataKey, rows.apply batch, hadopted, hwritten, ?_⟩
        exact openWithDataKey_wrapped hwrapped hapart (find?_of_unwrapKey hwritten.unwraps) env

end

end

end Cybou
