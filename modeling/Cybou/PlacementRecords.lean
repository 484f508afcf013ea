import Cybou.ChunkTree
import Cybou.EvidenceRuns

/-! # Placement records (`storage_placement_repository.cpp`)

The placement of a publication is kept in one row, and the row of an index lists the
operation ids of all placements.  Writer and reader check different things: the writer
takes a placement without leaves and a replica with port 0, which the reader refuses, and
it leaves out the payout accounts.  `placements_saved` says what comes back.
-/

namespace Cybou

open Library PrivateApplicationStore

/-! ### Placements -/

def MAX_REPLICAS_PER_CHUNK : Nat := 16

structure StorageEndpoint where
  storageId : FixedBytes 32
  address : Bytes
  port : UInt16
  payoutAccount : Option (FixedBytes 32) := none
deriving DecidableEq, Repr

def hasProvider (replicas : List StorageEndpoint) (provider : StorageEndpoint) : Bool :=
  replicas.any fun r => decide (r.storageId = provider.storageId)

/-- `StorageService::Placement`. -/
structure Placement where
  operationId : Hash256
  leaves : List ChunkId
  replicas : List (List StorageEndpoint)
deriving DecidableEq, Repr

/-! ### Records -/

/-- The text `CYSP`. -/
def PLACEMENT_MAGIC : Bytes := [67, 89, 83, 80]

def PLACEMENT_INDEX_KEY : Bytes := ascii "storage/placements"

/-- `PlacementKey`, and the name of a record that is being rebuilt. -/
def placementKey (rebuilding : Bool) (operationId : Hash256) : Bytes :=
  (if rebuilding = true then ascii "storage/rebuild/" else ascii "storage/placement/") ++ hex operationId.1

def writeEndpoint (endpoint : StorageEndpoint) : Bytes :=
  endpoint.storageId.1 ++ (UInt8.ofNat endpoint.address.length :: endpoint.address) ++ le16 endpoint.port

def writeLeaf (row : ChunkId × List StorageEndpoint) : Bytes :=
  row.1.1 ++ UInt8.ofNat row.2.length :: Reader.concat writeEndpoint row.2

/-- The leaves with the replicas that are written, sixteen at the most. -/
def Placement.rows (placement : Placement) : List (ChunkId × List StorageEndpoint) :=
  placement.leaves.zip (placement.replicas.map fun replicas => replicas.take MAX_REPLICAS_PER_CHUNK)

/-- The record of `Save`; `none` where an address is empty or too long. -/
def encodePlacement (placement : Placement) : Option Bytes :=
  if (placement.rows.any fun row => row.2.any fun r => decide (r.address = [] ∨ r.address.length > 255)) = true then none
  else some (PLACEMENT_MAGIC ++ placement.operationId.1 ++ le32Of placement.leaves.length ++
    Reader.concat writeLeaf placement.rows)

def readEndpoint : Reader StorageEndpoint := do
  let storageId ← Reader.fixed 32
  let length ← Reader.u8
  Reader.require (length ≠ 0)
  let address ← Reader.bytes length.toNat
  let port ← Reader.u16
  Reader.require (port ≠ 0)
  return { storageId, address, port }

def readLeaf : Reader (ChunkId × List StorageEndpoint) := do
  let leaf ← Reader.fixed 32
  let replicas ← Reader.u8
  Reader.require (replicas.toNat ≤ MAX_REPLICAS_PER_CHUNK)
  let endpoints ← Reader.growN readEndpoint (fun prior endpoint => hasProvider prior endpoint = false) replicas.toNat []
  return (leaf, endpoints)

def readPlacement (operationId : Hash256) : Reader Placement := do
  Reader.literal PLACEMENT_MAGIC
  let id ← Reader.fixed 32
  Reader.require (id = operationId)
  let count ← Reader.count
  Reader.require (count ≠ 0 ∧ count ≤ MAX_PUBLICATION_CHUNKS.toNat)
  let rows ← Reader.repeatN readLeaf count
  return { operationId := id, leaves := rows.map Prod.fst, replicas := rows.map Prod.snd }

/-! ### The repository -/

section

variable (db : PrivateApplicationStore)

/-- `PlacementRepository::Load`. -/
def loadPlacement (operationId : Hash256) (rebuilding : Bool) : Option Placement :=
  (db.get (placementKey rebuilding operationId)).bind (readPlacement operationId).whole

def chunkIds : Nat → Bytes → List Hash256
  | 0, _ => []
  | n + 1, b =>
    if h : 32 ≤ b.length then ⟨b.take 32, by rw [List.length_take, Nat.min_eq_left h]⟩ :: chunkIds n (b.drop 32)
    else []

def placementIndex : List Hash256 :=
  match db.get PLACEMENT_INDEX_KEY with
  | none => []
  | some encoded => if encoded.length % 32 ≠ 0 then [] else chunkIds (encoded.length / 32) encoded

/-- What the batch of `Save` stages, `none` where a change is refused. -/
def placementEdits (placement : Placement) (out : Bytes) : Option (List (Edit Bytes ApplicationRow)) :=
  let key := placementKey false placement.operationId
  if db.canPut key out = false then none
  else
    -- the index is read with the record staged
    let index := placementIndex { db with rows := db.rows.apply [.put key (.value out)] }
    if placement.operationId ∈ index then some [.put key (.value out)]
    else
      let encoded := Reader.concat (fun id : Hash256 => id.1) (index ++ [placement.operationId])
      if db.canPut PLACEMENT_INDEX_KEY encoded = false then none
      else some [.put key (.value out), .put PLACEMENT_INDEX_KEY (.value encoded)]

/-- `PlacementRepository::Save`. -/
def savePlacement (placement : Placement) (rebuilding : Bool) (fate : Fate) : Bool × PrivateApplicationStore :=
  match encodePlacement placement with
  | none => (false, db)
  | some out =>
    if rebuilding = true then
      if db.canPut (placementKey true placement.operationId) out = false then (false, db)
      else (decide (fate = .done),
        { db with rows := db.rows.write [.put (placementKey true placement.operationId) (.value out)] fate })
    else
      match placementEdits db placement out with
      | none => (false, db)
      | some edits => (decide (fate = .done), { db with rows := db.rows.write edits fate })

end

/-! ### What is read back -/

def StorageEndpoint.Readable (endpoint : StorageEndpoint) : Prop :=
  endpoint.address ≠ [] ∧ endpoint.address.length ≤ 255 ∧ endpoint.port ≠ 0 ∧ endpoint.payoutAccount = none

/-- Replicas of one leaf, at most sixteen of them at different providers. -/
def Independent (replicas : List StorageEndpoint) : Prop :=
  replicas.length ≤ MAX_REPLICAS_PER_CHUNK ∧ replicas.Pairwise fun a b => a.storageId ≠ b.storageId

theorem readEndpoint_exact : Reader.Exact readEndpoint writeEndpoint StorageEndpoint.Readable := by
  intro b endpoint r
  simp only [readEndpoint, (Reader.fixed_exact 32).bind, Reader.u8_exact.bind, Reader.require_bind,
    (Reader.bytes_exact _).bind, Reader.u16_exact.bind, Reader.pure_eq_some, true_and, id_eq]
  constructor
  · rintro ⟨storageId, _, rfl, length, _, rfl, hlength, address, _, haddress, rfl, port, _, rfl, hport, rfl, rfl⟩
    have hle := length.toNat_lt
    refine ⟨⟨?_, ?_, hport, rfl⟩, ?_⟩
    · rintro rfl
      exact hlength (UInt8.toNat_inj.mp haddress.symm)
    · rw [haddress]
      omega
    · rw [writeEndpoint, haddress, UInt8.ofNat_toNat]
      simp only [List.append_assoc, List.cons_append, List.nil_append]
  · rintro ⟨⟨hne, hle, hport, hpayout⟩, rfl⟩
    have hlength : (UInt8.ofNat endpoint.address.length).toNat = endpoint.address.length :=
      UInt8.toNat_ofNat_of_lt' (Nat.lt_of_le_of_lt hle (by decide))
    refine ⟨endpoint.storageId, _, ?_, UInt8.ofNat endpoint.address.length, _, rfl, fun hzero => ?_, _, _, hlength.symm, rfl, _, _, rfl,
      hport, ?_, rfl⟩
    · simp only [writeEndpoint, List.append_assoc, List.cons_append, List.nil_append]
    · rw [hzero] at hlength
      exact hne (List.length_eq_zero_iff.mp hlength.symm)
    · cases endpoint
      cases hpayout
      rfl

theorem pairwise_iff_split {α : Type} {R : α → α → Prop} {l : List α} :
    l.Pairwise R ↔ ∀ before a after, l = before ++ a :: after → ∀ b ∈ before, R b a := by
  constructor
  · rintro h before a after rfl b hb
    exact (List.pairwise_append.mp h).2.2 b hb a List.mem_cons_self
  · intro h
    refine List.pairwise_iff_getElem.mpr fun i j hi hj hij => ?_
    refine h (l.take j) l[j] (l.drop (j + 1)) ?_ l[i] ?_
    · rw [List.getElem_cons_drop, List.take_append_drop]
    · exact List.mem_take_iff_getElem.mpr ⟨i, by omega, rfl⟩

theorem hasProvider_eq_false {replicas : List StorageEndpoint} {provider : StorageEndpoint} :
    hasProvider replicas provider = false ↔ ∀ r ∈ replicas, r.storageId ≠ provider.storageId := by
  simp [hasProvider]

theorem readLeaf_exact : Reader.Exact readLeaf writeLeaf fun row =>
    Independent row.2 ∧ ∀ r ∈ row.2, r.Readable := by
  intro b row r
  simp only [readLeaf, (Reader.fixed_exact 32).bind, Reader.u8_exact.bind, Reader.require_bind, true_and]
  simp only [Reader.bind_eq_some, Reader.growN_eq_some readEndpoint_exact, Reader.pure_eq_some, List.nil_append,
    hasProvider_eq_false]
  constructor
  · rintro ⟨leaf, _, rfl, count, _, rfl, hcount, _, _, ⟨new, hlength, hreadable, hsplit, rfl, rfl⟩, rfl, rfl⟩
    refine ⟨⟨⟨?_, pairwise_iff_split.mpr hsplit⟩, hreadable⟩, ?_⟩
    · rw [hlength]
      exact hcount
    · rw [writeLeaf, hlength, UInt8.ofNat_toNat]
      simp only [List.append_assoc, List.cons_append, List.nil_append]
  · rintro ⟨⟨⟨hmost, hproviders⟩, hreadable⟩, rfl⟩
    have hlength : (UInt8.ofNat row.2.length).toNat = row.2.length :=
      UInt8.toNat_ofNat_of_lt' (Nat.lt_of_le_of_lt hmost (by decide))
    refine ⟨row.1, _, ?_, UInt8.ofNat row.2.length, _, rfl, ?_, _, _,
      ⟨row.2, hlength.symm, hreadable, pairwise_iff_split.mp hproviders, rfl, rfl⟩, rfl, rfl⟩
    · simp only [writeLeaf, List.append_assoc, List.cons_append, List.nil_append]
    · rw [hlength]
      exact hmost

/-! ### What is written -/

/-- The placement that a record holds: the payout accounts are left out. -/
def StorageEndpoint.stored (endpoint : StorageEndpoint) : StorageEndpoint := { endpoint with payoutAccount := none }

def Placement.stored (placement : Placement) : Placement :=
  { placement with replicas := placement.replicas.map fun replicas => replicas.map StorageEndpoint.stored }

structure Placement.Sound (placement : Placement) : Prop where
  lists : placement.replicas.length = placement.leaves.length
  independent : ∀ replicas ∈ placement.replicas, Independent replicas

structure Placement.Loadable (placement : Placement) : Prop where
  leaves : placement.leaves ≠ []
  ports : ∀ replicas ∈ placement.replicas, ∀ r ∈ replicas, r.port ≠ 0

variable {placement : Placement}

theorem concat_stored (replicas : List StorageEndpoint) :
    Reader.concat writeEndpoint (replicas.map StorageEndpoint.stored) = Reader.concat writeEndpoint replicas := by
  unfold Reader.concat
  rw [List.map_map]
  rfl

theorem Placement.Sound.rows_eq (h : placement.Sound) : placement.rows = placement.leaves.zip placement.replicas := by
  have htake : (placement.replicas.map fun replicas => replicas.take MAX_REPLICAS_PER_CHUNK) = placement.replicas := by
    refine (List.map_congr_left fun replicas hreplicas => ?_).trans (List.map_id _)
    exact List.take_of_length_le (h.independent replicas hreplicas).1
  rw [Placement.rows, htake]

def Placement.storedRows (placement : Placement) : List (ChunkId × List StorageEndpoint) :=
  placement.leaves.zip placement.stored.replicas

theorem Placement.Sound.concat_rows (h : placement.Sound) :
    Reader.concat writeLeaf placement.storedRows = Reader.concat writeLeaf placement.rows := by
  unfold Placement.storedRows Placement.stored Reader.concat
  rw [h.rows_eq, List.zip_map_right, List.map_map]
  refine congrArg List.flatten (List.map_congr_left fun row _ => ?_)
  change writeLeaf (row.1, row.2.map StorageEndpoint.stored) = writeLeaf row
  rw [writeLeaf, writeLeaf, concat_stored, List.length_map]

variable {out : Bytes}

theorem encodePlacement_eq_some (h : placement.Sound) : encodePlacement placement = some out ↔
    (∀ replicas ∈ placement.replicas, ∀ r ∈ replicas, r.address ≠ [] ∧ r.address.length ≤ 255) ∧
      out = PLACEMENT_MAGIC ++ placement.operationId.1 ++ le32Of placement.leaves.length ++
        Reader.concat writeLeaf placement.rows := by
  unfold encodePlacement
  rw [Option.ite_none_left_eq_some, Option.some.injEq, eq_comm (a := out)]
  refine and_congr_left fun _ => ?_
  rw [h.rows_eq]
  simp only [List.any_eq_true, decide_eq_true_eq, not_exists, not_and, not_or, not_lt]
  constructor
  · intro hrows replicas hreplicas r hr
    rw [← List.map_snd_zip (Nat.le_of_eq h.lists)] at hreplicas
    obtain ⟨row, hrow, rfl⟩ := List.mem_map.mp hreplicas
    exact hrows row hrow r hr
  · intro hall row hrow r hr
    exact hall row.2 (List.of_mem_zip hrow).2 r hr

theorem length_leaves_le (h : placement.Sound) (hout : encodePlacement placement = some out)
    (hfits : out.length ≤ MAX_VALUE_BYTES) : placement.leaves.length ≤ MAX_PUBLICATION_CHUNKS.toNat := by
  obtain ⟨-, rfl⟩ := (encodePlacement_eq_some h).mp hout
  have hrows : placement.rows.length = placement.leaves.length := by
    rw [h.rows_eq, List.length_zip, h.lists, Nat.min_self]
  have hbytes : placement.rows.length * 33 ≤ (Reader.concat writeLeaf placement.rows).length := by
    refine Reader.mul_length_le_concat fun row _ => ?_
    rw [writeLeaf, List.length_append, row.1.2, List.length_cons]
    omega
  have hmax : MAX_PUBLICATION_CHUNKS.toNat = 1048576 := rfl
  rw [List.length_append, hrows.symm] at hfits
  unfold MAX_VALUE_BYTES at hfits
  omega

/-- **The record of a placement is read back** without the payout accounts, where the placement
    has leaves and no port is 0. -/
theorem readPlacement_encodePlacement (h : placement.Sound) (hload : placement.Loadable)
    (hout : encodePlacement placement = some out) (hfits : out.length ≤ MAX_VALUE_BYTES) :
    (readPlacement placement.operationId).whole out = some placement.stored := by
  have hcount := length_leaves_le h hout hfits
  obtain ⟨haddresses, rfl⟩ := (encodePlacement_eq_some h).mp hout
  have hmax : MAX_PUBLICATION_CHUNKS.toNat = 1048576 := rfl
  have hlists : placement.stored.replicas.length = placement.leaves.length := by
    rw [Placement.stored, List.length_map, h.lists]
  have hlength : placement.storedRows.length = placement.leaves.length := by
    rw [Placement.storedRows, List.length_zip, hlists, Nat.min_self]
  have hrows : ∀ row ∈ placement.storedRows, Independent row.2 ∧ ∀ r ∈ row.2, r.Readable := by
    intro row hrow
    obtain ⟨replicas, hreplicas, hrow⟩ := List.mem_map.mp (List.of_mem_zip hrow).2
    rw [← hrow]
    obtain ⟨hmost, hproviders⟩ := h.independent replicas hreplicas
    refine ⟨⟨?_, List.pairwise_map.mpr hproviders⟩, fun r hr => ?_⟩
    · rw [List.length_map]
      exact hmost
    · obtain ⟨endpoint, hendpoint, rfl⟩ := List.mem_map.mp hr
      obtain ⟨hne, hle⟩ := haddresses replicas hreplicas endpoint hendpoint
      exact ⟨hne, hle, hload.ports replicas hreplicas endpoint hendpoint, rfl⟩
  have hread : Reader.repeatN readLeaf placement.leaves.length (Reader.concat writeLeaf placement.storedRows) =
      some (placement.storedRows, []) :=
    (Reader.repeatN_exact readLeaf_exact _ _ _ _).mpr ⟨⟨hlength, hrows⟩, (List.append_nil _).symm⟩
  rw [Reader.whole_eq_some, readPlacement, List.append_assoc, List.append_assoc, Reader.literal_bind_append,
    (Reader.fixed_exact 32).bind_append trivial, Reader.require_bind_apply, if_pos rfl,
    Reader.count_exact.bind_append (by omega), Reader.require_bind_apply,
    if_pos ⟨fun hzero => hload.leaves (List.length_eq_zero_iff.mp hzero), hcount⟩, ← h.concat_rows, Reader.bind_eq_some]
  refine ⟨_, _, hread, ?_⟩
  rw [Reader.pure_eq_some, Placement.storedRows, List.map_fst_zip (Nat.le_of_eq hlists.symm),
    List.map_snd_zip (Nat.le_of_eq hlists)]
  exact ⟨rfl, rfl⟩

/-! ### Names of rows -/

theorem placementKey_injective : Function.Injective (placementKey false) := by
  intro first second h
  exact Subtype.ext (hex_injective (List.append_cancel_left h))

theorem placementKey_ne_index (rebuilding : Bool) (operationId : Hash256) :
    placementKey rebuilding operationId ≠ PLACEMENT_INDEX_KEY := by
  intro h
  have hlength := congrArg List.length h
  have hindex : PLACEMENT_INDEX_KEY.length = 18 := by decide
  rw [placementKey, List.length_append, length_hex, operationId.2, hindex] at hlength
  omega

/-! ### The index -/

theorem chunkIds_concat (ids : List Hash256) :
    chunkIds ids.length (Reader.concat (fun id : Hash256 => id.1) ids) = ids := by
  induction ids with
  | nil => rfl
  | cons id ids ih =>
    have htake : (id.1 ++ Reader.concat (fun id : Hash256 => id.1) ids).take 32 = id.1 := List.take_left' id.2
    have hdrop : (id.1 ++ Reader.concat (fun id : Hash256 => id.1) ids).drop 32 =
        Reader.concat (fun id : Hash256 => id.1) ids := List.drop_left' id.2
    rw [Reader.concat_cons, List.length_cons, chunkIds, dif_pos (by rw [List.length_append, id.2]; omega)]
    exact List.cons_eq_cons.mpr ⟨Subtype.ext htake, by rw [hdrop, ih]⟩

/-- **The invariant of the index**: its row lists ids, none of them twice. -/
def IndexSound (db : PrivateApplicationStore) : Prop :=
  db.rows PLACEMENT_INDEX_KEY = none ∨
    ∃ ids : List Hash256, ids.Nodup ∧
      db.rows PLACEMENT_INDEX_KEY = some (.value (Reader.concat (fun id : Hash256 => id.1) ids))

variable {db : PrivateApplicationStore}

theorem usable_index : usable PLACEMENT_INDEX_KEY = true := by decide

variable {ids index : List Hash256}

theorem placementIndex_of_row (hunlocked : db.unlocked = true)
    (hrow : db.rows PLACEMENT_INDEX_KEY = some (.value (Reader.concat (fun id : Hash256 => id.1) ids))) :
    placementIndex db = ids := by
  have hlength : (Reader.concat (fun id : Hash256 => id.1) ids).length = ids.length * 32 :=
    Reader.length_concat (fun id => id.2) ids
  unfold placementIndex
  rw [get_of_usable hunlocked usable_index hrow]
  dsimp only
  rw [hlength, if_neg (by omega), Nat.mul_div_cancel _ (by decide), chunkIds_concat]

theorem IndexSound.nodup (h : IndexSound db) : (placementIndex db).Nodup := by
  rcases h with hnone | ⟨ids, hnodup, hrow⟩
  · unfold placementIndex
    rw [get_of_absent hnone]
    exact List.nodup_nil
  · by_cases hunlocked : db.unlocked = true
    · rw [placementIndex_of_row hunlocked hrow]
      exact hnodup
    · unfold placementIndex PrivateApplicationStore.get
      rw [eq_false_of_ne_true hunlocked, Bool.false_and, if_neg Bool.false_ne_true]
      exact List.nodup_nil

theorem IndexSound.of_index (hnodup : ids.Nodup)
    (hrow : db.rows PLACEMENT_INDEX_KEY = some (.value (Reader.concat (fun id : Hash256 => id.1) ids))) :
    IndexSound db := .inr ⟨ids, hnodup, hrow⟩

variable {db' : PrivateApplicationStore}

theorem get_congr {name : Bytes} (hunlocked : db'.unlocked = db.unlocked)
    (hrow : db'.rows name = db.rows name) : db'.get name = db.get name := by
  unfold PrivateApplicationStore.get
  rw [hunlocked, hrow]

theorem placementIndex_congr (hunlocked : db'.unlocked = db.unlocked)
    (hrow : db'.rows PLACEMENT_INDEX_KEY = db.rows PLACEMENT_INDEX_KEY) : placementIndex db' = placementIndex db := by
  unfold placementIndex
  rw [get_congr hunlocked hrow]

def indexWith (index : List Hash256) (operationId : Hash256) : List Hash256 :=
  if operationId ∈ index then index else index ++ [operationId]

theorem nodup_indexWith (h : index.Nodup) (operationId : Hash256) :
    (indexWith index operationId).Nodup := by
  unfold indexWith
  split
  · exact h
  next hnew =>
    refine List.nodup_append.mpr ⟨h, List.nodup_singleton _, fun a ha b hb => ?_⟩
    rw [List.mem_singleton.mp hb]
    exact fun heq => hnew (heq ▸ ha)

theorem count_indexWith (h : index.Nodup) (operationId : Hash256) :
    (indexWith index operationId).count operationId = 1 ∧
      ∀ other, other ≠ operationId → (indexWith index operationId).count other = index.count other := by
  constructor
  · refine List.count_eq_one_of_mem (nodup_indexWith h operationId) ?_
    unfold indexWith
    split
    next hold => exact hold
    · exact List.mem_append_right _ List.mem_cons_self
  · intro other hother
    unfold indexWith
    split
    · rfl
    · rw [List.count_append, List.count_singleton, if_neg fun h => hother (beq_iff_eq.mp h).symm, Nat.add_zero]

variable {edits : List (Edit Bytes ApplicationRow)}

/-- **What `Save` stages**: the record, and the index where it grows. -/
theorem placementEdits_eq_some (h : placementEdits db placement out = some edits) :
    db.canPut (placementKey false placement.operationId) out = true ∧
    db.rows.apply edits (placementKey false placement.operationId) = some (.value out) ∧
    (∀ name, name ≠ placementKey false placement.operationId → name ≠ PLACEMENT_INDEX_KEY →
      db.rows.apply edits name = db.rows name) ∧
    (placement.operationId ∈ placementIndex db ∧ db.rows.apply edits PLACEMENT_INDEX_KEY = db.rows PLACEMENT_INDEX_KEY ∨
      db.rows.apply edits PLACEMENT_INDEX_KEY = some (.value (Reader.concat (fun id : Hash256 => id.1)
        (indexWith (placementIndex db) placement.operationId)))) := by
  have hne := placementKey_ne_index false placement.operationId
  -- the record is not the row of the index, which is read with the record staged
  have hstaged : placementIndex
      { db with rows := db.rows.apply [.put (placementKey false placement.operationId) (.value out)] } =
      placementIndex db :=
    placementIndex_congr rfl (Store.apply_of_forall_ne fun e he => List.mem_singleton.mp he ▸ hne)
  unfold placementEdits at h
  dsimp only at h
  rw [hstaged] at h
  split at h
  · cases h
  next hput =>
  refine ⟨eq_true_of_ne_false hput, ?_⟩
  split at h
  next hold =>
    obtain rfl := Option.some.inj h
    refine ⟨Function.update_self .., fun name hname _ => Function.update_of_ne hname _ _, .inl ⟨hold, ?_⟩⟩
    exact Store.apply_of_forall_ne fun e he => List.mem_singleton.mp he ▸ hne
  next hnew =>
    split at h
    · cases h
    obtain rfl := Option.some.inj h
    refine ⟨?_, fun name hname hindex => ?_, .inr ?_⟩
    · rw [Store.apply_cons, Store.apply_cons, Store.apply_nil]
      exact (Function.update_of_ne hne _ _).trans (Function.update_self ..)
    · rw [Store.apply_cons, Store.apply_cons, Store.apply_nil]
      exact (Function.update_of_ne hindex _ _).trans (Function.update_of_ne hname _ _)
    · rw [indexWith, if_neg hnew, Store.apply_cons, Store.apply_cons, Store.apply_nil]
      exact Function.update_self ..

/-! ### Runs -/

/-- A step of the application: a `Save`, or anything that leaves the index alone. -/
inductive PlacementStep (db : PrivateApplicationStore) : PrivateApplicationStore → Prop where
  | save (placement : Placement) (rebuilding : Bool) (fate : Fate) :
    PlacementStep db (savePlacement db placement rebuilding fate).2
  | other {db' : PrivateApplicationStore} (h : db'.rows PLACEMENT_INDEX_KEY = db.rows PLACEMENT_INDEX_KEY) :
    PlacementStep db db'

theorem IndexSound.congr (h : IndexSound db)
    (hrow : db'.rows PLACEMENT_INDEX_KEY = db.rows PLACEMENT_INDEX_KEY) : IndexSound db' := by
  unfold IndexSound
  rw [hrow]
  exact h

theorem IndexSound.write (h : IndexSound db)
    (hedits : placementEdits db placement out = some edits) (fate : Fate) :
    IndexSound { db with rows := db.rows.write edits fate } := by
  have happly : IndexSound { db with rows := db.rows.apply edits } := by
    obtain ⟨-, -, -, ⟨-, hsame⟩ | hindex⟩ := placementEdits_eq_some hedits
    · exact h.congr hsame
    · exact .of_index (nodup_indexWith h.nodup _) hindex
  cases fate with
  | done => exact happly
  | lost => exact h
  | stored => exact happly

theorem IndexSound.save (h : IndexSound db) (placement : Placement) (rebuilding : Bool) (fate : Fate) :
    IndexSound (savePlacement db placement rebuilding fate).2 := by
  unfold savePlacement
  cases hout : encodePlacement placement with
  | none => exact h
  | some out =>
    dsimp only
    split
    · split
      · exact h
      · refine h.congr ?_
        cases fate with
        | lost => rfl
        | done | stored =>
          have hne := placementKey_ne_index true placement.operationId
          exact Store.apply_of_forall_ne fun e he => List.mem_singleton.mp he ▸ hne
    · cases hedits : placementEdits db placement out with
      | none => exact h
      | some edits => exact h.write hedits fate

theorem indexSound_of_run {start : PrivateApplicationStore} (hstart : start.rows PLACEMENT_INDEX_KEY = none)
    (hrun : Relation.ReflTransGen PlacementStep start db) : IndexSound db := by
  induction hrun with
  | refl => exact .inl hstart
  | tail _ hstep ih =>
    cases hstep with
    | save placement rebuilding fate => exact ih.save placement rebuilding fate
    | other hrow => exact ih.congr hrow

/-- **Placement records.**  In every state that the application reaches, a placement that `Save` has
    taken is loaded again without its payout accounts, is in the index once, and no other
    placement has changed. -/
theorem placements_saved {start : PrivateApplicationStore} (hstart : start.rows PLACEMENT_INDEX_KEY = none)
    (hrun : Relation.ReflTransGen PlacementStep start db) (hsound : placement.Sound) (hload : placement.Loadable)
    {fate : Fate} {db' : PrivateApplicationStore} (hsave : savePlacement db placement false fate = (true, db')) :
    loadPlacement db' placement.operationId false = some placement.stored ∧
    (placementIndex db').count placement.operationId = 1 ∧
    ∀ other, other ≠ placement.operationId →
      db'.rows (placementKey false other) = db.rows (placementKey false other) ∧
      loadPlacement db' other false = loadPlacement db other false ∧
      (placementIndex db').count other = (placementIndex db).count other := by
  have hnodup := (indexSound_of_run hstart hrun).nodup
  unfold savePlacement at hsave
  cases hout : encodePlacement placement with
  | none =>
    rw [hout] at hsave
    cases hsave
  | some out =>
    rw [hout] at hsave
    dsimp only at hsave
    rw [if_neg Bool.false_ne_true] at hsave
    cases hedits : placementEdits db placement out with
    | none =>
      rw [hedits] at hsave
      cases hsave
    | some edits =>
      rw [hedits] at hsave
      obtain ⟨hdone, rfl⟩ := Prod.mk.inj hsave
      obtain rfl := of_decide_eq_true hdone
      obtain ⟨hput, hrecord, hothers, hindex⟩ := placementEdits_eq_some hedits
      unfold canPut at hput
      rw [Bool.and_eq_true, Bool.and_eq_true, decide_eq_true_eq] at hput
      obtain ⟨⟨husable, hfits⟩, hunlocked⟩ := hput
      have hindexed : placementIndex { db with rows := db.rows.write edits .done } =
          indexWith (placementIndex db) placement.operationId := by
        rcases hindex with ⟨hold, hsame⟩ | hrow
        · rw [indexWith, if_pos hold]
          exact placementIndex_congr rfl hsame
        · exact placementIndex_of_row hunlocked hrow
      obtain ⟨honce, hcounts⟩ := count_indexWith hnodup placement.operationId
      refine ⟨?_, ?_, fun other hother => ?_⟩
      · have hget : PrivateApplicationStore.get { db with rows := db.rows.write edits .done }
            (placementKey false placement.operationId) = some out := by
          refine get_of_usable ?_ husable hrecord
          exact hunlocked
        unfold loadPlacement
        rw [hget, Option.bind_some, readPlacement_encodePlacement hsound hload hout hfits]
      · rw [hindexed]
        exact honce
      · have hrow := hothers (placementKey false other) (fun heq => hother (placementKey_injective heq))
          (placementKey_ne_index false other)
        refine ⟨hrow, ?_, ?_⟩
        · have hget : PrivateApplicationStore.get { db with rows := db.rows.write edits .done }
              (placementKey false other) = db.get (placementKey false other) := get_congr rfl hrow
          unfold loadPlacement
          rw [hget]
        · rw [hindexed]
          exact hcounts other hother

/-! ### Placements that do not come back as they were -/

def emptyApplicationStore : PrivateApplicationStore where
  unlocked := true
  rows := fun _ => none

def samplePlacementId : Hash256 := FixedBytes.leading 31 7

def samplePlacement (port : UInt16) (payoutAccount : Option (FixedBytes 32)) : Placement where
  operationId := samplePlacementId
  leaves := [FixedBytes.leading 31 1]
  replicas := [[{ storageId := FixedBytes.leading 31 2, address := [49], port, payoutAccount }]]

def leaflessPlacement : Placement where
  operationId := samplePlacementId
  leaves := []
  replicas := []

theorem samplePlacement_sound (port : UInt16) (payoutAccount : Option (FixedBytes 32)) :
    (samplePlacement port payoutAccount).Sound where
  lists := rfl
  independent replicas hreplicas := by
    rw [List.mem_singleton.mp hreplicas]
    exact ⟨Nat.le_of_ble_eq_true rfl, List.pairwise_singleton _ _⟩

/-- Two leaves, the first of them at two providers. -/
def secondPlacement : Placement where
  operationId := FixedBytes.leading 31 8
  leaves := [FixedBytes.leading 31 1, FixedBytes.leading 31 3]
  replicas :=
    [[{ storageId := FixedBytes.leading 31 2, address := [49], port := 5 },
        { storageId := FixedBytes.leading 31 4, address := [50], port := 6,
          payoutAccount := some (FixedBytes.leading 31 9) }],
      [{ storageId := FixedBytes.leading 31 4, address := [50], port := 6 }]]

theorem secondPlacement_sound : secondPlacement.Sound where
  lists := rfl
  independent replicas hreplicas := by
    rcases List.mem_cons.mp hreplicas with rfl | hreplicas
    · exact ⟨Nat.le_of_ble_eq_true rfl, by decide⟩
    · rw [List.mem_singleton.mp hreplicas]
      exact ⟨Nat.le_of_ble_eq_true rfl, List.pairwise_singleton _ _⟩

theorem secondPlacement_loadable : secondPlacement.Loadable where
  leaves := List.cons_ne_nil _ _
  ports := by decide

theorem samplePlacement_loadable : (samplePlacement 5 none).Loadable where
  leaves := List.cons_ne_nil _ _
  ports := by decide

def firstSaved : Bool × PrivateApplicationStore :=
  savePlacement emptyApplicationStore (samplePlacement 5 none) false .done

def secondSaved : Bool × PrivateApplicationStore := savePlacement firstSaved.2 secondPlacement false .done

set_option maxRecDepth 10000 in
theorem secondSaved_evaluated : firstSaved = (true, firstSaved.2) ∧ secondSaved = (true, secondSaved.2) := by
  have hsaved : firstSaved.1 = true ∧ secondSaved.1 = true := by decide
  exact ⟨Prod.mk.eta.symm.trans (congrArg (·, firstSaved.2) hsaved.1),
    Prod.mk.eta.symm.trans (congrArg (·, secondSaved.2) hsaved.2)⟩

/-- A second placement is saved beside the first. -/
theorem placements_saved_second :
    loadPlacement secondSaved.2 secondPlacement.operationId false = some secondPlacement.stored ∧
      loadPlacement secondSaved.2 samplePlacementId false = some (samplePlacement 5 none) ∧
      (placementIndex secondSaved.2).count secondPlacement.operationId = 1 ∧
      (placementIndex secondSaved.2).count samplePlacementId = 1 := by
  obtain ⟨hfirst, hsecond⟩ := secondSaved_evaluated
  have hstart : emptyApplicationStore.rows PLACEMENT_INDEX_KEY = none := rfl
  have hrun : Relation.ReflTransGen PlacementStep emptyApplicationStore firstSaved.2 := .single (.save _ _ _)
  obtain ⟨hloaded, hcounted, -⟩ := placements_saved hstart .refl (samplePlacement_sound 5 none)
    samplePlacement_loadable hfirst
  obtain ⟨hload, honce, hothers⟩ := placements_saved hstart hrun secondPlacement_sound secondPlacement_loadable
    hsecond
  obtain ⟨-, hkept, hcount⟩ := hothers samplePlacementId (by decide)
  exact ⟨hload, hkept.trans hloaded, honce, hcount.trans hcounted⟩

theorem leaflessPlacement_sound : leaflessPlacement.Sound where
  lists := rfl
  independent _ hreplicas := absurd hreplicas List.not_mem_nil

/-- `Save` takes a placement that `Load` does not return. -/
def SavedNotLoaded (placement : Placement) : Prop :=
  placement.Sound ∧ (savePlacement emptyApplicationStore placement false .done).1 = true ∧
    loadPlacement (savePlacement emptyApplicationStore placement false .done).2 placement.operationId false ≠ some placement

/-- A payout account is not kept, and neither a placement without leaves nor one with port 0 is loaded. -/
theorem placement_not_loaded :
    SavedNotLoaded (samplePlacement 5 (some (FixedBytes.leading 31 3))) ∧ SavedNotLoaded leaflessPlacement ∧
      SavedNotLoaded (samplePlacement 0 none) := by
  refine ⟨⟨samplePlacement_sound 5 _, ?_, ?_⟩, ⟨leaflessPlacement_sound, ?_, ?_⟩, ⟨samplePlacement_sound 0 _, ?_, ?_⟩⟩
  · decide
  · decide
  · decide
  · decide
  · decide
  · decide

end Cybou
