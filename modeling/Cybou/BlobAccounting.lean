import Cybou.ChunkStore
import Cybou.TransitionSpecs

/-! # The counter of the blob store on disk (`chunk_blob_store.cpp`)

`m_used_bytes` stands for the total size of the blob files.  It is counted once, when the
store is opened, and adjusted from then on by what `Put` and `Remove` take the files to
be; only a new blob whose write failed makes the store count again.  The adjustment of a
repair takes off the length at which the damaged file is found, not the length that was
counted for it.

What a run adds to the difference of the two is written out as its *drift*: it is made by
changes of length from outside, by repairs that end before their directory is synced, and
by counts that throw.  Every part of what the counter is for holds exactly as far as the
drift allows (`accounted_iff`).
-/

namespace Cybou

open Library

/-! ### Files -/

/-- The contents of a blob file; lengths of files have 64 bits. -/
abbrev BlobFile := { bytes : Bytes // bytes.length < 2 ^ 64 }

def BlobFile.size (file : BlobFile) : UInt64 := UInt64.ofNat file.1.length

@[simp] theorem BlobFile.toNat_size (file : BlobFile) : file.size.toNat = file.1.length :=
  UInt64.toNat_ofNat_of_lt file.2

def totalBytes (files : OrdMap ChunkId BlobFile) : Nat := files.sum fun _ file => file.1.length

theorem totalBytes_set_of_none {files : OrdMap ChunkId BlobFile} {id : ChunkId} {file : BlobFile}
    (h : files.find? id = none) : totalBytes (files.set id file) = totalBytes files + file.1.length :=
  OrdMap.sum_set_of_none h

theorem totalBytes_set_of_some {files : OrdMap ChunkId BlobFile} {id : ChunkId} {file old : BlobFile}
    (h : files.find? id = some old) :
    totalBytes (files.set id file) + old.1.length = totalBytes files + file.1.length :=
  OrdMap.sum_set_of_some h

theorem totalBytes_erase {files : OrdMap ChunkId BlobFile} {id : ChunkId} {old : BlobFile}
    (h : files.find? id = some old) : totalBytes (files.erase id) + old.1.length = totalBytes files :=
  OrdMap.sum_erase_of_some h

theorem length_le_totalBytes {files : OrdMap ChunkId BlobFile} {id : ChunkId} {file : BlobFile}
    (h : files.find? id = some file) : file.1.length ≤ totalBytes files :=
  OrdMap.le_sum_of_find? (f := fun _ (file : BlobFile) => file.1.length) h

/-- The loop of `ScanBlobs`, with the total so far; `none` where it throws. -/
def scanBlobs : List (ChunkId × BlobFile) → UInt64 → Option UInt64
  | [], total => some total
  | (_, file) :: rest, total =>
    if validStoredSize file.1.length = false ∨ file.size > UINT64_MAX - total then none
    else scanBlobs rest (total + file.size)

/-- What the file system does during a `Put`. -/
structure DiskOutcome where
  write : BlobWrite
  /-- The directory of a blob that is already there can be synced. -/
  synced : Bool
  /-- The directory can be listed, where the blobs are counted again. -/
  listed : Bool
deriving DecidableEq, Repr

/-! ### The store -/

/-- A store that is open on a directory: the blob files, `m_used_bytes` and
    `m_capacity_bytes`. -/
structure DiskBlobStore where
  files : OrdMap ChunkId BlobFile
  usedBytes : UInt64
  capacityBytes : UInt64
deriving DecidableEq

namespace DiskBlobStore

def full (s : DiskBlobStore) (storedBytes : BlobFile) : Bool :=
  decide (s.usedBytes > s.capacityBytes) || decide (storedBytes.size > s.capacityBytes - s.usedBytes)

/-- The count after a write that failed; the old count stays where it throws. -/
def rescan (s : DiskBlobStore) (listed : Bool) : DiskBlobStore :=
  if listed = false then s
  else match scanBlobs s.files.entries 0 with
    | none => s
    | some usedBytes => { s with usedBytes }

def withFile (s : DiskBlobStore) (id : ChunkId) (file : BlobFile) : DiskBlobStore :=
  { s with files := s.files.set id file }

def repaired (s : DiskBlobStore) (damaged storedBytes : BlobFile) : UInt64 :=
  s.usedBytes - min s.usedBytes damaged.size + storedBytes.size

def repair (s : DiskBlobStore) (id : ChunkId) (damaged storedBytes : BlobFile) :
    BlobWrite → ChunkBlobPutStatus × DiskBlobStore
  | .synced => (.alreadyStored, { s.withFile id storedBytes with usedBytes := s.repaired damaged storedBytes })
  | .unsynced => (.storageError, s.withFile id storedBytes)
  | .failed => (.storageError, s)

/-- The part of `Put` that writes a new file. -/
def add (s : DiskBlobStore) (id : ChunkId) (storedBytes : BlobFile) (listed : Bool) :
    BlobWrite → ChunkBlobPutStatus × DiskBlobStore
  | .synced => (.stored, { s.withFile id storedBytes with usedBytes := s.usedBytes + storedBytes.size })
  | .unsynced => (.storageError, (s.withFile id storedBytes).rescan listed)
  | .failed => (.storageError, s.rescan listed)

section

variable [Crypto]

def put (s : DiskBlobStore) (id : ChunkId) (storedBytes : BlobFile) (disk : DiskOutcome) :
    ChunkBlobPutStatus × DiskBlobStore :=
  if isZero id.1 = true ∨ validStoredSize storedBytes.1.length = false ∨ computeChunkId storedBytes.1 ≠ id then
    (.invalid, s)
  else
    match s.files.find? id with
    | some file =>
      match ChunkBlobStore.readBlob file.1 id with
      | some existing =>
        if existing ≠ storedBytes.1 then (.conflict, s)
        else if disk.synced = true then (.alreadyStored, s)
        else (.storageError, s)
      | none => s.repair id file storedBytes disk.write
    | none =>
      if s.full storedBytes = true then (.capacityExceeded, s)
      else s.add id storedBytes disk.listed disk.write

end

/-- `Remove` in a store on disk; a file that is there may resist. -/
def remove (s : DiskBlobStore) (id : ChunkId) (unlinked : Bool) : Bool × DiskBlobStore :=
  if isZero id.1 = true then (false, s)
  else match s.files.find? id with
    | none => (true, s)
    | some file =>
      if file.size > s.usedBytes ∨ unlinked = false then (false, s)
      else (true, { s with files := s.files.erase id, usedBytes := s.usedBytes - file.size })

def blobs (s : DiskBlobStore) : ChunkBlobStore := fun id => (s.files.find? id).map Subtype.val

end DiskBlobStore

/-! ### Runs -/

/-- The directory, and the store where one is open on it. -/
inductive BlobDirectory where
  | closed (files : OrdMap ChunkId BlobFile)
  | opened (store : DiskBlobStore)
deriving DecidableEq

def BlobDirectory.files : BlobDirectory → OrdMap ChunkId BlobFile
  | .closed files => files
  | .opened store => store.files

/-- What `wipe_data` leaves behind. -/
inductive Wipe where
  /-- Nothing is to be wiped. -/
  | kept
  | wiped
  /-- The wipe throws after some files are gone. -/
  | interrupted (left : ChunkId → Bool)

inductive BlobEvent where
  | put (id : ChunkId) (storedBytes : BlobFile) (disk : DiskOutcome)
  | remove (id : ChunkId) (unlinked : Bool)
  /-- Something else writes to the file of a blob. -/
  | damage (id : ChunkId) (file : BlobFile)
  /-- The process ends, and a new one constructs the store. -/
  | reopen (capacityBytes : UInt64) (wipe : Wipe) (listed : Bool)

def openBlobs (files : OrdMap ChunkId BlobFile) (capacityBytes : UInt64) (listed : Bool) : BlobDirectory :=
  if listed = false then .closed files
  else match scanBlobs files.entries 0 with
    | none => .closed files
    | some usedBytes => .opened { files, usedBytes, capacityBytes }

def reopenBlobs (files : OrdMap ChunkId BlobFile) (capacityBytes : UInt64) (listed : Bool) : Wipe → BlobDirectory
  | .kept => openBlobs files capacityBytes listed
  | .wiped => openBlobs ∅ capacityBytes listed
  | .interrupted left => .closed (files.filter fun id _ => left id)

def damageFile (files : OrdMap ChunkId BlobFile) (id : ChunkId) (file : BlobFile) : OrdMap ChunkId BlobFile :=
  if files.contains id = true then files.set id file else files

section

variable [Crypto]

/-- A call on a store that is not open does not happen. -/
def BlobDirectory.step : BlobDirectory → BlobEvent → BlobDirectory
  | d, .reopen capacityBytes wipe listed => reopenBlobs d.files capacityBytes listed wipe
  | .closed files, .damage id file => .closed (damageFile files id file)
  | .closed files, .put _ _ _ | .closed files, .remove _ _ => .closed files
  | .opened s, .damage id file => .opened { s with files := damageFile s.files id file }
  | .opened s, .put id storedBytes disk => .opened (s.put id storedBytes disk).2
  | .opened s, .remove id unlinked => .opened (s.remove id unlinked).2

/-! ### What the counter is for -/

/-- The bytes of every blob file hash to its name. -/
def IntactFiles (files : OrdMap ChunkId BlobFile) : Prop :=
  ∀ id file, files.find? id = some file → computeChunkId file.1 = id

def BlobDirectory.Accurate : BlobDirectory → Prop
  | .closed _ => True
  | .opened s => IntactFiles s.files → s.usedBytes.toNat = totalBytes s.files

/-- A `Put` neither wraps the counter nor takes the files above the capacity. -/
structure DiskBlobStore.PutRight (s : DiskBlobStore) (id : ChunkId) (storedBytes : BlobFile) (disk : DiskOutcome) :
    Prop where
  within : s.files.find? id = none → (s.put id storedBytes disk).2.files.contains id = true →
    totalBytes (s.put id storedBytes disk).2.files ≤ s.capacityBytes.toNat
  stored : (s.put id storedBytes disk).1 = .stored →
    (s.put id storedBytes disk).2.usedBytes.toNat = s.usedBytes.toNat + storedBytes.1.length
  repaired : ∀ file, s.files.find? id = some file → ChunkBlobStore.readBlob file.1 id = none →
    (s.put id storedBytes disk).1 = .alreadyStored →
      (s.put id storedBytes disk).2.usedBytes.toNat =
        s.usedBytes.toNat - min s.usedBytes.toNat file.1.length + storedBytes.1.length

/-- A `Remove` does not wrap the counter, and is not refused because of it. -/
structure DiskBlobStore.RemoveRight (s : DiskBlobStore) (id : ChunkId) (unlinked : Bool) : Prop where
  removed : ∀ file, s.files.find? id = some file → (s.remove id unlinked).1 = true →
    (s.remove id unlinked).2.usedBytes.toNat + file.1.length = s.usedBytes.toNat
  accepted : isZero id.1 = false → (s.remove id true).1 = true

def BlobDirectory.StepRight : BlobDirectory → BlobEvent → Prop
  | .opened s, .put id storedBytes disk => s.PutRight id storedBytes disk
  | .opened s, .remove id unlinked => s.RemoveRight id unlinked
  | _, _ => True

/-- The counter does what it is for, in every state and every step of a run. -/
def Accounted : BlobDirectory → List BlobEvent → Prop
  | d, [] => d.Accurate
  | d, event :: rest => d.Accurate ∧ d.StepRight event ∧ Accounted (d.step event) rest

/-! ### The drift of a run -/

namespace DiskBlobStore

/-- The drift after a step of an open store: how far the counter is above the total size of
    the files, told by what happened to the files alone. -/
def driftAfter (s : DiskBlobStore) (drift : Int) : BlobEvent → Int
  | .put id storedBytes disk =>
    if isZero id.1 = true ∨ validStoredSize storedBytes.1.length = false ∨ computeChunkId storedBytes.1 ≠ id then drift
    else
      match s.files.find? id with
      | some file =>
        if (ChunkBlobStore.readBlob file.1 id).isSome = true then drift
        else match disk.write with
          -- a repair takes off the length found, and no more than there is
          | .synced => max drift (file.1.length - totalBytes s.files)
          | .unsynced => drift + file.1.length - storedBytes.1.length
          | .failed => drift
      | none =>
        if totalBytes s.files + drift + storedBytes.1.length > s.capacityBytes.toNat then drift
        else match disk.write with
          | .synced => drift
          | .unsynced =>
            if disk.listed = true ∧ (scanBlobs (s.files.set id storedBytes).entries 0).isSome = true then 0
            else drift - storedBytes.1.length
          | .failed =>
            if disk.listed = true ∧ (scanBlobs s.files.entries 0).isSome = true then 0 else drift
  | .damage id file =>
    match s.files.find? id with
    | none => drift
    | some old => drift + old.1.length - file.1.length
  | .remove _ _ => drift
  | .reopen _ _ _ => 0

/-- What a `Put` of acceptable bytes needs: a new blob that only a negative drift lets in
    fits all the same, and a repair leaves no count of 2⁶⁴ bytes. -/
def PutFits (s : DiskBlobStore) (drift : Int) (id : ChunkId) (storedBytes : BlobFile) (write : BlobWrite) : Prop :=
  match s.files.find? id with
  | some file => ChunkBlobStore.readBlob file.1 id = none → write = .synced →
      totalBytes (s.files.set id storedBytes) + max drift (file.1.length - totalBytes s.files) < 2 ^ 64
  | none => totalBytes s.files + drift + storedBytes.1.length ≤ s.capacityBytes.toNat →
      write ≠ .failed → totalBytes s.files + storedBytes.1.length ≤ s.capacityBytes.toNat

/-- What a step needs; a file to be removed is not larger than the count. -/
def Within (s : DiskBlobStore) (drift : Int) : BlobEvent → Prop
  | .put id storedBytes disk =>
    isZero id.1 = false → validStoredSize storedBytes.1.length = true → computeChunkId storedBytes.1 = id →
      s.PutFits drift id storedBytes disk.write
  | .remove id _ => ∀ file, isZero id.1 = false → s.files.find? id = some file →
      file.1.length ≤ totalBytes s.files + drift
  | _ => True

end DiskBlobStore

def BlobDirectory.driftAfter : BlobDirectory → Int → BlobEvent → Int
  | .closed _, _, _ => 0
  | .opened s, drift, event => s.driftAfter drift event

def BlobDirectory.Balanced : BlobDirectory → Int → Prop
  | .closed _, _ => True
  | .opened s, drift => IntactFiles s.files → drift = 0

def BlobDirectory.Within : BlobDirectory → Int → BlobEvent → Prop
  | .closed _, _, _ => True
  | .opened s, drift, event => s.Within drift event

/-- No state and no step of a run suffers from its drift. -/
def Steady : BlobDirectory → Int → List BlobEvent → Prop
  | d, drift, [] => d.Balanced drift
  | d, drift, event :: rest =>
    d.Balanced drift ∧ d.Within drift event ∧ Steady (d.step event) (d.driftAfter drift event) rest

/-! ### The counter as a number -/

omit [Crypto] in
theorem toNat_of_scanBlobs {rows : List (ChunkId × BlobFile)} {total used : UInt64}
    (h : scanBlobs rows total = some used) :
    used.toNat = total.toNat + sumIn (fun _ (file : BlobFile) => file.1.length) rows := by
  induction rows generalizing total with
  | nil =>
    cases h
    simp [sumIn]
  | cons row rest ih =>
    obtain ⟨id, file⟩ := row
    rw [scanBlobs] at h
    split at h
    · cases h
    · next hok =>
      have hroom := add_lt_of_not_gt (not_or.mp hok).2
      have hsum : (total + file.size).toNat = total.toNat + file.1.length := by
        rw [toNat_add_of_lt (by omega), BlobFile.toNat_size]
      have hrows : sumIn (fun _ (file : BlobFile) => file.1.length) ((id, file) :: rest) =
          file.1.length + sumIn (fun _ (file : BlobFile) => file.1.length) rest := by
        simp [sumIn]
      rw [ih h, hsum, hrows, Nat.add_assoc]

omit [Crypto] in
theorem scanned {files : OrdMap ChunkId BlobFile} {used : UInt64} (h : scanBlobs files.entries 0 = some used) :
    used.toNat = totalBytes files := by
  rw [toNat_of_scanBlobs h]
  exact Nat.zero_add _

namespace DiskBlobStore

variable {s : DiskBlobStore} {drift : Int} {id : ChunkId} {storedBytes file : BlobFile} {disk : DiskOutcome}

/-- The counter is the total size of the files and the drift. -/
def Law (s : DiskBlobStore) (drift : Int) : Prop := (s.usedBytes.toNat : Int) = totalBytes s.files + drift

omit [Crypto] in
theorem full_eq_false (h : s.Law drift) : s.full storedBytes = false ↔
    totalBytes s.files + drift + storedBytes.1.length ≤ s.capacityBytes.toNat := by
  rw [← h, full, Bool.or_eq_false_iff, decide_eq_false_iff_not, decide_eq_false_iff_not, gt_iff_lt,
    gt_iff_lt, UInt64.not_lt, UInt64.not_lt]
  constructor
  · rintro ⟨hle, hroom⟩
    have hused := UInt64.le_iff_toNat_le.mp hle
    have hsize := UInt64.le_iff_toNat_le.mp hroom
    rw [BlobFile.toNat_size, UInt64.toNat_sub_of_le _ _ hle] at hsize
    omega
  · intro hfits
    have hle : s.usedBytes ≤ s.capacityBytes := UInt64.le_iff_toNat_le.mpr (by omega)
    refine ⟨hle, UInt64.le_iff_toNat_le.mpr ?_⟩
    rw [BlobFile.toNat_size, UInt64.toNat_sub_of_le _ _ hle]
    omega

omit [Crypto] in
theorem rescan_law {listed : Bool} (h : s.Law drift) : (s.rescan listed).Law
    (if listed = true ∧ (scanBlobs s.files.entries 0).isSome = true then 0 else drift) := by
  cases listed with
  | false => simpa [rescan] using h
  | true =>
    cases hscan : scanBlobs s.files.entries 0 with
    | none => simpa [rescan, hscan] using h
    | some used =>
      simp only [rescan, hscan, Law, Option.isSome_some, and_self, if_true, Bool.true_eq_false, if_false]
      rw [scanned hscan, Int.add_zero]

omit [Crypto] in
@[simp] theorem files_rescan (s : DiskBlobStore) (listed : Bool) : (s.rescan listed).files = s.files := by
  rw [rescan]
  split
  · rfl
  · cases scanBlobs s.files.entries 0 <;> rfl

omit [Crypto] in
theorem toNat_repaired {damaged : BlobFile}
    (h : s.usedBytes.toNat - min s.usedBytes.toNat damaged.1.length + storedBytes.1.length < 2 ^ 64) :
    (s.repaired damaged storedBytes).toNat =
      s.usedBytes.toNat - min s.usedBytes.toNat damaged.1.length + storedBytes.1.length := by
  have hmin : (min s.usedBytes damaged.size).toNat = min s.usedBytes.toNat damaged.1.length := by
    rw [UInt64.toNat_min, BlobFile.toNat_size]
  have hle : min s.usedBytes damaged.size ≤ s.usedBytes := by
    rw [UInt64.le_iff_toNat_le, hmin]
    exact min_le_left _ _
  have hsub : (s.usedBytes - min s.usedBytes damaged.size).toNat =
      s.usedBytes.toNat - min s.usedBytes.toNat damaged.1.length := by
    rw [UInt64.toNat_sub_of_le _ _ hle, hmin]
  rw [repaired, toNat_add_of_lt (by rw [hsub, BlobFile.toNat_size]; exact h), hsub, BlobFile.toNat_size]

/-! ### The branches of `Put` -/

theorem put_refused (h : isZero id.1 = true ∨ validStoredSize storedBytes.1.length = false ∨
    computeChunkId storedBytes.1 ≠ id) : s.put id storedBytes disk = (.invalid, s) := if_pos h

section

variable (hok : ¬(isZero id.1 = true ∨ validStoredSize storedBytes.1.length = false ∨
  computeChunkId storedBytes.1 ≠ id))

include hok

theorem put_held {existing : Bytes} (hfile : s.files.find? id = some file)
    (hread : ChunkBlobStore.readBlob file.1 id = some existing) :
    (s.put id storedBytes disk).2 = s ∧ (s.put id storedBytes disk).1 ≠ .stored := by
  simp only [put, if_neg hok, hfile, hread]
  split_ifs <;> exact ⟨rfl, by simp⟩

theorem put_damaged (hfile : s.files.find? id = some file) (hread : ChunkBlobStore.readBlob file.1 id = none) :
    s.put id storedBytes disk = s.repair id file storedBytes disk.write := by
  simp only [put, if_neg hok, hfile, hread]

theorem put_full (hfile : s.files.find? id = none) (hfull : s.full storedBytes = true) :
    s.put id storedBytes disk = (.capacityExceeded, s) := by
  simp only [put, if_neg hok, hfile, hfull, if_true]

theorem put_new (hfile : s.files.find? id = none) (hfull : s.full storedBytes = false) :
    s.put id storedBytes disk = s.add id storedBytes disk.listed disk.write := by
  simp only [put, if_neg hok, hfile, hfull, Bool.false_eq_true, if_false]

end

theorem putRight_of_unchanged (hsame : (s.put id storedBytes disk).2 = s)
    (hstored : (s.put id storedBytes disk).1 ≠ .stored)
    (hrepaired : ∀ file, s.files.find? id = some file → ChunkBlobStore.readBlob file.1 id = none →
      (s.put id storedBytes disk).1 ≠ .alreadyStored) : s.PutRight id storedBytes disk where
  within hnone hadded := by
    rw [hsame, OrdMap.contains, hnone] at hadded
    cases hadded
  stored h := absurd h hstored
  repaired file hfile hread h := absurd h (hrepaired file hfile hread)

/-! ### The steps -/

theorem put_step_refused (h : s.Law drift) (hrefused : isZero id.1 = true ∨ validStoredSize storedBytes.1.length = false ∨
    computeChunkId storedBytes.1 ≠ id) :
    s.PutRight id storedBytes disk ∧ s.Within drift (.put id storedBytes disk) ∧
      (s.put id storedBytes disk).2.Law (s.driftAfter drift (.put id storedBytes disk)) := by
  have hput : s.put id storedBytes disk = (.invalid, s) := put_refused hrefused
  refine ⟨putRight_of_unchanged (by rw [hput]) (by simp [hput]) (fun _ _ _ => by simp [hput]), ?_, ?_⟩
  · intro hzero hsize hid
    rcases hrefused with h | h | h
    · rw [hzero] at h
      cases h
    · rw [hsize] at h
      cases h
    · exact absurd hid h
  · rw [hput, driftAfter, if_pos hrefused]
    exact h

section

variable (hok : ¬(isZero id.1 = true ∨ validStoredSize storedBytes.1.length = false ∨
  computeChunkId storedBytes.1 ≠ id))

include hok

theorem within_put : s.Within drift (.put id storedBytes disk) ↔ s.PutFits drift id storedBytes disk.write := by
  simp only [not_or, Bool.not_eq_true, Bool.not_eq_false, ne_eq, not_not] at hok
  obtain ⟨hzero, hsize, hid⟩ := hok
  exact ⟨fun h => h hzero hsize hid, fun h _ _ _ => h⟩

theorem put_step_held (h : s.Law drift) {existing : Bytes} (hfile : s.files.find? id = some file)
    (hread : ChunkBlobStore.readBlob file.1 id = some existing) :
    s.PutRight id storedBytes disk ∧ s.Within drift (.put id storedBytes disk) ∧
      (s.put id storedBytes disk).2.Law (s.driftAfter drift (.put id storedBytes disk)) := by
  obtain ⟨hsame, hstored⟩ := @put_held _ s id storedBytes file disk hok _ hfile hread
  refine ⟨putRight_of_unchanged hsame hstored ?_, ?_, ?_⟩
  · intro file' hfile' hread'
    rw [hfile] at hfile'
    cases hfile'
    rw [hread] at hread'
    cases hread'
  · rw [within_put hok, PutFits, hfile]
    intro hnone
    rw [hread] at hnone
    cases hnone
  · simp only [hsame, driftAfter, if_neg hok, hfile, hread, Option.isSome_some, if_true]
    exact h

/-- A `Put` that repairs a file. -/
theorem put_step_damaged (h : s.Law drift) (hfile : s.files.find? id = some file)
    (hread : ChunkBlobStore.readBlob file.1 id = none) :
    (s.PutRight id storedBytes disk ↔ s.Within drift (.put id storedBytes disk)) ∧
      (s.PutRight id storedBytes disk →
        (s.put id storedBytes disk).2.Law (s.driftAfter drift (.put id storedBytes disk))) := by
  have hput : s.put id storedBytes disk = s.repair id file storedBytes disk.write := put_damaged hok hfile hread
  have hset := @totalBytes_set_of_some s.files id storedBytes file hfile
  have hheld := length_le_totalBytes hfile
  have hused := s.usedBytes.toNat_lt
  have hlaw : (s.usedBytes.toNat : Int) = totalBytes s.files + drift := h
  have hread' : (ChunkBlobStore.readBlob file.1 id).isSome = false := by rw [hread]; rfl
  cases hwrite : disk.write with
  | synced =>
    rw [hwrite, repair] at hput
    -- the exact count of the repair is the new total and the new drift
    have hexact : ((s.usedBytes.toNat - min s.usedBytes.toNat file.1.length + storedBytes.1.length : Nat) : Int) =
        totalBytes (s.files.set id storedBytes) + max drift (file.1.length - totalBytes s.files) := by
      omega
    have hwithin : s.Within drift (.put id storedBytes disk) ↔
        s.usedBytes.toNat - min s.usedBytes.toNat file.1.length + storedBytes.1.length < 2 ^ 64 := by
      rw [within_put hok, PutFits, hfile]
      simp only [hread, hwrite, forall_const, ← hexact]
      exact_mod_cast Iff.rfl
    rw [hwithin]
    constructor
    · constructor
      · intro hright
        rw [← hright.repaired file hfile hread (by rw [hput]), hput]
        exact UInt64.toNat_lt _
      · intro hfits
        refine ⟨fun hnone => ?_, fun hstored => ?_, fun file' hfile' _ _ => ?_⟩
        · rw [hfile] at hnone
          cases hnone
        · rw [hput] at hstored
          cases hstored
        · rw [hfile] at hfile'
          cases hfile'
          rw [hput]
          exact toNat_repaired hfits
    · intro hright
      have hcount := hright.repaired file hfile hread (by rw [hput])
      rw [hput] at hcount ⊢
      simp only [Law, driftAfter, if_neg hok, hfile, hread', Bool.false_eq_true, if_false, hwrite, withFile]
      rw [hcount, hexact]
  | unsynced =>
    rw [hwrite, repair] at hput
    refine ⟨⟨fun _ => ?_, fun _ => ⟨fun hnone => ?_, fun hstored => ?_, fun _ _ _ hstatus => ?_⟩⟩, fun _ => ?_⟩
    · rw [within_put hok, PutFits, hfile]
      intro _ hsynced
      rw [hwrite] at hsynced
      cases hsynced
    · rw [hfile] at hnone
      cases hnone
    · rw [hput] at hstored
      cases hstored
    · rw [hput] at hstatus
      cases hstatus
    · simp only [hput, Law, driftAfter, if_neg hok, hfile, hread', Bool.false_eq_true, if_false, hwrite, withFile]
      omega
  | failed =>
    rw [hwrite, repair] at hput
    refine ⟨⟨fun _ => ?_, fun _ => putRight_of_unchanged ?_ ?_ fun _ _ _ => ?_⟩, fun _ => ?_⟩
    · rw [within_put hok, PutFits, hfile]
      intro _ hsynced
      rw [hwrite] at hsynced
      cases hsynced
    · rw [hput]
    · simp [hput]
    · simp [hput]
    · simp only [hput, driftAfter, if_neg hok, hfile, hread', Bool.false_eq_true, if_false, hwrite]
      exact h

/-- A `Put` of a new blob. -/
theorem put_step_new (h : s.Law drift) (hfile : s.files.find? id = none) :
    (s.PutRight id storedBytes disk ↔ s.Within drift (.put id storedBytes disk)) ∧
      (s.PutRight id storedBytes disk →
        (s.put id storedBytes disk).2.Law (s.driftAfter drift (.put id storedBytes disk))) := by
  have hset := @totalBytes_set_of_none s.files id storedBytes hfile
  have hlaw : (s.usedBytes.toNat : Int) = totalBytes s.files + drift := h
  have hcapacity := s.capacityBytes.toNat_lt
  rw [within_put hok, PutFits, hfile]
  cases hfull : s.full storedBytes with
  | true =>
    have hput : s.put id storedBytes disk = (.capacityExceeded, s) := put_full hok hfile hfull
    have hover : ¬(totalBytes s.files + drift + storedBytes.1.length ≤ s.capacityBytes.toNat) := by
      rw [← full_eq_false h, hfull]
      decide
    refine ⟨⟨fun _ hfits => absurd hfits hover, fun _ => putRight_of_unchanged ?_ ?_ fun _ _ _ => ?_⟩, fun _ => ?_⟩
    · rw [hput]
    · simp [hput]
    · simp [hput]
    · simp only [hput, driftAfter, if_neg hok, hfile, if_pos (lt_of_not_ge hover)]
      exact h
  | false =>
    have hput : s.put id storedBytes disk = s.add id storedBytes disk.listed disk.write := put_new hok hfile hfull
    have hfits := (full_eq_false h).mp hfull
    have hdrift : ¬(totalBytes s.files + drift + storedBytes.1.length > s.capacityBytes.toNat) := not_lt.mpr hfits
    cases hwrite : disk.write with
    | synced =>
      rw [hwrite, add] at hput
      have hcount : (s.usedBytes + storedBytes.size).toNat = s.usedBytes.toNat + storedBytes.1.length := by
        rw [toNat_add_of_lt (by rw [BlobFile.toNat_size]; omega), BlobFile.toNat_size]
      refine ⟨⟨fun hright _ _ => ?_, fun hroom => ⟨fun _ _ => ?_, fun _ => ?_, fun file' hfile' => ?_⟩⟩, fun _ => ?_⟩
      · have htotal := hright.within hfile (by simp [hput, withFile])
        rw [hput] at htotal
        rwa [← hset]
      · rw [hput]
        exact hset.trans_le (hroom hfits (by decide))
      · rw [hput]
        exact hcount
      · rw [hfile] at hfile'
        cases hfile'
      · simp only [hput, Law, driftAfter, if_neg hok, hfile, if_neg hdrift, hwrite, withFile, hcount]
        omega
    | unsynced =>
      rw [hwrite, add] at hput
      refine ⟨⟨fun hright _ _ => ?_, fun hroom => ⟨fun _ _ => ?_, fun hstored => ?_, fun file' hfile' => ?_⟩⟩, fun _ => ?_⟩
      · have htotal := hright.within hfile (by simp [hput, withFile])
        rw [hput, files_rescan] at htotal
        rwa [← hset]
      · rw [hput, files_rescan]
        exact hset.trans_le (hroom hfits (by decide))
      · rw [hput] at hstored
        cases hstored
      · rw [hfile] at hfile'
        cases hfile'
      · have hlost : (s.withFile id storedBytes).Law (drift - storedBytes.1.length) := by
          show (s.usedBytes.toNat : Int) = totalBytes (s.files.set id storedBytes) + (drift - storedBytes.1.length)
          omega
        simp only [hput, driftAfter, if_neg hok, hfile, if_neg hdrift, hwrite]
        exact rescan_law hlost
    | failed =>
      rw [hwrite, add] at hput
      refine ⟨⟨fun _ _ hwritten => absurd rfl hwritten, fun _ => ⟨fun _ hadded => ?_, fun hstored => ?_,
        fun file' hfile' => ?_⟩⟩, fun _ => ?_⟩
      · rw [hput, files_rescan, OrdMap.contains, hfile] at hadded
        cases hadded
      · rw [hput] at hstored
        cases hstored
      · rw [hfile] at hfile'
        cases hfile'
      · simp only [hput, driftAfter, if_neg hok, hfile, if_neg hdrift, hwrite]
        exact rescan_law h

end

/-- **A `Put` does what it is for exactly if it fits beside the drift**, and the drift then
    says what the counter has become. -/
theorem put_step (h : s.Law drift) :
    (s.PutRight id storedBytes disk ↔ s.Within drift (.put id storedBytes disk)) ∧
      (s.PutRight id storedBytes disk →
        (s.put id storedBytes disk).2.Law (s.driftAfter drift (.put id storedBytes disk))) := by
  by_cases hok : isZero id.1 = true ∨ validStoredSize storedBytes.1.length = false ∨ computeChunkId storedBytes.1 ≠ id
  · obtain ⟨hright, hwithin, hnext⟩ := @put_step_refused _ s drift id storedBytes disk h hok
    exact ⟨iff_of_true hright hwithin, fun _ => hnext⟩
  · cases hfile : s.files.find? id with
    | none => exact put_step_new hok h hfile
    | some file =>
      cases hread : ChunkBlobStore.readBlob file.1 id with
      | none => exact put_step_damaged hok h hfile hread
      | some existing =>
        obtain ⟨hright, hwithin, hnext⟩ := @put_step_held _ s drift id storedBytes file disk hok h _ hfile hread
        exact ⟨iff_of_true hright hwithin, fun _ => hnext⟩

/-- **A `Remove` is refused because of the counter exactly if the drift is below what the
    other files add up to.** -/
theorem remove_step {unlinked : Bool} (h : s.Law drift) :
    (s.RemoveRight id unlinked ↔ s.Within drift (.remove id unlinked)) ∧
      (s.remove id unlinked).2.Law (s.driftAfter drift (.remove id unlinked)) := by
  have hlaw : (s.usedBytes.toNat : Int) = totalBytes s.files + drift := h
  cases hzero : isZero id.1 with
  | true =>
    have hremove (unlinked : Bool) : s.remove id unlinked = (false, s) := if_pos hzero
    refine ⟨iff_of_true ⟨fun _ _ hremoved => ?_, fun hnonzero => ?_⟩ fun _ hnonzero => ?_, ?_⟩
    · rw [hremove] at hremoved
      cases hremoved
    · rw [hzero] at hnonzero
      cases hnonzero
    · rw [hzero] at hnonzero
      cases hnonzero
    · rw [hremove]
      exact h
  | false =>
    cases hfile : s.files.find? id with
    | none =>
      have hremove (unlinked : Bool) : s.remove id unlinked = (true, s) := by
        simp only [remove, hzero, hfile, Bool.false_eq_true, if_false]
      refine ⟨iff_of_true ⟨fun file hfile' => ?_, fun _ => ?_⟩ fun file _ hfile' => ?_, ?_⟩
      · rw [hfile] at hfile'
        cases hfile'
      · rw [hremove]
      · rw [hfile] at hfile'
        cases hfile'
      · rw [hremove]
        exact h
    | some file =>
      have herase := totalBytes_erase hfile
      have hwithin : s.Within drift (.remove id unlinked) ↔ file.1.length ≤ s.usedBytes.toNat := by
        simp only [Within, hzero, hfile, Option.some.injEq, forall_const, forall_eq']
        omega
      have hcounted : ¬file.size > s.usedBytes ↔ file.1.length ≤ s.usedBytes.toNat := by
        rw [gt_iff_lt, UInt64.not_lt, UInt64.le_iff_toNat_le, BlobFile.toNat_size]
      have hremove (unlinked : Bool) : s.remove id unlinked = if file.size > s.usedBytes ∨ unlinked = false then
          (false, s) else (true, { s with files := s.files.erase id, usedBytes := s.usedBytes - file.size }) := by
        simp only [remove, hzero, hfile, Bool.false_eq_true, if_false]
      have hexact (hle : file.1.length ≤ s.usedBytes.toNat) :
          (s.usedBytes - file.size).toNat + file.1.length = s.usedBytes.toNat := by
        rw [UInt64.toNat_sub_of_le _ _ (by rwa [UInt64.le_iff_toNat_le, BlobFile.toNat_size]), BlobFile.toNat_size]
        omega
      rw [hwithin]
      refine ⟨⟨fun hright => ?_, fun hle => ⟨fun file' hfile' hremoved => ?_, fun _ => ?_⟩⟩, ?_⟩
      · have haccepted := hright.accepted hzero
        rw [hremove] at haccepted
        by_cases hover : file.size > s.usedBytes
        · rw [if_pos (Or.inl hover)] at haccepted
          cases haccepted
        · exact hcounted.mp hover
      · rw [hfile] at hfile'
        cases hfile'
        rw [hremove] at hremoved ⊢
        split at hremoved
        · cases hremoved
        · next hkept =>
          rw [if_neg hkept]
          exact hexact hle
      · rw [hremove, if_neg (not_or.mpr ⟨hcounted.mpr hle, by decide⟩)]
      · rw [hremove]
        split
        · exact h
        · next hkept =>
          have hle := hexact (hcounted.mp (not_or.mp hkept).1)
          show ((s.usedBytes - file.size).toNat : Int) = totalBytes (s.files.erase id) + drift
          omega

theorem damage_law (h : s.Law drift) : Law { s with files := damageFile s.files id file }
    (s.driftAfter drift (.damage id file)) := by
  have hlaw : (s.usedBytes.toNat : Int) = totalBytes s.files + drift := h
  cases hfile : s.files.find? id with
  | none =>
    simp only [driftAfter, damageFile, OrdMap.contains, hfile, Option.isSome_none, Bool.false_eq_true, if_false]
    exact h
  | some old =>
    have hset := @totalBytes_set_of_some s.files id file old hfile
    simp only [driftAfter, damageFile, OrdMap.contains, hfile, Option.isSome_some, if_true, Law]
    omega

end DiskBlobStore

/-! ### Runs of the store -/

/-- The counter of an open store is the total size of the files and the drift. -/
def BlobDirectory.Law : BlobDirectory → Int → Prop
  | .closed _, _ => True
  | .opened s, drift => s.Law drift

omit [Crypto] in
theorem openBlobs_law (files : OrdMap ChunkId BlobFile) (capacityBytes : UInt64) (listed : Bool) :
    (openBlobs files capacityBytes listed).Law 0 := by
  rw [openBlobs]
  split
  · trivial
  · cases hscan : scanBlobs files.entries 0 with
    | none => trivial
    | some used =>
      show (used.toNat : Int) = totalBytes files + 0
      rw [scanned hscan, Int.add_zero]

omit [Crypto] in
theorem reopenBlobs_law (files : OrdMap ChunkId BlobFile) (capacityBytes : UInt64) (listed : Bool) (wipe : Wipe) :
    (reopenBlobs files capacityBytes listed wipe).Law 0 := by
  cases wipe with
  | kept => exact openBlobs_law files capacityBytes listed
  | wiped => exact openBlobs_law ∅ capacityBytes listed
  | interrupted left => trivial

variable {d : BlobDirectory} {drift : Int} {event : BlobEvent}

theorem BlobDirectory.accurate_iff (h : d.Law drift) : d.Accurate ↔ d.Balanced drift := by
  cases d with
  | closed files => exact Iff.rfl
  | opened s =>
    have hlaw : (s.usedBytes.toNat : Int) = totalBytes s.files + drift := h
    refine forall_congr' fun _ => ?_
    omega

theorem Accounted.accurate {events : List BlobEvent} (h : Accounted d events) :
    (events.foldl BlobDirectory.step d).Accurate := by
  induction events generalizing d with
  | nil => exact h
  | cons event rest ih => exact ih h.2.2

theorem BlobDirectory.step_iff (h : d.Law drift) : (d.StepRight event ↔ d.Within drift event) ∧
    (d.StepRight event → (d.step event).Law (d.driftAfter drift event)) := by
  cases d with
  | closed files =>
    refine ⟨Iff.rfl, fun _ => ?_⟩
    cases event with
    | reopen capacityBytes wipe listed => exact reopenBlobs_law files capacityBytes listed wipe
    | put _ _ _ => trivial
    | remove _ _ => trivial
    | damage _ _ => trivial
  | opened s =>
    cases event with
    | put id storedBytes disk => exact DiskBlobStore.put_step h
    | remove id unlinked => exact ⟨(DiskBlobStore.remove_step h).1, fun _ => (DiskBlobStore.remove_step h).2⟩
    | damage id file => exact ⟨Iff.rfl, fun _ => DiskBlobStore.damage_law h⟩
    | reopen capacityBytes wipe listed =>
      exact ⟨Iff.rfl, fun _ => reopenBlobs_law s.files capacityBytes listed wipe⟩

theorem accounted_of_law {events : List BlobEvent} (h : d.Law drift) : Accounted d events ↔ Steady d drift events := by
  induction events generalizing d drift with
  | nil => exact d.accurate_iff h
  | cons event rest ih =>
    obtain ⟨hiff, hnext⟩ := @BlobDirectory.step_iff _ d drift event h
    rw [Accounted, Steady, d.accurate_iff h, hiff]
    refine and_congr_right fun _ => and_congr_right fun hwithin => ?_
    exact ih (hnext (hiff.mpr hwithin))

/-- **The counter does what it is for exactly in the runs that are steady.**  A run starts
    with a directory of any files; in every state of it the counter is the total size of
    the files where all are intact, no step wraps it, no `Put` takes the files above the
    capacity and no `Remove` is refused because of it. -/
theorem accounted_iff (files : OrdMap ChunkId BlobFile) (events : List BlobEvent) :
    Accounted (.closed files) events ↔ Steady (.closed files) 0 events :=
  accounted_of_law (show (BlobDirectory.closed files).Law 0 from trivial)

/-! ### Runs in which nothing drifts -/

/-- What is written from outside keeps the length of a file, a repair that writes is synced,
    and a new blob whose directory is not synced is counted again. -/
def DiskBlobStore.Counted (s : DiskBlobStore) : BlobEvent → Prop
  | .put id storedBytes disk =>
    match s.files.find? id with
    | some file => ChunkBlobStore.readBlob file.1 id = none →
        disk.write ≠ .unsynced ∧ totalBytes (s.files.set id storedBytes) < 2 ^ 64
    | none => disk.write = .unsynced →
        disk.listed = true ∧ (scanBlobs (s.files.set id storedBytes).entries 0).isSome = true
  | .damage id file => ∀ old, s.files.find? id = some old → file.1.length = old.1.length
  | _ => True

def BlobDirectory.Counted : BlobDirectory → BlobEvent → Prop
  | .closed _, _ => True
  | .opened s, event => s.Counted event

def CountedRun : BlobDirectory → List BlobEvent → Prop
  | _, [] => True
  | d, event :: rest => d.Counted event ∧ CountedRun (d.step event) rest

/-- A step that keeps the count needs nothing and adds no drift. -/
theorem DiskBlobStore.Counted.within {s : DiskBlobStore} (h : s.Counted event) :
    s.Within 0 event ∧ s.driftAfter 0 event = 0 := by
  cases event with
  | put id storedBytes disk =>
    cases hfile : s.files.find? id with
    | none =>
      simp only [DiskBlobStore.Counted, hfile] at h
      refine ⟨fun _ _ _ => ?_, ?_⟩
      · simp only [DiskBlobStore.PutFits, hfile]
        omega
      · simp only [DiskBlobStore.driftAfter, hfile]
        cases hwrite : disk.write with
        | synced => simp
        | unsynced => simp [h hwrite]
        | failed => simp
    | some file =>
      have hle := length_le_totalBytes hfile
      have hmax : max (0 : Int) (file.1.length - totalBytes s.files) = 0 := max_eq_left (by omega)
      simp only [DiskBlobStore.Counted, hfile] at h
      refine ⟨fun _ _ _ => ?_, ?_⟩
      · simp only [DiskBlobStore.PutFits, hfile, hmax]
        intro hread _
        have hfits := (h hread).2
        omega
      · simp only [DiskBlobStore.driftAfter, hfile]
        cases hread : ChunkBlobStore.readBlob file.1 id with
        | some existing => simp
        | none =>
          cases hwrite : disk.write with
          | synced => simp [hmax]
          | unsynced => exact absurd hwrite (h hread).1
          | failed => simp
  | remove id unlinked =>
    refine ⟨fun file _ hfile => ?_, rfl⟩
    have hle := length_le_totalBytes hfile
    omega
  | damage id file =>
    refine ⟨trivial, ?_⟩
    simp only [DiskBlobStore.driftAfter]
    split
    · rfl
    · next old hfile =>
      have hsame := h old hfile
      omega
  | reopen capacityBytes wipe listed => exact ⟨trivial, rfl⟩

theorem CountedRun.steady {events : List BlobEvent} (h : CountedRun d events) : Steady d 0 events := by
  have hbalanced (d : BlobDirectory) : d.Balanced 0 := by
    cases d with
    | closed files => trivial
    | opened s => exact fun _ => rfl
  induction events generalizing d with
  | nil => exact hbalanced d
  | cons event rest ih =>
    obtain ⟨hcounted, hrest⟩ := h
    cases d with
    | closed files => exact ⟨trivial, trivial, ih hrest⟩
    | opened s =>
      obtain ⟨hwithin, hdrift⟩ := hcounted.within
      refine ⟨hbalanced _, hwithin, ?_⟩
      rw [BlobDirectory.driftAfter, hdrift]
      exact ih hrest

/-- **The counter does what it is for in every run that keeps the count.** -/
theorem CountedRun.accounted {files : OrdMap ChunkId BlobFile} {events : List BlobEvent}
    (h : CountedRun (.closed files) events) : Accounted (.closed files) events :=
  (accounted_of_law (show (BlobDirectory.closed files).Law 0 from trivial)).mpr h.steady

/-! ### The files are those of `ChunkStore` -/

namespace DiskBlobStore

variable {s : DiskBlobStore} {id : ChunkId} {storedBytes : BlobFile} {disk : DiskOutcome}

omit [Crypto] in
theorem blobs_withFile (s : DiskBlobStore) (id : ChunkId) (file : BlobFile) :
    (s.withFile id file).blobs = Function.update s.blobs id (some file.1) := by
  funext id'
  rw [blobs, withFile, OrdMap.find?_set]
  by_cases h : id' = id
  · rw [if_pos h, h, Function.update_self]
    rfl
  · rw [if_neg h, Function.update_of_ne h]
    rfl

omit [Crypto] in
theorem blobs_rescan (s : DiskBlobStore) (listed : Bool) : (s.rescan listed).blobs = s.blobs := by
  funext id
  rw [blobs, files_rescan]
  rfl

theorem put_blobs : (s.put id storedBytes disk).1 = (s.blobs.put id storedBytes.1
      { full := s.full storedBytes, write := disk.write, synced := disk.synced }).1 ∧
    (s.put id storedBytes disk).2.blobs = (s.blobs.put id storedBytes.1
      { full := s.full storedBytes, write := disk.write, synced := disk.synced }).2 := by
  by_cases hok : isZero id.1 = true ∨ validStoredSize storedBytes.1.length = false ∨ computeChunkId storedBytes.1 ≠ id
  · rw [put, ChunkBlobStore.put, if_pos hok, if_pos hok]
    exact ⟨rfl, rfl⟩
  · cases hfile : s.files.find? id with
    | none =>
      have hblob : s.blobs id = none := by rw [blobs, hfile, Option.map_none]
      simp only [put, ChunkBlobStore.put, if_neg hok, hfile, hblob]
      cases hfull : s.full storedBytes with
      | true => exact ⟨rfl, rfl⟩
      | false =>
        cases hwrite : disk.write with
        | synced => exact ⟨rfl, blobs_withFile s id storedBytes⟩
        | unsynced => exact ⟨rfl, (blobs_rescan _ _).trans (blobs_withFile s id storedBytes)⟩
        | failed => exact ⟨rfl, blobs_rescan s disk.listed⟩
    | some file =>
      have hblob : s.blobs id = some file.1 := by rw [blobs, hfile, Option.map_some]
      simp only [put, ChunkBlobStore.put, if_neg hok, hfile, hblob]
      cases hread : ChunkBlobStore.readBlob file.1 id with
      | some existing =>
        dsimp only
        split_ifs <;> exact ⟨rfl, rfl⟩
      | none =>
        cases hwrite : disk.write with
        | synced => exact ⟨rfl, blobs_withFile s id storedBytes⟩
        | unsynced => exact ⟨rfl, blobs_withFile s id storedBytes⟩
        | failed => exact ⟨rfl, rfl⟩

omit [Crypto] in
/-- `remove` as `ChunkStore` has it: the counter may keep a file. -/
theorem remove_blobs (s : DiskBlobStore) (id : ChunkId) (unlinked : Bool) : ∃ unlinked',
    (s.remove id unlinked).1 = (s.blobs.remove id unlinked').1 ∧
      (s.remove id unlinked).2.blobs = (s.blobs.remove id unlinked').2 := by
  cases hzero : isZero id.1 with
  | true =>
    rw [remove, if_pos hzero]
    refine ⟨true, ?_⟩
    rw [ChunkBlobStore.remove, if_pos hzero]
    exact ⟨rfl, rfl⟩
  | false =>
    cases hfile : s.files.find? id with
    | none =>
      have hblob : s.blobs id = none := by rw [blobs, hfile, Option.map_none]
      refine ⟨true, ?_⟩
      simp [remove, ChunkBlobStore.remove, hzero, hfile, hblob]
    | some file =>
      have hblob : s.blobs id = some file.1 := by rw [blobs, hfile, Option.map_some]
      simp only [remove, ChunkBlobStore.remove, hzero, hfile, hblob, Bool.false_eq_true, if_false]
      by_cases hkept : file.size > s.usedBytes ∨ unlinked = false
      · rw [if_pos hkept]
        exact ⟨false, rfl, rfl⟩
      · rw [if_neg hkept]
        refine ⟨true, rfl, ?_⟩
        show blobs _ = Function.update s.blobs id none
        funext other
        rw [blobs, OrdMap.find?_erase]
        by_cases hother : other = id
        · rw [if_pos hother, hother, Function.update_self]
          rfl
        · rw [if_neg hother, Function.update_of_ne hother]
          rfl

end DiskBlobStore

/-- A call, with what the file system does during it. -/
inductive BlobCall where
  | put (id : ChunkId) (storedBytes : BlobFile) (disk : DiskOutcome)
  | remove (id : ChunkId) (unlinked : Bool)

inductive BlobAnswer where
  | put (status : ChunkBlobPutStatus)
  | remove (removed : Bool)
deriving DecidableEq, Repr

def DiskBlobStore.calls (s : DiskBlobStore) : List BlobCall → List BlobAnswer × DiskBlobStore
  | [] => ([], s)
  | .put id storedBytes disk :: rest =>
    let (answers, after) := (s.put id storedBytes disk).2.calls rest
    (.put (s.put id storedBytes disk).1 :: answers, after)
  | .remove id unlinked :: rest =>
    let (answers, after) := (s.remove id unlinked).2.calls rest
    (.remove (s.remove id unlinked).1 :: answers, after)

/-- The answers that a store without a counter can give: whether there is room for a blob, and
    whether a file resists, is left open. -/
inductive ChunkBlobStore.Answers : ChunkBlobStore → List BlobCall → List BlobAnswer → ChunkBlobStore → Prop where
  | done {blobs : ChunkBlobStore} : Answers blobs [] [] blobs
  | put {blobs after : ChunkBlobStore} {rest : List BlobCall} {answers : List BlobAnswer} {id : ChunkId}
      {storedBytes : BlobFile} {disk : DiskOutcome} (full : Bool)
      (hrest : Answers (blobs.put id storedBytes.1 { full, write := disk.write, synced := disk.synced }).2
        rest answers after) :
      Answers blobs (.put id storedBytes disk :: rest)
        (.put (blobs.put id storedBytes.1 { full, write := disk.write, synced := disk.synced }).1 :: answers) after
  | remove {blobs after : ChunkBlobStore} {rest : List BlobCall} {answers : List BlobAnswer} {id : ChunkId}
      {unlinked : Bool} (unlinked' : Bool) (hrest : Answers (blobs.remove id unlinked').2 rest answers after) :
      Answers blobs (.remove id unlinked :: rest) (.remove (blobs.remove id unlinked').1 :: answers) after

/-- **The store on disk is a blob store**: what its calls answer, and the files they leave, a
    store without a counter can answer and leave. -/
theorem disk_refines_blobs (s : DiskBlobStore) (calls : List BlobCall) :
    s.blobs.Answers calls (s.calls calls).1 (s.calls calls).2.blobs := by
  induction calls generalizing s with
  | nil => exact .done
  | cons call rest ih =>
    cases call with
    | put id storedBytes disk =>
      obtain ⟨hanswer, hafter⟩ := @DiskBlobStore.put_blobs _ s id storedBytes disk
      have hrest := ih (s.put id storedBytes disk).2
      rw [DiskBlobStore.calls, hanswer]
      rw [hafter] at hrest
      exact .put _ hrest
    | remove id unlinked =>
      obtain ⟨unlinked', hanswer, hafter⟩ := s.remove_blobs id unlinked
      have hrest := ih (s.remove id unlinked).2
      rw [DiskBlobStore.calls, hanswer]
      rw [hafter] at hrest
      exact .remove unlinked' hrest

end

/-! ### A damaged file of another length -/

section Sample

set_option maxRecDepth 10000

attribute [local instance] Crypto.sample

def sampleBlob : BlobFile := ⟨List.replicate 1100 17, List.length_replicate.trans_lt (by decide)⟩

def sampleBlobId : ChunkId := computeChunkId sampleBlob.1

def soundDisk : DiskOutcome where
  write := .synced
  synced := true
  listed := true

def truncatedRun : List BlobEvent :=
  [.reopen UINT64_MAX .kept true, .put sampleBlobId sampleBlob soundDisk, .damage sampleBlobId ⟨[], by decide⟩,
    .put sampleBlobId sampleBlob soundDisk]

/-- The repair is counted twice: 2200 bytes used by one intact file of 1100. -/
theorem truncatedRun_not_accounted : ¬Accounted (.closed ∅) truncatedRun := by
  have hstate : truncatedRun.foldl BlobDirectory.step (.closed ∅) =
      .opened { files := (∅ : OrdMap ChunkId BlobFile).set sampleBlobId sampleBlob, usedBytes := 2200
                capacityBytes := UINT64_MAX } := by
    decide
  intro h
  have haccurate := h.accurate
  rw [hstate] at haccurate
  have hintact : IntactFiles ((∅ : OrdMap ChunkId BlobFile).set sampleBlobId sampleBlob) := by
    intro id file hfile
    rw [OrdMap.find?_set] at hfile
    split at hfile
    · next hid =>
      cases hfile
      exact hid.symm
    · cases hfile
  have hcount := haccurate hintact
  rw [totalBytes_set_of_none (OrdMap.find?_empty _)] at hcount
  revert hcount
  decide

end Sample

end Cybou
