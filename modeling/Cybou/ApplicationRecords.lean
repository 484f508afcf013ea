import Cybou.ApplicationRows
import Cybou.PrivateDocuments
import Mathlib.Data.Prod.Lex

/-! # Lists, file records and mail records in application rows

`application_service.cpp`, `local_application_service.cpp`.

Both services keep their records by the same code: indexes of 32-byte ids, lists of names,
and records that are a fixed header with a private document behind it.  `LoadFile` and
`LoadMail` give back what `SaveFile` and `SaveMail` wrote, the local star apart.
-/

namespace Cybou

open Library

/-! ### Lists of ids -/

def readIds : Option Bytes → List (FixedBytes 32)
  | none => []
  | some encoded =>
    if encoded.length % 32 ≠ 0 then []
    else ((Reader.repeatN (Reader.fixed 32) (encoded.length / 32)).whole encoded).getD []

def idsRow (ids : List (FixedBytes 32)) : Bytes := Reader.concat Subtype.val ids

def addId (kind : KeyKind) (id : FixedBytes 32) : Staging Bool := do
  let ids := readIds (← getRow (.only kind))
  if id ∈ ids then return true
  else putRow (.only kind) (idsRow (ids ++ [id]))

@[simp] theorem length_idsRow (ids : List (FixedBytes 32)) : (idsRow ids).length = ids.length * 32 :=
  Reader.length_concat (fun id => id.2) ids

theorem readIds_idsRow (ids : List (FixedBytes 32)) : readIds (some (idsRow ids)) = ids := by
  have hexact := Reader.repeatN_exact (Reader.fixed_exact 32) ids.length
  have hread : (Reader.repeatN (Reader.fixed 32) ids.length).whole (idsRow ids) = some ids :=
    hexact.whole.mpr ⟨⟨rfl, fun _ _ => trivial⟩, rfl⟩
  rw [readIds, length_idsRow, if_neg (by simp), Nat.mul_div_cancel _ (by omega), hread, Option.getD_some]

/-! ### Lists of names -/

/-- The loop of `ReadNames`, with the name read so far. -/
def splitNames : Bytes → Bytes → List Bytes
  | _, [] => []
  | current, c :: encoded =>
    if c = 10 then (if current = [] then splitNames [] encoded else current :: splitNames [] encoded)
    else splitNames (current ++ [c]) encoded

def readNamesRow : Option Bytes → List Bytes
  | none => []
  | some encoded => splitNames [] encoded

def namesRow (names : List Bytes) : Bytes := names.flatMap fun name => name ++ [10]

def ListedName (name : Bytes) : Prop := name ≠ [] ∧ 10 ∉ name

theorem splitNames_append {current name rest : Bytes} (h : 10 ∉ name) :
    splitNames current (name ++ 10 :: rest) =
      if current ++ name = [] then splitNames [] rest else (current ++ name) :: splitNames [] rest := by
  induction name generalizing current with
  | nil => rw [List.nil_append, splitNames, if_pos rfl, List.append_nil]
  | cons c name ih =>
    rw [List.mem_cons, not_or] at h
    rw [List.cons_append, splitNames, if_neg (Ne.symm h.1), ih h.2, List.append_assoc, List.singleton_append]

theorem readNamesRow_namesRow {names : List Bytes} (h : ∀ name ∈ names, ListedName name) :
    readNamesRow (some (namesRow names)) = names := by
  induction names with
  | nil => rfl
  | cons name names ih =>
    rw [List.forall_mem_cons] at h
    have hrest := ih h.2
    rw [readNamesRow, namesRow] at hrest
    rw [readNamesRow, namesRow, List.flatMap_cons, List.append_assoc, List.singleton_append,
      splitNames_append h.1.2, List.nil_append, if_neg h.1.1, hrest]

/-! ### File records -/

/-- `PrivateOrder`, compared field by field. -/
structure PrivateOrder where
  height : UInt64
  operationIndex : UInt32
  mutationIndex : UInt32
deriving DecidableEq, Repr

namespace PrivateOrder

def toKey (order : PrivateOrder) : Nat ×ₗ Nat ×ₗ Nat :=
  toLex (order.height.toNat, toLex (order.operationIndex.toNat, order.mutationIndex.toNat))

theorem toKey_injective : Function.Injective toKey := by
  intro order order' h
  rcases order with ⟨height, operation, mutation⟩
  rcases order' with ⟨height', operation', mutation'⟩
  simp only [toKey, EmbeddingLike.apply_eq_iff_eq, Prod.mk.injEq, UInt64.toNat_inj, UInt32.toNat_inj] at h
  rw [h.1, h.2.1, h.2.2]

instance : LinearOrder PrivateOrder := LinearOrder.lift' toKey toKey_injective

def zero : PrivateOrder := ⟨0, 0, 0⟩

end PrivateOrder

structure FileRecord where
  item : FileItem
  operationId : Hash256
  order : PrivateOrder
  deleted : Bool
  starred : Bool
deriving DecidableEq

def FileItem.blank (itemId : PrivateItemId) : FileItem where
  itemId
  parentId := none
  kind := .file
  name := []
  logicalSize := 0
  rootChunkId := none
  contentKey := none
  modifiedMs := 0

def FILE_MAGIC : Bytes := ascii "CYFR"

def FileItem.document (item : FileItem) : PrivateApplicationDocument :=
  .files { mutations := [{ kind := .upsertItem, itemId := item.itemId, item := some item }] }

def fileHeader (record : FileRecord) : Bytes :=
  FILE_MAGIC ++ record.operationId.1 ++ record.item.itemId.1 ++ le64 record.order.height ++
    le32 record.order.operationIndex ++ le32 record.order.mutationIndex ++
    [if record.deleted = true then 1 else 0]

def fileRow (record : FileRecord) : Option Bytes :=
  if record.deleted = true then some (fileHeader record)
  else (encodePrivateApplicationDocument record.item.document).map (fileHeader record ++ ·)

/-- Where `SaveFile` puts a record. -/
def fileKey (desired : Bool) (itemId : PrivateItemId) : ApplicationKey :=
  .ofId (if desired = true then .fileDesired else .file) itemId

def saveFile (record : FileRecord) (desired : Bool) : Staging Bool := do
  match fileRow record with
  | none => return false
  | some encoded =>
    if (← putRow (fileKey desired record.item.itemId) encoded) = false then return false
    addId .filesIndex record.item.itemId

def readFileRecord (id : PrivateItemId) (starred : Bool) : Reader FileRecord := do
  Reader.literal FILE_MAGIC
  let operationId ← Reader.fixed 32
  let storedId ← Reader.fixed 32
  Reader.require (storedId = id)
  let height ← Reader.u64
  let operationIndex ← Reader.u32
  let mutationIndex ← Reader.u32
  let deleted ← Reader.u8
  let order : PrivateOrder := { height, operationIndex, mutationIndex }
  if deleted ≠ 0 then
    return { item := .blank id, operationId, order, deleted := true, starred := false }
  else
    let document ← Reader.ofOption (decodePrivateApplicationDocument (← Reader.rest))
    match document with
    | .files { mutations := [{ kind := _, itemId := _, item := some item }] } =>
      Reader.require (item.itemId = id)
      return { item, operationId, order, deleted := false, starred }
    | _ => Reader.ofOption none

def loadFile (rows : ApplicationRows) (id : PrivateItemId) (desired : Bool) : Option FileRecord := do
  let encoded ← (if desired = true then rows (fileKey true id) else none).or (rows (fileKey false id))
  (readFileRecord id (rows (.ofId .fileStar id)).isSome).whole encoded

/-- What `LoadFile` gives back of a record. -/
def FileRecord.stored (record : FileRecord) (starred : Bool) : FileRecord :=
  if record.deleted = true then
    { record with item := .blank record.item.itemId, starred := false }
  else { record with starred }

theorem FileRecord.stored_order (record : FileRecord) (starred : Bool) :
    (record.stored starred).order = record.order := by
  unfold FileRecord.stored
  split <;> rfl

theorem readFileRecord_fileRow {record : FileRecord} {encoded : Bytes} (starred : Bool)
    (h : fileRow record = some encoded) :
    (readFileRecord record.item.itemId starred).whole encoded = some (record.stored starred) := by
  have hheader : ∀ tail, readFileRecord record.item.itemId starred (fileHeader record ++ tail) =
      (if record.deleted = true then some
        ({ item := .blank record.item.itemId, operationId := record.operationId, order := record.order,
           deleted := true, starred := false }, tail)
      else ((decodePrivateApplicationDocument tail).map fun document => (document, [])).bind fun read =>
        (match read.1 with
        | .files { mutations := [{ kind := _, itemId := _, item := some item }] } => do
          Reader.require (item.itemId = record.item.itemId)
          return { item, operationId := record.operationId, order := record.order, deleted := false, starred }
        | _ => Reader.ofOption none : Reader FileRecord) read.2) := by
    intro tail
    simp only [readFileRecord, fileHeader, List.append_assoc]
    rw [Reader.literal_bind_append, (Reader.fixed_exact 32).bind_append trivial,
      (Reader.fixed_exact 32).bind_append trivial, Reader.require_bind_apply, if_pos rfl,
      Reader.u64_exact.bind_append trivial, Reader.u32_exact.bind_append trivial,
      Reader.u32_exact.bind_append trivial, Reader.u8_exact.bind_append trivial]
    cases record.deleted with
    | true => rfl
    | false => rfl
  unfold fileRow at h
  by_cases hdeleted : record.deleted = true
  · rw [if_pos hdeleted, Option.some.injEq] at h
    subst h
    have hread := hheader []
    rw [List.append_nil, if_pos hdeleted] at hread
    rw [Reader.whole_eq_some, hread, FileRecord.stored, if_pos hdeleted, hdeleted]
  · rw [if_neg hdeleted, Option.map_eq_some_iff] at h
    rcases h with ⟨document, hdocument, rfl⟩
    have hread := hheader document
    rw [if_neg hdeleted, decodePrivateApplicationDocument_eq_some.mpr hdocument] at hread
    rw [Reader.whole_eq_some, hread]
    simp only [FileItem.document, Option.map_some, Option.bind_some]
    rw [Reader.require_bind_apply, if_pos rfl, FileRecord.stored, if_neg hdeleted]
    rw [Bool.not_eq_true] at hdeleted
    rw [← hdeleted]
    rfl

/-! ### Mail records -/

inductive MailFolder where
  | inbox
  | sent
  | archive
  | trash
  | deleted
deriving DecidableEq, Repr

def MailFolder.code : MailFolder → UInt8
  | .inbox => 1
  | .sent => 2
  | .archive => 3
  | .trash => 4
  | .deleted => 5

structure MailRecord where
  operationId : Hash256
  finalizedHeight : UInt64
  operationIndex : UInt32
  sender : AccountId
  outgoing : Bool
  message : MailMessage
  folder : MailFolder
  read : Bool
  starred : Bool
deriving DecidableEq

def MAIL_MAGIC : Bytes := ascii "CYML"

def boolByte (value : Bool) : UInt8 := if value = true then 1 else 0

def mailRow (record : MailRecord) : Option Bytes :=
  (encodePrivateApplicationDocument (.mail record.message)).map fun document =>
    MAIL_MAGIC ++ record.operationId.1 ++ le64 record.finalizedHeight ++ le32 record.operationIndex ++
      record.sender.1 ++ [boolByte record.outgoing] ++ [record.folder.code] ++ [boolByte record.read] ++
      [boolByte record.starred] ++ document

def saveMail (record : MailRecord) : Staging Bool := do
  match mailRow record with
  | none => return false
  | some encoded =>
    if (← putRow (.ofId .mail record.message.messageId) encoded) = false then return false
    addId .mailIndex record.message.messageId

end Cybou
