import Cybou.Library.Rows
import Cybou.PrivateStoreRuns

/-! # The data key of an application database and the phrases that open it (`private_application_store.cpp`)

A store that is opened to preserve its data key keeps one access record for each phrase:
the data key, sealed under the key of the phrase.  A rotation adds the record of the new
phrase; only an opening under that phrase retires the others.
-/

namespace Cybou

open Library

/-! ### Names and keys -/

abbrev RecoveryEntropy := FixedBytes 32

def CHECK_VALUE : Bytes := ascii "CYBOU local application store"

def CHECK_DB_KEY : Bytes := ascii "app/check"

def ACCESS_DB_PREFIX : Bytes := ascii "app/access/"

def DATA_KEY_PRESENT_DB_KEY : Bytes := ascii "app/data-key-present"

def ROTATION_DB_KEY : Bytes := ascii "app/rotation-access"

def KEY_CHECK_DOMAIN : Bytes := ascii "CYBOU/LOCAL-APPLICATION-STORE/key-check"

def DATA_KEY_NAME : Bytes := ascii "__application_data_key__"

/-- The name of the database, which decides where a new data key comes from. -/
inductive StoreFile where
  | app
  | local
deriving DecidableEq, Repr

abbrev DatabaseRows := OrdMap Bytes Bytes

def inScan (start key : Bytes) : Bool :=
  decide (key.take start.length = start) && decide (key.length = start.length + 64)

/-- `ForEachStringPrefix`; nothing where a value cannot be decoded. -/
def scanRows (rows : DatabaseRows) (start : Bytes) : Option (List Bytes) :=
  let keys := rows.keysIn (inScan start)
  if keys.all (fun key => (readBytes rows.find? key).isSome) = true then some keys else none

section

variable [RecordCipher]

def deriveApplicationStoreKey (account : AccountId) (phrase : RecoveryEntropy) : FixedBytes 32 :=
  ChunkCipher.hkdfSha256 phrase.1 (ascii "CYBOU/LOCAL-APPLICATION-STORE") account.1

def keyCheck (key : FixedBytes 32) : FixedBytes 32 := RecordCipher.hmacSha256 key KEY_CHECK_DOMAIN

def accessName (key : FixedBytes 32) : Bytes := ACCESS_DB_PREFIX ++ hex (keyCheck key).1

/-! ### Access records -/

def unwrapKey (account : AccountId) (rows : DatabaseRows) (wrappingKey : FixedBytes 32) : Option (FixedBytes 32) := do
  let encoded ← readBytes rows.find? (accessName wrappingKey)
  let decoded ← decryptRecord account wrappingKey DATA_KEY_NAME encoded
  if h : decoded.length = 32 then some ⟨decoded, h⟩ else none

def wrapKeyEdits (account : AccountId) (wrappingKey dataKey : FixedBytes 32) (preparedRotation : Bool)
    (nonce : Option (FixedBytes 12)) : Option (List (Edit Bytes Bytes)) := do
  let encoded ← encryptRecord account wrappingKey nonce DATA_KEY_NAME dataKey.1
  return [.put (accessName wrappingKey) (encodeLocalBytes encoded),
      .put DATA_KEY_PRESENT_DB_KEY (encodeLocalBytes [1])] ++
    if preparedRotation = true then [.put ROTATION_DB_KEY (encodeLocalBytes (keyCheck wrappingKey).1)] else []

/-! ### Opening -/

inductive StoreOpenError where
  /-- The data key is present, and not for this phrase. -/
  | dataKeyUnavailable
  | noRandomness
  /-- The rows that are there belong to another key. -/
  | notAuthenticated
  | dataKeyNotPersisted
  | keyMismatch
  | corruptCheck
  | corruptRow
  | checkMissing
  | checkNotEncrypted
  | writeFailed
deriving DecidableEq, Repr

/-- What surrounds an opening: the bytes drawn for a new data key, the nonces, and the fates
    of the three writes. -/
structure OpenEnv where
  dataKey : Option (FixedBytes 32)
  accessNonce : Option (FixedBytes 12)
  checkNonce : Option (FixedBytes 12)
  accessFate : Fate
  checkFate : Fate
  retireFate : Fate

def writeOrThrow (rows : DatabaseRows) (batch : List (Edit Bytes Bytes)) (error : StoreOpenError) (fate : Fate) :
    Except StoreOpenError Unit × DatabaseRows :=
  (if fate = .done then .ok () else .error error, rows.write batch fate)

def opensCheck (account : AccountId) (rows : DatabaseRows) (dataKey : FixedBytes 32) : Bool :=
  match readBytes rows.find? CHECK_DB_KEY with
  | none => true
  | some check => decide (decryptRecord account dataKey CHECK_NAME check = some CHECK_VALUE)

/-- The data key of a database that has none yet: an existing `app.db` keeps the key it was
    encrypted with. -/
def newDataKey (file : StoreFile) (key : FixedBytes 32) (drawn : Option (FixedBytes 32)) : Option (FixedBytes 32) :=
  match file with
  | .app => some key
  | .local => drawn

def adoptDataKey (account : AccountId) (rows : DatabaseRows) (key dataKey : FixedBytes 32) (env : OpenEnv) :
    Except StoreOpenError (FixedBytes 32) × DatabaseRows :=
  if opensCheck account rows dataKey = false then (.error .notAuthenticated, rows)
  else
    match wrapKeyEdits account key dataKey false env.accessNonce with
    | none => (.error .dataKeyNotPersisted, rows)
    | some batch =>
      let (written, rows) := writeOrThrow rows batch .dataKeyNotPersisted env.accessFate
      (written.map fun _ => dataKey, rows)

def openDataKey (account : AccountId) (file : StoreFile) (rows : DatabaseRows) (key : FixedBytes 32)
    (env : OpenEnv) : Except StoreOpenError (FixedBytes 32) × DatabaseRows :=
  if (rows.find? DATA_KEY_PRESENT_DB_KEY).isSome = true then
    match unwrapKey account rows key with
    | none => (.error .dataKeyUnavailable, rows)
    | some dataKey => (.ok dataKey, rows)
  else
    match newDataKey file key env.dataKey with
    | none => (.error .noRandomness, rows)
    | some dataKey => adoptDataKey account rows key dataKey env

def openCheck (account : AccountId) (rows : DatabaseRows) (dataKey : FixedBytes 32) (env : OpenEnv) :
    Except StoreOpenError Unit × DatabaseRows :=
  match readBytes rows.find? CHECK_DB_KEY with
  | some check =>
    if decryptRecord account dataKey CHECK_NAME check = some CHECK_VALUE then (.ok (), rows)
    else (.error .keyMismatch, rows)
  | none =>
    if (rows.find? CHECK_DB_KEY).isSome = true then (.error .corruptCheck, rows)
    else
      match scanRows rows ROW_DB_PREFIX with
      | none => (.error .corruptRow, rows)
      | some names =>
        if names ≠ [] then (.error .checkMissing, rows)
        else
          match encryptRecord account dataKey env.checkNonce CHECK_NAME CHECK_VALUE with
          | none => (.error .checkNotEncrypted, rows)
          | some encoded =>
            writeOrThrow rows [.put CHECK_DB_KEY (encodeLocalBytes encoded)] .writeFailed env.checkFate

def retireAccess (rows : DatabaseRows) (key : FixedBytes 32) (env : OpenEnv) :
    Except StoreOpenError Unit × DatabaseRows :=
  if readBytes rows.find? ROTATION_DB_KEY = some (keyCheck key).1 then
    match scanRows rows ACCESS_DB_PREFIX with
    | none => (.error .corruptRow, rows)
    | some names =>
      writeOrThrow rows ((names.filter fun name => decide (name ≠ accessName key)).map .erase ++ [.erase ROTATION_DB_KEY])
        .writeFailed env.retireFate
  else (.ok (), rows)

def openWithDataKey (account : AccountId) (rows : DatabaseRows) (key dataKey : FixedBytes 32) (env : OpenEnv) :
    Except StoreOpenError (FixedBytes 32) × DatabaseRows :=
  match openCheck account rows dataKey env with
  | (.error e, rows) => (.error e, rows)
  | (.ok (), rows) =>
    match retireAccess rows key env with
    | (.error e, rows) => (.error e, rows)
    | (.ok (), rows) => (.ok (keyCheck dataKey), rows)

/-- The constructor, with `preserve_data_key`; the result is `m_key_check`. -/
def openStore (account : AccountId) (file : StoreFile) (rows : DatabaseRows) (phrase : RecoveryEntropy)
    (env : OpenEnv) : Except StoreOpenError (FixedBytes 32) × DatabaseRows :=
  let key := deriveApplicationStoreKey account phrase
  match openDataKey account file rows key env with
  | (.error e, rows) => (.error e, rows)
  | (.ok dataKey, rows) => openWithDataKey account rows key dataKey env

/-- The constructor without `preserve_data_key`, as an older version called it. -/
def openLegacyStore (account : AccountId) (rows : DatabaseRows) (phrase : RecoveryEntropy) (env : OpenEnv) :
    Except StoreOpenError (FixedBytes 32) × DatabaseRows :=
  let key := deriveApplicationStoreKey account phrase
  match openCheck account rows key env with
  | (.error e, rows) => (.error e, rows)
  | (.ok (), rows) => (.ok (keyCheck key), rows)

/-! ### Calls on an open store -/

def accessKey (account : AccountId) (rows : DatabaseRows) (check : FixedBytes 32) (current : Option RecoveryEntropy) :
    Option (FixedBytes 32) := do
  let phrase ← current
  let dataKey ← unwrapKey account rows (deriveApplicationStoreKey account phrase)
  if keyCheck dataKey = check then some dataKey else none

/-- The batch of `PrepareKeyRotation`; `loadable` says whether a keystore takes the phrase. -/
def prepareKeyRotationEdits (account : AccountId) (rows : DatabaseRows) (check : FixedBytes 32)
    (current : Option RecoveryEntropy) (entropy : RecoveryEntropy) (loadable : Bool) (nonce : Option (FixedBytes 12)) :
    Option (List (Edit Bytes Bytes)) := do
  let dataKey ← accessKey account rows check current
  if isZero entropy.1 = true ∨ loadable = false then none
  else wrapKeyEdits account (deriveApplicationStoreKey account entropy) dataKey true nonce

def recordsUnder (account : AccountId) (rows : DatabaseRows) (dataKey : FixedBytes 32) : SealedStore where
  account
  key := dataKey
  rows := rows.find?
  staged := none
  stagedFailed := false

/-- The batch of `Put`, `Erase` and `WriteBatch`. -/
def recordEdits (account : AccountId) (rows : DatabaseRows) (check : FixedBytes 32) (current : Option RecoveryEntropy)
    (changes : List (Bytes × Option Bytes)) (env : StoreEnv) : Option (List (Edit Bytes Bytes)) := do
  let dataKey ← accessKey account rows check current
  (recordsUnder account rows dataKey).batchEdits env 0 changes

/-! ### Sequences of calls -/

/-- A database, the store that is open on it, and what has happened: the phrases that are
    known to the user, the newest first, and the one whose rotation was made durable last. -/
structure RotationState where
  rows : DatabaseRows
  session : Option (FixedBytes 32)
  known : List RecoveryEntropy
  lastPrepared : Option RecoveryEntropy

/-- A database that no store is open on; only the first phrase is known. -/
def RotationState.initial (first : RecoveryEntropy) (rows : DatabaseRows) : RotationState where
  rows
  session := none
  known := [first]
  lastPrepared := none

inductive RotationCall where
  | open (phrase : RecoveryEntropy) (env : OpenEnv)
  /-- The destructor, or a crash between the calls. -/
  | close
  | prepare (current : Option RecoveryEntropy) (entropy : RecoveryEntropy) (loadable : Bool)
      (nonce : Option (FixedBytes 12)) (fate : Fate)
  | write (current : Option RecoveryEntropy) (changes : List (Bytes × Option Bytes)) (env : StoreEnv)

/-- One call; nothing where it cannot be made.  Only one store is open at a time, and it is
    opened under the first phrase or under one that was to be prepared. -/
def RotationState.step (account : AccountId) (file : StoreFile) (s : RotationState) :
    RotationCall → Option RotationState
  | .open phrase env =>
    if s.session.isSome = true ∨ phrase ∉ s.known then none
    else
      let (opened, rows) := openStore account file s.rows phrase env
      some { s with rows, session := opened.toOption }
  | .close => some { s with session := none }
  | .prepare current entropy loadable nonce fate =>
    s.session.map fun check =>
      match prepareKeyRotationEdits account s.rows check current entropy loadable nonce with
      | none => { s with known := entropy :: s.known }
      | some batch =>
        { s with
          rows := s.rows.write batch fate
          known := entropy :: s.known
          lastPrepared := if fate = .lost then s.lastPrepared else some entropy }
  | .write current changes env =>
    s.session.map fun check =>
      match recordEdits account s.rows check current changes env with
      | none => s
      | some batch => { s with rows := s.rows.write batch env.fate }

/-- `Get`, with the phrase that the keystore holds for the account. -/
def RotationState.get (account : AccountId) (s : RotationState) (current : Option RecoveryEntropy) (name : Bytes) :
    Option Bytes := do
  let check ← s.session
  let dataKey ← accessKey account s.rows check current
  (recordsUnder account s.rows dataKey).storedValue name

def RotationState.run (account : AccountId) (file : StoreFile) (s : RotationState) :
    List RotationCall → Option RotationState
  | [] => some s
  | call :: calls => (s.step account file call).bind fun s => run account file s calls

end

end Cybou
