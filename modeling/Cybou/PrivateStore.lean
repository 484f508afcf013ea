import Cybou.KvStore
import Cybou.EncryptedChunk

/-! # The encrypted application database and its nested batches (`private_application_store.cpp`)

A record is sealed under its name and kept in a row whose key is a MAC of the name.
While a `Batch` object is alive, changes go to one staged map that all batches share:
an inner batch keeps a copy of it to go back to, and the outermost one writes it.
The objects are kept on a stack, the newest first; the mutex of the store makes this
the only order in which one thread can use them.
-/

namespace Cybou

open Library

/-! ### The store by name -/

def MAX_NAME_BYTES : Nat := 512

def MAX_VALUE_BYTES : Nat := 4 * 1024 * 1024

def CHECK_NAME : Bytes := ascii "__application_store_check__"

inductive ApplicationRow where
  | unreadable
  | value (bytes : Bytes)
deriving DecidableEq, Repr

/-- The rows by name, and whether the identity that owns them is unlocked. -/
structure PrivateApplicationStore where
  unlocked : Bool
  rows : Store Bytes ApplicationRow

namespace PrivateApplicationStore

/-- The names `RecordKey` and `Put` take. -/
def usable (name : Bytes) : Bool :=
  decide (name ≠ []) && decide (name.length ≤ MAX_NAME_BYTES) && decide (name ≠ CHECK_NAME)

def get (db : PrivateApplicationStore) (name : Bytes) : Option Bytes :=
  if (db.unlocked && usable name) = true then
    match db.rows name with
    | some (.value bytes) => some bytes
    | _ => none
  else none

def has (db : PrivateApplicationStore) (name : Bytes) : Bool :=
  db.unlocked && usable name && (db.rows name).isSome

/-- `Put` inside a batch: is the change staged? -/
def canPut (db : PrivateApplicationStore) (name plaintext : Bytes) : Bool :=
  usable name && decide (plaintext.length ≤ MAX_VALUE_BYTES) && db.unlocked

end PrivateApplicationStore

theorem prefix_ne {p q a b : Bytes} (n : Nat) (hp : n ≤ p.length) (hq : n ≤ q.length)
    (h : p.take n ≠ q.take n) : p ++ a ≠ q ++ b := by
  intro heq
  have htake := congrArg (List.take n) heq
  rw [List.take_append_of_le_length hp, List.take_append_of_le_length hq] at htake
  exact h htake

theorem usable_of_length {p rest : Bytes} (hp : 0 < p.length) (hstart : p.take 1 ≠ CHECK_NAME.take 1)
    (hlen : (p ++ rest).length ≤ MAX_NAME_BYTES) : PrivateApplicationStore.usable (p ++ rest) = true := by
  have hne : p ++ rest ≠ CHECK_NAME := by
    have hprefix : p ++ rest ≠ CHECK_NAME ++ [] := prefix_ne 1 hp (by decide) hstart
    rwa [List.append_nil] at hprefix
  have hnonempty : p ++ rest ≠ [] := by
    intro hnil
    rw [(List.append_eq_nil_iff.mp hnil).1] at hp
    exact absurd hp (by decide)
  simp only [PrivateApplicationStore.usable, Bool.and_eq_true, decide_eq_true_eq]
  exact ⟨⟨hnonempty, hlen⟩, hne⟩

/-! ### The sealed store -/

def ROW_DB_PREFIX : Bytes := ascii "app/row/"

def RECORD_DOMAIN : Bytes := ascii "CYBOU/LOCAL-APPLICATION-STORE/record/"

/-- What the application database asks of OpenSSL. -/
class RecordCipher extends ChunkCipher where
  /-- HMAC-SHA-256. -/
  hmacSha256 : FixedBytes 32 → Bytes → FixedBytes 32

@[reducible] def RecordCipher.sample : RecordCipher where
  toChunkCipher := ChunkCipher.sample
  hmacSha256 _ data := Crypto.sample.blake3 data

/-- What surrounds a call: whether the keystore is unlocked for the Identity of the store,
    the nonces that are drawn (nothing where `RAND_bytes` fails), and the fate of a write. -/
structure StoreEnv where
  unlocked : Bool
  nonce : Nat → Option (FixedBytes 12)
  fate : Fate

/-- `std::map<std::string, std::optional<std::vector<unsigned char>>>`. -/
abbrev StagedChanges := OrdMap Bytes (Option Bytes)

/-- `PrivateApplicationStore` with its ciphertexts and its staged map.  `AccessKey` hands out
    a key only when it is the one the store was opened with, so the key is a field and the
    environment says whether it is handed out. -/
structure SealedStore where
  account : AccountId
  key : FixedBytes 32
  rows : Store Bytes Bytes
  staged : Option StagedChanges
  stagedFailed : Bool

structure PrivateApplicationStore.Batch where
  outermost : Bool
  done : Bool
  savepoint : StagedChanges
  savepointFailed : Bool

section

variable [RecordCipher]

/-! ### Records -/

def associatedData (account : AccountId) (name : Bytes) : Bytes := RECORD_DOMAIN ++ account.1 ++ name

def recordKey (account : AccountId) (key : FixedBytes 32) (name : Bytes) : Option Bytes :=
  if name = [] ∨ name.length > MAX_NAME_BYTES ∨ name = CHECK_NAME then none
  else some (ROW_DB_PREFIX ++ hex (RecordCipher.hmacSha256 key (associatedData account name)).1)

/-- `Encrypt`. -/
def encryptRecord (account : AccountId) (key : FixedBytes 32) (nonce : Option (FixedBytes 12))
    (name plaintext : Bytes) : Option Bytes :=
  if plaintext.length > MAX_VALUE_BYTES then none
  else nonce.map fun nonce =>
    nonce.1 ++ ChunkCipher.encrypt key nonce (associatedData account name) plaintext

/-- `Decrypt`. -/
def decryptRecord (account : AccountId) (key : FixedBytes 32) (name encoded : Bytes) : Option Bytes :=
  if encoded.length < CHACHA20_POLY1305_NONCE_SIZE + CHACHA20_POLY1305_TAG_SIZE ∨
      encoded.length > CHACHA20_POLY1305_NONCE_SIZE + MAX_VALUE_BYTES + CHACHA20_POLY1305_TAG_SIZE then none
  else do
    let (nonce, sealed) ← Reader.fixed 12 encoded
    ChunkCipher.decrypt key nonce (associatedData account name) sealed

namespace SealedStore

def storedValue (store : SealedStore) (name : Bytes) : Option Bytes := do
  let record ← recordKey store.account store.key name
  let encoded ← readBytes store.rows record
  decryptRecord store.account store.key name encoded

def storedRow (store : SealedStore) (name : Bytes) : Bool :=
  match recordKey store.account store.key name with
  | none => false
  | some record => (store.rows record).isSome

def byName (store : SealedStore) (unlocked : Bool) : PrivateApplicationStore where
  unlocked
  rows name :=
    if store.storedRow name = true then
      match store.storedValue name with
      | none => some .unreadable
      | some value => some (.value value)
    else none

/-! ### Single calls -/

def put (store : SealedStore) (name plaintext : Bytes) (env : StoreEnv) :
    Bool × SealedStore :=
  match store.staged with
  | some staged =>
    if name = [] ∨ name.length > MAX_NAME_BYTES ∨ name = CHECK_NAME ∨
        plaintext.length > MAX_VALUE_BYTES ∨ env.unlocked = false then
      (false, { store with stagedFailed := true })
    else (true, { store with staged := some (staged.set name (some plaintext)) })
  | none =>
    if env.unlocked = false then (false, store)
    else
      match recordKey store.account store.key name with
      | none => (false, store)
      | some record =>
        match encryptRecord store.account store.key (env.nonce 0) name plaintext with
        | none => (false, store)
        | some encoded =>
          (decide (env.fate = .done),
            { store with rows := store.rows.write [.put record (encodeLocalBytes encoded)] env.fate })

def get (store : SealedStore) (name : Bytes) (unlocked : Bool) : Option Bytes :=
  match store.staged.bind fun staged => staged.find? name with
  | some value => value
  | none => if unlocked = false then none else store.storedValue name

def has (store : SealedStore) (name : Bytes) (unlocked : Bool) : Bool :=
  match store.staged.bind fun staged => staged.find? name with
  | some value => value.isSome
  | none => if unlocked = false then false else store.storedRow name

def erase (store : SealedStore) (name : Bytes) (env : StoreEnv) :
    Bool × SealedStore :=
  match store.staged with
  | some staged => (true, { store with staged := some (staged.set name none) })
  | none =>
    if env.unlocked = false then (false, store)
    else
      match recordKey store.account store.key name with
      | none => (false, store)
      | some record =>
        (decide (env.fate = .done), { store with rows := store.rows.write [.erase record] env.fate })

/-- The loop of `WriteBatch`; `draw` counts the records that were encrypted. -/
def batchEdits (store : SealedStore) (env : StoreEnv) :
    Nat → List (Bytes × Option Bytes) → Option (List (Edit Bytes Bytes))
  | _, [] => some []
  | draw, (name, value) :: changes => do
    let record ← recordKey store.account store.key name
    match value with
    | none =>
      let edits ← batchEdits store env draw changes
      return .erase record :: edits
    | some plaintext =>
      let encoded ← encryptRecord store.account store.key (env.nonce draw) name plaintext
      let edits ← batchEdits store env (draw + 1) changes
      return .put record (encodeLocalBytes encoded) :: edits

def writeBatch (store : SealedStore) (changes : List (Bytes × Option Bytes)) (env : StoreEnv) :
    Bool × SealedStore :=
  if env.unlocked = false then (false, store)
  else
    match store.batchEdits env 0 changes with
    | none => (false, store)
    | some edits =>
      (decide (env.fate = .done), { store with rows := store.rows.write edits env.fate })

/-! ### Batches -/

/-- `Batch::Batch`. -/
def construct (store : SealedStore) : PrivateApplicationStore.Batch × SealedStore :=
  match store.staged with
  | none =>
    ({ outermost := true, done := false, savepoint := ∅, savepointFailed := false },
      { store with staged := some ∅, stagedFailed := false })
  | some staged =>
    ({ outermost := false, done := false, savepoint := staged, savepointFailed := store.stagedFailed },
      store)

/-- `Batch::RollBack`.  The source writes through the optional, which must hold a map;
    `staged` stays empty here where it does not. -/
def rollBack (store : SealedStore) (batch : PrivateApplicationStore.Batch) : SealedStore :=
  { store with
    staged := store.staged.map fun _ => batch.savepoint
    stagedFailed := batch.savepointFailed }

/-- `Batch::~Batch`. -/
def destroy (store : SealedStore) (batch : PrivateApplicationStore.Batch) : SealedStore :=
  if batch.outermost = true ∧ store.staged.isSome = true then { store with staged := none }
  else if batch.outermost = false ∧ batch.done = false ∧ store.staged.isSome = true then
    store.rollBack batch
  else store

def commit (store : SealedStore) (batch : PrivateApplicationStore.Batch) (env : StoreEnv) :
    Bool × PrivateApplicationStore.Batch × SealedStore :=
  if batch.done = true then (false, batch, store)
  else
    let batch := { batch with done := true }
    if batch.outermost = false then
      if store.stagedFailed = false then (true, batch, store)
      else (false, { batch with savepoint := ∅ }, store.rollBack batch)
    else
      let changes := (store.staged.getD ∅).entries
      let cleared := { store with staged := none }
      if store.stagedFailed = true then (false, batch, cleared)
      else
        let (ok, written) := cleared.writeBatch changes env
        (ok, batch, written)

end SealedStore

/-! ### Sequences of calls -/

structure BatchObject where
  serial : Nat
  batch : PrivateApplicationStore.Batch

/-- A store and the batch objects that are alive, the newest first. -/
structure StoreSession where
  store : SealedStore
  batches : List BatchObject
  /-- How many batches were constructed. -/
  constructed : Nat

inductive StoreCall where
  | construct
  /-- `Commit` of the object with this many newer ones. -/
  | commit (newer : Nat) (env : StoreEnv)
  | destroy
  | put (name plaintext : Bytes) (env : StoreEnv)
  | get (name : Bytes) (unlocked : Bool)
  | has (name : Bytes) (unlocked : Bool)
  | erase (name : Bytes) (env : StoreEnv)

inductive StoreAnswer where
  | nothing
  | flag (ok : Bool)
  | value (value : Option Bytes)
deriving DecidableEq

namespace StoreSession

/-- One call; nothing where the sequence is not well nested: an object is destroyed after
    the newer ones, and committed when every newer one is finished. -/
def step (s : StoreSession) : StoreCall → Option (StoreAnswer × StoreSession)
  | .construct =>
    let (batch, store) := s.store.construct
    some (.nothing, { store, batches := ⟨s.constructed, batch⟩ :: s.batches, constructed := s.constructed + 1 })
  | .commit newer env =>
    match s.batches[newer]? with
    | none => none
    | some object =>
      if (s.batches.take newer).all (fun other => other.batch.done) = false then none
      else
        let (ok, batch, store) := s.store.commit object.batch env
        some (.flag ok, { s with store, batches := s.batches.set newer { object with batch } })
  | .destroy =>
    match s.batches with
    | [] => none
    | object :: older => some (.nothing, { s with store := s.store.destroy object.batch, batches := older })
  | .put name plaintext env =>
    let (ok, store) := s.store.put name plaintext env
    some (.flag ok, { s with store })
  | .get name unlocked => some (.value (s.store.get name unlocked), s)
  | .has name unlocked => some (.flag (s.store.has name unlocked), s)
  | .erase name env =>
    let (ok, store) := s.store.erase name env
    some (.flag ok, { s with store })

inductive Run (start : StoreSession) : List (StoreCall × StoreAnswer) → StoreSession → Prop where
  | refl : Run start [] start
  | step {history : List (StoreCall × StoreAnswer)} {s s' : StoreSession} {call : StoreCall}
      {answer : StoreAnswer} (before : Run start history s) (h : s.step call = some (answer, s')) :
      Run start (history ++ [(call, answer)]) s'

end StoreSession

end

end Cybou
