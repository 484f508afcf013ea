import Cybou.Identity
import Cybou.Library.Store

/-! # The container of local secrets (`identity_vault.cpp`, `identity_material.cpp`)

A random key encrypts the payload and is itself encrypted under a key that is derived
from the password.  Derivation and cipher are OpenSSL's and stay parameters
(`VaultCipher`), of which only that decryption undoes encryption under the same key is
a law.  That a container does not open under another password is no law of theirs: it is
asked of the two passwords and the draws concerned (`Vault.KeysApart`).
-/

namespace Cybou

open Library

namespace Vault

def TAG_SIZE : Nat := 16
def HEADER_SIZE : Nat := 60
def WRAPPED_DEK_SIZE : Nat := 48
def MAX_PAYLOAD : Nat := 65536
def MAX_ENVELOPE : Nat := HEADER_SIZE + WRAPPED_DEK_SIZE + MAX_PAYLOAD + TAG_SIZE
def MEMCOST : UInt32 := 65536
def ITERATIONS : UInt32 := 3
def LANES : UInt32 := 1

end Vault

/-! ### What the container asks of OpenSSL -/

open Vault in
/-- Every call may fail. -/
class VaultCipher extends Crypto where
  /-- Argon2id of password and salt, at the costs of the format. -/
  argon2id : Bytes → FixedBytes 16 → Option (FixedBytes 32)
  /-- AES-256-GCM of key, nonce, associated data and plaintext: ciphertext and tag. -/
  encryptGcm : FixedBytes 32 → FixedBytes 12 → Bytes → Bytes → Option Bytes
  decryptGcm : FixedBytes 32 → FixedBytes 12 → Bytes → Bytes → Option Bytes
  length_encryptGcm : ∀ key nonce aad plaintext ciphertext, encryptGcm key nonce aad plaintext = some ciphertext →
    ciphertext.length = plaintext.length + TAG_SIZE
  decryptGcm_encryptGcm : ∀ key nonce aad plaintext ciphertext, encryptGcm key nonce aad plaintext = some ciphertext →
    decryptGcm key nonce aad ciphertext = some plaintext
  deriveIdentityPublicKey : FixedBytes 32 → IdentityKeyPurpose → Option IdentityHybridPublicKey
  deriveIdentityXWingSeed : FixedBytes 32 → Option (FixedBytes 32)
  validateXWingKeyPair : FixedBytes 32 → Bool

open Vault in
/-- A cipher to evaluate the model with: the key is the password, the tag is half of the key. -/
@[reducible] def VaultCipher.sample : VaultCipher where
  toCrypto := Crypto.sample
  argon2id password _ := some ⟨(password ++ List.replicate 32 0).take 32, by simp⟩
  encryptGcm key _ _ plaintext := some (plaintext ++ key.1.take TAG_SIZE)
  decryptGcm key _ _ ciphertext :=
    if ciphertext.drop (ciphertext.length - TAG_SIZE) = key.1.take TAG_SIZE then
      some (ciphertext.take (ciphertext.length - TAG_SIZE))
    else none
  length_encryptGcm key _ _ plaintext ciphertext h := by
    have hkey : (key.1.take TAG_SIZE).length = TAG_SIZE := by rw [List.length_take, key.2]; rfl
    rw [← Option.some.inj h, List.length_append, hkey]
  decryptGcm_encryptGcm key _ _ plaintext ciphertext h := by
    have hkey : (key.1.take TAG_SIZE).length = TAG_SIZE := by rw [List.length_take, key.2]; rfl
    rw [← Option.some.inj h, List.length_append, hkey, Nat.add_sub_cancel, List.drop_left, List.take_left, if_pos rfl]
  deriveIdentityPublicKey entropy purpose := some { purpose, ed25519 := entropy, mlDsa := [] }
  deriveIdentityXWingSeed entropy := some entropy
  validateXWingKeyPair _ := true

/-! ### The container -/

namespace Vault

structure Header where
  memcost : UInt32
  iterations : UInt32
  lanes : UInt32
  salt : FixedBytes 16
  wrapNonce : FixedBytes 12
  payloadNonce : FixedBytes 12
  length : UInt32

def Header.write (header : Header) : Bytes :=
  ascii "CYBV" ++ (le32 header.memcost ++ (le32 header.iterations ++ (le32 header.lanes ++ (header.salt.1 ++
    (header.wrapNonce.1 ++ (header.payloadNonce.1 ++ le32 header.length))))))

/-- The fields at their offsets, the wrapped key and the encrypted payload. -/
def read : Reader (Header × Bytes × Bytes) := do
  Reader.literal (ascii "CYBV")
  let memcost ← Reader.u32
  let iterations ← Reader.u32
  let lanes ← Reader.u32
  let salt ← Reader.fixed 16
  let wrapNonce ← Reader.fixed 12
  let payloadNonce ← Reader.fixed 12
  let length ← Reader.u32
  let wrapped ← Reader.bytes WRAPPED_DEK_SIZE
  let encrypted ← Reader.rest
  return ({ memcost, iterations, lanes, salt, wrapNonce, payloadNonce, length }, wrapped, encrypted)

theorem Header.length_write (header : Header) : header.write.length = HEADER_SIZE := by
  simp only [write, List.length_append, length_le32, header.salt.2, header.wrapNonce.2, header.payloadNonce.2]
  rfl

theorem read_write (header : Header) {wrapped : Bytes} (h : wrapped.length = WRAPPED_DEK_SIZE)
    (encrypted : Bytes) : read.whole (header.write ++ (wrapped ++ encrypted)) = some (header, wrapped, encrypted) := by
  rw [Reader.whole_eq_some, read]
  simp only [Header.write, List.append_assoc]
  rw [Reader.literal_bind_append, Reader.u32_exact.bind_append trivial, Reader.u32_exact.bind_append trivial,
    Reader.u32_exact.bind_append trivial, (Reader.fixed_exact 16).bind_append trivial,
    (Reader.fixed_exact 12).bind_append trivial, (Reader.fixed_exact 12).bind_append trivial,
    Reader.u32_exact.bind_append trivial]
  exact (Reader.bytes_exact WRAPPED_DEK_SIZE).bind_append (a := wrapped) h _ _

/-- What `SealIdentityVault` draws from `RAND_bytes`. -/
structure Random where
  salt : FixedBytes 16
  wrapNonce : FixedBytes 12
  payloadNonce : FixedBytes 12
  dek : FixedBytes 32

def Random.header (r : Random) (length : UInt32) : Header where
  memcost := MEMCOST
  iterations := ITERATIONS
  lanes := LANES
  salt := r.salt
  wrapNonce := r.wrapNonce
  payloadNonce := r.payloadNonce
  length := length

section

variable [VaultCipher]

def deriveKek (password : Bytes) (salt : FixedBytes 16) (memcost iterations lanes : UInt32) :
    Option (FixedBytes 32) :=
  if password.length < 12 ∨ password.length > 1024 ∨ memcost ≠ MEMCOST ∨ iterations ≠ ITERATIONS ∨ lanes ≠ LANES then
    none
  else VaultCipher.argon2id password salt

def encrypt (key : FixedBytes 32) (nonce : FixedBytes 12) (aad plaintext : Bytes) : Option Bytes :=
  if plaintext.length > MAX_PAYLOAD then none else VaultCipher.encryptGcm key nonce aad plaintext

def decrypt (key : FixedBytes 32) (nonce : FixedBytes 12) (aad ciphertext : Bytes) : Option Bytes :=
  if ciphertext.length < TAG_SIZE ∨ ciphertext.length > MAX_PAYLOAD + TAG_SIZE then none
  else VaultCipher.decryptGcm key nonce aad ciphertext

/-- What is drawn for `password` does not open under `other`: the key that the one wraps
    does not authenticate under the key that the other derives. -/
def KeysApart (password other : Bytes) (r : Random) : Prop :=
  password ≠ other → ∀ kek kek' length wrapped,
    VaultCipher.argon2id password r.salt = some kek → VaultCipher.argon2id other r.salt = some kek' →
      VaultCipher.encryptGcm kek r.wrapNonce (r.header length).write r.dek.1 = some wrapped →
        VaultCipher.decryptGcm kek' r.wrapNonce (r.header length).write wrapped = none

end

end Vault

section

variable [VaultCipher]

open Vault

/-- `none` stands for a failure of `RAND_bytes`. -/
def sealIdentityVault (password payload : Bytes) (random : Option Random) : Option Bytes :=
  if payload = [] ∨ payload.length > MAX_PAYLOAD then none
  else do
    let r ← random
    let header := r.header (UInt32.ofNat payload.length)
    let kek ← deriveKek password r.salt MEMCOST ITERATIONS LANES
    let wrapped ← encrypt kek r.wrapNonce header.write r.dek.1
    let encrypted ← encrypt r.dek r.payloadNonce header.write payload
    if wrapped.length ≠ WRAPPED_DEK_SIZE then none else some (header.write ++ (wrapped ++ encrypted))

def openIdentityVault (password envelope : Bytes) : Option Bytes :=
  if envelope.length < HEADER_SIZE + WRAPPED_DEK_SIZE + TAG_SIZE then none
  else do
    let (header, wrapped, encrypted) ← Vault.read.whole envelope
    if header.length = 0 ∨ header.length.toNat > MAX_PAYLOAD ∨ encrypted.length ≠ header.length.toNat + TAG_SIZE then
      none
    else
      let kek ← deriveKek password header.salt header.memcost header.iterations header.lanes
      let aad := envelope.take HEADER_SIZE
      let dek ← decrypt kek header.wrapNonce aad wrapped
      let dek ← (Reader.fixed 32).whole dek
      decrypt dek header.payloadNonce aad encrypted

def loadIdentityVault (password file : Bytes) : Option Bytes :=
  if file = [] ∨ file.length > MAX_ENVELOPE then none else openIdentityVault password file

def saveNewIdentityVault (password payload : Bytes) (random : Option Random) (fate : Fate) : Bool × Option Bytes :=
  match sealIdentityVault password payload random with
  | none => (false, none)
  | some envelope =>
    match fate with
    | .lost => (false, none)
    | .stored => (false, some envelope)
    | .done => (decide (loadIdentityVault password envelope = some payload), some envelope)

/-! ### What was sealed opens again -/

variable {password payload envelope wrapped encrypted : Bytes} {random : Option Random}

theorem openIdentityVault_parts (header : Header) (hwrapped : wrapped.length = WRAPPED_DEK_SIZE)
    (hzero : header.length ≠ 0) (hmax : header.length.toNat ≤ MAX_PAYLOAD)
    (hencrypted : encrypted.length = header.length.toNat + TAG_SIZE) :
    openIdentityVault password (header.write ++ (wrapped ++ encrypted)) =
      (deriveKek password header.salt header.memcost header.iterations header.lanes).bind fun kek =>
        (decrypt kek header.wrapNonce header.write wrapped).bind fun dek =>
          ((Reader.fixed 32).whole dek).bind fun dek => decrypt dek header.payloadNonce header.write encrypted := by
  have hlength : ¬(header.write ++ (wrapped ++ encrypted)).length < HEADER_SIZE + WRAPPED_DEK_SIZE + TAG_SIZE := by
    rw [List.length_append, List.length_append, header.length_write, hwrapped, hencrypted]
    omega
  have haad : (header.write ++ (wrapped ++ encrypted)).take HEADER_SIZE = header.write := by
    rw [← header.length_write, List.take_left]
  have hfits : ¬(header.length = 0 ∨ header.length.toNat > MAX_PAYLOAD ∨
      encrypted.length ≠ header.length.toNat + TAG_SIZE) := by
    rintro (h | h | h)
    · exact hzero h
    · exact absurd hmax (Nat.not_le.mpr h)
    · exact h hencrypted
  rw [openIdentityVault, if_neg hlength, Vault.read_write header hwrapped, haad]
  simp only [Option.bind_eq_bind, Option.bind_some, if_neg hfits]

/-- What a container consists of. -/
theorem sealIdentityVault_eq_some (h : sealIdentityVault password payload random = some envelope) :
    ∃ r kek wrapped encrypted, random = some r ∧ payload ≠ [] ∧ payload.length ≤ MAX_PAYLOAD ∧
      deriveKek password r.salt MEMCOST ITERATIONS LANES = some kek ∧
      VaultCipher.encryptGcm kek r.wrapNonce (r.header (UInt32.ofNat payload.length)).write r.dek.1 = some wrapped ∧
      VaultCipher.encryptGcm r.dek r.payloadNonce (r.header (UInt32.ofNat payload.length)).write payload =
        some encrypted ∧
      envelope = (r.header (UInt32.ofNat payload.length)).write ++ (wrapped ++ encrypted) := by
  rw [sealIdentityVault, Option.ite_none_left_eq_some, not_or] at h
  obtain ⟨⟨hpayload, hmax⟩, h⟩ := h
  simp only [Option.bind_eq_bind, Option.bind_eq_some_iff, encrypt, Option.ite_none_left_eq_some] at h
  obtain ⟨r, hr, kek, hkek, wrapped, ⟨-, hwrapped⟩, encrypted, ⟨-, hencrypted⟩, -, henvelope⟩ := h
  exact ⟨r, kek, wrapped, encrypted, hr, hpayload, Nat.not_lt.mp hmax, hkek, hwrapped, hencrypted,
    (Option.some.inj henvelope).symm⟩

theorem decrypt_of_length {key : FixedBytes 32} {nonce : FixedBytes 12} {aad ciphertext : Bytes}
    (hmin : TAG_SIZE ≤ ciphertext.length) (hmax : ciphertext.length ≤ MAX_PAYLOAD + TAG_SIZE) :
    decrypt key nonce aad ciphertext = VaultCipher.decryptGcm key nonce aad ciphertext := by
  rw [decrypt, if_neg]
  omega

/-- A container is opened by its two decryptions, whatever the password. -/
theorem loadIdentityVault_sealed {r : Random} {kek : FixedBytes 32} (other : Bytes) (hpayload : payload ≠ [])
    (hmax : payload.length ≤ MAX_PAYLOAD)
    (hwrapped : VaultCipher.encryptGcm kek r.wrapNonce (r.header (UInt32.ofNat payload.length)).write r.dek.1 =
      some wrapped)
    (hencrypted : VaultCipher.encryptGcm r.dek r.payloadNonce (r.header (UInt32.ofNat payload.length)).write payload =
      some encrypted) :
    loadIdentityVault other ((r.header (UInt32.ofNat payload.length)).write ++ (wrapped ++ encrypted)) =
      (deriveKek other r.salt MEMCOST ITERATIONS LANES).bind fun kek' =>
        (VaultCipher.decryptGcm kek' r.wrapNonce (r.header (UInt32.ofNat payload.length)).write wrapped).bind fun dek =>
          ((Reader.fixed 32).whole dek).bind fun dek =>
            VaultCipher.decryptGcm dek r.payloadNonce (r.header (UInt32.ofNat payload.length)).write encrypted := by
  have hsize : MAX_ENVELOPE = HEADER_SIZE + WRAPPED_DEK_SIZE + MAX_PAYLOAD + TAG_SIZE := rfl
  have hheader : HEADER_SIZE = 60 := rfl
  have htag : TAG_SIZE ≤ WRAPPED_DEK_SIZE ∧ WRAPPED_DEK_SIZE ≤ MAX_PAYLOAD + TAG_SIZE := by decide
  have hlen : wrapped.length = WRAPPED_DEK_SIZE := by
    rw [VaultCipher.length_encryptGcm _ _ _ _ _ hwrapped, r.dek.2]
    rfl
  have hlen' := VaultCipher.length_encryptGcm _ _ _ _ _ hencrypted
  have hpos : 0 < payload.length := List.length_pos_of_ne_nil hpayload
  have hcount : (UInt32.ofNat payload.length).toNat = payload.length :=
    UInt32.toNat_ofNat_of_lt' (Nat.lt_of_le_of_lt hmax (by decide))
  have hnonzero : UInt32.ofNat payload.length ≠ 0 := by
    intro hzero
    rw [hzero] at hcount
    exact absurd hcount (Nat.ne_of_lt hpos)
  have hfile : ¬((r.header (UInt32.ofNat payload.length)).write ++ (wrapped ++ encrypted) = [] ∨
      ((r.header (UInt32.ofNat payload.length)).write ++ (wrapped ++ encrypted)).length > MAX_ENVELOPE) := by
    rw [← List.length_eq_zero_iff, List.length_append, List.length_append, Header.length_write, hlen, hlen', hsize]
    omega
  rw [loadIdentityVault, if_neg hfile,
    openIdentityVault_parts (r.header (UInt32.ofNat payload.length)) hlen hnonzero (hcount.trans_le hmax)
      (hlen'.trans (congrArg (· + TAG_SIZE) hcount.symm))]
  simp only [Random.header, decrypt_of_length (hlen ▸ htag.1) (hlen ▸ htag.2),
    decrypt_of_length (show TAG_SIZE ≤ encrypted.length by omega) (by omega)]

theorem loadIdentityVault_of_seal (h : sealIdentityVault password payload random = some envelope) :
    loadIdentityVault password envelope = some payload := by
  obtain ⟨r, kek, wrapped, encrypted, -, hpayload, hmax, hkek, hwrapped, hencrypted, rfl⟩ :=
    sealIdentityVault_eq_some h
  have hdek : (Reader.fixed 32).whole r.dek.1 = some r.dek := (Reader.fixed_exact 32).whole.mpr ⟨trivial, rfl⟩
  rw [loadIdentityVault_sealed password hpayload hmax hwrapped hencrypted, hkek, Option.bind_some,
    VaultCipher.decryptGcm_encryptGcm _ _ _ _ _ hwrapped, Option.bind_some, hdek, Option.bind_some,
    VaultCipher.decryptGcm_encryptGcm _ _ _ _ _ hencrypted]

theorem loadIdentityVault_apart {other : Bytes} (h : sealIdentityVault password payload random = some envelope)
    (happart : ∀ r, random = some r → KeysApart password other r) (hne : password ≠ other) :
    loadIdentityVault other envelope = none := by
  obtain ⟨r, kek, wrapped, encrypted, hr, hpayload, hmax, hkek, hwrapped, hencrypted, rfl⟩ :=
    sealIdentityVault_eq_some h
  rw [deriveKek, Option.ite_none_left_eq_some] at hkek
  rw [loadIdentityVault_sealed other hpayload hmax hwrapped hencrypted, deriveKek]
  split
  case isTrue => rfl
  case isFalse =>
    cases hkek' : VaultCipher.argon2id other r.salt with
    | none => rfl
    | some kek' =>
      rw [Option.bind_some, happart r hr hne kek kek' _ wrapped hkek.2 hkek' hwrapped]
      rfl

/-- A password that opens a file is of a length that a key is derived from. -/
theorem length_of_loadIdentityVault (h : loadIdentityVault password envelope = some payload) :
    12 ≤ password.length ∧ password.length ≤ 1024 := by
  rw [loadIdentityVault, Option.ite_none_left_eq_some, openIdentityVault, Option.ite_none_left_eq_some] at h
  simp only [Option.bind_eq_bind, Option.bind_eq_some_iff, Option.ite_none_left_eq_some, deriveKek] at h
  obtain ⟨-, -, _, -, -, _, ⟨hpassword, -⟩, -⟩ := h
  omega

theorem saveNewIdentityVault_eq (password payload : Bytes) (random : Option Random) (fate : Fate) :
    saveNewIdentityVault password payload random fate =
      (decide (fate = .done) && (sealIdentityVault password payload random).isSome,
        if fate = .lost then none else sealIdentityVault password payload random) := by
  rw [saveNewIdentityVault]
  cases hseal : sealIdentityVault password payload random with
  | none => simp
  | some envelope =>
    cases fate with
    | lost => rfl
    | stored => rfl
    | done => simp [loadIdentityVault_of_seal hseal]

/-! ### The material of an identity -/

structure IdentityMaterial where
  accountId : AccountId
  recoveryEntropy : FixedBytes 32
deriving DecidableEq

def derivedKeysValid (entropy : FixedBytes 32) : Bool :=
  !isZero entropy.1 && (VaultCipher.deriveIdentityPublicKey entropy .recoveryRoot).isSome &&
    (VaultCipher.deriveIdentityPublicKey entropy .authorization).isSome &&
      (VaultCipher.deriveIdentityXWingSeed entropy).any VaultCipher.validateXWingKeyPair

/-- `Parse`. -/
def IdentityMaterial.read : Reader IdentityMaterial := do
  Reader.literal (ascii "CYID")
  let accountId ← Reader.fixed 32
  let recoveryEntropy ← Reader.fixed 32
  Reader.require (isZero accountId.1 = false ∧ derivedKeysValid recoveryEntropy = true)
  return { accountId, recoveryEntropy }

def serializeIdentityMaterial (material : IdentityMaterial) : Option Bytes :=
  if isZero material.accountId.1 = true ∨ derivedKeysValid material.recoveryEntropy = false then none
  else some (ascii "CYID" ++ (material.accountId.1 ++ material.recoveryEntropy.1))

def loadIdentityMaterial (password file : Bytes) : Option IdentityMaterial :=
  (loadIdentityVault password file).bind IdentityMaterial.read.whole

end

end Cybou
