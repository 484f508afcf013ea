import Cybou.StateValidation
import Cybou.IdentityVault

/-! # The local half of a name claim (`name_service.cpp`)

`ClaimSync` seals the label and the salt of a commit in a file beside the vault of the
identity before it commits, and reads them back when it is called again.  Nothing takes
the file away: neither a lost race, nor an expired commit, nor success.  Later calls are
therefore bound to the label of the first one that got as far as the file
(`claim_commits_iff`).

A call is followed to the point where it hands its commit to the coordinator; what comes
after leaves the file alone.
-/

namespace Cybou

open Library

/-! ### The sealed file -/

structure ClaimSecret where
  label : Bytes
  salt : FixedBytes 32
deriving DecidableEq, Repr

/-- `MAGIC` of `name_service.cpp`. -/
def CLAIM_MAGIC : Bytes := ascii "CYNC"

/-- The payload of `SaveClaim`; the label is zero-padded to 32 bytes. -/
def encodeClaimSecret (network : Hash256) (account : AccountId) (claim : ClaimSecret) : Bytes :=
  CLAIM_MAGIC ++ (network.1 ++ (account.1 ++ ([UInt8.ofNat claim.label.length] ++ (claim.label ++
    (List.replicate (32 - claim.label.length) 0 ++ claim.salt.1)))))

/-- The checks of `LoadClaim`. -/
def readClaimSecret (network : Hash256) (account : AccountId) : Reader ClaimSecret := do
  Reader.literal CLAIM_MAGIC
  Reader.literal network.1
  Reader.literal account.1
  let size ← Reader.u8
  Reader.require (NAME_MIN_LABEL_LENGTH ≤ size.toNat ∧ size.toNat ≤ NAME_MAX_LABEL_LENGTH)
  let label ← Reader.bytes size.toNat
  let padding ← Reader.bytes (32 - size.toNat)
  let salt ← Reader.fixed 32
  Reader.require (validateNameLabel label = .none ∧ isZero padding = true ∧ isZero salt.1 = false)
  return { label, salt }

section

variable [VaultCipher]

def loadClaim (network : Hash256) (account : AccountId) (password file : Bytes) : Option ClaimSecret :=
  (loadIdentityVault password file).bind (readClaimSecret network account).whole

/-- `SaveClaim` where no file is; it may fail with the file in its place. -/
def saveClaim (network : Hash256) (account : AccountId) (password : Bytes) (claim : ClaimSecret)
    (random : Option Vault.Random) (fate : Fate) : Bool × Option Bytes :=
  let saved := saveNewIdentityVault password (encodeClaimSecret network account claim) random fate
  (saved.1 && decide (saved.2.bind (loadClaim network account password) = some claim), saved.2)

end

/-! ### The file read back -/

/-- What `LoadClaim` accepts. -/
structure ClaimSecret.Loadable (claim : ClaimSecret) : Prop where
  label : validateNameLabel claim.label = .none
  salt : isZero claim.salt.1 = false

variable {claim : ClaimSecret}

theorem ClaimSecret.Loadable.size (h : claim.Loadable) :
    NAME_MIN_LABEL_LENGTH ≤ claim.label.length ∧ claim.label.length ≤ NAME_MAX_LABEL_LENGTH := by
  apply length_of_validateNameLabel
  simp [wellFormedLabel, h.label]

theorem readClaimSecret_exact (network : Hash256) (account : AccountId) :
    Reader.Exact (readClaimSecret network account) (encodeClaimSecret network account) ClaimSecret.Loadable := by
  rintro b ⟨label, salt⟩ r
  have hmax : NAME_MAX_LABEL_LENGTH = 32 := rfl
  simp only [readClaimSecret, (Reader.literal_exact _).bind, Reader.u8_exact.bind, Reader.require_bind,
    Reader.bind_eq_some (p := Reader.bytes _), Reader.bytes_eq_some, (Reader.fixed_exact 32).bind,
    Reader.pure_eq_some, true_and, encodeClaimSecret]
  constructor
  · rintro ⟨-, _, rfl, -, _, rfl, -, _, rfl, size, _, rfl, hsize, _, _, ⟨hlabel, rfl⟩, padding, _, ⟨hpadding, rfl⟩,
      _, _, rfl, ⟨hvalid, hzero, hsalt⟩, heq, rfl⟩
    cases heq
    refine ⟨⟨hvalid, hsalt⟩, ?_⟩
    rw [isZero_iff, hpadding] at hzero
    rw [hlabel, UInt8.ofNat_toNat, hzero]
    simp
  · rintro ⟨hload, rfl⟩
    have hsize := hload.size
    simp only at hsize
    have hbyte : (UInt8.ofNat label.length).toNat = label.length := by
      rw [UInt8.toNat_ofNat']
      omega
    refine ⟨(), _, by simp only [List.append_assoc], (), _, rfl, (), _, rfl, UInt8.ofNat label.length, _, rfl,
      by rw [hbyte]; exact hsize, label, _, ⟨hbyte.symm, rfl⟩, List.replicate (32 - label.length) 0, _,
      ⟨by rw [hbyte, List.length_replicate], rfl⟩, salt, r, rfl, ⟨hload.label, ?_, hload.salt⟩, rfl, rfl⟩
    rw [isZero_iff, List.length_replicate]

theorem encodeClaimSecret_inj {network network' : Hash256} {account account' : AccountId} {claim' : ClaimSecret}
    (h : claim.Loadable) (h' : claim'.Loadable)
    (heq : encodeClaimSecret network account claim = encodeClaimSecret network' account' claim') :
    network = network' ∧ account = account' ∧ claim = claim' := by
  have hrest := List.append_cancel_left heq
  obtain ⟨hnetwork, hrest⟩ := List.append_inj hrest (network.2.trans network'.2.symm)
  obtain ⟨haccount, -⟩ := List.append_inj hrest (account.2.trans account'.2.symm)
  have hnet : network = network' := Subtype.ext hnetwork
  have hacc : account = account' := Subtype.ext haccount
  subst hnet hacc
  have hread := (readClaimSecret_exact network account).whole.mpr ⟨h, rfl⟩
  have hread' := (readClaimSecret_exact network account).whole.mpr ⟨h', heq⟩
  exact ⟨rfl, rfl, Option.some.inj (hread.symm.trans hread')⟩

section

variable [VaultCipher] {password file : Bytes} {random : Option Vault.Random}

/-- A file of one claim holds another one under its password exactly if they are the same. -/
theorem loadClaim_of_seal {network network' : Hash256} {account account' : AccountId} (hload : claim.Loadable)
    (hseal : sealIdentityVault password (encodeClaimSecret network account claim) random = some file)
    (claim' : ClaimSecret) :
    loadClaim network' account' password file = some claim' ↔
      network = network' ∧ account = account' ∧ claim' = claim := by
  rw [loadClaim, loadIdentityVault_of_seal hseal, Option.bind_some, (readClaimSecret_exact network' account').whole]
  constructor
  · rintro ⟨hload', hbytes⟩
    obtain ⟨hnetwork, haccount, hclaim⟩ := encodeClaimSecret_inj hload hload' hbytes
    exact ⟨hnetwork, haccount, hclaim.symm⟩
  · rintro ⟨rfl, rfl, rfl⟩
    exact ⟨hload, rfl⟩

theorem saveClaim_eq (network : Hash256) (account : AccountId) (hload : claim.Loadable) (fate : Fate) :
    saveClaim network account password claim random fate =
      (decide (fate = .done) && (sealIdentityVault password (encodeClaimSecret network account claim) random).isSome,
        if fate = .lost then none else sealIdentityVault password (encodeClaimSecret network account claim) random) := by
  rw [saveClaim, saveNewIdentityVault_eq]
  cases hseal : sealIdentityVault password (encodeClaimSecret network account claim) random with
  | none => simp
  | some file =>
    have hread := (loadClaim_of_seal hload hseal claim).mpr ⟨rfl, rfl, rfl⟩
    cases fate with
    | lost => rfl
    | stored => rfl
    | done => simp [hread]

end

/-! ### ClaimSync -/

/-- Where a call is when it turns to the coordinator. -/
inductive ClaimStart where
  | refused (message : String)
  | active
  /-- The commit is pending already. -/
  | awaits (claim : ClaimSecret)
  | commits (claim : ClaimSecret) (payload : NameCommitPayload)
deriving DecidableEq, Repr

section

variable [VaultCipher]

/-- The arguments of `ClaimSync`, and what it finds. -/
structure ClaimCall where
  label : Bytes
  password : Bytes
  /-- The identity that is unlocked. -/
  accountId : Option AccountId
  /-- The file of the identity. -/
  identityVault : Option Bytes
  network : Hash256
  /-- The finalized state. -/
  state : Option CybouState
  /-- `RAND_bytes`. -/
  salt : Option (FixedBytes 32)
  /-- What the container of the claim draws. -/
  random : Option Vault.Random
  /-- What becomes of the file. -/
  fate : Fate

/-- `ClaimSync` from the commitment on. -/
def commitName (call : ClaimCall) (account : AccountId) (s : CybouState) (claim : ClaimSecret) : ClaimStart :=
  let commitment := computeNameCommitment call.network account call.label claim.salt
  if s.names.pendingCommits.contains commitment = true then .awaits claim
  else if (s.names.pendingCommits.entries.any fun e => decide (e.2.accountId = account)) = true then
    .refused "Another name claim is pending for this account"
  else if computeNameCommitPayloadCommitment { commitment } = none then .refused "NameCommit commitment failed"
  else .commits claim { commitment }

def claimName (file : Option Bytes) (call : ClaimCall) (account : AccountId) (s : CybouState) :
    ClaimStart × Option Bytes :=
  match file with
  | some contents =>
    match loadClaim call.network account call.password contents with
    | none => (.refused "Existing encrypted name claim cannot be unlocked or differs", file)
    | some claim =>
      if claim.label ≠ call.label then
        (.refused "Existing encrypted name claim cannot be unlocked or differs", file)
      else (commitName call account s claim, file)
  | none =>
    if call.password.length < 12 then (.refused "Vault password must have at least 12 characters", none)
    else
      match call.salt with
      | none => (.refused "Cannot save encrypted name claim", none)
      | some salt =>
        if isZero salt.1 = true then (.refused "Cannot save encrypted name claim", none)
        else
          let claim : ClaimSecret := { label := call.label, salt }
          let saved := saveClaim call.network account call.password claim call.random call.fate
          if saved.1 = false then (.refused "Cannot save encrypted name claim", saved.2)
          else (commitName call account s claim, saved.2)

def ClaimCall.vaultAccount (call : ClaimCall) : Option AccountId :=
  (call.identityVault.bind (loadIdentityMaterial call.password)).map (·.accountId)

def claimSync (file : Option Bytes) (call : ClaimCall) : ClaimStart × Option Bytes :=
  if validateNameLabel call.label ≠ .none then (.refused "Invalid .cybou label", file)
  else
    match call.accountId with
    | none => (.refused "Unlock an identity first", file)
    | some account =>
      if call.vaultAccount ≠ some account then
        (.refused "Identity vault password is incorrect or vault does not match", file)
      else
        match call.state with
        | none => (.refused "Account is not finalized", file)
        | some s =>
          if s.accounts.contains account = false then (.refused "Account is not finalized", file)
          else
            match s.names.accountNames.find? account with
            | some owned =>
              (if owned = call.label then .active else .refused "Account already owns a name", file)
            | none =>
              if s.names.names.contains call.label = true then (.refused "Name is already owned", file)
              else claimName file call account s

def claimFileAfter (calls : List ClaimCall) : Option Bytes :=
  calls.foldl (fun file call => (claimSync file call).2) none

/-! ### What a call is for -/

/-- The account exists and owns no name, the label is free, and the password is that of the
    vault. -/
structure ClaimCall.Eligible (call : ClaimCall) (account : AccountId) (s : CybouState) : Prop where
  label : validateNameLabel call.label = .none
  unlocked : call.accountId = some account
  vault : call.vaultAccount = some account
  state : call.state = some s
  finalized : s.accounts.contains account = true
  unnamed : s.names.accountNames.find? account = none
  free : s.names.names.contains call.label = false

/-- The account has no commit pending either. -/
structure ClaimCall.Ready (call : ClaimCall) (account : AccountId) (s : CybouState) : Prop
    extends call.Eligible account s where
  idle : ∀ e ∈ s.names.pendingCommits.entries, e.2.accountId ≠ account

def claimFile (call : ClaimCall) (account : AccountId) (salt : FixedBytes 32) : Option Bytes :=
  sealIdentityVault call.password (encodeClaimSecret call.network account { label := call.label, salt }) call.random

structure ClaimCall.CanSave (call : ClaimCall) (account : AccountId) : Prop where
  salt : ∃ salt, call.salt = some salt ∧ isZero salt.1 = false ∧ (claimFile call account salt).isSome = true
  fate : call.fate = .done

def ClaimStart.Commits (start : ClaimStart) (call : ClaimCall) (account : AccountId) : Prop :=
  ∃ claim : ClaimSecret, claim.label = call.label ∧
    start = .commits claim
      { commitment := computeNameCommitment call.network account call.label claim.salt }

/-- Both are about one label, and read one file. -/
structure ClaimCall.SameClaim (first call : ClaimCall) : Prop where
  label : first.label = call.label
  password : first.password = call.password
  network : first.network = call.network
  account : first.accountId = call.accountId

def ClaimCall.leavesFile (call : ClaimCall) : Bool := (claimSync none call).2.isSome

/-- The call whose claim a call after these works with: the first one that left a file, or
    else the call itself. -/
def claimMaker (calls : List ClaimCall) (call : ClaimCall) : ClaimCall :=
  (calls.find? ClaimCall.leavesFile).getD call

/-- Nobody has the commitment pending that the salt of the maker gives. -/
def ClaimCall.Unused (maker call : ClaimCall) (account : AccountId) (s : CybouState) : Prop :=
  ∀ salt, maker.salt = some salt →
    s.names.pendingCommits.contains (computeNameCommitment call.network account call.label salt) = false

/-! ### One call -/

variable {call : ClaimCall} {account : AccountId}

theorem length_of_vaultAccount (h : call.vaultAccount = some account) : ¬call.password.length < 12 := by
  simp only [ClaimCall.vaultAccount, loadIdentityMaterial, Option.map_eq_some_iff, Option.bind_eq_some_iff] at h
  obtain ⟨_, ⟨_, -, _, hopen, -⟩, -⟩ := h
  exact Nat.not_lt.mpr (length_of_loadIdentityVault hopen).1

variable {s : CybouState}

theorem claimSync_of_eligible (h : call.Eligible account s) (file : Option Bytes) :
    claimSync file call = claimName file call account s := by
  rw [claimSync, if_neg (not_not.mpr h.label), h.unlocked]
  simp only
  rw [if_neg (not_not.mpr h.vault), h.state]
  simp only
  rw [if_neg (by rw [h.finalized]; decide), h.unnamed]
  simp only
  rw [if_neg (by rw [h.free]; decide)]

theorem eligible_or_unchanged (file : Option Bytes) (call : ClaimCall) :
    (∃ account s, call.Eligible account s) ∨ (claimSync file call).2 = file := by
  rw [claimSync]
  split
  case isTrue => exact .inr rfl
  case isFalse hlabel =>
    split
    case h_1 => exact .inr rfl
    case h_2 account hunlocked =>
      split
      case isTrue => exact .inr rfl
      case isFalse hvault =>
        split
        case h_1 => exact .inr rfl
        case h_2 s hstate =>
          split
          case isTrue => exact .inr rfl
          case isFalse hfinalized =>
            split
            case h_1 => exact .inr rfl
            case h_2 hunnamed =>
              split
              case isTrue => exact .inr rfl
              case isFalse hfree =>
                left
                exact ⟨account, s, not_not.mp hlabel, hunlocked, not_not.mp hvault, hstate,
                  Bool.not_eq_false _ ▸ hfinalized, hunnamed, Bool.not_eq_true _ ▸ hfree⟩

theorem claimSync_keeps_file (file : Bytes) (call : ClaimCall) :
    (claimSync (some file) call).2 = some file := by
  obtain ⟨account, s, h⟩ | h := eligible_or_unchanged (some file) call
  · rw [claimSync_of_eligible h, claimName]
    split
    case h_1 => rfl
    case h_2 => split <;> rfl
  · exact h

variable {salt : FixedBytes 32}

theorem claimName_new (h : call.Eligible account s) (hsalt : call.salt = some salt) (hzero : isZero salt.1 = false) :
    claimName none call account s =
      (if (decide (call.fate = .done) && (claimFile call account salt).isSome) = false then
          .refused "Cannot save encrypted name claim"
        else commitName call account s { label := call.label, salt },
        if call.fate = .lost then none else claimFile call account salt) := by
  have hload : ({ label := call.label, salt } : ClaimSecret).Loadable := ⟨h.label, hzero⟩
  simp only [claimName, if_neg (length_of_vaultAccount h.vault), hsalt, hzero, Bool.false_eq_true, if_false,
    saveClaim_eq call.network account hload call.fate]
  rw [← claimFile]
  split <;> rfl

theorem claimSync_makes_file {file : Bytes} (h : (claimSync none call).2 = some file) :
    ∃ account s salt, call.Eligible account s ∧ call.salt = some salt ∧ isZero salt.1 = false ∧
      claimFile call account salt = some file := by
  obtain ⟨account, s, helig⟩ | hsame := eligible_or_unchanged none call
  · rw [claimSync_of_eligible helig] at h
    cases hsalt : call.salt with
    | none =>
      simp only [claimName, hsalt] at h
      split at h <;> cases h
    | some salt =>
      cases hzero : isZero salt.1 with
      | true =>
        simp only [claimName, hsalt, hzero, if_true] at h
        split at h <;> cases h
      | false =>
        rw [claimName_new helig hsalt hzero] at h
        simp only [Option.ite_none_left_eq_some] at h
        exact ⟨account, s, salt, helig, rfl, hzero, h.2⟩
  · rw [hsame] at h
    cases h

theorem commitName_commits (h : call.Ready account s) (claim : ClaimSecret) :
    (commitName call account s claim).Commits call account ↔
      claim.label = call.label ∧
        s.names.pendingCommits.contains (computeNameCommitment call.network account call.label claim.salt) = false := by
  have hidle : (s.names.pendingCommits.entries.any fun e => decide (e.2.accountId = account)) = false := by
    rw [List.any_eq_false]
    intro e he
    rw [decide_eq_true_eq]
    exact h.idle e he
  have hcommitment : computeNameCommitPayloadCommitment
      { commitment := computeNameCommitment call.network account call.label claim.salt } ≠ none := by
    simp [computeNameCommitPayloadCommitment, serializeNameCommitPayload, computeNameCommitment,
      Crypto.sha256_ne_null]
  simp only [commitName, hidle, Bool.false_eq_true, if_false, if_neg hcommitment]
  constructor
  · rintro ⟨claim', hlabel, heq⟩
    split at heq
    case isTrue => cases heq
    case isFalse hunused =>
      cases heq
      exact ⟨hlabel, Bool.eq_false_iff.mpr hunused⟩
  · rintro ⟨hlabel, hunused⟩
    rw [hunused]
    exact ⟨claim, hlabel, rfl⟩

/-! ### The calls before -/

theorem foldl_claimSync_some (file : Bytes) (calls : List ClaimCall) :
    calls.foldl (fun file call => (claimSync file call).2) (some file) = some file := by
  induction calls with
  | nil => rfl
  | cons call calls ih => rw [List.foldl_cons, claimSync_keeps_file, ih]

/-- The file is the one of the first call that left one. -/
theorem claimFileAfter_eq (calls : List ClaimCall) :
    claimFileAfter calls = (calls.find? ClaimCall.leavesFile).bind fun first => (claimSync none first).2 := by
  induction calls with
  | nil => rfl
  | cons call calls ih =>
    rw [claimFileAfter, List.foldl_cons, List.find?_cons, ClaimCall.leavesFile]
    cases hfile : (claimSync none call).2 with
    | none => exact ih
    | some file =>
      rw [foldl_claimSync_some]
      exact hfile.symm

theorem loadClaim_claimFile {first : ClaimCall} {file : Bytes} (account' : AccountId) (claim : ClaimSecret)
    (hlabel : validateNameLabel first.label = .none) (hzero : isZero salt.1 = false)
    (hfile : claimFile first account salt = some file)
    (happart : ∀ r, first.random = some r → Vault.KeysApart first.password call.password r) :
    loadClaim call.network account' call.password file = some claim ↔
      first.password = call.password ∧ first.network = call.network ∧ account = account' ∧
        claim = { label := first.label, salt } := by
  by_cases hpassword : first.password = call.password
  · rw [← hpassword, loadClaim_of_seal ⟨hlabel, hzero⟩ hfile]
    simp only [true_and]
  · rw [loadClaim, loadIdentityVault_apart hfile happart hpassword]
    simp [hpassword]

/-- With the file of another call, a call commits if it is about the same claim, and is
    refused if it is not. -/
theorem claimName_file {first : ClaimCall} {account' : AccountId} {s' : CybouState} {file : Bytes}
    (hfirst : first.Eligible account s) (hzero : isZero salt.1 = false)
    (hfile : claimFile first account salt = some file)
    (happart : ∀ r, first.random = some r → Vault.KeysApart first.password call.password r)
    (h : call.Ready account' s') :
    ((claimName (some file) call account' s').1.Commits call account' ↔ first.SameClaim call ∧
        s'.names.pendingCommits.contains (computeNameCommitment call.network account' call.label salt) = false) ∧
      (¬first.SameClaim call → (claimName (some file) call account' s').1 =
        .refused "Existing encrypted name claim cannot be unlocked or differs") := by
  have hread (claim : ClaimSecret) := loadClaim_claimFile account' claim hfirst.label hzero hfile happart
  have hrefused (message : String) : ¬(ClaimStart.refused message).Commits call account' := by
    rintro ⟨_, -, heq⟩
    cases heq
  rw [claimName]
  cases hload : loadClaim call.network account' call.password file with
  | none =>
    have hother : ¬first.SameClaim call := by
      intro hsame
      have haccount : account = account' := by
        have heq := hsame.account
        rw [hfirst.unlocked, h.unlocked] at heq
        exact Option.some.inj heq
      rw [(hread _).mpr ⟨hsame.password, hsame.network, haccount, rfl⟩] at hload
      cases hload
    exact ⟨⟨fun hcommits => absurd hcommits (hrefused _), fun hsame => absurd hsame.1 hother⟩, fun _ => rfl⟩
  | some claim =>
    obtain ⟨hpassword, hnetwork, rfl, rfl⟩ := (hread claim).mp hload
    simp only
    split
    case isTrue hlabel =>
      exact ⟨⟨fun hcommits => absurd hcommits (hrefused _), fun hsame => absurd hsame.1.label hlabel⟩, fun _ => rfl⟩
    case isFalse hlabel =>
      have hsame : first.SameClaim call :=
        ⟨not_not.mp hlabel, hpassword, hnetwork, hfirst.unlocked.trans h.unlocked.symm⟩
      refine ⟨?_, fun hother => absurd hsame hother⟩
      rw [commitName_commits h]
      exact ⟨fun hcommits => ⟨hsame, hcommits.2⟩, fun hcommits => ⟨not_not.mp hlabel, hcommits.2⟩⟩

theorem claimName_none_refused (account : AccountId) (s : CybouState)
    (h : ∀ salt, call.salt = some salt → isZero salt.1 = true) :
    ∃ message, (claimName none call account s).1 = .refused message := by
  rw [claimName]
  split
  case isTrue => exact ⟨_, rfl⟩
  case isFalse =>
    split
    case h_1 => exact ⟨_, rfl⟩
    case h_2 salt hsalt =>
      rw [if_pos (h salt hsalt)]
      exact ⟨_, rfl⟩

/-- Without a claim file the commit needs a file that can be saved and an unused commitment. -/
theorem claimName_none_commits (h : call.Ready account s) :
    (claimName none call account s).1.Commits call account ↔ call.CanSave account ∧ call.Unused call account s := by
  have hrefused (message : String) : ¬(ClaimStart.refused message).Commits call account := by
    rintro ⟨_, -, heq⟩
    cases heq
  by_cases hsalt : ∃ salt, call.salt = some salt ∧ isZero salt.1 = false
  · obtain ⟨salt, hsalt, hzero⟩ := hsalt
    rw [claimName_new h.toEligible hsalt hzero]
    simp only
    split
    case isTrue hunsaved =>
      constructor
      · exact fun hcommits => absurd hcommits (hrefused _)
      · rintro ⟨⟨⟨salt', hsalt', -, hsealed⟩, hfate⟩, -⟩
        rw [hsalt] at hsalt'
        cases hsalt'
        simp [hsealed, hfate] at hunsaved
    case isFalse hsaved =>
      rw [Bool.not_eq_false, Bool.and_eq_true, decide_eq_true_eq] at hsaved
      rw [commitName_commits h]
      constructor
      · rintro ⟨-, hunused⟩
        refine ⟨⟨⟨salt, hsalt, hzero, hsaved.2⟩, hsaved.1⟩, fun salt' hsalt' => ?_⟩
        rw [hsalt] at hsalt'
        cases hsalt'
        exact hunused
      · rintro ⟨-, hunused⟩
        exact ⟨rfl, hunused salt hsalt⟩
  · constructor
    · intro hcommits
      obtain ⟨message, heq⟩ := claimName_none_refused account s fun salt hcall =>
        (Bool.not_eq_false _).mp fun hzero => hsalt ⟨salt, hcall, hzero⟩
      rw [heq] at hcommits
      exact absurd hcommits (hrefused message)
    · rintro ⟨⟨⟨salt, hcall, hzero, -⟩, -⟩, -⟩
      exact absurd ⟨salt, hcall, hzero⟩ hsalt

/-- What the first call that left a file says about a later one. -/
theorem claimSync_after_file {calls : List ClaimCall} {first : ClaimCall}
    (hfind : calls.find? ClaimCall.leavesFile = some first)
    (happart : ∀ first ∈ calls, ∀ r, first.random = some r → Vault.KeysApart first.password call.password r)
    (h : call.Ready account s) :
    claimFileAfter calls ≠ none ∧
      ((claimSync (claimFileAfter calls) call).1.Commits call account ↔
        first.SameClaim call ∧ first.Unused call account s) ∧
      (¬first.SameClaim call → (claimSync (claimFileAfter calls) call).1 =
        .refused "Existing encrypted name claim cannot be unlocked or differs") := by
  have hleaves : first.leavesFile = true := List.find?_some hfind
  obtain ⟨file, hmade⟩ := Option.isSome_iff_exists.mp hleaves
  obtain ⟨account', s', salt, hfirst, hsalt, hzero, hfile⟩ := claimSync_makes_file hmade
  have hafter : claimFileAfter calls = some file := by rw [claimFileAfter_eq, hfind, Option.bind_some, hmade]
  obtain ⟨hcommits, hrefused⟩ :=
    claimName_file hfirst hzero hfile (happart first (List.mem_of_find?_eq_some hfind)) h
  rw [claimSync_of_eligible h.toEligible, hafter]
  refine ⟨Option.some_ne_none file, ?_, hrefused⟩
  rw [hcommits]
  constructor
  · rintro ⟨hsame, hunused⟩
    refine ⟨hsame, fun salt' hsalt' => ?_⟩
    rw [hsalt] at hsalt'
    cases hsalt'
    exact hunused
  · rintro ⟨hsame, hunused⟩
    exact ⟨hsame, hunused salt hsalt⟩

/-- After any calls, a call for a free label that has the password of the vault commits to it
    exactly if the first call that left a file, or else the call itself, which must then be
    able to make one, was about the same label, password, network and account, and nobody
    has its commitment pending; with the file of a call about another one it is refused. -/
theorem claim_commits_iff (calls : List ClaimCall) (call : ClaimCall) (account : AccountId) (s : CybouState)
    (hready : call.Ready account s)
    (happart : ∀ first ∈ calls, ∀ r, first.random = some r → Vault.KeysApart first.password call.password r) :
    ((claimSync (claimFileAfter calls) call).1.Commits call account ↔
      (claimFileAfter calls = none → call.CanSave account) ∧ (claimMaker calls call).SameClaim call ∧
        (claimMaker calls call).Unused call account s) ∧
    (claimFileAfter calls ≠ none → ¬(claimMaker calls call).SameClaim call →
      (claimSync (claimFileAfter calls) call).1 =
        .refused "Existing encrypted name claim cannot be unlocked or differs") := by
  rw [claimMaker]
  cases hfind : calls.find? ClaimCall.leavesFile with
  | none =>
    have hfile : claimFileAfter calls = none := by rw [claimFileAfter_eq, hfind, Option.bind_none]
    rw [hfile, claimSync_of_eligible hready.toEligible, claimName_none_commits hready, Option.getD_none]
    refine ⟨?_, fun hsome => absurd rfl hsome⟩
    constructor
    · rintro ⟨hsave, hunused⟩
      exact ⟨fun _ => hsave, ⟨rfl, rfl, rfl, rfl⟩, hunused⟩
    · rintro ⟨hsave, -, hunused⟩
      exact ⟨hsave rfl, hunused⟩
  | some first =>
    obtain ⟨hfile, hcommits, hrefused⟩ := claimSync_after_file hfind happart hready
    refine ⟨?_, fun _ => hrefused⟩
    rw [hcommits, Option.getD_some]
    exact ⟨fun hsame => ⟨fun hnone => absurd hnone hfile, hsame⟩, fun hsame => hsame.2⟩

end

/-! ### A lost race -/

section Sample

set_option maxRecDepth 10000

attribute [local instance] VaultCipher.sample

/-- Account 1 owns a name; account 2 owns none and has nothing pending. -/
def racedState : CybouState :=
  { accounts := ((∅ : OrdMap _ _).set (sampleId 1) { balance := 1000 }).set (sampleId 2) { balance := 7 }
    identities := sampleIdentities
    names :=
      { names := (∅ : OrdMap _ _).set (ascii "alice") (sampleId 1)
        accountNames := (∅ : OrdMap _ _).set (sampleId 1) (ascii "alice")
        pendingCommits := ∅ }
    genesisAllocations := ∅
    publications := ∅
    settlement := {}
    leases := ∅ }

def openState : CybouState := { racedState with names := {} }

def sampleDraws : Vault.Random where
  salt := FixedBytes.zero 16
  wrapNonce := FixedBytes.zero 12
  payloadNonce := FixedBytes.zero 12
  dek := sampleId 5

def sampleClaim (label password : String) (s : CybouState) : ClaimCall where
  label := ascii label
  password := ascii password
  accountId := some (sampleId 2)
  identityVault :=
    (serializeIdentityMaterial { accountId := sampleId 2, recoveryEntropy := sampleId 3 }).bind fun payload =>
      sealIdentityVault (ascii password) payload (some sampleDraws)
  network := sampleId 8
  state := some s
  salt := some (sampleId 9)
  random := some sampleDraws
  fate := .done

theorem bobby_ready {password : String}
    (h : (sampleClaim "bobby" password racedState).vaultAccount = some (sampleId 2)) :
    (sampleClaim "bobby" password racedState).Ready (sampleId 2) racedState where
  label := by
    change validateNameLabel (ascii "bobby") = .none
    decide
  unlocked := rfl
  vault := h
  state := rfl
  finalized := by decide
  unnamed := by decide
  free := by
    change racedState.names.names.contains (ascii "bobby") = false
    decide
  idle := by decide

theorem keysApart_sample (r : Vault.Random) :
    Vault.KeysApart (ascii "correct horse battery staple") (ascii "another battery staple") r := by
  rintro - kek kek' length wrapped hkek hkek' hwrapped
  cases hkek
  cases hkek'
  cases hwrapped
  have hlength (plaintext tag : Bytes) (htag : tag.length = 16) :
      (plaintext ++ tag).drop ((plaintext ++ tag).length - Vault.TAG_SIZE) = tag := by
    rw [List.length_append, htag, Vault.TAG_SIZE, Nat.add_sub_cancel, List.drop_left]
  exact if_neg (by rw [hlength _ _ rfl]; decide)

/-- The second call for one label commits, with the claim of the first; with another
    password it is refused. -/
theorem claim_commits_sample :
    (claimSync (claimFileAfter [sampleClaim "bobby" "correct horse battery staple" openState])
      (sampleClaim "bobby" "correct horse battery staple" racedState)).1.Commits
        (sampleClaim "bobby" "correct horse battery staple" racedState) (sampleId 2) ∧
    (claimSync (claimFileAfter [sampleClaim "bobby" "correct horse battery staple" openState])
      (sampleClaim "bobby" "another battery staple" racedState)).1 =
        .refused "Existing encrypted name claim cannot be unlocked or differs" := by
  have hleaves : (sampleClaim "bobby" "correct horse battery staple" openState).leavesFile = true := by decide
  have hmaker (call : ClaimCall) : claimMaker [sampleClaim "bobby" "correct horse battery staple" openState] call =
      sampleClaim "bobby" "correct horse battery staple" openState := by
    rw [claimMaker, List.find?_cons, hleaves]
    rfl
  have hfile : claimFileAfter [sampleClaim "bobby" "correct horse battery staple" openState] ≠ none :=
    Option.isSome_iff_ne_none.mp hleaves
  constructor
  · refine (claim_commits_iff _ _ _ _ (bobby_ready (by decide)) fun first hfirst r _ hne => ?_).1.mpr ?_
    · rw [List.mem_singleton.mp hfirst] at hne
      exact absurd rfl hne
    · rw [hmaker]
      exact ⟨fun hnone => absurd hnone hfile, ⟨rfl, rfl, rfl, rfl⟩, fun _ _ => rfl⟩
  · refine (claim_commits_iff _ _ _ _ (bobby_ready (by decide)) fun first hfirst r _ => ?_).2 hfile ?_
    · rw [List.mem_singleton.mp hfirst]
      exact keysApart_sample r
    · rw [hmaker]
      exact fun hsame => absurd hsame.password (by decide)

/-- Account 2 asks for `alice`, which account 1 gets; then it cannot ask for `bobby`. -/
theorem lostRace_locks_out :
    validateCybouState racedState = .none ∧
      (sampleClaim "bobby" "correct horse battery staple" racedState).Ready (sampleId 2) racedState ∧
      (claimSync none (sampleClaim "alice" "correct horse battery staple" openState)).1.Commits
        (sampleClaim "alice" "correct horse battery staple" openState) (sampleId 2) ∧
      (claimSync (claimFileAfter [sampleClaim "alice" "correct horse battery staple" openState])
        (sampleClaim "bobby" "correct horse battery staple" racedState)).1 =
          .refused "Existing encrypted name claim cannot be unlocked or differs" := by
  refine ⟨by decide, bobby_ready (by decide), ⟨{ label := ascii "alice", salt := sampleId 9 }, rfl, ?_⟩, ?_⟩
  · decide
  · decide

end Sample

end Cybou
