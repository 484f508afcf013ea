import Cybou.IdentityRegistry

/-! # `.cybou` names

`name_registry.h`: label syntax, the commit and reveal payloads, the registry of names and
pending commits, and its codec.

The reader fills its maps in whatever order the entries arrive and only
rejects duplicates, so its acceptance is characterised up to permutation
(`deserializeNameRegistry_iff`), unlike every other section of the state.
-/

namespace Cybou

open Library

/-! ### Labels -/

def NAME_MIN_LABEL_LENGTH : Nat := 5

def NAME_MAX_LABEL_LENGTH : Nat := 32

def CENTRAL_AUTHORITY_NAME : Bytes := ascii "cybou"

inductive NameValidationError where
  | none
  | empty
  | tooShort
  | tooLong
  | invalidCharacter
  | invalidStartEnd
  | consecutiveHyphens
  | idnPrefix
  | allDigits
  | protectedName
deriving DecidableEq, Repr

/-- The character loop of `ValidateNameLabel`: the first offending character, or
    whether a letter was seen. -/
def scanLabel : Bytes → Bool → Except NameValidationError Bool
  | [], hasAlpha => .ok hasAlpha
  | c :: rest, hasAlpha =>
    if 0x61 ≤ c ∧ c ≤ 0x7a then scanLabel rest true
    else if 0x30 ≤ c ∧ c ≤ 0x39 then scanLabel rest hasAlpha
    else if c = 0x2d then
      if rest.head? = some 0x2d then .error .consecutiveHyphens else scanLabel rest hasAlpha
    else .error .invalidCharacter

def RESERVED : List Bytes :=
  [CENTRAL_AUTHORITY_NAME, ascii "admin", ascii "root", ascii "system", ascii "support",
    ascii "security", ascii "operator", ascii "validator", ascii "wallet", ascii "mail"]

def validateNameLabel (label : Bytes) : NameValidationError :=
  if label.isEmpty then .empty
  else if label.length < NAME_MIN_LABEL_LENGTH then .tooShort
  else if label.length > NAME_MAX_LABEL_LENGTH then .tooLong
  else if (ascii "xn--").isPrefixOf label then .idnPrefix
  else
    match scanLabel label false with
    | .error e => e
    | .ok hasAlpha =>
      if label.head? = some 0x2d ∨ label.getLast? = some 0x2d then .invalidStartEnd
      else if hasAlpha = false then .allDigits
      else if RESERVED.contains label then .protectedName
      else .none

def wellFormedLabel (label : Bytes) : Bool :=
  decide (validateNameLabel label = .none) || decide (validateNameLabel label = .protectedName)

theorem length_of_validateNameLabel {label : Bytes} (h : wellFormedLabel label = true) :
    NAME_MIN_LABEL_LENGTH ≤ label.length ∧ label.length ≤ NAME_MAX_LABEL_LENGTH := by
  simp only [wellFormedLabel, Bool.or_eq_true, decide_eq_true_eq] at h
  unfold validateNameLabel at h
  split at h
  · simp at h
  split at h
  · simp at h
  split at h
  · simp at h
  · omega

/-! ### Payloads -/

structure NameCommitPayload where
  commitment : Hash256
deriving DecidableEq, Repr

structure AuthorizedNameCommit where
  authorization : IdentityOperationAuthorization
  commit : NameCommitPayload
deriving DecidableEq, Repr

structure NameClaimWork where
  networkBinding : Hash256
  accountId : AccountId
  commitment : Hash256
  workEpoch : UInt64
  nonce : UInt64
deriving DecidableEq, Repr

structure NameRevealPayload where
  label : Bytes
  salt : FixedBytes 32
  work : NameClaimWork
deriving DecidableEq, Repr

structure AuthorizedNameReveal where
  authorization : IdentityOperationAuthorization
  reveal : NameRevealPayload
deriving DecidableEq, Repr

def serializeNameCommitPayload (payload : NameCommitPayload) : Option Bytes :=
  if payload.commitment.isNull = true then none else some payload.commitment.1

def serializeNameClaimWork (work : NameClaimWork) : Option Bytes :=
  if work.networkBinding.isNull = true ∨ Hash256.isNull work.accountId = true ∨
      work.commitment.isNull = true then none
  else some (work.networkBinding.1 ++ work.accountId.1 ++ work.commitment.1 ++
    le64 work.workEpoch ++ le64 work.nonce)

def serializeNameRevealPayload (payload : NameRevealPayload) : Option Bytes :=
  if payload.label.length < NAME_MIN_LABEL_LENGTH ∨ payload.label.length > NAME_MAX_LABEL_LENGTH then
    none
  else do
    let work ← serializeNameClaimWork payload.work
    if isZero payload.salt.1 = true then none
    else return [UInt8.ofNat payload.label.length] ++ payload.label ++
      List.replicate (32 - payload.label.length) 0 ++ payload.salt.1 ++ work

section

variable [Crypto]

def computeNameCommitment (networkBinding : Hash256) (accountId : AccountId) (label : Bytes)
    (salt : FixedBytes 32) : Hash256 :=
  Crypto.sha256 (ascii "CYBOU/NAME-COMMIT" ++ networkBinding.1 ++ accountId.1 ++
    [UInt8.ofNat label.length] ++ label ++ salt.1)

def computeNameCommitPayloadCommitment (payload : NameCommitPayload) : Option IdentityKeyId := do
  let bytes ← serializeNameCommitPayload payload
  return Crypto.sha256 (ascii "CYBOU/NAME-COMMIT-PAYLOAD" ++ bytes)

def computeNameRevealPayloadCommitment (payload : NameRevealPayload) : Option IdentityKeyId := do
  let bytes ← serializeNameRevealPayload payload
  return Crypto.sha256 (ascii "CYBOU/NAME-REVEAL-PAYLOAD" ++ bytes)

def computeNameClaimWorkHash (work : NameClaimWork) : Hash256 :=
  match serializeNameClaimWork work with
  | none => Hash256.ZERO
  | some bytes => Crypto.sha256 (ascii "CYBOU/NAME-WORK" ++ bytes)

def checkNameClaimWork (work : NameClaimWork) (requiredBits : UInt32) : Bool :=
  if requiredBits = 0 then true
  else if requiredBits.toNat > 256 then false
  else decide (requiredBits.toNat ≤ leadingZeroBits (computeNameClaimWorkHash work).1)

end

/-! ### The registry and its codec -/

structure NameCommitRecord where
  accountId : AccountId
  commitHeight : UInt64
deriving DecidableEq, Repr

structure NameRegistry where
  names : OrdMap Bytes AccountId := ∅
  accountNames : OrdMap AccountId Bytes := ∅
  pendingCommits : OrdMap Hash256 NameCommitRecord := ∅
deriving DecidableEq

def writeName (e : Bytes × AccountId) : Bytes :=
  [UInt8.ofNat e.1.length] ++ e.1 ++ e.2.1

def writeNameCommit (e : Hash256 × NameCommitRecord) : Bytes :=
  e.1.1 ++ e.2.accountId.1 ++ le64 e.2.commitHeight

def serializeNameRegistry (reg : NameRegistry) : Bytes :=
  le32Of reg.names.size ++ Reader.concat writeName reg.names.entries ++
    le32Of reg.pendingCommits.size ++ Reader.concat writeNameCommit reg.pendingCommits.entries

/-- One entry of the names loop, up to the duplicate checks. -/
def readName : Reader (Bytes × AccountId) := do
  let labelLen ← Reader.u8
  let rest ← Reader.remaining
  Reader.require (NAME_MIN_LABEL_LENGTH ≤ labelLen.toNat ∧ labelLen.toNat ≤ NAME_MAX_LABEL_LENGTH ∧
    labelLen.toNat + 32 ≤ rest)
  let label ← Reader.bytes labelLen.toNat
  Reader.require (wellFormedLabel label = true)
  let acc ← readAccountId
  return (label, acc)

def readNames : Nat → NameRegistry → Reader NameRegistry
  | 0, reg => pure reg
  | n + 1, reg => do
    let e ← readName
    Reader.require (¬(reg.names.contains e.1 = true ∨ reg.accountNames.contains e.2 = true))
    readNames n { reg with
      names := reg.names.emplace e.1 e.2
      accountNames := reg.accountNames.emplace e.2 e.1 }

/-- One entry of the commits loop, up to the duplicate check. -/
def readNameCommit : Reader (Hash256 × NameCommitRecord) := do
  let commit ← Reader.fixed 32
  let accountId ← readAccountId
  let commitHeight ← Reader.u64
  Reader.require (Hash256.isNull commit = false)
  return (commit, { accountId, commitHeight })

def readNameCommits : Nat → NameRegistry → Reader NameRegistry
  | 0, reg => pure reg
  | n + 1, reg => do
    let e ← readNameCommit
    Reader.require (reg.pendingCommits.contains e.1 = false)
    readNameCommits n { reg with pendingCommits := reg.pendingCommits.emplace e.1 e.2 }

def readNameRegistry : Reader NameRegistry := do
  let size ← Reader.remaining
  Reader.require (4 + 4 ≤ size)
  let namesCount ← Reader.count
  let reg ← readNames namesCount {}
  let commitCount ← Reader.count
  let rest ← Reader.remaining
  Reader.require (rest = commitCount * (32 + 32 + 8))
  readNameCommits commitCount reg

def deserializeNameRegistry (b : Bytes) : Option NameRegistry := readNameRegistry.whole b

/-! ### What the reader accepts -/

def NameEntryOk (e : Bytes × AccountId) : Prop :=
  wellFormedLabel e.1 = true ∧ Hash256.isNull e.2 = false

def NameCommitOk (e : Hash256 × NameCommitRecord) : Prop :=
  Hash256.isNull e.1 = false ∧ Hash256.isNull e.2.accountId = false

theorem readName_exact : Reader.Exact readName writeName NameEntryOk := by
  rintro b ⟨label, acc⟩ r
  simp only [readName, Reader.u8_exact.bind, Reader.remaining_bind, Reader.require_bind,
    readAccountId_exact.bind, Reader.bind_eq_some (p := Reader.bytes _), Reader.bytes_eq_some,
    Reader.pure_eq_some, true_and, NameEntryOk, writeName]
  constructor
  · rintro ⟨len, _, rfl, -, _, _, ⟨hlen, rfl⟩, hok, _, _, hacc, rfl, heq, rfl⟩
    cases heq
    have hbyte : UInt8.ofNat label.length = len := by rw [hlen, UInt8.ofNat_toNat]
    exact ⟨⟨hok, hacc⟩, by simp [hbyte]⟩
  · rintro ⟨⟨hok, hacc⟩, rfl⟩
    obtain ⟨hmin, hmax⟩ := length_of_validateNameLabel hok
    have hlen : (UInt8.ofNat label.length).toNat = label.length := by
      rw [UInt8.toNat_ofNat', Nat.mod_eq_of_lt]
      unfold NAME_MAX_LABEL_LENGTH at hmax
      omega
    refine ⟨UInt8.ofNat label.length, label ++ (acc.1 ++ r), by simp, ?_, label, acc.1 ++ r,
      ⟨hlen.symm, rfl⟩, hok, acc, r, hacc, rfl, rfl, rfl⟩
    rw [hlen]
    refine ⟨hmin, hmax, ?_⟩
    simp [acc.2]

theorem readNameCommit_exact : Reader.Exact readNameCommit writeNameCommit NameCommitOk := by
  rintro b ⟨commit, ⟨accountId, commitHeight⟩⟩ r
  simp only [readNameCommit, (Reader.fixed_exact 32).bind, readAccountId_exact.bind,
    Reader.u64_exact.bind, Reader.require_bind, Reader.pure_eq_some, true_and, NameCommitOk,
    writeNameCommit]
  constructor
  · rintro ⟨_, _, rfl, _, _, hacc, rfl, _, _, rfl, hnull, heq, rfl⟩
    cases heq
    exact ⟨⟨hnull, hacc⟩, by simp⟩
  · rintro ⟨⟨hnull, hacc⟩, rfl⟩
    exact ⟨commit, _, by simp, accountId, _, hacc, rfl, commitHeight, r, rfl, hnull, rfl, rfl⟩

/-- The names loop reads a list and inserts it in both directions. -/
theorem readNames_iff (n : Nat) (reg reg' : NameRegistry) (b r : Bytes) :
    readNames n reg b = some (reg', r) ↔
      ∃ l, (l.length = n ∧ ∀ e ∈ l, NameEntryOk e) ∧ b = Reader.concat writeName l ++ r ∧
        reg.names.emplaceAll l = some reg'.names ∧
        reg.accountNames.emplaceAll (l.map Prod.swap) = some reg'.accountNames ∧
        reg.pendingCommits = reg'.pendingCommits := by
  induction n generalizing reg b with
  | zero =>
    rw [readNames, Reader.pure_eq_some]
    constructor
    · rintro ⟨rfl, rfl⟩
      exact ⟨[], by simp [OrdMap.emplaceAll]⟩
    · rintro ⟨l, ⟨hlen, -⟩, rfl, hnames, haccounts, hcommits⟩
      obtain rfl := List.length_eq_zero_iff.mp hlen
      simp only [List.map_nil, OrdMap.emplaceAll, Option.some.injEq] at hnames haccounts
      refine ⟨?_, rfl⟩
      cases reg
      cases reg'
      cases hnames
      cases haccounts
      cases hcommits
      rfl
  | succ n ih =>
    simp only [readNames, readName_exact.bind, Reader.require_bind, not_or, Bool.not_eq_true, ih]
    constructor
    · rintro ⟨e, _, hok, rfl, ⟨hname, hacc⟩, l, ⟨rfl, hl⟩, rfl, hnames, haccounts, hcommits⟩
      refine ⟨e :: l, ⟨rfl, List.forall_mem_cons.mpr ⟨hok, hl⟩⟩, by simp, ?_, ?_, hcommits⟩
      · simpa [OrdMap.emplaceAll, hname] using hnames
      · simpa [OrdMap.emplaceAll, hacc] using haccounts
    · rintro ⟨l, ⟨hlen, hl⟩, rfl, hnames, haccounts, hcommits⟩
      cases l with
      | nil => cases hlen
      | cons e l =>
        obtain ⟨hok, hl⟩ := List.forall_mem_cons.mp hl
        simp only [List.map_cons, OrdMap.emplaceAll, Prod.fst_swap, Prod.snd_swap] at hnames haccounts
        split at hnames
        · cases hnames
        split at haccounts
        · cases haccounts
        next hname hacc =>
        exact ⟨e, _, hok, by simp, ⟨by simpa using hname, by simpa using hacc⟩, l,
          ⟨by simpa using hlen, hl⟩, rfl, hnames, haccounts, hcommits⟩

/-- The commits are read in any order, each once. -/
theorem readNameCommits_iff (n : Nat) (reg reg' : NameRegistry) (b r : Bytes) :
    readNameCommits n reg b = some (reg', r) ↔
      ∃ l, (l.length = n ∧ ∀ e ∈ l, NameCommitOk e) ∧ b = Reader.concat writeNameCommit l ++ r ∧
        reg.pendingCommits.emplaceAll l = some reg'.pendingCommits ∧
        reg.names = reg'.names ∧ reg.accountNames = reg'.accountNames := by
  induction n generalizing reg b with
  | zero =>
    rw [readNameCommits, Reader.pure_eq_some]
    constructor
    · rintro ⟨rfl, rfl⟩
      exact ⟨[], by simp [OrdMap.emplaceAll]⟩
    · rintro ⟨l, ⟨hlen, -⟩, rfl, hcommits, hnames, haccounts⟩
      obtain rfl := List.length_eq_zero_iff.mp hlen
      rw [OrdMap.emplaceAll, Option.some.injEq] at hcommits
      refine ⟨?_, rfl⟩
      cases reg
      cases reg'
      cases hnames
      cases haccounts
      cases hcommits
      rfl
  | succ n ih =>
    simp only [readNameCommits, readNameCommit_exact.bind, Reader.require_bind, ih]
    constructor
    · rintro ⟨e, _, hok, rfl, hfresh, l, ⟨rfl, hl⟩, rfl, hcommits, hrest⟩
      refine ⟨e :: l, ⟨rfl, List.forall_mem_cons.mpr ⟨hok, hl⟩⟩, by simp, ?_, hrest⟩
      simpa [OrdMap.emplaceAll, hfresh] using hcommits
    · rintro ⟨l, ⟨hlen, hl⟩, rfl, hcommits, hrest⟩
      cases l with
      | nil => cases hlen
      | cons e l =>
        obtain ⟨hok, hl⟩ := List.forall_mem_cons.mp hl
        rw [OrdMap.emplaceAll] at hcommits
        split at hcommits
        · cases hcommits
        · next hfresh =>
          exact ⟨e, _, hok, by simp, by simpa using hfresh, l, ⟨by simpa using hlen, hl⟩, rfl,
            hcommits, hrest⟩

def nameRegistryBytes (names : List (Bytes × AccountId))
    (commits : List (Hash256 × NameCommitRecord)) : Bytes :=
  le32Of names.length ++ Reader.concat writeName names ++
    le32Of commits.length ++ Reader.concat writeNameCommit commits

theorem serializeNameRegistry_eq (reg : NameRegistry) :
    serializeNameRegistry reg =
      nameRegistryBytes reg.names.entries reg.pendingCommits.entries := rfl

theorem length_concat_writeNameCommit (l : List (Hash256 × NameCommitRecord)) :
    (Reader.concat writeNameCommit l).length = l.length * (32 + 32 + 8) :=
  Reader.length_concat (fun e => by simp [writeNameCommit, e.1.2, e.2.accountId.2]) l

/-- **The name registry reader accepts entries in any order.**  What it returns
    is determined by the two lists up to permutation. -/
theorem deserializeNameRegistry_iff {b : Bytes} {reg : NameRegistry} :
    deserializeNameRegistry b = some reg ↔
      ∃ names commits, (names.length < 2 ^ 32 ∧ ∀ e ∈ names, NameEntryOk e) ∧
        (commits.length < 2 ^ 32 ∧ ∀ e ∈ commits, NameCommitOk e) ∧
        b = nameRegistryBytes names commits ∧ reg.names.entries.Perm names ∧
        reg.accountNames.entries.Perm (names.map Prod.swap) ∧
        reg.pendingCommits.entries.Perm commits := by
  simp only [deserializeNameRegistry, Reader.whole_eq_some, readNameRegistry,
    Reader.remaining_bind, Reader.require_bind, Reader.count_exact.bind,
    Reader.bind_eq_some (p := readNames _ _), readNames_iff, readNameCommits_iff,
    OrdMap.emplaceAll_empty]
  constructor
  · rintro ⟨-, _, _, hn, rfl, reg₁, _, ⟨names, ⟨rfl, hnames⟩, rfl, hperm, hperm', hnone⟩, _, _, hc,
      rfl, -, commits, ⟨rfl, hcommits⟩, rfl, hpermc, heq, heq'⟩
    rw [← hnone, OrdMap.emplaceAll_empty] at hpermc
    exact ⟨names, commits, ⟨hn, hnames⟩, ⟨hc, hcommits⟩, by simp [nameRegistryBytes],
      heq ▸ hperm, heq' ▸ hperm', hpermc⟩
  · rintro ⟨names, commits, ⟨hn, hnames⟩, ⟨hc, hcommits⟩, rfl, hperm, hperm', hpermc⟩
    refine ⟨by simp [nameRegistryBytes]; omega, names.length, _, hn, by simp [nameRegistryBytes],
      { names := reg.names, accountNames := reg.accountNames }, _,
      ⟨names, ⟨rfl, hnames⟩, rfl, hperm, hperm', rfl⟩, commits.length, _, hc, rfl, ?_, commits,
      ⟨rfl, hcommits⟩, (List.append_nil _).symm, OrdMap.emplaceAll_empty.mpr hpermc, rfl, rfl⟩
    exact length_concat_writeNameCommit commits

end Cybou
