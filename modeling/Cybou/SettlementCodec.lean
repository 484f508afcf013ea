import Cybou.Library.Checked
import Cybou.Operations

/-! # `DeserializeStorageSettlement` (`storage_lease.cpp`)

`PAY` is read at raw offsets, `PREPARE` and `ACTIVATE` through a reader over
the middle of the input, and all three end in a serialization of what was
read.  The parser below keeps the offsets and the size arithmetic, so that
`parseStorageSettlement_safe` is about the bounds the source relies on.  What
it accepts is exactly what the serializer writes, with one gap on the writing
side: the serializer measures an encoded payout binding but does not ask that
it decodes to the binding it came from.
-/

namespace Cybou

open Library Checked

/-! ### The parser -/

def readEligible : Reader StorageSettlementBinding := do
  let storageId ← Reader.fixed 32
  let size ← Reader.count
  Reader.require (size ≤ 6344)
  let bytes ← Reader.bytes size
  let binding ← Reader.ofOption (decodeStoragePayoutBinding bytes)
  return { storageId, binding }

/-- `ed25519` and then everything to the end. -/
def signatureAt (b : Bytes) (offset : Nat) : Checked IdentityHybridSignature := do
  let ed25519 ← fixedAt 64 b offset
  let mlDsa ← tailAt b (offset + 64)
  return { ed25519, mlDsa }

def canonicalSettlement (settlement : StorageSettlement) : Checked StorageSettlement :=
  if serializeSettlementBody settlement = none then refuse else .ok settlement

def parsePrepare (b body : Bytes) (period periodStartUtc : UInt64) : Checked StorageSettlement :=
  if b.length < 17 + 44 + POA_SIGNATURE_SIZE then refuse
  else do
    let (fundedTermId, body) ← ofReader (Reader.fixed 32) body
    let (assignmentEpoch, body) ← ofReader Reader.u64 body
    let (count, body) ← ofReader Reader.count body
    if count = 0 ∨ count > 20 then refuse
    else do
      let room ← sizeSub b.length (POA_SIGNATURE_SIZE + 17 + 44)
      if count > room / 6380 then refuse
      else do
        let (eligible, body) ← ofReader (Reader.repeatN readEligible count) body
        if body ≠ [] then refuse
        else do
          let last ← sizeSub b.length POA_SIGNATURE_SIZE
          let poaSignature ← signatureAt b last
          canonicalSettlement { period, periodStartUtc, poaSignature, action := .prepare,
                                fundedTermId, assignmentEpoch, eligible }

def parseActivate (b body : Bytes) (period periodStartUtc : UInt64) : Checked StorageSettlement := do
  let (preparationId, body) ← ofReader (Reader.fixed 32) body
  let (count, body) ← ofReader Reader.count body
  if count = 0 ∨ count > 3988 then refuse
  else do
    let room ← sizeSub b.length (POA_SIGNATURE_SIZE + 17 + 36)
    if count > room / 32 then refuse
    else do
      let (manifest, body) ← ofReader (Reader.repeatN (Reader.fixed 32) count) body
      if body ≠ [] then refuse
      else do
        let last ← sizeSub b.length POA_SIGNATURE_SIZE
        let poaSignature ← signatureAt b last
        canonicalSettlement { period, periodStartUtc, poaSignature, action := .activate,
                              preparationId, manifest }

def entryAt (b : Bytes) (offset : Nat) : Checked StorageSettlementEntry := do
  let fundingOperationId ← fixedAt 32 b offset
  let slot ← byteAt b (offset + 32)
  let storageId ← fixedAt 32 b (offset + 33)
  let payoutAccount ← fixedAt 32 b (offset + 65)
  if Hash256.isNull payoutAccount = true then refuse
  else do
    let verifiedUnitSeconds ← u64At b (offset + 97)
    let amount ← u64At b (offset + 105)
    return { fundingOperationId, payoutAccount, amount, slot, storageId, verifiedUnitSeconds }

def parsePay (b : Bytes) (period periodStartUtc : UInt64) : Checked StorageSettlement :=
  if b.length < SETTLEMENT_HEADER_SIZE + 4 + POA_SIGNATURE_SIZE then refuse
  else do
    let periodEndUtc ← u64At b 17
    let evidenceRoot ← fixedAt 32 b 25
    let count ← u32At b 57
    if count.toNat > MAX_STORAGE_SETTLEMENT_ENTRIES then refuse
    else do
      let room ← sizeSub b.length (SETTLEMENT_HEADER_SIZE + 4 + POA_SIGNATURE_SIZE)
      if count.toNat > room / STORAGE_SETTLEMENT_ENTRY_SIZE then refuse
      else do
        let (entries, offset) ← rowsAt entryAt STORAGE_SETTLEMENT_ENTRY_SIZE b count.toNat
          SETTLEMENT_HEADER_SIZE
        let witnesses ← u32At b offset
        let offset := offset + 4
        let room ← sizeSub b.length (offset + POA_SIGNATURE_SIZE)
        if witnesses.toNat > room / 32 ∨
            b.length ≠ offset + witnesses.toNat * 32 + POA_SIGNATURE_SIZE then refuse
        else do
          let (activationWitnesses, offset) ← rowsAt (fixedAt 32) 32 b witnesses.toNat offset
          let poaSignature ← signatureAt b offset
          canonicalSettlement { period, periodStartUtc, entries, poaSignature, periodEndUtc,
                                evidenceRoot, activationWitnesses }

def parseStorageSettlement (b : Bytes) : Checked StorageSettlement :=
  if b.length < 17 + POA_SIGNATURE_SIZE ∨ b.length > MAX_OPERATION_PAYLOAD_BYTES - 1 then refuse
  else do
    let period ← u64At b 0
    let periodStartUtc ← u64At b 8
    let action ← byteAt b 16
    if action ≠ StorageSettlementAction.toByte .pay then do
      let size ← sizeSub b.length (17 + POA_SIGNATURE_SIZE)
      let body ← bytesAt size b 17
      if b.length < 17 + 36 + POA_SIGNATURE_SIZE then refuse
      else if action = StorageSettlementAction.toByte .prepare then
        parsePrepare b body period periodStartUtc
      else if action = StorageSettlementAction.toByte .activate then
        parseActivate b body period periodStartUtc
      else refuse
    else parsePay b period periodStartUtc

def deserializeStorageSettlement (b : Bytes) : Option StorageSettlement :=
  (parseStorageSettlement b).toOption

/-! ### Payout bindings -/

def STORAGE_PAYOUT_BINDING_PREFIX : Nat := 32 + 64 + 2420

variable {b out body : Bytes}

theorem decodeStoragePayoutBinding_eq_some {binding : StoragePayoutBinding} :
    decodeStoragePayoutBinding b = some binding ↔
      STORAGE_PAYOUT_BINDING_PREFIX < b.length ∧ Hash256.isNull binding.payoutAccount = false ∧
        binding.authorization.mlDsa.length = 2420 ∧ b = encodeStoragePayoutBinding binding := by
  unfold decodeStoragePayoutBinding STORAGE_PAYOUT_BINDING_PREFIX
  by_cases hlen : b.length ≤ 32 + 64 + 2420
  · rw [if_pos hlen]
    constructor
    · intro h
      cases h
    · rintro ⟨h, -⟩
      omega
  rw [if_neg hlen]
  obtain ⟨account, ⟨ed25519, mlDsa⟩, storageProof⟩ := binding
  simp only [Option.bind_eq_bind, Option.bind_eq_some_iff, Prod.exists, Option.pure_def,
    readAccountId_exact _ _ _, Reader.fixed_exact 64 _ _ _, Option.some.injEq, true_and]
  constructor
  · rintro ⟨_, rest, ⟨hnull, rfl⟩, _, rest', rfl, heq⟩
    cases heq
    refine ⟨by omega, hnull, ?_, ?_⟩
    · simp only [List.length_append, List.length_take] at hlen ⊢
      have h₁ : (account : AccountId).1.length = 32 := account.2
      have h₂ := ed25519.2
      omega
    · simp [encodeStoragePayoutBinding]
  · rintro ⟨_, hnull, hml, rfl⟩
    refine ⟨account, ed25519.1 ++ (mlDsa ++ storageProof),
      ⟨hnull, by simp only [encodeStoragePayoutBinding, List.append_assoc]⟩, ed25519, _, rfl, ?_⟩
    simp [← hml]

theorem decode_encodeStoragePayoutBinding {binding : StoragePayoutBinding}
    (h : decodeStoragePayoutBinding (encodeStoragePayoutBinding binding) ≠ none) :
    decodeStoragePayoutBinding (encodeStoragePayoutBinding binding) = some binding ↔
      binding.authorization.mlDsa.length = 2420 := by
  obtain ⟨other, hother⟩ := Option.ne_none_iff_exists'.mp h
  obtain ⟨hlen, hnull, -, heq⟩ := decodeStoragePayoutBinding_eq_some.mp hother
  rw [decodeStoragePayoutBinding_eq_some]
  have haccount : binding.payoutAccount = other.payoutAccount := by
    simp only [encodeStoragePayoutBinding, List.append_assoc] at heq
    exact Subtype.ext (List.append_inj_left heq
      (binding.payoutAccount.2.trans other.payoutAccount.2.symm))
  rw [haccount]
  simp only [hlen, hnull, true_and, and_true]

/-! ### What the serializer writes -/

def writeEligibleBinding (e : StorageSettlementBinding) : Bytes :=
  e.storageId.1 ++ le32Of 6344 ++ encodeStoragePayoutBinding e.binding

/-- The encoded binding has the one admissible size and decodes. -/
def EligibleOk (e : StorageSettlementBinding) : Prop :=
  (encodeStoragePayoutBinding e.binding).length = 6344 ∧
    decodeStoragePayoutBinding (encodeStoragePayoutBinding e.binding) ≠ none

/-- What follows period, start and action. -/
def settlementTail (s : StorageSettlement) : Bytes :=
  match s.action with
  | .prepare => s.fundedTermId.1 ++ le64 s.assignmentEpoch ++ le32Of s.eligible.length ++
      Reader.concat writeEligibleBinding s.eligible
  | .activate => s.preparationId.1 ++ le32Of s.manifest.length ++
      Reader.concat (fun chunk : ChunkId => chunk.1) s.manifest
  | .pay => le64 s.periodEndUtc ++ s.evidenceRoot.1 ++ le32Of s.entries.length ++
      Reader.concat writeSettlementEntry s.entries ++ le32Of s.activationWitnesses.length ++
      Reader.concat (fun w : Hash256 => w.1) s.activationWitnesses

def settlementBytes (s : StorageSettlement) : Bytes :=
  le64 s.period ++ le64 s.periodStartUtc ++ [s.action.toByte] ++ settlementTail s

/-- The fields the action does not use hold their defaults, and the counts are
    within the limits the parser enforces. -/
def SettlementShape (s : StorageSettlement) : Prop :=
  match s.action with
  | .prepare => s.entries = [] ∧ s.periodEndUtc = 0 ∧ s.evidenceRoot = Hash256.ZERO ∧
      s.activationWitnesses = [] ∧ s.preparationId = Hash256.ZERO ∧ s.manifest = [] ∧
      s.eligible ≠ [] ∧ s.eligible.length ≤ 20 ∧ ∀ e ∈ s.eligible, EligibleOk e
  | .activate => s.entries = [] ∧ s.periodEndUtc = 0 ∧ s.evidenceRoot = Hash256.ZERO ∧
      s.activationWitnesses = [] ∧ s.fundedTermId = Hash256.ZERO ∧ s.assignmentEpoch = 0 ∧
      s.eligible = [] ∧ s.manifest ≠ [] ∧ s.manifest.length ≤ 3988
  | .pay => s.fundedTermId = Hash256.ZERO ∧ s.preparationId = Hash256.ZERO ∧
      s.assignmentEpoch = 0 ∧ s.eligible = [] ∧ s.manifest = [] ∧
      s.entries.length ≤ MAX_STORAGE_SETTLEMENT_ENTRIES ∧
      ∀ e ∈ s.entries, Hash256.isNull e.payoutAccount = false

theorem writeEligible_eq_some {prior : Option StorageId} {l : List StorageSettlementBinding}
    (h : writeEligible prior l = some out) :
    out = Reader.concat writeEligibleBinding l ∧ ∀ e ∈ l, EligibleOk e := by
  induction l generalizing prior out with
  | nil =>
    cases h
    simp
  | cons e l ih =>
    simp only [writeEligible] at h
    split at h
    · cases h
    split at h
    · cases h
    · next hbinding =>
      push Not at hbinding
      obtain ⟨tail, htail, heq⟩ := Option.bind_eq_some_iff.mp h
      cases heq
      obtain ⟨rfl, hall⟩ := ih htail
      refine ⟨?_, List.forall_mem_cons.mpr ⟨hbinding, hall⟩⟩
      rw [Reader.concat_cons, writeEligibleBinding, hbinding.1]

theorem length_writeSettlementEntry (e : StorageSettlementEntry) :
    (writeSettlementEntry e).length = STORAGE_SETTLEMENT_ENTRY_SIZE := by
  simp [writeSettlementEntry, e.fundingOperationId.2, e.storageId.2, e.payoutAccount.2,
    STORAGE_SETTLEMENT_ENTRY_SIZE]

theorem of_strictlyOrdered {α κ : Type} [LinearOrder κ] {key : α → κ} {valid : α → Bool}
    {prior : Option κ} {l : List α} (h : strictlyOrdered key valid prior l = true) :
    ∀ a ∈ l, valid a = true := by
  induction l generalizing prior with
  | nil => simp
  | cons a l ih =>
    simp only [strictlyOrdered, Bool.and_eq_true] at h
    exact List.forall_mem_cons.mpr ⟨h.1.1, ih h.2⟩

theorem withinLimit_eq_some {limit : Nat} :
    withinLimit limit out = some b ↔ out.length ≤ limit ∧ b = out := by
  unfold withinLimit
  split
  · next h => simp only [reduceCtorEq, false_iff]; omega
  · next h => simp [Nat.not_lt.mp h, eq_comm]

variable {s : StorageSettlement}

theorem prepareBody_eq_some (h : prepareBody s = some out) :
    out = s.fundedTermId.1 ++ le64 s.assignmentEpoch ++ le32Of s.eligible.length ++
        Reader.concat writeEligibleBinding s.eligible ∧
      s.preparationId = Hash256.ZERO ∧ s.manifest = [] ∧ s.eligible ≠ [] ∧
      s.eligible.length ≤ 20 ∧ ∀ e ∈ s.eligible, EligibleOk e := by
  unfold prepareBody at h
  split at h
  · cases h
  · next hguard =>
    push Not at hguard
    obtain ⟨-, hpreparation, -, hmanifest, heligible, hcount⟩ := hguard
    obtain ⟨tail, htail, heq⟩ := Option.bind_eq_some_iff.mp h
    cases heq
    obtain ⟨rfl, hall⟩ := writeEligible_eq_some htail
    refine ⟨rfl, ?_, hmanifest, heligible, hcount, hall⟩
    exact Hash256.isNull_iff.mp (by simpa using hpreparation)

theorem activateBody_eq_some (h : activateBody s = some out) :
    out = s.preparationId.1 ++ le32Of s.manifest.length ++
        Reader.concat (fun chunk : ChunkId => chunk.1) s.manifest ∧
      s.fundedTermId = Hash256.ZERO ∧ s.assignmentEpoch = 0 ∧ s.eligible = [] ∧
      s.manifest ≠ [] ∧ s.manifest.length ≤ 3988 := by
  unfold activateBody at h
  split at h
  · cases h
  · next hguard =>
    split at h
    · cases h
    · push Not at hguard
      obtain ⟨-, hterm, hepoch, heligible, hmanifest, hcount⟩ := hguard
      cases h
      refine ⟨rfl, ?_, hepoch, heligible, hmanifest, hcount⟩
      exact Hash256.isNull_iff.mp (by simpa using hterm)

/-- **What a serialized body says about the settlement.** -/
theorem serializeSettlementBody_eq_some (h : serializeSettlementBody s = some out) :
    out = settlementBytes s ∧ out.length ≤ MAX_OPERATION_PAYLOAD_BYTES - 1 - POA_SIGNATURE_SIZE ∧
      SettlementShape s := by
  unfold serializeSettlementBody at h
  split at h
  · cases h
  next hentries =>
  push Not at hentries
  cases haction : s.action with
  | pay =>
    rw [if_neg (by simp [haction]), payBody] at h
    split at h
    · cases h
    next hzero =>
    split at h
    · cases h
    split at h
    · cases h
    next hsize =>
    split at h
    · cases h
    next hordered =>
    push Not at hzero hsize hordered
    obtain ⟨hterm, hpreparation, hepoch, heligible, hmanifest⟩ := hzero
    have hvalid : ∀ e ∈ s.entries, entryValid e = true :=
      of_strictlyOrdered (by simpa using hordered.1)
    have hpayout : ∀ e ∈ s.entries, Hash256.isNull e.payoutAccount = false := by
      intro e he
      have := hvalid e he
      simp only [entryValid, Bool.and_eq_true] at this
      simpa using this.1.1.2
    cases h
    refine ⟨by simp [settlementBytes, settlementTail, haction], ?_, ?_⟩
    · simp only [List.length_append, length_le64, length_le32Of, List.length_singleton,
        Reader.length_concat length_writeSettlementEntry,
        Reader.length_concat (fun w : Hash256 => w.2), s.evidenceRoot.2]
      unfold SETTLEMENT_HEADER_SIZE STORAGE_SETTLEMENT_ENTRY_SIZE at *
      omega
    · simp only [SettlementShape, haction]
      exact ⟨Hash256.isNull_iff.mp (by simpa using hterm),
        Hash256.isNull_iff.mp (by simpa using hpreparation), hepoch, heligible, hmanifest,
        hentries.2, hpayout⟩
  | prepare =>
    rw [if_pos (by simp [haction])] at h
    split at h
    · cases h
    next hzero =>
    push Not at hzero
    simp only [haction] at h
    obtain ⟨tail, htail, hlimit⟩ := Option.bind_eq_some_iff.mp h
    obtain ⟨rfl, hpreparation, hmanifest, heligible, hcount, hall⟩ := prepareBody_eq_some htail
    obtain ⟨hlen, rfl⟩ := withinLimit_eq_some.mp hlimit
    refine ⟨by simp [settlementBytes, settlementTail, haction], hlen, ?_⟩
    simp only [SettlementShape, haction]
    exact ⟨hzero.1, hzero.2.1, Hash256.isNull_iff.mp (by simpa using hzero.2.2.1), hzero.2.2.2,
      hpreparation, hmanifest, heligible, hcount, hall⟩
  | activate =>
    rw [if_pos (by simp [haction])] at h
    split at h
    · cases h
    next hzero =>
    push Not at hzero
    simp only [haction, reduceCtorEq, if_false] at h
    obtain ⟨tail, htail, hlimit⟩ := Option.bind_eq_some_iff.mp h
    obtain ⟨rfl, hterm, hepoch, heligible, hmanifest, hcount⟩ := activateBody_eq_some htail
    obtain ⟨hlen, rfl⟩ := withinLimit_eq_some.mp hlimit
    refine ⟨by simp [settlementBytes, settlementTail, haction], hlen, ?_⟩
    simp only [SettlementShape, haction]
    exact ⟨hzero.1, hzero.2.1, Hash256.isNull_iff.mp (by simpa using hzero.2.2.1), hzero.2.2.2,
      hterm, hepoch, heligible, hmanifest, hcount⟩

theorem settlementShape_of_serialize (h : serializeSettlementBody s ≠ none) :
    SettlementShape s := by
  obtain ⟨out, hout⟩ := Option.ne_none_iff_exists'.mp h
  exact (serializeSettlementBody_eq_some hout).2.2

/-! ### No read goes wrong -/

theorem safe_canonicalSettlement (s : StorageSettlement) : Safe (canonicalSettlement s) :=
  Safe.ite (fun _ => Safe.refuse) fun _ => Safe.ok s

variable {n offset : Nat}

theorem safe_signatureAt (h : offset + 64 ≤ b.length) :
    Safe (signatureAt b offset) :=
  (Safe.fixedAt h).bind fun _ _ => (Safe.tailAt h).bind fun _ _ => Safe.pure _

theorem safe_entryAt (h : offset + STORAGE_SETTLEMENT_ENTRY_SIZE ≤ b.length) : Safe (entryAt b offset) := by
  unfold STORAGE_SETTLEMENT_ENTRY_SIZE at h
  refine (Safe.fixedAt (by omega)).bind fun _ _ => ?_
  refine (Safe.byteAt (by omega)).bind fun _ _ => ?_
  refine (Safe.fixedAt (by omega)).bind fun _ _ => ?_
  refine (Safe.fixedAt (by omega)).bind fun _ _ => ?_
  refine Safe.ite (fun _ => Safe.refuse) fun _ => ?_
  refine (Safe.u64At (by omega)).bind fun _ _ => ?_
  exact (Safe.u64At (by omega)).bind fun _ _ => Safe.pure _

theorem entryAt_ok {e : StorageSettlementEntry} :
    entryAt b offset = .ok e ↔
      Hash256.isNull e.payoutAccount = false ∧ writeSettlementEntry e <+: b.drop offset := by
  obtain ⟨funding, payout, amount, slot, storageId, verified⟩ := e
  simp only [entryAt, bind_ok, ite_refuse_ok, pure_ok, fixedAt_ok (by decide : 0 < 32), byteAt_ok,
    u64At_ok, writeSettlementEntry, append_prefix_drop, List.length_append, funding.2, storageId.2,
    payout.2, length_le64, List.length_singleton]
  constructor
  · rintro ⟨_, h₁, _, h₂, _, h₃, _, h₄, hnull, _, h₅, _, h₆, heq⟩
    cases heq
    exact ⟨by simpa using hnull, ⟨⟨⟨⟨h₁, h₂⟩, h₃⟩, h₄⟩, h₅⟩, h₆⟩
  · rintro ⟨hnull, ⟨⟨⟨⟨h₁, h₂⟩, h₃⟩, h₄⟩, h₅⟩, h₆⟩
    exact ⟨funding, h₁, slot, h₂, storageId, h₃, payout, h₄, by simpa using hnull, verified, h₅,
      amount, h₆, rfl⟩

theorem rowsAt_entries {last : Nat} {l : List StorageSettlementEntry} :
    rowsAt entryAt STORAGE_SETTLEMENT_ENTRY_SIZE b n offset = .ok (l, last) ↔
      (l.length = n ∧ ∀ e ∈ l, Hash256.isNull e.payoutAccount = false) ∧
        Reader.concat writeSettlementEntry l <+: b.drop offset ∧
        last = offset + n * STORAGE_SETTLEMENT_ENTRY_SIZE :=
  rowsAt_ok length_writeSettlementEntry fun _ _ _ => entryAt_ok

theorem rowsAt_hashes {last : Nat} {l : List Hash256} :
    rowsAt (fixedAt 32) 32 b n offset = .ok (l, last) ↔
      (l.length = n ∧ ∀ w ∈ l, True) ∧ Reader.concat (fun w : Hash256 => w.1) l <+: b.drop offset ∧
        last = offset + n * 32 :=
  rowsAt_ok (fun w : Hash256 => w.2) fun _ _ _ => by simp [fixedAt_ok]

theorem safe_parsePrepare (body : Bytes) (period periodStartUtc : UInt64) :
    Safe (parsePrepare b body period periodStartUtc) := by
  unfold parsePrepare
  refine Safe.ite (fun _ => Safe.refuse) fun hlen => ?_
  refine (Safe.ofReader _ _).bind fun _ _ => ?_
  refine (Safe.ofReader _ _).bind fun _ _ => ?_
  refine (Safe.ofReader _ _).bind fun _ _ => ?_
  refine Safe.ite (fun _ => Safe.refuse) fun _ => ?_
  refine (Safe.sizeSub (by omega)).bind fun _ _ => ?_
  refine Safe.ite (fun _ => Safe.refuse) fun _ => ?_
  refine (Safe.ofReader _ _).bind fun _ _ => ?_
  refine Safe.ite (fun _ => Safe.refuse) fun _ => ?_
  refine (Safe.sizeSub (by omega)).bind fun last hlast => ?_
  obtain ⟨-, rfl⟩ := sizeSub_ok.mp hlast
  refine (safe_signatureAt ?_).bind fun _ _ => safe_canonicalSettlement _
  unfold POA_SIGNATURE_SIZE at *
  omega

theorem safe_parseActivate (body : Bytes) (period periodStartUtc : UInt64)
    (hlen : 17 + 36 + POA_SIGNATURE_SIZE ≤ b.length) :
    Safe (parseActivate b body period periodStartUtc) := by
  unfold parseActivate
  refine (Safe.ofReader _ _).bind fun _ _ => ?_
  refine (Safe.ofReader _ _).bind fun _ _ => ?_
  refine Safe.ite (fun _ => Safe.refuse) fun _ => ?_
  refine (Safe.sizeSub (by omega)).bind fun _ _ => ?_
  refine Safe.ite (fun _ => Safe.refuse) fun _ => ?_
  refine (Safe.ofReader _ _).bind fun _ _ => ?_
  refine Safe.ite (fun _ => Safe.refuse) fun _ => ?_
  refine (Safe.sizeSub (by omega)).bind fun last hlast => ?_
  obtain ⟨-, rfl⟩ := sizeSub_ok.mp hlast
  refine (safe_signatureAt ?_).bind fun _ _ => safe_canonicalSettlement _
  unfold POA_SIGNATURE_SIZE at *
  omega

theorem safe_parsePay (b : Bytes) (period periodStartUtc : UInt64) :
    Safe (parsePay b period periodStartUtc) := by
  unfold parsePay
  refine Safe.ite (fun _ => Safe.refuse) fun hlen => ?_
  have hheader : SETTLEMENT_HEADER_SIZE = 61 := rfl
  refine (Safe.u64At (by omega)).bind fun _ _ => ?_
  refine (Safe.fixedAt (by omega)).bind fun _ _ => ?_
  refine (Safe.u32At (by omega)).bind fun count _ => ?_
  refine Safe.ite (fun _ => Safe.refuse) fun _ => ?_
  refine (Safe.sizeSub (by omega)).bind fun room hroom => ?_
  obtain ⟨-, rfl⟩ := sizeSub_ok.mp hroom
  refine Safe.ite (fun _ => Safe.refuse) fun hcount => ?_
  -- the entry guard leaves room for the witness count and the signature
  have hrows : count.toNat * STORAGE_SETTLEMENT_ENTRY_SIZE ≤
      b.length - (SETTLEMENT_HEADER_SIZE + 4 + POA_SIGNATURE_SIZE) :=
    (Nat.le_div_iff_mul_le (by decide)).mp (Nat.not_lt.mp hcount)
  refine (Safe.rowsAt (fun _ h => safe_entryAt h) (by omega)).bind fun rows hrows' => ?_
  obtain ⟨entries, offset⟩ := rows
  obtain ⟨-, -, rfl⟩ := rowsAt_entries.mp hrows'
  refine (Safe.u32At (by omega)).bind fun witnesses _ => ?_
  refine (Safe.sizeSub (by omega)).bind fun _ _ => ?_
  refine Safe.ite (fun _ => Safe.refuse) fun htotal => ?_
  push Not at htotal
  refine (Safe.rowsAt (fun _ h => Safe.fixedAt h) (by omega)).bind fun rows hrows' => ?_
  obtain ⟨activationWitnesses, offset⟩ := rows
  obtain ⟨-, -, rfl⟩ := rowsAt_hashes.mp hrows'
  refine (safe_signatureAt ?_).bind fun _ _ => safe_canonicalSettlement _
  unfold POA_SIGNATURE_SIZE at *
  omega

/-- **No byte string makes the parser read past its end or subtract below zero.** -/
theorem parseStorageSettlement_safe (b : Bytes) : Safe (parseStorageSettlement b) := by
  unfold parseStorageSettlement
  refine Safe.ite (fun _ => Safe.refuse) fun hlen => ?_
  push Not at hlen
  refine (Safe.u64At (by omega)).bind fun _ _ => ?_
  refine (Safe.u64At (by omega)).bind fun _ _ => ?_
  refine (Safe.byteAt (by omega)).bind fun _ _ => ?_
  refine Safe.ite (fun _ => ?_) fun _ => safe_parsePay b _ _
  refine (Safe.sizeSub hlen.1).bind fun size hsize => ?_
  obtain ⟨-, rfl⟩ := sizeSub_ok.mp hsize
  refine (Safe.bytesAt (by omega)).bind fun body _ => ?_
  refine Safe.ite (fun _ => Safe.refuse) fun hmin => ?_
  refine Safe.ite (fun _ => safe_parsePrepare body _ _) fun _ => ?_
  exact Safe.ite (fun _ => safe_parseActivate body _ _ (by omega)) fun _ => Safe.refuse

/-! ### What the parser accepts -/

theorem canonicalSettlement_ok {s' : StorageSettlement} :
    canonicalSettlement s = .ok s' ↔ serializeSettlementBody s ≠ none ∧ s = s' := by
  simp [canonicalSettlement, ite_refuse_ok]

theorem signatureAt_ok {signature : IdentityHybridSignature} :
    signatureAt b offset = .ok signature ↔ b.drop offset = writeSignature signature := by
  obtain ⟨ed25519, mlDsa⟩ := signature
  simp only [signatureAt, bind_ok, pure_ok, fixedAt_ok (by decide : 0 < 64), tailAt_ok,
    writeSignature]
  constructor
  · rintro ⟨_, hed, _, ⟨-, hml⟩, heq⟩
    cases heq
    rw [drop_eq_append hed, ed25519.2, hml]
  · intro h
    have hprefix : ed25519.1 <+: b.drop offset := ⟨mlDsa, h.symm⟩
    have hlen := hprefix.length_le
    rw [List.length_drop, ed25519.2] at hlen
    refine ⟨ed25519, hprefix, mlDsa, ⟨by omega, ?_⟩, rfl⟩
    rw [← List.drop_drop, h]
    exact List.drop_left' ed25519.2

/-- What is left of the input behind the header, when it holds `s`. -/
def HoldsTail (b : Bytes) (s : StorageSettlement) : Prop :=
  b.drop 17 = settlementTail s ++ writeSignature s.poaSignature

theorem HoldsTail.signature (h : HoldsTail b s) :
    b.drop (17 + (settlementTail s).length) = writeSignature s.poaSignature := by
  rw [← List.drop_drop, show b.drop 17 = _ from h, List.drop_left]

theorem le32Of_toNat {v : UInt32} (h : n = v.toNat) : le32Of n = le32 v := by
  rw [le32Of, h, UInt32.ofNat_toNat]

theorem payTail_split (haction : s.action = .pay) :
    settlementTail s <+: b.drop 17 ↔
      le64 s.periodEndUtc <+: b.drop 17 ∧ s.evidenceRoot.1 <+: b.drop 25 ∧
      le32Of s.entries.length <+: b.drop 57 ∧
      Reader.concat writeSettlementEntry s.entries <+: b.drop SETTLEMENT_HEADER_SIZE ∧
      le32Of s.activationWitnesses.length <+:
        b.drop (SETTLEMENT_HEADER_SIZE + s.entries.length * STORAGE_SETTLEMENT_ENTRY_SIZE) ∧
      Reader.concat (fun w : Hash256 => w.1) s.activationWitnesses <+:
        b.drop (SETTLEMENT_HEADER_SIZE + s.entries.length * STORAGE_SETTLEMENT_ENTRY_SIZE + 4) := by
  have hheader : 17 + (8 + 32 + 4) = SETTLEMENT_HEADER_SIZE := rfl
  have hwitnesses : 17 + (8 + 32 + 4 + s.entries.length * STORAGE_SETTLEMENT_ENTRY_SIZE) =
      SETTLEMENT_HEADER_SIZE + s.entries.length * STORAGE_SETTLEMENT_ENTRY_SIZE := by
    rw [← hheader]
    omega
  have hids : 17 + (8 + 32 + 4 + s.entries.length * STORAGE_SETTLEMENT_ENTRY_SIZE + 4) =
      SETTLEMENT_HEADER_SIZE + s.entries.length * STORAGE_SETTLEMENT_ENTRY_SIZE + 4 := by
    rw [← hheader]
    omega
  simp only [settlementTail, haction, append_prefix_drop, List.length_append, length_le64,
    s.evidenceRoot.2, length_le32Of, Reader.length_concat length_writeSettlementEntry, hheader,
    hwitnesses, hids, and_assoc]

theorem length_payTail (haction : s.action = .pay) :
    (settlementTail s).length = 44 + s.entries.length * STORAGE_SETTLEMENT_ENTRY_SIZE + 4 +
      s.activationWitnesses.length * 32 := by
  simp only [settlementTail, haction, List.length_append, length_le64, s.evidenceRoot.2,
    length_le32Of, Reader.length_concat length_writeSettlementEntry,
    Reader.length_concat (fun w : Hash256 => w.2)]

theorem length_writeSignature (signature : IdentityHybridSignature) :
    (writeSignature signature).length = 64 + signature.mlDsa.length := by
  rw [writeSignature, List.length_append, signature.ed25519.2]

variable {period periodStartUtc : UInt64}

/-- `PAY` is parsed from exactly its encodings. -/
theorem parsePay_ok (hmax : b.length < MAX_OPERATION_PAYLOAD_BYTES) (hmin : 17 ≤ b.length) :
    parsePay b period periodStartUtc = .ok s ↔
      (s.action = .pay ∧ s.period = period ∧ s.periodStartUtc = periodStartUtc) ∧
        serializeSettlementBody s ≠ none ∧ s.poaSignature.mlDsa.length = 3309 ∧ HoldsTail b s := by
  have hheader : SETTLEMENT_HEADER_SIZE = 61 := rfl
  have hsize : STORAGE_SETTLEMENT_ENTRY_SIZE = 113 := rfl
  have hsig : POA_SIGNATURE_SIZE = 64 + 3309 := rfl
  unfold parsePay HoldsTail
  simp only [ite_refuse_ok, bind_ok, u64At_ok, fixedAt_ok (by decide : 0 < 32), u32At_ok, sizeSub_ok,
    Prod.exists, rowsAt_entries, rowsAt_hashes, signatureAt_ok, canonicalSettlement_ok]
  constructor
  · rintro ⟨hlen, pe, hpe, root, hroot, count, hcount, hentries, room, ⟨-, rfl⟩, hroom, entries, last,
      ⟨⟨hn, hpayout⟩, hprefix, rfl⟩, witnesses, hwitnesses, room', ⟨-, rfl⟩, htotal, ids, last',
      ⟨⟨hk, -⟩, hids, rfl⟩, signature, hsignature, hbody, rfl⟩
    rw [← hn] at hwitnesses hids hsignature htotal
    rw [← hk] at hsignature htotal
    push Not at htotal
    refine ⟨⟨rfl, rfl, rfl⟩, hbody, ?_, ?_⟩
    · have hlength := congrArg List.length hsignature
      rw [List.length_drop, length_writeSignature, htotal.2] at hlength
      simp only at hlength ⊢
      omega
    · have htail := (payTail_split (b := b) (s := StorageSettlement.mk period periodStartUtc entries
        signature .pay Hash256.ZERO Hash256.ZERO 0 [] [] pe root ids) rfl).mpr
        ⟨hpe, hroot, le32Of_toNat hn ▸ hcount, hprefix, le32Of_toNat hk ▸ hwitnesses, hids⟩
      rw [drop_eq_append htail, length_payTail rfl]
      rw [← hsignature]
      congr 2
      simp only
      omega
  · rintro ⟨⟨haction, rfl, rfl⟩, hbody, hml, htail⟩
    have hshape := settlementShape_of_serialize hbody
    have hdrop := HoldsTail.signature htail
    rw [length_payTail haction] at hdrop
    obtain ⟨period, periodStartUtc, entries, signature, action, term, preparation, epoch, eligible,
      manifest, pe, root, ids⟩ := s
    obtain rfl : action = .pay := haction
    obtain ⟨rfl, rfl, rfl, rfl, rfl, hentries, hpayout⟩ := hshape
    have hlength := congrArg List.length htail
    rw [List.length_append, length_payTail rfl, length_writeSignature, hml, List.length_drop] at hlength
    obtain ⟨hpe, hroot, hcount, hprefix, hwitnesses, hids⟩ :=
      (payTail_split rfl).mp ⟨writeSignature signature, htail.symm⟩
    simp only at hlength hpe hroot hcount hprefix hwitnesses hids hentries hpayout hml
    have hmaxval : MAX_OPERATION_PAYLOAD_BYTES = 131072 := rfl
    have hentry : MAX_STORAGE_SETTLEMENT_ENTRIES = 1024 := rfl
    have hn : (UInt32.ofNat entries.length).toNat = entries.length :=
      UInt32.toNat_ofNat_of_lt' (by omega : _ < 2 ^ 32)
    have hk : (UInt32.ofNat ids.length).toNat = ids.length :=
      UInt32.toNat_ofNat_of_lt' (by omega : _ < 2 ^ 32)
    have hroom : entries.length ≤
        (b.length - (SETTLEMENT_HEADER_SIZE + 4 + POA_SIGNATURE_SIZE)) / STORAGE_SETTLEMENT_ENTRY_SIZE := by
      rw [Nat.le_div_iff_mul_le (by decide)]
      omega
    refine ⟨by omega, pe, hpe, root, hroot, UInt32.ofNat entries.length, hcount, by omega, _,
      ⟨by omega, rfl⟩, by omega, entries, _, ⟨⟨hn.symm, hpayout⟩, hprefix, rfl⟩,
      UInt32.ofNat ids.length, by rw [hn]; exact hwitnesses, _, ⟨by rw [hn]; omega, rfl⟩, ?_, ids, _,
      ⟨⟨hk.symm, fun _ _ => trivial⟩, by rw [hn]; exact hids, rfl⟩, signature, ?_, hbody, rfl⟩
    · rw [hn, hk]
      omega
    · rw [hn, hk]
      rw [← hdrop]
      congr 1
      simp only
      omega

theorem readEligible_exact : Reader.Exact readEligible
    (fun e => e.storageId.1 ++ le32Of (encodeStoragePayoutBinding e.binding).length ++
      encodeStoragePayoutBinding e.binding)
    (fun e => (encodeStoragePayoutBinding e.binding).length ≤ 6344 ∧
      decodeStoragePayoutBinding (encodeStoragePayoutBinding e.binding) = some e.binding) := by
  rintro b ⟨storageId, binding⟩ r
  simp only [readEligible, (Reader.fixed_exact 32).bind, Reader.count_exact.bind, Reader.require_bind,
    Reader.bind_eq_some (p := Reader.bytes _), Reader.bytes_eq_some, Reader.ofOption_bind,
    Reader.pure_eq_some, true_and]
  constructor
  · rintro ⟨_, _, rfl, size, _, hsize, rfl, hmax, bytes, _, ⟨hlen, rfl⟩, _, hdecode, heq, rfl⟩
    cases heq
    have hbytes : bytes = encodeStoragePayoutBinding binding :=
      (decodeStoragePayoutBinding_eq_some.mp hdecode).2.2.2
    subst hbytes
    refine ⟨⟨by omega, hdecode⟩, ?_⟩
    simp [hlen]
  · rintro ⟨⟨hmax, hdecode⟩, rfl⟩
    exact ⟨storageId, _, by simp only [List.append_assoc], _, _, by omega, rfl, hmax, _, r,
      ⟨rfl, rfl⟩, binding, hdecode, rfl, rfl⟩

theorem concat_congr {α : Type} {enc enc' : α → Bytes} {l : List α} (h : ∀ a ∈ l, enc a = enc' a) :
    Reader.concat enc l = Reader.concat enc' l := by
  rw [Reader.concat, Reader.concat, List.map_congr_left h]

/-- The middle of the input, between the header and the signature. -/
structure Middle (b body : Bytes) : Prop where
  start : body <+: b.drop 17
  length : body.length + (17 + POA_SIGNATURE_SIZE) = b.length

theorem Middle.holdsTail (h : Middle b body) (hml : s.poaSignature.mlDsa.length = 3309) :
    HoldsTail b s ↔
      body = settlementTail s ∧ b.drop (b.length - POA_SIGNATURE_SIZE) = writeSignature s.poaSignature := by
  have hlast : b.length - POA_SIGNATURE_SIZE = 17 + body.length := by
    have := h.length
    omega
  rw [HoldsTail, drop_eq_append h.start, hlast]
  constructor
  · intro heq
    have hsig : (b.drop (17 + body.length)).length = (writeSignature s.poaSignature).length := by
      have := h.length
      rw [List.length_drop, length_writeSignature, hml]
      unfold POA_SIGNATURE_SIZE at this
      omega
    exact List.append_inj' heq hsig
  · rintro ⟨rfl, hsig⟩
    rw [hsig]

theorem Middle.signature_length (h : Middle b body) {signature : IdentityHybridSignature}
    (hsig : b.drop (b.length - POA_SIGNATURE_SIZE) = writeSignature signature) :
    signature.mlDsa.length = 3309 := by
  have hlength := congrArg List.length hsig
  have := h.length
  rw [List.length_drop, length_writeSignature] at hlength
  unfold POA_SIGNATURE_SIZE at *
  omega

/-- `ACTIVATE` is parsed from exactly its encodings. -/
theorem parseActivate_ok (hmiddle : Middle b body) :
    parseActivate b body period periodStartUtc = .ok s ↔
      (s.action = .activate ∧ s.period = period ∧ s.periodStartUtc = periodStartUtc) ∧
        serializeSettlementBody s ≠ none ∧ s.poaSignature.mlDsa.length = 3309 ∧ HoldsTail b s := by
  unfold parseActivate
  simp only [ite_refuse_ok, bind_ok, ofReader_ok, Prod.exists, Reader.fixed_exact 32 _ _ _,
    Reader.count_exact _ _ _, Reader.repeatN_exact (Reader.fixed_exact 32) _ _ _ _, true_and,
    sizeSub_ok, signatureAt_ok, canonicalSettlement_ok, not_not]
  constructor
  · rintro ⟨preparation, _, rfl, count, _, ⟨-, rfl⟩, hcount, _, ⟨-, rfl⟩, hroom, manifest, _,
      ⟨⟨hlen, -⟩, rfl⟩, rfl, _, ⟨-, rfl⟩, signature, hsignature, hbody, rfl⟩
    have hml := hmiddle.signature_length hsignature
    refine ⟨⟨rfl, rfl, rfl⟩, hbody, hml, (hmiddle.holdsTail hml).mpr ⟨?_, hsignature⟩⟩
    simp [settlementTail, hlen]
  · rintro ⟨⟨haction, rfl, rfl⟩, hbody, hml, htail⟩
    have hshape := settlementShape_of_serialize hbody
    obtain ⟨heq, hsignature⟩ := (hmiddle.holdsTail hml).mp htail
    obtain ⟨period, periodStartUtc, entries, signature, action, term, preparation, epoch, eligible,
      manifest, pe, root, ids⟩ := s
    obtain rfl : action = .activate := haction
    obtain ⟨rfl, rfl, rfl, rfl, rfl, rfl, rfl, hmanifest, hcount⟩ := hshape
    simp only at hmanifest hcount
    have hpos : manifest.length ≠ 0 := by simpa using hmanifest
    have hlength := hmiddle.length
    rw [heq] at hlength
    simp only [settlementTail, List.length_append, preparation.2, length_le32Of,
      Reader.length_concat (fun chunk : ChunkId => chunk.2)] at hlength
    have hroom : manifest.length ≤ (b.length - (POA_SIGNATURE_SIZE + 17 + 36)) / 32 := by
      rw [Nat.le_div_iff_mul_le (by decide)]
      omega
    refine ⟨preparation, _, by rw [heq]; simp only [settlementTail, List.append_assoc],
      manifest.length, _, ⟨by omega, rfl⟩, by omega, _, ⟨by omega, rfl⟩, by omega, manifest, [],
      ⟨⟨rfl, fun _ _ => trivial⟩, (List.append_nil _).symm⟩, rfl, _, ⟨by omega, rfl⟩, signature,
      hsignature, hbody, rfl⟩

/-- `PREPARE` is parsed from exactly its encodings. -/
theorem parsePrepare_ok (hmiddle : Middle b body) :
    parsePrepare b body period periodStartUtc = .ok s ↔
      (s.action = .prepare ∧ s.period = period ∧ s.periodStartUtc = periodStartUtc) ∧
        serializeSettlementBody s ≠ none ∧ s.poaSignature.mlDsa.length = 3309 ∧ HoldsTail b s ∧
        ∀ e ∈ s.eligible,
          decodeStoragePayoutBinding (encodeStoragePayoutBinding e.binding) = some e.binding := by
  unfold parsePrepare
  simp only [ite_refuse_ok, bind_ok, ofReader_ok, Prod.exists, Reader.fixed_exact 32 _ _ _,
    Reader.u64_exact _ _ _, Reader.count_exact _ _ _, Reader.repeatN_exact readEligible_exact _ _ _ _,
    true_and, sizeSub_ok, signatureAt_ok, canonicalSettlement_ok, not_not]
  constructor
  · rintro ⟨hmin, term, _, rfl, epoch, _, rfl, count, _, ⟨-, rfl⟩, hcount, _, ⟨-, rfl⟩, hroom,
      eligible, _, ⟨⟨hlen, hok⟩, rfl⟩, rfl, _, ⟨-, rfl⟩, signature, hsignature, hbody, rfl⟩
    have hml := hmiddle.signature_length hsignature
    have hshape := settlementShape_of_serialize hbody
    refine ⟨⟨rfl, rfl, rfl⟩, hbody, hml, (hmiddle.holdsTail hml).mpr ⟨?_, hsignature⟩,
      fun e he => (hok e he).2⟩
    have hwrite : Reader.concat writeEligibleBinding eligible = _ :=
      concat_congr fun e he => by
        rw [writeEligibleBinding, ← (hshape.2.2.2.2.2.2.2.2 e he).1]
    simp only [settlementTail, hlen, hwrite, List.append_assoc, List.append_nil]
  · rintro ⟨⟨haction, rfl, rfl⟩, hbody, hml, htail, hdecode⟩
    have hshape := settlementShape_of_serialize hbody
    obtain ⟨heq, hsignature⟩ := (hmiddle.holdsTail hml).mp htail
    obtain ⟨period, periodStartUtc, entries, signature, action, term, preparation, epoch, eligible,
      manifest, pe, root, ids⟩ := s
    obtain rfl : action = .prepare := haction
    obtain ⟨rfl, rfl, rfl, rfl, rfl, rfl, heligible, hcount, hall⟩ := hshape
    simp only at heligible hcount hall hdecode
    have hpos : eligible.length ≠ 0 := by simpa using heligible
    have hwrite : Reader.concat writeEligibleBinding eligible = _ :=
      concat_congr fun e he => by
        rw [writeEligibleBinding, ← (hall e he).1]
    have hlength := hmiddle.length
    rw [heq] at hlength
    have hunit : eligible.length * 6380 ≤ (Reader.concat writeEligibleBinding eligible).length := by
      refine Reader.mul_length_le_concat fun e he => ?_
      simp [writeEligibleBinding, (hall e he).1, e.storageId.2]
    simp only [settlementTail, List.length_append, term.2, length_le32Of, length_le64] at hlength
    have hroom : eligible.length ≤ (b.length - (POA_SIGNATURE_SIZE + 17 + 44)) / 6380 := by
      rw [Nat.le_div_iff_mul_le (by decide)]
      omega
    have hbytes : body = term.1 ++ (le64 epoch ++ (le32Of eligible.length ++
        Reader.concat writeEligibleBinding eligible)) := by
      rw [heq]
      simp only [settlementTail, List.append_assoc]
    refine ⟨by omega, term, _, hbytes, epoch, _, rfl, eligible.length, _, ⟨by omega, rfl⟩, by omega,
      _, ⟨by omega, rfl⟩, by omega, eligible, [],
      ⟨⟨rfl, fun e he => ⟨(hall e he).1.le, hdecode e he⟩⟩, ?_⟩, rfl, _, ⟨by omega, rfl⟩, signature,
      hsignature, hbody, rfl⟩
    rw [hwrite, List.append_nil]

/-- The binding codec loses nothing on the bindings of `s`. -/
def BindingsCanonical (s : StorageSettlement) : Prop :=
  ∀ e ∈ s.eligible, decodeStoragePayoutBinding (encodeStoragePayoutBinding e.binding) = some e.binding

theorem serializeStorageSettlement_eq_some :
    serializeStorageSettlement s = some b ↔
      serializeSettlementBody s ≠ none ∧ s.poaSignature.mlDsa.length = 3309 ∧
        b = settlementBytes s ++ writeSignature s.poaSignature := by
  unfold serializeStorageSettlement
  rw [Option.bind_eq_bind, Option.bind_eq_some_iff]
  constructor
  · rintro ⟨out, hout, h⟩
    split at h
    · cases h
    · next hml =>
      cases h
      obtain ⟨rfl, -⟩ := serializeSettlementBody_eq_some hout
      exact ⟨by simp [hout], not_not.mp hml, by rw [writeSignature, List.append_assoc]⟩
  · rintro ⟨hbody, hml, rfl⟩
    obtain ⟨out, hout⟩ := Option.ne_none_iff_exists'.mp hbody
    obtain ⟨rfl, -⟩ := serializeSettlementBody_eq_some hout
    refine ⟨_, hout, ?_⟩
    rw [if_neg (not_not.mpr hml), writeSignature, ← List.append_assoc]
    rfl

theorem settlementBytes_iff :
    b = settlementBytes s ++ writeSignature s.poaSignature ↔
      le64 s.period <+: b.drop 0 ∧ le64 s.periodStartUtc <+: b.drop 8 ∧
        [s.action.toByte] <+: b.drop 16 ∧ HoldsTail b s := by
  have hheader : (le64 s.period ++ le64 s.periodStartUtc ++ [s.action.toByte] <+: b.drop 0) ↔
      le64 s.period <+: b.drop 0 ∧ le64 s.periodStartUtc <+: b.drop 8 ∧
        [s.action.toByte] <+: b.drop 16 := by
    simp only [append_prefix_drop, List.length_append, length_le64, and_assoc]
  constructor
  · rintro rfl
    have hprefix : le64 s.period ++ le64 s.periodStartUtc ++ [s.action.toByte] <+:
        (settlementBytes s ++ writeSignature s.poaSignature).drop 0 :=
      ⟨settlementTail s ++ writeSignature s.poaSignature, by simp [settlementBytes]⟩
    obtain ⟨h₁, h₂, h₃⟩ := hheader.mp hprefix
    refine ⟨h₁, h₂, h₃, ?_⟩
    rw [HoldsTail, settlementBytes, List.append_assoc]
    exact List.drop_left' (by simp)
  · rintro ⟨h₁, h₂, h₃, htail⟩
    have hb := drop_eq_append (hheader.mpr ⟨h₁, h₂, h₃⟩)
    have hlen : 0 + (le64 s.period ++ le64 s.periodStartUtc ++ [s.action.toByte]).length = 17 := by
      simp
    rw [List.drop_zero, hlen, show b.drop 17 = _ from htail] at hb
    rw [settlementBytes, List.append_assoc]
    exact hb

theorem length_settlementTail (h : s.action ≠ .pay) :
    36 ≤ (settlementTail s).length := by
  cases haction : s.action with
  | pay => exact absurd haction h
  | prepare =>
    simp only [settlementTail, haction, List.length_append, s.fundedTermId.2, length_le64,
      length_le32Of]
    omega
  | activate =>
    simp only [settlementTail, haction, List.length_append, s.preparationId.2, length_le32Of]
    omega

theorem bindingsCanonical_of_nil (h : s.eligible = []) :
    BindingsCanonical s := by
  simp [BindingsCanonical, h]

/-- **The parser accepts exactly the encodings whose bindings survive their codec.** -/
theorem parseStorageSettlement_ok :
    parseStorageSettlement b = .ok s ↔
      serializeStorageSettlement s = some b ∧ BindingsCanonical s := by
  rw [serializeStorageSettlement_eq_some]
  unfold parseStorageSettlement
  simp only [ite_refuse_ok, bind_ok, u64At_ok, byteAt_ok]
  constructor
  · rintro ⟨hguard, period, h₁, start, h₂, action, h₃, h⟩
    push Not at hguard
    split at h
    · simp only [bind_ok, sizeSub_ok, ite_refuse_ok] at h
      obtain ⟨_, ⟨-, rfl⟩, body, hbody, hmin, h⟩ := h
      rw [bytesAt_ok (by omega)] at hbody
      have hmiddle : Middle b body := ⟨hbody.2, by omega⟩
      split at h
      · next hprepare =>
        obtain ⟨⟨haction, rfl, rfl⟩, hser, hml, htail, hdecode⟩ := (parsePrepare_ok hmiddle).mp h
        rw [hprepare] at h₃
        exact ⟨⟨hser, hml, settlementBytes_iff.mpr ⟨h₁, h₂, haction ▸ h₃, htail⟩⟩, hdecode⟩
      split at h
      · next hactivate =>
        obtain ⟨⟨haction, rfl, rfl⟩, hser, hml, htail⟩ := (parseActivate_ok hmiddle).mp h
        have hshape := settlementShape_of_serialize hser
        simp only [SettlementShape, haction] at hshape
        rw [hactivate] at h₃
        exact ⟨⟨hser, hml, settlementBytes_iff.mpr ⟨h₁, h₂, haction ▸ h₃, htail⟩⟩,
          bindingsCanonical_of_nil hshape.2.2.2.2.2.2.1⟩
      · cases h
    · next hpay =>
      obtain ⟨⟨haction, rfl, rfl⟩, hser, hml, htail⟩ := (parsePay_ok (by omega) (by omega)).mp h
      have hshape := settlementShape_of_serialize hser
      simp only [SettlementShape, haction] at hshape
      rw [not_not.mp hpay] at h₃
      exact ⟨⟨hser, hml, settlementBytes_iff.mpr ⟨h₁, h₂, haction ▸ h₃, htail⟩⟩,
        bindingsCanonical_of_nil hshape.2.2.2.1⟩
  · rintro ⟨⟨hser, hml, hb⟩, hdecode⟩
    obtain ⟨h₁, h₂, h₃, htail⟩ := settlementBytes_iff.mp hb
    obtain ⟨out, hout⟩ := Option.ne_none_iff_exists'.mp hser
    obtain ⟨rfl, hlimit, -⟩ := serializeSettlementBody_eq_some hout
    have hlength := congrArg List.length hb
    rw [List.length_append, length_writeSignature, hml] at hlength
    have hbytes : (settlementBytes s).length = 17 + (settlementTail s).length := by
      simp only [settlementBytes, List.length_append, length_le64, List.length_singleton]
    have hsig : POA_SIGNATURE_SIZE = 64 + 3309 := rfl
    have hmax : MAX_OPERATION_PAYLOAD_BYTES = 131072 := rfl
    refine ⟨by omega, s.period, h₁, s.periodStartUtc, h₂, s.action.toByte, h₃, ?_⟩
    have hmiddle : Middle b (settlementTail s) := by
      refine ⟨⟨writeSignature s.poaSignature, htail.symm⟩, ?_⟩
      omega
    cases haction : s.action with
    | pay =>
      rw [if_neg (by simp)]
      exact (parsePay_ok (by omega) (by omega)).mpr ⟨⟨haction, rfl, rfl⟩, hser, hml, htail⟩
    | prepare =>
      have hmin := length_settlementTail (s := s) (by simp [haction])
      rw [if_pos (by decide)]
      simp only [bind_ok, sizeSub_ok, ite_refuse_ok]
      refine ⟨_, ⟨by omega, rfl⟩, settlementTail s, ?_, by omega, ?_⟩
      · rw [bytesAt_ok (by omega)]
        exact ⟨by omega, hmiddle.start⟩
      · rw [if_pos trivial]
        exact (parsePrepare_ok hmiddle).mpr ⟨⟨haction, rfl, rfl⟩, hser, hml, htail, hdecode⟩
    | activate =>
      have hmin := length_settlementTail (s := s) (by simp [haction])
      rw [if_pos (by decide)]
      simp only [bind_ok, sizeSub_ok, ite_refuse_ok]
      refine ⟨_, ⟨by omega, rfl⟩, settlementTail s, ?_, by omega, ?_⟩
      · rw [bytesAt_ok (by omega)]
        exact ⟨by omega, hmiddle.start⟩
      · rw [if_neg (by decide), if_pos trivial]
        exact (parseActivate_ok hmiddle).mpr ⟨⟨haction, rfl, rfl⟩, hser, hml, htail⟩

theorem deserializeStorageSettlement_eq_some :
    deserializeStorageSettlement b = some s ↔
      serializeStorageSettlement s = some b ∧ BindingsCanonical s := by
  rw [← parseStorageSettlement_ok, deserializeStorageSettlement]
  cases parseStorageSettlement b with
  | error fault => simp [Except.toOption]
  | ok s' => simp [Except.toOption]

/-- **The settlement codec**: round trip for settlements whose payout bindings
    survive their own codec, canonicity, and reads within bounds. -/
theorem storageSettlement_codec :
    (∀ s b, serializeStorageSettlement s = some b →
      (∀ e ∈ s.eligible,
        decodeStoragePayoutBinding (encodeStoragePayoutBinding e.binding) = some e.binding) →
      deserializeStorageSettlement b = some s) ∧
    (∀ b s, deserializeStorageSettlement b = some s → serializeStorageSettlement s = some b) ∧
    ∀ b, parseStorageSettlement b ≠ .error .overrun ∧ parseStorageSettlement b ≠ .error .underflow := by
  refine ⟨fun s b h hbindings => deserializeStorageSettlement_eq_some.mpr ⟨h, hbindings⟩,
    fun b s h => (deserializeStorageSettlement_eq_some.mp h).1, fun b => ?_⟩
  have hsafe := parseStorageSettlement_safe b
  constructor
  · intro h
    have := hsafe _ h
    contradiction
  · intro h
    have := hsafe _ h
    contradiction

/-! ### The preparation of one term -/

section Sample

def sampleEligible : StorageSettlementBinding where
  storageId := FixedBytes.leading 31 4
  binding :=
    { payoutAccount := FixedBytes.leading 31 5
      authorization := { ed25519 := FixedBytes.zero 64, mlDsa := List.replicate 2420 0 }
      storageProof := List.replicate 3828 0 }

def samplePrepare : StorageSettlement where
  period := 1
  periodStartUtc := 60
  poaSignature := { ed25519 := FixedBytes.zero 64, mlDsa := List.replicate 3309 0 }
  action := .prepare
  fundedTermId := FixedBytes.leading 31 6
  assignmentEpoch := 1
  eligible := [sampleEligible]

theorem length_sampleEligible : (encodeStoragePayoutBinding sampleEligible.binding).length = 6344 := by
  rw [encodeStoragePayoutBinding, List.length_append, List.length_append, List.length_append,
    sampleEligible, List.length_replicate, List.length_replicate]
  rfl

theorem decode_sampleEligible :
    decodeStoragePayoutBinding (encodeStoragePayoutBinding sampleEligible.binding) =
      some sampleEligible.binding := by
  refine decodeStoragePayoutBinding_eq_some.mpr ⟨?_, rfl, List.length_replicate, rfl⟩
  rw [length_sampleEligible]
  decide

theorem prepareBody_samplePrepare : prepareBody samplePrepare = some (settlementTail samplePrepare) := by
  have hwrite : writeEligible none samplePrepare.eligible =
      some (Reader.concat writeEligibleBinding samplePrepare.eligible) := by
    show writeEligible none [sampleEligible] = _
    rw [writeEligible, if_neg (by decide)]
    simp only [length_sampleEligible, decode_sampleEligible]
    rfl
  rw [prepareBody, if_neg (by decide), hwrite]
  rfl

theorem length_settlementBytes_samplePrepare : (settlementBytes samplePrepare).length = 6441 := by
  have hentry : (Reader.concat writeEligibleBinding samplePrepare.eligible).length = 6380 := by
    show (writeEligibleBinding sampleEligible ++ []).length = _
    rw [List.append_nil, writeEligibleBinding, List.length_append, length_sampleEligible]
    rfl
  show (_ ++ (_ ++ Reader.concat writeEligibleBinding samplePrepare.eligible)).length = _
  simp only [List.length_append, hentry]
  rfl

theorem serializeSettlementBody_samplePrepare :
    serializeSettlementBody samplePrepare = some (settlementBytes samplePrepare) := by
  rw [serializeSettlementBody, if_neg (by decide), if_pos (by decide), if_neg (by decide)]
  dsimp only
  rw [if_pos (show samplePrepare.action = .prepare from rfl), prepareBody_samplePrepare, Option.bind_eq_bind, Option.bind_some, ← settlementBytes,
    withinLimit_eq_some, length_settlementBytes_samplePrepare]
  exact ⟨by decide, rfl⟩

/-- A preparation with one payout binding is read back as it was. -/
theorem storageSettlement_codec_samplePrepare : ∃ b, serializeStorageSettlement samplePrepare = some b ∧
    deserializeStorageSettlement b = some samplePrepare := by
  have hwritten := serializeStorageSettlement_eq_some.mpr
    ⟨by rw [serializeSettlementBody_samplePrepare]; exact Option.some_ne_none _, List.length_replicate, rfl⟩
  refine ⟨_, hwritten, storageSettlement_codec.1 _ _ hwritten fun e he => ?_⟩
  rw [List.mem_singleton.mp he]
  exact decode_sampleEligible

end Sample

end Cybou
