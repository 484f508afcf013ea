import Cybou.AssignmentDraw
import Cybou.EvidenceRuns
import Cybou.OperationCodec
import Cybou.StateStore

/-! # Frozen assignments and their attestations (`storage_assignment.cpp`, `storage_assignment_attestation.cpp`)

The plan of a slot is written down before the PoA key signs it, in a row whose name leaves
out the seed, the payer and the providers; a row that is there is never written again.  The
portable attestation leaves out what can be drawn again, the providers that were selected.
-/

namespace Cybou

open Library PrivateApplicationStore

section

variable [Crypto]

/-! ### Freezing -/

/-- `PrepareStorageAssignment(plan.context, plan.eligible) == plan`; `none` where the draw throws. -/
def isCanonical (plan : StorageAssignmentPlan) : Option Bool :=
  match prepareStorageAssignment plan.context plan.eligible with
  | .thrown => none
  | .refused => some false
  | .plan expected => some (decide (expected = plan))

/-- What `FreezeStorageAssignment` stages in its batch: the outer `none` is an escaping exception,
    the inner one the answer `false`. -/
def freezeEdits (db : PrivateApplicationStore) (plan : StorageAssignmentPlan) :
    Option (Option (List (Edit Bytes ApplicationRow))) :=
  (isCanonical plan).map fun canonical =>
    if canonical = false then none
    else
      let key := storageAssignmentKey plan.context
      let encoded := encodeStorageAssignment plan
      match db.get key with
      | some prior => if prior = encoded then some [] else none
      | none =>
        -- existing unreadable records are never overwritten
        if db.has key = true ∨ db.canPut key encoded = false then none
        else some [.put key (.value encoded)]

def commitBatch (db : PrivateApplicationStore) (edits : List (Edit Bytes ApplicationRow)) (fate : Fate) :
    Bool × PrivateApplicationStore :=
  if db.unlocked = false then (false, db)
  else (decide (fate = .done), { db with rows := db.rows.write edits fate })

/-- `FreezeStorageAssignment`; a record that is there already is not committed again. -/
def freezeStorageAssignment (db : PrivateApplicationStore) (plan : StorageAssignmentPlan) (fate : Fate) :
    Option (Bool × PrivateApplicationStore) :=
  (freezeEdits db plan).map fun edits =>
    match edits with
    | none => (false, db)
    | some [] => (true, db)
    | some edits => commitBatch db edits fate

/-! ### Attestations -/

structure AttestedStorageAssignment where
  plan : StorageAssignmentPlan
  signature : IdentityHybridSignature
deriving DecidableEq, Repr

structure StorageAssignmentBindingProof where
  storageId : FixedBytes 32
  binding : StoragePayoutBinding
deriving DecidableEq, Repr

def ML_DSA_65_SIGNATURE_SIZE : Nat := 3309

/-- `Digest` of `storage_assignment_attestation.cpp`; the outer `none` is an escaping exception. -/
def attestationDigest (g : VerifiedNetworkGenesis) (plan : StorageAssignmentPlan) : Option (Option Hash256) :=
  if g.networkBinding ≠ plan.context.networkBinding then some none
  else (isCanonical plan).map fun canonical =>
    if canonical = false then none
    else some (Crypto.sha256 (ascii "CYBOU/STORAGE-ASSIGNMENT-ATTESTATION" ++ plan.commitment.1))

/-- `Key` of `storage_assignment_attestation.cpp`. -/
def attestationKey (commitment : FixedBytes 32) : Bytes :=
  ascii "storage/assignment-attestation/" ++ hex commitment.1

/-- `BindingKey`. -/
def attestationBindingKey (commitment storage : FixedBytes 32) : Bytes :=
  attestationKey commitment ++ ascii "/binding/" ++ hex storage.1

def verifyStorageAssignmentAttestation (g : VerifiedNetworkGenesis) (assignment : AttestedStorageAssignment) :
    Option Bool :=
  (attestationDigest g assignment.plan).map fun digest =>
    digest.any fun digest => verifyIdentityMessage g.poaKey assignment.signature digest.1

/-- `Read` of `storage_assignment_attestation.cpp`. -/
def readAttestation (db : PrivateApplicationStore) (g : VerifiedNetworkGenesis) (plan : StorageAssignmentPlan) :
    Option (Option AttestedStorageAssignment) :=
  match (db.get (attestationKey plan.commitment)).bind (readBinary BINARY_LIMIT (readSignature ML_DSA_65_SIGNATURE_SIZE)) with
  | none => some none
  | some signature =>
    let result := { plan, signature }
    (verifyStorageAssignmentAttestation g result).map fun valid => if valid = true then some result else none

def loadStorageAssignmentAttestation (db : PrivateApplicationStore) (g : VerifiedNetworkGenesis)
    (context : StorageAssignmentContext) : Option (Option AttestedStorageAssignment) :=
  (loadStorageAssignment db context).bind fun plan =>
    match plan with
    | none => some none
    | some plan => readAttestation db g plan

/-! ### Bindings -/

def boundProviders (networkBinding : Hash256) (registry : IdentityRegistry) :
    List StorageAssignmentBindingProof → Option (List StorageAssignmentProvider)
  | [] => some []
  | proof :: proofs =>
    match registry.find proof.binding.payoutAccount with
    | none => none
    | some identity =>
      if identity.authorizationKey.purpose ≠ .authorization ∨
          verifyStoragePayoutBindingStorageKey proof.binding networkBinding proof.storageId = false ∨
          verifyIdentityMessage identity.authorizationKey proof.binding.authorization
            (storagePayoutBindingDigest networkBinding proof.storageId proof.binding.payoutAccount).1 = false then none
      else (boundProviders networkBinding registry proofs).map fun providers =>
        { storageId := proof.storageId, payoutAccount := proof.binding.payoutAccount } :: providers

def verifyStorageAssignmentBindings (plan : StorageAssignmentPlan) (registry : IdentityRegistry)
    (snapshotId : Hash256) (proofs : List StorageAssignmentBindingProof) : Option Bool :=
  if plan.context.finalizedSeed ≠ snapshotId ∨ proofs = [] ∨ proofs.length ≠ plan.eligible.length ∨
      proofs.length > MAX_STORAGE_ASSIGNMENT_CANDIDATES then some false
  else (isCanonical plan).map fun canonical =>
    canonical && (boundProviders plan.context.networkBinding registry proofs).any fun providers =>
      decide ((providers.mergeSort fun a b => decide (a.order ≤ b.order)) = plan.eligible)

def storedBindings (db : PrivateApplicationStore) (commitment : FixedBytes 32) :
    List StorageAssignmentProvider → Option (List StorageAssignmentBindingProof)
  | [] => some []
  | provider :: providers => do
    let bytes ← db.get (attestationBindingKey commitment provider.storageId)
    let binding ← decodeStoragePayoutBinding bytes
    let proofs ← storedBindings db commitment providers
    return { storageId := provider.storageId, binding } :: proofs

def loadStorageAssignmentBindings (db : PrivateApplicationStore) (g : VerifiedNetworkGenesis)
    (context : StorageAssignmentContext) (registry : IdentityRegistry) (snapshotId : Hash256) :
    Option (Option (List StorageAssignmentBindingProof)) :=
  (loadStorageAssignmentAttestation db g context).bind fun attested =>
    match attested.bind fun a => (storedBindings db a.plan.commitment a.plan.eligible).map fun proofs => (a, proofs) with
    | none => some none
    | some (a, proofs) =>
      (verifyStorageAssignmentBindings a.plan registry snapshotId proofs).map fun valid =>
        if valid = true then some proofs else none

/-! ### Signing -/

structure PoaSigner where
  publicKey : Option IdentityHybridPublicKey
  sign : Bytes → Option IdentityHybridSignature

/-- A call of `AttestStorageAssignment`, with the fates of its two batches. -/
structure AttestCall where
  plan : StorageAssignmentPlan
  registry : IdentityRegistry
  snapshotId : Hash256
  proofs : List StorageAssignmentBindingProof
  signer : PoaSigner
  freezeFate : Fate
  fate : Fate

structure AttestResult where
  /-- `none` is an escaping exception. -/
  answer : Option (Option AttestedStorageAssignment)
  db : PrivateApplicationStore
  /-- The digest that the signer was asked to sign. -/
  signed : Option Hash256 := none

/-- The changes of the second batch; `none` where one is refused. -/
def attestationEdits (db : PrivateApplicationStore) (commitment : FixedBytes 32) (signature : IdentityHybridSignature)
    (proofs : List StorageAssignmentBindingProof) : Option (List (Edit Bytes ApplicationRow)) :=
  let bindings := proofs.map fun proof =>
    (attestationBindingKey commitment proof.storageId, encodeStoragePayoutBinding proof.binding)
  let rows := bindings ++ [(attestationKey commitment, writeSignature signature)]
  if (rows.all fun row => db.canPut row.1 row.2) = true then some (rows.map fun row => .put row.1 (.value row.2))
  else none

/-- The second batch of `AttestStorageAssignment`, when the plan has been frozen. -/
def attestFrozen (g : VerifiedNetworkGenesis) (db : PrivateApplicationStore) (call : AttestCall) (digest : Hash256) :
    AttestResult :=
  match readAttestation db g call.plan with
  | none => { answer := none, db }
  | some (some cached) =>
    match loadStorageAssignmentBindings db g call.plan.context call.registry call.snapshotId with
    | none => { answer := none, db }
    | some none => { answer := some none, db }
    | some (some _) => { answer := some (some cached), db }
  | some none =>
    -- an unreadable signature is never replaced
    if db.has (attestationKey call.plan.commitment) = true then { answer := some none, db }
    else
      match call.signer.sign digest.1 with
      | none => { answer := some none, db, signed := some digest }
      | some signature =>
        match verifyStorageAssignmentAttestation g { plan := call.plan, signature } with
        | none => { answer := none, db, signed := some digest }
        | some false => { answer := some none, db, signed := some digest }
        | some true =>
          match attestationEdits db call.plan.commitment signature call.proofs with
          | none => { answer := some none, db, signed := some digest }
          | some edits =>
            let (committed, db) := commitBatch db edits call.fate
            { answer := some (if committed = true then some { plan := call.plan, signature } else none)
              db, signed := some digest }

def attestStorageAssignment (g : VerifiedNetworkGenesis) (db : PrivateApplicationStore) (call : AttestCall) :
    AttestResult :=
  match attestationDigest g call.plan with
  | none => { answer := none, db }
  | some none => { answer := some none, db }
  | some (some digest) =>
    if call.signer.publicKey ≠ some g.poaKey then { answer := some none, db }
    else
      match verifyStorageAssignmentBindings call.plan call.registry call.snapshotId call.proofs with
      | none => { answer := none, db }
      | some false => { answer := some none, db }
      | some true =>
        match freezeEdits db call.plan with
        | none => { answer := none, db }
        | some none => { answer := some none, db }
        | some (some edits) =>
          let (frozen, db) := commitBatch db edits call.freezeFate
          if frozen = true then attestFrozen g db call digest else { answer := some none, db }

/-! ### The portable attestation -/

def ATTESTATION_FIXED_SIZE : Nat := 185 + 4 + 64 + 3309

def writeAttestation (assignment : AttestedStorageAssignment) : Bytes :=
  writeContext assignment.plan.context ++ writeProviders assignment.plan.eligible ++ writeSignature assignment.signature

/-- `EncodeStorageAssignmentAttestation`; the outer `none` is an escaping exception. -/
def encodeStorageAssignmentAttestation (assignment : AttestedStorageAssignment) : Option (Option Bytes) :=
  (isCanonical assignment.plan).map fun canonical =>
    if canonical = false ∨ assignment.signature.mlDsa.length ≠ ML_DSA_65_SIGNATURE_SIZE then none
    else binaryObject MAX_OPERATION_PAYLOAD_BYTES (writeAttestation assignment)

def readAttestationFields (size : Nat) :
    Reader (StorageAssignmentContext × List StorageAssignmentProvider × IdentityHybridSignature) := do
  let context ← readContext
  let count ← Reader.count
  Reader.require (count ≠ 0 ∧ count ≤ MAX_STORAGE_ASSIGNMENT_CANDIDATES ∧ size = ATTESTATION_FIXED_SIZE + count * 64)
  let eligible ← Reader.growN readProvider
    (fun prior provider => prior.getLast?.all (fun last => decide (last.order < provider.order)) = true) count []
  let signature ← readSignature ML_DSA_65_SIGNATURE_SIZE
  return (context, eligible, signature)

/-- `DecodeStorageAssignmentAttestation`.  The size has been checked, so that the signature is read
    whatever comes of the draw. -/
def decodeStorageAssignmentAttestation (bytes : Bytes) : Option (Option AttestedStorageAssignment) :=
  if bytes.length < ATTESTATION_FIXED_SIZE ∨ bytes.length > MAX_OPERATION_PAYLOAD_BYTES then some none
  else
    match (readAttestationFields bytes.length).whole bytes with
    | none => some none
    | some (context, eligible, signature) =>
      match prepareStorageAssignment context eligible with
      | .thrown => none
      | .refused => some none
      | .plan plan => some (some { plan, signature })

/-! ### Plans that are their own draw -/

/-- `PrepareStorageAssignment` makes the plan from its own providers. -/
def StorageAssignmentPlan.Canonical (plan : StorageAssignmentPlan) : Prop :=
  prepareStorageAssignment plan.context plan.eligible = .plan plan

theorem isCanonical_eq_true {plan : StorageAssignmentPlan} : isCanonical plan = some true ↔ plan.Canonical := by
  unfold isCanonical StorageAssignmentPlan.Canonical
  cases hprepare : prepareStorageAssignment plan.context plan.eligible with
  | refused => simp
  | thrown => simp
  | plan expected => simp

variable {eligible : List StorageAssignmentProvider}

theorem prepareStorageAssignment_fields {context : StorageAssignmentContext}
    {plan : StorageAssignmentPlan} (h : prepareStorageAssignment context eligible = .plan plan) :
    plan.context = context ∧ plan.eligible = sortUnique StorageAssignmentProvider.order eligible ∧ eligible ≠ [] ∧
      context.replicas.toNat ≤ 2 := by
  unfold prepareStorageAssignment at h
  split at h
  · cases h
  next hchecks =>
  dsimp only at h
  split at h
  · cases h
  split at h
  · cases h
  split at h
  · cases h
  split at h
  · cases h
  cases h
  simp only [not_or] at hchecks
  obtain ⟨-, -, -, -, -, -, -, hreplicas, hne, -⟩ := hchecks
  refine ⟨rfl, rfl, hne, ?_⟩
  rw [gt_iff_lt, not_lt, UInt8.le_iff_toNat_le] at hreplicas
  exact hreplicas

structure PlanShape (plan : StorageAssignmentPlan) : Prop where
  ascending : plan.eligible.Pairwise fun p q => p.order < q.order
  nonempty : plan.eligible ≠ []
  eligible : plan.eligible.length ≤ MAX_STORAGE_ASSIGNMENT_CANDIDATES
  selected : plan.selected.length ≤ 2

theorem StorageAssignmentPlan.Canonical.shape {plan : StorageAssignmentPlan} (h : plan.Canonical) : PlanShape plan := by
  obtain ⟨-, heligible, hne, hreplicas⟩ := prepareStorageAssignment_fields h
  refine ⟨?_, hne, length_le_of_plan h, ?_⟩
  · rw [heligible]
    exact (sortUnique_spec storageAssignmentProvider_order_injective _).1
  · rw [(planFacts h).count]
    exact hreplicas

theorem canonical_of_ascending {context : StorageAssignmentContext}
    {plan : StorageAssignmentPlan} (h : prepareStorageAssignment context eligible = .plan plan)
    (hascending : eligible.Pairwise fun p q => p.order < q.order) :
    plan.context = context ∧ plan.eligible = eligible ∧ plan.Canonical := by
  obtain ⟨hcontext, heligible, -, -⟩ := prepareStorageAssignment_fields h
  rw [sortUnique_of_ascending storageAssignmentProvider_order_injective hascending] at heligible
  refine ⟨hcontext, heligible, ?_⟩
  unfold StorageAssignmentPlan.Canonical
  rw [hcontext, heligible]
  exact h

/-! ### The fields of a record -/

omit [Crypto] in
theorem readContext_exact : Reader.Exact readContext writeContext fun _ => True := by
  intro b context r
  simp only [readContext, (Reader.fixed_exact 32).bind, Reader.u64_exact.bind, Reader.u8_exact.bind, Reader.pure_eq_some,
    true_and]
  constructor
  · rintro ⟨network, _, rfl, publication, _, rfl, chunk, _, rfl, seed, _, rfl, payer, _, rfl, epoch, _, rfl, start, _, rfl,
      termEnd, _, rfl, replicas, _, rfl, rfl, rfl⟩
    simp [writeContext]
  · rintro rfl
    exact ⟨_, _, by simp [writeContext], _, _, rfl, _, _, rfl, _, _, rfl, _, _, rfl, _, _, rfl, _, _, rfl, _, _, rfl,
      _, _, rfl, rfl, rfl⟩

abbrev writeProvider (p : StorageAssignmentProvider) : Bytes := p.storageId.1 ++ p.payoutAccount.1

omit [Crypto] in
theorem readProvider_exact : Reader.Exact readProvider writeProvider fun _ => True := by
  intro b provider r
  simp only [readProvider, (Reader.fixed_exact 32).bind, Reader.pure_eq_some, true_and]
  constructor
  · rintro ⟨storageId, _, rfl, account, _, rfl, rfl, rfl⟩
    simp
  · rintro rfl
    exact ⟨_, _, by simp [writeProvider], _, _, rfl, rfl, rfl⟩

omit [Crypto] in
theorem length_writeContext (context : StorageAssignmentContext) : (writeContext context).length = 185 := by
  simp [writeContext, context.networkBinding.2, context.publication.2, context.chunk.2, context.finalizedSeed.2,
    context.payer.2]

omit [Crypto] in
theorem length_writeProviders (providers : List StorageAssignmentProvider) :
    (writeProviders providers).length = 4 + providers.length * 64 := by
  have hlength := Reader.length_concat (fun p : StorageAssignmentProvider => by
    rw [writeProvider, List.length_append, p.storageId.2, p.payoutAccount.2] : ∀ p, (writeProvider p).length = 64) providers
  rw [writeProviders, List.length_append, length_le32Of, hlength]

/-! ### The portable attestation round trip -/

variable {b : Bytes}

omit [Crypto] in
theorem readAttestationFields_eq_some {size : Nat} {context : StorageAssignmentContext}
    {signature : IdentityHybridSignature} :
    (readAttestationFields size).whole b = some (context, eligible, signature) ↔
      (eligible ≠ [] ∧ eligible.length ≤ MAX_STORAGE_ASSIGNMENT_CANDIDATES ∧
        size = ATTESTATION_FIXED_SIZE + eligible.length * 64) ∧
      (eligible.Pairwise fun p q => p.order < q.order) ∧ signature.mlDsa.length = ML_DSA_65_SIGNATURE_SIZE ∧
      b = writeContext context ++ (writeProviders eligible ++ writeSignature signature) := by
  rw [Reader.whole_eq_some]
  simp only [readAttestationFields, readContext_exact.bind, Reader.count_exact.bind, Reader.require_bind, true_and]
  simp only [Reader.bind_eq_some, Reader.growN_eq_some readProvider_exact, readSignature_exact ML_DSA_65_SIGNATURE_SIZE _ _ _,
    Reader.pure_eq_some, List.nil_append]
  constructor
  · rintro ⟨_, _, rfl, count, _, hcount, rfl, ⟨hne, hmost, hsize⟩, _, _, ⟨new, rfl, -, hsplit, rfl, rfl⟩, _, _,
      ⟨hsignature, rfl⟩, heq, rfl⟩
    obtain ⟨rfl, hrest⟩ := Prod.mk.inj heq
    obtain ⟨rfl, rfl⟩ := Prod.mk.inj hrest
    refine ⟨⟨fun hnil => hne (by rw [hnil]; rfl), hmost, hsize⟩, ascending_iff_split.mpr hsplit, hsignature, ?_⟩
    simp only [writeProviders, List.append_assoc, List.append_nil]
  · rintro ⟨⟨hne, hmost, hsize⟩, hascending, hsignature, rfl⟩
    have hmax : MAX_STORAGE_ASSIGNMENT_CANDIDATES = 1024 := rfl
    refine ⟨context, _, rfl, eligible.length, Reader.concat writeProvider eligible ++ writeSignature signature, by omega, ?_,
      ⟨fun hzero => hne (List.length_eq_zero_iff.mp hzero), hmost, hsize⟩, _, _,
      ⟨eligible, rfl, fun _ _ => trivial, ascending_iff_split.mp hascending, rfl, rfl⟩, signature, [],
      ⟨hsignature, (List.append_nil _).symm⟩, rfl, rfl⟩
    simp only [writeProviders, List.append_assoc]

variable {assignment : AttestedStorageAssignment}

theorem encodeStorageAssignmentAttestation_eq_some :
    encodeStorageAssignmentAttestation assignment = some (some b) ↔
      assignment.plan.Canonical ∧ assignment.signature.mlDsa.length = ML_DSA_65_SIGNATURE_SIZE ∧
        b = writeAttestation assignment ∧ b.length ≤ MAX_OPERATION_PAYLOAD_BYTES := by
  unfold encodeStorageAssignmentAttestation
  rw [Option.map_eq_some_iff]
  constructor
  · rintro ⟨canonical, hcanonical, hencode⟩
    split at hencode
    · cases hencode
    next hchecks =>
    rw [not_or, Bool.not_eq_false, not_not] at hchecks
    obtain ⟨rfl, hsignature⟩ := hchecks
    rw [binaryObject, Option.ite_none_right_eq_some, Option.some.injEq] at hencode
    obtain ⟨hsize, rfl⟩ := hencode
    exact ⟨isCanonical_eq_true.mp hcanonical, hsignature, rfl, hsize⟩
  · rintro ⟨hcanonical, hsignature, rfl, hsize⟩
    refine ⟨true, isCanonical_eq_true.mpr hcanonical, ?_⟩
    rw [if_neg (not_or.mpr ⟨Bool.noConfusion, not_not.mpr hsignature⟩), binaryObject, if_pos hsize]

/-- **Encoding and decoding of an attestation undo each other.** -/
theorem attestation_inverse :
    decodeStorageAssignmentAttestation b = some (some assignment) ↔
      encodeStorageAssignmentAttestation assignment = some (some b) := by
  rw [encodeStorageAssignmentAttestation_eq_some]
  unfold decodeStorageAssignmentAttestation
  constructor
  · intro hdecode
    split at hdecode
    · cases hdecode
    next hsize =>
    rw [not_or, not_lt, not_lt] at hsize
    cases hfields : (readAttestationFields b.length).whole b with
    | none =>
      rw [hfields] at hdecode
      cases hdecode
    | some fields =>
      obtain ⟨context, eligible, signature⟩ := fields
      rw [hfields] at hdecode
      obtain ⟨-, hascending, hsignature, hbytes⟩ := readAttestationFields_eq_some.mp hfields
      dsimp only at hdecode
      cases hprepare : prepareStorageAssignment context eligible with
      | refused =>
        rw [hprepare] at hdecode
        cases hdecode
      | thrown =>
        rw [hprepare] at hdecode
        cases hdecode
      | plan plan =>
        rw [hprepare] at hdecode
        obtain rfl := Option.some.inj (Option.some.inj hdecode)
        obtain ⟨hcontext, heligible, hcanonical⟩ := canonical_of_ascending hprepare hascending
        refine ⟨hcanonical, hsignature, ?_, hsize.2⟩
        rw [writeAttestation, hcontext, heligible, List.append_assoc]
        exact hbytes
  · rintro ⟨hcanonical, hsignature, rfl, hsize⟩
    have hshape := hcanonical.shape
    have hlength : (writeAttestation assignment).length = ATTESTATION_FIXED_SIZE + assignment.plan.eligible.length * 64 := by
      have hfixed : ATTESTATION_FIXED_SIZE = 3562 := rfl
      have hdsa : ML_DSA_65_SIGNATURE_SIZE = 3309 := rfl
      rw [writeAttestation, writeSignature, List.length_append, List.length_append, List.length_append, length_writeContext,
        length_writeProviders, assignment.signature.ed25519.2, hsignature]
      omega
    have hfields : (readAttestationFields (writeAttestation assignment).length).whole (writeAttestation assignment) =
        some (assignment.plan.context, assignment.plan.eligible, assignment.signature) :=
      readAttestationFields_eq_some.mpr ⟨⟨hshape.nonempty, hshape.eligible, hlength⟩, hshape.ascending, hsignature,
        List.append_assoc _ _ _⟩
    rw [if_neg (by rw [not_or, not_lt, not_lt]; exact ⟨by omega, hsize⟩), hfields]
    dsimp only
    rw [hcanonical]

/-! ### The record of a plan -/

omit [Crypto] in
theorem readProviders_exact {maximum : Nat} (hmax : maximum < 2 ^ 32) :
    Reader.Exact (readProviders maximum) writeProviders fun providers => providers.length ≤ maximum := by
  intro b providers r
  simp only [readProviders, Reader.count_exact.bind, Reader.require_bind, Reader.repeatN_exact readProvider_exact _ _ _ _]
  constructor
  · rintro ⟨count, _, -, rfl, hle, ⟨rfl, -⟩, rfl⟩
    refine ⟨hle, ?_⟩
    rw [writeProviders, List.append_assoc]
  · rintro ⟨hle, rfl⟩
    refine ⟨providers.length, _, by omega, ?_, hle, ⟨rfl, fun _ _ => trivial⟩, rfl⟩
    rw [writeProviders, List.append_assoc]

theorem canonical_of_prepare {context : StorageAssignmentContext}
    {plan : StorageAssignmentPlan} (h : prepareStorageAssignment context eligible = .plan plan) : plan.Canonical := by
  obtain ⟨hcontext, heligible, -, -⟩ := prepareStorageAssignment_fields h
  obtain ⟨hascending, hmem⟩ := sortUnique_spec storageAssignmentProvider_order_injective eligible
  have hlimit := length_le_of_plan h
  have hnodup : (sortUnique StorageAssignmentProvider.order eligible).Nodup := by
    refine hascending.imp fun hlt heq => ?_
    rw [heq] at hlt
    exact lt_irrefl _ hlt
  have hle := (hnodup.subperm fun p hp => (hmem p).mp hp).length_le
  unfold StorageAssignmentPlan.Canonical
  rw [hcontext, heligible, prepareStorageAssignment_congr hmem (hle.trans hlimit) hlimit]
  exact h

theorem usable_storageAssignmentKey (context : StorageAssignmentContext) :
    usable (storageAssignmentKey context) = true := by
  have hprefix : (ascii "storage/assignment/").length = 19 := by decide
  refine usable_of_length (by decide) (by decide) ?_
  rw [List.length_append, length_hex, (Crypto.sha256 _).2, hprefix]
  decide

def readFrozen (context : StorageAssignmentContext) :
    Reader (List StorageAssignmentProvider × List StorageAssignmentProvider) := do
  let c ← readContext
  Reader.require (c = context)
  let eligible ← readProviders MAX_STORAGE_ASSIGNMENT_CANDIDATES
  let selected ← readProviders 2
  return (eligible, selected)

variable {db : PrivateApplicationStore} {context : StorageAssignmentContext} {plan : StorageAssignmentPlan}

omit [Crypto] in
theorem readFrozen_encode (h : PlanShape plan) : readBinary BINARY_LIMIT (readFrozen context)
    (encodeStorageAssignment plan) = if plan.context = context then some (plan.eligible, plan.selected) else none := by
  have hmax : MAX_STORAGE_ASSIGNMENT_CANDIDATES = 1024 := rfl
  have hsize : (encodeStorageAssignment plan).length ≤ BINARY_LIMIT := by
    have heligible := h.eligible
    have hselected := h.selected
    rw [encodeStorageAssignment, List.length_append, List.length_append, length_writeContext, length_writeProviders,
      length_writeProviders]
    unfold BINARY_LIMIT
    omega
  rw [readBinary, if_neg (not_lt.mpr hsize)]
  by_cases hcontext : plan.context = context
  · rw [if_pos hcontext, Reader.whole_eq_some, readFrozen, encodeStorageAssignment, List.append_assoc,
      readContext_exact.bind_append trivial, Reader.require_bind_apply, if_pos hcontext,
      (readProviders_exact (by decide)).bind_append h.eligible, ← List.append_nil (writeProviders plan.selected),
      (readProviders_exact (by decide)).bind_append h.selected]
    rfl
  · rw [if_neg hcontext, Option.eq_none_iff_forall_ne_some]
    intro fields hfields
    rw [Reader.whole_eq_some, readFrozen, encodeStorageAssignment, List.append_assoc,
      readContext_exact.bind_append trivial, Reader.require_bind_apply, if_neg hcontext] at hfields
    cases hfields

/-- **A frozen plan is loaded under its own context** and not under another one of its slot. -/
theorem loadStorageAssignment_of_row (h : plan.Canonical) (hunlocked : db.unlocked = true)
    (hrow : db.rows (storageAssignmentKey context) = some (.value (encodeStorageAssignment plan))) :
    loadStorageAssignment db context = some (if plan.context = context then some plan else none) := by
  have hread := @readFrozen_encode context plan h.shape
  unfold loadStorageAssignment
  rw [get_of_usable hunlocked (usable_storageAssignmentKey context) hrow]
  dsimp only
  split
  next hparse =>
    have hnone := hread.symm.trans hparse
    split at hnone
    · cases hnone
    next hother => rw [if_neg hother]
  next eligible selected hparse =>
    have hsome := hread.symm.trans hparse
    split at hsome
    next hcontext =>
      obtain ⟨rfl, rfl⟩ := Prod.mk.inj (Option.some.inj hsome)
      subst hcontext
      rw [h, if_pos rfl]
      dsimp only
      rw [if_neg (not_or.mpr ⟨not_not.mpr rfl, not_not.mpr rfl⟩)]
    · cases hsome

theorem row_of_loadStorageAssignment (h : loadStorageAssignment db context = some (some plan)) :
    plan.context = context ∧ plan.Canonical ∧
      db.rows (storageAssignmentKey context) = some (.value (encodeStorageAssignment plan)) := by
  unfold loadStorageAssignment at h
  cases hget : db.get (storageAssignmentKey context) with
  | none =>
    rw [hget] at h
    cases h
  | some bytes =>
    rw [hget] at h
    dsimp only at h
    split at h
    · cases h
    next eligible selected _ =>
    split at h
    · cases h
    · cases h
    next plan' hprepare =>
    split at h
    · cases h
    next hsame =>
    obtain rfl := Option.some.inj (Option.some.inj h)
    rw [not_or, not_not, not_not] at hsame
    refine ⟨(prepareStorageAssignment_fields hprepare).1, canonical_of_prepare hprepare, ?_⟩
    rw [hsame.2]
    exact row_of_get hget

end

end Cybou
