import Cybou.SettlementSpecs
import Cybou.BlockExecutor

/-! # What one operation does to the candidate, for all operations at once

`dispatch_spec` collects the specifications of the transitions: an operation
is refused and leaves no trace, or it is done.  The one exception to this is
an exception, in the literal sense: `FundStorageLease` throws after the fee was
paid when its operation id clashes with what the lease records, and then only
amounts and the nonce have changed.
-/

namespace Cybou

open Library Proc

section

variable [Crypto]

def Dispatched (ctx : BlockContext) : ProtocolOperation → CybouState → CybouState → Prop
  | .accountCreate op => AccountCreateDone op ctx.networkBinding ctx.blockHeight ctx.params
  | .payment op => PaymentDone op ctx.networkBinding ctx.params
  | .identityRotate op => fun s s' =>
    (s.identities.rotateIdentity op ctx.networkBinding).1 = .none ∧
      s' = s.rotate op ctx.networkBinding
  | .systemLock op => SystemLockDone op ctx.networkBinding
  | .nameCommit op => NameCommitDone op ctx.networkBinding ctx.blockHeight ctx.params
  | .nameReveal op => NameRevealDone op ctx.networkBinding ctx.blockHeight ctx.params
  | .rootPublication op => RootPublicationDone op ctx.networkBinding ctx.params
  | .revokePublication op => RevokePublicationDone op ctx.networkBinding ctx.params
  | .storageLease op => StorageLeaseDone op ctx.networkBinding ctx.params
  | .storageSettlement op => SettlementDone op

/-- The lease an operation would fund is recorded against it. -/
def LeaseClash : ProtocolOperation → CybouState → Prop
  | .rootPublication op => fun s => ∃ publicationId,
      computeOperationId (.rootPublication op) = some publicationId ∧
        s.leases.contains publicationId = true
  | .storageLease op => fun s => ∃ publication fundingId lease,
      s.publications.find? op.lease.publicationId = some publication ∧
      computeOperationId (.storageLease op) = some fundingId ∧
      s.leases.find? op.lease.publicationId = some lease ∧
      (lease.payer ≠ publication.owner ∨ lease.units ≠ publication.chunkCount ∨
        fundingId ∈ lease.fundedTerms.map (·.fundingOperationId))
  | _ => fun _ => False

/-- What an exception leaves behind: nothing, or a paid fee. -/
def Escaped (operation : ProtocolOperation) (s : CybouState) (e : Fault) (s' : CybouState) : Prop :=
  e = .thrown ∧ (s' = s ∨ LeaseClash operation s ∧ SameFrame s s' ∧ exactTotal s' = exactTotal s)

theorem wp_reportFailure {ε : Type} [DecidableEq ε] {ok : ε} {failure : ε → BlockExecutionResult}
    {x : Transition ε} {s : CybouState} {Done : CybouState → Prop}
    {E E' : Fault → CybouState → Prop} (h : wp x (Atomic ok s Done) E s)
    (hE : ∀ e s', E e s' → E' e s') :
    wp (reportFailure ok failure x) (Atomic none s Done) E' s := by
  unfold reportFailure
  rw [wp_bind]
  refine wp_mono h ?_ hE
  intro r s' hr
  by_cases hok : r = ok
  · subst hok
    rw [if_neg (by simp)]
    exact Atomic.completed hr.done
  · rw [if_pos hok, wp_pure, hr.unchanged hok]
    exact Atomic.refused (by simp)

theorem computeOperationId_of_publicationFeeAndId {op : AuthorizedRootPublication}
    {params : CybouProtocolParameters} {fee : UInt64} {publicationId : Hash256}
    (h : publicationFeeAndId op params = some (fee, publicationId)) :
    computeOperationId (.rootPublication op) = some publicationId := by
  obtain ⟨bytes, hbytes, h⟩ := Option.bind_eq_some_iff.mp h
  obtain ⟨fee', -, h⟩ := Option.bind_eq_some_iff.mp h
  obtain ⟨id, hid, h⟩ := Option.bind_eq_some_iff.mp h
  split at h
  · cases h
  · cases h
    exact Option.bind_eq_some_iff.mpr ⟨bytes, hbytes, hid⟩

/-- **Every operation is refused without a trace, or is done.** -/
theorem dispatch_spec (ctx : BlockContext) (operation : ProtocolOperation) {s : CybouState}
    (htotal : exactTotal s < 2 ^ 64 - 1) (hfunds : FundsCovered s) :
    wp (dispatch ctx operation) (Atomic none s (Dispatched ctx operation s))
      (Escaped operation s) s := by
  cases operation with
  | accountCreate op =>
    exact wp_reportFailure (applyAccountCreate_spec op _ _ _ s) fun _ _ h => h.elim
  | payment op => exact wp_reportFailure (applyPayment_spec op _ _ htotal) fun _ _ h => h.elim
  | identityRotate op => exact wp_reportFailure (rotateIdentity_spec op _ s) fun _ _ h => h.elim
  | systemLock op => exact wp_reportFailure (applySystemLock_spec op _ s) fun _ _ h => h.elim
  | nameCommit op => exact wp_reportFailure (applyNameCommit_spec op _ _ _ s) fun _ _ h => h.elim
  | nameReveal op => exact wp_reportFailure (applyNameReveal_spec op _ _ _ s) fun _ _ h => h.elim
  | rootPublication op =>
    refine wp_reportFailure (applyRootPublication_spec op _ _ htotal) ?_
    rintro e s' ⟨he, hframe, hsum, fee, publicationId, hid, hlease⟩
    exact ⟨he, .inr ⟨⟨publicationId, computeOperationId_of_publicationFeeAndId hid, hlease⟩,
      hframe, hsum⟩⟩
  | revokePublication op =>
    exact wp_reportFailure (applyRevokePublication_spec op _ _ htotal) fun _ _ h => h.elim
  | storageLease op =>
    refine wp_reportFailure (applyStorageLease_spec op _ _ htotal) ?_
    rintro e s' ⟨he, hframe, hsum, publication, fundingId, lease, hpublication, -, hid, hlease, hclash⟩
    exact ⟨he, .inr ⟨⟨publication, fundingId, lease, hpublication, hid, hlease, hclash⟩, hframe,
      hsum⟩⟩
  | storageSettlement op =>
    refine wp_reportFailure ?_ fun e s' (h : e = .thrown ∧ s' = s) => ⟨h.1, .inl h.2⟩
    split
    · exact Atomic.refused (by decide)
    · exact applyStorageSettlement_spec op _ _ _ _ _ hfunds

/-- A publication was entered in the register; other operations leave it alone. -/
def Recorded (ctx : BlockContext) : ProtocolOperation → CybouState → CybouState → Prop
  | .rootPublication op => fun s s' => ∃ id,
      computeOperationId (.rootPublication op) = some id ∧ op.publication.chunkCount ≠ 0 ∧
      s.publications.find? id = none ∧ s.hasAccount op.authorization.accountId = true ∧
      s' = { s with
        publications := s.publications.set id
          { owner := op.authorization.accountId
            chunkAuthorizationRoot := op.publication.chunkAuthorizationRoot
            chunkCount := op.publication.chunkCount, height := ctx.blockHeight } }
  | _ => fun s s' => s' = s

theorem recordOperation_spec (ctx : BlockContext) (operation : ProtocolOperation) (s : CybouState) :
    wp (recordOperation ctx operation) (Atomic true s (Recorded ctx operation s))
      (fun _ _ => False) s := by
  cases operation with
  | rootPublication op =>
    unfold recordOperation
    dsimp only
    split
    · exact Atomic.refused (by decide)
    next id hid =>
    unfold recordPublication
    rw [wp_get_bind]
    refine wp_guard (by decide) fun hfree => ?_
    push Not at hfree
    obtain ⟨-, hcount, hpublication, haccount⟩ := hfree
    have hfresh := OrdMap.contains_eq_false_iff.mp (eq_false_of_ne_true hpublication)
    rw [wp_set_bind]
    refine Atomic.completed ⟨id, hid, hcount, hfresh, eq_true_of_ne_false haccount, ?_⟩
    simp only [OrdMap.emplace_of_none hfresh]
  | accountCreate | payment | identityRotate | systemLock | nameCommit | nameReveal
  | revokePublication | storageLease | storageSettlement => exact Atomic.completed rfl

/-- What an executed operation leaves: its own result, or, when it failed, no
    more than a publication that could not be entered. -/
def Executed (ctx : BlockContext) (operation : ProtocolOperation) (s : CybouState) :
    Option BlockExecutionResult → CybouState → Prop
  | none => fun s' => ∃ s₁, Dispatched ctx operation s s₁ ∧ Recorded ctx operation s₁ s'
  | some _ => fun s' => s' = s ∨ Dispatched ctx operation s s'

theorem executeOperation_spec (ctx : BlockContext) (operation : ProtocolOperation) {s : CybouState}
    (htotal : exactTotal s < 2 ^ 64 - 1) (hfunds : FundsCovered s) :
    wp (executeOperation ctx operation) (Executed ctx operation s) (Escaped operation s) s := by
  unfold executeOperation
  rw [wp_bind]
  refine wp_mono (dispatch_spec ctx operation htotal hfunds) ?_ fun _ _ h => h
  intro r s₁ hr
  cases r with
  | some failure => exact .inl (hr.unchanged (by simp))
  | none =>
    have hdone := hr.done
    dsimp only
    rw [wp_bind]
    refine wp_mono (recordOperation_spec ctx operation s₁) ?_ fun _ _ h => h.elim
    intro recorded s₂ hrecorded
    cases recorded with
    | false =>
      rw [hrecorded.unchanged (by simp)]
      exact .inr hdone
    | true => exact ⟨s₁, hdone, hrecorded.done⟩

theorem dispatch_failure (ctx : BlockContext) (operation : ProtocolOperation) (s : CybouState) :
    wp (dispatch ctx operation) (fun r _ => ∀ failure ∈ r, failure.isOk = false)
      (fun _ _ => True) s := by
  have hreport : ∀ {ε : Type} [DecidableEq ε] (ok : ε) (failure : ε → BlockExecutionResult)
      (x : Transition ε), (∀ e, (failure e).isOk = false) →
      wp (reportFailure ok failure x) (fun r _ => ∀ failure ∈ r, failure.isOk = false)
        (fun _ _ => True) s := by
    intro ε _ ok failure x hfailure
    unfold reportFailure
    rw [wp_bind]
    refine wp_mono wp_true ?_ fun _ _ h => h
    intro r s' _
    refine wp_refuse (fun _ => ?_) fun _ => ?_
    · intro f hf
      rw [← Option.some.inj hf]
      exact hfailure r
    · exact wp_pure.mpr fun failure h => absurd h (Option.not_mem_none failure)
  cases operation <;> rw [dispatch] <;> exact hreport _ _ _ fun _ => rfl

theorem executeOperation_failure (ctx : BlockContext) (operation : ProtocolOperation)
    (s : CybouState) :
    wp (executeOperation ctx operation) (fun r _ => ∀ failure ∈ r, failure.isOk = false)
      (fun _ _ => True) s := by
  unfold executeOperation
  rw [wp_bind]
  refine wp_mono (dispatch_failure ctx operation s) ?_ fun _ _ h => h
  intro r s₁ hr
  cases r with
  | some failure => exact hr
  | none =>
    dsimp only
    rw [wp_bind]
    refine wp_mono wp_true ?_ fun _ _ h => h
    intro recorded s₂ _
    refine wp_refuse (fun _ => ?_) fun _ => ?_
    · intro f hf
      rw [← Option.some.inj hf]
      rfl
    · exact wp_pure.mpr fun failure h => absurd h (Option.not_mem_none failure)

theorem wp_onCandidate {α : Type} {x : Transition α} {Q : α → BlockExecutor → Prop}
    {E : Fault → BlockExecutor → Prop} {executor : BlockExecutor} :
    wp (BlockExecutor.onCandidate x) Q E executor ↔
      wp x (fun a candidate => Q a { executor with candidate })
        (fun e candidate => E e { executor with candidate }) executor.candidate := by
  simp only [wp, BlockExecutor.onCandidate]
  cases x executor.candidate with
  | ok a candidate => exact Iff.rfl
  | error e candidate => exact Iff.rfl

/-! ### Failure atomicity -/

/-- The lease ledger already holds the id of the operation, as the id of a lease
    or of a funding. -/
def OperationRecorded (operation : ProtocolOperation) (s : CybouState) : Prop :=
  ∃ id, computeOperationId operation = some id ∧
    (s.leases.contains id = true ∨ id ∈ s.fundingIds)

theorem LeaseClash.recorded {operation : ProtocolOperation} {s : CybouState}
    (hclash : LeaseClash operation s) (h : StateInvariant s) : OperationRecorded operation s := by
  cases operation with
  | rootPublication op =>
    obtain ⟨publicationId, hid, hlease⟩ := hclash
    exact ⟨publicationId, hid, .inl hlease⟩
  | storageLease op =>
    obtain ⟨publication, fundingId, lease, hpublication, hid, hlease, hclash⟩ := hclash
    have hfacts := leaseValid_iff.mp (h.lease _ lease hlease)
    obtain ⟨howner, hunits⟩ := hfacts.published publication hpublication
    obtain hpayer | hcount | hmem := hclash
    · exact absurd howner.symm hpayer
    · exact absurd hunits.symm hcount
    · obtain ⟨term, hterm, rfl⟩ := List.mem_map.mp hmem
      exact ⟨_, hid, .inr (List.mem_map.mpr
        ⟨term, mem_fundedTerms.mpr ⟨_, lease, hlease, hterm⟩, rfl⟩)⟩
  | accountCreate | payment | identityRotate | systemLock | nameCommit | nameReveal
  | revokePublication | storageSettlement => exact hclash.elim

/-- **A failed operation leaves the state as it was**: always when it returns an
    error, and also when an exception escapes, unless the lease ledger already
    records the operation. -/
theorem dispatch_failure_atomic (ctx : BlockContext) (operation : ProtocolOperation)
    {s : CybouState} (hvalid : validateCybouState s = .none) :
    (∀ failure s', dispatch ctx operation s = .ok (some failure) s' → s' = s) ∧
      (¬OperationRecorded operation s → ∀ e s', dispatch ctx operation s = .error e s' → s' = s) := by
  have h := validateCybouState_eq_none.mp hvalid
  have hspec := dispatch_spec ctx operation h.total h.fundsCovered
  constructor
  · intro failure s' hrun
    exact (wp_of_ok hspec hrun).unchanged (by simp)
  · intro hfresh e s' hrun
    obtain ⟨-, rfl | ⟨hclash, -, -⟩⟩ := wp_of_error hspec hrun
    · rfl
    · exact absurd (hclash.recorded h) hfresh

end

/-! ### A renewal that clashes -/

section Sample

set_option maxRecDepth 10000

attribute [local instance] Crypto.sample

def sampleContext : BlockContext :=
  { networkBinding := sampleId 200, blockHeight := 10, params := devProtocolParameters
    poaKey := none, verifiedParentId := sampleId 201 }

def sampleSignature : IdentityHybridSignature :=
  { ed25519 := FixedBytes.leading 63 1, mlDsa := 1 :: List.replicate 2419 0 }

/-- Account 1 leases publication 6 for one more period. -/
def sampleRenewal : AuthorizedStorageLease :=
  let lease : StorageLeasePayload := { publicationId := sampleId 6, periods := 1 }
  { authorization :=
      { accountId := sampleId 1, nonce := 0, keyEpoch := 0, kind := .storageLease
        payloadCommitment := (computeStorageLeasePayloadCommitment lease).getD (sampleId 0)
        signature := sampleSignature }
    lease }

def sampleRenewalId : Hash256 :=
  (computeOperationId (.storageLease sampleRenewal)).getD Hash256.ZERO

/-- `sampleState` with a treasury, and another term behind its lease. -/
def leasedState (term : StorageFundedTerm) (endPeriod escrowLocked : UInt64) : CybouState :=
  { sampleState with
    genesisAllocations := (∅ : OrdMap _ _).set (sampleKeyId 3)
      { balance := 100, label := CENTRAL_AUTHORITY_NAME, claimedBy := none }
    leases := (∅ : OrdMap _ _).set (sampleId 6)
      { sampleLease with endPeriod, escrowLocked, fundedTerms := [term] } }

/-- The term of `sampleState`, recorded under the id of the renewal. -/
def clashingState : CybouState :=
  leasedState { sampleTerm with fundingOperationId := sampleRenewalId } 1 2

def sampleNonce (s : CybouState) : Option UInt64 := (s.identities.find (sampleId 1)).map (·.nonce)

/-- The exception of `FundStorageLease` escapes with the nonce consumed and the
    fee paid. -/
theorem dispatch_clashingState :
    validateCybouState clashingState = .none ∧
      ∃ s', dispatch sampleContext (.storageLease sampleRenewal) clashingState = .error .thrown s' ∧
        sampleNonce clashingState = some 0 ∧ sampleNonce s' = some 1 := by
  refine ⟨by decide, ?_⟩
  have hrun : (match dispatch sampleContext (.storageLease sampleRenewal) clashingState with
      | .error .thrown s' => decide (sampleNonce clashingState = some 0 ∧ sampleNonce s' = some 1)
      | _ => false) = true := by decide
  split at hrun
  · next s' h => exact ⟨s', h, of_decide_eq_true hrun⟩
  · cases hrun

theorem not_operationRecorded_sampleState :
    ¬OperationRecorded (.storageLease sampleRenewal) sampleState := by
  rintro ⟨id, hid, hrecorded⟩
  have hfresh : ((computeOperationId (.storageLease sampleRenewal)).all fun id =>
      decide ¬(sampleState.leases.contains id = true ∨ id ∈ sampleState.fundingIds)) = true := by
    decide
  rw [hid, Option.all_some] at hfresh
  exact of_decide_eq_true hfresh hrecorded

def leaseFailure : EStateM.Result BlockError CybouState (Option BlockExecutionResult) → Option StorageLeaseError
  | .ok failure _ => failure.map (·.leaseError)
  | .error _ _ => none

theorem dispatch_of_leaseFailure {result : EStateM.Result BlockError CybouState (Option BlockExecutionResult)}
    {e : StorageLeaseError} (h : leaseFailure result = some e) : ∃ failure s', result = .ok (some failure) s' := by
  cases result with
  | ok reported s' =>
    obtain ⟨failure, hreported, -⟩ := Option.map_eq_some_iff.mp h
    exact ⟨failure, s', by rw [hreported]⟩
  | error e s' => cases h

/-- On `sampleState` the renewal is refused, for want of a treasury, and changes
    nothing. -/
theorem dispatch_failure_atomic_sampleState :
    (∃ failure, dispatch sampleContext (.storageLease sampleRenewal) sampleState =
      .ok (some failure) sampleState) ∧
    ∀ e s', dispatch sampleContext (.storageLease sampleRenewal) sampleState = .error e s' →
      s' = sampleState := by
  have hatomic := dispatch_failure_atomic sampleContext (.storageLease sampleRenewal)
    validateCybouState_sampleState
  refine ⟨?_, hatomic.2 not_operationRecorded_sampleState⟩
  have hrun : leaseFailure (dispatch sampleContext (.storageLease sampleRenewal) sampleState) =
      some .feeTransferFailed := by decide
  obtain ⟨failure, s', h⟩ := dispatch_of_leaseFailure hrun
  obtain rfl := hatomic.1 failure s' h
  exact ⟨failure, h⟩

end Sample

end Cybou
