import Cybou.Replay

/-! # The relay filter and the executor (`VerifyProtocolOperationRelayProofs`)

A relaying node checks the proofs of an operation against its own registry and no more.
What the executor accepts passes that filter: each kind of operation is bound to the same
commitment, the same digest and the same keys in both.
-/

namespace Cybou

open Library Proc

section

variable [Crypto]

/-! ### The filter -/

def verifyAuthorizedRelay (authorization : IdentityOperationAuthorization) (expectedKind : IdentityOperationKind)
    (payloadCommitment : Option IdentityKeyId) (networkBinding : Hash256) (identities : IdentityRegistry) : Bool :=
  match identities.find authorization.accountId with
  | none => false
  | some record =>
    match payloadCommitment, computeIdentityOperationDigest networkBinding authorization with
    | some commitment, some digest =>
      decide (authorization.kind = expectedKind) && decide (authorization.payloadCommitment = commitment) &&
        verifyIdentityMessage record.authorizationKey authorization.signature digest.1
    | _, _ => false

def verifyAccountCreateRelay (op : AccountCreateOp) (networkBinding : Hash256) : Bool :=
  if op.work.networkBinding ≠ networkBinding ∨ op.work.accountId ≠ op.accountId then false
  else
    let packageId := (computeAuthorizationKeyId op.authorization.authorizationKey).bind fun _ =>
      computeIdentityKemPackageCommitment networkBinding op.accountId 0 op.kemPackage
    let commitment := packageId.bind fun id => computeAccountCreateAuthorizationCommitment op.authorization id
    let digest := packageId.bind fun id => computeAccountCreatePopDigest networkBinding op.accountId op.authorization id
    match commitment, digest with
    | some commitment, some digest =>
      decide (op.work.authorizationCommitment = commitment) &&
        verifyIdentityMessage op.authorization.recoveryRoot op.recoveryPop digest.1 &&
        verifyIdentityMessage op.authorization.authorizationKey op.authorizationPop digest.1
    | _, _ => false

def verifyIdentityRotateRelay (op : IdentityRotate) (networkBinding : Hash256) (identities : IdentityRegistry) : Bool :=
  match identities.find op.accountId with
  | none => false
  | some record =>
    match computeIdentityRotateDigest networkBinding op,
        computeIdentityKemPackageCommitment networkBinding op.accountId op.keyEpoch op.newKemPackage with
    | some digest, some _ =>
      (computeRecoveryKeyId op.newRecoveryKey).isSome && (computeAuthorizationKeyId op.newAuthorizationKey).isSome &&
        verifyIdentityMessage record.recoveryKey op.oldRecoverySignature digest.1 &&
        verifyIdentityMessage op.newRecoveryKey op.newRecoveryPop digest.1 &&
        verifyIdentityMessage op.newAuthorizationKey op.newAuthorizationPop digest.1
    | _, _ => false

def verifyProtocolOperationRelayProofs (operation : ProtocolOperation) (networkBinding : Hash256)
    (identities : IdentityRegistry) : Bool :=
  if networkBinding.isNull = true then false
  else
    match operation with
    | .accountCreate op => verifyAccountCreateRelay op networkBinding
    | .identityRotate op => verifyIdentityRotateRelay op networkBinding identities
    | .storageSettlement _ => false
    | .payment op => verifyAuthorizedRelay op.authorization .payment
        (computePaymentPayloadCommitment op.payment) networkBinding identities
    | .systemLock op => verifyAuthorizedRelay op.authorization .systemLock
        (computeSystemLockPayloadCommitment op.lock) networkBinding identities
    | .nameCommit op => verifyAuthorizedRelay op.authorization .nameCommit
        (computeNameCommitPayloadCommitment op.commit) networkBinding identities
    | .nameReveal op => verifyAuthorizedRelay op.authorization .nameReveal
        (computeNameRevealPayloadCommitment op.reveal) networkBinding identities
    | .rootPublication op => verifyAuthorizedRelay op.authorization .rootPublication
        (computeRootPublicationPayloadCommitment op.publication) networkBinding identities
    | .revokePublication op => verifyAuthorizedRelay op.authorization .revokePublication
        (computeRevokePublicationPayloadCommitment op.revoke) networkBinding identities
    | .storageLease op => verifyAuthorizedRelay op.authorization .storageLease
        (computeStorageLeasePayloadCommitment op.lease) networkBinding identities

/-! ### What an accepted operation is bound to -/

def BoundTo (authorization : IdentityOperationAuthorization) (kind : IdentityOperationKind)
    (commitment : Option IdentityKeyId) : Prop :=
  authorization.kind = kind ∧ commitment = some authorization.payloadCommitment

def PayloadBound : ProtocolOperation → Prop
  | .payment op => BoundTo op.authorization .payment (computePaymentPayloadCommitment op.payment)
  | .systemLock op => BoundTo op.authorization .systemLock (computeSystemLockPayloadCommitment op.lock)
  | .nameCommit op => BoundTo op.authorization .nameCommit (computeNameCommitPayloadCommitment op.commit)
  | .nameReveal op => BoundTo op.authorization .nameReveal (computeNameRevealPayloadCommitment op.reveal)
  | .rootPublication op =>
    BoundTo op.authorization .rootPublication (computeRootPublicationPayloadCommitment op.publication)
  | .revokePublication op =>
    BoundTo op.authorization .revokePublication (computeRevokePublicationPayloadCommitment op.revoke)
  | .storageLease op => BoundTo op.authorization .storageLease (computeStorageLeasePayloadCommitment op.lease)
  | .accountCreate _ | .identityRotate _ | .storageSettlement _ => True

section

variable {ε : Type} {ok refusal : ε} {P : Prop} {s : CybouState}

theorem wp_known {α : Type} {x : Transition α} {Q : α → Prop} (h : ∀ a, Q a) :
    wp x (fun a _ => Q a) (fun _ _ => True) s :=
  wp_mono wp_true (fun a _ _ => h a) fun _ _ _ => trivial

theorem wp_passed {c : Prop} [Decidable c] {x : Transition ε} (hrefusal : refusal ≠ ok)
    (hx : ¬c → wp x (fun r _ => r = ok → P) (fun _ _ => True) s) :
    wp (if c then pure refusal else x) (fun r _ => r = ok → P) (fun _ _ => True) s :=
  wp_refuse (fun _ h => absurd h hrefusal) hx

end

variable {s s' : CybouState}

theorem wp_reportFailure_passed {ε : Type} [DecidableEq ε] {ok : ε} {failure : ε → BlockExecutionResult}
    {x : Transition ε} {P : Prop} (h : wp x (fun r _ => r = ok → P) (fun _ _ => True) s) :
    wp (reportFailure ok failure x) (fun r _ => r = none → P) (fun _ _ => True) s := by
  unfold reportFailure
  rw [wp_bind]
  refine wp_mono h (fun r s' hr => ?_) fun _ _ h => h
  by_cases hok : r = ok
  · rw [if_neg (not_not_intro hok)]
    exact fun _ => hr hok
  · rw [if_pos hok]
    intro hnone
    cases hnone

/-- **The executor checks the binding of every authorized operation.** -/
theorem dispatch_bound (ctx : BlockContext) (operation : ProtocolOperation) (s : CybouState) :
    wp (dispatch ctx operation) (fun r _ => r = none → PayloadBound operation) (fun _ _ => True) s := by
  cases operation with
  | accountCreate | identityRotate | storageSettlement => exact wp_known fun _ _ => trivial
  | payment op =>
    refine wp_reportFailure_passed ?_
    unfold applyPayment
    refine wp_passed (by decide) fun hkind => wp_passed (by decide) fun _ => wp_passed (by decide) fun _ => ?_
    refine wp_passed (by decide) fun hpayload => wp_known fun _ _ => ?_
    exact ⟨not_not.mp hkind, not_not.mp hpayload⟩
  | systemLock op =>
    refine wp_reportFailure_passed ?_
    unfold applySystemLock
    refine wp_passed (by decide) fun hkind => wp_passed (by decide) fun _ => wp_passed (by decide) fun hpayload => ?_
    exact wp_known fun _ _ => ⟨not_not.mp hkind, not_not.mp hpayload⟩
  | nameCommit op =>
    refine wp_reportFailure_passed ?_
    unfold applyNameCommit
    refine wp_passed (by decide) fun hkind => wp_passed (by decide) fun hpayload => wp_known fun _ _ => ?_
    exact ⟨not_not.mp hkind, not_not.mp hpayload⟩
  | nameReveal op =>
    refine wp_reportFailure_passed ?_
    unfold applyNameReveal
    refine wp_passed (by decide) fun hkind => wp_passed (by decide) fun hpayload => wp_known fun _ _ => ?_
    exact ⟨not_not.mp hkind, not_not.mp hpayload⟩
  | rootPublication op =>
    refine wp_reportFailure_passed ?_
    unfold applyRootPublication
    refine wp_passed (by decide) fun hkind => wp_passed (by decide) fun hpayload => wp_known fun _ _ => ?_
    exact ⟨not_not.mp hkind, not_not.mp hpayload⟩
  | revokePublication op =>
    refine wp_reportFailure_passed ?_
    unfold applyRevokePublication
    refine wp_passed (by decide) fun hkind => wp_passed (by decide) fun hpayload => wp_known fun _ _ => ?_
    exact ⟨not_not.mp hkind, not_not.mp hpayload⟩
  | storageLease op =>
    refine wp_reportFailure_passed ?_
    unfold applyStorageLease
    refine wp_passed (by decide) fun hkind => wp_passed (by decide) fun hpayload => wp_known fun _ _ => ?_
    exact ⟨not_not.mp hkind, not_not.mp fun hne => hpayload (.inl hne)⟩

/-! ### What the executor has verified -/

section

variable {networkBinding : Hash256} {identities : IdentityRegistry}

theorem verifyAuthorizedRelay_of_authorized {authorization : IdentityOperationAuthorization}
    {kind : IdentityOperationKind} {commitment : Option IdentityKeyId} (hbound : BoundTo authorization kind commitment)
    (hauthorized : (identities.authorizeOperation authorization networkBinding).1 = .none) :
    networkBinding.isNull = false ∧
      verifyAuthorizedRelay authorization kind commitment networkBinding identities = true := by
  obtain ⟨hkind, hcommitment⟩ := hbound
  rcases identities.toRegistryMaps.authorizeOperation_cases authorization networkBinding with
    ⟨e, he, heq⟩ | ⟨record, digest, hrecord, -, -, -, hdigest, hsignature, -⟩
  · exact absurd ((congrArg Prod.fst heq).symm.trans hauthorized) he
  have hnull : networkBinding.isNull = false := by
    unfold computeIdentityOperationDigest at hdigest
    rw [Option.ite_none_left_eq_some] at hdigest
    exact eq_false_of_ne_true fun hnull => hdigest.1 (.inr (.inl hnull))
  refine ⟨hnull, ?_⟩
  unfold verifyAuthorizedRelay
  rw [show identities.find authorization.accountId = some record from hrecord, hcommitment, hdigest]
  dsimp only
  rw [decide_eq_true hkind, decide_eq_true rfl, hsignature]
  rfl

variable {op : AccountCreateOp}

theorem validateAccountCreatePops_eq_none {packageId : Hash256}
    (h : validateAccountCreatePops op networkBinding packageId = .none) :
    ∃ digest, computeAccountCreatePopDigest networkBinding op.accountId op.authorization packageId = some digest ∧
      verifyIdentityMessage op.authorization.recoveryRoot op.recoveryPop digest.1 = true ∧
      verifyIdentityMessage op.authorization.authorizationKey op.authorizationPop digest.1 = true := by
  unfold validateAccountCreatePops at h
  cases hdigest : computeAccountCreatePopDigest networkBinding op.accountId op.authorization packageId with
  | none =>
    rw [hdigest] at h
    cases h
  | some digest =>
    rw [hdigest] at h
    simp only [ne_eq, reduceCtorEq, not_false_eq_true, AccountCreateError.ite_eq_none, Bool.not_eq_false,
      and_true] at h
    exact ⟨digest, rfl, h⟩

/-- What the executor accepts passes the relay. -/
theorem verifyAccountCreateRelay_of_valid {blockHeight : UInt64} {params : CybouProtocolParameters}
    (h : validateAccountCreateOp op networkBinding blockHeight params = .none) :
    networkBinding.isNull = false ∧ verifyAccountCreateRelay op networkBinding = true := by
  obtain ⟨-, -, -, hnetwork, haccount, packageId, hpackage, hcommitment, -, -, _, -, -, hpops⟩ :=
    validateAccountCreateOp_eq_none.mp h
  obtain ⟨digest, hdigest, hrecovery, hauthorization⟩ := validateAccountCreatePops_eq_none hpops
  have hid : (computeAuthorizationKeyId op.authorization.authorizationKey).bind (fun _ =>
      computeIdentityKemPackageCommitment networkBinding op.accountId 0 op.kemPackage) = some packageId := hpackage
  refine ⟨hnetwork.1, ?_⟩
  unfold verifyAccountCreateRelay
  rw [if_neg fun hor => hor.elim (absurd hnetwork.2) (absurd haccount)]
  dsimp only
  rw [hid, Option.bind_some, Option.bind_some, hcommitment, hdigest]
  dsimp only
  rw [decide_eq_true rfl, hrecovery, hauthorization]
  rfl

theorem verifyIdentityRotateRelay_of_rotated {op : IdentityRotate}
    (h : (identities.rotateIdentity op networkBinding).1 = .none) :
    networkBinding.isNull = false ∧ verifyIdentityRotateRelay op networkBinding identities = true := by
  rcases identities.toRegistryMaps.rotateIdentity_cases op networkBinding with ⟨e, he, heq⟩ |
    ⟨record, _, newId, authorizationId, packageId, hrecord, -, -, -, -, -, hnew, hauth, hkem, -, hsignatures, -⟩
  · exact absurd ((congrArg Prod.fst heq).symm.trans h) he
  unfold RegistryMaps.rotateSignaturesValid at hsignatures
  cases hdigest : computeIdentityRotateDigest networkBinding op with
  | none =>
    rw [hdigest] at hsignatures
    cases hsignatures
  | some digest =>
    have hnull : networkBinding.isNull = false := by
      unfold computeIdentityRotateDigest at hdigest
      rw [Option.ite_none_left_eq_some] at hdigest
      exact eq_false_of_ne_true fun hnull => hdigest.1 (.inl hnull)
    refine ⟨hnull, ?_⟩
    rw [hdigest] at hsignatures
    dsimp only at hsignatures
    rw [Bool.and_eq_true, Bool.and_eq_true] at hsignatures
    obtain ⟨⟨hold, hrecovery⟩, hauthorization⟩ := hsignatures
    unfold verifyIdentityRotateRelay
    rw [show identities.find op.accountId = some record from hrecord, hdigest, hkem]
    dsimp only
    rw [hnew, hauth, hold, hrecovery, hauthorization]
    rfl

end

variable {ctx : BlockContext} {operation : ProtocolOperation}

theorem Dispatched.relayed (h : Dispatched ctx operation s s') (hbound : PayloadBound operation)
    (hkind : ∀ settlement, operation ≠ .storageSettlement settlement) :
    verifyProtocolOperationRelayProofs operation ctx.networkBinding s.identities = true := by
  unfold verifyProtocolOperationRelayProofs
  cases operation with
  | storageSettlement op => exact absurd rfl (hkind op)
  | accountCreate op =>
    have hregistered := AccountCreateDone.registered h
    rcases s.identities.toRegistryMaps.register_cases op ctx.networkBinding ctx.blockHeight ctx.params with
      ⟨e, he, heq⟩ | ⟨_, _, _, hvalid, -⟩
    · exact absurd ((congrArg Prod.fst heq).symm.trans hregistered) he
    · obtain ⟨hnull, hrelay⟩ := verifyAccountCreateRelay_of_valid hvalid
      rw [if_neg (ne_true_of_eq_false hnull)]
      exact hrelay
  | identityRotate op =>
    obtain ⟨hrotated, -⟩ := h
    obtain ⟨hnull, hrelay⟩ := verifyIdentityRotateRelay_of_rotated hrotated
    rw [if_neg (ne_true_of_eq_false hnull)]
    exact hrelay
  | payment op | systemLock op | nameCommit op | nameReveal op | rootPublication op | revokePublication op
  | storageLease op =>
    obtain ⟨hauthorized, -⟩ := h.authorized rfl
    obtain ⟨hnull, hrelay⟩ := verifyAuthorizedRelay_of_authorized hbound hauthorized
    rw [if_neg (ne_true_of_eq_false hnull)]
    exact hrelay

theorem Accepts.relayed {total : Nat}
    (htotal : total < 2 ^ 64 - 1) (hkept : SupplyKept total s) (h : Accepts ctx operation s s')
    (hkind : ∀ settlement, operation ≠ .storageSettlement settlement) :
    verifyProtocolOperationRelayProofs operation ctx.networkBinding s.identities = true := by
  obtain ⟨executor, executor', result, hvalid, rfl, rfl, hrun, hok, rfl⟩ := h
  have hexecute := (applyOperation_accepted hvalid hrun hok).1
  have hroom : exactTotal executor.candidate < 2 ^ 64 - 1 := hkept.total_eq ▸ htotal
  obtain ⟨s₁, hdone, -⟩ := wp_of_ok (executeOperation_spec _ operation hroom hkept.funds) hexecute
  have hbound : wp (executeOperation executor.context operation) (fun r _ => r = none → PayloadBound operation)
      (fun _ _ => True) executor.candidate := by
    unfold executeOperation
    rw [wp_bind]
    refine wp_mono (dispatch_bound executor.context operation executor.candidate) ?_ fun _ _ h => h
    intro r s hr
    cases r with
    | some failure =>
      intro hnone
      cases hnone
    | none => exact wp_known fun _ _ => hr rfl
  exact hdone.relayed (wp_of_ok hbound hexecute rfl) hkind

/-- **The relay filter lets through what the executor accepts.**  An operation that the executor
    accepts on a valid state, before or after the pending commits of the block have expired,
    passes the filter with the registry of that state. -/
theorem relay_filter_agrees {ctx : BlockContext} {operation : ProtocolOperation} {s s' : CybouState}
    (hvalid : validateCybouState s = .none) (hkind : ∀ settlement, operation ≠ .storageSettlement settlement)
    (h : Accepts ctx operation s s' ∨ Accepts ctx operation (expireCommits ctx s) s') :
    verifyProtocolOperationRelayProofs operation ctx.networkBinding s.identities = true := by
  have hinvariant := validateCybouState_eq_none.mp hvalid
  have hkept : SupplyKept (exactTotal s) s := ⟨rfl, hinvariant.fundsCovered⟩
  rcases h with h | h
  · exact h.relayed hinvariant.total hkept hkind
  · have hrelayed := h.relayed hinvariant.total (hkept.expireCommits ctx) hkind
    have hidentities : (expireCommits ctx s).identities = s.identities := by
      unfold expireCommits
      split
      · rfl
      · rfl
    rwa [hidentities] at hrelayed

end

section Sample

attribute [local instance] Crypto.sample

theorem relay_filter_agrees_sampleLock :
    (∃ s', Accepts sampleContext (.systemLock sampleLock) sampleState s') ∧
      verifyProtocolOperationRelayProofs (.systemLock sampleLock) sampleContext.networkBinding
        sampleState.identities = true := by
  obtain ⟨s', haccepts⟩ := accepts_sampleLock
  refine ⟨⟨s', haccepts⟩, relay_filter_agrees validateCybouState_sampleState (fun _ h => ?_) (.inl haccepts)⟩
  cases h

end Sample

end Cybou
