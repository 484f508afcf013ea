import Cybou.Identity

/-! # The `AccountCreate` operation

`account_creation.cpp`: its canonical encoding, the proof of work and the two proofs of
possession that `ValidateAccountCreateOp` checks before an identity is registered.
-/

namespace Cybou

open Library

structure AccountCreationWork where
  networkBinding : Hash256
  accountId : AccountId
  authorizationCommitment : Hash256
  workEpoch : UInt64
  nonce : UInt64
deriving DecidableEq, Repr

structure AccountCreateOp where
  accountId : AccountId
  authorization : IdentityAuthorization
  kemPackage : IdentityKemPackage
  work : AccountCreationWork
  recoveryPop : IdentityHybridSignature
  authorizationPop : IdentityHybridSignature
deriving DecidableEq, Repr

inductive AccountCreateError where
  | none
  | invalidFormat
  | nullAccountId
  | networkMismatch
  | accountIdMismatch
  | commitmentMismatch
  | futureWorkEpoch
  | expiredWorkEpoch
  | insufficientWork
  | invalidRecoveryPop
  | invalidAuthorizationPop
deriving DecidableEq, Repr

def serializeAccountCreationWork (work : AccountCreationWork) : Option Bytes :=
  if work.networkBinding.isNull = true ∨ Hash256.isNull work.accountId = true then none
  else some (work.networkBinding.1 ++ work.accountId.1 ++ work.authorizationCommitment.1 ++
    le64 work.workEpoch ++ le64 work.nonce)

def AccountCreateOp.validSignatures (op : AccountCreateOp) : Bool :=
  decide (op.recoveryPop.mlDsa.length = 3309) && decide (op.authorizationPop.mlDsa.length = 2420)

def leadingZeroBits : Bytes → Nat
  | [] => 0
  | b :: rest => if b = 0 then 8 + leadingZeroBits rest else 7 - b.toNat.log2

def hasWork (digest : Hash256) (requiredBits : UInt32) : Bool :=
  decide (requiredBits.toNat ≤ 256) && decide (requiredBits.toNat ≤ leadingZeroBits digest.1)

section

variable [Crypto]

def serializeAccountCreateOp (op : AccountCreateOp) : Option Bytes := do
  let auth ← serializeIdentityAuthorization op.authorization
  let work ← serializeAccountCreationWork op.work
  if Hash256.isNull op.accountId = true ∨ decodeIdentityKemPackage op.kemPackage = none ∨
      op.validSignatures = false then none
  else some (op.accountId.1 ++ auth ++ op.kemPackage.1 ++ work ++
    op.recoveryPop.ed25519.1 ++ op.recoveryPop.mlDsa ++
    op.authorizationPop.ed25519.1 ++ op.authorizationPop.mlDsa)

def computeAccountCreateWorkHash (work : AccountCreationWork) : Option Hash256 := do
  let bytes ← serializeAccountCreationWork work
  return Crypto.sha256 (ascii "CYBOU/ACCOUNT-CREATE-WORK" ++ bytes)

def computeAccountCreateAuthorizationCommitment (authorization : IdentityAuthorization)
    (kemPackageId : Hash256) : Option Hash256 := do
  let authCommitment ← computeIdentityAuthorizationCommitment authorization
  if kemPackageId.isNull = true then none
  else return Crypto.sha256 (ascii "CYBOU/ACCOUNT-AUTHORIZATION" ++ authCommitment.1 ++
    kemPackageId.1)

def computeAccountCreatePopDigest (networkBinding : Hash256) (accountId : AccountId)
    (authorization : IdentityAuthorization) (kemPackageId : Hash256) : Option Hash256 :=
  if networkBinding.isNull = true ∨ Hash256.isNull accountId = true then none
  else do
    let commitment ← computeAccountCreateAuthorizationCommitment authorization kemPackageId
    return Crypto.sha256 (ascii "CYBOU/ACCOUNT-POP" ++ networkBinding.1 ++ accountId.1 ++
      commitment.1)

/-- The KEM package commitment that `ValidateAccountCreateOp` binds the work to. -/
def accountCreatePackageId (op : AccountCreateOp) (networkBinding : Hash256) : Option Hash256 := do
  let _ ← computeAuthorizationKeyId op.authorization.authorizationKey
  computeIdentityKemPackageCommitment networkBinding op.accountId 0 op.kemPackage

def validateAccountCreatePops (op : AccountCreateOp) (networkBinding packageId : Hash256) :
    AccountCreateError :=
  match computeAccountCreatePopDigest networkBinding op.accountId op.authorization packageId with
  | none => .invalidRecoveryPop
  | some popDigest =>
    if verifyIdentityMessage op.authorization.recoveryRoot op.recoveryPop popDigest.1 = false then
      .invalidRecoveryPop
    else if verifyIdentityMessage op.authorization.authorizationKey op.authorizationPop
        popDigest.1 = false then .invalidAuthorizationPop
    else .none

def validateAccountCreateOp (op : AccountCreateOp) (networkBinding : Hash256)
    (blockHeight : UInt64) (params : CybouProtocolParameters) : AccountCreateError :=
  if serializeAccountCreateOp op = none then .invalidFormat
  else if params.identityKemXwingEnabled = false then .invalidFormat
  else if Hash256.isNull op.accountId = true then .nullAccountId
  else if networkBinding.isNull = true ∨ op.work.networkBinding ≠ networkBinding then
    .networkMismatch
  else if op.work.accountId ≠ op.accountId then .accountIdMismatch
  else
    match accountCreatePackageId op networkBinding with
    | none => .commitmentMismatch
    | some packageId =>
      if computeAccountCreateAuthorizationCommitment op.authorization packageId ≠
          some op.work.authorizationCommitment then .commitmentMismatch
      else
        let epoch := epochForHeight blockHeight params
        if op.work.workEpoch > epoch then .futureWorkEpoch
        else if epoch - op.work.workEpoch > params.accountCreationEpochLag then .expiredWorkEpoch
        else
          match computeAccountCreateWorkHash op.work with
          | none => .insufficientWork
          | some workHash =>
            if hasWork workHash params.accountCreationWorkBits = false then .insufficientWork
            else validateAccountCreatePops op networkBinding packageId

omit [Crypto] in
theorem AccountCreateError.ite_eq_none {c : Prop} [Decidable c] {error rest : AccountCreateError}
    (herror : error ≠ .none) : (if c then error else rest) = .none ↔ ¬c ∧ rest = .none := by
  by_cases hc : c
  · simp [hc, herror]
  · simp [hc]

section

variable {op : AccountCreateOp} {networkBinding : Hash256} {blockHeight : UInt64}
  {params : CybouProtocolParameters}

/-- An account is created exactly if it passes every check of the list. -/
theorem validateAccountCreateOp_eq_none :
    validateAccountCreateOp op networkBinding blockHeight params = .none ↔
      serializeAccountCreateOp op ≠ none ∧ params.identityKemXwingEnabled = true ∧
      Hash256.isNull op.accountId = false ∧
      (networkBinding.isNull = false ∧ op.work.networkBinding = networkBinding) ∧
      op.work.accountId = op.accountId ∧
      ∃ packageId, accountCreatePackageId op networkBinding = some packageId ∧
        computeAccountCreateAuthorizationCommitment op.authorization packageId =
          some op.work.authorizationCommitment ∧
        op.work.workEpoch ≤ epochForHeight blockHeight params ∧
        epochForHeight blockHeight params - op.work.workEpoch ≤ params.accountCreationEpochLag ∧
        ∃ workHash, computeAccountCreateWorkHash op.work = some workHash ∧
          hasWork workHash params.accountCreationWorkBits = true ∧
          validateAccountCreatePops op networkBinding packageId = .none := by
  unfold validateAccountCreateOp
  simp only [ne_eq, reduceCtorEq, not_false_eq_true, AccountCreateError.ite_eq_none, Bool.not_eq_false,
    Bool.not_eq_true, not_or, not_not]
  refine and_congr_right' (and_congr_right' (and_congr_right' (and_congr_right' (and_congr_right' ?_))))
  cases accountCreatePackageId op networkBinding with
  | none => exact ⟨nofun, nofun⟩
  | some packageId =>
    simp only [ne_eq, reduceCtorEq, not_false_eq_true, AccountCreateError.ite_eq_none, not_not, gt_iff_lt,
      UInt64.not_lt, Option.some.injEq, exists_eq_left']
    cases computeAccountCreateWorkHash op.work with
    | none => simp only [reduceCtorEq, false_and, exists_false, and_false]
    | some workHash =>
      simp only [ne_eq, reduceCtorEq, not_false_eq_true, AccountCreateError.ite_eq_none, Bool.not_eq_false,
        Option.some.injEq, exists_eq_left']

theorem accountId_ne_null_of_valid
    (h : validateAccountCreateOp op networkBinding blockHeight params = .none) :
    Hash256.isNull op.accountId = false :=
  (validateAccountCreateOp_eq_none.mp h).2.2.1

end

end

end Cybou
