import Cybou.Library.Proc
import Cybou.StorageAssignment
import Cybou.StateValidation

/-! # The transitions of the canonical state

`state.cpp`, `payment.cpp`, `storage_lease.cpp`, up to settlements.

Each transition is a call on the state, statement by statement as in the
source: guards return an error code early, and only then are fields changed.
Two things can go wrong in such a call beside an error code, and both are kept
apart from it as a `Fault`: an exception, and an unsigned operation on an
amount that would wrap.  The source goes on with the wrapped value there; the
model stops, so that "nothing wraps" is a statement about how calls end.
-/

namespace Cybou

open Library

/-! ### Error codes -/

inductive AccountCreateStateError where
  | none
  | invalidCreate
  | accountExists
  | recoveryKeyExists
  | accountLimit
  | insufficientTreasury
  | inconsistentState
deriving DecidableEq, Repr

inductive NameCommitError where
  | none
  | invalidPayload
  | invalidAuthorization
  | accountNotFound
  | accountAlreadyHasName
  | accountHasPendingCommit
  | commitmentExists
  | commitmentLimitExceeded
deriving DecidableEq, Repr

inductive NameRevealError where
  | none
  | invalidPayload
  | invalidAuthorization
  | invalidLabelSyntax
  | accountNotFound
  | accountAlreadyHasName
  | nameAlreadyTaken
  | commitmentNotFound
  | commitmentAccountMismatch
  | insufficientCommitDepth
  | commitExpired
  | invalidWorkTarget
  | invalidWorkProof
deriving DecidableEq, Repr

inductive PaymentError where
  | none
  | invalidPayload
  | invalidAuthorization
  | senderNotFound
  | recipientNotFound
  | selfPayment
  | zeroAmount
  | insufficientBalance
  | insufficientSystemBalance
  | recipientOverflow
  | feeTransferFailed
  | inconsistentState
deriving DecidableEq, Repr

inductive SystemLockError where
  | none
  | invalidPayload
  | invalidAuthorization
  | accountNotFound
  | zeroAmount
  | insufficientBalance
  | systemBalanceOverflow
  | inconsistentState
deriving DecidableEq, Repr

inductive RootPublicationError where
  | none
  | invalidPayload
  | invalidAuthorization
  | senderNotFound
  | insufficientSystemBalance
  | feeTransferFailed
deriving DecidableEq, Repr

inductive RevokePublicationError where
  | none
  | invalidPayload
  | invalidAuthorization
  | senderNotFound
  | publicationNotFound
  | notOwner
  | insufficientSystemBalance
  | feeTransferFailed
deriving DecidableEq, Repr

inductive StorageLeaseError where
  | none
  | invalidPayload
  | invalidAuthorization
  | senderNotFound
  | publicationNotFound
  | notOwner
  | insufficientSystemBalance
  | feeTransferFailed
  | escrowOverflow
deriving DecidableEq, Repr

/-! ### Faults and amounts -/

/-- How a transition ends when it does not return. -/
inductive Fault where
  /-- An exception leaves the function. -/
  | thrown
  /-- An unsigned operation on an amount would wrap. -/
  | wrapped
deriving DecidableEq, Repr

def addAmount {σ : Type} (a b : UInt64) : Proc Fault σ UInt64 :=
  if a.toNat + b.toNat < 2 ^ 64 then pure (a + b) else throw .wrapped

def subAmount {σ : Type} (a b : UInt64) : Proc Fault σ UInt64 :=
  if b ≤ a then pure (a - b) else throw .wrapped

section

variable [Crypto]

abbrev Transition (α : Type) := Proc Fault CybouState α

/-- `state.accounts.at(id)`. -/
def accountAt (id : AccountId) : Transition AccountState := do
  let state ← get
  match state.accounts.find? id with
  | none => throw .thrown
  | some account => return account

def CybouState.putAccount (s : CybouState) (id : AccountId) (account : AccountState) : CybouState :=
  { s with accounts := s.accounts.set id account }

def CybouState.putLease (s : CybouState) (id : Hash256) (lease : StorageLeaseRecord) : CybouState :=
  { s with leases := s.leases.set id lease }

/-- `state.accounts.at(id).balance -= amount`. -/
def debitBalance (id : AccountId) (amount : UInt64) : Transition Unit := do
  let account ← accountAt id
  let balance ← subAmount account.balance amount
  modify fun s => s.putAccount id { account with balance }

/-- `state.accounts.at(id).balance += amount`. -/
def creditBalance (id : AccountId) (amount : UInt64) : Transition Unit := do
  let account ← accountAt id
  let balance ← addAmount account.balance amount
  modify fun s => s.putAccount id { account with balance }

/-- `state.accounts.at(id).system_balance += amount`. -/
def creditSystemBalance (id : AccountId) (amount : UInt64) : Transition Unit := do
  let account ← accountAt id
  let systemBalance ← addAmount account.systemBalance amount
  modify fun s => s.putAccount id { account with systemBalance }

/-- `DebitSystemBalance(state.accounts.at(id), amount)`: onboarding credit is
    spent first. -/
def debitSystemBalance (id : AccountId) (amount : UInt64) : Transition UInt64 := do
  let account ← accountAt id
  let onboarding := min account.onboardingSystemBalance amount
  let onboardingSystemBalance ← subAmount account.onboardingSystemBalance onboarding
  let systemBalance ← subAmount account.systemBalance amount
  modify fun s => s.putAccount id { account with onboardingSystemBalance, systemBalance }
  return onboarding

/-! ### The treasury -/

def findCentralAuthorityAllocation (s : CybouState) : Option (IdentityKeyId × GenesisAllocation) :=
  match s.genesisAllocations.entries.filter (fun e => decide (e.2.label = CENTRAL_AUTHORITY_NAME)) with
  | [e] => some e
  | _ => none

inductive BalanceRef where
  | allocation (key : IdentityKeyId)
  | account (id : AccountId)
deriving DecidableEq

namespace BalanceRef

def read (s : CybouState) : BalanceRef → UInt64
  | .allocation key => ((s.genesisAllocations.find? key).map (·.balance)).getD 0
  | .account id => ((s.accounts.find? id).map (·.balance)).getD 0

def write (s : CybouState) (amount : UInt64) : BalanceRef → CybouState
  | .allocation key =>
    match s.genesisAllocations.find? key with
    | none => s
    | some a => { s with genesisAllocations := s.genesisAllocations.set key { a with balance := amount } }
  | .account id =>
    match s.accounts.find? id with
    | none => s
    | some a => s.putAccount id { a with balance := amount }

end BalanceRef

/-- `CentralAuthorityFeeBalance`: the unclaimed allocation, or the balance of the
    account that claimed it and holds its name. -/
def centralAuthorityFeeBalance (s : CybouState) : Option BalanceRef :=
  match findCentralAuthorityAllocation s with
  | none => none
  | some (key, allocation) =>
    match allocation.claimedBy with
    | none => some (.allocation key)
    | some claimant =>
      if s.hasAccount claimant = false ∨ s.identities.find claimant = none then none
      else if s.names.names.find? allocation.label ≠ some claimant ∨
          s.names.accountNames.find? claimant ≠ some allocation.label then none
      else some (.account claimant)

def canCreditCentralAuthorityFee (s : CybouState) (fee : UInt64) : Bool :=
  match centralAuthorityFeeBalance s with
  | none => false
  | some ref => decide (ref.read s ≤ UINT64_MAX - fee)

def creditCentralAuthorityFee (fee : UInt64) : Transition Bool := do
  let state ← get
  if canCreditCentralAuthorityFee state fee = false then return false
  match centralAuthorityFeeBalance state with
  | none => return false
  | some ref =>
    let balance ← addAmount (ref.read state) fee
    set (ref.write state balance)
    return true

/-! ### Identity checks on the state -/

/-- `state.identities.Register`. -/
def registerIdentity (create : AccountCreateOp) (networkBinding : Hash256) (blockHeight : UInt64)
    (params : CybouProtocolParameters) : Transition IdentityRegistryError := do
  let state ← get
  let result := state.identities.register create networkBinding blockHeight params
  set { state with identities := result.2 }
  return result.1

/-- `state.identities.AuthorizeOperation`. -/
def authorizeOperation (authorization : IdentityOperationAuthorization) (networkBinding : Hash256) :
    Transition IdentityRegistryError := do
  let state ← get
  let result := state.identities.authorizeOperation authorization networkBinding
  set { state with identities := result.2 }
  return result.1

/-- `state.identities.RotateIdentity`. -/
def rotateIdentity (request : IdentityRotate) (networkBinding : Hash256) :
    Transition IdentityRegistryError := do
  let state ← get
  let result := state.identities.rotateIdentity request networkBinding
  set { state with identities := result.2 }
  return result.1

/-! ### Accounts and names -/

def claimableAllocation (s : CybouState) (recoveryRoot : IdentityHybridPublicKey) :
    Option (IdentityKeyId × GenesisAllocation) := do
  let key ← computeRecoveryKeyId recoveryRoot
  let allocation ← s.genesisAllocations.find? key
  if allocation.claimedBy.isSome then none else return (key, allocation)

def debitTreasury (bonus : UInt64) : Transition Unit := do
  let state ← get
  if bonus = 0 then return
  match centralAuthorityFeeBalance state with
  | none => throw .thrown
  | some ref =>
    let balance ← subAmount (ref.read state) bonus
    set (ref.write state balance)

def CybouState.claim (s : CybouState) (key : IdentityKeyId) (allocation : GenesisAllocation)
    (accountId : AccountId) : CybouState :=
  { s with
    genesisAllocations := s.genesisAllocations.set key { allocation with claimedBy := some accountId }
    names := if allocation.label.isEmpty then s.names else
      { s.names with
        names := s.names.names.emplace allocation.label accountId
        accountNames := s.names.accountNames.emplace accountId allocation.label } }

def claimAllocation (accountId : AccountId) (claim : Option (IdentityKeyId × GenesisAllocation)) :
    Transition UInt64 := do
  match claim with
  | none => return 0
  | some (key, _) =>
    let state ← get
    match state.genesisAllocations.find? key with
    | none => return 0
    | some allocation =>
      set (state.claim key allocation accountId)
      return allocation.balance

def applyAccountCreate (op : AccountCreateOp) (networkBinding : Hash256) (blockHeight : UInt64)
    (params : CybouProtocolParameters) : Transition AccountCreateStateError := do
  let state ← get
  if state.accounts.size ≠ state.identities.accounts.size then return .inconsistentState
  if (state.accounts.entries.any fun e => (state.identities.find e.1).isNone) = true then
    return .inconsistentState
  if state.accounts.size ≥ MAX_IDENTITY_REGISTRY_ACCOUNTS then return .accountLimit
  if state.accounts.contains op.accountId = true then return .accountExists
  let claim := claimableAllocation state op.authorization.recoveryRoot
  let claimsTreasury := claim.any fun e => decide (e.2.label = CENTRAL_AUTHORITY_NAME)
  let bonus := if claimsTreasury then 0 else params.onboardingBonus
  if bonus ≠ 0 ∧ ((centralAuthorityFeeBalance state).all fun ref =>
      decide (ref.read state < bonus)) = true then return .insufficientTreasury
  let identityResult ← registerIdentity op networkBinding blockHeight params
  if identityResult ≠ .none then
    return (if identityResult = .accountExists then .accountExists
      else if identityResult = .recoveryKeyExists then .recoveryKeyExists else .invalidCreate)
  debitTreasury bonus
  let genesisBalance ← claimAllocation op.accountId claim
  modify fun s => { s with
    accounts := s.accounts.emplace op.accountId
      { balance := genesisBalance
        systemBalance := bonus
        onboardingSystemBalance := bonus
        creationHeight := blockHeight
        creationEpoch := epochForHeight blockHeight params } }
  return .none

def applyNameCommit (op : AuthorizedNameCommit) (networkBinding : Hash256) (blockHeight : UInt64)
    (params : CybouProtocolParameters) : Transition NameCommitError := do
  if op.authorization.kind ≠ .nameCommit then return .invalidAuthorization
  if computeNameCommitPayloadCommitment op.commit ≠ some op.authorization.payloadCommitment then
    return .invalidAuthorization
  let state ← get
  if state.accounts.contains op.authorization.accountId = false then return .accountNotFound
  if state.names.accountNames.contains op.authorization.accountId = true then
    return .accountAlreadyHasName
  if (state.names.pendingCommits.entries.any fun e =>
      decide (e.2.accountId = op.authorization.accountId)) = true then
    return .accountHasPendingCommit
  if state.names.pendingCommits.size ≥ params.maxPendingNameCommits.toNat then
    return .commitmentLimitExceeded
  if state.names.pendingCommits.contains op.commit.commitment = true then return .commitmentExists
  let authorized ← authorizeOperation op.authorization networkBinding
  if authorized ≠ .none then return .invalidAuthorization
  modify fun s => { s with
    names := { s.names with
      pendingCommits := s.names.pendingCommits.emplace op.commit.commitment
        { accountId := op.authorization.accountId, commitHeight := blockHeight } } }
  return .none

def nameWorkAccepted (op : AuthorizedNameReveal) (networkBinding : Hash256) (blockHeight : UInt64)
    (params : CybouProtocolParameters) : Bool :=
  let currentEpoch := epochForHeight blockHeight params
  decide (op.reveal.work.networkBinding = networkBinding) &&
  decide (op.reveal.work.accountId = op.authorization.accountId) &&
  decide (op.reveal.work.workEpoch ≤ currentEpoch) &&
  decide (currentEpoch ≤ op.reveal.work.workEpoch + params.accountCreationEpochLag) &&
  checkNameClaimWork op.reveal.work params.nameClaimWorkBits

def applyNameReveal (op : AuthorizedNameReveal) (networkBinding : Hash256) (blockHeight : UInt64)
    (params : CybouProtocolParameters) : Transition NameRevealError := do
  if op.authorization.kind ≠ .nameReveal then return .invalidAuthorization
  if computeNameRevealPayloadCommitment op.reveal ≠ some op.authorization.payloadCommitment then
    return .invalidAuthorization
  if validateNameLabel op.reveal.label ≠ .none then return .invalidLabelSyntax
  let state ← get
  if state.accounts.contains op.authorization.accountId = false then return .accountNotFound
  if state.names.accountNames.contains op.authorization.accountId = true then
    return .accountAlreadyHasName
  if state.names.names.contains op.reveal.label = true ∨
      (state.genesisAllocations.entries.any fun e => decide (e.2.label = op.reveal.label)) = true then
    return .nameAlreadyTaken
  let expected := computeNameCommitment networkBinding op.authorization.accountId op.reveal.label
    op.reveal.salt
  if op.reveal.work.commitment ≠ expected then return .invalidWorkProof
  match state.names.pendingCommits.find? expected with
  | none => return .commitmentNotFound
  | some record =>
    if record.accountId ≠ op.authorization.accountId then return .commitmentAccountMismatch
    if blockHeight < record.commitHeight + params.nameCommitMinDepth then
      return .insufficientCommitDepth
    if blockHeight > record.commitHeight + params.nameCommitMaxLifetime then return .commitExpired
    if nameWorkAccepted op networkBinding blockHeight params = false then return .invalidWorkProof
    let authorized ← authorizeOperation op.authorization networkBinding
    if authorized ≠ .none then return .invalidAuthorization
    modify fun s => { s with
      names :=
        { names := s.names.names.emplace op.reveal.label op.authorization.accountId
          accountNames := s.names.accountNames.emplace op.authorization.accountId op.reveal.label
          pendingCommits := s.names.pendingCommits.erase expected } }
    return .none

/-! ### Payments -/

def applyPayment (operation : AuthorizedPayment) (networkBinding : Hash256)
    (params : CybouProtocolParameters) : Transition PaymentError := do
  let senderId := operation.authorization.accountId
  let recipientId := operation.payment.recipient
  let amount := operation.payment.amount
  if operation.authorization.kind ≠ .payment then return .invalidAuthorization
  if amount = 0 then return .zeroAmount
  if Hash256.isNull recipientId = true then return .invalidPayload
  if computePaymentPayloadCommitment operation.payment ≠
      some operation.authorization.payloadCommitment then return .invalidPayload
  if senderId = recipientId then return .selfPayment
  let state ← get
  match state.accounts.find? senderId with
  | none => return .senderNotFound
  | some sender =>
    match state.accounts.find? recipientId with
    | none => return .recipientNotFound
    | some recipient =>
      if state.identities.find senderId = none ∨ state.identities.find recipientId = none then
        return .inconsistentState
      if sender.balance < amount then return .insufficientBalance
      if sender.systemBalance < params.paymentFee then return .insufficientSystemBalance
      if recipient.balance > UINT64_MAX - amount then return .recipientOverflow
      if canCreditCentralAuthorityFee state params.paymentFee = false then
        return .feeTransferFailed
      -- payment and fee meet in one balance when the treasury itself is paid
      let credited ← addAmount recipient.balance amount
      if ((findCentralAuthorityAllocation state).bind (·.2.claimedBy) = some recipientId) ∧
          credited > UINT64_MAX - params.paymentFee then return .feeTransferFailed
      let authorized ← authorizeOperation operation.authorization networkBinding
      if authorized ≠ .none then return .invalidAuthorization
      debitBalance senderId amount
      let _ ← debitSystemBalance senderId params.paymentFee
      creditBalance recipientId amount
      let _ ← creditCentralAuthorityFee params.paymentFee
      return .none

def applySystemLock (operation : AuthorizedSystemLock) (networkBinding : Hash256) :
    Transition SystemLockError := do
  let accountId := operation.authorization.accountId
  let amount := operation.lock.amount
  if operation.authorization.kind ≠ .systemLock then return .invalidAuthorization
  if amount = 0 then return .zeroAmount
  if computeSystemLockPayloadCommitment operation.lock ≠
      some operation.authorization.payloadCommitment then return .invalidPayload
  let state ← get
  match state.accounts.find? accountId with
  | none => return .accountNotFound
  | some account =>
    if state.identities.find accountId = none then return .inconsistentState
    if account.balance < amount then return .insufficientBalance
    if account.systemBalance > UINT64_MAX - amount then return .systemBalanceOverflow
    let authorized ← authorizeOperation operation.authorization networkBinding
    if authorized ≠ .none then return .invalidAuthorization
    debitBalance accountId amount
    creditSystemBalance accountId amount
    return .none

/-! ### Publications and leases -/

def computeRootPublicationFee (params : CybouProtocolParameters) (operationBytes : Nat)
    (chunkCount : UInt32) : Option UInt64 :=
  if operationBytes = 0 ∨ operationBytes > ROOT_PUBLICATION_MAX_OPERATION_BYTES ∨ chunkCount = 0 ∨
      chunkCount > MAX_PUBLICATION_CHUNKS then none
  else
    let kib : UInt64 := UInt64.ofNat ((operationBytes + 1023) / 1024)
    let perKib := params.rootPublicationFeePerStartedKib
    let perChunk := params.rootPublicationFeePerChunk
    if perKib ≠ 0 ∧ kib > UINT64_MAX / perKib then none
    else if perChunk ≠ 0 ∧ chunkCount.toUInt64 > UINT64_MAX / perChunk then none
    else
      let byteFee := kib * perKib
      let chunkFee := chunkCount.toUInt64 * perChunk
      if chunkFee > UINT64_MAX - byteFee then none else some (byteFee + chunkFee)

/-- The first period a new or renewed lease pays for. -/
def leaseStart (s : CybouState) (existing : Option StorageLeaseRecord) : UInt64 :=
  match existing with
  | none => s.settlement.nextPeriod
  | some lease => max s.settlement.nextPeriod lease.endPeriod

def fundingRefused (budget : AssignedStorageBudget) (existing : Option StorageLeaseRecord)
    (payer : AccountId) (units : UInt32) (replicas : UInt8) (periods : UInt32) (escrow : UInt64)
    (fundingOperationId : Hash256) (first : UInt64) : Bool :=
  decide (budget.total ≠ escrow) || fundingOperationId.isNull ||
  decide (first > UINT64_MAX - periods.toUInt64) ||
  existing.any (fun lease => decide (lease.fundedTerms = []) || decide (lease.payer ≠ payer) ||
    decide (lease.units ≠ units) || decide (lease.replicas ≠ replicas) ||
    lease.fundedTerms.any (fun term => decide (term.fundingOperationId = fundingOperationId)))

def newFundedTerm (params : CybouProtocolParameters) (budget : AssignedStorageBudget)
    (fundingOperationId : Hash256) (first : UInt64) (periods : UInt32)
    (onboarding locked : UInt64) : StorageFundedTerm :=
  { fundingOperationId, firstPeriod := first, endPeriod := first + periods.toUInt64
    rate := params.storageRatePerGibDayReplica
    periodSeconds := params.storageSettlementPeriodSeconds
    replicaShare := budget.perReplica
    contractedUnitSeconds := budget.contractedUnitSeconds
    initialOnboarding := onboarding, initialLocked := locked }

def fundStorageLease (publicationId : Hash256) (payer : AccountId) (units : UInt32)
    (replicas : UInt8) (periods : UInt32) (escrow : UInt64) (params : CybouProtocolParameters)
    (fundingOperationId : Hash256) : Transition Unit := do
  let state ← get
  match computeAssignedStorageBudget units.toUInt64 replicas.toUInt64 periods.toUInt64
      params.storageSettlementPeriodSeconds params.storageRatePerGibDayReplica with
  | none => throw .thrown
  | some budget =>
    let existing := state.leases.find? publicationId
    let first := leaseStart state existing
    if fundingRefused budget existing payer units replicas periods escrow fundingOperationId first =
        true then throw .thrown
    else
      let onboarding ← debitSystemBalance payer escrow
      let locked ← subAmount escrow onboarding
      let term := newFundedTerm params budget fundingOperationId first periods onboarding locked
      match existing with
      | some lease =>
        let escrowOnboarding ← addAmount lease.escrowOnboarding onboarding
        let escrowLocked ← addAmount lease.escrowLocked locked
        modify fun s => { s with
          leases := s.leases.set publicationId { lease with
            endPeriod := first + periods.toUInt64
            escrowOnboarding, escrowLocked
            fundedTerms := lease.fundedTerms ++ [term] } }
      | none =>
        modify fun s => { s with
          leases := s.leases.emplace publicationId
            { payer, units, replicas, firstPeriod := first, endPeriod := term.endPeriod
              escrowOnboarding := onboarding, escrowLocked := locked, fundedTerms := [term] } }

/-- The escrow of the lease a publication may carry; `none` refuses the payload. -/
def publicationEscrow (s : CybouState) (params : CybouProtocolParameters)
    (publication : RootPublication) : Option UInt64 :=
  if publication.leasePeriods = 0 then some 0
  else if s.settlement.nextPeriod > UINT64_MAX - publication.leasePeriods.toUInt64 then none
  else computeStorageLeaseEscrow params publication.chunkCount params.storageReplicaTarget
    publication.leasePeriods

def publicationFeeAndId (op : AuthorizedRootPublication) (params : CybouProtocolParameters) :
    Option (UInt64 × Hash256) := do
  let bytes ← serializeProtocolOperation (.rootPublication op)
  let fee ← computeRootPublicationFee params bytes.length op.publication.chunkCount
  let id ← computeOperationIdOfBytes bytes
  if op.publication.leasePeriods > params.maxStorageLeasePeriods then none else return (fee, id)

def applyRootPublication (op : AuthorizedRootPublication) (networkBinding : Hash256)
    (params : CybouProtocolParameters) : Transition RootPublicationError := do
  let senderId := op.authorization.accountId
  if op.authorization.kind ≠ .rootPublication then return .invalidAuthorization
  if computeRootPublicationPayloadCommitment op.publication ≠
      some op.authorization.payloadCommitment then return .invalidPayload
  match publicationFeeAndId op params with
  | none => return .invalidPayload
  | some (fee, publicationId) =>
    let state ← get
    match publicationEscrow state params op.publication with
    | none => return .invalidPayload
    | some escrow =>
      if escrow > UINT64_MAX - fee then return .invalidPayload
      match state.accounts.find? senderId with
      | none => return .senderNotFound
      | some sender =>
        if state.identities.find senderId = none then return .senderNotFound
        let due ← addAmount fee escrow
        if sender.systemBalance < due then return .insufficientSystemBalance
        if canCreditCentralAuthorityFee state fee = false then return .feeTransferFailed
        let authorized ← authorizeOperation op.authorization networkBinding
        if authorized ≠ .none then return .invalidAuthorization
        let _ ← debitSystemBalance senderId fee
        let _ ← creditCentralAuthorityFee fee
        if escrow = 0 then return .none
        fundStorageLease publicationId senderId op.publication.chunkCount
          params.storageReplicaTarget op.publication.leasePeriods escrow params publicationId
        return .none

def recordPublication (publicationId : Hash256) (owner : AccountId)
    (chunkAuthorizationRoot : ChunkId) (chunkCount : UInt32) (height : UInt64) :
    Transition Bool := do
  let state ← get
  if publicationId.isNull = true ∨ chunkCount = 0 ∨
      state.publications.contains publicationId = true ∨ state.accounts.contains owner = false then
    return false
  set { state with
    publications := state.publications.emplace publicationId
      { owner, chunkAuthorizationRoot, chunkCount, height } }
  return true

omit [Crypto] in
def StorageLeaseRecord.close (lease : StorageLeaseRecord) (nextPeriod : UInt64) :
    StorageLeaseRecord :=
  { lease with endPeriod := min lease.endPeriod (max lease.firstPeriod nextPeriod + 1) }

def closeLease (s : CybouState) (publicationId : Hash256) : CybouState :=
  match s.leases.find? publicationId with
  | none => s
  | some lease => s.putLease publicationId (lease.close s.settlement.nextPeriod)

def applyRevokePublication (op : AuthorizedRevokePublication) (networkBinding : Hash256)
    (params : CybouProtocolParameters) : Transition RevokePublicationError := do
  let accountId := op.authorization.accountId
  if op.authorization.kind ≠ .revokePublication then return .invalidAuthorization
  if computeRevokePublicationPayloadCommitment op.revoke ≠
      some op.authorization.payloadCommitment then return .invalidPayload
  let state ← get
  match state.accounts.find? accountId with
  | none => return .senderNotFound
  | some sender =>
    if state.identities.find accountId = none then return .senderNotFound
    match state.publications.find? op.revoke.publicationId with
    | none => return .publicationNotFound
    | some record =>
      if record.owner ≠ accountId then return .notOwner
      if sender.systemBalance < params.paymentFee then return .insufficientSystemBalance
      if canCreditCentralAuthorityFee state params.paymentFee = false then
        return .feeTransferFailed
      let authorized ← authorizeOperation op.authorization networkBinding
      if authorized ≠ .none then return .invalidAuthorization
      modify fun s => closeLease s op.revoke.publicationId
      modify fun s => { s with publications := s.publications.erase op.revoke.publicationId }
      let _ ← debitSystemBalance accountId params.paymentFee
      let _ ← creditCentralAuthorityFee params.paymentFee
      return .none

def heldEscrow : Option StorageLeaseRecord → Transition UInt64
  | none => pure 0
  | some lease => addAmount lease.escrowOnboarding lease.escrowLocked

def applyStorageLease (op : AuthorizedStorageLease) (networkBinding : Hash256)
    (params : CybouProtocolParameters) : Transition StorageLeaseError := do
  let accountId := op.authorization.accountId
  let periods := op.lease.periods
  if op.authorization.kind ≠ .storageLease then return .invalidAuthorization
  if computeStorageLeasePayloadCommitment op.lease ≠ some op.authorization.payloadCommitment ∨
      periods > params.maxStorageLeasePeriods then return .invalidPayload
  let state ← get
  match state.accounts.find? accountId with
  | none => return .senderNotFound
  | some sender =>
    if state.identities.find accountId = none then return .senderNotFound
    match state.publications.find? op.lease.publicationId with
    | none => return .publicationNotFound
    | some publication =>
      if publication.owner ≠ accountId then return .notOwner
      let existing := state.leases.find? op.lease.publicationId
      let replicas := (existing.map (·.replicas)).getD params.storageReplicaTarget
      match computeStorageLeaseEscrow params publication.chunkCount replicas periods with
      | none => return .escrowOverflow
      | some escrow =>
        if escrow > UINT64_MAX - params.paymentFee then return .escrowOverflow
        match computeOperationId (.storageLease op) with
        | none => return .invalidPayload
        | some fundingId =>
          if (existing.any fun lease => decide (lease.fundedTerms = [])) = true then
            return .invalidPayload
          if leaseStart state existing > UINT64_MAX - periods.toUInt64 then return .escrowOverflow
          let held ← heldEscrow existing
          if (existing.any fun lease =>
              decide (lease.endPeriod > UINT64_MAX - periods.toUInt64) ||
                decide (held > UINT64_MAX - escrow)) = true then return .escrowOverflow
          let due ← addAmount escrow params.paymentFee
          if sender.systemBalance < due then return .insufficientSystemBalance
          if canCreditCentralAuthorityFee state params.paymentFee = false then
            return .feeTransferFailed
          let authorized ← authorizeOperation op.authorization networkBinding
          if authorized ≠ .none then return .invalidAuthorization
          let _ ← debitSystemBalance accountId params.paymentFee
          let _ ← creditCentralAuthorityFee params.paymentFee
          fundStorageLease op.lease.publicationId accountId publication.chunkCount replicas periods
            escrow params fundingId
          return .none

end

end Cybou
