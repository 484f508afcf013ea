import Cybou.Transitions

/-! # Storage settlements: `PREPARE`, `ACTIVATE` and `PAY` of `storage_lease.cpp`

A settlement works on a copy of the state and the copy replaces the state only
after `ValidateCybouState` has accepted it.  Pointers into the state become a
`LocatedTerm`, which remembers the lease and the position a term was found at.
-/

namespace Cybou

open Library

inductive StorageSettlementError where
  | none
  | invalidPayload
  | invalidSignature
  | wrongPeriod
  | wrongPeriodStart
  | leaseNotFound
  | leaseNotActive
  | payoutAccountNotFound
  | selfPayout
  | tooManyPayouts
  | payoutExceedsEscrow
  | balanceOverflow
  | invalidAssignment
  | wrongActivationHeight
deriving DecidableEq, Repr

structure LocatedTerm where
  publication : Hash256
  lease : StorageLeaseRecord
  index : Nat
  term : StorageFundedTerm
deriving DecidableEq

def leaseTerms (e : Hash256 × StorageLeaseRecord) : List LocatedTerm :=
  e.2.fundedTerms.mapIdx fun index term => { publication := e.1, lease := e.2, index, term }

def StorageSettlementEntry.key (e : StorageSettlementEntry) : ServiceKey :=
  serviceKey e.slot e.storageId e.payoutAccount

def StorageLeaseRecord.setTerm (lease : StorageLeaseRecord) (index : Nat)
    (term : StorageFundedTerm) : StorageLeaseRecord :=
  { lease with fundedTerms := lease.fundedTerms.set index term }

def closeEpochs (term : StorageFundedTerm) (throughPeriod closurePeriod : UInt64) :
    List StorageServicePayment → Option (List StorageServicePayment)
  | [] => some []
  | e :: rest => do
    let closedEpochCapacity ← computeAcceptedStorageCapacity term e.slot e.storageId
      e.payoutAccount throughPeriod closurePeriod
    let rest ← closeEpochs term throughPeriod closurePeriod rest
    return { e with closedEpochCapacity } :: rest

section

variable [Crypto]

def CybouState.locatedTerms (s : CybouState) : List LocatedTerm :=
  (s.leases.entries.map leaseTerms).flatten

def onCopy {α : Type} (x : Transition α) : Transition (α × CybouState) := do
  let state ← get
  match x state with
  | .ok a candidate => return (a, candidate)
  | .error e _ => throw e

/-! ### Preparing and activating an assignment -/

/-- What `PREPARE` and `ACTIVATE` point at. -/
def assignmentTargets (op : StorageSettlement) (s : CybouState) :
    List (LocatedTerm × Option StorageAssignmentDeclaration) :=
  match op.action with
  | .prepare =>
    (s.locatedTerms.filter fun target =>
      decide (target.term.fundingOperationId = op.fundedTermId)).map fun target => (target, none)
  | .activate =>
    (s.locatedTerms.map fun target =>
      (target.term.declarations.filter fun d => decide (d.operationId = op.preparationId)).map
        fun d => (target, some d)).flatten
  | .pay => []

/-- The loop of `PREPARE` over the eligible providers. -/
def acceptEligible (s : CybouState) (network : Hash256) (height : UInt64) (payer : AccountId) :
    List StorageSettlementBinding → Except StorageSettlementError (List StorageAcceptedBinding)
  | [] => .ok []
  | e :: rest =>
    let account := e.binding.payoutAccount
    match s.identities.find account with
    | none => .error .payoutAccountNotFound
    | some identity =>
      if s.accounts.contains account = false then .error .payoutAccountNotFound
      else if account = payer then .error .selfPayout
      else if verifyStoragePayoutBindingStorageKey e.binding network e.storageId = false ∨
          identity.authorizationKey.purpose ≠ .authorization ∨
          verifyIdentityMessage identity.authorizationKey e.binding.authorization
            (storagePayoutBindingDigest network e.storageId account).1 = false then
        .error .invalidAssignment
      else do
        let rest ← acceptEligible s network height payer rest
        return { storageId := e.storageId, payoutAccount := account
                 keyEpoch := identity.keyEpoch, acceptedHeight := height } :: rest

/-- The `PREPARE` branch of `ApplyAssignmentInputs`. -/
def prepareTerm (op : StorageSettlement) (s : CybouState) (network : Hash256) (height : UInt64)
    (operationId : Option Hash256) (target : LocatedTerm) :
    Except StorageSettlementError StorageFundedTerm :=
  if target.lease.replicas > 2 ∨ op.assignmentEpoch < target.term.nextAssignmentEpoch ∨
      op.assignmentEpoch = UINT64_MAX then .error .invalidAssignment
  else do
    let eligible ← acceptEligible s network height target.lease.payer op.eligible
    if (eligible.map (·.payoutAccount)).dedup.length < target.lease.replicas.toNat then
      .error .invalidAssignment
    else
      match operationId with
      | none => return target.term
      | some operationId => return { target.term with
          declarations := target.term.declarations ++
            [{ operationId, epoch := op.assignmentEpoch, height, eligible }]
          nextAssignmentEpoch := op.assignmentEpoch + 1 }

def countSelected : UInt8 → List StorageAssignmentProvider → OrdMap ServiceKey UInt32 →
    Option (OrdMap ServiceKey UInt32)
  | _, [], counts => some counts
  | slot, e :: rest, counts =>
    if Hash256.isNull e.payoutAccount = true then none
    else
      let key := serviceKey slot e.storageId e.payoutAccount
      countSelected (slot + 1) rest (counts.set key ((counts.find? key).getD 0 + 1))

/-- The loop of `ACTIVATE` over the manifest. -/
def assignChunks (context : StorageAssignmentContext) (eligible : List StorageAssignmentProvider) :
    List ChunkId → OrdMap ServiceKey UInt32 →
      Except Fault (Except StorageSettlementError (OrdMap ServiceKey UInt32))
  | [], counts => .ok (.ok counts)
  | chunk :: rest, counts =>
    match prepareStorageAssignment { context with chunk } eligible with
    | .refused => .ok (.error .invalidAssignment)
    | .thrown => .error .thrown
    | .plan plan =>
      match countSelected 0 plan.selected counts with
      | none => .ok (.error .invalidAssignment)
      | some counts => assignChunks context eligible rest counts

omit [Crypto] in
def countedAllocations (counts : OrdMap ServiceKey UInt32) : List StorageAssignedUnits :=
  counts.entries.map fun e =>
    { slot := (ofLex e.1).1, storageId := (ofLex (ofLex e.1).2).1
      payoutAccount := (ofLex (ofLex e.1).2).2, units := e.2 }

omit [Crypto] in
/-- The draw context of `ACTIVATE`; the chunk is filled in by the loop. -/
def assignmentContext (network parent : Hash256) (target : LocatedTerm)
    (declaration : StorageAssignmentDeclaration) : StorageAssignmentContext :=
  { networkBinding := network, publication := target.publication, chunk := Hash256.ZERO
    finalizedSeed := parent, payer := target.lease.payer, epoch := declaration.epoch
    termStart := target.term.firstPeriod, termEnd := target.term.endPeriod
    replicas := target.lease.replicas }

/-- The `ACTIVATE` branch of `ApplyAssignmentInputs`. -/
def activateTerm (op : StorageSettlement) (network : Hash256) (height : UInt64) (parent : Hash256)
    (operationId : Option Hash256) (publication : PublicationRecord) (target : LocatedTerm)
    (declaration : StorageAssignmentDeclaration) :
    Except Fault (Except StorageSettlementError StorageFundedTerm) :=
  let term := target.term
  if term.declarations.getLast?.map (·.operationId) ≠ some op.preparationId ∨
      parent.isNull = true ∨ declaration.height > UINT64_MAX - 2 ∨
      height ≠ declaration.height + 2 then .ok (.error .wrongActivationHeight)
  else if (term.assignments.getLast?.any fun last => decide (declaration.epoch ≤ last.epoch)) = true
    then .ok (.error .invalidAssignment)
  else if op.manifest.length ≠ target.lease.units.toNat ∨
      op.manifest.length ≠ publication.chunkCount.toNat then .ok (.error .invalidAssignment)
  else if chunkAuthorizationRoot op.manifest ≠ some publication.chunkAuthorizationRoot then
    .ok (.error .invalidAssignment)
  else do
    let counts ← assignChunks (assignmentContext network parent target declaration)
      (declaration.eligible.map fun e =>
        { storageId := e.storageId, payoutAccount := e.payoutAccount }) op.manifest ∅
    match counts, operationId with
    | .error e, _ => return .error e
    | .ok _, none => return .ok term
    | .ok counts, some operationId =>
      match closeEpochs term op.period target.lease.endPeriod term.servicePayments with
      | none => return .error .invalidAssignment
      | some servicePayments => return .ok { term with
          servicePayments
          assignments := term.assignments ++
            [{ operationId, preparationId := op.preparationId, seed := parent
               epoch := declaration.epoch, effectivePeriod := op.period
               allocations := countedAllocations counts }] }

/-- The branch of `ApplyAssignmentInputs` an action takes. -/
def assignedTerm (op : StorageSettlement) (s : CybouState) (network : Hash256) (height : UInt64)
    (parent : Hash256) (operationId : Option Hash256) (publication : PublicationRecord)
    (target : LocatedTerm) :
    Option StorageAssignmentDeclaration →
      Except Fault (Except StorageSettlementError StorageFundedTerm)
  | none => .ok (prepareTerm op s network height operationId target)
  | some declaration =>
    activateTerm op network height parent operationId publication target declaration

def applyAssignmentInputs (op : StorageSettlement) (network : Hash256) (height : UInt64)
    (parent : Hash256) (apply : Bool) : Transition StorageSettlementError := do
  if serializeSettlementBody op = none ∨ network.isNull = true ∨ height = 0 then
    return .invalidPayload
  let state ← get
  if op.period ≠ state.settlement.nextPeriod then return .wrongPeriod
  if state.settlement.nextPeriodStartUtc ≠ 0 ∧
      state.settlement.nextPeriodStartUtc ≠ op.periodStartUtc then return .wrongPeriodStart
  match assignmentTargets op state with
  | [] => return .leaseNotFound
  | _ :: _ :: _ => return .invalidAssignment
  | [(target, declaration)] =>
    match state.publications.find? target.publication with
    | none => return .leaseNotActive
    | some publication =>
      if op.period < target.term.firstPeriod ∨ op.period ≥ target.term.endPeriod ∨
          op.period ≥ target.lease.endPeriod then return .leaseNotActive
      if op.periodStartUtc > UINT64_MAX - target.term.periodSeconds then return .invalidPayload
      let operationId := if apply then computeOperationId (.storageSettlement op) else none
      if apply = true ∧ operationId = none then return .invalidPayload
      match assignedTerm op state network height parent operationId publication target declaration with
      | .error fault => throw fault
      | .ok (.error e) => return e
      | .ok (.ok term) =>
        if apply = true then
          set (state.putLease target.publication (target.lease.setTerm target.index term))
          modify fun s =>
            if s.settlement.nextPeriodStartUtc = 0 then
              { s with settlement := { s.settlement with nextPeriodStartUtc := op.periodStartUtc } }
            else s
        return .none

/-! ### Payouts -/

/-- What `PAY` found about an entry before it computes what is due. -/
structure EntryContext where
  provider : AccountState
  before : List StorageServicePayment
  paid : UInt64
  after : List StorageServicePayment
  witnesses : List Hash256

omit [Crypto] in
/-- The loop of `PAY` that resolves the activations behind an entry: `none` when
    one of them is not witnessed. -/
def resolveWitnesses (op : StorageSettlement) (lease : StorageLeaseRecord)
    (term : StorageFundedTerm) (key : ServiceKey) :
    List StorageAcceptedAssignment → Option (List Hash256)
  | [] => some []
  | epoch :: rest =>
    let end_ := min (min (min (op.period + 1) lease.endPeriod) term.endPeriod)
      (epochEnd term.endPeriod rest)
    if end_ ≤ epoch.effectivePeriod ∨
        (epoch.allocations.all fun u => decide (u.key ≠ key)) = true then
      resolveWitnesses op lease term key rest
    else if epoch.operationId ∉ op.activationWitnesses then none
    else do
      let rest ← resolveWitnesses op lease term key rest
      return epoch.operationId :: rest

/-- The checks of `PAY` on an entry up to its witnesses. -/
def checkEntry (op : StorageSettlement) (params : CybouProtocolParameters) (s : CybouState)
    (entry : StorageSettlementEntry) (target : LocatedTerm) :
    Except StorageSettlementError EntryContext :=
  let lease := target.lease
  let term := target.term
  if op.period < term.firstPeriod ∨ op.period ≥ term.endPeriod ∨ op.period ≥ lease.endPeriod ∨
      term.refundedOnboarding ≠ 0 ∨ term.refundedLocked ≠ 0 then .error .leaseNotActive
  else
    match s.accounts.find? entry.payoutAccount with
    | none => .error .payoutAccountNotFound
    | some provider =>
      if entry.payoutAccount = lease.payer then .error .selfPayout
      else if entry.slot ≥ lease.replicas ∨
          term.periodSeconds ≠ params.storageSettlementPeriodSeconds then .error .invalidAssignment
      else
        -- `std::lower_bound` in the ledger of the term
        let before := term.servicePayments.takeWhile fun e => decide (e.key < entry.key)
        let from_ := term.servicePayments.dropWhile fun e => decide (e.key < entry.key)
        let existing := from_.head?.filter fun e => decide (e.key = entry.key)
        let after := if existing.isSome then from_.tail else from_
        let priorService := (existing.map (·.verifiedUnitSeconds)).getD 0
        if entry.verifiedUnitSeconds ≤ priorService then .error .invalidPayload
        else
          match computeAcceptedStorageCapacity term entry.slot entry.storageId entry.payoutAccount
              (op.period + 1) lease.endPeriod with
          | none => .error .invalidAssignment
          | some capacity =>
            if entry.verifiedUnitSeconds > capacity then .error .invalidAssignment
            else
              match resolveWitnesses op lease term entry.key term.assignments with
              | none | some [] => .error .invalidAssignment
              | some witnesses => .ok
                { provider, before, paid := (existing.map (·.paid)).getD 0, after, witnesses }

omit [Crypto] in
def checkDue (entry : StorageSettlementEntry) (target : LocatedTerm) (context : EntryContext)
    (total : UInt64) : Except StorageSettlementError Unit :=
  let term := target.term
  match computeAssignedStoragePayout
      { perReplica := term.replicaShare, total, contractedUnitSeconds := term.contractedUnitSeconds }
      entry.verifiedUnitSeconds context.paid with
  | none => .error .payoutExceedsEscrow
  | some due =>
    if entry.amount ≠ due then .error .payoutExceedsEscrow
    else if entry.verifiedUnitSeconds.toNat +
        slotService entry.slot.toNat (term.servicePayments.filter fun e => decide (e.key ≠ entry.key)) >
          term.contractedUnitSeconds.toNat then .error .invalidAssignment
    else if term.paidOnboarding > term.initialOnboarding ∨ term.paidLocked > term.initialLocked then
      .error .payoutExceedsEscrow
    else .ok ()

/-- The amounts of `PAY` for an entry that passed its checks. -/
def settleEntry (entry : StorageSettlementEntry) (target : LocatedTerm) (context : EntryContext) :
    Transition (Except StorageSettlementError Unit) := do
  let lease := target.lease
  let term := target.term
  let provider := context.provider
  let openOnboarding ← subAmount term.initialOnboarding term.paidOnboarding
  let withLocked ← addAmount openOnboarding term.initialLocked
  let openAmount ← subAmount withLocked term.paidLocked
  if entry.amount > openAmount then return .error .payoutExceedsEscrow
  let onboarding := min entry.amount openOnboarding
  let locked ← subAmount entry.amount onboarding
  if onboarding > lease.escrowOnboarding ∨ locked > lease.escrowLocked then
    return .error .payoutExceedsEscrow
  if onboarding > UINT64_MAX - provider.systemBalance ∨
      onboarding > UINT64_MAX - provider.onboardingSystemBalance ∨
      locked > UINT64_MAX - provider.balance then return .error .balanceOverflow
  match term.assignments.getLast?.bind fun last => computeAcceptedStorageCapacity term entry.slot
      entry.storageId entry.payoutAccount last.effectivePeriod lease.endPeriod with
  | none => return .error .invalidAssignment
  | some closedEpochCapacity =>
    let paid ← addAmount context.paid entry.amount
    let paidOnboarding ← addAmount term.paidOnboarding onboarding
    let paidLocked ← addAmount term.paidLocked locked
    let escrowOnboarding ← subAmount lease.escrowOnboarding onboarding
    let escrowLocked ← subAmount lease.escrowLocked locked
    let systemBalance ← addAmount provider.systemBalance onboarding
    let onboardingSystemBalance ← addAmount provider.onboardingSystemBalance onboarding
    let balance ← addAmount provider.balance locked
    let ledger : StorageServicePayment :=
      { slot := entry.slot, storageId := entry.storageId, payoutAccount := entry.payoutAccount
        verifiedUnitSeconds := entry.verifiedUnitSeconds, paid, closedEpochCapacity }
    modify fun s => s.putLease target.publication
      ({ lease with escrowOnboarding, escrowLocked }.setTerm target.index { term with
        paidOnboarding, paidLocked
        servicePayments := context.before ++ ledger :: context.after })
    modify fun s => s.putAccount entry.payoutAccount
      { provider with systemBalance, onboardingSystemBalance, balance }
    return .ok ()

/-- The loop body of `PAY` over its entries; `used` are the witnesses used so
    far. -/
def payEntry (op : StorageSettlement) (params : CybouProtocolParameters)
    (entry : StorageSettlementEntry) (used : List Hash256) :
    Transition (Except StorageSettlementError (List Hash256)) := do
  let state ← get
  match state.locatedTerms.filter fun target =>
      decide (target.term.fundingOperationId = entry.fundingOperationId) with
  | [] => return .error .leaseNotFound
  | _ :: _ :: _ => return .error .invalidPayload
  | [target] =>
    match checkEntry op params state entry target with
    | .error e => return .error e
    | .ok context =>
      let total ← addAmount target.term.initialOnboarding target.term.initialLocked
      match checkDue entry target context total with
      | .error e => return .error e
      | .ok () =>
        match ← settleEntry entry target context with
        | .error e => return .error e
        | .ok () => return .ok (used ++ context.witnesses)

def payEntries (op : StorageSettlement) (params : CybouProtocolParameters) :
    List StorageSettlementEntry → List Hash256 →
      Transition (Except StorageSettlementError (List Hash256))
  | [], used => return .ok used
  | entry :: rest, used => do
    match ← payEntry op params entry used with
    | .error e => return .error e
    | .ok used => payEntries op params rest used

/-- The loop body of `PAY` that refunds a closed term. -/
def refundTerm (publication : Hash256) (index : Nat) : Transition StorageSettlementError := do
  let state ← get
  match state.leases.find? publication with
  | none => return .none
  | some lease =>
    match lease.fundedTerms[index]? with
    | none => return .none
    | some term =>
      if min term.endPeriod lease.endPeriod > state.settlement.nextPeriod then return .none
      let unpaidOnboarding ← subAmount term.initialOnboarding term.paidOnboarding
      let onboarding ← subAmount unpaidOnboarding term.refundedOnboarding
      let unpaidLocked ← subAmount term.initialLocked term.paidLocked
      let locked ← subAmount unpaidLocked term.refundedLocked
      let payer ← accountAt lease.payer
      if onboarding > lease.escrowOnboarding ∨ locked > lease.escrowLocked ∨
          onboarding > UINT64_MAX - payer.onboardingSystemBalance ∨
          onboarding > UINT64_MAX - payer.systemBalance ∨
          locked > UINT64_MAX - payer.systemBalance - onboarding then return .balanceOverflow
      let refund ← addAmount onboarding locked
      let systemBalance ← addAmount payer.systemBalance refund
      let onboardingSystemBalance ← addAmount payer.onboardingSystemBalance onboarding
      let escrowOnboarding ← subAmount lease.escrowOnboarding onboarding
      let escrowLocked ← subAmount lease.escrowLocked locked
      let refundedOnboarding ← addAmount term.refundedOnboarding onboarding
      let refundedLocked ← addAmount term.refundedLocked locked
      match closeEpochs term state.settlement.nextPeriod lease.endPeriod term.servicePayments with
      | none => return .invalidAssignment
      | some servicePayments =>
        modify fun s => s.putAccount lease.payer
          { payer with systemBalance, onboardingSystemBalance }
        modify fun s => s.putLease publication
          ({ lease with escrowOnboarding, escrowLocked }.setTerm index
            { term with refundedOnboarding, refundedLocked, servicePayments })
        return .none

/-- The loop of `PAY` over all terms. -/
def refundTerms : List LocatedTerm → Transition StorageSettlementError
  | [] => return .none
  | target :: rest => do
    let result ← refundTerm target.publication target.index
    if result ≠ .none then return result
    refundTerms rest

def applyPayInputs (op : StorageSettlement) (params : CybouProtocolParameters) :
    Transition StorageSettlementError := do
  if op.action ≠ .pay ∨ serializeSettlementBody op = none then return .invalidPayload
  let state ← get
  if op.period ≠ state.settlement.nextPeriod then return .wrongPeriod
  if state.settlement.nextPeriodStartUtc ≠ 0 ∧
      op.periodStartUtc ≠ state.settlement.nextPeriodStartUtc then return .wrongPeriodStart
  if params.storageSettlementPeriodSeconds = 0 ∨ op.period = UINT64_MAX ∨
      op.periodStartUtc > UINT64_MAX - params.storageSettlementPeriodSeconds ∨
      op.periodEndUtc ≠ op.periodStartUtc + params.storageSettlementPeriodSeconds then
    return .invalidPayload
  match ← payEntries op params op.entries [] with
  | .error e => return e
  | .ok used =>
    if used.dedup.length ≠ op.activationWitnesses.length then return .invalidAssignment
    modify fun s => { s with
      settlement := { nextPeriod := op.period + 1, nextPeriodStartUtc := op.periodEndUtc } }
    let state ← get
    refundTerms state.locatedTerms

/-! ### The settlement itself -/

def checkStorageSettlementInputs (settlement : StorageSettlement) (params : CybouProtocolParameters)
    (networkBinding : Hash256) (blockHeight : UInt64) (verifiedParentId : Hash256) :
    Transition StorageSettlementError := do
  if settlement.action ≠ .pay then
    let checked ← onCopy (applyAssignmentInputs settlement networkBinding blockHeight
      verifiedParentId false)
    return checked.1
  let checked ← onCopy (applyPayInputs settlement params)
  if checked.1 ≠ .none then return checked.1
  let state ← get
  if validateCybouState checked.2 = .none ∧ totalCybou checked.2 = totalCybou state then
    return .none
  return .invalidPayload

def applyStorageSettlement (settlement : StorageSettlement) (networkBinding : Hash256)
    (params : CybouProtocolParameters) (poaKey : IdentityHybridPublicKey) (blockHeight : UInt64)
    (verifiedParentId : Hash256) : Transition StorageSettlementError := do
  match computeStorageSettlementDigest networkBinding settlement with
  | none => return .invalidPayload
  | some digest =>
    if poaKey.purpose ≠ .poaFinalizer ∨
        verifyIdentityMessage poaKey settlement.poaSignature digest.1 = false then
      return .invalidSignature
    if settlement.action ≠ .pay then
      let checked ← onCopy (applyAssignmentInputs settlement networkBinding blockHeight
        verifiedParentId true)
      if checked.1 ≠ .none then return checked.1
      if validateCybouState checked.2 ≠ .none then return .invalidAssignment
      set checked.2
      return .none
    let checked ← onCopy (applyPayInputs settlement params)
    if checked.1 ≠ .none then return checked.1
    let state ← get
    if validateCybouState checked.2 ≠ .none ∨ totalCybou checked.2 ≠ totalCybou state then
      return .invalidPayload
    set checked.2
    return .none

end

end Cybou
