import Cybou.Settlement
import Cybou.StateCodec

/-! # Execution of a block (`block_executor.cpp`)

A `BlockExecutor` applies operations one by one to a candidate state.  Its
calls may be interleaved with exceptions that the caller catches, so a run is
described by the executor each call leaves behind, returned or thrown.
-/

namespace Cybou

open Library

inductive BlockExecutionError where
  | none
  | tooManyAccountCreates
  | invalidAccountCreate
  | invalidPayment
  | invalidIdentityRotate
  | invalidSystemLock
  | invalidNameCommit
  | invalidNameReveal
  | invalidRootPublication
  | invalidRevokePublication
  | invalidStorageLease
  | invalidStorageSettlement
  | supplyChanged
  | invalidState
deriving DecidableEq, Repr

section

variable [Crypto]

structure BlockExecutionResult where
  error : BlockExecutionError := .none
  failedOperationIndex : Nat := 0
  createError : AccountCreateStateError := .none
  paymentError : PaymentError := .none
  identityError : IdentityRegistryError := .none
  lockError : SystemLockError := .none
  nameCommitError : NameCommitError := .none
  nameRevealError : NameRevealError := .none
  rootPublicationError : RootPublicationError := .none
  revokeError : RevokePublicationError := .none
  leaseError : StorageLeaseError := .none
  settlementError : StorageSettlementError := .none
  state : Option CybouState := none
  stateRoot : Option Hash256 := none

def BlockExecutionResult.isOk (result : BlockExecutionResult) : Bool := decide (result.error = .none)

/-! ### One operation on the candidate -/

/-- What an executor is built for, apart from the parent state. -/
structure BlockContext where
  networkBinding : Hash256
  blockHeight : UInt64
  params : CybouProtocolParameters
  poaKey : Option IdentityHybridPublicKey
  verifiedParentId : Hash256

/-- One branch of the dispatch in `ApplyOperation`: the failure it reports, if
    any. -/
def reportFailure {ε : Type} [DecidableEq ε] (ok : ε) (failure : ε → BlockExecutionResult)
    (x : Transition ε) : Transition (Option BlockExecutionResult) := do
  let result ← x
  if result ≠ ok then return some (failure result)
  return none

def dispatch (ctx : BlockContext) :
    ProtocolOperation → Transition (Option BlockExecutionResult)
  | .accountCreate op =>
    reportFailure .none (fun e => { error := .invalidAccountCreate, createError := e })
      (applyAccountCreate op ctx.networkBinding ctx.blockHeight ctx.params)
  | .payment op =>
    reportFailure .none (fun e => { error := .invalidPayment, paymentError := e })
      (applyPayment op ctx.networkBinding ctx.params)
  | .identityRotate op =>
    reportFailure .none (fun e => { error := .invalidIdentityRotate, identityError := e })
      (rotateIdentity op ctx.networkBinding)
  | .systemLock op =>
    reportFailure .none (fun e => { error := .invalidSystemLock, lockError := e })
      (applySystemLock op ctx.networkBinding)
  | .nameCommit op =>
    reportFailure .none (fun e => { error := .invalidNameCommit, nameCommitError := e })
      (applyNameCommit op ctx.networkBinding ctx.blockHeight ctx.params)
  | .nameReveal op =>
    reportFailure .none (fun e => { error := .invalidNameReveal, nameRevealError := e })
      (applyNameReveal op ctx.networkBinding ctx.blockHeight ctx.params)
  | .rootPublication op =>
    reportFailure .none (fun e => { error := .invalidRootPublication, rootPublicationError := e })
      (applyRootPublication op ctx.networkBinding ctx.params)
  | .revokePublication op =>
    reportFailure .none (fun e => { error := .invalidRevokePublication, revokeError := e })
      (applyRevokePublication op ctx.networkBinding ctx.params)
  | .storageLease op =>
    reportFailure .none (fun e => { error := .invalidStorageLease, leaseError := e })
      (applyStorageLease op ctx.networkBinding ctx.params)
  | .storageSettlement op =>
    reportFailure .none (fun e => { error := .invalidStorageSettlement, settlementError := e })
      (match ctx.poaKey with
        | none => pure .invalidSignature
        | some key => applyStorageSettlement op ctx.networkBinding ctx.params key ctx.blockHeight
            ctx.verifiedParentId)

/-- The registration of an accepted publication; everything else has none. -/
def recordOperation (ctx : BlockContext) : ProtocolOperation → Transition Bool
  | .rootPublication op =>
    match computeOperationId (.rootPublication op) with
    | none => return false
    | some id => recordPublication id op.authorization.accountId
        op.publication.chunkAuthorizationRoot op.publication.chunkCount ctx.blockHeight
  | _ => return true

/-- The part of `ApplyOperation` that works on the candidate. -/
def executeOperation (ctx : BlockContext) (operation : ProtocolOperation) :
    Transition (Option BlockExecutionResult) := do
  match ← dispatch ctx operation with
  | some failure => return some failure
  | none =>
    let recorded ← recordOperation ctx operation
    if recorded = false then return some { error := .invalidState }
    return none

/-! ### The executor -/

structure BlockExecutor where
  context : BlockContext
  candidate : CybouState
  initialSupply : UInt64
  accountCreates : Nat
  valid : Bool
  initError : BlockExecutionError

def expireCommits (ctx : BlockContext) (s : CybouState) : CybouState :=
  if ctx.params.nameCommitMaxLifetime > 0 then
    { s with names := { s.names with
      pendingCommits := s.names.pendingCommits.filter fun _ record =>
        !(decide (ctx.blockHeight > record.commitHeight) &&
          decide (ctx.blockHeight - record.commitHeight > ctx.params.nameCommitMaxLifetime)) } }
  else s

namespace BlockExecutor

def new (parent : CybouState) (ctx : BlockContext) : BlockExecutor :=
  if validateCybouState parent ≠ .none then
    { context := ctx, candidate := parent, initialSupply := 0, accountCreates := 0, valid := false
      initError := .invalidState }
  else
    { context := ctx, candidate := expireCommits ctx parent, initialSupply := totalCybou parent
      accountCreates := 0, valid := true, initError := .none }

abbrev Call (α : Type) := Proc Fault BlockExecutor α

def onCandidate {α : Type} (x : Transition α) : Call α := fun executor =>
  match x executor.candidate with
  | .ok a candidate => .ok a { executor with candidate }
  | .error e candidate => .error e { executor with candidate }

def fail (failure : BlockExecutionResult) : Call BlockExecutionResult := do
  modify fun executor => { executor with valid := false }
  return failure

def isAccountCreate : ProtocolOperation → Bool
  | .accountCreate _ => true
  | _ => false

def applyOperation (operation : ProtocolOperation) : Call BlockExecutionResult := do
  let executor ← get
  if executor.valid = false then fail { error := executor.initError }
  else if isAccountCreate operation = true ∧
      executor.accountCreates ≥ executor.context.params.maxAccountCreatesPerBlock.toNat then
    fail { error := .tooManyAccountCreates }
  else
    match ← onCandidate (executeOperation executor.context operation) with
    | some failure => fail failure
    | none =>
      modify fun executor =>
        if isAccountCreate operation then
          { executor with accountCreates := executor.accountCreates + 1 }
        else executor
      return {}

def finalize (executor : BlockExecutor) : BlockExecutionResult :=
  if executor.valid = false then { error := executor.initError }
  else if validateCybouState executor.candidate ≠ .none then { error := .invalidState }
  else if totalCybou executor.candidate ≠ executor.initialSupply then { error := .supplyChanged }
  else
    match cybouStateHash executor.candidate false with
    | none => { error := .invalidState }
    | some root => { state := some executor.candidate, stateRoot := some root }

/-- The executor after a call, whether the call returned or threw. -/
def after (executor : BlockExecutor) (operation : ProtocolOperation) : BlockExecutor :=
  match applyOperation operation executor with
  | .ok _ executor' => executor'
  | .error _ executor' => executor'

def afterAll (executor : BlockExecutor) (operations : List ProtocolOperation) : BlockExecutor :=
  operations.foldl after executor

end BlockExecutor

def executeFrom (index : Nat) : List ProtocolOperation → BlockExecutor.Call BlockExecutionResult
  | [] => do
    let executor ← get
    return executor.finalize
  | operation :: rest => do
    let result ← BlockExecutor.applyOperation operation
    if result.isOk = false then return { result with failedOperationIndex := index }
    executeFrom (index + 1) rest

/-- `ExecuteBlockOperations`: `none` when an exception escapes. -/
def executeBlockOperations (parent : CybouState) (operations : List ProtocolOperation)
    (ctx : BlockContext) : Option BlockExecutionResult :=
  if operations.countP BlockExecutor.isAccountCreate > ctx.params.maxAccountCreatesPerBlock.toNat then
    some { error := .tooManyAccountCreates }
  else
    let executor := BlockExecutor.new parent ctx
    if executor.valid = false then some { error := executor.initError }
    else
      match executeFrom 0 operations executor with
      | .ok result _ => some result
      | .error _ _ => none

end

end Cybou
