import Cybou.ProviderSelector
import Cybou.ChunkAuthorization

/-! # Placing the replicas of a publication (`StorageService::Place` of `storage_service_repair.cpp`)

For each chunk that lacks replicas, rounds of up to four providers are planned, asked and
admitted.  A provider is planned once; what a round reserves is given back where a provider
fails, since only replicas that were recorded count as used.  The answers of the transport,
of the evidence ledger and of the database are parameters, and the calls that are made of
them are logged.
-/

namespace Cybou

open Library ProviderSelector

section

variable [Crypto]

/-! ### Receipts -/

def storageReceiptMessage (networkBinding publication : Hash256) (chunkId : ChunkId) (storedSize : UInt32) : Bytes :=
  ascii "CYBOU/STORAGE-RECEIPT" ++ networkBinding.1 ++ publication.1 ++ chunkId.1 ++ le32 storedSize

def verifyStorageReceipt (receipt : Bytes) (networkBinding publication : Hash256) (chunkId : ChunkId)
    (storedSize : UInt32) : Option (FixedBytes 32) :=
  verifyStorageProof receipt (storageReceiptMessage networkBinding publication chunkId storedSize)

def ChunkAdmissionStatus.code : ChunkAdmissionStatus → Nat
  | .stored => 0
  | .alreadyStored => 1
  | .notFinalized => 2
  | .invalid => 3
  | .notAuthorized => 4
  | .conflict => 5
  | .capacityExceeded => 6
  | .storageError => 7

structure ChunkAdmissionResult where
  status : ChunkAdmissionStatus
  receipt : Bytes

/-- Its conversion to `bool`: the provider holds the chunk. -/
def ChunkAdmissionResult.held (result : ChunkAdmissionResult) : Bool :=
  decide (result.status = .stored) || decide (result.status = .alreadyStored)

/-! ### What is asked of others -/

/-- What follows from asking one provider: the result of the transport, and the answers of
    `RecordEvidence`, `CreditReplica` and `SaveReceipt`. -/
structure AdmissionAnswer where
  result : Option ChunkAdmissionResult
  recorded : Bool
  credited : Bool
  receiptSaved : Bool

/-- What happens in one round: whether `Submit` throws for a provider, the answers, and that
    of `PlacementRepository::Save`. -/
structure RoundAnswers where
  submitted : StorageEndpoint → Bool
  admission : StorageEndpoint → AdmissionAnswer
  placementSaved : Bool

/-- The calls that the loop over a chunk makes, and the replicas that it records. -/
inductive PlaceEvent where
  | put (provider : StorageEndpoint)
  | recordEvidence (storageId : FixedBytes 32) (ok : Bool)
  | creditReplica (storageId : FixedBytes 32) (ok : Bool)
  | forgetReplica (storageId : FixedBytes 32)
  | saveReceipt (storageId : FixedBytes 32) (receipt : Bytes) (ok : Bool)
  | replica (provider : StorageEndpoint)
  | savePlacement (ok : Bool)
deriving DecidableEq

/-- What is fixed while the replicas of one chunk are placed. -/
structure ChunkJob where
  target : Nat
  /-- `RequiresReplicaAddressDiversity`. -/
  diverse : Bool
  /-- The address is an IP address of the loopback interface. -/
  sameMachine : Bytes → Bool
  providers : List StorageEndpoint
  networkBinding : Hash256
  operationId : Hash256
  chunkId : ChunkId
  /-- The size of the stored bytes. -/
  size : UInt32

/-- The variables of the loop over one chunk, and what it has called. -/
structure ChunkPlacing where
  replicas : List StorageEndpoint
  usedIdentities : List (FixedBytes 32)
  usedAddresses : List Bytes
  attempted : List (FixedBytes 32)
  changed : Bool
  admissionError : Bytes
  events : List PlaceEvent

namespace ChunkPlacing

def log (s : ChunkPlacing) (events : List PlaceEvent) : ChunkPlacing := { s with events := s.events ++ events }

def refuse (s : ChunkPlacing) (error : Bytes) : ChunkPlacing := { s with admissionError := error }

end ChunkPlacing

/-- `plan` and the sets that planning extends. -/
structure ReplicaPlan where
  providers : List StorageEndpoint
  attempted : List (FixedBytes 32)
  reserved : List (FixedBytes 32)
  reservedAddresses : List Bytes

namespace ChunkJob

variable (job : ChunkJob)

omit [Crypto] in
def identityOf (replica : StorageEndpoint) : FixedBytes 32 :=
  match job.providers.find? fun provider => decide (provider.storageId = replica.storageId) with
  | some provider => economicIdentity provider
  | none => replica.storageId

omit [Crypto] in
/-- One step of the planning loop; nothing changes after its `break`. -/
def planStep (replicas : List StorageEndpoint) (limit : Nat) (plan : ReplicaPlan) (provider : StorageEndpoint) :
    ReplicaPlan :=
  if plan.providers.length ≥ limit then plan
  else if provider.storageId ∈ plan.attempted ∨ hasProvider replicas provider = true ∨
      economicIdentity provider ∈ plan.reserved then plan
  else if job.diverse = true ∧ (job.sameMachine provider.address = true ∨ provider.address ∈ plan.reservedAddresses) then plan
  else { providers := plan.providers ++ [provider]
         attempted := plan.attempted ++ [provider.storageId]
         reserved := plan.reserved ++ [economicIdentity provider]
         reservedAddresses := plan.reservedAddresses ++ [provider.address] }

omit [Crypto] in
def plan (s : ChunkPlacing) : ReplicaPlan :=
  job.providers.foldl (job.planStep s.replicas (min 4 (job.target - s.replicas.length)))
    { providers := [], attempted := s.attempted, reserved := s.usedIdentities, reservedAddresses := s.usedAddresses }

def admitReplica (answers : StorageEndpoint → AdmissionAnswer) (s : ChunkPlacing) (provider : StorageEndpoint) : ChunkPlacing :=
  let answer := answers provider
  let name := ascii "Provider " ++ provider.address ++ ascii ":" ++ decimal provider.port.toNat
  match answer.result with
  | none => s.refuse (name ++ ascii " did not acknowledge chunk admission")
  | some admitted =>
    if admitted.held = false then
      s.refuse (name ++ ascii " rejected chunk with status " ++ decimal admitted.status.code)
    else if verifyStorageReceipt admitted.receipt job.networkBinding job.operationId job.chunkId job.size ≠
        some provider.storageId then
      s.refuse (name ++ ascii " returned no valid storage receipt")
    else if answer.recorded = false then
      (s.log [.recordEvidence provider.storageId false, .forgetReplica provider.storageId]).refuse
        (ascii "Cannot save storage evidence")
    else if answer.credited = false then
      (s.log [.recordEvidence provider.storageId true, .creditReplica provider.storageId false,
        .forgetReplica provider.storageId]).refuse (ascii "Cannot save storage evidence")
    else
      let s := s.log [.recordEvidence provider.storageId true, .creditReplica provider.storageId true]
      if hasProvider s.replicas provider = true then s
      else if answer.receiptSaved = false then
        (s.log [.saveReceipt provider.storageId admitted.receipt false]).refuse (ascii "Cannot save storage receipt")
      else
        { s with
          replicas := s.replicas ++ [provider]
          usedIdentities := s.usedIdentities ++ [economicIdentity provider]
          usedAddresses := s.usedAddresses ++ [provider.address]
          changed := true
          events := s.events ++ [.saveReceipt provider.storageId admitted.receipt true, .replica provider] }

/-- How the loop over a chunk is left. -/
inductive Exit where
  | finished
  | thrown
  | saveFailed
  /-- The fuel of the model is used up. -/
  | unfinished
deriving DecidableEq

def loop (rounds : Nat → RoundAnswers) : Nat → Nat → ChunkPlacing → Exit × ChunkPlacing
  | 0, _, s => (.unfinished, s)
  | fuel + 1, round, s =>
    if s.replicas.length ≥ job.target then (.finished, s)
    else
      let plan := job.plan s
      if plan.providers = [] then (.finished, s)
      else
        let answers := rounds round
        let s := { s with
          attempted := plan.attempted
          events := s.events ++ (plan.providers.takeWhile answers.submitted).map .put }
        if plan.providers.all answers.submitted = false then (.thrown, s)
        else
          let s := plan.providers.foldl (job.admitReplica answers.admission) s
          if s.changed = false then loop rounds fuel (round + 1) s
          else
            let s := s.log [.savePlacement answers.placementSaved]
            if answers.placementSaved = false then (.saveFailed, s) else loop rounds fuel (round + 1) s

def placeChunk (rounds : Nat → RoundAnswers) (replicas : List StorageEndpoint) (changed : Bool) (admissionError : Bytes) :
    Exit × ChunkPlacing :=
  job.loop rounds (job.providers.length + 1) 0
    { replicas
      usedIdentities := replicas.map job.identityOf
      usedAddresses := replicas.map StorageEndpoint.address
      attempted := []
      changed
      admissionError
      events := [] }

end ChunkJob

/-! ### The loop over the chunks -/

/-- What became of one chunk: its replicas, and the calls that were made for it. -/
structure ChunkRun where
  replicas : List StorageEndpoint
  events : List PlaceEvent

def ChunkRun.untouched (replicas : List StorageEndpoint) : ChunkRun := { replicas, events := [] }

/-- The variables of the loop over the chunks. -/
structure Placing where
  chunks : List ChunkRun
  changed : Bool
  contentMissing : Bool
  admissionError : Bytes

/-- What `Place` asks of others: the stored placement, the providers, the draws, the bytes
    that are fetched for each chunk, and the answers of each round. -/
structure PlaceEnv where
  latest : Option Placement
  providers : List StorageEndpoint
  draws : RandomDraws
  fetched : Nat → Option Bytes
  diverse : Nat → Bool
  rounds : Nat → Nat → RoundAnswers
  sameMachine : Bytes → Bool
  networkBinding : Hash256

namespace PlaceEnv

variable (env : PlaceEnv) (target : Nat) (operationId : Hash256)

def job (providers : List StorageEndpoint) (i : Nat) (leaf : ChunkId) (bytes : Bytes) : ChunkJob where
  target
  diverse := env.diverse i
  sameMachine := env.sameMachine
  providers
  networkBinding := env.networkBinding
  operationId
  chunkId := leaf
  size := UInt32.ofNat bytes.length

/-- The loop over the chunks from the `i`-th one. -/
def placeChunks (providers : List StorageEndpoint) : Nat → List (ChunkId × List StorageEndpoint) → Placing →
    ChunkJob.Exit × Placing
  | _, [], s => (.finished, s)
  | i, (leaf, replicas) :: rest, s =>
    let keep : Placing := { s with chunks := s.chunks ++ [.untouched replicas] }
    if replicas.length ≥ target then placeChunks providers (i + 1) rest keep
    else
      match env.fetched i with
      | none => placeChunks providers (i + 1) rest { keep with contentMissing := true }
      | some bytes =>
        let (exit, placed) := (env.job target operationId providers i leaf bytes).placeChunk (env.rounds i) replicas
          s.changed s.admissionError
        let s : Placing :=
          { s with
            chunks := s.chunks ++ [{ replicas := placed.replicas, events := placed.events }]
            changed := placed.changed
            admissionError := placed.admissionError }
        if exit = .finished then placeChunks providers (i + 1) rest s
        else (exit, { s with chunks := s.chunks ++ rest.map fun row => .untouched row.2 })

end PlaceEnv

/-! ### The whole call -/

inductive DurabilityState where
  | securing
  | isProtected
  | needsAttention
deriving DecidableEq

inductive StorageCondition where
  | unknown
  | none
  | targetUnmet
  | contentUnavailable
  | admissionFailed
  | localSaveFailed
  | invalidProofs
  | randomFailure
deriving DecidableEq

/-- `PublicationDurability` without the time of the observation. -/
structure PublicationDurability where
  state : DurabilityState
  chunkCount : UInt32
  chunksAtTarget : UInt32
  minReplicas : UInt32
  error : Bytes
  condition : StorageCondition

def PublicationDurability.failure (state : DurabilityState) (error : Bytes) (condition : StorageCondition) :
    PublicationDurability where
  state
  chunkCount := 0
  chunksAtTarget := 0
  minReplicas := 0
  error
  condition

/-- `Summarize` without the last observation. -/
def summarize (target : Nat) (placement : Placement) : PublicationDurability :=
  let counts := placement.replicas.map fun replicas => (replicas.map StorageEndpoint.storageId).dedup.length
  let atTarget := counts.countP fun count => decide (count ≥ target)
  { state := if 0 < placement.leaves.length ∧ atTarget = placement.leaves.length then .isProtected else .securing
    chunkCount := UInt32.ofNat placement.leaves.length
    chunksAtTarget := UInt32.ofNat atTarget
    minReplicas := if placement.leaves = [] then 0 else UInt32.ofNat (counts.foldl min UInt32.size.pred)
    error := []
    condition := .unknown }

inductive PlaceOutcome where
  | thrown
  | returned (result : PublicationDurability)

/-- What `Place` leaves: its outcome, the placement, and what became of each chunk. -/
structure PlaceRun where
  outcome : PlaceOutcome
  placement : Placement
  chunks : List ChunkRun

/-- `StorageService::Place`; `none` while the shuffles wait for a draw, or where the model runs
    out of fuel. -/
def place (target : Nat) (env : PlaceEnv) (placement : Placement) : Option PlaceRun :=
  let placement := env.latest.getD placement
  let return_ (result : PublicationDurability) : PlaceRun :=
    { outcome := .returned result, placement, chunks := placement.replicas.map .untouched }
  let result := summarize target placement
  if result.state = .isProtected then some (return_ result)
  else if ((ChunkAuthorizationTree.build placement.leaves).any fun tree =>
      decide (tree.chunkCount.toNat = placement.leaves.length)) = false then
    some (return_ (.failure .needsAttention (ascii "Cannot rebuild chunk authorization proofs") .invalidProofs))
  else
    match orderProviders env.providers env.draws with
    | none => none
    | some (false, _) => some (return_ (.failure .securing (ascii "System RNG failure") .randomFailure))
    | some (true, providers) =>
      let (exit, s) := env.placeChunks target placement.operationId providers 0 (placement.leaves.zip placement.replicas)
        { chunks := [], changed := false, contentMissing := false, admissionError := [] }
      let placement := { placement with replicas := s.chunks.map ChunkRun.replicas }
      match exit with
      | .unfinished => none
      | .thrown => some { outcome := .thrown, placement, chunks := s.chunks }
      | .saveFailed => some
        { outcome := .returned (.failure .needsAttention (ascii "Cannot save placement state") .localSaveFailed)
          placement
          chunks := s.chunks }
      | .finished =>
        let result := summarize target placement
        let result :=
          if result.state = .isProtected then { result with condition := .none }
          else
            { result with
              error := if s.contentMissing = true then ascii "Some encrypted content is temporarily unavailable"
                else if env.providers.length < target then ascii "Not enough storage providers are reachable"
                else if s.admissionError = [] then ascii "Storage providers did not accept every chunk yet"
                else s.admissionError
              condition := if s.contentMissing = true then .contentUnavailable
                else if s.admissionError ≠ [] then .admissionFailed else .targetUnmet }
        some { outcome := .returned result, placement, chunks := s.chunks }

end

end Cybou
