import Cybou.Library.OrdMap
import Cybou.Library.Bytes
import Cybou.Library.Codec
import Cybou.Library.Proc
import Cybou.Library.Checked
import Cybou.Library.Store
import Cybou.Library.Span
import Cybou.Library.History
import Cybou.Library.Levels
import Cybou.Library.Schedule
import Cybou.Identity
import Cybou.AccountCreation
import Cybou.IdentityRegistry
import Cybou.NameRegistry
import Cybou.State
import Cybou.StorageEconomy
import Cybou.Operations
import Cybou.StorageAssignment
import Cybou.StateValidation
import Cybou.StateCodec
import Cybou.Transitions
import Cybou.StateFrame
import Cybou.TransitionSpecs
import Cybou.LeaseSpecs
import Cybou.Settlement
import Cybou.SettlementSpecs
import Cybou.BlockExecutor
import Cybou.ExecutorSpecs
import Cybou.Supply
import Cybou.Replay
import Cybou.LeaseValidity
import Cybou.Validity
import Cybou.KvStore
import Cybou.SigningJournal
import Cybou.SettlementCodec
import Cybou.OperationCodec
import Cybou.Block
import Cybou.StateStore
import Cybou.ExecutedBlock
import Cybou.StoreSpecs
import Cybou.ConflictDetector
import Cybou.CanonicalStore
import Cybou.TipReplacement
import Cybou.LocalRecords
import Cybou.RejectedBlock
import Cybou.SettlementRuns
import Cybou.OnboardingProvenance
import Cybou.IdentityRuns
import Cybou.OperationRelay
import Cybou.RelaySightings
import Cybou.StorageEvidence
import Cybou.EvidenceRuns
import Cybou.ChunkStore
import Cybou.ChunkNode
import Cybou.ChunkRuns
import Cybou.ChunkPins
import Cybou.BlockProduction
import Cybou.ProductionRecovery
import Cybou.EventIndex
import Cybou.EventRuns
import Cybou.GenesisClaims
import Cybou.NameHistory
import Cybou.NameWindow
import Cybou.OperationSubmission
import Cybou.IdentityJournal
import Cybou.IdentityCoordinator
import Cybou.CoordinatorSpecs
import Cybou.CoordinatorRuns
import Cybou.EncryptedChunk
import Cybou.ChunkTree
import Cybou.ChunkTreeSpecs
import Cybou.ChunkTreeRuns
import Cybou.PrivateStore
import Cybou.PrivateStoreRuns
import Cybou.BinaryCodec
import Cybou.PrivateDocuments
import Cybou.ApplicationRows
import Cybou.ApplicationRecords
import Cybou.LocalApplication
import Cybou.StagingRules
import Cybou.OutboxRuns
import Cybou.OutboxLedger
import Cybou.FilesOverlay
import Cybou.ApplicationIndex
import Cybou.FilesIndex
import Cybou.RotationSafety
import Cybou.ExecutorFailure
import Cybou.ParameterBounds
import Cybou.NetworkGenesis
import Cybou.SessionTransfers
import Cybou.SettlementJournalRuns
import Cybou.ChunkAuthorization
import Cybou.PublicationScan
import Cybou.AcceptedCapacity
import Cybou.AssignmentDraw
import Cybou.CandidateRoot
import Cybou.SettlementPreview
import Cybou.ServiceRuns
import Cybou.RentAccrual
import Cybou.Library.LowerBound
import Cybou.Library.Utf8
import Cybou.BinaryText
import Cybou.RecoveryPhrase
import Cybou.RelayFilter
import Cybou.IngressBudget
import Cybou.IngressRuns
import Cybou.PeerAdmission
import Cybou.PlacementRecords
import Cybou.FrozenAssignments
import Cybou.FrozenRuns
import Cybou.EvidenceLedger
import Cybou.EvidenceLedgerRuns
import Cybou.ProviderSelector
import Cybou.ReplicaPlacement
import Cybou.ReplicaRuns
import Cybou.BlobAccounting
import Cybou.ChunkFraming
import Cybou.ChunkRetention
import Cybou.Drafts
import Cybou.NameClaim
import Cybou.StoreByName
import Cybou.Ownership
import Cybou.PoolRuns
