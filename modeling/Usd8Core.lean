import Usd8Core.Kernel.Allocate
import Usd8Core.Settlement.Budgets
import Usd8Core.Settlement.MerkleCommitment
import Usd8Core.Chain.System
import Usd8Core.Chain.RegistrySteps
import Usd8Core.Pool.PoolCalls
import Usd8Core.Pool.CallHistory
import Usd8Core.Pool.ExitBook
import Usd8Core.Pool.Accounting
import Usd8Core.Pool.Rewards
import Usd8Core.Pool.RewardPayments
import Usd8Core.Pool.PoolRuns
import Usd8Core.Pool.ExitQueue
import Usd8Core.Insurance.Effects
import Usd8Core.Insurance.Deployment
import Usd8Core.Insurance.ModuleCalls
import Usd8Core.Insurance.Payouts
import Usd8Core.Insurance.EscrowBook
import Usd8Core.Insurance.ModuleView
import Usd8Core.Insurance.Solvency
import Usd8Core.Insurance.RefundPaths
import Usd8Core.Insurance.IncidentSteps
import Usd8Core.Insurance.Activity
import Usd8Core.Insurance.Draws
import Usd8Core.Insurance.Freeze
import Usd8Core.Pool.SettledExits
import Usd8Core.Insurance.MaturedExits
import Usd8Core.Lib.ProRata
import Usd8Core.Treasury.TreasuryState
import Usd8Core.Treasury.Backing
import Usd8Core.Treasury.TreasuryCalls
import Usd8Core.Treasury.TreasuryRuns
import Usd8Core.JobApi.JobStore
import Usd8Core.JobApi.App
import Usd8Core.JobApi.Admission
import Usd8Core.JobApi.Requests
import Usd8Core.Lib.Sha256
import Usd8Core.JobApi.AdmissionRuns
import Usd8Core.JobApi.Reserving
import Usd8Core.JobApi.WorkLog
import Usd8Core.JobApi.WorkSafety
import Usd8Core.JobApi.SubmitRuns
import Usd8Core.Settlement.HashBinding
import Usd8Core.Settlement.RowBounds
import Usd8Core.Settlement.Competition
import Usd8Core.Settlement.EventAllocation
import Usd8Core.Kernel.TypedData
import Usd8Core.Settlement.SignedDigests
import Usd8Core.Chain.RegistryTopology
import Usd8Core.Engine.RegistryReads
import Usd8Core.Engine.Rpc
import Usd8Core.Engine.LogScan
import Usd8Core.Lib.RangeWorklist
import Usd8Core.Engine.LogAnswers
import Usd8Core.Engine.ScanCompleteness
import Usd8Core.JobApi.AdvisoryCache
import Usd8Core.JobApi.AdvisoryLog
import Usd8Core.JobApi.AdvisoryRuns
import Usd8Core.Pool.RewardCheckpoints
import Usd8Core.Lib.VirtualShares
import Usd8Core.Pool.SharePrice
import Usd8Core.Pool.PoolChanges
import Usd8Core.Pool.EpochClaims
import Usd8Core.Score.ScoreCore
import Usd8Core.Score.SplitLaw
import Usd8Core.Score.ScoreRuns
import Usd8Core.Lib.WindowScan
import Usd8Core.Engine.IncidentOpen
import Usd8Core.Engine.IncidentDiscovery
import Usd8Core.Engine.IncidentAuthorization
import Usd8Core.Insurance.ClaimResolution
import Usd8Core.Lib.BalanceHistory
import Usd8Core.Lib.KeyedTally
import Usd8Core.Engine.ContractReads
import Usd8Core.Engine.BalanceReplay
import Usd8Core.Engine.HistoricalMinimum
import Usd8Core.Engine.Erc1155Minimum
import Usd8Core.Lib.SlotFill
import Usd8Core.Engine.HttpBatch
import Usd8Core.Insurance.ClaimWindow
import Usd8Core.Lib.GreatestSearch
import Usd8Core.Engine.SettlementAnchors
import Usd8Core.Lib.RangeSlices
import Usd8Core.Checkpoint.TokenReplay
import Usd8Core.Lib.RemainderSplit
import Usd8Core.Treasury.Harvest
import Usd8Core.Lib.ShareRounding
import Usd8Core.Treasury.Erc4626Strategy
import Usd8Core.Treasury.WithdrawalQueue
import Usd8Core.JobApi.SettlementVerifier
import Usd8Core.Lib.AbiDecoding
import Usd8Core.JobApi.SettlementCall
import Usd8Core.JobApi.SettlementTrace
import Usd8Core.Checkpoint.SoundTokens
import Usd8Core.Lib.MapCopy
import Usd8Core.Checkpoint.Persistence
import Usd8Core.Checkpoint.ScoreSource
import Usd8Core.Lib.ArrayShift
import Usd8Core.Treasury.StrategyQueue
import Usd8Core.ScoreApi.CalculateInner
import Usd8Core.ScoreApi.ScoreRuns
import Usd8Core.Insurance.LogOrder
import Usd8Core.Settlement.InputEvents
import Usd8Core.Settlement.ClaimSetAgreement
import Usd8Core.JobApi.KmsRecipientBounds
import Usd8Core.Lib.Ber
import Usd8Core.JobApi.KmsRecipientEncoding
import Usd8Core.JobApi.KmsRecipientRoundTrip
import Usd8Core.Pool.RewardBudget
import Usd8Core.Insurance.ExitArithmetic
import Usd8Core.Pool.UpdateArithmetic
import Usd8Core.Pool.DepositLimits
import Usd8Core.Insurance.Acceptance
import Usd8Core.Settlement.ScoreSpending
import Usd8Core.JobApi.PublicationLog
import Usd8Core.JobApi.PublicationRuns
import Usd8Core.JobApi.Publication
import Usd8Core.Checkpoint.AccountReplay
import Usd8Core.Checkpoint.BulkScores
import Usd8Core.ScoreApi.IncrementalRuns
import Usd8Core.ScoreApi.SameScores
import Usd8Core.ScoreApi.ServedScores
