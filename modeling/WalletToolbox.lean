import WalletToolbox.Proofs.RecordVersions
import WalletToolbox.Proofs.Rollback
import WalletToolbox.Proofs.ConcurrentInserts
import WalletToolbox.Proofs.AccessExclusion
import WalletToolbox.Proofs.EngineAgreement
import WalletToolbox.Proofs.ReservedNames
import WalletToolbox.Proofs.PermissionWaiters
import WalletToolbox.Proofs.AccountRuns
import WalletToolbox.Proofs.AdminCalls
import WalletToolbox.Proofs.ConcurrentStores
import WalletToolbox.Proofs.WaitingRequests
import WalletToolbox.Proofs.NewerMerges
import WalletToolbox.Proofs.StoreRuns
import WalletToolbox.Proofs.RebuiltAnswers
import WalletToolbox.Proofs.NotifiedProofs
import WalletToolbox.Proofs.MaxPossible
import WalletToolbox.Proofs.UnbroadcastCredits
import WalletToolbox.Proofs.BulkReads
import WalletToolbox.Proofs.IncrementalFiles
import WalletToolbox.Proofs.InsertResults
import WalletToolbox.Proofs.QueuedInserts
import WalletToolbox.Proofs.ReaderWriterExclusion
import WalletToolbox.Proofs.RejectedMerges
import WalletToolbox.Proofs.RequestKeys
import WalletToolbox.Proofs.ReviewedStatus
import WalletToolbox.Proofs.MonitorSweeps
import WalletToolbox.Proofs.TokenBatches
import WalletToolbox.Proofs.GrantedTokens
import WalletToolbox.Proofs.PrivilegedKeys
import WalletToolbox.Proofs.Originators
import WalletToolbox.Proofs.BroadcastVerdicts
import WalletToolbox.Proofs.Failover
import WalletToolbox.Proofs.UtxoFreshness
import WalletToolbox.Proofs.ActiveHeaders
import WalletToolbox.Proofs.ReorgWork
import WalletToolbox.Proofs.DoubleSpendReviews
import WalletToolbox.Proofs.AuditedProofs
import WalletToolbox.Proofs.BroadcastKept
import WalletToolbox.Proofs.HeightSets
import WalletToolbox.Proofs.SelectedFiles
