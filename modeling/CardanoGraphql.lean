import CardanoGraphql.FailedInserts
import CardanoGraphql.JobPublishing
import CardanoGraphql.OverlappingSaves
import CardanoGraphql.CrashReplay
import CardanoGraphql.PendingJobs
import CardanoGraphql.Server
import CardanoGraphql.QueryCost
import CardanoGraphql.HistoricalSummary
import CardanoGraphql.AssetKey
import CardanoGraphql.TransactionViews
import CardanoGraphql.StakePoolView
import CardanoGraphql.DockerStack
import CardanoGraphql.FailedInit
import CardanoGraphql.DbSetup
import CardanoGraphql.SetupRepeats
import CardanoGraphql.PreparedStart
import CardanoGraphql.CardanoNodeClient
import CardanoGraphql.FetchedValues
import CardanoGraphql.SingleFlight
import CardanoGraphql.FollowerReconnect
import CardanoGraphql.BalanceFold
import CardanoGraphql.UnsyncedAssets
import CardanoGraphql.WorkerBatch
import CardanoGraphql.JobSettlement
import CardanoGraphql.BatchIndependence
import CardanoGraphql.MetadataChanges
import CardanoGraphql.MetadataMirror
import CardanoGraphql.WorkerLifecycle
import CardanoGraphql.DockerRestore
import CardanoGraphql.SnapshotHistory
import CardanoGraphql.RestoredVolumes
import CardanoGraphql.PoolOwners
import CardanoGraphql.ProtocolParamsView
import CardanoGraphql.AdaSupply
import CardanoGraphql.CodeUnits
import CardanoGraphql.JsNumber
import CardanoGraphql.RegExp
import CardanoGraphql.Percentage
import CardanoGraphql.SyncStatus
import CardanoGraphql.CostTotality
import CardanoGraphql.FilterGrowth
import CardanoGraphql.Calendar
import CardanoGraphql.ComposeFile
import CardanoGraphql.DateTimeText
import CardanoGraphql.HexScalars
import CardanoGraphql.DateTimeScalar
import CardanoGraphql.Polling
import CardanoGraphql.PollingShutdown
import CardanoGraphql.CliHost
import CardanoGraphql.Cleanup
import CardanoGraphql.DoubleRounding
import CardanoGraphql.SyncProgress
import CardanoGraphql.ServerLifecycle
import CardanoGraphql.SelectionCost
import CardanoGraphql.BlockLinks
import CardanoGraphql.LedgerViews
import CardanoGraphql.Unwinding
import CardanoGraphql.WorkerIsolation
import CardanoGraphql.TipSummary
import CardanoGraphql.DateTimeRoundTrip
import CardanoGraphql.JobConservation
import CardanoGraphql.RepeatedCrashes
import CardanoGraphql.LedgerHistory
import CardanoGraphql.SupplyConservation
import CardanoGraphql.SnapshotRoundTrip
import CardanoGraphql.Readiness
import CardanoGraphql.TransactionHistory
import CardanoGraphql.StackLifecycle
