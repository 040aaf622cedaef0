import PgJobQ.Library.Runs
import PgJobQ.Library.UniqueRows
import PgJobQ.Library.RowLocking
import PgJobQ.Library.InsertionMap
import PgJobQ.Library.KeysetPages
import PgJobQ.Library.Scripts
import PgJobQ.Schema.Types
import PgJobQ.Schema.JobTable
import PgJobQ.Statements.Updates
import PgJobQ.Statements.InsertDelete
import PgJobQ.Statements.Exec
import PgJobQ.Statements.Effects
import PgJobQ.Lifecycle.StateMachine
import PgJobQ.Lifecycle.Columns
import PgJobQ.Lifecycle.History
import PgJobQ.Lifecycle.Attempts
import PgJobQ.Lifecycle.Fence
import PgJobQ.Lifecycle.Conservation
import PgJobQ.Lifecycle.CancelRequests
import PgJobQ.Concurrency.LockingStatements
import PgJobQ.Concurrency.ClaimExclusivity
import PgJobQ.Client.BuildRow
import PgJobQ.Client.EnqueueBatch
import PgJobQ.Client.Enqueue
import PgJobQ.Client.ConcurrentEnqueue
import PgJobQ.Worker.Pool
import PgJobQ.Worker.SlotAccounting
import PgJobQ.Worker.NormalizeError
import PgJobQ.Worker.Runner
import PgJobQ.Worker.HandlerTimeout
import PgJobQ.Worker.HandlerSuccess
import PgJobQ.Worker.FailureRecord
import PgJobQ.Worker.Shutdown
import PgJobQ.Worker.Cancellation
import PgJobQ.Client.Administration
import PgJobQ.Client.Cancel
import PgJobQ.Client.Replay
import PgJobQ.Library.IsoTime
import PgJobQ.Scheduler.Schedule
import PgJobQ.Scheduler.Tick
import PgJobQ.Scheduler.Occurrences
import PgJobQ.Scheduler.Advances
import PgJobQ.Scheduler.SharedKeys
import PgJobQ.Scheduler.Starvation
import PgJobQ.Server.Auth
import PgJobQ.Server.KeyLifetimes
import PgJobQ.Client.Listing
import PgJobQ.Client.Queues
import PgJobQ.Scheduler.Management
import PgJobQ.Client.AuditedOperations
import PgJobQ.Server.Responses
import PgJobQ.Worker.Listener
import PgJobQ.Server.ReadRoutes
import PgJobQ.Server.Views
import PgJobQ.Server.Disclosure
import PgJobQ.Server.Pagination
import PgJobQ.Server.WriteRoutes
import PgJobQ.Server.WriteEffects
import PgJobQ.Server.AuditTrail
import PgJobQ.Server.AuditedCalls
import PgJobQ.Server.Isolation
import PgJobQ.Migrations.Files
import PgJobQ.Migrations.Migrate
import PgJobQ.Migrations.Order
import PgJobQ.Migrations.Gate
import PgJobQ.Library.BoundedLog
import PgJobQ.Library.WaitingTickets
import PgJobQ.Library.ExtendedNumbers
import PgJobQ.Statements.ErrorTimes
import PgJobQ.Lifecycle.ErrorHistory
import PgJobQ.Lifecycle.StartTimes
import PgJobQ.Lifecycle.ClaimOrder
import PgJobQ.Lifecycle.Retention
import PgJobQ.Lifecycle.ClockReadings
import PgJobQ.Lifecycle.ClientClocks
import PgJobQ.Client.RetryNow
import PgJobQ.Client.Aggregates
import PgJobQ.Worker.Registry
import PgJobQ.Worker.Backoff
import PgJobQ.Worker.RetryDelays
import PgJobQ.Scheduler.Defaults
import PgJobQ.Library.Utf8
import PgJobQ.Worker.Truncation
import PgJobQ.Library.Months
import PgJobQ.Lifecycle.ArchivePartitions
import PgJobQ.Library.Splitting
import PgJobQ.Server.EventStream
import PgJobQ.Dashboard.Subscription
import PgJobQ.Worker.ListenerConnections
import PgJobQ.Concurrency.Reapers
import PgJobQ.Concurrency.LeaseRecovery
import PgJobQ.Library.LockWaits
import PgJobQ.Concurrency.DeadlockFreedom
import PgJobQ.Concurrency.Serializability
import PgJobQ.Lifecycle.Leases
import PgJobQ.Lifecycle.UnendingRuns
import PgJobQ.Lifecycle.AgingService
import PgJobQ.Lifecycle.StrictPriority
import PgJobQ.Lifecycle.LeaseService
import PgJobQ.Lifecycle.Completion
import PgJobQ.Lifecycle.Outcomes
import PgJobQ.Lifecycle.Pausing
import PgJobQ.Lifecycle.RetentionService
import PgJobQ.Server.Subscribers
import PgJobQ.Worker.Heartbeats
import PgJobQ.Worker.ClaimLoop
import PgJobQ.Library.TimedCache
import PgJobQ.Client.DefaultsCache
import PgJobQ.Database.Connecting
import PgJobQ.Database.Transactions
import PgJobQ.Observability.Metrics
import PgJobQ.Scheduler.Outages
import PgJobQ.Library.SharedScripts
import PgJobQ.Server.Operators
import PgJobQ.Server.Purging
import PgJobQ.Worker.Reports
import PgJobQ.Dashboard.Reconnecting
import PgJobQ.Worker.HandlerEffects
import PgJobQ.Runtime.Services
import PgJobQ.Runtime.StartStop
import PgJobQ.Runtime.StopEnds
