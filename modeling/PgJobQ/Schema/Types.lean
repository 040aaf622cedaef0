import Mathlib.Data.List.Basic
import PgJobQ.Library.Intervals

/-!
# Job states, rows and parameters

The data the statements read and write, column by column.  A `timestamptz` is
an integer number of microseconds, and so is an `interval` made of seconds.  The
windows of retention count months and days apart from them.  A `jsonb` payload is kept as its JSON text: no statement
looks inside one.  `bigint` ids travel as decimal strings through the client,
which is an encoding of the natural number kept here.
-/

namespace PgJobQ

open Intervals

/-- Microseconds, as an instant or as a length of time. -/
abbrev Timestamp := Int

/-- A length of time in whole seconds, as `make_interval(secs => n)` builds it. -/
def seconds (n : Int) : Timestamp := n * 1000000

/-- `JOB_STATES`: only `available` is claimable. -/
inductive JobState where
  | available
  | running
  | succeeded
  | dead
  | cancelled
  deriving DecidableEq, Repr

namespace JobState

/-- `JOB_STATES`, in declaration order. -/
def all : List JobState := [.available, .running, .succeeded, .dead, .cancelled]

theorem mem_all (state : JobState) : state ∈ all := by
  cases state <;> decide

/-- `TERMINAL_STATES`. -/
def terminalStates : List JobState := [.succeeded, .dead, .cancelled]

/-- `isTerminal` of the state machine, and the state list of the retention sweeps. -/
def isTerminal (state : JobState) : Bool := terminalStates.contains state

/-- The value of the column `state`. -/
def text : JobState -> String
  | available => "available"
  | running => "running"
  | succeeded => "succeeded"
  | dead => "dead"
  | cancelled => "cancelled"

/-- The states covered by the partial index `job_unique_active_idx`. -/
def isActive (state : JobState) : Bool := state = .available || state = .running

end JobState

/-- `DEAD_REASONS`: why a job was dead-lettered. -/
inductive DeadReason where
  | attemptsExhausted
  | leaseExpired
  | nonRetryableError
  | cancelled
  deriving DecidableEq, Repr

/-- The `kind` of a recorded failure. -/
inductive ErrorKind where
  | handlerError
  | timeout
  | leaseExpired
  | validationError
  | noHandler
  deriving DecidableEq, Repr

/-- `JobErrorRecord`: one element of the `errors` array. -/
structure JobErrorRecord where
  attempt : Int
  recordedAt : Timestamp
  kind : ErrorKind
  name : Option String
  message : Option String
  stack : Option String
  workerId : Option String
  deriving DecidableEq, Repr

/-- A row of the table `job`. -/
structure JobRow where
  id : Nat
  queue : String
  type : String
  state : JobState
  payload : String
  metadata : Option String
  priority : Int
  attempt : Int
  maxAttempts : Int
  leaseSeconds : Int
  runAt : Timestamp
  enqueuedAt : Timestamp
  startedAt : Option Timestamp
  finishedAt : Option Timestamp
  leaseExpiresAt : Option Timestamp
  cancelRequestedAt : Option Timestamp
  workerId : Option String
  idempotencyKey : Option String
  uniqueKey : Option String
  deadReason : Option DeadReason
  errors : List JobErrorRecord
  traceContext : Option String
  scheduleId : Option Nat
  updatedAt : Timestamp
  deriving DecidableEq, Repr

/-- A row of `job_archive`: `LIKE job`, and the time of archival. -/
structure ArchiveRow extends JobRow where
  archivedAt : Timestamp
  deriving DecidableEq, Repr

/-- A partition of `job_archive`, holding `lower <= archived_at < upper`. -/
structure ArchivePartition where
  name : String
  lower : Timestamp
  upper : Timestamp
  deriving DecidableEq, Repr

/-- A row of `queue_config`: per-queue overrides. -/
structure QueueConfigRow where
  queue : String
  paused : Bool
  maxAttempts : Option Int
  leaseSeconds : Option Int
  priorityAging : Bool
  agingThresholdS : Option Int
  concurrencyLimit : Option Int
  retainSucceeded : Interval
  retainDead : Interval
  deriving DecidableEq, Repr

/-- `EnqueueRow`: the columns an enqueue supplies.  `runAt = none` means now. -/
structure EnqueueRow where
  queue : String
  type : String
  payload : String
  metadata : Option String
  priority : Int
  maxAttempts : Int
  leaseSeconds : Int
  runAt : Option Timestamp
  idempotencyKey : Option String
  uniqueKey : Option String
  traceContext : Option String
  scheduleId : Option Nat
  deriving DecidableEq, Repr

/-- `ClaimParams`. -/
structure ClaimParams where
  queue : String
  limit : Nat
  workerId : String
  deriving DecidableEq, Repr

/-- `FenceParams`: what a worker presents to prove that it owns a delivery. -/
structure FenceParams where
  id : Nat
  workerId : String
  attempt : Int
  deriving DecidableEq, Repr

/-- `FailParams`.  `retryDelay` is the interval made from `retryDelaySeconds`. -/
structure FailParams extends FenceParams where
  nonRetryable : Bool
  retryDelay : Timestamp
  maxErrorHistory : Int
  error : JobErrorRecord
  deriving DecidableEq, Repr

/-- `ReapParams`.  `retryDelay` is the interval made from `retryDelaySeconds`. -/
structure ReapParams where
  limit : Nat
  retryDelay : Timestamp
  deriving DecidableEq, Repr

/-- The parameters of the two retention sweeps, and the time zone of the session
that executes them.  A default is `none` if its text is no interval. -/
structure RetentionParams where
  limit : Nat
  defaultRetainSucceeded : Option Interval
  defaultRetainDead : Option Interval
  zone : TimeZone

end PgJobQ
