import PgJobQ.Client.EnqueueBatch
import PgJobQ.Client.Listing
import PgJobQ.Client.Queues
import PgJobQ.Scheduler.Management
import PgJobQ.Server.Auth

/-!
# Responses of the server

A request is answered with a status and a body.  Dates leave the server as ISO
strings; a date that cannot be printed makes the handler throw.  What a handler
throws becomes a response in one place: an error of the program has a code, the
code has a status, and its message is shown if it is a client's fault.
-/

namespace PgJobQ

/-- A problem the validation reports. -/
structure Problem where
  field : String
  message : String
  deriving DecidableEq, Repr

/-- The `details` of an error that exposes them. -/
inductive ErrorDetails where
  | problems (problems : List Problem)
  | job (id : String)
  | jobState (id : String) (state : JobState)
  | transition (fromState target : JobState) (permitted : List JobState)
  | existingJob (id : Nat)
  | schedule (cron timezone : String)
  deriving DecidableEq, Repr

/-- What `serializeJob` returns. -/
structure JobBody where
  id : String
  queue : String
  type : String
  state : JobState
  payload : String
  metadata : Option String
  priority : Int
  attempt : Int
  maxAttempts : Int
  leaseSeconds : Int
  runAt : String
  enqueuedAt : String
  startedAt : Option String
  finishedAt : Option String
  leaseExpiresAt : Option String
  cancelRequestedAt : Option String
  workerId : Option String
  idempotencyKey : Option String
  uniqueKey : Option String
  deadReason : Option DeadReason
  errors : List JobErrorRecord
  scheduleId : Option String
  deriving DecidableEq, Repr

/-- What `serializeSchedule` returns. -/
structure ScheduleBody where
  id : String
  name : String
  queue : String
  type : String
  payload : String
  cron : String
  timezone : String
  catchupPolicy : CatchupPolicy
  enabled : Bool
  nextRunAt : String
  lastRunAt : Option String
  lastJobId : Option String
  deriving DecidableEq, Repr

structure QueueBody where
  queue : String
  counts : List (JobState × Nat)
  ready : Nat
  oldestWait : Timestamp
  deriving DecidableEq, Repr

structure QueueSnapshot where
  queue : String
  counts : List (JobState × Nat)
  oldestWait : Timestamp
  deriving DecidableEq, Repr

/-- An event stream shows the next snapshot, if one can be taken. -/
inductive Body where
  | error (code message : String) (details : Option ErrorDetails)
  | enqueued (result : EnqueueResult)
  | batch (items : List EnqueueResult)
  | job (job : JobBody)
  | page (items : List JobBody) (nextCursor : Option String)
  | queues (queues : List QueueBody)
  | queueConfig (queue : String) (config : Option QueueConfigRow)
  | cancelled (result : CancelResult)
  | paused (queue : String) (paused : Bool)
  | purged (queue : String) (deleted : Nat)
  | bulkReplay (result : BulkReplay)
  | schedules (items : List ScheduleBody)
  | schedule (schedule : ScheduleBody)
  | eventStream (snapshot : Option (List QueueSnapshot))
  | empty
  deriving DecidableEq, Repr

structure Response where
  status : Nat
  body : Body
  deriving DecidableEq, Repr

/-! ## Serialization -/

def isoString (time : Timestamp) : Option String := IsoTime.toISOString (millis time)

/-- `date?.toISOString() ?? null`. -/
def isoStringOrNull : Option Timestamp -> Option (Option String)
  | none => some none
  | some time => (isoString time).map some

def serializeJob (job : JobRow) : Option JobBody := do
  let runAt <- isoString job.runAt
  let enqueuedAt <- isoString job.enqueuedAt
  let startedAt <- isoStringOrNull job.startedAt
  let finishedAt <- isoStringOrNull job.finishedAt
  let leaseExpiresAt <- isoStringOrNull job.leaseExpiresAt
  let cancelRequestedAt <- isoStringOrNull job.cancelRequestedAt
  return {
    id := Nat.repr job.id
    queue := job.queue
    type := job.type
    state := job.state
    payload := job.payload
    metadata := job.metadata
    priority := job.priority
    attempt := job.attempt
    maxAttempts := job.maxAttempts
    leaseSeconds := job.leaseSeconds
    runAt := runAt
    enqueuedAt := enqueuedAt
    startedAt := startedAt
    finishedAt := finishedAt
    leaseExpiresAt := leaseExpiresAt
    cancelRequestedAt := cancelRequestedAt
    workerId := job.workerId
    idempotencyKey := job.idempotencyKey
    uniqueKey := job.uniqueKey
    deadReason := job.deadReason
    errors := job.errors
    scheduleId := job.scheduleId.map Nat.repr }

def serializeSchedule (schedule : ScheduleRow) : Option ScheduleBody := do
  let nextRunAt <- isoString schedule.nextRunAt
  let lastRunAt <- isoStringOrNull schedule.lastRunAt
  return {
    id := Nat.repr schedule.id
    name := schedule.name
    queue := schedule.queue
    type := schedule.type
    payload := schedule.payload
    cron := schedule.cron
    timezone := schedule.timezone
    catchupPolicy := schedule.catchupPolicy
    enabled := schedule.enabled
    nextRunAt := nextRunAt
    lastRunAt := lastRunAt
    lastJobId := schedule.lastJobId.map Nat.repr }

/-! ## Errors -/

/-- An error the server does not know is answered without its message. -/
def internalError : Response :=
  ⟨500, .error "INTERNAL" "The server encountered an internal error" none⟩

/-- A `DatabaseError` keeps its message, too. -/
def databaseError : Response :=
  ⟨503, .error "DATABASE_ERROR" "The server encountered an internal error" none⟩

/-- Unique violations pass through the wrapper of the client. -/
def DbError.response : DbError -> Response
  | uniqueViolation _ => internalError
  | _ => databaseError

def jobNotFound (id : String) : Response :=
  ⟨404, .error "JOB_NOT_FOUND" ("Job " ++ id ++ " not found") (some (.job id))⟩

/-- `InvalidTransitionError`. -/
def invalidTransition (fromState target : JobState) (permitted : List JobState) : Response :=
  ⟨409, .error "INVALID_TRANSITION" ("Cannot transition from '" ++ fromState.text ++ "' to '" ++
    target.text ++ "'. Permitted from '" ++ fromState.text ++ "': " ++
      (if permitted = [] then "(none — terminal state)"
      else ", ".intercalate (permitted.map JobState.text)))
    (some (.transition fromState target permitted))⟩

def AdminError.response : AdminError -> Response
  | jobNotFound id => PgJobQ.jobNotFound id
  | invalidTransition fromState target permitted =>
      PgJobQ.invalidTransition fromState target permitted
  | conflict message id state => ⟨409, .error "CONFLICT" message (some (.jobState id state))⟩
  | idOutOfRange => databaseError
  | database error => error.response

def ClientError.response : ClientError -> Response
  | row (.validation message) => ⟨400, .error "VALIDATION_ERROR" message none⟩
  | row (.payloadTooLarge message) => ⟨413, .error "PAYLOAD_TOO_LARGE" message none⟩
  | conflict message existing =>
      ⟨409, .error "CONFLICT" message (existing.map ErrorDetails.existingJob)⟩
  | database error => error.response

def ScheduleError.response : ScheduleError -> Response
  | invalidCron message cron timezone =>
      ⟨400, .error "VALIDATION_ERROR" message (some (.schedule cron timezone))⟩
  | nameTaken => internalError
  | idOutOfRange => databaseError
  | database error => error.response

def scheduleNotFound (id : String) : Response :=
  ⟨404, .error "SCHEDULE_NOT_FOUND" ("Schedule " ++ id ++ " not found") none⟩

/-- A body that can be serialized is sent with the status. -/
def respond (status : Nat) (body : Option Body) : Response :=
  match body with
  | some body => ⟨status, body⟩
  | none => internalError

/-! ## Middleware -/

def Scope.text : Scope -> String
  | enqueue => "enqueue"
  | read => "read"
  | admin => "admin"

def forbidden (scope : Scope) (queue : Option String) : Response :=
  ⟨403, .error "FORBIDDEN" ("This key lacks the '" ++ scope.text ++ "' scope" ++
    (match queue with
    | some queue => " for queue '" ++ queue ++ "'"
    | none => "")) none⟩

def validationError (problems : List Problem) : Response :=
  ⟨400, .error "VALIDATION_ERROR" ("Request validation failed with " ++
    toString problems.length ++ " problem(s)") (some (.problems problems))⟩

/-- `requireScope` and then `validate`: the parsed request, or the response that
refuses it. -/
def checkRequest {Parsed : Type} (record : ApiKeyRecord) (scope : Scope) (queue : Option String)
    (validated : Except (List Problem) Parsed) : Except Response Parsed :=
  if record.authorizes scope queue then
    match validated with
    | .ok parsed => .ok parsed
    | .error problems => .error (validationError problems)
  else .error (forbidden scope queue)

/-- Two parts of a request are validated together. -/
def validateBoth {First Second : Type} (first : Except (List Problem) First)
    (second : Except (List Problem) Second) : Except (List Problem) (First × Second) :=
  match first, second with
  | .ok one, .ok two => .ok (one, two)
  | .ok _, .error problems => .error problems
  | .error problems, .ok _ => .error problems
  | .error problems, .error others => .error (problems ++ others)

/-- The schema `id`. -/
def validateId (text : String) : Except (List Problem) NumericId :=
  if numeric : numericText text = true then .ok ⟨text, numeric⟩
  else .error [⟨"params.id", "must be a numeric id"⟩]

/-- The schema `name`, whose checks are all made. -/
def nameProblems (field text : String) : List Problem :=
  (if text = "" then [⟨field, "Too small: expected string to have >=1 characters"⟩] else []) ++
    (if 128 < utf16Length text then [⟨field, "Too big: expected string to have <=128 characters"⟩]
      else []) ++
    (if text ≠ "" ∧ text.toList.all nameChar then []
      else [⟨field, "may contain only letters, digits, dot, underscore, colon, hyphen"⟩])

def validateNameField (field text : String) : Except (List Problem) String :=
  if nameProblems field text = [] then .ok text else .error (nameProblems field text)

end PgJobQ
