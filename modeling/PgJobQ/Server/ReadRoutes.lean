import PgJobQ.Server.Responses

/-!
# The read routes

Every route asks for the scope first, with the queue if the request names one,
then validates the parts of the request, and then queries the tables.  What a
schema outside of this text makes of a query string is part of the request.

A read leaves the tables alone.  It may leave something behind in the process:
the count of a queue with an inherited name, or one more subscriber.
-/

namespace PgJobQ

structure ServerConfig where
  client : ClientConfig
  schedulerEnabled : Bool
  cron : Cron
  collation : String -> String -> Bool
  sseMaxSubscribers : Nat

structure ServerState where
  tables : Tables
  client : ClientState
  shared : SharedObjects
  subscribers : Nat

/-- A parameter of the query string: missing, given once, or given repeatedly. -/
inductive QueryValue where
  | absent
  | text (value : String)
  | list
  deriving DecidableEq, Repr

/-- `asString`. -/
def QueryValue.asString : QueryValue -> Option String
  | absent => none
  | text value => some value
  | list => none

/-- What both listing schemas accept. -/
structure PageQuery where
  type : Option String
  fromDate : Option ValidDate
  toDate : Option ValidDate
  cursor : Option NumericId
  limit : Nat
  limitRange : 1 ≤ limit ∧ limit ≤ 200
  deriving DecidableEq, Repr

structure ListJobsQuery extends PageQuery where
  state : Option JobState
  deriving DecidableEq, Repr

/-- The queue, which this schema also accepts, is validated by itself. -/
structure ListDlqQuery extends PageQuery where
  reason : Option DeadReason
  deriving DecidableEq, Repr

def PageQuery.params (query : PageQuery) (queue : Option String) : PageParams where
  queue := queue
  type := query.type
  fromDate := query.fromDate
  toDate := query.toDate
  beforeId := query.cursor
  limit := query.limit

inductive ReadRequest where
  | job (id : String)
  | jobs (queue : String) (query : Except (List Problem) ListJobsQuery)
  | queues
  | queueConfig (queue : String)
  | dlq (queue : QueryValue) (query : Except (List Problem) ListDlqQuery)
  | schedules
  | schedule (id : String)
  | events
  | unknown (path : String)

/-! ## The routes -/

/-- `authorizedForQueue`. -/
def authorizedForQueue (record : ApiKeyRecord) (queue : String) : Bool :=
  match record.queues with
  | none => true
  | some queues => queues.contains queue

/-- `requireScheduler` throws when the scheduler is disabled. -/
def schedulerDisabled : Response :=
  ⟨409, .error "CONFLICT" ("The scheduler is disabled on this instance. " ++
    "Set SCHEDULER_ENABLED=true to use schedules.") none⟩

/-- The queue of a listing, when the query names one. -/
def validateQueue : QueryValue -> Except (List Problem) (Option String)
  | .absent => .ok none
  | .text value => (validateNameField "query.queue" value).map some
  | .list => .error [⟨"query.queue", "Invalid input: expected string, received array"⟩]

def page (jobs : List JobRow) (limit : Nat) : Option Body :=
  (jobs.mapM serializeJob).map (fun items => .page items
    (if jobs.length = limit then jobs.getLast?.map (fun last => Nat.repr last.id) else none))

def respondPage (listing : Option (List JobRow)) (limit : Nat) : Response :=
  match listing with
  | none => databaseError
  | some jobs => respond 200 (page jobs limit)

/-- `lagByQueue.get`. -/
def lagOf (lag : List QueueLagRow) (queue : String) : Option QueueLagRow :=
  lag.find? (fun row => row.queue == queue)

def queueBody (lag : List QueueLagRow) (entry : String × InsertionMap JobState Nat) : QueueBody where
  queue := entry.1
  counts := entry.2.entries
  ready := ((lagOf lag entry.1).map QueueLagRow.ready).getD 0
  oldestWait := ((lagOf lag entry.1).map QueueLagRow.oldestWait).getD 0

def queueSnapshot (lag : List QueueLagRow) (entry : String × InsertionMap JobState Nat) :
    QueueSnapshot where
  queue := entry.1
  counts := entry.2.entries
  oldestWait := ((lagOf lag entry.1).map QueueLagRow.oldestWait).getD 0

section Routes

variable (config : ServerConfig) (record : ApiKeyRecord) (now : Timestamp) (state : ServerState)

/-- `GET /jobs/:id`. -/
def readJob (id : String) : Response :=
  match checkRequest record .read none (validateId id) with
  | .error refusal => refusal
  | .ok id =>
      match Client.getJob id state.tables.db with
      | .error error => error.response
      | .ok job =>
          if authorizedForQueue record job.queue then respond 200 ((serializeJob job).map Body.job)
          else ⟨403, .error "FORBIDDEN" "This key does not cover the requested resource" none⟩

/-- `GET /queues/:queue/jobs`. -/
def readJobs (queue : String) (query : Except (List Problem) ListJobsQuery) : Response :=
  match checkRequest record .read (some queue)
    (validateBoth query (validateNameField "params.queue" queue)) with
  | .error refusal => refusal
  | .ok (query, queue) =>
      respondPage (Client.listJobs ⟨query.params (some queue), query.state⟩ state.tables.db)
        query.limit

/-- `GET /queues`. -/
def readQueues : Response × ServerState :=
  match checkRequest record .read none (.ok ()) with
  | .error refusal => (refusal, state)
  | .ok () =>
      let stats := Client.queueStats config.collation state.shared state.tables.db
      let next := { state with shared := stats.1 }
      match stats.2 with
      | none => (internalError, next)
      | some counts => (⟨200, .queues ((objectEntries counts).map
          (queueBody (Client.queueLag now state.tables.db)))⟩, next)

/-- `GET /queues/:queue/config`. -/
def readQueueConfig (queue : String) : Response :=
  match checkRequest record .read (some queue) (validateNameField "params.queue" queue) with
  | .error refusal => refusal
  | .ok queue => ⟨200, .queueConfig queue (Client.getQueueConfig queue state.tables.db)⟩

/-- `GET /dlq`. -/
def readDlq (queue : QueryValue) (query : Except (List Problem) ListDlqQuery) : Response :=
  match checkRequest record .read queue.asString (validateBoth (validateQueue queue) query) with
  | .error refusal => refusal
  | .ok (queue, query) =>
      respondPage (Client.listDeadJobs ⟨query.params queue, query.reason⟩ state.tables.db)
        query.limit

/-- `GET /schedules`. -/
def readSchedules : Response :=
  match checkRequest record .read none (.ok ()) with
  | .error refusal => refusal
  | .ok () =>
      if config.schedulerEnabled then
        respond 200 (((Scheduler.list config.collation state.tables.schedules).mapM
          serializeSchedule).map Body.schedules)
      else schedulerDisabled

/-- `GET /schedules/:id`. -/
def readSchedule (id : String) : Response :=
  match checkRequest record .read none (validateId id) with
  | .error refusal => refusal
  | .ok id =>
      if config.schedulerEnabled then
        match Scheduler.get id state.tables.schedules with
        | .error error => error.response
        | .ok none => scheduleNotFound id.text
        | .ok (some found) => respond 200 ((serializeSchedule found).map Body.schedule)
      else schedulerDisabled

/-- What the timer publishes next to a subscriber.  A snapshot that throws is
not published. -/
def nextSnapshot : SharedObjects × Option (List QueueSnapshot) :=
  let stats := Client.queueStats config.collation state.shared state.tables.db
  (stats.1, stats.2.map (fun counts => (objectEntries counts).map
    (queueSnapshot (Client.queueLag now state.tables.db))))

/-- `GET /events`. -/
def readEvents : Response × ServerState :=
  match checkRequest record .read none (.ok ()) with
  | .error refusal => (refusal, state)
  | .ok () =>
      if config.sseMaxSubscribers ≤ state.subscribers then
        (⟨503, .error "NOT_READY" ("Event stream is at capacity (" ++
          toString config.sseMaxSubscribers ++ " subscribers)") none⟩, state)
      else
        let snapshot := nextSnapshot config now state
        (⟨200, .eventStream snapshot.2⟩,
          { state with shared := snapshot.1, subscribers := state.subscribers + 1 })

/-- A `GET` request under `/v1`. -/
def read : ReadRequest -> Response × ServerState
  | .job id => (readJob record state id, state)
  | .jobs queue query => (readJobs record state queue query, state)
  | .queues => readQueues config record now state
  | .queueConfig queue => (readQueueConfig record state queue, state)
  | .dlq queue query => (readDlq record state queue query, state)
  | .schedules => (readSchedules config record state, state)
  | .schedule id => (readSchedule config record state id, state)
  | .events => readEvents config record now state
  | .unknown path =>
      (⟨404, .error "JOB_NOT_FOUND" ("No route for GET " ++ path) none⟩, state)

/-- A read leaves the tables alone. -/
theorem read_tables (request : ReadRequest) :
    (read config record now state request).2.tables = state.tables := by
  cases request with
  | queues =>
      unfold read readQueues
      dsimp only
      repeat' split
      all_goals rfl
  | events =>
      unfold read readEvents
      dsimp only
      repeat' split
      all_goals rfl
  | _ => rfl

end Routes

end PgJobQ
