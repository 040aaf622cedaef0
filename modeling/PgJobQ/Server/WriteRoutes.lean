import PgJobQ.Client.Enqueue
import PgJobQ.Server.ReadRoutes

/-!
# The write routes

The routes that change something ask for the `enqueue` or the `admin` scope.
The queue comes from the path, or from the body when a schedule is created; the
routes that name a job or a schedule by its id have no queue to check.

A request is handled without other requests in between.  `Handling` fixes what
the clocks show while it is handled, and which rows are locked by others.
-/

namespace PgJobQ

structure Handling where
  /-- The time of the first statement. -/
  now : Timestamp
  /-- The time of a second one. -/
  later : Timestamp
  /-- What `new Date()` shows. -/
  clock : Int
  locked : Nat -> List Nat

structure EnqueueBody where
  type : String
  payload : String
  options : EnqueueOptions
  deriving DecidableEq, Repr

structure PurgeBody where
  states : List JobState
  confirm : String
  deriving DecidableEq, Repr

/-- The body of a request for a new schedule.  `queue` is what the middleware
reads before the body is validated. -/
structure CreateScheduleRequest where
  queue : Option String
  body : Except (List Problem) ScheduleParams
  sameQueue : forall parsed, body = .ok parsed -> queue = some parsed.queue

inductive WriteRequest where
  | enqueue (queue : String) (body : Except (List Problem) EnqueueBody)
      (traceparent : Option String)
  | enqueueBatch (queue : String) (body : Except (List Problem) (List BatchEnqueueItem))
  | cancel (id : String)
  | retry (id : String)
  | replay (id : String)
  | setPaused (queue : String) (paused : Bool)
  | purge (queue : String) (body : Except (List Problem) PurgeBody)
  | dlqReplay (ids : Except (List Problem) (List NumericId))
  | createSchedule (request : CreateScheduleRequest)
  | setSchedule (id : String) (enabled : Bool)
  | deleteSchedule (id : String)

/-! ## Enqueueing at one go -/

/-- Send up to so many statements of a call. -/
def EnqueueCall.finish (config : ClientConfig) (now : Timestamp) :
    Nat -> EnqueueCall -> Database -> ClientState -> EnqueuePhase × Database × ClientState
  | 0, call, db, state => (call.phase, db, state)
  | statements + 1, call, db, state =>
      let sent := call.advance config now db state
      finish config now statements ⟨call.request, sent.phase⟩ sent.db sent.client

/-- `Client.enqueue`, which sends at most four statements. -/
def Client.enqueue (config : ClientConfig) (now : Timestamp) (request : EnqueueRequest)
    (db : Database) (state : ClientState) : EnqueuePhase × Database × ClientState :=
  let begun := request.begin config state
  EnqueueCall.finish config now 4 ⟨request, begun.1⟩ db begun.2

/-- A created job is told from one that was there already by the status. -/
def EnqueuePhase.response : EnqueuePhase -> Response
  | returned result => ⟨if result.deduplicated then 200 else 201, .enqueued result⟩
  | thrown error => error.response
  | _ => internalError

/-! ## The routes -/

namespace ServerState

def withDb (state : ServerState) (db : Database) : ServerState :=
  { state with tables := { state.tables with db := db } }

def withSchedules (state : ServerState) (schedules : ScheduleTable) : ServerState :=
  { state with tables := { state.tables with schedules := schedules } }

def withClient (state : ServerState) (client : ClientState) : ServerState :=
  { state with client := client }

end ServerState

section Routes

variable (config : ServerConfig) (record : ApiKeyRecord) (handling : Handling)
  (state : ServerState)

/-- `POST /queues/:queue/jobs`. -/
def enqueueJob (queue : String) (body : Except (List Problem) EnqueueBody)
    (traceparent : Option String) : Response × ServerState :=
  match checkRequest record .enqueue (some queue)
    (validateBoth body (validateNameField "params.queue" queue)) with
  | .error refusal => (refusal, state)
  | .ok (body, queue) =>
      let enqueued := Client.enqueue config.client handling.now
        ⟨0, queue, body.type, body.payload, { body.options with traceContext := traceparent }⟩
        state.tables.db state.client
      (enqueued.1.response, (state.withDb enqueued.2.1).withClient enqueued.2.2)

/-- `POST /queues/:queue/jobs/batch`. -/
def enqueueJobs (queue : String) (body : Except (List Problem) (List BatchEnqueueItem)) :
    Response × ServerState :=
  match checkRequest record .enqueue (some queue)
    (validateBoth body (validateNameField "params.queue" queue)) with
  | .error refusal => (refusal, state)
  | .ok (items, queue) =>
      let enqueued := enqueueBatch config.client handling.now queue items state.tables.db state.client
      (match enqueued.1 with
        | .ok results => ⟨201, .batch results⟩
        | .error error => error.response,
        (state.withDb enqueued.2.1).withClient enqueued.2.2)

/-- `POST /jobs/:id/cancel`. -/
def cancelJob (id : String) : Response × ServerState :=
  match checkRequest record .admin none (validateId id) with
  | .error refusal => (refusal, state)
  | .ok id =>
      let cancelled := Client.cancel id handling.now handling.later state.tables.db
      (match cancelled.2 with
        | .ok result => ⟨if result.acknowledged then 200 else 202, .cancelled result⟩
        | .error error => error.response,
        state.withDb cancelled.1)

/-- What the retry and the replay of a job answer. -/
def respondJob (result : Except AdminError JobRow) : Response :=
  match result with
  | .ok job => respond 200 ((serializeJob job).map Body.job)
  | .error error => error.response

/-- `POST /jobs/:id/retry`. -/
def retryJob (id : String) : Response × ServerState :=
  match checkRequest record .admin none (validateId id) with
  | .error refusal => (refusal, state)
  | .ok id =>
      let retried := Client.retryNow id handling.now state.tables.db
      (respondJob retried.2, state.withDb retried.1)

/-- `POST /jobs/:id/replay`. -/
def replayJob (id : String) : Response × ServerState :=
  match checkRequest record .admin none (validateId id) with
  | .error refusal => (refusal, state)
  | .ok id =>
      let replayed := Client.replay id handling.now state.tables.db
      (respondJob replayed.2, state.withDb replayed.1)

/-- `POST /queues/:queue/pause` and `POST /queues/:queue/resume`. -/
def pauseQueue (queue : String) (paused : Bool) : Response × ServerState :=
  match checkRequest record .admin (some queue) (validateNameField "params.queue" queue) with
  | .error refusal => (refusal, state)
  | .ok queue =>
      let set := Client.setPaused queue paused state.tables.db state.client
      (match set.1 with
        | .ok () => ⟨200, .paused queue paused⟩
        | .error error => error.response,
        (state.withDb set.2.1).withClient set.2.2)

/-- `POST /queues/:queue/purge`. -/
def purgeJobs (queue : String) (body : Except (List Problem) PurgeBody) : Response × ServerState :=
  match checkRequest record .admin (some queue)
    (validateBoth body (validateNameField "params.queue" queue)) with
  | .error refusal => (refusal, state)
  | .ok (body, queue) =>
      let purged := Client.purge queue body.states body.confirm handling.locked state.tables.db
      (match purged.1 with
        | .ok deleted => ⟨200, .purged queue deleted⟩
        | .error error => error.response,
        state.withDb purged.2)

/-- `POST /dlq/replay`. -/
def replayDlq (ids : Except (List Problem) (List NumericId)) : Response × ServerState :=
  match checkRequest record .admin none ids with
  | .error refusal => (refusal, state)
  | .ok ids =>
      let replayed := Client.replayMany ids handling.now state.tables.db
      (match replayed.2 with
        | .ok result => ⟨200, .bulkReplay result⟩
        | .error error => error.response,
        state.withDb replayed.1)

/-- `POST /schedules`. -/
def createScheduleRoute (request : CreateScheduleRequest) : Response × ServerState :=
  match checkRequest record .admin request.queue request.body with
  | .error refusal => (refusal, state)
  | .ok params =>
      if config.schedulerEnabled then
        let created := Scheduler.create config.cron params handling.clock handling.now
          state.tables.schedules
        (match created.1 with
          | .ok row => respond 201 ((serializeSchedule row).map Body.schedule)
          | .error error => error.response,
          state.withSchedules created.2)
      else (schedulerDisabled, state)

/-- `POST /schedules/:id/pause` and `POST /schedules/:id/resume`. -/
def setScheduleRoute (id : String) (enabled : Bool) : Response × ServerState :=
  match checkRequest record .admin none (validateId id) with
  | .error refusal => (refusal, state)
  | .ok id =>
      if config.schedulerEnabled then
        let updated := Scheduler.setEnabled config.cron id enabled handling.clock handling.now
          state.tables.schedules
        (match updated.1 with
          | .ok (some row) => respond 200 ((serializeSchedule row).map Body.schedule)
          | .ok none => scheduleNotFound id.text
          | .error error => error.response,
          state.withSchedules updated.2)
      else (schedulerDisabled, state)

/-- `DELETE /schedules/:id`. -/
def deleteScheduleRoute (id : String) : Response × ServerState :=
  match checkRequest record .admin none (validateId id) with
  | .error refusal => (refusal, state)
  | .ok id =>
      if config.schedulerEnabled then
        let deleted := Scheduler.delete id state.tables
        (match deleted.1 with
          | .ok true => ⟨204, .empty⟩
          | .ok false => scheduleNotFound id.text
          | .error error => error.response,
          { state with tables := deleted.2 })
      else (schedulerDisabled, state)

def write : WriteRequest -> Response × ServerState
  | .enqueue queue body traceparent => enqueueJob config record handling state queue body traceparent
  | .enqueueBatch queue body => enqueueJobs config record handling state queue body
  | .cancel id => cancelJob record handling state id
  | .retry id => retryJob record handling state id
  | .replay id => replayJob record handling state id
  | .setPaused queue paused => pauseQueue record state queue paused
  | .purge queue body => purgeJobs record handling state queue body
  | .dlqReplay ids => replayDlq record handling state ids
  | .createSchedule request => createScheduleRoute config record handling state request
  | .setSchedule id enabled => setScheduleRoute config record handling state id enabled
  | .deleteSchedule id => deleteScheduleRoute config record state id

end Routes

end PgJobQ
