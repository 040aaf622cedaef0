import PgJobQ.Client.Queues
import PgJobQ.Library.Scripts
import PgJobQ.Scheduler.Management

/-!
# Administrative operations and the audit log

An administrative operation sends its statements one after the other through
`Db.query`, each in a transaction of its own.  The row of the audit log is the
last statement that writes; `retryNow` and `replay` read the job again after it.

The operations on schedules are those of the routes, from the point where a
request has been accepted.  What they answer is rendered after the last
statement and is left out here.
-/

namespace PgJobQ

open Scripts

/-! ## Tables -/

/-- What the column `detail` holds. -/
inductive AuditDetail where
  | cancelledFrom (state : JobState)
  | replayedBulk (requested replayed : Nat)
  | purged (states : List JobState) (deleted : Nat)
  | named (name : String)
  deriving DecidableEq, Repr

/-- The argument of `insertAuditLog`.  Without a detail the column holds the
JSON `null`. -/
structure AuditEntry where
  actor : String
  action : String
  target : Option String
  detail : Option AuditDetail
  deriving DecidableEq, Repr

structure AuditRow where
  entry : AuditEntry
  createdAt : Timestamp
  deriving DecidableEq, Repr

structure AuditedTables where
  tables : Tables
  auditLog : List AuditRow

namespace AuditedTables

def db (state : AuditedTables) : Database := state.tables.db

def schedules (state : AuditedTables) : ScheduleTable := state.tables.schedules

def withDb (state : AuditedTables) (db : Database) : AuditedTables :=
  { state with tables := ⟨db, state.schedules⟩ }

def withSchedules (state : AuditedTables) (schedules : ScheduleTable) : AuditedTables :=
  { state with tables := ⟨state.db, schedules⟩ }

end AuditedTables

/-! ## Statements -/

/-- What an error of an operation is. -/
inductive OperationError where
  | admin (error : AdminError)
  | client (error : ClientError)
  | schedule (error : ScheduleError)
  /-- A text with a character that the database cannot store. -/
  | invalidText
  | negativeLimit
  /-- The driver reports that a statement has failed or that the connection is
  gone. -/
  | driver (message : String)
  deriving DecidableEq, Repr

/-- The updates of `job` by an operator. -/
inductive JobUpdate where
  | cancelAvailableJob (id : NumericId)
  | requestCancelRunningJob (id : NumericId)
  | retryJobNow (id : NumericId)
  | replayDeadJob (id : NumericId)
  | replayDeadJobs (ids : List NumericId)
  deriving DecidableEq, Repr

namespace JobUpdate

def ids : JobUpdate -> List NumericId
  | cancelAvailableJob id => [id]
  | requestCancelRunningJob id => [id]
  | retryJobNow id => [id]
  | replayDeadJob id => [id]
  | replayDeadJobs ids => ids

def statement : JobUpdate -> Statement
  | cancelAvailableJob id => .cancelAvailableJob id.value
  | requestCancelRunningJob id => .requestCancelRunningJob id.value
  | retryJobNow id => .retryJobNow id.value
  | replayDeadJob id => .replayDeadJob id.value
  | replayDeadJobs ids => .replayDeadJobs (ids.map NumericId.value)

end JobUpdate

/-- The statements of the operations, with the type of what they return. -/
inductive AdminQuery : Type -> Type where
  | updateJobs (update : JobUpdate) : AdminQuery (List JobRow)
  | getJob (id : NumericId) : AdminQuery (Option JobRow)
  | setQueuePaused (queue : String) (paused : Bool) : AdminQuery Unit
  | purgeQueue (queue : String) (states : List JobState) (limit : Int) : AdminQuery (List JobRow)
  | createSchedule (p : ScheduleParams) (nextRunAt : Int) : AdminQuery ScheduleRow
  | getSchedule (id : NumericId) : AdminQuery (Option ScheduleRow)
  | setScheduleEnabled (id : NumericId) (enabled : Bool) (nextRunAt : Option Int) :
      AdminQuery (Option ScheduleRow)
  | deleteSchedule (id : NumericId) : AdminQuery Bool
  | insertAuditLog (entry : AuditEntry) : AdminQuery Unit

/-- The time at which a statement is executed, and the rows others have locked. -/
structure AdminMoment where
  now : Timestamp
  locked : List Nat

/-- A text column holds the string. -/
def storableText (text : String) : Bool := !text.toList.contains '\x00'

/-- The row `insertAuditLog` inserts.  Actions and targets of the operations are
plain texts, and `detail` is sent as JSON. -/
def insertAuditLog (entry : AuditEntry) (now : Timestamp) (log : List AuditRow) :
    Except OperationError (List AuditRow) :=
  if storableText entry.actor then .ok (log ++ [⟨entry, now⟩]) else .error .invalidText

def AdminQuery.exec {Answer : Type} (moment : AdminMoment) (state : AuditedTables) :
    AdminQuery Answer -> Except OperationError Answer × AuditedTables
  | updateJobs update =>
      match Client.query update.ids update.statement moment.now state.db with
      | .error error => (.error (.admin error), state)
      | .ok reply => (.ok reply.rows, state.withDb reply.db)
  | getJob id =>
      if id.fitsBigint then (.ok (state.db.find id.value), state)
      else (.error (.admin .idOutOfRange), state)
  | setQueuePaused queue paused =>
      match PgJobQ.setQueuePaused queue paused state.db with
      | .error error => (.error (.client (.database error)), state)
      | .ok reply => (.ok (), state.withDb reply.db)
  | purgeQueue queue states limit =>
      if limit < 0 then (.error .negativeLimit, state)
      else
        match PgJobQ.purgeQueue queue states limit.toNat moment.locked state.db with
        | .error error => (.error (.client (.database error)), state)
        | .ok reply => (.ok reply.rows, state.withDb reply.db)
  | createSchedule p nextRunAt =>
      match PgJobQ.createSchedule p nextRunAt moment.now state.schedules with
      | (next, some row) => (.ok row, state.withSchedules next)
      | (next, none) => (.error (.schedule .nameTaken), state.withSchedules next)
  | getSchedule id =>
      match Scheduler.get id state.schedules with
      | .error error => (.error (.schedule error), state)
      | .ok found => (.ok found, state)
  | setScheduleEnabled id enabled nextRunAt =>
      if id.fitsBigint then
        let next := PgJobQ.setScheduleEnabled id.value enabled nextRunAt moment.now state.schedules
        (.ok (next.find id.value), state.withSchedules next)
      else (.error (.schedule .idOutOfRange), state)
  | deleteSchedule id =>
      match Scheduler.delete id state.tables with
      | (.error error, tables) => (.error (.schedule error), { state with tables := tables })
      | (.ok deleted, tables) => (.ok deleted, { state with tables := tables })
  | insertAuditLog entry =>
      match PgJobQ.insertAuditLog entry moment.now state.auditLog with
      | .error error => (.error error, state)
      | .ok log => (.ok (), { state with auditLog := log })

/-- A committed statement that has changed rows of `job`, `schedule` or
`queue_config`. -/
inductive AdminChange where
  | updated (update : JobUpdate) (jobs : List Nat)
  | pauseSet (queue : String) (paused : Bool)
  | purged (queue : String) (states : List JobState) (jobs : List Nat)
  | scheduleCreated (row : ScheduleRow)
  | scheduleSet (id : NumericId) (enabled : Bool)
  | scheduleDeleted (id : NumericId)
  deriving DecidableEq, Repr

/-- What a committed statement has done, by the rows it returns. -/
def AdminQuery.effect {Answer : Type} : AdminQuery Answer -> Answer ->
    Scripts.Effect AdminChange AuditEntry
  | updateJobs update, rows =>
      if rows.isEmpty then .silent else .change (.updated update (rows.map JobRow.id))
  | getJob _, _ => .silent
  | setQueuePaused queue paused, _ => .change (.pauseSet queue paused)
  | purgeQueue queue states _, rows =>
      if rows.isEmpty then .silent else .change (.purged queue states (rows.map JobRow.id))
  | createSchedule _ _, row => .change (.scheduleCreated row)
  | getSchedule _, _ => .silent
  | setScheduleEnabled id enabled _, found =>
      if found.isNone then .silent else .change (.scheduleSet id enabled)
  | deleteSchedule id, deleted => if deleted then .change (.scheduleDeleted id) else .silent
  | insertAuditLog entry, _ => .record entry

def adminMachine :
    Machine AdminMoment AuditedTables AdminQuery OperationError AdminChange AuditEntry where
  exec := AdminQuery.exec
  effect := AdminQuery.effect

/-! ## Operations -/

inductive OperationResult where
  | cancelled (result : CancelResult)
  | job (row : JobRow)
  | bulkReplay (result : BulkReplay)
  | pauseSet
  | purged (deleted : Nat)
  | schedule (row : ScheduleRow)
  | scheduleNotFound
  | scheduleDeleted

abbrev AdminScript := Script AdminQuery OperationError OperationResult

/-- `opts` of `purge`. -/
structure PurgeOptions where
  batchSize : Option Int
  maxBatches : Option Int
  deriving DecidableEq, Repr

inductive AdminOperation where
  | cancel (id : NumericId)
  | retryNow (id : NumericId)
  | replay (id : NumericId)
  | replayMany (ids : List NumericId)
  | setPaused (queue : String) (paused : Bool)
  | purge (queue : String) (states : List JobState) (confirm : String) (opts : PurgeOptions)
  | createSchedule (p : ScheduleParams)
  | setSchedule (id : NumericId) (enabled : Bool)
  | deleteSchedule (id : NumericId)
  deriving DecidableEq, Repr

namespace AuditedOperation

/-- `Client.getJob`. -/
def getJob (id : NumericId) (next : JobRow -> AdminScript) : AdminScript :=
  .ask (.getJob id) fun found =>
    match found with
    | some job => next job
    | none => .done (.error (.admin (.jobNotFound id.text)))

section

variable (actor : String)

/-- `Client.audit`. -/
def audit (action : String) (target : Option String) (detail : Option AuditDetail)
    (next : AdminScript) : AdminScript :=
  .ask (.insertAuditLog ⟨actor, action, target, detail⟩) fun _ => next

def cancel (id : NumericId) : AdminScript :=
  .ask (.updateJobs (.cancelAvailableJob id)) fun cancelled =>
    if cancelled.isEmpty then
      .ask (.updateJobs (.requestCancelRunningJob id)) fun requested =>
        if requested.isEmpty then
          getJob id fun current => .done (.error (.admin
            (.invalidTransition current.state .cancelled (permittedTargets current.state))))
        else
          audit actor "job.cancel_requested" (some id.text) (some (.cancelledFrom .running))
            (.done (.ok (.cancelled ⟨.running, false⟩)))
    else
      audit actor "job.cancel" (some id.text) (some (.cancelledFrom .available))
        (.done (.ok (.cancelled ⟨.cancelled, true⟩)))

/-- `retryNow` and `replay`: an update of one job that is audited and read
again, or refused for the job that is there. -/
def updateJob (id : NumericId) (update : JobUpdate) (action : String)
    (refusal : JobRow -> AdminError) : AdminScript :=
  .ask (.updateJobs update) fun rows =>
    if rows.isEmpty then getJob id fun current => .done (.error (.admin (refusal current)))
    else audit actor action (some id.text) none (getJob id fun job => .done (.ok (.job job)))

def retryNow (id : NumericId) : AdminScript :=
  updateJob actor id (.retryJobNow id) "job.retry_now" fun current =>
    .conflict ("Cannot retry job " ++ id.text ++ " in state '" ++ current.state.text ++
      "'. Only 'available' jobs can be " ++
      "advanced; use replay for a dead-lettered job.") id.text current.state

def replay (id : NumericId) : AdminScript :=
  updateJob actor id (.replayDeadJob id) "job.replay" fun current =>
    .conflict ("Cannot replay job " ++ id.text ++ " in state '" ++ current.state.text ++
      "'. Only dead-lettered jobs can be replayed.") id.text current.state

def replayMany (ids : List NumericId) : AdminScript :=
  if ids = [] then .done (.ok (.bulkReplay ⟨[], []⟩))
  else
    .ask (.updateJobs (.replayDeadJobs ids)) fun rows =>
      let replayed := rows.map (fun row => Nat.repr row.id)
      let skipped := (ids.map NumericId.text).filter (fun id => !replayed.contains id)
      audit actor "job.replay_bulk" none (some (.replayedBulk ids.length replayed.length))
        (.done (.ok (.bulkReplay ⟨replayed, skipped⟩)))

def setPaused (queue : String) (paused : Bool) : AdminScript :=
  match validateName queue "queue" with
  | .error error => .done (.error (.client (.row error)))
  | .ok () =>
      .ask (.setQueuePaused queue paused) fun _ =>
        audit actor (if paused then "queue.pause" else "queue.resume") (some queue) none
          (.done (.ok .pauseSet))

/-- The loop of `purge`, with the batches that may still follow and the jobs
deleted so far. -/
def purgeBatches (queue : String) (states : List JobState) (batchSize : Int)
    (finish : Nat -> AdminScript) : Nat -> Nat -> AdminScript
  | 0, deleted => finish deleted
  | batches + 1, deleted =>
      .ask (.purgeQueue queue states batchSize) fun rows =>
        if (rows.length : Int) < batchSize then finish (deleted + rows.length)
        else purgeBatches queue states batchSize finish batches (deleted + rows.length)

def purge (queue : String) (states : List JobState) (confirm : String) (opts : PurgeOptions) :
    AdminScript :=
  match validateName queue "queue" with
  | .error error => .done (.error (.client (.row error)))
  | .ok () =>
      if confirm ≠ queue then
        .done (.error (.client (.row (.validation ("Purge requires confirmation: pass the queue name '"
          ++ queue ++ "' as the confirmation token.")))))
      else if states = [] then
        .done (.error (.client (.row (.validation "Purge requires at least one state"))))
      else
        purgeBatches queue states (opts.batchSize.getD 1000)
          (fun deleted =>
            audit actor "queue.purge" (some queue) (some (.purged states deleted))
              (.done (.ok (.purged deleted))))
          (opts.maxBatches.getD 1000).toNat 0

variable (cron : Cron) (clock : Int)

/-- `POST /schedules`. -/
def createSchedule (p : ScheduleParams) : AdminScript :=
  let timezone := p.timezone.getD "UTC"
  match cron.nextOccurrence p.cron timezone clock with
  | none => .done (.error (.schedule
      (.invalidCron (cron.rejection p.cron timezone clock) p.cron timezone)))
  | some nextRunAt =>
      .ask (.createSchedule p nextRunAt) fun created =>
        audit actor "schedule.create" (some (Nat.repr created.id)) (some (.named p.name))
          (.done (.ok (.schedule created)))

/-- `POST /schedules/:id/pause` and `POST /schedules/:id/resume`. -/
def setSchedule (id : NumericId) (enabled : Bool) : AdminScript :=
  .ask (.getSchedule id) fun existing =>
    match existing with
    | none => .done (.ok .scheduleNotFound)
    | some existing =>
        let write := fun nextRunAt : Option Int =>
          Script.ask (.setScheduleEnabled id enabled nextRunAt) fun updated =>
            match updated with
            | none => .done (.ok .scheduleNotFound)
            | some updated =>
                audit actor (if enabled then "schedule.resume" else "schedule.pause") (some id.text)
                  none (.done (.ok (.schedule updated)))
        if enabled then
          match cron.nextOccurrence existing.cron existing.timezone clock with
          | none => .done (.error (.schedule
              (.invalidCron (cron.rejection existing.cron existing.timezone clock) existing.cron
                existing.timezone)))
          | some nextRunAt => write (some nextRunAt)
        else write none

/-- `DELETE /schedules/:id`. -/
def deleteSchedule (id : NumericId) : AdminScript :=
  .ask (.deleteSchedule id) fun deleted =>
    if deleted then
      audit actor "schedule.delete" (some id.text) none (.done (.ok .scheduleDeleted))
    else .done (.ok .scheduleNotFound)

end

end AuditedOperation

open AuditedOperation in
/-- The statements of a call by this actor. -/
def AdminOperation.script (cron : Cron) (clock : Int) (actor : String) :
    AdminOperation -> AdminScript
  | cancel id => AuditedOperation.cancel actor id
  | retryNow id => AuditedOperation.retryNow actor id
  | replay id => AuditedOperation.replay actor id
  | replayMany ids => AuditedOperation.replayMany actor ids
  | setPaused queue paused => AuditedOperation.setPaused actor queue paused
  | purge queue states confirm opts => AuditedOperation.purge actor queue states confirm opts
  | createSchedule p => AuditedOperation.createSchedule actor cron clock p
  | setSchedule id enabled => AuditedOperation.setSchedule actor cron clock id enabled
  | deleteSchedule id => AuditedOperation.deleteSchedule actor id

end PgJobQ
