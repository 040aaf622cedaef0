import PgJobQ.Client.Administration
import PgJobQ.Scheduler.Schedule

/-!
# Managing schedules

The operations of `Scheduler` besides its ticks.  A schedule is created under
a name of its own, and it is deleted together with every reference of a job to
it.  An operation sends its statements one after the other and is taken as a
whole here.

`Cron` stands for the cron library: an expression has a next occurrence after a
time, or it is rejected with a message.
-/

namespace PgJobQ

open UniqueRows

/-- The tables the server works on. -/
structure Tables where
  db : Database
  schedules : ScheduleTable

structure Cron where
  nextOccurrence : String -> String -> Int -> Option Int
  rejection : String -> String -> Int -> String

/-- The argument of `Scheduler.create`. -/
structure ScheduleParams where
  name : String
  queue : String
  type : String
  payload : Option String
  cron : String
  timezone : Option String
  catchupPolicy : Option CatchupPolicy
  enabled : Option Bool
  deriving DecidableEq, Repr

inductive ScheduleError where
  | invalidCron (message cron timezone : String)
  | nameTaken
  | idOutOfRange
  | database (error : DbError)
  deriving DecidableEq, Repr

/-! ## Statements -/

/-- The row `createSchedule` inserts. -/
def newSchedule (p : ScheduleParams) (id : Nat) (nextRunAt : Int) (now : Timestamp) :
    ScheduleRow where
  id := id
  name := p.name
  queue := p.queue
  type := p.type
  payload := p.payload.getD "\x7b\x7d"
  cron := p.cron
  timezone := p.timezone.getD "UTC"
  catchupPolicy := p.catchupPolicy.getD .skipMissed
  enabled := p.enabled.getD true
  nextRunAt := ofMillis nextRunAt
  lastRunAt := none
  lastJobId := none
  updatedAt := now

/-- A name that is taken makes the insert fail; the identity value is drawn in
any case. -/
def createSchedule (p : ScheduleParams) (nextRunAt : Int) (now : Timestamp)
    (table : ScheduleTable) : ScheduleTable × Option ScheduleRow :=
  if taken : Exists fun row : ScheduleRow => row ∈ table.rows ∧ row.name = p.name then
    ({ table with
      nextId := table.nextId + 1
      identity := fun row member => Nat.lt_succ_of_lt (table.identity row member) }, none)
  else
    ({ rows := table.rows ++ [newSchedule p table.nextId nextRunAt now]
       nextId := table.nextId + 1
       primaryKey := by
         apply table.primaryKey.append
         intro _ row member same
         exact absurd (Option.some.inj same) (Nat.ne_of_lt (table.identity row member))
       uniqueName := by
         apply table.uniqueName.append
         intro _ row member same
         exact taken ⟨row, member, Option.some.inj same⟩
       identity := by
         intro row member
         rcases List.mem_append.mp member with present | added
         · exact Nat.lt_succ_of_lt (table.identity row present)
         · rw [List.mem_singleton.mp added]
           exact Nat.lt_succ_self table.nextId },
      some (newSchedule p table.nextId nextRunAt now))

/-- `ORDER BY name`. -/
def listSchedules (collation : String -> String -> Bool) (table : ScheduleTable) :
    List ScheduleRow :=
  table.rows.insertionSort (fun first second => collation first.name second.name = true)

/-- `ON DELETE SET NULL` of `job_schedule_fk`. -/
def clearSchedule (id : Nat) : Mutation where
  hits job := job.scheduleId == some id
  set job := { job with scheduleId := none }

/-- No constraint looks at the reference. -/
theorem clearSchedule_commits (id : Nat) (db : Database) :
    Exists fun reply : Reply => (clearSchedule id).run db = .ok reply := by
  apply Mutation.run_commits_of_hits
  · intro row member _
    rw [JobRow.checked_iff]
    intro constraint
    have holds := db.job.holds member constraint
    cases constraint <;> exact holds
  · exact fun _ => rfl
  · exact fun _ _ _ => Or.inl rfl

def ScheduleTable.delete (id : Nat) (table : ScheduleTable) : ScheduleTable where
  rows := table.rows.filter (fun row => row.id != id)
  nextId := table.nextId
  primaryKey := table.primaryKey.sublist List.filter_sublist
  uniqueName := table.uniqueName.sublist List.filter_sublist
  identity := fun row member => table.identity row (List.mem_filter.mp member).1

/-- The statement that deletes a schedule also gives up the references to it. -/
def deleteSchedule (id : Nat) (tables : Tables) : Except DbError (Tables × Bool) :=
  match tables.schedules.find id with
  | none => .ok (tables, false)
  | some _ =>
      match (clearSchedule id).run tables.db with
      | .error error => .error error
      | .ok reply => .ok (⟨reply.db, tables.schedules.delete id⟩, true)

/-! ## `Scheduler` -/

namespace Scheduler

def create (cron : Cron) (p : ScheduleParams) (clock : Int) (now : Timestamp)
    (table : ScheduleTable) : Except ScheduleError ScheduleRow × ScheduleTable :=
  let timezone := p.timezone.getD "UTC"
  match cron.nextOccurrence p.cron timezone clock with
  | none => (.error (.invalidCron (cron.rejection p.cron timezone clock) p.cron timezone), table)
  | some nextRunAt =>
      match createSchedule p nextRunAt now table with
      | (next, some row) => (.ok row, next)
      | (next, none) => (.error .nameTaken, next)

def list (collation : String -> String -> Bool) (table : ScheduleTable) : List ScheduleRow :=
  listSchedules collation table

def get (id : NumericId) (table : ScheduleTable) : Except ScheduleError (Option ScheduleRow) :=
  if id.fitsBigint then .ok (table.find id.value) else .error .idOutOfRange

/-- A schedule that is resumed continues with its next occurrence. -/
def setEnabled (cron : Cron) (id : NumericId) (enabled : Bool) (clock : Int) (now : Timestamp)
    (table : ScheduleTable) : Except ScheduleError (Option ScheduleRow) × ScheduleTable :=
  let write := fun nextRunAt : Option Int =>
    let next := setScheduleEnabled id.value enabled nextRunAt now table
    (.ok (next.find id.value), next)
  match get id table with
  | .error error => (.error error, table)
  | .ok none => (.ok none, table)
  | .ok (some existing) =>
      if enabled then
        match cron.nextOccurrence existing.cron existing.timezone clock with
        | none =>
            (.error (.invalidCron (cron.rejection existing.cron existing.timezone clock)
              existing.cron existing.timezone), table)
        | some nextRunAt => write (some nextRunAt)
      else write none

def delete (id : NumericId) (tables : Tables) : Except ScheduleError Bool × Tables :=
  if id.fitsBigint then
    match deleteSchedule id.value tables with
    | .error error => (.error (.database error), tables)
    | .ok (next, deleted) => (.ok deleted, next)
  else (.error .idOutOfRange, tables)

end Scheduler

end PgJobQ
