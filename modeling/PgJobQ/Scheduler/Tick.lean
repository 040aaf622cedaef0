import Mathlib.Logic.Function.Basic
import PgJobQ.Scheduler.Schedule
import PgJobQ.Statements.Exec

/-!
# Ticks of the scheduler

`Scheduler.tick` claims the due schedules in one statement and then handles
them one by one: it evaluates the cron expression, inserts the job of the
occurrence, and advances the schedule.  `Scheduler.setEnabled` reads a schedule
and writes it back.  Each statement is a transaction of its own, so the row
locks of the claim are gone when the first insert is sent.

Any number of calls take their steps in any order: the database executes the
pending statement of a call, or the call goes on after the response to it and
reads the clock.  A call may end at any point, by a crash or by an error, and
the jobs are claimed and reported in between.  `nextOccurrence` stands for the
cron library; it returns nothing for an expression it rejects.
-/

namespace PgJobQ

open Runs

/-- Which advance a tick sends, with the clock that decided it. -/
inductive AdvanceKind where
  | deferred (clock : Int)
  | skipped (clock : Int)
  | fired
  deriving DecidableEq, Repr

/-- Where a call of `tick` or of `setEnabled` stands.  All but `taking`,
`computing` and `finished` wait for a statement. -/
inductive SchedulerCall where
  | claiming (limit : Nat)
  | taking (rest : List DueScheduleRow)
  | inserting (row : DueScheduleRow) (key : String) (nextRunAt : Int) (rest : List DueScheduleRow)
  | advancing (row : DueScheduleRow) (nextRunAt : Int) (jobId : Option Nat) (kind : AdvanceKind)
      (rest : List DueScheduleRow)
  | reading (id : Nat) (enabled : Bool)
  | computing (existing : ScheduleRow) (enabled : Bool)
  | writing (id : Nat) (enabled : Bool) (nextRunAt : Option Int)
  | finished
  deriving DecidableEq, Repr

/-- What a statement of a call has done. -/
inductive SchedulerEvent where
  | claimed (call : Nat)
  | created (due : DueScheduleRow) (job : JobRow)
  | advanced (due : DueScheduleRow) (kind : AdvanceKind) (db : Database)
      (before : Option ScheduleRow) (nextRunAt : Timestamp)
  | enabledSet (before : ScheduleRow) (nextRunAt : Timestamp)

/-- `shouldFire`: an occurrence more than an hour late is skipped under
`skip_missed`. -/
def DueScheduleRow.shouldFire (row : DueScheduleRow) (clock : Int) : Bool :=
  !(row.catchupPolicy == .skipMissed && decide (3600 * 1000 < clock - row.plannedFor))

/-- The job of an occurrence. -/
def DueScheduleRow.occurrence (row : DueScheduleRow) (key : String) : EnqueueRow where
  queue := row.queue
  type := row.type
  payload := row.payload
  metadata := none
  priority := 0
  maxAttempts := 5
  leaseSeconds := 30
  runAt := none
  idempotencyKey := some key
  uniqueKey := none
  traceContext := none
  scheduleId := some row.id

namespace SchedulerCall

/-- The `for` loop of a tick from its next iteration on. -/
def take (nextOccurrence : String -> String -> Int -> Option Int) (clock : Int) :
    List DueScheduleRow -> SchedulerCall
  | [] => .finished
  | row :: rest =>
      match occurrenceKey row.id row.plannedFor with
      | none => .finished
      | some key =>
          match nextOccurrence row.cron row.timezone clock with
          | none => .advancing row (clock + 3600000) none (.deferred clock) rest
          | some nextRunAt =>
              if row.shouldFire clock then .inserting row key nextRunAt rest
              else .advancing row nextRunAt none (.skipped clock) rest

/-- A call goes on after the response to its statement. -/
def resume (nextOccurrence : String -> String -> Int -> Option Int) (clock : Int) :
    SchedulerCall -> SchedulerCall
  | taking rest => take nextOccurrence clock rest
  | computing existing enabled =>
      if enabled then
        match nextOccurrence existing.cron existing.timezone clock with
        | none => finished
        | some nextRunAt => writing existing.id true (some nextRunAt)
      else writing existing.id false none
  | call => call

/-- The tables and the call after a statement, and what it has done. -/
structure Outcome where
  db : Database
  schedules : ScheduleTable
  call : SchedulerCall
  event : Option SchedulerEvent

/-- The database executes the statement a call waits for. -/
def execute (index : Nat) (now : Timestamp) (locked : List Nat) (db : Database)
    (schedules : ScheduleTable) : SchedulerCall -> Outcome
  | claiming limit =>
      let claimed := claimDueSchedules limit locked now schedules
      ⟨db, claimed.1, taking claimed.2, some (.claimed index)⟩
  | inserting row key nextRunAt rest =>
      match insertJob (row.occurrence key) now db with
      | .ok reply =>
          ⟨reply.db, schedules, advancing row nextRunAt (reply.rows.head?.map JobRow.id) .fired rest,
            reply.rows.head?.map (.created row)⟩
      | .error _ => ⟨db, schedules, finished, none⟩
  | advancing row nextRunAt jobId kind rest =>
      ⟨db, advanceSchedule row.id nextRunAt jobId now schedules, taking rest,
        some (.advanced row kind db (schedules.find row.id) (ofMillis nextRunAt))⟩
  | reading id enabled =>
      match schedules.find id with
      | none => ⟨db, schedules, finished, none⟩
      | some existing => ⟨db, schedules, computing existing enabled, none⟩
  | writing id enabled nextRunAt =>
      ⟨db, setScheduleEnabled id enabled nextRunAt now schedules, finished,
        (schedules.find id).map (fun before =>
          .enabledSet before ((nextRunAt.map ofMillis).getD before.nextRunAt))⟩
  | call => ⟨db, schedules, call, none⟩

/-- The claimed rows a tick has still to advance. -/
def held : SchedulerCall -> List DueScheduleRow
  | taking rest => rest
  | inserting row _ _ rest => row :: rest
  | advancing row _ _ _ rest => row :: rest
  | _ => []

end SchedulerCall

/-! ## The system -/

/-- The tables, the calls under way and the last time anybody has read. -/
structure SchedulerSystem where
  db : Database
  schedules : ScheduleTable
  calls : Nat -> Option SchedulerCall
  clock : Timestamp

inductive SchedulerLabel where
  | tick (index : Nat) (limit : Nat)
  | setEnabled (index : Nat) (id : Nat) (enabled : Bool)
  | execute (index : Nat) (now : Timestamp) (locked : List Nat)
  | resume (index : Nat) (now : Timestamp)
  | crash (index : Nat)
  | job (call : Call)

namespace SchedulerSystem

def put (system : SchedulerSystem) (index : Nat) (call : SchedulerCall) : SchedulerSystem :=
  { system with calls := Function.update system.calls index (some call) }

theorem put_cases {system : SchedulerSystem} {index other : Nat} {call current : SchedulerCall}
    (present : (system.put index call).calls other = some current) :
    (other = index ∧ current = call) ∨ (other ≠ index ∧ system.calls other = some current) := by
  by_cases same : other = index
  · subst same
    simp only [put, Function.update_self] at present
    cases present
    exact Or.inl ⟨rfl, rfl⟩
  · simp only [put, Function.update_of_ne same] at present
    exact Or.inr ⟨same, present⟩

/-- Begin a call, unless the index is in use. -/
def begin (system : SchedulerSystem) (index : Nat) (call : SchedulerCall) : SchedulerSystem :=
  match system.calls index with
  | none => system.put index call
  | some _ => system

def step (nextOccurrence : String -> String -> Int -> Option Int) (system : SchedulerSystem) :
    SchedulerLabel -> SchedulerSystem
  | .tick index limit => system.begin index (.claiming limit)
  | .setEnabled index id enabled => system.begin index (.reading id enabled)
  | .execute index now locked =>
      match system.calls index with
      | none => system
      | some call =>
          let outcome := call.execute index now locked system.db system.schedules
          { system with
            db := outcome.db
            schedules := outcome.schedules
            clock := now }.put index outcome.call
  | .resume index now =>
      match system.calls index with
      | none => system
      | some call =>
          { system with clock := now }.put index (call.resume nextOccurrence (millis now))
  | .crash index =>
      match system.calls index with
      | none => system
      | some _ => system.put index .finished
  | .job call =>
      if (call.statement.mutation call.now system.db).isSome then
        { system with db := system.db.step call }
      else system

def event (system : SchedulerSystem) : SchedulerLabel -> Option SchedulerEvent
  | .execute index now locked =>
      (system.calls index).bind
        (fun call => (call.execute index now locked system.db system.schedules).event)
  | _ => none

/-- No call is under way. -/
def start (db : Database) (schedules : ScheduleTable) (clock : Timestamp) : SchedulerSystem :=
  ⟨db, schedules, fun _ => none, clock⟩

end SchedulerSystem

abbrev SchedulerRun := Recorded SchedulerSystem SchedulerEvent

namespace SchedulerRun

def step (nextOccurrence : String -> String -> Int -> Option Int) :
    SchedulerRun -> SchedulerLabel -> SchedulerRun :=
  recordStep (SchedulerSystem.step nextOccurrence) SchedulerSystem.event

def start (db : Database) (schedules : ScheduleTable) (clock : Timestamp) : SchedulerRun :=
  ⟨.start db schedules clock, []⟩

end SchedulerRun

end PgJobQ
