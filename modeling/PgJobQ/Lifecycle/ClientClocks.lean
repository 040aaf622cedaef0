import PgJobQ.Lifecycle.ClockReadings
import PgJobQ.Scheduler.Starvation

/-!
# Two runs with different clocks

Enqueues, claims, reports, reaping and ticks follow one another.  The database
has one clock; every process has its own, which may show anything at any
reading.  Two runs of the same operations are compared in what decides when a
job is eligible and what becomes of it.

The clocks of the processes show in no report and in no statement of a worker
or the reaper.  They show where a client computes a time or goes by a cache
that is out of date, and in every schedule a tick advances.
-/

namespace PgJobQ

open Runs

/-! ## Ticks -/

/-- What a tick depends on, but for the clock of its process.  Each schedule has
an iteration of its own, and the claim returns its rows in any order. -/
structure TickSetting where
  limit : Nat
  locked : List Nat
  now : Timestamp
  arrange : List DueScheduleRow -> List DueScheduleRow
  permutes : forall rows, (arrange rows).Perm rows
  insertedAt : Nat -> Timestamp
  advancedAt : Nat -> Timestamp
  refused : Nat -> Bool

namespace TickSetting

variable (nextOccurrence : String -> String -> Int -> Option Int) (setting : TickSetting)
variable (clock : Nat -> Timestamp) (db : Database) (schedules : ScheduleTable)

def iteration (clock : Timestamp) (id : Nat) : Iteration :=
  ⟨clock, setting.insertedAt id, setting.advancedAt id, setting.refused id⟩

/-- The rows the claim returns. -/
def claimed : List DueScheduleRow :=
  setting.arrange (claimDueSchedules setting.limit setting.locked setting.now schedules).2

/-- `Scheduler.tick`. -/
def tick : Iterated :=
  SchedulerCall.loop nextOccurrence (fun id => setting.iteration (clock id) id)
    (setting.claimed schedules) db
    (claimDueSchedules setting.limit setting.locked setting.now schedules).1

/-- The tick gets past the first schedule it has claimed, if its clock lets it. -/
def Handles : Prop :=
  Exists fun row : DueScheduleRow => Exists fun rest : List DueScheduleRow =>
    setting.claimed schedules = row :: rest ∧
      Exists fun time : Timestamp =>
        Not (row.Throws nextOccurrence (setting.iteration time row.id) db)

end TickSetting

/-- An occurrence is fired when its job is inserted or found there. -/
def SchedulerEvent.fires : SchedulerEvent -> Option (Nat × Timestamp)
  | .advanced due .fired _ _ _ => some (due.id, due.plannedFor)
  | _ => none

/-! ## Runs -/

/-- The occurrences that have been fired are not in the program. -/
structure ClockedSystem where
  db : Database
  schedules : ScheduleTable
  clients : Nat -> ClientState
  fired : List (Nat × Timestamp)

inductive Operation where
  | enqueue (now : Timestamp) (request : EnqueueRequest)
  | enqueueBatch (now : Timestamp) (client : Nat) (queue : String) (items : List BatchEnqueueItem)
  | update (now : Timestamp) (statement : Statement)
  | tick (setting : TickSetting)

/-- An operation, and what the clock of its process shows at each reading. -/
structure ClockedStep where
  operation : Operation
  clock : Nat -> Timestamp

namespace ClockedSystem

def put (system : ClockedSystem) (id : Nat) (db : Database) (client : ClientState) :
    ClockedSystem :=
  { system with db := db, clients := Function.update system.clients id client }

def step (nextOccurrence : String -> String -> Int -> Option Int)
    (defaults : Nat -> ClientDefaults) (system : ClockedSystem) (label : ClockedStep) :
    ClockedSystem :=
  match label.operation with
  | .enqueue now request =>
      let sent := Client.enqueue ⟨defaults request.client, label.clock⟩ now request system.db
        (system.clients request.client)
      system.put request.client sent.2.1 sent.2.2
  | .enqueueBatch now client queue items =>
      let sent := PgJobQ.enqueueBatch ⟨defaults client, label.clock⟩ now queue items system.db
        (system.clients client)
      system.put client sent.2.1 sent.2.2
  | .update now statement => { system with db := system.db.update now (label.clock 0) statement }
  | .tick setting =>
      let done := setting.tick nextOccurrence label.clock system.db system.schedules
      { system with
        db := done.db
        schedules := done.schedules
        fired := done.events.filterMap SchedulerEvent.fires ++ system.fired }

end ClockedSystem

/-- The columns of a job that decide when it can be claimed. -/
structure JobEligibility where
  id : Nat
  state : JobState
  attempt : Int
  runAt : Timestamp
  leaseExpiresAt : Option Timestamp
  finishedAt : Option Timestamp
  deriving DecidableEq, Repr

def JobRow.eligibility (row : JobRow) : JobEligibility :=
  ⟨row.id, row.state, row.attempt, row.runAt, row.leaseExpiresAt, row.finishedAt⟩

/-- What must not depend on the clocks of the processes. -/
structure Eligibility where
  jobs : List JobEligibility
  schedules : List (Nat × Timestamp)
  fired : List (Nat × Timestamp)
  deriving DecidableEq, Repr

def ClockedSystem.eligibility (system : ClockedSystem) : Eligibility where
  jobs := system.db.job.rows.map JobRow.eligibility
  schedules := system.schedules.rows.map (fun row => (row.id, row.nextRunAt))
  fired := system.fired

/-- The two runs agree in every state they visit. -/
def SameEligibility (nextOccurrence : String -> String -> Int -> Option Int)
    (defaults : Nat -> ClientDefaults) (start : ClockedSystem) (first second : List ClockedStep) :
    Prop :=
  forall count : Nat,
    (run (ClockedSystem.step nextOccurrence defaults) start (first.take count)).eligibility =
      (run (ClockedSystem.step nextOccurrence defaults) start (second.take count)).eligibility

/-- The operation depends on the clock of its process: a row gets into the table
that has its time from that clock, a client goes by what it had cached at first
where that is out of date, or a tick handles a schedule. -/
def UsesClock (nextOccurrence : String -> String -> Int -> Option Int)
    (defaults : Nat -> ClientDefaults) (initial : Nat -> ClientState) (system : ClockedSystem) :
    Operation -> Prop
  | .enqueue now request =>
      validateName request.queue "queue" = .ok () ∧
        ReadsClock (initial request.client) (defaults request.client) now request.queue
          [request.item] system.db
  | .enqueueBatch now client queue items =>
      BatchSized queue items ∧
        ReadsClock (initial client) (defaults client) now queue items system.db
  | .update _ _ => False
  | .tick setting => setting.Handles nextOccurrence system.db system.schedules

/-! ## One operation -/

/-- The systems agree on the tables but for the times in error records, and on
what has been fired; each client has in its cache what it had there at first,
or what `queue_config` says. -/
structure ClockedSystem.Alike (initial : Nat -> ClientState) (first second : ClockedSystem) :
    Prop where
  db : first.db.Alike second.db
  schedules : first.schedules = second.schedules
  fired : first.fired = second.fired
  kept : forall id, ClientState.Kept (initial id) first.db (first.clients id)
  keptToo : forall id, ClientState.Kept (initial id) second.db (second.clients id)

theorem ClockedSystem.Alike.start (start : ClockedSystem) :
    ClockedSystem.Alike start.clients start start where
  db := .refl start.db
  schedules := rfl
  fired := rfl
  kept := fun _ _ savedAt _ cached => Or.inr ⟨savedAt, cached⟩
  keptToo := fun _ _ savedAt _ cached => Or.inr ⟨savedAt, cached⟩

/-- The times in error records decide nothing. -/
theorem ClockedSystem.Alike.eligibility {initial : Nat -> ClientState}
    {first second : ClockedSystem} (alike : ClockedSystem.Alike initial first second) :
    first.eligibility = second.eligibility := by
  have blind : forall rows : List JobRow,
      rows.map JobRow.eligibility = (rows.map JobRow.untimed).map JobRow.eligibility := by
    intro rows
    rw [List.map_map]
    rfl
  unfold ClockedSystem.eligibility
  rw [blind first.db.job.rows, alike.db.rows, ← blind, alike.schedules, alike.fired]

theorem Database.update_queueConfig (now clock : Timestamp) (statement : Statement)
    (db : Database) : (db.update now clock statement).queueConfig = db.queueConfig := by
  cases isUpdate : (statement.stampedAt clock).mutation now db with
  | none => rw [Database.update_of_not_update isUpdate]
  | some mutation =>
      rcases Database.update_of_mutation isUpdate with ⟨reply, committed, next⟩ | ⟨_, next⟩
      · rw [next]
        exact (Mutation.run_ok committed).2.2.2.2.2
      · rw [next]

section

variable {nextOccurrence : String -> String -> Int -> Option Int}
variable {defaults : Nat -> ClientDefaults} {initial : Nat -> ClientState}
variable {first second : ClockedSystem}

/-- A schedule on which one tick throws is one on which the other does. -/
theorem DueScheduleRow.throws_alike {db other : Database} (alike : db.Alike other)
    {iteration : Iteration} {row : DueScheduleRow} (throws : row.Throws nextOccurrence iteration db) :
    row.Throws nextOccurrence iteration other := by
  unfold DueScheduleRow.Throws at throws ⊢
  cases isKey : occurrenceKey row.id row.plannedFor with
  | none => exact trivial
  | some key =>
      rw [isKey] at throws
      refine ⟨throws.1, throws.2.1, throws.2.2.imp_right ?_⟩
      intro refused
      rw [insertJob_refused_iff] at refused ⊢
      rcases refused with ⟨error, aborted⟩
      have inserted := insertRow_alike alike iteration.insertedAt (row.occurrence key)
      rw [aborted] at inserted
      cases second : insertRow iteration.insertedAt (row.occurrence key) other with
      | error reason => exact ⟨reason, rfl⟩
      | ok done =>
          rw [second] at inserted
          exact inserted.elim

/-- A tick that handles nothing only claims. -/
theorem TickSetting.tick_idle {setting : TickSetting} {db other : Database}
    {schedules : ScheduleTable} (alike : db.Alike other)
    (idle : Not (setting.Handles nextOccurrence db schedules)) (clock : Nat -> Timestamp) :
    setting.tick nextOccurrence clock other schedules =
      ⟨other, (claimDueSchedules setting.limit setting.locked setting.now schedules).1,
        .finished, []⟩ := by
  unfold TickSetting.tick
  cases claimed : setting.claimed schedules with
  | nil => rfl
  | cons row rest =>
      apply SchedulerCall.loop_throws
      by_contra passes
      refine idle ⟨row, rest, claimed, clock row.id, fun throws => passes ?_⟩
      exact DueScheduleRow.throws_alike alike throws

/-- The other clients keep what they kept. -/
theorem kept_update {db next : Database} {clients : Nat -> ClientState}
    (kept : forall index, ClientState.Kept (initial index) db (clients index))
    (sameConfig : next.queueConfig = db.queueConfig) {id : Nat} {client : ClientState}
    (changed : ClientState.Kept (initial id) next client) (index : Nat) :
    ClientState.Kept (initial index) next (Function.update clients id client index) := by
  by_cases same : index = id
  · subst same
    rw [Function.update_self]
    exact changed
  · rw [Function.update_of_ne same]
    exact (kept index).of_config sameConfig

/-- Clients are updated one at a time. -/
theorem ClockedSystem.Alike.put (alike : ClockedSystem.Alike initial first second) (id : Nat)
    {db other : Database} {client clientToo : ClientState} (tables : db.Alike other)
    (sameConfig : db.queueConfig = first.db.queueConfig)
    (kept : ClientState.Kept (initial id) db client)
    (keptToo : ClientState.Kept (initial id) other clientToo) :
    ClockedSystem.Alike initial (first.put id db client) (second.put id other clientToo) where
  db := tables
  schedules := alike.schedules
  fired := alike.fired
  kept := kept_update alike.kept sameConfig kept
  keptToo := by
    have sameToo : other.queueConfig = second.db.queueConfig :=
      tables.queueConfig.symm.trans (sameConfig.trans alike.db.queueConfig)
    exact kept_update alike.keptToo sameToo keptToo

/-- An operation that does not use the clock keeps two systems alike. -/
theorem ClockedSystem.Alike.step (alike : ClockedSystem.Alike initial first second)
    {label other : ClockedStep} (same : label.operation = other.operation)
    (quiet : Not (UsesClock nextOccurrence defaults initial first label.operation)) :
    ClockedSystem.Alike initial (first.step nextOccurrence defaults label)
      (second.step nextOccurrence defaults other) := by
  rcases label with ⟨operation, clock⟩
  rcases other with ⟨_, reading⟩
  cases same
  cases operation with
  | enqueue now request =>
      have untouched : validateName request.queue "queue" = .ok () ->
          Not (ReadsClock (initial request.client) (defaults request.client) now request.queue
            [request.item] first.db) := fun named reads => quiet ⟨named, reads⟩
      exact alike.put request.client
        (enqueue_alike alike.db (alike.kept _) (alike.keptToo _) untouched)
        (enqueue_queueConfig _ _ _ _ _) (enqueue_kept (alike.kept _) request)
        (enqueue_kept (alike.keptToo _) request)
  | enqueueBatch now client queue items =>
      have untouched : BatchSized queue items ->
          Not (ReadsClock (initial client) (defaults client) now queue items first.db) :=
        fun sized reads => quiet ⟨sized, reads⟩
      exact alike.put client
        (enqueueBatch_alike alike.db (alike.kept _) (alike.keptToo _) untouched)
        (enqueueBatch_queueConfig _ _ _ _ _ _) (enqueueBatch_kept (alike.kept _) queue items)
        (enqueueBatch_kept (alike.keptToo _) queue items)
  | update now statement =>
      exact {
        db := alike.db.update now _ _ statement
        schedules := alike.schedules
        fired := alike.fired
        kept := fun id => (alike.kept id).of_config (Database.update_queueConfig _ _ _ _)
        keptToo := fun id => (alike.keptToo id).of_config (Database.update_queueConfig _ _ _ _) }
  | tick setting =>
      have one := TickSetting.tick_idle (.refl first.db) quiet clock
      have two := TickSetting.tick_idle alike.db quiet reading
      unfold ClockedSystem.step
      dsimp only
      rw [← alike.schedules, one, two]
      exact {
        db := alike.db
        schedules := rfl
        fired := alike.fired
        kept := alike.kept
        keptToo := alike.keptToo }

end

/-- Runs of the same operations agree on eligibility whatever the clocks of the
processes show, when no operation depends on the clock of its process. -/
theorem clocks_irrelevant (nextOccurrence : String -> String -> Int -> Option Int)
    (defaults : Nat -> ClientDefaults) (start : ClockedSystem) {first second : List ClockedStep}
    (same : first.map ClockedStep.operation = second.map ClockedStep.operation)
    (quiet : EachStep (ClockedSystem.step nextOccurrence defaults)
      (fun system label =>
        Not (UsesClock nextOccurrence defaults start.clients system label.operation)) start first) :
    SameEligibility nextOccurrence defaults start first second := by
  intro count
  have alike := @alike_of_eachStep _ _ _ (ClockedSystem.step nextOccurrence defaults)
    ClockedStep.operation (ClockedSystem.Alike start.clients)
    (fun system label =>
      Not (UsesClock nextOccurrence defaults start.clients system label.operation))
    (fun _ _ _ _ alike same quiet => alike.step same quiet) start start (.start start) first second
    same quiet count
  exact alike.eligibility

/-- New clients on empty tables. -/
def emptySystem : ClockedSystem := ⟨.empty [] .empty, .empty, fun _ => newClient, []⟩

def standardDefaults (_client : Nat) : ClientDefaults := .standard

/-- A tick that claims in the order of the table. -/
def tickAtOneSecond : TickSetting where
  limit := 10
  locked := []
  now := seconds 1
  arrange := id
  permutes := fun _ => .refl _
  insertedAt := fun _ => seconds 1
  advancedAt := fun _ => seconds 1
  refused := fun _ => false

/-- A job is enqueued, claimed, failed and claimed again, and its lease expires. -/
def plainOperations : List Operation := [
  .enqueue 0 ⟨0, "mail", "send", "\x7b\x7d", .none⟩,
  .update 0 (.claimJobs ⟨"mail", 1, "w"⟩ []),
  .update 0 (.failJob ⟨⟨1, "w", 1⟩, false, seconds 5, 5, plainError⟩),
  .update (seconds 10) (.claimJobs ⟨"mail", 1, "w"⟩ []),
  .update (seconds 50) (.reapExpiredLeases ⟨10, seconds 5⟩ []),
  .tick tickAtOneSecond]

/-- All clocks of all processes stand still. -/
def stoppedAt (time : Timestamp) (operations : List Operation) : List ClockedStep :=
  operations.map (fun operation => ⟨operation, fun _ => time⟩)

theorem stoppedAt_operations (time : Timestamp) (operations : List Operation) :
    (stoppedAt time operations).map ClockedStep.operation = operations := by
  unfold stoppedAt
  rw [List.map_map]
  exact List.map_id operations

theorem plainOperations_agree :
    SameEligibility everyMinute standardDefaults emptySystem (stoppedAt 0 plainOperations)
      (stoppedAt (seconds 3600) plainOperations) := by
  apply clocks_irrelevant
  · rw [stoppedAt_operations, stoppedAt_operations]
  · refine ⟨?_, id, id, id, id, ?_, trivial⟩
    · rintro ⟨_, _, ⟨item, _, unsettled⟩ | ⟨_, ⟨timed, _⟩ | inserted⟩⟩
      · apply unsettled
        rintro qc (rfl | ⟨savedAt, cached⟩)
        · exact ⟨rfl, rfl⟩
        · cases cached
      · cases timed
      · split at inserted
        · exact inserted
        · exact inserted
    · rintro ⟨row, rest, claimed, _⟩
      cases claimed

/-- The schedule of `dueAtStart`, under the policy that skips what is missed. -/
def missedAtStart : ScheduleTable where
  rows := dueAtStart.rows.map (fun row => { row with catchupPolicy := .skipMissed })
  nextId := 2
  primaryKey := by decide
  uniqueName := by decide
  identity := by decide

/-- A job that is to wait for a minute. -/
def waitAMinute : List Operation :=
  [.enqueue 0 ⟨0, "mail", "send", "\x7b\x7d", { EnqueueOptions.none with delaySeconds := some 60 }⟩]

/-- The eligibility after a single operation, by a clock. -/
def afterOne (start : ClockedSystem) (operations : List Operation) (time : Timestamp) :
    Eligibility :=
  (run (ClockedSystem.step everyMinute standardDefaults) start
    ((stoppedAt time operations).take 1)).eligibility

/-- By a clock that is an hour fast, a job that is to wait for a minute waits for an
hour and a minute.  By a clock that is two hours fast, a tick skips what it
fires by a clock that is right, and puts the schedule off by two hours. -/
theorem clocks_show :
    Not (SameEligibility everyMinute standardDefaults emptySystem
        (stoppedAt 0 waitAMinute) (stoppedAt (seconds 3600) waitAMinute)) ∧
      Not (SameEligibility everyMinute standardDefaults
        { emptySystem with schedules := missedAtStart }
        (stoppedAt (seconds 1) [.tick tickAtOneSecond])
        (stoppedAt (seconds 7201) [.tick tickAtOneSecond])) := by
  constructor
  · intro same
    have right : afterOne emptySystem waitAMinute 0 =
        ⟨[⟨1, .available, 0, seconds 60, none, none⟩], [], []⟩ := by rfl
    have fast : afterOne emptySystem waitAMinute (seconds 3600) =
        ⟨[⟨1, .available, 0, seconds 3660, none, none⟩], [], []⟩ := by rfl
    exact absurd (right.symm.trans ((same 1).trans fast)) (by decide)
  · intro same
    have right : afterOne { emptySystem with schedules := missedAtStart } [.tick tickAtOneSecond]
        (seconds 1) = ⟨[⟨1, .available, 0, seconds 1, none, none⟩], [(1, seconds 60)], [(1, 0)]⟩ := by
      rfl
    have fast : afterOne { emptySystem with schedules := missedAtStart } [.tick tickAtOneSecond]
        (seconds 7201) = ⟨[], [(1, seconds 7260)], []⟩ := by rfl
    exact absurd (right.symm.trans ((same 1).trans fast)) (by decide)

end PgJobQ
