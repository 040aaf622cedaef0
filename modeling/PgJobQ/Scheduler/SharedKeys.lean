import PgJobQ.Client.EnqueueBatch
import PgJobQ.Lifecycle.History
import PgJobQ.Scheduler.Occurrences

/-!
# Occurrence keys and the keys of clients

The jobs of occurrences and the jobs of clients share one index on idempotency
keys.  A client chooses its keys freely, and nothing keeps it from choosing the
key of an occurrence.  The tick that comes to this occurrence then finds the key
taken, takes the job of the client for one of another scheduler, and advances.

Clients insert rows of their own between the steps of the scheduler.  The
history lists the jobs they have inserted and what the statements of the
scheduler have done, newest first.
-/

namespace PgJobQ

open Runs

/-- The row was built for a call of a client. -/
def BuiltByClient (row : EnqueueRow) : Prop :=
  Exists fun config : ClientConfig => Exists fun db : Database => Exists fun queue : String =>
    Exists fun type : String => Exists fun payload : String =>
      Exists fun options : EnqueueOptions => Exists fun state : ClientState =>
        Exists fun next : ClientState =>
          buildRow config db queue type payload options state = (.ok row, next)

structure ClientRow where
  row : EnqueueRow
  built : BuiltByClient row

/-- A step of the scheduler, or the insert of `enqueue` or of `enqueueBatch`. -/
inductive SharedLabel where
  | scheduler (label : SchedulerLabel)
  | enqueue (now : Timestamp) (row : ClientRow)
  | enqueueBatch (now : Timestamp) (rows : List ClientRow)

/-- An event of the scheduler, with whether it advances past an occurrence that
was counted as deduplicated, or the jobs a client has inserted. -/
inductive SharedEvent where
  | scheduled (event : SchedulerEvent) (deduplicated : Bool)
  | enqueued (jobs : List JobRow)

def SharedEvent.scheduler : SharedEvent -> Option SchedulerEvent
  | scheduled event _ => some event
  | enqueued _ => none

/-- The statement a client sends. -/
def SharedLabel.insert : SharedLabel -> Option Call
  | scheduler _ => none
  | enqueue now row => some ⟨now, .insertJob row.row⟩
  | enqueueBatch now rows => some ⟨now, .insertJobsBatch (rows.map ClientRow.row)⟩

namespace SchedulerSystem

/-- The schedule the step advances past an occurrence whose insert was dropped. -/
def passes (system : SchedulerSystem) : SchedulerLabel -> Option DueScheduleRow
  | .execute index _ _ =>
      match system.calls index with
      | some (.advancing due _ none .fired _) => some due
      | _ => none
  | _ => none

def sharedStep (nextOccurrence : String -> String -> Int -> Option Int) (system : SchedulerSystem) :
    SharedLabel -> SchedulerSystem
  | .scheduler label => system.step nextOccurrence label
  | .enqueue now row => { system with db := system.db.step ⟨now, .insertJob row.row⟩ }
  | .enqueueBatch now rows =>
      { system with db := system.db.step ⟨now, .insertJobsBatch (rows.map ClientRow.row)⟩ }

def sharedEvent (system : SchedulerSystem) : SharedLabel -> Option SharedEvent
  | .scheduler label =>
      (system.event label).map (fun event => .scheduled event (system.passes label).isSome)
  | .enqueue now row =>
      (system.db.commit ⟨now, .insertJob row.row⟩).map (fun commit => .enqueued commit.rows)
  | .enqueueBatch now rows =>
      (system.db.commit ⟨now, .insertJobsBatch (rows.map ClientRow.row)⟩).map
        (fun commit => .enqueued commit.rows)

end SchedulerSystem

abbrev SharedRun := Recorded SchedulerSystem SharedEvent

namespace SharedRun

def step (nextOccurrence : String -> String -> Int -> Option Int) :
    SharedRun -> SharedLabel -> SharedRun :=
  recordStep (SchedulerSystem.sharedStep nextOccurrence) SchedulerSystem.sharedEvent

/-- An empty job table and any schedules. -/
def start (partitions : List ArchivePartition) (config : QueueConfigTable)
    (schedules : ScheduleTable) (clock : Timestamp) : SharedRun :=
  ⟨.start (.empty partitions config) schedules clock, []⟩

/-- What the scheduler has done. -/
def scheduled (history : List SharedEvent) : List SchedulerEvent :=
  history.filterMap SharedEvent.scheduler

end SharedRun

/-- A job of the schedule has been created for the occurrence. -/
def OccurrenceCreated (history : List SharedEvent) (due : DueScheduleRow) : Prop :=
  Exists fun made : DueScheduleRow => Exists fun job : JobRow =>
    .created made job ∈ SharedRun.scheduled history ∧ made.id = due.id ∧
      made.plannedFor = due.plannedFor ∧ job.scheduleId = some due.id

/-- A schedule advances past a deduplicated occurrence only when a job of the
schedule has been created for it. -/
def SharedEvent.Unsuppressed (earlier : List SharedEvent) : SharedEvent -> Prop
  | scheduled (.advanced due _ _ _ _) true => OccurrenceCreated earlier due
  | _ => True

/-- No client has enqueued a job with the key of the occurrence that the step
advances past. -/
def KeyUnclaimed (run : SharedRun) (label : SharedLabel) : Prop :=
  forall step due, label = .scheduler step -> run.state.passes step = some due ->
    forall jobs job, .enqueued jobs ∈ run.history -> job ∈ jobs -> job.queue = due.queue ->
      job.idempotencyKey ≠ occurrenceKey due.id due.plannedFor

/-! ## Inserts of clients -/

/-- A row that was built for a client belongs to no schedule. -/
theorem ClientRow.scheduleId (row : ClientRow) : row.row.scheduleId = none := by
  rcases row.built with ⟨config, db, queue, type, payload, options, state, next, built⟩
  exact (buildRow_ok built).1.scheduleId

/-- An insert appends the rows it returns, under ids nobody had before. -/
theorem insert_extends {now : Timestamp} {db : Database} {rows : List EnqueueRow} {reply : Reply}
    (committed : insertJobsBatch rows now db = .ok reply) : db.Extends reply.db reply.rows := by
  have fresh : forall new, new ∈ reply.rows -> db.nextId ≤ new.id := by
    intro new listed
    have ran : (Statement.insertJobsBatch rows).exec now db = .ok reply := committed
    exact (inserted_row ran rfl listed).1
  have appended : reply.db.job.rows = db.job.rows ++ reply.rows := by
    rcases insertJobsBatch_ok committed with ⟨outcomes, inserted, listed⟩
    rw [listed]
    exact (insertRows_outcomes inserted).2
  refine ⟨?_, ?_, ?_, fresh⟩
  · intro old member
    exact ⟨old, by rw [appended]; exact List.mem_append_left _ member, .refl old⟩
  · intro row member
    rw [appended] at member
    rcases List.mem_append.mp member with present | new
    · exact Or.inl ⟨row, present, .refl row⟩
    · exact Or.inr new
  · intro row member
    rw [appended]
    exact List.mem_append_right _ member

/-- The insert of a client extends the table by what it returns. -/
theorem insert_statement_extends {now : Timestamp} {db : Database} {statement : Statement}
    {reply : Reply} (inserts : statement.isInsert = true)
    (committed : statement.exec now db = .ok reply) : db.Extends reply.db reply.rows := by
  cases statement with
  | insertJob row =>
      change insertJob row now db = .ok reply at committed
      rw [insertJob_eq_batch] at committed
      exact insert_extends committed
  | insertJobsBatch rows => exact insert_extends committed
  | _ => cases inserts

/-! ## Steps of the scheduler -/

namespace SchedulerSystem

/-- The step that passes an occurrence advances its schedule. -/
theorem event_of_passes {system : SchedulerSystem} {label : SchedulerLabel} {due : DueScheduleRow}
    (passes : system.passes label = some due) :
    (Exists fun index : Nat => Exists fun call : SchedulerCall =>
      system.calls index = some call ∧ due ∈ call.held ∧
        forall nextOccurrence db, call.Knows nextOccurrence db -> Materialized db due) ∧
      Exists fun db : Database => Exists fun before : Option ScheduleRow =>
        Exists fun next : Timestamp => system.event label = some (.advanced due .fired db before next) := by
  unfold SchedulerSystem.passes at passes
  split at passes
  · rename_i index now locked
    split at passes
    · rename_i row nextRunAt rest present
      cases passes
      refine ⟨⟨index, _, present, List.mem_cons_self, fun _ _ knows => knows⟩, ?_⟩
      simp only [event, present, Option.bind_some]
      exact ⟨_, _, _, rfl⟩
    · cases passes
  · cases passes

end SchedulerSystem

/-! ## The invariant -/

/-- Every row goes back to a job that a client has enqueued or a tick has
created, and the former keep their keys. -/
structure SharedInvariant (nextOccurrence : String -> String -> Int -> Option Int)
    (run : SharedRun) : Prop where
  accounted : run.state.Accounted nextOccurrence (SharedRun.scheduled run.history)
  kept : forall jobs job, .enqueued jobs ∈ run.history -> job ∈ jobs ->
    Exists fun row : JobRow => row ∈ run.state.db.job.rows ∧ job.SameKeys row
  apart : forall jobs job due made, .enqueued jobs ∈ run.history -> job ∈ jobs ->
    .created due made ∈ SharedRun.scheduled run.history -> job.id ≠ made.id
  origin : forall row, row ∈ run.state.db.job.rows ->
    (Exists fun jobs : List JobRow => Exists fun job : JobRow =>
      .enqueued jobs ∈ run.history ∧ job ∈ jobs ∧ job.SameKeys row) ∨
    (Exists fun due : DueScheduleRow => Exists fun made : JobRow =>
      .created due made ∈ SharedRun.scheduled run.history ∧ made.id = row.id)

namespace SharedInvariant

variable {nextOccurrence : String -> String -> Int -> Option Int} {run : SharedRun}
  {label : SharedLabel}

theorem start (partitions : List ArchivePartition) (config : QueueConfigTable)
    (schedules : ScheduleTable) (clock : Timestamp) :
    SharedInvariant nextOccurrence (.start partitions config schedules clock) where
  accounted := .start nextOccurrence _ schedules clock
  kept := fun _ _ member => absurd member List.not_mem_nil
  apart := fun _ _ _ _ member => absurd member List.not_mem_nil
  origin := fun _ member => absurd member List.not_mem_nil

/-- The id of an enqueued job has been drawn. -/
theorem below (invariant : SharedInvariant nextOccurrence run) {jobs : List JobRow} {job : JobRow}
    (enqueued : .enqueued jobs ∈ run.history) (member : job ∈ jobs) :
    job.id < run.state.db.nextId := by
  rcases invariant.kept jobs job enqueued member with ⟨row, present, same⟩
  rw [← same.id]
  exact run.state.db.identity row present

/-- A client has inserted. -/
theorem enqueued (invariant : SharedInvariant nextOccurrence run) {next : Database}
    {jobs : List JobRow} (ext : run.state.db.Extends next jobs) :
    SharedInvariant nextOccurrence
      ⟨{ run.state with db := next }, .enqueued jobs :: run.history⟩ where
  accounted := invariant.accounted.extends ext (fun _ listed => listed)
  kept := by
    intro others job event member
    rcases List.mem_cons.mp event with same | earlier
    · cases same
      exact ⟨job, ext.present job member, .refl job⟩
    · rcases invariant.kept others job earlier member with ⟨row, present, same⟩
      rcases ext.kept row present with ⟨new, newMem, still⟩
      exact ⟨new, newMem, same.trans still⟩
  apart := by
    intro others job due made event member created
    rcases List.mem_cons.mp event with same | earlier
    · cases same
      have fresh := ext.fresh job member
      have drawn := CreatedFor.below (invariant.accounted.created due made created)
      omega
    · exact invariant.apart others job due made earlier member created
  origin := by
    intro row member
    rcases ext.origin row member with ⟨old, present, same⟩ | new
    · rcases invariant.origin old present with
        ⟨others, job, event, listed, isOld⟩ | ⟨due, made, created, isOld⟩
      · exact Or.inl ⟨others, job, List.mem_cons_of_mem _ event, listed, isOld.trans same⟩
      · exact Or.inr ⟨due, made, created, isOld.trans same.id.symm⟩
    · exact Or.inl ⟨jobs, row, List.mem_cons_self, new, .refl row⟩

/-- A client inserts, or fails to. -/
theorem step_insert (invariant : SharedInvariant nextOccurrence run) {now : Timestamp}
    {statement : Statement} (inserts : statement.isInsert = true)
    (moves : run.state.sharedStep nextOccurrence label =
      { run.state with db := run.state.db.step ⟨now, statement⟩ })
    (records : run.state.sharedEvent label =
      (run.state.db.commit ⟨now, statement⟩).map (fun commit => .enqueued commit.rows)) :
    SharedInvariant nextOccurrence (run.step nextOccurrence label) := by
  unfold SharedRun.step recordStep
  rw [moves, records]
  unfold Database.step Database.commit
  dsimp only
  cases executed : statement.exec now run.state.db with
  | error error => exact invariant
  | ok reply => exact invariant.enqueued (insert_statement_extends inserts executed)

/-- The scheduler takes a step. -/
theorem step_scheduler (invariant : SharedInvariant nextOccurrence run)
    (step : SchedulerLabel) :
    SharedInvariant nextOccurrence (run.step nextOccurrence (.scheduler step)) := by
  rcases @run.state.step_adds nextOccurrence step with ⟨added, adds⟩
  have scheduled : SharedRun.scheduled (run.step nextOccurrence (.scheduler step)).history =
      (run.state.event step).toList ++ SharedRun.scheduled run.history := by
    show SharedRun.scheduled (((run.state.event step).map _).toList ++ run.history) = _
    cases run.state.event step with
    | none => rfl
    | some event => rfl
  have enqueuedBefore : forall jobs,
      .enqueued jobs ∈ (run.step nextOccurrence (.scheduler step)).history ->
        .enqueued jobs ∈ run.history := by
    intro jobs member
    have listed : .enqueued jobs ∈ ((run.state.event step).map (fun event =>
        SharedEvent.scheduled event (run.state.passes step).isSome)).toList ++ run.history := member
    rcases List.mem_append.mp listed with new | earlier
    · rcases Option.map_eq_some_iff.mp (Option.mem_toList.mp new) with ⟨_, _, impossible⟩
      cases impossible
    · exact earlier
  have createdNow : forall due made,
      .created due made ∈ SharedRun.scheduled (run.step nextOccurrence (.scheduler step)).history ->
        run.state.event step = some (.created due made) ∨
          .created due made ∈ SharedRun.scheduled run.history := by
    intro due made member
    rw [scheduled] at member
    rcases List.mem_append.mp member with new | earlier
    · exact Or.inl (Option.mem_toList.mp new)
    · exact Or.inr earlier
  refine ⟨?_, ?_, ?_, ?_⟩
  · rw [scheduled]
    exact invariant.accounted.step step
  · intro jobs job event member
    rcases invariant.kept jobs job (enqueuedBefore jobs event) member with ⟨row, present, same⟩
    rcases adds.ext.kept row present with ⟨new, newMem, still⟩
    exact ⟨new, newMem, same.trans still⟩
  · intro jobs job due made event member created
    rcases createdNow due made created with new | earlier
    · have fresh := adds.ext.fresh made ((adds.created made).mpr ⟨due, new⟩)
      have drawn := invariant.below (enqueuedBefore jobs event) member
      omega
    · exact invariant.apart jobs job due made (enqueuedBefore jobs event) member earlier
  · intro row member
    rcases adds.ext.origin row member with ⟨old, present, same⟩ | new
    · rcases invariant.origin old present with
        ⟨others, job, event, listed, isOld⟩ | ⟨due, made, created, isOld⟩
      · exact Or.inl ⟨others, job, List.mem_append_right _ event, listed, isOld.trans same⟩
      · refine Or.inr ⟨due, made, ?_, isOld.trans same.id.symm⟩
        rw [scheduled]
        exact List.mem_append_right _ created
    · rcases (adds.created row).mp new with ⟨due, created⟩
      refine Or.inr ⟨due, row, ?_, rfl⟩
      rw [scheduled, created]
      exact List.mem_cons_self

theorem step (invariant : SharedInvariant nextOccurrence run) (label : SharedLabel) :
    SharedInvariant nextOccurrence (run.step nextOccurrence label) := by
  cases label with
  | scheduler step => exact invariant.step_scheduler step
  | enqueue now row =>
      exact @step_insert _ run (.enqueue now row) invariant now (.insertJob row.row) rfl rfl rfl
  | enqueueBatch now rows =>
      exact @step_insert _ run (.enqueueBatch now rows) invariant now
        (.insertJobsBatch (rows.map ClientRow.row)) rfl rfl rfl

/-- The occurrence that is passed has a job of its schedule exactly when no job
of a client has its key. -/
theorem created_iff_unclaimed (invariant : SharedInvariant nextOccurrence run)
    {step : SchedulerLabel} {due : DueScheduleRow} (passes : run.state.passes step = some due) :
    OccurrenceCreated run.history due <->
      forall jobs job, .enqueued jobs ∈ run.history -> job ∈ jobs -> job.queue = due.queue ->
        job.idempotencyKey ≠ occurrenceKey due.id due.plannedFor := by
  rcases (SchedulerSystem.event_of_passes passes).1 with ⟨index, call, present, isHeld, knows⟩
  have listed := invariant.accounted.listed index call present due isHeld
  rcases knows _ _ (invariant.accounted.knows index call present) with ⟨key, isKey, id, holds⟩
  constructor
  · rintro ⟨made, job, created, sameId, samePlan, _⟩ jobs other event member sameQueue sameKey
    have createdFor := invariant.accounted.created made job created
    rcases createdFor.keyed with ⟨madeKey, isMade, madeHolds⟩
    rw [sameId, samePlan, isKey] at isMade
    cases isMade
    rw [createdFor.listed.queue listed sameId] at madeHolds
    rcases invariant.kept jobs other event member with ⟨row, rowMem, same⟩
    have otherHolds : run.state.db.HoldsKey due.queue key other.id :=
      ⟨row, rowMem, same.id, same.queue.trans sameQueue,
        same.idempotencyKey.trans (sameKey.trans isKey)⟩
    exact invariant.apart jobs other made job event member created
      (otherHolds.unique madeHolds)
  · intro unclaimed
    rcases holds with ⟨row, rowMem, _, rowQueue, rowKey⟩
    rcases invariant.origin row rowMem with
      ⟨jobs, job, event, member, same⟩ | ⟨made, job, created, isRow⟩
    · refine absurd ?_ (unclaimed jobs job event member (same.queue.symm.trans rowQueue))
      rw [isKey, ← rowKey, same.idempotencyKey]
    · rcases (invariant.accounted.created made job created).keyed with
        ⟨madeKey, isMade, other, otherMem, otherId, _, otherKey⟩
      have sameRow : other = row :=
        run.state.db.job.eq_of_id otherMem rowMem (otherId.trans isRow)
      rw [sameRow, rowKey] at otherKey
      cases otherKey
      have same := occurrenceKey_inj isMade isKey
      refine ⟨made, job, created, same.1, same.2, ?_⟩
      rw [(invariant.accounted.jobs made job created).scheduleId, same.1]

/-- A step is recorded lawfully exactly when it meets the condition. -/
theorem unsuppressed_iff (invariant : SharedInvariant nextOccurrence run) (label : SharedLabel) :
    (forall event, run.state.sharedEvent label = some event ->
      event.Unsuppressed run.history) <-> KeyUnclaimed run label := by
  constructor
  · rintro lawful step due rfl passes
    rcases (SchedulerSystem.event_of_passes passes).2 with ⟨db, before, next, advances⟩
    apply (invariant.created_iff_unclaimed passes).mp
    have recorded : run.state.sharedEvent (.scheduler step) =
        some (.scheduled (.advanced due .fired db before next) true) := by
      unfold SchedulerSystem.sharedEvent
      dsimp only
      rw [advances, passes]
      rfl
    exact lawful _ recorded
  · intro unclaimed event recorded
    cases label with
    | scheduler step =>
        unfold SchedulerSystem.sharedEvent at recorded
        rcases Option.map_eq_some_iff.mp recorded with ⟨happened, isEvent, rfl⟩
        cases passes : run.state.passes step with
        | none => cases happened <;> exact trivial
        | some due =>
            rcases (SchedulerSystem.event_of_passes passes).2 with ⟨db, before, next, advances⟩
            rw [advances] at isEvent
            cases isEvent
            exact (invariant.created_iff_unclaimed passes).mpr (unclaimed step due rfl passes)
    | enqueue now row =>
        rcases Option.map_eq_some_iff.mp recorded with ⟨commit, _, rfl⟩
        exact trivial
    | enqueueBatch now rows =>
        rcases Option.map_eq_some_iff.mp recorded with ⟨commit, _, rfl⟩
        exact trivial

end SharedInvariant

/-! ## Runs -/

/-- In a run of ticks and client enqueues from an empty job table, every
schedule that advances past a deduplicated occurrence has a job for it, exactly
when no client has enqueued a job with the key of an occurrence that a tick
comes to afterwards. -/
theorem occurrences_unsuppressed_iff (nextOccurrence : String -> String -> Int -> Option Int)
    (partitions : List ArchivePartition) (config : QueueConfigTable) (schedules : ScheduleTable)
    (clock : Timestamp) (labels : List SharedLabel) :
    Always (SharedRun.step nextOccurrence)
        (fun run => EachEvent SharedEvent.Unsuppressed run.history)
        (.start partitions config schedules clock) labels <->
      EachStep (SharedRun.step nextOccurrence) KeyUnclaimed
        (.start partitions config schedules clock) labels := by
  apply @always_iff_eachStep _ _ (SharedRun.step nextOccurrence) (fun run =>
    SharedInvariant nextOccurrence run ∧ EachEvent SharedEvent.Unsuppressed run.history)
  · exact fun run invariant => invariant.2
  · intro run label invariant unclaimed
    exact ⟨invariant.1.step label, eachEvent_recordStep.mpr
      ⟨(invariant.1.unsuppressed_iff label).mpr unclaimed, invariant.2⟩⟩
  · intro run label invariant claimed lawful
    exact claimed ((invariant.1.unsuppressed_iff label).mp (eachEvent_recordStep.mp lawful).1)
  · exact ⟨.start partitions config schedules clock, trivial⟩

/-- A job of a client whose key is that of the occurrence. -/
def guessedKey : ClientRow where
  row := {
    queue := "mail"
    type := "send"
    payload := "\x7b\x7d"
    metadata := none
    priority := 0
    maxAttempts := 5
    leaseSeconds := 30
    runAt := none
    idempotencyKey := some "sched:1:1970-01-01T00:00:00.000Z"
    uniqueKey := none
    traceContext := none
    scheduleId := none }
  built := ⟨plainClient, .empty [] .empty, "mail", "send", "\x7b\x7d",
    plainOptions (some "sched:1:1970-01-01T00:00:00.000Z") none, newClient, _, rfl⟩

/-- A client enqueues the job before the schedule is due, and a tick is taken to
its end. -/
def shadowedTick : List SharedLabel :=
  [.enqueue 0 guessedKey, .scheduler (.tick 0 10), .scheduler (.execute 0 (seconds 1) []),
    .scheduler (.resume 0 (seconds 1)), .scheduler (.execute 0 (seconds 1) []),
    .scheduler (.execute 0 (seconds 1) [])]

/-- The schedule has moved on to the second hour, and no job of a schedule
exists. -/
theorem shadowedTick_suppresses :
    let last := run (SharedRun.step everyHour) (.start [] .empty dueMail 0) shadowedTick
    (last.state.schedules.find 1).map ScheduleRow.nextRunAt = some (seconds 3601) ∧
      last.state.db.job.rows.map JobRow.scheduleId = [none] ∧
      Not (Always (SharedRun.step everyHour)
        (fun run => EachEvent SharedEvent.Unsuppressed run.history)
        (.start [] .empty dueMail 0) shadowedTick) := by
  refine ⟨by decide, by decide, ?_⟩
  intro always
  have atEnd : EachEvent SharedEvent.Unsuppressed _ :=
    (always_iff_forall_initial _ _ _ _).mp always shadowedTick List.prefix_rfl
  rcases atEnd.1 with ⟨made, job, created, _⟩
  have claimedOnly : SchedulerEvent.created made job ∈ [SchedulerEvent.claimed 0] := created
  cases List.mem_singleton.mp claimedOnly

end PgJobQ
