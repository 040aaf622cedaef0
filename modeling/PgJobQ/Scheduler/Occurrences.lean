import PgJobQ.Client.ConcurrentEnqueue
import PgJobQ.Scheduler.Tick

/-!
# One job for each occurrence

The row locks of a claim do not last until the insert, so several ticks can
hold the same occurrence.  What keeps them from firing it twice is the key: it
is made from the schedule and the planned time, different occurrences have
different keys, and the index on idempotency keys never lets go of one.  What
keeps a crash from dropping an occurrence is the order: the schedule is advanced
after the insert, and nothing else moves its next occurrence.
-/

namespace PgJobQ

open Runs

/-- The job of the occurrence is in the table. -/
def Materialized (db : Database) (due : DueScheduleRow) : Prop :=
  Exists fun key : String => occurrenceKey due.id due.plannedFor = some key ∧
    Exists fun id : Nat => db.HoldsKey due.queue key id

/-- The job of an occurrence, as it is inserted. -/
structure OccurrenceJob (due : DueScheduleRow) (job : JobRow) : Prop where
  queue : job.queue = due.queue
  type : job.type = due.type
  payload : job.payload = due.payload
  scheduleId : job.scheduleId = some due.id
  idempotencyKey : job.idempotencyKey = occurrenceKey due.id due.plannedFor
  waiting : job.state = .available

/-- A job of the schedule has been created for the occurrence, or the table had
one at the start. -/
def OccurrenceFired (start : Database) (older : List SchedulerEvent) (due : DueScheduleRow) :
    Prop :=
  (Exists fun made : DueScheduleRow => Exists fun job : JobRow =>
    .created made job ∈ older ∧ made.id = due.id ∧ made.plannedFor = due.plannedFor ∧
      OccurrenceJob made job) ∨
    Exists fun row : JobRow => row ∈ start.job.rows ∧ row.queue = due.queue ∧
      row.scheduleId = some due.id ∧ row.idempotencyKey ≠ none ∧
        row.idempotencyKey = occurrenceKey due.id due.plannedFor

/-- An advance comes after the job of its occurrence, unless the occurrence is
stale under `skip_missed` or the cron expression is rejected. -/
def SchedulerEvent.Fired (nextOccurrence : String -> String -> Int -> Option Int)
    (start : Database) (older : List SchedulerEvent) : SchedulerEvent -> Prop
  | advanced due .fired _ _ _ => OccurrenceFired start older due
  | advanced due (.skipped clock) _ _ _ =>
      due.catchupPolicy = .skipMissed ∧ 3600 * 1000 < clock - due.plannedFor
  | advanced due (.deferred clock) _ _ _ => nextOccurrence due.cron due.timezone clock = none
  | _ => True

/-- The occurrences jobs have been created for, newest first. -/
def createdOccurrences : List SchedulerEvent -> List (DueScheduleRow × JobRow)
  | [] => []
  | .created due job :: events => (due, job) :: createdOccurrences events
  | _ :: events => createdOccurrences events

/-- The next occurrence of a schedule changes only when a tick that holds it
advances it, or when it is resumed. -/
def MovesByAdvance (nextOccurrence : String -> String -> Int -> Option Int) (run : SchedulerRun)
    (label : SchedulerLabel) : Prop :=
  forall id, (((run.step nextOccurrence label).state.schedules.find id).map
      ScheduleRow.nextRunAt) ≠ (run.state.schedules.find id).map ScheduleRow.nextRunAt ->
    Exists fun index : Nat => Exists fun now : Timestamp => Exists fun locked : List Nat =>
      label = .execute index now locked ∧
        ((Exists fun due : DueScheduleRow => Exists fun nextRunAt : Int =>
            Exists fun jobId : Option Nat => Exists fun kind : AdvanceKind =>
              Exists fun rest : List DueScheduleRow => due.id = id ∧
                run.state.calls index = some (.advancing due nextRunAt jobId kind rest)) ∨
          Exists fun enabled : Bool => Exists fun nextRunAt : Int =>
            run.state.calls index = some (.writing id enabled (some nextRunAt)))

/-! ## What a call knows -/

/-- The schedule the row was claimed from. -/
def Listed (schedules : ScheduleTable) (due : DueScheduleRow) : Prop :=
  Exists fun row : ScheduleRow => row ∈ schedules.rows ∧ row.id = due.id ∧ row.queue = due.queue

theorem Listed.update {schedules : ScheduleTable} {due : DueScheduleRow}
    (listed : Listed schedules due) (hits : ScheduleRow -> Bool) (change : ScheduleChange) :
    Listed (schedules.update hits change) due := by
  rcases listed with ⟨row, member, sameId, sameQueue⟩
  exact ⟨_, List.mem_map_of_mem member, (ScheduleTable.rewrite_id hits change row).trans sameId,
    (ScheduleTable.rewrite_queue hits change row).trans sameQueue⟩

/-- A schedule has one queue. -/
theorem Listed.queue {schedules : ScheduleTable} {due other : DueScheduleRow}
    (listed : Listed schedules due) (otherListed : Listed schedules other)
    (same : due.id = other.id) : due.queue = other.queue := by
  rcases listed with ⟨row, member, rowId, rowQueue⟩
  rcases otherListed with ⟨row', member', rowId', rowQueue'⟩
  have isRow := schedules.primaryKey.eq_of_key member member' rfl
    (congrArg some (rowId'.trans (same.symm.trans rowId.symm)))
  rw [← rowQueue, ← rowQueue', isRow]

theorem Materialized.extends {db next : Database} {added : List JobRow} {due : DueScheduleRow}
    (materialized : Materialized db due) (ext : db.Extends next added) : Materialized next due := by
  rcases materialized with ⟨key, isKey, id, holds⟩
  exact ⟨key, isKey, id, ext.holdsKey holds⟩

/-- What holds of a call in each of its phases. -/
def SchedulerCall.Knows (nextOccurrence : String -> String -> Int -> Option Int) (db : Database) :
    SchedulerCall -> Prop
  | inserting row key _ _ => occurrenceKey row.id row.plannedFor = some key
  | advancing row _ _ .fired _ => Materialized db row
  | advancing row _ _ (.skipped clock) _ =>
      row.catchupPolicy = .skipMissed ∧ 3600 * 1000 < clock - row.plannedFor
  | advancing row _ _ (.deferred clock) _ => nextOccurrence row.cron row.timezone clock = none
  | _ => True

namespace SchedulerCall

variable {nextOccurrence : String -> String -> Int -> Option Int}

theorem Knows.extends {db next : Database} {added : List JobRow} {call : SchedulerCall}
    (knows : call.Knows nextOccurrence db) (ext : db.Extends next added) :
    call.Knows nextOccurrence next := by
  cases call with
  | advancing row nextRunAt jobId kind rest =>
      cases kind with
      | fired => exact Materialized.extends knows ext
      | skipped clock => exact knows
      | deferred clock => exact knows
  | inserting row key nextRunAt rest => exact knows
  | _ => exact trivial

theorem knows_take (db : Database) (clock : Int) (rest : List DueScheduleRow) :
    (take nextOccurrence clock rest).Knows nextOccurrence db := by
  cases rest with
  | nil => exact trivial
  | cons row rest =>
      unfold take
      dsimp only
      split
      · exact trivial
      · rename_i key isKey
        split
        · rename_i rejected
          exact rejected
        · split
          · exact isKey
          · rename_i stale
            unfold DueScheduleRow.shouldFire at stale
            have tests := Bool.and_eq_true_iff.mp (by simpa only [Bool.not_eq_true', Bool.not_eq_true,
              Bool.not_eq_false] using stale)
            exact ⟨eq_of_beq tests.1, of_decide_eq_true tests.2⟩

theorem knows_resume {db : Database} {call : SchedulerCall}
    (knows : call.Knows nextOccurrence db) (clock : Int) :
    (call.resume nextOccurrence clock).Knows nextOccurrence db := by
  cases call with
  | taking rest => exact knows_take db clock rest
  | computing existing enabled =>
      unfold resume
      dsimp only
      split
      · split
        · exact trivial
        · exact trivial
      · exact trivial
  | _ => exact knows

theorem held_take (clock : Int) (rest : List DueScheduleRow) :
    (take nextOccurrence clock rest).held ⊆ rest := by
  cases rest with
  | nil => exact List.Subset.refl _
  | cons row rest =>
      unfold take
      dsimp only
      split
      · exact List.nil_subset _
      · split
        · exact List.Subset.refl _
        · split
          · exact List.Subset.refl _
          · exact List.Subset.refl _

theorem held_resume (clock : Int) (call : SchedulerCall) :
    (call.resume nextOccurrence clock).held ⊆ call.held := by
  cases call with
  | taking rest => exact held_take clock rest
  | computing existing enabled =>
      unfold resume
      dsimp only
      split
      · split
        · exact List.Subset.refl _
        · exact List.Subset.refl _
      · exact List.Subset.refl _
  | _ => exact List.Subset.refl _

end SchedulerCall

/-! ## What a statement does -/

theorem insertJob_extends {row : EnqueueRow} {now : Timestamp} {db : Database} {reply : Reply}
    (inserted : insertJob row now db = .ok reply) :
    Exists fun added : List JobRow => db.Extends reply.db added := by
  rcases insertJob_cases inserted with ⟨_, same, _⟩ | ⟨_, appended⟩
  · exact ⟨[], .of_same same⟩
  · exact ⟨_, .of_append (Nat.le_refl db.nextId) appended⟩

/-- After the insert the job of the occurrence is there, whoever put it there. -/
theorem insertJob_materialized {row : DueScheduleRow} {key : String} {now : Timestamp}
    {db : Database} {reply : Reply} (isKey : occurrenceKey row.id row.plannedFor = some key)
    (inserted : insertJob (row.occurrence key) now db = .ok reply) :
    Materialized reply.db row := by
  refine ⟨key, isKey, ?_⟩
  rcases insertJob_cases inserted with ⟨_, same, taken⟩ | ⟨_, appended⟩
  · rcases holder_of_taken taken rfl with ⟨held, isHeld, id, holds⟩
    cases isHeld
    have ext : db.Extends reply.db [] := .of_same same
    exact ⟨id, ext.holdsKey holds⟩
  · refine ⟨db.nextId, (row.occurrence key).toJobRow db.nextId now, ?_, rfl, rfl, rfl⟩
    rw [appended]
    exact List.mem_append_right _ (List.mem_singleton_self _)

/-- The job has been created for the occurrence. -/
structure CreatedFor (db : Database) (schedules : ScheduleTable) (due : DueScheduleRow)
    (job : JobRow) : Prop where
  listed : Listed schedules due
  keyed : Exists fun key : String => occurrenceKey due.id due.plannedFor = some key ∧
    db.HoldsKey due.queue key job.id

/-- Two jobs created for one occurrence are the same job. -/
theorem CreatedFor.unique {db : Database} {schedules : ScheduleTable} {due other : DueScheduleRow}
    {job second : JobRow} (one : CreatedFor db schedules due job)
    (two : CreatedFor db schedules other second) (sameId : due.id = other.id)
    (samePlan : due.plannedFor = other.plannedFor) : job.id = second.id := by
  rcases one.keyed with ⟨key, isKey, holds⟩
  rcases two.keyed with ⟨otherKey, isOther, otherHolds⟩
  rw [sameId, samePlan, isOther] at isKey
  cases isKey
  rw [one.listed.queue two.listed sameId] at holds
  exact holds.unique otherHolds

theorem CreatedFor.extends {db next : Database} {schedules after : ScheduleTable}
    {added : List JobRow} {due : DueScheduleRow} {job : JobRow}
    (made : CreatedFor db schedules due job) (ext : db.Extends next added)
    (keeps : forall row, Listed schedules row -> Listed after row) :
    CreatedFor next after due job := by
  rcases made.keyed with ⟨key, isKey, holds⟩
  exact ⟨keeps due made.listed, key, isKey, ext.holdsKey holds⟩

/-- The id of a created job has been drawn. -/
theorem CreatedFor.below {db : Database} {schedules : ScheduleTable} {due : DueScheduleRow}
    {job : JobRow} (made : CreatedFor db schedules due job) : job.id < db.nextId := by
  rcases made.keyed with ⟨key, _, row, member, sameId, _⟩
  rw [← sameId]
  exact db.identity row member

/-- What an event says about the tables after its statement.  A job that is
created has an id nobody had before. -/
def SchedulerEvent.Sound (before db : Database) (schedules : ScheduleTable)
    (event : SchedulerEvent) : Prop :=
  forall due job, event = .created due job ->
    CreatedFor db schedules due job ∧ OccurrenceJob due job ∧ before.nextId ≤ job.id

namespace SchedulerCall

variable {nextOccurrence : String -> String -> Int -> Option Int}

/-- No statement of the scheduler adds or removes a schedule. -/
theorem listed_execute {index : Nat} {now : Timestamp} {locked : List Nat} {db : Database}
    {schedules : ScheduleTable} {call : SchedulerCall} {due : DueScheduleRow}
    (listed : Listed schedules due) :
    Listed (call.execute index now locked db schedules).schedules due := by
  cases call with
  | claiming limit => exact listed.update _ _
  | advancing row nextRunAt jobId kind rest => exact listed.update _ _
  | writing id enabled nextRunAt => exact listed.update _ _
  | inserting row key nextRunAt rest =>
      unfold execute
      dsimp only
      split
      · exact listed
      · exact listed
  | reading id enabled =>
      unfold execute
      dsimp only
      split
      · exact listed
      · exact listed
  | taking rest => exact listed
  | computing existing enabled => exact listed
  | finished => exact listed

theorem execute_extends (index : Nat) (now : Timestamp) (locked : List Nat) (db : Database)
    (schedules : ScheduleTable) (call : SchedulerCall) :
    Exists fun added : List JobRow =>
      db.Extends (call.execute index now locked db schedules).db added := by
  cases call with
  | inserting row key nextRunAt rest =>
      unfold execute
      dsimp only
      split
      · rename_i reply inserted
        exact insertJob_extends inserted
      · exact ⟨[], .of_same rfl⟩
  | reading id enabled =>
      unfold execute
      dsimp only
      split
      · exact ⟨[], .of_same rfl⟩
      · exact ⟨[], .of_same rfl⟩
  | claiming limit => exact ⟨[], .of_same rfl⟩
  | advancing row nextRunAt jobId kind rest => exact ⟨[], .of_same rfl⟩
  | writing id enabled nextRunAt => exact ⟨[], .of_same rfl⟩
  | taking rest => exact ⟨[], .of_same rfl⟩
  | computing existing enabled => exact ⟨[], .of_same rfl⟩
  | finished => exact ⟨[], .of_same rfl⟩

/-- A row is held because it was held before, or because it has been claimed. -/
theorem listed_held {index : Nat} {now : Timestamp} {locked : List Nat} {db : Database}
    {schedules : ScheduleTable} {call : SchedulerCall}
    (listed : forall due, due ∈ call.held -> Listed schedules due) :
    forall due, due ∈ (call.execute index now locked db schedules).call.held ->
      Listed schedules due := by
  intro due member
  cases call with
  | claiming limit =>
      rcases List.mem_map.mp member with ⟨row, claimed, rfl⟩
      exact ⟨row, (List.mem_filter.mp claimed).1, rfl, rfl⟩
  | inserting row key nextRunAt rest =>
      unfold execute at member
      dsimp only at member
      split at member
      · exact listed due member
      · cases member
  | advancing row nextRunAt jobId kind rest => exact listed due (List.mem_cons_of_mem row member)
  | reading id enabled =>
      unfold execute at member
      dsimp only at member
      split at member
      · cases member
      · cases member
  | writing id enabled nextRunAt => cases member
  | taking rest => exact listed due member
  | computing existing enabled => cases member
  | finished => cases member

theorem knows_execute {index : Nat} {now : Timestamp} {locked : List Nat} {db : Database}
    {schedules : ScheduleTable} {call : SchedulerCall} (knows : call.Knows nextOccurrence db) :
    (call.execute index now locked db schedules).call.Knows nextOccurrence
      (call.execute index now locked db schedules).db := by
  cases call with
  | inserting row key nextRunAt rest =>
      unfold execute
      dsimp only
      split
      · rename_i reply inserted
        exact insertJob_materialized knows inserted
      · exact trivial
  | reading id enabled =>
      unfold execute
      dsimp only
      split
      · exact trivial
      · exact trivial
  | claiming limit => exact trivial
  | advancing row nextRunAt jobId kind rest => exact trivial
  | writing id enabled nextRunAt => exact trivial
  | taking rest => exact trivial
  | computing existing enabled => exact trivial
  | finished => exact trivial

theorem sound_execute {index : Nat} {now : Timestamp} {locked : List Nat} {db : Database}
    {schedules : ScheduleTable} {call : SchedulerCall} {event : SchedulerEvent}
    (knows : call.Knows nextOccurrence db)
    (listed : forall due, due ∈ call.held -> Listed schedules due)
    (happened : (call.execute index now locked db schedules).event = some event) :
    event.Sound db (call.execute index now locked db schedules).db
      (call.execute index now locked db schedules).schedules := by
  cases call with
  | claiming limit =>
      cases happened
      exact fun _ _ impossible => by cases impossible
  | inserting row key nextRunAt rest =>
      unfold execute at happened ⊢
      dsimp only at happened ⊢
      split at happened
      · rename_i reply inserted
        rcases insertJob_cases inserted with ⟨dropped, _, _⟩ | ⟨kept, appended⟩
        · rw [dropped] at happened
          cases happened
        · rw [kept] at happened
          cases happened
          dsimp only
          intro due job isEvent
          cases isEvent
          refine ⟨⟨listed row List.mem_cons_self, key, knows, _, ?_, rfl, rfl, rfl⟩,
            ⟨rfl, rfl, rfl, rfl, knows.symm, rfl⟩, Nat.le_refl db.nextId⟩
          rw [appended]
          exact List.mem_append_right _ (List.mem_singleton_self _)
      · cases happened
  | advancing row nextRunAt jobId kind rest =>
      cases happened
      exact fun _ _ impossible => by cases impossible
  | reading id enabled =>
      unfold execute at happened
      dsimp only at happened
      split at happened
      · cases happened
      · cases happened
  | writing id enabled nextRunAt =>
      rcases Option.map_eq_some_iff.mp happened with ⟨before, _, rfl⟩
      exact fun _ _ impossible => by cases impossible
  | taking rest => cases happened
  | computing existing enabled => cases happened
  | finished => cases happened

end SchedulerCall

/-! ## Along a run -/

theorem mem_createdOccurrences {due : DueScheduleRow} {job : JobRow}
    {events : List SchedulerEvent} :
    (due, job) ∈ createdOccurrences events <-> .created due job ∈ events := by
  induction events with
  | nil => exact ⟨fun impossible => absurd impossible List.not_mem_nil,
      fun impossible => absurd impossible List.not_mem_nil⟩
  | cons event events inductionHypothesis =>
      cases event with
      | created other made => simp [createdOccurrences, inductionHypothesis]
      | claimed call => simp [createdOccurrences, inductionHypothesis]
      | advanced other kind db before nextRunAt => simp [createdOccurrences, inductionHypothesis]
      | enabledSet before nextRunAt => simp [createdOccurrences, inductionHypothesis]

/-- The occurrence of a created job. -/
def createdFor (made : DueScheduleRow × JobRow) : Nat × Int := (made.1.id, made.1.plannedFor)

/-- Every call knows the truth, every job created for an occurrence still holds
its key, and no occurrence has two of them. -/
structure SchedulerSystem.Accounted
    (nextOccurrence : String -> String -> Int -> Option Int) (system : SchedulerSystem)
    (history : List SchedulerEvent) : Prop where
  listed : forall index call, system.calls index = some call -> forall due, due ∈ call.held ->
    Listed system.schedules due
  knows : forall index call, system.calls index = some call ->
    call.Knows nextOccurrence system.db
  created : forall due job, .created due job ∈ history ->
    CreatedFor system.db system.schedules due job
  jobs : forall due job, .created due job ∈ history -> OccurrenceJob due job
  once : ((createdOccurrences history).map createdFor).Nodup

namespace SchedulerSystem

variable {nextOccurrence : String -> String -> Int -> Option Int} {system : SchedulerSystem}
  {history : List SchedulerEvent}

theorem Accounted.start (nextOccurrence : String -> String -> Int -> Option Int) (db : Database)
    (schedules : ScheduleTable) (clock : Timestamp) :
    (start db schedules clock).Accounted nextOccurrence [] where
  listed := fun _ _ impossible => by cases impossible
  knows := fun _ _ impossible => by cases impossible
  created := fun _ _ member => absurd member List.not_mem_nil
  jobs := fun _ _ member => absurd member List.not_mem_nil
  once := List.nodup_nil

/-- The tables move on, and every call stays where it is. -/
theorem Accounted.extends {next : Database} {schedules : ScheduleTable} {added : List JobRow}
    {clock : Timestamp} (accounted : system.Accounted nextOccurrence history)
    (ext : system.db.Extends next added)
    (keeps : forall row, Listed system.schedules row -> Listed schedules row) :
    Accounted nextOccurrence ⟨next, schedules, system.calls, clock⟩ history where
  listed := fun index call present due member =>
    keeps due (accounted.listed index call present due member)
  knows := fun index call present => (accounted.knows index call present).extends ext
  created := fun due job member => CreatedFor.extends (accounted.created due job member) ext keeps
  jobs := accounted.jobs
  once := accounted.once

/-- One call moves, and the tables and the others stay where they are. -/
theorem Accounted.put (accounted : system.Accounted nextOccurrence history) (index : Nat)
    {call : SchedulerCall} (listed : forall due, due ∈ call.held -> Listed system.schedules due)
    (knows : call.Knows nextOccurrence system.db) :
    (system.put index call).Accounted nextOccurrence history := by
  refine ⟨?_, ?_, accounted.created, accounted.jobs, accounted.once⟩
  · intro other current present
    rcases put_cases present with ⟨_, rfl⟩ | ⟨_, elsewhere⟩
    · exact listed
    · exact accounted.listed other current elsewhere
  · intro other current present
    rcases put_cases present with ⟨_, rfl⟩ | ⟨_, elsewhere⟩
    · exact knows
    · exact accounted.knows other current elsewhere

/-- A sound event is recorded.  `before` is the database its statement has met. -/
theorem Accounted.record {before : Database} {event : SchedulerEvent}
    (accounted : system.Accounted nextOccurrence history)
    (sound : event.Sound before system.db system.schedules)
    (earlier : forall due job, .created due job ∈ history -> job.id < before.nextId) :
    system.Accounted nextOccurrence (event :: history) := by
  refine ⟨accounted.listed, accounted.knows, ?_, ?_, ?_⟩
  · intro due job member
    rcases List.mem_cons.mp member with same | old
    · exact (sound due job same.symm).1
    · exact accounted.created due job old
  · intro due job member
    rcases List.mem_cons.mp member with same | old
    · exact (sound due job same.symm).2.1
    · exact accounted.jobs due job old
  · cases event with
    | created due job =>
        have made := sound due job rfl
        apply List.nodup_cons.mpr
        refine ⟨fun taken => ?_, accounted.once⟩
        rcases List.mem_map.mp taken with ⟨⟨other, second⟩, member, same⟩
        have old := mem_createdOccurrences.mp member
        have sameId : other.id = due.id := congrArg Prod.fst same
        have samePlan : other.plannedFor = due.plannedFor := congrArg Prod.snd same
        have isJob := (accounted.created other second old).unique made.1 sameId samePlan
        have below := earlier other second old
        have fresh := made.2.2
        omega
    | claimed call => exact accounted.once
    | advanced due kind db found nextRunAt => exact accounted.once
    | enabledSet found nextRunAt => exact accounted.once

/-- One statement: the database moves, then the call, then the history. -/
theorem Accounted.execute (accounted : system.Accounted nextOccurrence history) (index : Nat)
    (now : Timestamp) (locked : List Nat) :
    (system.step nextOccurrence (.execute index now locked)).Accounted nextOccurrence
      ((system.event (.execute index now locked)).toList ++ history) := by
  cases present : system.calls index with
  | none =>
      simp only [step, event, present, Option.bind_none, Option.toList_none, List.nil_append]
      exact accounted
  | some call =>
      have listed := accounted.listed index call present
      have knows := accounted.knows index call present
      rcases call.execute_extends index now locked system.db system.schedules with ⟨added, ext⟩
      have moved : Accounted nextOccurrence
          ⟨(call.execute index now locked system.db system.schedules).db,
            (call.execute index now locked system.db system.schedules).schedules,
            system.calls, now⟩ history :=
        accounted.extends ext (fun due => SchedulerCall.listed_execute)
      have waiting := moved.put index
        (fun due member => SchedulerCall.listed_execute
          (SchedulerCall.listed_held listed due member)) (SchedulerCall.knows_execute knows)
      simp only [step, SchedulerSystem.event, present, Option.bind_some]
      cases happened : (call.execute index now locked system.db system.schedules).event with
      | none => exact waiting
      | some event =>
          exact waiting.record (SchedulerCall.sound_execute knows listed happened)
            (fun due job member => CreatedFor.below (accounted.created due job member))

theorem Accounted.begin (accounted : system.Accounted nextOccurrence history) (index : Nat)
    {call : SchedulerCall} (nothing : call.held = []) (knows : call.Knows nextOccurrence system.db) :
    (system.begin index call).Accounted nextOccurrence history := by
  unfold SchedulerSystem.begin
  split
  · apply accounted.put index _ knows
    intro due member
    rw [nothing] at member
    cases member
  · exact accounted

/-- Every step keeps the account. -/
theorem Accounted.step (accounted : system.Accounted nextOccurrence history)
    (label : SchedulerLabel) :
    (system.step nextOccurrence label).Accounted nextOccurrence
      ((system.event label).toList ++ history) := by
  cases label with
  | tick index limit => exact accounted.begin index rfl trivial
  | setEnabled index id enabled => exact accounted.begin index rfl trivial
  | execute index now locked => exact accounted.execute index now locked
  | resume index now =>
      cases present : system.calls index with
      | none =>
          simp only [SchedulerSystem.step, present]
          exact accounted
      | some call =>
          have ticked : Accounted nextOccurrence { system with clock := now } history :=
            accounted.extends (.of_same rfl) (fun _ listed => listed)
          simp only [SchedulerSystem.step, present]
          exact ticked.put index
            (fun due member => accounted.listed index call present due
              (SchedulerCall.held_resume (millis now) call member))
            (SchedulerCall.knows_resume (accounted.knows index call present) (millis now))
  | crash index =>
      cases present : system.calls index with
      | none =>
          simp only [SchedulerSystem.step, present]
          exact accounted
      | some call =>
          simp only [SchedulerSystem.step, present]
          exact accounted.put index (fun _ member => by cases member) trivial
  | job call =>
      simp only [SchedulerSystem.step]
      split
      · rename_i isUpdate
        rcases Option.isSome_iff_exists.mp isUpdate with ⟨mutation, isMutation⟩
        exact accounted.extends (.of_update isMutation) (fun _ listed => listed)
      · exact accounted

end SchedulerSystem

/-! ## What a step adds -/

/-- The jobs added to a database are those created by the event. -/
structure Adds (db next : Database) (event : Option SchedulerEvent) (added : List JobRow) :
    Prop where
  ext : db.Extends next added
  created : forall new, new ∈ added <->
    Exists fun due : DueScheduleRow => event = some (.created due new)

/-- A step that creates nothing and adds nothing. -/
theorem Adds.of_silent {db next : Database} {event : Option SchedulerEvent}
    (ext : db.Extends next []) (silent : forall due new, event ≠ some (.created due new)) :
    Adds db next event [] where
  ext := ext
  created := by
    intro new
    constructor
    · exact fun member => absurd member List.not_mem_nil
    · rintro ⟨due, created⟩
      exact absurd created (silent due new)

/-- A statement of a tick adds the job it has created. -/
theorem SchedulerCall.execute_adds (index : Nat) (now : Timestamp) (locked : List Nat)
    (db : Database) (schedules : ScheduleTable) (call : SchedulerCall) :
    Exists fun added : List JobRow => Adds db (call.execute index now locked db schedules).db
      (call.execute index now locked db schedules).event added := by
  cases call with
  | inserting row key nextRunAt rest =>
      unfold execute
      dsimp only
      cases inserted : insertJob (row.occurrence key) now db with
      | error error =>
          exact ⟨[], .of_silent (.of_same rfl) (fun _ _ impossible => by cases impossible)⟩
      | ok reply =>
          dsimp only
          rcases insertJob_cases inserted with ⟨dropped, same, _⟩ | ⟨returned, appended⟩
          · rw [dropped]
            exact ⟨[], .of_silent (.of_same same) (fun _ _ impossible => by cases impossible)⟩
          · rw [returned]
            refine ⟨_, .of_append (Nat.le_refl _) appended, fun new => ?_⟩
            rw [List.mem_singleton]
            constructor
            · rintro rfl
              exact ⟨row, rfl⟩
            · rintro ⟨due, created⟩
              cases created
              rfl
  | reading id enabled =>
      unfold execute
      dsimp only
      split
      · exact ⟨[], .of_silent (.of_same rfl) (fun _ _ impossible => by cases impossible)⟩
      · exact ⟨[], .of_silent (.of_same rfl) (fun _ _ impossible => by cases impossible)⟩
  | writing id enabled nextRunAt =>
      refine ⟨[], .of_silent (.of_same rfl) ?_⟩
      intro due new created
      rcases Option.map_eq_some_iff.mp created with ⟨before, _, impossible⟩
      cases impossible
  | _ => exact ⟨[], .of_silent (.of_same rfl) (fun _ _ impossible => by cases impossible)⟩

namespace SchedulerSystem

variable {nextOccurrence : String -> String -> Int -> Option Int}

/-- A step of the scheduler adds the job it has created. -/
theorem step_adds (system : SchedulerSystem) (label : SchedulerLabel) :
    Exists fun added : List JobRow =>
      Adds system.db (system.step nextOccurrence label).db (system.event label) added := by
  have nothing : forall {next : SchedulerSystem}, next.db.job = system.db.job ->
      system.event label = none -> Exists fun added : List JobRow =>
        Adds system.db next.db (system.event label) added := by
    intro next same silent
    rw [silent]
    exact ⟨[], .of_silent (.of_same same) (fun _ _ impossible => by cases impossible)⟩
  cases label with
  | tick index limit =>
      apply nothing _ rfl
      unfold step begin
      dsimp only
      split <;> rfl
  | setEnabled index id enabled =>
      apply nothing _ rfl
      unfold step begin
      dsimp only
      split <;> rfl
  | execute index now locked =>
      cases present : system.calls index with
      | none =>
          apply nothing
          · simp only [step, present]
          · simp only [event, present, Option.bind_none]
      | some call =>
          simp only [step, event, present, Option.bind_some]
          exact call.execute_adds index now locked system.db system.schedules
  | resume index now =>
      apply nothing _ rfl
      unfold step
      dsimp only
      split <;> rfl
  | crash index =>
      apply nothing _ rfl
      unfold step
      dsimp only
      split <;> rfl
  | job call =>
      unfold step
      dsimp only
      split
      · rename_i isUpdate
        rcases Option.isSome_iff_exists.mp isUpdate with ⟨mutation, isMutation⟩
        exact ⟨[], .of_silent (.of_update isMutation) (fun _ _ impossible => by cases impossible)⟩
      · exact nothing rfl rfl

end SchedulerSystem

/-! ## Where the jobs come from -/

/-- Nobody but a schedule has created a job under the key of an occurrence of
it. -/
def OccurrenceKeysOwned (db : Database) : Prop :=
  forall row, row ∈ db.job.rows -> forall id planned key, occurrenceKey id planned = some key ->
    row.idempotencyKey = some key -> row.scheduleId = some id

/-- Every row goes back to a row of the start or to a job that a tick has
created, and an advance comes after one of them. -/
structure SchedulerRun.Traced (nextOccurrence : String -> String -> Int -> Option Int)
    (start : Database) (run : SchedulerRun) : Prop where
  accounted : run.state.Accounted nextOccurrence run.history
  kept : forall first, first ∈ start.job.rows ->
    Exists fun row : JobRow => row ∈ run.state.db.job.rows ∧ first.SameKeys row
  apart : forall first due made, first ∈ start.job.rows -> .created due made ∈ run.history ->
    first.id ≠ made.id
  origin : forall row, row ∈ run.state.db.job.rows ->
    (Exists fun first : JobRow => first ∈ start.job.rows ∧ first.SameKeys row) ∨
    (Exists fun due : DueScheduleRow => Exists fun made : JobRow =>
      .created due made ∈ run.history ∧ made.id = row.id)
  fired : EachEvent (SchedulerEvent.Fired nextOccurrence start) run.history

namespace SchedulerRun

variable {nextOccurrence : String -> String -> Int -> Option Int} {initial : Database}
  {run : SchedulerRun}

theorem Traced.start (nextOccurrence : String -> String -> Int -> Option Int) (db : Database)
    (schedules : ScheduleTable) (clock : Timestamp) :
    Traced nextOccurrence db (.start db schedules clock) where
  accounted := .start nextOccurrence db schedules clock
  kept := fun first member => ⟨first, member, .refl first⟩
  apart := fun _ _ _ _ member => absurd member List.not_mem_nil
  origin := fun row member => Or.inl ⟨row, member, .refl row⟩
  fired := trivial

/-- The job of an occurrence that is in the table has been created for it, or
was there at the start. -/
theorem Traced.occurrenceFired (traced : Traced nextOccurrence initial run)
    (owned : OccurrenceKeysOwned initial) {due : DueScheduleRow}
    (materialized : Materialized run.state.db due) : OccurrenceFired initial run.history due := by
  rcases materialized with ⟨key, isKey, id, row, member, _, rowQueue, rowKey⟩
  rcases traced.origin row member with ⟨first, firstMem, same⟩ | ⟨made, job, created, isRow⟩
  · have firstKey : first.idempotencyKey = some key := same.idempotencyKey.symm.trans rowKey
    refine Or.inr ⟨first, firstMem, same.queue.symm.trans rowQueue,
      owned first firstMem _ _ _ isKey firstKey, ?_, firstKey.trans isKey.symm⟩
    rw [firstKey]
    exact Option.some_ne_none key
  · rcases (traced.accounted.created made job created).keyed with
      ⟨madeKey, isMade, other, otherMem, otherId, _, otherKey⟩
    have sameRow : other = row := run.state.db.job.eq_of_id otherMem member (otherId.trans isRow)
    rw [sameRow, rowKey] at otherKey
    cases otherKey
    have same := occurrenceKey_inj isMade isKey
    exact Or.inl ⟨made, job, created, same.1, same.2, traced.accounted.jobs made job created⟩

/-- The event of a step is what the call that takes it knows. -/
theorem Traced.fires (traced : Traced nextOccurrence initial run)
    (owned : OccurrenceKeysOwned initial) {label : SchedulerLabel} {event : SchedulerEvent}
    (happened : run.state.event label = some event) :
    event.Fired nextOccurrence initial run.history := by
  cases label with
  | execute index now locked =>
      rcases Option.bind_eq_some_iff.mp happened with ⟨call, present, executed⟩
      have knows := traced.accounted.knows index call present
      cases call with
      | advancing row nextRunAt jobId kind rest =>
          cases executed
          cases kind with
          | fired => exact traced.occurrenceFired owned knows
          | skipped clock => exact knows
          | deferred clock => exact knows
      | claiming limit =>
          cases executed
          exact trivial
      | inserting row key nextRunAt rest =>
          unfold SchedulerCall.execute at executed
          dsimp only at executed
          split at executed
          · rcases Option.map_eq_some_iff.mp executed with ⟨job, _, rfl⟩
            exact trivial
          · cases executed
      | reading id enabled =>
          unfold SchedulerCall.execute at executed
          dsimp only at executed
          split at executed <;> cases executed
      | writing id enabled nextRunAt =>
          rcases Option.map_eq_some_iff.mp executed with ⟨before, _, rfl⟩
          exact trivial
      | taking rest => cases executed
      | computing existing enabled => cases executed
      | finished => cases executed
  | _ => cases happened

theorem Traced.step (traced : Traced nextOccurrence initial run)
    (owned : OccurrenceKeysOwned initial) (label : SchedulerLabel) :
    Traced nextOccurrence initial (run.step nextOccurrence label) := by
  rcases @run.state.step_adds nextOccurrence label with ⟨added, adds⟩
  have createdNow : forall due made,
      .created due made ∈ (run.step nextOccurrence label).history ->
        run.state.event label = some (.created due made) ∨ .created due made ∈ run.history := by
    intro due made member
    rcases List.mem_append.mp member with new | earlier
    · exact Or.inl (Option.mem_toList.mp new)
    · exact Or.inr earlier
  refine ⟨traced.accounted.step label, ?_, ?_, ?_, ?_⟩
  · intro first member
    rcases traced.kept first member with ⟨row, present, same⟩
    rcases adds.ext.kept row present with ⟨new, newMem, still⟩
    exact ⟨new, newMem, same.trans still⟩
  · intro first due made member created
    rcases createdNow due made created with new | earlier
    · rcases traced.kept first member with ⟨row, present, same⟩
      have drawn := run.state.db.identity row present
      have fresh := adds.ext.fresh made ((adds.created made).mpr ⟨due, new⟩)
      have sameId := same.id
      omega
    · exact traced.apart first due made member earlier
  · intro row member
    rcases adds.ext.origin row member with ⟨old, present, same⟩ | new
    · rcases traced.origin old present with ⟨first, firstMem, isOld⟩ | ⟨due, made, created, isOld⟩
      · exact Or.inl ⟨first, firstMem, isOld.trans same⟩
      · exact Or.inr ⟨due, made, List.mem_append_right _ created, isOld.trans same.id.symm⟩
    · rcases (adds.created row).mp new with ⟨due, created⟩
      exact Or.inr ⟨due, row, List.mem_append_left _ (Option.mem_toList.mpr created), rfl⟩
  · exact eachEvent_recordStep.mpr
      ⟨fun event happened => traced.fires owned happened, traced.fired⟩

end SchedulerRun

/-! ## What moves a schedule -/

theorem ScheduleTable.find_update_nextRunAt {table : ScheduleTable} {hits : ScheduleRow -> Bool}
    {change : ScheduleChange} {id : Nat}
    (keeps : forall row, row.id = id -> hits row = true ->
      (change.set row).nextRunAt = row.nextRunAt) :
    ((table.update hits change).find id).map ScheduleRow.nextRunAt =
      (table.find id).map ScheduleRow.nextRunAt := by
  rw [find_update, Option.map_map]
  cases found : table.find id with
  | none => rfl
  | some row =>
      apply congrArg some
      rw [Function.comp_apply, rewrite]
      split
      · rename_i hit
        exact keeps row (find_eq_some_iff.mp found).2 hit
      · rfl

/-- The statement of the call changes the next occurrence of the schedule. -/
def SchedulerCall.Moves (call : SchedulerCall) (id : Nat) : Prop :=
  (Exists fun due : DueScheduleRow => Exists fun nextRunAt : Int => Exists fun jobId : Option Nat =>
    Exists fun kind : AdvanceKind => Exists fun rest : List DueScheduleRow =>
      due.id = id ∧ call = .advancing due nextRunAt jobId kind rest) ∨
    Exists fun enabled : Bool => Exists fun nextRunAt : Int =>
      call = .writing id enabled (some nextRunAt)

theorem SchedulerCall.execute_nextRunAt {index : Nat} {now : Timestamp} {locked : List Nat}
    {db : Database} {schedules : ScheduleTable} {call : SchedulerCall} {id : Nat}
    (still : Not (call.Moves id)) :
    ((call.execute index now locked db schedules).schedules.find id).map ScheduleRow.nextRunAt =
      (schedules.find id).map ScheduleRow.nextRunAt := by
  cases call with
  | claiming limit => exact ScheduleTable.find_update_nextRunAt (fun _ _ _ => rfl)
  | advancing row nextRunAt jobId kind rest =>
      apply ScheduleTable.find_update_nextRunAt
      intro hit sameId isHit
      have sameRow : row.id = id := (eq_of_beq isHit).symm.trans sameId
      exact absurd (Or.inl ⟨row, nextRunAt, jobId, kind, rest, sameRow, rfl⟩) still
  | writing other enabled nextRunAt =>
      apply ScheduleTable.find_update_nextRunAt
      intro hit sameId isHit
      have sameOther : other = id := (eq_of_beq isHit).symm.trans sameId
      subst sameOther
      cases nextRunAt with
      | none => rfl
      | some time => exact absurd (Or.inr ⟨enabled, time, rfl⟩) still
  | inserting row key nextRunAt rest =>
      unfold execute
      dsimp only
      split
      · rfl
      · rfl
  | reading other enabled =>
      unfold execute
      dsimp only
      split
      · rfl
      · rfl
  | taking rest => rfl
  | computing existing enabled => rfl
  | finished => rfl

theorem SchedulerRun.movesByAdvance (nextOccurrence : String -> String -> Int -> Option Int)
    (run : SchedulerRun) (label : SchedulerLabel) : MovesByAdvance nextOccurrence run label := by
  intro id changed
  cases label with
  | tick index limit =>
      apply absurd _ changed
      simp only [step, recordStep, SchedulerSystem.step, SchedulerSystem.begin]
      split
      · rfl
      · rfl
  | setEnabled index other enabled =>
      apply absurd _ changed
      simp only [step, recordStep, SchedulerSystem.step, SchedulerSystem.begin]
      split
      · rfl
      · rfl
  | execute index now locked =>
      simp only [step, recordStep, SchedulerSystem.step] at changed
      refine ⟨index, now, locked, rfl, ?_⟩
      cases present : run.state.calls index with
      | none =>
          rw [present] at changed
          exact absurd rfl changed
      | some call =>
          rw [present] at changed
          have moves : call.Moves id := by
            by_contra still
            exact changed (SchedulerCall.execute_nextRunAt still)
          rcases moves with ⟨due, nextRunAt, jobId, kind, rest, same, rfl⟩ | ⟨enabled, nextRunAt, rfl⟩
          · exact Or.inl ⟨due, nextRunAt, jobId, kind, rest, same, rfl⟩
          · exact Or.inr ⟨enabled, nextRunAt, rfl⟩
  | resume index now =>
      apply absurd _ changed
      simp only [step, recordStep, SchedulerSystem.step]
      split
      · rfl
      · rfl
  | crash index =>
      apply absurd _ changed
      simp only [step, recordStep, SchedulerSystem.step]
      split
      · rfl
      · rfl
  | job call =>
      apply absurd _ changed
      simp only [step, recordStep, SchedulerSystem.step]
      split
      · rfl
      · rfl

/-! ## The theorem -/

/-- One job for each occurrence, along a run. -/
structure FiresOnce (nextOccurrence : String -> String -> Int -> Option Int) (start : SchedulerRun)
    (labels : List SchedulerLabel) : Prop where
  distinctKeys : forall id other planned otherPlanned key,
    occurrenceKey id planned = some key -> occurrenceKey other otherPlanned = some key ->
      id = other ∧ planned = otherPlanned
  jobs : forall due job,
    .created due job ∈ (run (SchedulerRun.step nextOccurrence) start labels).history ->
      OccurrenceJob due job ∧ CreatedFor (run (SchedulerRun.step nextOccurrence) start labels).state.db
        (run (SchedulerRun.step nextOccurrence) start labels).state.schedules due job
  once : ((createdOccurrences (run (SchedulerRun.step nextOccurrence) start labels).history).map
    createdFor).Nodup
  new : forall due job,
    .created due job ∈ (run (SchedulerRun.step nextOccurrence) start labels).history ->
      forall first, first ∈ start.state.db.job.rows -> first.queue = due.queue ->
        first.idempotencyKey ≠ occurrenceKey due.id due.plannedFor
  fired : EachEvent (SchedulerEvent.Fired nextOccurrence start.state.db)
    (run (SchedulerRun.step nextOccurrence) start labels).history
  moves : EachStep (SchedulerRun.step nextOccurrence) (MovesByAdvance nextOccurrence) start labels

/-- A job is created only for an occurrence that had none at the start. -/
theorem SchedulerRun.Traced.new {nextOccurrence : String -> String -> Int -> Option Int}
    {start : Database} {run : SchedulerRun} (traced : run.Traced nextOccurrence start)
    {due : DueScheduleRow} {job first : JobRow} (created : .created due job ∈ run.history)
    (member : first ∈ start.job.rows) (sameQueue : first.queue = due.queue) :
    first.idempotencyKey ≠ occurrenceKey due.id due.plannedFor := by
  intro sameKey
  rcases (traced.accounted.created due job created).keyed with ⟨key, isKey, holds⟩
  rcases traced.kept first member with ⟨row, present, same⟩
  have held : run.state.db.HoldsKey due.queue key first.id :=
    ⟨row, present, same.id, same.queue.trans sameQueue,
      same.idempotencyKey.trans (sameKey.trans isKey)⟩
  exact traced.apart first due job member created (held.unique holds)

/-- Whatever the order of the statements of any number of ticks, and wherever
they crash, no occurrence gets two jobs and none is advanced over without its
job. -/
theorem occurrences_fire_once (nextOccurrence : String -> String -> Int -> Option Int)
    (db : Database) (schedules : ScheduleTable) (clock : Timestamp)
    (labels : List SchedulerLabel) (owned : OccurrenceKeysOwned db) :
    FiresOnce nextOccurrence (.start db schedules clock) labels := by
  have traced : (run (SchedulerRun.step nextOccurrence) (.start db schedules clock)
      labels).Traced nextOccurrence db := by
    apply @run_invariant _ _ (SchedulerRun.step nextOccurrence)
      (fun current => current.Traced nextOccurrence db)
    · exact fun current label kept => kept.step owned label
    · exact .start nextOccurrence db schedules clock
  exact {
    distinctKeys := fun _ _ _ _ _ => occurrenceKey_inj
    jobs := fun due job created =>
      ⟨traced.accounted.jobs due job created, traced.accounted.created due job created⟩
    once := traced.accounted.once
    new := fun _ _ created _ member => traced.new created member
    fired := traced.fired
    moves := eachStep_of_forall (SchedulerRun.movesByAdvance nextOccurrence) _ _ }

/-- A cron library whose every expression is due once an hour. -/
def everyHour (_ _ : String) (clock : Int) : Option Int := some (clock + 3600000)

/-- The first schedule, due at the start. -/
def dueMail : ScheduleTable where
  rows := [{
    id := 1
    name := "digest"
    queue := "mail"
    type := "digest"
    payload := "\x7b\x7d"
    cron := "0 * * * *"
    timezone := "UTC"
    catchupPolicy := .runOnce
    enabled := true
    nextRunAt := 0
    lastRunAt := none
    lastJobId := none
    updatedAt := 0 }]
  nextId := 2
  primaryKey := by decide
  uniqueName := by decide
  identity := by decide

/-- What a tick claims of it at an occurrence. -/
def digestDue (plannedFor : Int) : DueScheduleRow :=
  ⟨1, "digest", "mail", "digest", "\x7b\x7d", "0 * * * *", "UTC", .runOnce, plannedFor⟩

/-- The job of the occurrence an hour before the start, and one of a client. -/
def earlierJobs : Database := run Database.step (.empty [] .empty) [
  ⟨0, .insertJob ((digestDue (-3600000)).occurrence "sched:1:1969-12-31T23:00:00.000Z")⟩,
  ⟨0, .insertJob { (digestDue 0).occurrence "" with idempotencyKey := none, scheduleId := none }⟩]

theorem earlierJobs_owned : OccurrenceKeysOwned earlierJobs := by
  have keys : earlierJobs.job.rows.map (fun row => (row.idempotencyKey, row.scheduleId)) =
      [(some "sched:1:1969-12-31T23:00:00.000Z", some 1), (none, none)] := by rfl
  intro row member id planned key isKey holds
  have listed : (row.idempotencyKey, row.scheduleId) ∈
      earlierJobs.job.rows.map (fun row => (row.idempotencyKey, row.scheduleId)) :=
    List.mem_map_of_mem member
  rw [keys, holds] at listed
  rcases List.mem_cons.mp listed with first | second
  · have earlier : occurrenceKey 1 (-3600000) = some key :=
      Eq.trans (by decide) (congrArg Prod.fst first).symm
    rw [(occurrenceKey_inj isKey earlier).1]
    exact congrArg Prod.snd first
  · cases congrArg Prod.fst (List.mem_singleton.mp second)

/-- A tick inserts the job of the occurrence and crashes before it advances; a
second tick claims the occurrence again, finds its job, and advances. -/
def crashedTick : List SchedulerLabel :=
  [.tick 0 10, .execute 0 (seconds 1) [], .resume 0 (seconds 1), .execute 0 (seconds 1) [],
    .crash 0, .tick 1 10, .execute 1 (seconds 2) [], .resume 1 (seconds 2),
    .execute 1 (seconds 2) [], .execute 1 (seconds 2) []]

/-- The schedule has moved on, and its second job is the only new one. -/
theorem crashedTick_fires_once :
    let last := run (SchedulerRun.step everyHour) (.start earlierJobs dueMail 0) crashedTick
    FiresOnce everyHour (.start earlierJobs dueMail 0) crashedTick ∧
      (last.state.schedules.find 1).map ScheduleRow.nextRunAt = some (seconds 3602) ∧
      last.state.db.job.rows.map JobRow.scheduleId = [some 1, none, some 1] :=
  ⟨occurrences_fire_once everyHour earlierJobs dueMail 0 crashedTick earlierJobs_owned,
    by decide, by decide⟩

end PgJobQ
