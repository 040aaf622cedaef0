import PgJobQ.Client.AuditedOperations
import PgJobQ.Server.WriteEffects

/-!
# Changes and their audit rows

Every state-changing administrative action is to be recorded in the audit log.
A call that ends has recorded what it changed.  The change and its record are
two transactions, however, and the record comes second: if a statement fails or
the process stops in between, the change stays and is recorded nowhere.

`Writes` lists, for the state before a call, the places of the first change and
of the record among the statements of the call.  These places decide which
faults spare the call.
-/

namespace PgJobQ

open Scripts

/-! ## The journal -/

namespace AuditedTables

/-- The rows of `job`, `queue_config` and `schedule`. -/
def view (state : AuditedTables) : List JobRow × List QueueConfigRow × List ScheduleRow :=
  (state.db.job.rows, state.db.queueConfig.rows, state.schedules.rows)

def log (state : AuditedTables) : List AuditEntry := state.auditLog.map AuditRow.entry

end AuditedTables

namespace JobUpdate

def mutation (now : Timestamp) : JobUpdate -> Mutation
  | cancelAvailableJob id => PgJobQ.cancelAvailableJob id.value now
  | requestCancelRunningJob id => PgJobQ.requestCancelRunningJob id.value now
  | retryJobNow id => PgJobQ.retryJobNow id.value now
  | replayDeadJob id => PgJobQ.replayDeadJob id.value now
  | replayDeadJobs ids => PgJobQ.replayDeadJobs (ids.map NumericId.value) now

/-- The state the update demands of a job. -/
def source : JobUpdate -> JobState
  | cancelAvailableJob _ => .available
  | requestCancelRunningJob _ => .running
  | retryJobNow _ => .available
  | replayDeadJob _ => .dead
  | replayDeadJobs _ => .dead

theorem isUpdate (update : JobUpdate) (now : Timestamp) (db : Database) :
    update.statement.mutation now db = some (update.mutation now) := by
  cases update with
  | cancelAvailableJob id => rfl
  | requestCancelRunningJob id => rfl
  | retryJobNow id => rfl
  | replayDeadJob id => rfl
  | replayDeadJobs ids => rfl

theorem hits_iff (update : JobUpdate) (now : Timestamp) (row : JobRow) :
    (update.mutation now).hits row = true <->
      row.state = update.source ∧ row.id ∈ update.ids.map NumericId.value := by
  cases update with
  | cancelAvailableJob id =>
      simp [mutation, PgJobQ.cancelAvailableJob, source, ids, and_comm]
  | requestCancelRunningJob id =>
      simp [mutation, PgJobQ.requestCancelRunningJob, source, ids, and_comm]
  | retryJobNow id => simp [mutation, PgJobQ.retryJobNow, source, ids, and_comm]
  | replayDeadJob id =>
      rw [mutation, replayDeadJob_eq]
      exact replay_hits_iff
  | replayDeadJobs ids => exact replay_hits_iff

/-- Only a replay can be refused, by the index on unique keys. -/
theorem commits_iff (update : JobUpdate) (now : Timestamp) (db : Database) :
    (Exists fun reply : Reply => (update.mutation now).run db = .ok reply) <->
      (update.source = .dead -> Apart (update.ids.map NumericId.value) db) := by
  cases update with
  | cancelAvailableJob id =>
      exact ⟨fun _ dead => (nomatch dead), fun _ => cancelAvailableJob_commits db id.value now⟩
  | requestCancelRunningJob id =>
      exact ⟨fun _ dead => (nomatch dead), fun _ => requestCancelRunningJob_commits db id.value now⟩
  | retryJobNow id =>
      exact ⟨fun _ dead => (nomatch dead), fun _ => retryJobNow_commits db id.value now⟩
  | replayDeadJob id =>
      rw [mutation, replayDeadJob_eq, replay_commits_iff]
      exact ⟨fun apart _ => apart, fun apart => apart rfl⟩
  | replayDeadJobs ids =>
      rw [mutation, replay_commits_iff]
      exact ⟨fun apart _ => apart, fun apart => apart rfl⟩

/-- The update changes a job of this database. -/
structure Finds (db : Database) (update : JobUpdate) : Prop where
  fits : forall id, id ∈ update.ids -> id.fitsBigint = true
  job : Exists fun row : JobRow => row ∈ db.job.rows ∧ row.state = update.source ∧
    row.id ∈ update.ids.map NumericId.value
  apart : update.source = .dead -> Apart (update.ids.map NumericId.value) db

theorem rows_ne_nil_iff {update : JobUpdate} {now : Timestamp} {db : Database} {reply : Reply}
    (committed : (update.mutation now).run db = .ok reply) :
    reply.rows ≠ [] <-> Exists fun row : JobRow => row ∈ db.job.rows ∧
      row.state = update.source ∧ row.id ∈ update.ids.map NumericId.value := by
  rw [← List.isEmpty_eq_false_iff, ← Bool.not_eq_true, Mutation.rows_isEmpty_iff committed]
  simp only [hits_iff]
  constructor
  · intro some
    by_contra none
    exact some (fun row member hit => none ⟨row, member, hit⟩)
  · rintro ⟨row, member, hit⟩ none
    exact none row member hit

/-- An update of ids that fit the column is executed unless the index refuses
it. -/
theorem query_of_fits {update : JobUpdate} {db : Database}
    (fits : forall id, id ∈ update.ids -> id.fitsBigint = true)
    (apart : update.source = .dead -> Apart (update.ids.map NumericId.value) db) (now : Timestamp) :
    Exists fun reply : Reply => Client.query update.ids update.statement now db = .ok reply ∧
      (update.mutation now).run db = .ok reply := by
  rcases (commits_iff update now db).mpr apart with ⟨reply, committed⟩
  refine ⟨reply, ?_, committed⟩
  exact Client.query_of_fits (List.all_eq_true.mpr fits)
    ((Statement.exec_mutation (update.isUpdate now db)).trans committed)

/-- An update that finds a job returns it. -/
theorem Finds.query {update : JobUpdate} {db : Database} (finds : update.Finds db)
    (now : Timestamp) :
    Exists fun reply : Reply => Client.query update.ids update.statement now db = .ok reply ∧
      (update.mutation now).run db = .ok reply ∧ reply.rows.isEmpty = false := by
  rcases query_of_fits finds.fits finds.apart now with ⟨reply, queried, committed⟩
  exact ⟨reply, queried, committed,
    List.isEmpty_eq_false_iff.mpr ((rows_ne_nil_iff committed).mpr finds.job)⟩

/-- One that finds none returns nothing, or it fails. -/
theorem isEmpty_of_not_finds {update : JobUpdate} {now : Timestamp} {db : Database} {reply : Reply}
    (missed : Not (update.Finds db))
    (queried : Client.query update.ids update.statement now db = .ok reply) :
    reply.rows.isEmpty = true ∧ reply.db.job.rows = db.job.rows := by
  rcases Client.run_of_query (update.isUpdate now db) queried with ⟨fits, committed⟩
  have silent : reply.rows.isEmpty = true := by
    by_contra some
    rw [Bool.not_eq_true, List.isEmpty_eq_false_iff] at some
    exact missed ⟨List.all_eq_true.mp fits, (rows_ne_nil_iff committed).mp some,
      (commits_iff update now db).mp ⟨reply, committed⟩⟩
  exact ⟨silent, Mutation.rows_of_silent committed ((Mutation.rows_isEmpty_iff committed).mp silent)⟩

end JobUpdate

namespace AdminQuery

/-- A statement keeps the view unless it reports a change, and it keeps the log
unless it is the insert of an entry.  One that fails has at most drawn a value
of a sequence. -/
def Keeps {Answer : Type} (query : AdminQuery Answer) (state : AuditedTables) :
    Except OperationError Answer × AuditedTables -> Prop
  | (.error _, next) => next.view = state.view ∧ next.log = state.log
  | (.ok answer, next) => next.log = state.log ++ Effect.records [query.effect answer] ∧
      (Effect.changes [query.effect answer] = [] -> next.view = state.view)

theorem updateJobs_keeps (update : JobUpdate) (moment : AdminMoment) (state : AuditedTables) :
    (updateJobs update).Keeps state ((updateJobs update).exec moment state) := by
  simp only [exec]
  split
  · exact ⟨rfl, rfl⟩
  · rename_i reply queried
    have committed := (Client.run_of_query (update.isUpdate _ _) queried).2
    simp only [Keeps, effect]
    split
    · rename_i silent
      refine ⟨(List.append_nil _).symm, fun _ => ?_⟩
      have sameRows := Mutation.rows_of_silent committed ((Mutation.rows_isEmpty_iff committed).mp silent)
      have sameConfig := (Mutation.run_ok committed).2.2.2.2.2
      simp only [AuditedTables.view, AuditedTables.withDb, AuditedTables.db,
        AuditedTables.schedules] at sameRows sameConfig ⊢
      rw [sameRows, sameConfig]
    · exact ⟨(List.append_nil _).symm, fun changed => absurd changed (List.cons_ne_nil _ _)⟩

theorem purgeQueue_keeps (queue : String) (states : List JobState) (limit : Int)
    (moment : AdminMoment) (state : AuditedTables) :
    (purgeQueue queue states limit).Keeps state
      ((purgeQueue queue states limit).exec moment state) := by
  simp only [exec]
  split
  · exact ⟨rfl, rfl⟩
  · simp only [PgJobQ.purgeQueue, Keeps, effect]
    split
    · rename_i silent
      refine ⟨(List.append_nil _).symm, fun _ => ?_⟩
      rw [List.isEmpty_iff, List.filter_eq_nil_iff] at silent
      have sameRows := List.filter_eq_self.mpr (fun row member =>
        (Bool.not_eq_true' _).mpr (Bool.eq_false_iff.mpr (silent row member)))
      simp only [AuditedTables.view, AuditedTables.withDb, AuditedTables.db,
        AuditedTables.schedules, Database.deleteJobs, JobTable.delete] at sameRows ⊢
      rw [sameRows]
    · exact ⟨(List.append_nil _).symm, fun changed => absurd changed (List.cons_ne_nil _ _)⟩

theorem createSchedule_keeps (p : ScheduleParams) (nextRunAt : Int) (moment : AdminMoment)
    (state : AuditedTables) :
    (createSchedule p nextRunAt).Keeps state ((createSchedule p nextRunAt).exec moment state) := by
  simp only [exec]
  split
  · exact ⟨(List.append_nil _).symm, fun changed => absurd changed (List.cons_ne_nil _ _)⟩
  · rename_i table inserted
    refine ⟨?_, rfl⟩
    unfold PgJobQ.createSchedule at inserted
    split at inserted
    · cases inserted
      rfl
    · cases inserted

/-- Enabling a schedule that is not there changes no row. -/
theorem setScheduleEnabled_missing {id : Nat} {enabled : Bool} {nextRunAt : Option Int}
    {now : Timestamp} {table : ScheduleTable}
    (missing : (PgJobQ.setScheduleEnabled id enabled nextRunAt now table).find id = none) :
    (PgJobQ.setScheduleEnabled id enabled nextRunAt now table).rows = table.rows := by
  rw [PgJobQ.setScheduleEnabled, ScheduleTable.find_update, Option.map_eq_none_iff] at missing
  have others : forall row, row ∈ table.rows -> ScheduleTable.rewrite (fun row => row.id == id)
      (enableChange enabled nextRunAt now) row = row := by
    intro row member
    have different : Not ((row.id == id) = true) :=
      List.find?_eq_none.mp missing row member
    rw [ScheduleTable.rewrite, if_neg different]
  exact (List.map_congr_left others).trans (List.map_id' table.rows)

theorem setScheduleEnabled_keeps (id : NumericId) (enabled : Bool) (nextRunAt : Option Int)
    (moment : AdminMoment) (state : AuditedTables) :
    (setScheduleEnabled id enabled nextRunAt).Keeps state
      ((setScheduleEnabled id enabled nextRunAt).exec moment state) := by
  simp only [exec]
  split
  · simp only [Keeps, effect]
    split
    · rename_i missing
      refine ⟨(List.append_nil _).symm, fun _ => ?_⟩
      have sameRows := setScheduleEnabled_missing (Option.isNone_iff_eq_none.mp missing)
      simp only [AuditedTables.view, AuditedTables.withSchedules, AuditedTables.db,
        AuditedTables.schedules] at sameRows ⊢
      rw [sameRows]
    · exact ⟨(List.append_nil _).symm, fun changed => absurd changed (List.cons_ne_nil _ _)⟩
  · exact ⟨rfl, rfl⟩

theorem deleteSchedule_keeps (id : NumericId) (moment : AdminMoment) (state : AuditedTables) :
    (deleteSchedule id).Keeps state ((deleteSchedule id).exec moment state) := by
  simp only [exec]
  split
  · rename_i error tables failed
    unfold Scheduler.delete at failed
    split at failed
    · split at failed
      · cases failed
        exact ⟨rfl, rfl⟩
      · cases failed
    · cases failed
      exact ⟨rfl, rfl⟩
  · rename_i deleted tables done
    simp only [Keeps, effect]
    split
    · exact ⟨(List.append_nil _).symm, fun changed => absurd changed (List.cons_ne_nil _ _)⟩
    · refine ⟨(List.append_nil _).symm, fun _ => ?_⟩
      unfold Scheduler.delete PgJobQ.deleteSchedule at done
      split at done
      · split at done
        · cases done
        · rename_i next deleted ran
          split at ran
          · cases ran
            cases done
            rfl
          · split at ran
            · cases ran
            · cases ran
              cases done
              contradiction
      · cases done

theorem exec_keeps {Answer : Type} (query : AdminQuery Answer) (moment : AdminMoment)
    (state : AuditedTables) : query.Keeps state (query.exec moment state) := by
  cases query with
  | updateJobs update => exact updateJobs_keeps update moment state
  | getJob id =>
      simp only [exec]
      split
      · exact ⟨(List.append_nil _).symm, fun _ => rfl⟩
      · exact ⟨rfl, rfl⟩
  | setQueuePaused queue paused =>
      exact ⟨(List.append_nil _).symm, fun changed => absurd changed (List.cons_ne_nil _ _)⟩
  | purgeQueue queue states limit => exact purgeQueue_keeps queue states limit moment state
  | createSchedule p nextRunAt => exact createSchedule_keeps p nextRunAt moment state
  | getSchedule id =>
      simp only [exec]
      split
      · exact ⟨rfl, rfl⟩
      · exact ⟨(List.append_nil _).symm, fun _ => rfl⟩
  | setScheduleEnabled id enabled nextRunAt =>
      exact setScheduleEnabled_keeps id enabled nextRunAt moment state
  | deleteSchedule id => exact deleteSchedule_keeps id moment state
  | insertAuditLog entry =>
      simp only [exec, PgJobQ.insertAuditLog]
      split
      · rename_i log inserted
        exact ⟨rfl, rfl⟩
      · rename_i log inserted
        split at inserted
        · cases inserted
          exact ⟨List.map_append, fun _ => rfl⟩
        · cases inserted

end AdminQuery

def auditJournal :
    Journal adminMachine (List JobRow × List QueueConfigRow × List ScheduleRow) where
  view := AuditedTables.view
  log := AuditedTables.log
  failed := by
    intro Answer moment start next query failure executed
    have keeps := query.exec_keeps moment start
    rw [show query.exec moment start = (.error failure, next) from executed] at keeps
    exact keeps
  logged := by
    intro Answer moment start next query answer executed
    have keeps := query.exec_keeps moment start
    rw [show query.exec moment start = (.ok answer, next) from executed] at keeps
    exact keeps.1
  quiet := by
    intro Answer moment start next query answer executed
    have keeps := query.exec_keeps moment start
    rw [show query.exec moment start = (.ok answer, next) from executed] at keeps
    exact keeps.2

/-! ## Matching rows -/

/-- The jobs a purge has deleted batch by batch. -/
def purgeChanges (queue : String) (states : List JobState) (batches : List (List Nat)) :
    List AdminChange :=
  batches.map (.purged queue states)

/-- The row with this actor, action, target and detail matches the changes of a
call. -/
inductive Describes (actor : String) : List AdminChange -> AuditEntry -> Prop
  | cancelled (id : NumericId) (jobs : List Nat) :
      Describes actor [.updated (.cancelAvailableJob id) jobs]
        ⟨actor, "job.cancel", some id.text, some (.cancelledFrom .available)⟩
  | cancelRequested (id : NumericId) (jobs : List Nat) :
      Describes actor [.updated (.requestCancelRunningJob id) jobs]
        ⟨actor, "job.cancel_requested", some id.text, some (.cancelledFrom .running)⟩
  | retried (id : NumericId) (jobs : List Nat) :
      Describes actor [.updated (.retryJobNow id) jobs]
        ⟨actor, "job.retry_now", some id.text, none⟩
  | replayed (id : NumericId) (jobs : List Nat) :
      Describes actor [.updated (.replayDeadJob id) jobs]
        ⟨actor, "job.replay", some id.text, none⟩
  | replayedMany (ids : List NumericId) (jobs : List Nat) :
      Describes actor [.updated (.replayDeadJobs ids) jobs]
        ⟨actor, "job.replay_bulk", none, some (.replayedBulk ids.length jobs.length)⟩
  | paused (queue : String) :
      Describes actor [.pauseSet queue true] ⟨actor, "queue.pause", some queue, none⟩
  | resumed (queue : String) :
      Describes actor [.pauseSet queue false] ⟨actor, "queue.resume", some queue, none⟩
  | purged (queue : String) (states : List JobState) (first : List Nat) (more : List (List Nat)) :
      Describes actor (purgeChanges queue states (first :: more))
        ⟨actor, "queue.purge", some queue, some (.purged states (first :: more).flatten.length)⟩
  | scheduleCreated (row : ScheduleRow) :
      Describes actor [.scheduleCreated row]
        ⟨actor, "schedule.create", some (Nat.repr row.id), some (.named row.name)⟩
  | schedulePaused (id : NumericId) :
      Describes actor [.scheduleSet id false] ⟨actor, "schedule.pause", some id.text, none⟩
  | scheduleResumed (id : NumericId) :
      Describes actor [.scheduleSet id true] ⟨actor, "schedule.resume", some id.text, none⟩
  | scheduleDeleted (id : NumericId) :
      Describes actor [.scheduleDeleted id] ⟨actor, "schedule.delete", some id.text, none⟩

/-- A row matches no call that has changed nothing. -/
theorem not_describes_nil (actor : String) (entry : AuditEntry) :
    Not (Describes actor [] entry) := by
  generalize none : ([] : List AdminChange) = changes
  rintro ⟨⟩ <;> cases none

/-! ## Places -/

/-- The statements `purge` sends before the audit row. -/
def batchesSent (queue : String) (states : List JobState) (batchSize : Nat) :
    Nat -> (Nat -> AdminMoment) -> Database -> Nat
  | 0, _, _ => 0
  | batches + 1, moments, db =>
      match purgeQueue queue states batchSize (moments 0).locked db with
      | .error _ => 1
      | .ok reply =>
          if reply.rows.length < batchSize then 1
          else 1 + batchesSent queue states batchSize batches (later moments) reply.db

/-- A call of the operation changes something in this state.  The first change
and the audit row have these places among its statements. -/
inductive Writes (cron : Cron) (clock : Int) (moments : Nat -> AdminMoment)
    (state : AuditedTables) : AdminOperation -> Journal.Places -> Prop
  | cancelAvailable {id : NumericId} (finds : JobUpdate.Finds state.db (.cancelAvailableJob id)) :
      Writes cron clock moments state (.cancel id) ⟨0, 1, 2⟩
  | cancelRunning {id : NumericId}
      (finds : JobUpdate.Finds state.db (.requestCancelRunningJob id)) :
      Writes cron clock moments state (.cancel id) ⟨1, 2, 3⟩
  | retryNow {id : NumericId} (finds : JobUpdate.Finds state.db (.retryJobNow id)) :
      Writes cron clock moments state (.retryNow id) ⟨0, 1, 3⟩
  | replay {id : NumericId} (finds : JobUpdate.Finds state.db (.replayDeadJob id)) :
      Writes cron clock moments state (.replay id) ⟨0, 1, 3⟩
  | replayMany {ids : List NumericId} (finds : JobUpdate.Finds state.db (.replayDeadJobs ids)) :
      Writes cron clock moments state (.replayMany ids) ⟨0, 1, 2⟩
  | setPaused {queue : String} {paused : Bool} (named : validateName queue "queue" = .ok ()) :
      Writes cron clock moments state (.setPaused queue paused) ⟨0, 1, 2⟩
  | purge {queue : String} {states : List JobState} {opts : PurgeOptions} {job : JobRow}
      (named : validateName queue "queue" = .ok ())
      (member : job ∈ state.db.job.rows) (inQueue : job.queue = queue) (chosen : job.state ∈ states)
      (free : Not (job.id ∈ (moments 0).locked)) (size : 0 < opts.batchSize.getD 1000)
      (most : 0 < opts.maxBatches.getD 1000) :
      Writes cron clock moments state (.purge queue states queue opts)
        ⟨0, batchesSent queue states (opts.batchSize.getD 1000).toNat
          (opts.maxBatches.getD 1000).toNat moments state.db,
          batchesSent queue states (opts.batchSize.getD 1000).toNat
            (opts.maxBatches.getD 1000).toNat moments state.db + 1⟩
  | createSchedule {p : ScheduleParams} {nextRunAt : Int}
      (occurs : cron.nextOccurrence p.cron (p.timezone.getD "UTC") clock = some nextRunAt)
      (free : forall row, row ∈ state.schedules.rows -> row.name ≠ p.name) :
      Writes cron clock moments state (.createSchedule p) ⟨0, 1, 2⟩
  | setSchedule {id : NumericId} {enabled : Bool} {row : ScheduleRow}
      (fits : id.fitsBigint = true) (member : row ∈ state.schedules.rows) (same : row.id = id.value)
      (occurs : enabled = true -> cron.nextOccurrence row.cron row.timezone clock ≠ none) :
      Writes cron clock moments state (.setSchedule id enabled) ⟨1, 2, 3⟩
  | deleteSchedule {id : NumericId} {row : ScheduleRow} (fits : id.fitsBigint = true)
      (member : row ∈ state.schedules.rows) (same : row.id = id.value) :
      Writes cron clock moments state (.deleteSchedule id) ⟨0, 1, 2⟩

/-- The fault leaves a call alone that changes something at these places: the
call is cut off before the first change, or the actor can be recorded and the
fault comes after the last statement or is a stop after the record. -/
def Spares (actor : String) (places : Journal.Places)
    (disturbance : Option (Disturbance OperationError)) : Prop :=
  (Exists fun cut : Disturbance OperationError =>
    disturbance = some cut ∧ cut.committed ≤ places.change) ∨
    (storableText actor = true ∧ forall cut, disturbance = some cut ->
      places.asked ≤ cut.place ∨ (places.record < cut.committed ∧ cut.fault.stops = true))

/-! ## Plans -/

abbrev AdminTrace := Trace AuditedTables AdminChange AuditEntry OperationError OperationResult

/-- What a call does if nothing disturbs it. -/
abbrev plan (script : AdminScript) (moments : Nat -> AdminMoment) (state : AuditedTables) :
    AdminTrace :=
  run adminMachine script moments none state

/-- A call that changes something at these places, and records it if it can. -/
structure Planned (actor : String) (places : Journal.Places) (trace : AdminTrace) : Prop where
  recorded : storableText actor = true ->
    Journal.Recorded (Describes actor) trace.effects places ∧
      Exists fun result : OperationResult => trace.outcome = .returned result
  unrecorded : storableText actor = false -> Journal.Unrecorded trace.effects places.change

theorem Planned.atomic_iff {actor : String} {places : Journal.Places} {script : AdminScript}
    {moments : Nat -> AdminMoment} {state : AuditedTables}
    (planned : Planned actor places (plan script moments state))
    (disturbance : Option (Disturbance OperationError)) :
    auditJournal.Atomic (Describes actor) state (run adminMachine script moments disturbance state)
      <-> Spares actor places disturbance := by
  cases storable : storableText actor with
  | true =>
      rcases planned.recorded storable with ⟨recorded, result, returned⟩
      rw [Journal.atomic_iff_of_recorded recorded returned]
      cases disturbance with
      | none =>
          exact ⟨fun _ => Or.inr ⟨storable, fun cut isCut => nomatch isCut⟩,
            fun _ cut isCut => nomatch isCut⟩
      | some cut =>
          constructor
          · intro spared
            rcases spared cut rfl with beyond | before | stopped
            · exact Or.inr ⟨storable, fun _ isCut => Option.some.inj isCut ▸ Or.inl beyond⟩
            · exact Or.inl ⟨cut, rfl, before⟩
            · exact Or.inr ⟨storable, fun _ isCut => Option.some.inj isCut ▸ Or.inr stopped⟩
          · rintro (⟨_, ⟨⟩, before⟩ | ⟨_, spared⟩) _ ⟨⟩
            · exact Or.inr (Or.inl before)
            · exact (spared cut rfl).imp_right Or.inr
  | false =>
      rw [Journal.atomic_iff_of_unrecorded (planned.unrecorded storable)]
      constructor
      · exact Or.inl
      · rintro (before | ⟨written, _⟩)
        · exact before
        · rw [storable] at written
          cases written

/-- What follows the audit row only reads, and it returns. -/
def Settles (next : AdminScript) (state : AuditedTables) (asked : Nat) : Prop :=
  forall moments log,
    (run adminMachine next moments none { state with auditLog := log }).effects.length = asked ∧
      Effect.changes (run adminMachine next moments none { state with auditLog := log }).effects = []
      ∧ Exists fun result : OperationResult =>
        (run adminMachine next moments none { state with auditLog := log }).outcome =
          .returned result

theorem settles_done (result : OperationResult) (state : AuditedTables) :
    Settles (.done (.ok result)) state 0 :=
  fun _ _ => ⟨rfl, rfl, result, rfl⟩

section Audit

variable {actor action : String} {target : Option String} {detail : Option AuditDetail}
  {next : AdminScript} {moments : Nat -> AdminMoment} {state : AuditedTables}

theorem run_audit (storable : storableText actor = true) :
    run adminMachine (AuditedOperation.audit actor action target detail next) moments none state =
      (run adminMachine next (later moments) none { state with auditLog :=
        state.auditLog ++ [⟨⟨actor, action, target, detail⟩, (moments 0).now⟩] }).after
        (.record ⟨actor, action, target, detail⟩) := by
  apply run_ask_of_ok
  simp only [adminMachine, AdminQuery.exec, insertAuditLog, storable, if_true]
  rfl

theorem run_audit_refused (unstorable : storableText actor = false) :
    run adminMachine (AuditedOperation.audit actor action target detail next) moments none state =
      ⟨state, [], 1, .threw .invalidText⟩ := by
  apply run_ask_of_error
  simp only [adminMachine, AdminQuery.exec, insertAuditLog, unstorable, if_false, Bool.false_eq_true]

/-- An operation whose changes are followed by their audit row. -/
theorem Planned.of_audit {trace : AdminTrace}
    {before middle : List (Scripts.Effect AdminChange AuditEntry)}
    {made : AdminChange} {asked : Nat}
    (effects : trace.effects = before ++ .change made :: (middle ++
      (run adminMachine (AuditedOperation.audit actor action target detail next) moments none
        state).effects))
    (outcome : trace.outcome =
      (run adminMachine (AuditedOperation.audit actor action target detail next) moments none
        state).outcome)
    (unchanged : Effect.changes before = []) (silent : Effect.records before = [])
    (unrecorded : Effect.records middle = [])
    (described : Describes actor (made :: Effect.changes middle) ⟨actor, action, target, detail⟩)
    (settles : Settles next state asked) :
    Planned actor ⟨before.length, before.length + 1 + middle.length,
      before.length + 1 + middle.length + 1 + asked⟩ trace := by
  constructor
  · intro storable
    rw [run_audit storable] at effects outcome
    rcases settles (later moments) (state.auditLog ++
      [⟨⟨actor, action, target, detail⟩, (moments 0).now⟩]) with ⟨length, settled, result, returned⟩
    refine ⟨?_, result, outcome.trans returned⟩
    rw [effects, ← length]
    exact .intro unchanged silent unrecorded described settled
  · intro unstorable
    rw [run_audit_refused unstorable, List.append_nil] at effects
    rw [effects]
    exact .intro unchanged silent unrecorded

end Audit

/-! ## Updates of jobs -/

section Updates

variable {actor : String} {moments : Nat -> AdminMoment} {state : AuditedTables}

theorem exec_updateJobs_of_ok {update : JobUpdate} {moment : AdminMoment} {reply : Reply}
    (queried : Client.query update.ids update.statement moment.now state.db = .ok reply) :
    adminMachine.exec moment state (.updateJobs update) =
      (.ok reply.rows, state.withDb reply.db) := by
  simp only [adminMachine, AdminQuery.exec, queried]

theorem exec_updateJobs_of_error {update : JobUpdate} {moment : AdminMoment} {error : AdminError}
    (queried : Client.query update.ids update.statement moment.now state.db = .error error) :
    adminMachine.exec moment state (.updateJobs update) = (.error (.admin error), state) := by
  simp only [adminMachine, AdminQuery.exec, queried]

theorem exec_getJob {id : NumericId} (fits : id.fitsBigint = true) (moment : AdminMoment) :
    adminMachine.exec moment state (.getJob id) = (.ok (state.db.find id.value), state) := by
  simp only [adminMachine, AdminQuery.exec, fits, if_true]

theorem exec_getJob_of_not_fits {id : NumericId} (unfit : id.fitsBigint = false)
    (moment : AdminMoment) :
    adminMachine.exec moment state (.getJob id) = (.error (.admin .idOutOfRange), state) := by
  simp only [adminMachine, AdminQuery.exec, unfit, if_false, Bool.false_eq_true]

/-- An update that finds a job is a change. -/
theorem plan_update {update : JobUpdate} (finds : update.Finds state.db) :
    Exists fun reply : Reply => (update.mutation (moments 0).now).run state.db = .ok reply ∧
      reply.rows.isEmpty = false ∧ forall next,
        plan (.ask (.updateJobs update) next) moments state =
          (plan (next reply.rows) (later moments) (state.withDb reply.db)).after
            (.change (.updated update (reply.rows.map JobRow.id))) := by
  rcases finds.query (moments 0).now with ⟨reply, queried, committed, some⟩
  refine ⟨reply, committed, some, fun next => ?_⟩
  have changed : adminMachine.effect (.updateJobs update) reply.rows =
      .change (.updated update (reply.rows.map JobRow.id)) := by
    simp only [adminMachine, AdminQuery.effect, some, if_false, Bool.false_eq_true]
  rw [plan, run_ask_of_ok (exec_updateJobs_of_ok queried), changed]

/-- One that finds none leaves the jobs as they are, and the call goes on
without a row unless the update fails. -/
theorem plan_missed {update : JobUpdate} (missed : Not (update.Finds state.db)) :
    ((Exists fun error : AdminError => Client.query update.ids update.statement (moments 0).now
        state.db = .error error) ∧
      forall next, (plan (.ask (.updateJobs update) next) moments state).effects = []) ∨
      Exists fun db : Database => db.job.rows = state.db.job.rows ∧ forall next,
        plan (.ask (.updateJobs update) next) moments state =
          (plan (next []) (later moments) (state.withDb db)).after .silent := by
  cases queried : Client.query update.ids update.statement (moments 0).now state.db with
  | error error =>
      refine Or.inl ⟨⟨error, rfl⟩, fun next => ?_⟩
      rw [plan, run_ask_of_error (exec_updateJobs_of_error queried)]
  | ok reply =>
      rcases JobUpdate.isEmpty_of_not_finds missed queried with ⟨none, sameRows⟩
      rw [List.isEmpty_iff] at none
      have executed := exec_updateJobs_of_ok queried
      rw [none] at executed
      refine Or.inr ⟨reply.db, sameRows, fun next => ?_⟩
      rw [plan, run_ask_of_ok executed]
      rfl

/-- Reading a job changes nothing, whatever is thrown for it. -/
theorem plan_read (id : NumericId) (refusal : JobRow -> AdminError) :
    Effect.changes (plan (AuditedOperation.getJob id fun current =>
      .done (.error (.admin (refusal current)))) moments state).effects = [] := by
  unfold AuditedOperation.getJob plan
  cases fits : id.fitsBigint with
  | false =>
      rw [run_ask_of_error (exec_getJob_of_not_fits fits (moments 0))]
      rfl
  | true =>
      rw [run_ask_of_ok (exec_getJob fits (moments 0))]
      cases state.db.find id.value with
      | none => rfl
      | some job => rfl

/-- A job that has been found by its id can be read again. -/
theorem settles_getJob {id : NumericId} (fits : id.fitsBigint = true) {row : JobRow}
    (member : row ∈ state.db.job.rows) (same : row.id = id.value) :
    Settles (AuditedOperation.getJob id fun job => .done (.ok (.job job))) state 1 := by
  intro moments log
  have found : state.db.find id.value = some row :=
    Database.find_eq_some_iff.mpr ⟨member, same⟩
  unfold AuditedOperation.getJob
  rw [run_ask_of_ok (exec_getJob fits (moments 0)),
    show AuditedTables.db { state with auditLog := log } = state.db from rfl, found]
  exact ⟨rfl, rfl, .job row, rfl⟩

/-- An update of a single job finds at most one kind of job under the id. -/
theorem JobUpdate.Finds.row {update : JobUpdate} {id : NumericId} {db : Database}
    (finds : update.Finds db) (named : update.ids = [id]) :
    id.fitsBigint = true ∧ Exists fun row : JobRow => row ∈ db.job.rows ∧
      row.state = update.source ∧ row.id = id.value := by
  rcases finds.job with ⟨row, member, inState, chosen⟩
  rw [named] at chosen
  refine ⟨finds.fits id (named ▸ List.mem_singleton_self id), row, member, inState, ?_⟩
  exact List.mem_singleton.mp chosen

/-- Whether an update finds a job depends on the jobs alone. -/
theorem JobUpdate.Finds.of_rows {update : JobUpdate} {db next : Database}
    (same : next.job.rows = db.job.rows) (finds : update.Finds db) : update.Finds next where
  fits := finds.fits
  job := by
    rw [same]
    exact finds.job
  apart := by
    unfold Apart
    rw [same]
    exact finds.apart

/-! ### `cancel` -/

theorem cancel_available {id : NumericId}
    (finds : JobUpdate.Finds state.db (.cancelAvailableJob id)) :
    Planned actor ⟨0, 1, 2⟩ (plan (AuditedOperation.cancel actor id) moments state) := by
  rcases @plan_update moments _ _ finds with ⟨reply, _, some, ran⟩
  unfold AuditedOperation.cancel
  rw [ran, if_neg (Bool.eq_false_iff.mp some)]
  exact @Planned.of_audit _ _ _ _ _ _ _ _ [] [] _ 0 rfl rfl rfl rfl rfl (.cancelled id _)
    (settles_done _ _)

theorem cancel_running {id : NumericId}
    (finds : JobUpdate.Finds state.db (.requestCancelRunningJob id)) :
    Planned actor ⟨1, 2, 3⟩ (plan (AuditedOperation.cancel actor id) moments state) := by
  have missed : Not (JobUpdate.Finds state.db (.cancelAvailableJob id)) := by
    intro other
    rcases finds.row rfl with ⟨_, row, member, running, same⟩
    rcases other.row rfl with ⟨_, second, secondMem, available, secondSame⟩
    rw [state.db.job.eq_of_id secondMem member (secondSame.trans same.symm), running] at available
    cases available
  rcases @JobUpdate.query_of_fits (.cancelAvailableJob id) state.db finds.fits
    (fun dead => nomatch dead) (moments 0).now with ⟨first, queried, _⟩
  rcases @plan_missed moments _ _ missed with ⟨⟨error, failed⟩, _⟩ | ⟨db, sameRows, ran⟩
  · rw [queried] at failed
    cases failed
  rcases @plan_update (later moments) (state.withDb db) _ (finds.of_rows sameRows) with
    ⟨reply, _, some, ranSecond⟩
  unfold AuditedOperation.cancel
  rw [ran, List.isEmpty_nil, if_pos rfl, ranSecond, if_neg (Bool.eq_false_iff.mp some)]
  exact @Planned.of_audit _ _ _ _ _ _ _ _ [.silent] [] _ 0 rfl rfl rfl rfl rfl (.cancelRequested id _)
    (settles_done _ _)

theorem cancel_unchanged {id : NumericId}
    (missed : Not (JobUpdate.Finds state.db (.cancelAvailableJob id)))
    (missedToo : Not (JobUpdate.Finds state.db (.requestCancelRunningJob id))) :
    Effect.changes (plan (AuditedOperation.cancel actor id) moments state).effects = [] := by
  unfold AuditedOperation.cancel
  rcases @plan_missed moments _ _ missed with ⟨_, failed⟩ | ⟨db, sameRows, ran⟩
  · rw [failed]
    rfl
  have missedStill : Not (JobUpdate.Finds (state.withDb db).db (.requestCancelRunningJob id)) :=
    fun finds => missedToo (finds.of_rows sameRows.symm)
  rw [ran, List.isEmpty_nil, if_pos rfl]
  rcases @plan_missed (later moments) _ _ missedStill with ⟨_, failed⟩ | ⟨last, _, ranSecond⟩
  · exact (congrArg Effect.changes (failed _)).trans rfl
  · rw [ranSecond, List.isEmpty_nil, if_pos rfl]
    exact plan_read id _

/-! ### `retryNow`, `replay` and `replayMany` -/

theorem updateJob_planned {id : NumericId} {update : JobUpdate} (named : update.ids = [id])
    {action : String} (refusal : JobRow -> AdminError)
    (described : forall jobs, Describes actor [.updated update jobs]
      ⟨actor, action, some id.text, none⟩)
    (finds : update.Finds state.db) :
    Planned actor ⟨0, 1, 3⟩
      (plan (AuditedOperation.updateJob actor id update action refusal) moments state) := by
  rcases @plan_update moments _ _ finds with ⟨reply, committed, some, ran⟩
  rcases finds.row named with ⟨fits, row, member, _, same⟩
  have kept : (update.mutation (moments 0).now).rewrite row ∈ reply.db.job.rows := by
    rw [(Mutation.run_ok committed).1]
    exact List.mem_map_of_mem member
  unfold AuditedOperation.updateJob
  rw [ran, if_neg (Bool.eq_false_iff.mp some)]
  exact @Planned.of_audit _ _ _ _ _ _ _ _ [] [] _ 1 rfl rfl rfl rfl rfl (described _)
    (@settles_getJob (state.withDb reply.db) _ fits _ kept ((Mutation.rewrite_id _ row).trans same))

theorem updateJob_unchanged {id : NumericId} {update : JobUpdate} {action : String}
    (refusal : JobRow -> AdminError) (missed : Not (update.Finds state.db)) :
    Effect.changes (plan (AuditedOperation.updateJob actor id update action refusal) moments
      state).effects = [] := by
  unfold AuditedOperation.updateJob
  rcases @plan_missed moments _ _ missed with ⟨_, failed⟩ | ⟨db, _, ran⟩
  · rw [failed]
    rfl
  · rw [ran, List.isEmpty_nil, if_pos rfl]
    exact plan_read id refusal

theorem replayMany_planned {ids : List NumericId}
    (finds : JobUpdate.Finds state.db (.replayDeadJobs ids)) :
    Planned actor ⟨0, 1, 2⟩ (plan (AuditedOperation.replayMany actor ids) moments state) := by
  rcases @plan_update moments _ _ finds with ⟨reply, _, some, ran⟩
  have requested : ids ≠ [] := by
    rintro rfl
    rcases finds.job with ⟨row, _, _, chosen⟩
    cases chosen
  unfold AuditedOperation.replayMany
  rw [if_neg requested, ran]
  refine @Planned.of_audit _ _ _ _ _ _ _ _ [] [] _ 0 rfl rfl rfl rfl rfl ?_ (settles_done _ _)
  have counted := @Describes.replayedMany actor ids (reply.rows.map JobRow.id)
  rw [List.length_map] at counted ⊢
  exact counted

theorem replayMany_unchanged {ids : List NumericId}
    (missed : Not (JobUpdate.Finds state.db (.replayDeadJobs ids))) :
    Effect.changes (plan (AuditedOperation.replayMany actor ids) moments state).effects =
      [] := by
  unfold AuditedOperation.replayMany
  split
  · rfl
  · rcases @plan_missed moments _ _ missed with ⟨_, failed⟩ | ⟨db, _, ran⟩
    · rw [failed]
      rfl
    · rw [ran]
      cases storable : storableText actor with
      | true =>
          dsimp only
          unfold plan
          rw [run_audit storable]
          rfl
      | false =>
          dsimp only
          unfold plan
          rw [run_audit_refused storable]
          rfl

end Updates

/-! ## Queues -/

section Queues

variable {actor : String} {moments : Nat -> AdminMoment} {state : AuditedTables} {queue : String}
  {states : List JobState} {batchSize : Int} {finish : Nat -> AdminScript}

/-- Alone, an audit row is no change. -/
theorem audit_unchanged {action : String} {target : Option String} {detail : Option AuditDetail}
    (result : OperationResult) :
    Effect.changes (plan (AuditedOperation.audit actor action target detail
      (.done (.ok result))) moments state).effects = [] := by
  unfold plan
  cases storable : storableText actor with
  | true =>
      rw [run_audit storable]
      rfl
  | false =>
      rw [run_audit_refused storable]
      rfl

theorem setPaused_planned {paused : Bool} (named : validateName queue "queue" = .ok ()) :
    Planned actor ⟨0, 1, 2⟩
      (plan (AuditedOperation.setPaused actor queue paused) moments state) := by
  unfold AuditedOperation.setPaused
  rw [named]
  refine @Planned.of_audit _ _ _ _ _ (later moments) _ _ [] [] _ 0 rfl rfl rfl rfl rfl ?_
    (settles_done _ _)
  cases paused with
  | true => exact .paused queue
  | false => exact .resumed queue

theorem setPaused_unchanged {paused : Bool} (unnamed : validateName queue "queue" ≠ .ok ()) :
    Effect.changes (plan (AuditedOperation.setPaused actor queue paused) moments
      state).effects = [] := by
  unfold AuditedOperation.setPaused
  cases validated : validateName queue "queue" with
  | error error => rfl
  | ok _ => exact absurd validated unnamed

/-! ### `purge` -/

/-- There are no candidates if the limit is zero or others have locked every row
the scan selects. -/
theorem lockCandidates_eq_nil_iff {before : JobRow -> JobRow -> Prop} [DecidableRel before]
    {selects : JobRow -> Bool} {limit : Nat} {locked : List Nat} {rows : List JobRow} :
    lockCandidates before selects limit locked rows = [] <->
      limit = 0 ∨ forall row, row ∈ rows -> selects row = true -> row.id ∈ locked := by
  unfold lockCandidates
  rw [List.take_eq_nil_iff, List.filter_eq_nil_iff]
  refine or_congr Iff.rfl ⟨fun free row member chosen => ?_, fun free id member => ?_⟩
  · have sorted := (List.mem_insertionSort before).mpr (List.mem_filter.mpr ⟨member, chosen⟩)
    have taken := free row.id (List.mem_map_of_mem sorted)
    rwa [Bool.not_eq_true, Bool.not_eq_false', List.contains_iff_mem] at taken
  · rcases List.mem_map.mp member with ⟨row, sorted, rfl⟩
    have scanned := List.mem_filter.mp ((List.mem_insertionSort before).mp sorted)
    rw [Bool.not_eq_true, Bool.not_eq_false', List.contains_iff_mem]
    exact free row scanned.1 scanned.2

/-- A batch is empty if its size is zero or others have locked every job that
may be deleted. -/
theorem purgeQueue_ok (queue : String) (states : List JobState) (limit : Nat) (locked : List Nat)
    (db : Database) :
    Exists fun reply : Reply => purgeQueue queue states limit locked db = .ok reply ∧
      (reply.rows = [] <-> limit = 0 ∨ forall job, job ∈ db.job.rows -> job.queue = queue ->
        job.state ∈ states -> job.id ∈ locked) := by
  refine ⟨_, rfl, ?_⟩
  have selected : forall job : JobRow, (job.queue == queue && states.contains job.state) = true <->
      job.queue = queue ∧ job.state ∈ states := by
    intro job
    rw [Bool.and_eq_true, beq_iff_eq, List.contains_iff_mem]
  have victims := @lockCandidates_eq_nil_iff idOrder _
    (fun row => row.queue == queue && states.contains row.state) limit locked db.job.rows
  simp only [selected, and_imp] at victims
  rw [← victims, List.filter_eq_nil_iff, List.eq_nil_iff_forall_not_mem]
  constructor
  · intro kept id candidate
    rcases mem_lockCandidates candidate with ⟨row, member, _, rfl⟩
    exact kept row member (List.contains_iff_mem.mpr candidate)
  · intro none job _ victim
    exact none job.id (List.contains_iff_mem.mp victim)

/-- A batch is a change unless it is empty. -/
theorem plan_batch (size : 0 ≤ batchSize) {reply : Reply}
    (executed : purgeQueue queue states batchSize.toNat (moments 0).locked state.db = .ok reply)
    (next : List JobRow -> AdminScript) :
    plan (.ask (.purgeQueue queue states batchSize) next) moments state =
      (plan (next reply.rows) (later moments) (state.withDb reply.db)).after
        (if reply.rows.isEmpty then .silent
          else .change (.purged queue states (reply.rows.map JobRow.id))) := by
  have answered : adminMachine.exec (moments 0) state (.purgeQueue queue states batchSize) =
      (.ok reply.rows, state.withDb reply.db) := by
    simp only [adminMachine, AdminQuery.exec, executed, if_neg (Int.not_lt.mpr size)]
  rw [plan, run_ask_of_ok answered]
  rfl

/-- So many batches of a purge come before what finishes it, with the number of
jobs deleted until then. -/
inductive PurgesBefore (queue : String) (states : List JobState) (finish : Nat -> AdminScript)
    (deleted : Nat) (trace : AdminTrace) : Nat -> Prop
  | intro (effects : List (Scripts.Effect AdminChange AuditEntry)) (batches : List (List Nat))
      (moments : Nat -> AdminMoment) (state : AuditedTables)
      (split : trace.effects = effects ++
        (plan (finish (deleted + batches.flatten.length)) moments state).effects)
      (outcome : trace.outcome =
        (plan (finish (deleted + batches.flatten.length)) moments state).outcome)
      (unrecorded : Effect.records effects = [])
      (changed : Effect.changes effects = purgeChanges queue states batches) :
      PurgesBefore queue states finish deleted trace effects.length

/-- A batch that has been sent. -/
def batchEffect (queue : String) (states : List JobState) (rows : List JobRow) :
    Scripts.Effect AdminChange AuditEntry :=
  if rows.isEmpty then .silent else .change (.purged queue states (rows.map JobRow.id))

/-- One batch more. -/
theorem PurgesBefore.batch {deleted sent : Nat} {trace : AdminTrace} {rows : List JobRow}
    (purges : PurgesBefore queue states finish (deleted + rows.length) trace sent) :
    PurgesBefore queue states finish deleted (trace.after (batchEffect queue states rows))
      (sent + 1) := by
  rcases purges with ⟨effects, batches, moments, state, split, outcome, unrecorded, changed⟩
  cases rows with
  | nil =>
      exact .intro (.silent :: effects) batches moments state (congrArg (Effect.silent :: ·) split)
        outcome unrecorded changed
  | cons first more =>
      have counted : deleted + (((first :: more).map JobRow.id) :: batches).flatten.length =
          deleted + (first :: more).length + batches.flatten.length := by
        rw [List.flatten_cons, List.length_append, List.length_map, Nat.add_assoc]
      refine .intro (.change (.purged queue states ((first :: more).map JobRow.id)) :: effects)
        ((first :: more).map JobRow.id :: batches) moments state ?_ ?_ unrecorded ?_
      · rw [counted]
        exact congrArg (_ :: ·) split
      · rw [counted]
        exact outcome
      · exact congrArg (_ :: ·) changed

/-- The first batch of the loop, and what follows it. -/
theorem purgeBatches_step (size : 0 ≤ batchSize) {batches : Nat}
    (rest : forall deleted moments state, PurgesBefore queue states finish deleted
      (plan (AuditedOperation.purgeBatches queue states batchSize finish batches deleted)
        moments state) (batchesSent queue states batchSize.toNat batches moments state.db))
    (deleted : Nat) (moments : Nat -> AdminMoment) (state : AuditedTables) :
    Exists fun rows : List JobRow => Exists fun inner : AdminTrace => Exists fun sent : Nat =>
      (rows = [] <-> batchSize.toNat = 0 ∨ forall job, job ∈ state.db.job.rows ->
        job.queue = queue -> job.state ∈ states -> job.id ∈ (moments 0).locked) ∧
      plan (AuditedOperation.purgeBatches queue states batchSize finish (batches + 1) deleted)
        moments state = inner.after (batchEffect queue states rows) ∧
      PurgesBefore queue states finish (deleted + rows.length) inner sent ∧
      batchesSent queue states batchSize.toNat (batches + 1) moments state.db = sent + 1 := by
  rcases purgeQueue_ok queue states batchSize.toNat (moments 0).locked state.db with
    ⟨reply, executed, empty⟩
  unfold AuditedOperation.purgeBatches batchesSent
  rw [plan_batch size executed, executed]
  dsimp only
  by_cases short : (reply.rows.length : Int) < batchSize
  · have shortToo : reply.rows.length < batchSize.toNat := by omega
    rw [if_pos short, if_pos shortToo]
    exact ⟨reply.rows, _, 0, empty, rfl, .intro [] [] _ _ rfl rfl rfl rfl, rfl⟩
  · have full : Not (reply.rows.length < batchSize.toNat) := by omega
    rw [if_neg short, if_neg full]
    exact ⟨reply.rows, _, _, empty, rfl, rest _ _ _, Nat.add_comm 1 _⟩

/-- The loop of `purge`.  The induction is on the batches that may still
follow. -/
theorem purgeBatches_before (size : 0 ≤ batchSize) (batches deleted : Nat)
    (moments : Nat -> AdminMoment) (state : AuditedTables) :
    PurgesBefore queue states finish deleted
      (plan (AuditedOperation.purgeBatches queue states batchSize finish batches deleted)
        moments state) (batchesSent queue states batchSize.toNat batches moments state.db) := by
  induction batches generalizing deleted moments state with
  | zero => exact .intro [] [] moments state rfl rfl rfl rfl
  | succ batches inductionHypothesis =>
      rcases purgeBatches_step size inductionHypothesis deleted moments state with
        ⟨rows, inner, sent, _, split, purges, counted⟩
      rw [split, counted]
      exact purges.batch

theorem purge_planned {opts : PurgeOptions} {job : JobRow}
    (named : validateName queue "queue" = .ok ()) (member : job ∈ state.db.job.rows)
    (inQueue : job.queue = queue) (chosen : job.state ∈ states)
    (free : Not (job.id ∈ (moments 0).locked)) (size : 0 < opts.batchSize.getD 1000)
    (most : 0 < opts.maxBatches.getD 1000) :
    Planned actor ⟨0, batchesSent queue states (opts.batchSize.getD 1000).toNat
        (opts.maxBatches.getD 1000).toNat moments state.db,
        batchesSent queue states (opts.batchSize.getD 1000).toNat
          (opts.maxBatches.getD 1000).toNat moments state.db + 1⟩
      (plan (AuditedOperation.purge actor queue states queue opts) moments state) := by
  rcases Nat.exists_eq_succ_of_ne_zero (n := (opts.maxBatches.getD 1000).toNat) (by omega) with
    ⟨batches, isSucc⟩
  unfold AuditedOperation.purge
  rw [named, isSucc]
  dsimp only
  rw [if_neg (fun different => different rfl), if_neg (List.ne_nil_of_mem chosen)]
  rcases purgeBatches_step (Int.le_of_lt size) (purgeBatches_before (Int.le_of_lt size) batches) 0
    moments state with ⟨rows, inner, sent, empty, split, purges, counted⟩
  have some : rows ≠ [] := by
    intro none
    rcases empty.mp none with zero | locked
    · omega
    · exact free (locked job member inQueue chosen)
  rw [split, counted]
  rcases purges with ⟨effects, more, rest, last, splitRest, outcome, unrecorded, changed⟩
  have first : batchEffect queue states rows =
      .change (.purged queue states (rows.map JobRow.id)) := by
    rw [batchEffect, if_neg (fun none => some (List.isEmpty_iff.mp none))]
  rw [first]
  have planned := @Planned.of_audit actor _ _ _ _ rest last
    (inner.after (.change (.purged queue states (rows.map JobRow.id)))) [] effects _ 0
    (congrArg (_ :: ·) splitRest) outcome rfl rfl unrecorded ?_ (settles_done _ _)
  · rw [List.length_nil, Nat.zero_add, Nat.add_zero, Nat.add_comm 1] at planned
    exact planned
  · have described := @Describes.purged actor queue states (rows.map JobRow.id) more
    rw [List.flatten_cons, List.length_append, List.length_map] at described
    rw [changed, Nat.zero_add]
    exact described

/-- Without room for a job no batch deletes one.  The induction is on the
batches that may still follow. -/
theorem purgeBatches_idle (roomless : batchSize ≤ 0)
    (finished : forall deleted moments state,
      Effect.changes (plan (finish deleted) moments state).effects = [])
    (batches deleted : Nat) (moments : Nat -> AdminMoment) (state : AuditedTables) :
    Effect.changes (plan (AuditedOperation.purgeBatches queue states batchSize finish batches
      deleted) moments state).effects = [] := by
  induction batches generalizing deleted moments state with
  | zero => exact finished deleted moments state
  | succ batches inductionHypothesis =>
      unfold AuditedOperation.purgeBatches
      rcases Int.lt_or_eq_of_le roomless with negative | rfl
      · have refused : adminMachine.exec (moments 0) state (.purgeQueue queue states batchSize) =
            (.error .negativeLimit, state) := by
          simp only [adminMachine, AdminQuery.exec, if_pos negative]
        rw [plan, run_ask_of_error refused]
        rfl
      · rcases purgeQueue_ok queue states 0 (moments 0).locked state.db with
          ⟨reply, executed, empty⟩
        rw [plan_batch (Int.le_refl 0) executed, empty.mpr (Or.inl rfl)]
        exact inductionHypothesis deleted (later moments) (state.withDb reply.db)

/-- If the first batch is empty, it is the last one. -/
theorem purgeBatches_missed
    (locked : forall job, job ∈ state.db.job.rows -> job.queue = queue -> job.state ∈ states ->
      job.id ∈ (moments 0).locked)
    (finished : forall deleted moments state,
      Effect.changes (plan (finish deleted) moments state).effects = [])
    (batches deleted : Nat) :
    Effect.changes (plan (AuditedOperation.purgeBatches queue states batchSize finish batches
      deleted) moments state).effects = [] := by
  cases batches with
  | zero => exact finished deleted moments state
  | succ batches =>
      by_cases roomless : batchSize ≤ 0
      · exact purgeBatches_idle roomless finished _ deleted moments state
      · have room : 0 < batchSize := Int.not_le.mp roomless
        rcases purgeQueue_ok queue states batchSize.toNat (moments 0).locked state.db with
          ⟨reply, executed, empty⟩
        unfold AuditedOperation.purgeBatches
        rw [plan_batch (Int.le_of_lt room) executed, empty.mpr (Or.inr locked),
          List.length_nil, Int.natCast_zero, if_pos room]
        exact finished _ (later moments) (state.withDb reply.db)

theorem purge_unchanged {confirm : String} {opts : PurgeOptions} {cron : Cron} {clock : Int}
    (idle : forall places,
      Not (Writes cron clock moments state (.purge queue states confirm opts) places)) :
    Effect.changes (plan (AuditedOperation.purge actor queue states confirm opts) moments
      state).effects = [] := by
  have finished : forall deleted moments state, Effect.changes (plan
      (AuditedOperation.audit actor "queue.purge" (some queue) (some (.purged states deleted))
        (.done (.ok (.purged deleted)))) moments state).effects = [] :=
    fun deleted _ _ => audit_unchanged (.purged deleted)
  unfold AuditedOperation.purge
  cases named : validateName queue "queue" with
  | error error => rfl
  | ok _ =>
      dsimp only
      split
      · rfl
      · rename_i confirmed
        rw [not_not] at confirmed
        subst confirmed
        split
        · rfl
        · by_cases roomless : opts.batchSize.getD 1000 ≤ 0
          · exact purgeBatches_idle roomless finished _ 0 moments state
          · by_cases most : 0 < opts.maxBatches.getD 1000
            · apply purgeBatches_missed _ finished
              intro job member inQueue chosen
              by_contra free
              exact idle _ (.purge named member inQueue chosen free (Int.not_le.mp roomless) most)
            · rw [Int.toNat_of_nonpos (Int.not_lt.mp most)]
              exact finished 0 moments state

end Queues

/-! ## Schedules -/

section Schedules

variable {actor : String} {moments : Nat -> AdminMoment} {state : AuditedTables} {cron : Cron}
  {clock : Int} {id : NumericId}

theorem createSchedule_planned {p : ScheduleParams} {nextRunAt : Int}
    (occurs : cron.nextOccurrence p.cron (p.timezone.getD "UTC") clock = some nextRunAt)
    (free : forall row, row ∈ state.schedules.rows -> row.name ≠ p.name) :
    Planned actor ⟨0, 1, 2⟩
      (plan (AuditedOperation.createSchedule actor cron clock p) moments state) := by
  have inserted : Exists fun table : ScheduleTable =>
      createSchedule p nextRunAt (moments 0).now state.schedules =
        (table, some (newSchedule p state.schedules.nextId nextRunAt (moments 0).now)) := by
    unfold createSchedule
    rw [dif_neg (fun taken => taken.elim fun row isTaken => free row isTaken.1 isTaken.2)]
    exact ⟨_, rfl⟩
  rcases inserted with ⟨table, inserted⟩
  have executed : adminMachine.exec (moments 0) state (.createSchedule p nextRunAt) =
      (.ok (newSchedule p state.schedules.nextId nextRunAt (moments 0).now),
        state.withSchedules table) := by
    simp only [adminMachine, AdminQuery.exec, inserted]
  unfold AuditedOperation.createSchedule
  dsimp only
  rw [occurs]
  dsimp only
  rw [plan, run_ask_of_ok executed]
  exact @Planned.of_audit _ _ _ _ _ _ _ _ [] [] _ 0 rfl rfl rfl rfl rfl
    (.scheduleCreated (newSchedule p state.schedules.nextId nextRunAt (moments 0).now))
    (settles_done _ _)

theorem createSchedule_unchanged {p : ScheduleParams}
    (idle : forall places, Not (Writes cron clock moments state (.createSchedule p) places)) :
    Effect.changes (plan (AuditedOperation.createSchedule actor cron clock p) moments
      state).effects = [] := by
  unfold AuditedOperation.createSchedule
  dsimp only
  cases occurs : cron.nextOccurrence p.cron (p.timezone.getD "UTC") clock with
  | none => rfl
  | some nextRunAt =>
      have taken : Exists fun row : ScheduleRow => row ∈ state.schedules.rows ∧ row.name = p.name := by
        by_contra free
        exact idle _ (.createSchedule occurs (fun row member same => free ⟨row, member, same⟩))
      have refused : Exists fun table : ScheduleTable =>
          createSchedule p nextRunAt (moments 0).now state.schedules = (table, none) := by
        unfold createSchedule
        rw [dif_pos taken]
        exact ⟨_, rfl⟩
      rcases refused with ⟨table, refused⟩
      have executed : adminMachine.exec (moments 0) state (.createSchedule p nextRunAt) =
          (.error (.schedule .nameTaken), state.withSchedules table) := by
        simp only [adminMachine, AdminQuery.exec, refused]
      dsimp only
      rw [plan, run_ask_of_error executed]
      rfl

/-- Looking a schedule up. -/
theorem exec_getSchedule (fits : id.fitsBigint = true) (moment : AdminMoment) :
    adminMachine.exec moment state (.getSchedule id) =
      (.ok (state.schedules.find id.value), state) := by
  simp only [adminMachine, AdminQuery.exec, Scheduler.get, fits, if_true]

/-- A schedule that has been found is updated. -/
theorem exec_setScheduleEnabled (fits : id.fitsBigint = true) {row : ScheduleRow}
    (found : state.schedules.find id.value = some row) (enabled : Bool) (nextRunAt : Option Int)
    (moment : AdminMoment) :
    Exists fun updated : ScheduleRow => Exists fun table : ScheduleTable =>
      adminMachine.exec moment state (.setScheduleEnabled id enabled nextRunAt) =
        (.ok (some updated), state.withSchedules table) := by
  let next := setScheduleEnabled id.value enabled nextRunAt moment.now state.schedules
  have there : Exists fun updated : ScheduleRow => next.find id.value = some updated := by
    refine ⟨ScheduleTable.rewrite (fun row => row.id == id.value)
      (enableChange enabled nextRunAt moment.now) row, ?_⟩
    rw [show next.find id.value = _ from ScheduleTable.find_update _ _ _ _, found, Option.map_some]
  rcases there with ⟨updated, isUpdated⟩
  refine ⟨updated, next, ?_⟩
  rw [← isUpdated]
  simp only [adminMachine, AdminQuery.exec, fits, if_true, next]

theorem setSchedule_planned {enabled : Bool} {row : ScheduleRow} (fits : id.fitsBigint = true)
    (member : row ∈ state.schedules.rows) (same : row.id = id.value)
    (occurs : enabled = true -> cron.nextOccurrence row.cron row.timezone clock ≠ none) :
    Planned actor ⟨1, 2, 3⟩
      (plan (AuditedOperation.setSchedule actor cron clock id enabled) moments state) := by
  have found : state.schedules.find id.value = some row :=
    ScheduleTable.find_eq_some_iff.mpr ⟨member, same⟩
  unfold AuditedOperation.setSchedule
  rw [plan, run_ask_of_ok (exec_getSchedule fits (moments 0)), found]
  dsimp only
  cases enabled with
  | true =>
      rcases Option.ne_none_iff_exists'.mp (occurs rfl) with ⟨nextRunAt, isNext⟩
      rcases exec_setScheduleEnabled fits found true (some nextRunAt) (later moments 0) with
        ⟨updated, table, executed⟩
      rw [if_pos rfl, isNext]
      dsimp only
      rw [run_ask_of_ok executed]
      exact @Planned.of_audit _ _ _ _ _ _ _ _ [.silent] [] _ 0 rfl rfl rfl rfl rfl
        (.scheduleResumed id) (settles_done _ _)
  | false =>
      rcases exec_setScheduleEnabled fits found false none (later moments 0) with
        ⟨updated, table, executed⟩
      rw [if_neg Bool.false_ne_true, run_ask_of_ok executed]
      exact @Planned.of_audit _ _ _ _ _ _ _ _ [.silent] [] _ 0 rfl rfl rfl rfl rfl
        (.schedulePaused id) (settles_done _ _)

theorem setSchedule_unchanged {enabled : Bool}
    (idle : forall places, Not (Writes cron clock moments state (.setSchedule id enabled) places)) :
    Effect.changes (plan (AuditedOperation.setSchedule actor cron clock id enabled) moments
      state).effects = [] := by
  unfold AuditedOperation.setSchedule
  cases fits : id.fitsBigint with
  | false =>
      have executed : adminMachine.exec (moments 0) state (.getSchedule id) =
          (.error (.schedule .idOutOfRange), state) := by
        simp only [adminMachine, AdminQuery.exec, Scheduler.get, fits, if_false, Bool.false_eq_true]
      rw [plan, run_ask_of_error executed]
      rfl
  | true =>
      rw [plan, run_ask_of_ok (exec_getSchedule fits (moments 0))]
      cases found : state.schedules.find id.value with
      | none => rfl
      | some row =>
          have there := ScheduleTable.find_eq_some_iff.mp found
          have stuck : enabled = true ∧ cron.nextOccurrence row.cron row.timezone clock = none := by
            by_contra free
            exact idle _ (.setSchedule fits there.1 there.2 (fun isOn never => free ⟨isOn, never⟩))
          dsimp only
          rw [stuck.1, if_pos rfl, stuck.2]
          rfl

theorem deleteSchedule_planned {row : ScheduleRow} (fits : id.fitsBigint = true)
    (member : row ∈ state.schedules.rows) (same : row.id = id.value) :
    Planned actor ⟨0, 1, 2⟩
      (plan (AuditedOperation.deleteSchedule actor id) moments state) := by
  have found : state.schedules.find id.value = some row :=
    ScheduleTable.find_eq_some_iff.mpr ⟨member, same⟩
  have executed : Exists fun tables : Tables =>
      adminMachine.exec (moments 0) state (.deleteSchedule id) =
        (.ok true, { state with tables := tables }) := by
    rcases clearSchedule_commits id.value state.tables.db with ⟨reply, cleared⟩
    have deleted : deleteSchedule id.value state.tables =
        .ok (⟨reply.db, state.tables.schedules.delete id.value⟩, true) := by
      rw [deleteSchedule, show state.tables.schedules.find id.value = some row from found]
      dsimp only
      rw [cleared]
    refine ⟨⟨reply.db, state.tables.schedules.delete id.value⟩, ?_⟩
    simp only [adminMachine, AdminQuery.exec, Scheduler.delete, fits, if_true, deleted]
  rcases executed with ⟨tables, executed⟩
  unfold AuditedOperation.deleteSchedule
  rw [plan, run_ask_of_ok executed, if_pos rfl]
  exact @Planned.of_audit _ _ _ _ _ _ _ _ [] [] _ 0 rfl rfl rfl rfl rfl (.scheduleDeleted id)
    (settles_done _ _)

theorem deleteSchedule_unchanged
    (idle : forall places, Not (Writes cron clock moments state (.deleteSchedule id) places)) :
    Effect.changes (plan (AuditedOperation.deleteSchedule actor id) moments
      state).effects = [] := by
  unfold AuditedOperation.deleteSchedule
  cases fits : id.fitsBigint with
  | false =>
      have executed : adminMachine.exec (moments 0) state (.deleteSchedule id) =
          (.error (.schedule .idOutOfRange), state) := by
        simp only [adminMachine, AdminQuery.exec, Scheduler.delete, fits, if_false,
          Bool.false_eq_true]
      rw [plan, run_ask_of_error executed]
      rfl
  | true =>
      cases found : state.schedules.find id.value with
      | some row =>
          have there := ScheduleTable.find_eq_some_iff.mp found
          exact absurd (.deleteSchedule fits there.1 there.2) (idle _)
      | none =>
          have missing : deleteSchedule id.value state.tables = .ok (state.tables, false) := by
            rw [deleteSchedule, show state.tables.schedules.find id.value = none from found]
          have executed : adminMachine.exec (moments 0) state (.deleteSchedule id) =
              (.ok false, state) := by
            simp only [adminMachine, AdminQuery.exec, Scheduler.delete, fits, if_true, missing]
          rw [plan, run_ask_of_ok executed]
          rfl

end Schedules

/-! ## The whole operation -/

section Operations

variable {cron : Cron} {clock : Int} {actor : String} {operation : AdminOperation}
  {moments : Nat -> AdminMoment} {state : AuditedTables}

theorem planned_of_writes {places : Journal.Places}
    (writes : Writes cron clock moments state operation places) :
    Planned actor places (plan (operation.script cron clock actor) moments state) := by
  cases writes with
  | cancelAvailable finds => exact cancel_available finds
  | cancelRunning finds => exact cancel_running finds
  | retryNow finds => exact updateJob_planned rfl _ (.retried _) finds
  | replay finds => exact updateJob_planned rfl _ (.replayed _) finds
  | replayMany finds => exact replayMany_planned finds
  | setPaused named => exact setPaused_planned named
  | purge named member inQueue chosen free size most =>
      exact purge_planned named member inQueue chosen free size most
  | createSchedule occurs free => exact createSchedule_planned occurs free
  | setSchedule fits member same occurs => exact setSchedule_planned fits member same occurs
  | deleteSchedule fits member same => exact deleteSchedule_planned fits member same

theorem unchanged_of_idle (idle : forall places, Not (Writes cron clock moments state operation places)) :
    Effect.changes (plan (operation.script cron clock actor) moments state).effects = [] := by
  cases operation with
  | cancel id =>
      exact cancel_unchanged (fun finds => idle _ (.cancelAvailable finds))
        (fun finds => idle _ (.cancelRunning finds))
  | retryNow id => exact updateJob_unchanged _ (fun finds => idle _ (.retryNow finds))
  | replay id => exact updateJob_unchanged _ (fun finds => idle _ (.replay finds))
  | replayMany ids => exact replayMany_unchanged (fun finds => idle _ (.replayMany finds))
  | setPaused queue paused => exact setPaused_unchanged (fun named => idle _ (.setPaused named))
  | purge queue states confirm opts => exact purge_unchanged idle
  | createSchedule p => exact createSchedule_unchanged idle
  | setSchedule id enabled => exact setSchedule_unchanged idle
  | deleteSchedule id => exact deleteSchedule_unchanged idle

end Operations

/-- A call is atomic with its audit row, whatever befalls it, exactly if every
fault spares the change it makes.  A call that changes nothing in this state is
always spared. -/
theorem administration_atomic_iff (cron : Cron) (clock : Int) (actor : String)
    (operation : AdminOperation) (moments : Nat -> AdminMoment) (state : AuditedTables)
    (disturbance : Option (Disturbance OperationError)) :
    auditJournal.Atomic (Describes actor) state
        (run adminMachine (operation.script cron clock actor) moments disturbance state) <->
      forall places, Writes cron clock moments state operation places ->
        Spares actor places disturbance := by
  by_cases idle : forall places, Not (Writes cron clock moments state operation places)
  · refine ⟨fun _ places writes => absurd writes (idle places), fun _ => ?_⟩
    exact Journal.atomic_of_unchanged (not_describes_nil actor) (unchanged_of_idle idle) disturbance
  · rw [not_forall] at idle
    rcases idle with ⟨places, writes⟩
    rw [not_not] at writes
    constructor
    · exact fun atomic other otherWrites =>
        ((planned_of_writes otherWrites).atomic_iff disturbance).mp atomic
    · exact fun spared =>
        ((planned_of_writes writes).atomic_iff disturbance).mpr (spared places writes)

/-- Nothing is stored yet. -/
def noTables : AuditedTables where
  tables := ⟨.empty [] .empty, .empty⟩
  auditLog := []

/-- A queue is paused, and the insert of the audit row fails. -/
def unrecordedPause : AdminTrace :=
  run adminMachine (AuditedOperation.setPaused "system" "mail" true) (fun _ => ⟨0, []⟩)
    (some ⟨1, .refused (.driver "connection terminated")⟩) noTables

/-- The call throws, the queue is paused, and the audit log is empty. -/
theorem unrecordedPause_not_atomic :
    unrecordedPause.outcome = .threw (.driver "connection terminated") ∧
      unrecordedPause.state.db.queueConfig.rows = [newQueueConfig "mail" true] ∧
      unrecordedPause.state.auditLog = [] ∧
      Not (auditJournal.Atomic (Describes "system") noTables unrecordedPause) := by
  have named : validateName "mail" "queue" = .ok () := by decide
  have ran : unrecordedPause.outcome = .threw (.driver "connection terminated") ∧
      unrecordedPause.state.db.queueConfig.rows = [newQueueConfig "mail" true] ∧
      unrecordedPause.state.auditLog = [] := by
    unfold unrecordedPause AuditedOperation.setPaused
    rw [named]
    exact ⟨rfl, by decide, rfl⟩
  refine ⟨ran.1, ran.2.1, ran.2.2, fun atomic => ?_⟩
  have same : unrecordedPause.state.view = noTables.view := (atomic.unchanged ⟨_, ran.1⟩).2
  have noQueue := congrArg (fun view => view.2.1) same
  rw [show unrecordedPause.state.view.2.1 = _ from ran.2.1] at noQueue
  cases noQueue

end PgJobQ
