import PgJobQ.Server.AuditTrail

/-!
# Audited operations and the operations without the log

An operation that nothing disturbs leaves the tables, and gives the result, that
the operation without its audit row does.  The row is written last, so this
needs an actor that can be recorded, except where the call throws before.
-/

namespace PgJobQ

open Scripts

/-- A call has this result and leaves these tables. -/
structure Ends (trace : AdminTrace) (tables : Tables)
    (result : Except OperationError OperationResult) : Prop where
  tables : trace.state.tables = tables
  outcome : trace.outcome = .ofResult result

section

variable {actor : String} {moments : Nat -> AdminMoment} {state : AuditedTables}

namespace Ends

variable {trace : AdminTrace} {tables : Tables} {result : Except OperationError OperationResult}

theorem after {effect : Scripts.Effect AdminChange AuditEntry} (ends : Ends trace tables result) :
    Ends (trace.after effect) tables result :=
  ⟨ends.tables, ends.outcome⟩

/-- The audit row changes no other table. -/
theorem of_audit (storable : storableText actor = true) {action : String} {target : Option String}
    {detail : Option AuditDetail} {next : AdminScript}
    (ends : forall log, Ends (plan next (later moments) { state with auditLog := log }) tables
      result) :
    Ends (plan (AuditedOperation.audit actor action target detail next) moments state) tables
      result := by
  unfold plan
  rw [run_audit storable]
  exact (ends _).after

end Ends

/-! ## Jobs -/

theorem ends_update {update : JobUpdate} {next : List JobRow -> AdminScript}
    {tables : Tables} {result : Except OperationError OperationResult}
    (failed : forall error, Client.query update.ids update.statement (moments 0).now state.db =
      .error error -> tables = state.tables ∧ result = .error (.admin error))
    (replied : forall reply, Client.query update.ids update.statement (moments 0).now state.db =
      .ok reply -> Ends (plan (next reply.rows) (later moments) (state.withDb reply.db)) tables
        result) :
    Ends (plan (.ask (.updateJobs update) next) moments state) tables result := by
  unfold plan
  cases queried : Client.query update.ids update.statement (moments 0).now state.db with
  | error error =>
      rcases failed error queried with ⟨rfl, rfl⟩
      rw [run_ask_of_error (exec_updateJobs_of_error queried)]
      exact ⟨rfl, rfl⟩
  | ok reply =>
      rw [run_ask_of_ok (exec_updateJobs_of_ok queried)]
      exact (replied reply queried).after

/-- Reading a job gives what `Client.getJob` gives. -/
theorem ends_getJob (id : NumericId) {next : JobRow -> Except OperationError OperationResult} :
    Ends (plan (AuditedOperation.getJob id fun job => .done (next job)) moments state)
      state.tables (match Client.getJob id state.db with
        | .ok job => next job
        | .error error => .error (.admin error)) := by
  unfold AuditedOperation.getJob plan Client.getJob
  cases fits : id.fitsBigint with
  | false =>
      rw [run_ask_of_error (exec_getJob_of_not_fits fits (moments 0))]
      exact ⟨rfl, rfl⟩
  | true =>
      rw [run_ask_of_ok (exec_getJob fits (moments 0))]
      cases state.db.find id.value with
      | none => exact ⟨rfl, rfl⟩
      | some job => exact ⟨rfl, rfl⟩

theorem ends_refuse (id : NumericId) (reason : JobRow -> AdminError) :
    Ends (plan (AuditedOperation.getJob id fun current =>
        .done (.error (.admin (reason current)))) moments state)
      state.tables (.error (.admin (Client.refuse id state.db reason))) := by
  have ends := @ends_getJob moments state id (fun current => .error (.admin (reason current)))
  unfold Client.refuse
  cases found : Client.getJob id state.db with
  | ok current =>
      rw [found] at ends
      exact ends
  | error error =>
      rw [found] at ends
      exact ends

/-- The database an operation leaves, among the other tables. -/
def AuditedTables.leaves (state : AuditedTables) (db : Database) : Tables := ⟨db, state.schedules⟩

theorem cancel_ends (storable : storableText actor = true) (id : NumericId) :
    Ends (plan (AuditedOperation.cancel actor id) moments state)
      (state.leaves (Client.cancel id (moments 0).now (moments 1).now state.db).1)
      (((Client.cancel id (moments 0).now (moments 1).now state.db).2.mapError .admin).map
        .cancelled) := by
  unfold AuditedOperation.cancel Client.cancel
  apply ends_update
  · intro error failed
    rw [show Client.query [id] (.cancelAvailableJob id.value) (moments 0).now state.db = .error error
      from failed]
    exact ⟨rfl, rfl⟩
  · intro cancelled queried
    rw [show Client.query [id] (.cancelAvailableJob id.value) (moments 0).now state.db = .ok cancelled
      from queried]
    dsimp only
    cases none : cancelled.rows.isEmpty with
    | false =>
        rw [if_neg Bool.false_ne_true, if_neg Bool.false_ne_true]
        exact .of_audit storable (fun _ => ⟨rfl, rfl⟩)
    | true =>
        rw [if_pos rfl, if_pos rfl]
        apply ends_update
        · intro error failed
          rw [show Client.query [id] (.requestCancelRunningJob id.value) (moments 1).now cancelled.db =
            .error error from failed]
          exact ⟨rfl, rfl⟩
        · intro requested queried
          rw [show Client.query [id] (.requestCancelRunningJob id.value) (moments 1).now cancelled.db =
            .ok requested from queried]
          dsimp only
          cases none : requested.rows.isEmpty with
          | false =>
              rw [if_neg Bool.false_ne_true, if_neg Bool.false_ne_true]
              exact .of_audit storable (fun _ => ⟨rfl, rfl⟩)
          | true =>
              rw [if_pos rfl, if_pos rfl]
              exact ends_refuse id _

/-- An update of one job, refused for the job that is there. -/
theorem updateJob_ends (storable : storableText actor = true) {id : NumericId} {update : JobUpdate}
    {action : String} {refusal : JobRow -> AdminError} {db : Database}
    {result : Except AdminError JobRow}
    (failed : forall error, Client.query update.ids update.statement (moments 0).now state.db =
      .error error -> db = state.db ∧ result = .error error)
    (replied : forall reply, Client.query update.ids update.statement (moments 0).now state.db =
      .ok reply -> db = reply.db ∧ result = if reply.rows.isEmpty then
        .error (Client.refuse id reply.db refusal) else Client.getJob id reply.db) :
    Ends (plan (AuditedOperation.updateJob actor id update action refusal) moments state)
      (state.leaves db) ((result.mapError .admin).map .job) := by
  unfold AuditedOperation.updateJob
  apply ends_update
  · intro error queried
    rcases failed error queried with ⟨rfl, rfl⟩
    exact ⟨rfl, rfl⟩
  · intro reply queried
    rcases replied reply queried with ⟨rfl, rfl⟩
    cases none : reply.rows.isEmpty with
    | true =>
        rw [if_pos rfl, if_pos rfl]
        exact ends_refuse id refusal
    | false =>
        rw [if_neg Bool.false_ne_true, if_neg Bool.false_ne_true]
        apply Ends.of_audit storable
        intro log
        have ends := @ends_getJob (later (later moments))
          { state.withDb reply.db with auditLog := log } id (fun job => .ok (.job job))
        cases found : Client.getJob id reply.db with
        | ok job =>
            rw [show Client.getJob id (AuditedTables.db { state.withDb reply.db with auditLog := log })
              = .ok job from found] at ends
            exact ends
        | error error =>
            rw [show Client.getJob id (AuditedTables.db { state.withDb reply.db with auditLog := log })
              = .error error from found] at ends
            exact ends

theorem retryNow_ends (storable : storableText actor = true) (id : NumericId) :
    Ends (plan (AuditedOperation.retryNow actor id) moments state)
      (state.leaves (Client.retryNow id (moments 0).now state.db).1)
      (((Client.retryNow id (moments 0).now state.db).2.mapError .admin).map .job) := by
  apply updateJob_ends storable
  · intro error failed
    unfold Client.retryNow
    rw [show Client.query [id] (.retryJobNow id.value) (moments 0).now state.db = .error error
      from failed]
    exact ⟨rfl, rfl⟩
  · intro reply queried
    unfold Client.retryNow
    rw [show Client.query [id] (.retryJobNow id.value) (moments 0).now state.db = .ok reply
      from queried]
    dsimp only
    split
    · exact ⟨rfl, rfl⟩
    · exact ⟨rfl, rfl⟩

theorem replay_ends (storable : storableText actor = true) (id : NumericId) :
    Ends (plan (AuditedOperation.replay actor id) moments state)
      (state.leaves (Client.replay id (moments 0).now state.db).1)
      (((Client.replay id (moments 0).now state.db).2.mapError .admin).map .job) := by
  apply updateJob_ends storable
  · intro error failed
    unfold Client.replay
    rw [show Client.query [id] (.replayDeadJob id.value) (moments 0).now state.db = .error error
      from failed]
    exact ⟨rfl, rfl⟩
  · intro reply queried
    unfold Client.replay
    rw [show Client.query [id] (.replayDeadJob id.value) (moments 0).now state.db = .ok reply
      from queried]
    dsimp only
    split
    · exact ⟨rfl, rfl⟩
    · exact ⟨rfl, rfl⟩

theorem replayMany_ends (storable : storableText actor = true) (ids : List NumericId) :
    Ends (plan (AuditedOperation.replayMany actor ids) moments state)
      (state.leaves (Client.replayMany ids (moments 0).now state.db).1)
      (((Client.replayMany ids (moments 0).now state.db).2.mapError .admin).map .bulkReplay) := by
  unfold AuditedOperation.replayMany Client.replayMany
  split
  · exact ⟨rfl, rfl⟩
  · apply ends_update
    · intro error failed
      rw [show Client.query ids (.replayDeadJobs (ids.map NumericId.value)) (moments 0).now state.db =
        .error error from failed]
      exact ⟨rfl, rfl⟩
    · intro reply queried
      rw [show Client.query ids (.replayDeadJobs (ids.map NumericId.value)) (moments 0).now state.db =
        .ok reply from queried]
      exact .of_audit storable (fun _ => ⟨rfl, rfl⟩)

/-! ## Queues -/

theorem setPaused_ends (storable : storableText actor = true) (queue : String) (paused : Bool)
    (client : ClientState) :
    Ends (plan (AuditedOperation.setPaused actor queue paused) moments state)
      (state.leaves (Client.setPaused queue paused state.db client).2.1)
      (((Client.setPaused queue paused state.db client).1.mapError .client).map
        (fun _ => .pauseSet)) := by
  unfold AuditedOperation.setPaused Client.setPaused
  cases validateName queue "queue" with
  | error error => exact ⟨rfl, rfl⟩
  | ok _ =>
      have written : Ends (plan (AuditedOperation.audit actor
          (if paused then "queue.pause" else "queue.resume") (some queue) none
          (.done (.ok .pauseSet))) (later moments)
          (state.withDb { state.db with queueConfig := state.db.queueConfig.setPaused queue paused }))
          (state.leaves { state.db with queueConfig := state.db.queueConfig.setPaused queue paused })
          (.ok .pauseSet) := .of_audit storable (fun _ => ⟨rfl, rfl⟩)
      exact written.after

/-- The loop of `purge`.  The induction is on the batches that may still follow,
which number the locks there and stand for the moments here. -/
theorem purgeBatches_ends {queue : String} {states : List JobState} {finish : Nat -> AdminScript}
    {result : Nat -> OperationResult} {locked : Nat -> List Nat}
    (finished : forall deleted moments state,
      Ends (plan (finish deleted) moments state) state.tables (.ok (result deleted)))
    (batches deleted : Nat) (moments : Nat -> AdminMoment) (state : AuditedTables)
    (sameLocks : forall place, place < batches ->
      (moments place).locked = locked (batches - 1 - place)) :
    Ends (plan (AuditedOperation.purgeBatches queue states 1000 finish batches deleted) moments state)
      (state.leaves (Client.purgeBatches queue states locked batches deleted state.db).2)
      (((Client.purgeBatches queue states locked batches deleted state.db).1.mapError .client).map
        result) := by
  induction batches generalizing deleted moments state with
  | zero => exact finished deleted moments state
  | succ batches inductionHypothesis =>
      rcases purgeQueue_ok queue states 1000 (moments 0).locked state.db with ⟨reply, executed, _⟩
      have firstLocks := sameLocks 0 (Nat.succ_pos batches)
      rw [Nat.add_sub_cancel, Nat.sub_zero] at firstLocks
      unfold AuditedOperation.purgeBatches Client.purgeBatches
      rw [plan_batch (show (0 : Int) ≤ 1000 by decide) executed, ← firstLocks, executed]
      dsimp only
      apply Ends.after
      by_cases short : reply.rows.length < 1000
      · have shortToo : (reply.rows.length : Int) < 1000 := by omega
        rw [if_pos short, if_pos shortToo]
        exact finished _ _ _
      · have full : Not ((reply.rows.length : Int) < 1000) := by omega
        rw [if_neg short, if_neg full]
        apply inductionHypothesis _ (later moments) (state.withDb reply.db)
        intro place before
        have next := sameLocks (place + 1) (Nat.succ_lt_succ before)
        have remaining : batches + 1 - 1 - (place + 1) = batches - 1 - place := by omega
        rw [remaining] at next
        exact next

theorem purge_ends (storable : storableText actor = true) (queue : String)
    (states : List JobState) (confirm : String) :
    Ends (plan (AuditedOperation.purge actor queue states confirm ⟨none, none⟩) moments state)
      (state.leaves (Client.purge queue states confirm
        (fun remaining => (moments (999 - remaining)).locked) state.db).2)
      (((Client.purge queue states confirm (fun remaining => (moments (999 - remaining)).locked)
        state.db).1.mapError .client).map .purged) := by
  unfold AuditedOperation.purge Client.purge
  cases validateName queue "queue" with
  | error error => exact ⟨rfl, rfl⟩
  | ok _ =>
      dsimp only
      split
      · exact ⟨rfl, rfl⟩
      · split
        · exact ⟨rfl, rfl⟩
        · apply purgeBatches_ends
          · exact fun deleted moments state => .of_audit storable (fun _ => ⟨rfl, rfl⟩)
          · intro place before
            have within : place < 1000 := before
            have there : 999 - (1000 - 1 - place) = place := by omega
            show _ = (moments (999 - (1000 - 1 - place))).locked
            rw [there]

/-! ## Schedules -/

theorem createSchedule_ends (storable : storableText actor = true) (cron : Cron) (clock : Int)
    (p : ScheduleParams) :
    Ends (plan (AuditedOperation.createSchedule actor cron clock p) moments state)
      ⟨state.db, (Scheduler.create cron p clock (moments 0).now state.schedules).2⟩
      (((Scheduler.create cron p clock (moments 0).now state.schedules).1.mapError .schedule).map
        .schedule) := by
  unfold AuditedOperation.createSchedule Scheduler.create plan
  dsimp only
  cases cron.nextOccurrence p.cron (p.timezone.getD "UTC") clock with
  | none => exact ⟨rfl, rfl⟩
  | some nextRunAt =>
      dsimp only
      cases inserted : createSchedule p nextRunAt (moments 0).now state.schedules with
      | mk table row =>
          cases row with
          | none =>
              have executed : adminMachine.exec (moments 0) state (.createSchedule p nextRunAt) =
                  (.error (.schedule .nameTaken), state.withSchedules table) := by
                simp only [adminMachine, AdminQuery.exec, inserted]
              rw [run_ask_of_error executed]
              exact ⟨rfl, rfl⟩
          | some row =>
              have executed : adminMachine.exec (moments 0) state (.createSchedule p nextRunAt) =
                  (.ok row, state.withSchedules table) := by
                simp only [adminMachine, AdminQuery.exec, inserted]
              rw [run_ask_of_ok executed]
              have written : Ends (plan (AuditedOperation.audit actor "schedule.create"
                  (some (Nat.repr row.id)) (some (.named p.name)) (.done (.ok (.schedule row))))
                  (later moments) (state.withSchedules table)) ⟨state.db, table⟩
                  (.ok (.schedule row)) := .of_audit storable (fun _ => ⟨rfl, rfl⟩)
              exact written.after

/-- What the route makes of the schedule it has set. -/
def scheduleResult : Option ScheduleRow -> OperationResult
  | some row => .schedule row
  | none => .scheduleNotFound

/-- The update of a schedule with its audit row. -/
theorem setScheduleEnabled_ends (storable : storableText actor = true) {id : NumericId}
    (fits : id.fitsBigint = true) (enabled : Bool) (nextRunAt : Option Int) (action : String) :
    Ends (plan (.ask (.setScheduleEnabled id enabled nextRunAt) fun updated =>
        match updated with
        | none => .done (.ok .scheduleNotFound)
        | some updated =>
            AuditedOperation.audit actor action (some id.text) none (.done (.ok (.schedule updated))))
        moments state)
      ⟨state.db, setScheduleEnabled id.value enabled nextRunAt (moments 0).now state.schedules⟩
      (.ok (scheduleResult ((setScheduleEnabled id.value enabled nextRunAt (moments 0).now
        state.schedules).find id.value))) := by
  let table := setScheduleEnabled id.value enabled nextRunAt (moments 0).now state.schedules
  have executed : adminMachine.exec (moments 0) state (.setScheduleEnabled id enabled nextRunAt) =
      (.ok (table.find id.value), state.withSchedules table) := by
    simp only [adminMachine, AdminQuery.exec, fits, if_true, table]
  rw [plan, run_ask_of_ok executed]
  show Ends _ ⟨state.db, table⟩ (.ok (scheduleResult (table.find id.value)))
  cases table.find id.value with
  | none => exact ⟨rfl, rfl⟩
  | some updated =>
      have written : Ends (plan (AuditedOperation.audit actor action (some id.text) none
          (.done (.ok (.schedule updated)))) (later moments) (state.withSchedules table))
          ⟨state.db, table⟩ (.ok (.schedule updated)) := .of_audit storable (fun _ => ⟨rfl, rfl⟩)
      exact written.after

theorem setSchedule_ends (storable : storableText actor = true) (cron : Cron) (clock : Int)
    (id : NumericId) (enabled : Bool) :
    Ends (plan (AuditedOperation.setSchedule actor cron clock id enabled) moments state)
      ⟨state.db, (Scheduler.setEnabled cron id enabled clock (moments 1).now state.schedules).2⟩
      (((Scheduler.setEnabled cron id enabled clock (moments 1).now state.schedules).1.mapError
        .schedule).map scheduleResult) := by
  unfold AuditedOperation.setSchedule Scheduler.setEnabled plan
  dsimp only
  cases fits : id.fitsBigint with
  | false =>
      have outOfRange : Scheduler.get id state.schedules = .error .idOutOfRange := by
        rw [Scheduler.get, fits, if_neg Bool.false_ne_true]
      have executed : adminMachine.exec (moments 0) state (.getSchedule id) =
          (.error (.schedule .idOutOfRange), state) := by
        simp only [adminMachine, AdminQuery.exec, outOfRange]
      rw [run_ask_of_error executed, outOfRange]
      exact ⟨rfl, rfl⟩
  | true =>
      have looked : Scheduler.get id state.schedules = .ok (state.schedules.find id.value) := by
        rw [Scheduler.get, fits, if_pos rfl]
      rw [run_ask_of_ok (exec_getSchedule fits (moments 0)), looked]
      apply Ends.after
      cases state.schedules.find id.value with
      | none => exact ⟨rfl, rfl⟩
      | some existing =>
          dsimp only
          cases enabled with
          | false =>
              rw [if_neg Bool.false_ne_true, if_neg Bool.false_ne_true]
              exact setScheduleEnabled_ends storable fits false none "schedule.pause"
          | true =>
              rw [if_pos rfl, if_pos rfl]
              cases cron.nextOccurrence existing.cron existing.timezone clock with
              | none => exact ⟨rfl, rfl⟩
              | some nextRunAt =>
                  exact setScheduleEnabled_ends storable fits true (some nextRunAt)
                    "schedule.resume"

theorem deleteSchedule_ends (storable : storableText actor = true) (id : NumericId) :
    Ends (plan (AuditedOperation.deleteSchedule actor id) moments state)
      (Scheduler.delete id state.tables).2
      (((Scheduler.delete id state.tables).1.mapError .schedule).map
        (fun deleted => if deleted then .scheduleDeleted else .scheduleNotFound)) := by
  unfold AuditedOperation.deleteSchedule plan
  cases done : Scheduler.delete id state.tables with
  | mk result tables =>
      cases result with
      | error error =>
          have executed : adminMachine.exec (moments 0) state (.deleteSchedule id) =
              (.error (.schedule error), { state with tables := tables }) := by
            simp only [adminMachine, AdminQuery.exec, done]
          rw [run_ask_of_error executed]
          exact ⟨rfl, rfl⟩
      | ok deleted =>
          have executed : adminMachine.exec (moments 0) state (.deleteSchedule id) =
              (.ok deleted, { state with tables := tables }) := by
            simp only [adminMachine, AdminQuery.exec, done]
          rw [run_ask_of_ok executed]
          cases deleted with
          | false => exact ⟨rfl, rfl⟩
          | true =>
              have written : Ends (plan (AuditedOperation.audit actor "schedule.delete"
                  (some id.text) none (.done (.ok .scheduleDeleted))) (later moments)
                  { state with tables := tables }) tables (.ok .scheduleDeleted) :=
                .of_audit storable (fun _ => ⟨rfl, rfl⟩)
              exact written.after

end

end PgJobQ
