import PgJobQ.Lifecycle.RetentionService
import PgJobQ.Server.Operators

/-!
# What a purge deletes

A purge deletes in batches, each in a transaction of its own, and jobs come and
go between them.  Every job is deleted by one batch at most, since ids are not
used again, so the numbers that purges report add up.  A batch that is not full
has met every job of the queue in these states that nobody had locked.
-/

namespace PgJobQ

open Scripts

/-! ## A batch -/

section

variable (queue : String) (states : List JobState) (limit : Nat) (locked : List Nat)
  (db : Database)

/-- The jobs a purge is for. -/
def purgeSelects (job : JobRow) : Bool := job.queue == queue && states.contains job.state

/-- The jobs the next batch locks. -/
def purgeCandidates : List Nat :=
  lockCandidates idOrder (purgeSelects queue states) limit locked db.job.rows

/-- The jobs the next batch deletes. -/
def purgedRows : List JobRow :=
  db.job.rows.filter (fun job => (purgeCandidates queue states limit locked db).contains job.id)

def purgedDb : Database :=
  db.deleteJobs (fun job => (purgeCandidates queue states limit locked db).contains job.id)

theorem purgeQueue_eq : purgeQueue queue states limit locked db =
    .ok ⟨purgedDb queue states limit locked db, purgedRows queue states limit locked db⟩ := rfl

end

section

variable {queue : String} {states : List JobState} {limit : Nat} {locked : List Nat}
  {db : Database}

theorem purgeSelects_iff {job : JobRow} :
    purgeSelects queue states job = true <-> job.queue = queue ∧ job.state ∈ states := by
  rw [purgeSelects, Bool.and_eq_true, beq_iff_eq, List.contains_iff_mem]

theorem mem_purgedRows {job : JobRow} :
    job ∈ purgedRows queue states limit locked db <->
      job ∈ db.job.rows ∧ job.id ∈ purgeCandidates queue states limit locked db := by
  rw [purgedRows, List.mem_filter, List.contains_iff_mem]

theorem nodup_purgedRows : ((purgedRows queue states limit locked db).map JobRow.id).Nodup :=
  db.job.nodup_ids.sublist (List.Sublist.map _ List.filter_sublist)

theorem nodup_purgeCandidates : (purgeCandidates queue states limit locked db).Nodup := by
  have sorted := List.Perm.map JobRow.id
    (List.perm_insertionSort idOrder (db.job.rows.filter (purgeSelects queue states)))
  have selected : ((db.job.rows.filter (purgeSelects queue states)).map JobRow.id).Nodup :=
    db.job.nodup_ids.sublist (List.Sublist.map _ List.filter_sublist)
  exact ((sorted.nodup_iff.mpr selected).filter _).sublist (List.take_sublist _ _)

/-- What is deleted is what was locked. -/
theorem purgedRows_perm : ((purgedRows queue states limit locked db).map JobRow.id).Perm
    (purgeCandidates queue states limit locked db) := by
  rw [List.perm_ext_iff_of_nodup nodup_purgedRows nodup_purgeCandidates]
  intro id
  rw [List.mem_map]
  constructor
  · rintro ⟨row, member, rfl⟩
    exact (mem_purgedRows.mp member).2
  · intro candidate
    rcases mem_lockCandidates candidate with ⟨row, member, _, rfl⟩
    exact ⟨row, mem_purgedRows.mpr ⟨member, candidate⟩, rfl⟩

theorem length_purgedRows : (purgedRows queue states limit locked db).length =
    (purgeCandidates queue states limit locked db).length := by
  have same := (@purgedRows_perm queue states limit locked db).length_eq
  rwa [List.length_map] at same

theorem length_purgedRows_le : (purgedRows queue states limit locked db).length ≤ limit := by
  rw [length_purgedRows]
  exact length_lockCandidates_le _ _ _ _ _

/-- What a batch deletes is there, is what the purge is for, and nobody has
locked it. -/
theorem purges_of_mem {job : JobRow} (member : job ∈ purgedRows queue states limit locked db) :
    db.find job.id = some job ∧ job.queue = queue ∧ job.state ∈ states ∧ job.id ∉ locked := by
  have chosen := mem_purgedRows.mp member
  have found := Database.find_of_mem chosen.1
  rcases mem_lockCandidates chosen.2 with ⟨row, rowMem, selected, same⟩
  have sameRow : row = job := db.job.eq_of_id rowMem chosen.1 same
  rw [sameRow] at selected
  have wanted := purgeSelects_iff.mp selected
  have free := (List.mem_filter.mp (List.mem_of_mem_take chosen.2)).2
  rw [Bool.not_eq_true', Bool.eq_false_iff, ne_eq, List.contains_iff_mem] at free
  exact ⟨found, wanted.1, wanted.2, free⟩

theorem gone_of_purged {job : JobRow} (member : job ∈ purgedRows queue states limit locked db) :
    Gone job.id (purgedDb queue states limit locked db) := by
  have chosen := mem_purgedRows.mp member
  exact ⟨db.identity job chosen.1,
    find_eq_none_of_deleted rfl chosen.1 (List.contains_iff_mem.mpr chosen.2)⟩

/-- A batch that is not full leaves only jobs that others have locked. -/
theorem locked_of_short (short : (purgedRows queue states limit locked db).length < limit)
    {job : JobRow} (left : job ∈ (purgedDb queue states limit locked db).job.rows)
    (inQueue : job.queue = queue) (chosen : job.state ∈ states) : job.id ∈ locked := by
  have kept := List.mem_filter.mp left
  by_contra free
  have spared := kept.2
  rw [Bool.not_eq_true', Bool.eq_false_iff, ne_eq, List.contains_iff_mem] at spared
  apply spared
  rw [length_purgedRows] at short
  unfold purgeCandidates lockCandidates at short ⊢
  rw [List.length_take] at short
  rw [List.take_of_length_le (by omega)]
  refine List.mem_filter.mpr ⟨List.mem_map_of_mem ((List.mem_insertionSort _).mpr
    (List.mem_filter.mpr ⟨kept.1, purgeSelects_iff.mpr ⟨inQueue, chosen⟩⟩)), ?_⟩
  rw [Bool.not_eq_true', Bool.eq_false_iff, ne_eq, List.contains_iff_mem]
  exact free

end

/-! ## The jobs that statements of operators purge -/

def AdminChange.purgedJobs : AdminChange -> List Nat
  | purged _ _ jobs => jobs
  | _ => []

/-- The jobs that these effects have purged. -/
def purgedJobs (effects : List (Scripts.Effect AdminChange AuditEntry)) : List Nat :=
  (Effect.changes effects).flatMap AdminChange.purgedJobs

theorem purgedJobs_append (before after : List (Scripts.Effect AdminChange AuditEntry)) :
    purgedJobs (before ++ after) = purgedJobs before ++ purgedJobs after := by
  rw [purgedJobs, Effect.changes_append, List.flatMap_append]
  exact rfl

theorem purgedJobs_batchEffect (queue : String) (states : List JobState) (rows : List JobRow) :
    purgedJobs [batchEffect queue states rows] = rows.map JobRow.id := by
  unfold batchEffect
  split
  · rename_i silent
    rw [List.isEmpty_iff.mp silent]
    exact rfl
  · exact List.append_nil _

/-- What a statement purges was there and is there no more, and what was gone
before stays away. -/
structure PurgesOnly (before after : Database) (jobs : List Nat) : Prop where
  distinct : jobs.Nodup
  present : forall id, id ∈ jobs -> before.find id ≠ none
  gone : forall id, id ∈ jobs -> Gone id after
  stays : forall id, Gone id before -> Gone id after

theorem PurgesOnly.of_stays {before after : Database}
    (stays : forall id, Gone id before -> Gone id after) : PurgesOnly before after [] :=
  ⟨List.nodup_nil, fun _ none => absurd none List.not_mem_nil,
    fun _ none => absurd none List.not_mem_nil, stays⟩

theorem Gone.exec {Answer : Type} {id : Nat} {state : AuditedTables} (gone : Gone id state.db)
    (query : AdminQuery Answer) (moment : AdminMoment) :
    Gone id (query.exec moment state).2.db := by
  cases query with
  | updateJobs update =>
      simp only [AdminQuery.exec]
      split
      · exact gone
      · rename_i reply queried
        exact gone.mutation (Client.run_of_query (update.isUpdate _ _) queried).2
  | getJob id =>
      simp only [AdminQuery.exec]
      split <;> exact gone
  | setQueuePaused queue paused =>
      simp only [AdminQuery.exec]
      split
      · exact gone
      · rename_i reply committed
        have same := gone.step ⟨0, .setQueuePaused queue paused⟩
        rwa [@Database.step_of_ok _ ⟨0, .setQueuePaused queue paused⟩ _ committed] at same
  | purgeQueue queue states limit =>
      simp only [AdminQuery.exec]
      split
      · exact gone
      · exact gone.delete _
  | createSchedule p nextRunAt =>
      simp only [AdminQuery.exec]
      split <;> exact gone
  | getSchedule id =>
      simp only [AdminQuery.exec]
      split <;> exact gone
  | setScheduleEnabled id enabled nextRunAt =>
      simp only [AdminQuery.exec]
      split <;> exact gone
  | deleteSchedule id =>
      simp only [AdminQuery.exec, Scheduler.delete, PgJobQ.deleteSchedule]
      split
      · rename_i failed
        split at failed
        · split at failed
          · cases failed
            exact gone
          · cases failed
        · cases failed
          exact gone
      · rename_i deleted
        split at deleted
        · split at deleted
          · cases deleted
          · rename_i done
            cases deleted
            split at done
            · cases done
              exact gone
            · split at done
              · cases done
              · rename_i reply committed
                cases done
                exact gone.mutation committed
        · cases deleted
  | insertAuditLog entry =>
      simp only [AdminQuery.exec]
      split <;> exact gone

/-- The next statement of an operation, whichever it is. -/
theorem purgesOnly_answered (moment : AdminMoment) (state : AuditedTables) (script : AdminScript) :
    PurgesOnly state.db (advance adminMachine moment state .answered script).1.db
      (purgedJobs (advance adminMachine moment state .answered script).2.2) := by
  cases script with
  | done result => exact .of_stays (fun _ gone => gone)
  | ask query next =>
      have stays : forall id, Gone id state.db -> Gone id (query.exec moment state).2.db :=
        fun id gone => gone.exec query moment
      cases executed : query.exec moment state with
      | mk outcome after =>
          rw [executed] at stays
          have ran : adminMachine.exec moment state query = (outcome, after) := executed
          cases outcome with
          | error failure =>
              simp only [advance, ran]
              exact .of_stays stays
          | ok answer =>
              simp only [advance, ran]
              cases query with
              | purgeQueue queue states limit =>
                  simp only [AdminQuery.exec, purgeQueue_eq] at executed
                  split at executed
                  · cases executed
                  · cases executed
                    have purged := purgedJobs_batchEffect queue states
                      (purgedRows queue states limit.toNat moment.locked state.db)
                    rw [show adminMachine.effect (.purgeQueue queue states limit)
                      (purgedRows queue states limit.toNat moment.locked state.db) =
                        batchEffect queue states _ from rfl, purged]
                    refine ⟨nodup_purgedRows, ?_, ?_, stays⟩
                    · intro id listed
                      rcases List.mem_map.mp listed with ⟨row, member, rfl⟩
                      rw [(purges_of_mem member).1]
                      exact Option.some_ne_none row
                    · intro id listed
                      rcases List.mem_map.mp listed with ⟨row, member, rfl⟩
                      exact gone_of_purged member
              | updateJobs update =>
                  have none : purgedJobs [(AdminQuery.updateJobs update).effect answer] = [] := by
                    simp only [AdminQuery.effect]
                    split <;> exact rfl
                  exact none ▸ .of_stays stays
              | setScheduleEnabled id enabled nextRunAt =>
                  have none : purgedJobs
                      [(AdminQuery.setScheduleEnabled id enabled nextRunAt).effect answer] = [] := by
                    simp only [AdminQuery.effect]
                    split <;> exact rfl
                  exact none ▸ .of_stays stays
              | deleteSchedule id =>
                  have none : purgedJobs [(AdminQuery.deleteSchedule id).effect answer] = [] := by
                    simp only [AdminQuery.effect]
                    split <;> exact rfl
                  exact none ▸ .of_stays stays
              | getJob id => exact .of_stays stays
              | setQueuePaused queue paused => exact .of_stays stays
              | createSchedule p nextRunAt => exact .of_stays stays
              | getSchedule id => exact .of_stays stays
              | insertAuditLog entry => exact .of_stays stays

theorem purgesOnly_advance (moment : AdminMoment) (state : AuditedTables)
    (fate : TurnFate OperationError) (script : AdminScript) :
    PurgesOnly state.db (advance adminMachine moment state fate script).1.db
      (purgedJobs (advance adminMachine moment state fate script).2.2) := by
  rcases @advance_executes _ _ _ _ _ _ _ adminMachine moment state fate script with
    ⟨stays, silent⟩ | ⟨same, effects⟩
  · rw [stays, silent]
    exact .of_stays (fun _ gone => gone)
  · rw [same, effects]
    exact purgesOnly_answered moment state script

/-! ## All purges -/

/-- No job is purged twice, and none that has been purged comes back. -/
theorem purges_distinct (cron : Cron) (operators : Nat -> Operator) (state : AuditedTables)
    (turns : List AdminTurn) :
    (purgedJobs ((operatorsAfter cron operators state turns).history.map Prod.snd)).Nodup ∧
      forall id, id ∈ purgedJobs
          ((operatorsAfter cron operators state turns).history.map Prod.snd) ->
        Gone id (operatorsAfter cron operators state turns).state.db := by
  apply @Runs.run_invariant _ _ (Shared.step adminMachine Meanwhile.apply) (fun shared =>
    (purgedJobs (shared.history.map Prod.snd)).Nodup ∧
      forall id, id ∈ purgedJobs (shared.history.map Prod.snd) -> Gone id shared.state.db)
  · rintro shared turn ⟨distinct, gone⟩
    cases turn with
    | others other =>
        cases other with
        | call made => exact ⟨distinct, fun id listed => (gone id listed).step made⟩
        | schedules next => exact ⟨distinct, gone⟩
    | own index moment fate =>
        have only := purgesOnly_advance moment shared.state fate (shared.parties index).script
        have joined : purgedJobs ((shared.step adminMachine Meanwhile.apply
              (.own index moment fate)).history.map Prod.snd) =
            purgedJobs (shared.history.map Prod.snd) ++ purgedJobs (advance adminMachine moment
              shared.state fate (shared.parties index).script).2.2 := by
          simp only [Shared.step, List.map_append, List.map_map, Function.comp_def, List.map_id',
            purgedJobs_append]
        rw [joined]
        constructor
        · refine distinct.append only.distinct fun id earlier now => ?_
          exact only.present id now (gone id earlier).absent
        · intro id listed
          rcases List.mem_append.mp listed with earlier | now
          · exact only.stays id (gone id earlier)
          · exact only.gone id now
  · exact ⟨List.nodup_nil, fun _ none => absurd none List.not_mem_nil⟩

/-- A batch deletes jobs of the purge that nobody has locked. -/
theorem purged_of_advance {moment : AdminMoment} {state : AuditedTables}
    {fate : TurnFate OperationError} {script : AdminScript} {queue : String} {states : List JobState}
    {jobs : List Nat}
    (made : .change (.purged queue states jobs) ∈
      (advance adminMachine moment state fate script).2.2) {id : Nat} (listed : id ∈ jobs) :
    Exists fun job : JobRow => state.db.find id = some job ∧ job.queue = queue ∧
      job.state ∈ states ∧ id ∉ moment.locked := by
  rcases @advance_executes _ _ _ _ _ _ _ adminMachine moment state fate script with
    ⟨_, silent⟩ | ⟨_, effects⟩
  · rw [silent] at made
    cases made
  rw [effects] at made
  cases script with
  | done result => cases made
  | ask query next =>
      cases executed : query.exec moment state with
      | mk outcome after =>
          have ran : adminMachine.exec moment state query = (outcome, after) := executed
          cases outcome with
          | error failure =>
              simp only [advance, ran] at made
              cases made
          | ok answer =>
              simp only [advance, ran] at made
              have same := List.mem_singleton.mp made
              cases query with
              | purgeQueue ofQueue inStates limit =>
                  simp only [AdminQuery.exec, purgeQueue_eq] at executed
                  split at executed
                  · cases executed
                  · cases executed
                    simp only [adminMachine, AdminQuery.effect] at same
                    split at same
                    · cases same
                    · cases same
                      rcases List.mem_map.mp listed with ⟨row, member, rfl⟩
                      exact ⟨row, purges_of_mem member⟩
              | updateJobs update =>
                  simp only [adminMachine, AdminQuery.effect] at same
                  split at same <;> cases same
              | setScheduleEnabled id enabled nextRunAt =>
                  simp only [adminMachine, AdminQuery.effect] at same
                  split at same <;> cases same
              | deleteSchedule id =>
                  simp only [adminMachine, AdminQuery.effect] at same
                  split at same <;> cases same
              | getJob id => cases same
              | setQueuePaused queue paused => cases same
              | createSchedule p nextRunAt => cases same
              | getSchedule id => cases same
              | insertAuditLog entry => cases same

/-- However purges, other operators, workers and clients come in between: no job
is counted by two batches, what was counted is gone for good, and it was in the
queue and in one of the states when a batch of this operator deleted it. -/
theorem purges_add_up (cron : Cron) (operators : Nat -> Operator) (state : AuditedTables)
    (turns : List AdminTurn) :
    (purgedJobs ((operatorsAfter cron operators state turns).history.map Prod.snd)).Nodup ∧
      (forall id, id ∈ purgedJobs
          ((operatorsAfter cron operators state turns).history.map Prod.snd) ->
        (operatorsAfter cron operators state turns).state.db.find id = none) ∧
      forall index queue states jobs, (index, .change (.purged queue states jobs)) ∈
          (operatorsAfter cron operators state turns).history -> forall id, id ∈ jobs ->
        Exists fun before : List AdminTurn => Exists fun moment : AdminMoment =>
          Exists fun fate : TurnFate OperationError => Exists fun rest : List AdminTurn =>
            Exists fun job : JobRow => turns = before ++ .own index moment fate :: rest ∧
            (operatorsAfter cron operators state before).state.db.find id = some job ∧
            job.queue = queue ∧ job.state ∈ states ∧ id ∉ moment.locked := by
  have distinct := purges_distinct cron operators state turns
  refine ⟨distinct.1, fun id listed => (distinct.2 id listed).absent, ?_⟩
  intro index queue states jobs done id listed
  rcases Shared.turn_of_history done with ⟨before, moment, fate, rest, split, made⟩
  rcases purged_of_advance made listed with ⟨job, purged⟩
  exact ⟨before, moment, fate, rest, job, split, purged⟩

/-! ## One purge -/

section

variable (actor queue : String) (states : List JobState)

/-- What follows the last batch. -/
def purgeReport (deleted : Nat) : AdminScript :=
  AuditedOperation.audit actor "queue.purge" (some queue) (some (.purged states deleted))
    (.done (.ok (.purged deleted)))

/-- How far a purge has come.  It goes on as long as all batches were full. -/
inductive PurgeStage (size : Int) (most : Nat) (swept : Prop) : AdminParty -> Prop
  | deleting {effects} (left : Nat)
      (full : (purgedJobs effects).length + size.toNat * left = size.toNat * most) :
      PurgeStage size most swept ⟨AuditedOperation.purgeBatches queue states size
        (purgeReport actor queue states) left (purgedJobs effects).length, effects⟩
  | reporting {effects}
      (complete : (purgedJobs effects).length = size.toNat * most ∨ swept) :
      PurgeStage size most swept
        ⟨purgeReport actor queue states (purgedJobs effects).length, effects⟩
  | reported {effects}
      (complete : (purgedJobs effects).length = size.toNat * most ∨ swept) :
      PurgeStage size most swept ⟨.done (.ok (.purged (purgedJobs effects).length)), effects⟩
  | refused {effects} (error : OperationError) :
      PurgeStage size most swept ⟨.done (.error error), effects⟩

/-- Nothing is left that the purge is for and nobody has locked. -/
def Swept (moment : AdminMoment) (db : Database) : Prop :=
  forall job, job ∈ db.job.rows -> job.queue = queue -> job.state ∈ states -> job.id ∈ moment.locked

/-- Between the two the purge has sent a batch, and it goes on to its report. -/
structure LastBatch (size : Int) (before after : AdminParty) : Prop where
  batch : Exists fun next : List JobRow -> AdminScript =>
    before.script = .ask (.purgeQueue queue states size) next
  reports : after.script = purgeReport actor queue states (purgedJobs after.effects).length

end

section

variable {actor queue : String} {states : List JobState} {size : Int} {most : Nat} {swept : Prop}

theorem PurgeStage.later {now : Prop} (still : swept -> now) {party : AdminParty}
    (stage : PurgeStage actor queue states size most swept party) :
    PurgeStage actor queue states size most now party := by
  cases stage with
  | deleting left full => exact .deleting left full
  | reporting complete => exact .reporting (complete.imp_right still)
  | reported complete => exact .reported (complete.imp_right still)
  | refused error => exact .refused error

theorem purgedJobs_append_record (effects : List (Scripts.Effect AdminChange AuditEntry))
    (entry : AuditEntry) : purgedJobs (effects ++ [.record entry]) = purgedJobs effects := by
  rw [purgedJobs_append]
  exact List.append_nil _

/-- The audit row is written or refused. -/
theorem PurgeStage.report {effects : List (Scripts.Effect AdminChange AuditEntry)}
    (complete : (purgedJobs effects).length = size.toNat * most ∨ swept) (moment : AdminMoment)
    (state : AuditedTables) :
    PurgeStage actor queue states size most swept
      ⟨(advance adminMachine moment state .answered
          (purgeReport actor queue states (purgedJobs effects).length)).2.1,
        effects ++ (advance adminMachine moment state .answered
          (purgeReport actor queue states (purgedJobs effects).length)).2.2⟩ := by
  simp only [purgeReport, AuditedOperation.audit, advance, adminMachine, AdminQuery.exec]
  split
  · exact .refused _
  · have counted := purgedJobs_append_record effects
      ⟨actor, "queue.purge", some queue, some (.purged states (purgedJobs effects).length)⟩
    have stage := @PurgeStage.reported actor queue states size most swept (effects ++
      [.record ⟨actor, "queue.purge", some queue, some (.purged states (purgedJobs effects).length)⟩])
      (counted ▸ complete)
    rw [counted] at stage
    exact stage

/-- A turn of the purge whose statement is answered. -/
theorem PurgeStage.answered {party : AdminParty}
    (stage : PurgeStage actor queue states size most swept party) (moment : AdminMoment)
    (state : AuditedTables) :
    PurgeStage actor queue states size most
      (swept ∨ (LastBatch actor queue states size party
          ⟨(Scripts.advance adminMachine moment state .answered party.script).2.1, party.effects ++
            (Scripts.advance adminMachine moment state .answered party.script).2.2⟩ ∧
        Swept queue states moment
          (Scripts.advance adminMachine moment state .answered party.script).1.db))
      ⟨(Scripts.advance adminMachine moment state .answered party.script).2.1,
        party.effects ++
          (Scripts.advance adminMachine moment state .answered party.script).2.2⟩ := by
  cases stage with
  | refused error =>
      simp only [Scripts.advance]
      exact .refused error
  | reported complete =>
      simp only [Scripts.advance, List.append_nil]
      exact .reported (complete.imp_right Or.inl)
  | reporting complete => exact (PurgeStage.report complete moment state).later Or.inl
  | @deleting effects left full =>
      cases left with
      | zero => exact (PurgeStage.report (Or.inl full) moment state).later Or.inl
      | succ left =>
          unfold AuditedOperation.purgeBatches
          by_cases negative : size < 0
          · simp only [Scripts.advance, adminMachine, AdminQuery.exec, if_pos negative]
            exact .refused _
          · simp only [Scripts.advance, adminMachine, AdminQuery.exec, if_neg negative,
              purgeQueue_eq]
            generalize isRows : purgedRows queue states size.toNat moment.locked state.db = rows
            have counted : purgedJobs (effects ++ [batchEffect queue states rows]) =
                purgedJobs effects ++ rows.map JobRow.id := by
              rw [purgedJobs_append, purgedJobs_batchEffect]
            have length : (purgedJobs (effects ++ [batchEffect queue states rows])).length =
                (purgedJobs effects).length + rows.length := by
              rw [counted, List.length_append, List.length_map]
            have atMost : rows.length ≤ size.toNat := isRows ▸ length_purgedRows_le
            have batch : (AdminQuery.purgeQueue queue states size).effect rows =
                batchEffect queue states rows := rfl
            rw [batch, ← length]
            by_cases short : (rows.length : Int) < size
            · rw [if_pos short]
              refine .reporting (Or.inr (Or.inr ⟨⟨⟨_, rfl⟩, rfl⟩, fun job left inQueue chosen => ?_⟩))
              exact locked_of_short (isRows ▸ by omega) left inQueue chosen
            · rw [if_neg short]
              refine .deleting left ?_
              have whole : rows.length = size.toNat := by omega
              rw [length, whole, ← full, Nat.mul_succ]
              omega

/-- A purge ends with a statement that is refused or whose answer is lost. -/
theorem PurgeStage.failed {party : AdminParty}
    (stage : PurgeStage actor queue states size most swept party) (moment : AdminMoment)
    (state : AuditedTables) (fate : TurnFate OperationError) (disturbed : fate ≠ .answered) :
    PurgeStage actor queue states size most swept
      ⟨(Scripts.advance adminMachine moment state fate party.script).2.1,
        party.effects ++ (Scripts.advance adminMachine moment state fate party.script).2.2⟩ := by
  rcases party with ⟨script, effects⟩
  cases script with
  | done result =>
      simp only [Scripts.advance, List.append_nil]
      exact stage
  | ask query next =>
      cases executed : adminMachine.exec moment state query with
      | mk outcome after =>
          simp only [Scripts.advance, executed]
          cases fate with
          | answered => exact absurd rfl disturbed
          | refused failure => exact .refused failure
          | lost failure => cases outcome <;> exact .refused failure

end

/-- The last batch of this purge has left nothing but what others had locked. -/
def SweptBy (cron : Cron) (operators : Nat -> Operator) (state : AuditedTables) (index : Nat)
    (queue : String) (states : List JobState) (size : Int) (turns : List AdminTurn) : Prop :=
  Exists fun before : List AdminTurn => Exists fun moment : AdminMoment =>
    Exists fun rest : List AdminTurn => turns = before ++ .own index moment .answered :: rest ∧
      LastBatch (operators index).actor queue states size
        ((operatorsAfter cron operators state before).parties index)
        ((operatorsAfter cron operators state (before ++ [.own index moment .answered])).parties
          index) ∧
      Swept queue states moment
        (operatorsAfter cron operators state (before ++ [.own index moment .answered])).state.db

theorem SweptBy.later {cron : Cron} {operators : Nat -> Operator} {state : AuditedTables}
    {index : Nat} {queue : String} {states : List JobState} {size : Int} {turns : List AdminTurn}
    (swept : SweptBy cron operators state index queue states size turns) (turn : AdminTurn) :
    SweptBy cron operators state index queue states size (turns ++ [turn]) := by
  rcases swept with ⟨before, moment, rest, split, clear⟩
  refine ⟨before, moment, rest ++ [turn], ?_, clear⟩
  rw [split, List.append_assoc]
  exact rfl

/-- A purge that has not begun is refused or has all its batches before it. -/
theorem purgeStage_start (actor queue confirm : String) (states : List JobState)
    (opts : PurgeOptions) (swept : Prop) :
    PurgeStage actor queue states (opts.batchSize.getD 1000) (opts.maxBatches.getD 1000).toNat swept
      ⟨AuditedOperation.purge actor queue states confirm opts, []⟩ := by
  unfold AuditedOperation.purge
  split
  · exact .refused _
  · split
    · exact .refused _
    · split
      · exact .refused _
      · exact @PurgeStage.deleting actor queue states _ _ swept [] _ (Nat.zero_add _)

theorem purgeStage_of_turns {cron : Cron} {operators : Nat -> Operator} {index : Nat}
    {queue confirm : String} {states : List JobState} {opts : PurgeOptions}
    (purges : (operators index).operation = .purge queue states confirm opts)
    (state : AuditedTables) (turns : List AdminTurn) :
    PurgeStage (operators index).actor queue states (opts.batchSize.getD 1000)
      (opts.maxBatches.getD 1000).toNat
      (SweptBy cron operators state index queue states (opts.batchSize.getD 1000) turns)
      ((operatorsAfter cron operators state turns).parties index) := by
  induction turns using List.reverseRecOn with
  | nil =>
      have script : (operators index).script cron =
          AuditedOperation.purge (operators index).actor queue states confirm opts := by
        rw [Operator.script, purges]
        exact rfl
      have stage := purgeStage_start (operators index).actor queue confirm states opts
        (SweptBy cron operators state index queue states (opts.batchSize.getD 1000) [])
      rw [← script] at stage
      exact stage
  | append_singleton turns turn inductionHypothesis =>
      have next : operatorsAfter cron operators state (turns ++ [turn]) =
          Shared.step adminMachine Meanwhile.apply (operatorsAfter cron operators state turns) turn :=
        Shared.after_append_singleton state _ turns turn
      cases turn with
      | others other =>
          rw [next]
          exact inductionHypothesis.later (fun swept => swept.later _)
      | own party moment fate =>
          by_cases same : index = party
          · subst same
            cases fate with
            | answered =>
                rw [next]
                simp only [Shared.step, Function.update_self]
                refine (inductionHypothesis.answered moment _).later ?_
                rintro (swept | ⟨last, now⟩)
                · exact swept.later _
                · refine ⟨turns, moment, [], rfl, ?_⟩
                  rw [next]
                  simp only [Shared.step, Function.update_self]
                  exact ⟨last, now⟩
            | refused failure =>
                rw [next]
                simp only [Shared.step, Function.update_self]
                exact (inductionHypothesis.failed moment _ (.refused failure) (by simp)).later
                  (fun swept => swept.later _)
            | lost failure =>
                rw [next]
                simp only [Shared.step, Function.update_self]
                exact (inductionHypothesis.failed moment _ (.lost failure) (by simp)).later
                  (fun swept => swept.later _)
          · rw [next]
            simp only [Shared.step, Function.update_of_ne same]
            exact inductionHypothesis.later (fun swept => swept.later _)

/-- A purge reports the number of jobs that its batches have deleted.  These are
as many as its batches can delete, or its last batch has left nothing but what
others had locked. -/
theorem purge_sweeps_queue {cron : Cron} {operators : Nat -> Operator} {index : Nat}
    {queue confirm : String} {states : List JobState} {opts : PurgeOptions}
    (purges : (operators index).operation = .purge queue states confirm opts)
    (state : AuditedTables) (turns : List AdminTurn) {deleted : Nat}
    (reported : ((operatorsAfter cron operators state turns).parties index).script =
      .done (.ok (.purged deleted))) :
    (purgedJobs ((operatorsAfter cron operators state turns).parties index).effects).length =
        deleted ∧
      (deleted = (opts.batchSize.getD 1000).toNat * (opts.maxBatches.getD 1000).toNat ∨
        SweptBy cron operators state index queue states (opts.batchSize.getD 1000) turns) := by
  have stage := @purgeStage_of_turns cron operators index queue confirm states opts purges state turns
  generalize (operatorsAfter cron operators state turns).parties index = party at stage reported
  cases stage with
  | @deleting effects left full =>
      cases left with
      | zero => cases reported
      | succ left => cases reported
  | reporting complete => cases reported
  | reported complete =>
      cases reported
      exact ⟨rfl, complete⟩
  | refused error => cases reported

def eachHour : Cron where
  nextOccurrence _ _ clock := some ((clock / 3600000 + 1) * 3600000)
  rejection _ _ _ := ""

/-- Every operator purges the waiting jobs of one queue. -/
def mailPurger : Nat -> Operator :=
  fun _ => ⟨"system", 0, .purge "mail" [.available] "mail" ⟨some 2, some 5⟩⟩

/-- A client enqueues three jobs, and one more after the first batch.  Others
have locked the second one all the time. -/
def mailPurge : List AdminTurn :=
  let enqueue := Turn.others (.call ⟨0, .insertJob (plainEnqueue 3)⟩)
  let sends := Turn.own 0 ⟨1, [2]⟩ .answered
  [enqueue, enqueue, enqueue, sends, enqueue, sends, sends]

theorem mailPurge_is_swept :
    (purgedJobs ((operatorsAfter eachHour mailPurger noTables mailPurge).parties 0).effects).length =
        3 ∧
      SweptBy eachHour mailPurger noTables 0 "mail" [.available] 2 mailPurge := by
  have named : validateName "mail" "queue" = .ok () := by decide
  have scripts : (fun index => (mailPurger index).script eachHour) = fun _ =>
      AuditedOperation.purgeBatches "mail" [.available] 2
        (purgeReport "system" "mail" [.available]) 5 0 := by
    funext index
    simp only [Operator.script, mailPurger, AdminOperation.script, AuditedOperation.purge, named]
    exact rfl
  have reported : ((operatorsAfter eachHour mailPurger noTables mailPurge).parties 0).script =
      .done (.ok (.purged 3)) := by
    rw [operatorsAfter, scripts]
    exact rfl
  have purged := @purge_sweeps_queue eachHour mailPurger 0 "mail" "mail" [.available]
    ⟨some 2, some 5⟩ rfl noTables mailPurge 3 reported
  rcases purged.2 with all | swept
  · cases all
  · exact ⟨purged.1, swept⟩

end PgJobQ
