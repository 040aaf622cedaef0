import PgJobQ.Library.SharedScripts
import PgJobQ.Server.AuditTrail

/-!
# Operators at work at the same time

The statements of an administrative operation commit one by one, so between two
of them other operators, the engine, workers and clients change the tables.  An
operation goes on from the answers it has been given and not from the state the
first one was read from.  What it records is therefore what it has done, in
whatever order the statements of all come.
-/

namespace PgJobQ

open Scripts

/-- An operation with its actor, and the clock it reads. -/
structure Operator where
  actor : String
  clock : Int
  operation : AdminOperation

def Operator.script (cron : Cron) (operator : Operator) : AdminScript :=
  operator.operation.script cron operator.clock operator.actor

/-- What is done between the statements of operators: a statement on jobs, or
whatever happens to schedules. -/
inductive Meanwhile where
  | call (call : Call)
  | schedules (schedules : ScheduleTable)

def Meanwhile.apply : Meanwhile -> AuditedTables -> AuditedTables
  | call made, state => state.withDb (state.db.step made)
  | schedules next, state => state.withSchedules next

abbrev AdminParty := Party AdminQuery OperationError OperationResult AdminChange AuditEntry

abbrev SharedTables :=
  Shared AuditedTables AdminQuery OperationError OperationResult AdminChange AuditEntry

abbrev AdminTurn := Turn AdminMoment OperationError Meanwhile

/-- The operators and the tables after these turns. -/
def operatorsAfter (cron : Cron) (operators : Nat -> Operator) (state : AuditedTables)
    (turns : List AdminTurn) : SharedTables :=
  Shared.after adminMachine Meanwhile.apply state (fun index => (operators index).script cron) turns

theorem log_of_meanwhile (step : Meanwhile) (state : AuditedTables) :
    (step.apply state).log = state.log := by
  cases step with
  | call made => rfl
  | schedules next => rfl

/-! ## Scripts that account for what they change -/

/-- What a script has done accounts for itself, whatever it is answered.  The
audit row of an actor whom a text column cannot hold is refused. -/
abbrev AdminAccounts (actor : String) (script : AdminScript)
    (effects : List (Scripts.Effect AdminChange AuditEntry)) : Prop :=
  KeepsAccount adminMachine (Describes actor) (storableText actor = true) script effects

/-- Nothing has been changed and nothing recorded. -/
structure Idle (effects : List (Scripts.Effect AdminChange AuditEntry)) : Prop where
  unchanged : Effect.changes effects = []
  unrecorded : Effect.records effects = []

section

variable {actor : String} {effects : List (Scripts.Effect AdminChange AuditEntry)}

theorem idle_nil : Idle [] := ⟨rfl, rfl⟩

theorem Idle.settled (idle : Idle effects) : AccountedFor (Describes actor) effects :=
  Or.inl ⟨idle.unchanged, idle.unrecorded ▸ Nat.zero_le 1⟩

theorem Idle.silent (idle : Idle effects) : Idle (effects ++ [.silent]) where
  unchanged := by
    rw [Effect.changes_append, idle.unchanged]
    rfl
  unrecorded := by
    rw [Effect.records_append, idle.unrecorded]
    rfl

/-- The effects end with their first change. -/
structure ChangedBy (change : AdminChange)
    (effects : List (Scripts.Effect AdminChange AuditEntry)) : Prop where
  changed : Effect.changes effects = [change]
  unrecorded : Effect.records effects = []

theorem Idle.change (idle : Idle effects) (change : AdminChange) :
    ChangedBy change (effects ++ [.change change]) where
  changed := by
    rw [Effect.changes_append, idle.unchanged]
    rfl
  unrecorded := by
    rw [Effect.records_append, idle.unrecorded]
    rfl

/-- A script that has done nothing yet may fail at its next statement. -/
theorem Idle.ask {Answer : Type} {query : AdminQuery Answer} {next : Answer -> AdminScript}
    (idle : Idle effects)
    (goesOn : forall answer, adminMachine.MayAnswer query answer ->
      AdminAccounts actor (next answer) (effects ++ [query.effect answer])) :
    AdminAccounts actor (.ask query next) effects :=
  ⟨fun recorded => absurd idle.unrecorded recorded, fun _ _ => idle.settled, goesOn⟩

theorem Idle.done (idle : Idle effects) (result : Except OperationError OperationResult) :
    AdminAccounts actor (.done result) effects := idle.settled

/-- The entry is written, whatever has been changed. -/
theorem accounts_audit {action : String} {target : Option String} {detail : Option AuditDetail}
    {next : AdminScript}
    (unrecorded : Effect.records effects = [])
    (described : Effect.changes effects = [] ∨
      Describes actor (Effect.changes effects) ⟨actor, action, target, detail⟩)
    (goesOn : forall after, AccountedFor (Describes actor) after -> AdminAccounts actor next after) :
    AdminAccounts actor (AuditedOperation.audit actor action target detail next) effects := by
  refine ⟨fun recorded => absurd unrecorded recorded, ?_, fun answer _ => goesOn _ ?_⟩
  · rintro storable ⟨moment, state, failure, after, executed⟩
    simp only [adminMachine, AdminQuery.exec, insertAuditLog, storable, if_true] at executed
    cases executed
  · have changed : Effect.changes (effects ++ [.record ⟨actor, action, target, detail⟩]) =
        Effect.changes effects := by
      rw [Effect.changes_append]
      exact List.append_nil _
    have recorded : Effect.records (effects ++ [.record ⟨actor, action, target, detail⟩]) =
        [⟨actor, action, target, detail⟩] := by
      rw [Effect.records_append, unrecorded]
      rfl
    have ends : AccountedFor (Describes actor)
        (effects ++ [.record ⟨actor, action, target, detail⟩]) := by
      unfold AccountedFor
      rw [changed, recorded]
      exact described.imp (fun unchanged => ⟨unchanged, Nat.le_refl 1⟩)
        (fun describes => ⟨_, rfl, describes⟩)
    exact ends

theorem accounts_getJob (settled : AccountedFor (Describes actor) effects) (id : NumericId)
    (result : JobRow -> Except OperationError OperationResult) :
    AdminAccounts actor (AuditedOperation.getJob id fun job => .done (result job)) effects := by
  refine ⟨fun _ => settled, fun _ _ => settled, fun answer _ => ?_⟩
  cases answer with
  | none => exact settled.silent
  | some job => exact settled.silent

/-! ## The operations -/

theorem accounts_cancel (id : NumericId) :
    AdminAccounts actor (AuditedOperation.cancel actor id) [] := by
  apply idle_nil.ask
  intro cancelled _
  simp only [AdminQuery.effect]
  split
  · apply idle_nil.silent.ask
    intro requested _
    simp only [AdminQuery.effect]
    split
    · exact accounts_getJob idle_nil.silent.silent.settled id _
    · have changed := idle_nil.silent.change
        (.updated (.requestCancelRunningJob id) (requested.map JobRow.id))
      apply accounts_audit changed.unrecorded
      · rw [changed.changed]
        exact Or.inr (.cancelRequested id _)
      · exact fun after settled => settled
  · have changed := idle_nil.change (.updated (.cancelAvailableJob id) (cancelled.map JobRow.id))
    apply accounts_audit changed.unrecorded
    · rw [changed.changed]
      exact Or.inr (.cancelled id _)
    · exact fun after settled => settled

theorem accounts_updateJob (id : NumericId)
    {update : JobUpdate} {action : String} (refusal : JobRow -> AdminError)
    (described : forall jobs, Describes actor [.updated update jobs]
      ⟨actor, action, some id.text, none⟩) :
    AdminAccounts actor (AuditedOperation.updateJob actor id update action refusal) [] := by
  apply idle_nil.ask
  intro rows _
  simp only [AdminQuery.effect]
  split
  · exact accounts_getJob idle_nil.silent.settled id _
  · have changed := idle_nil.change (.updated update (rows.map JobRow.id))
    apply accounts_audit changed.unrecorded
    · rw [changed.changed]
      exact Or.inr (described _)
    · exact fun after settled => accounts_getJob settled id _

theorem accounts_replayMany (ids : List NumericId) :
    AdminAccounts actor (AuditedOperation.replayMany actor ids) [] := by
  unfold AuditedOperation.replayMany
  split
  · exact idle_nil.done _
  · apply idle_nil.ask
    intro rows _
    simp only [AdminQuery.effect]
    split
    · exact accounts_audit idle_nil.silent.unrecorded (Or.inl idle_nil.silent.unchanged)
        (fun after settled => settled)
    · have changed := idle_nil.change (.updated (.replayDeadJobs ids) (rows.map JobRow.id))
      apply accounts_audit changed.unrecorded
      · rw [changed.changed]
        have described := @Describes.replayedMany actor ids (rows.map JobRow.id)
        rw [List.length_map] at described
        rw [List.length_map]
        exact Or.inr described
      · exact fun after settled => settled

theorem accounts_setPaused (queue : String) (paused : Bool) :
    AdminAccounts actor (AuditedOperation.setPaused actor queue paused) [] := by
  unfold AuditedOperation.setPaused
  split
  · exact idle_nil.done _
  · apply idle_nil.ask
    intro answer _
    have changed := idle_nil.change (.pauseSet queue paused)
    apply accounts_audit changed.unrecorded
    · rw [changed.changed]
      cases paused with
      | true => exact Or.inr (.paused queue)
      | false => exact Or.inr (.resumed queue)
    · exact fun after settled => settled

theorem name_of_createSchedule {p : ScheduleParams} {nextRunAt : Int} {row : ScheduleRow}
    (answered : adminMachine.MayAnswer (.createSchedule p nextRunAt) row) : row.name = p.name := by
  rcases answered with ⟨moment, state, after, executed⟩
  simp only [adminMachine, AdminQuery.exec, PgJobQ.createSchedule] at executed
  split at executed
  · rename_i created
    split at created
    · cases created
    · cases created
      cases executed
      rfl
  · cases executed

theorem accounts_createSchedule (cron : Cron) (clock : Int)
    (p : ScheduleParams) :
    AdminAccounts actor (AuditedOperation.createSchedule actor cron clock p) [] := by
  unfold AuditedOperation.createSchedule
  dsimp only
  split
  · exact idle_nil.done _
  · apply idle_nil.ask
    intro created answered
    have changed := idle_nil.change (.scheduleCreated created)
    apply accounts_audit changed.unrecorded
    · rw [changed.changed, ← name_of_createSchedule answered]
      exact Or.inr (.scheduleCreated created)
    · exact fun after settled => settled

/-- The update of the row of a schedule, and its record. -/
theorem accounts_setScheduleEnabled (idle : Idle effects)
    (id : NumericId) (enabled : Bool) (nextRunAt : Option Int) :
    AdminAccounts actor (.ask (.setScheduleEnabled id enabled nextRunAt) fun updated =>
      match updated with
      | none => .done (.ok .scheduleNotFound)
      | some updated =>
          AuditedOperation.audit actor (if enabled then "schedule.resume" else "schedule.pause")
            (some id.text) none (.done (.ok (.schedule updated)))) effects := by
  apply idle.ask
  intro updated _
  cases updated with
  | none => exact idle.silent.done _
  | some updated =>
      have changed := idle.change (.scheduleSet id enabled)
      apply accounts_audit changed.unrecorded
      · rw [changed.changed]
        cases enabled with
        | true => exact Or.inr (.scheduleResumed id)
        | false => exact Or.inr (.schedulePaused id)
      · exact fun after settled => settled

theorem accounts_setSchedule (cron : Cron) (clock : Int)
    (id : NumericId) (enabled : Bool) :
    AdminAccounts actor (AuditedOperation.setSchedule actor cron clock id enabled) [] := by
  apply idle_nil.ask
  intro existing _
  cases existing with
  | none => exact idle_nil.silent.done _
  | some existing =>
      cases enabled with
      | false => exact accounts_setScheduleEnabled idle_nil.silent id false none
      | true =>
          cases occurs : cron.nextOccurrence existing.cron existing.timezone clock with
          | none =>
              simp only [occurs, if_true]
              exact idle_nil.silent.done _
          | some nextRunAt =>
              simp only [occurs, if_true]
              exact accounts_setScheduleEnabled idle_nil.silent id true (some nextRunAt)

theorem accounts_deleteSchedule (id : NumericId) :
    AdminAccounts actor (AuditedOperation.deleteSchedule actor id) [] := by
  apply idle_nil.ask
  intro deleted _
  cases deleted with
  | false => exact idle_nil.silent.done _
  | true =>
      have changed := idle_nil.change (.scheduleDeleted id)
      apply accounts_audit changed.unrecorded
      · rw [changed.changed]
        exact Or.inr (.scheduleDeleted id)
      · exact fun after settled => settled

/-! ### `purge` -/

/-- So many jobs have been deleted batch by batch. -/
inductive PurgedSoFar (queue : String) (states : List JobState)
    (effects : List (Scripts.Effect AdminChange AuditEntry)) : Nat -> Prop
  | intro (batches : List (List Nat)) (unrecorded : Effect.records effects = [])
      (changed : Effect.changes effects = purgeChanges queue states batches) :
      PurgedSoFar queue states effects batches.flatten.length

theorem PurgedSoFar.batch {queue : String} {states : List JobState} {deleted : Nat}
    (purged : PurgedSoFar queue states effects deleted) (rows : List JobRow) :
    PurgedSoFar queue states (effects ++ [batchEffect queue states rows])
      (deleted + rows.length) := by
  rcases purged with ⟨batches, unrecorded, changed⟩
  unfold batchEffect
  split
  · rename_i silent
    rw [List.isEmpty_iff.mp silent]
    refine .intro batches ?_ ?_
    · rw [Effect.records_append, unrecorded]
      rfl
    · rw [Effect.changes_append, changed]
      exact List.append_nil _
  · have counted : (batches ++ [rows.map JobRow.id]).flatten.length =
        batches.flatten.length + rows.length := by simp
    rw [← counted]
    refine .intro (batches ++ [rows.map JobRow.id]) ?_ ?_
    · rw [Effect.records_append, unrecorded]
      rfl
    · rw [Effect.changes_append, changed, purgeChanges, purgeChanges, List.map_append]
      rfl

/-- The entry of a purge has the number of jobs its batches have deleted. -/
theorem PurgedSoFar.described {queue : String} {states : List JobState} {deleted : Nat}
    (purged : PurgedSoFar queue states effects deleted) :
    Effect.changes effects = [] ∨ Describes actor (Effect.changes effects)
      ⟨actor, "queue.purge", some queue, some (.purged states deleted)⟩ := by
  rcases purged with ⟨batches, unrecorded, changed⟩
  rw [changed]
  cases batches with
  | nil => exact Or.inl rfl
  | cons first more => exact Or.inr (.purged queue states first more)

/-- The loop of `purge`.  A batch is refused for its size, and then the first
one is.  The induction is on the batches that may still follow. -/
theorem accounts_purgeBatches {queue : String} {states : List JobState} {batchSize : Int}
    {finish : Nat -> AdminScript} (size : 0 ≤ batchSize)
    (finishes : forall after deleted, PurgedSoFar queue states after deleted ->
      AdminAccounts actor (finish deleted) after) (batches : Nat) {deleted : Nat}
    (purged : PurgedSoFar queue states effects deleted) :
    AdminAccounts actor
      (AuditedOperation.purgeBatches queue states batchSize finish batches deleted) effects := by
  induction batches generalizing effects deleted with
  | zero => exact finishes effects deleted purged
  | succ batches inductionHypothesis =>
      have unrecorded : Effect.records effects = [] := by
        cases purged
        assumption
      refine ⟨fun recorded => absurd unrecorded recorded, ?_, fun rows _ => ?_⟩
      · rintro _ ⟨moment, state, failure, after, executed⟩
        simp only [adminMachine, AdminQuery.exec, if_neg (Int.not_lt.mpr size),
          PgJobQ.purgeQueue] at executed
        cases executed
      · have next := purged.batch rows
        dsimp only
        split
        · exact finishes _ _ next
        · exact inductionHypothesis next

theorem accounts_purge (queue : String)
    (states : List JobState) (confirm : String) (opts : PurgeOptions) :
    AdminAccounts actor (AuditedOperation.purge actor queue states confirm opts) [] := by
  unfold AuditedOperation.purge
  have finishes : forall after deleted, PurgedSoFar queue states after deleted ->
      AdminAccounts actor (AuditedOperation.audit actor "queue.purge" (some queue)
        (some (.purged states deleted)) (.done (.ok (.purged deleted)))) after := by
    intro after deleted purged
    apply accounts_audit
    · cases purged
      assumption
    · exact purged.described
    · exact fun _ settled => settled
  split
  · exact idle_nil.done _
  · split
    · exact idle_nil.done _
    · split
      · exact idle_nil.done _
      · by_cases size : 0 ≤ opts.batchSize.getD 1000
        · exact accounts_purgeBatches size finishes _ (.intro [] rfl rfl)
        · cases (opts.maxBatches.getD 1000).toNat with
          | zero => exact finishes [] 0 (.intro [] rfl rfl)
          | succ batches =>
              apply idle_nil.ask
              rintro rows ⟨moment, state, after, executed⟩
              simp only [adminMachine, AdminQuery.exec, if_pos (Int.not_le.mp size)] at executed
              cases executed

end

theorem Operator.accounts (operator : Operator) (cron : Cron) :
    AdminAccounts operator.actor (operator.script cron) [] := by
  rcases operator with ⟨actor, clock, operation⟩
  cases operation with
  | cancel id => exact accounts_cancel id
  | retryNow id => exact accounts_updateJob id _ (.retried id)
  | replay id => exact accounts_updateJob id _ (.replayed id)
  | replayMany ids => exact accounts_replayMany ids
  | setPaused queue paused => exact accounts_setPaused queue paused
  | purge queue states confirm opts => exact accounts_purge queue states confirm opts
  | createSchedule p => exact accounts_createSchedule cron clock p
  | setSchedule id enabled => exact accounts_setSchedule cron clock id enabled
  | deleteSchedule id => exact accounts_deleteSchedule id

/-! ## The audit log of all operators -/

/-- Where an operation stands: what it has recorded describes what it has
changed.  It does not return with a change that is not recorded, and it does not
end with one unless a statement has been refused or its answer lost. -/
structure Operator.Accounted (operator : Operator) (answered : Prop) (party : AdminParty) :
    Prop where
  described : Effect.records party.effects ≠ [] ->
    AccountedFor (Describes operator.actor) party.effects
  returned : forall result, party.script = .done (.ok result) ->
    AccountedFor (Describes operator.actor) party.effects
  ended : answered -> storableText operator.actor = true ->
    forall result, party.script = .done result ->
      AccountedFor (Describes operator.actor) party.effects

/-- In every interleaving of operators with one another and with everybody else,
whatever becomes of the statements on their connections: the audit log has the
entries that statements of the operators have committed and no others, an entry
describes all that its operation has changed, and an operation that has returned
has recorded what it changed.  So has one that has ended with an error, if its
statements were all answered and a text column holds its actor. -/
theorem operators_are_audited (cron : Cron) (operators : Nat -> Operator) (state : AuditedTables)
    (turns : List AdminTurn) :
    (operatorsAfter cron operators state turns).state.log = state.log ++
        Effect.records ((operatorsAfter cron operators state turns).history.map Prod.snd) ∧
      forall index,
        ((operatorsAfter cron operators state turns).history.filter
            (fun made => made.1 == index)).map Prod.snd =
          ((operatorsAfter cron operators state turns).parties index).effects ∧
        (operators index).Accounted
          (forall moment fate, .own index moment fate ∈ turns -> fate = .answered)
          ((operatorsAfter cron operators state turns).parties index) := by
  refine ⟨auditJournal.log_of_turns log_of_meanwhile state _ turns, fun index => ?_⟩
  have accounts : AdminAccounts (operators index).actor ((operators index).script cron) [] :=
    (operators index).accounts cron
  have whole := @KeepsAccount.after _ _ _ _ _ _ _ _ adminMachine Meanwhile.apply
    (Describes (operators index).actor) _ state (fun index => (operators index).script cron) index
    accounts turns
  refine ⟨Shared.history_of_party state _ turns index, whole.described, fun result => whole.returned,
    fun answered storable result isDone => ?_⟩
  have undisturbed := @KeepsAccount.after_answered _ _ _ _ _ _ _ _ adminMachine Meanwhile.apply
    (Describes (operators index).actor) _ state (fun index => (operators index).script cron) index
    storable accounts turns answered
  have ends : ((operatorsAfter cron operators state turns).parties index).script = .done result :=
    isDone
  unfold operatorsAfter at ends
  rw [ends] at undisturbed
  exact undisturbed

end PgJobQ
