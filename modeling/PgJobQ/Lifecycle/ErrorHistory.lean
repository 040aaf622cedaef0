import PgJobQ.Library.BoundedLog
import PgJobQ.Lifecycle.History
import PgJobQ.Lifecycle.StateMachine

/-!
# The error history of a job

`failJob` and `reapExpiredLeases` each append a record to the column `errors`
and drop the oldest one in the same expression.  How many records are kept is
configured for the first and written into the second.

The records a job has ever had are read off the history of a session.  The
column is always a final part of them with the latest one in it.
-/

namespace PgJobQ

open Runs

/-- `configSchema.maxErrorHistory`. -/
structure MaxErrorHistory where
  value : Nat
  positive : 1 ≤ value
  atMost : value ≤ 100

/-- What the reaper writes in the place of `maxErrorHistory`. -/
def reaperErrorHistory : Nat := 5

namespace Statement

/-- The record a statement appends to the errors of a row it hits. -/
def errorRecord (now : Timestamp) (old : JobRow) : Statement -> Option JobErrorRecord
  | failJob p => some p.error
  | reapExpiredLeases _ _ => some (leaseExpiredRecord now old)
  | _ => none

/-- The length at which a statement drops the oldest record. -/
def errorLimit : Statement -> Nat
  | failJob p => p.maxErrorHistory.toNat
  | _ => reaperErrorHistory

/-- Failures are reported with the configured limit. -/
def Configured (limit : MaxErrorHistory) : Statement -> Prop
  | failJob p => p.maxErrorHistory = limit.value
  | _ => True

end Statement

/-- The column is a bounded log with the limit of the statement. -/
theorem appendError_eq_push (maxErrorHistory : Int) (errors : List JobErrorRecord)
    (error : JobErrorRecord) :
    appendError maxErrorHistory errors error =
      BoundedLog.push maxErrorHistory.toNat errors error := by
  unfold appendError BoundedLog.push
  have same : maxErrorHistory ≤ errors.length <-> maxErrorHistory.toNat ≤ errors.length := by
    omega
  simp only [same]

/-- A statement either leaves the errors of a row alone or pushes its record. -/
theorem RowStep.errors {now : Timestamp} {statement : Statement} {old new : JobRow}
    (step : RowStep now statement old new) :
    new.errors = match statement.errorRecord now old with
      | some record => BoundedLog.push statement.errorLimit old.errors record
      | none => old.errors := by
  cases step with
  | claim claims queue ready due =>
      cases statement
      case claimJobs p locked => rfl
      case claimJobsWithAging p threshold locked => rfl
      all_goals cases claims
  | replay replays buried =>
      cases statement
      case replayDeadJob id => rfl
      case replayDeadJobs ids => rfl
      all_goals cases replays
  | failNonRetryable owned final => exact appendError_eq_push _ _ _
  | failExhausted owned retryable exhausted => exact appendError_eq_push _ _ _
  | failRetry owned retryable remaining => exact appendError_eq_push _ _ _
  | reapExhausted expired exhausted => exact appendError_eq_push _ _ _
  | reapRetry expired remaining => exact appendError_eq_push _ _ _
  | _ => rfl

/-! ## The records of a job -/

/-- The record a commit appended to the errors of the job. -/
def Commit.errorRecord (id : Nat) (commit : Commit) : Option JobErrorRecord :=
  if (commit.returned id).isSome then
    (commit.before.find id).bind (fun old => commit.statement.errorRecord commit.now old)
  else none

/-- All failures and lease expiries of the job, oldest first. -/
def errorRecords (id : Nat) (history : List Commit) : List JobErrorRecord :=
  (history.filterMap (Commit.errorRecord id)).reverse

theorem errorRecords_cons (id : Nat) (commit : Commit) (history : List Commit) :
    errorRecords id (commit :: history) =
      errorRecords id history ++ (commit.errorRecord id).toList := by
  unfold errorRecords
  rw [List.filterMap_cons]
  cases commit.errorRecord id with
  | none => exact (List.append_nil _).symm
  | some record => exact List.reverse_cons

/-- A job that no commit has returned has no records. -/
theorem errorRecords_of_unheard {id : Nat} {history : List Commit}
    (unheard : forall commit, commit ∈ history -> commit.returned id = none) :
    errorRecords id history = [] := by
  have none : history.filterMap (Commit.errorRecord id) = [] := by
    apply List.filterMap_eq_nil_iff.mpr
    intro commit member
    unfold Commit.errorRecord
    rw [unheard commit member]
    rfl
  unfold errorRecords
  rw [none]
  rfl

/-! ## The history kept -/

/-- Each job has a final part of its records, at most so many of them and the
latest one among them. -/
structure ErrorsKept (limit : MaxErrorHistory) (session : Session) : Prop where
  suffix : forall job, job ∈ session.state.job.rows ->
    job.errors <:+ errorRecords job.id session.history
  latest : forall job record, job ∈ session.state.job.rows ->
    (errorRecords job.id session.history).getLast? = some record -> record ∈ job.errors
  bounded : forall job, job ∈ session.state.job.rows -> job.errors.length ≤ limit.value

/-- A full history is reaped with a larger limit. -/
def Overfills (limit : MaxErrorHistory) (session : Session) (call : Call) : Prop :=
  limit.value < reaperErrorHistory ∧ Exists fun p : ReapParams => Exists fun locked : List Nat =>
    call.statement = .reapExpiredLeases p locked ∧ Exists fun job : JobRow =>
      job ∈ session.state.job.rows ∧ job.errors.length = limit.value ∧
        (reapExpiredLeases p locked call.now session.state).hits job = true

/-- What is true of the errors whatever the limits are, and the ids that have
been drawn. -/
structure ErrorInvariant (limit : MaxErrorHistory) (session : Session) : Prop where
  below : HistoryBelow session
  keeps : forall job, job ∈ session.state.job.rows ->
    BoundedLog.Keeps (errorRecords job.id session.history) job.errors
  bounded : forall job, job ∈ session.state.job.rows -> job.errors.length ≤ limit.value

namespace ErrorInvariant

variable {limit : MaxErrorHistory} {session : Session} {call : Call} {reply : Reply}

theorem kept (invariant : ErrorInvariant limit session) : ErrorsKept limit session where
  suffix := fun job member => (invariant.keeps job member).suffix
  latest := fun job _ member isLatest => (invariant.keeps job member).mem_latest isLatest
  bounded := invariant.bounded

theorem start (limit : MaxErrorHistory) (partitions : List ArchivePartition)
    (config : QueueConfigTable) : ErrorInvariant limit (.start (.empty partitions config)) where
  below := HistoryBelow.start _
  keeps := fun _ member => absurd member List.not_mem_nil
  bounded := fun _ member => absurd member List.not_mem_nil

/-- The rows a reap returns are those its `WHERE` clause selects. -/
theorem hits_of_reaped {p : ReapParams} {locked : List Nat} {now : Timestamp} {db : Database}
    (committed : (PgJobQ.reapExpiredLeases p locked now db).run db = .ok reply)
    {old new : JobRow} (member : old ∈ db.job.rows) (same : old.id = new.id)
    (listed : new ∈ reply.rows) : (PgJobQ.reapExpiredLeases p locked now db).hits old = true := by
  rw [(Mutation.run_ok committed).2.1] at listed
  rcases Mutation.mem_returning.mp listed with ⟨source, sourceMem, hit, isNew⟩
  have sourceId : source.id = old.id := by
    rw [same, ← isNew]
    exact ((PgJobQ.reapExpiredLeases p locked now db).keepsId source).symm
  rwa [← db.job.eq_of_id sourceMem member sourceId]

/-- A record that a statement appends does not find the history full, unless
the reaper has the larger limit. -/
theorem pushed_bounded {old new : JobRow} {record : JobErrorRecord}
    (invariant : ErrorInvariant limit session) (configured : call.statement.Configured limit)
    (fits : Not (Overfills limit session call))
    (committed : call.statement.exec call.now session.state = .ok reply)
    (member : old ∈ session.state.job.rows) (same : old.id = new.id) (listed : new ∈ reply.rows)
    (appends : call.statement.errorRecord call.now old = some record) :
    (BoundedLog.push call.statement.errorLimit old.errors record).length ≤ limit.value := by
  apply (BoundedLog.length_push_le_iff limit.positive (invariant.bounded old member) record).mpr
  rintro ⟨full, larger⟩
  rcases call with ⟨now, statement⟩
  cases statement with
  | failJob p =>
      have sameLimit : p.maxErrorHistory.toNat = limit.value := by
        rw [show p.maxErrorHistory = limit.value from configured, Int.toNat_natCast]
      exact absurd larger (Nat.not_lt_of_le (Nat.le_of_eq sameLimit))
  | reapExpiredLeases p locked =>
      exact fits ⟨larger, p, locked, rfl, old, member, full,
        hits_of_reaped committed member same listed⟩
  | _ => cases appends

theorem step (invariant : ErrorInvariant limit session)
    (configured : call.statement.Configured limit) (fits : Not (Overfills limit session call))
    (committed : call.statement.exec call.now session.state = .ok reply) :
    ErrorInvariant limit
      ⟨reply.db, ⟨session.state, call.now, call.statement, reply.rows⟩ :: session.history⟩ := by
  have each : forall job, job ∈ reply.db.job.rows ->
      BoundedLog.Keeps (errorRecords job.id
        (⟨session.state, call.now, call.statement, reply.rows⟩ :: session.history)) job.errors ∧
        job.errors.length ≤ limit.value := by
    intro job member
    rw [errorRecords_cons]
    cases exec_rowOrigin committed member with
    | kept present silent =>
        have unreturned : Commit.errorRecord job.id
            ⟨session.state, call.now, call.statement, reply.rows⟩ = none := by
          rw [Commit.errorRecord, Commit.returned_eq_none silent]
          rfl
        rw [unreturned, Option.toList_none, List.append_nil]
        exact ⟨invariant.keeps job present, invariant.bounded job present⟩
    | @stepped old present same step listed =>
        have recorded : Commit.errorRecord job.id
            ⟨session.state, call.now, call.statement, reply.rows⟩ =
              call.statement.errorRecord call.now old := by
          have found : session.state.find job.id = some old := same ▸ Database.find_of_mem present
          rw [Commit.errorRecord, if_pos (Commit.returned_isSome listed), found]
          rfl
        have kept := invariant.keeps old present
        rw [same] at kept
        rw [recorded, step.errors]
        cases appends : call.statement.errorRecord call.now old with
        | none =>
            rw [Option.toList_none, List.append_nil]
            exact ⟨kept, invariant.bounded old present⟩
        | some record =>
            exact ⟨kept.push _ record,
              invariant.pushed_bounded configured fits committed present same listed appends⟩
    | inserted asked fresh isNew =>
        have absent : session.state.find job.id = none := by
          apply Database.find_eq_none_iff.mpr
          intro row rowMem rowId
          have below := session.state.identity row rowMem
          omega
        have unrecorded : Commit.errorRecord job.id
            ⟨session.state, call.now, call.statement, reply.rows⟩ = none := by
          rw [Commit.errorRecord, absent]
          split <;> rfl
        rw [unrecorded, errorRecords_of_unheard (invariant.below.unheard fresh), isNew]
        exact ⟨.nil, Nat.zero_le _⟩
  exact ⟨invariant.below.step committed, fun job member => (each job member).1,
    fun job member => (each job member).2⟩

end ErrorInvariant

/-! ## Runs -/

/-- A reap that overfills a history leaves one record too many in it. -/
theorem overfilled {limit : MaxErrorHistory} {session : Session} {call : Call}
    (overfills : Overfills limit session call) : Exists fun job : JobRow =>
      job ∈ (session.step call).state.job.rows ∧ job.errors.length = limit.value + 1 := by
  rcases overfills with ⟨larger, p, locked, reaps, old, member, full, hit⟩
  rcases reapExpiredLeases_commits session.state p locked call.now with ⟨reply, ran⟩
  have committed : call.statement.exec call.now session.state = .ok reply := by
    rw [reaps]
    exact ran
  rw [Session.step_of_ok committed]
  refine ⟨(reapExpiredLeases p locked call.now session.state).set old, ?_, ?_⟩
  · rw [(Mutation.run_ok ran).1]
    exact List.mem_map.mpr ⟨old, member, if_pos hit⟩
  · have notFull : Not (reaperErrorHistory ≤ old.errors.length) := by omega
    change (appendError 5 old.errors (leaseExpiredRecord call.now old)).length = limit.value + 1
    rw [appendError_eq_push, BoundedLog.length_push, full]
    exact if_neg (full ▸ notFull)

/-- When every failure is reported with the configured limit, the error
histories are bounded final parts of the records in every state of a run
exactly when no reap of the run meets a full history with a limit below the
one written into the reaper. -/
theorem errors_bounded_iff (limit : MaxErrorHistory) (partitions : List ArchivePartition)
    (config : QueueConfigTable) {calls : List Call}
    (configured : EachStep Session.step (fun _ call => call.statement.Configured limit)
      (.start (.empty partitions config)) calls) :
    Always Session.step (ErrorsKept limit) (.start (.empty partitions config)) calls <->
      EachStep Session.step (fun session call => Not (Overfills limit session call))
        (.start (.empty partitions config)) calls := by
  apply @always_iff_eachStep_of _ _ Session.step (ErrorInvariant limit) _ _ _ _ _ _ _ _ _ configured
  · exact fun session invariant => invariant.kept
  · intro session call invariant reported fits
    rcases session.step_cases call with stays | ⟨reply, committed, moves⟩
    · rw [stays]
      exact invariant
    · rw [moves]
      exact invariant.step reported fits committed
  · intro session call invariant overfills kept
    rcases overfilled (not_not.mp overfills) with ⟨job, member, long⟩
    have bounded := kept.bounded job member
    omega
  · exact ErrorInvariant.start limit partitions config

/-- One record is kept.  A job fails once, and the lease of its second delivery
expires. -/
def failedThenReaped : List Call :=
  claimedOnce 3 ++ [⟨seconds 1, .failJob ⟨⟨1, "w", 1⟩, false, 0, 1, plainError⟩⟩,
    ⟨seconds 2, .claimJobs ⟨"mail", 1, "w"⟩ []⟩, ⟨seconds 100, .reapExpiredLeases ⟨10, 0⟩ []⟩]

def oneRecord : MaxErrorHistory := ⟨1, Nat.le_refl 1, by decide⟩

theorem failedThenReaped_configured : EachStep Session.step
    (fun _ call => call.statement.Configured oneRecord) (.start (.empty [] .empty))
    failedThenReaped :=
  ⟨trivial, trivial, rfl, trivial, trivial, trivial⟩

theorem failedThenReaped_bounded_iff :
    Always Session.step (ErrorsKept oneRecord) (.start (.empty [] .empty)) failedThenReaped <->
      EachStep Session.step (fun session call => Not (Overfills oneRecord session call))
        (.start (.empty [] .empty)) failedThenReaped :=
  errors_bounded_iff oneRecord [] .empty failedThenReaped_configured

/-- Every failure is reported with the configured limit, and two records are
kept. -/
theorem reaped_history_overfull :
    EachStep Session.step (fun _ call => call.statement.Configured oneRecord)
        (.start (.empty [] .empty)) failedThenReaped ∧
      Not (Always Session.step (ErrorsKept oneRecord) (.start (.empty [] .empty))
        failedThenReaped) := by
  refine ⟨failedThenReaped_configured, fun always => ?_⟩
  have kept := (always_iff_forall_initial _ _ _ _).mp always failedThenReaped List.prefix_rfl
  have bounded := kept.bounded _ (List.mem_of_getElem? (i := 0) rfl)
  exact absurd bounded (by decide)

end PgJobQ
