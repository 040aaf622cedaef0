import PgJobQ.Lifecycle.StateMachine

/-!
# The state of a job determines its lease and outcome columns

The CHECK constraints of the migration give one direction of each equivalence:
a running row has a lease, a dead row has a reason, a terminal row has a
finish time.  The converse directions are not written down anywhere.  They
hold because each statement that leaves a state clears what that state set,
including the statements that take a row round the cycle of dead-lettering and
replay.  With both directions in hand, three of the CHECKs can never fire.
-/

namespace PgJobQ

open Runs

/-- The lease, the finish time and the dead reason are functions of the state,
up to their values. -/
structure ColumnsFollowState (row : JobRow) : Prop where
  worker : row.workerId ≠ none <-> row.state = .running
  lease : row.leaseExpiresAt ≠ none <-> row.state = .running
  finished : row.finishedAt ≠ none <->
    row.state = .succeeded ∨ row.state = .dead ∨ row.state = .cancelled
  reason : row.deadReason ≠ none <-> row.state = .dead
  outOfAttempts : row.deadReason = some .attemptsExhausted ∨ row.deadReason = some .leaseExpired ->
    row.maxAttempts ≤ row.attempt

namespace ColumnsFollowState

theorem ofEnqueue (asked : EnqueueRow) (id : Nat) (now : Timestamp) :
    ColumnsFollowState (asked.toJobRow id now) := by
  constructor <;> simp [EnqueueRow.toJobRow]

theorem finished_none {row : JobRow} (follows : ColumnsFollowState row)
    (state : row.state = .available ∨ row.state = .running) : row.finishedAt = none := by
  by_contra set
  have terminal := follows.finished.mp set
  rcases state with ready | started
  · simp [ready] at terminal
  · simp [started] at terminal

theorem reason_none {row : JobRow} (follows : ColumnsFollowState row)
    (state : row.state ≠ .dead) : row.deadReason = none := by
  by_contra set
  exact state (follows.reason.mp set)

theorem worker_none {row : JobRow} (follows : ColumnsFollowState row)
    (state : row.state ≠ .running) : row.workerId = none := by
  by_contra set
  exact state (follows.worker.mp set)

theorem lease_none {row : JobRow} (follows : ColumnsFollowState row)
    (state : row.state ≠ .running) : row.leaseExpiresAt = none := by
  by_contra set
  exact state (follows.lease.mp set)

end ColumnsFollowState

/-- Every row step keeps the columns in line with the state.  A step clears
the columns of the state it leaves, or leaves them as the invariant says they
were. -/
theorem RowStep.columnsFollowState {now : Timestamp} {statement : Statement} {old new : JobRow}
    (step : RowStep now statement old new) (follows : ColumnsFollowState old) :
    ColumnsFollowState new := by
  cases step with
  | claim claims queue ready due =>
      have finish := follows.finished_none (Or.inl ready)
      have reason := follows.reason_none (by rw [ready]; decide)
      constructor <;> simp [claimSet, finish, reason]
  | complete owned =>
      have started := (FenceParams.owns_iff.mp owned).2.1
      have reason := follows.reason_none (by rw [started]; decide)
      constructor <;> simp [completeJob, reason]
  | failNonRetryable owned final => constructor <;> simp
  | failExhausted owned retryable exhausted => constructor <;> simp [exhausted]
  | failRetry owned retryable remaining => constructor <;> simp
  | heartbeat owned =>
      have started := (FenceParams.owns_iff.mp owned).2.1
      have worker := follows.worker.mpr started
      have finish := follows.finished_none (Or.inr started)
      have reason := follows.reason_none (by rw [started]; decide)
      constructor <;> simp [heartbeatJob, started, worker, finish, reason]
  | acknowledge owned requested => constructor <;> simp [acknowledgeCancellation]
  | release owned =>
      have started := (FenceParams.owns_iff.mp owned).2.1
      have finish := follows.finished_none (Or.inr started)
      have reason := follows.reason_none (by rw [started]; decide)
      constructor <;> simp [releaseJob, finish, reason]
  | reapExhausted expired exhausted => constructor <;> simp [exhausted]
  | reapRetry expired remaining => constructor <;> simp
  | cancelAvailable same waiting =>
      have worker := follows.worker_none (by rw [waiting]; decide)
      have lease := follows.lease_none (by rw [waiting]; decide)
      have reason := follows.reason_none (by rw [waiting]; decide)
      constructor <;> simp [cancelAvailableJob, worker, lease, reason]
  | requestCancel same started =>
      have worker := follows.worker.mpr started
      have lease := follows.lease.mpr started
      have finish := follows.finished_none (Or.inr started)
      have reason := follows.reason_none (by rw [started]; decide)
      constructor <;> simp [requestCancelRunningJob, started, worker, lease, finish, reason]
  | retryNow same waiting =>
      have worker := follows.worker_none (by rw [waiting]; decide)
      have lease := follows.lease_none (by rw [waiting]; decide)
      have finish := follows.finished_none (Or.inl waiting)
      have reason := follows.reason_none (by rw [waiting]; decide)
      constructor <;> simp [retryJobNow, waiting, worker, lease, finish, reason]
  | replay replays buried =>
      have worker := follows.worker_none (by rw [buried]; decide)
      have lease := follows.lease_none (by rw [buried]; decide)
      constructor <;> simp [replaySet, worker, lease]

theorem allRows_columnsFollowState (db : Database) (call : Call)
    (all : db.AllRows ColumnsFollowState) : (db.step call).AllRows ColumnsFollowState :=
  allRows_step ColumnsFollowState.ofEnqueue
    (fun _ _ _ _ step follows => step.columnsFollowState follows) db call all

/-! ## Three checks that never fire -/

/-- The constraints that tie a column to the state. -/
def RowConstraint.tiesState (constraint : RowConstraint) : Prop :=
  constraint = .jobRunningHasLease ∨ constraint = .jobDeadHasReason ∨
    constraint = .jobTerminalFinished

theorem ColumnsFollowState.holds {row : JobRow} (follows : ColumnsFollowState row)
    {constraint : RowConstraint} (ties : constraint.tiesState) : constraint.Holds row := by
  rcases ties with rfl | rfl | rfl
  · by_cases started : row.state = .running
    · exact Or.inr ⟨follows.lease.mpr started, follows.worker.mpr started⟩
    · exact Or.inl started
  · by_cases buried : row.state = .dead
    · exact Or.inr (follows.reason.mpr buried)
    · exact Or.inl buried
  · cases state : row.state
    case available => exact Or.inl (by rw [state]; rfl)
    case running => exact Or.inl (by rw [state]; rfl)
    case succeeded => exact Or.inr (follows.finished.mpr (Or.inl state))
    case dead => exact Or.inr (follows.finished.mpr (Or.inr (Or.inl state)))
    case cancelled => exact Or.inr (follows.finished.mpr (Or.inr (Or.inr state)))

/-- On a table whose columns follow the state, no statement is refused for one
of these constraints. -/
theorem exec_never_refused {db : Database} (all : db.AllRows ColumnsFollowState)
    {constraint : RowConstraint} (ties : constraint.tiesState) (now : Timestamp)
    (statement : Statement) : statement.exec now db ≠ .error (.checkViolation constraint) := by
  intro aborted
  cases updates : statement.mutation now db with
  | some mutation =>
      rw [Statement.exec_mutation updates] at aborted
      rcases Mutation.run_checkViolation aborted with ⟨row, member, violated⟩
      apply violated
      unfold Mutation.rewrite
      split
      · rename_i hit
        have step := RowStep.of_hits updates member hit
        exact (step.columnsFollowState (all row member)).holds ties
      · exact db.job.holds member constraint
  | none =>
      have batch : forall rows : List EnqueueRow,
          PgJobQ.insertJobsBatch rows now db ≠ .error (.checkViolation constraint) := by
        intro rows refused
        unfold PgJobQ.insertJobsBatch at refused
        cases inserted : insertRows now rows db with
        | ok done =>
            rw [inserted] at refused
            cases refused
        | error error =>
            rw [inserted] at refused
            cases refused
            rcases insertRows_checkViolation inserted with ⟨row, id, _, violated⟩
            exact violated ((ColumnsFollowState.ofEnqueue row id now).holds ties)
      cases statement with
      | insertJob row =>
          apply batch [row]
          rw [← insertJob_eq_batch]
          exact aborted
      | insertJobsBatch rows => exact batch rows aborted
      | setQueuePaused queue paused => cases aborted
      | pruneTerminalJobs p locked =>
          change PgJobQ.pruneTerminalJobs p locked now db = _ at aborted
          unfold PgJobQ.pruneTerminalJobs at aborted
          dsimp only at aborted
          split at aborted
          all_goals cases aborted
      | archiveTerminalJobs p locked =>
          change PgJobQ.archiveTerminalJobs p locked now db = _ at aborted
          unfold PgJobQ.archiveTerminalJobs at aborted
          dsimp only at aborted
          repeat' split at aborted
          all_goals cases aborted
      | purgeQueue queue states limit locked => cases aborted
      | _ => cases updates

/-- In every state reached from an empty table, the state of a row decides
which of its lease and outcome columns are set, and no statement is ever
refused for contradicting that. -/
theorem state_determines_columns (partitions : List ArchivePartition)
    (config : QueueConfigTable) (calls : List Call) :
    (run Database.step (.empty partitions config) calls).AllRows ColumnsFollowState ∧
      forall (now : Timestamp) (statement : Statement) (constraint : RowConstraint),
        constraint.tiesState ->
          statement.exec now (run Database.step (.empty partitions config) calls) ≠
            .error (.checkViolation constraint) := by
  have all := run_invariant allRows_columnsFollowState
    (allRows_empty ColumnsFollowState partitions config) calls
  exact ⟨all, fun now statement constraint ties => exec_never_refused all ties now statement⟩

end PgJobQ
