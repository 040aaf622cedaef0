import PgJobQ.Lifecycle.StateMachine

/-!
# The start time of a waiting job

A claim sets `started_at`.  Four statements take a job back to `available`:
the retry of `failJob`, `reapExpiredLeases`, `releaseJob` and the replay of a
dead job.  Three of them set `started_at` to null.  `failJob` does not name
the column, so a job that waits for its retry shows the time at which the
failed attempt was started.

No constraint of the schema ties the column to the state.
-/

namespace PgJobQ

open Runs

/-- A waiting row has no start time. -/
def JobRow.Unstarted (job : JobRow) : Prop := job.state = .available -> job.startedAt = none

/-- A running row has one, and a waiting row has none. -/
structure StartFollowsState (job : JobRow) : Prop where
  waiting : job.Unstarted
  running : job.state = .running -> job.startedAt ≠ none

theorem StartFollowsState.of_other {job : JobRow} (notWaiting : job.state ≠ .available)
    (notRunning : job.state ≠ .running) : StartFollowsState job where
  waiting := fun state => absurd state notWaiting
  running := fun state => absurd state notRunning

theorem StartFollowsState.ofEnqueue (asked : EnqueueRow) (id : Nat) (now : Timestamp) :
    StartFollowsState (asked.toJobRow id now) where
  waiting := fun _ => rfl
  running := fun state => by cases state

/-- A `failJob` of the owner, with attempts left and not declared final. -/
def RetriesFailure (db : Database) (call : Call) : Prop :=
  Exists fun p : FailParams => call.statement = .failJob p ∧ p.nonRetryable = false ∧
    Exists fun job : JobRow => job ∈ db.job.rows ∧ p.owns job = true ∧
      job.attempt < job.maxAttempts

/-- Every step but the retry of a failure keeps the start time in line with
the state. -/
theorem RowStep.startFollowsState {now : Timestamp} {statement : Statement} {old new : JobRow}
    (step : RowStep now statement old new) (follows : StartFollowsState old)
    (noRetry : forall p, statement = .failJob p -> p.nonRetryable = false -> p.owns old = true ->
      old.maxAttempts ≤ old.attempt) : StartFollowsState new := by
  cases step with
  | claim claims queue ready due =>
      exact ⟨fun state => JobState.noConfusion state, fun _ => Option.some_ne_none now⟩
  | complete owned => exact .of_other JobState.noConfusion JobState.noConfusion
  | failNonRetryable owned final => exact .of_other JobState.noConfusion JobState.noConfusion
  | failExhausted owned retryable exhausted =>
      exact .of_other JobState.noConfusion JobState.noConfusion
  | @failRetry p _ owned retryable remaining =>
      have exhausted := noRetry p rfl retryable owned
      omega
  | heartbeat owned => exact ⟨follows.waiting, follows.running⟩
  | acknowledge owned requested => exact .of_other JobState.noConfusion JobState.noConfusion
  | release owned => exact ⟨fun _ => rfl, fun state => JobState.noConfusion state⟩
  | reapExhausted expired exhausted => exact .of_other JobState.noConfusion JobState.noConfusion
  | reapRetry expired remaining => exact ⟨fun _ => rfl, fun state => JobState.noConfusion state⟩
  | cancelAvailable same waiting => exact .of_other JobState.noConfusion JobState.noConfusion
  | requestCancel same started => exact ⟨follows.waiting, follows.running⟩
  | retryNow same waiting => exact ⟨follows.waiting, follows.running⟩
  | replay replays buried => exact ⟨fun _ => rfl, fun state => JobState.noConfusion state⟩

/-- A statement that retries no failure keeps the start times of all rows in
line with their states. -/
theorem allRows_startFollowsState {db : Database} {call : Call}
    (all : db.AllRows StartFollowsState) (noRetry : Not (RetriesFailure db call)) :
    (db.step call).AllRows StartFollowsState := by
  rcases Database.step_cases db call with stays | ⟨reply, committed, moves⟩
  · rw [stays]
    exact all
  · rw [moves]
    intro row member
    rcases exec_origin committed member with same | ⟨old, oldMem, step⟩ | ⟨asked, id, _, rfl⟩
    · exact all row same
    · refine step.startFollowsState (all old oldMem) (fun p fails retryable owned => ?_)
      by_contra remaining
      exact noRetry ⟨p, fails, retryable, old, oldMem, owned, Int.not_le.mp remaining⟩
    · exact .ofEnqueue asked id call.now

/-- The retry of a failure leaves the start time of the failed attempt in a
waiting row. -/
theorem retried_keeps_start {db : Database} {call : Call} (all : db.AllRows StartFollowsState)
    (retries : RetriesFailure db call) : Exists fun job : JobRow =>
      job ∈ (db.step call).job.rows ∧ job.state = .available ∧ job.startedAt ≠ none := by
  rcases call with ⟨now, statement⟩
  rcases retries with ⟨p, fails, retryable, old, member, owned, remaining⟩
  dsimp only at fails
  subst fails
  rcases failJob_commits db p now with ⟨reply, ran⟩
  have committed : (Statement.failJob p).exec now db = .ok reply := ran
  rw [Database.step_of_ok committed]
  refine ⟨(failJob p now).set old, ?_, ?_, ?_⟩
  · rw [(Mutation.run_ok ran).1]
    exact List.mem_map.mpr ⟨old, member, if_pos owned⟩
  · simp only [failJob, retryable, Bool.false_eq_true, if_false, if_neg (Int.not_le.mpr remaining)]
  · exact (all old member).running (FenceParams.owns_iff.mp owned).2.1

/-- In a run from an empty table, every waiting row has a null `started_at` in
every state exactly when no failure of the run is retried. -/
theorem waiting_unstarted_iff (partitions : List ArchivePartition) (config : QueueConfigTable)
    (calls : List Call) :
    Always Database.step (fun db => db.AllRows JobRow.Unstarted) (.empty partitions config) calls <->
      EachStep Database.step (fun db call => Not (RetriesFailure db call))
        (.empty partitions config) calls := by
  apply @always_iff_eachStep _ _ Database.step (fun db => db.AllRows StartFollowsState)
  · exact fun db all row member => (all row member).waiting
  · exact fun db call all noRetry => allRows_startFollowsState all noRetry
  · intro db call all retries unstarted
    rcases retried_keeps_start all (not_not.mp retries) with ⟨job, member, state, kept⟩
    exact kept (unstarted job member state)
  · exact allRows_empty StartFollowsState partitions config

/-- A job is claimed, and its first attempt fails.  It waits for the second
one with the start time of the first. -/
theorem failed_job_keeps_start :
    Not (Always Database.step (fun db => db.AllRows JobRow.Unstarted) (.empty [] .empty)
      (claimedOnce 2 ++ [⟨seconds 1, .failJob ⟨⟨1, "w", 1⟩, false, seconds 5, 5, plainError⟩⟩])) := by
  intro always
  have unstarted := (always_iff_forall_initial _ _ _ _).mp always _ List.prefix_rfl
  have absent := unstarted _ (List.mem_of_getElem? (i := 0) rfl) rfl
  exact absurd absent (by decide)

end PgJobQ
