import PgJobQ.Statements.Exec

/-!
# What one statement can do to one job

`RowStep` lists the ways an `UPDATE` changes a row, one constructor for each
branch of each statement, with everything the `WHERE` clause guarantees about
the old row and the complete new row.  `Effect` says what a committed
statement does to the job with a given id: it leaves it alone, moves it by a
`RowStep`, inserts it or deletes it, and its `RETURNING` list says which.

`exec_effect` is the only place where the statements are opened.  Every
invariant of the job table is a case analysis over `Effect` and `RowStep`.
-/

namespace PgJobQ

theorem FenceParams.owns_iff {p : FenceParams} {job : JobRow} :
    p.owns job = true <-> job.id = p.id ∧ job.state = .running ∧
      job.workerId = some p.workerId ∧ job.attempt = p.attempt := by
  simp only [FenceParams.owns, Bool.and_eq_true, beq_iff_eq, and_assoc]

theorem claimable_iff {config : QueueConfigTable} {p : ClaimParams} {now : Timestamp}
    {job : JobRow} : claimable config p now job = true <->
      job.queue = p.queue ∧ job.state = .available ∧ job.runAt ≤ now ∧
        queuePaused config job.queue = false := by
  simp only [claimable, Bool.and_eq_true, beq_iff_eq, decide_eq_true_eq, and_assoc,
    Bool.not_eq_true']

theorem leaseExpired_iff {now : Timestamp} {job : JobRow} : leaseExpired now job = true <->
    job.state = .running ∧ Exists fun expiry : Timestamp =>
      job.leaseExpiresAt = some expiry ∧ expiry < now := by
  unfold leaseExpired
  cases lease : job.leaseExpiresAt <;>
    simp only [Bool.and_eq_true, beq_iff_eq, decide_eq_true_eq, Option.some.injEq,
      exists_eq_left', Bool.false_eq_true, and_false, reduceCtorEq, false_and, exists_false]

/-- One row changed by one `UPDATE`, branch by branch. -/
inductive RowStep (now : Timestamp) : Statement -> JobRow -> JobRow -> Prop where
  | claim {statement p job} (claims : statement.claimParams = some p)
      (queue : job.queue = p.queue) (ready : job.state = .available) (due : job.runAt ≤ now) :
      RowStep now statement job (claimSet p.workerId now job)
  | complete {p job} (owned : p.owns job = true) :
      RowStep now (.completeJob p) job ((completeJob p now).set job)
  | failNonRetryable {p job} (owned : p.owns job = true) (final : p.nonRetryable = true) :
      RowStep now (.failJob p) job { job with
        state := .dead, deadReason := some .nonRetryableError, finishedAt := some now
        errors := appendError p.maxErrorHistory job.errors p.error
        leaseExpiresAt := none, workerId := none, updatedAt := now }
  | failExhausted {p job} (owned : p.owns job = true) (retryable : p.nonRetryable = false)
      (exhausted : job.maxAttempts ≤ job.attempt) :
      RowStep now (.failJob p) job { job with
        state := .dead, deadReason := some .attemptsExhausted, finishedAt := some now
        errors := appendError p.maxErrorHistory job.errors p.error
        leaseExpiresAt := none, workerId := none, updatedAt := now }
  | failRetry {p job} (owned : p.owns job = true) (retryable : p.nonRetryable = false)
      (remaining : job.attempt < job.maxAttempts) :
      RowStep now (.failJob p) job { job with
        state := .available, deadReason := none, finishedAt := none, runAt := now + p.retryDelay
        errors := appendError p.maxErrorHistory job.errors p.error
        leaseExpiresAt := none, workerId := none, updatedAt := now }
  | heartbeat {p leaseSeconds job} (owned : p.owns job = true) :
      RowStep now (.heartbeatJob p leaseSeconds) job ((heartbeatJob p leaseSeconds now).set job)
  | acknowledge {p job} (owned : p.owns job = true) (requested : job.cancelRequestedAt ≠ none) :
      RowStep now (.acknowledgeCancellation p) job ((acknowledgeCancellation p now).set job)
  | release {p job} (owned : p.owns job = true) :
      RowStep now (.releaseJob p) job ((releaseJob p now).set job)
  | reapExhausted {p locked job} (expired : leaseExpired now job = true)
      (exhausted : job.maxAttempts ≤ job.attempt) :
      RowStep now (.reapExpiredLeases p locked) job { job with
        state := .dead, deadReason := some .leaseExpired, finishedAt := some now
        errors := appendError 5 job.errors (leaseExpiredRecord now job)
        leaseExpiresAt := none, workerId := none, updatedAt := now }
  | reapRetry {p locked job} (expired : leaseExpired now job = true)
      (remaining : job.attempt < job.maxAttempts) :
      RowStep now (.reapExpiredLeases p locked) job { job with
        state := .available, deadReason := none, finishedAt := none, startedAt := none
        runAt := now + p.retryDelay
        errors := appendError 5 job.errors (leaseExpiredRecord now job)
        leaseExpiresAt := none, workerId := none, updatedAt := now }
  | cancelAvailable {id job} (same : job.id = id) (waiting : job.state = .available) :
      RowStep now (.cancelAvailableJob id) job ((cancelAvailableJob id now).set job)
  | requestCancel {id job} (same : job.id = id) (started : job.state = .running) :
      RowStep now (.requestCancelRunningJob id) job ((requestCancelRunningJob id now).set job)
  | retryNow {id job} (same : job.id = id) (waiting : job.state = .available) :
      RowStep now (.retryJobNow id) job ((retryJobNow id now).set job)
  | replay {statement job} (replays : statement.isReplay = true) (buried : job.state = .dead) :
      RowStep now statement job (replaySet now job)

/-- The candidate that has the id of a row is that row. -/
theorem selects_of_candidate {before : JobRow -> JobRow -> Prop} [DecidableRel before]
    {selects : JobRow -> Bool} {limit : Nat} {locked : List Nat} {db : Database} {job : JobRow}
    (member : job ∈ db.job.rows)
    (contained : (lockCandidates before selects limit locked db.job.rows).contains job.id = true) :
    selects job = true := by
  rcases mem_lockCandidates (List.contains_iff_mem.mp contained) with ⟨row, rowMem, chosen, same⟩
  rw [← db.job.eq_of_id rowMem member same]
  exact chosen

/-- The three branches of the nested CASE of `failJob`. -/
theorem RowStep.of_failJob {now : Timestamp} {p : FailParams} {job : JobRow}
    (owned : p.owns job = true) :
    RowStep now (.failJob p) job ((PgJobQ.failJob p now).set job) := by
  cases final : p.nonRetryable with
  | true =>
      have step : RowStep now (.failJob p) job _ := .failNonRetryable owned final
      simpa only [PgJobQ.failJob, final, if_true, Bool.true_or] using step
  | false =>
      by_cases exhausted : job.maxAttempts ≤ job.attempt
      · have step : RowStep now (.failJob p) job _ := .failExhausted owned final exhausted
        simpa only [PgJobQ.failJob, final, exhausted, Bool.false_eq_true, if_false, if_true,
          decide_true, Bool.or_true] using step
      · have step : RowStep now (.failJob p) job _ :=
          .failRetry owned final (Int.not_le.mp exhausted)
        simpa only [PgJobQ.failJob, final, exhausted, Bool.false_eq_true, if_false,
          decide_false, Bool.or_false] using step

/-- The two branches of the reaper. -/
theorem RowStep.of_reap {now : Timestamp} {p : ReapParams} {locked : List Nat} {db : Database}
    {job : JobRow} (expired : leaseExpired now job = true) :
    RowStep now (.reapExpiredLeases p locked) job
      ((PgJobQ.reapExpiredLeases p locked now db).set job) := by
  by_cases exhausted : job.maxAttempts ≤ job.attempt
  · have step : RowStep now (.reapExpiredLeases p locked) job _ :=
      .reapExhausted expired exhausted
    simpa only [PgJobQ.reapExpiredLeases, exhausted, if_true] using step
  · have step : RowStep now (.reapExpiredLeases p locked) job _ :=
      .reapRetry expired (Int.not_le.mp exhausted)
    simpa only [PgJobQ.reapExpiredLeases, exhausted, if_false] using step

/-- A row hit by a statement's `WHERE` clause takes one of the listed steps. -/
theorem RowStep.of_hits {now : Timestamp} {db : Database} {statement : Statement}
    {mutation : Mutation} (isUpdate : statement.mutation now db = some mutation) {job : JobRow}
    (member : job ∈ db.job.rows) (hit : mutation.hits job = true) :
    RowStep now statement job (mutation.set job) := by
  cases statement with
  | insertJob row => cases isUpdate
  | insertJobsBatch rows => cases isUpdate
  | setQueuePaused queue paused => cases isUpdate
  | pruneTerminalJobs p locked => cases isUpdate
  | archiveTerminalJobs p locked => cases isUpdate
  | purgeQueue queue states limit locked => cases isUpdate
  | claimJobs p locked =>
      cases isUpdate
      have guard := claimable_iff.mp (selects_of_candidate member hit)
      exact .claim rfl guard.1 guard.2.1 guard.2.2.1
  | claimJobsWithAging p threshold locked =>
      cases isUpdate
      have guard := claimable_iff.mp (selects_of_candidate member hit)
      exact .claim rfl guard.1 guard.2.1 guard.2.2.1
  | completeJob p =>
      cases isUpdate
      exact .complete hit
  | failJob p =>
      cases isUpdate
      exact .of_failJob hit
  | heartbeatJob p leaseSeconds =>
      cases isUpdate
      exact .heartbeat hit
  | acknowledgeCancellation p =>
      cases isUpdate
      have guard := Bool.and_eq_true_iff.mp hit
      exact .acknowledge guard.1 (Option.isSome_iff_ne_none.mp guard.2)
  | releaseJob p =>
      cases isUpdate
      exact .release hit
  | reapExpiredLeases p locked =>
      cases isUpdate
      exact .of_reap (selects_of_candidate member hit)
  | cancelAvailableJob id =>
      cases isUpdate
      exact .cancelAvailable (named_iff.mp hit).1 (named_iff.mp hit).2
  | requestCancelRunningJob id =>
      cases isUpdate
      exact .requestCancel (named_iff.mp hit).1 (named_iff.mp hit).2
  | retryJobNow id =>
      cases isUpdate
      exact .retryNow (named_iff.mp hit).1 (named_iff.mp hit).2
  | replayDeadJob id =>
      cases isUpdate
      exact .replay rfl (named_iff.mp hit).2
  | replayDeadJobs ids =>
      cases isUpdate
      have guard := Bool.and_eq_true_iff.mp hit
      exact .replay rfl (beq_iff_eq.mp guard.2)

/-- A row that leaves `running` passes the checks if it keeps its counters and
its outcome columns fit its new state. -/
theorem JobRow.Checked.of_report {old new : JobRow} (checked : old.Checked)
    (priority : new.priority = old.priority) (attempt : new.attempt = old.attempt)
    (maxAttempts : new.maxAttempts = old.maxAttempts)
    (leaseSeconds : new.leaseSeconds = old.leaseSeconds) (left : new.state ≠ .running)
    (reason : new.state ≠ .dead ∨ new.deadReason ≠ none)
    (finished : new.state.isTerminal = false ∨ new.finishedAt ≠ none) : new.Checked := by
  have before := (JobRow.checked_iff old).mp checked
  apply (JobRow.checked_iff new).mpr
  intro constraint
  cases constraint with
  | prioritySmallint =>
      have same := before .prioritySmallint
      rwa [RowConstraint.Holds, ← priority] at same
  | jobAttemptBounded =>
      have same := before .jobAttemptBounded
      rwa [RowConstraint.Holds, ← attempt, ← maxAttempts] at same
  | jobLeasePositive =>
      have same := before .jobLeasePositive
      rwa [RowConstraint.Holds, ← leaseSeconds] at same
  | jobMaxAttemptsValid =>
      have same := before .jobMaxAttemptsValid
      rwa [RowConstraint.Holds, ← maxAttempts] at same
  | jobDeadHasReason => exact reason
  | jobRunningHasLease => exact Or.inl left
  | jobTerminalFinished => exact finished

/-- The fence is the only condition of a release. -/
theorem releaseJob_commits (db : Database) (p : FenceParams) (now : Timestamp) :
    Exists fun reply : Reply => (releaseJob p now).run db = .ok reply := by
  apply Mutation.run_commits_of_hits
  · intro row member hit
    exact (db.job.constraints.checked row member).of_report rfl rfl rfl rfl
      (by simp [releaseJob]) (Or.inl (by simp [releaseJob])) (Or.inl rfl)
  · intro row
    rfl
  · intro row member hit
    have started := (FenceParams.owns_iff.mp hit).2.1
    exact Or.inl (by simp [releaseJob, JobRow.uniqueActiveIdx, JobState.isActive, started])

/-- The fence is the only condition of a completion. -/
theorem completeJob_commits (db : Database) (p : FenceParams) (now : Timestamp) :
    Exists fun reply : Reply => (completeJob p now).run db = .ok reply := by
  apply Mutation.run_commits_of_hits
  · intro row member hit
    exact (db.job.constraints.checked row member).of_report rfl rfl rfl rfl
      (by simp [completeJob]) (Or.inl (by simp [completeJob])) (Or.inr (by simp [completeJob]))
  · intro row
    rfl
  · intro row member hit
    exact Or.inr (by simp [completeJob, JobRow.uniqueActiveIdx, JobState.isActive])

/-- A fence and a request are the only conditions of an acknowledgement. -/
theorem acknowledgeCancellation_commits (db : Database) (p : FenceParams) (now : Timestamp) :
    Exists fun reply : Reply => (acknowledgeCancellation p now).run db = .ok reply := by
  apply Mutation.run_commits_of_hits
  · intro row member hit
    exact (db.job.constraints.checked row member).of_report rfl rfl rfl rfl
      (by simp [acknowledgeCancellation]) (Or.inl (by simp [acknowledgeCancellation]))
      (Or.inr (by simp [acknowledgeCancellation]))
  · intro row
    rfl
  · intro row member hit
    exact Or.inr (by simp [acknowledgeCancellation, JobRow.uniqueActiveIdx, JobState.isActive])

/-- The fence is the only condition of a heartbeat. -/
theorem heartbeatJob_commits (db : Database) (p : FenceParams) (leaseSeconds : Int)
    (now : Timestamp) :
    Exists fun reply : Reply => (heartbeatJob p leaseSeconds now).run db = .ok reply := by
  apply Mutation.run_commits_of_hits
  · intro row member hit
    have before := (JobRow.checked_iff row).mp (db.job.constraints.checked row member)
    have owned := FenceParams.owns_iff.mp hit
    apply (JobRow.checked_iff _).mpr
    intro constraint
    cases constraint with
    | prioritySmallint => exact before .prioritySmallint
    | jobAttemptBounded => exact before .jobAttemptBounded
    | jobDeadHasReason => exact before .jobDeadHasReason
    | jobLeasePositive => exact before .jobLeasePositive
    | jobMaxAttemptsValid => exact before .jobMaxAttemptsValid
    | jobRunningHasLease =>
        have held : row.workerId ≠ none := by
          rw [owned.2.2.1]
          exact Option.some_ne_none p.workerId
        exact Or.inr ⟨Option.some_ne_none _, held⟩
    | jobTerminalFinished => exact before .jobTerminalFinished
  · intro row
    rfl
  · intro row member hit
    exact Or.inl rfl

/-- The fence is the only condition of a failure report. -/
theorem failJob_commits (db : Database) (p : FailParams) (now : Timestamp) :
    Exists fun reply : Reply => (failJob p now).run db = .ok reply := by
  apply Mutation.run_commits_of_hits
  · intro row member hit
    refine @JobRow.Checked.of_report row _ (db.job.constraints.checked row member) rfl rfl rfl rfl
      ?_ ?_ ?_
    · unfold failJob
      dsimp only
      split
      · exact JobState.noConfusion
      · split <;> exact JobState.noConfusion
    · by_cases final : p.nonRetryable = true
      · exact Or.inr (by simp [failJob, final])
      · by_cases exhausted : row.maxAttempts ≤ row.attempt
        · exact Or.inr (by simp [failJob, final, exhausted])
        · exact Or.inl (by simp [failJob, final, exhausted])
    · by_cases final : p.nonRetryable = true
      · exact Or.inr (by simp [failJob, final])
      · by_cases exhausted : row.maxAttempts ≤ row.attempt
        · exact Or.inr (by simp [failJob, exhausted])
        · exact Or.inl (by simp [failJob, final, exhausted]; rfl)
  · intro row
    rfl
  · intro row member hit
    have started := (FenceParams.owns_iff.mp hit).2.1
    by_cases gone : p.nonRetryable = true ∨ row.maxAttempts ≤ row.attempt
    · refine Or.inr ?_
      rcases gone with final | exhausted
      · simp [failJob, JobRow.uniqueActiveIdx, JobState.isActive, final]
      · simp [failJob, JobRow.uniqueActiveIdx, JobState.isActive, exhausted]
    · rw [not_or] at gone
      refine Or.inl ?_
      simp [failJob, JobRow.uniqueActiveIdx, JobState.isActive, gone.1, gone.2, started]

/-- A lease that has expired is the only condition of its reaping. -/
theorem reapExpiredLeases_commits (db : Database) (p : ReapParams) (locked : List Nat)
    (now : Timestamp) : Exists fun reply : Reply =>
      (reapExpiredLeases p locked now db).run db = .ok reply := by
  have expired : forall row, row ∈ db.job.rows ->
      (reapExpiredLeases p locked now db).hits row = true -> row.state = .running := by
    intro row member hit
    rcases mem_lockCandidates (List.contains_iff_mem.mp hit) with ⟨other, otherMem, chosen, same⟩
    rw [db.job.eq_of_id otherMem member same] at chosen
    exact (leaseExpired_iff.mp chosen).1
  apply Mutation.run_commits_of_hits
  · intro row member hit
    refine @JobRow.Checked.of_report row _ (db.job.constraints.checked row member) rfl rfl rfl rfl
      ?_ ?_ ?_
    · show (if row.maxAttempts ≤ row.attempt then JobState.dead else .available) ≠ .running
      split <;> exact JobState.noConfusion
    · by_cases exhausted : row.maxAttempts ≤ row.attempt
      · exact Or.inr (by simp [reapExpiredLeases, exhausted])
      · exact Or.inl (by simp [reapExpiredLeases, exhausted])
    · by_cases exhausted : row.maxAttempts ≤ row.attempt
      · exact Or.inr (by simp [reapExpiredLeases, exhausted])
      · exact Or.inl (by simp [reapExpiredLeases, exhausted]; rfl)
  · intro row
    rfl
  · intro row member hit
    have started := expired row member hit
    by_cases exhausted : row.maxAttempts ≤ row.attempt
    · exact Or.inr (by
        simp [reapExpiredLeases, JobRow.uniqueActiveIdx, JobState.isActive, exhausted])
    · exact Or.inl (by
        simp [reapExpiredLeases, JobRow.uniqueActiveIdx, JobState.isActive, exhausted, started])

/-- Only available jobs are cancelled, and cancelling frees the unique key. -/
theorem cancelAvailableJob_commits (db : Database) (id : Nat) (now : Timestamp) :
    Exists fun reply : Reply => (cancelAvailableJob id now).run db = .ok reply := by
  apply Mutation.run_commits_of_hits
  · intro row member hit
    exact (db.job.constraints.checked row member).of_report rfl rfl rfl rfl JobState.noConfusion
      (Or.inl JobState.noConfusion) (Or.inr (Option.some_ne_none now))
  · exact fun _ => rfl
  · exact fun _ _ _ => Or.inr rfl

/-- A request to cancel changes no column a constraint looks at. -/
theorem requestCancelRunningJob_commits (db : Database) (id : Nat) (now : Timestamp) :
    Exists fun reply : Reply => (requestCancelRunningJob id now).run db = .ok reply := by
  apply Mutation.run_commits_of_hits
  · exact fun row member _ => db.job.constraints.checked row member
  · exact fun _ => rfl
  · exact fun _ _ _ => Or.inl rfl

theorem retryJobNow_commits (db : Database) (id : Nat) (now : Timestamp) :
    Exists fun reply : Reply => (retryJobNow id now).run db = .ok reply := by
  apply Mutation.run_commits_of_hits
  · exact fun row member _ => db.job.constraints.checked row member
  · exact fun _ => rfl
  · exact fun _ _ _ => Or.inl rfl

/-! ## Looking a job up -/

/-- The row of `job` with this id. -/
def Database.find (db : Database) (id : Nat) : Option JobRow :=
  db.job.rows.find? (fun row => row.id == id)

theorem Database.find_eq_some_iff {db : Database} {id : Nat} {row : JobRow} :
    db.find id = some row <-> row ∈ db.job.rows ∧ row.id = id := by
  rw [find, db.job.constraints.primaryKey.find?_eq_some_iff
    (fun _ => beq_iff_eq.trans Option.some_inj.symm), JobRow.primaryKey, Option.some_inj]

theorem Database.find_eq_none_iff {db : Database} {id : Nat} :
    db.find id = none <-> forall row, row ∈ db.job.rows -> row.id ≠ id := by
  unfold Database.find
  simp only [List.find?_eq_none, beq_iff_eq, ne_eq]

theorem Database.find_of_mem {db : Database} {row : JobRow} (member : row ∈ db.job.rows) :
    db.find row.id = some row :=
  Database.find_eq_some_iff.mpr ⟨member, rfl⟩

/-! ## The effect of a statement on one job -/

/-- What a committed statement, which returned these rows, did to the job with
this id. -/
inductive Effect (now : Timestamp) (db : Database) (statement : Statement) (id : Nat)
    (returned : List JobRow) : Option JobRow -> Option JobRow -> Prop where
  | untouched {job} (silent : forall row, row ∈ returned -> row.id ≠ id) :
      Effect now db statement id returned job job
  | stepped {old new} (step : RowStep now statement old new) (oldId : old.id = id)
      (newId : new.id = id) (listed : new ∈ returned)
      (only : forall row, row ∈ returned -> row.id = id -> row = new) :
      Effect now db statement id returned (some old) (some new)
  | inserted {row} (asked : row ∈ statement.enqueueRows) (fresh : db.nextId ≤ id)
      (listed : row.toJobRow id now ∈ returned)
      (only : forall other, other ∈ returned -> other.id = id -> other = row.toJobRow id now) :
      Effect now db statement id returned none (some (row.toJobRow id now))
  | deleted {old} (deletes : statement.isDelete = true) (oldId : old.id = id)
      (listed : old ∈ returned)
      (only : forall row, row ∈ returned -> row.id = id -> row = old) :
      Effect now db statement id returned (some old) none

/-- The effect of an `UPDATE`. -/
theorem Mutation.run_effect {now : Timestamp} {db : Database} {statement : Statement}
    {mutation : Mutation} {reply : Reply}
    (isUpdate : statement.mutation now db = some mutation)
    (committed : mutation.run db = .ok reply) (id : Nat) :
    Effect now db statement id reply.rows (db.find id) (reply.db.find id) := by
  have done := Mutation.run_ok committed
  have after : reply.db.find id = (db.find id).map mutation.rewrite := by
    unfold Database.find
    rw [done.1, List.find?_map]
    congr 2
    funext row
    simp only [Function.comp_apply, mutation.rewrite_id]
  have source : forall row, row ∈ reply.rows -> row.id = id -> forall old, db.find id = some old ->
      mutation.hits old = true ∧ mutation.set old = row := by
    intro row listed rowId old found
    rw [done.2.1] at listed
    rcases Mutation.mem_returning.mp listed with ⟨origin, member, hit, rfl⟩
    have originId : origin.id = id := (mutation.keepsId origin).symm.trans rowId
    have same := Database.find_eq_some_iff.mpr ⟨member, originId⟩
    rw [found] at same
    cases same
    exact ⟨hit, rfl⟩
  cases found : db.find id with
  | none =>
      rw [after, found]
      refine .untouched ?_
      intro row listed rowId
      rw [done.2.1] at listed
      rcases Mutation.mem_returning.mp listed with ⟨origin, member, _, rfl⟩
      rw [mutation.keepsId] at rowId
      exact Database.find_eq_none_iff.mp found origin member rowId
  | some old =>
      have present := Database.find_eq_some_iff.mp found
      rw [after, found]
      by_cases hit : mutation.hits old = true
      · have rewritten : mutation.rewrite old = mutation.set old := if_pos hit
        rw [Option.map_some, rewritten]
        refine .stepped (.of_hits isUpdate present.1 hit) present.2
          ((mutation.keepsId old).trans present.2) ?_ ?_
        · rw [done.2.1]
          exact Mutation.mem_returning.mpr ⟨old, present.1, hit, rfl⟩
        · intro row listed rowId
          exact (source row listed rowId old found).2.symm
      · have kept : mutation.rewrite old = old := if_neg hit
        rw [Option.map_some, kept]
        refine .untouched ?_
        intro row listed rowId
        exact hit (source row listed rowId old found).1

/-- The effect of a `DELETE`. -/
theorem deleteJobs_effect {now : Timestamp} {db : Database} {statement : Statement}
    {victim : JobRow -> Bool} (deletes : statement.isDelete = true) (id : Nat) :
    Effect now db statement id (db.job.rows.filter victim) (db.find id)
      ((db.deleteJobs victim).find id) := by
  have kept : forall row, row ∈ (db.deleteJobs victim).job.rows <->
      row ∈ db.job.rows ∧ victim row = false := by
    intro row
    simp only [Database.deleteJobs, JobTable.delete, List.mem_filter, Bool.not_eq_true']
  cases found : db.find id with
  | none =>
      have absent := Database.find_eq_none_iff.mp found
      have gone : (db.deleteJobs victim).find id = none :=
        Database.find_eq_none_iff.mpr (fun row member => absent row ((kept row).mp member).1)
      rw [gone]
      exact .untouched (fun row listed => absent row (List.mem_filter.mp listed).1)
  | some old =>
      have present := Database.find_eq_some_iff.mp found
      have unique : forall row, row ∈ db.job.rows -> row.id = id -> row = old :=
        fun row member rowId => db.job.eq_of_id member present.1 (rowId.trans present.2.symm)
      cases hit : victim old with
      | true =>
          have gone : (db.deleteJobs victim).find id = none := by
            apply Database.find_eq_none_iff.mpr
            intro row member rowId
            have survivor := (kept row).mp member
            rw [unique row survivor.1 rowId, hit] at survivor
            cases survivor.2
          rw [gone]
          exact .deleted deletes present.2 (List.mem_filter.mpr ⟨present.1, hit⟩)
            (fun row listed rowId => unique row (List.mem_filter.mp listed).1 rowId)
      | false =>
          have stays : (db.deleteJobs victim).find id = some old :=
            Database.find_eq_some_iff.mpr ⟨(kept old).mpr ⟨present.1, hit⟩, present.2⟩
          rw [stays]
          refine .untouched ?_
          intro row listed rowId
          have chosen := List.mem_filter.mp listed
          rw [unique row chosen.1 rowId, hit] at chosen
          cases chosen.2

/-- Appending a row is visible under its own id only. -/
theorem find_of_append {db next : Database} {new : JobRow}
    (appended : next.job.rows = db.job.rows ++ [new]) (absent : db.find new.id = none)
    (id : Nat) : next.find id = if id = new.id then some new else db.find id := by
  unfold Database.find at absent ⊢
  rw [appended, List.find?_append]
  split
  · rename_i same
    rw [same, absent]
    simp
  · rename_i different
    have other : (new.id == id) = false := beq_eq_false_iff_ne.mpr (Ne.symm different)
    rw [List.find?_cons, other]
    simp

theorem Database.find_nextId (db : Database) : db.find db.nextId = none :=
  Database.find_eq_none_iff.mpr (fun row member same =>
    Nat.lt_irrefl db.nextId (same ▸ db.identity row member))

/-- An insert leaves a job alone, or creates it under an id drawn just now.
The induction is on the rows still to insert; an id drawn for the first row is
below every id drawn for a later one. -/
theorem insertRows_effect {now : Timestamp} {rows : List EnqueueRow} {db last : Database}
    {outcomes : List (Option JobRow)}
    (inserted : insertRows now rows db = .ok (last, outcomes)) (id : Nat) :
    (last.find id = db.find id ∧ forall row, row ∈ outcomes.reduceOption -> row.id ≠ id) ∨
      (db.nextId ≤ id ∧ db.find id = none ∧ Exists fun row : EnqueueRow => row ∈ rows ∧
        last.find id = some (row.toJobRow id now) ∧
        row.toJobRow id now ∈ outcomes.reduceOption ∧
        forall other, other ∈ outcomes.reduceOption -> other.id = id ->
          other = row.toJobRow id now) := by
  induction rows generalizing db last outcomes with
  | nil =>
      cases inserted
      exact Or.inl ⟨rfl, fun row listed => absurd listed List.not_mem_nil⟩
  | cons row rows inductionHypothesis =>
      rcases insertRows_cons inserted with ⟨next, outcome, tail, first, rest, rfl⟩
      have later := inductionHypothesis rest
      have head := insertRow_ok first
      rcases head.2.2.2.2 with ⟨_, rfl, sameJob⟩ | ⟨_, rfl, appended⟩
      · have sameFind : next.find id = db.find id := by
          unfold Database.find
          rw [sameJob]
        rw [sameFind, head.1] at later
        rcases later with silent | ⟨above, absent, found, member, rest⟩
        · exact Or.inl silent
        · exact Or.inr ⟨Nat.le_of_succ_le above, absent, found,
            List.mem_cons_of_mem row member, rest⟩
      · have lookup := find_of_append appended db.find_nextId id
        rw [head.1] at later
        by_cases drawn : id = db.nextId
        · subst drawn
          rcases later with ⟨same, silent⟩ | ⟨above, _⟩
          · refine Or.inr ⟨Nat.le_refl _, db.find_nextId, row, List.mem_cons_self, ?_, ?_, ?_⟩
            · rw [same, lookup]
              exact if_pos rfl
            · exact List.mem_cons_self
            · intro other listed otherId
              rcases List.mem_cons.mp listed with equal | listedLater
              · exact equal
              · exact absurd otherId (silent other listedLater)
          · exact absurd above (Nat.not_succ_le_self db.nextId)
        · have sameFind : next.find id = db.find id := lookup.trans (if_neg drawn)
          rw [sameFind] at later
          rcases later with ⟨same, silent⟩ | ⟨above, absent, found, member, shown, listed, only⟩
          · refine Or.inl ⟨same, ?_⟩
            intro other listed otherId
            rcases List.mem_cons.mp listed with equal | listedLater
            · rw [equal] at otherId
              exact drawn otherId.symm
            · exact silent other listedLater otherId
          · refine Or.inr ⟨Nat.le_of_succ_le above, absent, found,
              List.mem_cons_of_mem row member, shown, List.mem_cons_of_mem _ listed, ?_⟩
            intro other otherListed otherId
            rcases List.mem_cons.mp otherListed with equal | listedLater
            · rw [equal] at otherId
              exact absurd otherId.symm drawn
            · exact only other listedLater otherId

/-- The effect of an `INSERT`. -/
theorem insertJobsBatch_effect {now : Timestamp} {db : Database} {statement : Statement}
    {reply : Reply} (committed : insertJobsBatch statement.enqueueRows now db = .ok reply)
    (id : Nat) : Effect now db statement id reply.rows (db.find id) (reply.db.find id) := by
  rcases insertJobsBatch_ok committed with ⟨outcomes, inserted, listed⟩
  rw [listed]
  rcases insertRows_effect inserted id with ⟨same, silent⟩ | ⟨above, absent, found⟩
  · rw [same]
    exact .untouched silent
  · rcases found with ⟨row, asked, shown, listed, only⟩
    rw [absent, shown]
    exact .inserted asked above listed only

/-- Every committed statement has one of the listed effects on every job. -/
theorem exec_effect {now : Timestamp} {db : Database} {statement : Statement} {reply : Reply}
    (committed : statement.exec now db = .ok reply) (id : Nat) :
    Effect now db statement id reply.rows (db.find id) (reply.db.find id) := by
  cases updates : statement.mutation now db with
  | some mutation =>
      rw [Statement.exec_mutation updates] at committed
      exact Mutation.run_effect updates committed id
  | none =>
      cases statement with
      | insertJob row =>
          change PgJobQ.insertJob row now db = .ok reply at committed
          rw [insertJob_eq_batch] at committed
          exact @insertJobsBatch_effect now db (.insertJob row) reply committed id
      | insertJobsBatch rows =>
          exact @insertJobsBatch_effect now db (.insertJobsBatch rows) reply committed id
      | setQueuePaused queue paused =>
          cases committed
          exact .untouched (fun row listed => absurd listed List.not_mem_nil)
      | pruneTerminalJobs p locked =>
          rw [pruneTerminalJobs_ok committed]
          exact deleteJobs_effect rfl id
      | archiveTerminalJobs p locked =>
          rw [archiveTerminalJobs_ok committed]
          exact deleteJobs_effect rfl id
      | purgeQueue queue states limit locked =>
          cases committed
          exact deleteJobs_effect rfl id
      | _ => cases updates

/-! ## Row invariants -/

/-- Every row of `job` has the property. -/
def Database.AllRows (holds : JobRow -> Prop) (db : Database) : Prop :=
  forall row, row ∈ db.job.rows -> holds row

/-- Where a row comes from that is there after a committed statement. -/
inductive RowOrigin (now : Timestamp) (db : Database) (statement : Statement)
    (returned : List JobRow) (row : JobRow) : Prop where
  | kept (member : row ∈ db.job.rows) (silent : forall other, other ∈ returned -> other.id ≠ row.id)
  | stepped {old : JobRow} (member : old ∈ db.job.rows) (same : old.id = row.id)
      (step : RowStep now statement old row) (listed : row ∈ returned)
  | inserted {asked : EnqueueRow} (member : asked ∈ statement.enqueueRows)
      (fresh : db.nextId ≤ row.id) (isNew : row = asked.toJobRow row.id now)

theorem exec_rowOrigin {now : Timestamp} {db : Database} {statement : Statement} {reply : Reply}
    (committed : statement.exec now db = .ok reply) {row : JobRow}
    (member : row ∈ reply.db.job.rows) : RowOrigin now db statement reply.rows row := by
  have effect := exec_effect committed row.id
  have after := Database.find_of_mem member
  generalize before : db.find row.id = old at effect
  generalize reply.db.find row.id = new at effect after
  cases effect with
  | untouched silent => exact .kept (Database.find_eq_some_iff.mp (before.trans after)).1 silent
  | stepped step oldId newId listed only =>
      cases after
      exact .stepped (Database.find_eq_some_iff.mp before).1 oldId step listed
  | inserted asked fresh listed only => exact .inserted asked fresh (Option.some.inj after).symm
  | deleted deletes oldId listed only => cases after

/-- Where a row of the table after a commit comes from. -/
theorem exec_origin {now : Timestamp} {db : Database} {statement : Statement} {reply : Reply}
    (committed : statement.exec now db = .ok reply) {row : JobRow}
    (member : row ∈ reply.db.job.rows) :
    row ∈ db.job.rows ∨
      (Exists fun old : JobRow => old ∈ db.job.rows ∧ RowStep now statement old row) ∨
      Exists fun asked : EnqueueRow => Exists fun id : Nat =>
        asked ∈ statement.enqueueRows ∧ row = asked.toJobRow id now := by
  cases exec_rowOrigin committed member with
  | kept present silent => exact Or.inl present
  | stepped present same step listed => exact Or.inr (Or.inl ⟨_, present, step⟩)
  | inserted asked fresh isNew => exact Or.inr (Or.inr ⟨_, row.id, asked, isNew⟩)

/-- A row property that new rows have, and that every row step keeps, is an
invariant of the machine. -/
theorem allRows_step {holds : JobRow -> Prop}
    (initially : forall (asked : EnqueueRow) (id : Nat) (now : Timestamp),
      holds (asked.toJobRow id now))
    (keeps : forall (now : Timestamp) (statement : Statement) (old new : JobRow),
      RowStep now statement old new -> holds old -> holds new)
    (db : Database) (call : Call) (all : db.AllRows holds) : (db.step call).AllRows holds := by
  rcases Database.step_cases db call with stays | ⟨reply, committed, moves⟩
  · rw [stays]
    exact all
  · rw [moves]
    intro row member
    rcases exec_origin committed member with same | ⟨old, oldMem, step⟩ | ⟨asked, id, _, rfl⟩
    · exact all row same
    · exact keeps call.now call.statement old row step (all old oldMem)
    · exact initially asked id call.now

theorem allRows_empty (holds : JobRow -> Prop) (partitions : List ArchivePartition)
    (config : QueueConfigTable) : (Database.empty partitions config).AllRows holds :=
  fun _ member => absurd member List.not_mem_nil

/-! ## What lies outside of `job` -/

theorem insertRows_frame {now : Timestamp} {rows : List EnqueueRow} {db last : Database}
    {outcomes : List (Option JobRow)}
    (inserted : insertRows now rows db = .ok (last, outcomes)) :
    db.nextId ≤ last.nextId ∧ last.jobArchive = db.jobArchive ∧
      last.queueConfig = db.queueConfig := by
  induction rows generalizing db last outcomes with
  | nil =>
      cases inserted
      exact ⟨Nat.le_refl _, rfl, rfl⟩
  | cons row rows inductionHypothesis =>
      rcases insertRows_cons inserted with ⟨next, outcome, tail, first, rest, rfl⟩
      have later := inductionHypothesis rest
      have head := insertRow_ok first
      rw [head.1, head.2.1, head.2.2.2.1] at later
      exact ⟨Nat.le_of_succ_le later.1, later.2⟩

theorem insertJobsBatch_frame {now : Timestamp} {rows : List EnqueueRow} {db : Database}
    {reply : Reply} (committed : insertJobsBatch rows now db = .ok reply) :
    db.nextId ≤ reply.db.nextId ∧ reply.db.jobArchive = db.jobArchive ∧
      reply.db.queueConfig = db.queueConfig := by
  rcases insertJobsBatch_ok committed with ⟨outcomes, inserted, _⟩
  exact insertRows_frame inserted

/-- The identity sequence never moves back, and only archiving adds to the
archive: exactly the rows it deletes. -/
theorem exec_frame {now : Timestamp} {db : Database} {statement : Statement} {reply : Reply}
    (committed : statement.exec now db = .ok reply) :
    db.nextId ≤ reply.db.nextId ∧
      (reply.db.jobArchive = db.jobArchive ∧
          (forall p locked, statement ≠ .archiveTerminalJobs p locked) ∨
        (Exists fun p : RetentionParams => Exists fun locked : List Nat =>
          statement = .archiveTerminalJobs p locked ∧
            reply.db.jobArchive = db.jobArchive ++ reply.rows.map (archiveRow now))) := by
  cases updates : statement.mutation now db with
  | some mutation =>
      rw [Statement.exec_mutation updates] at committed
      have done := Mutation.run_ok committed
      refine ⟨Nat.le_of_eq done.2.2.1.symm, Or.inl ⟨done.2.2.2.1, ?_⟩⟩
      rintro p locked rfl
      cases updates
  | none =>
      cases statement with
      | insertJob row =>
          change PgJobQ.insertJob row now db = .ok reply at committed
          rw [insertJob_eq_batch] at committed
          have frame := insertJobsBatch_frame committed
          exact ⟨frame.1, Or.inl ⟨frame.2.1, fun _ _ impossible => by cases impossible⟩⟩
      | insertJobsBatch rows =>
          have frame := insertJobsBatch_frame committed
          exact ⟨frame.1, Or.inl ⟨frame.2.1, fun _ _ impossible => by cases impossible⟩⟩
      | setQueuePaused queue paused =>
          cases committed
          exact ⟨Nat.le_refl _, Or.inl ⟨rfl, fun _ _ impossible => by cases impossible⟩⟩
      | pruneTerminalJobs p locked =>
          rw [pruneTerminalJobs_ok committed]
          exact ⟨Nat.le_refl _, Or.inl ⟨rfl, fun _ _ impossible => by cases impossible⟩⟩
      | archiveTerminalJobs p locked =>
          rw [archiveTerminalJobs_ok committed]
          exact ⟨Nat.le_refl _, Or.inr ⟨p, locked, rfl, rfl⟩⟩
      | purgeQueue queue states limit locked =>
          cases committed
          exact ⟨Nat.le_refl _, Or.inl ⟨rfl, fun _ _ impossible => by cases impossible⟩⟩
      | _ => cases updates

/-- A commit returns rows with ids drawn so far. -/
theorem exec_rows_below {now : Timestamp} {db : Database} {statement : Statement} {reply : Reply}
    (committed : statement.exec now db = .ok reply) {row : JobRow} (listed : row ∈ reply.rows) :
    row.id < reply.db.nextId := by
  have effect := exec_effect committed row.id
  generalize before : db.find row.id = old at effect
  generalize after : reply.db.find row.id = new at effect
  cases effect with
  | untouched silent => exact absurd rfl (silent row listed)
  | stepped step oldId newId newListed only =>
      have present := Database.find_eq_some_iff.mp after
      rw [← present.2]
      exact reply.db.identity _ present.1
  | inserted asked fresh newListed only =>
      have below := reply.db.identity _ (Database.find_eq_some_iff.mp after).1
      exact below
  | deleted deletes oldId oldListed only =>
      have present := Database.find_eq_some_iff.mp before
      rw [← present.2]
      exact Nat.lt_of_lt_of_le (db.identity _ present.1) (exec_frame committed).1

end PgJobQ
