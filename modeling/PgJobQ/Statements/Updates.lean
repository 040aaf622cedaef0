import Mathlib.Data.List.Sort
import PgJobQ.Schema.JobTable

/-!
# The statements that update a job

Each statement of `claim.sql.ts`, `report.sql.ts`, `reap.sql.ts` and the
administrative part of `query.sql.ts` is one `UPDATE job` in an implicit
transaction.  Here it is the `Mutation` with its `WHERE` clause and `SET`
list; `now` is the transaction start time on the database clock.

A statement that selects its rows `FOR UPDATE SKIP LOCKED` passes over the rows
another open transaction has locked.  Which rows those are is not determined
by the table, so their ids are a parameter: every choice of `locked` is a
behaviour the statement can show.
-/

namespace PgJobQ

/-- `ORDER BY ... LIMIT ... FOR UPDATE SKIP LOCKED` over the rows a scan
selects: the limit counts the rows that were locked. -/
def lockCandidates (before : JobRow -> JobRow -> Prop) [DecidableRel before]
    (selects : JobRow -> Bool) (limit : Nat) (locked : List Nat) (rows : List JobRow) : List Nat :=
  ((((rows.filter selects).insertionSort before).map JobRow.id).filter
    (fun id => !locked.contains id)).take limit

theorem mem_lockCandidates {before : JobRow -> JobRow -> Prop} [DecidableRel before]
    {selects : JobRow -> Bool} {limit : Nat} {locked : List Nat} {rows : List JobRow} {id : Nat}
    (member : id ∈ lockCandidates before selects limit locked rows) :
    Exists fun row : JobRow => row ∈ rows ∧ selects row = true ∧ row.id = id := by
  have selected := (List.mem_filter.mp (List.mem_of_mem_take member)).1
  rcases List.mem_map.mp selected with ⟨row, sorted, same⟩
  have scanned := List.mem_filter.mp ((List.mem_insertionSort before).mp sorted)
  exact ⟨row, scanned.1, scanned.2, same⟩

theorem length_lockCandidates_le (before : JobRow -> JobRow -> Prop) [DecidableRel before]
    (selects : JobRow -> Bool) (limit : Nat) (locked : List Nat) (rows : List JobRow) :
    (lockCandidates before selects limit locked rows).length ≤ limit :=
  List.length_take_le _ _

/-- An `UPDATE` of locked candidates returns at most that many rows, with
different ids. -/
theorem returning_of_candidates {mutation : Mutation} {candidates : List Nat} (table : JobTable)
    (hits : forall row, mutation.hits row = candidates.contains row.id) :
    (mutation.returning table.rows).length ≤ candidates.length ∧
      ((mutation.returning table.rows).map JobRow.id).Nodup := by
  have ids : (mutation.returning table.rows).map JobRow.id =
      (table.rows.filter mutation.hits).map JobRow.id := by
    unfold Mutation.returning
    rw [List.map_map]
    exact List.map_congr_left (fun row _ => mutation.keepsId row)
  have distinct : ((mutation.returning table.rows).map JobRow.id).Nodup := by
    rw [ids]
    exact List.Nodup.sublist (List.Sublist.map _ List.filter_sublist) table.nodup_ids
  refine ⟨?_, distinct⟩
  have among : (mutation.returning table.rows).map JobRow.id ⊆ candidates := by
    rw [ids]
    intro id member
    rcases List.mem_map.mp member with ⟨row, rowMem, rfl⟩
    have hit := (List.mem_filter.mp rowMem).2
    rw [hits] at hit
    exact List.contains_iff_mem.mp hit
  have bounded := (List.subperm_of_subset distinct among).length_le
  rwa [List.length_map] at bounded

/-! ## Claiming -/

/-- `COALESCE(qc.paused, false)` of the queue's configuration row. -/
def queuePaused (config : QueueConfigTable) (queue : String) : Bool :=
  ((config.forQueue queue).map (·.paused)).getD false

/-- The `WHERE` clause of both claim statements. -/
def claimable (config : QueueConfigTable) (p : ClaimParams) (now : Timestamp)
    (job : JobRow) : Bool :=
  job.queue == p.queue && job.state == .available && decide (job.runAt ≤ now) &&
    !queuePaused config job.queue

/-- `ORDER BY priority DESC, run_at, id`. -/
def claimOrder (first second : JobRow) : Prop :=
  second.priority < first.priority ∨ (first.priority = second.priority ∧
    (first.runAt < second.runAt ∨ (first.runAt = second.runAt ∧ first.id ≤ second.id)))

instance : DecidableRel claimOrder := fun _ _ => inferInstanceAs (Decidable (_ ∨ _))

/-- `j.priority + FLOOR(EXTRACT(EPOCH FROM (now() - j.run_at)) / $4)`, with the
quotient taken exactly.  PostgreSQL divides numerics with a limited number of
decimals, and a quotient just below an integer may be rounded up to it. -/
def agedPriority (agingThresholdSeconds : Int) (now : Timestamp) (job : JobRow) : Int :=
  job.priority + (now - job.runAt) / seconds agingThresholdSeconds

/-- The `ORDER BY` of the claim with priority aging. -/
def agingOrder (agingThresholdSeconds : Int) (now : Timestamp) (first second : JobRow) : Prop :=
  agedPriority agingThresholdSeconds now second < agedPriority agingThresholdSeconds now first ∨
    (agedPriority agingThresholdSeconds now first = agedPriority agingThresholdSeconds now second ∧
      (first.runAt < second.runAt ∨ (first.runAt = second.runAt ∧ first.id ≤ second.id)))

instance (agingThresholdSeconds : Int) (now : Timestamp) :
    DecidableRel (agingOrder agingThresholdSeconds now) :=
  fun _ _ => inferInstanceAs (Decidable (_ ∨ _))

/-- The `SET` list of both claim statements. -/
def claimSet (workerId : String) (now : Timestamp) (job : JobRow) : JobRow :=
  { job with
    state := .running
    attempt := job.attempt + 1
    workerId := some workerId
    startedAt := some now
    leaseExpiresAt := some (now + seconds job.leaseSeconds)
    updatedAt := now }

def claimJobs (p : ClaimParams) (locked : List Nat) (now : Timestamp) (db : Database) :
    Mutation where
  hits job := (lockCandidates claimOrder (claimable db.queueConfig p now) p.limit locked
    db.job.rows).contains job.id
  set := claimSet p.workerId now

def claimJobsWithAging (p : ClaimParams) (agingThresholdSeconds : Int) (locked : List Nat)
    (now : Timestamp) (db : Database) : Mutation where
  hits job := (lockCandidates (agingOrder agingThresholdSeconds now)
    (claimable db.queueConfig p now) p.limit locked db.job.rows).contains job.id
  set := claimSet p.workerId now

/-! ## Reporting -/

/-- The ownership fence: `id = $1 AND state = 'running' AND worker_id = $2 AND
attempt = $3`. -/
def FenceParams.owns (p : FenceParams) (job : JobRow) : Bool :=
  job.id == p.id && job.state == .running && job.workerId == some p.workerId &&
    job.attempt == p.attempt

def completeJob (p : FenceParams) (now : Timestamp) : Mutation where
  hits := p.owns
  set job := { job with
    state := .succeeded
    finishedAt := some now
    leaseExpiresAt := none
    workerId := none
    updatedAt := now }

/-- Drop the oldest element of a full history (`errors - 0`), then append. -/
def appendError (maxErrorHistory : Int) (errors : List JobErrorRecord)
    (error : JobErrorRecord) : List JobErrorRecord :=
  (if maxErrorHistory ≤ errors.length then errors.tail else errors) ++ [error]

/-- The decision is made on the row's own committed attempt counter. -/
def failJob (p : FailParams) (now : Timestamp) : Mutation where
  hits := p.owns
  set job := { job with
    state := if p.nonRetryable then .dead
      else if job.maxAttempts ≤ job.attempt then .dead else .available
    deadReason := if p.nonRetryable then some .nonRetryableError
      else if job.maxAttempts ≤ job.attempt then some .attemptsExhausted else none
    runAt := if p.nonRetryable || job.maxAttempts ≤ job.attempt then job.runAt
      else now + p.retryDelay
    finishedAt := if p.nonRetryable || job.maxAttempts ≤ job.attempt then some now else none
    errors := appendError p.maxErrorHistory job.errors p.error
    leaseExpiresAt := none
    workerId := none
    updatedAt := now }

def heartbeatJob (p : FenceParams) (leaseSeconds : Int) (now : Timestamp) : Mutation where
  hits := p.owns
  set job := { job with leaseExpiresAt := some (now + seconds leaseSeconds), updatedAt := now }

/-- Fenced like every other report, and only after a request. -/
def acknowledgeCancellation (p : FenceParams) (now : Timestamp) : Mutation where
  hits job := p.owns job && job.cancelRequestedAt.isSome
  set job := { job with
    state := .cancelled
    deadReason := none
    finishedAt := some now
    leaseExpiresAt := none
    workerId := none
    updatedAt := now }

def releaseJob (p : FenceParams) (now : Timestamp) : Mutation where
  hits := p.owns
  set job := { job with
    state := .available
    runAt := now
    leaseExpiresAt := none
    workerId := none
    startedAt := none
    updatedAt := now }

/-! ## Reaping -/

/-- `state = 'running' AND lease_expires_at < now()`; a null expiry is not
earlier than anything. -/
def leaseExpired (now : Timestamp) (job : JobRow) : Bool :=
  job.state == .running &&
    match job.leaseExpiresAt with
    | some expiry => decide (expiry < now)
    | none => false

/-- An ascending `ORDER BY` on a nullable column: nulls come last. -/
def nullsLast (first second : Option Timestamp) : Bool :=
  match first, second with
  | some one, some two => decide (one ≤ two)
  | _, none => true
  | none, some _ => false

/-- `ORDER BY lease_expires_at`. -/
def leaseOrder (first second : JobRow) : Prop :=
  nullsLast first.leaseExpiresAt second.leaseExpiresAt = true

instance : DecidableRel leaseOrder := fun _ _ => inferInstanceAs (Decidable (_ = _))

/-- The record the reaper appends on behalf of the vanished worker. -/
def leaseExpiredRecord (now : Timestamp) (job : JobRow) : JobErrorRecord where
  attempt := job.attempt
  recordedAt := now
  kind := .leaseExpired
  name := some "LeaseExpired"
  message := some "Lease expired without the worker reporting an outcome"
  stack := none
  workerId := job.workerId

def reapExpiredLeases (p : ReapParams) (locked : List Nat) (now : Timestamp) (db : Database) :
    Mutation where
  hits job := (lockCandidates leaseOrder (leaseExpired now) p.limit locked
    db.job.rows).contains job.id
  set job := { job with
    state := if job.maxAttempts ≤ job.attempt then .dead else .available
    deadReason := if job.maxAttempts ≤ job.attempt then some .leaseExpired else none
    runAt := if job.maxAttempts ≤ job.attempt then job.runAt else now + p.retryDelay
    finishedAt := if job.maxAttempts ≤ job.attempt then some now else none
    startedAt := if job.maxAttempts ≤ job.attempt then job.startedAt else none
    errors := appendError 5 job.errors (leaseExpiredRecord now job)
    leaseExpiresAt := none
    workerId := none
    updatedAt := now }

/-! ## Administrative mutations -/

def cancelAvailableJob (id : Nat) (now : Timestamp) : Mutation where
  hits job := job.id == id && job.state == .available
  set job := { job with state := .cancelled, finishedAt := some now, updatedAt := now }

/-- The first request wins: `COALESCE(cancel_requested_at, now())`. -/
def requestCancelRunningJob (id : Nat) (now : Timestamp) : Mutation where
  hits job := job.id == id && job.state == .running
  set job := { job with
    cancelRequestedAt := some (job.cancelRequestedAt.getD now)
    updatedAt := now }

def retryJobNow (id : Nat) (now : Timestamp) : Mutation where
  hits job := job.id == id && job.state == .available
  set job := { job with runAt := now, updatedAt := now }

/-- The guard of the statements about one job: `id = $1 AND state = ...`. -/
theorem named_iff {job : JobRow} {id : Nat} {state : JobState} :
    (job.id == id && job.state == state) = true <-> job.id = id ∧ job.state = state := by
  rw [Bool.and_eq_true, beq_iff_eq, beq_iff_eq]

/-- The `SET` list of both replay statements: the error history is kept. -/
def replaySet (now : Timestamp) (job : JobRow) : JobRow :=
  { job with
    state := .available
    attempt := 0
    deadReason := none
    runAt := now
    finishedAt := none
    startedAt := none
    updatedAt := now }

def replayDeadJob (id : Nat) (now : Timestamp) : Mutation where
  hits job := job.id == id && job.state == .dead
  set := replaySet now

def replayDeadJobs (ids : List Nat) (now : Timestamp) : Mutation where
  hits job := ids.contains job.id && job.state == .dead
  set := replaySet now

end PgJobQ
