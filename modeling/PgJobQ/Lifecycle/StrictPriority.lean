import PgJobQ.Lifecycle.AgingService

/-!
# Claims by strict priority may starve a job

The plain claim takes the most urgent job, however long another one has waited.
So the theorem about claims with aging has no counterpart: under every
assumption it makes, a job of less than the highest priority can be passed over
forever.  The run that shows it enqueues a job that is more urgent by one and
then claims a single job, again and again.
-/

namespace PgJobQ

open Runs

instance : Std.Total claimOrder :=
  ⟨fun first second => (WaitingTicket.Before.total first.ticket second.ticket).imp
    claimOrder_iff.mpr claimOrder_iff.mpr⟩

instance : IsTrans JobRow claimOrder :=
  ⟨fun _ _ _ before after =>
    claimOrder_iff.mpr ((claimOrder_iff.mp before).trans (claimOrder_iff.mp after))⟩

/-- The call is a plain claim that may take the job of this queue. -/
def OffersStrictly (id : Nat) (queue : String) (db : Database) (call : Call) : Prop :=
  Exists fun p : ClaimParams => Exists fun locked : List Nat =>
    call.statement = .claimJobs p locked ∧ p.queue = queue ∧ 0 < p.limit ∧ id ∉ locked ∧
      queuePaused db.queueConfig queue = false

/-- A job that is more urgent by one. -/
def urgentEnqueue (waiting : JobRow) (due : Timestamp) : EnqueueRow where
  queue := waiting.queue
  type := waiting.type
  payload := waiting.payload
  metadata := none
  priority := waiting.priority + 1
  maxAttempts := 1
  leaseSeconds := 30
  runAt := some due
  idempotencyKey := none
  uniqueKey := none
  traceContext := none
  scheduleId := none

/-- Enqueue a more urgent job, due at the next moment, and claim one job then. -/
def urgentCalls (waiting : JobRow) (count : Nat) : Call where
  now := waiting.runAt + count
  statement :=
    if count % 2 = 0 then .insertJob (urgentEnqueue waiting (waiting.runAt + count + 1))
    else .claimJobs ⟨waiting.queue, 1, "w"⟩ []

/-- The more urgent job is enqueued. -/
theorem urgent_inserted {db : Database} {waiting : JobRow} (member : waiting ∈ db.job.rows)
    (below : waiting.priority < smallintMax) (now : Timestamp) : Exists fun reply : Reply =>
      insertJob (urgentEnqueue waiting (now + 1)) now db = .ok reply ∧
        reply.db.job.rows =
            db.job.rows ++ [(urgentEnqueue waiting (now + 1)).toJobRow db.nextId now] ∧
          reply.db.queueConfig = db.queueConfig := by
  have smallint := db.job.holds member .prioritySmallint
  have checked : ((urgentEnqueue waiting (now + 1)).toJobRow db.nextId now).Checked := by
    apply (JobRow.checked_iff _).mpr
    intro constraint
    cases constraint with
    | prioritySmallint =>
        exact ⟨Int.le_trans smallint.1 (Int.le_of_lt (Int.lt_succ _)), below⟩
    | jobAttemptBounded => exact ⟨Int.le_refl 0, (by decide : (0 : Int) ≤ 1)⟩
    | jobDeadHasReason => exact Or.inl JobState.noConfusion
    | jobLeasePositive => exact (by decide : (0 : Int) < 30)
    | jobMaxAttemptsValid => exact ⟨Int.le_refl 1, (by decide : (1 : Int) ≤ 1000)⟩
    | jobRunningHasLease => exact Or.inl JobState.noConfusion
    | jobTerminalFinished => exact Or.inl rfl
  have clear : conflicts db.job.rows
      ((urgentEnqueue waiting (now + 1)).toJobRow db.nextId now) = false := by
    apply Bool.eq_false_iff.mpr
    intro conflict
    rcases List.any_eq_true.mp conflict with ⟨row, rowMem, same⟩
    have drawn := db.identity row rowMem
    simp [EnqueueRow.toJobRow, urgentEnqueue, JobRow.primaryKey, JobRow.idempotencyIdx,
      JobRow.uniqueActiveIdx, JobState.isActive] at same
    exact absurd same (Nat.ne_of_lt drawn)
  cases inserted : insertJob (urgentEnqueue waiting (now + 1)) now db with
  | error error =>
      have refused := (insertRow_refused_iff checked).mp (insertJob_refused_iff.mp ⟨error, inserted⟩)
      rcases refused.2 with ⟨reason, unsent⟩
      have later : Not ((urgentEnqueue waiting (now + 1)).runAt.getD now ≤ now) :=
        Int.not_le.mpr (Int.lt_succ now)
      unfold pgjobqNotifyEnqueue at unsent
      rw [if_neg (fun eligible => later eligible.2)] at unsent
      cases unsent
  | ok reply =>
      unfold insertJob at inserted
      cases row : insertRow now (urgentEnqueue waiting (now + 1)) db with
      | error error =>
          rw [row] at inserted
          cases inserted
      | ok done =>
          rw [row] at inserted
          cases inserted
          have result := insertRow_ok row
          rcases result.2.2.2.2 with ⟨conflict, _, _⟩ | ⟨_, _, appended⟩
          · rw [clear] at conflict
            cases conflict
          · exact ⟨_, rfl, appended, result.2.2.2.1⟩

/-- A claim of one job does not take the one that is less urgent than another. -/
theorem claim_passes_over {db : Database} {waiting urgent : JobRow} {now : Timestamp}
    (member : waiting ∈ db.job.rows) (urgentMem : urgent ∈ db.job.rows)
    (claimableNow : claimable db.queueConfig ⟨waiting.queue, 1, "w"⟩ now urgent = true)
    (higher : waiting.priority < urgent.priority) :
    (claimJobs ⟨waiting.queue, 1, "w"⟩ [] now db).hits waiting = false := by
  apply Bool.eq_false_iff.mpr
  intro hit
  have taken := List.contains_iff_mem.mp hit
  have single : (lockCandidates claimOrder (claimable db.queueConfig ⟨waiting.queue, 1, "w"⟩ now) 1
      [] db.job.rows) = [waiting.id] := by
    have few := length_lockCandidates_le claimOrder
      (claimable db.queueConfig ⟨waiting.queue, 1, "w"⟩ now) 1 [] db.job.rows
    cases candidates : lockCandidates claimOrder
        (claimable db.queueConfig ⟨waiting.queue, 1, "w"⟩ now) 1 [] db.job.rows with
    | nil =>
        change waiting.id ∈ lockCandidates claimOrder
          (claimable db.queueConfig ⟨waiting.queue, 1, "w"⟩ now) 1 [] db.job.rows at taken
        rw [candidates] at taken
        cases taken
    | cons first rest =>
        change waiting.id ∈ lockCandidates claimOrder
          (claimable db.queueConfig ⟨waiting.queue, 1, "w"⟩ now) 1 [] db.job.rows at taken
        rw [candidates] at taken few
        simp only [List.length_cons] at few
        have nothing : rest = [] := List.length_eq_zero_iff.mp (by omega)
        rw [nothing] at taken ⊢
        rw [List.mem_singleton.mp taken]
  have ahead : TakenAhead (lockCandidates claimOrder
      (claimable db.queueConfig ⟨waiting.queue, 1, "w"⟩ now) 1 [] db.job.rows)
      waiting.id urgent.id := ⟨[], [], single, List.not_mem_nil⟩
  have order := before_of_takenAhead member urgentMem claimableNow List.not_mem_nil ahead
  rcases order with lower | ⟨same, _⟩
  · exact absurd lower (Int.not_lt.mpr (Int.le_of_lt higher))
  · exact absurd same (Int.ne_of_lt higher)

/-- The job still waits, the queue is open, and before each claim a more urgent
job is due. -/
structure StillWaiting (waiting : JobRow) (config : QueueConfigTable) (count : Nat)
    (db : Database) : Prop where
  waits : waiting ∈ db.job.rows
  config : db.queueConfig = config
  urgent : count % 2 = 1 -> Exists fun urgent : JobRow => urgent ∈ db.job.rows ∧
    urgent.queue = waiting.queue ∧ urgent.state = .available ∧
      urgent.runAt = waiting.runAt + count ∧ waiting.priority < urgent.priority

theorem StillWaiting.step {waiting : JobRow} {config : QueueConfigTable} {count : Nat}
    {db : Database} (still : StillWaiting waiting config count db)
    (below : waiting.priority < smallintMax) (opened : queuePaused config waiting.queue = false) :
    StillWaiting waiting config (count + 1) (db.step (urgentCalls waiting count)) := by
  rcases Nat.mod_two_eq_zero_or_one count with even | odd
  · rcases urgent_inserted still.waits below (waiting.runAt + count) with
      ⟨reply, inserted, rows, sameConfig⟩
    have moves : db.step (urgentCalls waiting count) = reply.db := by
      apply Database.step_of_ok
      unfold urgentCalls
      rw [if_pos even]
      exact inserted
    rw [moves]
    refine ⟨?_, sameConfig.trans still.config, fun _ =>
      ⟨(urgentEnqueue waiting (waiting.runAt + count + 1)).toJobRow db.nextId
        (waiting.runAt + count), ?_, rfl, rfl, ?_, ?_⟩⟩
    · rw [rows]
      exact List.mem_append_left _ still.waits
    · rw [rows]
      exact List.mem_append_right _ List.mem_cons_self
    · exact Int.add_assoc waiting.runAt count 1
    · exact Int.lt_succ waiting.priority
  · rcases still.urgent odd with ⟨urgent, urgentMem, queue, available, due, higher⟩
    have claims : (urgentCalls waiting count).statement =
        .claimJobs ⟨waiting.queue, 1, "w"⟩ [] := by
      unfold urgentCalls
      rw [if_neg (by omega)]
    have notOdd : Not ((count + 1) % 2 = 1) := by omega
    rcases Database.step_cases db (urgentCalls waiting count) with
      stays | ⟨reply, committed, moves⟩
    · rw [stays]
      exact ⟨still.waits, still.config, fun odd => absurd odd notOdd⟩
    · rw [moves]
      rw [claims] at committed
      have done := @Mutation.run_ok
        (claimJobs ⟨waiting.queue, 1, "w"⟩ [] (urgentCalls waiting count).now db) _ _ committed
      have passed := @claim_passes_over db waiting urgent (urgentCalls waiting count).now
        still.waits urgentMem (claimable_iff.mpr ⟨queue, available, Int.le_of_eq due, by
          rw [still.config, queue]
          exact opened⟩) higher
      refine ⟨?_, done.2.2.2.2.2.trans still.config, fun odd => absurd odd notOdd⟩
      rw [done.1]
      refine List.mem_map.mpr ⟨waiting, still.waits, if_neg ?_⟩
      rw [passed]
      exact Bool.false_ne_true

/-- Claims by strict priority may starve a job.  Every job that waits in an
open queue and is not of the highest priority waits forever in some run that
meets every assumption under which claims with aging would serve it. -/
theorem strict_priority_starves {db : Database} {waiting : JobRow}
    (member : waiting ∈ db.job.rows) (below : waiting.priority < smallintMax)
    (opened : queuePaused db.queueConfig waiting.queue = false) :
    Exists fun calls : Nat -> Call => ServingRun (OffersStrictly waiting.id waiting.queue)
        waiting.id db calls ∧
      forall count, (db.afterCalls calls count).find waiting.id = some waiting := by
  have still : forall count, StillWaiting waiting db.queueConfig count
      (db.afterCalls (urgentCalls waiting) count) := by
    intro count
    induction count with
    | zero => exact ⟨member, rfl, fun odd => by cases odd⟩
    | succ count inductionHypothesis => exact inductionHypothesis.step below opened
  have alternates : forall count,
      (urgentCalls waiting count).statement =
          .insertJob (urgentEnqueue waiting (waiting.runAt + count + 1)) ∨
        (urgentCalls waiting count).statement = .claimJobs ⟨waiting.queue, 1, "w"⟩ [] := by
    intro count
    unfold urgentCalls
    split
    · exact Or.inl rfl
    · exact Or.inr rfl
  refine ⟨urgentCalls waiting, ?_, fun count => ?_⟩
  · refine ⟨⟨fun count => ?_, fun time => ⟨(time - waiting.runAt).toNat, ?_⟩⟩, ?_, ?_, ?_, ?_⟩
    · exact Int.add_le_add_left (Int.ofNat_le.mpr (Nat.le_succ count)) waiting.runAt
    · exact Int.le_add_of_sub_left_le (Int.self_le_toNat (time - waiting.runAt))
    · intro count
      rcases alternates count with inserts | claims
      · constructor
        · intro asked time listed given
          rw [inserts] at listed
          rw [List.mem_singleton.mp listed] at given
          cases given
          exact Int.le_of_lt (Int.lt_succ _)
        · intro p fails
          rw [inserts] at fails
          cases fails
        · intro p locked reaps
          rw [inserts] at reaps
          cases reaps
      · constructor
        · intro asked time listed
          rw [claims] at listed
          cases listed
        · intro p fails
          rw [claims] at fails
          cases fails
        · intro p locked reaps
          rw [claims] at reaps
          cases reaps
    · intro count p releases
      rcases alternates count with inserts | claims
      · rw [inserts] at releases
        cases releases
      · rw [claims] at releases
        cases releases
    · intro count
      rcases alternates count with inserts | claims
      · rw [inserts]
        exact Statement.noConfusion
      · rw [claims]
        exact Statement.noConfusion
    · intro count
      refine ⟨2 * count + 1, by omega, ⟨waiting.queue, 1, "w"⟩, [], ?_, rfl, Nat.one_pos,
        List.not_mem_nil, ?_⟩
      · unfold urgentCalls
        rw [if_neg (by omega)]
      · rw [(still (2 * count + 1)).config]
        exact opened
  · exact Database.find_of_mem (still count).waits

/-- A worker that claims by strict priority can starve the only job of the
queue. -/
theorem lone_job_starves : Exists fun calls : Nat -> Call =>
    ServingRun (OffersStrictly 1 "mail") 1 oneWaiting calls ∧
      forall count, (oneWaiting.afterCalls calls count).find 1 =
        some ((plainEnqueue 3).toJobRow 1 0) :=
  @strict_priority_starves oneWaiting ((plainEnqueue 3).toJobRow 1 0) (by decide) (by decide)
    (by decide)

end PgJobQ
