import PgJobQ.Lifecycle.Attempts

/-!
# Where an outcome comes from

A finished job has an outcome, and behind every outcome is one commit: the last
one that returned the job.  It is the report of the worker the job was
delivered to last, under the attempt of that delivery, or the reaper speaking
for a worker that vanished, or an operator who cancelled a waiting job.  Nobody
else finishes a job, and nothing touches it afterwards.
-/

namespace PgJobQ

open Runs

/-- The row as the latest claim of the job handed it out. -/
def latestDelivery (id : Nat) (history : List Commit) : Option JobRow :=
  (deliveries id history).head?

theorem latestDelivery_cons {id : Nat} {commit : Commit} {history : List Commit} :
    latestDelivery id (commit :: history) =
      (commit.delivery id).or (latestDelivery id history) := by
  unfold latestDelivery
  rw [deliveries_cons]
  cases commit.delivery id <;> rfl

/-- The job is in the hands that the delivery put it into. -/
structure JobRow.InHandsOf (job delivery : JobRow) : Prop where
  worker : job.workerId = delivery.workerId
  attempt : job.attempt = delivery.attempt

/-- Who reports holds the latest delivery, and reports on it. -/
def ReportedBy (p : FenceParams) (older : List Commit) (job : JobRow) : Prop :=
  Exists fun delivery : JobRow => latestDelivery job.id older = some delivery ∧
    delivery.workerId = some p.workerId ∧ delivery.attempt = p.attempt ∧ job.attempt = p.attempt

/-- The commit that finished a job, after the older ones, accounts for its
outcome. -/
inductive Outcome (older : List Commit) (commit : Commit) (job : JobRow) : Prop where
  | succeeded {p} (statement : commit.statement = .completeJob p) (state : job.state = .succeeded)
      (reported : ReportedBy p older job)
  | refused {p} (statement : commit.statement = .failJob p) (state : job.state = .dead)
      (reason : job.deadReason = some .nonRetryableError) (final : p.nonRetryable = true)
      (reported : ReportedBy p.toFenceParams older job)
  | exhausted {p} (statement : commit.statement = .failJob p) (state : job.state = .dead)
      (reason : job.deadReason = some .attemptsExhausted) (last : job.maxAttempts = job.attempt)
      (reported : ReportedBy p.toFenceParams older job)
  | vanished {p locked} (statement : commit.statement = .reapExpiredLeases p locked)
      (state : job.state = .dead) (reason : job.deadReason = some .leaseExpired)
      (last : job.maxAttempts = job.attempt) (delivered : latestDelivery job.id older ≠ none)
  | acknowledged {p} (statement : commit.statement = .acknowledgeCancellation p)
      (state : job.state = .cancelled) (requested : job.cancelRequestedAt ≠ none)
      (reported : ReportedBy p older job)
  | withdrawn (statement : commit.statement = .cancelAvailableJob job.id)
      (state : job.state = .cancelled)

/-- The last commit that returned the job left it as it is, finished it then,
and accounts for its outcome. -/
def Accounted (history : List Commit) (job : JobRow) : Prop :=
  Exists fun newer : List Commit => Exists fun commit : Commit => Exists fun older : List Commit =>
    history = newer ++ commit :: older ∧
      (forall later, later ∈ newer -> later.returned job.id = none) ∧
        commit.returned job.id = some job ∧ job.finishedAt = some commit.now ∧
          Outcome older commit job

/-- A running job is in the hands of its latest delivery, and a finished one is
accounted for. -/
structure OutcomesAccounted (session : Session) : Prop where
  running : forall id job, session.state.find id = some job -> job.state = .running ->
    Exists fun delivery : JobRow => latestDelivery id session.history = some delivery ∧
      job.InHandsOf delivery
  finished : forall id job, session.state.find id = some job -> job.state.isTerminal = true ->
    Accounted session.history job

/-- Who passes the fence holds the latest delivery. -/
theorem reportedBy_of_owns {p : FenceParams} {older : List Commit} {old new : JobRow}
    (owned : p.owns old = true) (sameId : new.id = old.id) (sameAttempt : new.attempt = old.attempt)
    (held : old.state = .running -> Exists fun delivery : JobRow =>
      latestDelivery old.id older = some delivery ∧ old.InHandsOf delivery) :
    ReportedBy p older new := by
  have fence := FenceParams.owns_iff.mp owned
  rcases held fence.2.1 with ⟨delivery, latest, hands⟩
  refine ⟨delivery, ?_, hands.worker.symm.trans fence.2.2.1, hands.attempt.symm.trans fence.2.2.2,
    sameAttempt.trans fence.2.2.2⟩
  rw [sameId]
  exact latest

/-- Nothing but a replay touches a finished job, and a replay returns it to the
queue; and a job is finished at the time of the statement that finishes it. -/
theorem RowStep.finishes {now : Timestamp} {statement : Statement} {old new : JobRow}
    (step : RowStep now statement old new) (finished : new.state.isTerminal = true) :
    old.state.isTerminal = false ∧ new.finishedAt = some now := by
  cases step with
  | complete owned => exact ⟨(FenceParams.owns_iff.mp owned).2.1 ▸ rfl, rfl⟩
  | failNonRetryable owned final => exact ⟨(FenceParams.owns_iff.mp owned).2.1 ▸ rfl, rfl⟩
  | failExhausted owned retryable exhausted =>
      exact ⟨(FenceParams.owns_iff.mp owned).2.1 ▸ rfl, rfl⟩
  | acknowledge owned requested => exact ⟨(FenceParams.owns_iff.mp owned).2.1 ▸ rfl, rfl⟩
  | reapExhausted expired exhausted => exact ⟨(leaseExpired_iff.mp expired).1 ▸ rfl, rfl⟩
  | cancelAvailable same waiting => exact ⟨waiting ▸ rfl, rfl⟩
  | heartbeat owned =>
      change old.state.isTerminal = true at finished
      rw [(FenceParams.owns_iff.mp owned).2.1] at finished
      cases finished
  | requestCancel same started =>
      change old.state.isTerminal = true at finished
      rw [started] at finished
      cases finished
  | retryNow same waiting =>
      change old.state.isTerminal = true at finished
      rw [waiting] at finished
      cases finished
  | claim claims queue ready due => cases finished
  | failRetry owned retryable remaining => cases finished
  | release owned => cases finished
  | reapRetry expired remaining => cases finished
  | replay replays buried => cases finished

/-- A row step that finishes a job accounts for the outcome. -/
theorem RowStep.outcome {commit : Commit} {older : List Commit} {old new : JobRow}
    (step : RowStep commit.now commit.statement old new)
    (finished : new.state.isTerminal = true) (bounded : old.attempt ≤ old.maxAttempts)
    (held : old.state = .running -> Exists fun delivery : JobRow =>
      latestDelivery old.id older = some delivery ∧ old.InHandsOf delivery) :
    Outcome older commit new := by
  have unfinished := (step.finishes finished).1
  rcases commit with ⟨before, now, statement, rows⟩
  cases step with
  | complete owned => exact .succeeded rfl rfl (reportedBy_of_owns owned rfl rfl held)
  | failNonRetryable owned final =>
      exact .refused rfl rfl rfl final (reportedBy_of_owns owned rfl rfl held)
  | failExhausted owned retryable exhausted =>
      exact .exhausted rfl rfl rfl (Int.le_antisymm exhausted bounded)
        (reportedBy_of_owns owned rfl rfl held)
  | acknowledge owned requested =>
      exact .acknowledged rfl rfl requested (reportedBy_of_owns owned rfl rfl held)
  | reapExhausted expired exhausted =>
      rcases held (leaseExpired_iff.mp expired).1 with ⟨delivery, latest, _⟩
      refine .vanished rfl rfl rfl (Int.le_antisymm exhausted bounded) ?_
      change latestDelivery old.id older ≠ none
      rw [latest]
      exact Option.some_ne_none delivery
  | cancelAvailable same waiting =>
      exact .withdrawn (congrArg Statement.cancelAvailableJob same.symm) rfl
  | retryNow same waiting => cases unfinished.symm.trans finished
  | heartbeat owned => cases unfinished.symm.trans finished
  | requestCancel same started => cases unfinished.symm.trans finished
  | claim claims queue ready due => cases finished
  | failRetry owned retryable remaining => cases finished
  | release owned => cases finished
  | reapRetry expired remaining => cases finished
  | replay replays buried => cases finished

/-- A commit that does not return a finished job leaves it accounted for. -/
theorem Accounted.cons {history : List Commit} {commit : Commit} {job : JobRow}
    (accounted : Accounted history job) (silent : commit.returned job.id = none) :
    Accounted (commit :: history) job := by
  rcases accounted with ⟨newer, last, older, split, quiet, rest⟩
  refine ⟨commit :: newer, last, older, ?_, ?_, rest⟩
  · rw [split]
    rfl
  · intro later member
    rcases List.mem_cons.mp member with rfl | earlier
    · exact silent
    · exact quiet later earlier

theorem OutcomesAccounted.step {session : Session} {call : Call} {reply : Reply}
    (committed : call.statement.exec call.now session.state = .ok reply)
    (accounted : OutcomesAccounted session) : OutcomesAccounted
      ⟨reply.db, ⟨session.state, call.now, call.statement, reply.rows⟩ :: session.history⟩ where
  running := by
    intro id job found isRunning
    have event := JobEvent.of_exec committed id
    have before := accounted.running id
    change reply.db.find id = some job at found
    generalize session.state.find id = old at event before
    rw [found] at event
    dsimp only
    rw [latestDelivery_cons]
    cases event with
    | nothing silent =>
        rcases before job rfl isRunning with ⟨delivery, latest, hands⟩
        refine ⟨delivery, ?_, hands⟩
        rw [(Commit.quiet_of_silent silent).1]
        exact latest
    | claimed claims ready delivered noInsert noReplay noEnd =>
        refine ⟨_, ?_, rfl, rfl⟩
        rw [delivered]
        rfl
    | held undelivered noInsert noReplay noEnd started stillRunning sameWorker sameAttempt sameMax =>
        rcases before _ rfl started with ⟨delivery, latest, hands⟩
        refine ⟨delivery, ?_, sameWorker.trans hands.worker, sameAttempt.trans hands.attempt⟩
        rw [undelivered]
        exact latest
    | moved undelivered noInsert noReplay notRunning sameAttempt sameMax =>
        exact absurd isRunning notRunning
    | replayed undelivered replays noInsert => cases isRunning
    | inserted undelivered inserts fresh listed only => cases isRunning
  finished := by
    intro id job found terminal
    have effect := exec_effect committed id
    have before := accounted.finished id
    have held := accounted.running id
    change reply.db.find id = some job at found
    have sameId := (Database.find_eq_some_iff.mp found).2
    generalize present : session.state.find id = old at effect before held
    rw [found] at effect
    cases effect with
    | untouched silent =>
        refine (before job rfl terminal).cons (Commit.returned_eq_none ?_)
        rw [sameId]
        exact silent
    | @stepped old _ step oldId newId listed only =>
        have bounded := (JobTable.holds _ (Database.find_eq_some_iff.mp present).1
          .jobAttemptBounded).2
        have outcome := @RowStep.outcome ⟨session.state, call.now, call.statement, reply.rows⟩
          session.history old job step terminal bounded
          (fun isRunning => oldId.symm ▸ held old rfl isRunning)
        refine ⟨[], _, session.history, rfl, fun _ member => absurd member List.not_mem_nil, ?_,
          (step.finishes terminal).2, outcome⟩
        rw [sameId]
        exact Commit.returned_eq_some listed newId only
    | inserted asked fresh listed only => cases terminal

/-- Over every run, the outcome of a finished job is accounted for by the last
commit that returned it: the report of the worker that the job was delivered to
last, the reaper for a worker that vanished on the last attempt, or the
cancellation of a waiting job. -/
theorem outcomes_accounted (partitions : List ArchivePartition) (config : QueueConfigTable)
    (calls : List Call) : forall job, job ∈ (Session.after partitions config calls).state.job.rows ->
      job.state.isTerminal = true ->
        Accounted (Session.after partitions config calls).history job := by
  have kept : OutcomesAccounted (Session.after partitions config calls) := by
    apply @Session.run_invariant OutcomesAccounted
      (fun session call reply committed => OutcomesAccounted.step committed)
    constructor
    · intro id job found
      cases found
    · intro id job found
      cases found
  exact fun job member => kept.finished job.id job (Database.find_of_mem member)

/-- A worker vanishes on the only attempt of its job. -/
def vanishedOnce : List Call :=
  claimedOnce 1 ++ [⟨seconds 31, .reapExpiredLeases ⟨10, 0⟩ []⟩]

theorem vanished_job_accounted : Exists fun job : JobRow =>
    job ∈ (Session.after [] .empty vanishedOnce).state.job.rows ∧
      job.deadReason = some .leaseExpired ∧
        Accounted (Session.after [] .empty vanishedOnce).history job := by
  have reaped : Exists fun job : JobRow =>
      job ∈ (Session.after [] .empty vanishedOnce).state.job.rows ∧
        job.deadReason = some .leaseExpired ∧ job.state.isTerminal = true := by decide
  rcases reaped with ⟨job, member, reason, terminal⟩
  exact ⟨job, member, reason, outcomes_accounted [] .empty vanishedOnce job member terminal⟩

end PgJobQ
