import PgJobQ.Lifecycle.AgingService
import PgJobQ.Lifecycle.LeaseService

/-!
# Every job is finished one day

A job that waits is claimed, where claims with aging serve its queue, and a
delivery that is not renewed forever ends, where the reaper makes its passes.
A claim uses up one attempt, and what ends a delivery finishes the job or
returns it to the queue with the attempts it has left.  So an unfinished job
comes to its end: it is not lost in the queue, and it does not go round
forever.

What workers do with the job does not matter.  They may report, fail, crash or
release it at any moment, as long as no delivery is renewed forever.
-/

namespace PgJobQ

open Runs

/-- What a call makes of an unfinished job. -/
inductive Progress (job : JobRow) : Option JobRow -> Prop where
  | stays {next} (state : next.state = job.state) (queue : next.queue = job.queue)
      (attempt : next.attempt = job.attempt) (maxAttempts : next.maxAttempts = job.maxAttempts) :
      Progress job (some next)
  | claimed {next} (ready : job.state = .available) (running : next.state = .running)
      (queue : next.queue = job.queue) (attempt : next.attempt = job.attempt + 1)
      (maxAttempts : next.maxAttempts = job.maxAttempts) : Progress job (some next)
  | returned {next} (running : job.state = .running) (ready : next.state = .available)
      (queue : next.queue = job.queue) (attempt : next.attempt = job.attempt)
      (maxAttempts : next.maxAttempts = job.maxAttempts) : Progress job (some next)
  | finished {next} (terminal : next.state.isTerminal = true) : Progress job (some next)
  | deleted : Progress job none

/-- A row step is progress of an unfinished job. -/
theorem RowStep.progress {now : Timestamp} {statement : Statement} {old new : JobRow}
    (step : RowStep now statement old new) (unfinished : old.state.isTerminal = false) :
    Progress old (some new) := by
  cases step with
  | claim claims queue ready due => exact .claimed ready rfl rfl rfl rfl
  | heartbeat owned => exact .stays rfl rfl rfl rfl
  | requestCancel same started => exact .stays rfl rfl rfl rfl
  | retryNow same waiting => exact .stays rfl rfl rfl rfl
  | failRetry owned retryable remaining =>
      exact .returned (FenceParams.owns_iff.mp owned).2.1 rfl rfl rfl rfl
  | release owned => exact .returned (FenceParams.owns_iff.mp owned).2.1 rfl rfl rfl rfl
  | reapRetry expired remaining => exact .returned (leaseExpired_iff.mp expired).1 rfl rfl rfl rfl
  | complete owned => exact .finished rfl
  | failNonRetryable owned final => exact .finished rfl
  | failExhausted owned retryable exhausted => exact .finished rfl
  | acknowledge owned requested => exact .finished rfl
  | reapExhausted expired exhausted => exact .finished rfl
  | cancelAvailable same waiting => exact .finished rfl
  | replay replays buried =>
      rw [buried] at unfinished
      cases unfinished

theorem progress_step {db : Database} {call : Call} {id : Nat} {job : JobRow}
    (found : db.find id = some job) (unfinished : job.state.isTerminal = false) :
    Progress job ((db.step call).find id) := by
  rcases Database.step_cases db call with stays | ⟨reply, committed, moves⟩
  · rw [stays, found]
    exact .stays rfl rfl rfl rfl
  · rw [moves]
    have effect := exec_effect committed id
    rw [found] at effect
    generalize reply.db.find id = after at effect ⊢
    cases effect with
    | untouched silent => exact .stays rfl rfl rfl rfl
    | stepped step oldId newId listed only => exact step.progress unfinished
    | deleted deletes oldId listed only => exact .deleted

/-! ## What is left to go -/

/-- Two for each attempt left, and one more while the job runs. -/
def JobRow.toGo (job : JobRow) : Nat :=
  if job.state.isTerminal then 0
  else 2 * (job.maxAttempts - job.attempt).toNat + (if job.state = .running then 1 else 0) + 1

def toGo (found : Option JobRow) : Nat := (found.map JobRow.toGo).getD 0

theorem JobRow.toGo_pos {job : JobRow} (unfinished : job.state.isTerminal = false) :
    0 < job.toGo := by
  unfold JobRow.toGo
  rw [unfinished]
  exact Nat.succ_pos _

theorem JobRow.toGo_of_available {job : JobRow} (ready : job.state = .available) :
    job.toGo = 2 * (job.maxAttempts - job.attempt).toNat + 1 := by
  unfold JobRow.toGo
  rw [ready]
  rfl

theorem JobRow.toGo_of_running {job : JobRow} (running : job.state = .running) :
    job.toGo = 2 * (job.maxAttempts - job.attempt).toNat + 2 := by
  unfold JobRow.toGo
  rw [running]
  rfl

/-- Whatever a call makes of an unfinished job, it leaves less to go, or a row
that is where it was. -/
theorem Progress.toGo_lt {job : JobRow} {found : Option JobRow} (progress : Progress job found)
    (unfinished : job.state.isTerminal = false)
    (bounded : forall next, found = some next -> next.attempt ≤ next.maxAttempts) :
    PgJobQ.toGo found < job.toGo ∨ Exists fun next : JobRow => found = some next ∧
      next.state = job.state ∧ next.queue = job.queue ∧ next.attempt = job.attempt ∧
        next.maxAttempts = job.maxAttempts := by
  cases progress with
  | stays state queue attempt maxAttempts =>
      exact Or.inr ⟨_, rfl, state, queue, attempt, maxAttempts⟩
  | @claimed next ready running queue attempt maxAttempts =>
      left
      have room : next.attempt ≤ next.maxAttempts := bounded next rfl
      change next.toGo < job.toGo
      rw [JobRow.toGo_of_available ready, JobRow.toGo_of_running running, attempt, maxAttempts]
      rw [attempt, maxAttempts] at room
      omega
  | @returned next running ready queue attempt maxAttempts =>
      left
      change next.toGo < job.toGo
      rw [JobRow.toGo_of_available ready, JobRow.toGo_of_running running, attempt, maxAttempts]
      exact Nat.lt_succ_self _
  | @finished next terminal =>
      left
      have nothing : next.toGo = 0 := if_pos terminal
      change next.toGo < job.toGo
      rw [nothing]
      exact JobRow.toGo_pos unfinished
  | deleted => exact Or.inl (JobRow.toGo_pos unfinished)

/-! ## Unending runs -/

/-- The job is finished or gone. -/
def Finished (found : Option JobRow) : Prop :=
  forall job, found = some job -> job.state.isTerminal = true

theorem not_finished {found : Option JobRow} (unfinished : Not (Finished found)) :
    Exists fun job : JobRow => found = some job ∧ job.state.isTerminal = false := by
  cases found with
  | none => exact absurd (fun job none => by cases none) unfinished
  | some job =>
      refine ⟨job, rfl, Bool.eq_false_iff.mpr (fun terminal => unfinished ?_)⟩
      rintro other same
      cases same
      exact terminal

/-- An unending run that serves a job until it is finished: claims with aging
serve its queue, passes of the reaper may take it again and again, and each of
its deliveries is renewed finitely often. -/
structure CompletingRun (threshold : Int) (id : Nat) (queue : String) (db : Database)
    (calls : Nat -> Call) : Prop where
  served : ServingRun (OffersAging threshold id queue) id db calls
  forward : forall count, (calls count).LeasesForward
  renewedFinitely : forall attempt, Exists fun count : Nat => forall later, count ≤ later ->
    forall p leaseSeconds, (calls later).statement = .heartbeatJob p leaseSeconds -> p.id = id ->
      p.attempt ≠ attempt
  reaped : forall count, Exists fun later : Nat => count ≤ later ∧ OffersReaping id (calls later)

/-- From a moment on the delivery of this attempt is abandoned. -/
theorem CompletingRun.reapingRun {threshold : Int} {id : Nat} {queue : String} {db : Database}
    {calls : Nat -> Call} (completing : CompletingRun threshold id queue db calls) (attempt : Int)
    (count : Nat) : Exists fun first : Nat => count ≤ first ∧
      ReapingRun id attempt (fun later => calls (first + later)) := by
  rcases completing.renewedFinitely attempt with ⟨last, silent⟩
  refine ⟨max count last, Nat.le_max_left count last, completing.served.clock.suffix _,
    fun later => completing.forward _, fun later => silent _ ?_, fun later => ?_⟩
  · exact Nat.le_trans (Nat.le_max_right count last) (Nat.le_add_right _ later)
  · rcases completing.reaped (max count last + later) with ⟨found, after, offers⟩
    rcases Nat.exists_eq_add_of_le after with ⟨more, rfl⟩
    refine ⟨later + more, Nat.le_add_right later more, ?_⟩
    rw [← Nat.add_assoc]
    exact offers

/-- As long as nothing brings an unfinished job on, its row is where it was. -/
theorem stays_of_not_toGo_lt {db : Database} {calls : Nat -> Call} {id first : Nat} {job : JobRow}
    (found : (db.afterCalls calls first).find id = some job)
    (unfinished : job.state.isTerminal = false)
    (stuck : forall later, first ≤ later -> Not (toGo ((db.afterCalls calls (later + 1)).find id) <
      toGo ((db.afterCalls calls later).find id))) (count : Nat) :
    Exists fun next : JobRow => (db.afterCalls calls (first + count)).find id = some next ∧
      next.state = job.state ∧ next.queue = job.queue ∧ next.attempt = job.attempt ∧
        next.maxAttempts = job.maxAttempts := by
  induction count with
  | zero => exact ⟨job, found, rfl, rfl, rfl, rfl⟩
  | succ count inductionHypothesis =>
      rcases inductionHypothesis with ⟨next, nextFound, state, queue, attempt, maxAttempts⟩
      have stillOpen : next.state.isTerminal = false := state ▸ unfinished
      have progress : Progress next
          ((db.afterCalls calls (first + count + 1)).find id) :=
        progress_step nextFound stillOpen
      have bounded : forall row,
          (db.afterCalls calls (first + count + 1)).find id = some row ->
            row.attempt ≤ row.maxAttempts := fun row rowFound =>
        (JobTable.holds _ (Database.find_eq_some_iff.mp rowFound).1 .jobAttemptBounded).2
      rcases progress.toGo_lt stillOpen bounded with less | ⟨row, rowFound, rowState, rowQueue, rest⟩
      · refine absurd less (fun less => stuck (first + count) (Nat.le_add_right first count) ?_)
        rw [nextFound]
        exact less
      · exact ⟨row, rowFound, rowState.trans state, rowQueue.trans queue, rest.1.trans attempt,
          rest.2.trans maxAttempts⟩

/-- An unfinished job is brought on. -/
theorem CompletingRun.advances {threshold : Int} (positive : 0 < threshold) {id : Nat}
    {queue : String} {db : Database} (left : AttemptsLeft db) {calls : Nat -> Call}
    (completing : CompletingRun threshold id queue db calls) {first : Nat} {job : JobRow}
    (found : (db.afterCalls calls first).find id = some job) (sameQueue : job.queue = queue)
    (unfinished : job.state.isTerminal = false) :
    Exists fun later : Nat => first ≤ later ∧
      toGo ((db.afterCalls calls (later + 1)).find id) <
        toGo ((db.afterCalls calls later).find id) := by
  by_contra missed
  have stuck : forall later, first ≤ later ->
      Not (toGo ((db.afterCalls calls (later + 1)).find id) <
        toGo ((db.afterCalls calls later).find id)) :=
    fun later after less => missed ⟨later, after, less⟩
  have stays := stays_of_not_toGo_lt found unfinished stuck
  cases state : job.state with
  | available =>
      have present := Database.find_eq_some_iff.mp found
      have served := completing.served.suffix first
      rw [← sameQueue, ← present.2] at served
      rcases served_departs (left.afterCalls completing.served.releases first) positive
        present.1 state served with ⟨last, _, departs⟩
      rcases stays (last + 1) with ⟨next, nextFound, nextState, _⟩
      rw [Database.afterCalls, stateAt_add, present.2] at departs
      rw [nextFound] at departs
      rw [state] at nextState
      cases departs with
      | claimed claims => cases nextState
      | cancelled cancels => cases nextState
  | running =>
      rcases completing.reapingRun job.attempt first with ⟨start, after, reaping⟩
      rcases Nat.exists_eq_add_of_le after with ⟨more, rfl⟩
      rcases stays more with ⟨held, heldFound, heldState, _, heldAttempt, _⟩
      have present := Database.find_eq_some_iff.mp heldFound
      rw [← heldAttempt, ← present.2] at reaping
      rcases abandoned_ends present.1 (heldState.trans state) reaping with
        ⟨last, _, ended⟩
      rcases stays (more + (last + 1)) with ⟨next, nextFound, nextState, _⟩
      rw [Database.afterCalls, stateAt_add, present.2, Nat.add_assoc] at ended
      exact ended next nextFound (nextState.trans state)
  | succeeded => rw [state] at unfinished; cases unfinished
  | dead => rw [state] at unfinished; cases unfinished
  | cancelled => rw [state] at unfinished; cases unfinished

/-- As long as it is unfinished a job stays in its queue. -/
theorem unfinished_stays {db : Database} {calls : Nat -> Call} {job : JobRow}
    (member : job ∈ db.job.rows)
    (never : forall count, Not (Finished ((db.afterCalls calls count).find job.id))) (count : Nat) :
    Exists fun row : JobRow => (db.afterCalls calls count).find job.id = some row ∧
      row.queue = job.queue ∧ row.state.isTerminal = false := by
  induction count with
  | zero =>
      rcases not_finished (never 0) with ⟨row, found, unfinished⟩
      have same : row = job := Option.some.inj (found.symm.trans (Database.find_of_mem member))
      exact ⟨row, found, congrArg JobRow.queue same, unfinished⟩
  | succ count inductionHypothesis =>
      rcases inductionHypothesis with ⟨row, found, queue, unfinished⟩
      rcases not_finished (never (count + 1)) with ⟨next, nextFound, nextUnfinished⟩
      have progress : Progress row ((db.afterCalls calls (count + 1)).find job.id) :=
        progress_step found unfinished
      refine ⟨next, nextFound, ?_, nextUnfinished⟩
      rw [nextFound] at progress
      cases progress with
      | stays state sameQueue attempt maxAttempts => exact sameQueue.trans queue
      | claimed ready running sameQueue attempt maxAttempts => exact sameQueue.trans queue
      | returned running ready sameQueue attempt maxAttempts => exact sameQueue.trans queue
      | finished terminal =>
          rw [nextUnfinished] at terminal
          cases terminal

/-- A job that is there at the beginning of the run is finished or deleted. -/
theorem completing_finishes {db : Database} (left : AttemptsLeft db) {threshold : Int}
    (positive : 0 < threshold) {job : JobRow} (member : job ∈ db.job.rows) {calls : Nat -> Call}
    (completing : CompletingRun threshold job.id job.queue db calls) :
    Exists fun count : Nat => Finished ((db.afterCalls calls count).find job.id) := by
  apply reaches_of_measure (fun count => toGo ((db.afterCalls calls count).find job.id))
  · intro count unfinished
    rcases not_finished unfinished with ⟨row, found, stillOpen⟩
    have progress : Progress row ((db.afterCalls calls (count + 1)).find job.id) :=
      progress_step found stillOpen
    rcases progress.toGo_lt stillOpen (fun next nextFound => (JobTable.holds _
      (Database.find_eq_some_iff.mp nextFound).1 .jobAttemptBounded).2) with
      less | ⟨next, nextFound, state, _, attempt, maxAttempts⟩
    · rw [found]
      exact Nat.le_of_lt less
    · have same : next.toGo = row.toGo := by
        unfold JobRow.toGo
        rw [state, attempt, maxAttempts]
      rw [found, nextFound]
      exact Nat.le_of_eq same
  · intro count never
    rcases unfinished_stays member never count with ⟨row, found, queue, unfinished⟩
    exact completing.advances positive left found queue unfinished

/-- The rest of the run serves the job as well. -/
theorem CompletingRun.suffix {threshold : Int} {id : Nat} {queue : String} {db : Database}
    {calls : Nat -> Call} (completing : CompletingRun threshold id queue db calls) (first : Nat) :
    CompletingRun threshold id queue (db.afterCalls calls first)
      (fun later => calls (first + later)) where
  served := completing.served.suffix first
  forward := fun count => completing.forward (first + count)
  renewedFinitely := by
    intro attempt
    rcases completing.renewedFinitely attempt with ⟨count, silent⟩
    exact ⟨count, fun later after => silent (first + later) (Nat.le_add_left_of_le after)⟩
  reaped := by
    intro count
    rcases completing.reaped (first + count) with ⟨later, after, offers⟩
    rcases Nat.exists_eq_add_of_le after with ⟨more, rfl⟩
    refine ⟨count + more, Nat.le_add_right count more, ?_⟩
    rw [← Nat.add_assoc]
    exact offers

/-- Every job is finished one day, or deleted, from wherever it stands at any
moment of the run: where claims with aging serve its queue, the reaper makes its
passes, no last attempt is released and none of its deliveries is renewed
forever. -/
theorem jobs_are_finished {db : Database} (left : AttemptsLeft db) {threshold : Int}
    (positive : 0 < threshold) {calls : Nat -> Call} {first : Nat} {job : JobRow}
    (member : job ∈ (db.afterCalls calls first).job.rows)
    (completing : CompletingRun threshold job.id job.queue db calls) :
    Exists fun count : Nat => first ≤ count ∧
      Finished ((db.afterCalls calls count).find job.id) := by
  rcases completing_finishes (left.afterCalls completing.served.releases first) positive member
    (completing.suffix first) with ⟨count, finished⟩
  rw [Database.afterCalls, stateAt_add] at finished
  exact ⟨first + count, Nat.le_add_right first count, finished⟩

/-- Both jobs are finished one day, though others keep coming and nobody works on
any of them. -/
theorem polled_job_finished : (Exists fun count : Nat => 0 ≤ count ∧
      Finished ((mailWaiting.afterCalls pollingCalls count).find 1)) ∧
    Exists fun count : Nat => 0 ≤ count ∧
      Finished ((mailWaiting.afterCalls pollingCalls count).find 2) := by
  have completing : forall id, CompletingRun 60 id "mail" mailWaiting pollingCalls := fun id =>
    ⟨pollingCalls_serves (by decide) id, pollingCalls_forward,
      fun _ => ⟨0, fun count _ p leaseSeconds renews =>
        absurd renews (pollingCalls_silent count p leaseSeconds)⟩, pollingCalls_reaps id⟩
  exact ⟨@jobs_are_finished mailWaiting mailWaiting_attemptsLeft 60 (by decide) pollingCalls 0
      ((plainEnqueue 3).toJobRow 1 0) (by decide) (completing 1),
    @jobs_are_finished mailWaiting mailWaiting_attemptsLeft 60 (by decide) pollingCalls 0
      (urgentMail.toJobRow 2 0) (by decide) (completing 2)⟩

end PgJobQ
