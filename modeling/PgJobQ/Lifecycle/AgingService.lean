import PgJobQ.Lifecycle.UnendingRuns

/-!
# Claims with aging serve every job

The bound on overtaking says which jobs a claim with aging may take while an
older one waits: those with a `run_at` below a fixed time.  Once the clock has
passed that time no statement adds to them, provided nobody enqueues into the
past, because every statement that makes a job available sets `run_at` to the
time of the statement or later.  So each claim takes one of finitely many jobs,
or the one that waits.

Without aging the argument fails at its first step.  A job can be kept waiting
forever by claims that serve the queue again and again, if more urgent jobs
keep arriving.
-/

namespace PgJobQ

open Runs

/-- The call sets no time before its own. -/
structure Call.Punctual (call : Call) : Prop where
  enqueues : forall asked time, asked ∈ call.statement.enqueueRows -> asked.runAt = some time ->
    call.now ≤ time
  fails : forall p, call.statement = .failJob p -> 0 ≤ p.retryDelay
  reaps : forall p locked, call.statement = .reapExpiredLeases p locked -> 0 ≤ p.retryDelay

/-- A punctual statement that makes a job available makes it due no earlier
than now. -/
theorem Call.Punctual.now_le_runAt {call : Call} (punctual : call.Punctual) {old new : JobRow}
    (step : RowStep call.now call.statement old new) (ready : new.state = .available) :
    call.now ≤ new.runAt := by
  rcases call with ⟨now, statement⟩
  cases step with
  | @failRetry p job owned retryable remaining =>
      exact Int.le_add_of_nonneg_right (punctual.fails p rfl)
  | @reapRetry p locked job expired remaining =>
      exact Int.le_add_of_nonneg_right (punctual.reaps p locked rfl)
  | release owned => exact Int.le_refl now
  | retryNow same waiting => exact Int.le_refl now
  | replay replays buried => exact Int.le_refl now
  | heartbeat owned =>
      have started := (FenceParams.owns_iff.mp owned).2.1
      cases started.symm.trans ready
  | requestCancel same started => cases started.symm.trans ready
  | _ => cases ready

/-! ## The jobs that may come first -/

/-- Who comes before this job under aging has a `run_at` below this time. -/
def JobRow.overtakenUntil (threshold : Int) (waiting : JobRow) : Timestamp :=
  waiting.runAt + (smallintMax - waiting.priority + 1) * seconds threshold

/-- The job waits in the same queue and may come first. -/
def JobRow.mayOvertake (threshold : Int) (waiting job : JobRow) : Bool :=
  job.queue == waiting.queue && job.state == .available &&
    decide (job.runAt < waiting.overtakenUntil threshold)

theorem JobRow.mayOvertake_iff {threshold : Int} {waiting job : JobRow} :
    waiting.mayOvertake threshold job = true <-> job.queue = waiting.queue ∧
      job.state = .available ∧ job.runAt < waiting.overtakenUntil threshold := by
  simp only [JobRow.mayOvertake, Bool.and_eq_true, beq_iff_eq, decide_eq_true_eq, and_assoc]

/-- The time is later than the job's own. -/
theorem JobTable.runAt_lt_overtakenUntil {table : JobTable} {threshold : Int}
    (positive : 0 < threshold) {waiting : JobRow} (member : waiting ∈ table.rows) :
    waiting.runAt < waiting.overtakenUntil threshold := by
  have bounded : waiting.priority ≤ 32767 := (table.holds member .prioritySmallint).2
  have room : 0 < smallintMax - waiting.priority + 1 := by
    unfold smallintMax
    omega
  exact Int.lt_add_of_pos_right _ (Int.mul_pos room (seconds_pos positive))

/-- Once the time has come nobody joins the jobs that may come first. -/
theorem Call.Punctual.keepsOutOf {call : Call} (punctual : call.Punctual) {threshold : Int}
    {waiting : JobRow} (late : waiting.overtakenUntil threshold ≤ call.now) (db : Database) :
    call.KeepsOutOf db (waiting.mayOvertake threshold) where
  steps := by
    intro old new _ step early
    have joins := JobRow.mayOvertake_iff.mp early
    have due := punctual.now_le_runAt step joins.2.1
    exact absurd joins.2.2 (Int.not_lt.mpr (Int.le_trans late due))
  inserts := by
    intro asked id member
    apply Bool.eq_false_iff.mpr
    intro early
    have joins := (JobRow.mayOvertake_iff.mp early).2.2
    have due : call.now ≤ (asked.toJobRow id call.now).runAt := by
      change call.now ≤ asked.runAt.getD call.now
      cases given : asked.runAt with
      | none => exact Int.le_refl call.now
      | some time => exact punctual.enqueues asked time member given
    exact absurd joins (Int.not_lt.mpr (Int.le_trans late due))

/-! ## How a job stops waiting -/

/-- What becomes of a waiting job that the call does not leave waiting. -/
inductive Departs (call : Call) (waiting : JobRow) : Option JobRow -> Prop where
  | claimed {p} (claims : call.statement.claimParams = some p) :
      Departs call waiting (some (claimSet p.workerId call.now waiting))
  | cancelled (cancels : call.statement = .cancelAvailableJob waiting.id) :
      Departs call waiting (some ((cancelAvailableJob waiting.id call.now).set waiting))
  | deleted (deletes : call.statement.isDelete = true) : Departs call waiting none

/-- A job that waits and is not moved up stays as it is until it departs. -/
theorem waiting_step {db : Database} {call : Call} {waiting : JobRow}
    (found : db.find waiting.id = some waiting) (ready : waiting.state = .available)
    (unmoved : call.statement ≠ .retryJobNow waiting.id) :
    (db.step call).find waiting.id = some waiting ∨
      Departs call waiting ((db.step call).find waiting.id) := by
  rcases Database.step_cases db call with stays | ⟨reply, committed, moves⟩
  · rw [stays]
    exact Or.inl found
  · rw [moves]
    have effect := exec_effect committed waiting.id
    rw [found] at effect
    generalize reply.db.find waiting.id = after at effect ⊢
    rcases call with ⟨now, statement⟩
    cases effect with
    | untouched silent => exact Or.inl rfl
    | deleted deletes oldId listed only => exact Or.inr (.deleted deletes)
    | stepped step oldId newId listed only =>
        right
        cases step with
        | claim claims queue available due => exact .claimed claims
        | cancelAvailable same available =>
            rw [← same]
            exact .cancelled rfl
        | retryNow same available =>
            exact absurd (congrArg Statement.retryJobNow same.symm) unmoved
        | replay replays buried => cases ready.symm.trans buried
        | requestCancel same started => cases ready.symm.trans started
        | reapExhausted expired exhausted =>
            cases ready.symm.trans (leaseExpired_iff.mp expired).1
        | reapRetry expired remaining => cases ready.symm.trans (leaseExpired_iff.mp expired).1
        | complete owned => cases ready.symm.trans (FenceParams.owns_iff.mp owned).2.1
        | failNonRetryable owned final => cases ready.symm.trans (FenceParams.owns_iff.mp owned).2.1
        | failExhausted owned retryable exhausted =>
            cases ready.symm.trans (FenceParams.owns_iff.mp owned).2.1
        | failRetry owned retryable remaining =>
            cases ready.symm.trans (FenceParams.owns_iff.mp owned).2.1
        | heartbeat owned => cases ready.symm.trans (FenceParams.owns_iff.mp owned).2.1
        | acknowledge owned requested => cases ready.symm.trans (FenceParams.owns_iff.mp owned).2.1
        | release owned => cases ready.symm.trans (FenceParams.owns_iff.mp owned).2.1

/-! ## One claim -/

/-- The call is a claim with aging that may take the job of this queue. -/
def OffersAging (threshold : Int) (id : Nat) (queue : String) (db : Database) (call : Call) : Prop :=
  Exists fun p : ClaimParams => Exists fun locked : List Nat =>
    call.statement = .claimJobsWithAging p threshold locked ∧ p.queue = queue ∧ 0 < p.limit ∧
      id ∉ locked ∧ queuePaused db.queueConfig queue = false

/-- A claim that may take a due job takes it, or takes one of those that may
come first. -/
theorem aging_serves {db : Database} (left : AttemptsLeft db) {threshold : Int}
    (positive : 0 < threshold) {call : Call} {waiting : JobRow} (member : waiting ∈ db.job.rows)
    (ready : waiting.state = .available) (due : waiting.runAt ≤ call.now)
    (offers : OffersAging threshold waiting.id waiting.queue db call) :
    (db.step call).find waiting.id ≠ some waiting ∨
      Exists fun id : Nat => id ∈ db.idsWhere (waiting.mayOvertake threshold) ∧
        id ∉ (db.step call).idsWhere (waiting.mayOvertake threshold) := by
  rcases call with ⟨now, statement⟩
  rcases offers with ⟨p, locked, claims, queue, room, unlocked, opened⟩
  dsimp only at claims due
  subst claims
  have claimableNow : claimable db.queueConfig p now waiting = true :=
    claimable_iff.mpr ⟨queue.symm, ready, due, opened⟩
  rcases @claim_commits db left now p (claimJobsWithAging p threshold locked now db) rfl
    (fun row rowMem hit => selects_of_candidate rowMem hit) with ⟨reply, committed⟩
  have moves : db.step ⟨now, .claimJobsWithAging p threshold locked⟩ = reply.db :=
    Database.step_of_ok committed
  rw [moves]
  rcases @exists_taken (agingOrder threshold now) _ _ _ (claimable db.queueConfig p now) p.limit
    locked db.job waiting member claimableNow unlocked room with
    among | ⟨taken, takenMem, selected, chosen, ahead⟩
  · left
    rw [Mutation.find_of_hit committed member (List.contains_iff_mem.mpr among)]
    intro same
    have running : waiting.state = .running := congrArg JobRow.state (Option.some.inj same).symm
    cases ready.symm.trans running
  · right
    have guard := claimable_iff.mp selected
    have early : waiting.mayOvertake threshold taken = true :=
      JobRow.mayOvertake_iff.mpr ⟨guard.1.trans queue, guard.2.1,
        runAt_lt_of_takenAhead positive takenMem member claimableNow unlocked ahead⟩
    refine ⟨taken.id, Database.mem_idsWhere.mpr ⟨taken, Database.find_of_mem takenMem, early⟩, ?_⟩
    intro stays
    rcases Database.mem_idsWhere.mp stays with ⟨row, found, stillEarly⟩
    rw [Mutation.find_of_hit committed takenMem (List.contains_iff_mem.mpr chosen)] at found
    cases found
    cases (JobRow.mayOvertake_iff.mp stillEarly).2.1

/-! ## Unending runs -/

/-- An unending run that serves a job: the clock goes on, nobody enqueues into
the past, no last attempt is released, and again and again a claim is issued
that may take the job. -/
structure ServingRun (offers : Database -> Call -> Prop) (id : Nat) (db : Database)
    (calls : Nat -> Call) : Prop where
  clock : ClockGoesOn calls
  punctual : forall count, (calls count).Punctual
  releases : forall count, ReleasesBeforeLastAttempt (db.afterCalls calls count) (calls count)
  unmoved : forall count, (calls count).statement ≠ .retryJobNow id
  offered : forall count, Exists fun later : Nat => count ≤ later ∧
    offers (db.afterCalls calls later) (calls later)

/-- The rest of the run serves the job as well. -/
theorem ServingRun.suffix {offers : Database -> Call -> Prop} {id : Nat} {db : Database}
    {calls : Nat -> Call} (served : ServingRun offers id db calls) (first : Nat) :
    ServingRun offers id (db.afterCalls calls first) (fun later => calls (first + later)) where
  clock := served.clock.suffix first
  punctual := fun count => served.punctual (first + count)
  releases := by
    intro count
    rw [Database.afterCalls, stateAt_add]
    exact served.releases (first + count)
  unmoved := fun count => served.unmoved (first + count)
  offered := by
    intro count
    rcases served.offered (first + count) with ⟨later, after, offers⟩
    rcases Nat.exists_eq_add_of_le after with ⟨more, rfl⟩
    refine ⟨count + more, Nat.le_add_right count more, ?_⟩
    rw [Database.afterCalls, stateAt_add, ← Nat.add_assoc]
    exact offers

/-- Attempts are left along a run that releases no last attempt. -/
theorem AttemptsLeft.afterCalls {db : Database} {calls : Nat -> Call} (left : AttemptsLeft db)
    (releases : forall count, ReleasesBeforeLastAttempt (db.afterCalls calls count) (calls count))
    (count : Nat) : AttemptsLeft (db.afterCalls calls count) :=
  stateAt_invariant (fun count left => left.step (releases count)) left count

/-- While it waits the job stays as it is: the first call that does not leave
it so makes it depart. -/
theorem departs_of_changed {db : Database} {calls : Nat -> Call} {waiting : JobRow}
    (member : waiting ∈ db.job.rows) (ready : waiting.state = .available)
    (unmoved : forall count, (calls count).statement ≠ .retryJobNow waiting.id) {count : Nat}
    (changed : (db.afterCalls calls count).find waiting.id ≠ some waiting) :
    Exists fun last : Nat => (db.afterCalls calls last).find waiting.id = some waiting ∧
      Departs (calls last) waiting ((db.afterCalls calls (last + 1)).find waiting.id) := by
  induction count with
  | zero => exact absurd (Database.find_of_mem member) changed
  | succ count inductionHypothesis =>
      by_cases waits : (db.afterCalls calls count).find waiting.id = some waiting
      · rcases waiting_step waits ready (unmoved count) with stays | departs
        · exact absurd stays changed
        · exact ⟨count, waits, departs⟩
      · exact inductionHypothesis waits

/-- A job that waits at the beginning of the run departs. -/
theorem served_departs {db : Database} (left : AttemptsLeft db) {threshold : Int}
    (positive : 0 < threshold) {waiting : JobRow} (member : waiting ∈ db.job.rows)
    (ready : waiting.state = .available) {calls : Nat -> Call}
    (served : ServingRun (OffersAging threshold waiting.id waiting.queue) waiting.id db calls) :
    Exists fun count : Nat => (db.afterCalls calls count).find waiting.id = some waiting ∧
      Departs (calls count) waiting ((db.afterCalls calls (count + 1)).find waiting.id) := by
  rcases served.clock.beyond (waiting.overtakenUntil threshold) with ⟨first, reached⟩
  have late : forall count,
      waiting.overtakenUntil threshold ≤ (calls (first + count)).now :=
    fun count => Int.le_trans reached (served.clock.le (Nat.le_add_right first count))
  have changes : Exists fun count : Nat =>
      (db.afterCalls calls (first + count)).find waiting.id ≠ some waiting := by
    apply reaches_of_measure (fun count =>
      ((db.afterCalls calls (first + count)).idsWhere (waiting.mayOvertake threshold)).card)
    · intro count _
      exact Finset.card_le_card ((served.punctual (first + count)).keepsOutOf (late count) _).subset
    · intro count never
      rcases served.offered (first + count) with ⟨later, after, offers⟩
      rcases Nat.exists_eq_add_of_le after with ⟨more, rfl⟩
      rw [Nat.add_assoc] at offers
      refine ⟨count + more, Nat.le_add_right count more, ?_⟩
      have waits : (db.afterCalls calls (first + (count + more))).find waiting.id = some waiting :=
        not_not.mp (never (count + more))
      have present := (Database.find_eq_some_iff.mp waits).1
      have due : waiting.runAt ≤ (calls (first + (count + more))).now :=
        Int.le_trans (Int.le_of_lt (JobTable.runAt_lt_overtakenUntil positive member))
          (late (count + more))
      rcases aging_serves (left.afterCalls served.releases _) positive present ready due offers with
        changed | ⟨id, before, gone⟩
      · exact absurd changed (never (count + more + 1))
      · exact ((served.punctual _).keepsOutOf (late (count + more)) _).card_lt before gone
  rcases changes with ⟨count, changed⟩
  exact departs_of_changed member ready served.unmoved changed

/-- Claims with aging starve no job: a job that waits at any moment of the run
is claimed one day, unless it is cancelled or deleted before. -/
theorem aging_starves_nobody {db : Database} (left : AttemptsLeft db) {threshold : Int}
    (positive : 0 < threshold) {calls : Nat -> Call} {first : Nat} {waiting : JobRow}
    (member : waiting ∈ (db.afterCalls calls first).job.rows) (ready : waiting.state = .available)
    (served : ServingRun (OffersAging threshold waiting.id waiting.queue) waiting.id db calls) :
    Exists fun last : Nat => first ≤ last ∧
      (db.afterCalls calls last).find waiting.id = some waiting ∧
        Departs (calls last) waiting ((db.afterCalls calls (last + 1)).find waiting.id) := by
  rcases served_departs (left.afterCalls served.releases first) positive member ready
    (served.suffix first) with ⟨count, waits, departs⟩
  rw [Database.afterCalls, stateAt_add] at waits departs
  exact ⟨first + count, Nat.le_add_right first count, waits, departs⟩

theorem pollingCalls_punctual (count : Nat) : (pollingCalls count).Punctual where
  enqueues := by
    intro asked time listed given
    rcases pollingCalls_cases count with issued | issued | issued <;> rw [issued] at listed
    · cases listed
    · cases listed
    · rw [List.mem_singleton.mp listed] at given
      cases given
  fails := by
    intro p fails
    rcases pollingCalls_cases count with issued | issued | issued <;> cases issued.symm.trans fails
  reaps := by
    intro p locked reaps
    rcases pollingCalls_cases count with issued | issued | issued <;> cases issued.symm.trans reaps
    exact Int.le_refl 0

/-- Polling serves every job of the queue, where the queue is open. -/
theorem pollingCalls_serves {db : Database} (opened : queuePaused db.queueConfig "mail" = false)
    (id : Nat) : ServingRun (OffersAging 60 id "mail") id db pollingCalls where
  clock := pollingCalls_clock
  punctual := pollingCalls_punctual
  releases := by
    intro count p releases
    rcases pollingCalls_cases count with issued | issued | issued <;>
      cases issued.symm.trans releases
  unmoved := by
    intro count moved
    rcases pollingCalls_cases count with issued | issued | issued <;> cases issued.symm.trans moved
  offered := by
    intro count
    refine ⟨3 * count, by omega, ⟨"mail", 1, "w"⟩, [], if_pos (by omega), rfl, Nat.one_pos,
      List.not_mem_nil, ?_⟩
    rw [pollingCalls_queueConfig]
    exact opened

theorem mailWaiting_attemptsLeft : AttemptsLeft mailWaiting :=
  AttemptsLeft.step (AttemptsLeft.step (allRows_empty _ [] .empty) (fun p releases => by
    cases releases)) (fun p releases => by cases releases)

/-- The job is claimed one day, though there is always a more urgent one. -/
theorem polled_job_departs : Exists fun last : Nat => 0 ≤ last ∧
    (mailWaiting.afterCalls pollingCalls last).find 1 = some ((plainEnqueue 3).toJobRow 1 0) ∧
      Departs (pollingCalls last) ((plainEnqueue 3).toJobRow 1 0)
        ((mailWaiting.afterCalls pollingCalls (last + 1)).find 1) :=
  @aging_starves_nobody mailWaiting mailWaiting_attemptsLeft 60 (by decide) pollingCalls 0
    ((plainEnqueue 3).toJobRow 1 0) (by decide) rfl (pollingCalls_serves (by decide) 1)

end PgJobQ
