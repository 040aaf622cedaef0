import PgJobQ.Lifecycle.UnendingRuns

/-!
# The reaper ends every abandoned delivery

A pass of the reaper takes the leases that expired first.  Once a lease has
expired no statement grants one that ends as early: a claim and a heartbeat
grant leases that end after the time of the statement.  So a delivery whose
worker has fallen silent is behind finitely many others, and each pass takes
one of them or the delivery itself.
-/

namespace PgJobQ

open Runs

instance : Std.Total leaseOrder :=
  ⟨fun first second => nullsLast_total first.leaseExpiresAt second.leaseExpiresAt⟩

instance : IsTrans JobRow leaseOrder := ⟨fun _ _ _ => nullsLast_trans⟩

/-- The job runs under a lease that ends at this time or earlier. -/
def JobRow.leaseEndsBy (expiry : Timestamp) (job : JobRow) : Bool :=
  job.state == .running && nullsLast job.leaseExpiresAt (some expiry)

theorem JobRow.leaseEndsBy_iff {expiry : Timestamp} {job : JobRow} :
    job.leaseEndsBy expiry = true <-> job.state = .running ∧ Exists fun ends : Timestamp =>
      job.leaseExpiresAt = some ends ∧ ends ≤ expiry := by
  unfold JobRow.leaseEndsBy
  cases job.leaseExpiresAt <;>
    simp only [nullsLast, Bool.and_eq_true, beq_iff_eq, decide_eq_true_eq, Option.some.injEq,
      exists_eq_left', Bool.false_eq_true, and_false, reduceCtorEq, false_and, exists_false]

/-- No heartbeat of the call shortens a lease to before now. -/
def Call.LeasesForward (call : Call) : Prop :=
  forall p leaseSeconds, call.statement = .heartbeatJob p leaseSeconds -> 0 ≤ leaseSeconds

/-- Once a time has passed no statement grants a lease that ends by it. -/
theorem Call.LeasesForward.keepsOutOf {call : Call} (forward : call.LeasesForward)
    {expiry : Timestamp} (past : expiry < call.now) (db : Database) :
    call.KeepsOutOf db (JobRow.leaseEndsBy expiry) where
  steps := by
    intro old new member step early
    have ends := JobRow.leaseEndsBy_iff.mp early
    rcases ends with ⟨running, ends, written, soon⟩
    rcases call with ⟨now, statement⟩
    change expiry < now at past
    cases step with
    | claim claims queue ready due =>
        have positive : 0 < old.leaseSeconds := db.job.holds member .jobLeasePositive
        have later : 0 < seconds old.leaseSeconds := seconds_pos positive
        have granted : now + seconds old.leaseSeconds = ends := Option.some.inj written
        have bounds : now + seconds old.leaseSeconds ≤ expiry := granted ▸ soon
        exact absurd (Int.lt_trans past (Int.lt_add_of_pos_right now later)) (Int.not_lt.mpr bounds)
    | @heartbeat p leaseSeconds job owned =>
        have later : 0 ≤ seconds leaseSeconds :=
          Int.mul_nonneg (forward p leaseSeconds rfl) (by decide)
        have granted : now + seconds leaseSeconds = ends := Option.some.inj written
        have bounds : now + seconds leaseSeconds ≤ expiry := granted ▸ soon
        exact absurd (Int.lt_of_lt_of_le past (Int.le_add_of_nonneg_right later))
          (Int.not_lt.mpr bounds)
    | requestCancel same started =>
        exact JobRow.leaseEndsBy_iff.mpr ⟨started, ends, written, soon⟩
    | retryNow same waiting => cases waiting.symm.trans running
    | _ => cases running
  inserts := fun _ _ _ => rfl

/-! ## How a delivery ends -/

/-- The job is still in the delivery: it runs under the same lease. -/
structure JobRow.Continues (held job : JobRow) : Prop where
  running : job.state = .running
  lease : job.leaseExpiresAt = held.leaseExpiresAt
  attempt : job.attempt = held.attempt
  maxAttempts : job.maxAttempts = held.maxAttempts

/-- The job is not running any more, or is gone. -/
def NotRunning (found : Option JobRow) : Prop :=
  forall job, found = some job -> job.state ≠ .running

/-- A delivery that is not renewed goes on under its lease until it ends. -/
theorem continues_step {db : Database} {call : Call} {held job : JobRow} {id : Nat}
    (found : db.find id = some job) (continues : held.Continues job)
    (silent : forall p leaseSeconds, call.statement = .heartbeatJob p leaseSeconds -> p.id = id ->
      p.attempt ≠ held.attempt) :
    (Exists fun next : JobRow => (db.step call).find id = some next ∧ held.Continues next) ∨
      NotRunning ((db.step call).find id) := by
  rcases Database.step_cases db call with stays | ⟨reply, committed, moves⟩
  · rw [stays]
    exact Or.inl ⟨job, found, continues⟩
  · rw [moves]
    have effect := exec_effect committed id
    rw [found] at effect
    generalize reply.db.find id = after at effect ⊢
    rcases call with ⟨now, statement⟩
    cases effect with
    | untouched quiet => exact Or.inl ⟨job, rfl, continues⟩
    | deleted deletes oldId listed only => exact Or.inr (fun job none => by cases none)
    | @stepped old new step oldId newId listed only =>
        cases step with
        | heartbeat owned =>
            have fence := FenceParams.owns_iff.mp owned
            exact absurd (fence.2.2.2.symm.trans continues.attempt)
              (silent _ _ rfl (fence.1.symm.trans oldId))
        | requestCancel same started =>
            exact Or.inl ⟨_, rfl, started, continues.lease, continues.attempt,
              continues.maxAttempts⟩
        | claim claims queue ready due => cases ready.symm.trans continues.running
        | retryNow same waiting => cases waiting.symm.trans continues.running
        | cancelAvailable same waiting => cases waiting.symm.trans continues.running
        | replay replays buried => cases buried.symm.trans continues.running
        | complete owned => exact Or.inr (fun job is => by cases is; exact JobState.noConfusion)
        | failNonRetryable owned final =>
            exact Or.inr (fun job is => by cases is; exact JobState.noConfusion)
        | failExhausted owned retryable exhausted =>
            exact Or.inr (fun job is => by cases is; exact JobState.noConfusion)
        | failRetry owned retryable remaining =>
            exact Or.inr (fun job is => by cases is; exact JobState.noConfusion)
        | acknowledge owned requested =>
            exact Or.inr (fun job is => by cases is; exact JobState.noConfusion)
        | release owned => exact Or.inr (fun job is => by cases is; exact JobState.noConfusion)
        | reapExhausted expired exhausted =>
            exact Or.inr (fun job is => by cases is; exact JobState.noConfusion)
        | reapRetry expired remaining =>
            exact Or.inr (fun job is => by cases is; exact JobState.noConfusion)

/-! ## One pass -/

/-- The call is a pass of the reaper that may take the job. -/
def OffersReaping (id : Nat) (call : Call) : Prop :=
  Exists fun p : ReapParams => Exists fun locked : List Nat =>
    call.statement = .reapExpiredLeases p locked ∧ 0 < p.limit ∧ id ∉ locked

/-- What a pass takes is not running after it. -/
theorem not_running_of_reaped {db : Database} {p : ReapParams} {locked : List Nat} {now : Timestamp}
    {reply : Reply} (committed : (reapExpiredLeases p locked now db).run db = .ok reply)
    {row : JobRow} (member : row ∈ db.job.rows)
    (hit : (reapExpiredLeases p locked now db).hits row = true) :
    NotRunning (reply.db.find row.id) := by
  rw [Mutation.find_of_hit committed member hit]
  rintro job is
  cases is
  show (if row.maxAttempts ≤ row.attempt then JobState.dead else .available) ≠ .running
  split
  · exact JobState.noConfusion
  · exact JobState.noConfusion

/-- A pass that may take a job whose lease has expired takes it, or takes one
whose lease ended no later. -/
theorem reaping_serves {db : Database} {call : Call} {job : JobRow} {expiry : Timestamp}
    (member : job ∈ db.job.rows) (running : job.state = .running)
    (lease : job.leaseExpiresAt = some expiry) (past : expiry < call.now)
    (offers : OffersReaping job.id call) :
    NotRunning ((db.step call).find job.id) ∨
      Exists fun id : Nat => id ∈ db.idsWhere (JobRow.leaseEndsBy expiry) ∧
        id ∉ (db.step call).idsWhere (JobRow.leaseEndsBy expiry) := by
  rcases call with ⟨now, statement⟩
  rcases offers with ⟨p, locked, reaps, room, unlocked⟩
  dsimp only at reaps past
  subst reaps
  have expired : leaseExpired now job = true := leaseExpired_iff.mpr ⟨running, expiry, lease, past⟩
  rcases reapExpiredLeases_commits db p locked now with ⟨reply, committed⟩
  have moves : db.step ⟨now, .reapExpiredLeases p locked⟩ = reply.db :=
    Database.step_of_ok committed
  rw [moves]
  rcases @exists_taken leaseOrder _ _ _ (leaseExpired now) p.limit locked db.job job member expired
    unlocked room with among | ⟨taken, takenMem, selected, chosen, ahead⟩
  · exact Or.inl (not_running_of_reaped committed member (List.contains_iff_mem.mpr among))
  · right
    have order := before_of_takenAhead takenMem member expired unlocked ahead
    rcases leaseExpired_iff.mp selected with ⟨started, ends, written, _⟩
    have sooner : ends ≤ expiry := by
      unfold leaseOrder at order
      rw [written, lease] at order
      exact of_decide_eq_true order
    refine ⟨taken.id, Database.mem_idsWhere.mpr ⟨taken, Database.find_of_mem takenMem,
      JobRow.leaseEndsBy_iff.mpr ⟨started, ends, written, sooner⟩⟩, ?_⟩
    intro stays
    rcases Database.mem_idsWhere.mp stays with ⟨row, found, stillRunning⟩
    exact not_running_of_reaped committed takenMem (List.contains_iff_mem.mpr chosen) row found
      (JobRow.leaseEndsBy_iff.mp stillRunning).1

/-! ## Unending runs -/

/-- An unending run in which a delivery has been abandoned: the clock goes on,
no lease is granted into the past, the delivery is not renewed, and again and
again a pass of the reaper is issued that may take the job. -/
structure ReapingRun (id : Nat) (attempt : Int) (calls : Nat -> Call) : Prop where
  clock : ClockGoesOn calls
  forward : forall count, (calls count).LeasesForward
  silent : forall count p leaseSeconds, (calls count).statement = .heartbeatJob p leaseSeconds ->
    p.id = id -> p.attempt ≠ attempt
  offered : forall count, Exists fun later : Nat => count ≤ later ∧ OffersReaping id (calls later)

/-- The delivery is abandoned in the rest of the run as well. -/
theorem ReapingRun.suffix {id : Nat} {attempt : Int} {calls : Nat -> Call}
    (served : ReapingRun id attempt calls) (first : Nat) :
    ReapingRun id attempt (fun later => calls (first + later)) where
  clock := served.clock.suffix first
  forward := fun count => served.forward (first + count)
  silent := fun count => served.silent (first + count)
  offered := by
    intro count
    rcases served.offered (first + count) with ⟨later, after, offers⟩
    rcases Nat.exists_eq_add_of_le after with ⟨more, rfl⟩
    refine ⟨count + more, Nat.le_add_right count more, ?_⟩
    rw [← Nat.add_assoc]
    exact offers

/-- The delivery goes on until the first call that ends it. -/
theorem ends_of_changed {db : Database} {calls : Nat -> Call} {held : JobRow}
    (member : held ∈ db.job.rows) (running : held.state = .running)
    (silent : forall count p leaseSeconds, (calls count).statement = .heartbeatJob p leaseSeconds ->
      p.id = held.id -> p.attempt ≠ held.attempt) {count : Nat}
    (changed : Not (Exists fun job : JobRow =>
      (db.afterCalls calls count).find held.id = some job ∧ held.Continues job)) :
    Exists fun last : Nat => (Exists fun job : JobRow =>
        (db.afterCalls calls last).find held.id = some job ∧ held.Continues job) ∧
      NotRunning ((db.afterCalls calls (last + 1)).find held.id) := by
  induction count with
  | zero => exact absurd ⟨held, Database.find_of_mem member, running, rfl, rfl, rfl⟩ changed
  | succ count inductionHypothesis =>
      by_cases goesOn : Exists fun job : JobRow =>
          (db.afterCalls calls count).find held.id = some job ∧ held.Continues job
      · rcases goesOn with ⟨job, found, continues⟩
        rcases continues_step found continues (silent count) with again | ended
        · exact absurd again changed
        · exact ⟨count, ⟨job, found, continues⟩, ended⟩
      · exact inductionHypothesis goesOn

/-- A delivery that is abandoned from the beginning of the run is ended. -/
theorem abandoned_ends {db : Database} {held : JobRow} (member : held ∈ db.job.rows)
    (running : held.state = .running) {calls : Nat -> Call}
    (served : ReapingRun held.id held.attempt calls) :
    Exists fun last : Nat => (Exists fun job : JobRow =>
        (db.afterCalls calls last).find held.id = some job ∧ held.Continues job) ∧
      NotRunning ((db.afterCalls calls (last + 1)).find held.id) := by
  have leased : held.leaseExpiresAt ≠ none :=
    ((db.job.holds member .jobRunningHasLease).resolve_left (fun stopped => stopped running)).1
  rcases Option.ne_none_iff_exists'.mp leased with ⟨expiry, lease⟩
  rcases served.clock.beyond (expiry + 1) with ⟨first, reached⟩
  have past : forall count, expiry < (calls (first + count)).now := fun count =>
    Int.lt_of_add_one_le (Int.le_trans reached (served.clock.le (Nat.le_add_right first count)))
  have changes : Exists fun count : Nat => Not (Exists fun job : JobRow =>
      (db.afterCalls calls (first + count)).find held.id = some job ∧ held.Continues job) := by
    apply reaches_of_measure (fun count =>
      ((db.afterCalls calls (first + count)).idsWhere (JobRow.leaseEndsBy expiry)).card)
    · intro count _
      exact Finset.card_le_card ((served.forward (first + count)).keepsOutOf (past count) _).subset
    · intro count never
      rcases served.offered (first + count) with ⟨later, after, offers⟩
      rcases Nat.exists_eq_add_of_le after with ⟨more, rfl⟩
      rw [Nat.add_assoc] at offers
      refine ⟨count + more, Nat.le_add_right count more, ?_⟩
      rcases not_not.mp (never (count + more)) with ⟨job, found, continues⟩
      have present := Database.find_eq_some_iff.mp found
      rw [← present.2] at offers
      rcases reaping_serves present.1 continues.running (continues.lease.trans lease)
        (past (count + more)) offers with ended | ⟨id, before, gone⟩
      · rcases not_not.mp (never (count + more + 1)) with ⟨next, foundNext, goesOn⟩
        rw [present.2] at ended
        exact absurd goesOn.running (ended next foundNext)
      · exact ((served.forward _).keepsOutOf (past (count + more)) _).card_lt before gone
  rcases changes with ⟨count, changed⟩
  exact ends_of_changed member running served.silent changed

/-- An abandoned delivery is ended one day, whenever it began: by the reaper,
unless a report or an operator ends it before. -/
theorem abandoned_deliveries_end {db : Database} {calls : Nat -> Call} {first : Nat}
    {held : JobRow} (member : held ∈ (db.afterCalls calls first).job.rows)
    (running : held.state = .running) (served : ReapingRun held.id held.attempt calls) :
    Exists fun last : Nat => first ≤ last ∧ (Exists fun job : JobRow =>
        (db.afterCalls calls last).find held.id = some job ∧ held.Continues job) ∧
      NotRunning ((db.afterCalls calls (last + 1)).find held.id) := by
  rcases abandoned_ends member running (served.suffix first) with ⟨count, goesOn, ended⟩
  rw [Database.afterCalls, stateAt_add] at goesOn ended
  exact ⟨first + count, Nat.le_add_right first count, goesOn, ended⟩

theorem pollingCalls_forward (count : Nat) : (pollingCalls count).LeasesForward := by
  intro p leaseSeconds renews
  rcases pollingCalls_cases count with issued | issued | issued <;> cases issued.symm.trans renews

theorem pollingCalls_silent (count : Nat) (p : FenceParams) (leaseSeconds : Int) :
    (pollingCalls count).statement ≠ .heartbeatJob p leaseSeconds := by
  intro renews
  rcases pollingCalls_cases count with issued | issued | issued <;> cases issued.symm.trans renews

theorem pollingCalls_reaps (id count : Nat) :
    Exists fun later : Nat => count ≤ later ∧ OffersReaping id (pollingCalls later) := by
  have passes : (pollingCalls (3 * count + 1)).statement = .reapExpiredLeases ⟨1, 0⟩ [] := by
    unfold pollingCalls
    dsimp only
    rw [if_neg (by omega), if_pos (by omega)]
  exact ⟨3 * count + 1, by omega, ⟨1, 0⟩, [], passes, by decide, List.not_mem_nil⟩

/-- Two jobs whose worker is never heard of again. -/
def twoAbandoned : Database := mailWaiting.step ⟨0, .claimJobs ⟨"mail", 2, "w"⟩ []⟩

/-- The delivery is ended one day, though a pass recovers one job only. -/
theorem polled_delivery_ends : Exists fun last : Nat => 0 ≤ last ∧ (Exists fun job : JobRow =>
      (twoAbandoned.afterCalls pollingCalls last).find 1 = some job ∧
        (claimSet "w" 0 ((plainEnqueue 3).toJobRow 1 0)).Continues job) ∧
    NotRunning ((twoAbandoned.afterCalls pollingCalls (last + 1)).find 1) :=
  @abandoned_deliveries_end twoAbandoned pollingCalls 0
    (claimSet "w" 0 ((plainEnqueue 3).toJobRow 1 0)) (by decide) rfl
    ⟨pollingCalls_clock, pollingCalls_forward,
      fun count p leaseSeconds renews => absurd renews (pollingCalls_silent count p leaseSeconds),
      pollingCalls_reaps 1⟩

end PgJobQ
