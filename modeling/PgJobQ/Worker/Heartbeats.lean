import Mathlib.Data.Rat.Floor
import Mathlib.Tactic.Linarith
import PgJobQ.Lifecycle.Conservation
import PgJobQ.Lifecycle.Fence
import PgJobQ.Lifecycle.UnendingRuns

/-!
# A worker that renews in time

`Runner.run` sends a heartbeat every `heartbeatMs`, which is a part of the
lease.  At least a tenth of the lease is left when a heartbeat is due, so a
worker whose heartbeats take no longer than that keeps its delivery: however
often reapers pass and whatever else is issued, the job stays in its hands
until it reports itself, or somebody purges the job.
-/

namespace PgJobQ

open Runs

/-! ## The timer -/

/-- `heartbeatMs` of `Runner.run`. -/
def heartbeatMs (leaseSeconds : Int) (heartbeatFraction : Rat) : Int :=
  max 500 ⌊(leaseSeconds : Rat) * 1000 * heartbeatFraction⌋

/-- The interval of the timer on the clock of the database. -/
def heartbeatInterval (leaseSeconds : Int) (heartbeatFraction : Rat) : Timestamp :=
  heartbeatMs leaseSeconds heartbeatFraction * 1000

/-- `z.coerce.number().min(0.05).max(0.9)`. -/
structure AcceptedFraction (heartbeatFraction : Rat) : Prop where
  least : 1 / 20 ≤ heartbeatFraction
  most : heartbeatFraction ≤ 9 / 10

/-- The timer never waits longer than nine tenths of a lease. -/
theorem heartbeatMs_le {leaseSeconds : Int} {heartbeatFraction : Rat}
    (accepted : AcceptedFraction heartbeatFraction) (positive : 0 < leaseSeconds) :
    heartbeatMs leaseSeconds heartbeatFraction ≤ leaseSeconds * 900 := by
  have whole : (1 : Rat) ≤ leaseSeconds := by exact_mod_cast positive
  apply max_le
  · omega
  · have part : (leaseSeconds : Rat) * 1000 * heartbeatFraction ≤ ((leaseSeconds * 900 : Int) : Rat)
        := by
      push_cast
      nlinarith [accepted.most]
    exact Int.cast_le.mp (le_trans (Int.floor_le _) part)

/-- What is left of a lease when a heartbeat is due is at least a tenth of
it. -/
theorem heartbeatInterval_add_le {leaseSeconds : Int} {heartbeatFraction : Rat}
    {latency : Timestamp} (accepted : AcceptedFraction heartbeatFraction)
    (positive : 0 < leaseSeconds) (quick : 10 * latency ≤ seconds leaseSeconds) :
    heartbeatInterval leaseSeconds heartbeatFraction + latency ≤ seconds leaseSeconds := by
  have parts : forall lease interval late : Int, interval ≤ lease * 900 ->
      10 * late ≤ lease * 1000000 -> interval * 1000 + late ≤ lease * 1000000 := by
    intro lease interval late nineTenths tenth
    omega
  exact parts leaseSeconds _ latency (heartbeatMs_le accepted positive) quick

/-! ## The delivery -/

/-- The job is still in the delivery that handed this row out. -/
structure JobRow.InDelivery (held job : JobRow) : Prop where
  running : job.state = .running
  worker : job.workerId = held.workerId
  attempt : job.attempt = held.attempt
  leaseSeconds : job.leaseSeconds = held.leaseSeconds

/-- The call is a heartbeat of the delivery. -/
def Call.Renews (held : JobRow) (call : Call) : Prop :=
  Exists fun p : FenceParams =>
    call.statement = .heartbeatJob p held.leaseSeconds ∧ p.owns held = true

/-- The calls by which a delivery may end: its own report, or a purge. -/
inductive Call.MayEnd (held : JobRow) (call : Call) : Prop where
  | reported {p : FenceParams} (ends : call.statement.endsDelivery = true)
      (reports : call.statement.fence = some p) (owned : p.owns held = true)
  | purged {queue states limit locked}
      (purges : call.statement = .purgeQueue queue states limit locked)

/-- The call ends the delivery, and the job is in it no more. -/
structure EndsDelivery (held : JobRow) (db : Database) (call : Call) : Prop where
  means : call.MayEnd held
  ended : forall job, (db.step call).find held.id = some job -> Not (held.InDelivery job)

/-- The lease of the delivery was granted last at this time. -/
structure LeasedSince (held : JobRow) (granted : Timestamp) (db : Database) : Prop where
  found : Exists fun job : JobRow => db.find held.id = some job ∧ held.InDelivery job ∧
    job.leaseExpiresAt = some (granted + seconds held.leaseSeconds)

theorem owns_of_inDelivery {held job : JobRow} (running : held.state = .running)
    (inside : held.InDelivery job) (sameId : job.id = held.id) (p : FenceParams) :
    p.owns job = p.owns held := by
  apply Bool.eq_iff_iff.mpr
  rw [FenceParams.owns_iff, FenceParams.owns_iff, sameId, inside.running, running, inside.worker,
    inside.attempt]

/-! ## One call -/

section

variable {held : JobRow} {granted : Timestamp} {db : Database} {call : Call}

/-- A heartbeat of the delivery grants the lease anew. -/
theorem LeasedSince.renewed (running : held.state = .running) (leased : LeasedSince held granted db)
    (renews : call.Renews held) : LeasedSince held call.now (db.step call) := by
  rcases leased.found with ⟨job, found, inside, _⟩
  rcases renews with ⟨p, beats, owned⟩
  have present := Database.find_eq_some_iff.mp found
  have hit : p.owns job = true := (owns_of_inDelivery running inside present.2 p).trans owned
  rcases heartbeatJob_commits db p held.leaseSeconds call.now with ⟨reply, committed⟩
  have executed : call.statement.exec call.now db = .ok reply := by
    rw [beats]
    exact committed
  rw [Database.step_of_ok executed]
  refine ⟨⟨(heartbeatJob p held.leaseSeconds call.now).set job, ?_, ?_, rfl⟩⟩
  · exact present.2 ▸ Mutation.find_of_hit committed present.1 hit
  · exact ⟨inside.running, inside.worker, inside.attempt, inside.leaseSeconds⟩

/-- Where a pass of the reaper comes before the lease ends, any other call
leaves the lease as it is or ends the delivery. -/
theorem LeasedSince.step (running : held.state = .running) (leased : LeasedSince held granted db)
    (asks : forall p leaseSeconds, call.statement = .heartbeatJob p leaseSeconds ->
      p.owns held = true -> leaseSeconds = held.leaseSeconds)
    (silent : Not (call.Renews held))
    (inTime : forall p locked, call.statement = .reapExpiredLeases p locked ->
      call.now ≤ granted + seconds held.leaseSeconds) :
    LeasedSince held granted (db.step call) ∨ EndsDelivery held db call := by
  rcases leased.found with ⟨job, found, inside, lease⟩
  have present := Database.find_eq_some_iff.mp found
  have owns := owns_of_inDelivery running inside present.2
  rcases Database.step_cases db call with stays | ⟨reply, committed, moves⟩
  · rw [stays]
    exact Or.inl leased
  · rw [moves]
    have effect := exec_effect committed held.id
    rw [found] at effect
    generalize after : reply.db.find held.id = new at effect
    rcases call with ⟨now, statement⟩
    have unexpired : forall p locked, statement = .reapExpiredLeases p locked ->
        Not (leaseExpired now job = true) := by
      intro p locked reaps expired
      rcases leaseExpired_iff.mp expired with ⟨_, expiry, written, past⟩
      have same : granted + seconds held.leaseSeconds = expiry :=
        Option.some.inj (lease.symm.trans written)
      exact absurd (inTime p locked reaps) (Int.not_le.mpr (same ▸ past))
    have ended : forall state : JobState, (forall row, new = some row -> row.state = state) ->
        state ≠ .running -> Call.MayEnd held ⟨now, statement⟩ ->
          EndsDelivery held db ⟨now, statement⟩ := by
      intro state left stopped means
      refine ⟨means, fun row found still => stopped ?_⟩
      rw [moves, after] at found
      exact (left row found).symm.trans still.running
    cases effect with
    | untouched quiet => exact Or.inl ⟨⟨job, after, inside, lease⟩⟩
    | deleted deletes oldId listed only =>
        right
        cases statement with
        | purgeQueue queue states limit locked =>
            exact ended .dead (fun _ gone => by cases gone) JobState.noConfusion (.purged rfl)
        | pruneTerminalJobs p locked =>
            rw [pruneTerminalJobs_ok committed] at listed
            have past := retentionVictim_past present.1 (List.mem_filter.mp listed).2
            have terminal := (Bool.and_eq_true_iff.mp past).1
            rw [inside.running] at terminal
            cases terminal
        | archiveTerminalJobs p locked =>
            rw [archiveTerminalJobs_ok committed] at listed
            have past := retentionVictim_past present.1 (List.mem_filter.mp listed).2
            have terminal := (Bool.and_eq_true_iff.mp past).1
            rw [inside.running] at terminal
            cases terminal
        | _ => cases deletes
    | @stepped _ row step oldId newId listed only =>
        have reported : forall {p : FenceParams} (state : JobState), row.state = state ->
            state ≠ .running -> statement.endsDelivery = true -> statement.fence = some p ->
              p.owns job = true -> EndsDelivery held db ⟨now, statement⟩ := by
          intro p state left stopped ends reports owned
          refine ended state (fun other same => ?_) stopped
            (.reported ends reports ((owns p).symm.trans owned))
          rw [← Option.some.inj same]
          exact left
        cases step with
        | requestCancel same started =>
            exact Or.inl ⟨⟨_, after, ⟨started, inside.worker, inside.attempt, inside.leaseSeconds⟩,
              lease⟩⟩
        | @heartbeat p leaseSeconds job owned =>
            have mine : p.owns held = true := (owns p).symm.trans owned
            have own : leaseSeconds = held.leaseSeconds := asks p leaseSeconds rfl mine
            exact absurd ⟨p, congrArg (Statement.heartbeatJob p) own, mine⟩ silent
        | complete owned => exact Or.inr (reported .succeeded rfl JobState.noConfusion rfl rfl owned)
        | failNonRetryable owned final =>
            exact Or.inr (reported .dead rfl JobState.noConfusion rfl rfl owned)
        | failExhausted owned retryable exhausted =>
            exact Or.inr (reported .dead rfl JobState.noConfusion rfl rfl owned)
        | failRetry owned retryable remaining =>
            exact Or.inr (reported .available rfl JobState.noConfusion rfl rfl owned)
        | acknowledge owned requested =>
            exact Or.inr (reported .cancelled rfl JobState.noConfusion rfl rfl owned)
        | release owned => exact Or.inr (reported .available rfl JobState.noConfusion rfl rfl owned)
        | reapExhausted expired exhausted => exact absurd expired (unexpired _ _ rfl)
        | reapRetry expired remaining => exact absurd expired (unexpired _ _ rfl)
        | claim claims queue ready due => cases ready.symm.trans inside.running
        | retryNow same waiting => cases waiting.symm.trans inside.running
        | cancelAvailable same waiting => cases waiting.symm.trans inside.running
        | replay replays buried => cases buried.symm.trans inside.running

end

/-! ## Runs -/

/-- When the lease of the delivery was granted: by the claim or by an earlier
heartbeat. -/
inductive GrantedBefore (held : JobRow) (claimedAt : Timestamp) (calls : Nat -> Call) (count : Nat) :
    Timestamp -> Prop where
  | claimed : GrantedBefore held claimedAt calls count claimedAt
  | renewed {earlier} (before : earlier < count) (renews : (calls earlier).Renews held) :
      GrantedBefore held claimedAt calls count (calls earlier).now

/-- A run that a worker keeps up with.  The clock does not go back, the
heartbeats of the delivery ask for the lease of the job, and a pass of the
reaper comes no later after the last heartbeat than the timer and the latency
of a heartbeat allow. -/
structure TimelyRun (heartbeatFraction : Rat) (latency : Timestamp) (held : JobRow)
    (claimedAt : Timestamp) (calls : Nat -> Call) : Prop where
  after : claimedAt ≤ (calls 0).now
  forward : forall count, (calls count).now ≤ (calls (count + 1)).now
  asks : forall count p leaseSeconds, (calls count).statement = .heartbeatJob p leaseSeconds ->
    p.owns held = true -> leaseSeconds = held.leaseSeconds
  inTime : forall count p locked, (calls count).statement = .reapExpiredLeases p locked ->
    Exists fun granted : Timestamp => GrantedBefore held claimedAt calls count granted ∧
      (calls count).now ≤
        granted + heartbeatInterval held.leaseSeconds heartbeatFraction + latency

/-- The delivery goes on, under the lease that was granted last. -/
structure KeptUp (held : JobRow) (claimedAt : Timestamp) (db : Database) (calls : Nat -> Call)
    (count : Nat) (granted : Timestamp) : Prop where
  leased : LeasedSince held granted (db.afterCalls calls count)
  last : forall earlier, GrantedBefore held claimedAt calls count earlier -> earlier ≤ granted

theorem TimelyRun.granted_le_now {heartbeatFraction : Rat} {latency claimedAt : Timestamp}
    {held : JobRow} {calls : Nat -> Call}
    (timely : TimelyRun heartbeatFraction latency held claimedAt calls) {count : Nat}
    {granted : Timestamp} (before : GrantedBefore held claimedAt calls (count + 1) granted) :
    granted ≤ (calls count).now := by
  cases before with
  | claimed => exact Int.le_trans timely.after (now_le_of_forward timely.forward (Nat.zero_le count))
  | renewed before renews => exact now_le_of_forward timely.forward (Nat.le_of_lt_succ before)

/-- A worker that renews in time keeps its delivery: at every moment of the run
the job is in its hands under the lease granted last, or it was until a report
of the worker or a purge ended the delivery. -/
theorem timely_worker_keeps_job {heartbeatFraction : Rat}
    (accepted : AcceptedFraction heartbeatFraction) {latency claimedAt : Timestamp} {held : JobRow}
    (quick : 10 * latency ≤ seconds held.leaseSeconds) {db : Database} (member : held ∈ db.job.rows)
    (running : held.state = .running)
    (lease : held.leaseExpiresAt = some (claimedAt + seconds held.leaseSeconds))
    {calls : Nat -> Call} (timely : TimelyRun heartbeatFraction latency held claimedAt calls)
    (count : Nat) :
    (Exists fun granted : Timestamp => KeptUp held claimedAt db calls count granted) ∨
      Exists fun last : Nat => last < count ∧
        (Exists fun granted : Timestamp => KeptUp held claimedAt db calls last granted) ∧
          EndsDelivery held (db.afterCalls calls last) (calls last) := by
  have positive : 0 < held.leaseSeconds := db.job.holds member .jobLeasePositive
  induction count with
  | zero =>
      refine Or.inl ⟨claimedAt, ⟨⟨held, Database.find_of_mem member, ⟨running, rfl, rfl, rfl⟩,
        lease⟩⟩, ?_⟩
      intro earlier before
      cases before with
      | claimed => exact Int.le_refl claimedAt
      | renewed before renews => exact absurd before (Nat.not_lt_zero _)
  | succ count inductionHypothesis =>
      rcases inductionHypothesis with ⟨granted, kept⟩ | ⟨last, before, kept, ends⟩
      · by_cases renews : (calls count).Renews held
        · refine Or.inl ⟨(calls count).now, kept.leased.renewed running renews, ?_⟩
          exact fun earlier before => timely.granted_le_now before
        · have inTime : forall p locked, (calls count).statement = .reapExpiredLeases p locked ->
              (calls count).now ≤ granted + seconds held.leaseSeconds := by
            intro p locked reaps
            rcases timely.inTime count p locked reaps with ⟨earlier, before, soon⟩
            have slack := heartbeatInterval_add_le accepted positive quick
            have latest := kept.last earlier before
            calc (calls count).now
                ≤ earlier + (heartbeatInterval held.leaseSeconds heartbeatFraction + latency) := by
                  rwa [← Int.add_assoc]
              _ ≤ granted + seconds held.leaseSeconds := Int.add_le_add latest slack
          rcases kept.leased.step running (timely.asks count) renews inTime with goesOn | ends
          · refine Or.inl ⟨granted, goesOn, ?_⟩
            intro earlier before
            cases before with
            | claimed => exact kept.last claimedAt .claimed
            | renewed before again =>
                rcases Nat.lt_succ_iff_lt_or_eq.mp before with sooner | same
                · exact kept.last _ (.renewed sooner again)
                · exact absurd (same ▸ again) renews
          · exact Or.inr ⟨count, Nat.lt_succ_self count, ⟨granted, kept⟩, ends⟩
      · exact Or.inr ⟨last, Nat.lt_succ_of_lt before, kept, ends⟩

/-- A worker that sends a heartbeat every other second, and a reaper that passes
in between. -/
def beatingCalls (count : Nat) : Call where
  now := seconds count
  statement :=
    if count % 2 = 0 then .heartbeatJob ⟨1, "w", 1⟩ 30 else .reapExpiredLeases ⟨10, 0⟩ []

/-- The job that the worker has claimed. -/
def oneClaimed : Database := oneWaiting.step ⟨0, .claimJobs ⟨"mail", 1, "w"⟩ []⟩

theorem beatingCalls_timely : TimelyRun (1 / 2) (seconds 1)
    (claimSet "w" 0 ((plainEnqueue 3).toJobRow 1 0)) 0 beatingCalls where
  after := Int.le_refl 0
  forward := pollingCalls_clock.forward
  asks := by
    intro count p leaseSeconds beats _
    unfold beatingCalls at beats
    split at beats
    · cases beats
      rfl
    · cases beats
  inTime := by
    intro count p locked reaps
    cases count with
    | zero => cases reaps
    | succ earlier =>
        refine ⟨(beatingCalls earlier).now, .renewed (Nat.lt_succ_self earlier) ?_, ?_⟩
        · have even : earlier % 2 = 0 := by
            by_contra odd
            unfold beatingCalls at reaps
            rw [if_pos (by omega)] at reaps
            cases reaps
          exact ⟨⟨1, "w", 1⟩, if_pos even, rfl⟩
        · have waits : 0 ≤ heartbeatInterval 30 (1 / 2) :=
            Int.mul_nonneg (le_trans (by decide) (le_max_left 500 _)) (by decide)
          have step : seconds ((earlier + 1 : Nat) : Int) = seconds earlier + seconds 1 :=
            Int.add_mul earlier 1 1000000
          change seconds ((earlier + 1 : Nat) : Int) ≤ seconds earlier + _ + seconds 1
          rw [step]
          exact Int.add_le_add_right (Int.le_add_of_nonneg_right waits) (seconds 1)

/-- The worker still holds the job after 60 calls: heartbeats do not end a
delivery, and each pass of the reaper finds the lease renewed. -/
theorem beating_worker_keeps_job : Exists fun granted : Timestamp =>
    KeptUp (claimSet "w" 0 ((plainEnqueue 3).toJobRow 1 0)) 0 oneClaimed beatingCalls 60
      granted := by
  rcases @timely_worker_keeps_job (1 / 2) ⟨by norm_num, by norm_num⟩ (seconds 1) 0
    (claimSet "w" 0 ((plainEnqueue 3).toJobRow 1 0)) (by decide) oneClaimed (by decide) rfl rfl
    beatingCalls beatingCalls_timely 60 with kept | ⟨last, _, _, ends⟩
  · exact kept
  · exfalso
    by_cases beats : last % 2 = 0
    · have isCall : (beatingCalls last).statement = .heartbeatJob ⟨1, "w", 1⟩ 30 := if_pos beats
      cases ends.means with
      | reported ends reports owned =>
          rw [isCall] at ends
          cases ends
      | purged purges =>
          rw [isCall] at purges
          cases purges
    · have isCall : (beatingCalls last).statement = .reapExpiredLeases ⟨10, 0⟩ [] := if_neg beats
      cases ends.means with
      | reported ends reports owned =>
          rw [isCall] at reports
          cases reports
      | purged purges =>
          rw [isCall] at purges
          cases purges

end PgJobQ
