import PgJobQ.Lifecycle.History

/-!
# Leases over runs

A claim grants a lease and each heartbeat grants a new one.  The columns of a
running job are those of the lease that was granted last, and the reaper takes
a job away only when that lease has ended.  So a worker that renews in time
keeps its delivery, whatever reapers do, and the error the reaper records
blames the worker that let its lease run out.

Leases are granted and tested on the database clock.  Nothing is assumed of
it: a later commit may carry an earlier time.
-/

namespace PgJobQ

open Runs

/-- A lease as it was granted. -/
structure Lease where
  workerId : String
  attempt : Int
  expiresAt : Timestamp
  deriving DecidableEq, Repr

/-- The lease on the job that a claim or a heartbeat grants. -/
def Commit.grants (id : Nat) (commit : Commit) : Option Lease :=
  match commit.statement with
  | .claimJobs p _ => (commit.returned id).map
      (fun row => ⟨p.workerId, row.attempt, commit.now + seconds row.leaseSeconds⟩)
  | .claimJobsWithAging p _ _ => (commit.returned id).map
      (fun row => ⟨p.workerId, row.attempt, commit.now + seconds row.leaseSeconds⟩)
  | .heartbeatJob p leaseSeconds => (commit.returned id).map
      (fun _ => ⟨p.workerId, p.attempt, commit.now + seconds leaseSeconds⟩)
  | _ => none

/-- The lease on the job that was granted last. -/
def latestLease (id : Nat) (history : List Commit) : Option Lease :=
  history.findSome? (Commit.grants id)

/-- The row is held under the lease. -/
structure JobRow.HeldUnder (job : JobRow) (lease : Lease) : Prop where
  worker : job.workerId = some lease.workerId
  attempt : job.attempt = lease.attempt
  expiry : job.leaseExpiresAt = some lease.expiresAt

theorem Commit.grants_of_silent {id : Nat} {commit : Commit} (silent : commit.returned id = none) :
    commit.grants id = none := by
  unfold Commit.grants
  cases commit.statement <;> simp only [silent, Option.map_none]

theorem latestLease_cons {id : Nat} {commit : Commit} {history : List Commit} :
    latestLease id (commit :: history) = (commit.grants id).or (latestLease id history) := by
  unfold latestLease
  rw [List.findSome?_cons]
  cases commit.grants id <;> rfl

/-- A claim grants the lease that it writes. -/
theorem Commit.grants_of_claim {id : Nat} {commit : Commit} {p : ClaimParams} {old : JobRow}
    (claims : commit.statement.claimParams = some p)
    (returned : commit.returned id = some (claimSet p.workerId commit.now old)) :
    Exists fun lease : Lease => commit.grants id = some lease ∧
      (claimSet p.workerId commit.now old).HeldUnder lease := by
  rcases commit with ⟨before, now, statement, rows⟩
  cases statement with
  | claimJobs params locked =>
      cases claims
      exact ⟨_, congrArg (Option.map _) returned, rfl, rfl, rfl⟩
  | claimJobsWithAging params threshold locked =>
      cases claims
      exact ⟨_, congrArg (Option.map _) returned, rfl, rfl, rfl⟩
  | _ => cases claims

/-- Each running job is held under the lease that was granted last. -/
def LeasesRecorded (session : Session) : Prop :=
  forall id job, session.state.find id = some job -> job.state = .running ->
    Exists fun lease : Lease => latestLease id session.history = some lease ∧ job.HeldUnder lease

/-- A row that is running after a row step is held under a lease: one that the
statement grants, or the one it was held under. -/
theorem RowStep.heldUnder {commit : Commit} {id : Nat} {old new : JobRow} {history : List Commit}
    (step : RowStep commit.now commit.statement old new) (returned : commit.returned id = some new)
    (before : old.state = .running -> Exists fun lease : Lease =>
      latestLease id history = some lease ∧ old.HeldUnder lease) (running : new.state = .running) :
    Exists fun lease : Lease =>
      latestLease id (commit :: history) = some lease ∧ new.HeldUnder lease := by
  rcases commit with ⟨database, now, statement, rows⟩
  rw [latestLease_cons]
  cases step with
  | claim claims queue ready due =>
      rcases Commit.grants_of_claim claims returned with ⟨lease, granted, held⟩
      rw [granted]
      exact ⟨lease, rfl, held⟩
  | @heartbeat p leaseSeconds job owned =>
      have fence := FenceParams.owns_iff.mp owned
      refine ⟨⟨p.workerId, p.attempt, now + seconds leaseSeconds⟩, ?_,
        ⟨fence.2.2.1, fence.2.2.2, rfl⟩⟩
      have granted : Commit.grants id ⟨database, now, .heartbeatJob p leaseSeconds, rows⟩ =
          some ⟨p.workerId, p.attempt, now + seconds leaseSeconds⟩ :=
        congrArg (Option.map _) returned
      rw [granted]
      rfl
  | requestCancel same started =>
      rcases before started with ⟨lease, latest, held⟩
      exact ⟨lease, latest, held.worker, held.attempt, held.expiry⟩
  | failNonRetryable owned final => cases running
  | failExhausted owned retryable exhausted => cases running
  | failRetry owned retryable remaining => cases running
  | complete owned => cases running
  | acknowledge owned requested => cases running
  | release owned => cases running
  | reapExhausted expired exhausted => cases running
  | reapRetry expired remaining => cases running
  | cancelAvailable same waiting => cases running
  | retryNow same waiting =>
      have stays : JobState.available = .running := waiting.symm.trans running
      cases stays
  | replay replays buried => cases running

/-- A commit keeps the invariant. -/
theorem LeasesRecorded.step {session : Session} {call : Call} {reply : Reply}
    (committed : call.statement.exec call.now session.state = .ok reply)
    (recorded : LeasesRecorded session) : LeasesRecorded
      ⟨reply.db, ⟨session.state, call.now, call.statement, reply.rows⟩ :: session.history⟩ := by
  intro id job found running
  have effect := exec_effect committed id
  have before := recorded id
  change reply.db.find id = some job at found
  generalize session.state.find id = old at effect before
  rw [found] at effect
  cases effect with
  | untouched silent =>
      rcases before job rfl running with ⟨lease, latest, held⟩
      refine ⟨lease, ?_, held⟩
      rw [latestLease_cons, Commit.grants_of_silent (Commit.returned_eq_none silent)]
      exact latest
  | stepped step oldId newId listed only =>
      exact RowStep.heldUnder step (Commit.returned_eq_some listed newId only) (before _ rfl) running
  | inserted asked fresh listed only => cases running

/-! ## Recovery -/

/-- A pass of the reaper took only jobs whose latest lease had ended, and
recorded whose lease it was. -/
def Commit.RecoversEnded (older : List Commit) (commit : Commit) : Prop :=
  forall (p : ReapParams) (locked : List Nat), commit.statement = .reapExpiredLeases p locked ->
    forall job, job ∈ commit.rows -> Exists fun lease : Lease =>
      latestLease job.id older = some lease ∧ lease.expiresAt < commit.now ∧
        Exists fun record : JobErrorRecord => job.errors.getLast? = some record ∧
          record.kind = .leaseExpired ∧ record.workerId = some lease.workerId ∧
            record.attempt = lease.attempt

theorem getLast_appendError (limit : Int) (errors : List JobErrorRecord) (error : JobErrorRecord) :
    (appendError limit errors error).getLast? = some error :=
  List.getLast?_concat

/-- What a pass returns was running under an expired lease, and has the record
of it. -/
theorem reaped_row {now : Timestamp} {db : Database} {p : ReapParams} {locked : List Nat}
    {reply : Reply} (committed : (Statement.reapExpiredLeases p locked).exec now db = .ok reply)
    {job : JobRow} (listed : job ∈ reply.rows) : Exists fun old : JobRow =>
      db.find job.id = some old ∧ leaseExpired now old = true ∧
        job.errors.getLast? = some (leaseExpiredRecord now old) := by
  have effect := exec_effect committed job.id
  generalize found : db.find job.id = old at effect
  generalize reply.db.find job.id = new at effect
  cases effect with
  | untouched silent => exact absurd rfl (silent job listed)
  | @stepped old new step oldId newId newListed only =>
      rw [only job listed rfl]
      cases step with
      | claim claims queue ready due => cases claims
      | replay replays buried => cases replays
      | reapExhausted expired exhausted =>
          exact ⟨old, rfl, expired, getLast_appendError _ _ _⟩
      | reapRetry expired remaining => exact ⟨old, rfl, expired, getLast_appendError _ _ _⟩
  | inserted asked fresh newListed only => cases asked
  | deleted deletes oldId oldListed only => cases deletes

/-- Over every run, a running job is held under the lease that was granted to
its worker last, and a pass of the reaper takes a job only when that lease has
ended. -/
theorem leases_end_before_recovery (partitions : List ArchivePartition) (config : QueueConfigTable)
    (calls : List Call) :
    (forall job, job ∈ (Session.after partitions config calls).state.job.rows ->
      job.state = .running -> Exists fun lease : Lease =>
        latestLease job.id (Session.after partitions config calls).history = some lease ∧
          job.HeldUnder lease) ∧
      EachEvent Commit.RecoversEnded (Session.after partitions config calls).history := by
  have kept : LeasesRecorded (Session.after partitions config calls) ∧
      EachEvent Commit.RecoversEnded (Session.after partitions config calls).history := by
    apply @Session.run_invariant (fun session => LeasesRecorded session ∧
      EachEvent Commit.RecoversEnded session.history)
    · rintro session call reply committed ⟨recorded, recovers⟩
      refine ⟨recorded.step committed, ?_, recovers⟩
      intro p locked reaps job listed
      change call.statement = _ at reaps
      rw [reaps] at committed
      rcases reaped_row committed listed with ⟨old, found, expired, record⟩
      have ended := leaseExpired_iff.mp expired
      rcases recorded job.id old found ended.1 with ⟨lease, latest, held⟩
      rcases ended.2 with ⟨expiry, written, past⟩
      have same : expiry = lease.expiresAt := Option.some.inj (written.symm.trans held.expiry)
      refine ⟨lease, latest, same ▸ past, _, record, rfl, ?_, ?_⟩
      · exact held.worker
      · exact held.attempt
    · exact ⟨fun id job found => (by cases found), trivial⟩
  exact ⟨fun job member => kept.1 job.id job (Database.find_of_mem member), kept.2⟩

end PgJobQ
