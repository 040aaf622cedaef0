import PgJobQ.Lifecycle.CancelRequests

/-!
# What a claim may hand out

Whether a queue is paused is what the last committed `setQueuePaused` about it
said, however many jobs were enqueued, claimed or removed since.  A claim hands
out a job of the queue it asks for, when it is due, with an attempt left, and
never while the queue is paused.  So a paused queue stops at its running jobs.
-/

namespace PgJobQ

open Runs

/-- What the commit says about the queue. -/
def Commit.pauses (queue : String) (commit : Commit) : Option Bool :=
  match commit.statement with
  | .setQueuePaused named paused => if queue = named then some paused else none
  | _ => none

/-- What the last commit about the queue said, or else its configuration. -/
def pausedBy (config : QueueConfigTable) (queue : String) (history : List Commit) : Bool :=
  (history.findSome? (Commit.pauses queue)).getD (queuePaused config queue)

theorem pausedBy_cons {config : QueueConfigTable} {queue : String} {commit : Commit}
    {history : List Commit} : pausedBy config queue (commit :: history) =
      (commit.pauses queue).getD (pausedBy config queue history) := by
  unfold pausedBy
  rw [List.findSome?_cons]
  cases commit.pauses queue <;> rfl

/-- Every job that the commit hands out was due in the queue that was asked for,
which was not paused, and had an attempt left. -/
def Commit.HandsOut (config : QueueConfigTable) (older : List Commit) (commit : Commit) : Prop :=
  forall p, commit.statement.claimParams = some p -> forall job, job ∈ commit.rows ->
    job.queue = p.queue ∧ job.runAt ≤ commit.now ∧ job.attempt ≤ job.maxAttempts ∧
      pausedBy config p.queue older = false

/-- The configuration says what the last commit about each queue said. -/
def PausesRecorded (config : QueueConfigTable) (session : Session) : Prop :=
  forall queue, queuePaused session.state.queueConfig queue = pausedBy config queue session.history

/-- A job that a claim returns was claimable. -/
theorem claimable_of_claimed {now : Timestamp} {db : Database} {claim : Statement}
    {p : ClaimParams} {reply : Reply} (claims : claim.claimParams = some p)
    (committed : claim.exec now db = .ok reply) {job : JobRow} (listed : job ∈ reply.rows) :
    Exists fun old : JobRow => claimable db.queueConfig p now old = true ∧
      job = claimSet p.workerId now old := by
  have returned : forall mutation : Mutation, mutation.run db = .ok reply ->
      mutation.set = claimSet p.workerId now ->
        (forall old, old ∈ db.job.rows -> mutation.hits old = true ->
          claimable db.queueConfig p now old = true) ->
            Exists fun old : JobRow => claimable db.queueConfig p now old = true ∧
              job = claimSet p.workerId now old := by
    intro mutation ran sets selects
    rw [(Mutation.run_ok ran).2.1] at listed
    rcases Mutation.mem_returning.mp listed with ⟨old, member, hit, rfl⟩
    exact ⟨old, selects old member hit, congrFun sets old⟩
  cases claim with
  | claimJobs params locked =>
      cases claims
      exact returned _ committed rfl (fun old member hit => selects_of_candidate member hit)
  | claimJobsWithAging params threshold locked =>
      cases claims
      exact returned _ committed rfl (fun old member hit => selects_of_candidate member hit)
  | _ => cases claims

theorem PausesRecorded.step {config : QueueConfigTable} {session : Session} {call : Call}
    {reply : Reply} (committed : call.statement.exec call.now session.state = .ok reply)
    (recorded : PausesRecorded config session) : PausesRecorded config
      ⟨reply.db, ⟨session.state, call.now, call.statement, reply.rows⟩ :: session.history⟩ := by
  intro queue
  rw [pausedBy_cons, ← recorded queue]
  rcases call with ⟨now, statement⟩
  by_cases pausing : Exists fun named : String => Exists fun paused : Bool =>
      statement = .setQueuePaused named paused
  · rcases pausing with ⟨named, paused, rfl⟩
    cases committed
    change queuePaused (session.state.queueConfig.setPaused named paused) queue = _
    rw [queuePaused_setPaused]
    by_cases same : queue = named
    · simp [Commit.pauses, same]
    · simp [Commit.pauses, same]
  · have other : forall named paused, statement ≠ .setQueuePaused named paused :=
      fun named paused same => pausing ⟨named, paused, same⟩
    have silent : Commit.pauses queue ⟨session.state, now, statement, reply.rows⟩ = none := by
      cases statement with
      | setQueuePaused named paused => exact absurd rfl (other named paused)
      | _ => rfl
    rw [silent]
    exact congrArg (fun config => queuePaused config queue) (exec_queueConfig committed other)

/-- Over every run, a queue is paused exactly when the last commit about it
paused it, and every claim hands out only jobs that are due in the queue it asks
for, while that queue is not paused. -/
theorem claims_respect_pauses (partitions : List ArchivePartition) (config : QueueConfigTable)
    (calls : List Call) :
    PausesRecorded config (Session.after partitions config calls) ∧
      EachEvent (Commit.HandsOut config) (Session.after partitions config calls).history := by
  apply @Session.run_invariant (fun session => PausesRecorded config session ∧
    EachEvent (Commit.HandsOut config) session.history)
  · rintro session call reply committed ⟨recorded, handsOut⟩
    refine ⟨recorded.step committed, ?_, handsOut⟩
    intro p claims job listed
    rcases claimable_of_claimed claims committed listed with ⟨old, ready, rfl⟩
    have guard := claimable_iff.mp ready
    have present := (Database.find_eq_some_iff.mp (claimed_row committed claims listed).1).1
    refine ⟨guard.1, guard.2.2.1, (reply.db.job.holds present .jobAttemptBounded).2, ?_⟩
    rw [← recorded, ← guard.1]
    exact guard.2.2.2
  · exact ⟨fun queue => rfl, trivial⟩

end PgJobQ
