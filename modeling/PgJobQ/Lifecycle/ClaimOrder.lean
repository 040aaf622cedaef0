import PgJobQ.Library.WaitingTickets
import PgJobQ.Lifecycle.History
import PgJobQ.Lifecycle.StateMachine

/-!
# Who is claimed first

Both claim statements sort the claimable jobs and lock a first part of them,
passing over the rows others have locked.  A job is a ticket with its
`priority`, its `run_at` and its id: the plain claim ranks tickets by priority,
the claim with aging by the aged priority.

Under aging, a job that can be claimed is passed over only for jobs whose
`run_at` is not much later than its own.  How much later depends on its
priority and on the largest one a `smallint` holds, and on nothing that is
enqueued afterwards.
-/

namespace PgJobQ

open Runs

def JobRow.ticket (job : JobRow) : WaitingTicket := ⟨job.priority, job.runAt, job.id⟩

theorem claimOrder_iff {first second : JobRow} : claimOrder first second <->
    WaitingTicket.Before WaitingTicket.priority first.ticket second.ticket := Iff.rfl

theorem agingOrder_iff {threshold : Int} {now : Timestamp} {first second : JobRow} :
    agingOrder threshold now first second <->
      WaitingTicket.Before (WaitingTicket.aged (seconds threshold) now)
        first.ticket second.ticket := Iff.rfl

instance (threshold : Int) (now : Timestamp) : Std.Total (agingOrder threshold now) :=
  ⟨fun first second => (WaitingTicket.Before.total first.ticket second.ticket).imp
    agingOrder_iff.mpr agingOrder_iff.mpr⟩

instance (threshold : Int) (now : Timestamp) : IsTrans JobRow (agingOrder threshold now) :=
  ⟨fun _ _ _ before after =>
    agingOrder_iff.mpr ((agingOrder_iff.mp before).trans (agingOrder_iff.mp after))⟩

theorem seconds_pos {count : Int} (positive : 0 < count) : 0 < seconds count :=
  Int.mul_pos positive (by decide)

/-! ## The candidates of a claim -/

/-- The first job is taken at a point where the second one has not been. -/
def TakenAhead (candidates : List Nat) (first second : Nat) : Prop :=
  Exists fun earlier : List Nat => Exists fun later : List Nat =>
    candidates = earlier ++ first :: later ∧ second ∉ earlier

/-- A job is taken ahead of those that are not taken at all. -/
theorem takenAhead_of_not_mem {candidates : List Nat} {first second : Nat}
    (taken : first ∈ candidates) (left : second ∉ candidates) :
    TakenAhead candidates first second := by
  rcases List.append_of_mem taken with ⟨earlier, later, split⟩
  refine ⟨earlier, later, split, fun early => left ?_⟩
  rw [split]
  exact List.mem_append_left _ early

/-- Who is taken ahead of a selected job that nobody has locked comes before
it in the order of the statement. -/
theorem before_of_takenAhead {before : JobRow -> JobRow -> Prop} [DecidableRel before]
    [Std.Total before] [IsTrans JobRow before] {selects : JobRow -> Bool} {limit : Nat}
    {locked : List Nat} {table : JobTable} {taken waiting : JobRow} (takenMem : taken ∈ table.rows)
    (waitingMem : waiting ∈ table.rows) (selected : selects waiting = true)
    (unlocked : waiting.id ∉ locked)
    (ahead : TakenAhead (lockCandidates before selects limit locked table.rows)
      taken.id waiting.id) : before taken waiting := by
  rcases ahead with ⟨earlier, later, split, notEarlier⟩
  let queue := ((table.rows.filter selects).insertionSort before).filter
    (fun row => !locked.contains row.id)
  have candidates : lockCandidates before selects limit locked table.rows =
      (queue.take limit).map JobRow.id := by
    unfold lockCandidates
    rw [List.filter_map, List.map_take]
    rfl
  rw [candidates] at split
  rcases List.map_eq_append_iff.mp split with ⟨first, rest, cut, firstIds, restIds⟩
  rcases List.map_eq_cons_iff.mp restIds with ⟨row, last, rfl, sameId, _⟩
  have fromTable : forall other, other ∈ queue -> other ∈ table.rows := by
    intro other member
    exact (List.mem_filter.mp
      ((List.mem_insertionSort before).mp (List.mem_filter.mp member).1)).1
  have rowMem : row ∈ queue.take limit := by
    rw [cut]
    exact List.mem_append_right _ List.mem_cons_self
  have same : row = taken := table.eq_of_id (fromTable row (List.mem_of_mem_take rowMem)) takenMem
    sameId
  have waitingQueued : waiting ∈ queue := by
    refine List.mem_filter.mpr ⟨?_, ?_⟩
    · exact (List.mem_insertionSort before).mpr (List.mem_filter.mpr ⟨waitingMem, selected⟩)
    · simpa using unlocked
  have sorted : queue.Pairwise before :=
    List.Pairwise.filter _ (List.pairwise_insertionSort before _)
  rw [same] at cut
  apply List.before_of_served sorted _ cut waitingQueued
  · intro early
    apply notEarlier
    rw [← firstIds]
    exact List.mem_map_of_mem early
  · exact (Std.Total.total taken taken).elim id id

/-! ## Overtaking -/

/-- The largest `smallint`. -/
def smallintMax : Int := 32767

/-- At this commit, a claim with the aging threshold, a job that could have
been claimed is passed over only for jobs whose `run_at` is early enough. -/
structure Commit.BoundsOvertaking (threshold : Int) (commit : Commit) : Prop where
  candidates : forall (p : ClaimParams) (locked : List Nat),
    commit.statement = .claimJobsWithAging p threshold locked ->
      forall waiting taken, waiting ∈ commit.before.job.rows ->
        claimable commit.before.queueConfig p commit.now waiting = true -> waiting.id ∉ locked ->
          taken ∈ commit.before.job.rows ->
            TakenAhead (lockCandidates (agingOrder threshold commit.now)
              (claimable commit.before.queueConfig p commit.now) p.limit locked
              commit.before.job.rows) taken.id waiting.id ->
                taken.runAt <
                  waiting.runAt + (smallintMax - waiting.priority + 1) * seconds threshold
  returned : forall (p : ClaimParams) (locked : List Nat),
    commit.statement = .claimJobsWithAging p threshold locked ->
      forall waiting claimed, waiting ∈ commit.before.job.rows ->
        claimable commit.before.queueConfig p commit.now waiting = true -> waiting.id ∉ locked ->
          commit.returned waiting.id = none -> claimed ∈ commit.rows ->
            claimed.runAt <
              waiting.runAt + (smallintMax - waiting.priority + 1) * seconds threshold

/-- Who is taken ahead of a job that could have been has an early `run_at`. -/
theorem runAt_lt_of_takenAhead {threshold : Int} (positive : 0 < threshold) {p : ClaimParams}
    {locked : List Nat} {now : Timestamp} {db : Database} {taken waiting : JobRow}
    (takenMem : taken ∈ db.job.rows) (waitingMem : waiting ∈ db.job.rows)
    (ready : claimable db.queueConfig p now waiting = true) (unlocked : waiting.id ∉ locked)
    (ahead : TakenAhead (lockCandidates (agingOrder threshold now) (claimable db.queueConfig p now)
      p.limit locked db.job.rows) taken.id waiting.id) :
    taken.runAt < waiting.runAt + (smallintMax - waiting.priority + 1) * seconds threshold :=
  WaitingTicket.since_lt_of_before (seconds_pos positive)
    (agingOrder_iff.mp (before_of_takenAhead takenMem waitingMem ready unlocked ahead))
    (db.job.holds waitingMem .prioritySmallint).2 (db.job.holds takenMem .prioritySmallint).2

theorem Commit.BoundsOvertaking.of_exec {threshold : Int} (positive : 0 < threshold)
    {now : Timestamp} {db : Database} {statement : Statement} {reply : Reply}
    (committed : statement.exec now db = .ok reply) :
    Commit.BoundsOvertaking threshold ⟨db, now, statement, reply.rows⟩ where
  candidates := by
    intro p locked _ waiting taken waitingMem ready unlocked takenMem ahead
    exact runAt_lt_of_takenAhead positive takenMem waitingMem ready unlocked ahead
  returned := by
    intro p locked claims waiting claimed waitingMem ready unlocked missing listed
    change statement = .claimJobsWithAging p threshold locked at claims
    subst claims
    have done := @Mutation.run_ok (claimJobsWithAging p threshold locked now db) _ _ committed
    change claimed ∈ reply.rows at listed
    rw [done.2.1] at listed
    rcases Mutation.mem_returning.mp listed with ⟨old, oldMem, hit, rfl⟩
    have left : Not ((claimJobsWithAging p threshold locked now db).hits waiting = true) := by
      intro alsoHit
      have waitingListed :
          (claimJobsWithAging p threshold locked now db).set waiting ∈ reply.rows := by
        rw [done.2.1]
        exact Mutation.mem_returning.mpr ⟨waiting, waitingMem, alsoHit, rfl⟩
      have found := @Commit.returned_isSome
        ⟨db, now, .claimJobsWithAging p threshold locked, reply.rows⟩ _ waitingListed
      rw [Mutation.keepsId, missing] at found
      cases found
    have ahead := takenAhead_of_not_mem (List.contains_iff_mem.mp hit)
      (fun candidate => left (List.contains_iff_mem.mpr candidate))
    have early := runAt_lt_of_takenAhead positive oldMem waitingMem ready unlocked ahead
    exact early

/-- With aging, a job whose `run_at` is late enough stays strictly behind an
older one at every time, and at every claim of every run a job that could be
claimed is passed over only for jobs whose `run_at` lies within a bound that
nothing enqueued later changes. -/
theorem overtaking_bounded {threshold : Int} (positive : 0 < threshold) :
    (forall first second : JobRow,
      first.runAt + (max 0 (second.priority - first.priority) + 1) * seconds threshold ≤
          second.runAt ->
        forall now, second.runAt ≤ now -> agingOrder threshold now first second ∧
          Not (agingOrder threshold now second first)) ∧
      forall (partitions : List ArchivePartition) (config : QueueConfigTable) (calls : List Call),
        forall commit, commit ∈ (Session.after partitions config calls).history ->
          commit.BoundsOvertaking threshold := by
  constructor
  · intro first second late now _
    have behind : second.ticket.aged (seconds threshold) now <
        first.ticket.aged (seconds threshold) now :=
      WaitingTicket.aged_lt_of_late (seconds_pos positive) late now
    have strict := WaitingTicket.Before.strict_of_rank behind
    exact ⟨agingOrder_iff.mpr strict.1, fun reversed => strict.2 (agingOrder_iff.mp reversed)⟩
  · intro partitions config calls
    apply @Session.run_invariant
      (fun session => forall commit, commit ∈ session.history -> commit.BoundsOvertaking threshold)
    · intro session call reply committed bounded commit member
      rcases List.mem_cons.mp member with rfl | earlier
      · exact .of_exec positive committed
      · exact bounded commit earlier
    · exact fun _ member => absurd member List.not_mem_nil

/-- A job of priority 5, six minutes after one of priority 0. -/
def lateUrgent : EnqueueRow := { plainEnqueue 3 with priority := 5, runAt := some (seconds 360) }

def lateUrgentClaimed : List Call :=
  [⟨0, .insertJob (plainEnqueue 3)⟩, ⟨seconds 360, .insertJob lateUrgent⟩,
    ⟨seconds 400, .claimJobsWithAging ⟨"mail", 1, "w"⟩ 60 []⟩]

/-- With a threshold of one minute the late job is behind, and a claim that
takes one job respects the bound. -/
theorem lateUrgent_overtaking_bounded :
    (agingOrder 60 (seconds 400) ((plainEnqueue 3).toJobRow 1 0)
        (lateUrgent.toJobRow 2 (seconds 360)) ∧
      Not (agingOrder 60 (seconds 400) (lateUrgent.toJobRow 2 (seconds 360))
        ((plainEnqueue 3).toJobRow 1 0))) ∧
      forall commit, commit ∈ (Session.after [] .empty lateUrgentClaimed).history ->
        commit.BoundsOvertaking 60 :=
  ⟨(overtaking_bounded (by decide)).1 _ _ (by decide) _ (by decide),
    (overtaking_bounded (by decide)).2 [] .empty lateUrgentClaimed⟩

end PgJobQ
