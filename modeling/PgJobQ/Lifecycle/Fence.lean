import PgJobQ.Lifecycle.History
import PgJobQ.Lifecycle.StateMachine

/-!
# The ownership fence

A report presents the id, the worker and the attempt of the delivery it speaks
for, and its `WHERE` clause compares them with the row.  Within one epoch the
attempt grows with every claim, so the three values name one delivery.  A
replay starts the attempts over.  If the worker that held a job before the
replay then claims it again at an attempt number it has held before, the
values of both deliveries coincide, and a late report of the old one passes.
-/

namespace PgJobQ

open Runs

/-- What a report presents to the fence. -/
def Statement.fence : Statement -> Option FenceParams
  | completeJob p => some p
  | failJob p => some p.toFenceParams
  | heartbeatJob p _ => some p
  | acknowledgeCancellation p => some p
  | releaseJob p => some p
  | _ => none

/-- A delivery recorded in a history: a claim by `worker` that returned `row`,
with the commits made since. -/
structure DeliveredIn (history : List Commit) (worker : String) (row : JobRow)
    (since : List Commit) : Prop where
  recorded : Exists fun claim : Commit => Exists fun before : List Commit =>
    history = since ++ claim :: before ∧ row ∈ claim.rows ∧
      Exists fun p : ClaimParams => claim.statement.claimParams = some p ∧ p.workerId = worker

/-- The delivery is the latest of its job and has not been ended. -/
def Current (id : Nat) (since : List Commit) : Prop :=
  forall later, later ∈ since -> later.delivery id = none ∧ later.ends id = false

/-- A report that presents the values of a delivery changes a row only while
that delivery is current. -/
def FenceSound (session : Session) : Prop :=
  forall worker row since, DeliveredIn session.history worker row since ->
    forall (now : Timestamp) (report : Statement) (reply : Reply),
      report.fence = some ⟨row.id, worker, row.attempt⟩ ->
        report.exec now session.state = .ok reply -> reply.rows ≠ [] -> Current row.id since

/-- A claim does not hand a replayed job to a worker that has held it before
at the same attempt number. -/
def NoRepeatedHold (session : Session) (call : Call) : Prop :=
  forall p reply, call.statement.claimParams = some p ->
    call.statement.exec call.now session.state = .ok reply ->
      forall row, row ∈ reply.rows -> forall earlier since,
        DeliveredIn session.history p.workerId earlier since -> earlier.id = row.id ->
          (Exists fun commit : Commit => commit ∈ since ∧ commit.replays row.id = true) ->
            earlier.attempt ≠ row.attempt

/-! ## Reading a delivery -/

theorem DeliveredIn.cons_iff {commit : Commit} {history since : List Commit} {worker : String}
    {row : JobRow} : DeliveredIn (commit :: history) worker row since <->
      (since = [] ∧ row ∈ commit.rows ∧ Exists fun p : ClaimParams =>
        commit.statement.claimParams = some p ∧ p.workerId = worker) ∨
      Exists fun rest : List Commit => since = commit :: rest ∧
        DeliveredIn history worker row rest := by
  constructor
  · rintro ⟨claim, before, split, listed, claims⟩
    cases since with
    | nil =>
        cases split
        exact Or.inl ⟨rfl, listed, claims⟩
    | cons latest rest =>
        cases split
        exact Or.inr ⟨rest, rfl, ⟨claim, before, rfl, listed, claims⟩⟩
  · rintro (⟨rfl, listed, claims⟩ | ⟨rest, rfl, ⟨claim, before, rfl, listed, claims⟩⟩)
    · exact ⟨commit, history, rfl, listed, claims⟩
    · exact ⟨claim, before, rfl, listed, claims⟩

theorem DeliveredIn.drawn {session : Session} {worker : String} {row : JobRow}
    {since : List Commit} (below : HistoryBelow session)
    (delivered : DeliveredIn session.history worker row since) :
    row.id < session.state.nextId := by
  rcases delivered.recorded with ⟨claim, before, split, listed, _⟩
  apply below claim _ row listed
  rw [split]
  exact List.mem_append_right since List.mem_cons_self

theorem Current.cons {id : Nat} {commit : Commit} {since : List Commit}
    (undelivered : commit.delivery id = none) (noEnd : commit.ends id = false)
    (current : Current id since) : Current id (commit :: since) := by
  intro later member
  rcases List.mem_cons.mp member with rfl | earlier
  · exact ⟨undelivered, noEnd⟩
  · exact current later earlier

/-! ## The invariant -/

/-- The row of a running job names a current delivery, and attempts handed out
since the latest replay are not above the counter. -/
structure FenceInvariant (session : Session) : Prop where
  below : HistoryBelow session
  current : forall worker row since, DeliveredIn session.history worker row since ->
    forall held, session.state.find row.id = some held -> held.state = .running ->
      held.workerId = some worker -> held.attempt = row.attempt -> Current row.id since
  counted : forall worker row since, DeliveredIn session.history worker row since ->
    (forall commit, commit ∈ since -> commit.replays row.id = false) ->
      forall held, session.state.find row.id = some held -> row.attempt ≤ held.attempt

/-- A committed report that changed a row found the fence open. -/
theorem fence_open {now : Timestamp} {db : Database} {report : Statement} {reply : Reply}
    {fence : FenceParams} (fenced : report.fence = some fence)
    (committed : report.exec now db = .ok reply) (changed : reply.rows ≠ []) :
    Exists fun held : JobRow => db.find fence.id = some held ∧ held.state = .running ∧
      held.workerId = some fence.workerId ∧ held.attempt = fence.attempt := by
  have isUpdate : Exists fun mutation : Mutation => report.mutation now db = some mutation ∧
      forall row, mutation.hits row = true -> fence.owns row = true := by
    cases report
    case completeJob p => cases fenced; exact ⟨_, rfl, fun row hit => hit⟩
    case failJob p => cases fenced; exact ⟨_, rfl, fun row hit => hit⟩
    case heartbeatJob p lease => cases fenced; exact ⟨_, rfl, fun row hit => hit⟩
    case releaseJob p => cases fenced; exact ⟨_, rfl, fun row hit => hit⟩
    case acknowledgeCancellation p =>
      cases fenced
      exact ⟨_, rfl, fun row hit => (Bool.and_eq_true_iff.mp hit).1⟩
    all_goals cases fenced
  rcases isUpdate with ⟨mutation, updates, guarded⟩
  rw [Statement.exec_mutation updates] at committed
  rw [(Mutation.run_ok committed).2.1] at changed
  rcases List.exists_mem_of_ne_nil _ changed with ⟨row, listed⟩
  rcases Mutation.mem_returning.mp listed with ⟨held, member, hit, _⟩
  have owned := FenceParams.owns_iff.mp (guarded held hit)
  exact ⟨held, Database.find_eq_some_iff.mpr ⟨member, owned.1⟩, owned.2⟩

theorem FenceInvariant.sound {session : Session} (invariant : FenceInvariant session) :
    FenceSound session := by
  intro worker row since delivered now report reply fenced committed changed
  rcases fence_open fenced committed changed with ⟨held, found, running, owner, attempt⟩
  exact invariant.current worker row since delivered held found running owner attempt

theorem FenceInvariant.start (partitions : List ArchivePartition) (config : QueueConfigTable) :
    FenceInvariant (Session.start (.empty partitions config)) := by
  refine ⟨HistoryBelow.start _, ?_, ?_⟩
  · intro worker row since delivered held found
    cases found
  · intro worker row since delivered undisturbed held found
    cases found

/-- A commit keeps an earlier delivery apart from the row, if it repeats no
hold.  A claim gives the row a counter above every attempt handed out since
the latest replay, so it can only coincide with a delivery made before one. -/
theorem FenceInvariant.current_step {session : Session} {call : Call} {reply : Reply}
    (committed : call.statement.exec call.now session.state = .ok reply)
    (unrepeated : NoRepeatedHold session call) (invariant : FenceInvariant session)
    {worker : String} {row held : JobRow} {since : List Commit}
    (delivered : DeliveredIn session.history worker row since)
    (found : reply.db.find row.id = some held) (running : held.state = .running)
    (owner : held.workerId = some worker) (attempt : held.attempt = row.attempt) :
    Current row.id
      (⟨session.state, call.now, call.statement, reply.rows⟩ :: since) := by
  have event := JobEvent.of_exec committed row.id
  have current := invariant.current worker row since delivered
  have counted := invariant.counted worker row since delivered
  have drawn := delivered.drawn invariant.below
  have atCommit : forall p claimed, call.statement.claimParams = some p ->
      claimed ∈ reply.rows -> claimed.id = row.id -> p.workerId = worker ->
        claimed.attempt = row.attempt ->
          forall commit, commit ∈ since -> commit.replays row.id = false := by
    intro p claimed claims listed sameId sameWorker sameAttempt commit member
    apply Bool.eq_false_iff.mpr
    intro replays
    subst sameWorker
    exact unrepeated p reply claims committed claimed listed row since delivered sameId.symm
      ⟨commit, member, sameId ▸ replays⟩ sameAttempt.symm
  generalize commitIs : Commit.mk session.state call.now call.statement reply.rows = commit
    at event ⊢
  generalize session.state.find row.id = old at event current counted
  generalize reply.db.find row.id = new at event found
  cases event with
  | nothing silent =>
      have quiet := Commit.quiet_of_silent silent
      exact (current held found running owner attempt).cons quiet.1 quiet.2.2.2
  | @claimed p previous claims ready handed noInsert noReplay noEnd =>
      cases found
      have listed := Commit.mem_of_delivery handed
      subst commitIs
      have noReplays := atCommit p _ claims listed.1 listed.2 (Option.some.inj owner) attempt
      have below := counted noReplays previous rfl
      simp only [claimSet] at attempt
      omega
  | held undelivered noInsert noReplay noEnd started stillRunning sameWorker sameAttempt sameMax =>
      cases found
      exact (current _ rfl started (sameWorker.symm.trans owner)
        (sameAttempt.symm.trans attempt)).cons undelivered noEnd
  | replayed undelivered replays noInsert =>
      cases found
      cases running
  | moved undelivered noInsert noReplay notRunning sameAttempt sameMax =>
      cases found
      exact absurd running notRunning
  | inserted undelivered inserts fresh listed only =>
      rw [← commitIs] at fresh
      exact absurd drawn (Nat.not_lt_of_le fresh)
  | deleted undelivered noInsert noReplay => cases found

/-- A commit keeps an earlier delivery at or below the counter, up to a replay. -/
theorem FenceInvariant.counted_step {session : Session} {call : Call} {reply : Reply}
    (committed : call.statement.exec call.now session.state = .ok reply)
    (invariant : FenceInvariant session) {worker : String} {row held : JobRow}
    {since : List Commit} (delivered : DeliveredIn session.history worker row since)
    (undisturbed : forall commit,
      commit ∈ Commit.mk session.state call.now call.statement reply.rows :: since ->
        commit.replays row.id = false)
    (found : reply.db.find row.id = some held) : row.attempt ≤ held.attempt := by
  have event := JobEvent.of_exec committed row.id
  have counted := invariant.counted worker row since delivered
    (fun commit member => undisturbed commit (List.mem_cons_of_mem _ member))
  have noReplayNow := undisturbed _ List.mem_cons_self
  have drawn := delivered.drawn invariant.below
  generalize commitIs : Commit.mk session.state call.now call.statement reply.rows = commit
    at event noReplayNow
  generalize session.state.find row.id = old at event counted
  generalize reply.db.find row.id = new at event found
  cases event with
  | nothing silent => exact counted held found
  | claimed claims ready handed noInsert noReplay noEnd =>
      cases found
      exact Int.le_trans (counted _ rfl) (Int.le_of_lt (Int.lt_succ _))
  | replayed undelivered replays noInsert =>
      rw [noReplayNow] at replays
      cases replays
  | held undelivered noInsert noReplay noEnd started stillRunning sameWorker sameAttempt sameMax =>
      cases found
      rw [sameAttempt]
      exact counted _ rfl
  | moved undelivered noInsert noReplay notRunning sameAttempt sameMax =>
      cases found
      rw [sameAttempt]
      exact counted _ rfl
  | inserted undelivered inserts fresh listed only =>
      rw [← commitIs] at fresh
      exact absurd drawn (Nat.not_lt_of_le fresh)
  | deleted undelivered noInsert noReplay => cases found

theorem FenceInvariant.step {session : Session} {call : Call} {reply : Reply}
    (committed : call.statement.exec call.now session.state = .ok reply)
    (unrepeated : NoRepeatedHold session call) (invariant : FenceInvariant session) :
    FenceInvariant
      ⟨reply.db, ⟨session.state, call.now, call.statement, reply.rows⟩ :: session.history⟩ := by
  refine ⟨invariant.below.step committed, ?_, ?_⟩
  · intro worker row since delivered held found running owner attempt
    rcases DeliveredIn.cons_iff.mp delivered with ⟨rfl, _, _⟩ | ⟨rest, rfl, earlier⟩
    · exact fun later member => absurd member List.not_mem_nil
    · exact invariant.current_step committed unrepeated earlier found running owner attempt
  · intro worker row since delivered undisturbed held found
    rcases DeliveredIn.cons_iff.mp delivered with ⟨rfl, listed, p, claims, _⟩ | ⟨rest, rfl, earlier⟩
    · have claimed := claimed_row committed claims listed
      cases claimed.1.symm.trans found
      exact Int.le_refl _
    · exact invariant.counted_step committed earlier undisturbed found

/-! ## The converse -/

/-- A repeated hold lets the old delivery report on the new one. -/
theorem not_fenceSound_of_repeatedHold {session : Session} {call : Call}
    (repeated : Not (NoRepeatedHold session call)) : Not (FenceSound (session.step call)) := by
  simp only [NoRepeatedHold, not_forall, not_not] at repeated
  rcases repeated with ⟨p, reply, claims, committed, row, listed, earlier, since, delivered,
    sameId, _, sameAttempt⟩
  have claimed := claimed_row committed claims listed
  have present := Database.find_eq_some_iff.mp claimed.1
  rcases completeJob_commits reply.db ⟨earlier.id, p.workerId, earlier.attempt⟩ call.now
    with ⟨stale, executed⟩
  have owned : (FenceParams.mk earlier.id p.workerId earlier.attempt).owns row = true :=
    FenceParams.owns_iff.mpr ⟨sameId.symm, claimed.2.1, claimed.2.2, sameAttempt.symm⟩
  have changed : stale.rows ≠ [] := by
    rw [(Mutation.run_ok executed).2.1]
    exact List.ne_nil_of_mem (Mutation.mem_returning.mpr ⟨row, present.1, owned, rfl⟩)
  intro sound
  rw [Session.step_of_ok committed] at sound
  -- the old delivery, seen across the claim that repeats its hold
  let latest : Commit := ⟨session.state, call.now, call.statement, reply.rows⟩
  have across : DeliveredIn (latest :: session.history) p.workerId earlier (latest :: since) :=
    DeliveredIn.cons_iff.mpr (Or.inr ⟨since, rfl, delivered⟩)
  have current := sound _ _ _ across call.now (.completeJob _) stale rfl executed changed
  have undelivered : latest.delivery earlier.id = none := (current _ List.mem_cons_self).1
  have handedOut : (latest.returned row.id).isSome = true := Commit.returned_isSome listed
  rw [sameId, Commit.delivery, if_pos (by simp [latest, claims])] at undelivered
  rw [undelivered] at handedOut
  cases handedOut

/-- In a run from an empty table every report that changes a row speaks for
the current delivery of its job, in every state visited, exactly when no claim
repeats a hold. -/
theorem fence_sound_iff (partitions : List ArchivePartition) (config : QueueConfigTable)
    (calls : List Call) :
    Always Session.step FenceSound (Session.start (.empty partitions config)) calls <->
      EachStep Session.step NoRepeatedHold (Session.start (.empty partitions config)) calls := by
  apply @always_iff_eachStep _ _ Session.step FenceInvariant
  · exact fun session invariant => invariant.sound
  · intro session call invariant unrepeated
    rcases session.step_cases call with stays | ⟨reply, committed, moves⟩
    · rw [stays]
      exact invariant
    · rw [moves]
      exact invariant.step committed unrepeated
  · exact fun session call _ repeated => not_fenceSound_of_repeatedHold repeated
  · exact FenceInvariant.start partitions config

/-- Worker `w` claims a job with one attempt and stalls.  The lease expires,
the job is dead-lettered and replayed, and `w` claims it again. -/
def heldTwice : List Call :=
  claimedOnce 1 ++ [⟨seconds 31, .reapExpiredLeases ⟨10, 0⟩ []⟩, ⟨seconds 32, .replayDeadJob 1⟩,
    ⟨seconds 33, .claimJobs ⟨"mail", 1, "w"⟩ []⟩]

/-- The late report of the first delivery completes the second one. -/
theorem stale_report_passes_fence :
    Not (FenceSound (Session.after [] .empty heldTwice)) := by
  intro sound
  have first : DeliveredIn (Session.after [] .empty heldTwice).history "w"
      (claimSet "w" 0 ((plainEnqueue 1).toJobRow 1 0))
      ((Session.after [] .empty heldTwice).history.take 3) :=
    ⟨_, (Session.after [] .empty heldTwice).history.drop 4, rfl, by decide, _, rfl, rfl⟩
  have current := sound _ _ _ first (seconds 34) (.completeJob ⟨1, "w", 1⟩) _ rfl rfl (by decide)
  have undelivered := (current _ (List.mem_of_getElem? (i := 0) rfl)).1
  exact absurd undelivered (by decide)

end PgJobQ
