import Mathlib.Tactic.Linarith
import Mathlib.Tactic.Ring
import PgJobQ.Lifecycle.History
import PgJobQ.Lifecycle.StateMachine

/-!
# The attempt counter

A claim increments `attempt`, a replay resets it, and nothing else touches it,
so the counter of a row counts the deliveries of the current epoch.  The CHECK
`job_attempt_bounded` turns that into a bound on all deliveries of a job.

The same CHECK makes a claim abort when it hits a row without attempts left.
Failing and reaping never leave such a row available.  Releasing does: it
returns the row to the queue with the counter it had.
-/

namespace PgJobQ

open Runs

/-! ## Counting deliveries -/

/-- The attempts handed out in an epoch grow from claim to claim. -/
def Increasing (newestFirst : List JobRow) : Prop :=
  newestFirst.Pairwise (fun newer older => older.attempt < newer.attempt)

/-- The counter of a row is the length of its epoch, and the epoch handed out
the attempts below it in order. -/
def CounterTracks (session : Session) : Prop :=
  forall id, Increasing (epochDeliveries id session.history) ∧
    forall row, session.state.find id = some row ->
      row.attempt = (epochDeliveries id session.history).length ∧
        forall delivered, delivered ∈ epochDeliveries id session.history ->
          delivered.attempt ≤ row.attempt

theorem CounterTracks.start (partitions : List ArchivePartition) (config : QueueConfigTable) :
    CounterTracks (Session.start (.empty partitions config)) := by
  intro id
  refine ⟨List.Pairwise.nil, ?_⟩
  intro row found
  cases found

/-- A commit that neither delivers the job nor starts an epoch keeps the count,
if it leaves the counter of the row alone or removes the row. -/
theorem CounterTracks.of_quiet {session next : Session} {commit : Commit} {id : Nat}
    (tracks : CounterTracks session) (recorded : next.history = commit :: session.history)
    (undelivered : commit.delivery id = none) (noInsert : commit.inserts id = false)
    (noReplay : commit.replays id = false)
    (kept : forall row, next.state.find id = some row -> Exists fun old : JobRow =>
      session.state.find id = some old ∧ row.attempt = old.attempt) :
    Increasing (epochDeliveries id next.history) ∧
      forall row, next.state.find id = some row ->
        row.attempt = (epochDeliveries id next.history).length ∧
          forall delivered, delivered ∈ epochDeliveries id next.history ->
            delivered.attempt ≤ row.attempt := by
  have before := tracks id
  rw [recorded, epochDeliveries_cons_of_not noInsert noReplay, undelivered]
  refine ⟨before.1, ?_⟩
  intro row found
  rcases kept row found with ⟨old, present, same⟩
  rw [same]
  exact before.2 old present

/-- A claim extends the epoch by the attempt the row gets, a replay and an
insertion start an empty one, and every other commit is quiet. -/
theorem CounterTracks.step (session : Session) (call : Call) (reply : Reply)
    (committed : call.statement.exec call.now session.state = .ok reply)
    (tracks : CounterTracks session) :
    CounterTracks
      ⟨reply.db, ⟨session.state, call.now, call.statement, reply.rows⟩ :: session.history⟩ := by
  intro id
  have event := JobEvent.of_exec committed id
  have before := tracks id
  have quiet := @CounterTracks.of_quiet session
    ⟨reply.db, ⟨session.state, call.now, call.statement, reply.rows⟩ :: session.history⟩
    _ id tracks rfl
  dsimp only at quiet ⊢
  generalize Commit.mk session.state call.now call.statement reply.rows = commit at event quiet ⊢
  generalize session.state.find id = old at event before quiet
  generalize reply.db.find id = new at event quiet ⊢
  cases event with
  | nothing silent =>
      have unheard := Commit.quiet_of_silent silent
      exact quiet unheard.1 unheard.2.1 unheard.2.2.1 (fun row found => ⟨row, found, rfl⟩)
  | @claimed p previous claims ready delivered noInsert noReplay noEnd =>
      have counted := before.2 previous rfl
      rw [epochDeliveries_cons_of_not noInsert noReplay, delivered]
      refine ⟨List.pairwise_cons.mpr ⟨?_, before.1⟩, ?_⟩
      · intro older earlier
        exact Int.lt_add_one_of_le (counted.2 older earlier)
      · intro row found
        cases found
        constructor
        · simp only [claimSet, Option.toList_some, List.singleton_append, List.length_cons,
            Nat.cast_add, Nat.cast_one, counted.1]
        · intro handed listed
          rcases List.mem_cons.mp listed with rfl | earlier
          · exact Int.le_refl _
          · exact Int.le_of_lt (Int.lt_add_one_of_le (counted.2 handed earlier))
  | replayed undelivered replays noInsert =>
      rw [epochDeliveries_cons_of_starts (Or.inr replays)]
      refine ⟨List.Pairwise.nil, ?_⟩
      intro row found
      cases found
      exact ⟨rfl, fun handed listed => absurd listed List.not_mem_nil⟩
  | @held previous next undelivered noInsert noReplay noEnd _ _ _ sameAttempt _ =>
      refine quiet undelivered noInsert noReplay ?_
      intro row found
      cases found
      exact ⟨previous, rfl, sameAttempt⟩
  | @moved previous next undelivered noInsert noReplay _ sameAttempt _ =>
      refine quiet undelivered noInsert noReplay ?_
      intro row found
      cases found
      exact ⟨previous, rfl, sameAttempt⟩
  | inserted undelivered inserts fresh listed only =>
      rw [epochDeliveries_cons_of_starts (Or.inl inserts)]
      refine ⟨List.Pairwise.nil, ?_⟩
      intro row found
      cases found
      exact ⟨rfl, fun handed listed => absurd listed List.not_mem_nil⟩
  | deleted undelivered noInsert noReplay =>
      refine quiet undelivered noInsert noReplay ?_
      intro row found
      cases found

/-! ## The bound on deliveries -/

/-- Deliveries already made, and those the row still has in its current epoch,
stay within `maxAttempts` for each epoch so far. -/
structure WithinBudget (maxAttempts : Int) (id : Nat) (session : Session) : Prop where
  spent : ((deliveries id session.history).length : Int) ≤
    maxAttempts * (1 + replayCount id session.history)
  remaining : forall row, session.state.find id = some row -> row.maxAttempts = maxAttempts ∧
    ((deliveries id session.history).length : Int) + (maxAttempts - row.attempt) ≤
      maxAttempts * (1 + replayCount id session.history)

/-- Every job the history inserted is within the budget it was inserted with. -/
def AllWithinBudget (session : Session) : Prop :=
  forall commit, commit ∈ session.history -> commit.statement.isInsert = true ->
    forall row, row ∈ commit.rows -> WithinBudget row.maxAttempts row.id session

theorem deliveries_cons (id : Nat) (commit : Commit) (history : List Commit) :
    deliveries id (commit :: history) = (commit.delivery id).toList ++ deliveries id history := by
  unfold deliveries
  rw [List.filterMap_cons]
  cases commit.delivery id <;> rfl

theorem deliveries_cons_of_none {id : Nat} {commit : Commit} {history : List Commit}
    (undelivered : commit.delivery id = none) :
    deliveries id (commit :: history) = deliveries id history := by
  rw [deliveries_cons, undelivered]
  rfl

theorem replayCount_cons_of_not {id : Nat} {commit : Commit} {history : List Commit}
    (noReplay : commit.replays id = false) :
    replayCount id (commit :: history) = replayCount id history := by
  unfold replayCount
  rw [List.countP_cons_of_neg (by rw [noReplay]; decide)]

theorem replayCount_cons_of_replays {id : Nat} {commit : Commit} {history : List Commit}
    (replays : commit.replays id = true) :
    replayCount id (commit :: history) = replayCount id history + 1 := by
  unfold replayCount
  rw [List.countP_cons_of_pos replays]

/-- A commit that neither delivers nor replays the job keeps it within its
budget, if it leaves the counter and the limit of the row alone. -/
theorem WithinBudget.of_quiet {maxAttempts : Int} {id : Nat} {session next : Session}
    {commit : Commit} (within : WithinBudget maxAttempts id session)
    (recorded : next.history = commit :: session.history)
    (undelivered : commit.delivery id = none) (noReplay : commit.replays id = false)
    (kept : forall row, next.state.find id = some row -> Exists fun old : JobRow =>
      session.state.find id = some old ∧ row.attempt = old.attempt ∧
        row.maxAttempts = old.maxAttempts) : WithinBudget maxAttempts id next := by
  constructor
  · rw [recorded, deliveries_cons_of_none undelivered, replayCount_cons_of_not noReplay]
    exact within.spent
  · rw [recorded, deliveries_cons_of_none undelivered, replayCount_cons_of_not noReplay]
    intro row found
    rcases kept row found with ⟨old, present, sameAttempt, sameMax⟩
    rw [sameAttempt, sameMax]
    exact within.remaining old present

/-- One commit keeps a job within its budget.  A claim moves one attempt from
what remains to what is spent, and a replay opens a new budget. -/
theorem WithinBudget.step {maxAttempts : Int} {id : Nat} {session : Session} {call : Call}
    {reply : Reply} (committed : call.statement.exec call.now session.state = .ok reply)
    (drawn : id < session.state.nextId) (within : WithinBudget maxAttempts id session) :
    WithinBudget maxAttempts id
      ⟨reply.db, ⟨session.state, call.now, call.statement, reply.rows⟩ :: session.history⟩ := by
  have event := JobEvent.of_exec committed id
  -- the CHECK on the row after the commit
  have bounded : forall row, reply.db.find id = some row -> row.attempt ≤ row.maxAttempts :=
    fun row found => (reply.db.job.holds (Database.find_eq_some_iff.mp found).1
      .jobAttemptBounded).2
  have quiet := @WithinBudget.of_quiet maxAttempts id session
    ⟨reply.db, ⟨session.state, call.now, call.statement, reply.rows⟩ :: session.history⟩
    _ within rfl
  have remaining := within.remaining
  generalize commitIs : Commit.mk session.state call.now call.statement reply.rows = commit
    at event quiet ⊢
  generalize session.state.find id = old at event remaining quiet
  generalize newIs : reply.db.find id = new at event bounded quiet
  cases event with
  | nothing silent =>
      have unheard := Commit.quiet_of_silent silent
      exact quiet unheard.1 unheard.2.2.1 (fun row found => ⟨row, newIs ▸ found, rfl, rfl⟩)
  | @claimed p previous claims ready delivered noInsert noReplay noEnd =>
      have left := remaining previous rfl
      have below : previous.attempt + 1 ≤ previous.maxAttempts := bounded _ rfl
      have grown : ((deliveries id (commit :: session.history)).length : Int) =
          (deliveries id session.history).length + 1 := by
        rw [deliveries_cons, delivered]
        simp only [Option.toList_some, List.singleton_append, List.length_cons, Nat.cast_add,
          Nat.cast_one]
      constructor
      · rw [grown, replayCount_cons_of_not noReplay]
        linarith [left.1, left.2]
      · rw [grown, replayCount_cons_of_not noReplay, newIs]
        intro row found
        cases found
        refine ⟨left.1, ?_⟩
        simp only [claimSet]
        linarith [left.2]
  | @replayed previous undelivered replays noInsert =>
      have left := remaining previous rfl
      have positive : (0 : Int) ≤ previous.maxAttempts := bounded _ rfl
      have another : maxAttempts * (1 + ((replayCount id session.history + 1 : Nat) : Int)) =
          maxAttempts * (1 + replayCount id session.history) + maxAttempts := by
        push_cast
        ring
      constructor
      · rw [deliveries_cons_of_none undelivered, replayCount_cons_of_replays replays, another]
        linarith [left.1, within.spent]
      · rw [deliveries_cons_of_none undelivered, replayCount_cons_of_replays replays, another,
          newIs]
        intro row found
        cases found
        refine ⟨left.1, ?_⟩
        simp only [replaySet]
        linarith [within.spent]
  | @held previous next undelivered noInsert noReplay noEnd _ _ _ sameAttempt sameMax =>
      refine quiet undelivered noReplay ?_
      intro row found
      cases found
      exact ⟨previous, rfl, sameAttempt, sameMax⟩
  | @moved previous next undelivered noInsert noReplay _ sameAttempt sameMax =>
      refine quiet undelivered noReplay ?_
      intro row found
      cases found
      exact ⟨previous, rfl, sameAttempt, sameMax⟩
  | inserted undelivered inserts fresh listed only =>
      rw [← commitIs] at fresh
      exact absurd drawn (Nat.not_lt_of_le fresh)
  | deleted undelivered noInsert noReplay =>
      refine quiet undelivered noReplay ?_
      intro row found
      cases found

/-- The commit that inserts a job starts it with its full budget: the job was
not heard of before. -/
theorem WithinBudget.of_insert {session : Session} {call : Call} {reply : Reply}
    (committed : call.statement.exec call.now session.state = .ok reply)
    (below : HistoryBelow session) (inserting : call.statement.isInsert = true) {row : JobRow}
    (listed : row ∈ reply.rows) : WithinBudget row.maxAttempts row.id
      ⟨reply.db, ⟨session.state, call.now, call.statement, reply.rows⟩ :: session.history⟩ := by
  rcases inserted_row committed inserting listed with ⟨fresh, found, asked, _, same⟩
  have unspent : deliveries row.id
      (⟨session.state, call.now, call.statement, reply.rows⟩ :: session.history) = [] := by
    apply List.filterMap_eq_nil_iff.mpr
    intro commit member
    rcases List.mem_cons.mp member with rfl | earlier
    · simp [Commit.delivery, (Statement.inserts_only inserting).1]
    · exact (Commit.quiet_of_silent (below.unheard fresh commit earlier)).1
  have attempt : row.attempt = 0 := by rw [same]; rfl
  have valid := (reply.db.job.holds (Database.find_eq_some_iff.mp found).1 .jobMaxAttemptsValid).1
  have full : row.maxAttempts ≤ row.maxAttempts * (1 + replayCount row.id
      (⟨session.state, call.now, call.statement, reply.rows⟩ :: session.history)) := by
    have replays := Int.natCast_nonneg (replayCount row.id
      (⟨session.state, call.now, call.statement, reply.rows⟩ :: session.history))
    nlinarith
  constructor
  · rw [unspent, List.length_nil, Nat.cast_zero]
    exact Int.le_trans (Int.le_trans Int.one_nonneg valid) full
  · rw [unspent, List.length_nil, Nat.cast_zero, found]
    intro other present
    cases present
    refine ⟨rfl, ?_⟩
    rw [attempt, Int.sub_zero, Int.zero_add]
    exact full

theorem AllWithinBudget.step (session : Session) (call : Call) (reply : Reply)
    (committed : call.statement.exec call.now session.state = .ok reply)
    (holds : HistoryBelow session ∧ AllWithinBudget session) :
    HistoryBelow
        ⟨reply.db, ⟨session.state, call.now, call.statement, reply.rows⟩ :: session.history⟩ ∧
      AllWithinBudget
        ⟨reply.db, ⟨session.state, call.now, call.statement, reply.rows⟩ :: session.history⟩ := by
  refine ⟨holds.1.step committed, ?_⟩
  intro commit member inserting row listed
  rcases List.mem_cons.mp member with rfl | earlier
  · exact .of_insert committed holds.1 inserting listed
  · exact (holds.2 commit earlier inserting row listed).step committed
      (holds.1 commit earlier row listed)

/-- After any run, the counter of a job is the number of its claims since it
was inserted or last replayed, stays within `maxAttempts`, and grew from claim
to claim; so the deliveries of a job are bounded by the budget it was inserted
with, once for the insertion and once for each replay. -/
theorem deliveries_bounded (partitions : List ArchivePartition) (config : QueueConfigTable)
    (calls : List Call) (id : Nat) :
    (forall row, (Session.after partitions config calls).state.find id = some row ->
      row.attempt = (epochDeliveries id (Session.after partitions config calls).history).length ∧
        row.attempt ≤ row.maxAttempts) ∧
      Increasing (epochDeliveries id (Session.after partitions config calls).history) ∧
      forall commit, commit ∈ (Session.after partitions config calls).history ->
        commit.statement.isInsert = true -> forall row, row ∈ commit.rows -> row.id = id ->
          ((deliveries id (Session.after partitions config calls).history).length : Int) ≤
            row.maxAttempts *
              (1 + replayCount id (Session.after partitions config calls).history) := by
  have tracks : CounterTracks (Session.after partitions config calls) :=
    Session.run_invariant CounterTracks.step (CounterTracks.start partitions config) calls
  have within : HistoryBelow (Session.after partitions config calls) ∧
      AllWithinBudget (Session.after partitions config calls) :=
    Session.run_invariant AllWithinBudget.step
      ⟨HistoryBelow.start _, fun _ member => absurd member List.not_mem_nil⟩ calls
  refine ⟨?_, (tracks id).1, ?_⟩
  · intro row found
    have present := (Database.find_eq_some_iff.mp found).1
    exact ⟨((tracks id).2 row found).1, (JobTable.holds _ present .jobAttemptBounded).2⟩
  · rintro commit member inserting row listed rfl
    exact (within.2 commit member inserting row listed).spent

/-! ## Claimable jobs -/

/-- Every available job has an attempt left. -/
def AttemptsLeft (db : Database) : Prop :=
  db.AllRows (fun row => row.state = .available -> row.attempt < row.maxAttempts)

/-- No claim is aborted by the bound on attempts. -/
def ClaimsUnobstructed (db : Database) : Prop :=
  forall (now : Timestamp) (statement : Statement), statement.claimParams ≠ none ->
    statement.exec now db ≠ .error (.checkViolation .jobAttemptBounded)

/-- A release that hits a row hits one with an attempt left. -/
def ReleasesBeforeLastAttempt (db : Database) (call : Call) : Prop :=
  forall p, call.statement = .releaseJob p -> forall row, row ∈ db.job.rows ->
    p.owns row = true -> row.attempt < row.maxAttempts

theorem AttemptsLeft.claimsUnobstructed {db : Database} (left : AttemptsLeft db) :
    ClaimsUnobstructed db := by
  intro now statement claims aborted
  have isUpdate : Exists fun mutation : Mutation => statement.mutation now db = some mutation := by
    cases statement <;> first | exact ⟨_, rfl⟩ | exact absurd rfl claims
  rcases isUpdate with ⟨mutation, updates⟩
  rw [Statement.exec_mutation updates] at aborted
  rcases Mutation.run_checkViolation aborted with ⟨row, member, violated⟩
  apply violated
  have bounded := db.job.holds member .jobAttemptBounded
  unfold Mutation.rewrite
  split
  · rename_i hit
    have step := RowStep.of_hits updates member hit
    generalize mutation.set row = new at step
    cases step with
    | claim claims queue ready due =>
        exact ⟨Int.le_trans bounded.1 (Int.le_of_lt (Int.lt_succ _)), left row member ready⟩
    | replay replays buried => exact ⟨Int.le_refl 0, Int.le_trans bounded.1 bounded.2⟩
    | _ => exact absurd rfl claims
  · exact bounded

/-- A step keeps attempts left for every available job, unless it releases a
last attempt.  New jobs and replayed ones start at zero, below the limit the
table checks; failing and reaping dead-letter a row without attempts. -/
theorem AttemptsLeft.step {db : Database} {call : Call} (left : AttemptsLeft db)
    (releases : ReleasesBeforeLastAttempt db call) : AttemptsLeft (db.step call) := by
  intro row member ready
  rcases Database.step_cases db call with stays | ⟨reply, committed, moves⟩
  · rw [stays] at member
    exact left row member ready
  · rw [moves] at member
    have valid := (reply.db.job.holds member .jobMaxAttemptsValid).1
    rcases exec_origin committed member with same | ⟨old, oldMem, step⟩ | ⟨asked, id, _, rfl⟩
    · exact left row same ready
    · generalize statementIs : call.statement = statement at step
      cases step with
      | replay replays buried => exact valid
      | failRetry owned retryable remaining => exact remaining
      | reapRetry expired remaining => exact remaining
      | release owned => exact releases _ statementIs old oldMem owned
      | retryNow same waiting => exact left old oldMem waiting
      | heartbeat owned =>
          have started := (FenceParams.owns_iff.mp owned).2.1
          cases started.symm.trans ready
      | requestCancel same started => cases started.symm.trans ready
      | _ => cases ready
    · exact valid

/-- A release of the last attempt leaves an available job without attempts. -/
theorem not_attemptsLeft_of_release {db : Database} {call : Call}
    (releases : Not (ReleasesBeforeLastAttempt db call)) : Not (AttemptsLeft (db.step call)) := by
  simp only [ReleasesBeforeLastAttempt, not_forall, not_lt] at releases
  rcases releases with ⟨p, isRelease, row, member, owned, last⟩
  rcases releaseJob_commits db p call.now with ⟨reply, committed⟩
  intro left
  have executed : call.statement.exec call.now db = .ok reply := by
    rw [isRelease]
    exact committed
  have released : (releaseJob p call.now).set row ∈ (db.step call).job.rows := by
    unfold Database.step
    rw [executed, (Mutation.run_ok committed).1]
    exact List.mem_map.mpr ⟨row, member, if_pos owned⟩
  exact absurd (left _ released rfl) (Int.not_lt.mpr last)

/-- In a run from an empty table, every available job has an attempt left and
no claim is aborted for want of one, in every state visited, exactly when each
release hits a job before its last attempt. -/
theorem claims_unobstructed_iff (partitions : List ArchivePartition) (config : QueueConfigTable)
    (calls : List Call) :
    Always Database.step (fun db => AttemptsLeft db ∧ ClaimsUnobstructed db)
        (.empty partitions config) calls <->
      EachStep Database.step ReleasesBeforeLastAttempt (.empty partitions config) calls := by
  apply @always_iff_eachStep _ _ Database.step AttemptsLeft
  · exact fun db left => ⟨left, left.claimsUnobstructed⟩
  · exact fun db call left releases => left.step releases
  · exact fun db call _ releases both => not_attemptsLeft_of_release releases both.1
  · exact allRows_empty _ partitions config

/-- A job with one attempt is claimed and released on shutdown; a second job
waits in the same queue. -/
def releasedLastAttempt : Database :=
  run Database.step (.empty [] .empty) (claimedOnce 1 ++
    [⟨0, .releaseJob ⟨1, "w", 1⟩⟩, ⟨0, .insertJob (plainEnqueue 3)⟩])

/-- From then on, each claim that selects the released job aborts as a whole. -/
theorem released_job_obstructs_claims :
    Not (AttemptsLeft releasedLastAttempt) ∧ Not (ClaimsUnobstructed releasedLastAttempt) := by
  constructor
  · intro left
    have stuck : Exists fun row : JobRow => row ∈ releasedLastAttempt.job.rows ∧
        row.state = .available ∧ row.maxAttempts ≤ row.attempt := by decide
    rcases stuck with ⟨row, member, ready, exhausted⟩
    exact absurd (left row member ready) (Int.not_lt.mpr exhausted)
  · intro unobstructed
    refine unobstructed 0 (.claimJobs ⟨"mail", 10, "w"⟩ []) (by decide) ?_
    rfl

end PgJobQ
