import PgJobQ.Lifecycle.StateMachine
import PgJobQ.Lifecycle.History

/-!
# Requests for cancellation

`requestCancelRunningJob` leaves a running job running and sets a column.  The
job can leave `running` before its worker has seen the request: a failure is
retried, the lease expires, or the worker is shut down.  Each of the three
statements returns the job to its queue with the column still set, and a claim
does not look at the column.

A request stands until the job is replayed.  While one stands no claim may
deliver the job.  This holds in every state of a run exactly when no step makes
such a job deliverable: by returning it to an open queue while it has attempts
left, or by opening the queue on which it waits.
-/

namespace PgJobQ

open Runs

/-- The statement asks for the cancellation of a running job. -/
def Statement.isRequest : Statement -> Bool
  | requestCancelRunningJob _ => true
  | _ => false

theorem Statement.requests_only {statement : Statement} (requests : statement.isRequest = true) :
    statement.claimParams = none ∧ statement.isReplay = false ∧ statement.enqueueRows = [] := by
  cases statement <;> first | exact ⟨rfl, rfl, rfl⟩ | cases requests

/-- A request hit the job. -/
def Commit.requests (id : Nat) (commit : Commit) : Bool :=
  commit.statement.isRequest && (commit.returned id).isSome

/-- A request has hit the job since it was last replayed. -/
def requestStands (id : Nat) (history : List Commit) : Bool :=
  (history.takeWhile (fun commit => !commit.replays id)).any (Commit.requests id)

theorem requestStands_cons (id : Nat) (commit : Commit) (history : List Commit) :
    requestStands id (commit :: history) =
      (!commit.replays id && (commit.requests id || requestStands id history)) := by
  unfold requestStands
  cases replayed : commit.replays id with
  | true => simp [replayed]
  | false => simp [replayed]

/-- A history that does not speak of the job holds no request for it. -/
theorem requestStands_of_unheard {id : Nat} {history : List Commit}
    (unheard : forall commit, commit ∈ history -> commit.returned id = none) :
    requestStands id history = false := by
  induction history with
  | nil => rfl
  | cons commit history inductionHypothesis =>
      rw [requestStands_cons,
        inductionHypothesis (fun later member => unheard later (List.mem_cons_of_mem _ member))]
      simp [Commit.requests, unheard commit List.mem_cons_self]

/-- No claim that could be made now delivers a job for which a request stands. -/
def RequestsRespected (session : Session) : Prop :=
  forall (now : Timestamp) (claim : Statement) (p : ClaimParams) (reply : Reply),
    claim.claimParams = some p -> claim.exec now session.state = .ok reply ->
      forall row, row ∈ reply.rows -> requestStands row.id session.history = false

/-- The statement returns a running job with attempts left to its queue: the
worker releases it, reports a failure that can be retried, or lost its lease. -/
def Call.returnsToQueue (call : Call) (db : Database) (row : JobRow) : Prop :=
  match call.statement with
  | .releaseJob p => p.owns row = true
  | .failJob p => p.owns row = true ∧ p.nonRetryable = false
  | .reapExpiredLeases p locked => (reapExpiredLeases p locked call.now db).hits row = true
  | _ => False

/-- The call makes a job deliverable for which a request stands. -/
def Exposes (session : Session) (call : Call) : Prop :=
  Exists fun row : JobRow => row ∈ session.state.job.rows ∧
    requestStands row.id session.history = true ∧ row.attempt < row.maxAttempts ∧
      ((queuePaused session.state.queueConfig row.queue = false ∧
          call.returnsToQueue session.state row) ∨
        (row.state = .available ∧ call.statement = .setQueuePaused row.queue false))

/-! ## What a claim can deliver -/

/-- Some claim delivers the job. -/
def Deliverable (config : QueueConfigTable) (row : JobRow) : Prop :=
  row.state = .available ∧ queuePaused config row.queue = false ∧ row.attempt < row.maxAttempts

/-- What a claim returns was deliverable. -/
theorem deliverable_of_claimed {now : Timestamp} {db : Database} {claim : Statement}
    {p : ClaimParams} {reply : Reply} (claims : claim.claimParams = some p)
    (committed : claim.exec now db = .ok reply) {row : JobRow} (listed : row ∈ reply.rows) :
    Exists fun old : JobRow => old ∈ db.job.rows ∧ old.id = row.id ∧
      Deliverable db.queueConfig old := by
  have delivered : forall mutation : Mutation, mutation.run db = .ok reply ->
      mutation.set = claimSet p.workerId now ->
        (forall old, old ∈ db.job.rows -> mutation.hits old = true ->
          claimable db.queueConfig p now old = true) ->
          Exists fun old : JobRow => old ∈ db.job.rows ∧ old.id = row.id ∧
            Deliverable db.queueConfig old := by
    intro mutation ran sets selects
    have done := Mutation.run_ok ran
    rw [done.2.1] at listed
    rcases Mutation.mem_returning.mp listed with ⟨old, member, hit, same⟩
    have guard := claimable_iff.mp (selects old member hit)
    have present : row ∈ reply.db.job.rows := by
      rw [done.1]
      exact List.mem_map.mpr ⟨old, member, (if_pos hit).trans same⟩
    have bounded := (reply.db.job.holds present .jobAttemptBounded).2
    rw [← same, sets] at bounded
    exact ⟨old, member, by rw [← same, mutation.keepsId], guard.2.1, guard.2.2.2,
      Int.lt_of_add_one_le bounded⟩
  have selected : forall {before : JobRow -> JobRow -> Prop} [DecidableRel before]
      {locked : List Nat} (old : JobRow), old ∈ db.job.rows ->
        (lockCandidates before (claimable db.queueConfig p now) p.limit locked
          db.job.rows).contains old.id = true -> claimable db.queueConfig p now old = true := by
    intro before _ locked old member contained
    rcases mem_lockCandidates (List.contains_iff_mem.mp contained) with ⟨other, otherMem, chosen, same⟩
    rwa [← db.job.eq_of_id otherMem member same]
  cases claim with
  | claimJobs params locked =>
      cases claims
      exact delivered _ committed rfl selected
  | claimJobsWithAging params threshold locked =>
      cases claims
      exact delivered _ committed rfl selected
  | _ => cases claims

/-- When all other rows are locked, the scan locks the one that is left. -/
theorem lockCandidates_only {before : JobRow -> JobRow -> Prop} [DecidableRel before]
    {selects : JobRow -> Bool} {limit : Nat} {locked : List Nat} {rows : List JobRow}
    {row : JobRow} (positive : 0 < limit) (member : row ∈ rows) (selected : selects row = true)
    (unlocked : Not (row.id ∈ locked))
    (others : forall other, other ∈ rows -> other.id ≠ row.id -> other.id ∈ locked) :
    row.id ∈ lockCandidates before selects limit locked rows ∧
      forall id, id ∈ lockCandidates before selects limit locked rows -> id = row.id := by
  unfold lockCandidates
  have scanned : row.id ∈ (((rows.filter selects).insertionSort before).map JobRow.id).filter
      (fun id => !locked.contains id) := by
    have sorted := (List.mem_insertionSort before).mpr (List.mem_filter.mpr ⟨member, selected⟩)
    exact List.mem_filter.mpr ⟨List.mem_map_of_mem sorted, by simpa using unlocked⟩
  have alone : forall id, id ∈ (((rows.filter selects).insertionSort before).map
      JobRow.id).filter (fun id => !locked.contains id) -> id = row.id := by
    intro id listed
    have kept := List.mem_filter.mp listed
    rcases List.mem_map.mp kept.1 with ⟨other, sorted, rfl⟩
    have present := (List.mem_filter.mp ((List.mem_insertionSort before).mp sorted)).1
    by_contra different
    have blocked := others other present different
    simp [blocked] at kept
  generalize (((rows.filter selects).insertionSort before).map JobRow.id).filter
    (fun id => !locked.contains id) = candidates at scanned alone
  refine ⟨?_, fun id taken => alone id (List.mem_of_mem_take taken)⟩
  cases candidates with
  | nil => cases scanned
  | cons first rest =>
      cases limit with
      | zero => exact absurd positive (Nat.lt_irrefl 0)
      | succ limit =>
          rw [alone first List.mem_cons_self]
          exact List.mem_cons_self

/-- A claim keeps the checks of a row with attempts left. -/
theorem claimSet_checked {row : JobRow} (checked : row.Checked)
    (remaining : row.attempt < row.maxAttempts) (worker : String) (now : Timestamp) :
    (claimSet worker now row).Checked := by
  have before := (JobRow.checked_iff row).mp checked
  apply (JobRow.checked_iff _).mpr
  intro constraint
  cases constraint with
  | prioritySmallint => exact before .prioritySmallint
  | jobAttemptBounded =>
      exact ⟨Int.le_add_one (before .jobAttemptBounded).1, Int.add_one_le_of_lt remaining⟩
  | jobDeadHasReason => exact Or.inl JobState.noConfusion
  | jobLeasePositive => exact before .jobLeasePositive
  | jobMaxAttemptsValid => exact before .jobMaxAttemptsValid
  | jobRunningHasLease => exact Or.inr ⟨Option.some_ne_none _, Option.some_ne_none _⟩
  | jobTerminalFinished => exact Or.inl rfl

/-- A claim of one job, with all others locked. -/
def claimOnly (db : Database) (row : JobRow) : Statement :=
  .claimJobs ⟨row.queue, 1, "w"⟩ ((db.job.rows.map JobRow.id).filter (fun id => id ≠ row.id))

/-- A job that is deliverable is delivered by a claim at the time it is due. -/
theorem claimed_of_deliverable {db : Database} {row : JobRow} (member : row ∈ db.job.rows)
    (deliverable : Deliverable db.queueConfig row) :
    Exists fun reply : Reply => (claimOnly db row).exec row.runAt db = .ok reply ∧
      claimSet "w" row.runAt row ∈ reply.rows := by
  let locked := (db.job.rows.map JobRow.id).filter (fun id => id ≠ row.id)
  let claim := claimJobs ⟨row.queue, 1, "w"⟩ locked row.runAt db
  have selected : claimable db.queueConfig ⟨row.queue, 1, "w"⟩ row.runAt row = true :=
    claimable_iff.mpr ⟨rfl, deliverable.1, Int.le_refl _, deliverable.2.1⟩
  have others : forall other, other ∈ db.job.rows -> other.id ≠ row.id -> other.id ∈ locked :=
    fun other otherMem different =>
      List.mem_filter.mpr ⟨List.mem_map_of_mem otherMem, decide_eq_true different⟩
  have candidates := @lockCandidates_only claimOrder _ _ 1 locked _ _ Nat.one_pos member selected
    (by simp [locked]) others
  have onlyRow : forall other, other ∈ db.job.rows -> claim.hits other = true -> other = row :=
    fun other otherMem hit => db.job.eq_of_id otherMem member
      (candidates.2 other.id (List.contains_iff_mem.mp hit))
  have commits : Exists fun reply : Reply => claim.run db = .ok reply := by
    apply Mutation.run_commits_of_hits
    · intro other otherMem hit
      rw [onlyRow other otherMem hit]
      exact claimSet_checked (db.job.constraints.checked row member) deliverable.2.2 _ _
    · intro other
      rfl
    · intro other otherMem hit
      refine Or.inl ?_
      show (claimSet _ _ other).uniqueActiveIdx = other.uniqueActiveIdx
      rw [onlyRow other otherMem hit]
      simp [claimSet, JobRow.uniqueActiveIdx, JobState.isActive, deliverable.1]
  rcases commits with ⟨reply, committed⟩
  refine ⟨reply, committed, ?_⟩
  rw [(Mutation.run_ok committed).2.1]
  exact Mutation.mem_returning.mpr ⟨row, member, List.contains_iff_mem.mpr candidates.1, rfl⟩

/-! ## What returns a job to its queue -/

/-- Opening or closing a queue touches no other queue. -/
theorem queuePaused_setPaused (config : QueueConfigTable) (queue other : String) (paused : Bool) :
    queuePaused (config.setPaused queue paused) other =
      if other = queue then paused else queuePaused config other := by
  unfold queuePaused
  rw [forQueue_setPaused]
  split
  · rfl
  · rfl

/-- A job that is returned to its queue waits there with its attempts. -/
theorem waits_of_returnsToQueue {call : Call} {db : Database} {row : JobRow}
    (returns : call.returnsToQueue db row) (remaining : row.attempt < row.maxAttempts) :
    call.statement.isReplay = false ∧ Exists fun mutation : Mutation =>
      call.statement.mutation call.now db = some mutation ∧ mutation.hits row = true ∧
        (Exists fun reply : Reply => mutation.run db = .ok reply) ∧
          (mutation.set row).state = .available ∧ (mutation.set row).queue = row.queue ∧
            (mutation.set row).attempt = row.attempt ∧
              (mutation.set row).maxAttempts = row.maxAttempts := by
  rcases call with ⟨now, statement⟩
  have few := Int.not_le.mpr remaining
  cases statement with
  | releaseJob p =>
      exact ⟨rfl, _, rfl, returns, releaseJob_commits db p now, rfl, rfl, rfl, rfl⟩
  | failJob p =>
      refine ⟨rfl, _, rfl, returns.1, failJob_commits db p now, ?_, rfl, rfl, rfl⟩
      simp [failJob, returns.2, few]
  | reapExpiredLeases p locked =>
      refine ⟨rfl, _, rfl, returns, reapExpiredLeases_commits db p locked now, ?_, rfl, rfl, rfl⟩
      simp [reapExpiredLeases, few]
  | _ => cases returns

/-- A statement other than `setQueuePaused` opens and closes no queue. -/
theorem exec_queueConfig {now : Timestamp} {db : Database} {statement : Statement} {reply : Reply}
    (committed : statement.exec now db = .ok reply)
    (other : forall queue paused, statement ≠ .setQueuePaused queue paused) :
    reply.db.queueConfig = db.queueConfig := by
  cases updates : statement.mutation now db with
  | some mutation =>
      rw [Statement.exec_mutation updates] at committed
      exact (Mutation.run_ok committed).2.2.2.2.2
  | none =>
      cases statement with
      | setQueuePaused queue paused => exact absurd rfl (other queue paused)
      | insertJob row =>
          change PgJobQ.insertJob row now db = .ok reply at committed
          rw [insertJob_eq_batch] at committed
          exact (insertJobsBatch_frame committed).2.2
      | insertJobsBatch rows => exact (insertJobsBatch_frame committed).2.2
      | pruneTerminalJobs p locked =>
          rw [pruneTerminalJobs_ok committed]
          rfl
      | archiveTerminalJobs p locked =>
          rw [archiveTerminalJobs_ok committed]
          rfl
      | purgeQueue queue states limit locked =>
          cases committed
          rfl
      | _ => cases updates

/-! ## The invariant -/

/-- A job for which a request stands is not deliverable. -/
structure RequestInvariant (session : Session) : Prop where
  below : HistoryBelow session
  undeliverable : forall row, row ∈ session.state.job.rows ->
    requestStands row.id session.history = true ->
      Not (Deliverable session.state.queueConfig row)

namespace RequestInvariant

variable {session : Session} {call : Call} {reply : Reply}

theorem start (partitions : List ArchivePartition) (config : QueueConfigTable) :
    RequestInvariant (Session.start (.empty partitions config)) where
  below := HistoryBelow.start _
  undeliverable := fun _ member => absurd member List.not_mem_nil

theorem respected (invariant : RequestInvariant session) : RequestsRespected session := by
  intro now claim p reply claims committed row listed
  rcases deliverable_of_claimed claims committed listed with ⟨old, member, same, deliverable⟩
  rw [Bool.eq_false_iff, ← same]
  exact fun stands => invariant.undeliverable old member stands deliverable

/-- A row that the statement does not change can become deliverable only when
its queue is opened. -/
theorem kept_undeliverable (invariant : RequestInvariant session)
    (committed : call.statement.exec call.now session.state = .ok reply)
    (concealed : Not (Exposes session call)) {row : JobRow}
    (member : row ∈ session.state.job.rows)
    (stands : requestStands row.id session.history = true) :
    Not (Deliverable reply.db.queueConfig row) := by
  rintro ⟨waiting, opened, remaining⟩
  have before := invariant.undeliverable row member stands
  by_cases opens : Exists fun queue : String => Exists fun paused : Bool =>
      call.statement = .setQueuePaused queue paused
  · rcases opens with ⟨queue, paused, isSet⟩
    rw [isSet] at committed
    cases committed
    rw [queuePaused_setPaused] at opened
    split at opened
    · rename_i same
      subst same opened
      exact concealed ⟨row, member, stands, remaining, Or.inr ⟨waiting, isSet⟩⟩
    · exact before ⟨waiting, opened, remaining⟩
  · rw [exec_queueConfig committed (fun queue paused same => opens ⟨queue, paused, same⟩)] at opened
    exact before ⟨waiting, opened, remaining⟩

/-- A row the statement changes becomes deliverable only when it is returned to
its queue. -/
theorem changed_undeliverable (invariant : RequestInvariant session)
    (committed : call.statement.exec call.now session.state = .ok reply)
    (concealed : Not (Exposes session call)) {old new : JobRow}
    (step : RowStep call.now call.statement old new) (member : old ∈ session.state.job.rows)
    (listed : new ∈ reply.rows) (same : new.id = old.id)
    (stands : requestStands old.id session.history = true)
    (unreplayed : call.statement.isReplay = false) :
    Not (Deliverable reply.db.queueConfig new) := by
  rcases call with ⟨now, statement⟩
  have sameConfig : (forall queue paused, statement ≠ .setQueuePaused queue paused) ->
      reply.db.queueConfig = session.state.queueConfig := exec_queueConfig committed
  have before := invariant.undeliverable old member stands
  rintro ⟨waiting, opened, remaining⟩
  have returned : old.queue = new.queue -> old.attempt = new.attempt ->
      old.maxAttempts = new.maxAttempts ->
        (forall queue paused, statement ≠ .setQueuePaused queue paused) ->
          Not (Call.returnsToQueue ⟨now, statement⟩ session.state old) := by
    intro sameQueue sameAttempt sameMax other returns
    rw [sameConfig other, ← sameQueue] at opened
    rw [← sameAttempt, ← sameMax] at remaining
    exact concealed ⟨old, member, stands, remaining, Or.inl ⟨opened, returns⟩⟩
  cases step with
  | claim claims queue ready due => cases waiting
  | complete owned => cases waiting
  | failNonRetryable owned final => cases waiting
  | failExhausted owned retryable exhausted => cases waiting
  | failRetry owned retryable left =>
      exact returned rfl rfl rfl (fun _ _ => Statement.noConfusion) ⟨owned, retryable⟩
  | heartbeat owned =>
      have started := (FenceParams.owns_iff.mp owned).2.1
      exact JobState.noConfusion (waiting.symm.trans started)
  | acknowledge owned requested => cases waiting
  | release owned => exact returned rfl rfl rfl (fun _ _ => Statement.noConfusion) owned
  | reapExhausted expired exhausted => cases waiting
  | @reapRetry p locked expired left =>
      have ran : (reapExpiredLeases p locked now session.state).run session.state = .ok reply :=
        committed
      rw [(Mutation.run_ok ran).2.1] at listed
      rcases Mutation.mem_returning.mp listed with ⟨source, sourceMem, hit, isNew⟩
      have sameSource : source.id = old.id := by
        rw [← same, ← isNew]
        exact ((reapExpiredLeases p locked now session.state).keepsId source).symm
      rw [session.state.job.eq_of_id sourceMem member sameSource] at hit
      exact returned rfl rfl rfl (fun _ _ => Statement.noConfusion) hit
  | cancelAvailable named ready => cases waiting
  | requestCancel named started => exact JobState.noConfusion (waiting.symm.trans started)
  | retryNow named ready =>
      rw [sameConfig (fun _ _ => Statement.noConfusion)] at opened
      exact before ⟨ready, opened, remaining⟩
  | replay replays buried =>
      rw [unreplayed] at replays
      cases replays

/-- A request in the history of the next session is one that stood before, or
the statement is the request, and then the job runs. -/
theorem stood_or_requested {id : Nat} {old new : JobRow}
    (step : RowStep call.now call.statement old new)
    (stands : requestStands id
      (⟨session.state, call.now, call.statement, reply.rows⟩ :: session.history) = true) :
    requestStands id session.history = true ∨ new.state = .running := by
  rw [requestStands_cons, Bool.and_eq_true, Bool.or_eq_true] at stands
  rcases stands.2 with requested | stood
  · have isRequest := (Bool.and_eq_true_iff.mp requested).1
    generalize call.statement = statement at step isRequest
    cases step with
    | requestCancel named started => exact Or.inr started
    | claim claims queue ready due =>
        rw [(Statement.requests_only isRequest).1] at claims
        cases claims
    | replay replays buried =>
        rw [(Statement.requests_only isRequest).2.1] at replays
        cases replays
    | _ => cases isRequest
  · exact Or.inl stood

theorem step (invariant : RequestInvariant session)
    (committed : call.statement.exec call.now session.state = .ok reply)
    (concealed : Not (Exposes session call)) :
    RequestInvariant
      ⟨reply.db, ⟨session.state, call.now, call.statement, reply.rows⟩ :: session.history⟩ where
  below := invariant.below.step committed
  undeliverable := by
    intro row member stands
    cases exec_rowOrigin committed member with
    | kept present silent =>
        have unreturned : Commit.returned row.id
            ⟨session.state, call.now, call.statement, reply.rows⟩ = none :=
          Commit.returned_eq_none silent
        rw [requestStands_cons] at stands
        simp only [Commit.replays, Commit.requests, unreturned, Option.isSome_none, Bool.and_false,
          Bool.not_false, Bool.false_or, Bool.true_and] at stands
        exact invariant.kept_undeliverable committed concealed present stands
    | stepped present same rowStep listed =>
        rcases stood_or_requested rowStep stands with stood | runs
        · have unreplayed : call.statement.isReplay = false := by
            rw [requestStands_cons, Bool.and_eq_true] at stands
            have found := @Commit.returned_isSome
              ⟨session.state, call.now, call.statement, reply.rows⟩ row listed
            have passed := stands.1
            rw [Commit.replays, found, Bool.and_true] at passed
            simpa using passed
          exact invariant.changed_undeliverable committed concealed rowStep present listed
            same.symm (same ▸ stood) unreplayed
        · exact fun deliverable => JobState.noConfusion (deliverable.1.symm.trans runs)
    | inserted asked fresh isNew =>
        have noRequest : call.statement.isRequest = false := by
          rw [Bool.eq_false_iff]
          intro isRequest
          rw [(Statement.requests_only isRequest).2.2] at asked
          cases asked
        rw [requestStands_cons, requestStands_of_unheard (invariant.below.unheard fresh),
          Commit.requests, noRequest, Bool.false_and, Bool.or_self, Bool.and_false] at stands
        cases stands

end RequestInvariant

/-! ## Runs -/

/-- A step that exposes a job leaves it deliverable, and the request stands. -/
theorem exists_deliverable_of_exposes {session : Session} {call : Call}
    (exposes : Exposes session call) :
    Exists fun row : JobRow => row ∈ (session.step call).state.job.rows ∧
      requestStands row.id (session.step call).history = true ∧
        Deliverable (session.step call).state.queueConfig row := by
  rcases exposes with
    ⟨row, member, stands, remaining, ⟨opened, returns⟩ | ⟨waiting, opens⟩⟩
  · rcases waits_of_returnsToQueue returns remaining with ⟨unreplayed, mutation, updates, hit,
      ⟨reply, ran⟩, waits, sameQueue, sameAttempt, sameMax⟩
    have committed : call.statement.exec call.now session.state = .ok reply :=
      (Statement.exec_mutation updates).trans ran
    have done := Mutation.run_ok ran
    rw [Session.step_of_ok committed]
    refine ⟨mutation.set row, ?_, ?_, waits, ?_, ?_⟩
    · rw [done.1]
      exact List.mem_map.mpr ⟨row, member, if_pos hit⟩
    · rw [mutation.keepsId, requestStands_cons, Commit.replays, unreplayed, stands]
      simp
    · rw [sameQueue, done.2.2.2.2.2]
      exact opened
    · rw [sameAttempt, sameMax]
      exact remaining
  · have committed : call.statement.exec call.now session.state =
        .ok ⟨{ session.state with
          queueConfig := session.state.queueConfig.setPaused row.queue false }, []⟩ := by
      rw [opens]
      rfl
    rw [Session.step_of_ok committed]
    refine ⟨row, member, ?_, waiting, ?_, remaining⟩
    · rw [requestStands_cons, Commit.replays, stands, opens]
      rfl
    · exact (queuePaused_setPaused _ _ _ _).trans (if_pos rfl)

/-- In a run from an empty table no claim can deliver a job whose cancellation
was accepted and that was not replayed since, in every state visited, exactly
when no step of the run exposes such a job. -/
theorem requests_respected_iff (partitions : List ArchivePartition) (config : QueueConfigTable)
    (calls : List Call) :
    Always Session.step RequestsRespected (Session.start (.empty partitions config)) calls <->
      EachStep Session.step (fun session call => Not (Exposes session call))
        (Session.start (.empty partitions config)) calls := by
  apply @always_iff_eachStep _ _ Session.step RequestInvariant
  · exact fun session invariant => invariant.respected
  · intro session call invariant concealed
    rcases session.step_cases call with stays | ⟨reply, committed, moves⟩
    · rw [stays]
      exact invariant
    · rw [moves]
      exact invariant.step committed concealed
  · intro session call invariant exposes respected
    rcases exists_deliverable_of_exposes (not_not.mp exposes) with
      ⟨row, member, stands, deliverable⟩
    rcases claimed_of_deliverable member deliverable with ⟨reply, committed, listed⟩
    have forgotten := respected row.runAt _ _ reply rfl committed _ listed
    exact Bool.noConfusion (stands.symm.trans forgotten)
  · exact RequestInvariant.start partitions config

/-- Worker `w` claims a job, its cancellation is accepted, and the delivery
fails before a heartbeat has seen the request. -/
def failedWhileRequested : List Call :=
  claimedOnce 2 ++ [⟨seconds 1, .requestCancelRunningJob 1⟩,
    ⟨seconds 2, .failJob ⟨⟨1, "w", 1⟩, false, 0, 5, plainError⟩⟩]

/-- The job is delivered a second time. -/
theorem requested_job_redelivered :
    Not (RequestsRespected (Session.after [] .empty failedWhileRequested)) := by
  intro respected
  have forgotten := respected (seconds 8) (.claimJobs ⟨"mail", 1, "v"⟩ []) _ _ rfl rfl _
    (List.mem_of_getElem? (i := 0) rfl)
  exact absurd forgotten (by decide)

/-- A delivery is of a job for which no request stands. -/
def Commit.Respects (earlier : List Commit) (commit : Commit) : Prop :=
  commit.statement.claimParams.isSome = true ->
    forall row, row ∈ commit.rows -> requestStands row.id earlier = false

/-- What no claim can do in any state of a run, no claim of the run did. -/
theorem deliveries_respect_requests {session : Session} {calls : List Call}
    (always : Always Session.step RequestsRespected session calls)
    (before : EachEvent Commit.Respects session.history) :
    EachEvent Commit.Respects (run Session.step session calls).history := by
  induction calls generalizing session with
  | nil => exact before
  | cons call calls inductionHypothesis =>
      refine inductionHypothesis always.2 (eachEvent_recordStep.mpr ⟨?_, before⟩)
      intro commit made claims row listed
      unfold Database.commit at made
      split at made
      · rename_i reply committed
        cases made
        rcases Option.isSome_iff_exists.mp claims with ⟨p, isClaim⟩
        exact always.1 call.now call.statement p reply isClaim committed row listed
      · cases made

end PgJobQ
