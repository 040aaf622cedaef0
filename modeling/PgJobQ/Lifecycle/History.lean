import PgJobQ.Statements.Effects

/-!
# The history of one job

A session records every commit.  Read for one job, a commit is a delivery of
it, a replay of it, its insertion, or none of these, and which one it is
follows from the effect the commit had on the row.  The claims of a job since
its insertion or its latest replay form its current epoch.

Ids are never drawn twice, so nothing in the history speaks about a job before
it was inserted.
-/

namespace PgJobQ

open Runs

/-- The statement puts new jobs into the table. -/
def Statement.isInsert : Statement -> Bool
  | insertJob _ => true
  | insertJobsBatch _ => true
  | _ => false

/-- The statement takes a running job away from the worker that holds it. -/
def Statement.endsDelivery : Statement -> Bool
  | completeJob _ => true
  | failJob _ => true
  | acknowledgeCancellation _ => true
  | releaseJob _ => true
  | reapExpiredLeases _ _ => true
  | _ => false

namespace Commit

/-- The row of the job in the `RETURNING` list. -/
def returned (id : Nat) (commit : Commit) : Option JobRow :=
  commit.rows.find? (fun row => row.id == id)

/-- The row as a claim handed it out. -/
def delivery (id : Nat) (commit : Commit) : Option JobRow :=
  if commit.statement.claimParams.isSome then commit.returned id else none

def inserts (id : Nat) (commit : Commit) : Bool :=
  commit.statement.isInsert && (commit.returned id).isSome

def replays (id : Nat) (commit : Commit) : Bool :=
  commit.statement.isReplay && (commit.returned id).isSome

def ends (id : Nat) (commit : Commit) : Bool :=
  commit.statement.endsDelivery && (commit.returned id).isSome

theorem returned_eq_none {id : Nat} {commit : Commit}
    (silent : forall row, row ∈ commit.rows -> row.id ≠ id) : commit.returned id = none := by
  simp only [returned, List.find?_eq_none, beq_iff_eq]
  exact silent

theorem returned_eq_some {id : Nat} {commit : Commit} {row : JobRow} (listed : row ∈ commit.rows)
    (same : row.id = id) (only : forall other, other ∈ commit.rows -> other.id = id -> other = row) :
    commit.returned id = some row := by
  cases found : commit.returned id with
  | none =>
      have absent := List.find?_eq_none.mp found row listed
      simp [same] at absent
  | some other =>
      have otherId : other.id = id := by simpa using List.find?_some found
      rw [only other (List.mem_of_find?_eq_some found) otherId]

theorem mem_of_returned {id : Nat} {commit : Commit} {row : JobRow}
    (returned : commit.returned id = some row) : row ∈ commit.rows ∧ row.id = id :=
  ⟨List.mem_of_find?_eq_some returned, by simpa using List.find?_some returned⟩

theorem returned_isSome {commit : Commit} {row : JobRow} (listed : row ∈ commit.rows) :
    (commit.returned row.id).isSome = true := by
  cases found : commit.returned row.id with
  | none => exact absurd (beq_self_eq_true row.id) (List.find?_eq_none.mp found row listed)
  | some other => rfl

theorem mem_of_delivery {id : Nat} {commit : Commit} {row : JobRow}
    (delivered : commit.delivery id = some row) : row ∈ commit.rows ∧ row.id = id := by
  unfold delivery at delivered
  split at delivered
  · exact mem_of_returned delivered
  · cases delivered

/-- A commit that does not return the job is no event to it. -/
theorem quiet_of_silent {id : Nat} {commit : Commit} (silent : commit.returned id = none) :
    commit.delivery id = none ∧ commit.inserts id = false ∧ commit.replays id = false ∧
      commit.ends id = false := by
  simp [delivery, inserts, replays, ends, silent]

end Commit

/-! ## Deliveries and epochs -/

/-- Every delivery of the job, newest first. -/
def deliveries (id : Nat) (history : List Commit) : List JobRow :=
  history.filterMap (Commit.delivery id)

/-- The commits since the job was inserted or last replayed, newest first. -/
def epoch (id : Nat) (history : List Commit) : List Commit :=
  history.takeWhile (fun commit => !(commit.inserts id || commit.replays id))

def epochDeliveries (id : Nat) (history : List Commit) : List JobRow :=
  deliveries id (epoch id history)

def replayCount (id : Nat) (history : List Commit) : Nat :=
  history.countP (Commit.replays id)

theorem epochDeliveries_cons_of_not {id : Nat} {commit : Commit} {history : List Commit}
    (noInsert : commit.inserts id = false) (noReplay : commit.replays id = false) :
    epochDeliveries id (commit :: history) =
      (commit.delivery id).toList ++ epochDeliveries id history := by
  simp only [epochDeliveries, epoch, deliveries, noInsert, noReplay, Bool.or_self, Bool.not_false,
    List.takeWhile_cons_of_pos, List.filterMap_cons]
  cases commit.delivery id <;> rfl

theorem epochDeliveries_cons_of_starts {id : Nat} {commit : Commit} {history : List Commit}
    (starts : commit.inserts id = true ∨ commit.replays id = true) :
    epochDeliveries id (commit :: history) = [] := by
  have cut : (commit.inserts id || commit.replays id) = true := Bool.or_eq_true_iff.mpr starts
  simp only [epochDeliveries, epoch, deliveries, List.takeWhile_cons, cut, Bool.not_true,
    Bool.false_eq_true, if_false, List.filterMap_nil]

/-! ## What a commit is to a job -/

/-- A commit read for one job: the row before and after it, and which kind of
event it is in the job's history. -/
inductive JobEvent (commit : Commit) (id : Nat) : Option JobRow -> Option JobRow -> Prop where
  | nothing {job} (silent : commit.returned id = none) : JobEvent commit id job job
  | claimed {p old} (claims : commit.statement.claimParams = some p)
      (ready : old.state = .available)
      (delivered : commit.delivery id = some (claimSet p.workerId commit.now old))
      (noInsert : commit.inserts id = false) (noReplay : commit.replays id = false)
      (noEnd : commit.ends id = false) :
      JobEvent commit id (some old) (some (claimSet p.workerId commit.now old))
  | replayed {old} (undelivered : commit.delivery id = none)
      (replays : commit.replays id = true) (noInsert : commit.inserts id = false) :
      JobEvent commit id (some old) (some (replaySet commit.now old))
  | held {old new} (undelivered : commit.delivery id = none) (noInsert : commit.inserts id = false)
      (noReplay : commit.replays id = false) (noEnd : commit.ends id = false)
      (started : old.state = .running) (stillRunning : new.state = .running)
      (sameWorker : new.workerId = old.workerId) (sameAttempt : new.attempt = old.attempt)
      (sameMax : new.maxAttempts = old.maxAttempts) : JobEvent commit id (some old) (some new)
  | moved {old new} (undelivered : commit.delivery id = none)
      (noInsert : commit.inserts id = false) (noReplay : commit.replays id = false)
      (notRunning : new.state ≠ .running) (sameAttempt : new.attempt = old.attempt)
      (sameMax : new.maxAttempts = old.maxAttempts) : JobEvent commit id (some old) (some new)
  | inserted {asked : EnqueueRow} (undelivered : commit.delivery id = none)
      (inserts : commit.inserts id = true) (fresh : commit.before.nextId ≤ id)
      (listed : asked.toJobRow id commit.now ∈ commit.rows)
      (only : forall row, row ∈ commit.rows -> row.id = id -> row = asked.toJobRow id commit.now) :
      JobEvent commit id none (some (asked.toJobRow id commit.now))
  | deleted {old} (undelivered : commit.delivery id = none) (noInsert : commit.inserts id = false)
      (noReplay : commit.replays id = false) : JobEvent commit id (some old) none

theorem JobEvent.of_step {commit : Commit} {id : Nat} {old new : JobRow}
    (step : RowStep commit.now commit.statement old new)
    (returned : commit.returned id = some new) : JobEvent commit id (some old) (some new) := by
  rcases commit with ⟨before, now, statement, rows⟩
  cases step with
  | claim claims queue ready due =>
      cases statement
      case claimJobs p locked =>
        exact .claimed claims ready returned rfl rfl rfl
      case claimJobsWithAging p threshold locked =>
        exact .claimed claims ready returned rfl rfl rfl
      all_goals cases claims
  | replay replays buried =>
      cases statement
      case replayDeadJob id =>
        exact .replayed rfl (by simp [Commit.replays, Statement.isReplay, returned]) rfl
      case replayDeadJobs ids =>
        exact .replayed rfl (by simp [Commit.replays, Statement.isReplay, returned]) rfl
      all_goals cases replays
  | heartbeat owned =>
      have started := (FenceParams.owns_iff.mp owned).2.1
      exact .held rfl rfl rfl rfl started started rfl rfl rfl
  | requestCancel same started => exact .held rfl rfl rfl rfl started started rfl rfl rfl
  | complete owned => exact .moved rfl rfl rfl (by simp [completeJob]) rfl rfl
  | failNonRetryable owned final => exact .moved rfl rfl rfl (by simp) rfl rfl
  | failExhausted owned retryable exhausted => exact .moved rfl rfl rfl (by simp) rfl rfl
  | failRetry owned retryable remaining => exact .moved rfl rfl rfl (by simp) rfl rfl
  | acknowledge owned requested =>
      exact .moved rfl rfl rfl (by simp [acknowledgeCancellation]) rfl rfl
  | release owned => exact .moved rfl rfl rfl (by simp [releaseJob]) rfl rfl
  | reapExhausted expired exhausted => exact .moved rfl rfl rfl (by simp) rfl rfl
  | reapRetry expired remaining => exact .moved rfl rfl rfl (by simp) rfl rfl
  | cancelAvailable same waiting =>
      exact .moved rfl rfl rfl (by simp [cancelAvailableJob]) rfl rfl
  | retryNow same waiting =>
      exact .moved rfl rfl rfl (by simp [retryJobNow, waiting]) rfl rfl

/-- Every commit is one of the listed events to every job. -/
theorem JobEvent.of_exec {now : Timestamp} {db : Database} {statement : Statement} {reply : Reply}
    (committed : statement.exec now db = .ok reply) (id : Nat) :
    JobEvent ⟨db, now, statement, reply.rows⟩ id (db.find id) (reply.db.find id) := by
  have effect := exec_effect committed id
  generalize db.find id = old at effect ⊢
  generalize reply.db.find id = new at effect ⊢
  cases effect with
  | untouched silent => exact .nothing (Commit.returned_eq_none silent)
  | stepped step oldId newId listed only =>
      exact .of_step step (Commit.returned_eq_some listed newId only)
  | inserted asked fresh listed only =>
      have returned := @Commit.returned_eq_some id ⟨db, now, statement, reply.rows⟩ _ listed rfl only
      cases statement
      case insertJob row =>
        exact .inserted rfl (by simp [Commit.inserts, Statement.isInsert, returned]) fresh listed only
      case insertJobsBatch rows =>
        exact .inserted rfl (by simp [Commit.inserts, Statement.isInsert, returned]) fresh listed only
      all_goals exact absurd asked List.not_mem_nil
  | deleted deletes oldId listed only =>
      cases statement
      case pruneTerminalJobs p locked => exact .deleted rfl rfl rfl
      case archiveTerminalJobs p locked => exact .deleted rfl rfl rfl
      case purgeQueue queue states limit locked => exact .deleted rfl rfl rfl
      all_goals cases deletes

/-! ## What a commit returns -/

theorem Statement.claims_only {statement : Statement} {p : ClaimParams}
    (claims : statement.claimParams = some p) :
    statement.isReplay = false ∧ statement.isDelete = false ∧ statement.enqueueRows = [] := by
  cases statement <;> first | exact ⟨rfl, rfl, rfl⟩ | cases claims

/-- What a claim returns is in the table after it, held by the claimer. -/
theorem claimed_row {now : Timestamp} {db : Database} {statement : Statement} {reply : Reply}
    {p : ClaimParams} (committed : statement.exec now db = .ok reply)
    (claims : statement.claimParams = some p) {row : JobRow} (listed : row ∈ reply.rows) :
    reply.db.find row.id = some row ∧ row.state = .running ∧ row.workerId = some p.workerId := by
  have effect := exec_effect committed row.id
  have only := Statement.claims_only claims
  generalize db.find row.id = old at effect
  generalize reply.db.find row.id = new at effect ⊢
  cases effect with
  | untouched silent => exact absurd rfl (silent row listed)
  | stepped step oldId newId newListed unique =>
      have same := unique row listed rfl
      subst same
      cases step with
      | claim claimed queue ready due =>
          have sameParams := Option.some.inj (claims.symm.trans claimed)
          rw [sameParams]
          exact ⟨rfl, rfl, rfl⟩
      | replay replays buried =>
          rw [only.1] at replays
          cases replays
      | _ => cases claims
  | inserted asked fresh newListed unique =>
      rw [only.2.2] at asked
      cases asked
  | deleted deletes oldId oldListed unique =>
      rw [only.2.1] at deletes
      cases deletes

theorem Statement.inserts_only {statement : Statement} (inserting : statement.isInsert = true) :
    statement.claimParams = none ∧ statement.isReplay = false ∧ statement.isDelete = false := by
  cases statement <;> first | exact ⟨rfl, rfl, rfl⟩ | cases inserting

/-- What an insert returns was not in the table before it, under an id drawn
just now. -/
theorem inserted_row {now : Timestamp} {db : Database} {statement : Statement} {reply : Reply}
    (committed : statement.exec now db = .ok reply) (inserting : statement.isInsert = true)
    {row : JobRow} (listed : row ∈ reply.rows) :
    db.nextId ≤ row.id ∧ reply.db.find row.id = some row ∧
      Exists fun asked : EnqueueRow => asked ∈ statement.enqueueRows ∧
        row = asked.toJobRow row.id now := by
  have effect := exec_effect committed row.id
  have only := Statement.inserts_only inserting
  generalize db.find row.id = old at effect
  generalize reply.db.find row.id = new at effect ⊢
  cases effect with
  | untouched silent => exact absurd rfl (silent row listed)
  | stepped step oldId newId newListed unique =>
      cases step with
      | claim claims queue ready due =>
          rw [only.1] at claims
          cases claims
      | replay replays buried =>
          rw [only.2.1] at replays
          cases replays
      | _ => cases inserting
  | inserted asked fresh newListed unique =>
      have same := unique row listed rfl
      exact ⟨fresh, congrArg some same.symm, _, asked, same⟩
  | deleted deletes oldId oldListed unique =>
      rw [only.2.2] at deletes
      cases deletes

/-! ## Invariants of sessions -/

/-- The session a list of calls leads to from an empty table. -/
def Session.after (partitions : List ArchivePartition) (config : QueueConfigTable)
    (calls : List Call) : Session :=
  run Session.step (Session.start (.empty partitions config)) calls

/-- A property of sessions kept by every commit holds after every run. -/
theorem Session.run_invariant {inv : Session -> Prop}
    (keeps : forall (session : Session) (call : Call) (reply : Reply),
      call.statement.exec call.now session.state = .ok reply -> inv session ->
        inv ⟨reply.db, ⟨session.state, call.now, call.statement, reply.rows⟩ :: session.history⟩)
    {start : Session} (initially : inv start) (calls : List Call) :
    inv (run Session.step start calls) := by
  apply Runs.run_invariant _ initially
  intro session call holds
  rcases session.step_cases call with stays | ⟨reply, committed, moves⟩
  · rw [stays]
    exact holds
  · rw [moves]
    exact keeps session call reply committed holds

/-- The history speaks only about ids drawn so far. -/
def HistoryBelow (session : Session) : Prop :=
  forall commit, commit ∈ session.history -> forall row, row ∈ commit.rows ->
    row.id < session.state.nextId

theorem HistoryBelow.step {session : Session} {call : Call} {reply : Reply}
    (committed : call.statement.exec call.now session.state = .ok reply)
    (below : HistoryBelow session) :
    HistoryBelow
      ⟨reply.db, ⟨session.state, call.now, call.statement, reply.rows⟩ :: session.history⟩ := by
  intro commit member row listed
  rcases List.mem_cons.mp member with rfl | earlier
  · exact exec_rows_below committed listed
  · exact Nat.lt_of_lt_of_le (below commit earlier row listed) (exec_frame committed).1

theorem HistoryBelow.start (db : Database) : HistoryBelow (Session.start db) :=
  fun _ member => absurd member List.not_mem_nil

/-- A job that is inserted now was not heard of before. -/
theorem HistoryBelow.unheard {session : Session} (below : HistoryBelow session) {id : Nat}
    (fresh : session.state.nextId ≤ id) : forall commit, commit ∈ session.history ->
      commit.returned id = none := by
  intro commit member
  apply Commit.returned_eq_none
  intro row listed same
  have drawn := below commit member row listed
  omega

end PgJobQ
