import PgJobQ.Library.Runs
import PgJobQ.Statements.InsertDelete

/-!
# Executing statements, and the history they leave

`Statement` lists every statement that reads or writes `job` on behalf of an
enqueue, a worker, the reaper, an operator or the retention loop.  Each one
runs in an implicit transaction of its own, so a party that crashes between
two of them leaves exactly the statements it had finished, and any list of
statements is a possible run.

A session is the database together with the commits made so far, newest first.
An aborted statement changes nothing and is not recorded.
-/

namespace PgJobQ

open Runs

inductive Statement where
  | insertJob (row : EnqueueRow)
  | insertJobsBatch (rows : List EnqueueRow)
  | claimJobs (p : ClaimParams) (locked : List Nat)
  | claimJobsWithAging (p : ClaimParams) (agingThresholdSeconds : Int) (locked : List Nat)
  | completeJob (p : FenceParams)
  | failJob (p : FailParams)
  | heartbeatJob (p : FenceParams) (leaseSeconds : Int)
  | acknowledgeCancellation (p : FenceParams)
  | releaseJob (p : FenceParams)
  | reapExpiredLeases (p : ReapParams) (locked : List Nat)
  | cancelAvailableJob (id : Nat)
  | requestCancelRunningJob (id : Nat)
  | retryJobNow (id : Nat)
  | replayDeadJob (id : Nat)
  | replayDeadJobs (ids : List Nat)
  | setQueuePaused (queue : String) (paused : Bool)
  | pruneTerminalJobs (p : RetentionParams) (locked : List Nat)
  | archiveTerminalJobs (p : RetentionParams) (locked : List Nat)
  | purgeQueue (queue : String) (states : List JobState) (limit : Nat) (locked : List Nat)

namespace Statement

/-- The `UPDATE job` a statement consists of, if it is one. -/
def mutation (now : Timestamp) (db : Database) : Statement -> Option Mutation
  | claimJobs p locked => some (PgJobQ.claimJobs p locked now db)
  | claimJobsWithAging p threshold locked =>
      some (PgJobQ.claimJobsWithAging p threshold locked now db)
  | completeJob p => some (PgJobQ.completeJob p now)
  | failJob p => some (PgJobQ.failJob p now)
  | heartbeatJob p leaseSeconds => some (PgJobQ.heartbeatJob p leaseSeconds now)
  | acknowledgeCancellation p => some (PgJobQ.acknowledgeCancellation p now)
  | releaseJob p => some (PgJobQ.releaseJob p now)
  | reapExpiredLeases p locked => some (PgJobQ.reapExpiredLeases p locked now db)
  | cancelAvailableJob id => some (PgJobQ.cancelAvailableJob id now)
  | requestCancelRunningJob id => some (PgJobQ.requestCancelRunningJob id now)
  | retryJobNow id => some (PgJobQ.retryJobNow id now)
  | replayDeadJob id => some (PgJobQ.replayDeadJob id now)
  | replayDeadJobs ids => some (PgJobQ.replayDeadJobs ids now)
  | _ => none

/-- Execute a statement in a transaction of its own. -/
def exec (now : Timestamp) (db : Database) : Statement -> Except DbError Reply
  | insertJob row => PgJobQ.insertJob row now db
  | insertJobsBatch rows => PgJobQ.insertJobsBatch rows now db
  | claimJobs p locked => (PgJobQ.claimJobs p locked now db).run db
  | claimJobsWithAging p threshold locked =>
      (PgJobQ.claimJobsWithAging p threshold locked now db).run db
  | completeJob p => (PgJobQ.completeJob p now).run db
  | failJob p => (PgJobQ.failJob p now).run db
  | heartbeatJob p leaseSeconds => (PgJobQ.heartbeatJob p leaseSeconds now).run db
  | acknowledgeCancellation p => (PgJobQ.acknowledgeCancellation p now).run db
  | releaseJob p => (PgJobQ.releaseJob p now).run db
  | reapExpiredLeases p locked => (PgJobQ.reapExpiredLeases p locked now db).run db
  | cancelAvailableJob id => (PgJobQ.cancelAvailableJob id now).run db
  | requestCancelRunningJob id => (PgJobQ.requestCancelRunningJob id now).run db
  | retryJobNow id => (PgJobQ.retryJobNow id now).run db
  | replayDeadJob id => (PgJobQ.replayDeadJob id now).run db
  | replayDeadJobs ids => (PgJobQ.replayDeadJobs ids now).run db
  | setQueuePaused queue paused => PgJobQ.setQueuePaused queue paused db
  | pruneTerminalJobs p locked => PgJobQ.pruneTerminalJobs p locked now db
  | archiveTerminalJobs p locked => PgJobQ.archiveTerminalJobs p locked now db
  | purgeQueue queue states limit locked => PgJobQ.purgeQueue queue states limit locked db

theorem exec_mutation {now : Timestamp} {db : Database} {statement : Statement}
    {mutation : Mutation} (isUpdate : statement.mutation now db = some mutation) :
    statement.exec now db = mutation.run db := by
  cases statement <;> cases isUpdate <;> rfl

/-- The parameters of a claim, with or without aging. -/
def claimParams : Statement -> Option ClaimParams
  | claimJobs p _ => some p
  | claimJobsWithAging p _ _ => some p
  | _ => none

/-- A claim returns at most as many jobs as it may, each of them once. -/
theorem claim_rows {now : Timestamp} {db : Database} {statement : Statement} {p : ClaimParams}
    {reply : Reply} (committed : statement.exec now db = .ok reply)
    (claims : statement.claimParams = some p) :
    reply.rows.length ≤ p.limit ∧ (reply.rows.map JobRow.id).Nodup := by
  have bounded : forall (mutation : Mutation) (candidates : List Nat),
      mutation.run db = .ok reply ->
        (forall row, mutation.hits row = candidates.contains row.id) ->
          candidates.length ≤ p.limit ->
            reply.rows.length ≤ p.limit ∧ (reply.rows.map JobRow.id).Nodup := by
    intro mutation candidates ran hits few
    rw [(Mutation.run_ok ran).2.1]
    have listed := returning_of_candidates db.job hits
    exact ⟨Nat.le_trans listed.1 few, listed.2⟩
  cases statement with
  | claimJobs params locked =>
      cases claims
      exact bounded _ _ committed (fun row => rfl) (length_lockCandidates_le _ _ _ _ _)
  | claimJobsWithAging params threshold locked =>
      cases claims
      exact bounded _ _ committed (fun row => rfl) (length_lockCandidates_le _ _ _ _ _)
  | _ => cases claims

/-- The rows a statement asks to insert. -/
def enqueueRows : Statement -> List EnqueueRow
  | insertJob row => [row]
  | insertJobsBatch rows => rows
  | _ => []

/-- The statement returns dead-lettered jobs to the queue. -/
def isReplay : Statement -> Bool
  | replayDeadJob _ => true
  | replayDeadJobs _ => true
  | _ => false

/-- The statement deletes rows of `job`. -/
def isDelete : Statement -> Bool
  | pruneTerminalJobs _ _ => true
  | archiveTerminalJobs _ _ => true
  | purgeQueue _ _ _ _ => true
  | _ => false

end Statement

/-- A statement issued at a time. -/
structure Call where
  now : Timestamp
  statement : Statement

/-- A committed statement, with the database it was executed on and the rows
it returned. -/
structure Commit where
  before : Database
  now : Timestamp
  statement : Statement
  rows : List JobRow

namespace Database

/-- Execute a call; an aborted statement leaves the database alone. -/
def step (db : Database) (call : Call) : Database :=
  match call.statement.exec call.now db with
  | .ok reply => reply.db
  | .error _ => db

theorem step_of_ok {db : Database} {call : Call} {reply : Reply}
    (committed : call.statement.exec call.now db = .ok reply) : db.step call = reply.db := by
  simp only [step, committed]

/-- A call aborts or leaves the database of its reply. -/
theorem step_cases (db : Database) (call : Call) :
    db.step call = db ∨
      Exists fun reply : Reply => call.statement.exec call.now db = .ok reply ∧
        db.step call = reply.db := by
  unfold step
  cases executed : call.statement.exec call.now db with
  | error error => exact Or.inl rfl
  | ok reply => exact Or.inr ⟨reply, rfl, rfl⟩

def commit (db : Database) (call : Call) : Option Commit :=
  match call.statement.exec call.now db with
  | .ok reply => some ⟨db, call.now, call.statement, reply.rows⟩
  | .error _ => none

end Database

/-- The database and its commits, newest first. -/
abbrev Session := Recorded Database Commit

namespace Session

def step : Session -> Call -> Session := recordStep Database.step Database.commit

/-- A session that has not executed anything. -/
def start (db : Database) : Session := ⟨db, []⟩

/-- One step of a session: it either aborts or adds the commit it made. -/
theorem step_cases (session : Session) (call : Call) :
    session.step call = session ∨
      Exists fun reply : Reply => call.statement.exec call.now session.state = .ok reply ∧
        session.step call =
          ⟨reply.db, ⟨session.state, call.now, call.statement, reply.rows⟩ :: session.history⟩ := by
  unfold step recordStep Database.step Database.commit
  cases executed : call.statement.exec call.now session.state with
  | error error => exact Or.inl rfl
  | ok reply => exact Or.inr ⟨reply, rfl, rfl⟩

theorem step_of_ok {session : Session} {call : Call} {reply : Reply}
    (committed : call.statement.exec call.now session.state = .ok reply) :
    session.step call =
      ⟨reply.db, ⟨session.state, call.now, call.statement, reply.rows⟩ :: session.history⟩ := by
  simp only [step, recordStep, Database.step, Database.commit, committed, Option.toList_some,
    List.singleton_append]

end Session

end PgJobQ
