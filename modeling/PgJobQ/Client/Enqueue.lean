import Mathlib.Logic.Function.Basic
import PgJobQ.Client.BuildRow
import PgJobQ.Statements.Exec

/-!
# Enqueueing a job

A call of `Client.enqueue` is a small program of up to four statements: the
lookup of the queue's defaults, the insert, and after a dropped insert the
lookups by idempotency key and by unique key.  Any number of calls, of any
number of clients, take their statements in any order, with updates of the job
table by workers, the reaper and operators in between.  Each statement sees
the table as the statements before it left it.

The history of a run lists which call inserted which row, newest first.
-/

namespace PgJobQ

open Runs

/-- How far a call has come.  The first four phases each stand before a
statement. -/
inductive EnqueuePhase where
  | resolving (readAt : Timestamp)
  | inserting (row : EnqueueRow)
  | findingIdempotent (row : EnqueueRow) (key : String)
  | findingUnique (row : EnqueueRow) (key : String)
  | returned (result : EnqueueResult)
  | thrown (error : ClientError)
  deriving DecidableEq, Repr

namespace EnqueuePhase

/-- The statements a call can still send. -/
def remaining : EnqueuePhase -> Nat
  | resolving _ => 4
  | inserting _ => 3
  | findingIdempotent _ _ => 2
  | findingUnique _ _ => 1
  | returned _ => 0
  | thrown _ => 0

end EnqueuePhase

/-- The arguments of `Client.enqueue`, and the client it is called on. -/
structure EnqueueRequest where
  client : Nat
  queue : String
  type : String
  payload : String
  options : EnqueueOptions
  deriving DecidableEq, Repr

namespace EnqueueRequest

/-- The phase `buildRow` ends in, once the defaults are there. -/
def withDefaults (config : ClientConfig) (request : EnqueueRequest) (qc : QueueDefaultsRow)
    (state : ClientState) : EnqueuePhase × ClientState :=
  match rowWithDefaults config request.queue request.type request.payload request.options qc
    state with
  | (.ok row, next) => (.inserting row, next)
  | (.error error, next) => (.thrown (.row error), next)

/-- `Client.enqueue` up to its first statement. -/
def begin (config : ClientConfig) (request : EnqueueRequest) (state : ClientState) :
    EnqueuePhase × ClientState :=
  match validateName request.queue "queue" with
  | .error error => (.thrown (.row error), state)
  | .ok () =>
      match validateName request.type "type" with
      | .error error => (.thrown (.row error), state)
      | .ok () =>
          match checkOptions config request.payload request.options with
          | .error error => (.thrown (.row error), state)
          | .ok () =>
              match cachedDefaults config request.queue state with
              | (some qc, _, next) => request.withDefaults config qc next
              | (none, readAt, next) => (.resolving readAt, next)

/-- The idempotency key of the request and its queue. -/
def Uses (queue key : String) (request : EnqueueRequest) : Prop :=
  request.queue = queue ∧ request.options.idempotencyKey = some key

def Carried (request : EnqueueRequest) (row : EnqueueRow) : Prop :=
  Carries request.queue request.type request.payload request.options row

end EnqueueRequest

structure EnqueueCall where
  request : EnqueueRequest
  phase : EnqueuePhase
  deriving DecidableEq, Repr

/-- The last line of `resolveConflict`. -/
def unknownConflict : ClientError :=
  .conflict "Enqueue conflicted but no matching existing job was found" none

/-- `resolveConflict`, from the lookup by unique key on. -/
def resolveUnique (row : EnqueueRow) : EnqueuePhase :=
  match row.uniqueKey with
  | some key => .findingUnique row key
  | none => .thrown unknownConflict

def resolveConflict (row : EnqueueRow) : EnqueuePhase :=
  match row.idempotencyKey with
  | some key => .findingIdempotent row key
  | none => resolveUnique row

/-- What a statement of a call leaves. -/
structure Advanced where
  phase : EnqueuePhase
  db : Database
  client : ClientState
  inserted : Option JobRow

/-- Send the next statement and go on to the one after it. -/
def EnqueueCall.advance (config : ClientConfig) (now : Timestamp) (db : Database)
    (state : ClientState) (call : EnqueueCall) : Advanced :=
  match call.phase with
  | .resolving readAt =>
      let qc := resolveQueueDefaults call.request.queue db
      let built := call.request.withDefaults config qc
        (saveDefaults call.request.queue readAt qc state)
      ⟨built.1, db, built.2, none⟩
  | .inserting row =>
      match insertJob row now db with
      | .ok reply =>
          match reply.rows.head? with
          | some inserted =>
              ⟨.returned ⟨some inserted.id, false⟩, reply.db,
                { state with
                  metrics := state.metrics.incEnqueued call.request.queue call.request.type },
                some inserted⟩
          | none => ⟨resolveConflict row, reply.db, state, none⟩
      | .error (.uniqueViolation _) => ⟨resolveConflict row, db, state, none⟩
      | .error error => ⟨.thrown (.database error), db, state, none⟩
  | .findingIdempotent row key =>
      match (findByIdempotencyKey call.request.queue key db).head? with
      | some id => ⟨.returned ⟨some id, true⟩, db, state, none⟩
      | none => ⟨resolveUnique row, db, state, none⟩
  | .findingUnique _ key =>
      match (findByUniqueKey call.request.queue key db).head? with
      | some id =>
          ⟨.thrown (.conflict ("A non-terminal job with uniqueKey '" ++ key ++
            "' already exists on queue '" ++ call.request.queue ++ "'") (some id)),
            db, state, none⟩
      | none => ⟨.thrown unknownConflict, db, state, none⟩
  | .returned result => ⟨.returned result, db, state, none⟩
  | .thrown error => ⟨.thrown error, db, state, none⟩

/-! ## The system -/

structure EnqueueSystem where
  db : Database
  clients : Nat -> ClientState
  calls : Nat -> Option EnqueueCall

/-- A call begins, a call sends its next statement, or somebody else runs a
statement. -/
inductive EnqueueLabel where
  | start (id : Nat) (request : EnqueueRequest)
  | advance (id : Nat) (now : Timestamp)
  | other (call : Call)

namespace EnqueueSystem

def put (system : EnqueueSystem) (id : Nat) (call : EnqueueCall) (state : ClientState) :
    EnqueueSystem :=
  { system with
    clients := Function.update system.clients call.request.client state
    calls := Function.update system.calls id (some call) }

/-- Others update the job table but neither insert into it nor delete from it. -/
def step (configs : Nat -> ClientConfig) (system : EnqueueSystem) : EnqueueLabel -> EnqueueSystem
  | .start id request =>
      match system.calls id with
      | some _ => system
      | none =>
          let begun := request.begin (configs request.client) (system.clients request.client)
          system.put id ⟨request, begun.1⟩ begun.2
  | .advance id now =>
      match system.calls id with
      | none => system
      | some call =>
          let sent := call.advance (configs call.request.client) now system.db
            (system.clients call.request.client)
          { system with db := sent.db }.put id ⟨call.request, sent.phase⟩ sent.client
  | .other call =>
      if (call.statement.mutation call.now system.db).isSome then
        { system with db := system.db.step call }
      else system

/-- The row a step inserts, with the call that inserted it. -/
def insertion (configs : Nat -> ClientConfig) (system : EnqueueSystem) :
    EnqueueLabel -> Option (Nat × JobRow)
  | .advance id now =>
      match system.calls id with
      | none => none
      | some call =>
          ((call.advance (configs call.request.client) now system.db
            (system.clients call.request.client)).inserted).map (fun row => (id, row))
  | _ => none

end EnqueueSystem

abbrev EnqueueRun := Recorded EnqueueSystem (Nat × JobRow)

namespace EnqueueRun

def step (configs : Nat -> ClientConfig) : EnqueueRun -> EnqueueLabel -> EnqueueRun :=
  recordStep (EnqueueSystem.step configs) (EnqueueSystem.insertion configs)

/-- The run of the labels on a database on which nobody has called yet. -/
def after (configs : Nat -> ClientConfig) (db : Database) (clients : Nat -> ClientState)
    (labels : List EnqueueLabel) : EnqueueRun :=
  run (step configs) ⟨⟨db, clients, fun _ => none⟩, []⟩ labels

/-- The rows a call has inserted. -/
def insertedBy (id : Nat) (history : List (Nat × JobRow)) : List JobRow :=
  (history.filter (fun entry => entry.1 = id)).map Prod.snd

end EnqueueRun

end PgJobQ
