import PgJobQ.Client.BuildRow
import PgJobQ.Statements.Exec

/-!
# The worker pool

`WorkerPool` runs a claim loop that starts a handler for every job it claims,
and keeps two maps by job id: `inFlight` with the promise of each handler and
`active` with the claimed job.  The loop is cut where it awaits something.
Between two cuts nothing else runs in the process, so `resume` is one step:
it goes from the end of one await to the beginning of the next.

The database executes the statements of the pool between those steps, and the
statements of everybody else at any time: heartbeats and reports of the
handlers, the reaper, other workers, and the releases of `stop`.  `executing`
lists the deliveries whose handler has not settled.  The program has no such
list; it has the two maps.
-/

namespace PgJobQ

open Runs

/-- The options the claim loop reads. -/
structure PoolOptions where
  queues : List String
  concurrency : Nat
  claimBatchMax : Nat
  workerId : String
  deriving DecidableEq, Repr

/-- A handler run of a claimed job, with a token that stands for its promise. -/
structure Delivery where
  token : Nat
  job : JobRow
  deriving DecidableEq, Repr

/-- Where the `for` loop over the queues stands. -/
structure QueuePass where
  queue : String
  limit : Nat
  rest : List String
  claimedAny : Bool
  deriving DecidableEq, Repr

/-- What the claim loop awaits. -/
inductive LoopState where
  | waitingSlot (raced : List Nat)
  | configuring (pass : QueuePass) (readAt : Timestamp)
  | claiming (pass : QueuePass) (config : QueueDefaultsRow)
  | claimed (pass : QueuePass) (jobs : List JobRow)
  | idle
  | backingOff
  | exited
  deriving DecidableEq, Repr

structure WorkerPool where
  inFlight : InsertionMap Nat Nat
  active : InsertionMap Nat JobRow
  running : Bool
  queueConfig : InsertionMap String (Timestamp × QueueDefaultsRow)
  spawned : Nat
  executing : List Delivery

namespace WorkerPool

def empty : WorkerPool := ⟨.empty, .empty, false, .empty, 0, []⟩

/-- `opts.concurrency - this.inFlight.size`. -/
def capacity (opts : PoolOptions) (pool : WorkerPool) : Nat :=
  opts.concurrency - pool.inFlight.size

/-- Start a handler without waiting for it. -/
def spawn (pool : WorkerPool) (job : JobRow) : WorkerPool :=
  { pool with
    active := pool.active.set job.id job
    inFlight := pool.inFlight.set job.id pool.spawned
    spawned := pool.spawned + 1
    executing := pool.executing ++ [⟨pool.spawned, job⟩] }

/-- The `finally` of a handler: both entries are deleted by job id. -/
def settle (token : Nat) (pool : WorkerPool) : WorkerPool :=
  match pool.executing.find? (fun delivery => delivery.token = token) with
  | none => pool
  | some delivery =>
      { pool with
        active := pool.active.delete delivery.job.id
        inFlight := pool.inFlight.delete delivery.job.id
        executing := pool.executing.filter (fun other => other.token ≠ token) }

/-- The statement `claim` sends. -/
def claimStatement (opts : PoolOptions) (pass : QueuePass) (config : QueueDefaultsRow)
    (locked : List Nat) : Statement :=
  match config.priorityAging, config.agingThresholdS with
  | true, some threshold =>
      .claimJobsWithAging ⟨pass.queue, pass.limit, opts.workerId⟩ threshold locked
  | _, _ => .claimJobs ⟨pass.queue, pass.limit, opts.workerId⟩ locked

/-- After the `for` loop: go on if it has claimed something, otherwise wait. -/
def afterQueues (again : LoopState) (claimedAny : Bool) : LoopState :=
  if claimedAny then again else .idle

/-- The `for` loop from its next iteration on. -/
def forQueues (opts : PoolOptions) (now : Timestamp) (pool : WorkerPool) (again : LoopState)
    (claimedAny : Bool) : List String -> LoopState
  | [] => afterQueues again claimedAny
  | queue :: rest =>
      if pool.running && pool.capacity opts != 0 then
        let pass := QueuePass.mk queue (min (pool.capacity opts) opts.claimBatchMax) rest claimedAny
        match freshRow pool.queueConfig queue now with
        | some config => .claiming pass config
        | none => .configuring pass now
      else afterQueues again claimedAny

/-- The `while` loop from its condition on. -/
def loopHead (opts : PoolOptions) (now : Timestamp) (pool : WorkerPool) : LoopState :=
  if !pool.running then .exited
  else if pool.capacity opts = 0 then .waitingSlot pool.inFlight.values
  else pool.forQueues opts now .idle false opts.queues

/-- The race for a slot is over when one of its promises has settled.  A race
of no promises is never over. -/
def slotFreed (pool : WorkerPool) (raced : List Nat) : Bool :=
  raced.any (fun token => !(pool.executing.map Delivery.token).contains token)

/-- Continue a claim loop after its await, if that is over. -/
def resume (opts : PoolOptions) (now : Timestamp) (db : Database) (pool : WorkerPool) :
    LoopState -> WorkerPool × LoopState
  | .waitingSlot raced =>
      (pool, if pool.slotFreed raced then pool.loopHead opts now else .waitingSlot raced)
  | .configuring pass readAt =>
      let config := resolveQueueDefaults pass.queue db
      ({ pool with queueConfig := pool.queueConfig.set pass.queue (readAt, config) },
        .claiming pass config)
  | .claiming pass config => (pool, .claiming pass config)
  | .claimed pass jobs =>
      let next := jobs.foldl spawn pool
      (next, next.forQueues opts now (next.loopHead opts now)
        (pass.claimedAny || !jobs.isEmpty) pass.rest)
  | .idle => (pool, pool.loopHead opts now)
  | .backingOff => (pool, pool.loopHead opts now)
  | .exited => (pool, .exited)

/-- The database executes the claim a loop has sent. -/
def execute (opts : PoolOptions) (now : Timestamp) (locked : List Nat) (db : Database) :
    LoopState -> Database × LoopState
  | .claiming pass config =>
      match (claimStatement opts pass config locked).exec now db with
      | .ok reply => (reply.db, .claimed pass reply.rows)
      | .error _ => (db, .backingOff)
  | loop => (db, loop)

/-- The statement of a loop, or the response to it, is lost. -/
def fail : LoopState -> LoopState
  | .configuring _ _ => .backingOff
  | .claiming _ _ => .backingOff
  | .claimed _ _ => .backingOff
  | loop => loop

end WorkerPool

/-! ## Runs of a pool -/

/-- The claim loops that have been started, newest first. -/
structure PoolSystem where
  db : Database
  pool : WorkerPool
  loops : List LoopState

inductive PoolLabel where
  | start (now : Timestamp)
  | stop
  | resume (index : Nat) (now : Timestamp)
  | execute (index : Nat) (now : Timestamp) (locked : List Nat)
  | fail (index : Nat)
  | settle (token : Nat)
  | other (call : Call)

namespace PoolSystem

def step (opts : PoolOptions) (system : PoolSystem) : PoolLabel -> PoolSystem
  | .start now =>
      if system.pool.running then system
      else
        let pool := { system.pool with running := true }
        { system with pool := pool, loops := pool.loopHead opts now :: system.loops }
  | .stop => { system with pool := { system.pool with running := false } }
  | .resume index now =>
      match system.loops[index]? with
      | none => system
      | some loop =>
          let resumed := system.pool.resume opts now system.db loop
          { system with pool := resumed.1, loops := system.loops.set index resumed.2 }
  | .execute index now locked =>
      match system.loops[index]? with
      | none => system
      | some loop =>
          let executed := WorkerPool.execute opts now locked system.db loop
          { system with db := executed.1, loops := system.loops.set index executed.2 }
  | .fail index =>
      match system.loops[index]? with
      | none => system
      | some loop => { system with loops := system.loops.set index (WorkerPool.fail loop) }
  | .settle token => { system with pool := system.pool.settle token }
  | .other call => { system with db := system.db.step call }

/-- A pool that has not been started yet. -/
def initial (db : Database) : PoolSystem := ⟨db, .empty, []⟩

end PoolSystem

end PgJobQ
