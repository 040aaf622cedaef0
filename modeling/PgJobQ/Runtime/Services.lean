import Mathlib.Data.List.Basic
import PgJobQ.Library.InsertionMap

/-!
# The services of a runtime

A runtime starts a worker pool and three background loops over one database,
and stops them in this order before it closes the database.  The calls of
`start` and `stop`, the loops, the handlers and the signals interleave; what a
loop asks the database is left open.
-/

namespace PgJobQ

/-! ## Services -/

inductive Service where
  | pool
  | reaper
  | scheduler
  | retention
  deriving DecidableEq, Repr

/-- What a loop awaits: the answer to a statement, or a timer.  The claim loop
waits for a slot in a race of the handlers. -/
inductive LoopPhase where
  | asking
  | resting
  | racing (handlers : List Nat)
  deriving DecidableEq, Repr

/-- How a loop goes on: with another statement, to its timer, or to the
condition of its `while`. -/
inductive LoopTurn where
  | asks
  | rests
  | turns (next : LoopPhase)
  deriving DecidableEq, Repr

/-- `running`, the promise of the loop started last, and all loops that have not
ended.  Loops have numbers, which the program does not give them. -/
structure ServiceState where
  running : Bool
  promise : Option Nat
  loops : List (Nat × LoopPhase)
  next : Nat
  deriving DecidableEq, Repr

namespace ServiceState

def new : ServiceState := ⟨false, none, [], 0⟩

/-- `start`: the loop goes on to its first wait before it returns. -/
def start (service : ServiceState) (phase : LoopPhase) : ServiceState :=
  if service.running then service
  else ⟨true, some service.next, service.loops ++ [(service.next, phase)], service.next + 1⟩

/-- `this.running = false`. -/
def halt (service : ServiceState) : ServiceState := { service with running := false }

/-- The promise that `stop` awaits is settled. -/
def ended (service : ServiceState) (awaited : Option Nat) : Bool :=
  service.loops.all (fun loop => awaited ≠ some loop.1)

/-- `this.loop = undefined`. -/
def forget (service : ServiceState) : ServiceState := { service with promise := none }

def move (service : ServiceState) (id : Nat) (phase : LoopPhase) : ServiceState :=
  { service with
    loops := service.loops.map (fun loop => if loop.1 = id then (id, phase) else loop) }

/-- A loop goes on. -/
def turn (service : ServiceState) (id : Nat) : LoopTurn -> ServiceState
  | .asks => service
  | .rests => if (id, .asking) ∈ service.loops then service.move id .resting else service
  | .turns next =>
      if service.running then service.move id next
      else { service with loops := service.loops.filter (fun loop => loop.1 ≠ id) }

/-- Going on this way the loop asks a statement. -/
def asks (service : ServiceState) (id : Nat) : LoopTurn -> Bool
  | .asks => decide ((id, .asking) ∈ service.loops)
  | .rests => false
  | .turns next =>
      service.running && decide (next = .asking) && service.loops.any (fun loop => loop.1 = id)

end ServiceState

/-! ## Handlers -/

/-- The handlers of the pool: `inFlight`, and those that have not settled, with
the number that stands for the promise and the job.  The program has no such
list.  A handler whose entry is replaced or deleted while it runs has been
overlooked, and one that runs when the grace period has elapsed is stranded. -/
structure PoolHandlers where
  inFlight : InsertionMap Nat Nat
  executing : List (Nat × Nat)
  spawned : Nat
  overlooked : List Nat
  stranded : List Nat

namespace PoolHandlers

def new : PoolHandlers := ⟨.empty, [], 0, [], []⟩

/-- The handler has not settled. -/
def runs (handlers : PoolHandlers) (number : Nat) : Bool :=
  handlers.executing.any (fun handler => handler.1 = number)

/-- `spawn`. -/
def spawn (handlers : PoolHandlers) (job : Nat) : PoolHandlers :=
  { handlers with
    inFlight := handlers.inFlight.set job handlers.spawned
    executing := handlers.executing ++ [(handlers.spawned, job)]
    spawned := handlers.spawned + 1
    overlooked := handlers.overlooked ++ (handlers.inFlight.get job).toList }

/-- The `finally` of a handler deletes the entry of its job. -/
def settle (handlers : PoolHandlers) (number : Nat) : PoolHandlers :=
  match handlers.executing.find? (fun handler => handler.1 = number) with
  | none => handlers
  | some handler =>
      { handlers with
        inFlight := handlers.inFlight.delete handler.2
        executing := handlers.executing.filter (fun other => other.1 ≠ number)
        overlooked := handlers.overlooked ++
          ((handlers.inFlight.get handler.2).filter (fun other => other ≠ number)).toList }

/-- The grace period has elapsed. -/
def strand (handlers : PoolHandlers) : PoolHandlers :=
  { handlers with stranded := handlers.stranded ++ handlers.executing.map Prod.fst }

/-- One of the handlers has settled. -/
def oneEnded (handlers : PoolHandlers) (raced : List Nat) : Bool :=
  raced.any (fun number => !handlers.runs number)

/-- All of the handlers have settled. -/
def allEnded (handlers : PoolHandlers) (awaited : List Nat) : Bool :=
  awaited.all (fun number => !handlers.runs number)

end PoolHandlers

/-! ## The runtime -/

/-- The services the configuration asks for, of which the pool needs a registry,
and the number of slots. -/
structure RuntimeOptions where
  has : Service -> Bool
  concurrency : Nat
  skipSchemaCheck : Bool

/-- What a call of `start` awaits: `waitForDatabase` or `assertSchemaCurrent`. -/
inductive StartWait where
  | waiting
  | checking
  deriving DecidableEq, Repr

/-- What a call of `stop` awaits: the claim loop, its handlers or the timer of
the grace period, the release of a job, the listener, the loops of the other
services, or the end of the connections. -/
inductive StopWait where
  | claims (awaited : Option Nat)
  | handlers (awaited : List Nat)
  | releases
  | listener
  | services (awaited : Service -> Option Nat)
  | connections

/-- Who asks the database. -/
inductive Asker where
  | start
  | loop (service : Service)
  | handler (number : Nat)
  | release
  deriving DecidableEq, Repr

/-- A runtime with the calls of `start` and `stop` that have not ended, and
those whom the closed database has refused. -/
structure Runtime where
  services : Service -> ServiceState
  handlers : PoolHandlers
  closed : Bool
  started : Bool
  starts : List StartWait
  stops : List StopWait
  shuttingDown : Bool
  exited : Bool
  refused : List Asker

/-- How a call of `start` goes on: with another statement, with the answer it
needs, or by an error. -/
inductive StartTurn where
  | again
  | answered
  | throws
  deriving DecidableEq, Repr

/-- How a call of `stop` goes on: with what it awaits, when the grace period has
elapsed, or with the next release. -/
inductive StopTurn where
  | goesOn
  | elapsed
  | again
  deriving DecidableEq, Repr

/-- What happens: calls and their continuations, a loop going on, jobs that a
claim has returned, statements and ends of handlers, signals. -/
inductive RuntimeLabel where
  | start
  | starts (index : Nat) (turn : StartTurn)
  | loop (service : Service) (id : Nat) (turn : LoopTurn)
  | spawn (jobs : List Nat)
  | handlerAsks (number : Nat)
  | handlerSettles (number : Nat)
  | stop
  | stops (index : Nat) (turn : StopTurn)
  | signal
  | exits

namespace Runtime

def new : Runtime := ⟨fun _ => .new, .new, false, false, [], [], false, false, []⟩

/-- `Db.query` throws when the pool is closed. -/
def ask (runtime : Runtime) (asker : Asker) : Runtime :=
  if runtime.closed then { runtime with refused := runtime.refused ++ [asker] } else runtime

/-! ### Loops -/

/-- `opts.concurrency - this.inFlight.size`. -/
def capacity (opts : RuntimeOptions) (runtime : Runtime) : Nat :=
  opts.concurrency - runtime.handlers.inFlight.size

/-- What the claim loop does in the next round of its `while`: it races its
handlers if no slot is free. -/
def round (opts : RuntimeOptions) (runtime : Runtime) : LoopPhase :=
  if runtime.capacity opts = 0 then .racing runtime.handlers.inFlight.values else .asking

/-- The race of this claim loop is over, if it is in one. -/
def slotFreed (runtime : Runtime) (id : Nat) : Bool :=
  (runtime.services .pool).loops.all (fun loop => loop.1 ≠ id ||
    match loop.2 with
    | .racing raced => runtime.handlers.oneEnded raced
    | _ => true)

/-- A loop may go on this way.  A round of the claim loop is a race exactly if no
slot is free. -/
def mayTurn (opts : RuntimeOptions) (runtime : Runtime) (service : Service) (id : Nat) :
    LoopTurn -> Bool
  | .turns next =>
      match service with
      | .pool => runtime.slotFreed id && (!(runtime.services .pool).running ||
          if runtime.capacity opts = 0 then decide (next = runtime.round opts)
          else decide (next = .asking ∨ next = .resting))
      | _ => decide (next = .asking ∨ next = .resting)
  | _ => true

/-! ### `start` -/

/-- The rest of `start`, with the database answering. -/
def begin (opts : RuntimeOptions) (runtime : Runtime) (index : Nat) : Runtime :=
  { runtime with
    services := fun service =>
      if opts.has service then (runtime.services service).start (match service with
        | .pool => runtime.round opts
        | _ => .asking)
      else runtime.services service
    started := true
    starts := runtime.starts.eraseIdx index }

def goOnStart (opts : RuntimeOptions) (runtime : Runtime) (index : Nat) (phase : StartWait) :
    StartTurn -> Runtime
  | .again => runtime.ask .start
  | .throws => { runtime with starts := runtime.starts.eraseIdx index }
  | .answered =>
      if runtime.closed then runtime
      else
        match phase with
        | .waiting =>
            if opts.skipSchemaCheck then runtime.begin opts index
            else { runtime with starts := runtime.starts.set index .checking }
        | .checking => runtime.begin opts index

/-! ### `stop` -/

/-- A change of the services besides the pool. -/
def others (runtime : Runtime) (change : ServiceState -> ServiceState) : Service -> ServiceState
  | .pool => runtime.services .pool
  | service => change (runtime.services service)

/-- A change of one service. -/
def only (runtime : Runtime) (service : Service) (change : ServiceState -> ServiceState)
    (other : Service) : ServiceState :=
  if other = service then change (runtime.services service) else runtime.services other

/-- `Promise.all` over the services besides the pool. -/
def haltServices (runtime : Runtime) (index : Nat) : Runtime :=
  { runtime with
    services := runtime.others ServiceState.halt
    stops := runtime.stops.set index
      (.services (fun service => (runtime.services service).promise)) }

/-- `stop` up to its first wait.  A pool that is not running is not waited for. -/
def callStop (opts : RuntimeOptions) (runtime : Runtime) : Runtime :=
  if runtime.started = false then runtime
  else if opts.has .pool && (runtime.services .pool).running then
    { runtime with
      services := runtime.only .pool ServiceState.halt
      stops := runtime.stops ++ [.claims (runtime.services .pool).promise] }
  else
    haltServices { runtime with stops := runtime.stops ++ [.listener] } runtime.stops.length

/-- A call of `stop` has come to its next wait. -/
def awaits (runtime : Runtime) (index : Nat) (phase : StopWait) : Runtime :=
  { runtime with stops := runtime.stops.set index phase }

def goOnStop (runtime : Runtime) (index : Nat) : StopWait -> StopTurn -> Runtime
  | .claims awaited, .goesOn =>
      if (runtime.services .pool).ended awaited then
        awaits { runtime with services := runtime.only .pool ServiceState.forget } index
          (if runtime.handlers.inFlight.size = 0 then .listener
            else .handlers runtime.handlers.inFlight.values)
      else runtime
  | .handlers awaited, .goesOn =>
      if runtime.handlers.allEnded awaited then runtime.awaits index .listener else runtime
  | .handlers _, .elapsed =>
      if runtime.handlers.inFlight.size = 0 then runtime.awaits index .listener
      else awaits { runtime with handlers := runtime.handlers.strand } index .releases
  | .releases, .again => runtime.ask .release
  | .releases, .goesOn => runtime.awaits index .listener
  | .listener, .goesOn => runtime.haltServices index
  | .services awaited, .goesOn =>
      if [Service.reaper, .scheduler, .retention].all
          (fun service => (runtime.services service).ended (awaited service)) then
        awaits { runtime with
          services := runtime.others ServiceState.forget
          closed := true } index .connections
      else runtime
  | .connections, .goesOn =>
      { runtime with started := false, stops := runtime.stops.eraseIdx index }
  | _, _ => runtime

/-! ### Steps -/

def step (opts : RuntimeOptions) (runtime : Runtime) (label : RuntimeLabel) : Runtime :=
  if runtime.exited then runtime
  else
    match label with
    | .start =>
        if runtime.started then runtime
        else ask { runtime with starts := runtime.starts ++ [.waiting] } .start
    | .starts index turn =>
        match runtime.starts[index]? with
        | none => runtime
        | some phase => runtime.goOnStart opts index phase turn
    | .loop service id turn =>
        if runtime.mayTurn opts service id turn then
          let moved := { runtime with
            services := runtime.only service (fun state => state.turn id turn) }
          if (runtime.services service).asks id turn then moved.ask (.loop service) else moved
        else runtime
    | .spawn jobs =>
        if (runtime.services .pool).loops.any (fun loop => loop.2 = .asking) then
          { runtime with handlers := jobs.foldl PoolHandlers.spawn runtime.handlers }
        else runtime
    | .handlerAsks number =>
        if runtime.handlers.runs number then runtime.ask (.handler number) else runtime
    | .handlerSettles number => { runtime with handlers := runtime.handlers.settle number }
    | .stop => runtime.callStop opts
    | .stops index turn =>
        match runtime.stops[index]? with
        | none => runtime
        | some phase => runtime.goOnStop index phase turn
    | .signal =>
        if runtime.shuttingDown then { runtime with exited := true }
        else callStop opts { runtime with shuttingDown := true }
    | .exits =>
        if runtime.shuttingDown && runtime.stops.isEmpty then { runtime with exited := true }
        else runtime

end Runtime

/-! ## One service -/

namespace ServiceState

/-- At most one loop has not ended, and this is its promise. -/
structure Awaits (service : ServiceState) (awaited : Option Nat) : Prop where
  single : service.loops.length ≤ 1
  all : forall loop, loop ∈ service.loops -> awaited = some loop.1

/-- A service that is not running and has no loop. -/
structure Quiet (service : ServiceState) : Prop where
  halted : service.running = false
  ended : service.loops = []

/-- A service that has not been halted while its loop goes on. -/
def Going (service : ServiceState) : Prop := service.running = false -> service.loops = []

variable {service : ServiceState} {awaited : Option Nat} {id : Nat} {way : LoopTurn}

theorem Quiet.awaits (quiet : service.Quiet) (awaited : Option Nat) : service.Awaits awaited where
  single := by
    rw [quiet.ended]
    exact Nat.zero_le 1
  all := by
    intro loop member
    rw [quiet.ended] at member
    cases member

theorem Quiet.start (quiet : service.Quiet) (phase : LoopPhase) :
    (service.start phase).running = true ∧
      (service.start phase).Awaits (service.start phase).promise := by
  unfold ServiceState.start
  rw [quiet.halted, if_neg Bool.false_ne_true, quiet.ended]
  refine ⟨rfl, Nat.le_refl 1, ?_⟩
  intro loop member
  rw [List.mem_singleton.mp member]

theorem running_turn : (service.turn id way).running = service.running := by
  cases way with
  | asks => exact rfl
  | rests =>
      unfold ServiceState.turn
      dsimp only
      split <;> exact rfl
  | turns next =>
      unfold ServiceState.turn
      dsimp only
      split <;> exact rfl

theorem promise_turn : (service.turn id way).promise = service.promise := by
  cases way with
  | asks => exact rfl
  | rests =>
      unfold ServiceState.turn
      dsimp only
      split <;> exact rfl
  | turns next =>
      unfold ServiceState.turn
      dsimp only
      split <;> exact rfl

/-- Going on, a loop keeps its number. -/
theorem ids_move (phase : LoopPhase) :
    (service.move id phase).loops.map Prod.fst = service.loops.map Prod.fst := by
  unfold ServiceState.move
  dsimp only
  rw [List.map_map]
  apply List.map_congr_left
  intro loop _
  by_cases same : loop.1 = id
  · simp [same]
  · simp [same]

/-- No loop begins. -/
theorem ids_turn : ((service.turn id way).loops.map Prod.fst).Sublist
    (service.loops.map Prod.fst) := by
  cases way with
  | asks => exact List.Sublist.refl _
  | rests =>
      unfold ServiceState.turn
      dsimp only
      split
      · rw [ids_move]
      · exact List.Sublist.refl _
  | turns next =>
      unfold ServiceState.turn
      dsimp only
      split
      · rw [ids_move]
      · exact List.filter_sublist.map Prod.fst

theorem Awaits.of_ids {next : ServiceState} (awaits : service.Awaits awaited)
    (fewer : (next.loops.map Prod.fst).Sublist (service.loops.map Prod.fst)) :
    next.Awaits awaited where
  single := by
    have shorter := fewer.length_le
    rw [List.length_map, List.length_map] at shorter
    exact Nat.le_trans shorter awaits.single
  all := by
    intro loop member
    rcases List.mem_map.mp (fewer.subset (List.mem_map_of_mem member)) with ⟨old, oldMem, same⟩
    rw [← same]
    exact awaits.all old oldMem

theorem Awaits.turn (awaits : service.Awaits awaited) : (service.turn id way).Awaits awaited :=
  awaits.of_ids ids_turn

theorem ended_turn (ended : service.loops = []) : (service.turn id way).loops = [] := by
  have fewer := @ids_turn service id way
  rw [ended] at fewer
  exact List.map_eq_nil_iff.mp (List.sublist_nil.mp fewer)

theorem Quiet.turn (quiet : service.Quiet) : (service.turn id way).Quiet :=
  ⟨running_turn.trans quiet.halted, ended_turn quiet.ended⟩

theorem Going.turn (going : service.Going) : (service.turn id way).Going :=
  fun halted => ended_turn (going (running_turn.symm.trans halted))

/-- Who asks has not ended. -/
theorem not_asks_of_ended (ended : service.loops = []) : service.asks id way = false := by
  cases way <;> simp [ServiceState.asks, ended]

/-- When the promise is settled, no loop is left. -/
theorem Awaits.ended (awaits : service.Awaits awaited) (settled : service.ended awaited = true) :
    service.loops = [] := by
  apply List.eq_nil_iff_forall_not_mem.mpr
  intro loop member
  have other := List.all_eq_true.mp settled loop member
  exact absurd (awaits.all loop member) (of_decide_eq_true other)

end ServiceState

/-! ## Handlers that have been left behind -/

namespace PoolHandlers

/-- Every handler that has not settled is in `inFlight`, or has been overlooked. -/
def Counted (handlers : PoolHandlers) : Prop :=
  forall number job, (number, job) ∈ handlers.executing ->
    (job, number) ∈ handlers.inFlight.entries ∨ number ∈ handlers.overlooked

/-- The handler has outlived the grace period, or it was counted no more. -/
def Left (handlers : PoolHandlers) (number : Nat) : Prop :=
  number ∈ handlers.stranded ∨ number ∈ handlers.overlooked

/-- Nobody waits for the handlers that have not settled. -/
def AllLeft (handlers : PoolHandlers) : Prop :=
  forall number, handlers.runs number = true -> handlers.Left number

variable {handlers : PoolHandlers} {number : Nat}

theorem runs_iff : handlers.runs number = true <->
    Exists fun job : Nat => (number, job) ∈ handlers.executing := by
  unfold runs
  rw [List.any_eq_true]
  constructor
  · rintro ⟨⟨other, job⟩, member, same⟩
    exact ⟨job, of_decide_eq_true same ▸ member⟩
  · rintro ⟨job, member⟩
    exact ⟨(number, job), member, decide_eq_true rfl⟩

theorem counted_new : new.Counted := fun _ _ member => absurd member List.not_mem_nil

/-- An entry that is replaced is overlooked. -/
theorem Counted.spawn (counted : handlers.Counted) (job : Nat) : (handlers.spawn job).Counted := by
  intro number other member
  simp only [PoolHandlers.spawn] at member ⊢
  rw [InsertionMap.mem_set_iff, List.mem_append, Option.mem_toList,
    InsertionMap.get_eq_some_iff]
  rcases List.mem_append.mp member with earlier | new
  · rcases counted number other earlier with entry | left
    · by_cases same : other = job
      · exact Or.inr (Or.inr (same ▸ entry))
      · exact Or.inl (Or.inr ⟨same, entry⟩)
    · exact Or.inr (Or.inl left)
  · have same := Prod.mk.inj (List.mem_singleton.mp new)
    exact Or.inl (Or.inl ⟨same.2, same.1⟩)

theorem Counted.spawns (counted : handlers.Counted) (jobs : List Nat) :
    (jobs.foldl PoolHandlers.spawn handlers).Counted := by
  induction jobs generalizing handlers with
  | nil => exact counted
  | cons job jobs inductionHypothesis => exact inductionHypothesis (counted.spawn job)

/-- What the end of a handler leaves of the others. -/
theorem settle_cases (handlers : PoolHandlers) (number : Nat) :
    handlers.settle number = handlers ∨ Exists fun job : Nat =>
      handlers.settle number = { handlers with
        inFlight := handlers.inFlight.delete job
        executing := handlers.executing.filter (fun other => other.1 ≠ number)
        overlooked := handlers.overlooked ++
          ((handlers.inFlight.get job).filter (fun other => other ≠ number)).toList } := by
  unfold PoolHandlers.settle
  cases handlers.executing.find? (fun handler => handler.1 = number) with
  | none => exact Or.inl rfl
  | some handler => exact Or.inr ⟨handler.2, rfl⟩

/-- So is an entry that is deleted at the end of another handler. -/
theorem Counted.settle (counted : handlers.Counted) (ended : Nat) :
    (handlers.settle ended).Counted := by
  rcases settle_cases handlers ended with same | ⟨deleted, same⟩
  · rw [same]
    exact counted
  · rw [same]
    intro number job member
    rcases List.mem_filter.mp member with ⟨running, other⟩
    have different : number ≠ ended := of_decide_eq_true other
    dsimp only
    rw [InsertionMap.entries_delete, List.mem_filter, List.mem_append, Option.mem_toList,
      Option.filter_eq_some_iff, InsertionMap.get_eq_some_iff]
    rcases counted number job running with entry | left
    · by_cases isKey : job = deleted
      · exact Or.inr (Or.inr ⟨isKey ▸ entry, decide_eq_true different⟩)
      · exact Or.inl ⟨entry, decide_eq_true isKey⟩
    · exact Or.inr (Or.inl left)

/-- The end of a handler starts no other and lets none be awaited again. -/
theorem settle_fewer (ended : Nat) :
    (forall number, (handlers.settle ended).runs number = true -> handlers.runs number = true) ∧
      (forall number, handlers.Left number -> (handlers.settle ended).Left number) ∧
      forall job number, (job, number) ∈ (handlers.settle ended).inFlight.entries ->
        (job, number) ∈ handlers.inFlight.entries := by
  rcases settle_cases handlers ended with same | ⟨deleted, same⟩
  · rw [same]
    exact ⟨fun _ running => running, fun _ left => left, fun _ _ entry => entry⟩
  · rw [same]
    refine ⟨fun number running => ?_, fun number left => ?_, fun job number entry => ?_⟩
    · rcases runs_iff.mp running with ⟨job, member⟩
      exact runs_iff.mpr ⟨job, (List.mem_filter.mp member).1⟩
    · exact left.imp_right (List.mem_append_left _)
    · exact (List.mem_filter.mp entry).1

theorem AllLeft.settle (left : handlers.AllLeft) (ended : Nat) : (handlers.settle ended).AllLeft := by
  have fewer := @settle_fewer handlers ended
  exact fun number running => fewer.2.1 number (left number (fewer.1 number running))

/-- Where `inFlight` is empty, nobody waits for a handler. -/
theorem Counted.allLeft_of_size (counted : handlers.Counted) (none : handlers.inFlight.size = 0) :
    handlers.AllLeft := by
  intro number running
  rcases runs_iff.mp running with ⟨job, member⟩
  rcases counted number job member with entry | left
  · rw [List.length_eq_zero_iff.mp none] at entry
    cases entry
  · exact Or.inr left

/-- When all handlers in `inFlight` have settled, nobody waits for another one. -/
theorem Counted.allLeft_of_ended (counted : handlers.Counted) {awaited : List Nat}
    (covers : forall job number, (job, number) ∈ handlers.inFlight.entries -> number ∈ awaited)
    (ended : handlers.allEnded awaited = true) : handlers.AllLeft := by
  intro number running
  rcases runs_iff.mp running with ⟨job, member⟩
  rcases counted number job member with entry | left
  · have settled := List.all_eq_true.mp ended number (covers job number entry)
    rw [running] at settled
    cases settled
  · exact Or.inr left

/-- All that run when the grace period has elapsed are stranded. -/
theorem allLeft_strand : handlers.strand.AllLeft := by
  intro number running
  rcases runs_iff.mp running with ⟨job, member⟩
  exact Or.inl (List.mem_append_right _ (List.mem_map_of_mem member))

theorem Counted.strand (counted : handlers.Counted) : handlers.strand.Counted := counted

theorem left_spawns (jobs : List Nat) (number : Nat) (left : handlers.Left number) :
    (jobs.foldl PoolHandlers.spawn handlers).Left number := by
  induction jobs generalizing handlers with
  | nil => exact left
  | cons job jobs inductionHypothesis =>
      have next : (handlers.spawn job).Left number := left.imp_right (List.mem_append_left _)
      exact inductionHypothesis next

theorem allLeft_of_executing (none : handlers.executing = []) : handlers.AllLeft := by
  intro number running
  rcases runs_iff.mp running with ⟨job, member⟩
  rw [none] at member
  cases member

theorem executing_settle (none : handlers.executing = []) (ended : Nat) :
    (handlers.settle ended).executing = [] := by
  rcases settle_cases handlers ended with same | ⟨deleted, same⟩
  · rw [same]
    exact none
  · rw [same]
    dsimp only
    rw [none]
    exact rfl

end PoolHandlers

end PgJobQ
