import PgJobQ.Library.Runs
import PgJobQ.Runtime.Services

/-!
# Starting and stopping a runtime

As long as neither `start` nor `stop` is called again before its last call has
ended, nothing asks a database that the runtime has closed but a `start` after
the end, and a handler that outlived the grace period or that the pool counts no
more.  A second `stop` does not wait for the pool that the first one is
draining.
-/

namespace PgJobQ

open Runs

/-! ## The stages of a runtime -/

namespace Runtime

/-- What is left of the pool in a phase of `stop`. -/
def Drains (runtime : Runtime) : StopWait -> Prop
  | .claims awaited => (runtime.services .pool).Awaits awaited
  | .handlers awaited => (runtime.services .pool).loops = [] ∧
      forall job number, (job, number) ∈ runtime.handlers.inFlight.entries -> number ∈ awaited
  | .releases => (runtime.services .pool).loops = [] ∧ runtime.handlers.AllLeft
  | .listener => (runtime.services .pool).loops = [] ∧ runtime.handlers.AllLeft
  | _ => False

/-- The stages a runtime passes through, if `start` and `stop` are not called
again before they have ended. -/
inductive Stage (opts : RuntimeOptions) (runtime : Runtime) : Prop where
  | down (notStarted : runtime.started = false) (noStops : runtime.stops = [])
      (few : runtime.starts.length ≤ 1) (quiet : forall service, (runtime.services service).Quiet)
      (fresh : runtime.closed = false -> runtime.handlers.executing = [])
      (left : runtime.handlers.AllLeft)
  | up (isStarted : runtime.started = true) (noStarts : runtime.starts = [])
      (noStops : runtime.stops = []) (isOpen : runtime.closed = false)
      (alone : forall service,
        (runtime.services service).Awaits (runtime.services service).promise)
      (going : forall service, (runtime.services service).Going)
      (known : forall service, (runtime.services service).running = true ->
        opts.has service = true)
      (idle : (runtime.services .pool).running = false -> runtime.handlers.executing = [])
  | draining {phase} (isStarted : runtime.started = true) (noStarts : runtime.starts = [])
      (one : runtime.stops = [phase]) (isOpen : runtime.closed = false)
      (alone : forall service,
        (runtime.services service).Awaits (runtime.services service).promise)
      (halted : (runtime.services .pool).running = false) (drains : runtime.Drains phase)
  | stopping {awaited} (isStarted : runtime.started = true) (noStarts : runtime.starts = [])
      (one : runtime.stops = [.services awaited]) (isOpen : runtime.closed = false)
      (halted : forall service, (runtime.services service).running = false)
      (drained : (runtime.services .pool).loops = [])
      (awaits : forall service, (runtime.services service).Awaits (awaited service))
      (left : runtime.handlers.AllLeft)
  | closing (isStarted : runtime.started = true) (noStarts : runtime.starts = [])
      (one : runtime.stops = [.connections]) (isClosed : runtime.closed = true)
      (quiet : forall service, (runtime.services service).Quiet) (left : runtime.handlers.AllLeft)

/-- Neither method is called while a call of it has not ended. -/
def Apart (runtime : Runtime) : RuntimeLabel -> Prop
  | .start => runtime.starts = []
  | .stop => runtime.stops = []
  | .signal => runtime.shuttingDown = false -> runtime.stops = []
  | _ => True

/-- The closed database may refuse a `start`, and a handler that nobody waits for:
one that outlived the grace period, or that was counted no more. -/
def Excused (runtime : Runtime) (asker : Asker) : Prop :=
  asker = .start ∨
    Exists fun number : Nat => asker = .handler number ∧ runtime.handlers.Left number

/-- Each service has one loop at most, the other services are awaited after the
pool, and nothing goes on over a closed database but what nobody awaits. -/
structure Orderly (runtime : Runtime) : Prop where
  single : forall service, (runtime.services service).loops.length ≤ 1
  inOrder : forall awaited, .services awaited ∈ runtime.stops ->
    (runtime.services .pool).loops = []
  ended : runtime.closed = true -> forall service, (runtime.services service).loops = []
  refused : forall asker, asker ∈ runtime.refused -> runtime.Excused asker

section

variable {opts : RuntimeOptions} {runtime next : Runtime}

theorem Stage.ended (stage : runtime.Stage opts) (closed : runtime.closed = true)
    (service : Service) : (runtime.services service).loops = [] := by
  cases stage with
  | down notStarted noStops few quiet fresh left => exact (quiet service).ended
  | closing isStarted noStarts one isClosed quiet left => exact (quiet service).ended
  | up isStarted noStarts noStops isOpen => rw [closed] at isOpen; cases isOpen
  | draining isStarted noStarts one isOpen => rw [closed] at isOpen; cases isOpen
  | stopping isStarted noStarts one isOpen => rw [closed] at isOpen; cases isOpen

theorem Stage.orderly (stage : runtime.Stage opts)
    (refused : forall asker, asker ∈ runtime.refused -> runtime.Excused asker) :
    runtime.Orderly where
  single := by
    intro service
    cases stage with
    | down notStarted noStops few quiet => exact ((quiet service).awaits none).single
    | closing isStarted noStarts one isClosed quiet => exact ((quiet service).awaits none).single
    | up isStarted noStarts noStops isOpen alone going known => exact (alone service).single
    | draining isStarted noStarts one isOpen alone halted drains => exact (alone service).single
    | stopping isStarted noStarts one isOpen halted drained awaits =>
        exact (awaits service).single
  inOrder := by
    intro awaited member
    cases stage with
    | down notStarted noStops few quiet => exact (quiet .pool).ended
    | closing isStarted noStarts one isClosed quiet => exact (quiet .pool).ended
    | stopping isStarted noStarts one isOpen halted drained awaits => exact drained
    | up isStarted noStarts noStops isOpen alone going known =>
        rw [noStops] at member
        cases member
    | draining isStarted noStarts one isOpen alone halted drains =>
        rw [one] at member
        rw [← List.mem_singleton.mp member] at drains
        exact absurd drains id
  ended := stage.ended
  refused := refused

/-- The stage is read off the services, the handlers, the calls and the database. -/
theorem Stage.of_same (stage : runtime.Stage opts) (services : next.services = runtime.services)
    (handlers : next.handlers = runtime.handlers) (started : next.started = runtime.started)
    (starts : next.starts = runtime.starts) (stops : next.stops = runtime.stops)
    (closed : next.closed = runtime.closed) : next.Stage opts := by
  rcases next with ⟨_, _, _, _, _, _, shuttingDown, exited, refused⟩
  cases services
  cases handlers
  cases started
  cases starts
  cases stops
  cases closed
  cases stage with
  | down notStarted noStops few quiet fresh left =>
      exact .down notStarted noStops few quiet fresh left
  | up isStarted noStarts noStops isOpen alone going known idle =>
      exact .up isStarted noStarts noStops isOpen alone going known idle
  | draining isStarted noStarts one isOpen alone halted drains =>
      refine .draining isStarted noStarts one isOpen alone halted ?_
      rename_i phase
      cases phase <;> exact drains
  | stopping isStarted noStarts one isOpen halted drained awaits left =>
      exact .stopping isStarted noStarts one isOpen halted drained awaits left
  | closing isStarted noStarts one isClosed quiet left =>
      exact .closing isStarted noStarts one isClosed quiet left

theorem Stage.ask (stage : runtime.Stage opts) (asker : Asker) :
    (runtime.ask asker).Stage opts := by
  unfold Runtime.ask
  split
  · exact stage.of_same rfl rfl rfl rfl rfl rfl
  · exact stage

/-! ### Handlers -/

/-- A handler ends. -/
theorem Stage.settle (stage : runtime.Stage opts) (number : Nat) :
    Stage opts { runtime with handlers := runtime.handlers.settle number } := by
  cases stage with
  | down notStarted noStops few quiet fresh left =>
      exact .down notStarted noStops few quiet
        (fun isOpen => PoolHandlers.executing_settle (fresh isOpen) number) (left.settle number)
  | up isStarted noStarts noStops isOpen alone going known idle =>
      exact .up isStarted noStarts noStops isOpen alone going known
        (fun halted => PoolHandlers.executing_settle (idle halted) number)
  | @draining phase isStarted noStarts one isOpen alone halted drains =>
      refine .draining isStarted noStarts one isOpen alone halted ?_
      cases phase with
      | claims awaited => exact drains
      | handlers awaited =>
          exact ⟨drains.1, fun job other entry =>
            drains.2 job other ((PoolHandlers.settle_fewer number).2.2 job other entry)⟩
      | releases => exact ⟨drains.1, drains.2.settle number⟩
      | listener => exact ⟨drains.1, drains.2.settle number⟩
      | services awaited => exact drains
      | connections => exact drains
  | stopping isStarted noStarts one isOpen halted drained awaits left =>
      exact .stopping isStarted noStarts one isOpen halted drained awaits (left.settle number)
  | closing isStarted noStarts one isClosed quiet left =>
      exact .closing isStarted noStarts one isClosed quiet (left.settle number)

/-- A claim loop that has asked starts handlers. -/
theorem Stage.spawn (stage : runtime.Stage opts) (goesOn : (runtime.services .pool).loops ≠ [])
    (handlers : PoolHandlers) : Stage opts { runtime with handlers := handlers } := by
  cases stage with
  | down notStarted noStops few quiet fresh left => exact absurd (quiet .pool).ended goesOn
  | up isStarted noStarts noStops isOpen alone going known idle =>
      exact .up isStarted noStarts noStops isOpen alone going known
        (fun halted => absurd (going .pool halted) goesOn)
  | @draining phase isStarted noStarts one isOpen alone halted drains =>
      refine .draining isStarted noStarts one isOpen alone halted ?_
      cases phase with
      | claims awaited => exact drains
      | handlers awaited => exact absurd drains.1 goesOn
      | releases => exact absurd drains.1 goesOn
      | listener => exact absurd drains.1 goesOn
      | services awaited => exact drains
      | connections => exact drains
  | stopping isStarted noStarts one isOpen halted drained awaits left => exact absurd drained goesOn
  | closing isStarted noStarts one isClosed quiet left => exact absurd (quiet .pool).ended goesOn

/-! ### Loops -/

theorem forall_only {holds : Service -> ServiceState -> Prop}
    {change : ServiceState -> ServiceState}
    (keeps : forall service state, holds service state -> holds service (change state))
    (all : forall service, holds service (runtime.services service)) (service other : Service) :
    holds other (runtime.only service change other) := by
  unfold only
  split
  · rename_i same
    rw [same]
    exact keeps service _ (all service)
  · exact all other

/-- A loop goes on. -/
theorem Stage.turn (stage : runtime.Stage opts) (service : Service) (id : Nat) (way : LoopTurn) :
    Stage opts { runtime with
      services := runtime.only service (fun state => state.turn id way) } := by
  have alone : (forall service,
      (runtime.services service).Awaits (runtime.services service).promise) -> forall other,
        (runtime.only service (fun state => state.turn id way) other).Awaits
          (runtime.only service (fun state => state.turn id way) other).promise :=
    fun all => @forall_only runtime (fun _ state => state.Awaits state.promise) _
      (fun _ state awaits => ServiceState.promise_turn.symm ▸ awaits.turn) all service
  cases stage with
  | down notStarted noStops few quiet fresh left =>
      exact .down notStarted noStops few (@forall_only runtime (fun _ state => state.Quiet) _
        (fun _ _ quiet => quiet.turn) quiet service) fresh left
  | up isStarted noStarts noStops isOpen all going known idle =>
      refine .up isStarted noStarts noStops isOpen (alone all) ?_ ?_ ?_
      · exact @forall_only runtime (fun _ state => state.Going) _ (fun _ _ going => going.turn)
          going service
      · exact @forall_only runtime (fun service state => state.running = true ->
          opts.has service = true) _
          (fun _ _ known running => known (ServiceState.running_turn.symm.trans running)) known
          service
      · exact @forall_only runtime (fun service state => service = .pool -> state.running = false ->
          runtime.handlers.executing = []) _
          (fun _ _ idle same halted => idle same (ServiceState.running_turn.symm.trans halted))
          (fun other same => same ▸ idle) service .pool rfl
  | @draining phase isStarted noStarts one isOpen all halted drains =>
      refine .draining isStarted noStarts one isOpen (alone all) ?_ ?_
      · exact @forall_only runtime (fun service state => service = .pool ->
          state.running = false) _
          (fun _ _ halts same => ServiceState.running_turn.trans (halts same))
          (fun other same => same ▸ halted) service .pool rfl
      · have ended : (runtime.services .pool).loops = [] ->
            (runtime.only service (fun state => state.turn id way) .pool).loops = [] :=
          fun ended => @forall_only runtime (fun service state => service = .pool ->
            state.loops = []) _ (fun _ _ ended same => ServiceState.ended_turn (ended same))
            (fun other same => same ▸ ended) service .pool rfl
        cases phase with
        | claims awaited =>
            exact @forall_only runtime (fun service state => service = .pool ->
              state.Awaits awaited) _ (fun _ _ awaits same => (awaits same).turn)
              (fun other same => same ▸ drains) service .pool rfl
        | handlers awaited => exact ⟨ended drains.1, drains.2⟩
        | releases => exact ⟨ended drains.1, drains.2⟩
        | listener => exact ⟨ended drains.1, drains.2⟩
        | services awaited => exact drains
        | connections => exact drains
  | @stopping awaited isStarted noStarts one isOpen halted drained awaits left =>
      refine .stopping isStarted noStarts one isOpen ?_ ?_ ?_ left
      · exact @forall_only runtime (fun _ state => state.running = false) _
          (fun _ _ halted => ServiceState.running_turn.trans halted) halted service
      · exact @forall_only runtime (fun service state => service = .pool -> state.loops = []) _
          (fun _ _ ended same => ServiceState.ended_turn (ended same))
          (fun other same => same ▸ drained) service .pool rfl
      · exact @forall_only runtime (fun service state => state.Awaits (awaited service)) _
          (fun _ _ awaits => awaits.turn) awaits service
  | closing isStarted noStarts one isClosed quiet left =>
      exact .closing isStarted noStarts one isClosed (@forall_only runtime
        (fun _ state => state.Quiet) _ (fun _ _ quiet => quiet.turn) quiet service) left

/-! ### `start` -/

/-- `start` is called. -/
theorem Stage.callStart (stage : runtime.Stage opts) (apart : runtime.starts = [])
    (notStarted : runtime.started = false) :
    Stage opts { runtime with starts := runtime.starts ++ [.waiting] } := by
  cases stage with
  | down _ noStops few quiet fresh left =>
      refine .down notStarted noStops ?_ quiet fresh left
      rw [apart]
      exact Nat.le_refl 1
  | up isStarted => rw [notStarted] at isStarted; cases isStarted
  | draining isStarted => rw [notStarted] at isStarted; cases isStarted
  | stopping isStarted => rw [notStarted] at isStarted; cases isStarted
  | closing isStarted => rw [notStarted] at isStarted; cases isStarted

/-- The services are started, in a runtime that is down. -/
theorem stage_begin (quiet : forall service, (runtime.services service).Quiet)
    (noStops : runtime.stops = []) (isOpen : runtime.closed = false)
    (fresh : runtime.handlers.executing = []) {index : Nat}
    (last : runtime.starts.eraseIdx index = []) : (runtime.begin opts index).Stage opts := by
  refine .up rfl last noStops isOpen ?_ ?_ ?_ (fun _ => fresh)
  · intro service
    unfold begin
    dsimp only
    split
    · exact ((quiet service).start _).2
    · exact (quiet service).awaits _
  · intro service
    unfold begin
    dsimp only
    split
    · intro halted
      rw [((quiet service).start _).1] at halted
      cases halted
    · exact fun _ => (quiet service).ended
  · intro service
    unfold begin
    dsimp only
    split
    · rename_i has
      exact fun _ => has
    · intro running
      rw [(quiet service).halted] at running
      cases running

theorem Stage.goOnStart (stage : runtime.Stage opts) {index : Nat} {phase : StartWait}
    (found : runtime.starts[index]? = some phase) (turn : StartTurn) :
    (runtime.goOnStart opts index phase turn).Stage opts := by
  have pending : runtime.starts ≠ [] := by
    intro none
    rw [none] at found
    cases found
  cases stage with
  | up _ noStarts => exact absurd noStarts pending
  | draining _ noStarts => exact absurd noStarts pending
  | stopping _ noStarts => exact absurd noStarts pending
  | closing _ noStarts => exact absurd noStarts pending
  | down notStarted noStops few quiet fresh left =>
      have inside : index < runtime.starts.length := (List.getElem?_eq_some_iff.mp found).1
      have fewer : (runtime.starts.eraseIdx index).length = 0 := by
        rw [List.length_eraseIdx, if_pos inside]
        omega
      have last := List.length_eq_zero_iff.mp fewer
      cases turn with
      | again => exact Stage.ask (.down notStarted noStops few quiet fresh left) .start
      | throws => exact .down notStarted noStops (fewer ▸ Nat.zero_le 1) quiet fresh left
      | answered =>
          unfold Runtime.goOnStart
          dsimp only
          split
          · exact .down notStarted noStops few quiet fresh left
          · rename_i notClosed
            have isOpen := Bool.eq_false_iff.mpr notClosed
            cases phase with
            | checking => exact stage_begin quiet noStops isOpen (fresh isOpen) last
            | waiting =>
                dsimp only
                split
                · exact stage_begin quiet noStops isOpen (fresh isOpen) last
                · refine .down notStarted noStops ?_ quiet fresh left
                  rw [List.length_set]
                  exact few

/-! ### `stop` -/

/-- The pool has ended, and the other services are halted. -/
theorem stage_haltServices (isStarted : runtime.started = true) (noStarts : runtime.starts = [])
    (isOpen : runtime.closed = false) {phase : StopWait} (one : runtime.stops = [phase])
    (alone : forall service,
      (runtime.services service).Awaits (runtime.services service).promise)
    (halted : (runtime.services .pool).running = false)
    (drained : (runtime.services .pool).loops = []) (left : runtime.handlers.AllLeft) :
    (runtime.haltServices 0).Stage opts := by
  refine @Stage.stopping opts _ (fun service => (runtime.services service).promise) isStarted
    noStarts ?_ isOpen ?_ drained ?_ left
  · unfold haltServices
    rw [one]
    exact rfl
  · intro service
    cases service with
    | pool => exact halted
    | reaper => exact rfl
    | scheduler => exact rfl
    | retention => exact rfl
  · intro service
    cases service with
    | pool => exact alone .pool
    | reaper => exact (alone .reaper).of_ids (List.Sublist.refl _)
    | scheduler => exact (alone .scheduler).of_ids (List.Sublist.refl _)
    | retention => exact (alone .retention).of_ids (List.Sublist.refl _)

/-- `stop` is called. -/
theorem Stage.callStop (stage : runtime.Stage opts) (apart : runtime.stops = []) :
    (runtime.callStop opts).Stage opts := by
  unfold Runtime.callStop
  cases stage with
  | down notStarted noStops few quiet fresh left =>
      rw [if_pos notStarted]
      exact .down notStarted noStops few quiet fresh left
  | draining isStarted noStarts one => rw [apart] at one; cases one
  | stopping isStarted noStarts one => rw [apart] at one; cases one
  | closing isStarted noStarts one => rw [apart] at one; cases one
  | up isStarted noStarts noStops isOpen alone going known idle =>
      rw [if_neg (by rw [isStarted]; exact Bool.noConfusion)]
      split
      · refine @Stage.draining opts _ (.claims (runtime.services .pool).promise) isStarted noStarts
          ?_ isOpen ?_ rfl ?_
        · rw [noStops]
          exact rfl
        · exact @forall_only runtime (fun _ state => state.Awaits state.promise) ServiceState.halt
            (fun _ _ awaits => awaits.of_ids (List.Sublist.refl _)) alone .pool
        · exact (alone .pool).of_ids (List.Sublist.refl _)
      · rename_i absent
        have halted : (runtime.services .pool).running = false := by
          cases running : (runtime.services .pool).running with
          | false => exact rfl
          | true => simp [running, known .pool running] at absent
        rw [noStops]
        exact @stage_haltServices opts { runtime with stops := [] ++ [.listener] } isStarted
          noStarts isOpen .listener rfl alone halted (going .pool halted)
          (PoolHandlers.allLeft_of_executing (idle halted))

/-- A call of `stop` comes to its next wait while the pool drains. -/
theorem stage_awaits (isStarted : runtime.started = true) (noStarts : runtime.starts = [])
    (isOpen : runtime.closed = false) {phase : StopWait} (one : runtime.stops = [phase])
    (alone : forall service,
      (runtime.services service).Awaits (runtime.services service).promise)
    (halted : (runtime.services .pool).running = false) {after : StopWait}
    (drains : runtime.Drains after) : (runtime.awaits 0 after).Stage opts := by
  refine @Stage.draining opts _ after isStarted noStarts ?_ isOpen alone halted ?_
  · unfold awaits
    rw [one]
    exact rfl
  · cases after <;> exact drains

/-- A turn of `stop` while the pool is waited for. -/
theorem draining_goOnStop {phase : StopWait} (counted : runtime.handlers.Counted)
    (isStarted : runtime.started = true) (noStarts : runtime.starts = [])
    (one : runtime.stops = [phase]) (isOpen : runtime.closed = false)
    (alone : forall service, (runtime.services service).Awaits (runtime.services service).promise)
    (halted : (runtime.services .pool).running = false) (drains : runtime.Drains phase)
    (turn : StopTurn) : (runtime.goOnStop 0 phase turn).Stage opts := by
  have stays := @Stage.draining opts runtime phase isStarted noStarts one isOpen alone halted drains
  have goes : forall {after : StopWait}, runtime.Drains after ->
      (runtime.awaits 0 after).Stage opts :=
    fun drains => stage_awaits isStarted noStarts isOpen one alone halted drains
  cases phase with
  | claims awaited =>
      cases turn with
      | elapsed => exact stays
      | again => exact stays
      | goesOn =>
          unfold Runtime.goOnStop
          dsimp only
          split
          · rename_i settled
            have ended := ServiceState.Awaits.ended drains settled
            have alone : forall service,
                (runtime.only .pool ServiceState.forget service).Awaits
                  (runtime.only .pool ServiceState.forget service).promise := by
              intro service
              cases service with
              | pool =>
                  have quiet : (runtime.services .pool).forget.Quiet := ⟨halted, ended⟩
                  exact quiet.awaits none
              | reaper => exact alone .reaper
              | scheduler => exact alone .scheduler
              | retention => exact alone .retention
            refine @stage_awaits opts
              { runtime with services := runtime.only .pool ServiceState.forget } isStarted
              noStarts isOpen _ one alone halted _ ?_
            split
            · rename_i none
              exact ⟨ended, counted.allLeft_of_size none⟩
            · exact ⟨ended, fun _ _ entry => List.mem_map_of_mem entry⟩
          · exact stays
  | handlers awaited =>
      cases turn with
      | again => exact stays
      | goesOn =>
          unfold Runtime.goOnStop
          dsimp only
          split
          · rename_i ended
            exact goes ⟨drains.1, counted.allLeft_of_ended drains.2 ended⟩
          · exact stays
      | elapsed =>
          unfold Runtime.goOnStop
          dsimp only
          split
          · rename_i none
            exact goes ⟨drains.1, counted.allLeft_of_size none⟩
          · exact @stage_awaits opts { runtime with handlers := runtime.handlers.strand }
              isStarted noStarts isOpen _ one alone halted _
              ⟨drains.1, PoolHandlers.allLeft_strand⟩
  | releases =>
      cases turn with
      | goesOn => exact goes ⟨drains.1, drains.2⟩
      | elapsed => exact stays
      | again => exact stays.ask .release
  | listener =>
      cases turn with
      | goesOn =>
          exact stage_haltServices isStarted noStarts isOpen one alone halted drains.1 drains.2
      | elapsed => exact stays
      | again => exact stays
  | services awaited => exact absurd drains id
  | connections => exact absurd drains id

/-- A turn of `stop` while the other services are waited for. -/
theorem stopping_goOnStop {awaited : Service -> Option Nat} (isStarted : runtime.started = true)
    (noStarts : runtime.starts = []) (one : runtime.stops = [.services awaited])
    (isOpen : runtime.closed = false)
    (halted : forall service, (runtime.services service).running = false)
    (drained : (runtime.services .pool).loops = [])
    (awaits : forall service, (runtime.services service).Awaits (awaited service))
    (left : runtime.handlers.AllLeft) (turn : StopTurn) :
    (runtime.goOnStop 0 (.services awaited) turn).Stage opts := by
  have stays := @Stage.stopping opts runtime awaited isStarted noStarts one isOpen halted
    drained awaits left
  cases turn with
  | elapsed => exact stays
  | again => exact stays
  | goesOn =>
      unfold Runtime.goOnStop
      dsimp only
      split
      · rename_i settled
        simp only [List.all_cons, List.all_nil, Bool.and_true, Bool.and_eq_true] at settled
        refine .closing isStarted noStarts ?_ rfl ?_ left
        · unfold Runtime.awaits
          rw [one]
          exact rfl
        · intro service
          cases service with
          | pool => exact ⟨halted .pool, drained⟩
          | reaper => exact ⟨halted .reaper, (awaits .reaper).ended settled.1⟩
          | scheduler => exact ⟨halted .scheduler, (awaits .scheduler).ended settled.2.1⟩
          | retention => exact ⟨halted .retention, (awaits .retention).ended settled.2.2⟩
      · exact stays

/-- A turn of `stop` while the connections are closed. -/
theorem closing_goOnStop (isStarted : runtime.started = true) (noStarts : runtime.starts = [])
    (one : runtime.stops = [.connections]) (isClosed : runtime.closed = true)
    (quiet : forall service, (runtime.services service).Quiet) (left : runtime.handlers.AllLeft)
    (turn : StopTurn) : (runtime.goOnStop 0 .connections turn).Stage opts := by
  have stays := @Stage.closing opts runtime isStarted noStarts one isClosed quiet left
  cases turn with
  | elapsed => exact stays
  | again => exact stays
  | goesOn =>
      have isClosed : Not (runtime.closed = false) := by
        rw [isClosed]
        exact Bool.noConfusion
      refine .down rfl ?_ ?_ quiet (fun isOpen => absurd isOpen isClosed) left
      · change runtime.stops.eraseIdx 0 = []
        rw [one]
        exact rfl
      · change runtime.starts.length ≤ 1
        rw [noStarts]
        exact Nat.zero_le 1

theorem Stage.goOnStop (stage : runtime.Stage opts) (counted : runtime.handlers.Counted)
    {index : Nat} {phase : StopWait} (found : runtime.stops[index]? = some phase)
    (turn : StopTurn) : (runtime.goOnStop index phase turn).Stage opts := by
  have only : forall {other : StopWait}, runtime.stops = [other] -> index = 0 ∧ phase = other := by
    intro other one
    rw [one] at found
    rcases List.getElem?_eq_some_iff.mp found with ⟨inside, same⟩
    have first : index = 0 := Nat.lt_one_iff.mp inside
    subst first
    exact ⟨rfl, same.symm⟩
  cases stage with
  | down notStarted noStops few quiet fresh left =>
      rw [noStops] at found
      cases found
  | up isStarted noStarts noStops =>
      rw [noStops] at found
      cases found
  | draining isStarted noStarts one isOpen alone halted drains =>
      rcases only one with ⟨rfl, rfl⟩
      exact draining_goOnStop counted isStarted noStarts one isOpen alone halted drains turn
  | stopping isStarted noStarts one isOpen halted drained awaits left =>
      rcases only one with ⟨rfl, rfl⟩
      exact stopping_goOnStop isStarted noStarts one isOpen halted drained awaits left turn
  | closing isStarted noStarts one isClosed quiet left =>
      rcases only one with ⟨rfl, rfl⟩
      exact closing_goOnStop isStarted noStarts one isClosed quiet left turn

/-! ### Refusals -/

theorem refused_ask {asker other : Asker} (member : other ∈ (runtime.ask asker).refused) :
    other ∈ runtime.refused ∨ (runtime.closed = true ∧ other = asker) := by
  unfold Runtime.ask at member
  split at member
  · rename_i closed
    rcases List.mem_append.mp member with earlier | new
    · exact Or.inl earlier
    · exact Or.inr ⟨closed, List.mem_singleton.mp new⟩
  · exact Or.inl member

theorem ask_of_open (isOpen : runtime.closed = false) (asker : Asker) :
    runtime.ask asker = runtime := by
  unfold Runtime.ask
  rw [if_neg (Bool.eq_false_iff.mp isOpen)]

theorem handlers_ask (asker : Asker) : (runtime.ask asker).handlers = runtime.handlers := by
  unfold Runtime.ask
  split <;> exact rfl

theorem same_callStop : (runtime.callStop opts).refused = runtime.refused ∧
    (runtime.callStop opts).handlers = runtime.handlers := by
  unfold Runtime.callStop
  split
  · exact ⟨rfl, rfl⟩
  · split <;> exact ⟨rfl, rfl⟩

theorem refused_goOnStart {index : Nat} {phase : StartWait} {turn : StartTurn} {asker : Asker}
    (member : asker ∈ (runtime.goOnStart opts index phase turn).refused) :
    asker ∈ runtime.refused ∨ asker = .start := by
  cases turn with
  | again => exact (refused_ask member).imp_right (fun refusal => refusal.2)
  | throws => exact Or.inl member
  | answered =>
      unfold Runtime.goOnStart at member
      dsimp only at member
      split at member
      · exact Or.inl member
      · cases phase with
        | checking => exact Or.inl member
        | waiting =>
            dsimp only at member
            split at member <;> exact Or.inl member

theorem handlers_goOnStart {index : Nat} {phase : StartWait} {turn : StartTurn} :
    (runtime.goOnStart opts index phase turn).handlers = runtime.handlers := by
  cases turn with
  | again => exact handlers_ask .start
  | throws => exact rfl
  | answered =>
      unfold Runtime.goOnStart
      dsimp only
      split
      · exact rfl
      · cases phase with
        | checking => exact rfl
        | waiting =>
            dsimp only
            split <;> exact rfl

/-- Jobs are released before the database is closed. -/
theorem Stage.open_of_releases (stage : runtime.Stage opts) {index : Nat}
    (found : runtime.stops[index]? = some .releases) : runtime.closed = false := by
  have member := List.mem_of_getElem? found
  cases stage with
  | down notStarted noStops few quiet fresh left => rw [noStops] at member; cases member
  | up isStarted noStarts noStops isOpen alone going known idle => exact isOpen
  | draining isStarted noStarts one isOpen alone halted drains => exact isOpen
  | stopping isStarted noStarts one isOpen halted drained awaits left => exact isOpen
  | closing isStarted noStarts one isClosed quiet left =>
      rw [one] at member
      cases List.mem_singleton.mp member

theorem refused_goOnStop {index : Nat} {phase : StopWait} {turn : StopTurn} {asker : Asker}
    (member : asker ∈ (runtime.goOnStop index phase turn).refused) :
    asker ∈ runtime.refused ∨ (runtime.closed = true ∧ phase = .releases) := by
  unfold Runtime.goOnStop at member
  split at member
  · split at member <;> exact Or.inl member
  · split at member <;> exact Or.inl member
  · split at member <;> exact Or.inl member
  · exact (refused_ask member).imp_right (fun refusal => ⟨refusal.1, rfl⟩)
  · exact Or.inl member
  · exact Or.inl member
  · split at member <;> exact Or.inl member
  · exact Or.inl member
  · exact Or.inl member

/-- `stop` changes the handlers only when the grace period has elapsed. -/
theorem handlers_goOnStop {index : Nat} {phase : StopWait} {turn : StopTurn} :
    (runtime.goOnStop index phase turn).handlers = runtime.handlers ∨
      (runtime.goOnStop index phase turn).handlers = runtime.handlers.strand := by
  unfold Runtime.goOnStop
  split
  · split <;> exact Or.inl rfl
  · split <;> exact Or.inl rfl
  · split
    · exact Or.inl rfl
    · exact Or.inr rfl
  · exact Or.inl (handlers_ask .release)
  · exact Or.inl rfl
  · exact Or.inl rfl
  · split <;> exact Or.inl rfl
  · exact Or.inl rfl
  · exact Or.inl rfl

/-- An excuse is good for ever. -/
theorem Excused.later {asker : Asker} (excused : runtime.Excused asker)
    (still : forall number, runtime.handlers.Left number -> next.handlers.Left number) :
    next.Excused asker := by
  rcases excused with isStart | ⟨number, isHandler, left⟩
  · exact Or.inl isStart
  · exact Or.inr ⟨number, isHandler, still number left⟩

end

/-! ### Steps -/

/-- The stage of a runtime, its handlers, and whom the database has refused. -/
structure Sound (opts : RuntimeOptions) (runtime : Runtime) : Prop where
  stage : runtime.Stage opts
  counted : runtime.handlers.Counted
  refused : forall asker, asker ∈ runtime.refused -> runtime.Excused asker

section

variable {opts : RuntimeOptions} {runtime : Runtime}

theorem Stage.allLeft (stage : runtime.Stage opts) (closed : runtime.closed = true) :
    runtime.handlers.AllLeft := by
  cases stage with
  | down notStarted noStops few quiet fresh left => exact left
  | closing isStarted noStarts one isClosed quiet left => exact left
  | stopping isStarted noStarts one isOpen halted drained awaits left => exact left
  | up isStarted noStarts noStops isOpen => rw [closed] at isOpen; cases isOpen
  | draining isStarted noStarts one isOpen => rw [closed] at isOpen; cases isOpen

theorem Sound.of_same {next : Runtime} (sound : runtime.Sound opts) (stage : next.Stage opts)
    (handlers : next.handlers = runtime.handlers) (same : next.refused = runtime.refused) :
    next.Sound opts where
  stage := stage
  counted := handlers ▸ sound.counted
  refused := by
    intro asker member
    rw [same] at member
    exact (sound.refused asker member).later (fun number left => handlers ▸ left)

theorem Sound.ask (sound : runtime.Sound opts) {asker : Asker}
    (allowed : runtime.closed = true -> runtime.Excused asker) :
    (runtime.ask asker).Sound opts where
  stage := sound.stage.ask asker
  counted := by
    rw [handlers_ask]
    exact sound.counted
  refused := by
    intro other member
    have still : forall number, runtime.handlers.Left number ->
        (runtime.ask asker).handlers.Left number := by
      intro number left
      rw [handlers_ask]
      exact left
    rcases refused_ask member with earlier | ⟨closed, rfl⟩
    · exact (sound.refused other earlier).later still
    · exact (allowed closed).later still

theorem Sound.callStop (sound : runtime.Sound opts) (apart : runtime.stops = []) :
    (runtime.callStop opts).Sound opts :=
  sound.of_same (sound.stage.callStop apart) same_callStop.2 same_callStop.1

theorem Sound.goOnStop (sound : runtime.Sound opts) {index : Nat} {phase : StopWait}
    (found : runtime.stops[index]? = some phase) (turn : StopTurn) :
    (runtime.goOnStop index phase turn).Sound opts where
  stage := sound.stage.goOnStop sound.counted found turn
  counted := by
    rcases @handlers_goOnStop runtime index phase turn with same | strands
    · rw [same]
      exact sound.counted
    · rw [strands]
      exact sound.counted.strand
  refused := by
    intro asker member
    rcases refused_goOnStop member with earlier | ⟨closed, rfl⟩
    · refine (sound.refused asker earlier).later fun number left => ?_
      rcases @handlers_goOnStop runtime index phase turn with same | strands
      · rw [same]
        exact left
      · rw [strands]
        exact left.imp_left (List.mem_append_left _)
    · rw [sound.stage.open_of_releases found] at closed
      cases closed

/-- A handler ends. -/
theorem Sound.settle (sound : runtime.Sound opts) (number : Nat) :
    Sound opts { runtime with handlers := runtime.handlers.settle number } where
  stage := sound.stage.settle number
  counted := sound.counted.settle number
  refused := fun asker member =>
    (sound.refused asker member).later (PoolHandlers.settle_fewer number).2.1

/-- Handlers start. -/
theorem Sound.spawn (sound : runtime.Sound opts) (goesOn : (runtime.services .pool).loops ≠ [])
    (jobs : List Nat) :
    Sound opts { runtime with handlers := jobs.foldl PoolHandlers.spawn runtime.handlers } where
  stage := sound.stage.spawn goesOn _
  counted := sound.counted.spawns jobs
  refused := fun asker member =>
    (sound.refused asker member).later (PoolHandlers.left_spawns jobs)

theorem Sound.step (sound : runtime.Sound opts) {label : RuntimeLabel}
    (apart : runtime.Apart label) : (runtime.step opts label).Sound opts := by
  have still : forall {next : Runtime}, next.services = runtime.services ->
      next.handlers = runtime.handlers -> next.started = runtime.started ->
        next.starts = runtime.starts -> next.stops = runtime.stops ->
          next.closed = runtime.closed -> next.refused = runtime.refused -> next.Sound opts :=
    fun services handlers started starts stops closed refused =>
      sound.of_same (sound.stage.of_same services handlers started starts stops closed) handlers
        refused
  unfold Runtime.step
  split
  · exact sound
  · cases label with
    | start =>
        dsimp only
        split
        · exact sound
        · rename_i notStarted
          apply Sound.ask
          · exact sound.of_same (sound.stage.callStart apart (Bool.eq_false_iff.mpr notStarted)) rfl
              rfl
          · exact fun _ => Or.inl rfl
    | starts index turn =>
        dsimp only
        split
        · exact sound
        · rename_i phase found
          have same := @handlers_goOnStart opts runtime index phase turn
          refine ⟨sound.stage.goOnStart found turn, same ▸ sound.counted, fun asker member => ?_⟩
          rcases refused_goOnStart member with earlier | isStart
          · exact (sound.refused asker earlier).later (fun number left => same ▸ left)
          · exact Or.inl isStart
    | loop service id turn =>
        have moved := sound.of_same (sound.stage.turn service id turn) rfl rfl
        dsimp only
        split
        · split
          · rename_i asks
            refine moved.ask (fun closed => ?_)
            rw [ServiceState.not_asks_of_ended (sound.stage.ended closed service)] at asks
            cases asks
          · exact moved
        · exact sound
    | spawn jobs =>
        dsimp only
        split
        · rename_i asking
          refine sound.spawn (fun none => ?_) jobs
          rw [none] at asking
          cases asking
        · exact sound
    | handlerAsks number =>
        dsimp only
        split
        · rename_i running
          exact sound.ask fun closed =>
            Or.inr ⟨number, rfl, sound.stage.allLeft closed number running⟩
        · exact sound
    | handlerSettles number => exact sound.settle number
    | stop => exact sound.callStop apart
    | stops index turn =>
        dsimp only
        split
        · exact sound
        · rename_i phase found
          exact sound.goOnStop found turn
    | signal =>
        dsimp only
        split
        · exact still rfl rfl rfl rfl rfl rfl rfl
        · rename_i first
          apply Sound.callStop
          · exact still rfl rfl rfl rfl rfl rfl rfl
          · exact apart (Bool.eq_false_iff.mpr first)
    | exits =>
        dsimp only
        split
        · exact still rfl rfl rfl rfl rfl rfl rfl
        · exact sound

theorem Sound.new (opts : RuntimeOptions) : Sound opts .new where
  stage := .down rfl rfl (Nat.zero_le 1) (fun _ => ⟨rfl, rfl⟩) (fun _ => rfl)
    (PoolHandlers.allLeft_of_executing rfl)
  counted := PoolHandlers.counted_new
  refused _ member := absurd member List.not_mem_nil

end

end Runtime

/-! ## Runs -/

/-- The runtime after these steps. -/
def runtimeAfter (opts : RuntimeOptions) (labels : List RuntimeLabel) : Runtime :=
  run (Runtime.step opts) .new labels

theorem always_sound {opts : RuntimeOptions} {labels : List RuntimeLabel}
    (apart : EachStep (Runtime.step opts) Runtime.Apart .new labels) :
    Always (Runtime.step opts) (Runtime.Sound opts) .new labels :=
  @always_of_eachStep _ _ (Runtime.step opts) (Runtime.Sound opts) _ _ (fun _ sound => sound)
    (fun _ _ sound meets => sound.step meets) _ (Runtime.Sound.new opts) _ apart

/-- In every run in which neither `start` nor `stop` is called while a call of it
has not ended: each service has one loop at most, the others are awaited only
when the pool has ended, and the database is closed only when all loops have.
Afterwards nobody asks it but `start`, and handlers that outlived the grace
period or were counted no more. -/
theorem runtime_stops_in_order (opts : RuntimeOptions) (labels : List RuntimeLabel)
    (apart : EachStep (Runtime.step opts) Runtime.Apart .new labels) :
    Always (Runtime.step opts) Runtime.Orderly .new labels :=
  @always_of_eachStep _ _ (Runtime.step opts) (Runtime.Sound opts) _ _
    (fun _ sound => sound.stage.orderly sound.refused)
    (fun _ _ sound meets => sound.step meets) _ (Runtime.Sound.new opts) _ apart

def poolAndReaper (concurrency : Nat) : RuntimeOptions where
  has service := service = .pool || service = .reaper
  concurrency := concurrency
  skipSchemaCheck := false

/-- A handler outlives the grace period, and its report finds the database
closed. -/
def drained : List RuntimeLabel :=
  [.start, .starts 0 .answered, .starts 0 .answered, .spawn [7, 8], .handlerSettles 1, .signal,
    .loop .pool 0 (.turns .resting), .stops 0 .goesOn, .stops 0 .elapsed, .stops 0 .again,
    .stops 0 .goesOn, .stops 0 .goesOn, .loop .reaper 0 .asks, .loop .reaper 0 .rests,
    .loop .reaper 0 (.turns .asking), .stops 0 .goesOn, .handlerAsks 0, .stops 0 .goesOn, .exits]

theorem drained_in_order :
    Always (Runtime.step (poolAndReaper 5)) Runtime.Orderly .new drained ∧
      (runtimeAfter (poolAndReaper 5) drained).refused = [.handler 0] ∧
      (runtimeAfter (poolAndReaper 5) drained).handlers.stranded = [0] := by
  refine ⟨runtime_stops_in_order (poolAndReaper 5) drained ?_, by decide, by decide⟩
  refine ⟨rfl, trivial, trivial, trivial, trivial, fun _ => rfl, ?_⟩
  exact ⟨trivial, trivial, trivial, trivial, trivial, trivial, trivial, trivial, trivial, trivial,
    trivial, trivial, trivial, trivial⟩

/-- The second `stop` finds the pool halted, and closes the database while the
claim loop goes on. -/
example :
    let runtime := runtimeAfter (poolAndReaper 5) [.start, .starts 0 .answered,
      .starts 0 .answered, .stop, .stop, .loop .reaper 0 (.turns .resting), .stops 1 .goesOn,
      .stops 1 .goesOn, .loop .pool 0 .asks]
    runtime.closed = true ∧ runtime.refused = [.loop .pool] := by
  decide

end PgJobQ
