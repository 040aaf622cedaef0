import Mathlib.Algebra.Ring.Nat
import PgJobQ.Runtime.StartStop

/-!
# The end of `stop`

`stop` waits for the claim loop before it starts the grace period.  If the loop
waits for a slot, one of the handlers it waits for must end first.  Otherwise
`stop` comes to its end whatever the handlers do.
-/

namespace PgJobQ

open Runs

/-- A step of `stop` itself, or of a loop. -/
def RuntimeLabel.isStopping : RuntimeLabel -> Bool
  | .stops _ _ => true
  | .loop _ _ _ => true
  | _ => false

def StopWait.rank : StopWait -> Nat
  | .claims _ => 5
  | .handlers _ => 4
  | .releases => 3
  | .listener => 2
  | .services _ => 1
  | .connections => 0

namespace Runtime

/-- A claim loop waits for a slot, and all handlers it waits for go on. -/
def Stuck (runtime : Runtime) : Prop :=
  Exists fun id : Nat => Exists fun raced : List Nat =>
    (id, .racing raced) ∈ (runtime.services .pool).loops ∧
      forall number, number ∈ raced -> runtime.handlers.runs number = true

/-- How many loops have not ended. -/
def alive (runtime : Runtime) : Nat :=
  ([Service.pool, .reaper, .scheduler, .retention].map
    (fun service => (runtime.services service).loops.length)).sum

/-- What is left to do for the calls of `stop`. -/
def toStop (runtime : Runtime) : Nat := (runtime.stops.map StopWait.rank).sum + runtime.alive

section

variable {opts : RuntimeOptions} {runtime : Runtime}

theorem not_stuck_of_drained (drained : (runtime.services .pool).loops = []) :
    Not runtime.Stuck := by
  rintro ⟨id, raced, member, _⟩
  rw [drained] at member
  cases member

/-- The loop of a halted service ends. -/
theorem alive_turn {service : Service} (halted : (runtime.services service).running = false)
    {loop : Nat × LoopPhase} {loops : List (Nat × LoopPhase)}
    (has : (runtime.services service).loops = loop :: loops) :
    alive { runtime with
      services := runtime.only service (fun state => state.turn loop.1 (.turns .resting)) } <
        runtime.alive := by
  have fewer : ((runtime.services service).turn loop.1 (.turns .resting)).loops.length <
      (runtime.services service).loops.length := by
    unfold ServiceState.turn
    dsimp only
    rw [halted, if_neg Bool.false_ne_true, has, List.filter_cons]
    simp only [ne_eq, not_true_eq_false, decide_false, Bool.false_eq_true, if_false,
      List.length_cons]
    exact Nat.lt_succ_of_le (List.length_filter_le _ loops)
  unfold alive
  cases service <;>
    simp only [only, List.map_cons, List.map_nil, List.sum_cons, List.sum_nil, if_true,
      reduceCtorEq, if_false] <;> omega

theorem toStop_of_one {phase : StopWait} (one : runtime.stops = [phase]) :
    runtime.toStop = phase.rank + runtime.alive := by
  unfold toStop
  rw [one]
  exact rfl

theorem step_stops (live : runtime.exited = false) {phase : StopWait}
    (one : runtime.stops = [phase]) (turn : StopTurn) :
    runtime.step opts (.stops 0 turn) = runtime.goOnStop 0 phase turn := by
  unfold step
  rw [live, if_neg Bool.false_ne_true]
  simp only [one, List.getElem?_cons_zero]

theorem step_loop (live : runtime.exited = false) {service : Service}
    (halted : (runtime.services service).running = false) {id : Nat}
    (may : runtime.mayTurn opts service id (.turns .resting) = true) :
    runtime.step opts (.loop service id (.turns .resting)) = { runtime with
      services := runtime.only service (fun state => state.turn id (.turns .resting)) } := by
  have silent : (runtime.services service).asks id (.turns .resting) = false := by
    unfold ServiceState.asks
    dsimp only
    rw [halted, Bool.false_and, Bool.false_and]
  unfold step
  rw [live, if_neg Bool.false_ne_true]
  dsimp only
  rw [if_pos may, silent, if_neg Bool.false_ne_true]

/-- The only claim loop may end where it is not stuck. -/
theorem slotFreed_of_not_stuck (free : Not runtime.Stuck) (id : Nat) :
    runtime.slotFreed id = true := by
  unfold slotFreed
  apply List.all_eq_true.mpr
  rintro ⟨other, phase⟩ member
  rw [Bool.or_eq_true]
  refine Or.inr ?_
  cases phase with
  | asking => exact rfl
  | resting => exact rfl
  | racing raced =>
      dsimp only
      by_contra silent
      refine free ⟨other, raced, member, fun number listed => ?_⟩
      by_contra ended
      exact silent (List.any_eq_true.mpr ⟨number, listed, by simpa using ended⟩)

/-- A step that brings the calls of `stop` nearer to their end, with no claim
loop left. -/
structure Nearer (opts : RuntimeOptions) (runtime : Runtime) (label : RuntimeLabel) : Prop where
  stopping : label.isStopping = true
  live : (runtime.step opts label).exited = false
  calls : (runtime.step opts label).stops ≠ []
  drained : ((runtime.step opts label).services .pool).loops = []
  fewer : (runtime.step opts label).toStop < runtime.toStop

/-- `stop` goes on to another phase. -/
theorem nearer_of_phase (live : runtime.exited = false) {phase after : StopWait} {turn : StopTurn}
    {next : Runtime} (one : runtime.stops = [phase]) (goes : runtime.goOnStop 0 phase turn = next)
    (stops : next.stops = runtime.stops.set 0 after) (stillLive : next.exited = runtime.exited)
    (drained : (next.services .pool).loops = []) (alive : next.alive = runtime.alive)
    (lower : after.rank < phase.rank) : runtime.Nearer opts (.stops 0 turn) := by
  have isNext := (step_stops live one turn : runtime.step opts _ = _).trans goes
  have isOne : next.stops = [after] := by
    rw [stops, one]
    exact rfl
  refine ⟨rfl, ?_, ?_, ?_, ?_⟩
  · rw [isNext]
    exact stillLive.trans live
  · rw [isNext, isOne]
    exact List.cons_ne_nil after []
  · rw [isNext]
    exact drained
  · rw [isNext, toStop_of_one isOne, toStop_of_one one, alive]
    exact Nat.add_lt_add_right lower _

/-- The loop of a halted service ends. -/
theorem nearer_of_loop (live : runtime.exited = false) (calls : runtime.stops ≠ [])
    {service : Service} (halted : (runtime.services service).running = false)
    {loop : Nat × LoopPhase} {loops : List (Nat × LoopPhase)}
    (has : (runtime.services service).loops = loop :: loops)
    (may : runtime.mayTurn opts service loop.1 (.turns .resting) = true)
    (drained : (runtime.only service (fun state => state.turn loop.1 (.turns .resting))
      .pool).loops = []) : runtime.Nearer opts (.loop service loop.1 (.turns .resting)) := by
  have isNext := step_loop live halted may
  refine ⟨rfl, ?_, ?_, ?_, ?_⟩
  · rw [isNext]
    exact live
  · rw [isNext]
    exact calls
  · rw [isNext]
    exact drained
  · rw [isNext]
    exact Nat.add_lt_add_left (alive_turn halted has) _

theorem Stage.nearer (stage : runtime.Stage opts) (live : runtime.exited = false)
    (calls : runtime.stops ≠ []) (isOpen : runtime.closed = false) (free : Not runtime.Stuck) :
    Exists fun label : RuntimeLabel => runtime.Nearer opts label := by
  cases stage with
  | down notStarted noStops few quiet fresh left => exact absurd noStops calls
  | up isStarted noStarts noStops => exact absurd noStops calls
  | closing isStarted noStarts one isClosed quiet left => rw [isOpen] at isClosed; cases isClosed
  | @draining phase isStarted noStarts one _ alone halted drains =>
      cases phase with
      | services awaited => exact absurd drains id
      | connections => exact absurd drains id
      | claims awaited =>
          cases loops : (runtime.services .pool).loops with
          | cons loop rest =>
              have single : rest = [] := by
                have few := (alone .pool).single
                rw [loops, List.length_cons] at few
                exact List.length_eq_zero_iff.mp (by omega)
              subst single
              refine ⟨_, nearer_of_loop live calls halted loops ?_ ?_⟩
              · simp only [mayTurn, slotFreed_of_not_stuck free, halted, Bool.not_false,
                  Bool.true_or, Bool.and_self]
              · change ((runtime.services .pool).turn loop.1 (.turns .resting)).loops = []
                unfold ServiceState.turn
                dsimp only
                rw [halted, if_neg Bool.false_ne_true, loops]
                simp
          | nil =>
              have settled : (runtime.services .pool).ended awaited = true := by
                unfold ServiceState.ended
                rw [loops]
                exact rfl
              have goes : runtime.goOnStop 0 (.claims awaited) .goesOn = awaits { runtime with
                  services := runtime.only .pool ServiceState.forget } 0
                    (if runtime.handlers.inFlight.size = 0 then .listener
                      else .handlers runtime.handlers.inFlight.values) := by
                simp only [Runtime.goOnStop, settled, if_true]
              refine ⟨_, nearer_of_phase live one goes rfl rfl loops rfl ?_⟩
              split
              · exact (by decide : 2 < 5)
              · exact (by decide : 4 < 5)
      | handlers awaited =>
          by_cases none : runtime.handlers.inFlight.size = 0
          · have goes : runtime.goOnStop 0 (.handlers awaited) .elapsed =
                runtime.awaits 0 .listener := by
              simp only [Runtime.goOnStop, if_pos none]
            exact ⟨_, nearer_of_phase live one goes rfl rfl drains.1 rfl (by decide : 2 < 4)⟩
          · have goes : runtime.goOnStop 0 (.handlers awaited) .elapsed =
                awaits { runtime with handlers := runtime.handlers.strand } 0 .releases := by
              simp only [Runtime.goOnStop, if_neg none]
            exact ⟨_, nearer_of_phase live one goes rfl rfl drains.1 rfl (by decide : 3 < 4)⟩
      | releases =>
          have goes : runtime.goOnStop 0 .releases .goesOn = runtime.awaits 0 .listener := rfl
          exact ⟨_, nearer_of_phase live one goes rfl rfl drains.1 rfl (by decide : 2 < 3)⟩
      | listener =>
          have goes : runtime.goOnStop 0 .listener .goesOn = runtime.haltServices 0 := rfl
          exact ⟨_, nearer_of_phase live one goes rfl rfl drains.1 rfl (by decide : 1 < 2)⟩
  | @stopping awaited isStarted noStarts one _ halted drained awaits left =>
      by_cases left : Exists fun service : Service => (runtime.services service).loops ≠ []
      · rcases left with ⟨service, some⟩
        rcases List.exists_cons_of_ne_nil some with ⟨loop, rest, loops⟩
        cases service with
        | pool => exact absurd drained some
        | reaper => exact ⟨_, nearer_of_loop live calls (halted .reaper) loops rfl drained⟩
        | scheduler => exact ⟨_, nearer_of_loop live calls (halted .scheduler) loops rfl drained⟩
        | retention => exact ⟨_, nearer_of_loop live calls (halted .retention) loops rfl drained⟩
      · have none : forall service awaited, (runtime.services service).ended awaited = true := by
          intro service awaited
          have loops := Classical.not_not.mp (fun some => left ⟨service, some⟩)
          unfold ServiceState.ended
          rw [loops]
          exact rfl
        have goes : runtime.goOnStop 0 (.services awaited) .goesOn = Runtime.awaits { runtime with
            services := runtime.others ServiceState.forget
            closed := true } 0 .connections := by
          simp only [Runtime.goOnStop, none, List.all_cons, List.all_nil, Bool.and_self, if_true]
        exact ⟨_, nearer_of_phase live one goes rfl rfl drained rfl (by decide : 0 < 1)⟩

/-! ### A claim loop that is stuck -/

/-- `stop` waits for a claim loop that waits for handlers. -/
structure Waiting (id : Nat) (raced : List Nat) (runtime : Runtime) : Prop where
  claims : runtime.stops = [.claims (some id)]
  loops : (runtime.services .pool).loops = [(id, .racing raced)]
  running : forall number, number ∈ raced -> runtime.handlers.runs number = true
  isOpen : runtime.closed = false

theorem Stage.waiting (stage : runtime.Stage opts) (calls : runtime.stops ≠ [])
    (stuck : runtime.Stuck) :
    Exists fun id : Nat => Exists fun raced : List Nat => runtime.Waiting id raced := by
  rcases stuck with ⟨id, raced, member, running⟩
  have goesOn : (runtime.services .pool).loops ≠ [] := List.ne_nil_of_mem member
  cases stage with
  | down notStarted noStops few quiet fresh left => exact absurd noStops calls
  | up isStarted noStarts noStops => exact absurd noStops calls
  | closing isStarted noStarts one isClosed quiet left => exact absurd (quiet .pool).ended goesOn
  | stopping isStarted noStarts one isOpen halted drained awaits left => exact absurd drained goesOn
  | @draining phase isStarted noStarts one isOpen alone halted drains =>
      cases phase with
      | handlers awaited => exact absurd drains.1 goesOn
      | releases => exact absurd drains.1 goesOn
      | listener => exact absurd drains.1 goesOn
      | services awaited => exact absurd drains (fun none => none)
      | connections => exact absurd drains (fun none => none)
      | claims awaited =>
          have isLoop : awaited = some id := drains.all _ member
          subst isLoop
          refine ⟨id, raced, one, ?_, running, isOpen⟩
          rcases List.exists_cons_of_ne_nil goesOn with ⟨loop, rest, loops⟩
          have few := (alone .pool).single
          rw [loops, List.length_cons] at few
          have single : rest = [] := List.length_eq_zero_iff.mp (by omega)
          rw [loops, single, List.mem_singleton] at member
          rw [loops, single, member]

/-- Neither the loops nor `stop` change this. -/
theorem Waiting.step {id : Nat} {raced : List Nat} (waiting : runtime.Waiting id raced)
    {label : RuntimeLabel} (stopping : label.isStopping = true) :
    (runtime.step opts label).Waiting id raced := by
  unfold Runtime.step
  split
  · exact waiting
  · cases label with
    | stops index turn =>
        dsimp only
        split
        · exact waiting
        · rename_i phase found
          rw [waiting.claims] at found
          cases List.mem_singleton.mp (List.mem_of_getElem? found)
          have awaited : (runtime.services .pool).ended (some id) = false := by
            unfold ServiceState.ended
            rw [waiting.loops]
            simp
          cases turn with
          | elapsed => exact waiting
          | again => exact waiting
          | goesOn =>
              unfold Runtime.goOnStop
              dsimp only
              rw [awaited, if_neg Bool.false_ne_true]
              exact waiting
    | loop service other turn =>
        dsimp only
        split
        · rename_i may
          have loops : (runtime.only service (fun state => state.turn other turn) .pool).loops =
              [(id, .racing raced)] := by
            unfold only
            split
            · rename_i same
              subst same
              cases turn with
              | asks => exact waiting.loops
              | rests =>
                  have resting : (other, LoopPhase.asking) ∉ (runtime.services .pool).loops := by
                    rw [waiting.loops]
                    simp
                  simp only [ServiceState.turn, if_neg resting]
                  exact waiting.loops
              | turns next =>
                  have different : id ≠ other := by
                    rintro rfl
                    simp only [mayTurn, slotFreed, waiting.loops, List.all_cons, List.all_nil,
                      Bool.and_true, ne_eq, not_true_eq_false, decide_false, Bool.false_or,
                      Bool.and_eq_true] at may
                    rcases List.any_eq_true.mp may.1 with ⟨number, listed, ended⟩
                    rw [waiting.running number listed] at ended
                    cases ended
                  unfold ServiceState.turn
                  dsimp only
                  split
                  · simp [ServiceState.move, waiting.loops, different]
                  · simp [waiting.loops, different]
            · exact waiting.loops
          have moved : Waiting id raced { runtime with
              services := runtime.only service (fun state => state.turn other turn) } :=
            ⟨waiting.claims, loops, waiting.running, waiting.isOpen⟩
          split
          · rw [ask_of_open moved.isOpen]
            exact moved
          · exact moved
        · exact waiting
    | _ => cases stopping

theorem Waiting.run {id : Nat} {raced : List Nat} (waiting : runtime.Waiting id raced)
    {more : List RuntimeLabel} (stopping : forall label, label ∈ more -> label.isStopping = true) :
    (run (Runtime.step opts) runtime more).Waiting id raced := by
  induction more generalizing runtime with
  | nil => exact waiting
  | cons label more inductionHypothesis =>
      exact inductionHypothesis (waiting.step (stopping label List.mem_cons_self))
        (fun other later => stopping other (List.mem_cons_of_mem label later))

end

end Runtime

theorem Runtime.Sound.reaches {opts : RuntimeOptions} {runtime : Runtime}
    (sound : runtime.Sound opts) (live : runtime.exited = false) (calls : runtime.stops ≠ [])
    (free : Not runtime.Stuck) :
    Exists fun more : List RuntimeLabel =>
      (forall label, label ∈ more -> label.isStopping = true) ∧
        (run (Runtime.step opts) runtime more).closed = true := by
  induction left : runtime.toStop using Nat.strongRecOn generalizing runtime with
  | ind left inductionHypothesis =>
      cases isClosed : runtime.closed with
      | true => exact ⟨[], fun _ member => absurd member List.not_mem_nil, isClosed⟩
      | false =>
          rcases sound.stage.nearer live calls isClosed free with ⟨label, nearer⟩
          have apart : runtime.Apart label := by
            have stopping := nearer.stopping
            cases label with
            | stops index turn => exact trivial
            | loop service id turn => exact trivial
            | _ => cases stopping
          rcases inductionHypothesis _ (left ▸ nearer.fewer) (sound.step apart) nearer.live
            nearer.calls (Runtime.not_stuck_of_drained nearer.drained) rfl with ⟨more, all, closed⟩
          refine ⟨label :: more, ?_, closed⟩
          intro other member
          rcases List.mem_cons.mp member with rfl | later
          · exact nearer.stopping
          · exact all other later

/-- The loops and `stop` by themselves can end a `stop` that is under way, with no
handler ending, exactly if the claim loop is not waiting for a slot that none of
the handlers it waits for has left. -/
theorem stop_ends_iff (opts : RuntimeOptions) (labels : List RuntimeLabel)
    (apart : EachStep (Runtime.step opts) Runtime.Apart .new labels)
    (live : (runtimeAfter opts labels).exited = false)
    (calls : (runtimeAfter opts labels).stops ≠ []) :
    (Exists fun more : List RuntimeLabel =>
      (forall label, label ∈ more -> label.isStopping = true) ∧
        (runtimeAfter opts (labels ++ more)).closed = true) <->
      Not (runtimeAfter opts labels).Stuck := by
  have sound : (runtimeAfter opts labels).Sound opts :=
    (always_iff_forall_initial _ _ _ _).mp (always_sound apart) labels List.prefix_rfl
  unfold runtimeAfter at sound live calls ⊢
  constructor
  · rintro ⟨more, all, closed⟩ stuck
    rcases sound.stage.waiting calls stuck with ⟨id, raced, waiting⟩
    rw [run_append, (waiting.run all).isOpen] at closed
    cases closed
  · intro free
    rcases sound.reaches live calls free with ⟨more, all, closed⟩
    refine ⟨more, all, ?_⟩
    rw [run_append]
    exact closed

/-- A handler that hangs is left behind where there is another slot.  Where it
holds the only one, it holds up `stop`. -/
theorem hanging_handler_is_left :
    (Exists fun more : List RuntimeLabel =>
      (forall label, label ∈ more -> label.isStopping = true) ∧
        (runtimeAfter (poolAndReaper 2) ([.start, .starts 0 .answered, .starts 0 .answered,
          .spawn [7], .loop .pool 0 .rests, .loop .pool 0 (.turns .asking), .signal] ++
            more)).closed = true) ∧
      Not (Exists fun more : List RuntimeLabel =>
        (forall label, label ∈ more -> label.isStopping = true) ∧
          (runtimeAfter (poolAndReaper 1) ([.start, .starts 0 .answered, .starts 0 .answered,
            .spawn [7], .loop .pool 0 (.turns (.racing [0])), .signal] ++ more)).closed = true) := by
  constructor
  · refine (stop_ends_iff (poolAndReaper 2) _ ?_ rfl ?_).mpr ?_
    · exact ⟨rfl, trivial, trivial, trivial, trivial, trivial, fun _ => rfl, trivial⟩
    · exact List.cons_ne_nil _ _
    · rintro ⟨id, raced, member, _⟩
      cases List.mem_singleton.mp member
  · intro ends
    refine (stop_ends_iff (poolAndReaper 1) _ ?_ rfl ?_).mp ends ?_
    · exact ⟨rfl, trivial, trivial, trivial, trivial, fun _ => rfl, trivial⟩
    · exact List.cons_ne_nil _ _
    · exact ⟨0, [0], List.mem_singleton_self _, by decide⟩

end PgJobQ
