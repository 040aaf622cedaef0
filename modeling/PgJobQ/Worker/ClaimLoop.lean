import PgJobQ.Worker.Shutdown

/-!
# The claim loop asks every queue

The loop of a running pool goes through its queues, one claim each, and waits
when none of them has brought a job.  It never waits or starts over before it
has asked every queue, unless the pool is full by then or a statement has
failed.  So a queue of a pool with a free slot is asked again and again, however
the other queues fare.
-/

namespace PgJobQ

open Runs

/-- The end of what the newest claim loop awaits, without an error, or any other
step of the pool. -/
inductive ClaimLoopLabel where
  | elapse (now : Timestamp) (locked : List Nat)
  | pool (label : PoolLabel)

namespace ClaimLoopLabel

def elapses : ClaimLoopLabel -> Bool
  | elapse _ _ => true
  | pool _ => false

/-- The pool is not stopped. -/
def Goes : ClaimLoopLabel -> Prop
  | pool .stop => False
  | _ => True

end ClaimLoopLabel

namespace PoolSystem

def claimLoopStep (opts : PoolOptions) (system : PoolSystem) : ClaimLoopLabel -> PoolSystem
  | .elapse now locked =>
      match system.loops with
      | [] => system
      | loop :: _ => system.step opts (loop.awaited now locked false)
  | .pool label => system.step opts label

/-- The newest loop asks the queue, unless something keeps it from it. -/
inductive Asks (opts : PoolOptions) (queue : String) (system : PoolSystem) : Prop where
  | asks {pass config older} (newest : system.loops = .claiming pass config :: older)
      (queue : pass.queue = queue)
  | full (noSlot : system.pool.capacity opts = 0)
  | stuck (caught : LoopStuck system)
  | failed {older} (newest : system.loops = .backingOff :: older)

/-- A running pool has a claim loop that has not come to its end. -/
structure Looping (system : PoolSystem) : Prop where
  running : system.pool.running = true
  newest : Exists fun loop : LoopState => Exists fun older : List LoopState =>
    system.loops = loop :: older ∧ loop ≠ .exited

end PoolSystem

/-! ## How far it is to a queue -/

/-- How many awaits lie between the queues still to come and the claim for this
one; `last` if it is not among them. -/
def passCost (queue : String) (last : Nat) : List String -> Nat
  | [] => last
  | next :: rest => if next = queue then 1 else 3 + passCost queue last rest

theorem passCost_of_mem {queue : String} {queues : List String} (member : queue ∈ queues)
    (last other : Nat) : passCost queue last queues = passCost queue other queues := by
  induction queues with
  | nil => cases member
  | cons next rest inductionHypothesis =>
      unfold passCost
      by_cases same : next = queue
      · rw [if_pos same, if_pos same]
      · rcases List.mem_cons.mp member with rfl | later
        · exact absurd rfl same
        · rw [if_neg same, if_neg same, inductionHypothesis later]

/-- The awaits of a round, up to the claim for the queue. -/
def PoolOptions.roundCost (opts : PoolOptions) (queue : String) : Nat :=
  passCost queue 0 opts.queues

/-- The awaits that lie between the loop and the claim for the queue. -/
def LoopState.cost (opts : PoolOptions) (queue : String) : LoopState -> Nat
  | claiming pass _ =>
      if pass.queue = queue then 0 else 2 + passCost queue (1 + opts.roundCost queue) pass.rest
  | claimed pass _ => 1 + passCost queue (1 + opts.roundCost queue) pass.rest
  | configuring pass _ =>
      if pass.queue = queue then 1 else 3 + passCost queue (1 + opts.roundCost queue) pass.rest
  | waitingSlot _ => 1 + opts.roundCost queue
  | idle => 1 + opts.roundCost queue
  | _ => 0

/-- The same for the pool; none where no slot is free. -/
def PoolSystem.cost (opts : PoolOptions) (queue : String) (system : PoolSystem) : Nat :=
  if system.pool.capacity opts = 0 then 0
  else match system.loops with
    | [] => 0
    | loop :: _ => loop.cost opts queue

section

variable {opts : PoolOptions} {queue : String} {now : Timestamp} {db : Database}
variable {pool : WorkerPool}

theorem cost_forQueues (running : pool.running = true) (room : pool.capacity opts ≠ 0)
    {again : LoopState} (next : again.cost opts queue ≤ 1 + opts.roundCost queue)
    (claimedAny : Bool) (queues : List String) :
    (pool.forQueues opts now again claimedAny queues).cost opts queue ≤
      passCost queue (1 + opts.roundCost queue) queues := by
  cases queues with
  | nil =>
      unfold WorkerPool.forQueues WorkerPool.afterQueues passCost
      cases claimedAny with
      | true => exact next
      | false => exact Nat.le_refl _
  | cons first rest =>
      have enters : (pool.running && pool.capacity opts != 0) = true := by
        rw [running, Bool.true_and, bne_iff_ne]
        exact room
      unfold passCost
      dsimp only [WorkerPool.forQueues]
      rw [if_pos enters]
      split
      · unfold LoopState.cost
        dsimp only
        split
        · exact Nat.zero_le 1
        · exact Nat.add_le_add_right (by decide) _
      · exact Nat.le_refl _

theorem cost_loopHead (running : pool.running = true) (room : pool.capacity opts ≠ 0)
    (member : queue ∈ opts.queues) :
    (pool.loopHead opts now).cost opts queue ≤ opts.roundCost queue := by
  unfold WorkerPool.loopHead
  rw [running, if_neg (by decide), if_neg room]
  have bound := @cost_forQueues opts queue now pool running room .idle (Nat.le_refl _) false
    opts.queues
  rwa [passCost_of_mem member _ 0] at bound

/-- A loop that goes on is no farther from the queue, and nearer if its await is
over. -/
theorem cost_resume (running : pool.running = true) (member : queue ∈ opts.queues)
    {loop : LoopState} (steady : loop ≠ .backingOff)
    (room : (pool.resume opts now db loop).1.capacity opts ≠ 0) :
    (pool.resume opts now db loop).2.cost opts queue ≤ loop.cost opts queue ∧
      (loop ≠ .exited -> (forall pass config, loop ≠ .claiming pass config) ->
        (forall raced, loop = .waitingSlot raced -> pool.slotFreed raced = true) ->
          (pool.resume opts now db loop).2.cost opts queue < loop.cost opts queue) := by
  have nearer : forall {after before : Nat}, after < before ->
      after ≤ before ∧ (loop ≠ .exited -> (forall pass config, loop ≠ .claiming pass config) ->
        (forall raced, loop = .waitingSlot raced -> pool.slotFreed raced = true) ->
          after < before) :=
    fun less => ⟨Nat.le_of_lt less, fun _ _ _ => less⟩
  cases loop with
  | waitingSlot raced =>
      have head := @cost_loopHead opts queue now pool running room member
      unfold WorkerPool.resume
      dsimp only
      constructor
      · split
        · exact Nat.le_trans head (Nat.le_add_left _ 1)
        · exact Nat.le_refl _
      · intro _ _ freed
        rw [if_pos (freed raced rfl)]
        exact Nat.lt_of_le_of_lt head (Nat.lt_add_of_pos_left Nat.one_pos)
  | configuring pass readAt =>
      apply nearer
      change (LoopState.claiming pass (resolveQueueDefaults pass.queue db)).cost opts queue < _
      unfold LoopState.cost
      dsimp only
      split
      · exact Nat.one_pos
      · exact Nat.add_lt_add_right (by decide) _
  | claiming pass config => exact ⟨Nat.le_refl _, fun _ asks _ => absurd rfl (asks pass config)⟩
  | claimed pass jobs =>
      have still : (jobs.foldl WorkerPool.spawn pool).running = true :=
        (WorkerPool.running_spawnAll pool jobs).trans running
      have head := @cost_loopHead opts queue now _ still room member
      have rest := @cost_forQueues opts queue now _ still room
        ((jobs.foldl WorkerPool.spawn pool).loopHead opts now)
        (Nat.le_trans head (Nat.le_add_left _ 1)) (pass.claimedAny || !jobs.isEmpty) pass.rest
      exact nearer (Nat.lt_of_le_of_lt rest (Nat.lt_add_of_pos_left Nat.one_pos))
  | idle =>
      have head := @cost_loopHead opts queue now pool running room member
      exact nearer (Nat.lt_of_le_of_lt head (Nat.lt_add_of_pos_left Nat.one_pos))
  | backingOff => exact absurd rfl steady
  | exited => exact ⟨Nat.le_refl 0, fun alive => absurd rfl alive⟩

/-- The claim for another queue is executed. -/
theorem cost_execute (locked : List Nat) {loop : LoopState}
    (other : forall pass config, loop = .claiming pass config -> pass.queue ≠ queue) :
    (WorkerPool.execute opts now locked db loop).2.cost opts queue ≤ loop.cost opts queue ∧
      (forall pass config, loop = .claiming pass config ->
        (WorkerPool.execute opts now locked db loop).2.cost opts queue < loop.cost opts queue) := by
  cases loop with
  | claiming pass config =>
      have less : (WorkerPool.execute opts now locked db (.claiming pass config)).2.cost opts queue <
          (LoopState.claiming pass config).cost opts queue := by
        have before : (LoopState.claiming pass config).cost opts queue =
            2 + passCost queue (1 + opts.roundCost queue) pass.rest :=
          if_neg (other pass config rfl)
        rw [before]
        dsimp only [WorkerPool.execute]
        split
        · exact Nat.add_lt_add_right (by decide) _
        · exact Nat.lt_add_right _ Nat.two_pos
      exact ⟨Nat.le_of_lt less, fun _ _ _ => less⟩
  | _ => exact ⟨Nat.le_refl _, fun _ _ same => LoopState.noConfusion same⟩

theorem cost_fail (loop : LoopState) :
    (WorkerPool.fail loop).cost opts queue ≤ loop.cost opts queue := by
  cases loop with
  | configuring pass readAt => exact Nat.zero_le _
  | claiming pass config => exact Nat.zero_le _
  | claimed pass jobs => exact Nat.zero_le _
  | _ => exact Nat.le_refl _

/-! ## A running loop does not end -/

theorem WorkerPool.resume_running (loop : LoopState) :
    (pool.resume opts now db loop).1.running = pool.running := by
  cases loop with
  | claimed pass jobs => exact WorkerPool.running_spawnAll pool jobs
  | _ => rfl

theorem forQueues_alive {again : LoopState} (alive : again ≠ .exited) (claimedAny : Bool)
    (queues : List String) : pool.forQueues opts now again claimedAny queues ≠ .exited := by
  have after : WorkerPool.afterQueues again claimedAny ≠ .exited := by
    unfold WorkerPool.afterQueues
    split
    · exact alive
    · exact LoopState.noConfusion
  cases queues with
  | nil => exact after
  | cons first rest =>
      dsimp only [WorkerPool.forQueues]
      split
      · split
        · exact LoopState.noConfusion
        · exact LoopState.noConfusion
      · exact after

theorem loopHead_alive (running : pool.running = true) : pool.loopHead opts now ≠ .exited := by
  unfold WorkerPool.loopHead
  rw [running, if_neg (by decide)]
  split
  · exact LoopState.noConfusion
  · exact forQueues_alive LoopState.noConfusion _ _

theorem resume_alive (running : pool.running = true) {loop : LoopState} (alive : loop ≠ .exited) :
    (pool.resume opts now db loop).2 ≠ .exited := by
  have head := @loopHead_alive opts now pool running
  cases loop with
  | waitingSlot raced =>
      unfold WorkerPool.resume
      dsimp only
      split
      · exact head
      · exact LoopState.noConfusion
  | configuring pass readAt => exact LoopState.noConfusion
  | claiming pass config => exact LoopState.noConfusion
  | claimed pass jobs =>
      have still := (WorkerPool.running_spawnAll pool jobs).trans running
      exact forQueues_alive (loopHead_alive still) _ _
  | idle => exact head
  | backingOff => exact head
  | exited => exact absurd rfl alive

theorem execute_alive (locked : List Nat) {loop : LoopState} (alive : loop ≠ .exited) :
    (WorkerPool.execute opts now locked db loop).2 ≠ .exited := by
  cases loop with
  | claiming pass config =>
      unfold WorkerPool.execute
      dsimp only
      split
      · exact LoopState.noConfusion
      · exact LoopState.noConfusion
  | _ => exact alive

theorem fail_alive {loop : LoopState} (alive : loop ≠ .exited) : WorkerPool.fail loop ≠ .exited := by
  cases loop with
  | exited => exact absurd rfl alive
  | _ => exact LoopState.noConfusion

/-- Where the loop still has to ask the queue, there is an await before it. -/
theorem cost_pos {loop : LoopState} (alive : loop ≠ .exited) (steady : loop ≠ .backingOff)
    (other : forall pass config, loop = .claiming pass config -> pass.queue ≠ queue) :
    0 < loop.cost opts queue := by
  cases loop with
  | waitingSlot raced => exact Nat.lt_add_right _ Nat.one_pos
  | configuring pass readAt =>
      unfold LoopState.cost
      dsimp only
      split
      · exact Nat.one_pos
      · exact Nat.lt_add_right _ (by decide)
  | claiming pass config =>
      have before : (LoopState.claiming pass config).cost opts queue =
          2 + passCost queue (1 + opts.roundCost queue) pass.rest :=
        if_neg (other pass config rfl)
      rw [before]
      exact Nat.lt_add_right _ (by decide)
  | claimed pass jobs => exact Nat.lt_add_right _ Nat.one_pos
  | idle => exact Nat.lt_add_right _ Nat.one_pos
  | backingOff => exact absurd rfl steady
  | exited => exact absurd rfl alive

end

/-! ## Steps of the pool -/

namespace PoolSystem

variable {opts : PoolOptions} {queue : String} {system next : PoolSystem}

theorem cost_le_of_newest (room : system.pool.capacity opts ≠ 0) {loop after : LoopState}
    {older newer : List LoopState} (before : system.loops = loop :: older)
    (newest : next.loops = after :: newer)
    (nearer : next.pool.capacity opts ≠ 0 -> after.cost opts queue ≤ loop.cost opts queue) :
    next.cost opts queue ≤ system.cost opts queue := by
  unfold cost
  rw [if_neg room, before, newest]
  split
  · exact Nat.zero_le _
  · rename_i free
    exact nearer free

theorem cost_lt_of_newest (room : system.pool.capacity opts ≠ 0) {loop after : LoopState}
    {older newer : List LoopState} (before : system.loops = loop :: older)
    (newest : next.loops = after :: newer) (positive : 0 < loop.cost opts queue)
    (nearer : next.pool.capacity opts ≠ 0 -> after.cost opts queue < loop.cost opts queue) :
    next.cost opts queue < system.cost opts queue := by
  unfold cost
  rw [if_neg room, before, newest]
  split
  · exact positive
  · rename_i free
    exact nearer free

/-- What a step makes of the newest loop of a running pool. -/
inductive Moves (opts : PoolOptions) (system next : PoolSystem) (loop : LoopState) :
    LoopState -> Prop where
  | stays : Moves opts system next loop loop
  | resumes {now} (pool : next.pool = (system.pool.resume opts now system.db loop).1) :
      Moves opts system next loop (system.pool.resume opts now system.db loop).2
  | executes {now locked} :
      Moves opts system next loop (WorkerPool.execute opts now locked system.db loop).2
  | fails : Moves opts system next loop (WorkerPool.fail loop)

theorem step_moves (running : system.pool.running = true) {loop : LoopState}
    {older : List LoopState} (newest : system.loops = loop :: older) {label : PoolLabel}
    (goes : label ≠ .stop) : (system.step opts label).pool.running = true ∧
      Exists fun after : LoopState => Exists fun newer : List LoopState =>
        (system.step opts label).loops = after :: newer ∧
          Moves opts system (system.step opts label) loop after := by
  cases label with
  | start now =>
      rw [step, if_pos running]
      exact ⟨running, loop, older, newest, .stays⟩
  | stop => exact absurd rfl goes
  | resume index now =>
      cases found : system.loops[index]? with
      | none =>
          simp only [step, found]
          exact ⟨running, loop, older, newest, .stays⟩
      | some moved =>
          simp only [step, found]
          refine ⟨(WorkerPool.resume_running moved).trans running, ?_⟩
          rw [newest] at found ⊢
          cases index with
          | zero =>
              cases found
              exact ⟨_, older, rfl, .resumes rfl⟩
          | succ index => exact ⟨loop, _, rfl, .stays⟩
  | execute index now locked =>
      cases found : system.loops[index]? with
      | none =>
          simp only [step, found]
          exact ⟨running, loop, older, newest, .stays⟩
      | some moved =>
          simp only [step, found]
          refine ⟨running, ?_⟩
          rw [newest] at found ⊢
          cases index with
          | zero =>
              cases found
              exact ⟨_, older, rfl, .executes⟩
          | succ index => exact ⟨loop, _, rfl, .stays⟩
  | fail index =>
      cases found : system.loops[index]? with
      | none =>
          simp only [step, found]
          exact ⟨running, loop, older, newest, .stays⟩
      | some moved =>
          simp only [step, found]
          refine ⟨running, ?_⟩
          rw [newest] at found ⊢
          cases index with
          | zero =>
              cases found
              exact ⟨_, older, rfl, .fails⟩
          | succ index => exact ⟨loop, _, rfl, .stays⟩
  | settle token =>
      refine ⟨?_, loop, older, newest, .stays⟩
      simp only [step, WorkerPool.settle]
      split
      · exact running
      · exact running
  | other call => exact ⟨running, loop, older, newest, .stays⟩

/-- A claim loop goes on until the pool is stopped. -/
theorem Looping.step (looping : system.Looping) {label : PoolLabel} (goes : label ≠ .stop) :
    (system.step opts label).Looping := by
  rcases looping.newest with ⟨loop, older, newest, alive⟩
  rcases step_moves looping.running newest goes with ⟨running, after, newer, loops, moves⟩
  refine ⟨running, after, newer, loops, ?_⟩
  cases moves with
  | stays => exact alive
  | resumes pool => exact resume_alive looping.running alive
  | executes => exact execute_alive _ alive
  | fails => exact fail_alive alive

/-- No step of the pool takes the loop farther from the queue. -/
theorem cost_step (member : queue ∈ opts.queues) (looping : system.Looping)
    (unasked : Not (system.Asks opts queue)) {label : PoolLabel} (goes : label ≠ .stop) :
    (system.step opts label).cost opts queue ≤ system.cost opts queue := by
  rcases looping.newest with ⟨loop, older, newest, alive⟩
  have room : system.pool.capacity opts ≠ 0 := fun full => unasked (.full full)
  have steady : loop ≠ .backingOff := fun failed => unasked (.failed (failed ▸ newest))
  have other : forall pass config, loop = .claiming pass config -> pass.queue ≠ queue :=
    fun pass config claims same => unasked (.asks (claims ▸ newest) same)
  rcases step_moves looping.running newest goes with ⟨_, after, newer, loops, moves⟩
  apply cost_le_of_newest room newest loops
  intro free
  cases moves with
  | stays => exact Nat.le_refl _
  | resumes pool =>
      rw [pool] at free
      exact (cost_resume looping.running member steady free).1
  | executes => exact (cost_execute _ other).1
  | fails => exact cost_fail loop

/-- The end of an await brings the loop nearer to the queue. -/
theorem elapse_advances (member : queue ∈ opts.queues) (looping : system.Looping)
    (unasked : Not (system.Asks opts queue)) (now : Timestamp) (locked : List Nat) :
    (system.claimLoopStep opts (.elapse now locked)).cost opts queue < system.cost opts queue := by
  rcases looping.newest with ⟨loop, older, newest, alive⟩
  have room : system.pool.capacity opts ≠ 0 := fun full => unasked (.full full)
  have steady : loop ≠ .backingOff := fun failed => unasked (.failed (failed ▸ newest))
  have other : forall pass config, loop = .claiming pass config -> pass.queue ≠ queue :=
    fun pass config claims same => unasked (.asks (claims ▸ newest) same)
  have freed : forall raced, loop = .waitingSlot raced -> system.pool.slotFreed raced = true := by
    intro raced waits
    cases caught : system.pool.slotFreed raced with
    | true => rfl
    | false => exact absurd (.stuck ⟨raced, by rw [newest, waits]; rfl, caught⟩) unasked
  have positive := @cost_pos opts queue loop alive steady other
  have resumes : (forall pass config, loop ≠ .claiming pass config) ->
      (system.step opts (.resume 0 now)).cost opts queue < system.cost opts queue := by
    intro idle
    have next : (system.step opts (.resume 0 now)).loops =
        (system.pool.resume opts now system.db loop).2 :: older := by
      simp only [step, newest, List.getElem?_cons_zero, List.set_cons_zero]
    refine cost_lt_of_newest room newest next positive (fun free => ?_)
    simp only [step, newest, List.getElem?_cons_zero] at free
    exact (cost_resume looping.running member steady free).2 alive idle freed
  unfold claimLoopStep
  rw [newest]
  dsimp only
  cases loop with
  | claiming pass config =>
      have next : (system.step opts (.execute 0 now locked)).loops =
          (WorkerPool.execute opts now locked system.db (.claiming pass config)).2 :: older := by
        simp only [step, newest, List.getElem?_cons_zero, List.set_cons_zero]
      exact cost_lt_of_newest room newest next positive
        (fun _ => (cost_execute locked other).2 pass config rfl)
  | waitingSlot raced => exact resumes (fun _ _ => LoopState.noConfusion)
  | configuring pass readAt => exact resumes (fun _ _ => LoopState.noConfusion)
  | claimed pass jobs => exact resumes (fun _ _ => LoopState.noConfusion)
  | idle => exact resumes (fun _ _ => LoopState.noConfusion)
  | backingOff => exact absurd rfl steady
  | exited => exact absurd rfl alive

end PoolSystem

/-! ## Runs -/

namespace PoolSystem

variable {opts : PoolOptions} {system : PoolSystem}

/-- A pool that is not running is started by nothing but `start`. -/
theorem step_of_stopped (stopped : system.pool.running = false) {label : PoolLabel}
    (unstarted : forall now, label ≠ .start now) : (system.step opts label).pool.running = false := by
  cases label with
  | start now => exact absurd rfl (unstarted now)
  | stop => rfl
  | resume index now =>
      unfold step
      dsimp only
      split
      · exact stopped
      · exact (WorkerPool.resume_running _).trans stopped
  | execute index now locked =>
      unfold step
      dsimp only
      split
      · exact stopped
      · exact stopped
  | fail index =>
      unfold step
      dsimp only
      split
      · exact stopped
      · exact stopped
  | settle token =>
      simp only [step, WorkerPool.settle]
      split
      · exact stopped
      · exact stopped
  | other call => exact stopped

/-- A pool that runs has a claim loop, in every state it can reach. -/
theorem looping_of_run (opts : PoolOptions) (db : Database) (labels : List PoolLabel) :
    (run (PoolSystem.step opts) (.initial db) labels).pool.running = true ->
      (run (PoolSystem.step opts) (.initial db) labels).Looping := by
  apply @run_invariant PoolSystem PoolLabel (PoolSystem.step opts)
    (fun system => system.pool.running = true -> system.Looping)
  · intro system label looping running
    cases before : system.pool.running with
    | true =>
        apply (looping before).step
        rintro rfl
        cases running
    | false =>
        by_cases starts : Exists fun now : Timestamp => label = .start now
        · rcases starts with ⟨now, rfl⟩
          rw [step, if_neg (by rw [before]; decide)]
          exact ⟨rfl, _, _, rfl, loopHead_alive rfl⟩
        · have unstarted : forall now, label ≠ .start now := fun now same => starts ⟨now, same⟩
          rw [step_of_stopped before unstarted] at running
          cases running
  · intro running
    cases running

end PoolSystem

/-- As long as a pool is not stopped, each of its queues is asked again and
again: whatever happens in between, enough awaits of the claim loop lead to a
claim for the queue, unless no slot is free, the loop is caught in a race for a
slot, or a statement has failed. -/
theorem every_queue_is_asked (opts : PoolOptions) (db : Database) (labels : List PoolLabel)
    (running : (run (PoolSystem.step opts) (.initial db) labels).pool.running = true)
    (queue : String) (member : queue ∈ opts.queues) :
    LeadsTo (PoolSystem.claimLoopStep opts) ClaimLoopLabel.Goes ClaimLoopLabel.elapses
      (PoolSystem.Asks opts queue) (run (PoolSystem.step opts) (.initial db) labels) := by
  have waits : forall system label, system.Looping -> Not (PoolSystem.Asks opts queue system) ->
      ClaimLoopLabel.Goes label -> (system.claimLoopStep opts label).Looping ∧
        (system.claimLoopStep opts label).cost opts queue ≤ system.cost opts queue := by
    intro system label looping unasked goes
    cases label with
    | elapse now locked =>
        refine ⟨?_, Nat.le_of_lt (PoolSystem.elapse_advances member looping unasked now locked)⟩
        unfold PoolSystem.claimLoopStep
        dsimp only
        split
        · exact looping
        · apply looping.step
          rename_i loop older newest
          cases loop with
          | _ => exact PoolLabel.noConfusion
    | pool label =>
        have kept : label ≠ .stop := by
          rintro rfl
          exact goes
        exact ⟨looping.step kept, PoolSystem.cost_step member looping unasked kept⟩
  apply leadsTo_of_measure (PoolSystem.cost opts queue)
  · exact fun system label looping unasked goes => (waits system label looping unasked goes).1
  · exact fun system label looping unasked goes => (waits system label looping unasked goes).2
  · intro system label looping unasked _ counted
    cases label with
    | elapse now locked => exact PoolSystem.elapse_advances member looping unasked now locked
    | pool label => cases counted
  · exact PoolSystem.looping_of_run opts db labels running

/-- A pool of one slot for two queues. -/
def twoQueues : PoolOptions := ⟨["mail", "sms"], 1, 10, "w"⟩

theorem second_queue_is_asked :
    LeadsTo (PoolSystem.claimLoopStep twoQueues) ClaimLoopLabel.Goes ClaimLoopLabel.elapses
      (PoolSystem.Asks twoQueues "sms")
      (run (PoolSystem.step twoQueues) (.initial (.empty [] .empty)) [.start 0]) :=
  every_queue_is_asked twoQueues (.empty [] .empty) [.start 0] rfl "sms" (by decide)

end PgJobQ
