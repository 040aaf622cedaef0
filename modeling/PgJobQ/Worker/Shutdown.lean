import PgJobQ.Worker.SlotAccounting

/-!
# Stopping a pool

`stop` clears `running`, awaits the promise of the newest claim loop, gives the
handlers a grace period, and then releases the jobs that are still in `active`
one by one.  An `elapse` ends whatever `stop` awaits by a timer that expires or
a response of the database; a response may be an error.  Everything else that
happens in the process or in the database is a step of the pool.

The claim loop of a stopped pool comes to its end by itself from every await
but one: when all slots were busy it awaits the race of the handlers, and
nothing but a handler that settles ends that.  The grace timer is not running
yet.  So `stop` gets to its releases exactly when the newest loop is not caught
in that race.
-/

namespace PgJobQ

open Runs

/-- What `stop` awaits.  In the last phase but one a release is under way; the
iterator over `active` has passed the ids in `visited`. -/
inductive StopPhase where
  | awaitingLoop
  | grace (raced : List Nat)
  | releasing (visited : List Nat) (job : JobRow)
  | finished
  deriving DecidableEq, Repr

/-- A pool that is being stopped, with the jobs `release` was called for,
newest first. -/
structure Shutdown where
  system : PoolSystem
  phase : StopPhase
  released : List JobRow

inductive ShutdownLabel where
  | elapse (now : Timestamp) (locked : List Nat) (lost : Bool)
  | pool (label : PoolLabel)

/-- The statement of `Runner.release`. -/
def PoolOptions.release (opts : PoolOptions) (job : JobRow) : Statement :=
  .releaseJob ⟨job.id, opts.workerId, job.attempt⟩

/-- The entries of `active` its iterator has still to visit. -/
def WorkerPool.unvisited (pool : WorkerPool) (visited : List Nat) : List (Nat × JobRow) :=
  pool.active.entries.filter (fun entry => !visited.contains entry.1)

/-- An entry that is deleted and set again is visited again. -/
def StopPhase.keep (keys : List Nat) : StopPhase -> StopPhase
  | releasing visited job => releasing (visited.filter (fun id => keys.contains id)) job
  | phase => phase

/-- The end of what a claim loop awaits, as far as it is no handler. -/
def LoopState.awaited (now : Timestamp) (locked : List Nat) (lost : Bool) : LoopState -> PoolLabel
  | claiming _ _ => if lost then .fail 0 else .execute 0 now locked
  | configuring _ _ => if lost then .fail 0 else .resume 0 now
  | claimed _ _ => if lost then .fail 0 else .resume 0 now
  | _ => .resume 0 now

namespace Shutdown

/-- The release loop from its next iteration on. -/
def releaseNext (visited : List Nat) (shutdown : Shutdown) : Shutdown :=
  match shutdown.system.pool.unvisited visited with
  | [] => { shutdown with phase := .finished }
  | entry :: _ =>
      { shutdown with
        phase := .releasing (entry.1 :: visited) entry.2
        released := entry.2 :: shutdown.released }

/-- After the claim loop: wait for the handlers, if there are any. -/
def afterLoop (shutdown : Shutdown) : Shutdown :=
  { shutdown with
    phase :=
      if shutdown.system.pool.inFlight.size = 0 then .finished
      else .grace shutdown.system.pool.inFlight.values }

def step (opts : PoolOptions) (shutdown : Shutdown) : ShutdownLabel -> Shutdown
  | .pool label =>
      let system := shutdown.system.step opts label
      { shutdown with system := system, phase := shutdown.phase.keep system.pool.active.keys }
  | .elapse now locked lost =>
      match shutdown.phase with
      | .awaitingLoop =>
          match shutdown.system.loops with
          | [] => shutdown.afterLoop
          | .exited :: _ => shutdown.afterLoop
          | loop :: _ =>
              { shutdown with system := shutdown.system.step opts (loop.awaited now locked lost) }
      | .grace raced =>
          -- the handlers win the race against the timer once all of them have settled
          if raced.all (fun token => shutdown.system.pool.slotFreed [token]) then
            { shutdown with phase := .finished }
          else shutdown.releaseNext []
      | .releasing visited job =>
          let db := if lost then shutdown.system.db
            else shutdown.system.db.step ⟨now, opts.release job⟩
          { shutdown with system := { shutdown.system with db := db } }.releaseNext visited
      | .finished => shutdown

/-- `stop` is called. -/
def call (opts : PoolOptions) (system : PoolSystem) : Shutdown :=
  if system.pool.running then ⟨system.step opts .stop, .awaitingLoop, []⟩
  else ⟨system, .finished, []⟩

end Shutdown

/-- No handler settles, and the pool is not started again. -/
def ShutdownLabel.Quiet : ShutdownLabel -> Prop
  | pool (.start _) => False
  | pool (.settle _) => False
  | _ => True

def ShutdownLabel.elapses : ShutdownLabel -> Bool
  | elapse _ _ _ => true
  | pool _ => false

/-- `stop` is through with its releases: it has called `release` for every job
in `active`, and whatever else is running under the worker has a lease. -/
structure AllReleased (opts : PoolOptions) (shutdown : Shutdown) : Prop where
  finished : shutdown.phase = .finished
  released : forall id, id ∈ shutdown.system.pool.active.keys ->
    Exists fun job : JobRow => job ∈ shutdown.released ∧ job.id = id
  leased : forall row, row ∈ shutdown.system.db.job.rows -> row.state = .running ->
    row.workerId = some opts.workerId -> row.leaseExpiresAt ≠ none

/-- If `stop` is called, enough timers and responses bring it to the end of its
releases, without a handler that settles. -/
def StopReleases (opts : PoolOptions) (system : PoolSystem) : Prop :=
  LeadsTo (Shutdown.step opts) ShutdownLabel.Quiet ShutdownLabel.elapses (AllReleased opts)
    (.call opts system)

/-- The newest claim loop awaits handlers that all execute. -/
def LoopStuck (system : PoolSystem) : Prop :=
  Exists fun raced : List Nat => system.loops.head? = some (.waitingSlot raced) ∧
    system.pool.slotFreed raced = false

/-! ## The maps of any reachable pool -/

/-- Both maps have the same keys, and each promise in `inFlight` is the one of
an executing handler of that job. -/
structure WorkerPool.Filed (pool : WorkerPool) : Prop where
  keys : pool.inFlight.keys = pool.active.keys
  tokens : (pool.executing.map Delivery.token).Nodup
  drawn : forall delivery, delivery ∈ pool.executing -> delivery.token < pool.spawned
  promised : forall id token, (id, token) ∈ pool.inFlight.entries ->
    Exists fun delivery : Delivery => delivery ∈ pool.executing ∧ delivery.token = token ∧
      delivery.job.id = id
  jobs : forall id job, (id, job) ∈ pool.active.entries -> job.id = id

namespace WorkerPool.Filed

variable {pool : WorkerPool}

theorem empty : Filed .empty where
  keys := rfl
  tokens := List.nodup_nil
  drawn := fun _ member => absurd member List.not_mem_nil
  promised := fun _ _ member => absurd member List.not_mem_nil
  jobs := fun _ _ member => absurd member List.not_mem_nil

theorem of_same {next : WorkerPool} (filed : Filed pool)
    (inFlight : next.inFlight = pool.inFlight) (active : next.active = pool.active)
    (spawned : next.spawned = pool.spawned) (executing : next.executing = pool.executing) :
    Filed next := by
  rcases pool with ⟨_, _, _, _, _, _⟩
  rcases next with ⟨_, _, _, _, _, _⟩
  cases inFlight
  cases active
  cases spawned
  cases executing
  exact ⟨filed.keys, filed.tokens, filed.drawn, filed.promised, filed.jobs⟩

theorem spawn (filed : Filed pool) (job : JobRow) : Filed (pool.spawn job) where
  keys := by
    dsimp only [WorkerPool.spawn]
    rw [InsertionMap.keys_set, InsertionMap.keys_set, filed.keys]
  tokens := WorkerPool.tokens_spawn filed.tokens filed.drawn job
  drawn := WorkerPool.drawn_spawn filed.drawn job
  promised := by
    intro id token member
    rcases InsertionMap.mem_set_iff.mp member with ⟨rfl, rfl⟩ | ⟨_, older⟩
    · exact ⟨⟨pool.spawned, job⟩, List.mem_append_right _ List.mem_cons_self, rfl, rfl⟩
    · rcases filed.promised id token older with ⟨delivery, executing, sameToken, sameId⟩
      exact ⟨delivery, List.mem_append_left _ executing, sameToken, sameId⟩
  jobs := by
    intro id stored member
    rcases InsertionMap.mem_set_iff.mp member with ⟨rfl, rfl⟩ | ⟨_, older⟩
    · rfl
    · exact filed.jobs id stored older

theorem spawnAll (filed : Filed pool) (jobs : List JobRow) :
    Filed (jobs.foldl WorkerPool.spawn pool) := by
  induction jobs generalizing pool with
  | nil => exact filed
  | cons job jobs inductionHypothesis => exact inductionHypothesis (filed.spawn job)

theorem settle (filed : Filed pool) (token : Nat) : Filed (pool.settle token) := by
  unfold WorkerPool.settle
  split
  · exact filed
  · rename_i ended found
    have endedMem := List.mem_of_find?_eq_some found
    have isToken : ended.token = token := by simpa using List.find?_some found
    refine ⟨?_, ?_, ?_, ?_, ?_⟩
    · dsimp only
      rw [InsertionMap.keys_delete, InsertionMap.keys_delete, filed.keys]
    · exact List.Nodup.sublist (List.Sublist.map _ List.filter_sublist) filed.tokens
    · exact fun other kept => filed.drawn other (List.mem_filter.mp kept).1
    · intro id promise member
      have kept := List.mem_filter.mp member
      rcases filed.promised id promise kept.1 with ⟨delivery, executing, rfl, rfl⟩
      refine ⟨delivery, List.mem_filter.mpr ⟨executing, decide_eq_true ?_⟩, rfl, rfl⟩
      intro same
      -- the handler that has settled is the only one with its token
      have isEnded := List.inj_on_of_nodup_map filed.tokens executing endedMem
        (same.trans isToken.symm)
      exact of_decide_eq_true kept.2 (congrArg (fun other => other.job.id) isEnded)
    · exact fun id stored member => filed.jobs id stored (List.mem_filter.mp member).1

/-- The promises in `inFlight` are executing. -/
theorem value_executing (filed : Filed pool) {token : Nat} (member : token ∈ pool.inFlight.values) :
    token ∈ pool.executing.map Delivery.token := by
  rcases List.mem_map.mp member with ⟨⟨id, promise⟩, entry, rfl⟩
  rcases filed.promised id promise entry with ⟨delivery, executing, same, _⟩
  exact same ▸ List.mem_map_of_mem executing

theorem value_drawn (filed : Filed pool) {token : Nat} (member : token ∈ pool.inFlight.values) :
    token < pool.spawned := by
  rcases List.mem_map.mp (filed.value_executing member) with ⟨delivery, executing, rfl⟩
  exact filed.drawn delivery executing

end WorkerPool.Filed

/-- The promises a loop races have been handed out. -/
def LoopState.Drawn (spawned : Nat) : LoopState -> Prop
  | waitingSlot raced => forall token, token ∈ raced -> token < spawned
  | _ => True

theorem LoopState.Drawn.mono {spawned more : Nat} {loop : LoopState} (drawn : loop.Drawn spawned)
    (le : spawned ≤ more) : loop.Drawn more := by
  cases loop with
  | waitingSlot raced => exact fun token member => Nat.lt_of_lt_of_le (drawn token member) le
  | _ => exact trivial

namespace WorkerPool

variable {opts : PoolOptions} {now : Timestamp} {pool : WorkerPool}

theorem drawn_afterQueues {again : LoopState} {spawned : Nat} (next : again.Drawn spawned)
    (claimedAny : Bool) : (afterQueues again claimedAny).Drawn spawned := by
  unfold afterQueues
  split
  · exact next
  · exact trivial

theorem drawn_forQueues {again : LoopState} {spawned : Nat} (next : again.Drawn spawned)
    (claimedAny : Bool) (queues : List String) :
    (pool.forQueues opts now again claimedAny queues).Drawn spawned := by
  cases queues with
  | nil => exact drawn_afterQueues next claimedAny
  | cons queue rest =>
      dsimp only [forQueues]
      split
      · split
        · exact trivial
        · exact trivial
      · exact drawn_afterQueues next claimedAny

theorem drawn_loopHead (filed : Filed pool) : (pool.loopHead opts now).Drawn pool.spawned := by
  unfold loopHead
  split
  · exact trivial
  · split
    · exact fun token member => filed.value_drawn member
    · have idle : LoopState.idle.Drawn pool.spawned := trivial
      exact drawn_forQueues idle false opts.queues

theorem spawned_spawnAll (pool : WorkerPool) (jobs : List JobRow) :
    pool.spawned ≤ (jobs.foldl spawn pool).spawned := by
  induction jobs generalizing pool with
  | nil => exact Nat.le_refl _
  | cons job jobs inductionHypothesis =>
      exact Nat.le_trans (Nat.le_succ pool.spawned) (inductionHypothesis (pool.spawn job))

theorem Filed.resume (filed : Filed pool) (opts : PoolOptions) (now : Timestamp) (db : Database)
    {loop : LoopState} (drawn : loop.Drawn pool.spawned) :
    Filed (pool.resume opts now db loop).1 ∧
      (pool.resume opts now db loop).2.Drawn (pool.resume opts now db loop).1.spawned ∧
        pool.spawned ≤ (pool.resume opts now db loop).1.spawned := by
  cases loop with
  | waitingSlot raced =>
      refine ⟨filed, ?_, Nat.le_refl _⟩
      dsimp only [WorkerPool.resume]
      split
      · exact drawn_loopHead filed
      · exact drawn
  | configuring pass readAt =>
      exact ⟨filed.of_same rfl rfl rfl rfl, trivial, Nat.le_refl _⟩
  | claiming pass config => exact ⟨filed, trivial, Nat.le_refl _⟩
  | claimed pass jobs =>
      have next := filed.spawnAll jobs
      exact ⟨next, drawn_forQueues (drawn_loopHead next) _ pass.rest, spawned_spawnAll pool jobs⟩
  | idle => exact ⟨filed, drawn_loopHead filed, Nat.le_refl _⟩
  | backingOff => exact ⟨filed, drawn_loopHead filed, Nat.le_refl _⟩
  | exited => exact ⟨filed, trivial, Nat.le_refl _⟩

end WorkerPool

structure PoolSystem.Filed (system : PoolSystem) : Prop where
  pool : system.pool.Filed
  loops : forall loop, loop ∈ system.loops -> loop.Drawn system.pool.spawned

namespace PoolSystem.Filed

variable {opts : PoolOptions} {system : PoolSystem}

theorem initial (db : Database) : Filed (.initial db) where
  pool := .empty
  loops := fun _ member => absurd member List.not_mem_nil

/-- One loop moves, and the pool may have handed out more promises. -/
theorem set (filed : Filed system) {db : Database} {pool : WorkerPool} (poolFiled : pool.Filed)
    (le : system.pool.spawned ≤ pool.spawned) {index : Nat} {next : LoopState}
    (drawn : next.Drawn pool.spawned) :
    Filed ⟨db, pool, system.loops.set index next⟩ where
  pool := poolFiled
  loops := by
    intro loop member
    rcases List.mem_or_eq_of_mem_set member with older | rfl
    · exact (filed.loops loop older).mono le
    · exact drawn

theorem step (filed : Filed system) (label : PoolLabel) : Filed (system.step opts label) := by
  cases label with
  | start now =>
      unfold PoolSystem.step
      dsimp only
      split
      · exact filed
      · have pool : WorkerPool.Filed { system.pool with running := true } :=
          filed.pool.of_same rfl rfl rfl rfl
        refine ⟨pool, ?_⟩
        intro loop member
        rcases List.mem_cons.mp member with rfl | older
        · exact WorkerPool.drawn_loopHead pool
        · exact filed.loops loop older
  | stop => exact ⟨filed.pool.of_same rfl rfl rfl rfl, filed.loops⟩
  | resume index now =>
      unfold PoolSystem.step
      dsimp only
      split
      · exact filed
      · rename_i loop found
        have resumed := filed.pool.resume opts now system.db
          (filed.loops loop (List.mem_of_getElem? found))
        exact filed.set resumed.1 resumed.2.2 resumed.2.1
  | execute index now locked =>
      unfold PoolSystem.step
      dsimp only
      split
      · exact filed
      · rename_i loop found
        apply filed.set filed.pool (Nat.le_refl _)
        have drawn := filed.loops loop (List.mem_of_getElem? found)
        cases loop with
        | claiming pass config =>
            unfold WorkerPool.execute
            dsimp only
            split
            · exact trivial
            · exact trivial
        | _ => exact drawn
  | fail index =>
      unfold PoolSystem.step
      dsimp only
      split
      · exact filed
      · rename_i loop found
        apply filed.set filed.pool (Nat.le_refl _)
        have drawn := filed.loops loop (List.mem_of_getElem? found)
        cases loop with
        | configuring pass readAt => exact trivial
        | claiming pass config => exact trivial
        | claimed pass jobs => exact trivial
        | _ => exact drawn
  | settle token =>
      refine ⟨filed.pool.settle token, ?_⟩
      have same : (system.pool.settle token).spawned = system.pool.spawned := by
        unfold WorkerPool.settle
        split
        · rfl
        · rfl
      intro loop member
      exact (filed.loops loop member).mono (Nat.le_of_eq same.symm)
  | other call => exact ⟨filed.pool, filed.loops⟩

theorem run (filed : Filed system) (labels : List PoolLabel) :
    Filed (Runs.run (PoolSystem.step opts) system labels) :=
  run_invariant (fun _ label kept => kept.step label) filed labels

end PoolSystem.Filed

/-! ## A stopped pool winds down -/

/-- How many awaits a claim loop has left, once `running` is false. -/
def LoopState.rank : LoopState -> Nat
  | configuring _ _ => 4
  | claiming _ _ => 3
  | claimed _ _ => 2
  | waitingSlot _ => 1
  | idle => 1
  | backingOff => 1
  | exited => 0

/-- How many jobs a claim under way may still bring. -/
def LoopState.potential : LoopState -> Nat
  | configuring pass _ => pass.limit
  | claiming pass _ => pass.limit
  | claimed _ jobs => jobs.length
  | _ => 0

/-- How many jobs all claims under way may still bring. -/
def pending : List LoopState -> Nat
  | [] => 0
  | loop :: loops => loop.potential + pending loops

def newestRank : List LoopState -> Nat
  | [] => 0
  | loop :: _ => loop.rank

theorem pending_set {loops : List LoopState} {index : Nat} {loop : LoopState} (next : LoopState)
    (found : loops[index]? = some loop) :
    pending (loops.set index next) + loop.potential = pending loops + next.potential := by
  induction loops generalizing index with
  | nil => cases found
  | cons first rest inductionHypothesis =>
      cases index with
      | zero =>
          cases found
          simp only [List.set_cons_zero, pending]
          omega
      | succ index =>
          have same := inductionHypothesis found
          simp only [List.set_cons_succ, pending]
          omega

namespace WorkerPool

/-- How many jobs in `active` are still to be visited. -/
def left (pool : WorkerPool) (visited : List Nat) : Nat :=
  (pool.active.keys.filter (fun id => !visited.contains id)).length

theorem left_spawn (pool : WorkerPool) (job : JobRow) (visited : List Nat) :
    (pool.spawn job).left visited ≤ pool.left visited + 1 := by
  unfold left spawn
  dsimp only
  rw [InsertionMap.keys_set]
  split
  · exact Nat.le_succ _
  · rw [List.filter_append, List.length_append]
    exact Nat.add_le_add_left (List.length_filter_le _ [job.id]) _

theorem left_spawnAll (pool : WorkerPool) (jobs : List JobRow) (visited : List Nat) :
    (jobs.foldl spawn pool).left visited ≤ pool.left visited + jobs.length := by
  induction jobs generalizing pool with
  | nil => exact Nat.le_refl _
  | cons job jobs inductionHypothesis =>
      have one := left_spawn pool job visited
      have rest := inductionHypothesis (pool.spawn job)
      rw [List.length_cons]
      rw [List.foldl_cons]
      omega

theorem running_spawnAll (pool : WorkerPool) (jobs : List JobRow) :
    (jobs.foldl spawn pool).running = pool.running := by
  induction jobs generalizing pool with
  | nil => rfl
  | cons job jobs inductionHypothesis => exact inductionHypothesis (pool.spawn job)

theorem slotFreed_eq_false_iff {pool : WorkerPool} {raced : List Nat} :
    pool.slotFreed raced = false <->
      forall token, token ∈ raced -> token ∈ pool.executing.map Delivery.token := by
  unfold slotFreed
  rw [List.any_eq_false]
  constructor
  · intro none token member
    have settled := none token member
    rw [Bool.not_eq_true, Bool.not_eq_false', List.contains_iff_mem] at settled
    exact settled
  · intro all token member
    rw [Bool.not_eq_true, Bool.not_eq_false', List.contains_iff_mem]
    exact all token member

/-- A handler that starts has a new promise. -/
def StartsAfter (pool next : WorkerPool) : Prop :=
  forall token, token ∈ next.executing.map Delivery.token ->
    token ∈ pool.executing.map Delivery.token ∨ pool.spawned ≤ token

/-- A claim loop moves in a stopped pool.  It does not start another claim, and
it waits for a slot only if it did so before. -/
structure Winds (pool next : WorkerPool) (loop after : LoopState) : Prop where
  stopped : next.running = false
  potential : forall visited, next.left visited + after.potential ≤
    pool.left visited + loop.potential
  rank : after.rank ≤ loop.rank
  continues : forall token, token ∈ pool.executing.map Delivery.token ->
    token ∈ next.executing.map Delivery.token
  starts : pool.StartsAfter next
  caught : forall raced, after = .waitingSlot raced -> loop = .waitingSlot raced

namespace Winds

variable {pool : WorkerPool} {loop after : LoopState}

/-- A move that leaves the maps and the handlers alone. -/
theorem of_same {next : WorkerPool} (stopped : next.running = false)
    (active : next.active = pool.active) (executing : next.executing = pool.executing)
    (potential : after.potential ≤ loop.potential) (rank : after.rank ≤ loop.rank)
    (caught : forall raced, after = .waitingSlot raced -> loop = .waitingSlot raced) :
    Winds pool next loop after where
  stopped := stopped
  potential := by
    intro visited
    unfold left
    rw [active]
    exact Nat.add_le_add_left potential _
  rank := rank
  continues := by
    rw [executing]
    exact fun _ member => member
  starts := by
    unfold StartsAfter
    rw [executing]
    exact fun _ member => Or.inl member
  caught := caught

end Winds

variable {opts : PoolOptions} {now : Timestamp} {db : Database} {pool : WorkerPool}

theorem loopHead_stopped (stopped : pool.running = false) : pool.loopHead opts now = .exited := by
  unfold loopHead
  rw [stopped]
  rfl

theorem forQueues_stopped (stopped : pool.running = false) (again : LoopState)
    (claimedAny : Bool) (queues : List String) :
    pool.forQueues opts now again claimedAny queues = afterQueues again claimedAny := by
  cases queues with
  | nil => rfl
  | cons queue rest =>
      dsimp only [forQueues]
      rw [stopped]
      rfl

/-- The jobs that have been claimed are started, and then the loop ends or
waits once more. -/
theorem resume_claimed_stopped (stopped : pool.running = false) (pass : QueuePass)
    (jobs : List JobRow) :
    pool.resume opts now db (.claimed pass jobs) =
      (jobs.foldl spawn pool, afterQueues .exited (pass.claimedAny || !jobs.isEmpty)) := by
  have next : (jobs.foldl spawn pool).running = false := (running_spawnAll pool jobs).trans stopped
  unfold resume
  dsimp only
  rw [loopHead_stopped next, forQueues_stopped next]

theorem mem_executing_spawnAll (pool : WorkerPool) (jobs : List JobRow) :
    (forall token, token ∈ pool.executing.map Delivery.token ->
      token ∈ (jobs.foldl spawn pool).executing.map Delivery.token) ∧
        pool.StartsAfter (jobs.foldl spawn pool) := by
  induction jobs generalizing pool with
  | nil => exact ⟨fun _ member => member, fun _ member => Or.inl member⟩
  | cons job jobs inductionHypothesis =>
      have rest := inductionHypothesis (pool.spawn job)
      have first : (pool.spawn job).executing.map Delivery.token =
          pool.executing.map Delivery.token ++ [pool.spawned] := by
        rw [spawn, List.map_append]
        rfl
      constructor
      · intro token member
        exact rest.1 token (first ▸ List.mem_append_left _ member)
      · intro token member
        rcases rest.2 token member with older | new
        · rw [first] at older
          rcases List.mem_append.mp older with executing | isNew
          · exact Or.inl executing
          · exact Or.inr (Nat.le_of_eq (List.mem_singleton.mp isNew).symm)
        · exact Or.inr (Nat.le_trans (Nat.le_succ pool.spawned) new)

theorem afterQueues_exited (claimedAny : Bool) :
    (afterQueues .exited claimedAny).potential = 0 ∧ (afterQueues .exited claimedAny).rank ≤ 1 ∧
      forall raced, afterQueues .exited claimedAny ≠ .waitingSlot raced := by
  unfold afterQueues
  cases claimedAny with
  | true => exact ⟨rfl, Nat.zero_le 1, fun _ => LoopState.noConfusion⟩
  | false => exact ⟨rfl, Nat.le_refl 1, fun _ => LoopState.noConfusion⟩

theorem winds_resume (stopped : pool.running = false) (loop : LoopState) :
    Winds pool (pool.resume opts now db loop).1 loop (pool.resume opts now db loop).2 := by
  have exits := @loopHead_stopped opts now pool stopped
  cases loop with
  | waitingSlot raced =>
      unfold resume
      dsimp only
      rw [exits]
      split
      · exact .of_same stopped rfl rfl (Nat.le_refl 0) (Nat.zero_le 1)
          (fun _ same => LoopState.noConfusion same)
      · exact .of_same stopped rfl rfl (Nat.le_refl 0) (Nat.le_refl 1) (fun _ same => same)
  | configuring pass readAt =>
      exact .of_same stopped rfl rfl (Nat.le_refl _) (Nat.le_succ 3)
        (fun _ same => LoopState.noConfusion same)
  | claiming pass config =>
      exact .of_same stopped rfl rfl (Nat.le_refl _) (Nat.le_refl 3)
        (fun _ same => LoopState.noConfusion same)
  | claimed pass jobs =>
      rw [resume_claimed_stopped stopped]
      have next := afterQueues_exited (pass.claimedAny || !jobs.isEmpty)
      refine ⟨(running_spawnAll pool jobs).trans stopped, ?_, Nat.le_trans next.2.1 (Nat.le_succ 1),
        (mem_executing_spawnAll pool jobs).1, (mem_executing_spawnAll pool jobs).2, ?_⟩
      · intro visited
        dsimp only
        rw [next.1]
        exact left_spawnAll pool jobs visited
      · exact fun raced same => absurd same (next.2.2 raced)
  | idle =>
      unfold resume
      dsimp only
      rw [exits]
      exact .of_same stopped rfl rfl (Nat.le_refl 0) (Nat.zero_le 1)
        (fun _ same => LoopState.noConfusion same)
  | backingOff =>
      unfold resume
      dsimp only
      rw [exits]
      exact .of_same stopped rfl rfl (Nat.le_refl 0) (Nat.zero_le 1)
        (fun _ same => LoopState.noConfusion same)
  | exited =>
      exact .of_same stopped rfl rfl (Nat.le_refl 0) (Nat.le_refl 0)
        (fun _ same => LoopState.noConfusion same)

theorem winds_execute (stopped : pool.running = false) (locked : List Nat) (loop : LoopState) :
    Winds pool pool loop (execute opts now locked db loop).2 := by
  cases loop with
  | claiming pass config =>
      unfold execute
      dsimp only
      split
      · rename_i reply committed
        have rows := Statement.claim_rows committed (claimParams_claimStatement pass config locked)
        exact .of_same stopped rfl rfl rows.1 (Nat.le_succ 2)
          (fun _ same => LoopState.noConfusion same)
      · exact .of_same stopped rfl rfl (Nat.zero_le _) (Nat.le_add_left 1 2)
          (fun _ same => LoopState.noConfusion same)
  | _ => exact .of_same stopped rfl rfl (Nat.le_refl _) (Nat.le_refl _) (fun _ same => same)

theorem winds_fail (stopped : pool.running = false) (loop : LoopState) :
    Winds pool pool loop (fail loop) := by
  cases loop with
  | configuring pass readAt =>
      exact .of_same stopped rfl rfl (Nat.zero_le _) (Nat.le_add_left 1 3)
        (fun _ same => LoopState.noConfusion same)
  | claiming pass config =>
      exact .of_same stopped rfl rfl (Nat.zero_le _) (Nat.le_add_left 1 2)
        (fun _ same => LoopState.noConfusion same)
  | claimed pass jobs =>
      exact .of_same stopped rfl rfl (Nat.zero_le _) (Nat.le_add_left 1 1)
        (fun _ same => LoopState.noConfusion same)
  | _ => exact .of_same stopped rfl rfl (Nat.le_refl _) (Nat.le_refl _) (fun _ same => same)

end WorkerPool

/-- The same of a whole pool: it stays stopped, brings no more jobs than it
could, and its newest loop does not begin to wait for a slot. -/
structure PoolSystem.Winds (system next : PoolSystem) : Prop where
  stopped : next.pool.running = false
  potential : forall visited, next.pool.left visited + pending next.loops ≤
    system.pool.left visited + pending system.loops
  rank : newestRank next.loops ≤ newestRank system.loops
  continues : forall token, token ∈ system.pool.executing.map Delivery.token ->
    token ∈ next.pool.executing.map Delivery.token
  free : Not (LoopStuck system) -> Not (LoopStuck next)

namespace PoolSystem

variable {opts : PoolOptions} {system : PoolSystem}

theorem Winds.of_same (stopped : system.pool.running = false) (db : Database) :
    Winds system { system with db := db } where
  stopped := stopped
  potential := fun _ => Nat.le_refl _
  rank := Nat.le_refl _
  continues := fun _ member => member
  free := fun free => free

/-- One loop moves. -/
theorem Winds.set (filed : system.Filed) {index : Nat} {loop after : LoopState}
    (found : system.loops[index]? = some loop) {db : Database} {pool : WorkerPool}
    (winds : system.pool.Winds pool loop after) :
    Winds system ⟨db, pool, system.loops.set index after⟩ where
  stopped := winds.stopped
  potential := by
    intro visited
    have one := winds.potential visited
    have all := pending_set after found
    dsimp only
    omega
  rank := by
    have rank := winds.rank
    dsimp only
    cases loops : system.loops with
    | nil => exact Nat.le_refl _
    | cons first rest =>
        cases index with
        | zero =>
            rw [loops] at found
            cases found
            exact rank
        | succ index => exact Nat.le_refl _
  continues := winds.continues
  free := by
    rintro free ⟨raced, newest, unfreed⟩
    dsimp only at newest unfreed
    have waiting : system.loops.head? = some (.waitingSlot raced) := by
      cases loops : system.loops with
      | nil =>
          rw [loops] at newest
          cases newest
      | cons first rest =>
          rw [loops] at newest found
          cases index with
          | zero =>
              cases found
              rw [winds.caught raced (Option.some.inj newest)]
              rfl
          | succ index => exact newest
    refine free ⟨raced, waiting, WorkerPool.slotFreed_eq_false_iff.mpr ?_⟩
    intro token member
    have drawn := filed.loops _ (List.mem_of_mem_head? waiting) token member
    rcases winds.starts token (WorkerPool.slotFreed_eq_false_iff.mp unfreed token member) with
      executing | new
    · exact executing
    · exact absurd drawn (Nat.not_lt.mpr new)

/-- Nothing but a handler or another start keeps a stopped pool from winding
down. -/
theorem winds_step (filed : system.Filed) (stopped : system.pool.running = false)
    {label : PoolLabel} (quiet : (ShutdownLabel.pool label).Quiet) :
    Winds system (system.step opts label) := by
  cases label with
  | start now => exact False.elim quiet
  | settle token => exact False.elim quiet
  | stop => exact ⟨rfl, fun _ => Nat.le_refl _, Nat.le_refl _, fun _ member => member, id⟩
  | resume index now =>
      unfold PoolSystem.step
      dsimp only
      split
      · exact .of_same stopped system.db
      · rename_i loop found
        exact .set filed found (WorkerPool.winds_resume stopped loop)
  | execute index now locked =>
      unfold PoolSystem.step
      dsimp only
      split
      · exact .of_same stopped system.db
      · rename_i loop found
        exact .set filed found (WorkerPool.winds_execute stopped locked loop)
  | fail index =>
      unfold PoolSystem.step
      dsimp only
      split
      · exact .of_same stopped system.db
      · rename_i loop found
        exact .set filed found (WorkerPool.winds_fail stopped loop)
  | other call => exact .of_same stopped (system.db.step call)

theorem quiet_awaited (now : Timestamp) (locked : List Nat) (lost : Bool) (loop : LoopState) :
    (ShutdownLabel.pool (loop.awaited now locked lost)).Quiet := by
  cases loop with
  | configuring pass readAt =>
      unfold LoopState.awaited
      cases lost <;> exact trivial
  | claiming pass config =>
      unfold LoopState.awaited
      cases lost <;> exact trivial
  | claimed pass jobs =>
      unfold LoopState.awaited
      cases lost <;> exact trivial
  | _ => exact trivial

theorem resume_newest {loop : LoopState} {rest : List LoopState}
    (loops : system.loops = loop :: rest) (now : Timestamp) :
    (system.step opts (.resume 0 now)).loops =
      (system.pool.resume opts now system.db loop).2 :: rest := by
  rcases system with ⟨db, pool, _⟩
  cases loops
  rfl

theorem execute_newest {loop : LoopState} {rest : List LoopState}
    (loops : system.loops = loop :: rest) (now : Timestamp) (locked : List Nat) :
    (system.step opts (.execute 0 now locked)).loops =
      (WorkerPool.execute opts now locked system.db loop).2 :: rest := by
  rcases system with ⟨db, pool, _⟩
  cases loops
  rfl

theorem fail_newest {loop : LoopState} {rest : List LoopState}
    (loops : system.loops = loop :: rest) :
    (system.step opts (.fail 0)).loops = WorkerPool.fail loop :: rest := by
  rcases system with ⟨db, pool, _⟩
  cases loops
  rfl

/-- Each of its awaits brings the newest loop nearer to its end, unless it is
caught in a race of handlers. -/
theorem rank_awaited (stopped : system.pool.running = false) (free : Not (LoopStuck system))
    {loop : LoopState} {rest : List LoopState} (loops : system.loops = loop :: rest)
    (left : loop ≠ .exited) (now : Timestamp) (locked : List Nat) (lost : Bool) :
    newestRank (system.step opts (loop.awaited now locked lost)).loops <
      newestRank system.loops := by
  have resumed := @resume_newest opts system loop rest loops now
  have failed := @fail_newest opts system loop rest loops
  have exits := @WorkerPool.loopHead_stopped opts now system.pool stopped
  rw [loops]
  cases loop with
  | waitingSlot raced =>
      have freed : system.pool.slotFreed raced = true := by
        cases race : system.pool.slotFreed raced with
        | true => rfl
        | false => exact absurd ⟨raced, loops ▸ rfl, race⟩ free
      dsimp only [LoopState.awaited]
      rw [resumed, WorkerPool.resume, if_pos freed, exits]
      exact Nat.zero_lt_one
  | configuring pass readAt =>
      cases lost with
      | true =>
          rw [LoopState.awaited, if_pos rfl, failed]
          exact Nat.lt_add_of_pos_left (Nat.succ_pos 2)
      | false =>
          rw [LoopState.awaited, if_neg Bool.false_ne_true, resumed]
          exact Nat.lt_succ_self 3
  | claiming pass config =>
      cases lost with
      | true =>
          rw [LoopState.awaited, if_pos rfl, failed]
          exact Nat.lt_add_of_pos_left (Nat.succ_pos 1)
      | false =>
          rw [LoopState.awaited, if_neg Bool.false_ne_true, execute_newest loops,
            WorkerPool.execute]
          split
          · exact Nat.lt_succ_self 2
          · exact Nat.lt_add_of_pos_left (Nat.succ_pos 1)
  | claimed pass jobs =>
      cases lost with
      | true =>
          rw [LoopState.awaited, if_pos rfl, failed]
          exact Nat.lt_succ_self 1
      | false =>
          have next := WorkerPool.afterQueues_exited (pass.claimedAny || !jobs.isEmpty)
          rw [LoopState.awaited, if_neg Bool.false_ne_true, resumed,
            WorkerPool.resume_claimed_stopped stopped]
          exact Nat.lt_succ_of_le next.2.1
  | idle =>
      dsimp only [LoopState.awaited]
      rw [resumed, WorkerPool.resume, exits]
      exact Nat.zero_lt_one
  | backingOff =>
      dsimp only [LoopState.awaited]
      rw [resumed, WorkerPool.resume, exits]
      exact Nat.zero_lt_one
  | exited => exact absurd rfl left

end PoolSystem

/-! ## The release loop -/

/-- Visiting an entry leaves fewer. -/
theorem WorkerPool.left_visit {pool : WorkerPool} {visited : List Nat} {id : Nat}
    (member : id ∈ pool.active.keys) (fresh : Not (id ∈ visited)) :
    pool.left (id :: visited) < pool.left visited := by
  have split : pool.active.keys.filter (fun other => !(id :: visited).contains other) =
      (pool.active.keys.filter (fun other => !visited.contains other)).filter
        (fun other => other ≠ id) := by
    rw [List.filter_filter]
    apply List.filter_congr
    intro other _
    by_cases same : other = id
    · simp [same]
    · simp [same]
  unfold left
  rw [split]
  apply List.length_filter_lt_length_iff_exists.mpr
  exact ⟨id, List.mem_filter.mpr ⟨member, by simpa using fresh⟩, by simp⟩

/-- Forgetting ids that are not in the map changes nothing. -/
theorem WorkerPool.left_keep (pool : WorkerPool) (visited : List Nat) :
    pool.left (visited.filter (fun id => pool.active.keys.contains id)) = pool.left visited := by
  unfold left
  apply congrArg List.length
  apply List.filter_congr
  intro id member
  simp [member]

/-- What is true of a pool that is being stopped. -/
structure Stopping (opts : PoolOptions) (shutdown : Shutdown) : Prop where
  filed : shutdown.system.Filed
  stopped : shutdown.system.pool.running = false
  free : shutdown.phase = .awaitingLoop -> Not (LoopStuck shutdown.system)
  racing : forall raced, shutdown.phase = .grace raced ->
    Exists fun token : Nat => token ∈ raced ∧
      token ∈ shutdown.system.pool.executing.map Delivery.token
  visited : forall visited current, shutdown.phase = .releasing visited current ->
    forall id, id ∈ visited -> Exists fun job : JobRow => job ∈ shutdown.released ∧ job.id = id
  finished : shutdown.phase = .finished -> AllReleased opts shutdown

/-- How far a pool that is being stopped is from the end. -/
def Shutdown.distance (shutdown : Shutdown) : Nat :=
  match shutdown.phase with
  | .awaitingLoop =>
      shutdown.system.pool.left [] + pending shutdown.system.loops +
        newestRank shutdown.system.loops + 3
  | .grace _ => shutdown.system.pool.left [] + pending shutdown.system.loops + 2
  | .releasing visited _ => shutdown.system.pool.left visited + pending shutdown.system.loops + 1
  | .finished => 0

namespace Stopping

variable {opts : PoolOptions} {shutdown : Shutdown}

/-! Each phase has one thing to say. -/

theorem of_awaitingLoop (filed : shutdown.system.Filed)
    (stopped : shutdown.system.pool.running = false) (phase : shutdown.phase = .awaitingLoop)
    (free : Not (LoopStuck shutdown.system)) : Stopping opts shutdown where
  filed := filed
  stopped := stopped
  free := fun _ => free
  racing := fun _ other => StopPhase.noConfusion (phase.symm.trans other)
  visited := fun _ _ other => StopPhase.noConfusion (phase.symm.trans other)
  finished := fun other => StopPhase.noConfusion (phase.symm.trans other)

theorem of_grace (filed : shutdown.system.Filed)
    (stopped : shutdown.system.pool.running = false) {raced : List Nat}
    (phase : shutdown.phase = .grace raced) {token : Nat} (member : token ∈ raced)
    (executing : token ∈ shutdown.system.pool.executing.map Delivery.token) :
    Stopping opts shutdown where
  filed := filed
  stopped := stopped
  free := fun other => StopPhase.noConfusion (phase.symm.trans other)
  racing := by
    intro others other
    cases phase.symm.trans other
    exact ⟨token, member, executing⟩
  visited := fun _ _ other => StopPhase.noConfusion (phase.symm.trans other)
  finished := fun other => StopPhase.noConfusion (phase.symm.trans other)

theorem of_releasing (filed : shutdown.system.Filed)
    (stopped : shutdown.system.pool.running = false) {visited : List Nat} {current : JobRow}
    (phase : shutdown.phase = .releasing visited current)
    (released : forall id, id ∈ visited ->
      Exists fun job : JobRow => job ∈ shutdown.released ∧ job.id = id) :
    Stopping opts shutdown where
  filed := filed
  stopped := stopped
  free := fun other => StopPhase.noConfusion (phase.symm.trans other)
  racing := fun _ other => StopPhase.noConfusion (phase.symm.trans other)
  visited := by
    intro passed job other
    cases phase.symm.trans other
    exact released
  finished := fun other => StopPhase.noConfusion (phase.symm.trans other)

/-- The schema demands a lease of every running job. -/
theorem of_finished (filed : shutdown.system.Filed)
    (stopped : shutdown.system.pool.running = false) (phase : shutdown.phase = .finished)
    (released : forall id, id ∈ shutdown.system.pool.active.keys ->
      Exists fun job : JobRow => job ∈ shutdown.released ∧ job.id = id) :
    Stopping opts shutdown where
  filed := filed
  stopped := stopped
  free := fun other => StopPhase.noConfusion (phase.symm.trans other)
  racing := fun _ other => StopPhase.noConfusion (phase.symm.trans other)
  visited := fun _ _ other => StopPhase.noConfusion (phase.symm.trans other)
  finished := by
    refine fun _ => ⟨phase, released, fun row member running _ => ?_⟩
    have checked := shutdown.system.db.job.constraints.checked row member
    rcases (JobRow.checked_iff row).mp checked .jobRunningHasLease with notRunning | held
    · exact absurd running notRunning
    · exact held.1

/-- The release loop goes on to the next entry, or has visited all of them. -/
theorem releaseNext (filed : shutdown.system.Filed)
    (stopped : shutdown.system.pool.running = false) {visited : List Nat}
    (released : forall id, id ∈ visited ->
      Exists fun job : JobRow => job ∈ shutdown.released ∧ job.id = id) :
    Stopping opts (shutdown.releaseNext visited) ∧
      (shutdown.releaseNext visited).distance <
        shutdown.system.pool.left visited + pending shutdown.system.loops + 1 := by
  unfold Shutdown.releaseNext
  split
  · rename_i nothing
    refine ⟨of_finished filed stopped rfl ?_, Nat.succ_pos _⟩
    intro id member
    rcases List.mem_map.mp member with ⟨entry, entryMem, rfl⟩
    apply released entry.1
    have passed := List.filter_eq_nil_iff.mp nothing entry entryMem
    simpa using passed
  · rename_i entry rest some
    have found : entry ∈ shutdown.system.pool.unvisited visited := some ▸ List.mem_cons_self
    have parts := List.mem_filter.mp found
    have fresh : Not (entry.1 ∈ visited) := by simpa using parts.2
    constructor
    · refine of_releasing filed stopped rfl ?_
      intro id member
      rcases List.mem_cons.mp member with rfl | older
      · exact ⟨entry.2, List.mem_cons_self, filed.pool.jobs entry.1 entry.2 parts.1⟩
      · rcases released id older with ⟨job, jobMem, same⟩
        exact ⟨job, List.mem_cons_of_mem _ jobMem, same⟩
    · have fewer := WorkerPool.left_visit (List.mem_map_of_mem parts.1) fresh
      unfold Shutdown.distance
      dsimp only
      omega

/-- The claim loop is over. -/
theorem afterLoop (stopping : Stopping opts shutdown) :
    Stopping opts shutdown.afterLoop ∧ shutdown.afterLoop.distance <
      shutdown.system.pool.left [] + pending shutdown.system.loops + 3 := by
  unfold Shutdown.afterLoop
  split
  · rename_i empty
    have noKeys : shutdown.system.pool.active.keys = [] := by
      rw [← stopping.filed.pool.keys]
      exact List.map_eq_nil_iff.mpr (List.eq_nil_of_length_eq_zero empty)
    refine ⟨of_finished stopping.filed stopping.stopped rfl ?_, Nat.succ_pos _⟩
    intro id member
    dsimp only at member
    rw [noKeys] at member
    cases member
  · rename_i busy
    refine ⟨?_, Nat.lt_succ_self _⟩
    cases values : shutdown.system.pool.inFlight.values with
    | nil => exact absurd (congrArg List.length (List.map_eq_nil_iff.mp values)) busy
    | cons token rest =>
        have member : token ∈ shutdown.system.pool.inFlight.values := values ▸ List.mem_cons_self
        exact of_grace stopping.filed stopping.stopped rfl List.mem_cons_self
          (stopping.filed.pool.value_executing member)

/-- A quiet step of the pool or of the database. -/
theorem pool (stopping : Stopping opts shutdown) (unfinished : shutdown.phase ≠ .finished)
    {label : PoolLabel} (quiet : (ShutdownLabel.pool label).Quiet) :
    Stopping opts (shutdown.step opts (.pool label)) ∧
      (shutdown.step opts (.pool label)).distance ≤ shutdown.distance := by
  have filed := @PoolSystem.Filed.step opts shutdown.system stopping.filed label
  have winds := @PoolSystem.winds_step opts shutdown.system stopping.filed stopping.stopped label
    quiet
  unfold Shutdown.step Shutdown.distance
  cases phase : shutdown.phase with
  | awaitingLoop =>
      have potential := winds.potential []
      have rank := winds.rank
      refine ⟨of_awaitingLoop filed winds.stopped rfl (winds.free (stopping.free phase)), ?_⟩
      dsimp only [StopPhase.keep]
      omega
  | grace raced =>
      rcases stopping.racing raced phase with ⟨token, member, executing⟩
      have potential := winds.potential []
      refine ⟨of_grace filed winds.stopped rfl member (winds.continues token executing), ?_⟩
      dsimp only [StopPhase.keep]
      omega
  | releasing visited current =>
      have potential := winds.potential visited
      constructor
      · apply of_releasing filed winds.stopped rfl
        exact fun id member =>
          stopping.visited visited current phase id (List.mem_of_mem_filter member)
      · dsimp only [StopPhase.keep]
        rw [WorkerPool.left_keep]
        omega
  | finished => exact absurd phase unfinished

/-- The await of the claim loop ends. -/
theorem elapse_awaitingLoop (stopping : Stopping opts shutdown)
    (phase : shutdown.phase = .awaitingLoop) (now : Timestamp) (locked : List Nat) (lost : Bool) :
    Stopping opts (shutdown.step opts (.elapse now locked lost)) ∧
      (shutdown.step opts (.elapse now locked lost)).distance < shutdown.distance := by
  have distance : shutdown.distance = shutdown.system.pool.left [] +
      pending shutdown.system.loops + newestRank shutdown.system.loops + 3 := by
    unfold Shutdown.distance
    rw [phase]
  have exits : Stopping opts shutdown.afterLoop ∧
      shutdown.afterLoop.distance < shutdown.distance := by
    have after := stopping.afterLoop
    exact ⟨after.1, by omega⟩
  unfold Shutdown.step
  dsimp only
  rw [phase]
  dsimp only
  split
  · exact exits
  · exact exits
  · rename_i loop rest left loops
    have free := stopping.free phase
    have quiet := PoolSystem.quiet_awaited now locked lost loop
    have winds := @PoolSystem.winds_step opts shutdown.system stopping.filed stopping.stopped _
      quiet
    have nearer := @PoolSystem.rank_awaited opts shutdown.system stopping.stopped free loop rest
      loops left now locked lost
    have potential := winds.potential []
    refine ⟨of_awaitingLoop (stopping.filed.step _) winds.stopped rfl (winds.free free), ?_⟩
    rw [distance]
    unfold Shutdown.distance
    dsimp only
    omega

/-- What `stop` awaits ends. -/
theorem elapse (stopping : Stopping opts shutdown) (unfinished : shutdown.phase ≠ .finished)
    (now : Timestamp) (locked : List Nat) (lost : Bool) :
    Stopping opts (shutdown.step opts (.elapse now locked lost)) ∧
      (shutdown.step opts (.elapse now locked lost)).distance < shutdown.distance := by
  cases phase : shutdown.phase with
  | awaitingLoop => exact stopping.elapse_awaitingLoop phase now locked lost
  | grace raced =>
      rcases stopping.racing raced phase with ⟨token, member, executing⟩
      have waiting : Not (raced.all
          (fun other => shutdown.system.pool.slotFreed [other]) = true) := by
        intro all
        have freed := List.all_eq_true.mp all token member
        have unfreed : shutdown.system.pool.slotFreed [token] = false := by
          apply WorkerPool.slotFreed_eq_false_iff.mpr
          intro other isToken
          exact List.mem_singleton.mp isToken ▸ executing
        exact Bool.noConfusion (freed.symm.trans unfreed)
      have next := @releaseNext opts shutdown stopping.filed stopping.stopped []
        (fun _ none => absurd none List.not_mem_nil)
      unfold Shutdown.step
      dsimp only
      rw [phase]
      dsimp only
      rw [if_neg waiting]
      refine ⟨next.1, Nat.lt_of_lt_of_le next.2 ?_⟩
      unfold Shutdown.distance
      rw [phase]
      exact Nat.le_succ _
  | releasing visited current =>
      have next := fun db : Database => @releaseNext opts
        { shutdown with system := { shutdown.system with db := db } }
        ⟨stopping.filed.pool, stopping.filed.loops⟩ stopping.stopped visited
        (stopping.visited visited current phase)
      have distance : shutdown.distance =
          shutdown.system.pool.left visited + pending shutdown.system.loops + 1 := by
        unfold Shutdown.distance
        rw [phase]
      unfold Shutdown.step
      dsimp only
      rw [phase, distance]
      exact next _
  | finished => exact absurd phase unfinished

end Stopping

/-! ## The contract -/

/-- A pool that is stopped while its newest loop races its handlers stays where
it is: each response and each timer finds the loop in the same await. -/
theorem stuck_elapse {opts : PoolOptions} {shutdown : Shutdown}
    (phase : shutdown.phase = .awaitingLoop) (stuck : LoopStuck shutdown.system) :
    (shutdown.step opts (.elapse 0 [] false)).phase = .awaitingLoop ∧
      LoopStuck (shutdown.step opts (.elapse 0 [] false)).system := by
  rcases shutdown with ⟨⟨db, pool, loops⟩, _, released⟩
  cases phase
  rcases stuck with ⟨raced, newest, unfreed⟩
  cases loops with
  | nil => cases newest
  | cons loop rest =>
      cases newest
      have unmoved : WorkerPool.resume opts 0 db pool (.waitingSlot raced) =
          (pool, .waitingSlot raced) := by
        unfold WorkerPool.resume
        dsimp only
        rw [if_neg (Bool.eq_false_iff.mp unfreed)]
      have same : (PoolSystem.step opts ⟨db, pool, .waitingSlot raced :: rest⟩ (.resume 0 0)) =
          ⟨db, pool, .waitingSlot raced :: rest⟩ := by
        unfold PoolSystem.step
        dsimp only [List.getElem?_cons_zero]
        rw [unmoved]
        rfl
      refine ⟨rfl, ?_⟩
      unfold Shutdown.step
      dsimp only [LoopState.awaited]
      rw [same]
      exact ⟨raced, rfl, unfreed⟩

/-- `stop` waits for a handler if the newest loop does. -/
theorem not_stopReleases {opts : PoolOptions} {system : PoolSystem}
    (running : system.pool.running = true) (stuck : LoopStuck system) :
    Not (StopReleases opts system) := by
  have called : Shutdown.call opts system = ⟨system.step opts .stop, .awaitingLoop, []⟩ :=
    if_pos running
  rw [StopReleases, called]
  refine @not_leadsTo_of_trap _ _ (Shutdown.step opts) _ _ (AllReleased opts)
    (fun shutdown => shutdown.phase = .awaitingLoop ∧ LoopStuck shutdown.system)
    (.elapse 0 [] false) trivial rfl ?_ ?_ _ ⟨rfl, stuck⟩
  · exact fun shutdown trapped => stuck_elapse trapped.1 trapped.2
  · exact fun shutdown trapped released =>
      StopPhase.noConfusion (trapped.1.symm.trans released.finished)

/-- Otherwise every await of `stop` ends by itself. -/
theorem stopReleases {opts : PoolOptions} {system : PoolSystem} (filed : system.Filed)
    (running : system.pool.running = true) (free : Not (LoopStuck system)) :
    StopReleases opts system := by
  have called : Shutdown.call opts system = ⟨system.step opts .stop, .awaitingLoop, []⟩ :=
    if_pos running
  have unfinished : forall shutdown : Shutdown, Stopping opts shutdown ->
      Not (AllReleased opts shutdown) -> shutdown.phase ≠ .finished :=
    fun shutdown stopping unreleased phase => unreleased (stopping.finished phase)
  rw [StopReleases, called]
  apply @leadsTo_of_measure _ _ (Shutdown.step opts) _ _ (AllReleased opts) (Stopping opts)
    Shutdown.distance
  · intro shutdown label stopping unreleased quiet
    have going := unfinished shutdown stopping unreleased
    cases label with
    | elapse now locked lost => exact (stopping.elapse going now locked lost).1
    | pool label => exact (stopping.pool going quiet).1
  · intro shutdown label stopping unreleased quiet
    have going := unfinished shutdown stopping unreleased
    cases label with
    | elapse now locked lost => exact Nat.le_of_lt (stopping.elapse going now locked lost).2
    | pool label => exact (stopping.pool going quiet).2
  · intro shutdown label stopping unreleased quiet counted
    have going := unfinished shutdown stopping unreleased
    cases label with
    | elapse now locked lost => exact (stopping.elapse going now locked lost).2
    | pool label => cases counted
  · exact Stopping.of_awaitingLoop (@PoolSystem.Filed.step opts _ filed .stop) rfl rfl free

/-- From every reachable state of a running pool, `stop` gets through its
releases by timers and responses alone exactly when the newest claim loop is not
waiting for one of its handlers to settle. -/
theorem stop_releases_iff (opts : PoolOptions) (db : Database) (labels : List PoolLabel)
    (running : (run (PoolSystem.step opts) (.initial db) labels).pool.running = true) :
    StopReleases opts (run (PoolSystem.step opts) (.initial db) labels) <->
      Not (LoopStuck (run (PoolSystem.step opts) (.initial db) labels)) := by
  constructor
  · exact fun releases stuck => not_stopReleases running stuck releases
  · exact stopReleases ((PoolSystem.Filed.initial db).run labels) running

/-- A job is claimed and its handler is started. -/
def oneHandler : List PoolLabel := [
  .other ⟨0, .insertJob mailJob⟩, .start 0, .resume 0 0, .execute 0 0 [], .resume 0 0]

/-- With a slot left, the loop goes on to claim; `stop` gets to its release. -/
theorem oneHandler_stops :
    StopReleases mailPool
      (run (PoolSystem.step mailPool) (.initial (.empty [] .empty)) oneHandler) := by
  apply (stop_releases_iff mailPool (.empty [] .empty) oneHandler rfl).mpr
  rintro ⟨raced, newest, _⟩
  cases newest

/-- Without, the loop waits for the handler, and so does `stop`. -/
theorem lastSlot_hangs :
    LoopStuck (run (PoolSystem.step { mailPool with concurrency := 1 })
        (.initial (.empty [] .empty)) oneHandler) ∧
      Not (StopReleases { mailPool with concurrency := 1 }
        (run (PoolSystem.step { mailPool with concurrency := 1 })
          (.initial (.empty [] .empty)) oneHandler)) := by
  have stuck : LoopStuck (run (PoolSystem.step { mailPool with concurrency := 1 })
      (.initial (.empty [] .empty)) oneHandler) := ⟨[0], rfl, rfl⟩
  exact ⟨stuck, not_stopReleases rfl stuck⟩

end PgJobQ
