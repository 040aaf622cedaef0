import PgJobQ.Worker.Pool

/-!
# Slot accounting

The pool counts its free slots by the size of `inFlight`, waits for the
promises in it when it stops, and releases the jobs in `active`.  All three
are right as long as both maps have one entry for each executing handler.
They are keyed by job id, and a job can be delivered to the same pool again
while an earlier handler of it still runs: the second delivery replaces the
entries of the first, and whichever handler settles first deletes them.

So in a run whose claim loops do not overlap, the accounting is right exactly
when no claim brings a job that is already executing in the pool.
-/

namespace PgJobQ

open Runs

/-- The handlers fit into the slots, and both maps have one entry for each. -/
structure SlotsAccounted (opts : PoolOptions) (system : PoolSystem) : Prop where
  bounded : system.pool.executing.length ≤ opts.concurrency
  inFlight : system.pool.inFlight.values.Perm (system.pool.executing.map Delivery.token)
  active : system.pool.active.values.Perm (system.pool.executing.map Delivery.job)

/-- A pool that is started again has no claim loop left from before. -/
def StartsAlone (system : PoolSystem) : PoolLabel -> Prop
  | .start _ => system.pool.running = false -> forall loop, loop ∈ system.loops -> loop = .exited
  | _ => True

/-- When the response to a claim arrives, none of its jobs is executing here. -/
def ClaimsSettled (system : PoolSystem) : PoolLabel -> Prop
  | .resume index _ => forall pass jobs, system.loops[index]? = some (.claimed pass jobs) ->
      forall job, job ∈ jobs -> forall delivery, delivery ∈ system.pool.executing ->
        delivery.job.id ≠ job.id
  | _ => True

/-! ## The maps -/

namespace WorkerPool

/-! Tokens are handed out in order, so no two deliveries share one. -/

theorem drawn_spawn {pool : WorkerPool}
    (drawn : forall delivery, delivery ∈ pool.executing -> delivery.token < pool.spawned)
    (job : JobRow) : forall delivery, delivery ∈ (pool.spawn job).executing ->
      delivery.token < (pool.spawn job).spawned := by
  intro delivery member
  rcases List.mem_append.mp member with older | new
  · exact Nat.lt_succ_of_lt (drawn delivery older)
  · rw [List.mem_singleton.mp new]
    exact Nat.lt_succ_self pool.spawned

theorem tokens_spawn {pool : WorkerPool} (tokens : (pool.executing.map Delivery.token).Nodup)
    (drawn : forall delivery, delivery ∈ pool.executing -> delivery.token < pool.spawned)
    (job : JobRow) : ((pool.spawn job).executing.map Delivery.token).Nodup := by
  have apart : Not (pool.spawned ∈ pool.executing.map Delivery.token) := by
    intro taken
    rcases List.mem_map.mp taken with ⟨delivery, member, same⟩
    have below := drawn delivery member
    omega
  unfold spawn
  rw [List.map_append]
  apply List.nodup_append.mpr ⟨tokens, List.nodup_singleton _, ?_⟩
  intro token member new newMem same
  rw [List.mem_singleton.mp newMem] at same
  have isNew : token = pool.spawned := same
  exact apart (isNew ▸ member)

/-- Both maps follow the executing deliveries by job id. -/
structure Mirrored (pool : WorkerPool) : Prop where
  inFlight : pool.inFlight.Tracks (fun delivery : Delivery => delivery.job.id) Delivery.token
    pool.executing
  active : pool.active.Tracks (fun delivery : Delivery => delivery.job.id) Delivery.job
    pool.executing
  tokens : (pool.executing.map Delivery.token).Nodup
  drawn : forall delivery, delivery ∈ pool.executing -> delivery.token < pool.spawned

namespace Mirrored

theorem empty : Mirrored .empty where
  inFlight := rfl
  active := rfl
  tokens := List.nodup_nil
  drawn := fun _ member => absurd member List.not_mem_nil

/-- Only the maps and the deliveries matter. -/
theorem of_same {pool next : WorkerPool} (mirrored : Mirrored pool)
    (inFlight : next.inFlight = pool.inFlight) (active : next.active = pool.active)
    (spawned : next.spawned = pool.spawned) (executing : next.executing = pool.executing) :
    Mirrored next := by
  rcases pool with ⟨_, _, _, _, _, _⟩
  rcases next with ⟨_, _, _, _, _, _⟩
  cases inFlight
  cases active
  cases spawned
  cases executing
  exact ⟨mirrored.inFlight, mirrored.active, mirrored.tokens, mirrored.drawn⟩

theorem spawn {pool : WorkerPool} (mirrored : Mirrored pool) {job : JobRow}
    (fresh : forall delivery, delivery ∈ pool.executing -> delivery.job.id ≠ job.id) :
    Mirrored (pool.spawn job) where
  inFlight := @InsertionMap.Tracks.set _ _ _ _ _ _ _ _ mirrored.inFlight ⟨pool.spawned, job⟩ fresh
  active := @InsertionMap.Tracks.set _ _ _ _ _ _ _ _ mirrored.active ⟨pool.spawned, job⟩ fresh
  tokens := tokens_spawn mirrored.tokens mirrored.drawn job
  drawn := drawn_spawn mirrored.drawn job

theorem spawnAll {pool : WorkerPool} (mirrored : Mirrored pool) {jobs : List JobRow}
    (fresh : forall job, job ∈ jobs -> forall delivery, delivery ∈ pool.executing ->
      delivery.job.id ≠ job.id)
    (distinct : (jobs.map JobRow.id).Nodup) : Mirrored (jobs.foldl WorkerPool.spawn pool) := by
  induction jobs generalizing pool with
  | nil => exact mirrored
  | cons job jobs inductionHypothesis =>
      rw [List.map_cons, List.nodup_cons] at distinct
      apply inductionHypothesis (mirrored.spawn (fresh job List.mem_cons_self)) _ distinct.2
      intro other member delivery deliveryMem same
      rcases List.mem_append.mp deliveryMem with older | new
      · exact fresh other (List.mem_cons_of_mem job member) delivery older same
      · rw [List.mem_singleton.mp new] at same
        have sameId : job.id = other.id := same
        exact distinct.1 (sameId ▸ List.mem_map_of_mem member)

theorem settle {pool : WorkerPool} (mirrored : Mirrored pool) (token : Nat) :
    Mirrored (pool.settle token) := by
  unfold WorkerPool.settle
  split
  · exact mirrored
  · rename_i delivery found
    have member := List.mem_of_find?_eq_some found
    have isToken : delivery.token = token := by simpa using List.find?_some found
    -- the token and the job id single out the same delivery
    have sameFilter : pool.executing.filter (fun other => other.token ≠ token) =
        pool.executing.filter (fun other => other.job.id ≠ delivery.job.id) := by
      apply List.filter_congr
      intro other otherMem
      have agree : other.token = token <-> other.job.id = delivery.job.id := by
        constructor
        · intro same
          rw [List.inj_on_of_nodup_map mirrored.tokens otherMem member (same.trans isToken.symm)]
        · intro same
          rw [List.inj_on_of_nodup_map mirrored.inFlight.nodup otherMem member same, isToken]
      simp only [ne_eq, agree]
    refine ⟨?_, ?_, ?_, ?_⟩
    · dsimp only
      rw [sameFilter]
      exact mirrored.inFlight.delete delivery.job.id
    · dsimp only
      rw [sameFilter]
      exact mirrored.active.delete delivery.job.id
    · exact List.Nodup.sublist (List.Sublist.map _ List.filter_sublist) mirrored.tokens
    · exact fun other kept => mirrored.drawn other (List.mem_filter.mp kept).1

end Mirrored

theorem executing_spawnAll (pool : WorkerPool) (jobs : List JobRow) :
    (jobs.foldl spawn pool).executing.map Delivery.job = pool.executing.map Delivery.job ++ jobs := by
  induction jobs generalizing pool with
  | nil => exact (List.append_nil _).symm
  | cons job jobs inductionHypothesis =>
      rw [List.foldl_cons, inductionHypothesis, spawn, List.map_append, List.append_assoc]
      rfl

theorem length_spawnAll (pool : WorkerPool) (jobs : List JobRow) :
    (jobs.foldl spawn pool).executing.length = pool.executing.length + jobs.length := by
  have same := congrArg List.length (executing_spawnAll pool jobs)
  rwa [List.length_map, List.length_append, List.length_map] at same

theorem length_settle (pool : WorkerPool) (token : Nat) :
    (pool.settle token).executing.length ≤ pool.executing.length := by
  unfold settle
  split
  · exact Nat.le_refl _
  · exact List.length_filter_le _ _

end WorkerPool

/-! ## The claim loop -/

/-- A claim that is under way fits into the slots left by the handlers. -/
def LoopState.Within (opts : PoolOptions) (executing : Nat) : LoopState -> Prop
  | configuring pass _ => executing + pass.limit ≤ opts.concurrency
  | claiming pass _ => executing + pass.limit ≤ opts.concurrency
  | claimed _ jobs =>
      executing + jobs.length ≤ opts.concurrency ∧ (jobs.map JobRow.id).Nodup
  | _ => True

theorem LoopState.Within.mono {opts : PoolOptions} {executing fewer : Nat} {loop : LoopState}
    (within : loop.Within opts executing) (le : fewer ≤ executing) : loop.Within opts fewer := by
  cases loop with
  | configuring pass readAt => exact Nat.le_trans (Nat.add_le_add_right le _) within
  | claiming pass config => exact Nat.le_trans (Nat.add_le_add_right le _) within
  | claimed pass jobs => exact ⟨Nat.le_trans (Nat.add_le_add_right le _) within.1, within.2⟩
  | _ => exact trivial

namespace WorkerPool

variable {opts : PoolOptions} {now : Timestamp} {db : Database} {pool : WorkerPool}

/-- The capacity is computed from a map that counts the handlers. -/
theorem capacity_of_mirrored (mirrored : Mirrored pool)
    (bounded : pool.executing.length ≤ opts.concurrency) :
    pool.executing.length + pool.capacity opts = opts.concurrency := by
  have size := mirrored.inFlight.size
  unfold capacity
  omega

theorem within_afterQueues {again : LoopState} {executing : Nat}
    (next : again.Within opts executing) (claimedAny : Bool) :
    (afterQueues again claimedAny).Within opts executing := by
  unfold afterQueues
  split
  · exact next
  · exact trivial

theorem within_forQueues (mirrored : Mirrored pool)
    (bounded : pool.executing.length ≤ opts.concurrency) {again : LoopState}
    (next : again.Within opts pool.executing.length) (claimedAny : Bool) (queues : List String) :
    (pool.forQueues opts now again claimedAny queues).Within opts pool.executing.length := by
  have slots := capacity_of_mirrored mirrored bounded
  have limited := Nat.min_le_left (pool.capacity opts) opts.claimBatchMax
  cases queues with
  | nil => exact within_afterQueues next claimedAny
  | cons queue rest =>
      dsimp only [forQueues]
      split
      · split
        · simp only [LoopState.Within]
          omega
        · simp only [LoopState.Within]
          omega
      · exact within_afterQueues next claimedAny

theorem within_loopHead (mirrored : Mirrored pool)
    (bounded : pool.executing.length ≤ opts.concurrency) :
    (pool.loopHead opts now).Within opts pool.executing.length := by
  unfold loopHead
  split
  · exact trivial
  · split
    · exact trivial
    · have idle : LoopState.idle.Within opts pool.executing.length := trivial
      exact within_forQueues mirrored bounded idle false opts.queues

theorem claimParams_claimStatement (pass : QueuePass) (config : QueueDefaultsRow)
    (locked : List Nat) : (claimStatement opts pass config locked).claimParams =
      some ⟨pass.queue, pass.limit, opts.workerId⟩ := by
  unfold claimStatement
  split
  · rfl
  · rfl

theorem within_execute {executing : Nat} {loop : LoopState} (within : loop.Within opts executing)
    (locked : List Nat) : (execute opts now locked db loop).2.Within opts executing := by
  cases loop with
  | claiming pass config =>
      unfold execute
      dsimp only
      split
      · rename_i reply committed
        have rows := Statement.claim_rows committed (claimParams_claimStatement pass config locked)
        exact ⟨Nat.le_trans (Nat.add_le_add_left rows.1 _) within, rows.2⟩
      · exact trivial
  | _ => exact within

theorem within_fail {executing : Nat} {loop : LoopState} (within : loop.Within opts executing) :
    (fail loop).Within opts executing := by
  cases loop with
  | configuring pass readAt => exact trivial
  | claiming pass config => exact trivial
  | claimed pass jobs => exact trivial
  | _ => exact within

/-- A loop that goes on keeps the maps and the bound, if what it has claimed is
not executing yet. -/
theorem resume_keeps {loop : LoopState} (mirrored : Mirrored pool)
    (bounded : pool.executing.length ≤ opts.concurrency)
    (within : loop.Within opts pool.executing.length)
    (settled : forall pass jobs, loop = .claimed pass jobs -> forall job, job ∈ jobs ->
      forall delivery, delivery ∈ pool.executing -> delivery.job.id ≠ job.id) :
    Mirrored (pool.resume opts now db loop).1 ∧
      (pool.resume opts now db loop).1.executing.length ≤ opts.concurrency ∧
      (pool.resume opts now db loop).2.Within opts
        (pool.resume opts now db loop).1.executing.length := by
  cases loop with
  | waitingSlot raced =>
      refine ⟨mirrored, bounded, ?_⟩
      dsimp only [resume]
      split
      · exact within_loopHead mirrored bounded
      · exact trivial
  | configuring pass readAt =>
      exact ⟨mirrored.of_same rfl rfl rfl rfl, bounded, within⟩
  | claiming pass config => exact ⟨mirrored, bounded, within⟩
  | claimed pass jobs =>
      have next := mirrored.spawnAll (settled pass jobs rfl) within.2
      have length := length_spawnAll pool jobs
      have nextBounded : (jobs.foldl spawn pool).executing.length ≤ opts.concurrency :=
        length ▸ within.1
      exact ⟨next, nextBounded,
        within_forQueues next nextBounded (within_loopHead next nextBounded) _ pass.rest⟩
  | idle => exact ⟨mirrored, bounded, within_loopHead mirrored bounded⟩
  | backingOff => exact ⟨mirrored, bounded, within_loopHead mirrored bounded⟩
  | exited => exact ⟨mirrored, bounded, trivial⟩

end WorkerPool

/-! ## Along a run -/

/-- The newest claim loop claims within the free slots; the others are over. -/
def LoopsWithin (opts : PoolOptions) (executing : Nat) (loops : List LoopState) : Prop :=
  forall index loop, loops[index]? = some loop ->
    if index = 0 then loop.Within opts executing else loop = .exited

theorem LoopsWithin.mono {opts : PoolOptions} {executing fewer : Nat} {loops : List LoopState}
    (within : LoopsWithin opts executing loops) (le : fewer ≤ executing) :
    LoopsWithin opts fewer loops := by
  intro index loop found
  have one := within index loop found
  split
  · rename_i newest
    rw [if_pos newest] at one
    exact one.mono le
  · rename_i older
    rwa [if_neg older] at one

/-- One loop moves: the newest one in any way that stays within the slots, an
older one not at all. -/
theorem LoopsWithin.set {opts : PoolOptions} {executing after : Nat} {loops : List LoopState}
    (within : LoopsWithin opts executing loops) {index : Nat} {next : LoopState}
    (moved : if index = 0 then next.Within opts after else next = .exited ∧ after = executing) :
    LoopsWithin opts after (loops.set index next) := by
  intro other loop found
  rw [List.getElem?_set] at found
  by_cases same : index = other
  · subst same
    rw [if_pos rfl] at found
    split at found
    · cases found
      split
      · rename_i newest
        rwa [if_pos newest] at moved
      · rename_i older
        rw [if_neg older] at moved
        exact moved.1
    · cases found
  · rw [if_neg same] at found
    have one := within other loop found
    split
    · rename_i newest
      have older : index ≠ 0 := fun zero => same (zero.trans newest.symm)
      rw [if_neg older] at moved
      rw [if_pos newest] at one
      exact moved.2 ▸ one
    · rename_i older
      rwa [if_neg older] at one

structure SlotInvariant (opts : PoolOptions) (system : PoolSystem) : Prop where
  mirrored : system.pool.Mirrored
  bounded : system.pool.executing.length ≤ opts.concurrency
  loops : LoopsWithin opts system.pool.executing.length system.loops

namespace SlotInvariant

variable {opts : PoolOptions} {system : PoolSystem}

theorem initial (db : Database) : SlotInvariant opts (.initial db) where
  mirrored := .empty
  bounded := Nat.zero_le _
  loops := fun _ _ found => by cases found

theorem accounted (invariant : SlotInvariant opts system) : SlotsAccounted opts system where
  bounded := invariant.bounded
  inFlight := by
    rw [invariant.mirrored.inFlight.values]
  active := by
    rw [invariant.mirrored.active.values]

/-- A claim loop that moves without touching the pool. -/
theorem set (invariant : SlotInvariant opts system) (db : Database) {index : Nat}
    {loop next : LoopState} (found : system.loops[index]? = some loop)
    (moved : loop.Within opts system.pool.executing.length ->
      next.Within opts system.pool.executing.length)
    (exits : loop = .exited -> next = .exited) :
    SlotInvariant opts ⟨db, system.pool, system.loops.set index next⟩ := by
  have within := invariant.loops index loop found
  refine ⟨invariant.mirrored, invariant.bounded, invariant.loops.set ?_⟩
  split
  · rename_i newest
    rw [if_pos newest] at within
    exact moved within
  · rename_i older
    rw [if_neg older] at within
    exact ⟨exits within, rfl⟩

theorem start (invariant : SlotInvariant opts system) (now : Timestamp)
    (alone : StartsAlone system (.start now)) :
    SlotInvariant opts (system.step opts (.start now)) := by
  unfold PoolSystem.step
  dsimp only
  split
  · exact invariant
  · rename_i stopped
    have mirrored : WorkerPool.Mirrored { system.pool with running := true } :=
      invariant.mirrored.of_same rfl rfl rfl rfl
    refine ⟨mirrored, invariant.bounded, ?_⟩
    intro index loop found
    cases index with
    | zero =>
        cases found
        exact WorkerPool.within_loopHead mirrored invariant.bounded
    | succ index =>
        have member : loop ∈ system.loops := List.mem_of_getElem? found
        exact alone (Bool.eq_false_iff.mpr stopped) loop member

theorem resume (invariant : SlotInvariant opts system) (index : Nat) (now : Timestamp)
    (settled : ClaimsSettled system (.resume index now)) :
    SlotInvariant opts (system.step opts (.resume index now)) := by
  unfold PoolSystem.step
  dsimp only
  split
  · exact invariant
  · rename_i loop found
    have within := invariant.loops index loop found
    by_cases newest : index = 0
    · rw [if_pos newest] at within
      have kept := @WorkerPool.resume_keeps opts now system.db _ _ invariant.mirrored
        invariant.bounded within (fun pass jobs isClaimed => settled pass jobs (isClaimed ▸ found))
      refine ⟨kept.1, kept.2.1, invariant.loops.set ?_⟩
      rw [if_pos newest]
      exact kept.2.2
    · rw [if_neg newest] at within
      subst within
      exact invariant.set system.db found (fun _ => trivial) (fun _ => rfl)

theorem step (invariant : SlotInvariant opts system) (label : PoolLabel)
    (alone : StartsAlone system label) (settled : ClaimsSettled system label) :
    SlotInvariant opts (system.step opts label) := by
  cases label with
  | start now => exact invariant.start now alone
  | stop => exact ⟨invariant.mirrored.of_same rfl rfl rfl rfl, invariant.bounded, invariant.loops⟩
  | resume index now => exact invariant.resume index now settled
  | execute index now locked =>
      unfold PoolSystem.step
      dsimp only
      split
      · exact invariant
      · rename_i loop found
        apply invariant.set _ found
        · exact fun within => WorkerPool.within_execute within locked
        · rintro rfl
          rfl
  | fail index =>
      unfold PoolSystem.step
      dsimp only
      split
      · exact invariant
      · rename_i loop found
        apply invariant.set _ found
        · exact fun within => WorkerPool.within_fail within
        · rintro rfl
          rfl
  | settle token =>
      have fewer := WorkerPool.length_settle system.pool token
      exact ⟨invariant.mirrored.settle token, Nat.le_trans fewer invariant.bounded,
        invariant.loops.mono fewer⟩
  | other call => exact ⟨invariant.mirrored, invariant.bounded, invariant.loops⟩

end SlotInvariant

/-! ## A job that is delivered twice -/

/-- Whatever is spawned, `active` files each job under its own id. -/
theorem WorkerPool.active_filed {pool : WorkerPool} (jobs : List JobRow)
    (filed : forall entry, entry ∈ pool.active.entries -> entry.2.id = entry.1) :
    forall entry, entry ∈ (jobs.foldl spawn pool).active.entries -> entry.2.id = entry.1 := by
  induction jobs generalizing pool with
  | nil => exact filed
  | cons job jobs inductionHypothesis =>
      apply inductionHypothesis
      rintro ⟨key, stored⟩ member
      rcases InsertionMap.mem_set_iff.mp member with ⟨rfl, rfl⟩ | ⟨_, older⟩
      · rfl
      · exact filed (key, stored) older

/-- So its jobs have different ids, and it cannot list two deliveries of one
job. -/
theorem WorkerPool.Mirrored.not_active_perm {pool : WorkerPool} (mirrored : Mirrored pool)
    {jobs : List JobRow} {job : JobRow} (member : job ∈ jobs) {delivery : Delivery}
    (executing : delivery ∈ pool.executing) (same : delivery.job.id = job.id) :
    Not ((jobs.foldl WorkerPool.spawn pool).active.values.Perm
      ((jobs.foldl WorkerPool.spawn pool).executing.map Delivery.job)) := by
  intro listed
  have filed : forall entry, entry ∈ pool.active.entries -> entry.2.id = entry.1 := by
    intro entry entryMem
    rw [mirrored.active] at entryMem
    rcases List.mem_map.mp entryMem with ⟨source, _, rfl⟩
    rfl
  have ids : (jobs.foldl WorkerPool.spawn pool).active.values.map JobRow.id =
      (jobs.foldl WorkerPool.spawn pool).active.keys := by
    unfold InsertionMap.values InsertionMap.keys
    rw [List.map_map]
    exact List.map_congr_left (active_filed jobs filed)
  have distinct : ((pool.executing.map Delivery.job ++ jobs).map JobRow.id).Nodup := by
    rw [← executing_spawnAll]
    apply (listed.map JobRow.id).nodup_iff.mp
    rw [ids]
    exact (jobs.foldl WorkerPool.spawn pool).active.distinct
  rw [List.map_append] at distinct
  have apart := (List.nodup_append.mp distinct).2.2
  exact apart delivery.job.id (List.mem_map_of_mem (List.mem_map_of_mem executing)) job.id
    (List.mem_map_of_mem member) same

/-- A claim that brings a job that is executing here ends the accounting. -/
theorem SlotInvariant.not_accounted {opts : PoolOptions} {system : PoolSystem} {label : PoolLabel}
    (invariant : SlotInvariant opts system) (unsettled : Not (ClaimsSettled system label)) :
    Not (SlotsAccounted opts (system.step opts label)) := by
  intro accounted
  cases label with
  | resume index now =>
      apply unsettled
      intro pass jobs found job member delivery executing same
      have spawned : (system.step opts (.resume index now)).pool =
          jobs.foldl WorkerPool.spawn system.pool := by
        simp only [PoolSystem.step, found, WorkerPool.resume]
      have listed := accounted.active
      rw [spawned] at listed
      exact invariant.mirrored.not_active_perm member executing same listed
  | _ => exact unsettled trivial

/-! ## The contract -/

/-- In a run in which no pool is started while a claim loop of an earlier start
is left, the slots are accounted for in every state exactly when no claim
brings a job back while a handler of it is still executing. -/
theorem slots_accounted_iff (opts : PoolOptions) (db : Database) (labels : List PoolLabel)
    (alone : EachStep (PoolSystem.step opts) StartsAlone (.initial db) labels) :
    Always (PoolSystem.step opts) (SlotsAccounted opts) (.initial db) labels <->
      EachStep (PoolSystem.step opts) ClaimsSettled (.initial db) labels := by
  apply @always_iff_eachStep_of _ _ (PoolSystem.step opts) (SlotInvariant opts)
    (SlotsAccounted opts) StartsAlone ClaimsSettled
  · exact fun system invariant => invariant.accounted
  · exact fun system label invariant started settled => invariant.step label started settled
  · exact fun system label invariant unsettled => invariant.not_accounted unsettled
  · exact .initial db
  · exact alone

def mailPool : PoolOptions := ⟨["mail"], 2, 10, "w"⟩

def mailJob : EnqueueRow :=
  ⟨"mail", "send", "{}", none, 0, 3, 30, none, none, none, none, none⟩

/-- A job is claimed, run and settled. -/
def oneDelivery : List PoolLabel := [
  .other ⟨0, .insertJob mailJob⟩, .start 0, .resume 0 0, .execute 0 0 [], .resume 0 0, .settle 0]

theorem oneDelivery_accounted :
    Always (PoolSystem.step mailPool) (SlotsAccounted mailPool) (.initial (.empty [] .empty))
      oneDelivery := by
  have alone : EachStep (PoolSystem.step mailPool) StartsAlone (.initial (.empty [] .empty))
      oneDelivery :=
    ⟨trivial, fun _ _ member => absurd member List.not_mem_nil, trivial, trivial, trivial, trivial,
      trivial⟩
  have nothing : forall (system : PoolSystem) (index : Nat) (now : Timestamp),
      system.pool.executing = [] -> ClaimsSettled system (.resume index now) := by
    intro system index now idle pass jobs found job member delivery executing
    rw [idle] at executing
    cases executing
  exact (slots_accounted_iff mailPool (.empty [] .empty) oneDelivery alone).mpr
    ⟨trivial, trivial, nothing _ _ _ rfl, trivial, nothing _ _ _ rfl, trivial, trivial⟩

/-- The handler of the first job outlives its lease.  The reaper makes the job
available, and the same pool claims it again in its second slot.  The map has
one entry for the two deliveries, so the pool goes on to claim another job. -/
def deliveredTwice : List PoolLabel := [
  .other ⟨0, .insertJob mailJob⟩, .start 0, .resume 0 0, .execute 0 0 [], .resume 0 0,
  -- nothing else is waiting, so the loop goes idle
  .execute 0 0 [], .resume 0 0,
  .other ⟨seconds 31, .reapExpiredLeases ⟨100, 0⟩ []⟩,
  .resume 0 (seconds 32), .resume 0 (seconds 32), .execute 0 (seconds 32) [],
  .resume 0 (seconds 32),
  .other ⟨seconds 33, .insertJob mailJob⟩, .execute 0 (seconds 33) [], .resume 0 (seconds 33)]

/-- Three handlers execute in two slots. -/
theorem deliveredTwice_overfills :
    (run (PoolSystem.step mailPool) (.initial (.empty [] .empty))
        deliveredTwice).pool.executing.length = 3 ∧
      Not (Always (PoolSystem.step mailPool) (SlotsAccounted mailPool)
        (.initial (.empty [] .empty)) deliveredTwice) := by
  have overfilled : (run (PoolSystem.step mailPool) (.initial (.empty [] .empty))
      deliveredTwice).pool.executing.length = 3 := by rfl
  refine ⟨overfilled, fun always => ?_⟩
  have last := (always_iff_forall_initial _ _ _ _).mp always deliveredTwice List.prefix_rfl
  have bounded := last.bounded
  rw [overfilled] at bounded
  exact absurd bounded (by decide)

end PgJobQ
