import PgJobQ.Lifecycle.CancelRequests
import PgJobQ.Lifecycle.Outcomes
import PgJobQ.Lifecycle.Retention
import PgJobQ.Lifecycle.UnendingRuns

/-!
# The job table tracks the backlog, not the history

A pass of retention takes the jobs that finished first.  A job finishes at the
time of the statement that finishes it, so no later statement adds to the jobs
that finished as early as a given one.  Its window does not grow beyond what the
loop, the row of the queue or the column defaults say, so one day it is past.
From then on each pass removes one of finitely many jobs, or the job itself.
-/

namespace PgJobQ

open Runs Intervals

instance : Std.Total finishedOrder :=
  ⟨fun first second => nullsLast_total first.finishedAt second.finishedAt⟩

instance : IsTrans JobRow finishedOrder := ⟨fun _ _ _ => nullsLast_trans⟩

/-! ## The jobs that finished no later -/

/-- The job has finished, at this time or earlier. -/
def JobRow.finishedBy (time : Timestamp) (job : JobRow) : Bool :=
  job.state.isTerminal && nullsLast job.finishedAt (some time)

theorem JobRow.finishedBy_iff {time : Timestamp} {job : JobRow} :
    job.finishedBy time = true <-> job.state.isTerminal = true ∧
      nullsLast job.finishedAt (some time) = true := Bool.and_eq_true_iff

/-- Once a time has passed nobody joins the jobs that had finished by then. -/
theorem keepsOutOf_finishedBy {call : Call} {time : Timestamp} (past : time < call.now)
    (db : Database) : call.KeepsOutOf db (JobRow.finishedBy time) where
  steps := by
    intro old new _ step early
    have finished := JobRow.finishedBy_iff.mp early
    have written := finished.2
    rw [(step.finishes finished.1).2] at written
    exact absurd (of_decide_eq_true written) (Int.not_le.mpr past)
  inserts := fun _ _ _ => rfl

/-! ## Windows -/

/-- The windows of the queue are what they were, or the column defaults. -/
def WindowsFrom (first : Option (Interval × Interval)) (queue : String) (db : Database) : Prop :=
  db.queueConfig.windows queue = first ∨ db.queueConfig.windows queue = some columnWindows

theorem WindowsFrom.step {first : Option (Interval × Interval)} {queue : String} {db : Database}
    (windows : WindowsFrom first queue db) (call : Call) :
    WindowsFrom first queue (db.step call) := by
  rcases Database.step_cases db call with stays | ⟨reply, committed, moves⟩
  · rw [stays]
    exact windows
  · rw [moves]
    rcases call with ⟨now, statement⟩
    by_cases pausing : Exists fun named : String => Exists fun paused : Bool =>
        statement = .setQueuePaused named paused
    · rcases pausing with ⟨named, paused, rfl⟩
      cases committed
      unfold WindowsFrom
      change (db.queueConfig.setPaused named paused).windows queue = _ ∨
        (db.queueConfig.setPaused named paused).windows queue = _
      rw [QueueConfigTable.windows_setPaused]
      split
      · rename_i same
        rw [← same]
        rcases windows with kept | defaults
        · rw [kept]
          cases first with
          | none => exact Or.inr rfl
          | some own => exact Or.inl rfl
        · rw [defaults]
          exact Or.inr rfl
      · exact windows
    · have other : forall named paused, statement ≠ .setQueuePaused named paused :=
        fun named paused same => pausing ⟨named, paused, same⟩
      have kept := exec_queueConfig committed other
      unfold WindowsFrom
      rw [kept]
      exact windows

/-- No window that applies to the job along a run goes back farther than this. -/
theorem exists_longest_window {opts : RetentionOptions} {defaults : Interval × Interval}
    (readable : opts.defaultWindows = some defaults) (db : Database) (calls : Nat -> Call)
    (job : JobRow) : Exists fun longest : Timestamp => forall count, Exists fun window : Interval =>
      retentionWindow (db.afterCalls calls count).queueConfig opts.params job = some window ∧
        forall now, now ≤ opts.zone.subtract now window + longest := by
  have windows : forall count, WindowsFrom (db.queueConfig.windows job.queue) job.queue
      (db.afterCalls calls count) := by
    apply stateAt_invariant
    · exact fun count kept => WindowsFrom.step kept (calls count)
    · exact Or.inl rfl
  rcases opts.zone.exists_reach
    (job.state.window ((db.queueConfig.windows job.queue).getD defaults)) with ⟨own, ownReach⟩
  rcases opts.zone.exists_reach (job.state.window columnWindows) with ⟨column, columnReach⟩
  refine ⟨max own column, fun count => ⟨_, retentionWindow_eq readable _ job, fun now => ?_⟩⟩
  rcases windows count with kept | paused
  · rw [kept]
    exact Int.le_trans (ownReach now) (Int.add_le_add_left (Int.le_max_left own column) _)
  · rw [paused]
    exact Int.le_trans (columnReach now) (Int.add_le_add_left (Int.le_max_right own column) _)

/-! ## Ids that are not used again -/

/-- The id has been used, and the job is there no more. -/
structure Gone (id : Nat) (db : Database) : Prop where
  drawn : id < db.nextId
  absent : db.find id = none

theorem Gone.step {id : Nat} {db : Database} (gone : Gone id db) (call : Call) :
    Gone id (db.step call) := by
  rcases Database.step_cases db call with stays | ⟨reply, committed, moves⟩
  · rw [stays]
    exact gone
  · rw [moves]
    refine ⟨Nat.lt_of_lt_of_le gone.drawn (exec_frame committed).1, ?_⟩
    have effect := exec_effect committed id
    rw [gone.absent] at effect
    generalize after : reply.db.find id = new at effect
    cases effect with
    | untouched silent => exact rfl
    | inserted asked fresh listed only => exact absurd gone.drawn (Nat.not_lt.mpr fresh)

theorem Gone.mutation {id : Nat} {db : Database} (gone : Gone id db) {mutation : Mutation}
    {reply : Reply} (committed : mutation.run db = .ok reply) : Gone id reply.db := by
  have updated := Mutation.run_ok committed
  refine ⟨updated.2.2.1 ▸ gone.drawn, Database.find_eq_none_iff.mpr fun row member => ?_⟩
  rw [updated.1] at member
  rcases List.mem_map.mp member with ⟨source, sourceMem, rfl⟩
  rw [Mutation.rewrite_id]
  exact Database.find_eq_none_iff.mp gone.absent source sourceMem

theorem Gone.delete {id : Nat} {db : Database} (gone : Gone id db) (victim : JobRow -> Bool) :
    Gone id (db.deleteJobs victim) where
  drawn := gone.drawn
  absent := Database.find_eq_none_iff.mpr fun row member =>
    Database.find_eq_none_iff.mp gone.absent row (List.mem_filter.mp member).1

/-! ## How a finished job leaves -/

/-- How a finished job leaves: it is buried no more, or the table is rid of it. -/
inductive Leaves (call : Call) (job : JobRow) (after : Database) : Prop where
  | replayed (replays : call.statement.isReplay = true) (buried : job.state = .dead)
      (queued : after.find job.id = some (replaySet call.now job))
  | pruned {p locked} (prunes : call.statement = .pruneTerminalJobs p locked)
      (gone : after.find job.id = none)
  | archived {p locked} (archives : call.statement = .archiveTerminalJobs p locked)
      (gone : after.find job.id = none) (kept : archiveRow call.now job ∈ after.jobArchive)
  | purged {queue states limit locked}
      (purges : call.statement = .purgeQueue queue states limit locked)
      (gone : after.find job.id = none)

/-- A finished job stays as it is until it leaves. -/
theorem finished_step {db : Database} {call : Call} {job : JobRow}
    (found : db.find job.id = some job) (finished : job.state.isTerminal = true) :
    (db.step call).find job.id = some job ∨ Leaves call job (db.step call) := by
  rcases Database.step_cases db call with stays | ⟨reply, committed, moves⟩
  · rw [stays]
    exact Or.inl found
  · rw [moves]
    have effect := exec_effect committed job.id
    rw [found] at effect
    generalize after : reply.db.find job.id = new at effect
    rcases call with ⟨now, statement⟩
    cases effect with
    | untouched silent => exact Or.inl rfl
    | deleted deletes oldId listed only =>
        right
        cases statement with
        | pruneTerminalJobs p locked => exact .pruned rfl after
        | purgeQueue queue states limit locked => exact .purged rfl after
        | archiveTerminalJobs p locked =>
            refine .archived rfl after ?_
            rw [archiveTerminalJobs_ok committed] at listed ⊢
            exact List.mem_append_right _ (List.mem_map_of_mem listed)
        | _ => cases deletes
    | stepped step oldId newId listed only =>
        right
        cases step with
        | replay replays buried => exact .replayed replays buried after
        | claim claims queue ready due =>
            rw [ready] at finished
            cases finished
        | retryNow same waiting =>
            rw [waiting] at finished
            cases finished
        | cancelAvailable same waiting =>
            rw [waiting] at finished
            cases finished
        | requestCancel same started =>
            rw [started] at finished
            cases finished
        | reapExhausted expired exhausted =>
            rw [(leaseExpired_iff.mp expired).1] at finished
            cases finished
        | reapRetry expired remaining =>
            rw [(leaseExpired_iff.mp expired).1] at finished
            cases finished
        | complete owned =>
            rw [(FenceParams.owns_iff.mp owned).2.1] at finished
            cases finished
        | failNonRetryable owned final =>
            rw [(FenceParams.owns_iff.mp owned).2.1] at finished
            cases finished
        | failExhausted owned retryable exhausted =>
            rw [(FenceParams.owns_iff.mp owned).2.1] at finished
            cases finished
        | failRetry owned retryable remaining =>
            rw [(FenceParams.owns_iff.mp owned).2.1] at finished
            cases finished
        | heartbeat owned =>
            rw [(FenceParams.owns_iff.mp owned).2.1] at finished
            cases finished
        | acknowledge owned requested =>
            rw [(FenceParams.owns_iff.mp owned).2.1] at finished
            cases finished
        | release owned =>
            rw [(FenceParams.owns_iff.mp owned).2.1] at finished
            cases finished

/-! ## One pass -/

/-- The call is a pass of the loop that may take the job, with windows that are
intervals, and can archive what it takes. -/
def OffersRetention (opts : RetentionOptions) (id : Nat) (db : Database) (call : Call) : Prop :=
  opts.defaultWindows.isSome = true ∧ Exists fun locked : List Nat =>
    call.statement = opts.statement locked ∧ id ∉ locked ∧
      (opts.archive = true -> db.archives call.now = true)

/-- Such a pass commits and removes its victims. -/
theorem OffersRetention.deletes {opts : RetentionOptions} {id : Nat} {db : Database} {call : Call}
    (offers : OffersRetention opts id db call) : Exists fun locked : List Nat => id ∉ locked ∧
      (db.step call).job.rows =
        (db.deleteJobs (retentionVictim opts.params locked call.now db)).job.rows := by
  rcases call with ⟨now, statement⟩
  rcases offers with ⟨given, locked, passes, unlocked, covered⟩
  have readable : opts.params.readable = true := opts.readable_params.trans given
  refine ⟨locked, unlocked, ?_⟩
  dsimp only at passes covered
  subst passes
  unfold RetentionOptions.statement
  cases mode : opts.archive with
  | false =>
      have pruned : Exists fun reply : Reply =>
          pruneTerminalJobs opts.params locked now db = .ok reply := ⟨_, if_pos readable⟩
      rcases pruned with ⟨reply, committed⟩
      have moves : db.step ⟨now, .pruneTerminalJobs opts.params locked⟩ = reply.db :=
        Database.step_of_ok committed
      rw [if_neg Bool.false_ne_true, moves, pruneTerminalJobs_ok committed]
  | true =>
      have archived : Exists fun reply : Reply =>
          archiveTerminalJobs opts.params locked now db = .ok reply := by
        refine ⟨_, (if_neg ?_).trans (if_pos (Or.inr (covered mode)))⟩
        rw [readable]
        exact Bool.false_ne_true
      rcases archived with ⟨reply, committed⟩
      have moves : db.step ⟨now, .archiveTerminalJobs opts.params locked⟩ = reply.db :=
        Database.step_of_ok committed
      rw [if_pos rfl, moves, archiveTerminalJobs_ok committed]

/-- What is deleted is not found any more. -/
theorem find_eq_none_of_deleted {db after : Database} {victim : JobRow -> Bool}
    (rows : after.job.rows = (db.deleteJobs victim).job.rows) {job : JobRow}
    (member : job ∈ db.job.rows) (hit : victim job = true) : after.find job.id = none := by
  apply Option.eq_none_iff_forall_ne_some.mpr
  intro row found
  have present := Database.find_eq_some_iff.mp found
  rw [rows] at present
  have kept := List.mem_filter.mp present.1
  have same := Database.find_of_mem kept.1
  rw [present.2, Database.find_of_mem member] at same
  cases same
  rw [hit] at kept
  cases kept.2

/-- A pass that may take a job past its window takes it, or takes one that
finished no later. -/
theorem retention_serves {opts : RetentionOptions} (room : 0 < opts.batchMax) {db : Database}
    {call : Call} {job : JobRow} {time : Timestamp} (member : job ∈ db.job.rows)
    (finishedAt : job.finishedAt = some time)
    (past : pastRetention db.queueConfig opts.params call.now job = true)
    (offers : OffersRetention opts job.id db call) :
    (db.step call).find job.id = none ∨
      Exists fun id : Nat => id ∈ db.idsWhere (JobRow.finishedBy time) ∧
        id ∉ (db.step call).idsWhere (JobRow.finishedBy time) := by
  rcases offers.deletes with ⟨locked, unlocked, rows⟩
  rcases @exists_taken finishedOrder _ _ _ (pastRetention db.queueConfig opts.params call.now)
    opts.params.limit locked db.job job member past unlocked room with
    among | ⟨taken, takenMem, selected, chosen, ahead⟩
  · exact Or.inl (find_eq_none_of_deleted rows member (List.contains_iff_mem.mpr among))
  · right
    have order : nullsLast taken.finishedAt (some time) = true :=
      finishedAt ▸ before_of_takenAhead takenMem member past unlocked ahead
    have early : taken.finishedBy time = true :=
      JobRow.finishedBy_iff.mpr ⟨(Bool.and_eq_true_iff.mp selected).1, order⟩
    refine ⟨taken.id, Database.mem_idsWhere.mpr ⟨taken, Database.find_of_mem takenMem, early⟩, ?_⟩
    intro stays
    rcases Database.mem_idsWhere.mp stays with ⟨row, found, _⟩
    rw [find_eq_none_of_deleted rows takenMem (List.contains_iff_mem.mpr chosen)] at found
    cases found

/-! ## Unending runs -/

/-- An unending run with retention: the clock goes on, and again and again a
pass of the loop is made that may take the job. -/
structure RetainingRun (opts : RetentionOptions) (id : Nat) (db : Database)
    (calls : Nat -> Call) : Prop where
  clock : ClockGoesOn calls
  offered : forall count, Exists fun later : Nat => count ≤ later ∧
    OffersRetention opts id (db.afterCalls calls later) (calls later)

theorem RetainingRun.suffix {opts : RetentionOptions} {id : Nat} {db : Database}
    {calls : Nat -> Call} (served : RetainingRun opts id db calls) (first : Nat) :
    RetainingRun opts id (db.afterCalls calls first) (fun later => calls (first + later)) where
  clock := served.clock.suffix first
  offered := by
    intro count
    rcases served.offered (first + count) with ⟨later, after, offers⟩
    rcases Nat.exists_eq_add_of_le after with ⟨more, rfl⟩
    refine ⟨count + more, Nat.le_add_right count more, ?_⟩
    rw [Database.afterCalls, stateAt_add, ← Nat.add_assoc]
    exact offers

/-- A finished job stays as it is until the first call that lets it leave. -/
theorem leaves_of_changed {db : Database} {calls : Nat -> Call} {job : JobRow}
    (member : job ∈ db.job.rows) (finished : job.state.isTerminal = true) {count : Nat}
    (changed : (db.afterCalls calls count).find job.id ≠ some job) :
    Exists fun last : Nat => (db.afterCalls calls last).find job.id = some job ∧
      Leaves (calls last) job (db.afterCalls calls (last + 1)) := by
  induction count with
  | zero => exact absurd (Database.find_of_mem member) changed
  | succ count inductionHypothesis =>
      by_cases stayed : (db.afterCalls calls count).find job.id = some job
      · rcases @finished_step _ (calls count) _ stayed finished with stays | leaves
        · exact absurd stays changed
        · exact ⟨count, stayed, leaves⟩
      · exact inductionHypothesis stayed

/-- A job that has finished at the beginning of the run leaves. -/
theorem retained_leaves {opts : RetentionOptions} (room : 0 < opts.batchMax) {db : Database}
    {job : JobRow} (member : job ∈ db.job.rows) (finished : job.state.isTerminal = true)
    {calls : Nat -> Call} (served : RetainingRun opts job.id db calls) :
    Exists fun last : Nat => (db.afterCalls calls last).find job.id = some job ∧
      Leaves (calls last) job (db.afterCalls calls (last + 1)) := by
  have timed : job.finishedAt ≠ none :=
    (db.job.holds member .jobTerminalFinished).resolve_left
      (fun unfinished => by rw [finished] at unfinished; cases unfinished)
  rcases Option.ne_none_iff_exists'.mp timed with ⟨time, finishedAt⟩
  have readable : Exists fun defaults : Interval × Interval =>
      opts.defaultWindows = some defaults := by
    rcases served.offered 0 with ⟨later, _, given, _⟩
    exact Option.isSome_iff_exists.mp given
  rcases readable with ⟨defaults, readable⟩
  rcases exists_longest_window readable db calls job with ⟨longest, windows⟩
  rcases served.clock.beyond (time + max longest 0 + 1) with ⟨first, reached⟩
  have late : forall count, time + max longest 0 < (calls (first + count)).now := fun count =>
    Int.lt_of_add_one_le (Int.le_trans reached (served.clock.le (Nat.le_add_right first count)))
  have joined : forall count, time < (calls (first + count)).now := fun count =>
    Int.lt_of_le_of_lt (Int.le_add_of_nonneg_right (Int.le_max_right longest 0)) (late count)
  have changes : Exists fun count : Nat =>
      (db.afterCalls calls (first + count)).find job.id ≠ some job := by
    apply reaches_of_measure (fun count =>
      ((db.afterCalls calls (first + count)).idsWhere (JobRow.finishedBy time)).card)
    · intro count _
      exact Finset.card_le_card (keepsOutOf_finishedBy (joined count) _).subset
    · intro count never
      rcases served.offered (first + count) with ⟨later, after, offers⟩
      rcases Nat.exists_eq_add_of_le after with ⟨more, rfl⟩
      rw [Nat.add_assoc] at offers
      refine ⟨count + more, Nat.le_add_right count more, ?_⟩
      have stayed : (db.afterCalls calls (first + (count + more))).find job.id = some job :=
        not_not.mp (never (count + more))
      have past : pastRetention (db.afterCalls calls (first + (count + more))).queueConfig
          opts.params (calls (first + (count + more))).now job = true := by
        rcases windows (first + (count + more)) with ⟨window, granted, reach⟩
        have back := reach (calls (first + (count + more))).now
        have beyond := late (count + more)
        unfold pastRetention
        rw [finished, finishedAt, granted]
        apply decide_eq_true
        have within := Int.add_le_add_left (Int.le_max_left longest 0) time
        exact Int.lt_of_add_lt_add_right
          (Int.lt_of_le_of_lt within (Int.lt_of_lt_of_le beyond back))
      rcases retention_serves room (Database.find_eq_some_iff.mp stayed).1 finishedAt past offers
        with gone | ⟨id, before, gone⟩
      · exact absurd (not_not.mp (never (count + more + 1))) (by
          intro still
          exact Option.some_ne_none job (still.symm.trans gone))
      · exact (keepsOutOf_finishedBy (joined (count + more)) _).card_lt before gone
  rcases changes with ⟨count, changed⟩
  exact leaves_of_changed member finished changed

/-- A loop that deletes one job in a pass. -/
def oneByOne : RetentionOptions := { oneHour with batchMax := 1 }

/-- In turns the loop makes a pass, and a client enqueues and cancels a job. -/
def sweepingCalls (count : Nat) : Call where
  now := seconds count
  statement :=
    if count % 3 = 0 then oneByOne.statement []
    else if count % 3 = 1 then .insertJob (plainEnqueue 3)
    else .cancelAvailableJob (count / 3 + 3)

theorem sweepingCalls_retains (db : Database) (id : Nat) :
    RetainingRun oneByOne id db sweepingCalls where
  clock :=
    { forward := pollingCalls_clock.forward
      beyond := pollingCalls_clock.beyond }
  offered := fun count => ⟨3 * count, by omega, rfl, [], if_pos (by omega), List.not_mem_nil,
    fun none => by cases none⟩

/-- Two jobs that were cancelled while they waited. -/
def twoCancelled : Database :=
  (mailWaiting.step ⟨0, .cancelAvailableJob 1⟩).step ⟨0, .cancelAvailableJob 2⟩

end PgJobQ
