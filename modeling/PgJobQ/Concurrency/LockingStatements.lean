import PgJobQ.Library.RowLocking
import PgJobQ.Statements.Effects

/-!
# The statements under row locks

Claims, reports, heartbeats, reaps and the operators' updates of one job are run
here phase by phase, with their snapshots, row locks and re-checks.  A claim and
the reaper lock up to a limit of rows with `FOR UPDATE SKIP LOCKED`; the others
update the row they name and wait for its lock.  Replays and inserts, which may
wait for a unique key as well, and the statements that delete are not among
them.

The atomic statements that the rest of the development works with are the
outcome: the commits of any interleaving, each executed atomically at its
turn, leave the same table.  The rows that an atomic claim has to pass over
are those the transaction did not lock.
-/

namespace PgJobQ

open Runs RowLocking

/-- An `UPDATE` without `LIMIT` and `SKIP LOCKED`, as the locks see it. -/
def Mutation.waiting (mutation : Mutation) : Update JobRow.id where
  selects := mutation.hits
  order := fun first second => decide (idOrder first second)
  limit := none
  skipsLocked := false
  set := mutation.set
  keepsKey := mutation.keepsId

/-- How these statements scan, lock and update. -/
def Statement.locking (now : Timestamp) (db : Database) : Statement -> Option (Update JobRow.id)
  | claimJobs p _ => some {
      selects := claimable db.queueConfig p now
      order := fun first second => decide (claimOrder first second)
      limit := some p.limit
      skipsLocked := true
      set := claimSet p.workerId now
      keepsKey := fun _ => rfl }
  | claimJobsWithAging p threshold _ => some {
      selects := claimable db.queueConfig p now
      order := fun first second => decide (agingOrder threshold now first second)
      limit := some p.limit
      skipsLocked := true
      set := claimSet p.workerId now
      keepsKey := fun _ => rfl }
  | reapExpiredLeases p _ => some {
      selects := leaseExpired now
      order := fun first second => decide (leaseOrder first second)
      limit := some p.limit
      skipsLocked := true
      set := (PgJobQ.reapExpiredLeases p [] now db).set
      keepsKey := fun _ => rfl }
  | completeJob p => some (PgJobQ.completeJob p now).waiting
  | failJob p => some (PgJobQ.failJob p now).waiting
  | heartbeatJob p leaseSeconds => some (PgJobQ.heartbeatJob p leaseSeconds now).waiting
  | acknowledgeCancellation p => some (PgJobQ.acknowledgeCancellation p now).waiting
  | releaseJob p => some (PgJobQ.releaseJob p now).waiting
  | cancelAvailableJob id => some (PgJobQ.cancelAvailableJob id now).waiting
  | requestCancelRunningJob id => some (PgJobQ.requestCancelRunningJob id now).waiting
  | retryJobNow id => some (PgJobQ.retryJobNow id now).waiting
  | _ => none

/-- A statement that is issued under row locks. -/
structure Request (db : Database) where
  call : Call
  update : Update JobRow.id
  issued : call.statement.locking call.now db = some update

/-- The constraints are tested when the transaction updates its rows. -/
def accepts (rows : List JobRow) : Bool := (JobTable.ofRows rows).isOk

/-- The transactions on the jobs of a database. -/
abbrev Locking (db : Database) := RowLocking.State (Request db) JobRow Nat

namespace Locking

def step (db : Database) : Locking db -> RowLocking.Label (Request db) -> Locking db :=
  RowLocking.step Request.update accepts

/-- The transactions so far, from a database in which none is open. -/
def after (db : Database) (labels : List (RowLocking.Label (Request db))) : Locking db :=
  run (step db) (RowLocking.initial db.job.rows) labels

end Locking

/-! ## Serial executions -/

/-- The statement, with the rows it passes over. -/
def Statement.passingOver (locked : List Nat) : Statement -> Statement
  | claimJobs p _ => claimJobs p locked
  | claimJobsWithAging p threshold _ => claimJobsWithAging p threshold locked
  | reapExpiredLeases p _ => reapExpiredLeases p locked
  | statement => statement

/-- A committed transaction as one atomic statement: it passes over the rows
it did not lock. -/
def atomic {db : Database} (commit : RowLocking.Commit (Request db) JobRow) : Call where
  now := commit.tag.call.now
  statement := commit.tag.call.statement.passingOver
    ((db.job.rows.map JobRow.id).filter
      (fun id => !(commit.locked.map JobRow.id).contains id))

/-- The atomic statements of a log, oldest first.  A transaction that locked
nothing changed nothing. -/
def serial {db : Database} (log : List (RowLocking.Commit (Request db) JobRow)) : List Call :=
  ((log.filter (fun commit => !commit.locked.isEmpty)).map atomic).reverse

/-- An atomic statement that passes over everything but these selected rows
hits exactly them. -/
theorem lockCandidates_of_others {before : JobRow -> JobRow -> Prop} [DecidableRel before]
    {selects : JobRow -> Bool} {limit : Nat} {rows : List JobRow} {chosen : List JobRow}
    (unique : (rows.map JobRow.id).Nodup)
    (present : forall row, row ∈ chosen -> row ∈ rows ∧ selects row = true)
    (room : chosen.length ≤ limit) (id : Nat) :
    id ∈ lockCandidates before selects limit ((rows.map JobRow.id).filter
        (fun other => !(chosen.map JobRow.id).contains other)) rows <->
      id ∈ chosen.map JobRow.id := by
  have sorted : (((rows.filter selects).insertionSort before).map JobRow.id).Perm
      ((rows.filter selects).map JobRow.id) := (List.perm_insertionSort before _).map _
  have scanned : ((rows.filter selects).map JobRow.id).Nodup :=
    (List.Sublist.map _ List.filter_sublist).nodup unique
  unfold lockCandidates
  generalize unlocked : (((rows.filter selects).insertionSort before).map JobRow.id).filter
    (fun other => !((rows.map JobRow.id).filter
      (fun other => !(chosen.map JobRow.id).contains other)).contains other) = candidates
  have exactly : forall other, other ∈ candidates <-> other ∈ chosen.map JobRow.id := by
    intro other
    rw [← unlocked, List.mem_filter, sorted.mem_iff]
    simp only [List.contains_eq_mem, Bool.not_eq_true', decide_eq_false_iff_not, List.mem_filter,
      not_and, not_not]
    constructor
    · rintro ⟨listed, free⟩
      rcases List.mem_map.mp listed with ⟨row, member, rfl⟩
      exact free (List.mem_map_of_mem (List.mem_filter.mp member).1)
    · intro member
      rcases List.mem_map.mp member with ⟨row, isChosen, rfl⟩
      have known := present row isChosen
      exact ⟨List.mem_map_of_mem (List.mem_filter.mpr known), fun _ => member⟩
  have distinct : candidates.Nodup := by
    rw [← unlocked]
    exact (sorted.nodup_iff.mpr scanned).filter _
  have short : candidates.length ≤ limit := by
    have fewer := (List.subperm_of_subset distinct
      (fun other member => (exactly other).mp member)).length_le
    rw [List.length_map] at fewer
    exact Nat.le_trans fewer room
  rw [List.take_of_length_le short]
  exact exactly id

/-- A statement whose `WHERE` clause names one job hits the row it has locked. -/
theorem hits_of_named {table : JobTable} {hits : JobRow -> Bool} {locked : List JobRow}
    (present : forall row, row ∈ locked -> row ∈ table.rows)
    (selected : forall row, row ∈ locked -> hits row = true) (changed : locked ≠ [])
    (single : forall first second, hits first = true -> hits second = true ->
      first.id = second.id) {row : JobRow} (member : row ∈ table.rows) :
    hits row = true <-> row.id ∈ locked.map JobRow.id := by
  constructor
  · intro hit
    rcases List.exists_mem_of_ne_nil _ changed with ⟨other, otherLocked⟩
    rw [single row other hit (selected other otherLocked)]
    exact List.mem_map_of_mem otherLocked
  · intro isLocked
    rcases List.mem_map.mp isLocked with ⟨other, otherLocked, same⟩
    rw [← table.eq_of_id (present other otherLocked) member same]
    exact selected other otherLocked

theorem FenceParams.same_id_of_owns {p : FenceParams} {first second : JobRow}
    (firstOwned : p.owns first = true) (secondOwned : p.owns second = true) :
    first.id = second.id :=
  (FenceParams.owns_iff.mp firstOwned).1.trans (FenceParams.owns_iff.mp secondOwned).1.symm

theorem same_id_of_named {id : Nat} {state : JobState} {first second : JobRow}
    (firstHit : (first.id == id && first.state == state) = true)
    (secondHit : (second.id == id && second.state == state) = true) : first.id = second.id :=
  (named_iff.mp firstHit).1.trans (named_iff.mp secondHit).1.symm

/-- The rows a committed transaction locked are what the atomic statement
hits. -/
theorem hits_of_locked {db current : Database} {commit : RowLocking.Commit (Request db) JobRow}
    (sound : commit.Sound Request.update) (sameConfig : current.queueConfig = db.queueConfig)
    (sameIds : current.job.rows.map JobRow.id = db.job.rows.map JobRow.id)
    (present : forall row, row ∈ commit.locked -> row ∈ current.job.rows)
    (changed : commit.locked ≠ []) :
    Exists fun mutation : Mutation =>
      (atomic commit).statement.mutation (atomic commit).now current = some mutation ∧
        mutation.set = commit.tag.update.set ∧
        forall row, row ∈ current.job.rows ->
          (mutation.hits row = true <-> row.id ∈ commit.locked.map JobRow.id) := by
  rcases commit with ⟨⟨⟨now, statement⟩, update, issued⟩, locked, changes⟩
  have selected := sound.selected
  have limited := sound.limited
  dsimp only at issued selected limited present changed ⊢
  have limitedHits : forall {before : JobRow -> JobRow -> Prop} [DecidableRel before]
      {selects : JobRow -> Bool} {limit : Nat}, (forall row, row ∈ locked -> selects row = true) ->
      locked.length ≤ limit -> forall id,
        ((lockCandidates before selects limit ((db.job.rows.map JobRow.id).filter
          (fun other => !(locked.map JobRow.id).contains other)) current.job.rows).contains id = true <->
            id ∈ locked.map JobRow.id) := by
    intro before _ selects limit isSelected room id
    rw [List.contains_iff_mem, ← sameIds]
    exact lockCandidates_of_others current.job.nodup_ids
      (fun row member => ⟨present row member, isSelected row member⟩) room id
  cases statement with
  | claimJobs p ignored =>
      cases issued
      refine ⟨_, rfl, rfl, fun row _ => limitedHits ?_ (limited p.limit rfl) row.id⟩
      rw [sameConfig]
      exact selected
  | claimJobsWithAging p threshold ignored =>
      cases issued
      refine ⟨_, rfl, rfl, fun row _ => limitedHits ?_ (limited p.limit rfl) row.id⟩
      rw [sameConfig]
      exact selected
  | reapExpiredLeases p ignored =>
      cases issued
      exact ⟨_, rfl, rfl, fun row _ => limitedHits selected (limited p.limit rfl) row.id⟩
  | completeJob p =>
      cases issued
      refine ⟨_, rfl, rfl, fun row => hits_of_named present selected changed ?_⟩
      exact fun first second => FenceParams.same_id_of_owns
  | failJob p =>
      cases issued
      refine ⟨_, rfl, rfl, fun row => hits_of_named present selected changed ?_⟩
      exact fun first second => FenceParams.same_id_of_owns
  | heartbeatJob p leaseSeconds =>
      cases issued
      refine ⟨_, rfl, rfl, fun row => hits_of_named present selected changed ?_⟩
      exact fun first second => FenceParams.same_id_of_owns
  | acknowledgeCancellation p =>
      cases issued
      refine ⟨_, rfl, rfl, fun row => hits_of_named present selected changed ?_⟩
      intro first second firstHit secondHit
      exact FenceParams.same_id_of_owns (Bool.and_eq_true_iff.mp firstHit).1
        (Bool.and_eq_true_iff.mp secondHit).1
  | releaseJob p =>
      cases issued
      refine ⟨_, rfl, rfl, fun row => hits_of_named present selected changed ?_⟩
      exact fun first second => FenceParams.same_id_of_owns
  | cancelAvailableJob id =>
      cases issued
      refine ⟨_, rfl, rfl, fun row => hits_of_named present selected changed ?_⟩
      exact fun first second => same_id_of_named
  | requestCancelRunningJob id =>
      cases issued
      refine ⟨_, rfl, rfl, fun row => hits_of_named present selected changed ?_⟩
      exact fun first second => same_id_of_named
  | retryJobNow id =>
      cases issued
      refine ⟨_, rfl, rfl, fun row => hits_of_named present selected changed ?_⟩
      exact fun first second => same_id_of_named
  | _ => cases issued

/-! ## The refinement -/

/-- The interleaving and the serial execution of its log agree. -/
structure Agrees (db : Database) (state : Locking db) : Prop where
  logged : WellLogged Request.update state
  table : (run Database.step db (serial state.log)).job.rows = state.table
  config : (run Database.step db (serial state.log)).queueConfig = db.queueConfig
  ids : state.table.map JobRow.id = db.job.rows.map JobRow.id

theorem serial_cons_of_empty {db : Database} {commit : RowLocking.Commit (Request db) JobRow}
    {log : List (RowLocking.Commit (Request db) JobRow)} (nothing : commit.locked = []) :
    serial (commit :: log) = serial log := by
  simp [serial, nothing]

theorem serial_cons_of_ne {db : Database} {commit : RowLocking.Commit (Request db) JobRow}
    {log : List (RowLocking.Commit (Request db) JobRow)} (changed : commit.locked ≠ []) :
    serial (commit :: log) = serial log ++ [atomic commit] := by
  simp [serial, changed]

theorem constraints_of_accepts {rows : List JobRow} (accepted : accepts rows = true) :
    Constraints rows := by
  unfold accepts at accepted
  cases result : JobTable.ofRows rows with
  | error error =>
      rw [result] at accepted
      cases accepted
  | ok table => exact JobTable.ofRows_rows result ▸ table.constraints

/-- The atomic statement of a transaction that holds a row rewrites the table as
the commit does. -/
theorem Agrees.mutation {db : Database} {state : Locking db} (agrees : Agrees db state) {txn : Nat}
    {request : Request db} {remaining : List Nat}
    (active : state.opened txn = some ⟨request, remaining⟩) (changed : state.held txn ≠ []) :
    Exists fun mutation : Mutation =>
      (atomic ⟨request, state.held txn, changes Request.update state txn request⟩).statement.mutation
          request.call.now (run Database.step db (serial state.log)) = some mutation ∧
        (run Database.step db (serial state.log)).job.rows.map mutation.rewrite =
          rewritten Request.update state txn request := by
  have sound := agrees.logged.locked.commit_sound active
  have current := agrees.table
  have present : forall row, row ∈ state.held txn -> row ∈ state.table := by
    intro row holds
    rcases mem_held.mp holds with ⟨lock, member, _, rfl⟩
    exact (agrees.logged.locked.current lock member).1
  rw [← current] at present
  rcases hits_of_locked sound agrees.config (by rw [current, agrees.ids]) present changed
    with ⟨mutation, updates, sameSet, exactly⟩
  refine ⟨mutation, updates, ?_⟩
  unfold rewritten
  rw [← current]
  apply List.map_congr_left
  intro row member
  have decided : mutation.hits row = (state.held txn).any (fun other => other.id = row.id) := by
    rw [Bool.eq_iff_iff, exactly row member]
    simp only [List.mem_map, List.any_eq_true, decide_eq_true_eq]
  unfold Mutation.rewrite
  rw [decided, sameSet]

/-- A commit is the atomic execution of its statement on the table it found. -/
theorem Agrees.commit {db : Database} {state : Locking db} (agrees : Agrees db state) {txn : Nat}
    {request : Request db} {remaining : List Nat}
    (active : state.opened txn = some ⟨request, remaining⟩)
    (accepted : accepts (rewritten Request.update state txn request) = true) :
    Agrees db { state.release txn with
      table := rewritten Request.update state txn request
      log := ⟨request, state.held txn, changes Request.update state txn request⟩ :: state.log } := by
  have logged := agrees.logged.commit active
  have ids : (rewritten Request.update state txn request).map JobRow.id =
      db.job.rows.map JobRow.id := (map_key_rewritten state txn request).trans agrees.ids
  by_cases changed : state.held txn = []
  · have same : rewritten Request.update state txn request = state.table := by
      simp [rewritten, changed]
    refine ⟨logged, ?_, ?_, ids⟩
    · rw [serial_cons_of_empty changed, agrees.table, same]
    · rw [serial_cons_of_empty changed, agrees.config]
  · rcases agrees.mutation active changed with ⟨mutation, updates, same⟩
    have table := constraints_of_accepts accepted
    rw [← same] at table
    rcases Mutation.run_commits table with ⟨reply, committed⟩
    have done := Mutation.run_ok committed
    rw [← Statement.exec_mutation updates] at committed
    have next : run Database.step db (serial (⟨request, state.held txn,
        changes Request.update state txn request⟩ :: state.log)) = reply.db := by
      rw [serial_cons_of_ne changed, run_append]
      exact Database.step_of_ok committed
    refine ⟨logged, ?_, ?_, ids⟩
    · rw [next, done.1, same]
    · rw [next, done.2.2.2.2.2, agrees.config]

theorem Agrees.step {db : Database} (state : Locking db) (label : RowLocking.Label (Request db))
    (agrees : Agrees db state) : Agrees db (Locking.step db state label) := by
  have phase := phase_of_step Request.update accepts state label
  have logged : WellLogged Request.update (Locking.step db state label) := agrees.logged.step label
  unfold Locking.step at logged ⊢
  generalize RowLocking.step Request.update accepts state label = next at phase logged
  cases phase with
  | commits active accepted => exact agrees.commit active accepted
  | stays => exact agrees
  | starts idle => exact ⟨logged, agrees.table, agrees.config, agrees.ids⟩
  | strikes active => exact ⟨logged, agrees.table, agrees.config, agrees.ids⟩
  | locks active room unlocked latest selected =>
      exact ⟨logged, agrees.table, agrees.config, agrees.ids⟩
  | ends => exact ⟨logged, agrees.table, agrees.config, agrees.ids⟩

/-- However the phases of the transactions interleave, the table is the one
that the committed statements leave when they are executed atomically, one
after another. -/
theorem locking_refines_statements (db : Database)
    (labels : List (RowLocking.Label (Request db))) : Agrees db (Locking.after db labels) := by
  have initially : Agrees db (RowLocking.initial db.job.rows) :=
    ⟨WellLogged.initial db.job.nodup_ids, rfl, rfl, rfl⟩
  exact run_invariant Agrees.step initially labels

end PgJobQ
