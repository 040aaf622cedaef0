import PgJobQ.Concurrency.LockingStatements

/-!
# The replies of interleaved statements

`locking_refines_statements` compares tables.  A worker does not see the table
but the rows that its statement returns, so the comparison is extended here to
them: what a committed transaction returns is what its statement, executed
atomically at its place in the order of the commits, returns.  There a claim or a
reap passes over the rows that its transaction did not lock.  A transaction that
locked nothing is not among them: it changes nothing and returns nothing.

The two lists may differ in order: a transaction reports its rows as it locked
them, and `RETURNING` promises no order.
-/

namespace PgJobQ

open Runs RowLocking

/-- The rows that a transaction returns. -/
def Locking.returned {db : Database} (commit : RowLocking.Commit (Request db) JobRow) :
    List JobRow :=
  commit.changes.map (·.after)

/-- What the transaction returns is what its statement returns when it is
executed after the earlier ones. -/
def Locking.Answered {db : Database} (older : List (RowLocking.Commit (Request db) JobRow))
    (commit : RowLocking.Commit (Request db) JobRow) : Prop :=
  (commit.locked = [] -> Locking.returned commit = []) ∧
    (commit.locked ≠ [] -> Exists fun reply : Reply =>
      (atomic commit).statement.exec (atomic commit).now (run Database.step db (serial older)) =
          .ok reply ∧ reply.rows.Perm (Locking.returned commit))

/-- Two lists of rows of one table with the same ids are the same rows. -/
theorem JobTable.perm_of_ids {table : JobTable} {first second : List JobRow}
    (firstMem : forall row, row ∈ first -> row ∈ table.rows)
    (secondMem : forall row, row ∈ second -> row ∈ table.rows)
    (firstOnce : (first.map JobRow.id).Nodup) (secondOnce : (second.map JobRow.id).Nodup)
    (same : forall row, row ∈ table.rows -> (row ∈ first <-> row.id ∈ second.map JobRow.id)) :
    first.Perm second := by
  apply (List.perm_ext_iff_of_nodup firstOnce.of_map secondOnce.of_map).mpr
  intro row
  constructor
  · intro member
    rcases List.mem_map.mp ((same row (firstMem row member)).mp member) with ⟨other, listed, sameId⟩
    rwa [← table.eq_of_id (secondMem other listed) (firstMem row member) sameId]
  · intro member
    exact (same row (secondMem row member)).mpr (List.mem_map_of_mem member)

/-- The commit of a transaction that holds a row returns what the atomic
statement returns. -/
theorem Agrees.answered {db : Database} {state : Locking db} (agrees : Agrees db state) {txn : Nat}
    {request : Request db} {remaining : List Nat}
    (active : state.opened txn = some ⟨request, remaining⟩)
    (accepted : accepts (rewritten Request.update state txn request) = true) :
    Locking.Answered state.log
      ⟨request, state.held txn, changes Request.update state txn request⟩ := by
  have sound := agrees.logged.locked.commit_sound active
  refine ⟨fun nothing => ?_, fun changed => ?_⟩
  · rw [Locking.returned, sound.changed]
    dsimp only at nothing ⊢
    rw [nothing]
    rfl
  · have current := agrees.table
    have present : forall row, row ∈ state.held txn ->
        row ∈ (run Database.step db (serial state.log)).job.rows := by
      intro row holds
      rcases mem_held.mp holds with ⟨lock, member, _, rfl⟩
      rw [current]
      exact (agrees.logged.locked.current lock member).1
    rcases hits_of_locked sound agrees.config (by rw [current, agrees.ids]) present changed
      with ⟨mutation, updates, sameSet, exactly⟩
    rcases agrees.mutation active changed with ⟨other, alsoUpdates, same⟩
    have sameMutation : other = mutation := Option.some.inj (alsoUpdates.symm.trans updates)
    subst sameMutation
    have table := constraints_of_accepts accepted
    rw [← same] at table
    rcases Mutation.run_commits table with ⟨reply, committed⟩
    have done := Mutation.run_ok committed
    rw [← Statement.exec_mutation updates] at committed
    refine ⟨reply, committed, ?_⟩
    have chosen : ((run Database.step db (serial state.log)).job.rows.filter other.hits).Perm
        (state.held txn) := by
      apply JobTable.perm_of_ids (fun row member => (List.mem_filter.mp member).1) present
        ((List.Sublist.map _ List.filter_sublist).nodup (JobTable.nodup_ids _)) sound.once
      intro row member
      rw [List.mem_filter, and_iff_right member]
      exact exactly row member
    rw [done.2.1, Locking.returned, sound.changed, List.map_map]
    unfold Mutation.returning
    rw [sameSet]
    exact chosen.map _

/-- However the phases of the statements interleave: the table is what the atomic
statements of the transactions that locked something make of it in the order of
their commits, each passing over the rows its transaction did not lock, and the
reply of each transaction is that of its atomic statement. -/
theorem interleaving_answers_atomically (db : Database)
    (labels : List (RowLocking.Label (Request db))) :
    (run Database.step db (serial (Locking.after db labels).log)).job.rows =
        (Locking.after db labels).table ∧
      EachEvent Locking.Answered (Locking.after db labels).log := by
  have kept : forall (state : Locking db) (label : RowLocking.Label (Request db)),
      Agrees db state ∧ EachEvent Locking.Answered state.log ->
        Agrees db (Locking.step db state label) ∧
          EachEvent Locking.Answered (Locking.step db state label).log := by
    rintro state label ⟨agrees, answered⟩
    refine ⟨agrees.step state label, ?_⟩
    have phase := phase_of_step Request.update accepts state label
    unfold Locking.step
    generalize RowLocking.step Request.update accepts state label = next at phase
    cases phase with
    | commits active accepted => exact ⟨agrees.answered active accepted, answered⟩
    | stays => exact answered
    | starts idle => exact answered
    | strikes active => exact answered
    | locks active room unlocked latest selected => exact answered
    | ends => exact answered
  have initially : Agrees db (RowLocking.initial db.job.rows) :=
    ⟨WellLogged.initial db.job.nodup_ids, rfl, rfl, rfl⟩
  have atEnd : Agrees db (Locking.after db labels) ∧
      EachEvent Locking.Answered (Locking.after db labels).log :=
    run_invariant kept ⟨initially, trivial⟩ labels
  exact ⟨atEnd.1.table, atEnd.2⟩

end PgJobQ
