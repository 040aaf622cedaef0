import PgJobQ.Library.UniqueRows
import PgJobQ.Schema.Types

/-!
# The constrained job table

The migration declares CHECK constraints, a primary key and two partial unique
indexes on `job`.  A `JobTable` carries all of them as a proof about its rows,
so a table the database would refuse cannot be built.  A statement computes
the rows it would leave behind and asks `JobTable.ofRows` for a table; a
refusal names the constraint and aborts the statement.

`job_errors_is_array` has no counterpart: a row's error history is a list by
type.  The range of the `smallint` column `priority` is listed with the
CHECKs, since it is refused in the same way.
-/

namespace PgJobQ

open UniqueRows

/-- What a single row has to satisfy, in the order the database tests it. -/
inductive RowConstraint where
  | prioritySmallint
  | jobAttemptBounded
  | jobDeadHasReason
  | jobLeasePositive
  | jobMaxAttemptsValid
  | jobRunningHasLease
  | jobTerminalFinished
  deriving DecidableEq, Repr

namespace RowConstraint

def all : List RowConstraint :=
  [.prioritySmallint, .jobAttemptBounded, .jobDeadHasReason, .jobLeasePositive,
    .jobMaxAttemptsValid, .jobRunningHasLease, .jobTerminalFinished]

theorem mem_all (constraint : RowConstraint) : constraint ∈ all := by
  cases constraint <;> decide

def Holds (row : JobRow) : RowConstraint -> Prop
  | prioritySmallint => -32768 ≤ row.priority ∧ row.priority ≤ 32767
  | jobAttemptBounded => 0 ≤ row.attempt ∧ row.attempt ≤ row.maxAttempts
  | jobDeadHasReason => row.state ≠ .dead ∨ row.deadReason ≠ none
  | jobLeasePositive => 0 < row.leaseSeconds
  | jobMaxAttemptsValid => 1 ≤ row.maxAttempts ∧ row.maxAttempts ≤ 1000
  | jobRunningHasLease =>
      row.state ≠ .running ∨ (row.leaseExpiresAt ≠ none ∧ row.workerId ≠ none)
  | jobTerminalFinished => row.state.isTerminal = false ∨ row.finishedAt ≠ none

instance (row : JobRow) (constraint : RowConstraint) : Decidable (constraint.Holds row) :=
  match constraint with
  | prioritySmallint => inferInstanceAs (Decidable (_ ∧ _))
  | jobAttemptBounded => inferInstanceAs (Decidable (_ ∧ _))
  | jobDeadHasReason => inferInstanceAs (Decidable (_ ∨ _))
  | jobLeasePositive => inferInstanceAs (Decidable (_ < _))
  | jobMaxAttemptsValid => inferInstanceAs (Decidable (_ ∧ _))
  | jobRunningHasLease => inferInstanceAs (Decidable (_ ∨ _))
  | jobTerminalFinished => inferInstanceAs (Decidable (_ ∨ _))

end RowConstraint

inductive UniqueIndex where
  | jobPkey
  | jobIdempotencyIdx
  | jobUniqueActiveIdx
  deriving DecidableEq, Repr

/-- Why the database aborts a statement. -/
inductive DbError where
  | checkViolation (constraint : RowConstraint)
  | uniqueViolation (index : UniqueIndex)
  | notifyChannelTooLong
  | noPartition
  | invalidInterval
  deriving DecidableEq, Repr

namespace JobRow

/-- The first constraint the row violates. -/
def violation (row : JobRow) : Option RowConstraint :=
  RowConstraint.all.find? (fun constraint => Not (constraint.Holds row))

/-- The row satisfies every constraint on single rows. -/
def Checked (row : JobRow) : Prop := row.violation = none

instance (row : JobRow) : Decidable row.Checked :=
  inferInstanceAs (Decidable (row.violation = none))

theorem checked_iff (row : JobRow) :
    row.Checked <-> forall constraint : RowConstraint, constraint.Holds row := by
  unfold Checked violation
  rw [List.find?_eq_none]
  constructor
  · intro none constraint
    simpa using none constraint constraint.mem_all
  · intro holds constraint _
    simpa using holds constraint

theorem violation_not_holds {row : JobRow} {constraint : RowConstraint}
    (violated : row.violation = some constraint) : Not (constraint.Holds row) := by
  simpa using List.find?_some violated

/-- `PRIMARY KEY (id)`. -/
def primaryKey (row : JobRow) : Option Nat := some row.id

/-- `job_idempotency_idx`, in every state of the row. -/
def idempotencyIdx (row : JobRow) : Option (String × String) :=
  row.idempotencyKey.map (fun key => (row.queue, key))

/-- `job_unique_active_idx`, only while the row is available or running. -/
def uniqueActiveIdx (row : JobRow) : Option (String × String) :=
  if row.state.isActive then row.uniqueKey.map (fun key => (row.queue, key)) else none

end JobRow

/-- Everything the schema demands of the rows of `job`. -/
structure Constraints (rows : List JobRow) : Prop where
  checked : forall row, row ∈ rows -> row.Checked
  primaryKey : UniqueOn JobRow.primaryKey rows
  idempotencyIdx : UniqueOn JobRow.idempotencyIdx rows
  uniqueActiveIdx : UniqueOn JobRow.uniqueActiveIdx rows

namespace Constraints

theorem nil : Constraints [] where
  checked := fun _ member => absurd member List.not_mem_nil
  primaryKey := uniqueOn_nil _
  idempotencyIdx := uniqueOn_nil _
  uniqueActiveIdx := uniqueOn_nil _

theorem sublist {rows kept : List JobRow} (constraints : Constraints rows)
    (sub : kept.Sublist rows) : Constraints kept where
  checked := fun row member => constraints.checked row (sub.subset member)
  primaryKey := constraints.primaryKey.sublist sub
  idempotencyIdx := constraints.idempotencyIdx.sublist sub
  uniqueActiveIdx := constraints.uniqueActiveIdx.sublist sub

/-- Rewriting rows in place, when each rewritten row passes the checks and
gives up or keeps each of its keys. -/
theorem map {rows : List JobRow} {rewrite : JobRow -> JobRow} (constraints : Constraints rows)
    (checked : forall row, row ∈ rows -> (rewrite row).Checked)
    (sameId : forall row, (rewrite row).id = row.id)
    (idempotency : forall row, row ∈ rows -> (rewrite row).idempotencyIdx = row.idempotencyIdx)
    (active : forall row, row ∈ rows -> (rewrite row).uniqueActiveIdx = row.uniqueActiveIdx ∨
      (rewrite row).uniqueActiveIdx = none) : Constraints (rows.map rewrite) where
  checked := by
    intro row member
    rcases List.mem_map.mp member with ⟨source, sourceMem, rfl⟩
    exact checked source sourceMem
  primaryKey := constraints.primaryKey.map (fun row _ => Or.inl (by
    simp only [JobRow.primaryKey, sameId]))
  idempotencyIdx := constraints.idempotencyIdx.map (fun row member =>
    Or.inl (idempotency row member))
  uniqueActiveIdx := constraints.uniqueActiveIdx.map active

end Constraints

/-- The table `job`. -/
@[ext] structure JobTable where
  rows : List JobRow
  constraints : Constraints rows

namespace JobTable

def empty : JobTable := ⟨[], .nil⟩

/-- Accept the rows as a table, or name the first constraint they violate. -/
def ofRows (rows : List JobRow) : Except DbError JobTable :=
  match checks : rows.findSome? JobRow.violation with
  | some constraint => .error (.checkViolation constraint)
  | none =>
      if pkey : UniqueOn JobRow.primaryKey rows then
        if idempotency : UniqueOn JobRow.idempotencyIdx rows then
          if active : UniqueOn JobRow.uniqueActiveIdx rows then
            .ok ⟨rows, ⟨List.findSome?_eq_none_iff.mp checks, pkey, idempotency, active⟩⟩
          else .error (.uniqueViolation .jobUniqueActiveIdx)
        else .error (.uniqueViolation .jobIdempotencyIdx)
      else .error (.uniqueViolation .jobPkey)

theorem ofRows_rows {rows : List JobRow} {table : JobTable}
    (accepted : ofRows rows = .ok table) : table.rows = rows := by
  unfold ofRows at accepted
  repeat' split at accepted
  all_goals cases accepted
  rfl

theorem ofRows_of_constraints {rows : List JobRow} (constraints : Constraints rows) :
    ofRows rows = .ok ⟨rows, constraints⟩ := by
  have none : rows.findSome? JobRow.violation = none :=
    List.findSome?_eq_none_iff.mpr constraints.checked
  unfold ofRows
  split
  · rename_i constraint found
    rw [none] at found
    cases found
  · simp only [constraints.primaryKey, constraints.idempotencyIdx, constraints.uniqueActiveIdx,
      dite_true]

/-- A reported check violation is a violation by one of the rows. -/
theorem ofRows_checkViolation {rows : List JobRow} {constraint : RowConstraint}
    (refused : ofRows rows = .error (.checkViolation constraint)) :
    Exists fun row : JobRow => row ∈ rows ∧ Not (constraint.Holds row) := by
  unfold ofRows at refused
  split at refused
  · rename_i found violated
    cases refused
    rcases List.exists_of_findSome?_eq_some violated with ⟨row, member, violation⟩
    exact ⟨row, member, JobRow.violation_not_holds violation⟩
  · repeat' split at refused
    all_goals cases refused

/-- A table is refused by a check or by an index. -/
theorem ofRows_error {rows : List JobRow} {error : DbError} (refused : ofRows rows = .error error) :
    (Exists fun constraint : RowConstraint => error = .checkViolation constraint) ∨
      Exists fun index : UniqueIndex => error = .uniqueViolation index := by
  unfold ofRows at refused
  split at refused
  · cases refused
    exact Or.inl ⟨_, rfl⟩
  · repeat' split at refused
    all_goals cases refused
    all_goals exact Or.inr ⟨_, rfl⟩

/-- Rows whose keys are distinct are not refused by an index. -/
theorem ofRows_not_uniqueViolation {rows : List JobRow} {index : UniqueIndex}
    (primaryKey : UniqueOn JobRow.primaryKey rows)
    (idempotencyIdx : UniqueOn JobRow.idempotencyIdx rows)
    (uniqueActiveIdx : UniqueOn JobRow.uniqueActiveIdx rows) :
    ofRows rows ≠ .error (.uniqueViolation index) := by
  intro refused
  unfold ofRows at refused
  split at refused
  · cases refused
  · simp only [primaryKey, idempotencyIdx, uniqueActiveIdx, dite_true] at refused
    cases refused

/-- `DELETE`: the rows that are hit leave the table. -/
def delete (table : JobTable) (hits : JobRow -> Bool) : JobTable where
  rows := table.rows.filter (fun row => !hits row)
  constraints := table.constraints.sublist List.filter_sublist

/-- An id belongs to at most one row. -/
theorem eq_of_id (table : JobTable) {first second : JobRow} (firstMem : first ∈ table.rows)
    (secondMem : second ∈ table.rows) (same : first.id = second.id) : first = second :=
  table.constraints.primaryKey.eq_of_key firstMem secondMem rfl
    (by simp only [JobRow.primaryKey, same])

theorem nodup_ids (table : JobTable) : (table.rows.map JobRow.id).Nodup := by
  have unique := table.constraints.primaryKey
  rwa [UniqueOn, show JobRow.primaryKey = some ∘ JobRow.id from rfl, List.filterMap_eq_map]
    at unique

/-- The CHECK constraint, read off a row of the table. -/
theorem holds (table : JobTable) {row : JobRow} (member : row ∈ table.rows)
    (constraint : RowConstraint) : constraint.Holds row :=
  (JobRow.checked_iff row).mp (table.constraints.checked row member) constraint

end JobTable

/-- The table `queue_config`, keyed by the queue name. -/
@[ext] structure QueueConfigTable where
  rows : List QueueConfigRow
  primaryKey : UniqueOn (fun row => some row.queue) rows

namespace QueueConfigTable

def empty : QueueConfigTable := ⟨[], uniqueOn_nil _⟩

/-- The row a `LEFT JOIN queue_config` finds for a queue. -/
def forQueue (config : QueueConfigTable) (queue : String) : Option QueueConfigRow :=
  config.rows.find? (fun row => row.queue == queue)

end QueueConfigTable

/-- The tables the job statements work on.  The `id` column is `GENERATED
ALWAYS AS IDENTITY`, so the sequence stands above every id in use. -/
@[ext] structure Database where
  job : JobTable
  nextId : Nat
  identity : forall row, row ∈ job.rows -> row.id < nextId
  jobArchive : List ArchiveRow
  partitions : List ArchivePartition
  queueConfig : QueueConfigTable

/-- A database in which no job has been enqueued yet. -/
def Database.empty (partitions : List ArchivePartition) (queueConfig : QueueConfigTable) :
    Database where
  job := .empty
  nextId := 1
  identity := fun _ member => absurd member List.not_mem_nil
  jobArchive := []
  partitions := partitions
  queueConfig := queueConfig

/-- A committed statement: the database it leaves and the rows it returns.
`RETURNING` is kept with all columns; each caller reads the ones it names. -/
structure Reply where
  db : Database
  rows : List JobRow

/-- An `UPDATE` of `job`: its `WHERE` clause and its `SET` list.  The identity
column is never assigned. -/
structure Mutation where
  hits : JobRow -> Bool
  set : JobRow -> JobRow
  keepsId : forall row, (set row).id = row.id := by intro row; rfl

namespace Mutation

def rewrite (mutation : Mutation) (row : JobRow) : JobRow :=
  if mutation.hits row then mutation.set row else row

@[simp] theorem rewrite_id (mutation : Mutation) (row : JobRow) :
    (mutation.rewrite row).id = row.id := by
  unfold rewrite
  split
  · exact mutation.keepsId row
  · rfl

/-- The rows that `RETURNING` lists. -/
def returning (mutation : Mutation) (rows : List JobRow) : List JobRow :=
  (rows.filter mutation.hits).map mutation.set

theorem mem_returning {mutation : Mutation} {rows : List JobRow} {row : JobRow} :
    row ∈ mutation.returning rows <->
      Exists fun source : JobRow => source ∈ rows ∧ mutation.hits source = true ∧
        mutation.set source = row := by
  simp only [returning, List.mem_map, List.mem_filter, and_assoc]

/-- Run the `UPDATE` and keep the rest of the database. -/
def run (mutation : Mutation) (db : Database) : Except DbError Reply :=
  match accepted : JobTable.ofRows (db.job.rows.map mutation.rewrite) with
  | .error error => .error error
  | .ok table => .ok {
      db := { db with
        job := table
        identity := by
          intro row member
          rw [JobTable.ofRows_rows accepted] at member
          rcases List.mem_map.mp member with ⟨source, sourceMem, rfl⟩
          rw [mutation.rewrite_id]
          exact db.identity source sourceMem }
      rows := mutation.returning db.job.rows }

/-- What a committed `UPDATE` did. -/
theorem run_ok {mutation : Mutation} {db : Database} {reply : Reply}
    (committed : mutation.run db = .ok reply) :
    reply.db.job.rows = db.job.rows.map mutation.rewrite ∧
      reply.rows = mutation.returning db.job.rows ∧ reply.db.nextId = db.nextId ∧
      reply.db.jobArchive = db.jobArchive ∧ reply.db.partitions = db.partitions ∧
      reply.db.queueConfig = db.queueConfig := by
  unfold run at committed
  split at committed
  · cases committed
  · rename_i table accepted
    cases committed
    exact ⟨JobTable.ofRows_rows accepted, rfl, rfl, rfl, rfl, rfl⟩

theorem run_checkViolation {mutation : Mutation} {db : Database} {constraint : RowConstraint}
    (aborted : mutation.run db = .error (.checkViolation constraint)) :
    Exists fun row : JobRow => row ∈ db.job.rows ∧ Not (constraint.Holds (mutation.rewrite row)) := by
  unfold run at aborted
  split at aborted
  · rename_i error refused
    cases aborted
    rcases JobTable.ofRows_checkViolation refused with ⟨row, member, violated⟩
    rcases List.mem_map.mp member with ⟨source, sourceMem, rfl⟩
    exact ⟨source, sourceMem, violated⟩
  · cases aborted

/-- An `UPDATE` that passes the checks is refused by an index alone. -/
theorem run_error_of_checked {mutation : Mutation} {db : Database} {error : DbError}
    (checked : forall row, row ∈ db.job.rows -> (mutation.rewrite row).Checked)
    (aborted : mutation.run db = .error error) :
    Exists fun index : UniqueIndex => error = .uniqueViolation index := by
  have refused : JobTable.ofRows (db.job.rows.map mutation.rewrite) = .error error := by
    unfold run at aborted
    split at aborted
    · rename_i reason refused
      cases aborted
      exact refused
    · cases aborted
  rcases JobTable.ofRows_error refused with ⟨constraint, rfl⟩ | unique
  · rcases run_checkViolation aborted with ⟨row, member, violated⟩
    exact absurd ((JobRow.checked_iff _).mp (checked row member) constraint) violated
  · exact unique

/-- An `UPDATE` whose rewritten rows satisfy the schema commits. -/
theorem run_commits {mutation : Mutation} {db : Database}
    (constraints : Constraints (db.job.rows.map mutation.rewrite)) :
    Exists fun reply : Reply => mutation.run db = .ok reply := by
  unfold run
  split
  · rename_i error refused
    rw [JobTable.ofRows_of_constraints constraints] at refused
    cases refused
  · exact ⟨_, rfl⟩

/-- It is enough to look at the rows that are hit. -/
theorem run_commits_of_hits {mutation : Mutation} {db : Database}
    (checked : forall row, row ∈ db.job.rows -> mutation.hits row = true ->
      (mutation.set row).Checked)
    (idempotency : forall row, (mutation.set row).idempotencyIdx = row.idempotencyIdx)
    (active : forall row, row ∈ db.job.rows -> mutation.hits row = true ->
      (mutation.set row).uniqueActiveIdx = row.uniqueActiveIdx ∨
        (mutation.set row).uniqueActiveIdx = none) :
    Exists fun reply : Reply => mutation.run db = .ok reply := by
  apply run_commits
  apply db.job.constraints.map
  · intro row member
    unfold rewrite
    split
    · rename_i hit
      exact checked row member hit
    · exact db.job.constraints.checked row member
  · exact mutation.rewrite_id
  · intro row _
    unfold rewrite
    split
    · exact idempotency row
    · rfl
  · intro row member
    unfold rewrite
    split
    · rename_i hit
      exact active row member hit
    · exact Or.inl rfl

/-- An `UPDATE` that hits nothing commits and leaves the rows as they are. -/
theorem run_of_silent {mutation : Mutation} {db : Database}
    (silent : forall row, row ∈ db.job.rows -> mutation.hits row = false) :
    Exists fun reply : Reply => mutation.run db = .ok reply ∧ reply.rows = [] ∧
      reply.db.job.rows = db.job.rows := by
  have same : db.job.rows.map mutation.rewrite = db.job.rows := by
    have unchanged : forall row, row ∈ db.job.rows -> mutation.rewrite row = id row := by
      intro row member
      unfold rewrite
      rw [silent row member]
      rfl
    rw [List.map_congr_left unchanged, List.map_id]
  rcases run_commits (by rw [same]; exact db.job.constraints) with ⟨reply, committed⟩
  have done := run_ok committed
  refine ⟨reply, committed, ?_, ?_⟩
  · rw [done.2.1, returning, List.map_eq_nil_iff, List.filter_eq_nil_iff]
    intro row member hit
    rw [silent row member] at hit
    cases hit
  · rw [done.1, same]

end Mutation

end PgJobQ
