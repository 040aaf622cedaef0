import PgJobQ.Statements.Exec

/-!
# The times in error records

A failure report carries the time at which the process of the worker has
noticed the failure, by the clock of that process.  It is stored in the error
history, and no statement ever reads it: two databases that differ in such
times alone stay so under every update and every insert.
-/

namespace PgJobQ

open UniqueRows

def JobErrorRecord.untimed (record : JobErrorRecord) : JobErrorRecord :=
  { record with recordedAt := 0 }

/-- The row without the times of its error records. -/
def JobRow.untimed (row : JobRow) : JobRow :=
  { row with errors := row.errors.map JobErrorRecord.untimed }

/-- The databases have the same jobs but for the times of their error records,
the same sequence and the same configuration. -/
structure Database.Alike (first second : Database) : Prop where
  rows : first.job.rows.map JobRow.untimed = second.job.rows.map JobRow.untimed
  nextId : first.nextId = second.nextId
  queueConfig : first.queueConfig = second.queueConfig

theorem Database.Alike.refl (db : Database) : db.Alike db := ⟨rfl, rfl, rfl⟩

/-! ## What the schema reads -/

theorem uniqueOn_untimed {Key : Type} [DecidableEq Key] {key : JobRow -> Option Key}
    (blind : forall row, key row.untimed = key row) (rows : List JobRow) :
    UniqueOn key (rows.map JobRow.untimed) <-> UniqueOn key rows := by
  unfold UniqueOn
  rw [List.filterMap_map, show key ∘ JobRow.untimed = key from funext blind]

theorem constraints_untimed (rows : List JobRow) :
    Constraints (rows.map JobRow.untimed) <-> Constraints rows := by
  constructor
  · intro constraints
    refine ⟨?_, (uniqueOn_untimed (fun _ => rfl) rows).mp constraints.primaryKey,
      (uniqueOn_untimed (fun _ => rfl) rows).mp constraints.idempotencyIdx,
      (uniqueOn_untimed (fun _ => rfl) rows).mp constraints.uniqueActiveIdx⟩
    intro row member
    exact constraints.checked row.untimed (List.mem_map_of_mem member)
  · intro constraints
    refine ⟨?_, (uniqueOn_untimed (fun _ => rfl) rows).mpr constraints.primaryKey,
      (uniqueOn_untimed (fun _ => rfl) rows).mpr constraints.idempotencyIdx,
      (uniqueOn_untimed (fun _ => rfl) rows).mpr constraints.uniqueActiveIdx⟩
    intro row member
    rcases List.mem_map.mp member with ⟨source, sourceMem, rfl⟩
    exact constraints.checked source sourceMem

theorem conflicts_untimed (rows : List JobRow) (new : JobRow) :
    conflicts (rows.map JobRow.untimed) new = conflicts rows new := by
  unfold conflicts
  rw [List.any_map]
  rfl

theorem Database.Alike.conflicts {first second : Database} (alike : first.Alike second)
    (new : JobRow) : PgJobQ.conflicts first.job.rows new = PgJobQ.conflicts second.job.rows new := by
  rw [← conflicts_untimed, alike.rows, conflicts_untimed]

/-! ## Updates -/

/-- The two updates hit rows that are alike together, and leave them alike. -/
structure Mutation.Alike (first second : Mutation) : Prop where
  hits : forall row other : JobRow, row.untimed = other.untimed ->
    first.hits row = second.hits other
  set : forall row other : JobRow, row.untimed = other.untimed ->
    (first.set row).untimed = (second.set other).untimed

theorem Mutation.Alike.rewrite {first second : Mutation} (alike : first.Alike second)
    {row other : JobRow} (same : row.untimed = other.untimed) :
    (first.rewrite row).untimed = (second.rewrite other).untimed := by
  unfold Mutation.rewrite
  rw [alike.hits row other same]
  split
  · exact alike.set row other same
  · exact same

/-- Two updates that test and write the same, as far as they can be told apart
without the times. -/
theorem Mutation.Alike.of_shape {first second : Mutation} (test : JobRow -> Bool)
    (shape : JobRow -> JobRow) (firstHits : forall row, first.hits row = test row.untimed)
    (secondHits : forall row, second.hits row = test row.untimed)
    (firstSet : forall row, (first.set row).untimed = shape row.untimed)
    (secondSet : forall row, (second.set row).untimed = shape row.untimed) :
    first.Alike second where
  hits := by
    intro row other same
    rw [firstHits, secondHits, same]
  set := by
    intro row other same
    rw [firstSet, secondSet, same]

/-- Lists of rows that are alike stay so when they are rewritten alike. -/
theorem map_untimed_congr {rewrite other : JobRow -> JobRow}
    (alike : forall row second : JobRow, row.untimed = second.untimed ->
      (rewrite row).untimed = (other second).untimed)
    {rows others : List JobRow}
    (same : rows.map JobRow.untimed = others.map JobRow.untimed) :
    (rows.map rewrite).map JobRow.untimed = (others.map other).map JobRow.untimed := by
  induction rows generalizing others with
  | nil =>
      rw [List.map_eq_nil_iff.mp same.symm]
      rfl
  | cons row rows inductionHypothesis =>
      cases others with
      | nil => cases same
      | cons second others =>
          have parts := List.cons.inj same
          rw [List.map_cons, List.map_cons, List.map_cons, List.map_cons,
            alike row second parts.1, inductionHypothesis parts.2]

/-- Updates that are alike commit together. -/
theorem Mutation.run_alike {first second : Mutation} {db other : Database}
    (updates : first.Alike second) (alike : db.Alike other) {reply : Reply}
    (committed : first.run db = .ok reply) :
    Exists fun answer : Reply => second.run other = .ok answer ∧ reply.db.Alike answer.db := by
  have rewritten := map_untimed_congr (fun _ _ same => updates.rewrite same) alike.rows
  have done := Mutation.run_ok committed
  have constraints : Constraints (other.job.rows.map second.rewrite) := by
    rw [← constraints_untimed, ← rewritten, constraints_untimed, ← done.1]
    exact reply.db.job.constraints
  rcases Mutation.run_commits constraints with ⟨answer, answered⟩
  have replied := Mutation.run_ok answered
  refine ⟨answer, answered, ?_, ?_, ?_⟩
  · rw [done.1, replied.1]
    exact rewritten
  · rw [done.2.2.1, replied.2.2.1, alike.nextId]
  · rw [done.2.2.2.2.2, replied.2.2.2.2.2, alike.queueConfig]

theorem Mutation.Alike.symm {first second : Mutation} (alike : first.Alike second) :
    second.Alike first where
  hits := fun row other same => (alike.hits other row same.symm).symm
  set := fun row other same => (alike.set other row same.symm).symm

theorem Database.Alike.symm {first second : Database} (alike : first.Alike second) :
    second.Alike first := ⟨alike.rows.symm, alike.nextId.symm, alike.queueConfig.symm⟩

/-! ## The statements -/

theorem appendError_untimed (maxErrorHistory : Int) (errors : List JobErrorRecord)
    (record : JobErrorRecord) :
    (appendError maxErrorHistory errors record).map JobErrorRecord.untimed =
      appendError maxErrorHistory (errors.map JobErrorRecord.untimed) record.untimed := by
  unfold appendError
  rw [List.map_append, List.length_map, apply_ite (List.map JobErrorRecord.untimed), List.map_tail]
  rfl

/-- Candidates are chosen without regard to the times of error records. -/
theorem lockCandidates_untimed (before : JobRow -> JobRow -> Prop) [DecidableRel before]
    (orders : forall first second : JobRow, before first second <->
      before first.untimed second.untimed)
    (selects : JobRow -> Bool) (blind : forall row : JobRow, selects row.untimed = selects row)
    (limit : Nat) (locked : List Nat) (rows : List JobRow) :
    lockCandidates before selects limit locked (rows.map JobRow.untimed) =
      lockCandidates before selects limit locked rows := by
  have selected : (rows.map JobRow.untimed).filter selects =
      (rows.filter selects).map JobRow.untimed := by
    rw [List.filter_map, show selects ∘ JobRow.untimed = selects from funext blind]
  unfold lockCandidates
  rw [selected, ← List.map_insertionSort before before JobRow.untimed (rows.filter selects)
      (fun first _ second _ => orders first second), List.map_map]
  rfl

/-- The time of a report, by the clock of the process. -/
def Statement.stampedAt (clock : Timestamp) : Statement -> Statement
  | .failJob p => .failJob { p with error := { p.error with recordedAt := clock } }
  | statement => statement

/-- The same candidates are locked in tables that are alike. -/
theorem lockCandidates_alike {db other : Database} (alike : db.Alike other)
    (before : JobRow -> JobRow -> Prop) [DecidableRel before]
    (orders : forall first second : JobRow, before first second <->
      before first.untimed second.untimed)
    (selects : JobRow -> Bool) (blind : forall row : JobRow, selects row.untimed = selects row)
    (limit : Nat) (locked : List Nat) :
    lockCandidates before selects limit locked other.job.rows =
      lockCandidates before selects limit locked db.job.rows := by
  rw [← lockCandidates_untimed before orders selects blind, ← alike.rows,
    lockCandidates_untimed before orders selects blind]

/-- An update that neither reads nor writes such times is alike to itself. -/
theorem Mutation.Alike.of_blind {mutation : Mutation}
    (hits : forall row, mutation.hits row = mutation.hits row.untimed)
    (set : forall row, (mutation.set row).untimed = mutation.set row.untimed) :
    mutation.Alike mutation :=
  .of_shape mutation.hits mutation.set hits hits set set

section

variable {db other : Database}

theorem claimJobs_alike (alike : db.Alike other) (p : ClaimParams) (locked : List Nat)
    (now : Timestamp) :
    (claimJobs p locked now db).Alike (claimJobs p locked now other) := by
  have same := lockCandidates_alike alike claimOrder (fun _ _ => Iff.rfl)
    (claimable db.queueConfig p now) (fun _ => rfl) p.limit locked
  have unchanged : claimJobs p locked now other = claimJobs p locked now db := by
    unfold claimJobs
    rw [← alike.queueConfig, same]
  rw [unchanged]
  exact .of_blind (fun _ => rfl) (fun _ => rfl)

theorem claimJobsWithAging_alike (alike : db.Alike other) (p : ClaimParams) (threshold : Int)
    (locked : List Nat) (now : Timestamp) :
    (claimJobsWithAging p threshold locked now db).Alike
      (claimJobsWithAging p threshold locked now other) := by
  have same := lockCandidates_alike alike (agingOrder threshold now) (fun _ _ => Iff.rfl)
    (claimable db.queueConfig p now) (fun _ => rfl) p.limit locked
  have unchanged : claimJobsWithAging p threshold locked now other =
      claimJobsWithAging p threshold locked now db := by
    unfold claimJobsWithAging
    rw [← alike.queueConfig, same]
  rw [unchanged]
  exact .of_blind (fun _ => rfl) (fun _ => rfl)

/-- The reaper stamps its records by the clock of the database. -/
theorem reapExpiredLeases_alike (alike : db.Alike other) (p : ReapParams) (locked : List Nat)
    (now : Timestamp) :
    (reapExpiredLeases p locked now db).Alike (reapExpiredLeases p locked now other) := by
  have same := lockCandidates_alike alike leaseOrder (fun _ _ => Iff.rfl) (leaseExpired now)
    (fun _ => rfl) p.limit locked
  have unchanged : reapExpiredLeases p locked now other = reapExpiredLeases p locked now db := by
    unfold reapExpiredLeases
    rw [same]
  have appended : forall row : JobRow,
      ((reapExpiredLeases p locked now db).set row).untimed =
        { (reapExpiredLeases p locked now db).set row.untimed with
          errors := appendError 5 row.untimed.errors (leaseExpiredRecord now row).untimed } := by
    intro row
    unfold JobRow.untimed reapExpiredLeases
    dsimp only
    rw [appendError_untimed]
  rw [unchanged]
  exact .of_shape (reapExpiredLeases p locked now db).hits
    (fun row => { (reapExpiredLeases p locked now db).set row with
      errors := appendError 5 row.errors (leaseExpiredRecord now row).untimed })
    (fun _ => rfl) (fun _ => rfl) appended appended

/-- Two reports of one failure differ in their times only. -/
theorem failJob_alike (p : FailParams) (clock reading now : Timestamp) :
    (failJob { p with error := { p.error with recordedAt := clock } } now).Alike
      (failJob { p with error := { p.error with recordedAt := reading } } now) := by
  have appended : forall (time : Timestamp) (row : JobRow),
      ((failJob { p with error := { p.error with recordedAt := time } } now).set row).untimed =
        (failJob { p with error := p.error.untimed } now).set row.untimed := by
    intro time row
    unfold JobRow.untimed failJob
    dsimp only
    rw [appendError_untimed]
    rfl
  exact .of_shape p.owns (failJob { p with error := p.error.untimed } now).set
    (fun _ => rfl) (fun _ => rfl) (appended clock) (appended reading)

end

/-- An update does the same whatever the times are, those of its own report
included. -/
theorem Statement.mutation_alike {db other : Database} (alike : db.Alike other)
    (statement : Statement) (clock reading now : Timestamp) {mutation : Mutation}
    (isUpdate : (statement.stampedAt clock).mutation now db = some mutation) :
    Exists fun second : Mutation =>
      (statement.stampedAt reading).mutation now other = some second ∧ mutation.Alike second := by
  cases statement with
  | claimJobs p locked =>
      cases isUpdate
      exact ⟨_, rfl, claimJobs_alike alike p locked now⟩
  | claimJobsWithAging p threshold locked =>
      cases isUpdate
      exact ⟨_, rfl, claimJobsWithAging_alike alike p threshold locked now⟩
  | reapExpiredLeases p locked =>
      cases isUpdate
      exact ⟨_, rfl, reapExpiredLeases_alike alike p locked now⟩
  | failJob p =>
      cases isUpdate
      exact ⟨_, rfl, failJob_alike p clock reading now⟩
  | _ =>
      -- every other update names its row and leaves the history alone
      cases isUpdate <;> exact ⟨_, rfl, .of_blind (fun _ => rfl) (fun _ => rfl)⟩

/-- An update by a worker, by the reaper or by an operator.  The time in a report
is read from the clock of the process. -/
def Database.update (now clock : Timestamp) (statement : Statement) (db : Database) : Database :=
  if ((statement.stampedAt clock).mutation now db).isSome then
    db.step ⟨now, statement.stampedAt clock⟩
  else db

theorem Database.update_of_not_update {now clock : Timestamp} {statement : Statement}
    {db : Database} (other : (statement.stampedAt clock).mutation now db = none) :
    db.update now clock statement = db := by
  unfold Database.update
  rw [other]
  rfl

theorem Database.update_of_mutation {now clock : Timestamp} {statement : Statement} {db : Database}
    {mutation : Mutation} (isUpdate : (statement.stampedAt clock).mutation now db = some mutation) :
    (Exists fun reply : Reply => mutation.run db = .ok reply ∧
        db.update now clock statement = reply.db) ∨
      ((Exists fun error : DbError => mutation.run db = .error error) ∧
        db.update now clock statement = db) := by
  unfold Database.update Database.step
  rw [isUpdate, Statement.exec_mutation isUpdate]
  cases mutation.run db with
  | ok reply => exact Or.inl ⟨reply, rfl, rfl⟩
  | error error => exact Or.inr ⟨⟨error, rfl⟩, rfl⟩

theorem Database.Alike.update {db other : Database} (alike : db.Alike other) (now : Timestamp)
    (clock reading : Timestamp) (statement : Statement) :
    (db.update now clock statement).Alike (other.update now reading statement) := by
  cases isUpdate : (statement.stampedAt clock).mutation now db with
  | none =>
      have neither : (statement.stampedAt reading).mutation now other = none := by
        cases second : (statement.stampedAt reading).mutation now other with
        | none => rfl
        | some mutation =>
            rcases Statement.mutation_alike alike.symm statement reading clock now second with
              ⟨first, isFirst, _⟩
            cases isUpdate.symm.trans isFirst
      rw [Database.update_of_not_update isUpdate, Database.update_of_not_update neither]
      exact alike
  | some first =>
      rcases Statement.mutation_alike alike statement clock reading now isUpdate with
        ⟨second, isSecond, updates⟩
      rcases Database.update_of_mutation isUpdate with ⟨reply, committed, next⟩ | ⟨aborted, next⟩
      · rcases Mutation.run_alike updates alike committed with ⟨answer, answered, after⟩
        rcases Database.update_of_mutation isSecond with ⟨found, ran, last⟩ | ⟨⟨error, refused⟩, _⟩
        · cases answered.symm.trans ran
          rw [next, last]
          exact after
        · cases answered.symm.trans refused
      · rcases aborted with ⟨error, refused⟩
        rcases Database.update_of_mutation isSecond with ⟨answer, answered, _⟩ | ⟨_, last⟩
        · rcases Mutation.run_alike updates.symm alike.symm answered with ⟨reply, committed, _⟩
          cases refused.symm.trans committed
        · rw [next, last]
          exact alike

end PgJobQ
