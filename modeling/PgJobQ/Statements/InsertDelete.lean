import Mathlib.Data.List.ReduceOption
import PgJobQ.Statements.Updates

/-!
# The statements that insert and delete jobs

`insertJob` and `insertJobsBatch` say `ON CONFLICT DO NOTHING` without a
conflict target, so a row that collides in any unique index is dropped in
silence.  A row that violates a CHECK, or whose notification the trigger
cannot send, aborts the whole statement.

Pruning, archiving and purging delete the rows they have locked.  Archiving
copies them first, in the same statement.
-/

namespace PgJobQ

open Intervals

open UniqueRows

/-- The row an `INSERT` builds: the supplied columns and the defaults. -/
def EnqueueRow.toJobRow (row : EnqueueRow) (id : Nat) (now : Timestamp) : JobRow where
  id := id
  queue := row.queue
  type := row.type
  state := .available
  payload := row.payload
  metadata := row.metadata
  priority := row.priority
  attempt := 0
  maxAttempts := row.maxAttempts
  leaseSeconds := row.leaseSeconds
  runAt := row.runAt.getD now
  enqueuedAt := now
  startedAt := none
  finishedAt := none
  leaseExpiresAt := none
  cancelRequestedAt := none
  workerId := none
  idempotencyKey := row.idempotencyKey
  uniqueKey := row.uniqueKey
  deadReason := none
  errors := []
  traceContext := row.traceContext
  scheduleId := row.scheduleId
  updatedAt := now

/-- `pg_notify` refuses a channel name of 64 bytes or more. -/
def pgNotify (channel : String) : Except DbError Unit :=
  if channel.utf8ByteSize < 64 then .ok () else .error .notifyChannelTooLong

/-- The trigger function `pgjobq_notify_enqueue`. -/
def pgjobqNotifyEnqueue (now : Timestamp) (new : JobRow) : Except DbError Unit :=
  if new.state = .available ∧ new.runAt ≤ now then pgNotify ("pgjobq_" ++ new.queue) else .ok ()

/-- Only a row that is eligible at once is announced, and only its channel can
be too long. -/
theorem pgjobqNotifyEnqueue_refused_iff {now : Timestamp} {new : JobRow} :
    (Exists fun error : DbError => pgjobqNotifyEnqueue now new = .error error) <->
      (new.state = .available ∧ new.runAt ≤ now) ∧
        64 ≤ ("pgjobq_" ++ new.queue).utf8ByteSize := by
  unfold pgjobqNotifyEnqueue pgNotify
  constructor
  · rintro ⟨error, refused⟩
    split at refused
    · rename_i eligible
      split at refused
      · cases refused
      · exact ⟨eligible, by omega⟩
    · cases refused
  · rintro ⟨eligible, long⟩
    rw [if_pos eligible, if_neg (by omega)]
    exact ⟨_, rfl⟩

/-- Some row of the table already holds a key of the new one. -/
def conflicts (rows : List JobRow) (new : JobRow) : Bool :=
  rows.any (fun row => row.primaryKey == new.primaryKey ||
    (new.idempotencyIdx.isSome && row.idempotencyIdx == new.idempotencyIdx) ||
    (new.uniqueActiveIdx.isSome && row.uniqueActiveIdx == new.uniqueActiveIdx))

theorem idempotencyIdx_eq_iff {old new : JobRow} :
    (new.idempotencyIdx.isSome && old.idempotencyIdx == new.idempotencyIdx) = true <->
      new.idempotencyKey ≠ none ∧ old.queue = new.queue ∧
        old.idempotencyKey = new.idempotencyKey := by
  unfold JobRow.idempotencyIdx
  cases new.idempotencyKey with
  | none => simp
  | some key =>
      cases old.idempotencyKey with
      | none => simp
      | some other => simp

theorem uniqueActiveIdx_eq_iff {old new : JobRow} (active : new.state.isActive = true) :
    (new.uniqueActiveIdx.isSome && old.uniqueActiveIdx == new.uniqueActiveIdx) = true <->
      new.uniqueKey ≠ none ∧ old.queue = new.queue ∧ old.state.isActive = true ∧
        old.uniqueKey = new.uniqueKey := by
  unfold JobRow.uniqueActiveIdx
  rw [if_pos active]
  cases new.uniqueKey with
  | none => simp
  | some key =>
      by_cases oldActive : old.state.isActive = true
      · cases old.uniqueKey with
        | none => simp [oldActive]
        | some other => simp [oldActive]
      · simp [oldActive]

/-- Insert one row or drop it.  The identity value is drawn in both cases. -/
def insertRow (now : Timestamp) (row : EnqueueRow) (db : Database) :
    Except DbError (Database × Option JobRow) :=
  let new := row.toJobRow db.nextId now
  match new.violation with
  | some constraint => .error (.checkViolation constraint)
  | none =>
      if conflicts db.job.rows new then
        .ok ({ db with
          nextId := db.nextId + 1
          identity := fun old member => Nat.lt_succ_of_lt (db.identity old member) }, none)
      else
        match accepted : JobTable.ofRows (db.job.rows ++ [new]) with
        | .error error => .error error
        | .ok table =>
            match pgjobqNotifyEnqueue now new with
            | .error error => .error error
            | .ok () => .ok ({ db with
                job := table
                nextId := db.nextId + 1
                identity := by
                  intro old member
                  rw [JobTable.ofRows_rows accepted] at member
                  rcases List.mem_append.mp member with present | added
                  · exact Nat.lt_succ_of_lt (db.identity old present)
                  · rw [List.mem_singleton.mp added]
                    exact Nat.lt_succ_self db.nextId }, some new)

/-- An insert draws an identity value and either drops the row on a conflict or
appends it.  Nothing else changes. -/
theorem insertRow_ok {now : Timestamp} {row : EnqueueRow} {db next : Database}
    {outcome : Option JobRow} (inserted : insertRow now row db = .ok (next, outcome)) :
    next.nextId = db.nextId + 1 ∧ next.jobArchive = db.jobArchive ∧
      next.partitions = db.partitions ∧ next.queueConfig = db.queueConfig ∧
      ((conflicts db.job.rows (row.toJobRow db.nextId now) = true ∧ outcome = none ∧
          next.job = db.job) ∨
        (conflicts db.job.rows (row.toJobRow db.nextId now) = false ∧
          outcome = some (row.toJobRow db.nextId now) ∧
          next.job.rows = db.job.rows ++ [row.toJobRow db.nextId now])) := by
  unfold insertRow at inserted
  dsimp only at inserted
  split at inserted
  · cases inserted
  · split at inserted
    · rename_i conflict
      cases inserted
      exact ⟨rfl, rfl, rfl, rfl, Or.inl ⟨conflict, rfl, rfl⟩⟩
    · rename_i clear
      split at inserted
      · cases inserted
      · rename_i table accepted
        split at inserted
        · cases inserted
        · cases inserted
          exact ⟨rfl, rfl, rfl, rfl, Or.inr ⟨Bool.eq_false_iff.mpr clear, rfl,
            JobTable.ofRows_rows accepted⟩⟩

/-- A CHECK that aborts an insert is violated by the new row. -/
theorem insertRow_checkViolation {now : Timestamp} {row : EnqueueRow} {db : Database}
    {constraint : RowConstraint}
    (aborted : insertRow now row db = .error (.checkViolation constraint)) :
    Not (constraint.Holds (row.toJobRow db.nextId now)) := by
  unfold insertRow at aborted
  dsimp only at aborted
  split at aborted
  · rename_i violated
    cases aborted
    exact JobRow.violation_not_holds violated
  · rename_i passed
    split at aborted
    · cases aborted
    · split at aborted
      · rename_i refused
        cases aborted
        rcases JobTable.ofRows_checkViolation refused with ⟨other, member, violated⟩
        rcases List.mem_append.mp member with present | added
        · exact absurd (db.job.holds present constraint) violated
        · rw [List.mem_singleton.mp added] at violated
          exact violated
      · split at aborted
        · rename_i refused
          unfold pgjobqNotifyEnqueue pgNotify at refused
          cases aborted
          repeat' split at refused
          all_goals cases refused
        · cases aborted

/-- A row that conflicts with no other keeps every unique index. -/
theorem unique_of_clear {rows : List JobRow} {new : JobRow} (clear : conflicts rows new = false) :
    (UniqueOn JobRow.primaryKey rows -> UniqueOn JobRow.primaryKey (rows ++ [new])) ∧
      (UniqueOn JobRow.idempotencyIdx rows -> UniqueOn JobRow.idempotencyIdx (rows ++ [new])) ∧
      (UniqueOn JobRow.uniqueActiveIdx rows ->
        UniqueOn JobRow.uniqueActiveIdx (rows ++ [new])) := by
  have apart : forall old, old ∈ rows -> Not (old.primaryKey = new.primaryKey) ∧
      (new.idempotencyIdx.isSome = true -> Not (old.idempotencyIdx = new.idempotencyIdx)) ∧
      (new.uniqueActiveIdx.isSome = true -> Not (old.uniqueActiveIdx = new.uniqueActiveIdx)) := by
    intro old member
    have one := List.any_eq_false.mp clear old member
    simp only [Bool.or_eq_true, Bool.and_eq_true, beq_iff_eq, not_or, not_and] at one
    exact ⟨one.1.1, one.1.2, one.2⟩
  refine ⟨fun unique => unique.append ?_, fun unique => unique.append ?_,
    fun unique => unique.append ?_⟩
  · exact fun _ old member => (apart old member).1
  · exact fun keyed old member => (apart old member).2.1 keyed
  · exact fun keyed old member => (apart old member).2.2 keyed

/-- A row that is not dropped cannot collide afterwards. -/
theorem insertRow_not_uniqueViolation {now : Timestamp} {row : EnqueueRow} {db : Database}
    {index : UniqueIndex} : insertRow now row db ≠ .error (.uniqueViolation index) := by
  intro aborted
  unfold insertRow at aborted
  dsimp only at aborted
  split at aborted
  · cases aborted
  · split at aborted
    · cases aborted
    · rename_i notConflicting
      have unique := unique_of_clear (Bool.eq_false_iff.mpr notConflicting)
      split at aborted
      · rename_i refused
        cases aborted
        exact JobTable.ofRows_not_uniqueViolation (unique.1 db.job.constraints.primaryKey)
          (unique.2.1 db.job.constraints.idempotencyIdx)
          (unique.2.2 db.job.constraints.uniqueActiveIdx) refused
      · split at aborted
        · rename_i refused
          unfold pgjobqNotifyEnqueue pgNotify at refused
          cases aborted
          repeat' split at refused
          all_goals cases refused
        · cases aborted

/-- A row that passes its checks is refused only by the trigger, and only when
no key of it is taken. -/
theorem insertRow_refused_iff {now : Timestamp} {row : EnqueueRow} {db : Database}
    (checked : (row.toJobRow db.nextId now).Checked) :
    (Exists fun error : DbError => insertRow now row db = .error error) <->
      conflicts db.job.rows (row.toJobRow db.nextId now) = false ∧
        Exists fun error : DbError =>
          pgjobqNotifyEnqueue now (row.toJobRow db.nextId now) = .error error := by
  unfold insertRow
  dsimp only
  split
  · rename_i violated
    rw [checked] at violated
    cases violated
  · split
    · rename_i conflict
      constructor
      · rintro ⟨error, impossible⟩
        cases impossible
      · exact fun refused => absurd conflict (Bool.eq_false_iff.mp refused.1)
    · rename_i clear
      have free := Bool.eq_false_iff.mpr clear
      have unique := unique_of_clear free
      have constraints : Constraints (db.job.rows ++ [row.toJobRow db.nextId now]) := by
        refine ⟨?_, unique.1 db.job.constraints.primaryKey,
          unique.2.1 db.job.constraints.idempotencyIdx,
          unique.2.2 db.job.constraints.uniqueActiveIdx⟩
        intro other member
        rcases List.mem_append.mp member with present | added
        · exact db.job.constraints.checked other present
        · rw [List.mem_singleton.mp added]
          exact checked
      split
      · rename_i refused
        rw [JobTable.ofRows_of_constraints constraints] at refused
        cases refused
      · split
        · rename_i error unsent
          exact ⟨fun _ => ⟨free, error, unsent⟩, fun _ => ⟨error, rfl⟩⟩
        · rename_i sent
          constructor
          · rintro ⟨error, impossible⟩
            cases impossible
          · rintro ⟨_, error, unsent⟩
            rw [sent] at unsent
            cases unsent

/-- Insert the rows in input order, and keep what became of each one. -/
def insertRows (now : Timestamp) : List EnqueueRow -> Database ->
    Except DbError (Database × List (Option JobRow))
  | [], db => .ok (db, [])
  | row :: rows, db =>
      match insertRow now row db with
      | .error error => .error error
      | .ok (next, outcome) =>
          match insertRows now rows next with
          | .error error => .error error
          | .ok (last, outcomes) => .ok (last, outcome :: outcomes)

/-- The first row is inserted before the others. -/
theorem insertRows_cons {now : Timestamp} {row : EnqueueRow} {rows : List EnqueueRow}
    {db last : Database} {outcomes : List (Option JobRow)}
    (inserted : insertRows now (row :: rows) db = .ok (last, outcomes)) :
    Exists fun next : Database => Exists fun outcome : Option JobRow =>
      Exists fun tail : List (Option JobRow) => insertRow now row db = .ok (next, outcome) ∧
        insertRows now rows next = .ok (last, tail) ∧ outcomes = outcome :: tail := by
  unfold insertRows at inserted
  split at inserted
  · cases inserted
  · rename_i next outcome first
    split at inserted
    · cases inserted
    · rename_i final tail rest
      cases inserted
      exact ⟨next, outcome, tail, first, rest, rfl⟩

theorem insertRows_checkViolation {now : Timestamp} {rows : List EnqueueRow} {db : Database}
    {constraint : RowConstraint}
    (aborted : insertRows now rows db = .error (.checkViolation constraint)) :
    Exists fun row : EnqueueRow => Exists fun id : Nat =>
      row ∈ rows ∧ Not (constraint.Holds (row.toJobRow id now)) := by
  induction rows generalizing db with
  | nil => cases aborted
  | cons row rows inductionHypothesis =>
      unfold insertRows at aborted
      split at aborted
      · rename_i first
        cases aborted
        exact ⟨row, db.nextId, List.mem_cons_self, insertRow_checkViolation first⟩
      · split at aborted
        · rename_i later
          cases aborted
          rcases inductionHypothesis later with ⟨other, id, member, violated⟩
          exact ⟨other, id, List.mem_cons_of_mem row member, violated⟩
        · cases aborted

def insertJob (row : EnqueueRow) (now : Timestamp) (db : Database) : Except DbError Reply :=
  (insertRow now row db).map (fun inserted => ⟨inserted.1, inserted.2.toList⟩)

def insertJobsBatch (rows : List EnqueueRow) (now : Timestamp) (db : Database) :
    Except DbError Reply :=
  (insertRows now rows db).map (fun inserted => ⟨inserted.1, inserted.2.reduceOption⟩)

theorem insertJobsBatch_ok {rows : List EnqueueRow} {now : Timestamp} {db : Database}
    {reply : Reply} (committed : insertJobsBatch rows now db = .ok reply) :
    Exists fun outcomes : List (Option JobRow) =>
      insertRows now rows db = .ok (reply.db, outcomes) ∧ reply.rows = outcomes.reduceOption := by
  unfold insertJobsBatch at committed
  cases inserted : insertRows now rows db with
  | error error =>
      rw [inserted] at committed
      cases committed
  | ok done =>
      rw [inserted] at committed
      cases committed
      exact ⟨done.2, rfl, rfl⟩

/-- A single insert is a batch of one. -/
theorem insertJob_eq_batch (row : EnqueueRow) (now : Timestamp) (db : Database) :
    insertJob row now db = insertJobsBatch [row] now db := by
  unfold insertJob insertJobsBatch
  simp only [insertRows]
  cases insertRow now row db with
  | error error => rfl
  | ok inserted => cases inserted with
    | mk next outcome => cases outcome <;> rfl

theorem insertJob_refused_iff {row : EnqueueRow} {now : Timestamp} {db : Database} :
    (Exists fun error : DbError => insertJob row now db = .error error) <->
      Exists fun error : DbError => insertRow now row db = .error error := by
  unfold insertJob
  cases insertRow now row db with
  | error error => exact ⟨fun _ => ⟨error, rfl⟩, fun _ => ⟨error, rfl⟩⟩
  | ok inserted =>
      constructor
      · rintro ⟨error, impossible⟩
        cases impossible
      · rintro ⟨error, impossible⟩
        cases impossible

/-! ## Deleting -/

/-- The window a retention sweep grants a terminal row of a queue. -/
def retentionWindow (config : QueueConfigTable) (p : RetentionParams) (job : JobRow) :
    Option Interval :=
  match job.state with
  | .dead => ((config.forQueue job.queue).map (·.retainDead)).or p.defaultRetainDead
  | _ => ((config.forQueue job.queue).map (·.retainSucceeded)).or p.defaultRetainSucceeded

/-- The `WHERE` clause of both retention sweeps. -/
def pastRetention (config : QueueConfigTable) (p : RetentionParams) (now : Timestamp)
    (job : JobRow) : Bool :=
  job.state.isTerminal &&
    match job.finishedAt, retentionWindow config p job with
    | some finished, some window => decide (finished < p.zone.subtract now window)
    | _, _ => false

/-- The casts of the parameters to `interval`, which are made first. -/
def RetentionParams.readable (p : RetentionParams) : Bool :=
  p.defaultRetainSucceeded.isSome && p.defaultRetainDead.isSome

/-- `ORDER BY finished_at`. -/
def finishedOrder (first second : JobRow) : Prop :=
  nullsLast first.finishedAt second.finishedAt = true

instance : DecidableRel finishedOrder := fun _ _ => inferInstanceAs (Decidable (_ = _))

/-- The `victim` rows of a retention sweep. -/
def retentionVictim (p : RetentionParams) (locked : List Nat) (now : Timestamp) (db : Database)
    (job : JobRow) : Bool :=
  (lockCandidates finishedOrder (pastRetention db.queueConfig p now) p.limit locked
    db.job.rows).contains job.id

/-- `DELETE FROM job` for the victims, with everything else left alone. -/
def Database.deleteJobs (db : Database) (victim : JobRow -> Bool) : Database :=
  { db with
    job := db.job.delete victim
    identity := fun row member => db.identity row (List.mem_filter.mp member).1 }

def pruneTerminalJobs (p : RetentionParams) (locked : List Nat) (now : Timestamp)
    (db : Database) : Except DbError Reply :=
  let victim := retentionVictim p locked now db
  if p.readable then .ok ⟨db.deleteJobs victim, db.job.rows.filter victim⟩
  else .error .invalidInterval

theorem pruneTerminalJobs_ok {p : RetentionParams} {locked : List Nat} {now : Timestamp}
    {db : Database} {reply : Reply} (committed : pruneTerminalJobs p locked now db = .ok reply) :
    reply = ⟨db.deleteJobs (retentionVictim p locked now db),
      db.job.rows.filter (retentionVictim p locked now db)⟩ := by
  unfold pruneTerminalJobs at committed
  dsimp only at committed
  split at committed
  · cases committed
    rfl
  · cases committed

/-- The column list of the archiving `INSERT`, in the order of the source. -/
def archiveRow (now : Timestamp) (moved : JobRow) : ArchiveRow where
  id := moved.id
  queue := moved.queue
  type := moved.type
  state := moved.state
  payload := moved.payload
  metadata := moved.metadata
  priority := moved.priority
  attempt := moved.attempt
  maxAttempts := moved.maxAttempts
  leaseSeconds := moved.leaseSeconds
  runAt := moved.runAt
  enqueuedAt := moved.enqueuedAt
  startedAt := moved.startedAt
  finishedAt := moved.finishedAt
  leaseExpiresAt := moved.leaseExpiresAt
  cancelRequestedAt := moved.cancelRequestedAt
  workerId := moved.workerId
  idempotencyKey := moved.idempotencyKey
  uniqueKey := moved.uniqueKey
  deadReason := moved.deadReason
  errors := moved.errors
  traceContext := moved.traceContext
  scheduleId := moved.scheduleId
  updatedAt := moved.updatedAt
  archivedAt := now

/-- No column of the job is lost on the way into the archive. -/
theorem archiveRow_toJobRow (now : Timestamp) (moved : JobRow) :
    (archiveRow now moved).toJobRow = moved := rfl

/-- A row for which no partition exists cannot be archived, and then nothing is
deleted either. -/
def archiveTerminalJobs (p : RetentionParams) (locked : List Nat) (now : Timestamp)
    (db : Database) : Except DbError Reply :=
  let victim := retentionVictim p locked now db
  let moved := db.job.rows.filter victim
  if !p.readable then .error .invalidInterval
  else if moved = [] ∨ db.partitions.any (fun part => part.lower ≤ now && now < part.upper) then
    .ok ⟨{ db.deleteJobs victim with jobArchive := db.jobArchive ++ moved.map (archiveRow now) },
      moved⟩
  else .error .noPartition

theorem archiveTerminalJobs_ok {p : RetentionParams} {locked : List Nat} {now : Timestamp}
    {db : Database} {reply : Reply} (committed : archiveTerminalJobs p locked now db = .ok reply) :
    reply = ⟨{ db.deleteJobs (retentionVictim p locked now db) with
        jobArchive := db.jobArchive ++
          (db.job.rows.filter (retentionVictim p locked now db)).map (archiveRow now) },
      db.job.rows.filter (retentionVictim p locked now db)⟩ := by
  unfold archiveTerminalJobs at committed
  dsimp only at committed
  split at committed
  · cases committed
  · split at committed
    · cases committed
      rfl
    · cases committed

/-- `ORDER BY id`. -/
def idOrder (first second : JobRow) : Prop := first.id ≤ second.id

instance : DecidableRel idOrder := fun _ _ => inferInstanceAs (Decidable (_ ≤ _))

def purgeQueue (queue : String) (states : List JobState) (limit : Nat) (locked : List Nat)
    (db : Database) : Except DbError Reply :=
  let victim := fun job : JobRow => (lockCandidates idOrder
    (fun row => row.queue == queue && states.contains row.state) limit locked
    db.job.rows).contains job.id
  .ok ⟨db.deleteJobs victim, db.job.rows.filter victim⟩

/-- The row `setQueuePaused` inserts for a queue without one: column defaults. -/
def newQueueConfig (queue : String) (paused : Bool) : QueueConfigRow where
  queue := queue
  paused := paused
  maxAttempts := none
  leaseSeconds := none
  priorityAging := false
  agingThresholdS := none
  concurrencyLimit := none
  retainSucceeded := ⟨0, 0, seconds 86400⟩
  retainDead := ⟨0, 30, 0⟩

/-- `INSERT ... ON CONFLICT (queue) DO UPDATE SET paused`. -/
def QueueConfigTable.setPaused (config : QueueConfigTable) (queue : String) (paused : Bool) :
    QueueConfigTable :=
  if present : Exists fun row : QueueConfigRow => row ∈ config.rows ∧ row.queue = queue then
    { rows := config.rows.map
        (fun row => if row.queue = queue then { row with paused := paused } else row)
      primaryKey := config.primaryKey.map (fun row _ => Or.inl (by
        split
        · rfl
        · rfl)) }
  else
    { rows := config.rows ++ [newQueueConfig queue paused]
      primaryKey := by
        apply (UniqueRows.uniqueOn_append_singleton_iff _ _ _).mpr
        refine ⟨config.primaryKey, ?_⟩
        intro value new row member same
        have sameQueue : row.queue = queue := Option.some.inj (same.trans new.symm)
        exact present ⟨row, member, sameQueue⟩ }

/-- The row of the queue is the one it had, or the inserted one; no other queue
is touched. -/
theorem forQueue_setPaused (config : QueueConfigTable) (queue other : String) (paused : Bool) :
    (config.setPaused queue paused).forQueue other =
      if other = queue then
        some { (config.forQueue queue).getD (newQueueConfig queue paused) with paused := paused }
      else config.forQueue other := by
  unfold QueueConfigTable.forQueue QueueConfigTable.setPaused
  split
  · rename_i present
    dsimp only
    rw [List.find?_map]
    have keeps : (fun row : QueueConfigRow => row.queue == other) ∘ (fun row : QueueConfigRow =>
        if row.queue = queue then { row with paused := paused } else row) =
          fun row : QueueConfigRow => row.queue == other := by
      funext row
      simp only [Function.comp_apply]
      split
      · rfl
      · rfl
    rw [keeps]
    by_cases same : other = queue
    · subst same
      rcases present with ⟨row, member, named⟩
      cases found : config.rows.find? (fun row => row.queue == other) with
      | none => exact absurd (beq_iff_eq.mpr named) (List.find?_eq_none.mp found row member)
      | some first =>
          have isOther : first.queue = other := by simpa using List.find?_some found
          simp [isOther]
    · cases found : config.rows.find? (fun row => row.queue == other) with
      | none => simp [same]
      | some first =>
          have isOther : first.queue = other := by simpa using List.find?_some found
          simp [isOther, same]
  · rename_i absent
    have noRow : config.rows.find? (fun row => row.queue == queue) = none := by
      apply List.find?_eq_none.mpr
      intro row member named
      exact absent ⟨row, member, beq_iff_eq.mp named⟩
    dsimp only
    rw [List.find?_append]
    by_cases same : other = queue
    · subst same
      rw [noRow]
      simp [newQueueConfig]
    · have named : (newQueueConfig queue paused).queue ≠ other := fun equal => same equal.symm
      simp [same, named]

def setQueuePaused (queue : String) (paused : Bool) (db : Database) : Except DbError Reply :=
  .ok ⟨{ db with queueConfig := db.queueConfig.setPaused queue paused }, []⟩

end PgJobQ
