import Mathlib.Data.List.Sort
import PgJobQ.Library.IsoTime
import PgJobQ.Library.UniqueRows
import PgJobQ.Schema.Types

/-!
# The table `schedule` and its statements

A schedule names a queue, a cron expression with its timezone, and the time of
its next occurrence.  The column counts microseconds; a `Date` of the program
counts milliseconds, so a time that is read loses its last three digits and a
time that is written ends in zeros.

Each statement of `schedule.sql.ts` is a function of the table.  None of them
changes the id, the name or the queue of a row.
-/

namespace PgJobQ

open UniqueRows

inductive CatchupPolicy where
  | skipMissed
  | runOnce
  deriving DecidableEq, Repr

structure ScheduleRow where
  id : Nat
  name : String
  queue : String
  type : String
  payload : String
  cron : String
  timezone : String
  catchupPolicy : CatchupPolicy
  enabled : Bool
  nextRunAt : Timestamp
  lastRunAt : Option Timestamp
  lastJobId : Option Nat
  updatedAt : Timestamp
  deriving DecidableEq, Repr

/-- A column value as a `Date`. -/
def millis (time : Timestamp) : Int := time / 1000

/-- A `Date` as a column value. -/
def ofMillis (time : Int) : Timestamp := time * 1000

@[simp] theorem millis_ofMillis (time : Int) : millis (ofMillis time) = time := by
  unfold millis ofMillis
  omega

/-- The table `schedule`, with the sequence behind its id column. -/
structure ScheduleTable where
  rows : List ScheduleRow
  nextId : Nat
  primaryKey : UniqueOn (fun row => some row.id) rows
  uniqueName : UniqueOn (fun row => some row.name) rows
  identity : forall row, row ∈ rows -> row.id < nextId

namespace ScheduleTable

def empty : ScheduleTable where
  rows := []
  nextId := 1
  primaryKey := uniqueOn_nil _
  uniqueName := uniqueOn_nil _
  identity := fun _ member => absurd member List.not_mem_nil

/-- `getSchedule`. -/
def find (table : ScheduleTable) (id : Nat) : Option ScheduleRow :=
  table.rows.find? (fun row => row.id == id)

theorem find_eq_some_iff {table : ScheduleTable} {id : Nat} {row : ScheduleRow} :
    table.find id = some row <-> row ∈ table.rows ∧ row.id = id := by
  rw [find, table.primaryKey.find?_eq_some_iff
    (fun _ => beq_iff_eq.trans Option.some_inj.symm), Option.some_inj]

end ScheduleTable

/-- An assignment of columns other than the id, the name and the queue. -/
structure ScheduleChange where
  set : ScheduleRow -> ScheduleRow
  keepsId : forall row, (set row).id = row.id := by intro row; rfl
  keepsName : forall row, (set row).name = row.name := by intro row; rfl
  keepsQueue : forall row, (set row).queue = row.queue := by intro row; rfl

namespace ScheduleTable

def rewrite (hits : ScheduleRow -> Bool) (change : ScheduleChange) (row : ScheduleRow) :
    ScheduleRow :=
  if hits row then change.set row else row

theorem rewrite_id (hits : ScheduleRow -> Bool) (change : ScheduleChange) (row : ScheduleRow) :
    (rewrite hits change row).id = row.id := by
  unfold rewrite
  split
  · exact change.keepsId row
  · rfl

theorem rewrite_name (hits : ScheduleRow -> Bool) (change : ScheduleChange) (row : ScheduleRow) :
    (rewrite hits change row).name = row.name := by
  unfold rewrite
  split
  · exact change.keepsName row
  · rfl

theorem rewrite_queue (hits : ScheduleRow -> Bool) (change : ScheduleChange) (row : ScheduleRow) :
    (rewrite hits change row).queue = row.queue := by
  unfold rewrite
  split
  · exact change.keepsQueue row
  · rfl

/-- `UPDATE schedule`. -/
def update (table : ScheduleTable) (hits : ScheduleRow -> Bool) (change : ScheduleChange) :
    ScheduleTable where
  rows := table.rows.map (rewrite hits change)
  nextId := table.nextId
  primaryKey := table.primaryKey.map (fun row _ => Or.inl (by rw [rewrite_id]))
  uniqueName := table.uniqueName.map (fun row _ => Or.inl (by rw [rewrite_name]))
  identity := by
    intro row member
    rcases List.mem_map.mp member with ⟨source, sourceMem, rfl⟩
    rw [rewrite_id]
    exact table.identity source sourceMem

theorem find_update (table : ScheduleTable) (hits : ScheduleRow -> Bool) (change : ScheduleChange)
    (id : Nat) : (table.update hits change).find id = (table.find id).map (rewrite hits change) := by
  unfold find update
  dsimp only
  rw [List.find?_map]
  congr 1
  apply congrArg (fun test => table.rows.find? test)
  funext row
  rw [Function.comp_apply, rewrite_id]

end ScheduleTable

/-! ## The statements -/

/-- A row `claimDueSchedules` returns. -/
structure DueScheduleRow where
  id : Nat
  name : String
  queue : String
  type : String
  payload : String
  cron : String
  timezone : String
  catchupPolicy : CatchupPolicy
  plannedFor : Int
  deriving DecidableEq, Repr

def ScheduleRow.due (row : ScheduleRow) : DueScheduleRow where
  id := row.id
  name := row.name
  queue := row.queue
  type := row.type
  payload := row.payload
  cron := row.cron
  timezone := row.timezone
  catchupPolicy := row.catchupPolicy
  plannedFor := millis row.nextRunAt

/-- `ORDER BY next_run_at LIMIT ... FOR UPDATE SKIP LOCKED`. -/
def dueSchedules (limit : Nat) (locked : List Nat) (now : Timestamp) (table : ScheduleTable) :
    List Nat :=
  ((((table.rows.filter (fun row => row.enabled && decide (row.nextRunAt ≤ now))).insertionSort
    (fun first second => first.nextRunAt ≤ second.nextRunAt)).map ScheduleRow.id).filter
      (fun id => !locked.contains id)).take limit

theorem mem_dueSchedules {limit : Nat} {locked : List Nat} {now : Timestamp}
    {table : ScheduleTable} {row : ScheduleRow} (member : row ∈ table.rows)
    (chosen : row.id ∈ dueSchedules limit locked now table) :
    row.enabled = true ∧ row.nextRunAt ≤ now := by
  have selected := (List.mem_filter.mp (List.mem_of_mem_take chosen)).1
  rcases List.mem_map.mp selected with ⟨other, sorted, same⟩
  have scanned := List.mem_filter.mp ((List.mem_insertionSort _).mp sorted)
  have isRow := table.primaryKey.eq_of_key scanned.1 member rfl (congrArg some same.symm)
  have tests := Bool.and_eq_true_iff.mp scanned.2
  exact isRow ▸ ⟨tests.1, of_decide_eq_true tests.2⟩

/-- The `SET` list of `claimDueSchedules`. -/
def claimChange (now : Timestamp) : ScheduleChange where
  set row := { row with lastRunAt := some row.nextRunAt, updatedAt := now }

def claimDueSchedules (limit : Nat) (locked : List Nat) (now : Timestamp)
    (table : ScheduleTable) : ScheduleTable × List DueScheduleRow :=
  let hits := fun row : ScheduleRow => (dueSchedules limit locked now table).contains row.id
  (table.update hits (claimChange now), (table.rows.filter hits).map ScheduleRow.due)

/-- The `SET` list of `advanceSchedule`. -/
def advanceChange (nextRunAt : Int) (lastJobId : Option Nat) (now : Timestamp) :
    ScheduleChange where
  set row := { row with
    nextRunAt := ofMillis nextRunAt
    lastJobId := lastJobId.or row.lastJobId
    updatedAt := now }

def advanceSchedule (id : Nat) (nextRunAt : Int) (lastJobId : Option Nat) (now : Timestamp)
    (table : ScheduleTable) : ScheduleTable :=
  table.update (fun row => row.id == id) (advanceChange nextRunAt lastJobId now)

/-- The `SET` list of `setScheduleEnabled`. -/
def enableChange (enabled : Bool) (nextRunAt : Option Int) (now : Timestamp) : ScheduleChange where
  set row := { row with
    enabled := enabled
    nextRunAt := (nextRunAt.map ofMillis).getD row.nextRunAt
    updatedAt := now }

def setScheduleEnabled (id : Nat) (enabled : Bool) (nextRunAt : Option Int) (now : Timestamp)
    (table : ScheduleTable) : ScheduleTable :=
  table.update (fun row => row.id == id) (enableChange enabled nextRunAt now)

/-- The deterministic key of an occurrence.  `toISOString` throws for a time it
cannot print. -/
def occurrenceKey (scheduleId : Nat) (plannedFor : Int) : Option String :=
  (IsoTime.toISOString plannedFor).map
    (fun text => "sched:" ++ Nat.repr scheduleId ++ ":" ++ text)

/-- An id has no colon. -/
theorem colon_not_mem_repr (id : Nat) : Not (':' ∈ (Nat.repr id).toList) := by
  intro member
  rw [Nat.toList_repr] at member
  have digit := Nat.isDigit_of_mem_toDigits (by decide) (Nat.le_refl 10) member
  exact absurd digit (by decide)

/-- Different occurrences have different keys. -/
theorem occurrenceKey_inj {id other : Nat} {planned otherPlanned : Int} {key : String}
    (one : occurrenceKey id planned = some key)
    (two : occurrenceKey other otherPlanned = some key) : id = other ∧ planned = otherPlanned := by
  rcases Option.map_eq_some_iff.mp one with ⟨text, printed, rfl⟩
  rcases Option.map_eq_some_iff.mp two with ⟨otherText, otherPrinted, same⟩
  have chars := congrArg String.toList same
  simp only [String.toList_append, List.append_assoc] at chars
  have parts := IsoTime.append_separator_inj (colon_not_mem_repr other) (colon_not_mem_repr id)
    (List.append_cancel_left chars)
  have sameId : id = other := by
    have digits := parts.1
    rw [Nat.toList_repr, Nat.toList_repr] at digits
    rw [← @Nat.ofDigitChars_ten_toDigits id, ← digits, Nat.ofDigitChars_ten_toDigits]
  have sameText : otherText = text := String.toList_inj.mp parts.2
  exact ⟨sameId, IsoTime.toISOString_inj printed (sameText ▸ otherPrinted)⟩

end PgJobQ
