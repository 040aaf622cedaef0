import PgJobQ.Client.Administration
import PgJobQ.Library.RowViews
import PgJobQ.Scheduler.Schedule

/-!
# Listing jobs

Both listings show jobs from the newest to the oldest, one page at a time.  A
filter that is not given lets every row pass, and the cursor is the last id of
the page before.  The database refuses a cursor beyond the range of ids and a
time before the earliest one its calendar has; then there is no listing.
-/

namespace PgJobQ

open RowViews UniqueRows

/-- A valid `Date`, in milliseconds. -/
structure ValidDate where
  time : Int
  valid : -8640000000000000 ≤ time ∧ time ≤ 8640000000000000
  deriving DecidableEq, Repr

/-- The beginning of 4713 BC in the Julian calendar, in milliseconds. -/
def earliestTimestamp : Int := -210866803200000

/-- The date is the value of some `timestamptz`. -/
def ValidDate.fits (date : ValidDate) : Bool := earliestTimestamp ≤ date.time

/-- What `ListJobsParams` and `ListDeadParams` have in common. -/
structure PageParams where
  queue : Option String
  type : Option String
  fromDate : Option ValidDate
  toDate : Option ValidDate
  beforeId : Option NumericId
  limit : Nat
  deriving DecidableEq, Repr

structure ListJobsParams extends PageParams where
  state : Option JobState
  deriving DecidableEq, Repr

structure ListDeadParams extends PageParams where
  reason : Option DeadReason
  deriving DecidableEq, Repr

/-- `clampLimit`. -/
def clampLimit (limit : Nat) : Nat := min (max 1 limit) 200

theorem one_le_clampLimit (limit : Nat) : 1 ≤ clampLimit limit := by
  unfold clampLimit
  omega

/-- `ORDER BY id DESC`. -/
def newestFirst (first second : JobRow) : Prop := second.id ≤ first.id

instance : DecidableRel newestFirst := fun _ _ => inferInstanceAs (Decidable (_ ≤ _))

instance : Std.Total newestFirst := ⟨fun first second => Nat.le_total second.id first.id⟩

instance : IsTrans JobRow newestFirst := ⟨fun _ _ _ one two => Nat.le_trans two one⟩

namespace PageParams

/-- The parameters fit the types of their columns. -/
def fits (p : PageParams) : Bool :=
  p.fromDate.all ValidDate.fits && p.toDate.all ValidDate.fits &&
    p.beforeId.all NumericId.fitsBigint

/-- The filters on the column of times; nothing compares with null. -/
def covers (p : PageParams) (column : Option Timestamp) : Bool :=
  p.fromDate.all (fun date => column.any (fun time => decide (ofMillis date.time ≤ time))) &&
    p.toDate.all (fun date => column.any (fun time => decide (time ≤ ofMillis date.time)))

/-- The `WHERE` clause of a listing with a filter of its own. -/
def selects (p : PageParams) (filter : JobRow -> Bool) (column : JobRow -> Option Timestamp)
    (job : JobRow) : Bool :=
  filter job && p.queue.all (fun queue => job.queue == queue) &&
    p.type.all (fun type => job.type == type) && p.covers (column job) &&
      p.beforeId.all (fun cursor => decide (job.id < cursor.value))

theorem queue_of_selects {p : PageParams} {filter : JobRow -> Bool}
    {column : JobRow -> Option Timestamp} {job : JobRow} {queue : String}
    (asked : p.queue = some queue) (selected : p.selects filter column job = true) :
    job.queue = queue := by
  unfold selects at selected
  simp only [asked, Option.all_some, Bool.and_eq_true, beq_iff_eq] at selected
  exact selected.1.1.1.2

def listing (p : PageParams) (filter : JobRow -> Bool) (column : JobRow -> Option Timestamp)
    (db : Database) : Option (List JobRow) :=
  if p.fits then
    some (((db.job.rows.filter (p.selects filter column)).insertionSort newestFirst).take
      (clampLimit p.limit))
  else none

end PageParams

namespace Client

def listJobs (p : ListJobsParams) (db : Database) : Option (List JobRow) :=
  p.listing (fun job => p.state.all (fun state => job.state == state))
    (fun job => some job.enqueuedAt) db

/-- The listing of dead jobs goes by the time they died. -/
def listDeadJobs (p : ListDeadParams) (db : Database) : Option (List JobRow) :=
  p.listing (fun job => job.state == .dead &&
    p.reason.all (fun reason => job.deadReason == some reason)) JobRow.finishedAt db

end Client

namespace PageParams

variable {p : PageParams} {filter : JobRow -> Bool} {column : JobRow -> Option Timestamp}

/-- The listing of a queue depends on the jobs of the queue alone. -/
theorem listing_eq_of_agree {visible : JobRow -> Bool} {one two : Database} {queue : String}
    (agree : Agree visible one.job.rows two.job.rows) (asked : p.queue = some queue)
    (sees : forall job : JobRow, job.queue = queue -> visible job = true) :
    p.listing filter column one = p.listing filter column two := by
  have sorted := agree.sorted_eq one.job.constraints.primaryKey two.job.constraints.primaryKey
    (fun job selected => sees job (@queue_of_selects p filter column job queue asked selected))
    newestFirst (fun _ _ forth back => Nat.le_antisymm back forth)
  unfold listing
  rw [sorted]

/-- A job that passes the filters is listed from a table that holds it alone. -/
theorem listing_singleton {db : Database} {job : JobRow} (alone : db.job.rows = [job])
    (fits : p.fits = true) (selected : p.selects filter column job = true) :
    p.listing filter column db = some [job] := by
  have kept : [job].filter (p.selects filter column) = [job] := by
    rw [List.filter_cons_of_pos selected, List.filter_nil]
  have sorted : [job].insertionSort newestFirst = [job] := rfl
  unfold listing
  rw [if_pos fits, alone, kept, sorted, List.take_of_length_le (one_le_clampLimit p.limit)]

/-- A table with no job that passes the filters has an empty listing. -/
theorem listing_of_none {db : Database} (fits : p.fits = true)
    (none : forall job, job ∈ db.job.rows -> p.selects filter column job = false) :
    p.listing filter column db = some [] := by
  have kept : db.job.rows.filter (p.selects filter column) = [] :=
    List.filter_eq_nil_iff.mpr (fun job member => Bool.eq_false_iff.mp (none job member))
  unfold listing
  rw [if_pos fits, kept, List.insertionSort_nil, List.take_nil]

end PageParams

end PgJobQ
