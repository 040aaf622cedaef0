import Mathlib.Data.List.Dedup
import Mathlib.Data.List.Sort
import PgJobQ.Client.BuildRow

/-!
# Operations on queues

Pausing and purging name a queue.  The aggregates go over all queues: the
database groups the jobs, and the program collects the groups in an object
whose properties are the names of the queues.

An object also has the properties it inherits from `Object.prototype`.  A
queue that is named like one of these gets no entry of its own; its count is
assigned to the inherited object, which every object of the process shares and
which keeps it.
-/

namespace PgJobQ

/-! ## Statements -/

structure QueueStatsRow where
  queue : String
  state : JobState
  count : Nat
  deriving DecidableEq, Repr

/-- `ORDER BY queue, state`; the collation of the database orders the queues. -/
def groupOrder (collation : String -> String -> Bool) (first second : String × JobState) : Prop :=
  if first.1 = second.1 then JobState.all.idxOf first.2 ≤ JobState.all.idxOf second.2
  else collation first.1 second.1 = true

instance (collation : String -> String -> Bool) : DecidableRel (groupOrder collation) :=
  fun first second => inferInstanceAs (Decidable (if first.1 = second.1 then
    JobState.all.idxOf first.2 ≤ JobState.all.idxOf second.2
    else collation first.1 second.1 = true))

/-- `GROUP BY queue, state`. -/
def queueStatsRows (collation : String -> String -> Bool) (db : Database) : List QueueStatsRow :=
  ((db.job.rows.map (fun job => (job.queue, job.state))).dedup.insertionSort
    (groupOrder collation)).map (fun group => ⟨group.1, group.2, db.job.rows.countP
      (fun job => job.queue == group.1 && job.state == group.2)⟩)

structure QueueLagRow where
  queue : String
  oldestWait : Timestamp
  ready : Nat
  deriving DecidableEq, Repr

/-- The groups of the jobs that are ready, in no particular order. -/
def queueLagRows (now : Timestamp) (db : Database) : List QueueLagRow :=
  let ready := db.job.rows.filter (fun job => job.state == .available && decide (job.runAt ≤ now))
  (ready.map JobRow.queue).dedup.map (fun queue =>
    let waiting := ready.filter (fun job => job.queue == queue)
    ⟨queue, now - (waiting.map JobRow.runAt).min?.getD now, waiting.length⟩)

/-! ## Objects -/

/-- The functions of `Object.prototype`. -/
def inheritedFunctions : List String :=
  ["constructor", "__defineGetter__", "__defineSetter__", "hasOwnProperty", "__lookupGetter__",
    "__lookupSetter__", "isPrototypeOf", "propertyIsEnumerable", "toString", "valueOf",
    "toLocaleString"]

/-- What has been assigned to inherited objects, newest first.  The object that
is inherited as `__proto__` is `Object.prototype` itself. -/
structure SharedObjects where
  assigned : List (String × JobState × Nat)
  deriving DecidableEq, Repr

/-- Every object inherits a number under the name. -/
def SharedObjects.inherits (shared : SharedObjects) (name : String) : Bool :=
  shared.assigned.any (fun entry => entry.1 == "__proto__" && entry.2.1.text == name)

/-- The object `out`, whose values are objects again. -/
abbrev QueueCounts := InsertionMap String (InsertionMap JobState Nat)

/-- `(out[r.queue] ??= {})[r.state] = Number(r.count)`.  It throws when
`out[r.queue]` is a number. -/
def recordCount (shared : SharedObjects) (out : QueueCounts) (row : QueueStatsRow) :
    SharedObjects × Option QueueCounts :=
  match out.get row.queue with
  | some counts => (shared, some (out.set row.queue (counts.set row.state row.count)))
  | none =>
      if row.queue = "__proto__" ∨ row.queue ∈ inheritedFunctions then
        (⟨(row.queue, row.state, row.count) :: shared.assigned⟩, some out)
      else if shared.inherits row.queue then (shared, none)
      else (shared, some (out.set row.queue (InsertionMap.empty.set row.state row.count)))

def recordCounts : SharedObjects -> QueueCounts -> List QueueStatsRow ->
    SharedObjects × Option QueueCounts
  | shared, out, [] => (shared, some out)
  | shared, out, row :: rows =>
      match recordCount shared out row with
      | (next, none) => (next, none)
      | (next, some counts) => recordCounts next counts rows

/-- A name that is an array index. -/
def arrayIndex (name : String) : Option Nat :=
  let number := Nat.ofDigitChars 10 name.toList 0
  if name = Nat.repr number ∧ number < 4294967295 then some number else none

/-- `Object.entries`: array indices come first, in their order. -/
def objectEntries {Value : Type} (object : InsertionMap String Value) : List (String × Value) :=
  (object.entries.filter (fun entry => (arrayIndex entry.1).isSome)).insertionSort
      (fun first second => (arrayIndex first.1).getD 0 ≤ (arrayIndex second.1).getD 0) ++
    object.entries.filter (fun entry => (arrayIndex entry.1).isNone)

/-- Every property is listed. -/
theorem length_objectEntries {Value : Type} (object : InsertionMap String Value) :
    (objectEntries object).length = object.entries.length := by
  unfold objectEntries
  rw [List.length_append, List.length_insertionSort,
    object.entries.length_eq_length_filter_add (fun entry => (arrayIndex entry.1).isSome)]
  simp only [Option.not_isSome]

/-- A name that no object inherits gets a property of its own. -/
theorem recordCount_of_fresh {shared : SharedObjects} {row : QueueStatsRow}
    (notPrototype : row.queue ≠ "__proto__") (notFunction : Not (row.queue ∈ inheritedFunctions))
    (notState : forall state : JobState, state.text ≠ row.queue) :
    recordCount shared .empty row =
      (shared, some (InsertionMap.empty.set row.queue (InsertionMap.empty.set row.state row.count)))
    := by
  have ownNone : (InsertionMap.empty : QueueCounts).get row.queue = none := rfl
  have inheritsNone : shared.inherits row.queue = false := by
    apply List.any_eq_false.mpr
    intro entry _ inherited
    exact notState entry.2.1 (beq_iff_eq.mp (Bool.and_eq_true_iff.mp inherited).2)
  unfold recordCount
  rw [ownNone, inheritsNone]
  simp only [notPrototype, notFunction, or_self, if_false, Bool.false_eq_true]

/-! ## The client -/

namespace Client

def queueStats (collation : String -> String -> Bool) (shared : SharedObjects) (db : Database) :
    SharedObjects × Option QueueCounts :=
  recordCounts shared .empty (queueStatsRows collation db)

def queueLag (now : Timestamp) (db : Database) : List QueueLagRow := queueLagRows now db

def getQueueConfig (queue : String) (db : Database) : Option QueueConfigRow :=
  db.queueConfig.forQueue queue

def setPaused (queue : String) (paused : Bool) (db : Database) (state : ClientState) :
    Except ClientError Unit × Database × ClientState :=
  match validateName queue "queue" with
  | .error error => (.error (.row error), db, state)
  | .ok () =>
      match setQueuePaused queue paused db with
      | .error error => (.error (.database error), db, state)
      | .ok reply => (.ok (), reply.db, { state with queueCache := state.queueCache.delete queue })

/-- The loop of `purge`, with the batches that may still follow and the jobs
deleted so far.  A batch that is not full is the last one. -/
def purgeBatches (queue : String) (states : List JobState) (locked : Nat -> List Nat) :
    Nat -> Nat -> Database -> Except ClientError Nat × Database
  | 0, deleted, db => (.ok deleted, db)
  | batches + 1, deleted, db =>
      match purgeQueue queue states 1000 (locked batches) db with
      | .error error => (.error (.database error), db)
      | .ok reply =>
          if reply.rows.length < 1000 then (.ok (deleted + reply.rows.length), reply.db)
          else purgeBatches queue states locked batches (deleted + reply.rows.length) reply.db

def purge (queue : String) (states : List JobState) (confirm : String) (locked : Nat -> List Nat)
    (db : Database) : Except ClientError Nat × Database :=
  match validateName queue "queue" with
  | .error error => (.error (.row error), db)
  | .ok () =>
      if confirm ≠ queue then
        (.error (.row (.validation ("Purge requires confirmation: pass the queue name '" ++ queue ++
          "' as the confirmation token."))), db)
      else if states = [] then
        (.error (.row (.validation "Purge requires at least one state")), db)
      else purgeBatches queue states locked 1000 0 db

end Client

end PgJobQ
