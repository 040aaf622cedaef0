import Mathlib.Data.Finset.Card
import PgJobQ.Scheduler.Advances

/-!
# One bad schedule and the others

A tick expects a cron expression to be rejected: it defers the schedule by an
hour and goes on with the next one.  It does not expect the insert of a job to
be refused, or a planned time without a key.  Such an error leaves the tick, so
the schedules behind are not handled, and the schedule it comes from stays where
it is: at the head of the due ones, for the next tick to claim it first.

Here one tick runs to its end without the steps of others in between.  In which
order the claim returns its rows, what the clocks say and which inserts the
database refuses is left to the surroundings.
-/

namespace PgJobQ

open Runs

/-- What the surroundings decide in the iteration for a schedule. -/
structure Iteration where
  clock : Timestamp
  insertedAt : Timestamp
  advancedAt : Timestamp
  refused : Bool
  deriving DecidableEq, Repr

/-- The tables and the call after an iteration, and what its statements have
done. -/
structure Iterated where
  db : Database
  schedules : ScheduleTable
  call : SchedulerCall
  events : List SchedulerEvent

namespace SchedulerCall

/-- Execute the statement a call waits for. -/
def advanceBy (now : Timestamp) (done : Iterated) : Iterated :=
  let outcome := done.call.execute 0 now [] done.db done.schedules
  ⟨outcome.db, outcome.schedules, outcome.call, done.events ++ outcome.event.toList⟩

/-- An iteration of the loop: the clock is read, the job is inserted where the
policy decides so, and the schedule is advanced. -/
def iterate (nextOccurrence : String -> String -> Int -> Option Int) (iteration : Iteration)
    (due : List DueScheduleRow) (db : Database) (schedules : ScheduleTable) : Iterated :=
  match take nextOccurrence (millis iteration.clock) due with
  | .inserting row key nextRunAt rest =>
      if iteration.refused then ⟨db, schedules, .finished, []⟩
      else advanceBy iteration.advancedAt
        (advanceBy iteration.insertedAt ⟨db, schedules, .inserting row key nextRunAt rest, []⟩)
  | call => advanceBy iteration.advancedAt ⟨db, schedules, call, []⟩

/-- The `for` loop of a tick, to its end or to the first error. -/
def loop (nextOccurrence : String -> String -> Int -> Option Int) (iterations : Nat -> Iteration) :
    List DueScheduleRow -> Database -> ScheduleTable -> Iterated
  | [], db, schedules => ⟨db, schedules, .finished, []⟩
  | row :: rest, db, schedules =>
      let done := iterate nextOccurrence (iterations row.id) (row :: rest) db schedules
      match done.call with
      | .taking _ =>
          let later := loop nextOccurrence iterations rest done.db done.schedules
          { later with events := done.events ++ later.events }
      | _ => done

end SchedulerCall

/-! ## Good and bad schedules -/

/-- Some job of the queue has the key. -/
def Database.KeyHeld (db : Database) (queue key : String) : Prop :=
  Exists fun id : Nat => db.HoldsKey queue key id

namespace DueScheduleRow

/-- An error leaves the iteration: the planned time has no key, or the insert is
refused. -/
def Throws (nextOccurrence : String -> String -> Int -> Option Int) (iteration : Iteration)
    (db : Database) (row : DueScheduleRow) : Prop :=
  match occurrenceKey row.id row.plannedFor with
  | none => True
  | some key =>
      nextOccurrence row.cron row.timezone (millis iteration.clock) ≠ none ∧
        row.shouldFire (millis iteration.clock) = true ∧
          (iteration.refused = true ∨ Exists fun error : DbError =>
            insertJob (row.occurrence key) iteration.insertedAt db = .error error)

/-- Neither does the cron library reject the expression nor does the iteration
throw. -/
def Healthy (nextOccurrence : String -> String -> Int -> Option Int) (iteration : Iteration)
    (db : Database) (row : DueScheduleRow) : Prop :=
  nextOccurrence row.cron row.timezone (millis iteration.clock) ≠ none ∧
    Not (row.Throws nextOccurrence iteration db)

/-- What a tick that handles the schedule decides for it. -/
def Decided (nextOccurrence : String -> String -> Int -> Option Int) (clock : Int)
    (row : DueScheduleRow) (kind : AdvanceKind) (nextRunAt : Int) : Prop :=
  match nextOccurrence row.cron row.timezone clock with
  | none => kind = .deferred clock ∧ nextRunAt = clock + 3600000
  | some next =>
      kind = (if row.shouldFire clock then .fired else .skipped clock) ∧ nextRunAt = next

/-- The tick has created the job of the occurrence, unless its key was held
before. -/
def JobMade (before : Database) (events : List SchedulerEvent) (row : DueScheduleRow) : Prop :=
  Exists fun key : String => occurrenceKey row.id row.plannedFor = some key ∧
    (before.KeyHeld row.queue key ∨ Exists fun job : JobRow =>
      .created row job ∈ events ∧ OccurrenceJob row job)

/-- The schedule is advanced as decided, and where it fires its job is made and
in the table. -/
def Processed (nextOccurrence : String -> String -> Int -> Option Int) (clock : Int)
    (before : Database) (events : List SchedulerEvent) (row : DueScheduleRow) : Prop :=
  Exists fun kind : AdvanceKind => Exists fun db : Database =>
    Exists fun found : Option ScheduleRow => Exists fun nextRunAt : Int =>
      .advanced row kind db found (ofMillis nextRunAt) ∈ events ∧
        row.Decided nextOccurrence clock kind nextRunAt ∧
          (kind = .fired -> Materialized db row ∧ row.JobMade before events)

end DueScheduleRow

/-! ## One iteration -/

/-- The insert for an occurrence is refused by the trigger or not at all. -/
theorem insertJob_occurrence_refused_iff {row : DueScheduleRow} {key : String} {now : Timestamp}
    {db : Database} :
    (Exists fun error : DbError => insertJob (row.occurrence key) now db = .error error) <->
      (forall id, Not (db.HoldsKey row.queue key id)) ∧
        64 ≤ ("pgjobq_" ++ row.queue).utf8ByteSize := by
  have checked : ((row.occurrence key).toJobRow db.nextId now).Checked := rfl
  have refused := insertRow_refused_iff checked
  have free : conflicts db.job.rows ((row.occurrence key).toJobRow db.nextId now) = false <->
      forall id, Not (db.HoldsKey row.queue key id) := by
    rw [Bool.eq_false_iff]
    constructor
    · rintro clear id ⟨other, member, _, sameQueue, sameKey⟩
      apply clear
      rw [conflicts_iff]
      exact fun keysFree => (keysFree other member sameQueue).1 (Option.some_ne_none key) sameKey
    · intro unheld conflict
      rcases holder_of_taken (conflicts_iff.mp conflict) rfl with ⟨held, isHeld, id, holds⟩
      cases isHeld
      exact unheld id holds
  have unsent : (Exists fun error : DbError => pgjobqNotifyEnqueue now
      ((row.occurrence key).toJobRow db.nextId now) = .error error) <->
        64 ≤ ("pgjobq_" ++ row.queue).utf8ByteSize :=
    pgjobqNotifyEnqueue_refused_iff.trans (and_iff_right ⟨rfl, Int.le_refl now⟩)
  rw [← free, ← unsent, ← refused]
  exact insertJob_refused_iff

/-- The insert for an occurrence takes no key but that of the occurrence. -/
theorem keyHeld_insert {row : DueScheduleRow} {key queue other : String} {now : Timestamp}
    {db : Database} {reply : Reply} (inserted : insertJob (row.occurrence key) now db = .ok reply)
    (apart : other ≠ key) : reply.db.KeyHeld queue other <-> db.KeyHeld queue other := by
  rcases insertJob_cases inserted with ⟨_, same, _⟩ | ⟨_, appended⟩
  · unfold Database.KeyHeld Database.HoldsKey
    rw [same]
  · constructor
    · rintro ⟨id, held, member, isId, isQueue, isKey⟩
      rw [appended] at member
      rcases List.mem_append.mp member with present | new
      · exact ⟨id, held, present, isId, isQueue, isKey⟩
      · rw [List.mem_singleton.mp new] at isKey
        exact absurd (Option.some.inj isKey).symm apart
    · rintro ⟨id, held, member, isHeld⟩
      exact ⟨id, held, appended ▸ List.mem_append_left _ member, isHeld⟩

namespace SchedulerCall

variable {nextOccurrence : String -> String -> Int -> Option Int} {iteration : Iteration}
  {row : DueScheduleRow} {rest : List DueScheduleRow} {db : Database} {schedules : ScheduleTable}

theorem take_unkeyed {clock : Int} (unkeyed : occurrenceKey row.id row.plannedFor = none) :
    take nextOccurrence clock (row :: rest) = .finished := by
  simp only [take, unkeyed]

theorem take_rejected {clock : Int} {key : String}
    (isKey : occurrenceKey row.id row.plannedFor = some key)
    (rejected : nextOccurrence row.cron row.timezone clock = none) :
    take nextOccurrence clock (row :: rest) =
      .advancing row (clock + 3600000) none (.deferred clock) rest := by
  simp only [take, isKey, rejected]

theorem take_accepted {clock next : Int} {key : String}
    (isKey : occurrenceKey row.id row.plannedFor = some key)
    (accepted : nextOccurrence row.cron row.timezone clock = some next) :
    take nextOccurrence clock (row :: rest) =
      if row.shouldFire clock then .inserting row key next rest
      else .advancing row next none (.skipped clock) rest := by
  simp only [take, isKey, accepted]

/-- An iteration that throws ends the tick and changes nothing. -/
theorem iterate_throws (throws : row.Throws nextOccurrence iteration db) :
    iterate nextOccurrence iteration (row :: rest) db schedules = ⟨db, schedules, .finished, []⟩ := by
  unfold DueScheduleRow.Throws at throws
  unfold iterate
  cases isKey : occurrenceKey row.id row.plannedFor with
  | none =>
      rw [take_unkeyed isKey]
      rfl
  | some key =>
      rw [isKey] at throws
      rcases throws with ⟨accepted, fires, refused⟩
      rcases Option.ne_none_iff_exists'.mp accepted with ⟨next, isNext⟩
      rw [take_accepted isKey isNext, if_pos fires]
      dsimp only
      split
      · rfl
      · rename_i granted
        rcases refused with refused | ⟨error, refused⟩
        · exact absurd refused granted
        · simp only [advanceBy, execute, refused]
          rfl

/-- What an iteration does that does not throw. -/
structure Passed (nextOccurrence : String -> String -> Int -> Option Int) (iteration : Iteration)
    (row : DueScheduleRow) (rest : List DueScheduleRow) (db : Database) (schedules : ScheduleTable)
    (done : Iterated) : Prop where
  call : done.call = .taking rest
  advanced : Exists fun nextRunAt : Int => Exists fun jobId : Option Nat =>
    Exists fun kind : AdvanceKind => Exists fun before : Option ScheduleRow =>
      row.Decided nextOccurrence (millis iteration.clock) kind nextRunAt ∧
        done.schedules = advanceSchedule row.id nextRunAt jobId iteration.advancedAt schedules ∧
        .advanced row kind done.db before (ofMillis nextRunAt) ∈ done.events ∧
        (kind = .fired -> Materialized done.db row ∧ row.JobMade db done.events)
  own : forall due kind db before nextRunAt,
    .advanced due kind db before nextRunAt ∈ done.events -> due = row
  ownJob : forall due job, .created due job ∈ done.events -> due = row
  keys : forall queue other, occurrenceKey row.id row.plannedFor ≠ some other ->
    (done.db.KeyHeld queue other <-> db.KeyHeld queue other)

/-- An advance without an insert. -/
theorem Passed.of_advancing {nextRunAt : Int} {kind : AdvanceKind}
    (decided : row.Decided nextOccurrence (millis iteration.clock) kind nextRunAt)
    (unfired : kind ≠ .fired) :
    Passed nextOccurrence iteration row rest db schedules (advanceBy iteration.advancedAt
      ⟨db, schedules, .advancing row nextRunAt none kind rest, []⟩) where
  call := rfl
  advanced := ⟨nextRunAt, none, kind, _, decided, rfl, List.mem_singleton_self _,
    fun fired => absurd fired unfired⟩
  own := by
    intro due otherKind other before next member
    cases List.mem_singleton.mp member
    rfl
  ownJob := fun _ _ member => by cases List.mem_singleton.mp member
  keys := fun _ _ _ => Iff.rfl

/-- An insert that is not refused, and the advance behind it. -/
theorem Passed.of_inserting {nextRunAt : Int} {key : String} {reply : Reply}
    (decided : row.Decided nextOccurrence (millis iteration.clock) .fired nextRunAt)
    (isKey : occurrenceKey row.id row.plannedFor = some key)
    (inserted : insertJob (row.occurrence key) iteration.insertedAt db = .ok reply) :
    Passed nextOccurrence iteration row rest db schedules (advanceBy iteration.advancedAt
      (advanceBy iteration.insertedAt ⟨db, schedules, .inserting row key nextRunAt rest, []⟩)) := by
  simp only [advanceBy, execute, inserted]
  refine ⟨rfl, ⟨nextRunAt, _, .fired, _, decided, rfl,
    List.mem_append_right _ (List.mem_singleton_self _),
    fun _ => ⟨insertJob_materialized isKey inserted, key, isKey, ?_⟩⟩, ?_, ?_, ?_⟩
  · rcases insertJob_cases inserted with ⟨_, _, taken⟩ | ⟨returned, _⟩
    · rcases holder_of_taken taken rfl with ⟨held, isHeld, id, holds⟩
      cases isHeld
      exact Or.inl ⟨id, holds⟩
    · refine Or.inr ⟨(row.occurrence key).toJobRow db.nextId iteration.insertedAt, ?_,
        ⟨rfl, rfl, rfl, rfl, isKey.symm, rfl⟩⟩
      rw [returned]
      exact List.mem_append_left _ (List.mem_singleton_self _)
  · intro due kind other before next member
    rcases List.mem_append.mp member with created | advanced
    · rcases Option.map_eq_some_iff.mp (Option.mem_toList.mp created) with ⟨job, _, impossible⟩
      cases impossible
    · cases List.mem_singleton.mp advanced
      rfl
  · intro due job member
    rcases List.mem_append.mp member with created | advanced
    · rcases Option.map_eq_some_iff.mp (Option.mem_toList.mp created) with ⟨job, _, same⟩
      cases same
      rfl
    · cases List.mem_singleton.mp advanced
  · exact fun queue other apart =>
      keyHeld_insert inserted (fun same => apart (same ▸ isKey))

theorem iterate_passes (passes : Not (row.Throws nextOccurrence iteration db)) :
    Passed nextOccurrence iteration row rest db schedules
      (iterate nextOccurrence iteration (row :: rest) db schedules) := by
  unfold DueScheduleRow.Throws at passes
  unfold iterate
  cases isKey : occurrenceKey row.id row.plannedFor with
  | none =>
      rw [isKey] at passes
      exact absurd trivial passes
  | some key =>
      rw [isKey] at passes
      cases isNext : nextOccurrence row.cron row.timezone (millis iteration.clock) with
      | none =>
          have decided : row.Decided nextOccurrence (millis iteration.clock)
              (.deferred (millis iteration.clock)) (millis iteration.clock + 3600000) := by
            simp only [DueScheduleRow.Decided, isNext, and_self]
          rw [take_rejected isKey isNext]
          exact .of_advancing decided (by simp)
      | some next =>
          have decided : row.Decided nextOccurrence (millis iteration.clock)
              (if row.shouldFire (millis iteration.clock) then .fired
                else .skipped (millis iteration.clock)) next := by
            simp only [DueScheduleRow.Decided, isNext, and_self]
          rw [take_accepted isKey isNext]
          cases fires : row.shouldFire (millis iteration.clock) with
          | false =>
              rw [fires] at decided
              exact .of_advancing decided (by simp)
          | true =>
              rw [fires] at decided
              have granted := not_or.mp (not_and.mp (not_and.mp passes (by simp [isNext])) fires)
              rw [if_pos rfl]
              dsimp only
              rw [if_neg granted.1]
              cases inserted : insertJob (row.occurrence key) iteration.insertedAt db with
              | error error => exact absurd ⟨error, inserted⟩ granted.2
              | ok reply => exact .of_inserting decided isKey inserted

end SchedulerCall

/-- The keys of other occurrences decide whether an iteration throws. -/
theorem DueScheduleRow.throws_iff_of_keys {nextOccurrence : String -> String -> Int -> Option Int}
    {iteration : Iteration} {row : DueScheduleRow} {db next : Database}
    (same : forall queue key, occurrenceKey row.id row.plannedFor = some key ->
      (next.KeyHeld queue key <-> db.KeyHeld queue key)) :
    row.Throws nextOccurrence iteration next <-> row.Throws nextOccurrence iteration db := by
  unfold DueScheduleRow.Throws
  cases isKey : occurrenceKey row.id row.plannedFor with
  | none => exact Iff.rfl
  | some key =>
      dsimp only
      rw [insertJob_occurrence_refused_iff, insertJob_occurrence_refused_iff]
      have unheld : (forall id, Not (next.HoldsKey row.queue key id)) <->
          forall id, Not (db.HoldsKey row.queue key id) := by
        rw [← not_exists, ← not_exists]
        exact not_congr (same row.queue key isKey)
      rw [unheld]

/-- An iteration for one schedule does not decide whether that for another
throws. -/
theorem SchedulerCall.throws_iterate_iff {nextOccurrence : String -> String -> Int -> Option Int}
    {iteration own : Iteration} {row other : DueScheduleRow} {rest : List DueScheduleRow}
    {db : Database} {schedules : ScheduleTable} (apart : row.id ≠ other.id) :
    other.Throws nextOccurrence own
        (iterate nextOccurrence iteration (row :: rest) db schedules).db <->
      other.Throws nextOccurrence own db := by
  by_cases throws : row.Throws nextOccurrence iteration db
  · rw [iterate_throws throws]
  · apply DueScheduleRow.throws_iff_of_keys
    intro queue key isKey
    exact (iterate_passes throws).keys queue key
      (fun same => apart (occurrenceKey_inj same isKey).1)

/-! ## The loop in the system -/

/-- The step is one of the call. -/
def SchedulerLabel.Of (index : Nat) : SchedulerLabel -> Prop
  | .execute other _ _ => other = index
  | .resume other _ => other = index
  | .crash other => other = index
  | _ => False

/-- The system has the tables and the call of an iteration. -/
structure SchedulerSystem.Shows (system : SchedulerSystem) (index : Nat) (done : Iterated) :
    Prop where
  db : system.db = done.db
  schedules : system.schedules = done.schedules
  call : system.calls index = some done.call

/-- Steps of the call alone lead from one to the other. -/
def SchedulerSystem.Reaches (nextOccurrence : String -> String -> Int -> Option Int) (index : Nat)
    (system : SchedulerSystem) (done : Iterated) : Prop :=
  Exists fun labels : List SchedulerLabel => (forall label, label ∈ labels -> label.Of index) ∧
    (run (SchedulerSystem.step nextOccurrence) system labels).Shows index done

namespace SchedulerSystem

variable {nextOccurrence : String -> String -> Int -> Option Int} {index : Nat}
  {system : SchedulerSystem} {done : Iterated}

theorem Reaches.trans {later : Iterated} (reaches : system.Reaches nextOccurrence index done)
    (goesOn : forall next : SchedulerSystem, next.Shows index done ->
      next.Reaches nextOccurrence index later) : system.Reaches nextOccurrence index later := by
  rcases reaches with ⟨labels, own, shows⟩
  rcases goesOn _ shows with ⟨others, otherOwn, showsLater⟩
  refine ⟨labels ++ others, ?_, ?_⟩
  · intro label member
    rcases List.mem_append.mp member with first | second
    · exact own label first
    · exact otherOwn label second
  · rw [run_append]
    exact showsLater

theorem Reaches.of_step {label : SchedulerLabel} (own : label.Of index)
    (shows : (system.step nextOccurrence label).Shows index done) :
    system.Reaches nextOccurrence index done := by
  refine ⟨[label], ?_, shows⟩
  intro other member
  rw [List.mem_singleton.mp member]
  exact own

/-- The index of a call shows in its events only. -/
theorem execute_index (call : SchedulerCall) (now : Timestamp) (locked : List Nat) (db : Database)
    (schedules : ScheduleTable) :
    (call.execute index now locked db schedules).db = (call.execute 0 now locked db schedules).db ∧
      (call.execute index now locked db schedules).schedules =
        (call.execute 0 now locked db schedules).schedules ∧
      (call.execute index now locked db schedules).call =
        (call.execute 0 now locked db schedules).call := by
  cases call with
  | claiming limit => exact ⟨rfl, rfl, rfl⟩
  | _ => exact ⟨rfl, rfl, rfl⟩

/-- Executing the statement of the call. -/
theorem Shows.execute (shows : system.Shows index done) (now : Timestamp) :
    system.Reaches nextOccurrence index (SchedulerCall.advanceBy now done) := by
  apply @Reaches.of_step _ _ _ _ (.execute index now []) rfl
  have same := @execute_index index done.call now [] done.db done.schedules
  simp only [step, SchedulerCall.advanceBy, shows.call, shows.db, shows.schedules]
  exact ⟨same.1, same.2.1, (Function.update_self _ _ _).trans (congrArg some same.2.2)⟩

/-- Going on after the claim or after an advance. -/
theorem Shows.resume (shows : system.Shows index done) (clock : Timestamp)
    {due : List DueScheduleRow} (taking : done.call = .taking due) :
    system.Reaches nextOccurrence index
      { done with call := SchedulerCall.take nextOccurrence (millis clock) due } := by
  apply @Reaches.of_step _ _ _ _ (.resume index clock) rfl
  simp only [step, shows.call, taking, SchedulerCall.resume]
  exact ⟨shows.db, shows.schedules, Function.update_self _ _ _⟩

/-- Ending by an error. -/
theorem Shows.crash (shows : system.Shows index done) :
    system.Reaches nextOccurrence index { done with call := .finished } := by
  apply @Reaches.of_step _ _ _ _ (.crash index) rfl
  simp only [step, shows.call]
  exact ⟨shows.db, shows.schedules, Function.update_self _ _ _⟩

/-- The events do not show in the system. -/
theorem Reaches.events (reaches : system.Reaches nextOccurrence index done)
    (events : List SchedulerEvent) :
    system.Reaches nextOccurrence index { done with events := events } := by
  rcases reaches with ⟨labels, own, shows⟩
  exact ⟨labels, own, shows.db, shows.schedules, shows.call⟩

end SchedulerSystem

/-- An iteration is taken by steps of its call. -/
theorem SchedulerCall.iterate_reached {nextOccurrence : String -> String -> Int -> Option Int}
    {index : Nat} {system : SchedulerSystem} {iteration : Iteration} {due : List DueScheduleRow}
    {done : Iterated} (shows : system.Shows index done) (taking : done.call = .taking due) :
    system.Reaches nextOccurrence index
      (iterate nextOccurrence iteration due done.db done.schedules) := by
  apply (shows.resume iteration.clock taking).trans
  intro next showsNext
  unfold iterate
  split
  · rename_i row key nextRunAt rest isTake
    rw [isTake] at showsNext
    split
    · exact showsNext.crash.events []
    · exact ((showsNext.execute iteration.insertedAt).trans
        (fun later showsLater => showsLater.execute iteration.advancedAt)).events _
  · exact (showsNext.execute iteration.advancedAt).events _

/-- A tick that has claimed its schedules is taken by steps of its call. -/
theorem SchedulerCall.loop_reached {nextOccurrence : String -> String -> Int -> Option Int}
    {index : Nat} {system : SchedulerSystem} (iterations : Nat -> Iteration)
    {due : List DueScheduleRow} {done : Iterated} (shows : system.Shows index done)
    (taking : done.call = .taking due) :
    system.Reaches nextOccurrence index
      (loop nextOccurrence iterations due done.db done.schedules) := by
  induction due generalizing system done with
  | nil => exact (shows.resume 0 taking).events []
  | cons row rest inductionHypothesis =>
      apply (iterate_reached shows taking).trans
      intro next showsNext
      unfold loop
      dsimp only
      split
      · rename_i others taken
        have isRest : others = rest := by
          by_cases throws : row.Throws nextOccurrence (iterations row.id) done.db
          · rw [iterate_throws throws] at taken
            cases taken
          · rw [(iterate_passes throws).call] at taken
            exact (SchedulerCall.taking.inj taken).symm
        exact (inductionHypothesis showsNext (isRest ▸ taken)).events _
      · exact ⟨[], fun _ member => absurd member List.not_mem_nil, showsNext⟩

/-! ## One tick -/

/-- No healthy schedule comes after one that throws. -/
def NoneBehind (nextOccurrence : String -> String -> Int -> Option Int)
    (iterations : Nat -> Iteration) (db : Database) (due : List DueScheduleRow) : Prop :=
  due.Pairwise (fun earlier later => earlier.Throws nextOccurrence (iterations earlier.id) db ->
    Not (later.Healthy nextOccurrence (iterations later.id) db))

/-- Every healthy schedule is processed. -/
def Completes (nextOccurrence : String -> String -> Int -> Option Int)
    (iterations : Nat -> Iteration) (db : Database) (due : List DueScheduleRow)
    (events : List SchedulerEvent) : Prop :=
  forall row, row ∈ due -> row.Healthy nextOccurrence (iterations row.id) db ->
    row.Processed nextOccurrence (millis (iterations row.id).clock) db events

namespace SchedulerCall

variable {nextOccurrence : String -> String -> Int -> Option Int}
  {iterations : Nat -> Iteration} {row : DueScheduleRow} {rest : List DueScheduleRow}
  {db : Database} {schedules : ScheduleTable}

theorem loop_throws (throws : row.Throws nextOccurrence (iterations row.id) db) :
    loop nextOccurrence iterations (row :: rest) db schedules =
      ⟨db, schedules, .finished, []⟩ := by
  simp only [loop, iterate_throws throws]

theorem loop_passes {done : Iterated}
    (passed : Passed nextOccurrence (iterations row.id) row rest db schedules done)
    (isDone : iterate nextOccurrence (iterations row.id) (row :: rest) db schedules = done) :
    loop nextOccurrence iterations (row :: rest) db schedules =
      { loop nextOccurrence iterations rest done.db done.schedules with
        events := done.events ++
          (loop nextOccurrence iterations rest done.db done.schedules).events } := by
  simp only [loop, isDone, passed.call]

/-- A tick advances what it has claimed. -/
theorem loop_own {due : List DueScheduleRow} {other : DueScheduleRow} {kind : AdvanceKind}
    {seen : Database} {before : Option ScheduleRow} {next : Timestamp}
    (advanced : .advanced other kind seen before next ∈
      (loop nextOccurrence iterations due db schedules).events) : other ∈ due := by
  induction due generalizing db schedules with
  | nil => cases advanced
  | cons row rest inductionHypothesis =>
      by_cases throws : row.Throws nextOccurrence (iterations row.id) db
      · rw [loop_throws throws] at advanced
        cases advanced
      · have passed := @iterate_passes _ _ _ rest _ schedules throws
        rw [loop_passes passed rfl] at advanced
        rcases List.mem_append.mp advanced with first | later
        · exact passed.own other kind seen before next first ▸ List.mem_cons_self
        · exact List.mem_cons_of_mem row (inductionHypothesis later)

end SchedulerCall

/-- The iteration of one schedule does not process another. -/
theorem DueScheduleRow.processed_append_iff
    {nextOccurrence : String -> String -> Int -> Option Int} {clock : Int} {before after : Database}
    {events later : List SchedulerEvent} {row : DueScheduleRow}
    (apart : forall kind db found next, Not (.advanced row kind db found next ∈ events))
    (unmade : forall job, Not (.created row job ∈ events))
    (keys : forall queue key, occurrenceKey row.id row.plannedFor = some key ->
      (after.KeyHeld queue key <-> before.KeyHeld queue key)) :
    row.Processed nextOccurrence clock before (events ++ later) <->
      row.Processed nextOccurrence clock after later := by
  have made : row.JobMade before (events ++ later) <-> row.JobMade after later := by
    constructor
    · rintro ⟨key, isKey, held | ⟨job, member, isJob⟩⟩
      · exact ⟨key, isKey, Or.inl ((keys row.queue key isKey).mpr held)⟩
      · rcases List.mem_append.mp member with first | second
        · exact absurd first (unmade job)
        · exact ⟨key, isKey, Or.inr ⟨job, second, isJob⟩⟩
    · rintro ⟨key, isKey, held | ⟨job, member, isJob⟩⟩
      · exact ⟨key, isKey, Or.inl ((keys row.queue key isKey).mp held)⟩
      · exact ⟨key, isKey, Or.inr ⟨job, List.mem_append_right events member, isJob⟩⟩
  unfold Processed
  rw [made]
  constructor
  · rintro ⟨kind, db, found, next, member, decided⟩
    rcases List.mem_append.mp member with first | second
    · exact absurd first (apart kind db found (ofMillis next))
    · exact ⟨kind, db, found, next, second, decided⟩
  · rintro ⟨kind, db, found, next, member, decided⟩
    exact ⟨kind, db, found, next, List.mem_append_right events member, decided⟩

/-- A tick processes every healthy schedule it has claimed exactly when none of
them comes after one that throws.  The induction is on the schedules still to
come: the keys an iteration takes are its own, so the others are as healthy
after it as before. -/
theorem loop_completes_iff {nextOccurrence : String -> String -> Int -> Option Int}
    {iterations : Nat -> Iteration} {due : List DueScheduleRow}
    (distinct : (due.map DueScheduleRow.id).Nodup) (db : Database) (schedules : ScheduleTable) :
    Completes nextOccurrence iterations db due
        (SchedulerCall.loop nextOccurrence iterations due db schedules).events <->
      NoneBehind nextOccurrence iterations db due := by
  induction due generalizing db schedules with
  | nil => exact ⟨fun _ => List.Pairwise.nil, fun _ row member => absurd member List.not_mem_nil⟩
  | cons row rest inductionHypothesis =>
      have parts := List.nodup_cons.mp distinct
      unfold NoneBehind
      rw [List.pairwise_cons]
      by_cases throws : row.Throws nextOccurrence (iterations row.id) db
      · rw [SchedulerCall.loop_throws throws]
        constructor
        · intro completes
          have sick : forall other, other ∈ rest ->
              Not (other.Healthy nextOccurrence (iterations other.id) db) := by
            intro other member healthy
            rcases completes other (List.mem_cons_of_mem row member) healthy with
              ⟨_, _, _, _, impossible, _⟩
            cases impossible
          exact ⟨fun other member _ => sick other member,
            List.pairwise_of_forall_mem_list (fun _ _ other member _ => sick other member)⟩
        · rintro ⟨sick, _⟩ other member healthy
          rcases List.mem_cons.mp member with rfl | later
          · exact absurd throws healthy.2
          · exact absurd healthy (sick other later throws)
      · have passed := @SchedulerCall.iterate_passes _ _ _ rest _ schedules throws
        have apart : forall other, other ∈ rest -> row.id ≠ other.id :=
          fun other member same => parts.1 (List.mem_map.mpr ⟨other, member, same.symm⟩)
        have sameThrows : forall other, other ∈ rest ->
            (other.Throws nextOccurrence (iterations other.id) _ <->
              other.Throws nextOccurrence (iterations other.id) db) :=
          fun other member =>
            @SchedulerCall.throws_iterate_iff _ (iterations row.id) _ _ _ rest db schedules
              (apart other member)
        have later := inductionHypothesis parts.2
          (SchedulerCall.iterate nextOccurrence (iterations row.id) (row :: rest) db schedules).db
          (SchedulerCall.iterate nextOccurrence (iterations row.id) (row :: rest) db
            schedules).schedules
        have samePairs : NoneBehind nextOccurrence iterations _ rest <->
            NoneBehind nextOccurrence iterations db rest :=
          List.Pairwise.iff_of_mem (fun earlierMem laterMem => imp_congr
            (sameThrows _ earlierMem)
            (not_congr (and_congr_right (fun _ => not_congr (sameThrows _ laterMem)))))
        rw [samePairs] at later
        rw [SchedulerCall.loop_passes passed rfl]
        have unhandled : forall other, other ∈ rest -> forall kind seen before next,
            Not (.advanced other kind seen before next ∈ (SchedulerCall.iterate nextOccurrence
              (iterations row.id) (row :: rest) db schedules).events) :=
          fun other member kind seen before next advanced =>
            apart other member (congrArg DueScheduleRow.id
              (passed.own other kind seen before next advanced)).symm
        have unmade : forall other, other ∈ rest -> forall job,
            Not (.created other job ∈ (SchedulerCall.iterate nextOccurrence
              (iterations row.id) (row :: rest) db schedules).events) :=
          fun other member job created =>
            apart other member (congrArg DueScheduleRow.id (passed.ownJob other job created)).symm
        have keys : forall other, other ∈ rest -> forall queue key,
            occurrenceKey other.id other.plannedFor = some key ->
              (Database.KeyHeld (SchedulerCall.iterate nextOccurrence
                (iterations row.id) (row :: rest) db schedules).db queue key <->
                  db.KeyHeld queue key) :=
          fun other member queue key isKey => passed.keys queue key
            (fun same => apart other member (occurrenceKey_inj same isKey).1)
        constructor
        · intro completes
          refine ⟨fun _ _ thrown => absurd thrown throws, later.mp ?_⟩
          intro other member healthy
          have stillHealthy : other.Healthy nextOccurrence (iterations other.id) db :=
            ⟨healthy.1, fun thrown => healthy.2 ((sameThrows other member).mpr thrown)⟩
          exact (DueScheduleRow.processed_append_iff (unhandled other member)
            (unmade other member) (keys other member)).mp
              (completes other (List.mem_cons_of_mem row member) stillHealthy)
        · rintro ⟨_, behind⟩ other member healthy
          rcases List.mem_cons.mp member with rfl | inRest
          · rcases passed.advanced with ⟨next, _, kind, before, decided, _, advanced, fired⟩
            refine ⟨kind, _, before, next, List.mem_append_left _ advanced, decided, ?_⟩
            intro isFired
            rcases fired isFired with ⟨there, key, isKey, held | ⟨job, created, isJob⟩⟩
            · exact ⟨there, key, isKey, Or.inl held⟩
            · exact ⟨there, key, isKey, Or.inr ⟨job, List.mem_append_left _ created, isJob⟩⟩
          · have stillHealthy : other.Healthy nextOccurrence (iterations other.id) _ :=
              ⟨healthy.1, fun thrown => healthy.2 ((sameThrows other inRest).mp thrown)⟩
            exact (DueScheduleRow.processed_append_iff (unhandled other inRest)
              (unmade other inRest) (keys other inRest)).mpr
                (later.mpr behind other inRest stillHealthy)

/-! ## What a tick does to the schedules -/

/-- Each row that is found was there before, just as due, or has been put off
beyond the time. -/
def PutsOff (now : Timestamp) (before after : ScheduleTable) : Prop :=
  forall id new, after.find id = some new -> Exists fun row : ScheduleRow =>
    before.find id = some row ∧
      ((new.enabled = row.enabled ∧ new.nextRunAt = row.nextRunAt) ∨ now < new.nextRunAt)

theorem PutsOff.trans {now : Timestamp} {first second third : ScheduleTable}
    (one : PutsOff now first second) (two : PutsOff now second third) :
    PutsOff now first third := by
  intro id new found
  rcases two id new found with ⟨between, foundBetween, same | late⟩
  · rcases one id between foundBetween with ⟨row, foundRow, still | late⟩
    · exact ⟨row, foundRow, Or.inl ⟨same.1.trans still.1, same.2.trans still.2⟩⟩
    · exact ⟨row, foundRow, Or.inr (same.2 ▸ late)⟩
  · rcases one id between foundBetween with ⟨row, foundRow, _⟩
    exact ⟨row, foundRow, Or.inr late⟩

theorem PutsOff.of_update {now : Timestamp} {table : ScheduleTable} {hits : ScheduleRow -> Bool}
    {change : ScheduleChange}
    (sets : forall row, ((change.set row).enabled = row.enabled ∧
      (change.set row).nextRunAt = row.nextRunAt) ∨ now < (change.set row).nextRunAt) :
    PutsOff now table (table.update hits change) := by
  intro id new found
  rw [ScheduleTable.find_update] at found
  rcases Option.map_eq_some_iff.mp found with ⟨row, foundRow, rfl⟩
  refine ⟨row, foundRow, ?_⟩
  unfold ScheduleTable.rewrite
  split
  · exact sets row
  · exact Or.inl ⟨rfl, rfl⟩

section Later

variable {nextOccurrence : String -> String -> Int -> Option Int}
  (after : forall cron timezone clock next,
    nextOccurrence cron timezone clock = some next -> clock < next)
include after

/-- A schedule is always advanced beyond the clock. -/
theorem DueScheduleRow.Decided.later {clock nextRunAt : Int} {row : DueScheduleRow}
    {kind : AdvanceKind} (decided : row.Decided nextOccurrence clock kind nextRunAt) :
    clock < nextRunAt := by
  unfold DueScheduleRow.Decided at decided
  cases isNext : nextOccurrence row.cron row.timezone clock with
  | none =>
      rw [isNext] at decided
      rw [decided.2]
      omega
  | some next =>
      rw [isNext] at decided
      rw [decided.2]
      exact after _ _ _ _ isNext

variable {iterations : Nat -> Iteration} {now : Timestamp}
  (forward : forall id, now ≤ (iterations id).clock)
include forward

theorem SchedulerCall.Passed.putsOff {row : DueScheduleRow} {rest : List DueScheduleRow}
    {db : Database} {schedules : ScheduleTable} {done : Iterated}
    (passed : Passed nextOccurrence (iterations row.id) row rest db schedules done) :
    PutsOff now schedules done.schedules ∧
      forall new, done.schedules.find row.id = some new -> now < new.nextRunAt := by
  rcases passed.advanced with ⟨nextRunAt, jobId, kind, before, decided, isAdvance, _⟩
  have late : now < ofMillis nextRunAt :=
    Int.lt_of_le_of_lt (forward row.id) (millis_lt_iff.mp (decided.later after))
  rw [isAdvance]
  constructor
  · exact .of_update (fun _ => Or.inr late)
  · intro new found
    unfold advanceSchedule at found
    rw [ScheduleTable.find_update] at found
    rcases Option.map_eq_some_iff.mp found with ⟨old, foundOld, rfl⟩
    rw [ScheduleTable.rewrite_of_id (ScheduleTable.find_eq_some_iff.mp foundOld).2]
    exact late

theorem SchedulerCall.loop_putsOff (due : List DueScheduleRow) (db : Database)
    (schedules : ScheduleTable) :
    PutsOff now schedules (loop nextOccurrence iterations due db schedules).schedules := by
  induction due generalizing db schedules with
  | nil => exact fun _ new found => ⟨new, found, Or.inl ⟨rfl, rfl⟩⟩
  | cons row rest inductionHypothesis =>
      by_cases throws : row.Throws nextOccurrence (iterations row.id) db
      · rw [loop_throws throws]
        exact fun _ new found => ⟨new, found, Or.inl ⟨rfl, rfl⟩⟩
      · have passed := @iterate_passes _ _ _ rest _ schedules throws
        rw [loop_passes passed rfl]
        exact (passed.putsOff after forward).1.trans (inductionHypothesis _ _)

/-- The first schedule is put off unless its iteration throws. -/
theorem SchedulerCall.loop_head {row : DueScheduleRow} {rest : List DueScheduleRow} {db : Database}
    {schedules : ScheduleTable} (passes : Not (row.Throws nextOccurrence (iterations row.id) db))
    {new : ScheduleRow}
    (found : (loop nextOccurrence iterations (row :: rest) db schedules).schedules.find row.id =
      some new) : now < new.nextRunAt := by
  have passed := @iterate_passes _ _ _ rest _ schedules passes
  rw [loop_passes passed rfl] at found
  rcases loop_putsOff after forward rest _ _ row.id new found with ⟨between, foundBetween, kept | late⟩
  · rw [kept.2]
    exact (passed.putsOff after forward).2 between foundBetween
  · exact late

end Later

/-- A tick leaves the schedules alone that it has not claimed. -/
theorem SchedulerCall.loop_find {nextOccurrence : String -> String -> Int -> Option Int}
    {iterations : Nat -> Iteration} {due : List DueScheduleRow} {id : Nat}
    (unclaimed : forall row, row ∈ due -> row.id ≠ id) (db : Database) (schedules : ScheduleTable) :
    (loop nextOccurrence iterations due db schedules).schedules.find id = schedules.find id := by
  induction due generalizing db schedules with
  | nil => rfl
  | cons row rest inductionHypothesis =>
      by_cases throws : row.Throws nextOccurrence (iterations row.id) db
      · rw [loop_throws throws]
      · have passed := @iterate_passes _ _ _ rest _ schedules throws
        rw [loop_passes passed rfl]
        rw [inductionHypothesis (fun other member => unclaimed other (List.mem_cons_of_mem row member))]
        rcases passed.advanced with ⟨nextRunAt, jobId, kind, before, _, isAdvance, _⟩
        rw [isAdvance]
        unfold advanceSchedule
        rw [ScheduleTable.find_update]
        cases found : schedules.find id with
        | none => rfl
        | some old =>
            exact congrArg some (ScheduleTable.rewrite_of_ne
              (ScheduleTable.find_eq_some_iff.mp found).2 (unclaimed row List.mem_cons_self))

/-! ## What a tick claims -/

/-- The schedule is due. -/
def ScheduleRow.Due (now : Timestamp) (row : ScheduleRow) : Prop :=
  row.enabled = true ∧ row.nextRunAt ≤ now

theorem ScheduleTable.nodup_ids (table : ScheduleTable) :
    (table.rows.map ScheduleRow.id).Nodup := by
  have unique := table.primaryKey
  rwa [UniqueRows.UniqueOn, show (fun row : ScheduleRow => some row.id) = some ∘ ScheduleRow.id from rfl,
    List.filterMap_eq_map] at unique

/-- The due schedules by the time of their next occurrence. -/
def dueInOrder (now : Timestamp) (table : ScheduleTable) : List ScheduleRow :=
  (table.rows.filter (fun row => row.enabled && decide (row.nextRunAt ≤ now))).insertionSort
    (fun first second => first.nextRunAt ≤ second.nextRunAt)

theorem mem_dueInOrder {now : Timestamp} {table : ScheduleTable} {row : ScheduleRow} :
    row ∈ dueInOrder now table <-> row ∈ table.rows ∧ row.Due now := by
  unfold dueInOrder ScheduleRow.Due
  rw [List.mem_insertionSort, List.mem_filter, Bool.and_eq_true, decide_eq_true_iff]

theorem dueSchedules_eq (limit : Nat) (now : Timestamp) (table : ScheduleTable) :
    dueSchedules limit [] now table =
      ((dueInOrder now table).take limit).map ScheduleRow.id := by
  unfold dueSchedules dueInOrder
  simp only [List.contains_nil, Bool.not_false, List.filter_true, List.map_take]

/-- A schedule that is due and not claimed finds the batch full, and everything
in it due no later. -/
theorem dueSchedules_first {limit : Nat} {now : Timestamp} {table : ScheduleTable}
    {waiting : ScheduleRow} (member : waiting ∈ table.rows) (isDue : waiting.Due now)
    (left : Not (waiting.id ∈ dueSchedules limit [] now table)) :
    limit ≤ (dueSchedules limit [] now table).length ∧
      forall row, row ∈ table.rows -> row.id ∈ dueSchedules limit [] now table ->
        row.nextRunAt ≤ waiting.nextRunAt := by
  have present := mem_dueInOrder.mpr ⟨member, isDue⟩
  have ordered : (dueInOrder now table).Pairwise
      (fun first second => first.nextRunAt ≤ second.nextRunAt) :=
    List.pairwise_insertionSort _ _
  rw [dueSchedules_eq] at left ⊢
  rw [← List.take_append_drop limit (dueInOrder now table)] at present ordered
  have dropped : waiting ∈ (dueInOrder now table).drop limit := by
    rcases List.mem_append.mp present with taken | dropped
    · exact absurd (List.mem_map_of_mem taken) left
    · exact dropped
  constructor
  · have long := List.length_pos_of_mem dropped
    rw [List.length_drop] at long
    rw [List.length_map, List.length_take]
    omega
  · intro row rowMem chosen
    rcases List.mem_map.mp chosen with ⟨other, taken, same⟩
    have otherMem := (mem_dueInOrder.mp (List.mem_of_mem_take taken)).1
    rw [← table.primaryKey.eq_of_key otherMem rowMem rfl (congrArg some same.symm)]
    exact (List.pairwise_append.mp ordered).2.2 other taken waiting dropped

/-! ## Ticks without end -/

/-- A tick, with all that its surroundings decide.  The batch is not empty, the
clock does not go back, and the jobs may change in the meantime. -/
structure TickLabel where
  limit : Nat
  positive : 0 < limit
  now : Timestamp
  arrange : List DueScheduleRow -> List DueScheduleRow
  permutes : forall rows, (arrange rows).Perm rows
  iterations : Nat -> Iteration
  forward : forall id, now ≤ (iterations id).clock
  meanwhile : Database -> Database

structure SchedulerTables where
  db : Database
  schedules : ScheduleTable

namespace TickLabel

/-- The rows the claim returns. -/
def claimed (label : TickLabel) (tables : SchedulerTables) : List DueScheduleRow :=
  label.arrange (claimDueSchedules label.limit [] label.now tables.schedules).2

/-- `Scheduler.tick`. -/
def tick (nextOccurrence : String -> String -> Int -> Option Int) (label : TickLabel)
    (tables : SchedulerTables) : Iterated :=
  SchedulerCall.loop nextOccurrence label.iterations (label.claimed tables)
    (label.meanwhile tables.db)
    (claimDueSchedules label.limit [] label.now tables.schedules).1

theorem mem_claimed {label : TickLabel} {tables : SchedulerTables} {due : DueScheduleRow} :
    due ∈ label.claimed tables <-> Exists fun row : ScheduleRow =>
      row ∈ tables.schedules.rows ∧
        row.id ∈ dueSchedules label.limit [] label.now tables.schedules ∧ row.due = due := by
  unfold claimed claimDueSchedules
  rw [(label.permutes _).mem_iff, List.mem_map]
  simp only [List.mem_filter, List.contains_iff_mem, and_assoc]

theorem nodup_claimed (label : TickLabel) (tables : SchedulerTables) :
    ((label.claimed tables).map DueScheduleRow.id).Nodup := by
  unfold claimed claimDueSchedules
  rw [((label.permutes _).map _).nodup_iff, List.map_map]
  exact (tables.schedules.nodup_ids).sublist ((List.filter_sublist).map ScheduleRow.id)

/-- The schedule keeps its place unless it is claimed. -/
theorem find_tick {nextOccurrence : String -> String -> Int -> Option Int} {label : TickLabel}
    {tables : SchedulerTables} {row : ScheduleRow} (member : row ∈ tables.schedules.rows)
    (unclaimed : Not (row.due ∈ label.claimed tables)) :
    row ∈ (label.tick nextOccurrence tables).schedules.rows := by
  have passedBy : Not (row.id ∈ dueSchedules label.limit [] label.now tables.schedules) :=
    fun chosen => unclaimed (mem_claimed.mpr ⟨row, member, chosen, rfl⟩)
  have found : (label.tick nextOccurrence tables).schedules.find row.id = some row := by
    unfold tick
    rw [SchedulerCall.loop_find]
    · unfold claimDueSchedules
      dsimp only
      rw [ScheduleTable.find_update, ScheduleTable.find_eq_some_iff.mpr ⟨member, rfl⟩,
        Option.map_some, ScheduleTable.rewrite,
        if_neg (fun hit => passedBy (List.contains_iff_mem.mp hit))]
    · intro due claimed same
      rcases mem_claimed.mp claimed with ⟨other, _, chosen, rfl⟩
      exact passedBy (same ▸ chosen)
  exact (ScheduleTable.find_eq_some_iff.mp found).1

/-- A tick puts schedules off or leaves them as due as they are. -/
theorem putsOff_tick {nextOccurrence : String -> String -> Int -> Option Int}
    (after : forall cron timezone clock next,
      nextOccurrence cron timezone clock = some next -> clock < next)
    (label : TickLabel) (tables : SchedulerTables) :
    PutsOff label.now tables.schedules (label.tick nextOccurrence tables).schedules := by
  have claims : PutsOff label.now tables.schedules
      (claimDueSchedules label.limit [] label.now tables.schedules).1 :=
    .of_update (fun _ => Or.inl ⟨rfl, rfl⟩)
  exact claims.trans (SchedulerCall.loop_putsOff after label.forward _ _ _)

end TickLabel

/-- The schedules that are due by a time. -/
def dueBy (bound : Timestamp) (table : ScheduleTable) : Finset Nat :=
  ((table.rows.filter (fun row => row.enabled && decide (row.nextRunAt ≤ bound))).map
    ScheduleRow.id).toFinset

theorem mem_dueBy {bound : Timestamp} {table : ScheduleTable} {id : Nat} :
    id ∈ dueBy bound table <->
      Exists fun row : ScheduleRow => table.find id = some row ∧ row.Due bound := by
  unfold dueBy ScheduleRow.Due
  simp only [List.mem_toFinset, List.mem_map, List.mem_filter, Bool.and_eq_true, decide_eq_true_iff,
    ScheduleTable.find_eq_some_iff]
  constructor
  · rintro ⟨row, ⟨member, isDue⟩, same⟩
    exact ⟨row, ⟨member, same⟩, isDue⟩
  · rintro ⟨row, ⟨member, same⟩, isDue⟩
    exact ⟨row, ⟨member, isDue⟩, same⟩

theorem PutsOff.dueBy_subset {now bound : Timestamp} {before after : ScheduleTable}
    (puts : PutsOff now before after) (reached : bound ≤ now) :
    dueBy bound after ⊆ dueBy bound before := by
  intro id member
  rcases mem_dueBy.mp member with ⟨new, found, isDue⟩
  rcases puts id new found with ⟨row, foundRow, kept | late⟩
  · exact mem_dueBy.mpr ⟨row, foundRow, kept.1 ▸ isDue.1, kept.2 ▸ isDue.2⟩
  · exact absurd (Int.le_trans isDue.2 reached) (Int.not_le.mpr late)

/-- The first schedule of the batch throws. -/
def TickLabel.HeadThrows (nextOccurrence : String -> String -> Int -> Option Int)
    (label : TickLabel) (tables : SchedulerTables) : Prop :=
  Exists fun row : DueScheduleRow => Exists fun rest : List DueScheduleRow =>
    label.claimed tables = row :: rest ∧
      row.Throws nextOccurrence (label.iterations row.id) (label.meanwhile tables.db)

/-- A tick that passes a due schedule by puts off one that was due no later,
unless the first of its batch throws. -/
theorem TickLabel.dueBy_tick_lt {nextOccurrence : String -> String -> Int -> Option Int}
    (after : forall cron timezone clock next,
      nextOccurrence cron timezone clock = some next -> clock < next)
    {label : TickLabel} {tables : SchedulerTables} {waiting : ScheduleRow}
    (member : waiting ∈ tables.schedules.rows) (isDue : waiting.Due label.now)
    (unclaimed : Not (waiting.due ∈ label.claimed tables))
    (passes : Not (label.HeadThrows nextOccurrence tables)) :
    (dueBy waiting.nextRunAt (label.tick nextOccurrence tables).schedules).card <
      (dueBy waiting.nextRunAt tables.schedules).card := by
  have left : Not (waiting.id ∈ dueSchedules label.limit [] label.now tables.schedules) :=
    fun chosen => unclaimed (TickLabel.mem_claimed.mpr ⟨waiting, member, chosen, rfl⟩)
  rcases dueSchedules_first member isDue left with ⟨full, earlier⟩
  apply Finset.card_lt_card
  cases batch : label.claimed tables with
  | nil =>
      have some : 0 < (dueSchedules label.limit [] label.now tables.schedules).length :=
        Nat.lt_of_lt_of_le label.positive full
      rcases List.exists_mem_of_length_pos some with ⟨id, chosen⟩
      rw [dueSchedules_eq] at chosen
      rcases List.mem_map.mp chosen with ⟨row, taken, rfl⟩
      have claimed : row.due ∈ label.claimed tables :=
        TickLabel.mem_claimed.mpr ⟨row, (mem_dueInOrder.mp (List.mem_of_mem_take taken)).1,
          dueSchedules_eq _ _ _ ▸ chosen, rfl⟩
      rw [batch] at claimed
      exact absurd claimed List.not_mem_nil
  | cons row rest =>
      have claimed : row ∈ label.claimed tables := by
        rw [batch]
        exact List.mem_cons_self
      rcases TickLabel.mem_claimed.mp claimed with ⟨source, sourceMem, chosen, rfl⟩
      have headPasses : Not (source.due.Throws nextOccurrence (label.iterations source.due.id)
          (label.meanwhile tables.db)) :=
        fun throws => passes ⟨_, rest, batch, throws⟩
      refine (Finset.ssubset_iff_of_subset ((label.putsOff_tick after tables).dueBy_subset isDue.2)).mpr
        ⟨source.id, mem_dueBy.mpr ⟨source, ScheduleTable.find_eq_some_iff.mpr ⟨sourceMem, rfl⟩,
          (mem_dueSchedules sourceMem chosen).1, earlier source sourceMem chosen⟩, ?_⟩
      intro still
      rcases mem_dueBy.mp still with ⟨new, found, stillDue⟩
      unfold TickLabel.tick at found
      rw [batch] at found
      have late := SchedulerCall.loop_head after label.forward headPasses found
      exact absurd (Int.le_trans stillDue.2 isDue.2) (Int.not_le.mpr late)

/-- Ticks one after another, by a clock that does not go back. -/
structure TickStream where
  ticks : Nat -> TickLabel
  forward : forall count, (ticks count).now ≤ (ticks (count + 1)).now

namespace TickStream

theorem now_le (stream : TickStream) {first second : Nat} (le : first ≤ second) :
    (stream.ticks first).now ≤ (stream.ticks second).now := by
  induction le with
  | refl => exact Int.le_refl _
  | step _ inductionHypothesis => exact Int.le_trans inductionHypothesis (stream.forward _)

/-- The tables before a tick. -/
def tables (nextOccurrence : String -> String -> Int -> Option Int) (start : SchedulerTables)
    (stream : TickStream) : Nat -> SchedulerTables :=
  stateAt (fun tables label =>
    ⟨(label.tick nextOccurrence tables).db, (label.tick nextOccurrence tables).schedules⟩)
    start stream.ticks

/-- The jobs as a tick finds them. -/
def jobs (nextOccurrence : String -> String -> Int -> Option Int) (start : SchedulerTables)
    (stream : TickStream) (count : Nat) : Database :=
  (stream.ticks count).meanwhile (stream.tables nextOccurrence start count).db

/-- The rows a tick claims. -/
def claimed (nextOccurrence : String -> String -> Int -> Option Int) (start : SchedulerTables)
    (stream : TickStream) (count : Nat) : List DueScheduleRow :=
  (stream.ticks count).claimed (stream.tables nextOccurrence start count)

/-- What the statements of a tick do. -/
def events (nextOccurrence : String -> String -> Int -> Option Int) (start : SchedulerTables)
    (stream : TickStream) (count : Nat) : List SchedulerEvent :=
  ((stream.ticks count).tick nextOccurrence (stream.tables nextOccurrence start count)).events

/-- The schedule is due at a tick and would fail neither in this one nor in any
later one. -/
structure Awaits (nextOccurrence : String -> String -> Int -> Option Int)
    (start : SchedulerTables) (stream : TickStream) (first : Nat) (row : ScheduleRow) : Prop where
  member : row ∈ (stream.tables nextOccurrence start first).schedules.rows
  isDue : row.Due (stream.ticks first).now
  healthy : forall count, first ≤ count -> row.due.Healthy nextOccurrence
    ((stream.ticks count).iterations row.id) (stream.jobs nextOccurrence start count)

/-- A schedule that fails keeps no other from being processed: not in the tick
that has claimed both, and not in all later ticks. -/
structure Unblocked (nextOccurrence : String -> String -> Int -> Option Int)
    (start : SchedulerTables) (stream : TickStream) : Prop where
  completes : forall count, Completes nextOccurrence (stream.ticks count).iterations
    (stream.jobs nextOccurrence start count) (stream.claimed nextOccurrence start count)
    (stream.events nextOccurrence start count)
  comes : forall first row, stream.Awaits nextOccurrence start first row ->
    Exists fun count : Nat => first ≤ count ∧
      row.due.Processed nextOccurrence (millis ((stream.ticks count).iterations row.id).clock)
        (stream.jobs nextOccurrence start count) (stream.events nextOccurrence start count)

/-- No tick comes to a healthy schedule behind one that throws, and those that
throw do not head every batch while a due schedule is passed by. -/
structure NeverBlocked (nextOccurrence : String -> String -> Int -> Option Int)
    (start : SchedulerTables) (stream : TickStream) : Prop where
  behind : forall count, NoneBehind nextOccurrence (stream.ticks count).iterations
    (stream.jobs nextOccurrence start count) (stream.claimed nextOccurrence start count)
  heads : forall first row, stream.Awaits nextOccurrence start first row ->
    Exists fun count : Nat => first ≤ count ∧
      (row.due ∈ stream.claimed nextOccurrence start count ∨
        Not ((stream.ticks count).HeadThrows nextOccurrence
          (stream.tables nextOccurrence start count)))

variable {nextOccurrence : String -> String -> Int -> Option Int} {start : SchedulerTables}
  {stream : TickStream} {first : Nat} {row : ScheduleRow}

/-- A schedule that awaits a tick and is passed by awaits the next one. -/
theorem Awaits.next (awaits : stream.Awaits nextOccurrence start first row)
    (unclaimed : Not (row.due ∈ stream.claimed nextOccurrence start first)) :
    stream.Awaits nextOccurrence start (first + 1) row where
  member := TickLabel.find_tick awaits.member unclaimed
  isDue := ⟨awaits.isDue.1, Int.le_trans awaits.isDue.2 (stream.forward first)⟩
  healthy := fun count later => awaits.healthy count (Nat.le_of_succ_le later)

/-- A schedule that is never processed is never claimed, and awaits every tick. -/
theorem Awaits.still (awaits : stream.Awaits nextOccurrence start first row)
    (missed : forall count, first ≤ count ->
      Not (row.due ∈ stream.claimed nextOccurrence start count))
    (count : Nat) (later : first ≤ count) : stream.Awaits nextOccurrence start count row := by
  induction later with
  | refl => exact awaits
  | step later inductionHypothesis => exact inductionHypothesis.next (missed _ later)

end TickStream

/-- In ticks without end, a schedule that fails keeps no other from being
processed exactly when no tick comes to a healthy schedule behind one that
throws, and those that throw do not head all batches that pass a due schedule
by. -/
theorem schedules_unblocked_iff {nextOccurrence : String -> String -> Int -> Option Int}
    (after : forall cron timezone clock next,
      nextOccurrence cron timezone clock = some next -> clock < next)
    (start : SchedulerTables) (stream : TickStream) :
    stream.Unblocked nextOccurrence start <-> stream.NeverBlocked nextOccurrence start := by
  have completes_iff : forall count, Completes nextOccurrence (stream.ticks count).iterations
      (stream.jobs nextOccurrence start count) (stream.claimed nextOccurrence start count)
      (stream.events nextOccurrence start count) <->
        NoneBehind nextOccurrence (stream.ticks count).iterations
          (stream.jobs nextOccurrence start count) (stream.claimed nextOccurrence start count) :=
    fun count => loop_completes_iff (TickLabel.nodup_claimed _ _) _ _
  constructor
  · intro unblocked
    refine ⟨fun count => (completes_iff count).mp (unblocked.completes count), ?_⟩
    intro first row awaits
    rcases unblocked.comes first row awaits with ⟨count, later, kind, db, before, next, advanced, _⟩
    exact ⟨count, later, Or.inl (SchedulerCall.loop_own advanced)⟩
  · intro never
    have completes := fun count => (completes_iff count).mpr (never.behind count)
    refine ⟨completes, ?_⟩
    intro first row awaits
    have reached : Exists fun count : Nat => row.due.Processed nextOccurrence
        (millis ((stream.ticks (first + count)).iterations row.id).clock)
        (stream.jobs nextOccurrence start (first + count))
        (stream.events nextOccurrence start (first + count)) := by
      apply reaches_of_measure (fun count => (dueBy row.nextRunAt
        (stream.tables nextOccurrence start (first + count)).schedules).card)
      · intro count _
        apply Finset.card_le_card
        exact (TickLabel.putsOff_tick after _ _).dueBy_subset
          (Int.le_trans awaits.isDue.2 (stream.now_le (Nat.le_add_right first count)))
      · intro count unhandled
        have missed : forall other, first ≤ other ->
            Not (row.due ∈ stream.claimed nextOccurrence start other) := by
          intro other later claimed
          rcases Nat.exists_eq_add_of_le later with ⟨distance, rfl⟩
          exact unhandled distance (completes _ row.due claimed (awaits.healthy _ later))
        have waits := awaits.still missed (first + count) (Nat.le_add_right first count)
        rcases never.heads (first + count) row waits with ⟨other, later, claimed | passes⟩
        · exact absurd claimed (missed other (by omega))
        · rcases Nat.exists_eq_add_of_le later with ⟨distance, rfl⟩
          have there := awaits.still missed (first + count + distance) (by omega)
          refine ⟨count + distance, by omega, ?_⟩
          rw [Nat.add_assoc] at there passes
          exact TickLabel.dueBy_tick_lt after there.member there.isDue
            (missed _ (Nat.le_add_right first _)) passes
    rcases reached with ⟨count, processed⟩
    exact ⟨first + count, Nat.le_add_right first count, processed⟩

/-! ## A schedule with a long queue name -/

/-- An iteration in which the database refuses nothing on its own. -/
def granted (clock : Timestamp) : Iteration := ⟨clock, clock, clock, false⟩

/-- A tick every second. -/
def tickBySecond (count : Nat) : TickLabel where
  limit := 10
  positive := by decide
  now := seconds count
  arrange := id
  permutes := fun rows => .refl rows
  iterations := fun _ => granted (seconds count)
  forward := fun _ => Int.le_refl _
  meanwhile := id

def everySecond : TickStream where
  ticks := tickBySecond
  forward := by
    intro count
    have le : (count : Int) ≤ (count + 1 : Nat) := by omega
    exact Int.mul_le_mul_of_nonneg_right le (by decide)

/-- A schedule due at the start. -/
def dueNow (id : Nat) (name queue : String) : ScheduleRow where
  id := id
  name := name
  queue := queue
  type := "send"
  payload := "\x7b\x7d"
  cron := "* * * * *"
  timezone := "UTC"
  catchupPolicy := .runOnce
  enabled := true
  nextRunAt := 0
  lastRunAt := none
  lastJobId := none
  updatedAt := 0

/-- The queue of the first has a name of 57 letters. -/
def longAndShort : ScheduleTable where
  rows := [dueNow 1 "long" "qqqqqqqqqqqqqqqqqqqqqqqqqqqqqqqqqqqqqqqqqqqqqqqqqqqqqqqqq",
    dueNow 2 "short" "mail"]
  nextId := 3
  primaryKey := by decide
  uniqueName := by decide
  identity := by decide

def longFirst : SchedulerTables := ⟨.empty [] .empty, longAndShort⟩

theorem longFirst_unblocked_iff :
    everySecond.Unblocked everyMinute longFirst <-> everySecond.NeverBlocked everyMinute longFirst :=
  schedules_unblocked_iff (fun _ _ _ _ => lt_everyMinute) _ _

/-- The second schedule as it is claimed. -/
def shortDue : DueScheduleRow := (dueNow 2 "short" "mail").due

/-- The notification for the first is refused, and the tick ends without a look
at the second. -/
theorem longFirst_blocks :
    everySecond.events everyMinute longFirst 0 = [] ∧
      Not (everySecond.Unblocked everyMinute longFirst) := by
  have nothing : everySecond.events everyMinute longFirst 0 = [] := by decide
  refine ⟨nothing, fun unblocked => ?_⟩
  have member : shortDue ∈ everySecond.claimed everyMinute longFirst 0 := by decide
  have passes : Not (shortDue.Throws everyMinute (granted (seconds 0)) (.empty [] .empty)) := by
    intro throws
    unfold DueScheduleRow.Throws at throws
    rw [show occurrenceKey shortDue.id shortDue.plannedFor =
      some "sched:2:1970-01-01T00:00:00.000Z" from by decide] at throws
    rcases throws.2.2 with impossible | refused
    · cases impossible
    · exact absurd (insertJob_occurrence_refused_iff.mp refused).2 (by decide)
  have healthy : shortDue.Healthy everyMinute (granted (seconds 0)) (.empty [] .empty) :=
    ⟨Option.some_ne_none _, passes⟩
  rcases unblocked.completes 0 shortDue member healthy with ⟨_, _, _, _, advanced, _⟩
  rw [nothing] at advanced
  cases advanced

end PgJobQ
