import PgJobQ.Scheduler.Occurrences

/-!
# Advances that get lost

An advance is computed from a clock read after the claim and written by id, with
no look at what the row holds by then.  Between the claim and the advance another
tick may claim the same occurrence and advance past it, and a resume may install
an occurrence of its own; the late advance takes both back.

`advances_kept_iff` says when this does not happen.  Nothing has moved the
schedule since the tick claimed it, or what has moved it has put the same time.
And no resume is overtaken: what has moved the schedule has read the clock
before the resume has, or has put the same time.

Which call has read which clock is not in the tables, so the history of a run
lists the readings between the statements.
-/

namespace PgJobQ

open Runs

/-- The installed occurrence has been claimed. -/
def ScheduleRow.Claimed (row : ScheduleRow) : Prop := row.lastRunAt = some row.nextRunAt

instance (row : ScheduleRow) : Decidable row.Claimed :=
  inferInstanceAs (Decidable (row.lastRunAt = some row.nextRunAt))

/-- What a write to `next_run_at` keeps.  An advance that changes it finds the
occurrence it was planned for, and no write goes back in time or drops an
occurrence that nobody has claimed.  A resume goes on from the next future
occurrence; `resumes` says whether what it passes over counts as dropped. -/
def SchedulerEvent.Kept (resumes : Bool) : SchedulerEvent -> Prop
  | advanced due _ _ (some before) nextRunAt => nextRunAt ≠ before.nextRunAt ->
      millis before.nextRunAt = due.plannedFor ∧ before.nextRunAt ≤ nextRunAt ∧ before.Claimed
  | enabledSet before nextRunAt => nextRunAt ≠ before.nextRunAt ->
      before.nextRunAt ≤ nextRunAt ∧ (resumes = true -> before.Claimed)
  | _ => True

/-- The event has changed the next occurrence of the schedule. -/
def SchedulerEvent.moves (id : Nat) : SchedulerEvent -> Bool
  | advanced due _ _ (some before) nextRunAt => due.id == id && nextRunAt != before.nextRunAt
  | enabledSet before nextRunAt => before.id == id && nextRunAt != before.nextRunAt
  | _ => false

/-- Something has changed the next occurrence of the schedule since the call
claimed it. -/
def movedSince (call id : Nat) : List SchedulerEvent -> Bool
  | [] => false
  | .claimed other :: events => other != call && movedSince call id events
  | event :: events => event.moves id || movedSince call id events

/-- A call has read its clock, or its statement has been executed. -/
inductive SchedulerNote where
  | reads (call : Nat) (clock : Int)
  | did (call : Nat) (event : SchedulerEvent)

namespace SchedulerNote

def event : SchedulerNote -> Option SchedulerEvent
  | reads _ _ => none
  | did _ event => some event

/-- What the statements have done. -/
def events (notes : List SchedulerNote) : List SchedulerEvent := notes.filterMap event

/-- The clock the call has read last. -/
def readingOf (call : Nat) : List SchedulerNote -> Option Int
  | [] => none
  | reads other clock :: notes => if other = call then some clock else readingOf call notes
  | did _ _ :: notes => readingOf call notes

/-- The clock from which the next occurrence of the schedule was computed; none
if it is the one of the start. -/
def computedFrom (id : Nat) : List SchedulerNote -> Option Int
  | [] => none
  | reads _ _ :: notes => computedFrom id notes
  | did call event :: notes =>
      if event.moves id then readingOf call notes else computedFrom id notes

end SchedulerNote

namespace SchedulerSystem

/-- Only a call that goes on with its next iteration, or with the schedule it
has read, reads the clock. -/
def note (system : SchedulerSystem) (label : SchedulerLabel) : Option SchedulerNote :=
  match label with
  | .resume index now =>
      match system.calls index with
      | some (.taking _) => some (.reads index (millis now))
      | some (.computing _ _) => some (.reads index (millis now))
      | _ => none
  | .execute index _ _ => (system.event label).map (.did index)
  | _ => none

end SchedulerSystem

abbrev NotedRun := Recorded SchedulerSystem SchedulerNote

namespace NotedRun

def step (nextOccurrence : String -> String -> Int -> Option Int) :
    NotedRun -> SchedulerLabel -> NotedRun :=
  recordStep (SchedulerSystem.step nextOccurrence) SchedulerSystem.note

def start (db : Database) (schedules : ScheduleTable) (clock : Timestamp) : NotedRun :=
  ⟨.start db schedules clock, []⟩

end NotedRun

/-- Every write of the run to `next_run_at` is kept. -/
def AllKept (resumes : Bool) (run : NotedRun) : Prop :=
  forall call event, .did call event ∈ run.history -> event.Kept resumes

/-- The condition on a call whose statement is executed.  An advance comes to a
schedule nothing has moved since its claim, or writes the time that is there.  A
resume comes to a schedule whose time was computed from a clock that was not
later than its own, or writes the time that is there; where what it passes over
counts, the time is later than its clock, or has been claimed. -/
def SchedulerCall.Alone (resumes : Bool) (index : Nat) (schedules : ScheduleTable)
    (notes : List SchedulerNote) : SchedulerCall -> Prop
  | advancing due nextRunAt _ _ _ =>
      movedSince index due.id (SchedulerNote.events notes) = true ->
        forall row, schedules.find due.id = some row -> ofMillis nextRunAt = row.nextRunAt
  | writing id _ (some nextRunAt) => forall row clock, schedules.find id = some row ->
      SchedulerNote.readingOf index notes = some clock ->
        (forall since, SchedulerNote.computedFrom id notes = some since -> clock < since ->
          ofMillis nextRunAt = row.nextRunAt) ∧
          (resumes = true -> clock < millis row.nextRunAt ∨ row.Claimed)
  | _ => True

def AdvancesAlone (resumes : Bool) (run : NotedRun) : SchedulerLabel -> Prop
  | .execute index _ _ => forall call, run.state.calls index = some call ->
      call.Alone resumes index run.state.schedules run.history
  | _ => True

/-- The clock everybody reads does not go back. -/
def ClockForward {Event : Type} (run : Recorded SchedulerSystem Event) : SchedulerLabel -> Prop
  | .execute _ now _ => run.state.clock ≤ now
  | .resume _ now => run.state.clock ≤ now
  | _ => True

instance {Event : Type} (run : Recorded SchedulerSystem Event) : DecidablePred (ClockForward run)
  | .execute _ now _ => inferInstanceAs (Decidable (run.state.clock ≤ now))
  | .resume _ now => inferInstanceAs (Decidable (run.state.clock ≤ now))
  | .tick _ _ => isTrue trivial
  | .setEnabled _ _ _ => isTrue trivial
  | .crash _ => isTrue trivial
  | .job _ => isTrue trivial

/-! ## What is known of a claimed row -/

theorem movedSince_cons {call id : Nat} {event : SchedulerEvent} {events : List SchedulerEvent}
    (notOwn : event ≠ .claimed call) :
    movedSince call id (event :: events) = (event.moves id || movedSince call id events) := by
  cases event with
  | claimed other =>
      have apart : (other != call) = true := bne_iff_ne.mpr (fun same => notOwn (congrArg _ same))
      simp only [movedSince, apart, SchedulerEvent.moves, Bool.true_and, Bool.false_or]
  | created due job => rfl
  | advanced due kind db before nextRunAt => rfl
  | enabledSet before nextRunAt => rfl

theorem movedSince_claimed (call id : Nat) (events : List SchedulerEvent) :
    movedSince call id (.claimed call :: events) = false := by
  simp only [movedSince, bne_self_eq_false, Bool.false_and]

/-- A schedule nothing has moved still holds the planned occurrence, claimed; one
that has been moved is past it. -/
structure Pending (call : Nat) (schedules : ScheduleTable) (clock : Timestamp)
    (history : List SchedulerEvent) (due : DueScheduleRow) : Prop where
  come : due.plannedFor ≤ millis clock
  row : Exists fun row : ScheduleRow => schedules.find due.id = some row ∧
    (movedSince call due.id history = false ->
      millis row.nextRunAt = due.plannedFor ∧ row.Claimed) ∧
    (movedSince call due.id history = true -> due.plannedFor < millis row.nextRunAt)

/-- The time a tick computes is past the occurrence it holds. -/
def SchedulerCall.Ahead : SchedulerCall -> Prop
  | inserting row _ nextRunAt _ => row.plannedFor < nextRunAt
  | advancing row nextRunAt _ _ _ => row.plannedFor < nextRunAt
  | _ => True

theorem millis_le {first second : Timestamp} (le : first ≤ second) :
    millis first ≤ millis second :=
  Int.ediv_le_ediv (by decide) le

theorem millis_lt_iff {time : Timestamp} {next : Int} :
    millis time < next <-> time < ofMillis next :=
  Int.ediv_lt_iff_lt_mul (by decide)

theorem ofMillis_le_iff {first second : Int} : ofMillis first ≤ ofMillis second <-> first ≤ second := by
  rw [← Int.not_lt, ← millis_lt_iff, millis_ofMillis, Int.not_lt]

theorem ofMillis_inj {first second : Int} : ofMillis first = ofMillis second <-> first = second := by
  constructor
  · intro same
    rw [← millis_ofMillis first, same, millis_ofMillis]
  · exact congrArg ofMillis

theorem Pending.clock {call : Nat} {schedules : ScheduleTable} {clock now : Timestamp}
    {history : List SchedulerEvent} {due : DueScheduleRow}
    (pending : Pending call schedules clock history due) (forward : clock ≤ now) :
    Pending call schedules now history due :=
  ⟨pending.come.trans (millis_le forward), pending.row⟩

/-! ## What a statement does to a schedule -/

/-- A statement leaves the occurrence of a row alone, or puts a later one. -/
def ScheduleRow.Onward (moved : Bool) (row new : ScheduleRow) : Prop :=
  match moved with
  | false => new.nextRunAt = row.nextRunAt ∧ (row.Claimed -> new.Claimed)
  | true => millis row.nextRunAt < millis new.nextRunAt

theorem ScheduleRow.Onward.refl (row : ScheduleRow) : row.Onward false row :=
  ⟨rfl, fun claimed => claimed⟩

/-- Putting a time that is not earlier. -/
theorem ScheduleRow.Onward.put {row new : ScheduleRow} {nextRunAt : Int}
    (isNext : new.nextRunAt = ofMillis nextRunAt) (sameLast : new.lastRunAt = row.lastRunAt)
    (later : ofMillis nextRunAt ≠ row.nextRunAt -> row.nextRunAt ≤ ofMillis nextRunAt) :
    row.Onward (ofMillis nextRunAt != row.nextRunAt) new := by
  by_cases same : ofMillis nextRunAt = row.nextRunAt
  · rw [same, bne_self_eq_false]
    refine ⟨isNext.trans same, fun claimed => ?_⟩
    unfold ScheduleRow.Claimed at claimed ⊢
    rw [sameLast, isNext, same]
    exact claimed
  · rw [bne_iff_ne.mpr same]
    have lt := lt_of_le_of_ne (later same) (Ne.symm same)
    unfold ScheduleRow.Onward
    dsimp only
    rw [isNext, millis_ofMillis]
    exact millis_lt_iff.mpr lt

theorem ScheduleTable.find_update_some {table : ScheduleTable} {hits : ScheduleRow -> Bool}
    {change : ScheduleChange} {id : Nat} {row : ScheduleRow} (found : table.find id = some row) :
    (table.update hits change).find id = some (rewrite hits change row) := by
  rw [find_update, found]
  rfl

theorem ScheduleTable.rewrite_of_ne {change : ScheduleChange} {id other : Nat} {row : ScheduleRow}
    (isRow : row.id = id) (apart : other ≠ id) :
    rewrite (fun found => found.id == other) change row = row := by
  rw [rewrite, isRow, beq_false_of_ne (Ne.symm apart)]
  rfl

theorem ScheduleTable.rewrite_of_id {change : ScheduleChange} {id : Nat} {row : ScheduleRow}
    (isRow : row.id = id) : rewrite (fun found => found.id == id) change row = change.set row := by
  rw [rewrite, isRow, beq_self_eq_true]
  rfl

section Onward

variable {resumes : Bool} {index : Nat} {now : Timestamp} {locked : List Nat} {db : Database}
variable {schedules : ScheduleTable} {id : Nat} {row : ScheduleRow}

/-- The statement that advances a schedule moves its own and no other. -/
theorem SchedulerCall.advancing_onward {due : DueScheduleRow} {nextRunAt : Int}
    {jobId : Option Nat} {kind : AdvanceKind} {rest : List DueScheduleRow}
    (found : schedules.find id = some row)
    (kept : forall event, ((advancing due nextRunAt jobId kind rest).execute index now locked db
      schedules).event = some event -> event.Kept resumes) :
    Exists fun new : ScheduleRow =>
      ((advancing due nextRunAt jobId kind rest).execute index now locked db
          schedules).schedules.find id = some new ∧
        row.Onward (((advancing due nextRunAt jobId kind rest).execute index now locked db
          schedules).event.any (SchedulerEvent.moves id)) new := by
  have isRow := (ScheduleTable.find_eq_some_iff.mp found).2
  refine ⟨_, ScheduleTable.find_update_some found, ?_⟩
  by_cases same : due.id = id
  · have event : (advancing due nextRunAt jobId kind rest).execute index now locked db schedules =
        ⟨db, advanceSchedule due.id nextRunAt jobId now schedules, taking rest,
          some (.advanced due kind db (some row) (ofMillis nextRunAt))⟩ := by
      rw [SchedulerCall.execute, same, found]
    rw [event] at kept ⊢
    rw [ScheduleTable.rewrite_of_id (isRow.trans same.symm)]
    simp only [Option.any_some, SchedulerEvent.moves, same, beq_self_eq_true, Bool.true_and]
    exact .put rfl rfl (fun apart => (kept _ rfl apart).2.1)
  · rw [ScheduleTable.rewrite_of_ne isRow same]
    have quiet : SchedulerEvent.moves id (.advanced due kind db (schedules.find due.id)
        (ofMillis nextRunAt)) = false := by
      cases schedules.find due.id with
      | none => rfl
      | some other => simp only [SchedulerEvent.moves, beq_false_of_ne same, Bool.false_and]
    simp only [SchedulerCall.execute, Option.any_some, quiet]
    exact .refl row

/-- So does the statement of `setEnabled`. -/
theorem SchedulerCall.writing_onward {other : Nat} {enabled : Bool} {nextRunAt : Option Int}
    (found : schedules.find id = some row)
    (kept : forall event, ((writing other enabled nextRunAt).execute index now locked db
      schedules).event = some event -> event.Kept resumes) :
    Exists fun new : ScheduleRow =>
      ((writing other enabled nextRunAt).execute index now locked db schedules).schedules.find id =
          some new ∧
        row.Onward (((writing other enabled nextRunAt).execute index now locked db
          schedules).event.any (SchedulerEvent.moves id)) new := by
  have isRow := (ScheduleTable.find_eq_some_iff.mp found).2
  refine ⟨_, ScheduleTable.find_update_some found, ?_⟩
  by_cases same : other = id
  · subst same
    have event : (writing other enabled nextRunAt).execute index now locked db schedules =
        ⟨db, setScheduleEnabled other enabled nextRunAt now schedules, finished,
          some (.enabledSet row ((nextRunAt.map ofMillis).getD row.nextRunAt))⟩ := by
      rw [SchedulerCall.execute, found]
      rfl
    rw [event] at kept ⊢
    rw [ScheduleTable.rewrite_of_id isRow]
    simp only [Option.any_some, SchedulerEvent.moves, isRow, beq_self_eq_true, Bool.true_and]
    cases nextRunAt with
    | none =>
        simp only [Option.map_none, Option.getD_none, bne_self_eq_false]
        exact ⟨rfl, fun claimed => claimed⟩
    | some time => exact .put rfl rfl (fun apart => (kept _ rfl apart).1)
  · rw [ScheduleTable.rewrite_of_ne isRow same]
    have quiet : ((writing other enabled nextRunAt).execute index now locked db
        schedules).event.any (SchedulerEvent.moves id) = false := by
      rw [SchedulerCall.execute]
      cases present : schedules.find other with
      | none => rfl
      | some before =>
          have isBefore := (ScheduleTable.find_eq_some_iff.mp present).2
          simp only [Option.map_some, Option.any_some, SchedulerEvent.moves, isBefore,
            beq_false_of_ne same, Bool.false_and]
    rw [quiet]
    exact .refl row

theorem SchedulerCall.execute_onward {call : SchedulerCall} (found : schedules.find id = some row)
    (kept : forall event, (call.execute index now locked db schedules).event = some event ->
      event.Kept resumes) :
    Exists fun new : ScheduleRow =>
      (call.execute index now locked db schedules).schedules.find id = some new ∧
        row.Onward ((call.execute index now locked db schedules).event.any
          (SchedulerEvent.moves id)) new := by
  cases call with
  | claiming limit =>
      refine ⟨_, ScheduleTable.find_update_some found, ?_⟩
      unfold ScheduleTable.rewrite
      split
      · exact ⟨rfl, fun _ => rfl⟩
      · exact .refl row
  | advancing due nextRunAt jobId kind rest => exact advancing_onward found kept
  | writing other enabled nextRunAt => exact writing_onward found kept
  | inserting due key nextRunAt rest =>
      unfold execute
      dsimp only
      split
      · rename_i reply inserted
        refine ⟨row, found, ?_⟩
        cases reply.rows.head? with
        | none => exact .refl row
        | some job => exact .refl row
      · exact ⟨row, found, .refl row⟩
  | reading other enabled =>
      unfold execute
      dsimp only
      split
      · exact ⟨row, found, .refl row⟩
      · exact ⟨row, found, .refl row⟩
  | taking rest => exact ⟨row, found, .refl row⟩
  | computing existing enabled => exact ⟨row, found, .refl row⟩
  | finished => exact ⟨row, found, .refl row⟩

end Onward

/-- The frame of a pending row: the schedule moves on by a statement of another
call, or of the same call after its claim. -/
theorem Pending.onward {call : Nat} {schedules after : ScheduleTable} {clock : Timestamp}
    {history : List SchedulerEvent} {due : DueScheduleRow} {event : Option SchedulerEvent}
    (pending : Pending call schedules clock history due)
    (notOwn : event ≠ some (.claimed call))
    (onward : forall row, schedules.find due.id = some row ->
      Exists fun new : ScheduleRow => after.find due.id = some new ∧
        row.Onward (event.any (SchedulerEvent.moves due.id)) new) :
    Pending call after clock (event.toList ++ history) due := by
  rcases pending with ⟨come, row, found, still, past⟩
  rcases onward row found with ⟨new, isNew, moved⟩
  have since : movedSince call due.id (event.toList ++ history) =
      (event.any (SchedulerEvent.moves due.id) || movedSince call due.id history) := by
    cases event with
    | none => rfl
    | some happened => exact movedSince_cons (fun same => notOwn (congrArg some same))
  refine ⟨come, new, isNew, ?_, ?_⟩
  · rw [since]
    intro unmoved
    rcases Bool.or_eq_false_iff.mp unmoved with ⟨now, before⟩
    rw [now] at moved
    exact ⟨by rw [moved.1]; exact (still before).1, moved.2 (still before).2⟩
  · rw [since]
    intro isMoved
    have notBefore : due.plannedFor ≤ millis row.nextRunAt := by
      cases before : movedSince call due.id history with
      | false => exact Int.le_of_eq (still before).1.symm
      | true => exact Int.le_of_lt (past before)
    cases now : event.any (SchedulerEvent.moves due.id) with
    | true =>
        rw [now] at moved
        exact Int.lt_of_le_of_lt notBefore moved
    | false =>
        rw [now] at moved isMoved
        rw [moved.1]
        exact past (by simpa only [Bool.false_or] using isMoved)

/-! ## The condition at one statement -/

/-- For a call that is past the occurrences it holds, the condition is what
keeps the write. -/
theorem SchedulerCall.alone_iff {resumes : Bool} {index : Nat} {now clock : Timestamp}
    {locked : List Nat} {db : Database} {schedules : ScheduleTable} {notes : List SchedulerNote}
    {call : SchedulerCall}
    (pending : forall due, due ∈ call.held ->
      Pending index schedules clock (SchedulerNote.events notes) due)
    (ahead : call.Ahead)
    (resumed : forall id enabled time row, call = .writing id enabled (some time) ->
      schedules.find id = some row ->
        (call.Alone resumes index schedules notes <->
          (SchedulerEvent.enabledSet row (ofMillis time)).Kept resumes)) :
    call.Alone resumes index schedules notes <->
      forall event, (call.execute index now locked db schedules).event = some event ->
        event.Kept resumes := by
  cases call with
  | advancing due nextRunAt jobId kind rest =>
      rcases (pending due List.mem_cons_self).row with ⟨row, found, still, past⟩
      have event : ((advancing due nextRunAt jobId kind rest).execute index now locked db
          schedules).event = some (.advanced due kind db (some row) (ofMillis nextRunAt)) := by
        rw [SchedulerCall.execute, found]
      rw [event]
      constructor
      · intro alone happened isEvent
        cases isEvent
        intro apart
        cases moved : movedSince index due.id (SchedulerNote.events notes) with
        | true => exact absurd (alone moved row found) apart
        | false =>
            rcases still moved with ⟨samePlan, claimed⟩
            refine ⟨samePlan, Int.le_of_lt (millis_lt_iff.mp ?_), claimed⟩
            rw [samePlan]
            exact ahead
      · intro kept moved other isOther
        rw [found] at isOther
        cases isOther
        by_contra apart
        have planned := (kept _ rfl apart).1
        have beyond := past moved
        omega
  | writing id enabled nextRunAt =>
      cases nextRunAt with
      | none =>
          refine ⟨fun _ event happened => ?_, fun _ => trivial⟩
          rcases Option.map_eq_some_iff.mp happened with ⟨before, _, rfl⟩
          exact fun apart => absurd rfl apart
      | some time =>
          constructor
          · intro alone event happened
            rcases Option.map_eq_some_iff.mp happened with ⟨before, found, rfl⟩
            exact (resumed id enabled time before rfl found).mp alone
          · intro kept row clock found reading
            exact (resumed id enabled time row rfl found).mpr
              (kept (.enabledSet row (ofMillis time))
                (Option.map_eq_some_iff.mpr ⟨row, found, rfl⟩)) row clock found reading
  | claiming limit =>
      refine ⟨fun _ event happened => ?_, fun _ => trivial⟩
      cases happened
      exact trivial
  | inserting due key nextRunAt rest =>
      refine ⟨fun _ event happened => ?_, fun _ => trivial⟩
      unfold execute at happened
      dsimp only at happened
      split at happened
      · rcases Option.map_eq_some_iff.mp happened with ⟨job, _, rfl⟩
        exact trivial
      · cases happened
  | reading id enabled =>
      refine ⟨fun _ event happened => ?_, fun _ => trivial⟩
      unfold execute at happened
      dsimp only at happened
      split at happened
      · cases happened
      · cases happened
  | taking rest => exact ⟨fun _ _ happened => (nomatch happened), fun _ => trivial⟩
  | computing existing enabled => exact ⟨fun _ _ happened => (nomatch happened), fun _ => trivial⟩
  | finished => exact ⟨fun _ _ happened => (nomatch happened), fun _ => trivial⟩

/-- Only a claim records that its call has claimed. -/
theorem SchedulerCall.execute_claimed {index other : Nat} {now : Timestamp} {locked : List Nat}
    {db : Database} {schedules : ScheduleTable} {call : SchedulerCall}
    (happened : (call.execute index now locked db schedules).event = some (.claimed other)) :
    other = index ∧ Exists fun limit : Nat => call = .claiming limit := by
  cases call with
  | claiming limit =>
      cases happened
      exact ⟨rfl, limit, rfl⟩
  | inserting due key nextRunAt rest =>
      unfold execute at happened
      dsimp only at happened
      split at happened
      · rcases Option.map_eq_some_iff.mp happened with ⟨job, _, impossible⟩
        cases impossible
      · cases happened
  | advancing due nextRunAt jobId kind rest => cases happened
  | reading id enabled =>
      unfold execute at happened
      dsimp only at happened
      split at happened
      · cases happened
      · cases happened
  | writing id enabled nextRunAt =>
      rcases Option.map_eq_some_iff.mp happened with ⟨before, _, impossible⟩
      cases impossible
  | taking rest => cases happened
  | computing existing enabled => cases happened
  | finished => cases happened

theorem SchedulerCall.ahead_take {nextOccurrence : String -> String -> Int -> Option Int}
    (after : forall cron timezone clock next,
      nextOccurrence cron timezone clock = some next -> clock < next)
    {clock : Int} {rest : List DueScheduleRow}
    (come : forall due, due ∈ rest -> due.plannedFor ≤ clock) :
    (take nextOccurrence clock rest).Ahead := by
  cases rest with
  | nil => exact trivial
  | cons row rest =>
      have reached := come row List.mem_cons_self
      unfold take
      dsimp only
      split
      · exact trivial
      · split
        · have hour : clock < clock + 3600000 := by omega
          exact Int.lt_of_le_of_lt reached hour
        · rename_i next isNext
          have later := after row.cron row.timezone clock next isNext
          split
          · exact Int.lt_of_le_of_lt reached later
          · exact Int.lt_of_le_of_lt reached later

theorem SchedulerCall.ahead_resume {nextOccurrence : String -> String -> Int -> Option Int}
    (after : forall cron timezone clock next,
      nextOccurrence cron timezone clock = some next -> clock < next)
    {clock : Int} {call : SchedulerCall} (ahead : call.Ahead)
    (come : forall due, due ∈ call.held -> due.plannedFor ≤ clock) :
    (call.resume nextOccurrence clock).Ahead := by
  cases call with
  | taking rest => exact ahead_take after come
  | computing existing enabled =>
      unfold resume
      dsimp only
      split
      · split
        · exact trivial
        · exact trivial
      · exact trivial
  | _ => exact ahead

theorem SchedulerCall.ahead_execute {index : Nat} {now : Timestamp} {locked : List Nat}
    {db : Database} {schedules : ScheduleTable} {call : SchedulerCall} (ahead : call.Ahead) :
    (call.execute index now locked db schedules).call.Ahead := by
  cases call with
  | inserting due key nextRunAt rest =>
      unfold execute
      dsimp only
      split
      · exact ahead
      · exact trivial
  | reading id enabled =>
      unfold execute
      dsimp only
      split
      · exact trivial
      · exact trivial
  | claiming limit => exact trivial
  | advancing due nextRunAt jobId kind rest => exact trivial
  | writing id enabled nextRunAt => exact trivial
  | taking rest => exact trivial
  | computing existing enabled => exact trivial
  | finished => exact trivial

/-- Only a claim adds to the rows a call holds. -/
theorem SchedulerCall.held_execute {index : Nat} {now : Timestamp} {locked : List Nat}
    {db : Database} {schedules : ScheduleTable} {call : SchedulerCall}
    (notClaim : forall limit, call ≠ .claiming limit) :
    (call.execute index now locked db schedules).call.held ⊆ call.held := by
  cases call with
  | claiming limit => exact absurd rfl (notClaim limit)
  | inserting due key nextRunAt rest =>
      unfold execute
      dsimp only
      split
      · exact List.Subset.refl _
      · exact List.nil_subset _
  | reading id enabled =>
      unfold execute
      dsimp only
      split
      · exact List.Subset.refl _
      · exact List.Subset.refl _
  | advancing due nextRunAt jobId kind rest => exact List.subset_cons_self due rest
  | writing id enabled nextRunAt => exact List.Subset.refl _
  | taking rest => exact List.Subset.refl _
  | computing existing enabled => exact List.Subset.refl _
  | finished => exact List.Subset.refl _

/-- A row that is claimed is pending. -/
theorem Pending.claim {index limit : Nat} {now : Timestamp} {locked : List Nat}
    {schedules : ScheduleTable} {history : List SchedulerEvent} {due : DueScheduleRow}
    (member : due ∈ (claimDueSchedules limit locked now schedules).2) :
    Pending index (claimDueSchedules limit locked now schedules).1 now (.claimed index :: history)
      due := by
  rcases List.mem_map.mp member with ⟨row, claimed, rfl⟩
  rcases List.mem_filter.mp claimed with ⟨listed, hit⟩
  have chosen : row.id ∈ dueSchedules limit locked now schedules := by
    simpa only [List.contains_iff_mem] using hit
  have found : schedules.find row.id = some row :=
    ScheduleTable.find_eq_some_iff.mpr ⟨listed, rfl⟩
  refine ⟨millis_le (mem_dueSchedules listed chosen).2, (claimChange now).set row, ?_, ?_, ?_⟩
  · have isHit : ScheduleTable.rewrite (fun row : ScheduleRow =>
        (dueSchedules limit locked now schedules).contains row.id) (claimChange now) row =
        (claimChange now).set row := if_pos hit
    rw [← isHit]
    exact ScheduleTable.find_update_some found
  · intro _
    exact ⟨rfl, rfl⟩
  · intro impossible
    rw [movedSince_claimed] at impossible
    cases impossible

/-! ## From which clock a time was computed -/

/-- The schedule has this expression. -/
def HasCron (schedules : ScheduleTable) (id : Nat) (cron timezone : String) : Prop :=
  Exists fun row : ScheduleRow => row ∈ schedules.rows ∧ row.id = id ∧ row.cron = cron ∧
    row.timezone = timezone

theorem HasCron.update {schedules : ScheduleTable} {id : Nat} {cron timezone : String}
    (has : HasCron schedules id cron timezone) (hits : ScheduleRow -> Bool)
    {change : ScheduleChange} (keeps : forall row : ScheduleRow,
      (change.set row).cron = row.cron ∧ (change.set row).timezone = row.timezone) :
    HasCron (schedules.update hits change) id cron timezone := by
  rcases has with ⟨row, member, sameId, sameCron, sameZone⟩
  refine ⟨_, List.mem_map_of_mem member, ?_, ?_, ?_⟩
  · exact (ScheduleTable.rewrite_id hits change row).trans sameId
  · unfold ScheduleTable.rewrite
    split
    · exact (keeps row).1.trans sameCron
    · exact sameCron
  · unfold ScheduleTable.rewrite
    split
    · exact (keeps row).2.trans sameZone
    · exact sameZone

/-- A schedule has one expression. -/
theorem HasCron.unique {schedules : ScheduleTable} {id : Nat} {cron timezone : String}
    (has : HasCron schedules id cron timezone) {other otherZone : String}
    (hasOther : HasCron schedules id other otherZone) : cron = other ∧ timezone = otherZone := by
  rcases has with ⟨row, member, sameId, rfl, rfl⟩
  rcases hasOther with ⟨second, secondMember, secondId, rfl, rfl⟩
  have same := schedules.primaryKey.eq_of_key member secondMember rfl
    (congrArg some (secondId.trans sameId.symm))
  rw [same]
  exact ⟨rfl, rfl⟩

/-- No statement changes an expression. -/
theorem SchedulerCall.execute_hasCron {index : Nat} {time : Timestamp} {locked : List Nat}
    {db : Database} {schedules : ScheduleTable} (call : SchedulerCall) {id : Nat}
    {cron timezone : String}
    (has : HasCron schedules id cron timezone) :
    HasCron (call.execute index time locked db schedules).schedules id cron timezone := by
  cases call with
  | claiming limit => exact has.update _ (fun row => ⟨rfl, rfl⟩)
  | advancing row nextRunAt jobId kind rest => exact has.update _ (fun row => ⟨rfl, rfl⟩)
  | writing id enabled nextRunAt => exact has.update _ (fun row => ⟨rfl, rfl⟩)
  | inserting row key nextRunAt rest =>
      unfold execute
      dsimp only
      split
      · exact has
      · exact has
  | reading id enabled =>
      unfold execute
      dsimp only
      split
      · exact has
      · exact has
  | taking rest => exact has
  | computing existing enabled => exact has
  | finished => exact has

/-- What is asked of the cron library: the next time is after the clock, does
not go back as the clock goes on, and whether an expression is rejected does not
depend on the clock. -/
structure CronLibrary (nextOccurrence : String -> String -> Int -> Option Int) : Prop where
  after : forall cron timezone clock next,
    nextOccurrence cron timezone clock = some next -> clock < next
  monotone : forall cron timezone clock later next after, clock ≤ later ->
    nextOccurrence cron timezone clock = some next ->
      nextOccurrence cron timezone later = some after -> next ≤ after
  uniform : forall cron timezone clock other,
    nextOccurrence cron timezone clock = none -> nextOccurrence cron timezone other = none

/-- As long as the clock has not come to the next time it stays the next time. -/
def Steady (nextOccurrence : String -> String -> Int -> Option Int) : Prop :=
  forall cron timezone clock later next, clock ≤ later -> later < next ->
    nextOccurrence cron timezone clock = some next ->
      nextOccurrence cron timezone later = some next

/-- The time was computed from the clock, or the expression is one that is
rejected. -/
def ComputedAt (nextOccurrence : String -> String -> Int -> Option Int) (cron timezone : String)
    (clock : Int) (planned : Timestamp) : Prop :=
  (Exists fun next : Int =>
    nextOccurrence cron timezone clock = some next ∧ planned = ofMillis next) ∨
    nextOccurrence cron timezone clock = none

/-- Every next occurrence of the start was computed before it. -/
def StartComputed (nextOccurrence : String -> String -> Int -> Option Int) (begins : Int)
    (schedules : ScheduleTable) : Prop :=
  forall row, row ∈ schedules.rows -> Exists fun clock : Int => clock ≤ begins ∧
    ComputedAt nextOccurrence row.cron row.timezone clock row.nextRunAt

section Reads

variable (nextOccurrence : String -> String -> Int -> Option Int) (begins : Int)
  (schedules : ScheduleTable)

/-- The schedules of the rows have their expressions. -/
def HaveCrons (due : List DueScheduleRow) : Prop :=
  forall row, row ∈ due -> HasCron schedules row.id row.cron row.timezone

/-- What a call knows of the expressions and of the time it is going to write. -/
def SchedulerCall.Reads (reading : Option Int) : SchedulerCall -> Prop
  | .taking rest => HaveCrons schedules rest
  | .inserting row _ nextRunAt rest => HaveCrons schedules (row :: rest) ∧
      Exists fun clock : Int => reading = some clock ∧
        ComputedAt nextOccurrence row.cron row.timezone clock (ofMillis nextRunAt)
  | .advancing row nextRunAt _ _ rest => HaveCrons schedules (row :: rest) ∧
      Exists fun clock : Int => reading = some clock ∧
        ComputedAt nextOccurrence row.cron row.timezone clock (ofMillis nextRunAt)
  | .computing existing _ => HasCron schedules existing.id existing.cron existing.timezone
  | .writing id _ (some nextRunAt) => Exists fun clock : Int => Exists fun cron : String =>
      Exists fun timezone : String => reading = some clock ∧ begins ≤ clock ∧
        HasCron schedules id cron timezone ∧ nextOccurrence cron timezone clock = some nextRunAt
  | _ => True

/-- Every next occurrence in the table was computed from the clock that is
noted, or before the start. -/
def RowsComputed (notes : List SchedulerNote) : Prop :=
  forall row, row ∈ schedules.rows -> Exists fun since : Int =>
    (SchedulerNote.computedFrom row.id notes = some since ∨
      (SchedulerNote.computedFrom row.id notes = none ∧ since ≤ begins)) ∧
      ComputedAt nextOccurrence row.cron row.timezone since row.nextRunAt

end Reads

section Readings

variable {nextOccurrence : String -> String -> Int -> Option Int} {begins : Int}
  {schedules after : ScheduleTable} {reading : Option Int} {call : SchedulerCall}

/-- The schedules keep their expressions. -/
theorem SchedulerCall.Reads.extends
    (reads : call.Reads nextOccurrence begins schedules reading)
    (keeps : forall id cron timezone, HasCron schedules id cron timezone ->
      HasCron after id cron timezone) : call.Reads nextOccurrence begins after reading := by
  cases call with
  | taking rest => exact fun row member => keeps _ _ _ (reads row member)
  | inserting row key nextRunAt rest =>
      exact ⟨fun row member => keeps _ _ _ (reads.1 row member), reads.2⟩
  | advancing row nextRunAt jobId kind rest =>
      exact ⟨fun row member => keeps _ _ _ (reads.1 row member), reads.2⟩
  | computing existing enabled => exact keeps _ _ _ reads
  | writing id enabled nextRunAt =>
      cases nextRunAt with
      | none => exact trivial
      | some nextRunAt =>
          rcases reads with ⟨clock, cron, timezone, isReading, later, has, isNext⟩
          exact ⟨clock, cron, timezone, isReading, later, keeps _ _ _ has, isNext⟩
  | claiming limit => exact trivial
  | reading id enabled => exact trivial
  | finished => exact trivial

/-- The next iteration of a tick, from the clock it reads. -/
theorem SchedulerCall.reads_take {clock : Int} {rest : List DueScheduleRow}
    (held : HaveCrons schedules rest) :
    (take nextOccurrence clock rest).Reads nextOccurrence begins schedules (some clock) := by
  cases rest with
  | nil => exact trivial
  | cons row rest =>
      unfold take
      dsimp only
      split
      · exact trivial
      · split
        · rename_i rejected
          exact ⟨held, clock, rfl, Or.inr rejected⟩
        · rename_i next accepted
          split <;> exact ⟨held, clock, rfl, Or.inl ⟨next, accepted, rfl⟩⟩

/-- The occurrence a resume computes from the clock it reads. -/
theorem SchedulerCall.reads_computing {clock : Int} {existing : ScheduleRow} {enabled : Bool}
    (has : HasCron schedules existing.id existing.cron existing.timezone) (forward : begins ≤ clock) :
    ((computing existing enabled).resume nextOccurrence clock).Reads nextOccurrence begins schedules
      (some clock) := by
  unfold resume
  dsimp only
  split
  · split
    · exact trivial
    · rename_i next accepted
      exact ⟨clock, existing.cron, existing.timezone, rfl, forward, has, accepted⟩
  · exact trivial

/-- What a call knows after its statement. -/
theorem SchedulerCall.reads_execute {index : Nat} {now : Timestamp} {locked : List Nat}
    {db : Database} (reads : call.Reads nextOccurrence begins schedules reading) :
    (call.execute index now locked db schedules).call.Reads nextOccurrence begins
      (call.execute index now locked db schedules).schedules reading := by
  have keeps : forall id cron timezone, HasCron schedules id cron timezone ->
      HasCron (call.execute index now locked db schedules).schedules id cron timezone :=
    fun id cron timezone has => call.execute_hasCron has
  cases call with
  | claiming limit =>
      intro due member
      rcases List.mem_map.mp member with ⟨row, claimed, rfl⟩
      exact keeps _ _ _ ⟨row, (List.mem_filter.mp claimed).1, rfl, rfl, rfl⟩
  | inserting row key nextRunAt rest =>
      unfold execute
      dsimp only
      split
      · exact reads
      · exact trivial
  | advancing row nextRunAt jobId kind rest =>
      exact fun due member => keeps _ _ _ (reads.1 due (List.mem_cons_of_mem row member))
  | reading id enabled =>
      unfold execute
      dsimp only
      cases found : schedules.find id with
      | none => exact trivial
      | some existing =>
          exact ⟨existing, (ScheduleTable.find_eq_some_iff.mp found).1, rfl, rfl, rfl⟩
  | writing id enabled nextRunAt => exact trivial
  | taking rest => exact reads
  | computing existing enabled => exact reads
  | finished => exact trivial

/-- A write of a time that was computed from the clock its call has read. -/
theorem RowsComputed.write {notes : List SchedulerNote} {index id : Nat} {event : SchedulerEvent}
    (rows : RowsComputed nextOccurrence begins schedules notes) {change : ScheduleChange}
    (sameCron : forall row : ScheduleRow,
      (change.set row).cron = row.cron ∧ (change.set row).timezone = row.timezone)
    (others : forall other, other ≠ id -> event.moves other = false)
    (written : forall row, schedules.find id = some row ->
      (event.moves id = false ∧ (change.set row).nextRunAt = row.nextRunAt) ∨
        (event.moves id = true ∧ Exists fun clock : Int =>
          SchedulerNote.readingOf index notes = some clock ∧
            ComputedAt nextOccurrence row.cron row.timezone clock (change.set row).nextRunAt)) :
    RowsComputed nextOccurrence begins (schedules.update (fun row => row.id == id) change)
      (.did index event :: notes) := by
  intro new member
  rcases List.mem_map.mp member with ⟨row, listed, rfl⟩
  rw [ScheduleTable.rewrite_id]
  unfold SchedulerNote.computedFrom
  by_cases same : row.id = id
  · subst same
    rw [ScheduleTable.rewrite_of_id rfl, (sameCron row).1, (sameCron row).2]
    rcases written row (ScheduleTable.find_eq_some_iff.mpr ⟨listed, rfl⟩) with
      ⟨still, kept⟩ | ⟨moved, clock, isReading, computed⟩
    · rw [still, kept, if_neg Bool.false_ne_true]
      exact rows row listed
    · rw [moved, if_pos rfl]
      exact ⟨clock, Or.inl isReading, computed⟩
  · rw [ScheduleTable.rewrite_of_ne rfl (Ne.symm same), others row.id same,
      if_neg Bool.false_ne_true]
    exact rows row listed

/-- A note that moves no schedule. -/
theorem RowsComputed.note {notes : List SchedulerNote} {note : SchedulerNote}
    (rows : RowsComputed nextOccurrence begins schedules notes)
    (still : forall index event, note = .did index event -> forall id, event.moves id = false) :
    RowsComputed nextOccurrence begins schedules (note :: notes) := by
  intro row member
  cases note with
  | reads call clock => exact rows row member
  | did call event =>
      unfold SchedulerNote.computedFrom
      rw [still call event rfl row.id, if_neg Bool.false_ne_true]
      exact rows row member

/-- An update that leaves the next occurrences alone. -/
theorem RowsComputed.update {notes : List SchedulerNote}
    (rows : RowsComputed nextOccurrence begins schedules notes) (hits : ScheduleRow -> Bool)
    {change : ScheduleChange} (same : forall row : ScheduleRow, row ∈ schedules.rows ->
      hits row = true -> (change.set row).cron = row.cron ∧
        (change.set row).timezone = row.timezone ∧ (change.set row).nextRunAt = row.nextRunAt) :
    RowsComputed nextOccurrence begins (schedules.update hits change) notes := by
  intro new member
  rcases List.mem_map.mp member with ⟨row, listed, rfl⟩
  rw [ScheduleTable.rewrite_id]
  unfold ScheduleTable.rewrite
  split
  · rename_i hit
    rw [(same row listed hit).1, (same row listed hit).2.1, (same row listed hit).2.2]
    exact rows row listed
  · exact rows row listed

/-- A statement executed for a call that knows what it writes. -/
theorem SchedulerCall.execute_rowsComputed {notes : List SchedulerNote} {index : Nat}
    {now : Timestamp} {locked : List Nat} {db : Database}
    (rows : RowsComputed nextOccurrence begins schedules notes)
    (reads : call.Reads nextOccurrence begins schedules (SchedulerNote.readingOf index notes)) :
    RowsComputed nextOccurrence begins (call.execute index now locked db schedules).schedules
      (((call.execute index now locked db schedules).event.map (SchedulerNote.did index)).toList ++
        notes) := by
  cases call with
  | claiming limit =>
      refine RowsComputed.note (rows.update _ fun _ _ _ => ⟨rfl, rfl, rfl⟩) ?_
      intro other event same id
      cases same
      rfl
  | inserting row key nextRunAt rest =>
      unfold execute
      dsimp only
      split
      · rename_i reply inserted
        cases listed : reply.rows.head? with
        | none => exact rows
        | some job =>
            refine RowsComputed.note rows ?_
            intro other event same id
            cases same
            rfl
      · exact rows
  | advancing row nextRunAt jobId kind rest =>
      rcases reads.2 with ⟨clock, isReading, computed⟩
      apply RowsComputed.write rows (fun _ => ⟨rfl, rfl⟩)
      · intro other apart
        cases schedules.find row.id with
        | none => rfl
        | some before => simp [SchedulerEvent.moves, Ne.symm apart]
      · intro found isFound
        have own := HasCron.unique ⟨found, (ScheduleTable.find_eq_some_iff.mp isFound).1,
          (ScheduleTable.find_eq_some_iff.mp isFound).2, rfl, rfl⟩ (reads.1 row List.mem_cons_self)
        rw [isFound]
        by_cases same : ofMillis nextRunAt = found.nextRunAt
        · exact Or.inl ⟨by simp [SchedulerEvent.moves, same], same⟩
        · refine Or.inr ⟨by simp [SchedulerEvent.moves, same], clock, isReading, ?_⟩
          rw [own.1, own.2]
          exact computed
  | writing id enabled nextRunAt =>
      unfold execute
      dsimp only
      cases isFound : schedules.find id with
      | none =>
          refine rows.update _ ?_
          intro row listed hit
          have found := ScheduleTable.find_eq_some_iff.mpr ⟨listed, beq_iff_eq.mp hit⟩
          rw [isFound] at found
          cases found
      | some before =>
          have isBefore := ScheduleTable.find_eq_some_iff.mp isFound
          apply RowsComputed.write rows (fun _ => ⟨rfl, rfl⟩)
          · intro other apart
            simp [SchedulerEvent.moves, isBefore.2, Ne.symm apart]
          · intro found isOther
            rw [isFound] at isOther
            cases isOther
            cases nextRunAt with
            | none => exact Or.inl ⟨by simp [SchedulerEvent.moves], rfl⟩
            | some time =>
                rcases reads with ⟨clock, cron, timezone, isReading, _, has, isNext⟩
                have own := HasCron.unique ⟨before, isBefore.1, isBefore.2, rfl, rfl⟩ has
                by_cases same : ofMillis time = before.nextRunAt
                · exact Or.inl ⟨by simp [SchedulerEvent.moves, same], same⟩
                · refine Or.inr ⟨by simp [SchedulerEvent.moves, isBefore.2, same], clock,
                    isReading, Or.inl ⟨time, ?_, rfl⟩⟩
                  rw [own.1, own.2]
                  exact isNext
  | reading id enabled =>
      unfold execute
      dsimp only
      split <;> exact rows
  | taking rest => exact rows
  | computing existing enabled => exact rows
  | finished => exact rows

end Readings

/-! ## Along a run -/

/-- Every row a call holds is pending, every time a tick has computed is past
its occurrence, and every write so far has been kept. -/
structure SchedulerSystem.Advancing (resumes : Bool) (system : SchedulerSystem)
    (history : List SchedulerEvent) : Prop where
  pending : forall index call, system.calls index = some call -> forall due, due ∈ call.held ->
    Pending index system.schedules system.clock history due
  ahead : forall index call, system.calls index = some call -> call.Ahead
  kept : forall event, event ∈ history -> event.Kept resumes

namespace SchedulerSystem

variable {resumes : Bool} {system : SchedulerSystem} {history : List SchedulerEvent}

theorem Advancing.start (resumes : Bool) (db : Database) (schedules : ScheduleTable)
    (clock : Timestamp) : (start db schedules clock).Advancing resumes [] where
  pending := fun _ _ impossible => by cases impossible
  ahead := fun _ _ impossible => by cases impossible
  kept := fun _ member => absurd member List.not_mem_nil

/-- One call moves, and the schedules and the others stay where they are. -/
theorem Advancing.put (advancing : system.Advancing resumes history) (index : Nat)
    {call : SchedulerCall}
    (pending : forall due, due ∈ call.held ->
      Pending index system.schedules system.clock history due)
    (ahead : call.Ahead) : (system.put index call).Advancing resumes history := by
  refine ⟨?_, ?_, advancing.kept⟩
  · intro other current present
    rcases put_cases present with ⟨rfl, rfl⟩ | ⟨_, elsewhere⟩
    · exact pending
    · exact advancing.pending other current elsewhere
  · intro other current present
    rcases put_cases present with ⟨_, rfl⟩ | ⟨_, elsewhere⟩
    · exact ahead
    · exact advancing.ahead other current elsewhere

theorem Advancing.tick (advancing : system.Advancing resumes history) {now : Timestamp}
    (forward : system.clock ≤ now) :
    Advancing resumes { system with clock := now } history where
  pending := fun index call present due member =>
    (advancing.pending index call present due member).clock forward
  ahead := advancing.ahead
  kept := advancing.kept

theorem Advancing.begin (advancing : system.Advancing resumes history) (index : Nat)
    {call : SchedulerCall} (nothing : call.held = []) (ahead : call.Ahead) :
    (system.begin index call).Advancing resumes history := by
  unfold SchedulerSystem.begin
  split
  · apply advancing.put index _ ahead
    intro due member
    rw [nothing] at member
    cases member
  · exact advancing

/-- One statement whose write is kept. -/
theorem Advancing.execute (advancing : system.Advancing resumes history) {index : Nat}
    {now : Timestamp} {locked : List Nat} {call : SchedulerCall}
    (present : system.calls index = some call) (forward : system.clock ≤ now)
    (kept : forall event,
      (call.execute index now locked system.db system.schedules).event = some event ->
        event.Kept resumes) :
    (SchedulerSystem.put { system with
        db := (call.execute index now locked system.db system.schedules).db
        schedules := (call.execute index now locked system.db system.schedules).schedules
        clock := now } index
      (call.execute index now locked system.db system.schedules).call).Advancing resumes
      ((call.execute index now locked system.db system.schedules).event.toList ++ history) := by
  have ticked := advancing.tick forward
  have onward : forall other due, Pending other system.schedules now history due ->
      (call.execute index now locked system.db system.schedules).event ≠ some (.claimed other) ->
        Pending other (call.execute index now locked system.db system.schedules).schedules now
          ((call.execute index now locked system.db system.schedules).event.toList ++ history) due :=
    fun other due pending notOwn => pending.onward notOwn
      (fun row found => SchedulerCall.execute_onward found kept)
  refine ⟨?_, ?_, ?_⟩
  · intro other current isCurrent due member
    rcases put_cases isCurrent with ⟨rfl, rfl⟩ | ⟨apart, elsewhere⟩
    · by_cases claims : Exists fun limit : Nat => call = .claiming limit
      · rcases claims with ⟨limit, rfl⟩
        exact Pending.claim member
      · have notClaim : forall limit, call ≠ .claiming limit :=
          fun limit same => claims ⟨limit, same⟩
        exact onward other due
          (ticked.pending other call present due (SchedulerCall.held_execute notClaim member))
          (fun happened => claims (SchedulerCall.execute_claimed happened).2)
    · exact onward other due (ticked.pending other current elsewhere due member)
        (fun happened => apart (SchedulerCall.execute_claimed happened).1)
  · intro other current isCurrent
    rcases put_cases isCurrent with ⟨_, rfl⟩ | ⟨_, elsewhere⟩
    · exact SchedulerCall.ahead_execute (advancing.ahead index call present)
    · exact advancing.ahead other current elsewhere
  · intro event member
    rcases List.mem_append.mp member with now | before
    · exact kept event (Option.mem_toList.mp now)
    · exact advancing.kept event before

variable {nextOccurrence : String -> String -> Int -> Option Int}

/-- A step under a clock that does not go back keeps the invariant, if its write
is kept. -/
theorem Advancing.step (after : forall cron timezone clock next,
      nextOccurrence cron timezone clock = some next -> clock < next)
    {label : SchedulerLabel} (advancing : system.Advancing resumes history)
    (forward : ClockForward (⟨system, history⟩ : SchedulerRun) label)
    (kept : forall event, system.event label = some event -> event.Kept resumes) :
    (system.step nextOccurrence label).Advancing resumes
      ((system.event label).toList ++ history) := by
  cases label with
  | tick index limit => exact advancing.begin index rfl trivial
  | setEnabled index id enabled => exact advancing.begin index rfl trivial
  | execute index now locked =>
      simp only [SchedulerSystem.step, SchedulerSystem.event]
      cases present : system.calls index with
      | none => exact advancing
      | some call =>
          apply advancing.execute present forward
          intro event happened
          apply kept event
          simp only [SchedulerSystem.event, present, Option.bind_some]
          exact happened
  | resume index now =>
      simp only [SchedulerSystem.step, SchedulerSystem.event]
      cases present : system.calls index with
      | none => exact advancing
      | some call =>
          have ticked := advancing.tick forward
          have pending := ticked.pending index call present
          exact ticked.put index
            (fun due member => pending due (SchedulerCall.held_resume (millis now) call member))
            (SchedulerCall.ahead_resume after (ticked.ahead index call present)
              (fun due member => (pending due member).come))
  | crash index =>
      simp only [SchedulerSystem.step, SchedulerSystem.event]
      cases present : system.calls index with
      | none => exact advancing
      | some call => exact advancing.put index (fun _ member => by cases member) trivial
  | job call =>
      simp only [SchedulerSystem.step, SchedulerSystem.event]
      split
      · exact ⟨advancing.pending, advancing.ahead, advancing.kept⟩
      · exact advancing

/-- The notes of a run say from which clock every time was computed. -/
structure Readings (nextOccurrence : String -> String -> Int -> Option Int) (begins : Int)
    (system : SchedulerSystem) (notes : List SchedulerNote) : Prop where
  clock : begins ≤ millis system.clock
  rows : RowsComputed nextOccurrence begins system.schedules notes
  calls : forall index call, system.calls index = some call ->
    call.Reads nextOccurrence begins system.schedules (SchedulerNote.readingOf index notes)

variable {begins : Int} {notes : List SchedulerNote}

theorem Readings.start {schedules : ScheduleTable} {clock : Timestamp}
    (computed : StartComputed nextOccurrence (millis clock) schedules) (db : Database) :
    Readings nextOccurrence (millis clock) (start db schedules clock) [] where
  clock := le_refl _
  rows := by
    intro row member
    rcases computed row member with ⟨since, before, isComputed⟩
    exact ⟨since, Or.inr ⟨rfl, before⟩, isComputed⟩
  calls := fun _ _ impossible => by cases impossible

/-- One call moves, and everything else stays where it is. -/
theorem Readings.put (readings : system.Readings nextOccurrence begins notes) (index : Nat)
    {call : SchedulerCall} (reads : call.Reads nextOccurrence begins system.schedules
      (SchedulerNote.readingOf index notes)) :
    (system.put index call).Readings nextOccurrence begins notes where
  clock := readings.clock
  rows := readings.rows
  calls := by
    intro other current present
    rcases put_cases present with ⟨rfl, rfl⟩ | ⟨_, elsewhere⟩
    · exact reads
    · exact readings.calls other current elsewhere

theorem Readings.begin (readings : system.Readings nextOccurrence begins notes) (index : Nat)
    {call : SchedulerCall} (reads : call.Reads nextOccurrence begins system.schedules
      (SchedulerNote.readingOf index notes)) :
    (system.begin index call).Readings nextOccurrence begins notes := by
  unfold SchedulerSystem.begin
  split
  · exact readings.put index reads
  · exact readings

theorem Readings.tick (readings : system.Readings nextOccurrence begins notes) {now : Timestamp}
    (forward : system.clock ≤ now) :
    Readings nextOccurrence begins { system with clock := now } notes where
  clock := le_trans readings.clock (millis_le forward)
  rows := readings.rows
  calls := readings.calls

/-- What a call does shows in nobody's reading. -/
theorem readingOf_did (other index : Nat) (event : Option SchedulerEvent) :
    SchedulerNote.readingOf other ((event.map (SchedulerNote.did index)).toList ++ notes) =
      SchedulerNote.readingOf other notes := by
  cases event with
  | none => rfl
  | some event => rfl

theorem Readings.execute (readings : system.Readings nextOccurrence begins notes) {index : Nat}
    {now : Timestamp} {locked : List Nat} {call : SchedulerCall}
    (present : system.calls index = some call) (forward : system.clock ≤ now) :
    (SchedulerSystem.put { system with
        db := (call.execute index now locked system.db system.schedules).db
        schedules := (call.execute index now locked system.db system.schedules).schedules
        clock := now } index
      (call.execute index now locked system.db system.schedules).call).Readings nextOccurrence
      begins (((call.execute index now locked system.db system.schedules).event.map
        (SchedulerNote.did index)).toList ++ notes) where
  clock := le_trans readings.clock (millis_le forward)
  rows := SchedulerCall.execute_rowsComputed readings.rows (readings.calls index call present)
  calls := by
    intro other current isCurrent
    rw [readingOf_did]
    rcases put_cases isCurrent with ⟨rfl, rfl⟩ | ⟨_, elsewhere⟩
    · exact SchedulerCall.reads_execute (readings.calls other call present)
    · exact (readings.calls other current elsewhere).extends
        (fun _ _ _ has => call.execute_hasCron has)

/-- A call reads its clock and goes on. -/
theorem Readings.read (readings : system.Readings nextOccurrence begins notes) {index : Nat}
    {clock : Int} {call : SchedulerCall}
    (reads : call.Reads nextOccurrence begins system.schedules (some clock)) :
    (system.put index call).Readings nextOccurrence begins (.reads index clock :: notes) where
  clock := readings.clock
  rows := RowsComputed.note readings.rows (fun _ _ impossible => by cases impossible)
  calls := by
    intro other current isCurrent
    unfold SchedulerNote.readingOf
    rcases put_cases isCurrent with ⟨rfl, rfl⟩ | ⟨apart, elsewhere⟩
    · rw [if_pos rfl]
      exact reads
    · rw [if_neg (Ne.symm apart)]
      exact readings.calls other current elsewhere

theorem Readings.resume (readings : system.Readings nextOccurrence begins notes) {index : Nat}
    {now : Timestamp} (forward : system.clock ≤ now) :
    (system.step nextOccurrence (.resume index now)).Readings nextOccurrence begins
      ((system.note (.resume index now)).toList ++ notes) := by
  simp only [SchedulerSystem.step, SchedulerSystem.note]
  cases present : system.calls index with
  | none => exact readings
  | some call =>
      have ticked := readings.tick forward
      have reads := ticked.calls index call present
      cases call with
      | taking rest => exact ticked.read (SchedulerCall.reads_take reads)
      | computing existing enabled =>
          exact ticked.read (SchedulerCall.reads_computing reads ticked.clock)
      | claiming limit => exact ticked.put index reads
      | inserting row key nextRunAt rest => exact ticked.put index reads
      | advancing row nextRunAt jobId kind rest => exact ticked.put index reads
      | reading id enabled => exact ticked.put index reads
      | writing id enabled nextRunAt => exact ticked.put index reads
      | finished => exact ticked.put index reads

theorem Readings.step {label : SchedulerLabel}
    (readings : system.Readings nextOccurrence begins notes)
    (forward : ClockForward (⟨system, notes⟩ : NotedRun) label) :
    (system.step nextOccurrence label).Readings nextOccurrence begins
      ((system.note label).toList ++ notes) := by
  cases label with
  | tick index limit => exact readings.begin index trivial
  | setEnabled index id enabled => exact readings.begin index trivial
  | execute index now locked =>
      simp only [SchedulerSystem.step, SchedulerSystem.note, SchedulerSystem.event]
      cases present : system.calls index with
      | none => exact readings
      | some call => exact readings.execute present forward
  | resume index now => exact readings.resume forward
  | crash index =>
      simp only [SchedulerSystem.step]
      cases present : system.calls index with
      | none => exact readings
      | some call => exact readings.put index trivial
  | job call =>
      simp only [SchedulerSystem.step]
      split
      · exact ⟨readings.clock, readings.rows, readings.calls⟩
      · exact readings

/-- A resume keeps what it finds exactly when what it finds was computed from an
earlier clock, and for the wider reading is still to come or has been claimed. -/
theorem Readings.resume_kept_iff (library : CronLibrary nextOccurrence)
    (steady : resumes = true -> Steady nextOccurrence)
    (readings : system.Readings nextOccurrence begins notes) {index id : Nat} {enabled : Bool}
    {time : Int} {row : ScheduleRow}
    (present : system.calls index = some (.writing id enabled (some time)))
    (found : system.schedules.find id = some row) :
    (SchedulerCall.writing id enabled (some time)).Alone resumes index system.schedules notes <->
      (SchedulerEvent.enabledSet row (ofMillis time)).Kept resumes := by
  rcases readings.calls index _ present with
    ⟨clock, cron, timezone, isReading, later, has, isNext⟩
  have isRow := ScheduleTable.find_eq_some_iff.mp found
  rcases readings.rows row isRow.1 with ⟨since, origin, computed⟩
  have own := HasCron.unique ⟨row, isRow.1, isRow.2, rfl, rfl⟩ has
  rw [own.1, own.2] at computed
  rw [isRow.2] at origin
  have accepted : Exists fun installed : Int => nextOccurrence cron timezone since = some installed ∧
      row.nextRunAt = ofMillis installed := by
    rcases computed with computed | rejected
    · exact computed
    · rw [library.uniform cron timezone since clock rejected] at isNext
      cases isNext
  rcases accepted with ⟨installed, isInstalled, isTime⟩
  have writes : ofMillis time = row.nextRunAt <-> time = installed := by
    rw [isTime, ofMillis_inj]
  have onward : row.nextRunAt ≤ ofMillis time <-> installed ≤ time := by
    rw [isTime, ofMillis_le_iff]
  unfold SchedulerEvent.Kept
  dsimp only
  rw [ne_eq, writes, onward]
  constructor
  · intro alone apart
    rcases alone row clock found isReading with ⟨order, passed⟩
    have inOrder : since ≤ clock := by
      rcases origin with noted | ⟨_, before⟩
      · by_contra overtaken
        exact apart (writes.mp (order since noted (Int.not_le.mp overtaken)))
      · exact le_trans before later
    refine ⟨library.monotone cron timezone since clock _ _ inOrder isInstalled isNext, ?_⟩
    intro counts
    rcases passed counts with toCome | claimed
    · rw [isTime, millis_ofMillis] at toCome
      have still := steady counts cron timezone since clock installed inOrder toCome isInstalled
      exact absurd (Option.some.inj (isNext.symm.trans still)) apart
    · exact claimed
  · intro kept other otherClock isOther otherReading
    rw [found] at isOther
    rw [isReading] at otherReading
    cases isOther
    cases otherReading
    rw [writes]
    constructor
    · intro noted isNoted overtaken
      rcases origin with same | ⟨impossible, _⟩
      · rw [isNoted] at same
        cases same
        by_contra apart
        have back := library.monotone cron timezone clock _ _ _ (Int.le_of_lt overtaken) isNext
          isInstalled
        have forward := (kept apart).1
        omega
      · rw [isNoted] at impossible
        cases impossible
    · intro counts
      by_cases same : time = installed
      · rw [isTime, millis_ofMillis, ← same]
        exact Or.inl (library.after cron timezone clock time isNext)
      · exact Or.inr ((kept same).2 counts)

end SchedulerSystem

/-- What every run keeps in which the condition is met. -/
structure NotedRun.Advancing (resumes : Bool)
    (nextOccurrence : String -> String -> Int -> Option Int) (begins : Int) (run : NotedRun) :
    Prop where
  advancing : run.state.Advancing resumes (SchedulerNote.events run.history)
  readings : run.state.Readings nextOccurrence begins run.history

namespace NotedRun

variable {resumes : Bool} {nextOccurrence : String -> String -> Int -> Option Int} {begins : Int}
  {run : NotedRun} {label : SchedulerLabel}

/-- The notes of a step hold the event of its statement. -/
theorem events_note (system : SchedulerSystem) (label : SchedulerLabel)
    (notes : List SchedulerNote) :
    SchedulerNote.events ((system.note label).toList ++ notes) =
      (system.event label).toList ++ SchedulerNote.events notes := by
  cases label with
  | execute index now locked =>
      unfold SchedulerSystem.note
      dsimp only
      cases system.event (.execute index now locked) <;> rfl
  | resume index now =>
      unfold SchedulerSystem.note
      dsimp only
      split <;> rfl
  | _ => rfl

theorem Advancing.allKept (invariant : run.Advancing resumes nextOccurrence begins) :
    AllKept resumes run := by
  intro call event member
  exact invariant.advancing.kept event (List.mem_filterMap.mpr ⟨.did call event, member, rfl⟩)

/-- The condition is what keeps the write of the step. -/
theorem Advancing.alone_iff (library : CronLibrary nextOccurrence)
    (steady : resumes = true -> Steady nextOccurrence)
    (invariant : run.Advancing resumes nextOccurrence begins) :
    AdvancesAlone resumes run label <->
      forall event, run.state.event label = some event -> event.Kept resumes := by
  cases label with
  | execute index now locked =>
      unfold AdvancesAlone SchedulerSystem.event
      dsimp only
      cases present : run.state.calls index with
      | none => simp
      | some call =>
          have decided := @SchedulerCall.alone_iff resumes index now run.state.clock locked
            run.state.db run.state.schedules run.history call
            (invariant.advancing.pending index call present)
            (invariant.advancing.ahead index call present)
            (by
              rintro id enabled time row rfl found
              exact invariant.readings.resume_kept_iff library steady present found)
          rw [Option.bind_some, ← decided]
          constructor
          · exact fun alone => alone call rfl
          · intro alone other same
            cases same
            exact alone
  | tick index limit => exact ⟨fun _ _ impossible => (by cases impossible), fun _ => trivial⟩
  | setEnabled index id enabled => exact ⟨fun _ _ impossible => (by cases impossible), fun _ => trivial⟩
  | resume index now => exact ⟨fun _ _ impossible => (by cases impossible), fun _ => trivial⟩
  | crash index => exact ⟨fun _ _ impossible => (by cases impossible), fun _ => trivial⟩
  | job call => exact ⟨fun _ _ impossible => (by cases impossible), fun _ => trivial⟩

theorem Advancing.step (library : CronLibrary nextOccurrence)
    (steady : resumes = true -> Steady nextOccurrence)
    (invariant : run.Advancing resumes nextOccurrence begins) (forward : ClockForward run label)
    (alone : AdvancesAlone resumes run label) :
    (run.step nextOccurrence label).Advancing resumes nextOccurrence begins where
  advancing := by
    have same : ClockForward
        (⟨run.state, SchedulerNote.events run.history⟩ : SchedulerRun) label := by
      cases label <;> exact forward
    have moved := @SchedulerSystem.Advancing.step _ _ _ nextOccurrence library.after label
      invariant.advancing same ((invariant.alone_iff library steady).mp alone)
    rw [← events_note] at moved
    exact moved
  readings := invariant.readings.step (by cases label <;> exact forward)

end NotedRun

/-! ## The theorem -/

/-- In a run whose clock does not go back, every write to `next_run_at` is kept
exactly when each advance comes to a schedule that nothing has moved since its
claim, or writes the time that is there, and no resume is overtaken. -/
theorem advances_kept_iff (resumes : Bool)
    (nextOccurrence : String -> String -> Int -> Option Int) (library : CronLibrary nextOccurrence)
    (steady : resumes = true -> Steady nextOccurrence) (db : Database) (schedules : ScheduleTable)
    (clock : Timestamp) (computed : StartComputed nextOccurrence (millis clock) schedules)
    (labels : List SchedulerLabel)
    (forward : EachStep (NotedRun.step nextOccurrence) ClockForward
      (.start db schedules clock) labels) :
    Always (NotedRun.step nextOccurrence) (AllKept resumes) (.start db schedules clock) labels <->
      EachStep (NotedRun.step nextOccurrence) (AdvancesAlone resumes)
        (.start db schedules clock) labels := by
  apply @always_iff_eachStep_of _ _ (NotedRun.step nextOccurrence)
    (NotedRun.Advancing resumes nextOccurrence (millis clock))
  · exact fun run invariant => invariant.allKept
  · exact fun run label invariant goesOn alone => invariant.step library steady goesOn alone
  · intro run label invariant collides kept
    apply collides
    apply (invariant.alone_iff library steady).mpr
    intro event happened
    have noted : event ∈ SchedulerNote.events (run.step nextOccurrence label).history := by
      change event ∈ SchedulerNote.events ((run.state.note label).toList ++ run.history)
      rw [NotedRun.events_note]
      exact List.mem_append_left _ (Option.mem_toList.mpr happened)
    rcases List.mem_filterMap.mp noted with ⟨note, member, isEvent⟩
    cases note with
    | reads call reading => cases isEvent
    | did call other =>
        cases isEvent
        exact kept call event member
  · exact ⟨.start resumes db schedules clock, .start computed db⟩
  · exact forward

/-- The expression `* * * * *`. -/
def everyMinute (_cron _timezone : String) (clock : Int) : Option Int :=
  some ((clock / 60000 + 1) * 60000)

theorem lt_everyMinute {cron timezone : String} {clock next : Int}
    (isNext : everyMinute cron timezone clock = some next) : clock < next := by
  cases isNext
  omega

/-- One schedule, due at the beginning. -/
def dueAtStart : ScheduleTable where
  rows := [{
    id := 1
    name := "report"
    queue := "mail"
    type := "send"
    payload := "\x7b\x7d"
    cron := "* * * * *"
    timezone := "UTC"
    catchupPolicy := .runOnce
    enabled := true
    nextRunAt := 0
    lastRunAt := none
    lastJobId := none
    updatedAt := 0 }]
  nextId := 2
  primaryKey := by decide
  uniqueName := by decide
  identity := by decide

theorem everyMinute_library : CronLibrary everyMinute where
  after := fun _ _ _ _ => lt_everyMinute
  monotone := by
    intro cron timezone clock later next after forward isNext isAfter
    cases isNext
    cases isAfter
    omega
  uniform := fun _ _ _ _ impossible => by cases impossible

theorem everyMinute_steady : Steady everyMinute := by
  intro cron timezone clock later next forward toCome isNext
  cases isNext
  unfold everyMinute
  congr 1
  omega

theorem dueAtStart_computed : StartComputed everyMinute (millis 0) dueAtStart := by
  intro row member
  rw [List.mem_singleton.mp member]
  exact ⟨-60000, by decide, Or.inl ⟨0, rfl, rfl⟩⟩

/-- Two ticks claim the same occurrence, and a paused schedule is resumed while
the first one is under way. -/
def resumedTick : List SchedulerLabel :=
  [.tick 0 10, .setEnabled 1 1 true, .execute 0 (seconds 1) [], .execute 1 (seconds 1) [],
    .resume 0 (seconds 1), .execute 0 (seconds 1) [], .execute 0 (seconds 2) [],
    .resume 1 (seconds 3), .execute 1 (seconds 3) [], .resume 0 (seconds 3)]

theorem resumedTick_kept_iff :
    Always (NotedRun.step everyMinute) (AllKept true)
        (.start (.empty [] .empty) dueAtStart 0) resumedTick <->
      EachStep (NotedRun.step everyMinute) (AdvancesAlone true)
        (.start (.empty [] .empty) dueAtStart 0) resumedTick :=
  advances_kept_iff true everyMinute everyMinute_library (fun _ => everyMinute_steady)
    (.empty [] .empty) dueAtStart 0 dueAtStart_computed resumedTick
    ⟨trivial, trivial, by decide, by decide, by decide, by decide, by decide, by decide, by decide,
      by decide, trivial⟩

/-- Two ticks claim the same occurrence.  The one that reads the clock later
advances first. -/
def lateAdvance : List SchedulerLabel :=
  [.tick 0 10, .tick 1 10, .execute 0 (seconds 1) [], .execute 1 (seconds 1) [],
    .resume 0 (seconds 1), .resume 1 (seconds 61), .execute 1 (seconds 61) [],
    .execute 1 (seconds 61) [], .execute 0 (seconds 62) [], .execute 0 (seconds 62) []]

/-- The other one then takes the schedule back from the second minute to the
first. -/
theorem lateAdvance_reverts :
    (forall cron timezone clock later next after, clock ≤ later ->
      everyMinute cron timezone clock = some next ->
        everyMinute cron timezone later = some after -> next ≤ after) ∧
    (forall cron timezone clock next, everyMinute cron timezone clock = some next -> clock < next) ∧
    EachStep (NotedRun.step everyMinute) ClockForward (.start (.empty [] .empty) dueAtStart 0)
      lateAdvance ∧
    Not (Always (NotedRun.step everyMinute) (AllKept false)
      (.start (.empty [] .empty) dueAtStart 0) lateAdvance) := by
  refine ⟨everyMinute_library.monotone, everyMinute_library.after, ?_, ?_⟩
  · exact ⟨trivial, trivial, by decide, by decide, by decide, by decide, by decide, by decide,
      by decide, by decide, trivial⟩
  · intro always
    have atEnd := (always_iff_forall_initial _ _ _ _).mp always lateAdvance List.prefix_rfl
    have kept := atEnd 0 _ (List.mem_of_getElem? (i := 0) rfl)
    exact absurd (kept (by decide)).2.1 (by decide)

end PgJobQ
