import PgJobQ.Scheduler.Advances

/-!
# Outages of the schedulers

A tick computes the next occurrence from its clock and not from the occurrence
it has claimed.  While no scheduler reads the clock, no occurrence is computed,
so of all the occurrences of a schedule that fall into an outage only the first
one can be planned.  It is the one that follows the last reading before the
outage, whichever tick or resume has computed it, and however late another tick
writes it back.

A rejected expression defers its schedule by an hour.  The time this plans is no
occurrence, and a tick that claims it finds the expression rejected again.
-/

namespace PgJobQ

open Runs

/-- What the cron library computes: the first occurrence after the clock, if any
follows. -/
structure NextOf (occurs : String -> String -> Int -> Prop)
    (nextOccurrence : String -> String -> Int -> Option Int) : Prop where
  first : forall {cron timezone : String} {clock next : Int},
    nextOccurrence cron timezone clock = some next ->
      occurs cron timezone next ∧ clock < next ∧
        forall other : Int, occurs cron timezone other -> clock < other -> next ≤ other
  none_after : forall {cron timezone : String} {clock other : Int},
    nextOccurrence cron timezone clock = none -> occurs cron timezone other -> other ≤ clock

/-- Nobody reads the clock between the two times. -/
def Outage (begins ends : Int) (_ : SchedulerRun) : SchedulerLabel -> Prop
  | .resume _ now => millis now ≤ begins ∨ ends ≤ millis now
  | _ => True

instance (begins ends : Int) (run : SchedulerRun) : DecidablePred (Outage begins ends run)
  | .resume _ now => inferInstanceAs (Decidable (millis now ≤ begins ∨ ends ≤ millis now))
  | .tick _ _ => isTrue trivial
  | .setEnabled _ _ _ => isTrue trivial
  | .execute _ _ _ => isTrue trivial
  | .crash _ => isTrue trivial
  | .job _ => isTrue trivial

namespace NextOf

variable {occurs : String -> String -> Int -> Prop}
  {nextOccurrence : String -> String -> Int -> Option Int} {cron timezone : String}

/-- A rejection stays one as the clock goes on. -/
theorem none_later (next : NextOf occurs nextOccurrence) {clock later : Int}
    (rejected : nextOccurrence cron timezone clock = none) (after : clock ≤ later) :
    nextOccurrence cron timezone later = none := by
  cases computed : nextOccurrence cron timezone later with
  | none => rfl
  | some planned =>
      have spec := next.first computed
      have bound := next.none_after rejected spec.1
      omega

/-- Two occurrences computed before the same time, and after it, are one. -/
theorem unique (next : NextOf occurs nextOccurrence) {first second planned other time : Int}
    (firstBefore : first ≤ time) (secondBefore : second ≤ time)
    (isPlanned : nextOccurrence cron timezone first = some planned)
    (isOther : nextOccurrence cron timezone second = some other) (after : time < planned)
    (otherAfter : time < other) : planned = other := by
  have one := next.first isPlanned
  have two := next.first isOther
  have below := one.2.2 other two.1 (by omega)
  have above := two.2.2 planned one.1 (by omega)
  omega

end NextOf

/-! ## Foreseen times -/

/-- The time has been computed outside the outage. -/
def Computed (nextOccurrence : String -> String -> Int -> Option Int) (begins ends : Int)
    (cron timezone : String) (planned : Int) : Prop :=
  Exists fun clock : Int => (clock ≤ begins ∨ ends ≤ clock) ∧
    nextOccurrence cron timezone clock = some planned

/-- A time that may stand in `next_run_at`: one that was computed, or the end of
a deferral. -/
def Foreseen (nextOccurrence : String -> String -> Int -> Option Int) (begins ends now : Int)
    (cron timezone : String) (planned : Int) : Prop :=
  Computed nextOccurrence begins ends cron timezone planned ∨
    Exists fun clock : Int => clock ≤ now ∧ nextOccurrence cron timezone clock = none

section Foreseen

variable {nextOccurrence : String -> String -> Int -> Option Int} {begins ends : Int}
  {cron timezone : String} {planned now : Int}

theorem Foreseen.later (isPlanned : Foreseen nextOccurrence begins ends now cron timezone planned)
    {later : Int} (after : now ≤ later) :
    Foreseen nextOccurrence begins ends later cron timezone planned := by
  rcases isPlanned with computed | ⟨clock, before, rejected⟩
  · exact Or.inl computed
  · exact Or.inr ⟨clock, le_trans before after, rejected⟩

/-- A planned time of an expression that is accepted now was computed. -/
theorem Foreseen.computed {occurs : String -> String -> Int -> Prop}
    (next : NextOf occurs nextOccurrence)
    (isPlanned : Foreseen nextOccurrence begins ends now cron timezone planned) {other : Int}
    (accepted : nextOccurrence cron timezone now = some other) :
    Computed nextOccurrence begins ends cron timezone planned := by
  rcases isPlanned with computed | ⟨clock, before, rejected⟩
  · exact computed
  · rw [next.none_later rejected before] at accepted
    cases accepted

/-- Only the first occurrence after the outage has begun falls into it. -/
theorem Computed.unique {occurs : String -> String -> Int -> Prop}
    (next : NextOf occurs nextOccurrence)
    (computed : Computed nextOccurrence begins ends cron timezone planned) {other : Int}
    (otherComputed : Computed nextOccurrence begins ends cron timezone other)
    (inside : begins < planned ∧ planned ≤ ends) (otherInside : begins < other ∧ other ≤ ends) :
    planned = other := by
  rcases computed with ⟨first, outside, isPlanned⟩
  rcases otherComputed with ⟨second, otherOutside, isOther⟩
  have one := (next.first isPlanned).2.1
  have two := (next.first isOther).2.1
  exact next.unique (by omega) (by omega) isPlanned isOther inside.1 otherInside.1

end Foreseen

/-! ## What a call plans -/

section Plans

variable (nextOccurrence : String -> String -> Int -> Option Int) (begins ends now : Int)
  (schedules : ScheduleTable)

/-- A row that a tick has claimed. -/
structure DueScheduleRow.Plans (due : DueScheduleRow) : Prop where
  cron : HasCron schedules due.id due.cron due.timezone
  planned : Foreseen nextOccurrence begins ends now due.cron due.timezone due.plannedFor

/-- What a call knows of the times it has claimed and is going to write. -/
def SchedulerCall.Plans : SchedulerCall -> Prop
  | .taking rest => forall due, due ∈ rest -> due.Plans nextOccurrence begins ends now schedules
  | .inserting row _ nextRunAt rest =>
      Computed nextOccurrence begins ends row.cron row.timezone row.plannedFor ∧
      Foreseen nextOccurrence begins ends now row.cron row.timezone nextRunAt ∧
      forall due, due ∈ row :: rest -> due.Plans nextOccurrence begins ends now schedules
  | .advancing row nextRunAt _ _ rest =>
      Foreseen nextOccurrence begins ends now row.cron row.timezone nextRunAt ∧
      forall due, due ∈ row :: rest -> due.Plans nextOccurrence begins ends now schedules
  | .computing existing _ => HasCron schedules existing.id existing.cron existing.timezone
  | .writing id _ (some nextRunAt) => Exists fun cron : String => Exists fun timezone : String =>
      HasCron schedules id cron timezone ∧
        Foreseen nextOccurrence begins ends now cron timezone nextRunAt
  | _ => True

end Plans

section Calls

variable {nextOccurrence : String -> String -> Int -> Option Int} {begins ends now later : Int}
  {schedules after : ScheduleTable}

theorem DueScheduleRow.Plans.extends {due : DueScheduleRow}
    (plans : due.Plans nextOccurrence begins ends now schedules) (forward : now ≤ later)
    (keeps : forall id cron timezone, HasCron schedules id cron timezone ->
      HasCron after id cron timezone) : due.Plans nextOccurrence begins ends later after :=
  ⟨keeps _ _ _ plans.cron, plans.planned.later forward⟩

/-- The clock goes on, and the schedules keep their expressions. -/
theorem SchedulerCall.Plans.extends {call : SchedulerCall}
    (plans : call.Plans nextOccurrence begins ends now schedules) (forward : now ≤ later)
    (keeps : forall id cron timezone, HasCron schedules id cron timezone ->
      HasCron after id cron timezone) : call.Plans nextOccurrence begins ends later after := by
  cases call with
  | taking rest => exact fun due member => (plans due member).extends forward keeps
  | inserting row key nextRunAt rest =>
      exact ⟨plans.1, plans.2.1.later forward,
        fun due member => (plans.2.2 due member).extends forward keeps⟩
  | advancing row nextRunAt jobId kind rest =>
      exact ⟨plans.1.later forward, fun due member => (plans.2 due member).extends forward keeps⟩
  | computing existing enabled => exact keeps _ _ _ plans
  | writing id enabled nextRunAt =>
      cases nextRunAt with
      | none => exact trivial
      | some nextRunAt =>
          rcases plans with ⟨cron, timezone, has, planned⟩
          exact ⟨cron, timezone, keeps _ _ _ has, planned.later forward⟩
  | claiming limit => exact trivial
  | reading id enabled => exact trivial
  | finished => exact trivial

/-- The rows that a call has claimed are planned. -/
theorem SchedulerCall.Plans.held {call : SchedulerCall}
    (plans : call.Plans nextOccurrence begins ends now schedules) :
    forall due, due ∈ call.held -> due.Plans nextOccurrence begins ends now schedules := by
  cases call with
  | taking rest => exact plans
  | inserting row key nextRunAt rest => exact plans.2.2
  | advancing row nextRunAt jobId kind rest => exact plans.2
  | _ => exact fun due member => by cases member

/-- The next iteration of a tick, at a clock outside the outage. -/
theorem SchedulerCall.plans_take {occurs : String -> String -> Int -> Prop}
    (next : NextOf occurs nextOccurrence) (outside : now ≤ begins ∨ ends ≤ now)
    {rest : List DueScheduleRow}
    (plans : forall due, due ∈ rest -> due.Plans nextOccurrence begins ends now schedules) :
    (take nextOccurrence now rest).Plans nextOccurrence begins ends now schedules := by
  cases rest with
  | nil => exact trivial
  | cons row rest =>
      unfold take
      dsimp only
      split
      · exact trivial
      · next key isKey =>
          split
          · next rejected => exact ⟨Or.inr ⟨now, le_refl now, rejected⟩, plans⟩
          · next nextRunAt accepted =>
              have claimed := plans row List.mem_cons_self
              have computed : Foreseen nextOccurrence begins ends now row.cron row.timezone nextRunAt :=
                Or.inl ⟨now, outside, accepted⟩
              split
              · exact ⟨claimed.planned.computed next accepted, computed, plans⟩
              · exact ⟨computed, plans⟩

theorem SchedulerCall.plans_resume {occurs : String -> String -> Int -> Prop}
    (next : NextOf occurs nextOccurrence) (outside : now ≤ begins ∨ ends ≤ now)
    {call : SchedulerCall} (plans : call.Plans nextOccurrence begins ends now schedules) :
    (call.resume nextOccurrence now).Plans nextOccurrence begins ends now schedules := by
  cases call with
  | taking rest => exact plans_take next outside plans
  | computing existing enabled =>
      unfold resume
      dsimp only
      split
      · split
        · exact trivial
        · next nextRunAt accepted =>
            exact ⟨existing.cron, existing.timezone, plans, Or.inl ⟨now, outside, accepted⟩⟩
      · exact trivial
  | claiming limit => exact plans
  | inserting row key nextRunAt rest => exact plans
  | advancing row nextRunAt jobId kind rest => exact plans
  | reading id enabled => exact plans
  | writing id enabled nextRunAt => exact plans
  | finished => exact plans

/-- Every next occurrence in the table is planned. -/
def RowsPlanned (nextOccurrence : String -> String -> Int -> Option Int) (begins ends now : Int)
    (schedules : ScheduleTable) : Prop :=
  forall row, row ∈ schedules.rows ->
    Foreseen nextOccurrence begins ends now row.cron row.timezone (millis row.nextRunAt)

theorem RowsPlanned.goOn (rows : RowsPlanned nextOccurrence begins ends now schedules)
    (forward : now ≤ later) : RowsPlanned nextOccurrence begins ends later schedules :=
  fun row member => (rows row member).later forward

/-- An update that writes planned times only. -/
theorem RowsPlanned.update (rows : RowsPlanned nextOccurrence begins ends now schedules)
    {hits : ScheduleRow -> Bool} {change : ScheduleChange}
    (writes : forall row, row ∈ schedules.rows -> hits row = true ->
      Foreseen nextOccurrence begins ends now (change.set row).cron (change.set row).timezone
        (millis (change.set row).nextRunAt)) :
    RowsPlanned nextOccurrence begins ends now (schedules.update hits change) := by
  intro row member
  rcases List.mem_map.mp member with ⟨source, sourceMem, rfl⟩
  unfold ScheduleTable.rewrite
  split
  · next hit => exact writes source sourceMem hit
  · exact rows source sourceMem

/-- A write to a schedule whose expression the call knows. -/
theorem planned_write {id : Nat} {cron timezone : String} {planned : Int}
    (has : HasCron schedules id cron timezone)
    (isPlanned : Foreseen nextOccurrence begins ends now cron timezone planned) (row : ScheduleRow)
    (member : row ∈ schedules.rows) (hit : (row.id == id) = true) :
    Foreseen nextOccurrence begins ends now row.cron row.timezone
      (millis (ofMillis planned)) := by
  have own : HasCron schedules id row.cron row.timezone :=
    ⟨row, member, beq_iff_eq.mp hit, rfl, rfl⟩
  have same := own.unique has
  rw [millis_ofMillis, same.1, same.2]
  exact isPlanned

theorem SchedulerCall.execute_rowsPlanned {index : Nat} {time : Timestamp} {locked : List Nat}
    {db : Database} {call : SchedulerCall}
    (rows : RowsPlanned nextOccurrence begins ends now schedules)
    (plans : call.Plans nextOccurrence begins ends now schedules) :
    RowsPlanned nextOccurrence begins ends now
      (call.execute index time locked db schedules).schedules := by
  cases call with
  | claiming limit => exact rows.update (fun row member _ => rows row member)
  | advancing row nextRunAt jobId kind rest =>
      have own := (plans.2 row List.mem_cons_self).cron
      exact rows.update (fun source member hit => planned_write own plans.1 source member hit)
  | writing id enabled nextRunAt =>
      cases nextRunAt with
      | none => exact rows.update (fun row member _ => rows row member)
      | some nextRunAt =>
          rcases plans with ⟨cron, timezone, has, planned⟩
          exact rows.update (fun source member hit => planned_write has planned source member hit)
  | inserting row key nextRunAt rest =>
      unfold execute
      dsimp only
      split
      · exact rows
      · exact rows
  | reading id enabled =>
      unfold execute
      dsimp only
      split
      · exact rows
      · exact rows
  | taking rest => exact rows
  | computing existing enabled => exact rows
  | finished => exact rows

/-- What a call knows after its statement. -/
theorem SchedulerCall.plans_execute {index : Nat} {time : Timestamp} {locked : List Nat}
    {db : Database} {call : SchedulerCall}
    (rows : RowsPlanned nextOccurrence begins ends now schedules)
    (plans : call.Plans nextOccurrence begins ends now schedules) :
    (call.execute index time locked db schedules).call.Plans nextOccurrence begins ends now
      (call.execute index time locked db schedules).schedules := by
  have keeps : forall id cron timezone, HasCron schedules id cron timezone ->
      HasCron (call.execute index time locked db schedules).schedules id cron timezone :=
    fun id cron timezone has => call.execute_hasCron has
  cases call with
  | claiming limit =>
      intro due member
      rcases List.mem_map.mp member with ⟨row, claimed, rfl⟩
      have listed := (List.mem_filter.mp claimed).1
      exact ⟨keeps _ _ _ ⟨row, listed, rfl, rfl, rfl⟩, rows row listed⟩
  | inserting row key nextRunAt rest =>
      unfold execute
      dsimp only
      split
      · exact ⟨plans.2.1, plans.2.2⟩
      · exact trivial
  | advancing row nextRunAt jobId kind rest =>
      intro due member
      exact (plans.2 due (List.mem_cons_of_mem row member)).extends (le_refl now) keeps
  | reading id enabled =>
      unfold execute
      dsimp only
      cases found : schedules.find id with
      | none => exact trivial
      | some existing =>
          have listed := ScheduleTable.find_eq_some_iff.mp found
          exact ⟨existing, listed.1, rfl, rfl, rfl⟩
  | writing id enabled nextRunAt => exact trivial
  | taking rest => exact plans
  | computing existing enabled => exact plans
  | finished => exact trivial

/-- A job is created for a planned occurrence that was computed. -/
theorem SchedulerCall.created_planned {index : Nat} {time : Timestamp} {locked : List Nat}
    {db : Database} {call : SchedulerCall}
    (plans : call.Plans nextOccurrence begins ends now schedules) {due : DueScheduleRow}
    {job : JobRow}
    (happened : (call.execute index time locked db schedules).event = some (.created due job)) :
    HasCron (call.execute index time locked db schedules).schedules due.id due.cron due.timezone ∧
      Computed nextOccurrence begins ends due.cron due.timezone due.plannedFor := by
  cases call with
  | inserting row key nextRunAt rest =>
      unfold execute at happened ⊢
      dsimp only at happened ⊢
      split at happened
      · next reply inserted =>
          rcases Option.map_eq_some_iff.mp happened with ⟨made, -, same⟩
          cases same
          exact ⟨(plans.2.2 due List.mem_cons_self).cron, plans.1⟩
      · cases happened
  | reading id enabled =>
      unfold execute at happened
      dsimp only at happened
      split at happened
      · cases happened
      · cases happened
  | writing id enabled nextRunAt =>
      rcases Option.map_eq_some_iff.mp happened with ⟨made, -, same⟩
      cases same
  | claiming limit => cases happened
  | advancing row nextRunAt jobId kind rest => cases happened
  | taking rest => cases happened
  | computing existing enabled => cases happened
  | finished => cases happened

end Calls

/-! ## Along a run -/

/-- Every time in the table is planned, every call knows what it plans, and
every job was created for a time that was computed. -/
structure SchedulerSystem.Planning (nextOccurrence : String -> String -> Int -> Option Int)
    (begins ends : Int) (system : SchedulerSystem) (history : List SchedulerEvent) : Prop where
  rows : RowsPlanned nextOccurrence begins ends (millis system.clock) system.schedules
  calls : forall index call, system.calls index = some call ->
    call.Plans nextOccurrence begins ends (millis system.clock) system.schedules
  created : forall due job, .created due job ∈ history ->
    HasCron system.schedules due.id due.cron due.timezone ∧
      Computed nextOccurrence begins ends due.cron due.timezone due.plannedFor

namespace SchedulerSystem

variable {nextOccurrence : String -> String -> Int -> Option Int} {begins ends : Int}
  {system : SchedulerSystem} {history : List SchedulerEvent}

/-- Before the run, the times in the table were computed before the outage. -/
theorem Planning.start (db : Database) {schedules : ScheduleTable} (clock : Timestamp)
    (computed : forall row, row ∈ schedules.rows -> Exists fun earlier : Int => earlier ≤ begins ∧
      nextOccurrence row.cron row.timezone earlier = some (millis row.nextRunAt)) :
    (SchedulerSystem.start db schedules clock).Planning nextOccurrence begins ends [] where
  rows := by
    intro row member
    rcases computed row member with ⟨earlier, before, isNext⟩
    exact Or.inl ⟨earlier, Or.inl before, isNext⟩
  calls := fun _ _ impossible => by cases impossible
  created := fun _ _ member => absurd member List.not_mem_nil

theorem Planning.put (planning : system.Planning nextOccurrence begins ends history) (index : Nat)
    {call : SchedulerCall}
    (plans : call.Plans nextOccurrence begins ends (millis system.clock) system.schedules) :
    (system.put index call).Planning nextOccurrence begins ends history := by
  refine ⟨planning.rows, ?_, planning.created⟩
  intro other current present
  rcases put_cases present with ⟨_, rfl⟩ | ⟨_, elsewhere⟩
  · exact plans
  · exact planning.calls other current elsewhere

/-- The clock goes on. -/
theorem Planning.goOn (planning : system.Planning nextOccurrence begins ends history)
    {now : Timestamp} (forward : system.clock ≤ now) :
    Planning nextOccurrence begins ends { system with clock := now } history := by
  have later := millis_le forward
  exact ⟨planning.rows.goOn later,
    fun index call present => (planning.calls index call present).extends later
      (fun _ _ _ has => has), planning.created⟩

theorem Planning.begin (planning : system.Planning nextOccurrence begins ends history) (index : Nat)
    {call : SchedulerCall}
    (plans : call.Plans nextOccurrence begins ends (millis system.clock) system.schedules) :
    (system.begin index call).Planning nextOccurrence begins ends history := by
  unfold SchedulerSystem.begin
  split
  · exact planning.put index plans
  · exact planning

/-- One statement: the schedules change, the call goes on, and a job may be
created. -/
theorem Planning.execute (planning : system.Planning nextOccurrence begins ends history)
    {index : Nat} {call : SchedulerCall} (present : system.calls index = some call)
    (now : Timestamp) (locked : List Nat) :
    (SchedulerSystem.put ⟨(call.execute index now locked system.db system.schedules).db,
        (call.execute index now locked system.db system.schedules).schedules, system.calls,
        system.clock⟩ index
        (call.execute index now locked system.db system.schedules).call).Planning nextOccurrence
      begins ends ((call.execute index now locked system.db system.schedules).event.toList ++
        history) := by
  have plans := planning.calls index call present
  have keeps : forall id cron timezone, HasCron system.schedules id cron timezone ->
      HasCron (call.execute index now locked system.db system.schedules).schedules id cron timezone :=
    fun id cron timezone has => call.execute_hasCron has
  apply Planning.put
  · refine ⟨SchedulerCall.execute_rowsPlanned planning.rows plans, ?_, ?_⟩
    · intro other current elsewhere
      exact (planning.calls other current elsewhere).extends (le_refl _) keeps
    · intro due job member
      rcases List.mem_append.mp member with new | old
      · exact SchedulerCall.created_planned plans (Option.mem_toList.mp new)
      · have earlier := planning.created due job old
        exact ⟨keeps _ _ _ earlier.1, earlier.2⟩
  · exact SchedulerCall.plans_execute planning.rows plans

theorem Planning.step {occurs : String -> String -> Int -> Prop}
    (next : NextOf occurs nextOccurrence) {run : SchedulerRun} {label : SchedulerLabel}
    (planning : run.state.Planning nextOccurrence begins ends run.history)
    (forward : ClockForward run label) (outage : Outage begins ends run label) :
    (run.step nextOccurrence label).state.Planning nextOccurrence begins ends
      (run.step nextOccurrence label).history := by
  cases label with
  | tick index limit => exact planning.begin index trivial
  | setEnabled index id enabled => exact planning.begin index trivial
  | execute index now locked =>
      simp only [SchedulerRun.step, recordStep, SchedulerSystem.step, SchedulerSystem.event]
      cases present : run.state.calls index with
      | none => exact planning
      | some call => exact (planning.execute present now locked).goOn forward
  | resume index now =>
      simp only [SchedulerRun.step, recordStep, SchedulerSystem.step, SchedulerSystem.event]
      cases present : run.state.calls index with
      | none => exact planning
      | some call =>
          have ticked := planning.goOn forward
          exact ticked.put index
            (SchedulerCall.plans_resume next outage (ticked.calls index call present))
  | crash index =>
      simp only [SchedulerRun.step, recordStep, SchedulerSystem.step, SchedulerSystem.event]
      cases present : run.state.calls index with
      | none => exact planning
      | some call => exact planning.put index trivial
  | job call =>
      simp only [SchedulerRun.step, recordStep, SchedulerSystem.step, SchedulerSystem.event]
      split
      · exact ⟨planning.rows, planning.calls, planning.created⟩
      · exact planning

end SchedulerSystem

/-- The induction is on the labels. -/
theorem planning_run {occurs : String -> String -> Int -> Prop}
    {nextOccurrence : String -> String -> Int -> Option Int} (next : NextOf occurs nextOccurrence)
    {begins ends : Int} {start : SchedulerRun} {labels : List SchedulerLabel}
    (planning : start.state.Planning nextOccurrence begins ends start.history)
    (forward : EachStep (SchedulerRun.step nextOccurrence) ClockForward start labels)
    (outage : EachStep (SchedulerRun.step nextOccurrence) (Outage begins ends) start labels) :
    (run (SchedulerRun.step nextOccurrence) start labels).state.Planning nextOccurrence begins ends
      (run (SchedulerRun.step nextOccurrence) start labels).history := by
  induction labels generalizing start with
  | nil => exact planning
  | cons label labels inductionHypothesis =>
      exact inductionHypothesis (planning.step next forward.1 outage.1) forward.2 outage.2

theorem length_le_one_of_same {Item Key : Type} {key : Item -> Key} {items : List Item}
    (distinct : (items.map key).Nodup)
    (same : forall first second, first ∈ items -> second ∈ items -> key first = key second) :
    items.length ≤ 1 := by
  cases items with
  | nil => exact Nat.zero_le 1
  | cons first items =>
      cases items with
      | nil => exact le_refl 1
      | cons second items =>
          have differ := (List.nodup_cons.mp distinct).1
          rw [same first second List.mem_cons_self (List.mem_cons_of_mem _ List.mem_cons_self)]
            at differ
          exact absurd List.mem_cons_self differ

/-- The job of a schedule was created for a time in the outage. -/
def fallsInto (id : Nat) (begins ends : Int) (made : DueScheduleRow × JobRow) : Bool :=
  made.1.id == id && decide (begins < made.1.plannedFor) && decide (made.1.plannedFor ≤ ends)

/-- Of all the occurrences of a schedule that fall into a time in which no
scheduler reads the clock, at most one ever gets a job, however long that time
is, whatever the policy of the schedule says, and in whatever order any number of
ticks and resumes take their statements before and after it. -/
theorem outage_fires_once {occurs : String -> String -> Int -> Prop}
    (nextOccurrence : String -> String -> Int -> Option Int) (next : NextOf occurs nextOccurrence)
    (begins ends : Int) (db : Database) (schedules : ScheduleTable) (clock : Timestamp)
    (computed : forall row, row ∈ schedules.rows -> Exists fun earlier : Int => earlier ≤ begins ∧
      nextOccurrence row.cron row.timezone earlier = some (millis row.nextRunAt))
    (labels : List SchedulerLabel)
    (forward : EachStep (SchedulerRun.step nextOccurrence) ClockForward
      (.start db schedules clock) labels)
    (outage : EachStep (SchedulerRun.step nextOccurrence) (Outage begins ends)
      (.start db schedules clock) labels) (id : Nat) :
    ((createdOccurrences (run (SchedulerRun.step nextOccurrence) (.start db schedules clock)
      labels).history).filter (fallsInto id begins ends)).length ≤ 1 := by
  have planning := @planning_run _ _ next begins ends (.start db schedules clock) labels
    (.start db clock computed) forward outage
  have accounted : (run (SchedulerRun.step nextOccurrence) (.start db schedules clock)
      labels).state.Accounted nextOccurrence
      (run (SchedulerRun.step nextOccurrence) (.start db schedules clock) labels).history := by
    apply @run_invariant _ _ (SchedulerRun.step nextOccurrence)
      (fun current => current.state.Accounted nextOccurrence current.history)
    · exact fun current label kept => kept.step label
    · exact .start nextOccurrence db schedules clock
  apply @length_le_one_of_same _ _ createdFor
  · exact (List.Sublist.map createdFor List.filter_sublist).nodup accounted.once
  · intro first second firstMem secondMem
    have one := List.mem_filter.mp firstMem
    have two := List.mem_filter.mp secondMem
    have made := planning.created first.1 first.2 (mem_createdOccurrences.mp one.1)
    have madeToo := planning.created second.1 second.2 (mem_createdOccurrences.mp two.1)
    simp only [fallsInto, Bool.and_eq_true, beq_iff_eq, decide_eq_true_eq] at one two
    have sameId : first.1.id = second.1.id := one.2.1.1.trans two.2.1.1.symm
    have cron := made.1
    rw [sameId] at cron
    have same := cron.unique madeToo.1
    have planned := madeToo.2
    rw [← same.1, ← same.2] at planned
    exact Prod.ext sameId (made.2.unique next planned ⟨one.2.1.2, one.2.2⟩ ⟨two.2.1.2, two.2.2⟩)

theorem nextOf_everyMinute : NextOf (fun _ _ time => time % 60000 = 0) everyMinute where
  first := by
    intro cron timezone clock planned isNext
    cases isNext
    refine ⟨by omega, by omega, ?_⟩
    intro other occurs after
    omega
  none_after := by
    intro cron timezone clock other rejected
    cases rejected

/-- One tick before the minutes between the first second and the end of the hour,
and one after them. -/
def hourDown : List SchedulerLabel :=
  [.tick 0 10, .execute 0 (seconds 1) [], .resume 0 (seconds 1), .execute 0 (seconds 1) [],
    .execute 0 (seconds 1) [], .resume 0 (seconds 1), .tick 1 10, .execute 1 (seconds 3600) [],
    .resume 1 (seconds 3600), .execute 1 (seconds 3600) [], .execute 1 (seconds 3600) [],
    .resume 1 (seconds 3600)]

theorem hourDown_fires_once :
    ((createdOccurrences (run (SchedulerRun.step everyMinute)
      (.start (.empty [] .empty) dueAtStart 0) hourDown).history).filter
        (fallsInto 1 1000 3600000)).length ≤ 1 := by
  apply outage_fires_once everyMinute nextOf_everyMinute 1000 3600000 (.empty [] .empty) dueAtStart 0
  · intro row member
    rw [List.mem_singleton.mp member]
    exact ⟨-1, by decide, by decide⟩
  · exact ⟨trivial, by decide, by decide, by decide, by decide, by decide, trivial, by decide,
      by decide, by decide, by decide, by decide, trivial⟩
  · exact ⟨trivial, trivial, by decide, trivial, trivial, by decide, trivial, trivial, by decide,
      trivial, trivial, by decide, trivial⟩

end PgJobQ
