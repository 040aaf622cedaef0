import PgJobQ.Library.InsertionMap
import PgJobQ.Worker.Reports

/-!
# Effects of jobs that are delivered again

A worker may stop at any moment, so a job is delivered as often as its attempts
allow.  Its handler asks `recordEffect` first, whose key is the id of the job,
and applies its effect when the key is new.  The keys are in the memory of the
process and are lost with it; a process that is started again is another one.

In such a process the effect of a job is applied once at most.  A job that is
recorded as succeeded has had its effect, once in all if it was delivered to one
process only, and one delivery has recorded it.
-/

namespace PgJobQ

open Runs

/-! ## Handlers of a fleet -/

/-- `recordEffect`: whether the key is new. -/
def recordEffect (effects : InsertionMap Nat Nat) (id : Nat) : Bool × InsertionMap Nat Nat :=
  (!decide (id ∈ effects.keys), effects.set id ((effects.get id).getD 0 + 1))

/-- A fleet, the deliveries whose handlers have called `recordEffect`, the keys
in each process, and the effects that were applied, with the process and the
job. -/
structure HandledFleet where
  fleet : Fleet
  recorded : List Nat
  effects : Nat -> InsertionMap Nat Nat
  applied : List (Nat × Nat)

/-- A step of the fleet, or the call of `recordEffect` in a delivery. -/
inductive HandledLabel where
  | fleet (label : FleetLabel)
  | records (index : Nat)

namespace HandledFleet

def start (db : Database) : HandledFleet := ⟨⟨db, []⟩, [], fun _ => .empty, []⟩

/-- A handler resolves after it has recorded its effect.  Nobody but a runner
completes jobs. -/
def takes (handled : HandledFleet) : FleetLabel -> Bool
  | .call call => !call.statement.isCompletion
  | .start _ _ => true
  | .deliver index (.settle .resolves _) => decide (index ∈ handled.recorded)
  | .deliver _ (.other call) => !call.statement.isCompletion
  | .deliver _ _ => true

/-- The handler of a delivery records its effect, and applies it if it is the
first one in its process to do so. -/
def records (handled : HandledFleet) (process index : Nat) (delivery : JobRun) : HandledFleet :=
  match delivery.runner.phase with
  | .handling =>
      let first := recordEffect (handled.effects process) delivery.job.id
      { handled with
        recorded := index :: handled.recorded
        effects := Function.update handled.effects process first.2
        applied :=
          if first.1 then handled.applied ++ [(process, delivery.job.id)] else handled.applied }
  | _ => handled

def step (process : Nat -> Nat) (handled : HandledFleet) : HandledLabel -> HandledFleet
  | .fleet label =>
      if handled.takes label then { handled with fleet := handled.fleet.step label } else handled
  | .records index =>
      match handled.fleet.deliveries[index]? with
      | none => handled
      | some delivery => handled.records (process index) index delivery

/-- The change that a step makes to a row on behalf of a delivery of this job. -/
def write (handled : HandledFleet) : HandledLabel -> Option (Nat × RowWrite)
  | .fleet (.deliver index label) =>
      match handled.fleet.deliveries[index]? with
      | none => none
      | some delivery =>
          if handled.takes (.deliver index label) then
            ((delivery.on handled.fleet.db).write delivery.opts delivery.job label).map
              (fun write => (delivery.job.id, write))
          else none
  | _ => none

end HandledFleet

/-- A fleet with all writes of its deliveries, newest first. -/
abbrev HandledRun := Recorded HandledFleet (Nat × RowWrite)

def HandledRun.step (process : Nat -> Nat) : HandledRun -> HandledLabel -> HandledRun :=
  recordStep (HandledFleet.step process) HandledFleet.write

/-- The fleet after these steps, with the process that runs each delivery. -/
def handledAfter (process : Nat -> Nat) (partitions : List ArchivePartition)
    (config : QueueConfigTable) (labels : List HandledLabel) : HandledRun :=
  run (HandledRun.step process) ⟨.start (.empty partitions config), []⟩ labels

/-- How often deliveries of a job have recorded that it succeeded. -/
def completions (id : Nat) (history : List (Nat × RowWrite)) : Nat :=
  history.countP (fun write => write.1 = id && write.2.statement.isCompletion)

/-! ## The success path of a delivery -/

/-- The handler has resolved, and its success is not recorded yet. -/
def RunPhase.succeeding : RunPhase -> Bool
  | .acknowledging => true
  | .completing => true
  | _ => false

namespace RunnerState

section

variable {opts : RunnerOptions} {job : JobRow} {state : RunnerState}

theorem not_succeeding_fail (e : Thrown) (timedOut : Bool) (draw : ReportDraw) :
    (state.fail opts job e timedOut draw).phase.succeeding = false := by
  cases built : failRequest opts job e timedOut draw with
  | none =>
      rw [fail_unbuilt built]
      exact rfl
  | some request =>
      rw [fail_built built]
      exact rfl

theorem not_succeeding_reportFailure (e : Thrown) (draw : ReportDraw) :
    (state.reportFailure opts job e draw).phase.succeeding = false := by
  unfold reportFailure
  split
  · exact rfl
  · split
    · exact rfl
    · exact not_succeeding_fail e state.timedOut draw

theorem not_succeeding_raise (error : DatabaseError) (draw : ReportDraw)
    (awaits : state.phase.awaits = true) :
    (state.raise opts job error draw).phase.succeeding = false := by
  unfold raise
  cases phase : state.phase with
  | acknowledging => exact not_succeeding_reportFailure error.thrown draw
  | completing => exact not_succeeding_reportFailure error.thrown draw
  | acknowledgingFailure e timedOut => exact rfl
  | failing request => exact rfl
  | handling =>
      rw [phase] at awaits
      cases awaits
  | returned outcome =>
      rw [phase] at awaits
      cases awaits
  | threw =>
      rw [phase] at awaits
      cases awaits

/-- Only an answer to an acknowledgement continues on this path. -/
theorem succeeding_answer (rows : List JobRow) (draw : ReportDraw)
    (awaits : state.phase.awaits = true)
    (next : (state.answer opts job draw rows).phase.succeeding = true) :
    state.phase.succeeding = true := by
  unfold answer at next
  cases phase : state.phase with
  | acknowledging => exact rfl
  | completing => exact rfl
  | acknowledgingFailure e timedOut =>
      simp only [phase] at next
      split at next
      · rw [not_succeeding_fail] at next
        cases next
      · cases next
  | failing request =>
      simp only [phase] at next
      split at next
      · cases next
      · split at next <;> cases next
  | handling =>
      rw [phase] at awaits
      cases awaits
  | returned outcome =>
      rw [phase] at awaits
      cases awaits
  | threw =>
      rw [phase] at awaits
      cases awaits

/-- What is known about the handler when its success is about to be recorded. -/
def Succeeds (state : RunnerState) : Prop := state.phase.succeeding = true -> state.resolved = true

/-- A step of a delivery, and what it says about the handler. -/
theorem resolved_step (label : RunnerLabel) :
    (state.step opts job label).resolved = state.resolved ∨
      (state.step opts job label).resolved = true ∧
        Exists fun draw : ReportDraw => label = .settle .resolves draw := by
  cases label with
  | settle settlement draw =>
      unfold step
      dsimp only
      split
      · cases settlement with
        | resolves => exact Or.inr ⟨rfl, draw, rfl⟩
        | throws e => exact Or.inl (reportFailure_resolved opts job e draw state)
      · exact Or.inl rfl
  | report now behaviour error draw =>
      refine Or.inl ?_
      cases ran : state.execReport opts job now with
      | none => rw [report_idle ran]
      | some executes =>
          rcases report_awaited behaviour error draw ran with ⟨executed, rfl, rfl⟩ | ⟨db, raised⟩
          · rw [report_answered ran]
            exact answer_resolved opts job draw executed.reply.rows _
          · rw [raised]
            exact raise_resolved opts job error draw _
  | timeout => exact Or.inl (step_frame opts job state (by simp) (by simp)).2
  | sendHeartbeat => exact Or.inl rfl
  | heartbeat now behaviour => exact Or.inl (step_frame opts job state (by simp) (by simp)).2
  | heartbeatReply index => exact Or.inl (step_frame opts job state (by simp) (by simp)).2
  | other call => exact Or.inl rfl

theorem Succeeds.step (succeeds : state.Succeeds) (label : RunnerLabel) :
    (state.step opts job label).Succeeds := by
  intro next
  have frame : (forall settlement draw, label ≠ .settle settlement draw) ->
      (forall now behaviour error draw, label ≠ .report now behaviour error draw) ->
        (state.step opts job label).resolved = true := by
    intro unsettling unreporting
    have frame := step_frame opts job state unsettling unreporting
    rw [frame.1] at next
    rw [frame.2]
    exact succeeds next
  cases label with
  | settle settlement draw =>
      unfold RunnerState.step at next ⊢
      dsimp only at next ⊢
      split at next
      · cases settlement with
        | resolves => exact rfl
        | throws e =>
            change (state.reportFailure opts job e draw).phase.succeeding = true at next
            rw [not_succeeding_reportFailure] at next
            cases next
      · exact succeeds next
  | report now behaviour error draw =>
      cases ran : state.execReport opts job now with
      | none =>
          rw [report_idle ran] at next ⊢
          exact succeeds next
      | some executes =>
          have awaits := awaits_of_execReport ran
          rcases report_awaited behaviour error draw ran with ⟨executed, rfl, rfl⟩ | ⟨db, raised⟩
          · rw [report_answered ran] at next ⊢
            rw [answer_resolved]
            exact succeeds (@succeeding_answer opts job { state with db := executed.reply.db } _ draw awaits next)
          · rw [raised, @not_succeeding_raise opts job { state with db := db } error draw awaits] at next
            cases next
  | timeout => exact frame (by simp) (by simp)
  | sendHeartbeat => exact frame (by simp) (by simp)
  | heartbeat now behaviour => exact frame (by simp) (by simp)
  | heartbeatReply index => exact frame (by simp) (by simp)
  | other call => exact frame (by simp) (by simp)

/-- Only the success path completes the job. -/
theorem completing_of_execReport {now : Timestamp} {executed : Executed} {p : FenceParams}
    (ran : state.execReport opts job now = some (.ok executed))
    (completes : executed.statement = .completeJob p) :
    state.phase = .completing ∧ p = opts.fence job := by
  unfold execReport at ran
  cases phase : state.phase with
  | handling => rw [phase] at ran; cases ran
  | returned outcome => rw [phase] at ran; cases ran
  | threw => rw [phase] at ran; cases ran
  | acknowledging =>
      rw [phase] at ran
      rw [(Statement.report_ok (Option.some.inj ran)).1] at completes
      cases completes
  | acknowledgingFailure e timedOut =>
      rw [phase] at ran
      rw [(Statement.report_ok (Option.some.inj ran)).1] at completes
      cases completes
  | failing request =>
      rw [phase] at ran
      rcases FailRequest.exec_ok (Option.some.inj ran) with ⟨record, stored, issued, _⟩
      rw [issued] at completes
      cases completes
  | completing =>
      rw [phase] at ran
      rw [(Statement.report_ok (Option.some.inj ran)).1] at completes
      cases completes
      exact ⟨rfl, rfl⟩

theorem completion_of_sends {label : RunnerLabel} {now : Timestamp} {p : FenceParams}
    (sends : state.sends opts job label = some ⟨now, .completeJob p⟩) :
    label = .other ⟨now, .completeJob p⟩ ∨ (state.phase = .completing ∧ p = opts.fence job ∧
      Exists fun behaviour : Behaviour => Exists fun error : DatabaseError =>
        Exists fun draw : ReportDraw =>
          label = .report now behaviour error draw ∧ behaviour ≠ .refused) := by
  cases label with
  | other call =>
      cases sends
      exact Or.inl rfl
  | heartbeat time behaviour =>
      unfold RunnerState.sends at sends
      dsimp only at sends
      split at sends <;> cases sends
  | report time behaviour error draw =>
      unfold RunnerState.sends at sends
      dsimp only at sends
      split at sends
      · cases sends
      · rename_i executed reached ran
        have same := Call.mk.inj (Option.some.inj sends)
        have completing := completing_of_execReport ran same.2
        rw [same.1]
        exact Or.inr ⟨completing.1, completing.2, _, error, draw, rfl, reached⟩
      · cases sends
  | timeout => cases sends
  | sendHeartbeat => cases sends
  | heartbeatReply index => cases sends
  | settle settlement draw => cases sends

/-- Whoever completes the job held it, and nobody holds it again. -/
theorem spent_of_completion {label : RunnerLabel} {write : RowWrite}
    (written : state.write opts job label = some write)
    (completes : write.statement.isCompletion = true) :
    state.phase = .completing ∧ state.Owned opts job ∧
      Spent job.id (state.step opts job label).db := by
  have writes := (writes_of_write written).2
  generalize isStatement : write.statement = statement at writes completes
  cases writes with
  | heartbeat sent reached owned => cases completes
  | acknowledge => cases completes
  | fail phase stored reached ran hit => cases completes
  | @complete now behaviour error draw phase reached owned =>
      refine ⟨phase, owned, ?_⟩
      unfold RunnerState.write at written
      dsimp only at written
      cases ran : state.execReport opts job now with
      | none =>
          simp only [ran] at written
          cases written
      | some executes =>
          simp only [ran] at written
          rcases wrote_eq_some_iff.mp written with ⟨executed, rfl, _, listed, _⟩
          rcases List.exists_cons_of_ne_nil listed with ⟨row, rows, isRows⟩
          have fenced : Fenced opts job state.phase := by
            rw [phase]
            exact trivial
          have hits := report_hits fenced ran isRows
          have sends : state.sends opts job (.report now behaviour error draw) =
              some ⟨now, executed.statement⟩ := by
            unfold RunnerState.sends
            cases behaviour with
            | refused => exact absurd rfl reached
            | answered => simp only [ran]
            | lost => simp only [ran]
          rw [step_db, sends]
          dsimp only
          rw [db_of_execReport ran]
          refine Or.inr ⟨row, hits.2.1, Or.inl ?_⟩
          have ends := hits.2.2.1
          rw [phase] at ends
          exact (Option.some.inj ends).symm

end

end RunnerState

/-! ## Succeeded rows -/

/-- A row is marked succeeded by whoever holds it. -/
theorem RowStep.succeeds {now : Timestamp} {statement : Statement} {old new : JobRow}
    (step : RowStep now statement old new) (succeeded : new.state = .succeeded) :
    Exists fun p : FenceParams => statement = .completeJob p ∧ p.owns old = true := by
  cases step with
  | complete owned => exact ⟨_, rfl, owned⟩
  | claim claims queue ready due => cases succeeded
  | failNonRetryable owned final => cases succeeded
  | failExhausted owned retryable exhausted => cases succeeded
  | failRetry owned retryable remaining => cases succeeded
  | acknowledge owned requested => cases succeeded
  | release owned => cases succeeded
  | reapExhausted expired exhausted => cases succeeded
  | reapRetry expired remaining => cases succeeded
  | cancelAvailable same waiting => cases succeeded
  | replay replays buried => cases succeeded
  | heartbeat owned =>
      change old.state = .succeeded at succeeded
      rw [(FenceParams.owns_iff.mp owned).2.1] at succeeded
      cases succeeded
  | requestCancel same started =>
      change old.state = .succeeded at succeeded
      rw [started] at succeeded
      cases succeeded
  | retryNow same waiting =>
      change old.state = .succeeded at succeeded
      rw [waiting] at succeeded
      cases succeeded

/-- Where a succeeded row, or the copy of one, comes from. -/
theorem succeeded_step {db : Database} {call : Call} {row : JobRow}
    (member : row ∈ (db.step call).job.rows) (succeeded : row.state = .succeeded) :
    row ∈ db.job.rows ∨ Exists fun p : FenceParams => call.statement = .completeJob p ∧
      p.id = row.id ∧ Exists fun old : JobRow => old ∈ db.job.rows ∧ p.owns old = true := by
  rcases Database.step_cases db call with stays | ⟨reply, committed, moves⟩
  · exact Or.inl (stays ▸ member)
  · rw [moves] at member
    cases exec_rowOrigin committed member with
    | kept present silent => exact Or.inl present
    | @stepped old present same step listed =>
        rcases step.succeeds succeeded with ⟨p, completes, owned⟩
        exact Or.inr ⟨p, completes, (FenceParams.owns_iff.mp owned).1.symm.trans same, old, present,
          owned⟩
    | inserted asked fresh isNew =>
        rw [isNew] at succeeded
        cases succeeded

theorem copied_step {db : Database} {call : Call} {copy : ArchiveRow}
    (member : copy ∈ (db.step call).jobArchive) :
    copy ∈ db.jobArchive ∨ Exists fun row : JobRow => row ∈ db.job.rows ∧
      copy = archiveRow call.now row := by
  rcases Database.step_cases db call with stays | ⟨reply, committed, moves⟩
  · exact Or.inl (stays ▸ member)
  · rw [moves] at member
    rcases (exec_frame committed).2 with ⟨same, _⟩ | ⟨p, locked, archives, appended⟩
    · exact Or.inl (same ▸ member)
    · rw [archives] at committed
      rw [appended, archiveTerminalJobs_ok committed] at member
      rcases List.mem_append.mp member with earlier | added
      · exact Or.inl earlier
      · rcases List.mem_map.mp added with ⟨row, listed, isCopy⟩
        exact Or.inr ⟨row, (List.mem_filter.mp listed).1, isCopy.symm⟩

/-! ## Deliveries through one step -/

namespace Fleet

/-- Where a delivery that is there after a step comes from. -/
inductive DeliveryOrigin (fleet : Fleet) (index : Nat) : FleetLabel -> JobRun -> Prop where
  | kept {label delivery} (was : fleet.deliveries[index]? = some delivery) :
      DeliveryOrigin fleet index label delivery
  | started {opts job} : DeliveryOrigin fleet index (.start opts job) ⟨opts, job, .start fleet.db⟩
  | stepped {label delivery} (was : fleet.deliveries[index]? = some delivery) :
      DeliveryOrigin fleet index (.deliver index label)
        { delivery with
          runner := (delivery.on fleet.db).step delivery.opts delivery.job label }

theorem delivery_origin {fleet : Fleet} {label : FleetLabel} {index : Nat} {delivery : JobRun}
    (found : (fleet.step label).deliveries[index]? = some delivery) :
    fleet.DeliveryOrigin index label delivery := by
  cases label with
  | call call => exact .kept found
  | start opts job =>
      change (fleet.deliveries ++ [⟨opts, job, .start fleet.db⟩])[index]? = some delivery at found
      rcases Nat.lt_or_ge index fleet.deliveries.length with inside | outside
      · rw [List.getElem?_append_left inside] at found
        exact .kept found
      · rw [List.getElem?_append_right outside, List.getElem?_singleton] at found
        split at found
        · cases found
          exact .started
        · cases found
  | deliver position label =>
      unfold Fleet.step at found
      dsimp only at found
      cases was : fleet.deliveries[position]? with
      | none =>
          rw [was] at found
          exact .kept found
      | some old =>
          rw [was] at found
          dsimp only at found
          rw [List.getElem?_set] at found
          split at found
          · rename_i same
            subst same
            split at found
            · cases found
              exact .stepped was
            · cases found
          · exact .kept found

/-- A delivery stays with its job, and its handler stays resolved. -/
theorem delivery_stays {fleet : Fleet} (label : FleetLabel) {index : Nat} {delivery : JobRun}
    (was : fleet.deliveries[index]? = some delivery) :
    Exists fun next : JobRun => (fleet.step label).deliveries[index]? = some next ∧
      next.job = delivery.job ∧
        (delivery.runner.resolved = true -> next.runner.resolved = true) := by
  have inside : index < fleet.deliveries.length := (List.getElem?_eq_some_iff.mp was).1
  cases label with
  | call call => exact ⟨delivery, was, rfl, id⟩
  | start opts job =>
      refine ⟨delivery, ?_, rfl, id⟩
      change (fleet.deliveries ++ [⟨opts, job, .start fleet.db⟩])[index]? = some delivery
      rw [List.getElem?_append_left inside]
      exact was
  | deliver position label =>
      unfold Fleet.step
      dsimp only
      cases found : fleet.deliveries[position]? with
      | none => exact ⟨delivery, was, rfl, id⟩
      | some old =>
          dsimp only
          rw [List.getElem?_set]
          split
          · rename_i same
            subst same
            rw [was] at found
            cases found
            rw [if_pos inside]
            refine ⟨_, rfl, rfl, fun resolved => ?_⟩
            rcases @RunnerState.resolved_step delivery.opts delivery.job (delivery.on fleet.db) label
              with stays | ⟨resolves, _⟩
            · exact stays.trans resolved
            · exact resolves
          · exact ⟨delivery, was, rfl, id⟩

/-- The statement a step executes. -/
theorem db_step (fleet : Fleet) (label : FleetLabel) : (fleet.step label).db =
    match fleet.sends label with
    | some call => fleet.db.step call
    | none => fleet.db :=
  @FleetRun.db_step ⟨fleet, []⟩ label

end Fleet

/-! ## The handlers -/

/-- The delivery with this index is one of this job. -/
def HandledFleet.Delivers (handled : HandledFleet) (index id : Nat) : Prop :=
  Exists fun delivery : JobRun =>
    handled.fleet.deliveries[index]? = some delivery ∧ delivery.job.id = id

/-- What holds of handlers that record their effects before they resolve. -/
structure HandlersSound (process : Nat -> Nat) (handled : HandledFleet) : Prop where
  once : handled.applied.Nodup
  keys : forall number id, id ∈ (handled.effects number).keys <-> (number, id) ∈ handled.applied
  delivered : forall number id, (number, id) ∈ handled.applied ->
    Exists fun index : Nat => handled.Delivers index id ∧ process index = number
  recorded : forall index, index ∈ handled.recorded ->
    Exists fun id : Nat => handled.Delivers index id ∧ (process index, id) ∈ handled.applied
  resolved : forall (index : Nat) (delivery : JobRun), handled.fleet.deliveries[index]? = some delivery ->
    delivery.runner.resolved = true -> index ∈ handled.recorded
  succeeds : forall (index : Nat) (delivery : JobRun), handled.fleet.deliveries[index]? = some delivery ->
    delivery.runner.Succeeds

theorem HandledFleet.Delivers.step {handled : HandledFleet} {index id : Nat}
    (delivers : handled.Delivers index id) (label : FleetLabel) :
    { handled with fleet := handled.fleet.step label }.Delivers index id := by
  rcases delivers with ⟨delivery, was, same⟩
  rcases Fleet.delivery_stays label was with ⟨next, found, job, _⟩
  exact ⟨next, found, (congrArg JobRow.id job).trans same⟩

namespace HandlersSound

variable {process : Nat -> Nat} {handled : HandledFleet}

theorem start (db : Database) : HandlersSound process (.start db) where
  once := List.nodup_nil
  keys _ _ := ⟨fun member => absurd member List.not_mem_nil,
    fun member => absurd member List.not_mem_nil⟩
  delivered _ _ member := absurd member List.not_mem_nil
  recorded _ member := absurd member List.not_mem_nil
  resolved _ _ found := by cases found
  succeeds _ _ found := by cases found

/-- A step of the fleet. -/
theorem fleet (sound : HandlersSound process handled) {label : FleetLabel}
    (takes : handled.takes label = true) :
    HandlersSound process { handled with fleet := handled.fleet.step label } where
  once := sound.once
  keys := sound.keys
  delivered := by
    intro number id member
    rcases sound.delivered number id member with ⟨index, delivers, same⟩
    exact ⟨index, delivers.step label, same⟩
  recorded := by
    intro index member
    rcases sound.recorded index member with ⟨id, delivers, applied⟩
    exact ⟨id, delivers.step label, applied⟩
  resolved := by
    intro index delivery found resolved
    cases Fleet.delivery_origin found with
    | kept was => exact sound.resolved index delivery was resolved
    | started => cases resolved
    | @stepped inner delivery was =>
        rcases @RunnerState.resolved_step delivery.opts delivery.job (delivery.on handled.fleet.db)
          inner with stays | ⟨_, draw, settles⟩
        · exact sound.resolved index delivery was (stays.symm.trans resolved)
        · rw [settles] at takes
          exact of_decide_eq_true takes
  succeeds := by
    intro index delivery found
    cases Fleet.delivery_origin found with
    | kept was => exact sound.succeeds index delivery was
    | started =>
        intro impossible
        cases impossible
    | @stepped inner delivery was =>
        have before : (delivery.on handled.fleet.db).Succeeds := sound.succeeds index delivery was
        exact before.step inner

/-- The keys of a process with one more. -/
theorem mem_keys_update {effects : Nat -> InsertionMap Nat Nat} {number id other job : Nat} :
    job ∈ (Function.update effects number (recordEffect (effects number) id).2 other).keys <->
      (other, job) = (number, id) ∨ job ∈ (effects other).keys := by
  by_cases same : other = number
  · subst same
    rw [Function.update_self, recordEffect, InsertionMap.mem_keys_set_iff, Prod.mk.injEq]
    simp
  · rw [Function.update_of_ne same, Prod.mk.injEq]
    simp [same]

/-- A handler records its effect. -/
theorem records (sound : HandlersSound process handled) {index : Nat} {delivery : JobRun}
    (found : handled.fleet.deliveries[index]? = some delivery) :
    HandlersSound process (handled.records (process index) index delivery) := by
  unfold HandledFleet.records
  cases phase : delivery.runner.phase with
  | handling =>
      have delivers : handled.Delivers index delivery.job.id := ⟨delivery, found, rfl⟩
      have keys : forall number id, id ∈ (Function.update handled.effects (process index)
            (recordEffect (handled.effects (process index)) delivery.job.id).2 number).keys <->
          (number, id) = (process index, delivery.job.id) ∨ (number, id) ∈ handled.applied := by
        intro number id
        rw [mem_keys_update, sound.keys]
      by_cases seen : delivery.job.id ∈ (handled.effects (process index)).keys
      · have applied := (sound.keys _ _).mp seen
        have first : (recordEffect (handled.effects (process index)) delivery.job.id).1 = false := by
          simp [recordEffect, seen]
        dsimp only
        rw [first, if_neg Bool.false_ne_true]
        refine ⟨sound.once, fun number id => ?_, sound.delivered, ?_, ?_, sound.succeeds⟩
        · exact (keys number id).trans (or_iff_right_of_imp (fun same => same ▸ applied))
        · intro other member
          rcases List.mem_cons.mp member with rfl | earlier
          · exact ⟨delivery.job.id, delivers, applied⟩
          · exact sound.recorded other earlier
        · intro other run there resolved
          exact List.mem_cons_of_mem index (sound.resolved other run there resolved)
      · have fresh : (process index, delivery.job.id) ∉ handled.applied :=
          fun member => seen ((sound.keys _ _).mpr member)
        have first : (recordEffect (handled.effects (process index)) delivery.job.id).1 = true := by
          simp [recordEffect, seen]
        dsimp only
        rw [first, if_pos rfl]
        refine ⟨?_, fun number id => ?_, ?_, ?_, ?_, sound.succeeds⟩
        · exact List.nodup_append.mpr ⟨sound.once, List.nodup_singleton _, by
            intro other member new isNew same
            rw [same, List.mem_singleton.mp isNew] at member
            exact fresh member⟩
        · rw [keys number id, List.mem_append, List.mem_singleton, or_comm]
        · intro number id member
          rcases List.mem_append.mp member with earlier | new
          · exact sound.delivered number id earlier
          · have same := Prod.mk.inj (List.mem_singleton.mp new)
            rw [same.1, same.2]
            exact ⟨index, delivers, rfl⟩
        · intro other member
          rcases List.mem_cons.mp member with rfl | earlier
          · exact ⟨delivery.job.id, delivers, List.mem_append_right _ (List.mem_singleton_self _)⟩
          · rcases sound.recorded other earlier with ⟨id, there, applied⟩
            exact ⟨id, there, List.mem_append_left _ applied⟩
        · intro other run there resolved
          exact List.mem_cons_of_mem index (sound.resolved other run there resolved)
  | _ => exact sound

theorem step (sound : HandlersSound process handled) (label : HandledLabel) :
    HandlersSound process (handled.step process label) := by
  cases label with
  | fleet label =>
      simp only [HandledFleet.step]
      split
      · rename_i takes
        exact sound.fleet takes
      · exact sound
  | records index =>
      simp only [HandledFleet.step]
      split
      · exact sound
      · rename_i delivery found
        exact sound.records found

end HandlersSound

/-! ## Completions -/

/-- A step records that this job has succeeded. -/
def HandledFleet.Completes (handled : HandledFleet) (label : HandledLabel) (id : Nat) : Prop :=
  Exists fun write : RowWrite => handled.write label = some (id, write) ∧
    write.statement.isCompletion = true

section

variable {process : Nat -> Nat} {run : HandledRun} {label : HandledLabel} {id : Nat}

theorem completions_of_completes (completes : run.state.Completes label id) :
    completions id (run.step process label).history = completions id run.history + 1 := by
  rcases completes with ⟨write, written, completion⟩
  unfold completions HandledRun.step recordStep
  rw [written, Option.toList_some, List.singleton_append, List.countP_cons]
  simp [completion]

theorem completions_of_not (silent : Not (run.state.Completes label id)) :
    completions id (run.step process label).history = completions id run.history := by
  unfold completions HandledRun.step recordStep
  cases written : run.state.write label with
  | none => exact rfl
  | some event =>
      rw [Option.toList_some, List.singleton_append, List.countP_cons]
      have unmatched : (decide (event.1 = id) && event.2.statement.isCompletion) = false := by
        rw [Bool.and_eq_false_iff]
        by_cases same : event.1 = id
        · refine Or.inr (Bool.eq_false_iff.mpr fun completion => silent ⟨event.2, ?_, completion⟩)
          rw [written, ← same]
        · exact Or.inl (decide_eq_false same)
      rw [unmatched, if_neg Bool.false_ne_true, Nat.add_zero]

theorem completions_le_step (id : Nat) :
    completions id run.history ≤ completions id (run.step process label).history := by
  by_cases completes : run.state.Completes label id
  · rw [completions_of_completes completes]
    exact Nat.le_succ _
  · rw [completions_of_not completes]

end

/-- The step by which a delivery completes its job. -/
structure CompletionStep (handled : HandledFleet) (label : FleetLabel) (id : Nat) : Prop where
  held : Not (Spent id handled.fleet.db)
  spent : Spent id (handled.fleet.step label).db
  resolved : Exists fun index : Nat => Exists fun delivery : JobRun =>
    handled.fleet.deliveries[index]? = some delivery ∧ delivery.job.id = id ∧
      delivery.runner.resolved = true

theorem HandlersSound.completionStep {process : Nat -> Nat} {handled : HandledFleet}
    (sound : HandlersSound process handled)
    {label : HandledLabel} {id : Nat} (completes : handled.Completes label id) :
    Exists fun step : FleetLabel => label = .fleet step ∧ handled.takes step = true ∧
      CompletionStep handled step id := by
  rcases completes with ⟨write, written, completion⟩
  unfold HandledFleet.write at written
  split at written
  · rename_i index inner
    split at written
    · cases written
    · rename_i delivery found
      split at written
      · rename_i takes
        rcases Option.map_eq_some_iff.mp written with ⟨stored, wrote, same⟩
        cases same
        have spent := RunnerState.spent_of_completion wrote completion
        refine ⟨.deliver index inner, rfl, takes, ?_, ?_, index, delivery, found, rfl, ?_⟩
        · exact fun before => before.not_owned spent.2.1
        · unfold Fleet.step
          simp only [found]
          exact spent.2.2
        · apply sound.succeeds index delivery found
          have phase : delivery.runner.phase = .completing := spent.1
          rw [phase]
          exact rfl
      · cases written
  · cases written

/-- What is known about the successes that have been recorded. -/
structure SuccessesSound (run : HandledRun) : Prop where
  once : forall id, completions id run.history ≤ 1
  spent : forall id, completions id run.history = 1 -> Spent id run.state.fleet.db
  resolved : forall id, completions id run.history = 1 ->
    Exists fun index : Nat => Exists fun delivery : JobRun =>
      run.state.fleet.deliveries[index]? = some delivery ∧ delivery.job.id = id ∧
        delivery.runner.resolved = true
  rows : forall row, row ∈ run.state.fleet.db.job.rows -> row.state = .succeeded ->
    completions row.id run.history = 1
  copies : forall copy, copy ∈ run.state.fleet.db.jobArchive -> copy.state = .succeeded ->
    completions copy.id run.history = 1

namespace SuccessesSound

variable {process : Nat -> Nat} {run : HandledRun}

theorem start (partitions : List ArchivePartition) (config : QueueConfigTable) :
    SuccessesSound ⟨.start (.empty partitions config), []⟩ where
  once _ := Nat.zero_le 1
  spent _ one := by cases one
  resolved _ one := by cases one
  rows _ member := absurd member List.not_mem_nil
  copies _ member := absurd member List.not_mem_nil

/-- No job is completed twice. -/
theorem once_step (successes : SuccessesSound run) (sound : HandlersSound process run.state)
    (label : HandledLabel) (id : Nat) : completions id (run.step process label).history ≤ 1 := by
  by_cases completes : run.state.Completes label id
  · rcases sound.completionStep completes with ⟨_, _, _, completion⟩
    have before : completions id run.history = 0 := by
      have few := successes.once id
      have other : completions id run.history ≠ 1 :=
        fun one => completion.held (successes.spent id one)
      omega
    rw [completions_of_completes completes, before]
  · rw [completions_of_not completes]
    exact successes.once id

theorem still (successes : SuccessesSound run) (sound : HandlersSound process run.state)
    (label : HandledLabel) {id : Nat} (one : completions id run.history = 1) :
    completions id (run.step process label).history = 1 :=
  Nat.le_antisymm (successes.once_step sound label id)
    (one ▸ @completions_le_step process run label id)

/-- A row that a step of the fleet marks succeeded is completed by a delivery. -/
theorem completes_of_row {label : FleetLabel}
    (takes : run.state.takes label = true) {call : Call}
    (sends : run.state.fleet.sends label = some call) {p : FenceParams}
    (issued : call.statement = .completeJob p) {old : JobRow}
    (member : old ∈ run.state.fleet.db.job.rows) (owned : p.owns old = true) :
    run.state.Completes (.fleet label) p.id := by
  rcases call with ⟨now, statement⟩
  change statement = .completeJob p at issued
  subst issued
  cases label with
  | call call =>
      cases sends
      cases takes
  | start opts job => cases sends
  | deliver index label =>
      unfold Fleet.sends at sends
      dsimp only at sends
      split at sends
      · cases sends
      · rename_i delivery found
        rcases RunnerState.completion_of_sends sends with
          rfl | ⟨phase, isFence, behaviour, error, draw, rfl, reached⟩
        · cases takes
        · subst isFence
          have isOwned : (delivery.on run.state.fleet.db).Owned delivery.opts delivery.job :=
            ⟨old, member, owned⟩
          have written := RunnerState.write_completion now error draw phase reached isOwned
          refine ⟨⟨.completeJob (delivery.opts.fence delivery.job), delivery.runner.late⟩, ?_, rfl⟩
          unfold HandledFleet.write
          simp only [found, takes, if_true, written, Option.map_some]
          exact rfl

/-- A step that is not one of the fleet. -/
theorem of_unmoved (successes : SuccessesSound run) (sound : HandlersSound process run.state)
    {label : HandledLabel} (same : (run.step process label).state.fleet = run.state.fleet)
    (silent : forall id, Not (run.state.Completes label id)) : SuccessesSound (run.step process label) where
  once := successes.once_step sound label
  spent := by
    intro id one
    rw [same]
    rw [completions_of_not (silent id)] at one
    exact successes.spent id one
  resolved := by
    intro id one
    rw [same]
    rw [completions_of_not (silent id)] at one
    exact successes.resolved id one
  rows := by
    intro row member succeeded
    rw [same] at member
    exact successes.still sound label (successes.rows row member succeeded)
  copies := by
    intro copy member succeeded
    rw [same] at member
    exact successes.still sound label (successes.copies copy member succeeded)

/-- A step of the fleet. -/
theorem of_fleet (successes : SuccessesSound run) (sound : HandlersSound process run.state)
    {label : FleetLabel} (takes : run.state.takes label = true)
    (moves : (run.step process (.fleet label)).state.fleet = run.state.fleet.step label) :
    SuccessesSound (run.step process (.fleet label)) where
  once := successes.once_step sound (.fleet label)
  spent := by
    intro id one
    rw [moves]
    by_cases completes : run.state.Completes (.fleet label) id
    · rcases sound.completionStep completes with ⟨step, same, _, completion⟩
      cases same
      exact completion.spent
    · rw [completions_of_not completes] at one
      have spent := successes.spent id one
      rw [Fleet.db_step]
      cases run.state.fleet.sends label with
      | none => exact spent
      | some call => exact spent.step call
  resolved := by
    intro id one
    rw [moves]
    have earlier : Exists fun index : Nat => Exists fun delivery : JobRun =>
        run.state.fleet.deliveries[index]? = some delivery ∧ delivery.job.id = id ∧
          delivery.runner.resolved = true := by
      by_cases completes : run.state.Completes (.fleet label) id
      · rcases sound.completionStep completes with ⟨_, _, _, completion⟩
        exact completion.resolved
      · rw [completions_of_not completes] at one
        exact successes.resolved id one
    rcases earlier with ⟨index, delivery, was, same, resolved⟩
    rcases Fleet.delivery_stays label was with ⟨next, found, job, stays⟩
    exact ⟨index, next, found, (congrArg JobRow.id job).trans same, stays resolved⟩
  rows := by
    intro row member succeeded
    rw [moves, Fleet.db_step] at member
    cases sends : run.state.fleet.sends label with
    | none =>
        rw [sends] at member
        exact successes.still sound _ (successes.rows row member succeeded)
    | some call =>
        rw [sends] at member
        rcases succeeded_step member succeeded with earlier | ⟨p, issued, same, old, there, owned⟩
        · exact successes.still sound _ (successes.rows row earlier succeeded)
        · have completes := completes_of_row takes sends issued there owned
          have few := successes.once_step sound (.fleet label) p.id
          rw [completions_of_completes completes] at few
          rw [← same, completions_of_completes completes]
          omega
  copies := by
    intro copy member succeeded
    rw [moves, Fleet.db_step] at member
    cases sends : run.state.fleet.sends label with
    | none =>
        rw [sends] at member
        exact successes.still sound _ (successes.copies copy member succeeded)
    | some call =>
        rw [sends] at member
        rcases copied_step member with earlier | ⟨row, there, isCopy⟩
        · exact successes.still sound _ (successes.copies copy earlier succeeded)
        · subst isCopy
          exact successes.still sound _ (successes.rows row there succeeded)

theorem step (successes : SuccessesSound run) (sound : HandlersSound process run.state)
    (label : HandledLabel) : SuccessesSound (run.step process label) := by
  cases label with
  | records index =>
      apply successes.of_unmoved sound
      · change (run.state.step process (.records index)).fleet = run.state.fleet
        unfold HandledFleet.step HandledFleet.records
        dsimp only
        split
        · exact rfl
        · split <;> exact rfl
      · rintro id ⟨write, written, _⟩
        cases written
  | fleet label =>
      have moved : (run.step process (.fleet label)).state = run.state.step process (.fleet label) := rfl
      by_cases takes : run.state.takes label = true
      · apply successes.of_fleet sound takes
        rw [moved, HandledFleet.step, if_pos takes]
      · apply successes.of_unmoved sound
        · rw [moved, HandledFleet.step, if_neg takes]
        · intro id completes
          rcases sound.completionStep completes with ⟨step, same, taken, _⟩
          cases same
          exact takes taken

end SuccessesSound

/-! ## Runs -/

theorem handled_sound (process : Nat -> Nat) (partitions : List ArchivePartition)
    (config : QueueConfigTable) (labels : List HandledLabel) :
    HandlersSound process (handledAfter process partitions config labels).state ∧
      SuccessesSound (handledAfter process partitions config labels) := by
  apply @run_invariant _ _ (HandledRun.step process)
    (fun run => HandlersSound process run.state ∧ SuccessesSound run)
  · exact fun run label both => ⟨both.1.step label, both.2.step both.1 label⟩
  · exact ⟨.start _, .start partitions config⟩

/-- One delivery has recorded that the job succeeded, and the job had its effect
in the process of a delivery whose handler has resolved.  Where all deliveries
of the job ran in one process, this is the only time. -/
structure DoneOnce (process : Nat -> Nat) (run : HandledRun) (id : Nat) : Prop where
  completed : completions id run.history = 1
  resolved : Exists fun index : Nat => Exists fun delivery : JobRun =>
    run.state.fleet.deliveries[index]? = some delivery ∧ delivery.job.id = id ∧
      delivery.runner.resolved = true ∧ (process index, id) ∈ run.state.applied
  once : forall number, (forall index, run.state.Delivers index id -> process index = number) ->
    run.state.applied.filter (fun made => made.2 = id) = [(number, id)]

/-- The effects of a job that ran in one process. -/
theorem HandlersSound.applied_once {process : Nat -> Nat} {handled : HandledFleet}
    (sound : HandlersSound process handled) {number id : Nat}
    (alone : forall index, handled.Delivers index id -> process index = number)
    (applied : (number, id) ∈ handled.applied) :
    handled.applied.filter (fun made => made.2 = id) = [(number, id)] := by
  have all : forall made, made ∈ handled.applied.filter (fun made => made.2 = id) ->
      made = (number, id) := by
    rintro ⟨other, job⟩ member
    rcases List.mem_filter.mp member with ⟨there, same⟩
    have isJob : job = id := of_decide_eq_true same
    subst isJob
    rcases sound.delivered other job there with ⟨index, delivers, isProcess⟩
    rw [← isProcess, alone index delivers]
  have single : (handled.applied.filter (fun made => made.2 = id)).count (number, id) = 1 := by
    rw [List.count_filter (by simp)]
    exact List.count_eq_one_of_mem sound.once applied
  have replicated := List.eq_replicate_of_mem all
  rw [replicated, List.count_replicate_self] at single
  rw [replicated, single]
  exact rfl

theorem doneOnce_of_completed {process : Nat -> Nat} {run : HandledRun}
    (sound : HandlersSound process run.state) (successes : SuccessesSound run) {id : Nat}
    (completed : completions id run.history = 1) : DoneOnce process run id := by
  rcases successes.resolved id completed with ⟨index, delivery, found, same, resolved⟩
  rcases sound.recorded index (sound.resolved index delivery found resolved) with
    ⟨other, ⟨there, foundToo, isOther⟩, applied⟩
  cases found.symm.trans foundToo
  rw [← isOther, same] at applied
  refine ⟨completed, ⟨index, delivery, found, same, resolved, applied⟩, fun number alone => ?_⟩
  have isNumber := alone index ⟨delivery, found, same⟩
  exact sound.applied_once alone (isNumber ▸ applied)

/-- Whatever is delivered again, lost or left by processes that stop, and whatever
everybody else does meanwhile: in no process is an effect applied twice, or for a
job that was not delivered to it.  A job that is in the state succeeded, in the
table or in the archive, has had its effect and has been completed once. -/
theorem effects_happen_once (process : Nat -> Nat) (partitions : List ArchivePartition)
    (config : QueueConfigTable) (labels : List HandledLabel) :
    (handledAfter process partitions config labels).state.applied.Nodup ∧
      (forall number id, (number, id) ∈ (handledAfter process partitions config labels).state.applied ->
        Exists fun index : Nat =>
          (handledAfter process partitions config labels).state.Delivers index id ∧
            process index = number) ∧
      (forall row, row ∈ (handledAfter process partitions config labels).state.fleet.db.job.rows ->
        row.state = .succeeded ->
          DoneOnce process (handledAfter process partitions config labels) row.id) ∧
      forall copy, copy ∈ (handledAfter process partitions config labels).state.fleet.db.jobArchive ->
        copy.state = .succeeded ->
          DoneOnce process (handledAfter process partitions config labels) copy.id := by
  have sound := handled_sound process partitions config labels
  refine ⟨sound.1.once, sound.1.delivered, ?_, ?_⟩
  · intro row member succeeded
    exact doneOnce_of_completed sound.1 sound.2 (sound.2.rows row member succeeded)
  · intro copy member succeeded
    exact doneOnce_of_completed sound.1 sound.2 (sound.2.copies copy member succeeded)

end PgJobQ
