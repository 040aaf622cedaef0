import Mathlib.Data.List.Induction
import PgJobQ.Lifecycle.RetentionService
import PgJobQ.Worker.Cancellation
import PgJobQ.Worker.HandlerSuccess

/-!
# What a delivery reports

`Runner.run` may send several reports for one delivery: an error of the first
one is reported like an error of the handler.  At most one of them changes the
row.  A report whose answer was lost has completed or cancelled the job, and
such a job is never held again, so the reports after it match nothing.

An outcome other than lost ownership is returned with the answer to the report
that changed the row, and the row is then in the state that the outcome names.
-/

namespace PgJobQ

open Runs

/-! ## Jobs that are not held again -/

/-- The job has succeeded or was cancelled, and may be gone since. -/
def Spent (id : Nat) (db : Database) : Prop :=
  Gone id db ∨ Exists fun row : JobRow => db.find id = some row ∧
    (row.state = .succeeded ∨ row.state = .cancelled)

theorem Spent.step {id : Nat} {db : Database} (spent : Spent id db) (call : Call) :
    Spent id (db.step call) := by
  rcases spent with gone | ⟨row, found, ended⟩
  · exact Or.inl (gone.step call)
  · have present := Database.find_eq_some_iff.mp found
    have finished : row.state.isTerminal = true := by
      rcases ended with same | same <;> rw [same] <;> exact rfl
    have drawn : id < (db.step call).nextId := by
      have below : id < db.nextId := present.2 ▸ db.identity row present.1
      rcases Database.step_cases db call with stays | ⟨reply, committed, moves⟩
      · rw [stays]
        exact below
      · rw [moves]
        exact Nat.lt_of_lt_of_le below (exec_frame committed).1
    rw [← present.2] at found drawn ⊢
    rcases @finished_step _ call _ found finished with stays | leaves
    · exact Or.inr ⟨row, stays, ended⟩
    · cases leaves with
      | replayed replays buried queued =>
          rcases ended with same | same <;> rw [same] at buried <;> cases buried
      | pruned prunes absent => exact Or.inl ⟨drawn, absent⟩
      | archived archives absent kept => exact Or.inl ⟨drawn, absent⟩
      | purged purges absent => exact Or.inl ⟨drawn, absent⟩

/-- Nobody holds such a job. -/
theorem Spent.not_owned {opts : RunnerOptions} {job : JobRow} {state : RunnerState}
    (spent : Spent job.id state.db) : Not (state.Owned opts job) := by
  rintro ⟨row, member, owns⟩
  have owned := FenceParams.owns_iff.mp owns
  have found : state.db.find job.id = some row := Database.find_eq_some_iff.mpr ⟨member, owned.1⟩
  rcases spent with gone | ⟨other, foundToo, ended⟩
  · rw [gone.absent] at found
    cases found
  · rw [found] at foundToo
    cases foundToo
    rw [owned.2.1] at ended
    rcases ended with same | same <;> cases same

/-! ## Reports -/

def RowWrite.isReport (write : RowWrite) : Bool :=
  match write.statement with
  | .heartbeatJob _ _ => false
  | _ => true

/-- The reports by which a delivery has changed its row, newest first. -/
def RunnerRun.reports (delivery : RunnerRun) : List RowWrite :=
  delivery.history.filter RowWrite.isReport

/-- The state of the row when a report has led to this outcome. -/
def RunOutcome.jobState : RunOutcome -> Option JobState
  | .succeeded => some .succeeded
  | .retried => some .available
  | .dead => some .dead
  | .cancelled => some .cancelled
  | .ownershipLost => none

/-- The outcome is that of this report. -/
inductive RunOutcome.ReportedBy (fence : FenceParams) : RunOutcome -> Statement -> Prop where
  | succeeded : ReportedBy fence .succeeded (.completeJob fence)
  | cancelled : ReportedBy fence .cancelled (.acknowledgeCancellation fence)
  | retried {p : FailParams} (same : p.toFenceParams = fence) :
      ReportedBy fence .retried (.failJob p)
  | dead {p : FailParams} (same : p.toFenceParams = fence) : ReportedBy fence .dead (.failJob p)

/-- A report has been sent. -/
def RunPhase.awaits : RunPhase -> Bool
  | .acknowledging => true
  | .completing => true
  | .acknowledgingFailure _ _ => true
  | .failing _ => true
  | _ => false

namespace RunnerState

section

variable {opts : RunnerOptions} {job : JobRow} {state : RunnerState} {now : Timestamp}
  {executed : Executed}

theorem awaits_of_execReport {executes : Except StatementError Executed}
    (ran : state.execReport opts job now = some executes) : state.phase.awaits = true := by
  unfold execReport at ran
  cases phase : state.phase with
  | handling => rw [phase] at ran; cases ran
  | returned outcome => rw [phase] at ran; cases ran
  | threw => rw [phase] at ran; cases ran
  | _ => exact rfl

/-- The fence of the report that is awaited is that of the delivery. -/
def Fenced (opts : RunnerOptions) (job : JobRow) : RunPhase -> Prop
  | .failing request => request.fence = opts.fence job
  | _ => True

/-- What an update of the delivery's row returns is the row it leaves. -/
theorem found_of_update {statement : Statement} {mutation : Mutation} {row : JobRow}
    (committed : statement.exec now state.db = .ok executed.reply)
    (isUpdate : statement.mutation now state.db = some mutation)
    (owns : forall source, mutation.hits source = true -> (opts.fence job).owns source = true)
    (listed : row ∈ executed.reply.rows) :
    state.Owned opts job ∧ executed.reply.db.find job.id = some row ∧
      Exists fun source : JobRow => mutation.set source = row := by
  rw [Statement.exec_mutation isUpdate] at committed
  have updated := Mutation.run_ok committed
  rw [updated.2.1] at listed
  rcases Mutation.mem_returning.mp listed with ⟨source, member, hit, rfl⟩
  have owned := owns source hit
  refine ⟨⟨source, member, owned⟩, Database.find_eq_some_iff.mpr ⟨?_, ?_⟩, source, rfl⟩
  · rw [updated.1]
    refine List.mem_map.mpr ⟨source, member, ?_⟩
    unfold Mutation.rewrite
    rw [if_pos hit]
  · rw [mutation.keepsId]
    exact (FenceParams.owns_iff.mp owned).1

/-- The outcome that the answer to a report that hits its row leads to. -/
def outcomeOf (row : JobRow) : RunPhase -> RunOutcome
  | .acknowledging => .cancelled
  | .acknowledgingFailure _ _ => .cancelled
  | .completing => .succeeded
  | _ => if row.state = .dead then .dead else .retried

/-- A report that hits: the delivery held its row, and it is in the state that
the outcome names. -/
theorem report_hits (fenced : Fenced opts job state.phase)
    (ran : state.execReport opts job now = some (.ok executed)) {row : JobRow} {rows : List JobRow}
    (listed : executed.reply.rows = row :: rows) :
    state.Owned opts job ∧ executed.reply.db.find job.id = some row ∧
      (outcomeOf row state.phase).jobState = some row.state ∧
      (outcomeOf row state.phase).ReportedBy (opts.fence job) executed.statement := by
  have member : row ∈ executed.reply.rows := listed ▸ List.mem_cons_self
  have acknowledged : (Statement.acknowledgeCancellation (opts.fence job)).report now state.db =
      .ok executed -> state.Owned opts job ∧ executed.reply.db.find job.id = some row ∧
        row.state = .cancelled ∧
        executed.statement = .acknowledgeCancellation (opts.fence job) := by
    intro sent
    have issued := Statement.report_ok sent
    have found := @found_of_update opts job state now executed _ _ row issued.2 rfl
      (fun source hit => (Bool.and_eq_true_iff.mp hit).1) member
    rcases found with ⟨owned, stands, source, rfl⟩
    exact ⟨owned, stands, rfl, issued.1⟩
  unfold execReport at ran
  cases phase : state.phase with
  | handling => rw [phase] at ran; cases ran
  | returned outcome => rw [phase] at ran; cases ran
  | threw => rw [phase] at ran; cases ran
  | acknowledging =>
      rw [phase] at ran
      rcases acknowledged (Option.some.inj ran) with ⟨owned, stands, same, issued⟩
      rw [same, issued]
      exact ⟨owned, stands, rfl, .cancelled⟩
  | acknowledgingFailure e timedOut =>
      rw [phase] at ran
      rcases acknowledged (Option.some.inj ran) with ⟨owned, stands, same, issued⟩
      rw [same, issued]
      exact ⟨owned, stands, rfl, .cancelled⟩
  | completing =>
      rw [phase] at ran
      have issued := Statement.report_ok (Option.some.inj ran)
      have found := @found_of_update opts job state now executed _ _ row issued.2 rfl
        (fun source hit => hit) member
      rcases found with ⟨owned, stands, source, rfl⟩
      rw [issued.1]
      exact ⟨owned, stands, rfl, .succeeded⟩
  | failing request =>
      rw [phase] at ran fenced
      rcases FailRequest.exec_ok (Option.some.inj ran) with ⟨record, stored, issued, committed⟩
      rw [issued] at committed
      have same : (request.params record).toFenceParams = opts.fence job := fenced
      have found := @found_of_update opts job state now executed _ _ row committed rfl
        (fun source hit => same ▸ hit) member
      rcases found with ⟨owned, stands, source, written⟩
      refine ⟨owned, stands, ?_, ?_⟩
      · have state : row.state = .dead ∨ row.state = .available := by
          rw [← written]
          change (if (request.params record).nonRetryable = true then JobState.dead
            else if source.maxAttempts ≤ source.attempt then .dead else .available) = .dead ∨
            (if (request.params record).nonRetryable = true then JobState.dead
            else if source.maxAttempts ≤ source.attempt then .dead else .available) = .available
          split
          · exact Or.inl rfl
          · split
            · exact Or.inl rfl
            · exact Or.inr rfl
        rcases state with dead | waiting
        · simp only [outcomeOf, dead, if_true]
          exact rfl
        · simp only [outcomeOf, waiting]
          exact rfl
      · rw [issued]
        unfold outcomeOf
        dsimp only
        split
        · exact .dead same
        · exact .retried same

theorem answer_of_hit {row : JobRow} {rows : List JobRow} (draw : ReportDraw)
    (awaits : state.phase.awaits = true) :
    (state.answer opts job draw (row :: rows)).phase = .returned (outcomeOf row state.phase) := by
  unfold answer
  cases phase : state.phase with
  | handling => rw [phase] at awaits; cases awaits
  | returned outcome => rw [phase] at awaits; cases awaits
  | threw => rw [phase] at awaits; cases awaits
  | acknowledging => exact rfl
  | completing => exact rfl
  | acknowledgingFailure e timedOut => exact rfl
  | failing request =>
      simp only [outcomeOf]
      split <;> exact rfl

end

end RunnerState

/-! ## The invariant -/

section

variable {opts : RunnerOptions} {job : JobRow}

/-- No report has changed the row, or the answer to the one that did was lost. -/
def Quiet (job : JobRow) (lost : Prop) (reports : List RowWrite) (db : Database) : Prop :=
  reports = [] ∨ (lost ∧ reports.length = 1 ∧ Spent job.id db)

/-- What a delivery has reported when it has come to a phase.  `lost` says that
the answer to a report was lost, and `held` that the row was in the state of an
outcome when the report was answered. -/
inductive Truthful (opts : RunnerOptions) (job : JobRow) (lost : Prop) (held : RunOutcome -> Prop)
    (reports : List RowWrite) (db : Database) : RunPhase -> Prop where
  | unreported {phase} (early : phase.unreported = true) (none : reports = []) :
      Truthful opts job lost held reports db phase
  | acknowledgingFailure {e timedOut} (quiet : Quiet job lost reports db) :
      Truthful opts job lost held reports db (.acknowledgingFailure e timedOut)
  | failing {request : FailRequest} (fence : request.fence = opts.fence job)
      (quiet : Quiet job lost reports db) :
      Truthful opts job lost held reports db (.failing request)
  | threw (once : reports.length ≤ 1) : Truthful opts job lost held reports db .threw
  | ownershipLost (quiet : Quiet job lost reports db) :
      Truthful opts job lost held reports db (.returned .ownershipLost)
  | returned {outcome write} (only : reports = [write])
      (asReported : outcome.ReportedBy (opts.fence job) write.statement) (stood : held outcome) :
      Truthful opts job lost held reports db (.returned outcome)

variable {lost lostNow : Prop} {held heldNow : RunOutcome -> Prop} {reports : List RowWrite}
  {db next : Database}

theorem Quiet.once (quiet : Quiet job lost reports db) : reports.length ≤ 1 := by
  rcases quiet with none | ⟨_, one, _⟩
  · rw [none]
    exact Nat.zero_le 1
  · exact Nat.le_of_eq one

theorem Quiet.later (quiet : Quiet job lost reports db) (still : lost -> lostNow)
    (spent : Spent job.id db -> Spent job.id next) : Quiet job lostNow reports next :=
  quiet.imp_right (fun written => ⟨still written.1, written.2.1, spent written.2.2⟩)

theorem Truthful.once {phase : RunPhase} (truthful : Truthful opts job lost held reports db phase) :
    reports.length ≤ 1 := by
  cases truthful with
  | unreported early none =>
      rw [none]
      exact Nat.zero_le 1
  | acknowledgingFailure quiet => exact quiet.once
  | failing fence quiet => exact quiet.once
  | threw once => exact once
  | ownershipLost quiet => exact quiet.once
  | returned only asReported stood =>
      rw [only]
      exact Nat.le_refl 1

/-- Nothing is reported, and others go on. -/
theorem Truthful.later {phase : RunPhase} (truthful : Truthful opts job lost held reports db phase)
    (still : lost -> lostNow) (stands : forall outcome, held outcome -> heldNow outcome)
    (spent : Spent job.id db -> Spent job.id next) :
    Truthful opts job lostNow heldNow reports next phase := by
  cases truthful with
  | unreported early none => exact .unreported early none
  | acknowledgingFailure quiet => exact .acknowledgingFailure (quiet.later still spent)
  | failing fence quiet => exact .failing fence (quiet.later still spent)
  | threw once => exact .threw once
  | ownershipLost quiet => exact .ownershipLost (quiet.later still spent)
  | returned only asReported stood => exact .returned only asReported (stands _ stood)

theorem Truthful.fenced {phase : RunPhase} (truthful : Truthful opts job lost held reports db phase) :
    RunnerState.Fenced opts job phase := by
  cases truthful with
  | failing fence quiet => exact fence
  | unreported early none =>
      cases phase with
      | failing request => cases early
      | _ => exact trivial
  | _ => exact trivial

/-- A delivery that awaits a report has not returned. -/
theorem Truthful.quiet {phase : RunPhase} (truthful : Truthful opts job lost held reports db phase)
    (awaits : phase.awaits = true) : Quiet job lost reports db := by
  cases truthful with
  | unreported early none => exact Or.inl none
  | acknowledgingFailure quiet => exact quiet
  | failing fence quiet => exact quiet
  | threw once => cases awaits
  | ownershipLost quiet => cases awaits
  | returned only asReported stood => cases awaits

/-! ## The failure report -/

theorem truthful_fail (quiet : Quiet job lost reports db) (e : Thrown) (timedOut : Bool)
    (draw : ReportDraw) (state : RunnerState) :
    Truthful opts job lost held reports db (state.fail opts job e timedOut draw).phase := by
  cases built : failRequest opts job e timedOut draw with
  | none =>
      rw [RunnerState.fail_unbuilt built]
      exact .threw quiet.once
  | some request =>
      rw [RunnerState.fail_built built]
      exact .failing (failRequest_fence built) quiet

theorem truthful_reportFailure (quiet : Quiet job lost reports db) (e : Thrown) (draw : ReportDraw)
    (state : RunnerState) :
    Truthful opts job lost held reports db (state.reportFailure opts job e draw).phase := by
  unfold RunnerState.reportFailure
  split
  · exact .ownershipLost quiet
  · split
    · exact .acknowledgingFailure quiet
    · exact truthful_fail quiet e state.timedOut draw state

/-- The error of a first report is reported, that of a second one thrown. -/
theorem truthful_raise {state : RunnerState} (awaits : state.phase.awaits = true)
    (quiet : state.phase.unreported = true -> Quiet job lost reports db)
    (once : reports.length ≤ 1) (error : DatabaseError) (draw : ReportDraw) :
    Truthful opts job lost held reports db (state.raise opts job error draw).phase := by
  unfold RunnerState.raise
  cases phase : state.phase with
  | handling => rw [phase] at awaits; cases awaits
  | returned outcome => rw [phase] at awaits; cases awaits
  | threw => rw [phase] at awaits; cases awaits
  | acknowledging =>
      rw [phase] at quiet
      exact truthful_reportFailure (quiet rfl) _ draw state
  | completing =>
      rw [phase] at quiet
      exact truthful_reportFailure (quiet rfl) _ draw state
  | acknowledgingFailure e timedOut => exact .threw once
  | failing request => exact .threw once

/-- An answer without a row. -/
theorem truthful_missed {state : RunnerState}
    (truthful : Truthful opts job lost held reports db state.phase)
    (awaits : state.phase.awaits = true) (draw : ReportDraw) :
    Truthful opts job lost held reports db (state.answer opts job draw []).phase := by
  unfold RunnerState.answer
  cases phase : state.phase with
  | handling => rw [phase] at awaits; cases awaits
  | returned outcome => rw [phase] at awaits; cases awaits
  | threw => rw [phase] at awaits; cases awaits
  | acknowledging =>
      rw [phase] at truthful
      cases truthful with
      | unreported early none => exact .unreported rfl none
  | completing =>
      rw [phase] at truthful
      cases truthful with
      | unreported early none => exact .ownershipLost (Or.inl none)
  | acknowledgingFailure e timedOut =>
      rw [phase] at truthful
      cases truthful with
      | unreported early none => cases early
      | acknowledgingFailure quiet => exact truthful_fail quiet e timedOut draw state
  | failing request =>
      rw [phase] at truthful
      cases truthful with
      | unreported early none => cases early
      | failing fence quiet => exact .ownershipLost quiet

/-! ## One step -/

/-- The row is in the state of the outcome. -/
def StandsAs (id : Nat) (outcome : RunOutcome) (db : Database) : Prop :=
  Exists fun row : JobRow => db.find id = some row ∧ outcome.jobState = some row.state

/-- The step is the first report of the delivery, and it puts the row into the
state of the outcome. -/
def ReportsAs (opts : RunnerOptions) (job : JobRow) (delivery : RunnerRun) (label : RunnerLabel)
    (outcome : RunOutcome) : Prop :=
  RunnerRun.reports delivery = [] ∧ RunnerRun.reports (delivery.step opts job label) ≠ [] ∧
    StandsAs job.id outcome (delivery.step opts job label).state.db

/-- The database has executed a report and nobody hears of it. -/
def RunnerLabel.losesAnswer : RunnerLabel -> Prop
  | .report _ behaviour _ _ => behaviour = .lost
  | _ => False

theorem RunnerState.db_of_step (state : RunnerState) (label : RunnerLabel) :
    (state.step opts job label).db = state.db ∨
      Exists fun call : Call => (state.step opts job label).db = state.db.step call := by
  rw [RunnerState.step_db]
  cases state.sends opts job label with
  | none => exact Or.inl rfl
  | some call => exact Or.inr ⟨call, rfl⟩

theorem Spent.of_step {state : RunnerState} (spent : Spent job.id state.db) (label : RunnerLabel) :
    Spent job.id (state.step opts job label).db := by
  rcases @RunnerState.db_of_step opts job state label with stays | ⟨call, moves⟩
  · rw [stays]
    exact spent
  · rw [moves]
    exact spent.step call

/-- A step that writes no report leaves the reports alone. -/
theorem reports_of_silent {delivery : RunnerRun} {label : RunnerLabel}
    (silent : forall write, delivery.state.write opts job label = some write ->
      write.isReport = false) :
    RunnerRun.reports (delivery.step opts job label) = RunnerRun.reports delivery := by
  unfold RunnerRun.reports RunnerRun.step recordStep
  cases written : delivery.state.write opts job label with
  | none => exact rfl
  | some write => simp [silent write written]

/-- What a delivery writes is a heartbeat or a report it awaits. -/
theorem isReport_of_write {state : RunnerState} {label : RunnerLabel} {write : RowWrite}
    (written : state.write opts job label = some write)
    (unreporting : forall now behaviour error draw, label ≠ .report now behaviour error draw) :
    write.isReport = false := by
  have writes := (RunnerState.writes_of_write written).2
  unfold RowWrite.isReport
  generalize write.statement = statement at writes
  cases writes with
  | heartbeat sent reached owned => exact rfl
  | acknowledge => exact absurd rfl (unreporting _ _ _ _)
  | complete phase reached owned => exact absurd rfl (unreporting _ _ _ _)
  | fail phase stored reached ran hit => exact absurd rfl (unreporting _ _ _ _)

/-- A step that neither settles nor reports. -/
theorem Truthful.frame {delivery : RunnerRun} {label : RunnerLabel}
    (truthful : Truthful opts job lost held (RunnerRun.reports delivery) delivery.state.db
      delivery.state.phase)
    (unsettling : forall settlement draw, label ≠ .settle settlement draw)
    (unreporting : forall now behaviour error draw, label ≠ .report now behaviour error draw) :
    Truthful opts job lost held (RunnerRun.reports (delivery.step opts job label))
      (delivery.step opts job label).state.db (delivery.step opts job label).state.phase := by
  rw [reports_of_silent fun write written => isReport_of_write written unreporting]
  have phase := (RunnerState.step_frame opts job delivery.state unsettling unreporting).1
  change Truthful opts job lost held (RunnerRun.reports delivery)
    (delivery.state.step opts job label).db (delivery.state.step opts job label).phase
  rw [phase]
  exact truthful.later id (fun _ stood => stood) (fun spent => spent.of_step label)

theorem Truthful.settle {delivery : RunnerRun}
    (truthful : Truthful opts job lost held (RunnerRun.reports delivery) delivery.state.db
      delivery.state.phase) (settlement : Settlement) (draw : ReportDraw) :
    Truthful opts job lost held
      (RunnerRun.reports (delivery.step opts job (.settle settlement draw)))
      (delivery.step opts job (.settle settlement draw)).state.db
      (delivery.step opts job (.settle settlement draw)).state.phase := by
  rw [reports_of_silent fun write written => isReport_of_write written
    (fun _ _ _ _ same => by cases same)]
  change Truthful opts job lost held (RunnerRun.reports delivery)
    (delivery.state.step opts job (.settle settlement draw)).db
    (delivery.state.step opts job (.settle settlement draw)).phase
  by_cases handling : delivery.state.phase = .handling
  · rw [RunnerState.settle_handling settlement handling, (RunnerState.keeps_settle settlement draw).db]
    rw [handling] at truthful
    cases truthful with
    | unreported early none =>
        cases settlement with
        | resolves =>
            unfold RunnerState.settle
            dsimp only
            split
            · exact .unreported rfl none
            · exact .unreported rfl none
        | throws e => exact truthful_reportFailure (Or.inl none) e draw delivery.state
  · have stays : delivery.state.step opts job (.settle settlement draw) = delivery.state := by
      unfold RunnerState.step
      dsimp only
      split
      · rename_i phase
        exact absurd phase handling
      · exact rfl
    rw [stays]
    exact truthful

/-! ### A report -/

theorem write_report {state : RunnerState} {now : Timestamp}
    {executes : Except StatementError Executed}
    (ran : state.execReport opts job now = some executes) (behaviour : Behaviour)
    (error : DatabaseError) (draw : ReportDraw) :
    state.write opts job (.report now behaviour error draw) = state.wrote behaviour executes := by
  unfold RunnerState.write
  simp only [ran]

/-- The report is not executed, or it matches nothing. -/
theorem reports_of_miss {delivery : RunnerRun} {now : Timestamp}
    {executes : Except StatementError Executed}
    (ran : delivery.state.execReport opts job now = some executes) {behaviour : Behaviour}
    (missed : delivery.state.wrote behaviour executes = none) (error : DatabaseError)
    (draw : ReportDraw) :
    RunnerRun.reports (delivery.step opts job (.report now behaviour error draw)) =
      RunnerRun.reports delivery := by
  apply reports_of_silent
  intro write written
  rw [write_report ran, missed] at written
  cases written

/-- A report that finds the row is the first of its delivery. -/
theorem reports_before_hit {delivery : RunnerRun} {now : Timestamp} {executed : Executed}
    (truthful : Truthful opts job lost held (RunnerRun.reports delivery) delivery.state.db
      delivery.state.phase)
    (ran : delivery.state.execReport opts job now = some (.ok executed)) {row : JobRow}
    {rows : List JobRow} (listed : executed.reply.rows = row :: rows) :
    RunnerRun.reports delivery = [] := by
  have hits := RunnerState.report_hits truthful.fenced ran listed
  rcases truthful.quiet (RunnerState.awaits_of_execReport ran) with none | ⟨_, _, spent⟩
  · exact none
  · exact absurd hits.1 spent.not_owned

/-- The report changes the row. -/
theorem reports_of_hit {delivery : RunnerRun} {now : Timestamp} {executed : Executed}
    (truthful : Truthful opts job lost held (RunnerRun.reports delivery) delivery.state.db
      delivery.state.phase)
    (ran : delivery.state.execReport opts job now = some (.ok executed)) {behaviour : Behaviour}
    (reached : behaviour ≠ .refused) {row : JobRow} {rows : List JobRow}
    (listed : executed.reply.rows = row :: rows) (error : DatabaseError) (draw : ReportDraw) :
    RunnerRun.reports (delivery.step opts job (.report now behaviour error draw)) =
      [⟨executed.statement, delivery.state.late⟩] := by
  have hits := RunnerState.report_hits truthful.fenced ran listed
  have none := reports_before_hit truthful ran listed
  have wrote : delivery.state.write opts job (.report now behaviour error draw) =
      some ⟨executed.statement, delivery.state.late⟩ := by
    rw [write_report ran]
    exact RunnerState.wrote_eq_some_iff.mpr
      ⟨executed, rfl, reached, listed ▸ List.cons_ne_nil row rows, rfl⟩
  have isReport : RowWrite.isReport ⟨executed.statement, delivery.state.late⟩ = true := by
    have isOf := hits.2.2.2
    unfold RowWrite.isReport
    generalize executed.statement = statement at isOf
    generalize RunnerState.outcomeOf row delivery.state.phase = outcome at isOf
    cases isOf <;> exact rfl
  unfold RunnerRun.reports at none ⊢
  unfold RunnerRun.step recordStep
  rw [wrote]
  change List.filter RowWrite.isReport (⟨executed.statement, delivery.state.late⟩ ::
    delivery.history) = _
  rw [List.filter_cons, if_pos isReport, none]

/-- An error is raised, and the reports are what they were. -/
theorem Truthful.raised {delivery : RunnerRun}
    (truthful : Truthful opts job lost held (RunnerRun.reports delivery) delivery.state.db
      delivery.state.phase) {now : Timestamp} {executes : Except StatementError Executed}
    (ran : delivery.state.execReport opts job now = some executes) {behaviour : Behaviour}
    (missed : delivery.state.wrote behaviour executes = none) {error : DatabaseError}
    {draw : ReportDraw} {db : Database}
    (moved : delivery.state.step opts job (.report now behaviour error draw) =
      RunnerState.raise opts job error draw { delivery.state with db := db })
    (still : lost -> lostNow) :
    Truthful opts job lostNow heldNow
      (RunnerRun.reports (delivery.step opts job (.report now behaviour error draw)))
      (delivery.state.step opts job (.report now behaviour error draw)).db
      (delivery.state.step opts job (.report now behaviour error draw)).phase := by
  have awaits := RunnerState.awaits_of_execReport ran
  have quiet : Quiet job lostNow (RunnerRun.reports delivery)
      (delivery.state.step opts job (.report now behaviour error draw)).db :=
    (truthful.quiet awaits).later still (fun spent => spent.of_step _)
  rw [reports_of_miss ran missed, moved]
  rw [moved] at quiet
  exact @truthful_raise opts job lostNow heldNow _ _ { delivery.state with db := db } awaits
    (fun _ => quiet) quiet.once error draw

/-- The report finds no row: it is a miss, or an error is raised. -/
theorem Truthful.report_missed {delivery : RunnerRun}
    (truthful : Truthful opts job lost held (RunnerRun.reports delivery) delivery.state.db
      delivery.state.phase) {now : Timestamp} {executed : Executed}
    (ran : delivery.state.execReport opts job now = some (.ok executed))
    (listed : executed.reply.rows = [])
    (behaviour : Behaviour) (error : DatabaseError) (draw : ReportDraw) :
    Truthful opts job (lost ∨ behaviour = .lost)
      (fun outcome => held outcome ∨
        ReportsAs opts job delivery (.report now behaviour error draw) outcome)
      (RunnerRun.reports (delivery.step opts job (.report now behaviour error draw)))
      (delivery.state.step opts job (.report now behaviour error draw)).db
      (delivery.state.step opts job (.report now behaviour error draw)).phase := by
  have awaits := RunnerState.awaits_of_execReport ran
  have spends := fun spent : Spent job.id delivery.state.db =>
    @Spent.of_step opts job delivery.state spent (.report now behaviour error draw)
  have missed : forall behaviour : Behaviour,
      delivery.state.wrote behaviour (.ok executed) = none := by
    intro behaviour
    unfold RunnerState.wrote
    exact if_pos (Or.inr listed)
  cases behaviour with
  | refused =>
      exact truthful.raised ran (missed _) (RunnerState.report_refused ran) Or.inl
  | lost => exact truthful.raised ran (missed _) (RunnerState.report_lost ran) Or.inl
  | answered =>
      rw [reports_of_miss ran (missed _), RunnerState.report_answered ran, listed,
        RunnerState.answer_db]
      rw [RunnerState.report_answered ran, listed, RunnerState.answer_db] at spends
      refine @truthful_missed opts job _ _ _ _
        { delivery.state with db := executed.reply.db } ?_ awaits draw
      exact truthful.later Or.inl (fun _ stood => Or.inl stood) spends

/-- The report finds the row: the delivery returns its outcome, or an error is
raised before or after the row has changed. -/
theorem Truthful.report_found {delivery : RunnerRun}
    (truthful : Truthful opts job lost held (RunnerRun.reports delivery) delivery.state.db
      delivery.state.phase) {now : Timestamp} {executed : Executed}
    (ran : delivery.state.execReport opts job now = some (.ok executed))
    {row : JobRow} {rows : List JobRow} (listed : executed.reply.rows = row :: rows)
    (behaviour : Behaviour) (error : DatabaseError) (draw : ReportDraw) :
    Truthful opts job (lost ∨ behaviour = .lost)
      (fun outcome => held outcome ∨
        ReportsAs opts job delivery (.report now behaviour error draw) outcome)
      (RunnerRun.reports (delivery.step opts job (.report now behaviour error draw)))
      (delivery.state.step opts job (.report now behaviour error draw)).db
      (delivery.state.step opts job (.report now behaviour error draw)).phase := by
  have awaits := RunnerState.awaits_of_execReport ran
  have hits := RunnerState.report_hits truthful.fenced ran listed
  cases behaviour with
  | refused =>
      have unwritten : delivery.state.wrote .refused (.ok executed) = none := by
        unfold RunnerState.wrote
        exact if_pos (Or.inl rfl)
      exact truthful.raised ran unwritten (RunnerState.report_refused ran) Or.inl
  | answered =>
      have only := reports_of_hit truthful ran (by decide : Behaviour.answered ≠ .refused)
        listed error draw
      have written := ne_of_eq_of_ne only (List.cons_ne_nil _ _)
      have stands : ReportsAs opts job delivery (.report now .answered error draw)
          (RunnerState.outcomeOf row delivery.state.phase) :=
        ⟨reports_before_hit truthful ran listed, written, row, by
          change (delivery.state.step opts job _).db.find job.id = some row
          rw [RunnerState.report_answered ran, RunnerState.answer_db]
          exact hits.2.1, hits.2.2.1⟩
      rw [RunnerState.report_answered ran, listed, RunnerState.answer_db,
        @RunnerState.answer_of_hit opts job
          { delivery.state with db := executed.reply.db } row rows draw awaits]
      exact .returned only hits.2.2.2 (Or.inr stands)
  | lost =>
      have only := reports_of_hit truthful ran (by decide : Behaviour.lost ≠ .refused)
        listed error draw
      have one := congrArg List.length only
      rw [RunnerState.report_lost ran, (RunnerState.keeps_raise error draw).db]
      refine @truthful_raise opts job _ _ _ _
        { delivery.state with db := executed.reply.db } awaits (fun early => ?_)
        (Nat.le_of_eq one) error draw
      refine Or.inr ⟨Or.inr rfl, one, Or.inr ⟨row, hits.2.1, ?_⟩⟩
      have ends := hits.2.2.1
      cases phase : delivery.state.phase with
      | acknowledging =>
          rw [phase] at ends
          exact Or.inr (Option.some.inj ends).symm
      | completing =>
          rw [phase] at ends
          exact Or.inl (Option.some.inj ends).symm
      | handling =>
          rw [phase] at awaits
          cases awaits
      | _ =>
          change delivery.state.phase.unreported = true at early
          rw [phase] at early
          cases early

theorem Truthful.report {delivery : RunnerRun}
    (truthful : Truthful opts job lost held (RunnerRun.reports delivery) delivery.state.db
      delivery.state.phase)
    (now : Timestamp) (behaviour : Behaviour) (error : DatabaseError) (draw : ReportDraw) :
    Truthful opts job (lost ∨ behaviour = .lost)
      (fun outcome => held outcome ∨
        ReportsAs opts job delivery (.report now behaviour error draw) outcome)
      (RunnerRun.reports (delivery.step opts job (.report now behaviour error draw)))
      (delivery.step opts job (.report now behaviour error draw)).state.db
      (delivery.step opts job (.report now behaviour error draw)).state.phase := by
  change Truthful opts job _ _ _ (delivery.state.step opts job _).db
    (delivery.state.step opts job _).phase
  cases ran : delivery.state.execReport opts job now with
  | none =>
      have silent : delivery.state.write opts job (.report now behaviour error draw) = none := by
        unfold RunnerState.write
        simp only [ran]
      rw [reports_of_silent (fun write written =>
        absurd (written.symm.trans silent) (Option.some_ne_none write)),
        RunnerState.report_idle ran]
      exact truthful.later Or.inl (fun _ stood => Or.inl stood) id
  | some executes =>
      cases executes with
      | error reason => exact truthful.raised ran rfl (RunnerState.report_failed ran) Or.inl
      | ok executed =>
          cases listed : executed.reply.rows with
          | nil => exact truthful.report_missed ran listed behaviour error draw
          | cons row rows => exact truthful.report_found ran listed behaviour error draw

/-- What one step keeps. -/
theorem Truthful.step {delivery : RunnerRun}
    (truthful : Truthful opts job lost held (RunnerRun.reports delivery) delivery.state.db
      delivery.state.phase) (label : RunnerLabel) :
    Truthful opts job (lost ∨ label.losesAnswer)
      (fun outcome => held outcome ∨ ReportsAs opts job delivery label outcome)
      (RunnerRun.reports (delivery.step opts job label)) (delivery.step opts job label).state.db
      (delivery.step opts job label).state.phase := by
  have goesOn : forall {reports : List RowWrite} {db : Database} {phase : RunPhase},
      Truthful opts job lost held reports db phase ->
      Truthful opts job (lost ∨ label.losesAnswer)
        (fun outcome => held outcome ∨ ReportsAs opts job delivery label outcome)
        reports db phase :=
    fun kept => kept.later Or.inl (fun _ stood => Or.inl stood) id
  cases label with
  | report now behaviour error draw => exact truthful.report now behaviour error draw
  | settle settlement draw => exact goesOn (truthful.settle settlement draw)
  | _ => exact goesOn (truthful.frame (by simp) (by simp))

end

/-! ## Runs -/

/-- The delivery after these steps. -/
def deliveryAfter (opts : RunnerOptions) (job : JobRow) (db : Database)
    (labels : List RunnerLabel) : RunnerRun :=
  run (RunnerRun.step opts job) (.start db) labels

/-- One of the steps is the first report, and it put the row into the state of
the outcome. -/
def StoodAs (opts : RunnerOptions) (job : JobRow) (db : Database) (labels : List RunnerLabel)
    (outcome : RunOutcome) : Prop :=
  Exists fun before : List RunnerLabel => Exists fun label : RunnerLabel =>
    before ++ [label] <+: labels ∧
      ReportsAs opts job (deliveryAfter opts job db before) label outcome

theorem truthful_of_run (opts : RunnerOptions) (job : JobRow) (db : Database)
    (labels : List RunnerLabel) :
    Truthful opts job (Exists fun label : RunnerLabel => label ∈ labels ∧ label.losesAnswer)
      (StoodAs opts job db labels) (RunnerRun.reports (deliveryAfter opts job db labels))
      (deliveryAfter opts job db labels).state.db (deliveryAfter opts job db labels).state.phase := by
  induction labels using List.reverseRecOn with
  | nil => exact .unreported rfl rfl
  | append_singleton labels label inductionHypothesis =>
      have next : deliveryAfter opts job db (labels ++ [label]) =
          (deliveryAfter opts job db labels).step opts job label := run_append _ _ labels [label]
      have stepped := inductionHypothesis.step label
      rw [← next] at stepped
      refine stepped.later ?_ ?_ id
      · rintro (⟨earlier, member, loses⟩ | loses)
        · exact ⟨earlier, List.mem_append_left _ member, loses⟩
        · exact ⟨label, List.mem_append_right _ (List.mem_singleton_self label), loses⟩
      · rintro outcome (⟨before, earlier, isPrefix, stood⟩ | stands)
        · exact ⟨before, earlier, isPrefix.trans (List.prefix_append labels [label]), stood⟩
        · exact ⟨labels, label, List.prefix_rfl, stands⟩

/-- At most one report of a delivery changes the row, whatever fails or is lost
and whoever else writes.  An outcome other than lost ownership is that of the
report, and its step put the row into the state that the outcome names.  Ownership is
reported lost by a delivery that has changed nothing, unless the answer to a
report was lost. -/
theorem outcomes_are_truthful (opts : RunnerOptions) (job : JobRow) (db : Database)
    (labels : List RunnerLabel) :
    (RunnerRun.reports (deliveryAfter opts job db labels)).length ≤ 1 ∧
      forall outcome, (deliveryAfter opts job db labels).state.phase = .returned outcome ->
        if outcome = .ownershipLost then
          RunnerRun.reports (deliveryAfter opts job db labels) = [] ∨
            Exists fun label : RunnerLabel => label ∈ labels ∧ label.losesAnswer
        else
          (Exists fun write : RowWrite =>
            RunnerRun.reports (deliveryAfter opts job db labels) = [write] ∧
              outcome.ReportedBy (opts.fence job) write.statement) ∧
            StoodAs opts job db labels outcome := by
  have truthful := truthful_of_run opts job db labels
  refine ⟨truthful.once, fun outcome returned => ?_⟩
  rw [returned] at truthful
  generalize RunnerRun.reports (deliveryAfter opts job db labels) = reports at truthful
  cases truthful with
  | unreported early none => cases early
  | ownershipLost quiet =>
      rw [if_pos rfl]
      exact quiet.imp_right (fun written => written.1)
  | @returned _ write only asReported stood =>
      have other : outcome ≠ .ownershipLost := by
        rintro rfl
        cases asReported
      rw [if_neg other]
      exact ⟨⟨write, only, asReported⟩, stood⟩

end PgJobQ
