import PgJobQ.Worker.HandlerTimeout

/-!
# What becomes of a handler's success

The handler call and the statements that report its success share one `try`
block.  An error of such a statement is taken for an error of the handler, and
`reportFailure` sends a `failJob` for a job whose work is done.  The statement
that raised the error may have been executed or not; in either case the
outcome can be wrong.

If it was not executed, the row is still held and the failure is recorded.  If
the completion was executed, the row is gone, `failJob` matches nothing, and
`run` reports that the ownership of a job was lost which it has itself marked
succeeded.
-/

namespace PgJobQ

open Runs

namespace Statement

def isFailure : Statement -> Bool
  | .failJob _ => true
  | _ => false

def isCompletion : Statement -> Bool
  | .completeJob _ => true
  | _ => false

end Statement

/-- A handler that resolved is not recorded as failed, and an ownership that is
reported lost is not one the delivery has given up by succeeding. -/
structure SuccessKept (delivery : RunnerRun) : Prop where
  unfailed : delivery.state.resolved = true -> forall write, write ∈ delivery.history ->
    write.statement.isFailure = false
  lost : delivery.state.phase = .returned .ownershipLost -> forall write,
    write ∈ delivery.history -> write.statement.isCompletion = false

/-- The statement that reports a handler's success is answered: it raises no
error, with or without having been executed. -/
def SuccessAnswered (delivery : RunnerRun) : RunnerLabel -> Prop
  | .report _ behaviour _ _ => delivery.state.phase.reportsSuccess = true -> behaviour = .answered
  | _ => True

/-! ## The failure report -/

/-- The database accepts the parameters of a failure report: the record is
valid `jsonb`, the delay of a retryable failure is an interval, and it ends in
the range of `timestamptz` if a row is retried. -/
structure FailRequest.Accepted (now : Timestamp) (db : Database) (request : FailRequest) :
    Prop where
  error : request.error ≠ none
  interval : request.nonRetryable = false -> request.retryDelay.IsInterval
  ends : db.job.rows.any request.retries = true -> request.retryDelay.EndsInRange now

/-- While the completion is awaited, its answer decides: an error of it, after
which the next report is accepted, is what breaks the contract. -/
def CompletionDecides (opts : RunnerOptions) (job : JobRow) (delivery : RunnerRun) : Prop :=
  forall (now : Timestamp) (behaviour : Behaviour) (error : DatabaseError) (draw : ReportDraw)
    (request : FailRequest) (later : Timestamp) (other : DatabaseError) (next : ReportDraw),
      failRequest opts job error.thrown delivery.state.timedOut draw = some request ->
        request.Accepted later delivery.state.db ->
          (SuccessKept (run (RunnerRun.step opts job) delivery
              [.report now behaviour error draw, .report later .answered other next]) <->
            behaviour = .answered)

namespace FailRequest

theorem exec_of_accepted {request : FailRequest} {now : Timestamp} {db : Database}
    (accepted : request.Accepted now db) :
    Exists fun executed : Executed => request.exec now db = .ok executed := by
  cases stored : request.error with
  | none => exact absurd stored accepted.error
  | some record =>
      rcases failJob_commits db (request.params record) now with ⟨reply, committed⟩
      have executes : (Statement.failJob (request.params record)).exec now db = .ok reply :=
        committed
      have planned : (!request.nonRetryable && !decide request.retryDelay.IsInterval) = false := by
        cases final : request.nonRetryable with
        | true => rfl
        | false => simp [accepted.interval final]
      have added : (db.job.rows.any request.retries &&
          !decide (request.retryDelay.EndsInRange now)) = false := by
        cases retried : db.job.rows.any request.retries with
        | false => rfl
        | true => simp [accepted.ends retried]
      refine ⟨⟨.failJob (request.params record), reply⟩, ?_⟩
      unfold exec
      rw [stored]
      dsimp only
      rw [planned, added, if_neg Bool.false_ne_true, if_neg Bool.false_ne_true]
      unfold Statement.report
      rw [executes]

theorem accepted_of_exec {request : FailRequest} {now : Timestamp} {db : Database}
    {executed : Executed} (ran : request.exec now db = .ok executed) :
    request.Accepted now db := by
  unfold exec at ran
  split at ran
  · cases ran
  · rename_i record stored
    split at ran
    · cases ran
    · rename_i planned
      split at ran
      · cases ran
      · rename_i added
        refine ⟨by rw [stored]; exact Option.some_ne_none record, ?_, ?_⟩
        · intro retryable
          rw [retryable, Bool.not_false, Bool.true_and, Bool.not_eq_true',
            decide_eq_false_iff_not, Classical.not_not] at planned
          exact planned
        · intro retried
          rw [retried, Bool.true_and, Bool.not_eq_true', decide_eq_false_iff_not,
            Classical.not_not] at added
          exact added

/-- A failure report hits a row exactly when its delivery holds one. -/
theorem exec_rows {opts : RunnerOptions} {job : JobRow} {state : RunnerState}
    {request : FailRequest} {now : Timestamp} {executed : Executed}
    (fence : request.fence = opts.fence job) (ran : request.exec now state.db = .ok executed) :
    executed.reply.rows ≠ [] <-> state.Owned opts job := by
  rcases exec_ok ran with ⟨record, stored, issued, executes⟩
  rw [issued] at executes
  have hit := Statement.exec_rows_ne_nil_iff executes rfl
  have same : (request.params record).toFenceParams = opts.fence job := fence
  rw [hit]
  unfold RunnerState.Owned
  rw [← same]
  rfl

end FailRequest

theorem failRequest_fence {opts : RunnerOptions} {job : JobRow} {e : Thrown} {timedOut : Bool}
    {draw : ReportDraw} {request : FailRequest}
    (built : failRequest opts job e timedOut draw = some request) :
    request.fence = opts.fence job := by
  rcases failRequest_eq_some built with ⟨kind, normalized, _, _, rfl⟩
  rfl

/-! ## The phases after the handler -/

namespace RunPhase

/-- A phase of the failure path, or an outcome other than lost ownership. -/
def Settled (opts : RunnerOptions) (job : JobRow) : RunPhase -> Prop
  | .handling => False
  | .acknowledging => False
  | .completing => False
  | .acknowledgingFailure _ _ => True
  | .failing request => request.fence = opts.fence job
  | .returned outcome => outcome ≠ .ownershipLost
  | .threw => True

/-- No report of the delivery has been answered yet. -/
def unreported : RunPhase -> Bool
  | .handling => true
  | .acknowledging => true
  | .completing => true
  | _ => false

end RunPhase

namespace RunnerState

theorem fail_settled (opts : RunnerOptions) (job : JobRow) (e : Thrown) (timedOut : Bool)
    (draw : ReportDraw) (state : RunnerState) :
    (state.fail opts job e timedOut draw).phase.Settled opts job := by
  cases built : failRequest opts job e timedOut draw with
  | none =>
      rw [fail_unbuilt built]
      exact trivial
  | some request =>
      rw [fail_built built]
      exact failRequest_fence built

theorem reportFailure_settled (opts : RunnerOptions) (job : JobRow) {e : Thrown}
    (draw : ReportDraw) (state : RunnerState) (held : e.errorClass ≠ .ownershipLost) :
    (state.reportFailure opts job e draw).phase.Settled opts job := by
  unfold reportFailure
  rw [if_neg held]
  split
  · exact trivial
  · exact fail_settled opts job e state.timedOut draw state

/-- An error of the database never leads to the outcome of lost ownership. -/
theorem raise_settled (opts : RunnerOptions) (job : JobRow) (e : DatabaseError)
    (draw : ReportDraw) {state : RunnerState} {now : Timestamp}
    (awaited : state.execReport opts job now ≠ none) :
    (state.raise opts job e draw).phase.Settled opts job := by
  have foreign : e.thrown.errorClass ≠ .ownershipLost := by
    rw [show e.thrown.errorClass = .other from e.foreign]
    exact ErrorClass.noConfusion
  unfold execReport at awaited
  unfold raise
  cases phase : state.phase with
  | handling => rw [phase] at awaited; exact absurd rfl awaited
  | returned outcome => rw [phase] at awaited; exact absurd rfl awaited
  | threw => rw [phase] at awaited; exact absurd rfl awaited
  | acknowledging => exact reportFailure_settled opts job draw state foreign
  | completing => exact reportFailure_settled opts job draw state foreign
  | acknowledgingFailure e timedOut => exact trivial
  | failing request => exact trivial

theorem reportFailure_resolved (opts : RunnerOptions) (job : JobRow) (e : Thrown)
    (draw : ReportDraw) (state : RunnerState) :
    (state.reportFailure opts job e draw).resolved = state.resolved := by
  unfold reportFailure
  split
  · rfl
  · split <;> rfl

theorem answer_resolved (opts : RunnerOptions) (job : JobRow) (draw : ReportDraw)
    (rows : List JobRow) (state : RunnerState) :
    (state.answer opts job draw rows).resolved = state.resolved := by
  unfold answer
  split
  · rfl
  · rfl
  · split <;> rfl
  · rfl
  · rfl

theorem raise_resolved (opts : RunnerOptions) (job : JobRow) (e : DatabaseError)
    (draw : ReportDraw) (state : RunnerState) :
    (state.raise opts job e draw).resolved = state.resolved := by
  unfold raise
  split
  · exact reportFailure_resolved opts job e.thrown draw state
  · exact reportFailure_resolved opts job e.thrown draw state
  · rfl
  · rfl
  · rfl

end RunnerState

/-! ## The contract -/

/-- A `failJob` for a resolved handler is accepted, and reaches a row that is
still held, or finds the row gone that the delivery has completed. -/
def Misreports (opts : RunnerOptions) (job : JobRow) (delivery : RunnerRun) : RunnerLabel -> Prop
  | .report now behaviour _ _ =>
      delivery.state.resolved = true ∧ Exists fun request : FailRequest =>
        delivery.state.phase = .failing request ∧ request.Accepted now delivery.state.db ∧
          ((behaviour ≠ .refused ∧ delivery.state.Owned opts job) ∨
            (behaviour = .answered ∧ Not (delivery.state.Owned opts job) ∧
              Exists fun write : RowWrite => write ∈ delivery.history ∧
                write.statement.isCompletion = true))
  | _ => False

/-- What every run without a misreport keeps. -/
structure SuccessInvariant (opts : RunnerOptions) (job : JobRow) (delivery : RunnerRun) :
    Prop where
  fence : forall request, delivery.state.phase = .failing request ->
    request.fence = opts.fence job
  pending : delivery.state.phase.unreported = true -> forall write, write ∈ delivery.history ->
    write.statement.isFailure = false ∧ write.statement.isCompletion = false
  sent : delivery.state.phase = .acknowledging ∨ delivery.state.phase = .completing ->
    delivery.state.resolved = true
  completed : forall write, write ∈ delivery.history -> write.statement.isCompletion = true ->
    delivery.state.resolved = true
  kept : SuccessKept delivery

namespace SuccessInvariant

variable {opts : RunnerOptions} {job : JobRow} {delivery : RunnerRun}

theorem start (opts : RunnerOptions) (job : JobRow) (db : Database) :
    SuccessInvariant opts job (.start db) where
  fence := by
    intro request impossible
    cases impossible
  pending := fun _ _ member => absurd member List.not_mem_nil
  sent := by
    rintro (impossible | impossible) <;> cases impossible
  completed := fun _ member => absurd member List.not_mem_nil
  kept := ⟨fun _ _ member => absurd member List.not_mem_nil,
    fun _ _ member => absurd member List.not_mem_nil⟩

/-- A settled phase leaves only the history to look at. -/
theorem of_settled {next : RunnerRun} (settled : next.state.phase.Settled opts job)
    (unfailed : next.state.resolved = true -> forall write, write ∈ next.history ->
      write.statement.isFailure = false)
    (completed : forall write, write ∈ next.history -> write.statement.isCompletion = true ->
      next.state.resolved = true) : SuccessInvariant opts job next where
  fence := by
    intro request phase
    rw [phase] at settled
    exact settled
  pending := by
    intro unreported
    cases phase : next.state.phase <;> rw [phase] at settled unreported
    all_goals first
      | exact absurd settled id
      | exact Bool.noConfusion unreported
  sent := by
    rintro (phase | phase) <;> rw [phase] at settled <;> exact absurd settled id
  completed := completed
  kept := by
    refine ⟨unfailed, ?_⟩
    intro phase
    rw [phase] at settled
    exact absurd rfl settled

/-- The outcome of lost ownership needs a history without a completion. -/
theorem of_lost {next : RunnerRun} (lost : next.state.phase = .returned .ownershipLost)
    (unfailed : next.state.resolved = true -> forall write, write ∈ next.history ->
      write.statement.isFailure = false)
    (uncompleted : forall write, write ∈ next.history -> write.statement.isCompletion = false) :
    SuccessInvariant opts job next where
  fence := by
    rw [lost]
    intro request impossible
    cases impossible
  pending := by
    rw [lost]
    intro impossible
    cases impossible
  sent := by
    rw [lost]
    rintro (impossible | impossible) <;> cases impossible
  completed := by
    intro write member completes
    rw [uncompleted write member] at completes
    cases completes
  kept := ⟨unfailed, fun _ => uncompleted⟩

/-- A delivery that holds no row completes none. -/
theorem uncompleted_of_gone {label : RunnerLabel} (gone : Not (delivery.state.Owned opts job))
    {write : RowWrite} (written : delivery.state.write opts job label = some write) :
    write.statement.isCompletion = false := by
  have writes := (RunnerState.writes_of_write written).2
  generalize write.statement = statement at writes
  cases writes with
  | heartbeat sent reached owned => rfl
  | acknowledge => rfl
  | complete sending reached owned => exact absurd owned gone
  | fail sending stored reached ran hit => rfl

/-- The write of a step that is no misreport. -/
theorem history_step (invariant : SuccessInvariant opts job delivery) {label : RunnerLabel}
    (within : Not (Misreports opts job delivery label)) :
    forall write, write ∈ (delivery.step opts job label).history ->
      (delivery.state.resolved = true -> write.statement.isFailure = false) ∧
        (write.statement.isCompletion = true -> delivery.state.resolved = true) := by
  intro write member
  rcases List.mem_append.mp member with new | older
  · have writes := (RunnerState.writes_of_write (Option.mem_toList.mp new)).2
    generalize write.statement = statement at writes
    cases writes with
    | heartbeat sent reached owned => exact ⟨fun _ => rfl, fun completes => by cases completes⟩
    | acknowledge => exact ⟨fun _ => rfl, fun completes => by cases completes⟩
    | complete phase reached owned => exact ⟨fun _ => rfl, fun _ => invariant.sent (Or.inr phase)⟩
    | fail phase stored reached ran hit =>
        refine ⟨fun resolved => ?_, fun completes => by cases completes⟩
        have owned := (FailRequest.exec_rows (invariant.fence _ phase) ran).mp hit
        exact absurd ⟨resolved, _, phase, FailRequest.accepted_of_exec ran,
          Or.inl ⟨reached, owned⟩⟩ within
  · exact ⟨fun resolved => invariant.kept.unfailed resolved write older,
      invariant.completed write older⟩

/-- A step that leaves the phase alone and writes at most a heartbeat. -/
theorem of_frame (invariant : SuccessInvariant opts job delivery) {next : RunnerRun}
    (phase : next.state.phase = delivery.state.phase)
    (resolved : next.state.resolved = delivery.state.resolved)
    (harmless : forall write, write ∈ next.history -> write ∈ delivery.history ∨
      (write.statement.isFailure = false ∧ write.statement.isCompletion = false)) :
    SuccessInvariant opts job next where
  fence := by
    rw [phase]
    exact invariant.fence
  pending := by
    rw [phase]
    intro unreported write member
    rcases harmless write member with older | neither
    · exact invariant.pending unreported write older
    · exact neither
  sent := by
    rw [phase, resolved]
    exact invariant.sent
  completed := by
    rw [resolved]
    intro write member completes
    rcases harmless write member with older | neither
    · exact invariant.completed write older completes
    · rw [neither.2] at completes
      cases completes
  kept := by
    refine ⟨?_, ?_⟩
    · rw [resolved]
      intro settled write member
      rcases harmless write member with older | neither
      · exact invariant.kept.unfailed settled write older
      · exact neither.1
    · rw [phase]
      intro lost write member
      rcases harmless write member with older | neither
      · exact invariant.kept.lost lost write older
      · exact neither.2

/-- The handler settles. -/
theorem settle (invariant : SuccessInvariant opts job delivery) (settlement : Settlement)
    (draw : ReportDraw) :
    SuccessInvariant opts job (delivery.step opts job (.settle settlement draw)) := by
  by_cases handling : delivery.state.phase = .handling
  · have quiet := invariant.pending (by rw [handling]; rfl)
    have next : (delivery.step opts job (.settle settlement draw)).state =
        delivery.state.settle opts job draw settlement :=
      RunnerState.settle_handling settlement handling
    have same : (delivery.step opts job (.settle settlement draw)).history = delivery.history := rfl
    cases settlement with
    | resolves =>
        refine ⟨?_, ?_, ?_, ?_, ?_, ?_⟩
        · rw [next]
          intro request phase
          dsimp only [RunnerState.settle] at phase
          split at phase <;> cases phase
        · rw [same]
          exact fun _ => quiet
        · rw [next]
          exact fun _ => rfl
        · rw [next]
          exact fun _ _ _ => rfl
        · rw [same]
          exact fun _ write member => (quiet write member).1
        · rw [same]
          exact fun _ write member => (quiet write member).2
    | throws e =>
        by_cases lost : e.errorClass = .ownershipLost
        · have phase : (delivery.step opts job (.settle (.throws e) draw)).state.phase =
              .returned .ownershipLost := by
            rw [next]
            unfold RunnerState.settle RunnerState.reportFailure
            dsimp only
            rw [if_pos lost]
          apply of_lost phase
          · rw [same]
            exact fun _ write member => (quiet write member).1
          · rw [same]
            exact fun write member => (quiet write member).2
        · apply of_settled
          · rw [next]
            exact RunnerState.reportFailure_settled opts job draw delivery.state lost
          · rw [same]
            exact fun _ write member => (quiet write member).1
          · rw [same]
            intro write member completes
            rw [(quiet write member).2] at completes
            cases completes
  · have next : (delivery.step opts job (.settle settlement draw)).state = delivery.state := by
      change delivery.state.step opts job (.settle settlement draw) = _
      unfold RunnerState.step
      dsimp only
      split
      · rename_i now
        exact absurd now handling
      · rfl
    apply invariant.of_frame
    · rw [next]
    · rw [next]
    · exact fun write member => Or.inl member

section Answered

variable {now : Timestamp} {error : DatabaseError} {draw : ReportDraw} {executed : Executed}

/-- An answer after which nothing is claimed of the history. -/
theorem of_answer_settled (invariant : SuccessInvariant opts job delivery)
    (within : Not (Misreports opts job delivery (.report now .answered error draw)))
    (ran : delivery.state.execReport opts job now = some (.ok executed))
    (settled : ({ delivery.state with db := executed.reply.db }.answer opts job draw
      executed.reply.rows).phase.Settled opts job) :
    SuccessInvariant opts job (delivery.step opts job (.report now .answered error draw)) := by
  have history := invariant.history_step within
  have next : (delivery.step opts job (.report now .answered error draw)).state =
      { delivery.state with db := executed.reply.db }.answer opts job draw executed.reply.rows :=
    RunnerState.report_answered ran
  have resolved : (delivery.step opts job (.report now .answered error draw)).state.resolved =
      delivery.state.resolved := by
    rw [next]
    exact RunnerState.answer_resolved opts job draw _ _
  apply of_settled
  · rwa [next]
  · rw [resolved]
    exact fun done write member => (history write member).1 done
  · rw [resolved]
    exact fun write member => (history write member).2

/-- An outcome of lost ownership needs a history without a completion. -/
theorem of_answer_lost (invariant : SuccessInvariant opts job delivery)
    (within : Not (Misreports opts job delivery (.report now .answered error draw)))
    (ran : delivery.state.execReport opts job now = some (.ok executed))
    (lost : ({ delivery.state with db := executed.reply.db }.answer opts job draw
      executed.reply.rows).phase = .returned .ownershipLost)
    (uncompleted : forall write,
      write ∈ (delivery.step opts job (.report now .answered error draw)).history ->
        write.statement.isCompletion = false) :
    SuccessInvariant opts job (delivery.step opts job (.report now .answered error draw)) := by
  have history := invariant.history_step within
  have next : (delivery.step opts job (.report now .answered error draw)).state =
      { delivery.state with db := executed.reply.db }.answer opts job draw executed.reply.rows :=
    RunnerState.report_answered ran
  apply of_lost _ _ uncompleted
  · rwa [next]
  · rw [next, RunnerState.answer_resolved]
    exact fun done write member => (history write member).1 done

/-- A write while a cancellation is acknowledged is the acknowledgement. -/
theorem neither_of_acknowledging (invariant : SuccessInvariant opts job delivery)
    (phase : delivery.state.phase = .acknowledging) {write : RowWrite}
    (member : write ∈ (delivery.step opts job (.report now .answered error draw)).history) :
    write.statement.isFailure = false ∧ write.statement.isCompletion = false := by
  rcases List.mem_append.mp member with new | older
  · have writes := (RunnerState.writes_of_write (Option.mem_toList.mp new)).2
    generalize write.statement = statement at writes
    cases writes with
    | acknowledge => exact ⟨rfl, rfl⟩
    | complete sending reached owned =>
        rw [phase] at sending
        cases sending
    | fail sending stored reached ran hit =>
        rw [phase] at sending
        cases sending
  · exact invariant.pending (by rw [phase]; rfl) write older

/-- An acknowledgement that matches nothing goes on to the completion. -/
theorem answered_acknowledging (invariant : SuccessInvariant opts job delivery)
    (within : Not (Misreports opts job delivery (.report now .answered error draw)))
    (ran : delivery.state.execReport opts job now = some (.ok executed))
    (phase : delivery.state.phase = .acknowledging) :
    SuccessInvariant opts job (delivery.step opts job (.report now .answered error draw)) := by
  have next : (delivery.step opts job (.report now .answered error draw)).state =
      { delivery.state with db := executed.reply.db }.answer opts job draw executed.reply.rows :=
    RunnerState.report_answered ran
  cases silent : executed.reply.rows.isEmpty with
  | false =>
      apply invariant.of_answer_settled within ran
      unfold RunnerState.answer
      simp only [phase, silent]
      exact RunOutcome.noConfusion
  | true =>
      unfold RunnerState.answer at next
      simp only [phase, silent, if_true] at next
      have done := invariant.sent (Or.inl phase)
      have neither := fun write => @neither_of_acknowledging opts job delivery now error draw
        invariant phase write
      have resolved : (delivery.step opts job (.report now .answered error draw)).state.resolved =
          delivery.state.resolved := by rw [next]
      refine ⟨?_, ?_, ?_, ?_, ?_, ?_⟩
      · rw [next]
        intro request impossible
        cases impossible
      · exact fun _ => neither
      · rw [resolved]
        exact fun _ => done
      · rw [resolved]
        exact fun _ _ _ => done
      · exact fun _ write member => (neither write member).1
      · exact fun _ write member => (neither write member).2

/-- A completion that matches nothing finds the row gone. -/
theorem answered_completing (invariant : SuccessInvariant opts job delivery)
    (within : Not (Misreports opts job delivery (.report now .answered error draw)))
    (ran : delivery.state.execReport opts job now = some (.ok executed))
    (phase : delivery.state.phase = .completing) :
    SuccessInvariant opts job (delivery.step opts job (.report now .answered error draw)) := by
  cases silent : executed.reply.rows.isEmpty with
  | false =>
      apply invariant.of_answer_settled within ran
      unfold RunnerState.answer
      simp only [phase, silent]
      exact RunOutcome.noConfusion
  | true =>
      have gone : Not (delivery.state.Owned opts job) := by
        intro owned
        unfold RunnerState.execReport at ran
        rw [phase] at ran
        have issued := Statement.report_ok (Option.some.inj ran)
        have listed := (Statement.exec_rows_ne_nil_iff issued.2 rfl).mpr owned
        exact listed (List.isEmpty_iff.mp silent)
      apply invariant.of_answer_lost within ran
      · unfold RunnerState.answer
        simp only [phase, silent, if_true]
      · intro write member
        rcases List.mem_append.mp member with new | older
        · exact uncompleted_of_gone gone (Option.mem_toList.mp new)
        · exact (invariant.pending (by rw [phase]; rfl) write older).2

/-- A failure report that matches nothing finds the row gone, and not for a
completion of its own. -/
theorem answered_failing (invariant : SuccessInvariant opts job delivery)
    (within : Not (Misreports opts job delivery (.report now .answered error draw)))
    (ran : delivery.state.execReport opts job now = some (.ok executed)) {request : FailRequest}
    (phase : delivery.state.phase = .failing request) :
    SuccessInvariant opts job (delivery.step opts job (.report now .answered error draw)) := by
  have answer := @RunnerState.answer_failing opts job
    { delivery.state with db := executed.reply.db } draw request executed.reply.rows phase
  have sent : request.exec now delivery.state.db = .ok executed := by
    unfold RunnerState.execReport at ran
    rw [phase] at ran
    exact Option.some.inj ran
  have held := FailRequest.exec_rows (invariant.fence request phase) sent
  cases listed : executed.reply.rows with
  | cons row rows =>
      apply invariant.of_answer_settled within ran
      rw [answer, listed]
      dsimp only
      split <;> exact RunOutcome.noConfusion
  | nil =>
      have gone : Not (delivery.state.Owned opts job) := fun owned => held.mpr owned listed
      apply invariant.of_answer_lost within ran
      · rw [answer, listed]
      · intro write member
        rcases List.mem_append.mp member with new | older
        · exact uncompleted_of_gone gone (Option.mem_toList.mp new)
        · cases completes : write.statement.isCompletion with
          | false => rfl
          | true =>
              exact absurd ⟨invariant.completed write older completes, request, phase,
                FailRequest.accepted_of_exec sent,
                Or.inr ⟨rfl, gone, write, older, completes⟩⟩ within

/-- A statement of the success path or of `reportFailure` is answered. -/
theorem answered (invariant : SuccessInvariant opts job delivery)
    (within : Not (Misreports opts job delivery (.report now .answered error draw)))
    (ran : delivery.state.execReport opts job now = some (.ok executed)) :
    SuccessInvariant opts job (delivery.step opts job (.report now .answered error draw)) := by
  cases phase : delivery.state.phase with
  | acknowledging => exact invariant.answered_acknowledging within ran phase
  | completing => exact invariant.answered_completing within ran phase
  | failing request => exact invariant.answered_failing within ran phase
  | acknowledgingFailure e timedOut =>
      apply invariant.of_answer_settled within ran
      rw [@RunnerState.answer_acknowledgingFailure opts job
        { delivery.state with db := executed.reply.db } draw e timedOut executed.reply.rows phase]
      split
      · exact RunnerState.fail_settled opts job e timedOut draw _
      · exact RunOutcome.noConfusion
  | _ =>
      -- nothing is awaited
      unfold RunnerState.execReport at ran
      rw [phase] at ran
      cases ran

end Answered

/-- A statement that is awaited raises an error. -/
theorem raised (invariant : SuccessInvariant opts job delivery) {now : Timestamp}
    {behaviour : Behaviour} {error : DatabaseError} {draw : ReportDraw} {db : Database}
    (within : Not (Misreports opts job delivery (.report now behaviour error draw)))
    (awaited : delivery.state.execReport opts job now ≠ none)
    (next : (delivery.step opts job (.report now behaviour error draw)).state =
      { delivery.state with db := db }.raise opts job error draw) :
    SuccessInvariant opts job (delivery.step opts job (.report now behaviour error draw)) := by
  have history := invariant.history_step within
  have resolved : (delivery.step opts job (.report now behaviour error draw)).state.resolved =
      delivery.state.resolved := by
    rw [next]
    exact RunnerState.raise_resolved opts job error draw _
  apply of_settled
  · rw [next]
    apply @RunnerState.raise_settled opts job error draw { delivery.state with db := db } now
    intro idle
    apply awaited
    unfold RunnerState.execReport at idle ⊢
    cases phase : delivery.state.phase <;> simp only [phase] at idle ⊢ <;> cases idle
  · rw [resolved]
    exact fun done write member => (history write member).1 done
  · rw [resolved]
    exact fun write member => (history write member).2

theorem step (invariant : SuccessInvariant opts job delivery) (label : RunnerLabel)
    (within : Not (Misreports opts job delivery label)) :
    SuccessInvariant opts job (delivery.step opts job label) := by
  by_cases reports : Exists fun now : Timestamp => Exists fun behaviour : Behaviour =>
      Exists fun error : DatabaseError => Exists fun draw : ReportDraw =>
        label = .report now behaviour error draw
  · rcases reports with ⟨now, behaviour, error, draw, rfl⟩
    cases ran : delivery.state.execReport opts job now with
    | none =>
        have next : (delivery.step opts job (.report now behaviour error draw)).state =
            delivery.state := RunnerState.report_idle ran
        have silent : delivery.state.write opts job (.report now behaviour error draw) = none := by
          unfold RunnerState.write
          dsimp only
          rw [ran]
        apply invariant.of_frame
        · rw [next]
        · rw [next]
        · intro write member
          rcases List.mem_append.mp member with new | older
          · rw [silent] at new
            cases new
          · exact Or.inl older
    | some executes =>
        have awaited : delivery.state.execReport opts job now ≠ none := by
          rw [ran]
          exact Option.some_ne_none executes
        rcases RunnerState.report_awaited behaviour error draw ran with ⟨executed, rfl, rfl⟩ | ⟨db, next⟩
        · exact invariant.answered within ran
        · exact invariant.raised within awaited next
  · by_cases settles : Exists fun settlement : Settlement => Exists fun draw : ReportDraw =>
        label = .settle settlement draw
    · rcases settles with ⟨settlement, draw, rfl⟩
      exact invariant.settle settlement draw
    · have unsettling : forall settlement draw, label ≠ .settle settlement draw :=
        fun settlement draw same => settles ⟨settlement, draw, same⟩
      have unreporting : forall now behaviour error draw,
          label ≠ .report now behaviour error draw :=
        fun now behaviour error draw same => reports ⟨now, behaviour, error, draw, same⟩
      have frame := RunnerState.step_frame opts job delivery.state unsettling unreporting
      apply invariant.of_frame frame.1 frame.2
      intro write member
      rcases List.mem_append.mp member with new | older
      · have writes := (RunnerState.writes_of_write (Option.mem_toList.mp new)).2
        generalize write.statement = statement at writes
        cases writes with
        | heartbeat sent reached owned => exact Or.inr ⟨rfl, rfl⟩
        | acknowledge => exact absurd rfl (unreporting _ _ _ _)
        | complete phase reached owned => exact absurd rfl (unreporting _ _ _ _)
        | fail phase stored reached ran hit => exact absurd rfl (unreporting _ _ _ _)
      · exact Or.inl older

/-- A misreport records a failure, or reports ownership lost of a job it has
marked succeeded. -/
theorem not_kept (invariant : SuccessInvariant opts job delivery) {label : RunnerLabel}
    (misreports : Misreports opts job delivery label) :
    Not (SuccessKept (delivery.step opts job label)) := by
  intro kept
  cases label with
  | report now behaviour error draw =>
      rcases misreports with ⟨resolved, request, phase, accepted, wrong⟩
      rcases FailRequest.exec_of_accepted accepted with ⟨executed, ran⟩
      have held := FailRequest.exec_rows (invariant.fence request phase) ran
      have sent : delivery.state.execReport opts job now = some (.ok executed) :=
        (RunnerState.execReport_failing phase).trans (congrArg some ran)
      rcases wrong with ⟨reached, owned⟩ | ⟨rfl, gone, write, member, completes⟩
      · rcases FailRequest.exec_ok ran with ⟨record, stored, issued, _⟩
        have written : delivery.state.write opts job (.report now behaviour error draw) =
            some ⟨executed.statement, delivery.state.late⟩ := by
          unfold RunnerState.write
          dsimp only
          rw [sent]
          exact RunnerState.wrote_eq_some_iff.mpr
            ⟨executed, rfl, reached, held.mpr owned, rfl⟩
        have stillResolved : (delivery.step opts job
            (.report now behaviour error draw)).state.resolved = true := by
          change (delivery.state.step opts job (.report now behaviour error draw)).resolved = true
          rcases RunnerState.report_awaited behaviour error draw sent with ⟨_, rfl, _⟩ | ⟨db, next⟩
          · rw [RunnerState.report_answered sent]
            exact (RunnerState.answer_resolved opts job draw _ _).trans resolved
          · rw [next]
            exact (RunnerState.raise_resolved opts job error draw _).trans resolved
        have unfailed := kept.unfailed stillResolved ⟨executed.statement, delivery.state.late⟩
          (List.mem_append_left _ (Option.mem_toList.mpr written))
        rw [issued] at unfailed
        cases unfailed
      · have silent : executed.reply.rows = [] := by
          by_contra listed
          exact gone (held.mp listed)
        have lost : (delivery.step opts job (.report now .answered error draw)).state.phase =
            .returned .ownershipLost := by
          change (delivery.state.step opts job (.report now .answered error draw)).phase = _
          rw [RunnerState.report_answered sent]
          refine (@RunnerState.answer_failing opts job
            { delivery.state with db := executed.reply.db } draw request _ phase).trans ?_
          rw [silent]
        have uncompleted := kept.lost lost write (List.mem_append_right _ member)
        rw [completes] at uncompleted
        cases uncompleted
  | timeout => exact misreports
  | sendHeartbeat => exact misreports
  | heartbeat now behaviour => exact misreports
  | heartbeatReply index => exact misreports
  | settle settlement draw => exact misreports
  | other call => exact misreports

end SuccessInvariant

/-! ## Answered reports -/

/-- A resolved handler is still being reported, or `run` has returned. -/
def Reporting (state : RunnerState) : Prop :=
  state.resolved = true -> state.phase.reportsSuccess = true ∨
    Exists fun outcome : RunOutcome => state.phase = .returned outcome

namespace Reporting

variable {opts : RunnerOptions} {job : JobRow} {state : RunnerState} {now : Timestamp}
variable {draw : ReportDraw}

theorem settle (reporting : Reporting state) (settlement : Settlement) :
    Reporting (state.step opts job (.settle settlement draw)) := by
  cases settled : state.phase.unsettled with
  | false =>
      rw [RunnerState.settle_settled settlement settled]
      exact reporting
  | true =>
      have handling : state.phase = .handling := RunPhase.handling_of_unsettled settled
      rw [RunnerState.settle_handling settlement handling]
      intro resolved
      cases settlement with
      | resolves =>
          refine Or.inl ?_
          unfold RunnerState.settle
          dsimp only
          split <;> rfl
      | throws e =>
          -- a handler that is running has not resolved
          have before : state.resolved = true :=
            (RunnerState.reportFailure_resolved opts job e draw state).symm.trans resolved
          rcases reporting before with reports | ⟨outcome, returned⟩
          · rw [handling] at reports
            cases reports
          · exact absurd (handling.symm.trans returned) RunPhase.noConfusion

/-- The statements of the success path are executed whenever they are sent. -/
theorem execReport_success (reports : state.phase.reportsSuccess = true) :
    Exists fun executed : Executed => state.execReport opts job now = some (.ok executed) := by
  unfold RunnerState.execReport Statement.report
  cases phase : state.phase with
  | acknowledging =>
      rcases acknowledgeCancellation_commits state.db (opts.fence job) now with ⟨reply, committed⟩
      have executes : (Statement.acknowledgeCancellation (opts.fence job)).exec now state.db =
          .ok reply := committed
      dsimp only
      rw [executes]
      exact ⟨_, rfl⟩
  | completing =>
      rcases completeJob_commits state.db (opts.fence job) now with ⟨reply, committed⟩
      have executes : (Statement.completeJob (opts.fence job)).exec now state.db = .ok reply :=
        committed
      dsimp only
      rw [executes]
      exact ⟨_, rfl⟩
  | _ =>
      rw [phase] at reports
      cases reports

/-- Their answers complete the job or end the run. -/
theorem answer_success (rows : List JobRow) (reports : state.phase.reportsSuccess = true) :
    (state.answer opts job draw rows).phase.reportsSuccess = true ∨
      Exists fun outcome : RunOutcome =>
        (state.answer opts job draw rows).phase = .returned outcome := by
  unfold RunnerState.answer
  cases phase : state.phase with
  | acknowledging =>
      dsimp only
      split
      · exact Or.inl rfl
      · exact Or.inr ⟨_, rfl⟩
  | completing =>
      dsimp only
      split <;> exact Or.inr ⟨_, rfl⟩
  | _ =>
      rw [phase] at reports
      cases reports

theorem report (reporting : Reporting state) (behaviour : Behaviour) (error : DatabaseError)
    (answered : state.phase.reportsSuccess = true -> behaviour = .answered) :
    Reporting (state.step opts job (.report now behaviour error draw)) := by
  intro resolved
  have kept := @RunnerState.report_events opts job state draw now behaviour error
  rcases reporting (kept.1.resolved.symm.trans resolved) with reports | ⟨outcome, returned⟩
  · cases answered reports
    rcases @execReport_success opts job state now reports with ⟨executed, ran⟩
    rw [RunnerState.report_answered ran]
    exact @answer_success opts job { state with db := executed.reply.db } draw
      executed.reply.rows reports
  · rw [RunnerState.report_idle
      (RunnerState.execReport_finished (RunnerState.finished_returned returned))]
    exact Or.inr ⟨outcome, returned⟩

theorem step {delivery : RunnerRun} (reporting : Reporting delivery.state) {label : RunnerLabel}
    (answered : SuccessAnswered delivery label) :
    Reporting (delivery.step opts job label).state := by
  change Reporting (delivery.state.step opts job label)
  cases label with
  | settle settlement draw => exact reporting.settle settlement
  | report now behaviour error draw => exact reporting.report behaviour error answered
  | _ =>
      unfold Reporting
      rw [(RunnerState.step_frame opts job delivery.state (by simp) (by simp)).1,
        (RunnerState.step_frame opts job delivery.state (by simp) (by simp)).2]
      exact reporting

end Reporting

/-- While the reports of a success are answered, no failure is reported. -/
theorem not_misreports {opts : RunnerOptions} {job : JobRow} {delivery : RunnerRun}
    (reporting : Reporting delivery.state) (label : RunnerLabel) :
    Not (Misreports opts job delivery label) := by
  intro misreports
  cases label with
  | report now behaviour error draw =>
      rcases misreports with ⟨resolved, request, phase, _⟩
      rcases reporting resolved with reports | ⟨outcome, returned⟩
      · rw [phase] at reports
        cases reports
      · exact absurd (phase.symm.trans returned) RunPhase.noConfusion
  | timeout => exact misreports
  | sendHeartbeat => exact misreports
  | heartbeat now behaviour => exact misreports
  | heartbeatReply index => exact misreports
  | settle settlement draw => exact misreports
  | other call => exact misreports

/-! ## An error of the completion -/

section Completing

variable {opts : RunnerOptions} {job : JobRow} {delivery : RunnerRun} {error : DatabaseError}
variable {draw : ReportDraw} {request : FailRequest}

/-- The error is taken for one of the handler. -/
theorem raise_completing {state : RunnerState} (phase : state.phase = .completing)
    (unheard : state.cancelRequested = false)
    (built : failRequest opts job error.thrown state.timedOut draw = some request) :
    state.raise opts job error draw = { state with phase := .failing request } := by
  have other : error.thrown.errorClass = .other := error.foreign
  unfold RunnerState.raise
  rw [phase]
  dsimp only
  have unacknowledged : state.acknowledges error.thrown = false := by
    unfold RunnerState.acknowledges
    rw [other, unheard]
    rfl
  unfold RunnerState.reportFailure
  rw [if_neg (by rw [other]; exact ErrorClass.noConfusion), unacknowledged,
    if_neg Bool.false_ne_true]
  unfold RunnerState.fail
  rw [built]

/-- The completion leaves the delivery without a row. -/
theorem gone_of_completed {state : RunnerState} {now : Timestamp} {executed : Executed}
    (ran : (Statement.completeJob (opts.fence job)).report now state.db = .ok executed) :
    forall row, row ∈ executed.reply.db.job.rows -> (opts.fence job).owns row = false := by
  have committed : (completeJob (opts.fence job) now).run state.db = .ok executed.reply :=
    (Statement.report_ok ran).2
  intro row member
  rw [(Mutation.run_ok committed).1] at member
  rcases List.mem_map.mp member with ⟨old, _, rfl⟩
  unfold Mutation.rewrite
  split
  · exact Bool.eq_false_iff.mpr fun owned =>
      absurd (FenceParams.owns_iff.mp owned).2.1 (by simp [completeJob])
  · rename_i missed
    exact Bool.eq_false_iff.mpr missed

/-- The completion itself is never a misreport. -/
theorem not_misreports_completing (phase : delivery.state.phase = .completing) (now : Timestamp)
    (behaviour : Behaviour) :
    Not (Misreports opts job delivery (.report now behaviour error draw)) := by
  rintro ⟨_, request, failing, _⟩
  exact absurd (phase.symm.trans failing) RunPhase.noConfusion

/-- If the completion is not executed, the failure is recorded on its row; if it
was executed, its row is reported lost. -/
theorem misreports_of_error (invariant : SuccessInvariant opts job delivery)
    (phase : delivery.state.phase = .completing) (owned : delivery.state.Owned opts job)
    (unheard : delivery.state.cancelRequested = false)
    (built : failRequest opts job error.thrown delivery.state.timedOut draw = some request)
    (now later : Timestamp) (accepted : request.Accepted later delivery.state.db)
    {behaviour : Behaviour} (wrong : behaviour ≠ .answered) (other : DatabaseError)
    (next : ReportDraw) :
    Misreports opts job (delivery.step opts job (.report now behaviour error draw))
      (.report later .answered other next) := by
  have resolved := invariant.sent (Or.inr phase)
  have awaited : delivery.state.execReport opts job now =
      some ((Statement.completeJob (opts.fence job)).report now delivery.state.db) := by
    unfold RunnerState.execReport
    rw [phase]
  cases behaviour with
  | answered => exact absurd rfl wrong
  | refused =>
      have raised : (delivery.step opts job (.report now .refused error draw)).state =
          { delivery.state with phase := .failing request } :=
        (RunnerState.report_refused awaited).trans (raise_completing phase unheard built)
      refine ⟨?_, request, ?_, ?_, Or.inl ⟨Behaviour.noConfusion, ?_⟩⟩ <;> rw [raised]
      · exact resolved
      · exact accepted
      · exact owned
  | lost =>
      rcases @Reporting.execReport_success opts job delivery.state now (by rw [phase]; rfl)
        with ⟨executed, ran⟩
      have sent : (Statement.completeJob (opts.fence job)).report now delivery.state.db =
          .ok executed := Option.some.inj (awaited.symm.trans ran)
      have raised : (delivery.step opts job (.report now .lost error draw)).state =
          { delivery.state with db := executed.reply.db, phase := .failing request } :=
        (RunnerState.report_lost ran).trans
          (@raise_completing opts job error draw request
            { delivery.state with db := executed.reply.db } phase unheard built)
      have gone := gone_of_completed sent
      have written := @RunnerState.write_completion opts job delivery.state now .lost error draw
        phase Behaviour.noConfusion owned
      have unretried : executed.reply.db.job.rows.any request.retries = false := by
        rw [List.any_eq_false]
        intro row member
        unfold FailRequest.retries
        rw [failRequest_fence built, gone row member]
        exact Bool.false_ne_true
      refine ⟨?_, request, ?_, ?_, Or.inr ⟨rfl, ?_, ⟨.completeJob (opts.fence job),
        delivery.state.late⟩, ?_, rfl⟩⟩
      · rw [raised]
        exact resolved
      · rw [raised]
      · rw [raised]
        refine ⟨accepted.error, accepted.interval, ?_⟩
        dsimp only
        rw [unretried]
        exact Bool.noConfusion
      · rw [raised]
        rintro ⟨row, member, holds⟩
        exact absurd ((gone row member).symm.trans holds) Bool.noConfusion
      · exact List.mem_append_left _ (Option.mem_toList.mpr written)

theorem completionDecides (invariant : SuccessInvariant opts job delivery)
    (reporting : Reporting delivery.state) (phase : delivery.state.phase = .completing)
    (owned : delivery.state.Owned opts job) (unheard : delivery.state.cancelRequested = false) :
    CompletionDecides opts job delivery := by
  intro now behaviour error draw request later other next built accepted
  have completed := invariant.step (.report now behaviour error draw)
    (not_misreports_completing phase now behaviour)
  constructor
  · intro kept
    by_contra wrong
    exact completed.not_kept (misreports_of_error invariant phase owned unheard built now later
      accepted wrong other next) kept
  · rintro rfl
    have answered : Reporting (delivery.step opts job (.report now .answered error draw)).state :=
      reporting.step fun _ => rfl
    exact (completed.step _ (not_misreports answered _)).kept

end Completing

/-- A run in which the reports of the success are answered keeps it, and so does
what it leads to. -/
theorem successInvariant_of_answered {opts : RunnerOptions} {job : JobRow} {db : Database}
    {labels : List RunnerLabel}
    (answered : EachStep (RunnerRun.step opts job) SuccessAnswered (.start db) labels) :
    Always (RunnerRun.step opts job)
      (fun delivery => SuccessInvariant opts job delivery ∧ Reporting delivery.state)
      (.start db) labels := by
  apply @always_of_eachStep _ _ (RunnerRun.step opts job)
    (fun delivery => SuccessInvariant opts job delivery ∧ Reporting delivery.state) _ _ _ _ _ _
    _ answered
  · exact fun delivery both => both
  · intro delivery label both answeredNow
    exact ⟨both.1.step label (not_misreports both.2 label), both.2.step answeredNow⟩
  · exact ⟨.start opts job db, Bool.noConfusion⟩

/-- When the statements that report a handler's success are answered, it is
kept in every state of the run; and while the completion of a job that is still
held is awaited, it is kept from there only if the completion is answered. -/
theorem success_kept (opts : RunnerOptions) (job : JobRow) (db : Database)
    (labels : List RunnerLabel)
    (answered : EachStep (RunnerRun.step opts job) SuccessAnswered (.start db) labels) :
    Always (RunnerRun.step opts job) SuccessKept (.start db) labels ∧
      forall delivery, delivery = run (RunnerRun.step opts job) (.start db) labels ->
        delivery.state.phase = .completing -> delivery.state.Owned opts job ->
          delivery.state.cancelRequested = false -> CompletionDecides opts job delivery := by
  have always := successInvariant_of_answered answered
  constructor
  · rw [always_iff_forall_initial] at always ⊢
    exact fun visited initial => (always visited initial).1.kept
  · rintro delivery rfl phase owned unheard
    have both := (always_iff_forall_initial _ _ _ _).mp always labels List.prefix_rfl
    exact completionDecides both.1 both.2 phase owned unheard

/-- The handler sends a heartbeat and resolves. -/
def resolvesInTime : List RunnerLabel := [
  .sendHeartbeat, .heartbeat (seconds 3) .answered, .heartbeatReply 0,
  .settle .resolves ⟨seconds 5, seconds 1⟩]

/-- Its completion is answered. -/
def completionAnswered : List RunnerLabel := resolvesInTime ++ [
  .report (seconds 5) .answered connectionLost ⟨seconds 5, seconds 1⟩]

/-- The success is kept, and no other answer would have kept it. -/
theorem completionAnswered_kept :
    (run (RunnerRun.step plainRunner claimedJob) (.start claimedDatabase)
        completionAnswered).state.phase = .returned .succeeded ∧
      Always (RunnerRun.step plainRunner claimedJob) SuccessKept (.start claimedDatabase)
        completionAnswered ∧
      CompletionDecides plainRunner claimedJob
        (run (RunnerRun.step plainRunner claimedJob) (.start claimedDatabase) resolvesInTime) := by
  refine ⟨rfl, (success_kept plainRunner claimedJob claimedDatabase completionAnswered ?_).1,
    (success_kept plainRunner claimedJob claimedDatabase resolvesInTime ?_).2 _ rfl rfl
      (by decide) rfl⟩
  · exact ⟨trivial, trivial, trivial, trivial, fun _ => rfl, trivial⟩
  · exact ⟨trivial, trivial, trivial, trivial, trivial⟩

/-- The handler resolves, the connection breaks before the completion is
executed, and the failure is recorded. -/
def completionRefused : List RunnerLabel := [
  .settle .resolves ⟨seconds 5, seconds 1⟩,
  .report (seconds 5) .refused connectionLost ⟨seconds 5, seconds 1⟩,
  .report (seconds 6) .answered connectionLost ⟨seconds 6, seconds 1⟩]

/-- The completion is executed, but its answer is lost. -/
def completionLost : List RunnerLabel := [
  .settle .resolves ⟨seconds 5, seconds 1⟩,
  .report (seconds 5) .lost connectionLost ⟨seconds 5, seconds 1⟩,
  .report (seconds 6) .answered connectionLost ⟨seconds 6, seconds 1⟩]

/-- The first run records a failure of a handler that resolved, the second
reports ownership lost of the job it has marked succeeded. -/
theorem completion_misreported :
    Not (Always (RunnerRun.step plainRunner claimedJob) SuccessKept (.start claimedDatabase)
        completionRefused) ∧
      Not (Always (RunnerRun.step plainRunner claimedJob) SuccessKept (.start claimedDatabase)
        completionLost) := by
  constructor
  · intro always
    have last := (always_iff_forall_initial _ _ _ _).mp always completionRefused List.prefix_rfl
    have failed : ((run (RunnerRun.step plainRunner claimedJob) (.start claimedDatabase)
        completionRefused).history.map (fun write => write.statement.isFailure)) = [true] := by rfl
    rcases List.mem_map.mp (failed ▸ List.mem_singleton_self true) with ⟨write, member, isFailure⟩
    rw [last.unfailed rfl write member] at isFailure
    cases isFailure
  · intro always
    have last := (always_iff_forall_initial _ _ _ _).mp always completionLost List.prefix_rfl
    have completed := last.lost rfl ⟨.completeJob ⟨1, "w", 1⟩, false⟩ List.mem_cons_self
    cases completed

end PgJobQ
