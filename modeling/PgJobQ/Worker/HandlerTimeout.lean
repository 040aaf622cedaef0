import PgJobQ.Lifecycle.StateMachine
import PgJobQ.Worker.Runner

/-!
# The job timeout

The documentation says that the queue gives up on a handler whose timer has
fired.  The timer sets a flag and aborts the signal.  The flag decides the
kind of a failure that is recorded; neither the success path nor the heartbeat
looks at it, and the heartbeat timer runs until `run` returns.

So a delivery whose timer has fired before its handler settled is recorded as
a timeout, acknowledged as cancelled, or left alone, except when one of two
statements still reaches a row it holds: a heartbeat, or the completion of a
handler that has resolved late.
-/

namespace PgJobQ

open Runs

/-- The statement records a timeout, or acknowledges a cancellation. -/
def Statement.endsTimedOut : Statement -> Bool
  | .failJob p => p.error.kind = .timeout
  | .acknowledgeCancellation _ => true
  | _ => false

/-- Once its timer has fired before its handler settled, a delivery does
nothing to its row but record the timeout or acknowledge a cancellation. -/
def TimeoutEnds (delivery : RunnerRun) : Prop :=
  forall write, write ∈ delivery.history -> write.late = true ->
    write.statement.endsTimedOut = true

/-! ## What happens around a delivery -/

/-- What its events alone tell of a delivery: whether the timer has fired
before the handler settled, whether the handler has settled, and the heartbeats
that are under way. -/
structure DeliveryInputs where
  late : Bool
  settled : Bool
  underWay : Nat

namespace DeliveryInputs

def start : DeliveryInputs := ⟨false, false, 0⟩

def step (inputs : DeliveryInputs) : RunnerLabel -> DeliveryInputs
  | .timeout => { inputs with late := inputs.late || !inputs.settled }
  | .sendHeartbeat => { inputs with underWay := inputs.underWay + 1 }
  | .heartbeat _ _ => { inputs with underWay := inputs.underWay - 1 }
  | .settle _ _ => { inputs with settled := true }
  | _ => inputs

/-- No heartbeat is under way when the timer fires, and once it has fired the
handler neither sends one nor resolves. -/
def GivesUp (inputs : DeliveryInputs) : RunnerLabel -> Prop
  | .timeout => inputs.settled = false -> inputs.underWay = 0
  | .sendHeartbeat => inputs.late = false
  | .settle .resolves _ => inputs.late = true -> inputs.settled = true
  | _ => True

end DeliveryInputs

/-- What the events of a whole run tell. -/
def deliveryInputs (labels : List RunnerLabel) : DeliveryInputs :=
  run DeliveryInputs.step .start labels

/-- The handler gives up when its timer fires. -/
def GivesUpInTime (labels : List RunnerLabel) : Prop :=
  EachStep DeliveryInputs.step DeliveryInputs.GivesUp .start labels

/-- The delivery holds its row in no state after its timer has fired before its
handler settled. -/
def RowLost (opts : RunnerOptions) (job : JobRow) (db : Database) (labels : List RunnerLabel) :
    Prop :=
  forall before, before <+: labels -> (deliveryInputs before).late = true ->
    Not ((run (RunnerRun.step opts job) (.start db) before).state.Owned opts job)

/-- Each input that is not given up can be the one that keeps the delivery
going: a heartbeat under way, one that is sent, a handler that resolves. -/
structure GoesOn (opts : RunnerOptions) (job : JobRow) (inputs : DeliveryInputs)
    (delivery : RunnerRun) : Prop where
  underWay : inputs.underWay ≠ 0 -> forall now behaviour, behaviour ≠ .refused ->
    Not (TimeoutEnds (delivery.step opts job (.heartbeat now behaviour)))
  sent : forall now behaviour, behaviour ≠ .refused ->
    Not (TimeoutEnds (run (RunnerRun.step opts job) delivery
      [.sendHeartbeat, .heartbeat now behaviour]))
  resolved : inputs.settled = false -> delivery.state.cancelRequested = false ->
    forall draw now behaviour error next, behaviour ≠ .refused ->
      Not (TimeoutEnds (run (RunnerRun.step opts job) delivery
        [.settle .resolves draw, .report now behaviour error next]))

/-! ## The flag decides the kind -/

/-- What a phase remembers of a timer that had fired when the handler settled. -/
def RunPhase.Timed : RunPhase -> Prop
  | .acknowledgingFailure _ timedOut => timedOut = true
  | .failing request => forall record, request.error = some record -> record.kind = .timeout
  | _ => True

theorem NormalizedError.asRecord_kind {normalized : NormalizedError} {kind : ErrorKind}
    {attempt : Int} {recordedAt : Timestamp} {workerId : String} {record : JobErrorRecord}
    (stored : normalized.asRecord kind attempt recordedAt workerId = some record) :
    record.kind = kind := by
  unfold asRecord at stored
  split at stored
  · cases stored
    rfl
  · cases stored

theorem failRequest_timed {opts : RunnerOptions} {job : JobRow} {e : Thrown} {draw : ReportDraw}
    {request : FailRequest} (built : failRequest opts job e true draw = some request) :
    (RunPhase.failing request).Timed := by
  intro record stored
  rcases failRequest_eq_some built with ⟨kind, normalized, timeout, _, rfl⟩
  cases timeout
  exact NormalizedError.asRecord_kind stored

namespace RunnerState

/-- The timer of a late delivery has fired, and its phase remembers that. -/
structure Timed (state : RunnerState) : Prop where
  fired : state.late = true -> state.timedOut = true
  phase : state.late = true -> state.phase.Timed

theorem Timed.start (db : Database) : Timed (.start db) where
  fired := Bool.noConfusion
  phase := Bool.noConfusion

/-- Only the flags and the phase matter. -/
theorem Timed.of_same {state next : RunnerState} (timed : Timed state)
    (late : next.late = state.late) (timedOut : next.timedOut = state.timedOut)
    (phase : next.phase = state.phase) : Timed next where
  fired := by
    rw [late, timedOut]
    exact timed.fired
  phase := by
    rw [late, phase]
    exact timed.phase

theorem Timed.fail {state : RunnerState} (timed : Timed state) (opts : RunnerOptions)
    (job : JobRow) (e : Thrown) (draw : ReportDraw) {timedOut : Bool}
    (captured : state.late = true -> timedOut = true) :
    Timed (state.fail opts job e timedOut draw) where
  fired := timed.fired
  phase := by
    intro late
    rw [captured late]
    cases built : failRequest opts job e true draw with
    | none =>
        rw [fail_unbuilt built]
        exact trivial
    | some request =>
        rw [fail_built built]
        exact failRequest_timed built

theorem Timed.reportFailure {state : RunnerState} (timed : Timed state) (opts : RunnerOptions)
    (job : JobRow) (e : Thrown) (draw : ReportDraw) :
    Timed (state.reportFailure opts job e draw) := by
  unfold RunnerState.reportFailure
  split
  · exact ⟨timed.fired, fun _ => trivial⟩
  · split
    · exact ⟨timed.fired, timed.fired⟩
    · exact timed.fail opts job e draw timed.fired

theorem Timed.answer {state : RunnerState} (timed : Timed state) (opts : RunnerOptions)
    (job : JobRow) (draw : ReportDraw) (rows : List JobRow) :
    Timed (state.answer opts job draw rows) := by
  unfold RunnerState.answer
  split
  · refine ⟨timed.fired, fun _ => ?_⟩
    dsimp only
    split <;> exact trivial
  · refine ⟨timed.fired, fun _ => ?_⟩
    dsimp only
    split <;> exact trivial
  · rename_i e timedOut phase
    split
    · apply timed.fail
      intro late
      have remembered := timed.phase late
      rw [phase] at remembered
      exact remembered
    · exact ⟨timed.fired, fun _ => trivial⟩
  · refine ⟨timed.fired, fun _ => ?_⟩
    dsimp only
    split
    · exact trivial
    · split <;> exact trivial
  · exact timed

theorem Timed.raise {state : RunnerState} (timed : Timed state) (opts : RunnerOptions)
    (job : JobRow) (e : DatabaseError) (draw : ReportDraw) :
    Timed (state.raise opts job e draw) := by
  unfold RunnerState.raise
  split
  · exact timed.reportFailure opts job e.thrown draw
  · exact timed.reportFailure opts job e.thrown draw
  · exact ⟨timed.fired, fun _ => trivial⟩
  · exact ⟨timed.fired, fun _ => trivial⟩
  · exact timed

theorem Timed.step {state : RunnerState} (timed : Timed state) (opts : RunnerOptions)
    (job : JobRow) (label : RunnerLabel) : Timed (state.step opts job label) := by
  cases label with
  | sendHeartbeat => exact timed.of_same rfl rfl rfl
  | other call => exact timed.of_same rfl rfl rfl
  | timeout =>
      unfold RunnerState.step
      dsimp only
      split
      · exact timed
      · refine ⟨fun _ => rfl, ?_⟩
        dsimp only [RunnerState.abort]
        cases phase : state.phase with
        | handling => exact fun _ => trivial
        | _ =>
            have remembered := timed.phase
            rw [phase] at remembered
            exact remembered
  | heartbeat now behaviour =>
      unfold RunnerState.step
      dsimp only
      split
      · exact timed
      · split <;> exact timed.of_same rfl rfl rfl
  | heartbeatReply index =>
      unfold RunnerState.step
      dsimp only
      split
      · exact timed
      · unfold RunnerState.heartbeatReply
        split
        · exact timed.of_same rfl rfl rfl
        · split <;> exact timed.of_same rfl rfl rfl
  | settle settlement draw =>
      unfold RunnerState.step
      dsimp only
      split
      · cases settlement with
        | resolves =>
            refine ⟨timed.fired, fun _ => ?_⟩
            dsimp only [RunnerState.settle]
            split <;> exact trivial
        | throws e => exact timed.reportFailure opts job e draw
      · exact timed
  | report now behaviour error draw =>
      cases awaited : state.execReport opts job now with
      | none =>
          rw [report_idle awaited]
          exact timed
      | some executes =>
          rcases report_awaited behaviour error draw awaited with ⟨executed, rfl, rfl⟩ | ⟨db, next⟩
          · rw [report_answered awaited]
            apply Timed.answer
            exact timed.of_same rfl rfl rfl
          · rw [next]
            apply Timed.raise
            exact timed.of_same rfl rfl rfl

end RunnerState

/-! ## The handler and its events -/

/-- The run awaits a statement that reports the handler's success. -/
def RunPhase.reportsSuccess : RunPhase -> Bool
  | .acknowledging => true
  | .completing => true
  | _ => false

/-- The handler is running. -/
def RunPhase.unsettled : RunPhase -> Bool
  | .handling => true
  | _ => false

theorem RunPhase.handling_of_unsettled {phase : RunPhase} (running : phase.unsettled = true) :
    phase = .handling := by
  cases phase with
  | handling => rfl
  | _ => cases running

/-- The phase belongs to the time after the handler's success is lost. -/
def RunPhase.PastSuccess (phase : RunPhase) : Prop :=
  phase.reportsSuccess = false ∧ phase.unsettled = false

namespace RunnerState

variable {opts : RunnerOptions} {job : JobRow} {state : RunnerState} {draw : ReportDraw}

/-- What a step of the phase leaves alone of the rest. -/
structure SameEvents (next state : RunnerState) : Prop where
  late : next.late = state.late
  heartbeats : next.heartbeats = state.heartbeats
  resolved : next.resolved = state.resolved

theorem fail_pastSuccess (e : Thrown) (timedOut : Bool) :
    (state.fail opts job e timedOut draw).phase.PastSuccess := by
  cases built : failRequest opts job e timedOut draw with
  | none =>
      rw [fail_unbuilt built]
      exact ⟨rfl, rfl⟩
  | some request =>
      rw [fail_built built]
      exact ⟨rfl, rfl⟩

theorem reportFailure_events (e : Thrown) :
    SameEvents (state.reportFailure opts job e draw) state ∧
      (state.reportFailure opts job e draw).phase.PastSuccess := by
  unfold reportFailure
  split
  · exact ⟨⟨rfl, rfl, rfl⟩, rfl, rfl⟩
  · split
    · exact ⟨⟨rfl, rfl, rfl⟩, rfl, rfl⟩
    · exact ⟨⟨rfl, rfl, rfl⟩, fail_pastSuccess e state.timedOut⟩

/-- An answer leads on from the acknowledgement to the completion, and out of
the success path everywhere else. -/
theorem answer_events (rows : List JobRow) :
    SameEvents (state.answer opts job draw rows) state ∧
      ((state.answer opts job draw rows).phase.reportsSuccess = true ->
        state.phase.reportsSuccess = true) ∧
      (state.answer opts job draw rows).phase.unsettled = state.phase.unsettled := by
  unfold answer
  cases phase : state.phase with
  | acknowledging =>
      refine ⟨⟨rfl, rfl, rfl⟩, fun _ => rfl, ?_⟩
      dsimp only
      split <;> rfl
  | completing =>
      refine ⟨⟨rfl, rfl, rfl⟩, fun _ => rfl, ?_⟩
      dsimp only
      split <;> rfl
  | acknowledgingFailure e timedOut =>
      dsimp only
      split
      · have past := @fail_pastSuccess opts job state draw e timedOut
        refine ⟨⟨rfl, rfl, rfl⟩, ?_, past.2⟩
        rw [past.1]
        exact Bool.noConfusion
      · exact ⟨⟨rfl, rfl, rfl⟩, Bool.noConfusion, rfl⟩
  | failing request =>
      dsimp only
      split
      · exact ⟨⟨rfl, rfl, rfl⟩, Bool.noConfusion, rfl⟩
      · split <;> exact ⟨⟨rfl, rfl, rfl⟩, Bool.noConfusion, rfl⟩
  | _ =>
      dsimp only
      rw [phase]
      exact ⟨⟨rfl, rfl, rfl⟩, id, rfl⟩

/-- An error of a statement that is awaited leads out of the success path. -/
theorem raise_events (e : DatabaseError) (awaits : state.phase.unsettled = false) :
    SameEvents (state.raise opts job e draw) state ∧
      (state.raise opts job e draw).phase.PastSuccess := by
  unfold raise
  cases phase : state.phase with
  | handling =>
      rw [phase] at awaits
      cases awaits
  | acknowledging => exact reportFailure_events e.thrown
  | completing => exact reportFailure_events e.thrown
  | returned outcome =>
      dsimp only
      rw [phase]
      exact ⟨⟨rfl, rfl, rfl⟩, rfl, rfl⟩
  | threw =>
      dsimp only
      rw [phase]
      exact ⟨⟨rfl, rfl, rfl⟩, rfl, rfl⟩
  | _ => exact ⟨⟨rfl, rfl, rfl⟩, rfl, rfl⟩

/-- A running handler awaits no statement. -/
theorem unsettled_of_awaited {now : Timestamp} {executes : Except StatementError Executed}
    (awaited : state.execReport opts job now = some executes) : state.phase.unsettled = false := by
  unfold execReport at awaited
  cases phase : state.phase with
  | handling =>
      rw [phase] at awaited
      cases awaited
  | _ => rfl

/-- A report changes nothing that the events around the delivery tell. -/
theorem report_events (now : Timestamp) (behaviour : Behaviour) (error : DatabaseError) :
    SameEvents (state.step opts job (.report now behaviour error draw)) state ∧
      ((state.step opts job (.report now behaviour error draw)).phase.reportsSuccess = true ->
        state.phase.reportsSuccess = true) ∧
      (state.step opts job (.report now behaviour error draw)).phase.unsettled =
        state.phase.unsettled := by
  cases awaited : state.execReport opts job now with
  | none =>
      rw [report_idle awaited]
      exact ⟨⟨rfl, rfl, rfl⟩, id, rfl⟩
  | some executes =>
      have settled := unsettled_of_awaited awaited
      rcases report_awaited behaviour error draw awaited with ⟨executed, rfl, rfl⟩ | ⟨db, next⟩
      · rw [report_answered awaited]
        have kept := @answer_events opts job { state with db := executed.reply.db } draw
          executed.reply.rows
        exact ⟨⟨kept.1.late, kept.1.heartbeats, kept.1.resolved⟩, kept.2⟩
      · rw [next]
        have kept := @raise_events opts job { state with db := db } draw error settled
        refine ⟨⟨kept.1.late, kept.1.heartbeats, kept.1.resolved⟩, ?_, kept.2.2.trans settled.symm⟩
        rw [kept.2.1]
        exact Bool.noConfusion

/-- A handler that settles leaves its phase, and reports a success if it has
resolved. -/
theorem settle_events (settlement : Settlement) (handling : state.phase.unsettled = true) :
    (state.step opts job (.settle settlement draw)).late = state.late ∧
      (state.step opts job (.settle settlement draw)).heartbeats = state.heartbeats ∧
      (state.step opts job (.settle settlement draw)).phase.unsettled = false ∧
      ((state.step opts job (.settle settlement draw)).phase.reportsSuccess = true ->
        settlement = .resolves) := by
  rw [settle_handling settlement (RunPhase.handling_of_unsettled handling)]
  cases settlement with
  | resolves =>
      refine ⟨rfl, rfl, ?_, fun _ => rfl⟩
      unfold settle
      dsimp only
      split <;> rfl
  | throws e =>
      have kept := @reportFailure_events opts job state draw e
      refine ⟨kept.1.late, kept.1.heartbeats, kept.2.2, ?_⟩
      intro reports
      exact absurd (reports.symm.trans kept.2.1) Bool.noConfusion

/-- A handler settles once. -/
theorem settle_settled (settlement : Settlement) (settled : state.phase.unsettled = false) :
    state.step opts job (.settle settlement draw) = state := by
  unfold step
  cases phase : state.phase with
  | handling =>
      rw [phase] at settled
      cases settled
  | _ => rfl

/-- The steps that are neither a settlement nor a report leave phase and result
of the handler alone. -/
theorem step_frame (opts : RunnerOptions) (job : JobRow) (state : RunnerState)
    {label : RunnerLabel} (unsettling : forall settlement draw, label ≠ .settle settlement draw)
    (unreporting : forall now behaviour error draw, label ≠ .report now behaviour error draw) :
    (state.step opts job label).phase = state.phase ∧
      (state.step opts job label).resolved = state.resolved := by
  cases label with
  | settle settlement draw => exact absurd rfl (unsettling settlement draw)
  | report now behaviour error draw => exact absurd rfl (unreporting now behaviour error draw)
  | sendHeartbeat => exact ⟨rfl, rfl⟩
  | other call => exact ⟨rfl, rfl⟩
  | timeout =>
      unfold step
      dsimp only
      split <;> exact ⟨rfl, rfl⟩
  | heartbeat now behaviour =>
      unfold step
      dsimp only
      split
      · exact ⟨rfl, rfl⟩
      · split <;> exact ⟨rfl, rfl⟩
  | heartbeatReply index =>
      unfold step
      dsimp only
      split
      · exact ⟨rfl, rfl⟩
      · unfold heartbeatReply
        split
        · exact ⟨rfl, rfl⟩
        · split <;> exact ⟨rfl, rfl⟩

end RunnerState

namespace DeliveryInputs

/-- What the events tell is what the delivery knows of itself. -/
structure Tied (inputs : DeliveryInputs) (state : RunnerState) : Prop where
  late : state.late = inputs.late
  underWay : state.heartbeats = inputs.underWay
  settled : state.phase.unsettled = !inputs.settled

theorem Tied.start (db : Database) : Tied .start (.start db) := ⟨rfl, rfl, rfl⟩

theorem Tied.step {inputs : DeliveryInputs} {state : RunnerState} (tied : Tied inputs state)
    (opts : RunnerOptions) (job : JobRow) (label : RunnerLabel) :
    Tied (inputs.step label) (state.step opts job label) := by
  cases label with
  | sendHeartbeat => exact ⟨tied.late, congrArg (· + 1) tied.underWay, tied.settled⟩
  | other call => exact ⟨tied.late, tied.underWay, tied.settled⟩
  | timeout =>
      have settled := tied.settled
      unfold RunnerState.step RunnerState.finished
      unfold DeliveryInputs.step
      cases phase : state.phase with
      | handling =>
          rw [phase] at settled
          have running : inputs.settled = false := by simpa [RunPhase.unsettled] using settled
          exact ⟨by simp [running], tied.underWay, by simp [RunnerState.abort, phase, settled]⟩
      | _ =>
          rw [phase] at settled
          have done : inputs.settled = true := by simpa [RunPhase.unsettled] using settled
          refine ⟨?_, ?_, ?_⟩ <;>
            simp [RunnerState.abort, phase, done, tied.late, tied.underWay, RunPhase.unsettled]
  | heartbeat now behaviour =>
      unfold RunnerState.step DeliveryInputs.step
      dsimp only
      have sent := tied.underWay
      split
      · rename_i none
        exact ⟨tied.late, by rw [← sent, none], tied.settled⟩
      · split <;> exact ⟨tied.late, congrArg (· - 1) sent, tied.settled⟩
  | heartbeatReply index =>
      unfold RunnerState.step
      dsimp only
      split
      · exact tied
      · unfold RunnerState.heartbeatReply
        split
        · exact ⟨tied.late, tied.underWay, tied.settled⟩
        · split <;> exact ⟨tied.late, tied.underWay, tied.settled⟩
  | settle settlement draw =>
      cases settled : state.phase.unsettled with
      | true =>
          have kept := @RunnerState.settle_events opts job state draw settlement settled
          exact ⟨kept.1.trans tied.late, kept.2.1.trans tied.underWay, kept.2.2.1⟩
      | false =>
          rw [RunnerState.settle_settled settlement settled]
          exact ⟨tied.late, tied.underWay, settled⟩
  | report now behaviour error draw =>
      have kept := @RunnerState.report_events opts job state draw now behaviour error
      exact ⟨kept.1.late.trans tied.late, kept.1.heartbeats.trans tied.underWay,
        kept.2.2.trans tied.settled⟩

/-- A late delivery whose handler gives up has no heartbeat under way and no
success to report. -/
structure Quiet (inputs : DeliveryInputs) (state : RunnerState) : Prop where
  tied : Tied inputs state
  silent : inputs.late = true -> inputs.underWay = 0
  failed : inputs.late = true -> state.phase.reportsSuccess = false

theorem Quiet.start (db : Database) : Quiet .start (.start db) :=
  ⟨.start db, fun _ => rfl, fun _ => rfl⟩

theorem Quiet.step {inputs : DeliveryInputs} {state : RunnerState} (quiet : Quiet inputs state)
    (opts : RunnerOptions) (job : JobRow) {label : RunnerLabel} (givesUp : inputs.GivesUp label) :
    Quiet (inputs.step label) (state.step opts job label) where
  tied := quiet.tied.step opts job label
  silent := by
    cases label with
    | timeout =>
        intro late
        cases settled : inputs.settled with
        | false => exact givesUp settled
        | true =>
            simp only [DeliveryInputs.step, settled, Bool.not_true, Bool.or_false] at late
            exact quiet.silent late
    | sendHeartbeat =>
        intro late
        exact absurd (late.symm.trans givesUp) Bool.noConfusion
    | heartbeat now behaviour =>
        intro late
        unfold DeliveryInputs.step
        dsimp only
        rw [quiet.silent late]
    | _ => exact quiet.silent
  failed := by
    cases label with
    | settle settlement draw =>
        intro late
        cases settled : state.phase.unsettled with
        | false =>
            rw [RunnerState.settle_settled settlement settled]
            exact quiet.failed late
        | true =>
            have kept := @RunnerState.settle_events opts job state draw settlement settled
            rw [← Bool.not_eq_true]
            intro reports
            -- a handler that resolves late does not give up
            cases kept.2.2.2 reports
            have running : inputs.settled = false := by
              have known := quiet.tied.settled
              rw [settled] at known
              simpa using known
            exact absurd ((givesUp late).symm.trans running) Bool.noConfusion
    | report now behaviour error draw =>
        intro late
        have kept := @RunnerState.report_events opts job state draw now behaviour error
        rw [← Bool.not_eq_true]
        intro reports
        exact absurd ((kept.2.1 reports).symm.trans (quiet.failed late)) Bool.noConfusion
    | timeout =>
        intro late
        rw [(RunnerState.step_frame opts job state (by simp) (by simp)).1]
        cases settled : state.phase.unsettled with
        | true =>
            rw [RunPhase.handling_of_unsettled settled]
            rfl
        | false =>
            have known := quiet.tied.settled
            rw [settled] at known
            have done : inputs.settled = true := by simpa using known
            simp only [DeliveryInputs.step, done, Bool.not_true, Bool.or_false] at late
            exact quiet.failed late
    | _ =>
        rw [(RunnerState.step_frame opts job state (by simp) (by simp)).1]
        exact quiet.failed

end DeliveryInputs

/-! ## The contract -/

/-- A heartbeat, or the completion of a resolved handler, reaches the row of a
delivery whose timer had fired before its handler settled. -/
def Overruns (opts : RunnerOptions) (job : JobRow) (delivery : RunnerRun) : RunnerLabel -> Prop
  | .heartbeat _ behaviour =>
      delivery.state.late = true ∧ delivery.state.heartbeats ≠ 0 ∧ behaviour ≠ .refused ∧
        delivery.state.Owned opts job
  | .report _ behaviour _ _ =>
      delivery.state.late = true ∧ delivery.state.phase = .completing ∧ behaviour ≠ .refused ∧
        delivery.state.Owned opts job
  | _ => False

/-- What every run without an overrun keeps. -/
structure TimeoutInvariant (delivery : RunnerRun) : Prop where
  timed : delivery.state.Timed
  ends : TimeoutEnds delivery

namespace TimeoutInvariant

theorem start (db : Database) : TimeoutInvariant (.start db) where
  timed := .start db
  ends := fun _ member => absurd member List.not_mem_nil

/-- Every write of a late delivery that is not an overrun ends it as a timeout. -/
theorem step {opts : RunnerOptions} {job : JobRow} {delivery : RunnerRun}
    (invariant : TimeoutInvariant delivery) (label : RunnerLabel)
    (within : Not (Overruns opts job delivery label)) :
    TimeoutInvariant (delivery.step opts job label) where
  timed := invariant.timed.step opts job label
  ends := by
    intro write member late
    rcases List.mem_append.mp member with new | older
    · rcases RunnerState.writes_of_write (Option.mem_toList.mp new) with ⟨sameLate, writes⟩
      rw [late] at sameLate
      generalize write.statement = statement at writes
      cases writes with
      | heartbeat sent reached owned =>
          exact absurd ⟨sameLate.symm, sent, reached, owned⟩ within
      | acknowledge => rfl
      | complete phase reached owned =>
          exact absurd ⟨sameLate.symm, phase, reached, owned⟩ within
      | fail phase stored reached ran hit =>
          have remembered := invariant.timed.phase sameLate.symm
          rw [phase] at remembered
          exact decide_eq_true (remembered _ stored)
    · exact invariant.ends write older late

/-- An overrun extends the lease or marks the job succeeded. -/
theorem not_ends {opts : RunnerOptions} {job : JobRow} {delivery : RunnerRun}
    {label : RunnerLabel} (overruns : Overruns opts job delivery label) :
    Not (TimeoutEnds (delivery.step opts job label)) := by
  intro ends
  have recorded : forall write, delivery.state.write opts job label = some write ->
      write.late = true -> write.statement.endsTimedOut = true := by
    intro write written
    exact ends write (List.mem_append_left _ (Option.mem_toList.mpr written))
  cases label with
  | heartbeat now behaviour =>
      rcases overruns with ⟨late, sent, reached, owned⟩
      have ended := recorded _ (RunnerState.write_heartbeat now sent reached owned) late
      exact absurd ended Bool.false_ne_true
  | report now behaviour error draw =>
      rcases overruns with ⟨late, phase, reached, owned⟩
      have ended := recorded _
        (RunnerState.write_completion now error draw phase reached owned) late
      exact absurd ended Bool.false_ne_true
  | timeout => exact overruns
  | sendHeartbeat => exact overruns
  | heartbeatReply index => exact overruns
  | settle settlement draw => exact overruns
  | other call => exact overruns

end TimeoutInvariant

/-- The timeout ends a delivery in every state of a run without overruns. -/
theorem always_timeoutEnds {opts : RunnerOptions} {job : JobRow} {db : Database}
    {labels : List RunnerLabel}
    (within : EachStep (RunnerRun.step opts job)
      (fun delivery label => Not (Overruns opts job delivery label)) (.start db) labels) :
    Always (RunnerRun.step opts job) TimeoutEnds (.start db) labels := by
  apply @always_of_eachStep _ _ (RunnerRun.step opts job) TimeoutInvariant _ _ _ _ _
    (TimeoutInvariant.start db) _ within
  · exact fun delivery invariant => invariant.ends
  · exact fun delivery label invariant within => invariant.step label within

/-- A handler that gives up in time overruns nothing. -/
theorem within_of_givesUp {opts : RunnerOptions} {job : JobRow} {db : Database}
    {labels : List RunnerLabel} (givesUp : GivesUpInTime labels) :
    EachStep (RunnerRun.step opts job)
      (fun delivery label => Not (Overruns opts job delivery label)) (.start db) labels := by
  apply @eachStep_of_observed _ _ _ (RunnerRun.step opts job) DeliveryInputs.step
    (fun inputs delivery => inputs.Quiet delivery.state) DeliveryInputs.GivesUp _
    (fun inputs delivery label quiet allowed => quiet.step opts job allowed) ?_ _ _
    (DeliveryInputs.Quiet.start db) _ givesUp
  intro inputs delivery label quiet _ overruns
  cases label with
  | heartbeat now behaviour =>
      have late : inputs.late = true := quiet.tied.late.symm.trans overruns.1
      exact overruns.2.1 (quiet.tied.underWay.trans (quiet.silent late))
  | report now behaviour error draw =>
      have late : inputs.late = true := quiet.tied.late.symm.trans overruns.1
      have failed := quiet.failed late
      rw [overruns.2.1] at failed
      cases failed
  | timeout => exact overruns
  | sendHeartbeat => exact overruns
  | heartbeatReply index => exact overruns
  | settle settlement draw => exact overruns
  | other call => exact overruns

/-- The events of a run tell what its delivery knows of itself. -/
theorem deliveryInputs_tied (opts : RunnerOptions) (job : JobRow) (db : Database)
    (labels : List RunnerLabel) :
    (deliveryInputs labels).Tied (run (RunnerRun.step opts job) (.start db) labels).state :=
  @run_tied _ _ _ (RunnerRun.step opts job) DeliveryInputs.step
    (fun inputs delivery => inputs.Tied delivery.state)
    (fun _ _ label tied => tied.step opts job label) _ _ (DeliveryInputs.Tied.start db) labels

/-- A delivery that has lost its row overruns nothing. -/
theorem within_of_rowLost {opts : RunnerOptions} {job : JobRow} {db : Database}
    {labels : List RunnerLabel} (lost : RowLost opts job db labels) :
    EachStep (RunnerRun.step opts job)
      (fun delivery label => Not (Overruns opts job delivery label)) (.start db) labels := by
  apply eachStep_of_visited
  intro before initial label overruns
  have tied := deliveryInputs_tied opts job db before
  cases label with
  | heartbeat now behaviour =>
      exact lost before initial (tied.late.symm.trans overruns.1) overruns.2.2.2
  | report now behaviour error draw =>
      exact lost before initial (tied.late.symm.trans overruns.1) overruns.2.2.2
  | timeout => exact overruns
  | sendHeartbeat => exact overruns
  | heartbeatReply index => exact overruns
  | settle settlement draw => exact overruns
  | other call => exact overruns

/-- A late delivery that holds its row goes on with any of the three inputs. -/
theorem goesOn_of_late {opts : RunnerOptions} {job : JobRow} {inputs : DeliveryInputs}
    {delivery : RunnerRun} (tied : inputs.Tied delivery.state) (late : inputs.late = true)
    (owned : delivery.state.Owned opts job) : GoesOn opts job inputs delivery where
  underWay := by
    intro sent now behaviour reached
    apply TimeoutInvariant.not_ends
    refine ⟨tied.late.trans late, ?_, reached, owned⟩
    rwa [tied.underWay]
  sent := by
    intro now behaviour reached
    apply @TimeoutInvariant.not_ends opts job (delivery.step opts job .sendHeartbeat)
    exact ⟨tied.late.trans late, Nat.succ_ne_zero _, reached, owned⟩
  resolved := by
    intro unsettled unheard draw now behaviour error next reached
    have handling : delivery.state.phase = .handling :=
      RunPhase.handling_of_unsettled (tied.settled.trans (by rw [unsettled]; rfl))
    have settled : (delivery.step opts job (.settle .resolves draw)).state =
        { delivery.state with resolved := true, phase := .completing } := by
      refine (RunnerState.settle_handling .resolves handling).trans ?_
      unfold RunnerState.settle
      dsimp only
      rw [unheard, if_neg Bool.false_ne_true]
    apply @TimeoutInvariant.not_ends opts job (delivery.step opts job (.settle .resolves draw))
    refine ⟨?_, ?_, reached, ?_⟩
    · rw [settled]
      exact tied.late.trans late
    · rw [settled]
    · rw [settled]
      exact owned

/-- The timeout ends every delivery whose handler gives up when the timer
fires, and every delivery that has lost its row; any other input can keep a
delivery that holds its row going. -/
theorem timeout_ends (opts : RunnerOptions) (job : JobRow) (db : Database)
    (labels : List RunnerLabel) :
    (GivesUpInTime labels ∨ RowLost opts job db labels ->
        Always (RunnerRun.step opts job) TimeoutEnds (.start db) labels) ∧
      ((deliveryInputs labels).late = true ->
        (run (RunnerRun.step opts job) (.start db) labels).state.Owned opts job ->
          GoesOn opts job (deliveryInputs labels)
            (run (RunnerRun.step opts job) (.start db) labels)) := by
  constructor
  · rintro (givesUp | lost)
    · exact always_timeoutEnds (within_of_givesUp givesUp)
    · exact always_timeoutEnds (within_of_rowLost lost)
  · exact goesOn_of_late (deliveryInputs_tied opts job db labels)

def plainRunner : RunnerOptions := ⟨"w", 5, 4096, seconds 3600, by decide⟩

/-- The database in which worker `w` has claimed its job. -/
def claimedDatabase : Database := run Database.step (.empty [] .empty) (claimedOnce 3)

/-- The job worker `w` has claimed there. -/
def claimedJob : JobRow := claimSet "w" 0 ((plainEnqueue 3).toJobRow 1 0)

/-- A connection that is lost. -/
def connectionLost : DatabaseError :=
  ⟨⟨.other, literal "DatabaseError", literal "ECONNRESET", literal "", none, .absent, .unlike⟩, rfl⟩

/-- A heartbeat is sent and executed at 5 seconds, and the timer fires after 10
seconds. -/
def timerFires : List RunnerLabel := [
  .sendHeartbeat, .heartbeat (seconds 5) .answered, .heartbeatReply 0, .timeout]

/-- The handler throws when its signal is aborted. -/
def throwsWhenAborted : List RunnerLabel := timerFires ++ [
  .settle (.throws connectionLost.thrown) ⟨seconds 11, seconds 1⟩,
  .report (seconds 11) .answered connectionLost ⟨seconds 11, seconds 1⟩]

/-- The handler that throws gives up, and its job is retried; another one that
goes on after the timer has fired would still have kept the delivery going. -/
theorem throwsWhenAborted_ends :
    (run (RunnerRun.step plainRunner claimedJob) (.start claimedDatabase)
        throwsWhenAborted).state.phase = .returned .retried ∧
      Always (RunnerRun.step plainRunner claimedJob) TimeoutEnds (.start claimedDatabase)
        throwsWhenAborted ∧
      GoesOn plainRunner claimedJob (deliveryInputs timerFires)
        (run (RunnerRun.step plainRunner claimedJob) (.start claimedDatabase) timerFires) := by
  refine ⟨rfl, (timeout_ends plainRunner claimedJob claimedDatabase throwsWhenAborted).1 ?_,
    (timeout_ends plainRunner claimedJob claimedDatabase timerFires).2 rfl (by decide)⟩
  exact Or.inl ⟨rfl, trivial, trivial, fun _ => rfl, trivial, trivial, trivial⟩

/-- The timer fires after 10 seconds.  The handler sends a heartbeat at 20
seconds, looks at the signal, and returns early at 25 seconds. -/
def returnsEarly : List RunnerLabel := [
  .timeout,
  .sendHeartbeat, .heartbeat (seconds 20) .answered, .heartbeatReply 0,
  .settle .resolves ⟨seconds 25, 0⟩,
  .report (seconds 25) .answered connectionLost ⟨seconds 25, 0⟩]

/-- The heartbeat extends the lease, and the job is marked succeeded. -/
theorem returnsEarly_succeeds :
    (run (RunnerRun.step plainRunner claimedJob) (.start claimedDatabase) returnsEarly).history =
        [⟨.completeJob ⟨1, "w", 1⟩, true⟩, ⟨.heartbeatJob ⟨1, "w", 1⟩ 30, true⟩] ∧
      Not (Always (RunnerRun.step plainRunner claimedJob) TimeoutEnds (.start claimedDatabase)
        returnsEarly) := by
  have writes : (run (RunnerRun.step plainRunner claimedJob) (.start claimedDatabase)
      returnsEarly).history =
        [⟨.completeJob ⟨1, "w", 1⟩, true⟩, ⟨.heartbeatJob ⟨1, "w", 1⟩ 30, true⟩] := by rfl
  refine ⟨writes, fun always => ?_⟩
  have last := (always_iff_forall_initial _ _ _ _).mp always returnsEarly List.prefix_rfl
  have ended := last ⟨.completeJob ⟨1, "w", 1⟩, true⟩ (by rw [writes]; exact List.mem_cons_self) rfl
  exact absurd ended (by decide)

end PgJobQ
