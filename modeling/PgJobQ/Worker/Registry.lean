import PgJobQ.Library.InsertionMap
import PgJobQ.Worker.FailureRecord

/-!
# Failures that are not retried

`Registry.run` looks the job type up, validates the payload and calls the
handler.  All three can fail, and all three failures reach the runner as a
thrown value.  Two of them will not go away on a retry, and a handler can say
so of its own with a `NonRetryableError`.

The runner is told only the value, and recovers the origin of a failure from
the properties of the value.  The delivery below keeps the origin beside the
state of the runner.
-/

namespace PgJobQ

open Runs
open Utf16

/-! ## The registry -/

/-- The error of `schema.parse`. -/
structure ZodError where
  value : ErrorValue
  foreign : value.errorClass = .other
  issues : value.issues = .like

/-- What `schema.parse` does with a payload.  Code that the schema calls, in a
refinement or a transformation, can throw anything. -/
inductive Parsing (Output : Type) where
  | parsed (output : Output)
  | invalid (error : ZodError)
  | raised (e : Thrown)

/-- A registration, without the handler: what a handler does is said by the
labels of a delivery. -/
structure Registry.Registration (Output : Type) where
  schema : String -> Parsing Output

/-- Maps job type to registration. -/
abbrev Registry (Output : Type) := InsertionMap String (Registry.Registration Output)

/-- Where a failure of a delivery comes from. -/
inductive FailureCause where
  | noHandler (type : String) (stack : Text)
  | invalidPayload (error : ZodError)
  | schemaCode (e : Thrown)
  | handler (e : Thrown)
  | database (error : DatabaseError)

/-- `new NoHandlerError(type)`. -/
def noHandlerError (type : String) (stack : Text) : ErrorValue where
  errorClass := .other
  name := literal "NoHandlerError"
  message := literal ("No handler registered for job type '" ++ type ++ "'")
  stack := .string stack
  asString := some (encode
    ("NoHandlerError: No handler registered for job type '" ++ type ++ "'").toList)
  issues := .absent
  code := .like

namespace FailureCause

/-- What the runner catches. -/
def thrown : FailureCause -> Thrown
  | noHandler type stack => .error (noHandlerError type stack)
  | invalidPayload error => .error error.value
  | schemaCode e => e
  | handler e => e
  | database error => error.thrown

/-- Retrying cannot help: there is no handler, the payload of the job fails its
schema, or the handler says so. -/
def Unretryable : FailureCause -> Prop
  | noHandler _ _ => True
  | invalidPayload _ => True
  | schemaCode _ => False
  | handler e => e.errorClass = .nonRetryable
  | database _ => False

end FailureCause

/-- How far `Registry.run` gets before the first `await`. -/
inductive Invocation (Output : Type) where
  | handling (output : Output)
  | failed (cause : FailureCause)

namespace Registry

variable {Output : Type}

/-- `resolve`; the stack is that of the error it throws. -/
def resolve (registry : Registry Output) (type : String) (stack : Text) :
    Except FailureCause (Registration Output) :=
  match registry.get type with
  | none => .error (.noHandler type stack)
  | some entry => .ok entry

/-- `run`, up to the call of the handler. -/
def run (registry : Registry Output) (type payload : String) (stack : Text) : Invocation Output :=
  match resolve registry type stack with
  | .error cause => .failed cause
  | .ok entry =>
      match entry.schema payload with
      | .parsed output => .handling output
      | .invalid error => .failed (.invalidPayload error)
      | .raised e => .failed (.schemaCode e)

end Registry

/-! ## A delivery with the origin of its failure -/

/-- `cause` is not in the program: the origin of the last failure. -/
structure TracedDelivery where
  runner : RunnerState
  cause : Option FailureCause

namespace TracedDelivery

/-- Nothing can happen in the process between the start of the timers and a
failure before the first `await`. -/
def start {Output : Type} (registry : Registry Output) (opts : RunnerOptions) (job : JobRow)
    (stack : Text) (draw : ReportDraw) (db : Database) : TracedDelivery :=
  match Registry.run registry job.type job.payload stack with
  | .handling _ => ⟨.start db, none⟩
  | .failed cause =>
      ⟨(RunnerState.start db).settle opts job draw (.throws cause.thrown), some cause⟩

/-- The failure a step brings about: the handler throws, or one of the
statements that share its `try` block raises an error. -/
def raises (opts : RunnerOptions) (job : JobRow) (state : RunnerState) :
    RunnerLabel -> Option FailureCause
  | .settle (.throws e) _ =>
      match state.phase with
      | .handling => some (.handler e)
      | _ => none
  | .report now behaviour error _ =>
      match state.phase with
      | .acknowledging | .completing =>
          match behaviour, state.execReport opts job now with
          | .answered, some (.ok _) => none
          | _, _ => some (.database error)
      | _ => none
  | _ => none

def step (opts : RunnerOptions) (job : JobRow) (delivery : TracedDelivery) (label : RunnerLabel) :
    TracedDelivery where
  runner := delivery.runner.step opts job label
  cause := (raises opts job delivery.runner label).or delivery.cause

end TracedDelivery

/-! ## The contract -/

/-- The report tells the truth about the cause: it is marked as not to be
retried, and a job that has attempts left is buried by it, exactly when
retrying cannot help. -/
structure FailRequest.Truthful (request : FailRequest) (cause : FailureCause) : Prop where
  marked : request.nonRetryable = true <-> cause.Unretryable
  buried : forall (record : JobErrorRecord) (now : Timestamp) (row : JobRow),
    row.attempt < row.maxAttempts ->
      (((failJob (request.params record) now).set row).state = .dead <-> cause.Unretryable)

/-- A failure report that is sent is true of the failure that has happened. -/
def TracedDelivery.Truthful (delivery : TracedDelivery) : Prop :=
  forall request, delivery.runner.phase = .failing request ->
    Exists fun cause : FailureCause => delivery.cause = some cause ∧ request.Truthful cause

/-- The properties of an object are those of a `ZodError` or a `NoHandlerError`. -/
def ResemblesObject (issues code : Probe) : Prop :=
  issues = .like ∨ (issues ≠ .throws ∧ code = .like)

/-- The value looks like an error of the registry: it is an object with an
array of `issues` or with the code `NO_HANDLER`, and not of a class that is
looked at before. -/
def Thrown.Resembles : Thrown -> Prop
  | .error e =>
      e.errorClass ≠ .handlerTimeout ∧ e.errorClass ≠ .nonRetryable ∧
        ResemblesObject e.issues e.code
  | .other value => value.type = .object ∧ ResemblesObject value.issues value.code
  | _ => False

/-- The value can be normalized, and the record written. -/
def Reportable (opts : RunnerOptions) (e : Thrown) : Prop :=
  Exists fun normalized : NormalizedError =>
    normalizeError e opts.maxErrorTextBytes = some normalized ∧ normalized.writable = true

/-- The value is not from the registry but looks as if it were and the timer
has not fired, or it is a `NonRetryableError` that is not from the handler. -/
def FailureCause.Misread (timedOut : Bool) : FailureCause -> Prop
  | .noHandler _ _ => False
  | .invalidPayload _ => False
  | .schemaCode e => e.errorClass = .nonRetryable ∨ (timedOut = false ∧ e.Resembles)
  | .handler e => timedOut = false ∧ e.Resembles
  | .database error => timedOut = false ∧ error.thrown.Resembles

/-- A failure goes to `failJob` without an acknowledgement before it. -/
def RunnerState.Hands (state : RunnerState) (e : Thrown) : Prop :=
  e.errorClass ≠ .ownershipLost ∧ state.acknowledges e = false

/-- The failures a step passes on to `failJob`, and the flag it is passed on
with: one that is brought about now, or an earlier one whose acknowledgement
has matched nothing. -/
inductive TracedDelivery.Reports (opts : RunnerOptions) (job : JobRow)
    (delivery : TracedDelivery) : RunnerLabel -> FailureCause -> Bool -> Prop where
  | raised {label cause} (new : raises opts job delivery.runner label = some cause)
      (hands : delivery.runner.Hands cause.thrown) :
      Reports opts job delivery label cause delivery.runner.timedOut
  | unacknowledged {now error draw e timedOut cause executed}
      (phase : delivery.runner.phase = .acknowledgingFailure e timedOut)
      (kept : delivery.cause = some cause)
      (ran : delivery.runner.execReport opts job now = some (.ok executed))
      (unmatched : executed.reply.rows = []) :
      Reports opts job delivery (.report now .answered error draw) cause timedOut

/-- A failure is reported that is misread. -/
def Misreads (opts : RunnerOptions) (job : JobRow) (delivery : TracedDelivery)
    (label : RunnerLabel) : Prop :=
  Exists fun cause : FailureCause => Exists fun timedOut : Bool =>
    delivery.Reports opts job label cause timedOut ∧ Reportable opts cause.thrown ∧
      cause.Misread timedOut

/-- `Registry.run` fails before the handler is called, and is misread. -/
def MisreadAtStart {Output : Type} (registry : Registry Output) (opts : RunnerOptions)
    (job : JobRow) (stack : Text) (db : Database) : Prop :=
  Exists fun cause : FailureCause =>
    Registry.run registry job.type job.payload stack = .failed cause ∧
      (RunnerState.start db).Hands cause.thrown ∧ Reportable opts cause.thrown ∧
        cause.Misread false

/-! ## Reading a thrown value -/

/-- The kinds that are not retried are read off the properties. -/
theorem Thrown.classifyObject_iff {issues code : Probe} {kind : ErrorKind}
    (kinded : classifyObject issues code = some kind) :
    (kind = .validationError ∨ kind = .noHandler) <-> ResemblesObject issues code := by
  unfold ResemblesObject
  cases issues <;> cases code <;> cases kinded <;> simp

theorem Thrown.classify_iff {e : Thrown} {kind : ErrorKind} (kinded : e.classify = some kind) :
    (kind = .validationError ∨ kind = .noHandler) <-> e.Resembles := by
  cases e with
  | error e =>
      unfold classify at kinded
      unfold Resembles
      dsimp only at kinded ⊢
      cases isClass : e.errorClass with
      | handlerTimeout =>
          rw [isClass] at kinded
          cases kinded
          simp
      | nonRetryable =>
          rw [isClass] at kinded
          cases kinded
          simp
      | _ =>
          rw [isClass] at kinded
          rw [classifyObject_iff kinded]
          simp
  | other value =>
      unfold classify at kinded
      unfold Resembles
      dsimp only at kinded ⊢
      split at kinded
      · rename_i isObject
        rw [classifyObject_iff kinded]
        simp [isObject]
      · rename_i notObject
        cases kinded
        simp [notObject]
  | string text =>
      cases kinded
      simp [Resembles]
  | undefined =>
      cases kinded
      simp [Resembles]
  | null =>
      cases kinded
      simp [Resembles]

/-- A value that resembles an error of the registry has a kind. -/
theorem Thrown.classify_of_resembles {e : Thrown} (resembles : e.Resembles) :
    Exists fun kind : ErrorKind => e.classify = some kind := by
  have object : forall issues code : Probe, ResemblesObject issues code ->
      Exists fun kind : ErrorKind => classifyObject issues code = some kind := by
    rintro issues code (array | ⟨readable, isCode⟩)
    · subst array
      exact ⟨.validationError, rfl⟩
    · subst isCode
      cases issues with
      | throws => exact absurd rfl readable
      | like => exact ⟨.validationError, rfl⟩
      | absent => exact ⟨.noHandler, rfl⟩
      | unlike => exact ⟨.noHandler, rfl⟩
  cases e with
  | error e =>
      unfold classify
      dsimp only
      split
      · exact ⟨_, rfl⟩
      · exact ⟨_, rfl⟩
      · exact object _ _ resembles.2.2
  | other value =>
      unfold classify
      dsimp only
      rw [if_pos resembles.1]
      exact object _ _ resembles.2
  | string text => exact resembles.elim
  | undefined => exact resembles.elim
  | null => exact resembles.elim

/-- What the report says of a value, and of the flag. -/
theorem nonRetryable_iff {e : Thrown} {kind : ErrorKind} {timedOut : Bool}
    (kinded : reportKind e timedOut = some kind) :
    nonRetryable e kind = true <->
      e.errorClass = .nonRetryable ∨ (timedOut = false ∧ e.Resembles) := by
  unfold nonRetryable Thrown.isNonRetryable
  unfold reportKind at kinded
  cases timedOut with
  | true =>
      cases kinded
      simp
  | false =>
      rw [← Thrown.classify_iff kinded]
      simp [or_assoc]

/-- A value that is marked as not to be retried has a kind. -/
theorem reportKind_of_marked {e : Thrown} {timedOut : Bool}
    (marked : e.errorClass = .nonRetryable ∨ (timedOut = false ∧ e.Resembles)) :
    Exists fun kind : ErrorKind => reportKind e timedOut = some kind := by
  unfold reportKind
  cases timedOut with
  | true => exact ⟨.timeout, rfl⟩
  | false =>
      rcases marked with isClass | ⟨_, resembles⟩
      · cases e with
        | error e =>
            change e.errorClass = .nonRetryable at isClass
            refine ⟨.handlerError, ?_⟩
            simp [Thrown.classify, isClass]
        | other value => cases isClass
        | string text => cases isClass
        | undefined => cases isClass
        | null => cases isClass
      · exact Thrown.classify_of_resembles resembles

/-! ## One report -/

namespace FailureCause

/-- The registry itself has refused the job. -/
def FromRegistry : FailureCause -> Prop
  | noHandler _ _ => True
  | invalidPayload _ => True
  | _ => False

/-- The registry refuses a job before the timer can fire, and its errors look
like themselves.  What is misread is what is told apart by neither. -/
theorem marked_iff {cause : FailureCause} {timedOut : Bool}
    (early : cause.FromRegistry -> timedOut = false) :
    ((cause.thrown.errorClass = .nonRetryable ∨ (timedOut = false ∧ cause.thrown.Resembles)) <->
      cause.Unretryable) <-> Not (cause.Misread timedOut) := by
  cases cause with
  | noHandler type stack =>
      have resembles : (noHandler type stack).thrown.Resembles :=
        ⟨ErrorClass.noConfusion, ErrorClass.noConfusion, Or.inr ⟨Probe.noConfusion, rfl⟩⟩
      have fresh := early trivial
      simp [Unretryable, Misread, fresh, resembles]
  | invalidPayload error =>
      have resembles : (invalidPayload error).thrown.Resembles := by
        refine ⟨?_, ?_, Or.inl error.issues⟩
        · rw [error.foreign]
          exact ErrorClass.noConfusion
        · rw [error.foreign]
          exact ErrorClass.noConfusion
      have fresh := early trivial
      simp [Unretryable, Misread, fresh, resembles]
  | schemaCode e => simp [Unretryable, Misread, thrown]
  | handler e =>
      have told : e.Resembles -> e.errorClass ≠ .nonRetryable := by
        intro resembles
        cases e with
        | error e => exact resembles.2.1
        | other value => exact ErrorClass.noConfusion
        | string text => exact resembles.elim
        | undefined => exact resembles.elim
        | null => exact resembles.elim
      change ((e.errorClass = .nonRetryable ∨ (timedOut = false ∧ e.Resembles)) <->
        e.errorClass = .nonRetryable) <-> Not (timedOut = false ∧ e.Resembles)
      constructor
      · intro same misread
        exact told misread.2 (same.mp (Or.inr misread))
      · intro read
        exact ⟨fun marked => marked.resolve_right read, Or.inl⟩
  | database error =>
      have foreign : error.thrown.errorClass ≠ .nonRetryable := by
        change error.value.errorClass ≠ .nonRetryable
        rw [error.foreign]
        exact ErrorClass.noConfusion
      simp [Unretryable, Misread, thrown, foreign]

end FailureCause

/-- The mark alone decides the fate of a job that has attempts left. -/
theorem FailRequest.truthful_iff {request : FailRequest} {cause : FailureCause} :
    request.Truthful cause <-> (request.nonRetryable = true <-> cause.Unretryable) := by
  constructor
  · exact fun truthful => truthful.marked
  · intro marked
    refine ⟨marked, fun record now row remaining => ?_⟩
    have left : Not (row.maxAttempts ≤ row.attempt) := Int.not_le.mpr remaining
    rw [← marked]
    unfold failJob FailRequest.params
    dsimp only
    rw [if_neg left]
    cases request.nonRetryable <;> simp

/-- A request that is sent is true of its cause unless the cause is misread. -/
theorem failRequest_truthful_iff {opts : RunnerOptions} {job : JobRow} {cause : FailureCause}
    {timedOut : Bool} {draw : ReportDraw} {request : FailRequest}
    (built : failRequest opts job cause.thrown timedOut draw = some request)
    (early : cause.FromRegistry -> timedOut = false) :
    request.Truthful cause <-> Not (cause.Misread timedOut) := by
  rcases failRequest_eq_some built with ⟨kind, normalized, kinded, _, rfl⟩
  rw [FailRequest.truthful_iff, ← FailureCause.marked_iff early, ← nonRetryable_iff kinded]
  rfl

theorem reportable_of_built {opts : RunnerOptions} {job : JobRow} {e : Thrown} {timedOut : Bool}
    {draw : ReportDraw} {request : FailRequest}
    (built : failRequest opts job e timedOut draw = some request) : Reportable opts e := by
  unfold failRequest at built
  split at built
  · rename_i kind normalized kinded described
    split at built
    · rename_i writable
      exact ⟨normalized, described, writable⟩
    · cases built
  · cases built

/-- What is misread and can be written is sent. -/
theorem failRequest_of_misread {opts : RunnerOptions} (job : JobRow) {cause : FailureCause}
    {timedOut : Bool} (draw : ReportDraw) (reportable : Reportable opts cause.thrown)
    (misread : cause.Misread timedOut) :
    Exists fun request : FailRequest =>
      failRequest opts job cause.thrown timedOut draw = some request := by
  rcases reportable with ⟨normalized, described, writable⟩
  have marked : cause.thrown.errorClass = .nonRetryable ∨
      (timedOut = false ∧ cause.thrown.Resembles) := by
    cases cause with
    | noHandler type stack => exact misread.elim
    | invalidPayload error => exact misread.elim
    | schemaCode e => exact misread
    | handler e => exact Or.inr misread
    | database error => exact Or.inr misread
  rcases reportKind_of_marked marked with ⟨kind, kinded⟩
  refine ⟨failParams opts job cause.thrown kind normalized draw, ?_⟩
  unfold failRequest
  rw [kinded, described]
  dsimp only
  rw [if_pos writable]

/-! ## One step -/

/-- Nothing of a failure is kept in the phase. -/
def RunPhase.Quiet : RunPhase -> Prop
  | .acknowledgingFailure _ _ => False
  | .failing _ => False
  | _ => True

namespace TracedDelivery

variable {opts : RunnerOptions} {job : JobRow} {delivery : TracedDelivery} {label : RunnerLabel}
variable {cause : FailureCause} {timedOut : Bool}

/-- A failure that is being acknowledged is the one that has happened, and the
registry is not its origin: nobody has asked for a cancellation so early. -/
def Remembered (delivery : TracedDelivery) : Prop :=
  forall e timedOut, delivery.runner.phase = .acknowledgingFailure e timedOut ->
    Exists fun cause : FailureCause =>
      delivery.cause = some cause ∧ cause.thrown = e ∧ Not cause.FromRegistry

theorem not_fromRegistry_of_raises {state : RunnerState}
    (new : raises opts job state label = some cause) : Not cause.FromRegistry := by
  unfold raises at new
  split at new
  · split at new
    · cases new
      exact id
    · cases new
  · split at new
    · split at new
      · cases new
      · cases new
        exact id
    · split at new
      · cases new
      · cases new
        exact id
    · cases new
  · cases new

/-- A statement in the `try` block of the handler raises an error unless it is
answered. -/
theorem raises_report {state : RunnerState} {now : Timestamp} {behaviour : Behaviour}
    {error : DatabaseError} {draw : ReportDraw} {executes : Except StatementError Executed}
    (sharing : state.phase = .acknowledging ∨ state.phase = .completing)
    (awaited : state.execReport opts job now = some executes) :
    (Exists fun executed : Executed => behaviour = .answered ∧ executes = .ok executed ∧
        raises opts job state (.report now behaviour error draw) = none) ∨
      (raises opts job state (.report now behaviour error draw) = some (.database error) ∧
        Exists fun db : Database => state.step opts job (.report now behaviour error draw) =
          { state with db := db }.reportFailure opts job error.thrown draw) := by
  have raised : forall db : Database, { state with db := db }.raise opts job error draw =
      { state with db := db }.reportFailure opts job error.thrown draw := by
    intro db
    unfold RunnerState.raise
    rcases sharing with phase | phase <;> rw [phase]
  have next := RunnerState.report_awaited behaviour error draw awaited
  cases behaviour with
  | answered =>
      cases executes with
      | ok executed =>
          refine Or.inl ⟨executed, rfl, rfl, ?_⟩
          unfold raises
          rcases sharing with phase | phase <;> simp only [phase, awaited]
      | error reason =>
          refine Or.inr ⟨?_, state.db, ?_⟩
          · unfold raises
            rcases sharing with phase | phase <;> simp only [phase, awaited]
          · rw [RunnerState.report_failed awaited]
            exact raised state.db
  | _ =>
      refine Or.inr ⟨?_, ?_⟩
      · unfold raises
        rcases sharing with phase | phase <;> simp only [phase]
      · rcases next with ⟨_, impossible, _⟩ | ⟨db, stepped⟩
        · cases impossible
        · exact ⟨db, stepped.trans (raised db)⟩

/-- A failure that is brought about is handed to `reportFailure`. -/
theorem step_of_raises {state : RunnerState} (new : raises opts job state label = some cause) :
    Exists fun db : Database => Exists fun draw : ReportDraw =>
      state.step opts job label =
        { state with db := db }.reportFailure opts job cause.thrown draw := by
  cases label with
  | settle settlement draw =>
      cases settlement with
      | resolves => cases new
      | throws e =>
          unfold raises at new
          dsimp only at new
          split at new
          · rename_i handling
            cases new
            exact ⟨state.db, draw, RunnerState.settle_handling _ handling⟩
          · cases new
  | report now behaviour error draw =>
      have sharing : state.phase = .acknowledging ∨ state.phase = .completing := by
        unfold raises at new
        dsimp only at new
        split at new
        · rename_i phase
          exact Or.inl phase
        · rename_i phase
          exact Or.inr phase
        · cases new
      have awaited : Exists fun executes : Except StatementError Executed =>
          state.execReport opts job now = some executes := by
        unfold RunnerState.execReport
        rcases sharing with phase | phase <;> rw [phase] <;> exact ⟨_, rfl⟩
      rcases awaited with ⟨executes, awaited⟩
      rcases @raises_report opts job state now behaviour error draw executes sharing awaited with
        ⟨_, _, _, quiet⟩ | ⟨raised, db, next⟩
      · cases quiet.symm.trans new
      · cases raised.symm.trans new
        exact ⟨db, draw, next⟩
  | timeout => cases new
  | sendHeartbeat => cases new
  | heartbeat now behaviour => cases new
  | heartbeatReply index => cases new
  | other call => cases new

/-- `reportFailure` passes the failure on, forgets it or remembers it. -/
theorem reportFailure_cases (opts : RunnerOptions) (job : JobRow) (e : Thrown) (draw : ReportDraw)
    (state : RunnerState) :
    (state.Hands e ∧ state.reportFailure opts job e draw =
        state.fail opts job e state.timedOut draw) ∨
      (Not (state.Hands e) ∧
        ((state.reportFailure opts job e draw).phase.Quiet ∨
          (state.reportFailure opts job e draw).phase =
            .acknowledgingFailure e state.timedOut)) := by
  unfold RunnerState.reportFailure RunnerState.Hands
  by_cases lost : e.errorClass = .ownershipLost
  · rw [if_pos lost]
    exact Or.inr ⟨fun hands => hands.1 lost, Or.inl trivial⟩
  · rw [if_neg lost]
    by_cases acknowledges : state.acknowledges e = true
    · rw [if_pos acknowledges]
      refine Or.inr ⟨fun hands => ?_, Or.inr rfl⟩
      rw [acknowledges] at hands
      cases hands.2
    · rw [if_neg acknowledges]
      exact Or.inl ⟨⟨lost, Bool.eq_false_iff.mpr acknowledges⟩, rfl⟩

/-- A failure that is passed on is the one the report is built from. -/
theorem step_of_reports (remembered : delivery.Remembered)
    (reports : delivery.Reports opts job label cause timedOut) :
    (delivery.step opts job label).cause = some cause ∧ Not cause.FromRegistry ∧
      Exists fun state : RunnerState => Exists fun draw : ReportDraw =>
        (delivery.step opts job label).runner =
          state.fail opts job cause.thrown timedOut draw := by
  cases reports with
  | raised new hands =>
      rcases step_of_raises new with ⟨db, draw, next⟩
      refine ⟨?_, not_fromRegistry_of_raises new, { delivery.runner with db := db }, draw, ?_⟩
      · unfold step
        rw [new, Option.some_or]
      · rcases reportFailure_cases opts job cause.thrown draw { delivery.runner with db := db } with
          ⟨_, passed⟩ | ⟨kept, _⟩
        · exact next.trans passed
        · exact absurd hands kept
  | unacknowledged phase kept ran unmatched =>
      rename_i now error draw e executed
      rcases remembered _ _ phase with ⟨other, same, rfl, outside⟩
      cases kept.symm.trans same
      have none : raises opts job delivery.runner (.report now .answered error draw) = none := by
        unfold raises
        simp only [phase]
      refine ⟨?_, outside, { delivery.runner with db := executed.reply.db }, draw, ?_⟩
      · unfold step
        rw [none, Option.none_or]
        exact kept
      · refine (RunnerState.report_answered ran).trans ?_
        rw [@RunnerState.answer_acknowledgingFailure opts job
          { delivery.runner with db := executed.reply.db } draw cause.thrown timedOut
          executed.reply.rows phase, unmatched]
        rfl

/-- A settlement without a failure. -/
theorem settle_of_not_raises {state : RunnerState} (settlement : Settlement) (draw : ReportDraw)
    (unraised : raises opts job state (.settle settlement draw) = none) :
    (state.step opts job (.settle settlement draw)).phase = state.phase ∨
      (state.step opts job (.settle settlement draw)).phase.Quiet := by
  cases phase : state.phase with
  | handling =>
      rw [RunnerState.settle_handling settlement phase]
      cases settlement with
      | resolves =>
          refine Or.inr ?_
          unfold RunnerState.settle
          dsimp only
          split <;> exact trivial
      | throws e =>
          unfold raises at unraised
          simp only [phase] at unraised
          cases unraised
  | _ =>
      refine Or.inl ?_
      unfold RunnerState.step
      simp only [phase]

/-- A statement of the `try` block that raises no error ends the delivery. -/
theorem quiet_of_sharing {state : RunnerState} {now : Timestamp} {behaviour : Behaviour}
    {error : DatabaseError} {draw : ReportDraw} {executes : Except StatementError Executed}
    (sharing : state.phase = .acknowledging ∨ state.phase = .completing)
    (awaited : state.execReport opts job now = some executes)
    (unraised : raises opts job state (.report now behaviour error draw) = none) :
    (state.step opts job (.report now behaviour error draw)).phase.Quiet := by
  rcases @raises_report opts job state now behaviour error draw executes sharing awaited with
    ⟨executed, rfl, rfl, _⟩ | ⟨raised, _⟩
  · rw [RunnerState.report_answered awaited]
    unfold RunnerState.answer
    rcases sharing with phase | phase <;> simp only [phase] <;> split <;> exact trivial
  · cases unraised.symm.trans raised

/-- An acknowledgement that matches a row, or is not answered, ends it too. -/
theorem quiet_of_acknowledgingFailure {state : RunnerState} {now : Timestamp}
    {behaviour : Behaviour} {error : DatabaseError} {draw : ReportDraw} {e : Thrown}
    {executes : Except StatementError Executed}
    (phase : state.phase = .acknowledgingFailure e timedOut)
    (awaited : state.execReport opts job now = some executes)
    (matched : forall executed, behaviour = .answered -> executes = .ok executed ->
      executed.reply.rows ≠ []) :
    (state.step opts job (.report now behaviour error draw)).phase.Quiet := by
  rcases RunnerState.report_awaited behaviour error draw awaited with
    ⟨executed, rfl, rfl⟩ | ⟨db, next⟩
  · rw [RunnerState.report_answered awaited,
      @RunnerState.answer_acknowledgingFailure opts job { state with db := executed.reply.db } draw
        e timedOut executed.reply.rows phase,
      if_neg (fun empty => matched executed rfl rfl (List.isEmpty_iff.mp empty))]
    exact trivial
  · rw [next, @RunnerState.raise_acknowledgingFailure opts job { state with db := db } error draw e
      timedOut phase]
    exact trivial

/-- So does the failure report, whatever comes of it. -/
theorem quiet_of_failing {state : RunnerState} {now : Timestamp} (behaviour : Behaviour)
    (error : DatabaseError) (draw : ReportDraw) {request : FailRequest}
    {executes : Except StatementError Executed} (phase : state.phase = .failing request)
    (awaited : state.execReport opts job now = some executes) :
    (state.step opts job (.report now behaviour error draw)).phase.Quiet := by
  rcases RunnerState.report_awaited behaviour error draw awaited with
    ⟨executed, rfl, rfl⟩ | ⟨db, next⟩
  · rw [RunnerState.report_answered awaited,
      @RunnerState.answer_failing opts job { state with db := executed.reply.db } draw request
        executed.reply.rows phase]
    split
    · exact trivial
    · split <;> exact trivial
  · rw [next, @RunnerState.raise_failing opts job { state with db := db } error draw request phase]
    exact trivial

/-- A report that neither fails nor is fenced out ends what it is about. -/
theorem report_of_not_raises (remembered : delivery.Remembered) (now : Timestamp)
    (behaviour : Behaviour) (error : DatabaseError) (draw : ReportDraw)
    (unraised : raises opts job delivery.runner (.report now behaviour error draw) = none)
    (silent : forall cause timedOut,
      Not (delivery.Reports opts job (.report now behaviour error draw) cause timedOut)) :
    (delivery.runner.step opts job (.report now behaviour error draw)).phase =
        delivery.runner.phase ∨
      (delivery.runner.step opts job (.report now behaviour error draw)).phase.Quiet := by
  cases awaited : delivery.runner.execReport opts job now with
  | none =>
      rw [RunnerState.report_idle awaited]
      exact Or.inl rfl
  | some executes =>
      refine Or.inr ?_
      cases phase : delivery.runner.phase with
      | acknowledging => exact quiet_of_sharing (Or.inl phase) awaited unraised
      | completing => exact quiet_of_sharing (Or.inr phase) awaited unraised
      | acknowledgingFailure e timedOut =>
          rcases remembered e timedOut phase with ⟨cause, kept, _⟩
          apply quiet_of_acknowledgingFailure phase awaited
          rintro executed rfl rfl unmatched
          exact silent cause timedOut (.unacknowledged phase kept awaited unmatched)
      | failing request => exact quiet_of_failing behaviour error draw phase awaited
      | _ =>
          -- nothing is awaited
          unfold RunnerState.execReport at awaited
          rw [phase] at awaited
          cases awaited

/-- A step that passes nothing on keeps what the phase remembers, or forgets it,
or begins to acknowledge a failure that has just happened. -/
theorem step_of_not_reports (remembered : delivery.Remembered)
    (silent : forall cause timedOut, Not (delivery.Reports opts job label cause timedOut)) :
    ((delivery.step opts job label).runner.phase = delivery.runner.phase ∧
        (delivery.step opts job label).cause = delivery.cause) ∨
      (delivery.step opts job label).runner.phase.Quiet ∨
        Exists fun cause : FailureCause => Exists fun timedOut : Bool =>
          (delivery.step opts job label).runner.phase =
              .acknowledgingFailure cause.thrown timedOut ∧
            (delivery.step opts job label).cause = some cause ∧ Not cause.FromRegistry := by
  cases new : raises opts job delivery.runner label with
  | some cause =>
      rcases step_of_raises new with ⟨db, draw, next⟩
      have same : (delivery.step opts job label).cause = some cause := by
        unfold step
        rw [new, Option.some_or]
      rcases reportFailure_cases opts job cause.thrown draw { delivery.runner with db := db } with
        ⟨hands, _⟩ | ⟨_, quiet | remembers⟩
      · exact absurd (.raised new hands) (silent cause delivery.runner.timedOut)
      · rw [← next] at quiet
        exact Or.inr (Or.inl quiet)
      · rw [← next] at remembers
        exact Or.inr (Or.inr ⟨cause, delivery.runner.timedOut, remembers, same,
          not_fromRegistry_of_raises new⟩)
  | none =>
      have same : (delivery.step opts job label).cause = delivery.cause := by
        unfold step
        rw [new, Option.none_or]
      have kept : (delivery.runner.step opts job label).phase = delivery.runner.phase ∨
          (delivery.runner.step opts job label).phase.Quiet := by
        cases label with
        | settle settlement draw => exact settle_of_not_raises settlement draw new
        | report now behaviour error draw =>
            exact report_of_not_raises remembered now behaviour error draw new silent
        | _ =>
            refine Or.inl (RunnerState.step_frame opts job delivery.runner ?_ ?_).1
            · intro settlement draw
              exact RunnerLabel.noConfusion
            · intro now behaviour error draw
              exact RunnerLabel.noConfusion
      rcases kept with phase | quiet
      · exact Or.inl ⟨phase, same⟩
      · exact Or.inr (Or.inl quiet)

/-! ## Whole deliveries -/

/-- What every run without a misread failure keeps. -/
structure Traced (delivery : TracedDelivery) : Prop where
  truthful : delivery.Truthful
  remembered : delivery.Remembered

/-- A quiet phase promises nothing. -/
theorem Traced.of_quiet (quiet : delivery.runner.phase.Quiet) : Traced delivery where
  truthful := by
    intro request phase
    rw [phase] at quiet
    exact quiet.elim
  remembered := by
    intro e timedOut phase
    rw [phase] at quiet
    exact quiet.elim

/-- A failure has been passed on: the report is truthful unless it is misread. -/
theorem Traced.of_fail {state : RunnerState} {draw : ReportDraw}
    (isCause : delivery.cause = some cause) (early : cause.FromRegistry -> timedOut = false)
    (failed : delivery.runner = state.fail opts job cause.thrown timedOut draw)
    (read : Not (Reportable opts cause.thrown ∧ cause.Misread timedOut)) : Traced delivery := by
  cases built : failRequest opts job cause.thrown timedOut draw with
  | none =>
      apply Traced.of_quiet
      rw [failed, RunnerState.fail_unbuilt built]
      exact trivial
  | some request =>
      have phase : delivery.runner.phase = .failing request := by
        rw [failed, RunnerState.fail_built built]
      constructor
      · intro other sent
        cases phase.symm.trans sent
        refine ⟨cause, isCause, (failRequest_truthful_iff built early).mpr ?_⟩
        exact fun misread => read ⟨reportable_of_built built, misread⟩
      · intro e late sent
        cases phase.symm.trans sent

/-- A report that is misread is not. -/
theorem not_truthful_of_fail {state : RunnerState} {draw : ReportDraw}
    (isCause : delivery.cause = some cause) (early : cause.FromRegistry -> timedOut = false)
    (failed : delivery.runner = state.fail opts job cause.thrown timedOut draw)
    (reportable : Reportable opts cause.thrown) (misread : cause.Misread timedOut) :
    Not delivery.Truthful := by
  intro truthful
  rcases failRequest_of_misread job draw reportable misread with ⟨request, built⟩
  have phase : delivery.runner.phase = .failing request := by
    rw [failed, RunnerState.fail_built built]
  rcases truthful request phase with ⟨other, same, holds⟩
  cases isCause.symm.trans same
  exact (failRequest_truthful_iff built early).mp holds misread

theorem Traced.step (traced : Traced delivery)
    (read : Not (Misreads opts job delivery label)) : Traced (delivery.step opts job label) := by
  by_cases reporting : Exists fun cause : FailureCause => Exists fun timedOut : Bool =>
      delivery.Reports opts job label cause timedOut
  · rcases reporting with ⟨cause, timedOut, reports⟩
    rcases step_of_reports traced.remembered reports with ⟨isCause, outside, state, draw, failed⟩
    refine Traced.of_fail isCause (fun inside => absurd inside outside) failed ?_
    rintro ⟨reportable, misread⟩
    exact read ⟨cause, timedOut, reports, reportable, misread⟩
  · have silent : forall cause timedOut, Not (delivery.Reports opts job label cause timedOut) :=
      fun cause timedOut reports => reporting ⟨cause, timedOut, reports⟩
    rcases step_of_not_reports traced.remembered silent with
      ⟨phase, isCause⟩ | quiet | ⟨cause, timedOut, phase, isCause, outside⟩
    · constructor
      · intro request sent
        rw [isCause]
        exact traced.truthful request (phase ▸ sent)
      · intro e timedOut sent
        rw [isCause]
        exact traced.remembered e timedOut (phase ▸ sent)
    · exact Traced.of_quiet quiet
    · constructor
      · intro request sent
        cases phase.symm.trans sent
      · intro e late sent
        cases phase.symm.trans sent
        exact ⟨cause, isCause, rfl, outside⟩

theorem Traced.not_truthful (traced : Traced delivery)
    (misreads : Misreads opts job delivery label) :
    Not (delivery.step opts job label).Truthful := by
  rcases misreads with ⟨cause, timedOut, reports, reportable, misread⟩
  rcases step_of_reports traced.remembered reports with ⟨isCause, outside, state, draw, failed⟩
  exact not_truthful_of_fail isCause (fun inside => absurd inside outside) failed reportable misread

section

variable {Output : Type} {registry : Registry Output} {stack : Text} {draw : ReportDraw}
variable {db : Database}

/-- The registry fails before anybody can have asked for a cancellation. -/
theorem hands_of_fromRegistry (fromRegistry : cause.FromRegistry) :
    (RunnerState.start db).Hands cause.thrown := by
  cases cause with
  | noHandler type stack => exact ⟨ErrorClass.noConfusion, rfl⟩
  | invalidPayload error =>
      have isClass : (FailureCause.invalidPayload error).thrown.errorClass = .other := error.foreign
      refine ⟨?_, ?_⟩
      · rw [isClass]
        exact ErrorClass.noConfusion
      · unfold RunnerState.acknowledges
        rw [isClass]
        rfl
  | schemaCode e => exact fromRegistry.elim
  | handler e => exact fromRegistry.elim
  | database error => exact fromRegistry.elim

theorem start_failed (failed : Registry.run registry job.type job.payload stack = .failed cause) :
    start registry opts job stack draw db =
      ⟨(RunnerState.start db).reportFailure opts job cause.thrown draw, some cause⟩ := by
  unfold start
  rw [failed]
  rfl

theorem Traced.start (read : Not (MisreadAtStart registry opts job stack db)) :
    Traced (start registry opts job stack draw db) := by
  cases invoked : Registry.run registry job.type job.payload stack with
  | handling output =>
      apply Traced.of_quiet
      unfold TracedDelivery.start
      rw [invoked]
      exact trivial
  | failed cause =>
      rw [start_failed invoked]
      rcases reportFailure_cases opts job cause.thrown draw (RunnerState.start db) with
        ⟨hands, passed⟩ | ⟨kept, quiet | remembers⟩
      · refine Traced.of_fail rfl (fun _ => rfl) passed ?_
        rintro ⟨reportable, misread⟩
        exact read ⟨cause, invoked, hands, reportable, misread⟩
      · exact Traced.of_quiet quiet
      · constructor
        · intro request sent
          cases remembers.symm.trans sent
        · intro e timedOut sent
          cases remembers.symm.trans sent
          exact ⟨cause, rfl, rfl, fun inside => kept (hands_of_fromRegistry inside)⟩

theorem start_not_truthful (misreads : MisreadAtStart registry opts job stack db) :
    Not (start registry opts job stack draw db).Truthful := by
  rcases misreads with ⟨cause, invoked, hands, reportable, misread⟩
  rw [start_failed invoked]
  rcases reportFailure_cases opts job cause.thrown draw (RunnerState.start db) with
    ⟨_, passed⟩ | ⟨kept, _⟩
  · exact not_truthful_of_fail rfl (fun _ => rfl) passed reportable misread
  · exact absurd hands kept

end

end TracedDelivery

/-- Every failure report of every delivery is true of the failure exactly when
no failure is reported that is misread. -/
theorem failures_truthful_iff {Output : Type} (registry : Registry Output) (opts : RunnerOptions)
    (job : JobRow) (stack : Text) (draw : ReportDraw) (db : Database)
    (labels : List RunnerLabel) :
    Always (TracedDelivery.step opts job) TracedDelivery.Truthful
        (.start registry opts job stack draw db) labels <->
      Not (MisreadAtStart registry opts job stack db) ∧
        EachStep (TracedDelivery.step opts job)
          (fun delivery label => Not (Misreads opts job delivery label))
          (.start registry opts job stack draw db) labels := by
  by_cases read : MisreadAtStart registry opts job stack db
  · constructor
    · intro always
      exact absurd (always_head always) (TracedDelivery.start_not_truthful read)
    · intro steps
      exact absurd read steps.1
  · have steps := @always_iff_eachStep _ _ (TracedDelivery.step opts job) TracedDelivery.Traced
      TracedDelivery.Truthful (fun delivery label => Not (Misreads opts job delivery label))
      (fun delivery traced => traced.truthful)
      (fun delivery label traced met => traced.step met)
      (fun delivery label traced misreads => traced.not_truthful (Classical.not_not.mp misreads))
      (.start registry opts job stack draw db) (TracedDelivery.Traced.start read) labels
    rw [steps]
    exact (and_iff_right read).symm

/-- Jobs of type `send` have a handler, and every payload is accepted. -/
def sendRegistry : Registry Unit := InsertionMap.empty.set "send" ⟨fun _ => .parsed ()⟩

/-- The handler parses the answer of another service and lets the error of
that pass. -/
def upstreamMalformed : Thrown :=
  .error ⟨.other, literal "ZodError", literal "expected string, received undefined",
    literal "ZodError\n    at handler", none, .like, .absent⟩

/-- The job is in its first attempt of three, and is buried. -/
theorem upstream_failure_buries :
    Registry.run sendRegistry claimedJob.type claimedJob.payload [] = .handling () ∧
      Not (Always (TracedDelivery.step plainRunner claimedJob) TracedDelivery.Truthful
        (.start sendRegistry plainRunner claimedJob [] ⟨seconds 1, seconds 1⟩ claimedDatabase)
        [.settle (.throws upstreamMalformed) ⟨seconds 1, seconds 1⟩]) ∧
      claimedJob.attempt = 1 ∧ claimedJob.maxAttempts = 3 ∧
      (((RunnerState.start claimedDatabase).reported plainRunner claimedJob upstreamMalformed
        (seconds 1) (seconds 1) connectionLost ⟨seconds 1, seconds 1⟩).db.find 1).map
          (fun row => (row.state, row.deadReason)) = some (.dead, some .nonRetryableError) := by
  refine ⟨rfl, ?_, rfl, rfl, rfl⟩
  intro always
  have sent : Exists fun request : FailRequest =>
      (((TracedDelivery.start sendRegistry plainRunner claimedJob [] ⟨seconds 1, seconds 1⟩
        claimedDatabase).step plainRunner claimedJob
          (.settle (.throws upstreamMalformed) ⟨seconds 1, seconds 1⟩)).runner.phase =
            .failing request) ∧ request.nonRetryable = true := ⟨_, rfl, rfl⟩
  rcases sent with ⟨request, phase, marked⟩
  rcases always.2 request phase with ⟨cause, isCause, truthful⟩
  cases isCause
  exact absurd (truthful.marked.mp marked) ErrorClass.noConfusion

end PgJobQ
