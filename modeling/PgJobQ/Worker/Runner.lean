import PgJobQ.Library.Runs
import PgJobQ.Statements.Effects
import PgJobQ.Worker.NormalizeError

/-!
# Running one delivery

`Runner.run` starts two timers, runs the handler and reports the outcome.  The
delivery is a machine whose steps are the events that can interleave: the
timeout timer fires, the heartbeat timer or the handler sends a heartbeat, the
database executes one, its answer arrives, the handler settles, the database
executes the report that is awaited, and any other party executes a statement.

A report and its answer are one step: nothing the process does in between
touches the database, and nothing the database does in between is seen by the
process.  A heartbeat is not awaited by `run`, so its answer may arrive at any
time later.

The history lists the statements by which the delivery changed its row, newest
first.  The program keeps no such list.
-/

namespace PgJobQ

open Runs

/-- The options `Runner` reads.  `worker_id` is a text column, which cannot
hold U+0000; `maxMs` is the ceiling of the backoff. -/
structure RunnerOptions where
  workerId : String
  maxErrorHistory : Int
  maxErrorTextBytes : Nat
  maxMs : Timestamp
  workerIdText : Not ('\x00' ∈ workerId.toList)

inductive RunOutcome where
  | succeeded
  | retried
  | dead
  | cancelled
  | ownershipLost
  deriving DecidableEq, Repr

/-! ## The failure report -/

namespace RetryDelay

/-- `Math.min(delay, max)`. -/
def atMost (max : Timestamp) : RetryDelay -> RetryDelay
  | .notANumber => .notANumber
  | .negativeInfinity => .negativeInfinity
  | .positiveInfinity => .finite max
  | .finite length => .finite (min length max)

/-- The interval of a finite delay. -/
def length : RetryDelay -> Timestamp
  | .finite length => length
  | _ => 0

/-- `make_interval(secs => delay)` is an interval: a finite number of
microseconds that fits into 64 bits. -/
def IsInterval : RetryDelay -> Prop
  | .finite length => -9223372036854775808 ≤ length ∧ length ≤ 9223372036854775807
  | _ => False

/-- `now()` plus the interval is a `timestamptz`: it lies between the years
-4713 and 294276. -/
def EndsInRange (now : Timestamp) : RetryDelay -> Prop
  | .finite length => -210866803200000000 ≤ now + length ∧ now + length < 9224318016000000000
  | _ => False

instance (delay : RetryDelay) : Decidable delay.IsInterval :=
  match delay with
  | .finite _ => inferInstanceAs (Decidable (_ ∧ _))
  | .notANumber => isFalse id
  | .negativeInfinity => isFalse id
  | .positiveInfinity => isFalse id

instance (now : Timestamp) (delay : RetryDelay) : Decidable (delay.EndsInRange now) :=
  match delay with
  | .finite _ => inferInstanceAs (Decidable (_ ∧ _))
  | .notANumber => isFalse id
  | .negativeInfinity => isFalse id
  | .positiveInfinity => isFalse id

/-- `now() + make_interval(secs => delay)` is a `timestamptz`. -/
def Expressible (now : Timestamp) (delay : RetryDelay) : Prop :=
  delay.IsInterval ∧ delay.EndsInRange now

instance (now : Timestamp) (delay : RetryDelay) : Decidable (delay.Expressible now) :=
  inferInstanceAs (Decidable (_ ∧ _))

end RetryDelay

/-- What `reportFailure` reads besides the thrown value: the clock, and the
delay `nextDelaySeconds` draws. -/
structure ReportDraw where
  recordedAt : Timestamp
  delay : Timestamp
  deriving DecidableEq, Repr

/-- The parameters of a `failJob` that is sent.  The error is the record as the
`jsonb` cast reads it, none if it is refused. -/
structure FailRequest where
  fence : FenceParams
  nonRetryable : Bool
  retryDelay : RetryDelay
  maxErrorHistory : Int
  error : Option JobErrorRecord
  deriving DecidableEq, Repr

/-- `this.opts.workerId` and the id and attempt of the claimed job. -/
def RunnerOptions.fence (opts : RunnerOptions) (job : JobRow) : FenceParams :=
  ⟨job.id, opts.workerId, job.attempt⟩

/-- `flags.timedOut ? 'timeout' : classify(e)`. -/
def reportKind (e : Thrown) (timedOut : Bool) : Option ErrorKind :=
  if timedOut then some .timeout else e.classify

/-- A payload that fails its schema and a missing handler are not retried. -/
def nonRetryable (e : Thrown) (kind : ErrorKind) : Bool :=
  e.isNonRetryable || kind = .validationError || kind = .noHandler

/-- The delay of the error if it brings one, otherwise the one that is drawn. -/
def retryDelay (opts : RunnerOptions) (e : Thrown) (draw : ReportDraw) : RetryDelay :=
  match e.errorClass with
  | .retryAfter delay => delay.atMost opts.maxMs
  | _ => .finite draw.delay

/-- The parameters `reportFailure` passes to `failJob`. -/
def failParams (opts : RunnerOptions) (job : JobRow) (e : Thrown) (kind : ErrorKind)
    (normalized : NormalizedError) (draw : ReportDraw) : FailRequest where
  fence := opts.fence job
  nonRetryable := nonRetryable e kind
  retryDelay := retryDelay opts e draw
  maxErrorHistory := opts.maxErrorHistory
  error := normalized.asRecord kind job.attempt draw.recordedAt opts.workerId

/-- The part of `reportFailure` that builds the statement; none if it throws. -/
def failRequest (opts : RunnerOptions) (job : JobRow) (e : Thrown) (timedOut : Bool)
    (draw : ReportDraw) : Option FailRequest :=
  match reportKind e timedOut, normalizeError e opts.maxErrorTextBytes with
  | some kind, some normalized =>
      if normalized.writable then some (failParams opts job e kind normalized draw) else none
  | _, _ => none

/-- A request that is sent is built from a kind and three texts. -/
theorem failRequest_eq_some {opts : RunnerOptions} {job : JobRow} {e : Thrown} {timedOut : Bool}
    {draw : ReportDraw} {request : FailRequest}
    (built : failRequest opts job e timedOut draw = some request) :
    Exists fun kind : ErrorKind => Exists fun normalized : NormalizedError =>
      reportKind e timedOut = some kind ∧
        normalizeError e opts.maxErrorTextBytes = some normalized ∧
          request = failParams opts job e kind normalized draw := by
  unfold failRequest at built
  split at built
  · rename_i kind normalized kinded described
    split at built
    · exact ⟨kind, normalized, kinded, described, (Option.some.inj built).symm⟩
    · cases built
  · cases built

/-- Why a statement of a delivery raises an error.  An interval or its end that
is out of range is the same condition `datetime_field_overflow`. -/
inductive StatementError where
  | invalidJson
  | intervalOutOfRange
  | refused (error : DbError)
  deriving DecidableEq, Repr

/-- A statement that has been executed, and its reply. -/
structure Executed where
  statement : Statement
  reply : Reply

/-- Execute a statement of the delivery. -/
def Statement.report (now : Timestamp) (db : Database) (statement : Statement) :
    Except StatementError Executed :=
  match statement.exec now db with
  | .ok reply => .ok ⟨statement, reply⟩
  | .error error => .error (.refused error)

namespace FailRequest

def params (request : FailRequest) (record : JobErrorRecord) : FailParams :=
  { request.fence with
    nonRetryable := request.nonRetryable
    retryDelay := request.retryDelay.length
    maxErrorHistory := request.maxErrorHistory
    error := record }

/-- The row is retried, and its `run_at` computed. -/
def retries (request : FailRequest) (job : JobRow) : Bool :=
  request.fence.owns job && !request.nonRetryable && decide (job.attempt < job.maxAttempts)

/-- The parameters are cast first.  `make_interval` of a parameter is a
constant, so it is computed when the statement is planned, whatever rows there
are, unless `$4` is true and the planner has dropped the `ELSE` branch with it.
`now()` is added for a row that is retried. -/
def exec (now : Timestamp) (db : Database) (request : FailRequest) :
    Except StatementError Executed :=
  match request.error with
  | none => .error .invalidJson
  | some record =>
      if !request.nonRetryable && !decide request.retryDelay.IsInterval then
        .error .intervalOutOfRange
      else if db.job.rows.any request.retries && !decide (request.retryDelay.EndsInRange now) then
        .error .intervalOutOfRange
      else (Statement.failJob (request.params record)).report now db

end FailRequest

/-! ## The states of a delivery -/

/-- What `run` awaits. -/
inductive RunPhase where
  | handling
  | acknowledging
  | completing
  | acknowledgingFailure (e : Thrown) (timedOut : Bool)
  | failing (request : FailRequest)
  | returned (outcome : RunOutcome)
  | threw

inductive AbortReason where
  | handlerTimeout
  | ownershipLost
  | jobCancelled
  deriving DecidableEq, Repr

/-- `late` and `resolved` are not in the program: the timer fired before the
handler settled, and the handler has resolved. -/
structure RunnerState where
  db : Database
  phase : RunPhase
  timedOut : Bool
  cancelRequested : Bool
  aborted : Option AbortReason
  heartbeats : Nat
  replies : List (Option JobRow)
  late : Bool
  resolved : Bool

/-- How the handler settles. -/
inductive Settlement where
  | resolves
  | throws (e : Thrown)

/-- A statement is executed and answered, raises an error without being
executed, or is executed and raises an error nevertheless. -/
inductive Behaviour where
  | answered
  | refused
  | lost
  deriving DecidableEq, Repr

/-- An error raised by `Db.query`: none of the classes a handler throws to the
runner. -/
structure DatabaseError where
  value : ErrorValue
  foreign : value.errorClass = .other

def DatabaseError.thrown (error : DatabaseError) : Thrown := .error error.value

inductive RunnerLabel where
  | timeout
  | sendHeartbeat
  | heartbeat (now : Timestamp) (behaviour : Behaviour)
  | heartbeatReply (index : Nat)
  | settle (settlement : Settlement) (draw : ReportDraw)
  | report (now : Timestamp) (behaviour : Behaviour) (error : DatabaseError) (draw : ReportDraw)
  | other (call : Call)

namespace RunnerState

/-- A claimed job whose handler has just been started. -/
def start (db : Database) : RunnerState :=
  ⟨db, .handling, false, false, none, 0, [], false, false⟩

/-- The `finally` block has cleared the timers. -/
def finished (state : RunnerState) : Bool :=
  match state.phase with
  | .returned _ => true
  | .threw => true
  | _ => false

/-- `controller.abort`: the first reason stays. -/
def abort (state : RunnerState) (reason : AbortReason) : RunnerState :=
  { state with aborted := some (state.aborted.getD reason) }

/-- `reportFailure` from the choice of the kind on. -/
def fail (opts : RunnerOptions) (job : JobRow) (e : Thrown) (timedOut : Bool) (draw : ReportDraw)
    (state : RunnerState) : RunnerState :=
  { state with
    phase := match failRequest opts job e timedOut draw with
      | some request => .failing request
      | none => .threw }

/-- `flags.cancelRequested || e instanceof JobCancelledError`. -/
def acknowledges (state : RunnerState) (e : Thrown) : Bool :=
  state.cancelRequested || e.errorClass = .jobCancelled

/-- `reportFailure`, with the flags as they are now. -/
def reportFailure (opts : RunnerOptions) (job : JobRow) (e : Thrown) (draw : ReportDraw)
    (state : RunnerState) : RunnerState :=
  if e.errorClass = .ownershipLost then { state with phase := .returned .ownershipLost }
  else if state.acknowledges e then { state with phase := .acknowledgingFailure e state.timedOut }
  else state.fail opts job e state.timedOut draw

/-- The handler settles. -/
def settle (opts : RunnerOptions) (job : JobRow) (draw : ReportDraw) (state : RunnerState) :
    Settlement -> RunnerState
  | .resolves =>
      { state with
        resolved := true
        phase := if state.cancelRequested then .acknowledging else .completing }
  | .throws e => state.reportFailure opts job e draw

/-- Execute the statement that is awaited, if there is one. -/
def execReport (opts : RunnerOptions) (job : JobRow) (now : Timestamp) (state : RunnerState) :
    Option (Except StatementError Executed) :=
  match state.phase with
  | .acknowledging =>
      some ((Statement.acknowledgeCancellation (opts.fence job)).report now state.db)
  | .completing => some ((Statement.completeJob (opts.fence job)).report now state.db)
  | .acknowledgingFailure _ _ =>
      some ((Statement.acknowledgeCancellation (opts.fence job)).report now state.db)
  | .failing request => some (request.exec now state.db)
  | _ => none

/-- The answer to the statement that is awaited. -/
def answer (opts : RunnerOptions) (job : JobRow) (draw : ReportDraw) (rows : List JobRow)
    (state : RunnerState) : RunnerState :=
  match state.phase with
  | .acknowledging =>
      { state with phase := if rows.isEmpty then .completing else .returned .cancelled }
  | .completing =>
      { state with
        phase := if rows.isEmpty then .returned .ownershipLost else .returned .succeeded }
  | .acknowledgingFailure e timedOut =>
      if rows.isEmpty then state.fail opts job e timedOut draw
      else { state with phase := .returned .cancelled }
  | .failing _ =>
      { state with
        phase := match rows with
          | [] => .returned .ownershipLost
          | row :: _ => if row.state = .dead then .returned .dead else .returned .retried }
  | _ => state

/-- The statement that is awaited raises an error.  The statements of the
handler's success share the `try` block with the handler; an error of
`reportFailure` leaves `run`. -/
def raise (opts : RunnerOptions) (job : JobRow) (e : DatabaseError) (draw : ReportDraw)
    (state : RunnerState) : RunnerState :=
  match state.phase with
  | .acknowledging => state.reportFailure opts job e.thrown draw
  | .completing => state.reportFailure opts job e.thrown draw
  | .acknowledgingFailure _ _ => { state with phase := .threw }
  | .failing _ => { state with phase := .threw }
  | _ => state

/-- The rest of `doHeartbeat`, once the statement is answered. -/
def heartbeatReply (reply : Option JobRow) (state : RunnerState) : RunnerState :=
  match reply with
  | none => state.abort .ownershipLost
  | some row =>
      if row.cancelRequestedAt.isSome && !state.cancelRequested then
        { state.abort .jobCancelled with cancelRequested := true }
      else state

/-- `heartbeatJob` for this delivery. -/
def execHeartbeat (opts : RunnerOptions) (job : JobRow) (now : Timestamp) (state : RunnerState) :
    Except StatementError Executed :=
  (Statement.heartbeatJob (opts.fence job) job.leaseSeconds).report now state.db

def step (opts : RunnerOptions) (job : JobRow) (state : RunnerState) : RunnerLabel -> RunnerState
  | .timeout =>
      if state.finished then state
      else
        let late := match state.phase with
          | .handling => true
          | _ => state.late
        { state.abort .handlerTimeout with timedOut := true, late := late }
  | .sendHeartbeat => { state with heartbeats := state.heartbeats + 1 }
  | .heartbeat now behaviour =>
      if state.heartbeats = 0 then state
      else
        let sent := { state with heartbeats := state.heartbeats - 1 }
        match behaviour, state.execHeartbeat opts job now with
        | .answered, .ok executed =>
            { sent with
              db := executed.reply.db, replies := state.replies ++ [executed.reply.rows.head?] }
        | .lost, .ok executed => { sent with db := executed.reply.db }
        | _, _ => sent
  | .heartbeatReply index =>
      match state.replies[index]? with
      | none => state
      | some reply =>
          { state with replies := state.replies.eraseIdx index }.heartbeatReply reply
  | .settle settlement draw =>
      match state.phase with
      | .handling => state.settle opts job draw settlement
      | _ => state
  | .report now behaviour error draw =>
      match state.execReport opts job now with
      | none => state
      | some executes =>
          match behaviour, executes with
          | .answered, .ok executed =>
              { state with db := executed.reply.db }.answer opts job draw executed.reply.rows
          | .lost, .ok executed =>
              { state with db := executed.reply.db }.raise opts job error draw
          | _, _ => state.raise opts job error draw
  | .other call => { state with db := state.db.step call }

end RunnerState

/-! ## What a report does -/

namespace RunnerState

section

variable {opts : RunnerOptions} {job : JobRow} {state : RunnerState} {now : Timestamp}
variable {behaviour : Behaviour} {error : DatabaseError} {draw : ReportDraw}

theorem settle_handling (settlement : Settlement) (handling : state.phase = .handling) :
    state.step opts job (.settle settlement draw) = state.settle opts job draw settlement := by
  unfold step
  simp only [handling]

/-- Where nothing is awaited nothing is sent. -/
theorem report_idle (idle : state.execReport opts job now = none) :
    state.step opts job (.report now behaviour error draw) = state := by
  unfold step
  simp only [idle]

theorem report_answered {executed : Executed}
    (ran : state.execReport opts job now = some (.ok executed)) :
    state.step opts job (.report now .answered error draw) =
      { state with db := executed.reply.db }.answer opts job draw executed.reply.rows := by
  unfold step
  simp only [ran]

/-- The rows are written, but nobody is told. -/
theorem report_lost {executed : Executed}
    (ran : state.execReport opts job now = some (.ok executed)) :
    state.step opts job (.report now .lost error draw) =
      { state with db := executed.reply.db }.raise opts job error draw := by
  unfold step
  simp only [ran]

theorem report_refused {executes : Except StatementError Executed}
    (awaited : state.execReport opts job now = some executes) :
    state.step opts job (.report now .refused error draw) = state.raise opts job error draw := by
  unfold step
  simp only [awaited]

/-- A statement that cannot be executed raises whatever the connection does. -/
theorem report_failed {reason : StatementError}
    (failed : state.execReport opts job now = some (.error reason)) :
    state.step opts job (.report now behaviour error draw) = state.raise opts job error draw := by
  unfold step
  simp only [failed]

/-- An awaited statement is answered, or its error is raised over the database
it has left. -/
theorem report_awaited {executes : Except StatementError Executed} (behaviour : Behaviour)
    (error : DatabaseError) (draw : ReportDraw)
    (awaited : state.execReport opts job now = some executes) :
    (Exists fun executed : Executed => behaviour = .answered ∧ executes = .ok executed) ∨
      Exists fun db : Database => state.step opts job (.report now behaviour error draw) =
        { state with db := db }.raise opts job error draw := by
  cases executes with
  | error reason => exact Or.inr ⟨state.db, report_failed awaited⟩
  | ok executed =>
      cases behaviour with
      | answered => exact Or.inl ⟨executed, rfl, rfl⟩
      | lost => exact Or.inr ⟨executed.reply.db, report_lost awaited⟩
      | refused => exact Or.inr ⟨state.db, report_refused awaited⟩

/-! The statement of each phase, and what its answer leads to. -/

theorem execReport_acknowledgingFailure {e : Thrown} {timedOut : Bool}
    (phase : state.phase = .acknowledgingFailure e timedOut) :
    state.execReport opts job now =
      some ((Statement.acknowledgeCancellation (opts.fence job)).report now state.db) := by
  unfold execReport
  rw [phase]

theorem execReport_failing {request : FailRequest} (phase : state.phase = .failing request) :
    state.execReport opts job now = some (request.exec now state.db) := by
  unfold execReport
  rw [phase]

theorem execReport_finished (ended : state.finished = true) :
    state.execReport opts job now = none := by
  unfold finished at ended
  unfold execReport
  cases phase : state.phase with
  | returned outcome => rfl
  | threw => rfl
  | _ => simp [phase] at ended

theorem answer_acknowledgingFailure {e : Thrown} {timedOut : Bool} (rows : List JobRow)
    (phase : state.phase = .acknowledgingFailure e timedOut) :
    state.answer opts job draw rows =
      if rows.isEmpty then state.fail opts job e timedOut draw
      else { state with phase := .returned .cancelled } := by
  unfold answer
  rw [phase]

theorem answer_failing {request : FailRequest} (rows : List JobRow)
    (phase : state.phase = .failing request) :
    (state.answer opts job draw rows).phase = match rows with
      | [] => .returned .ownershipLost
      | row :: _ => if row.state = .dead then .returned .dead else .returned .retried := by
  unfold answer
  rw [phase]

/-- Answering writes nothing. -/
theorem answer_db (rows : List JobRow) : (state.answer opts job draw rows).db = state.db := by
  unfold answer
  split
  · rfl
  · rfl
  · split <;> rfl
  · rfl
  · rfl

theorem raise_acknowledgingFailure {e : Thrown} {timedOut : Bool}
    (phase : state.phase = .acknowledgingFailure e timedOut) :
    (state.raise opts job error draw).phase = .threw := by
  unfold raise
  rw [phase]

theorem raise_failing {request : FailRequest} (phase : state.phase = .failing request) :
    (state.raise opts job error draw).phase = .threw := by
  unfold raise
  rw [phase]

theorem fail_unbuilt {e : Thrown} {timedOut : Bool}
    (built : failRequest opts job e timedOut draw = none) :
    (state.fail opts job e timedOut draw).phase = .threw := by
  unfold fail
  rw [built]

theorem fail_built {e : Thrown} {timedOut : Bool} {request : FailRequest}
    (built : failRequest opts job e timedOut draw = some request) :
    (state.fail opts job e timedOut draw).phase = .failing request := by
  unfold fail
  rw [built]

theorem finished_returned {outcome : RunOutcome} (phase : state.phase = .returned outcome) :
    state.finished = true := by
  unfold finished
  rw [phase]

theorem finished_threw (phase : state.phase = .threw) : state.finished = true := by
  unfold finished
  rw [phase]

end

end RunnerState

/-! ## The writes of a delivery -/

/-- A statement by which the delivery changed its row, and whether its timer
had fired before its handler settled. -/
structure RowWrite where
  statement : Statement
  late : Bool

namespace RunnerState

/-- The delivery holds its row: the fence would let a report pass. -/
def Owned (opts : RunnerOptions) (job : JobRow) (state : RunnerState) : Prop :=
  Exists fun row : JobRow => row ∈ state.db.job.rows ∧ (opts.fence job).owns row = true

instance (opts : RunnerOptions) (job : JobRow) (state : RunnerState) :
    Decidable (state.Owned opts job) :=
  decidable_of_iff (state.db.job.rows.any (opts.fence job).owns = true) List.any_eq_true

/-- What an executed statement of the delivery wrote. -/
def wrote (state : RunnerState) (behaviour : Behaviour) :
    Except StatementError Executed -> Option RowWrite
  | .ok executed =>
      if behaviour = .refused ∨ executed.reply.rows = [] then none
      else some ⟨executed.statement, state.late⟩
  | .error _ => none

/-- The change a step makes to the row on behalf of the delivery. -/
def write (opts : RunnerOptions) (job : JobRow) (state : RunnerState) :
    RunnerLabel -> Option RowWrite
  | .heartbeat now behaviour =>
      if state.heartbeats = 0 then none
      else state.wrote behaviour (state.execHeartbeat opts job now)
  | .report now behaviour _ _ =>
      match state.execReport opts job now with
      | none => none
      | some executes => state.wrote behaviour executes
  | _ => none

/-- A write is an executed statement that hit a row. -/
theorem wrote_eq_some_iff {state : RunnerState} {behaviour : Behaviour}
    {executes : Except StatementError Executed} {write : RowWrite} :
    state.wrote behaviour executes = some write <->
      Exists fun executed : Executed => executes = .ok executed ∧ behaviour ≠ .refused ∧
        executed.reply.rows ≠ [] ∧ write = ⟨executed.statement, state.late⟩ := by
  cases executes with
  | error error => simp [wrote]
  | ok executed =>
      by_cases silent : behaviour = .refused ∨ executed.reply.rows = []
      · rw [wrote, if_pos silent]
        constructor
        · intro impossible
          cases impossible
        · rintro ⟨same, ran, reached, listed, _⟩
          cases ran
          rcases silent with refused | empty
          · exact absurd refused reached
          · exact absurd empty listed
      · rw [wrote, if_neg silent]
        rw [not_or] at silent
        constructor
        · intro same
          exact ⟨executed, rfl, silent.1, silent.2, (Option.some.inj same).symm⟩
        · rintro ⟨same, ran, _, _, written⟩
          cases ran
          rw [written]

end RunnerState

/-- The statement that was executed is the one that was sent. -/
theorem Statement.report_ok {now : Timestamp} {db : Database} {statement : Statement}
    {executed : Executed} (ran : statement.report now db = .ok executed) :
    executed.statement = statement ∧ statement.exec now db = .ok executed.reply := by
  unfold Statement.report at ran
  split at ran
  · rename_i reply committed
    cases ran
    exact ⟨rfl, committed⟩
  · cases ran

/-- An `UPDATE` returns a row exactly when its `WHERE` clause hits one. -/
theorem Statement.exec_rows_ne_nil_iff {now : Timestamp} {db : Database} {statement : Statement}
    {mutation : Mutation} {reply : Reply} (committed : statement.exec now db = .ok reply)
    (isUpdate : statement.mutation now db = some mutation) :
    reply.rows ≠ [] <-> Exists fun row : JobRow => row ∈ db.job.rows ∧ mutation.hits row = true := by
  rw [Statement.exec_mutation isUpdate] at committed
  rw [(Mutation.run_ok committed).2.1]
  unfold Mutation.returning
  rw [ne_eq, List.map_eq_nil_iff, List.filter_eq_nil_iff]
  push Not
  rfl

/-- The statements by which one step changes the row, and when. -/
inductive RunnerState.Writes (opts : RunnerOptions) (job : JobRow) (state : RunnerState) :
    RunnerLabel -> Statement -> Prop where
  | heartbeat {now behaviour} (sent : state.heartbeats ≠ 0) (reached : behaviour ≠ .refused)
      (owned : state.Owned opts job) :
      Writes opts job state (.heartbeat now behaviour)
        (.heartbeatJob (opts.fence job) job.leaseSeconds)
  | acknowledge {now behaviour error draw} :
      Writes opts job state (.report now behaviour error draw)
        (.acknowledgeCancellation (opts.fence job))
  | complete {now behaviour error draw} (phase : state.phase = .completing)
      (reached : behaviour ≠ .refused) (owned : state.Owned opts job) :
      Writes opts job state (.report now behaviour error draw) (.completeJob (opts.fence job))
  | fail {now behaviour error draw request record executed} (phase : state.phase = .failing request)
      (stored : request.error = some record) (reached : behaviour ≠ .refused)
      (ran : request.exec now state.db = .ok executed) (hit : executed.reply.rows ≠ []) :
      Writes opts job state (.report now behaviour error draw) (.failJob (request.params record))

namespace FailRequest

/-- What a failure report that was executed has to be. -/
theorem exec_ok {request : FailRequest} {now : Timestamp} {db : Database} {executed : Executed}
    (ran : request.exec now db = .ok executed) :
    Exists fun record : JobErrorRecord => request.error = some record ∧
      executed.statement = .failJob (request.params record) ∧
        executed.statement.exec now db = .ok executed.reply := by
  unfold exec at ran
  split at ran
  · cases ran
  · rename_i record stored
    split at ran
    · cases ran
    · split at ran
      · cases ran
      · have sent := Statement.report_ok ran
        refine ⟨record, stored, sent.1, ?_⟩
        rw [sent.1]
        exact sent.2

end FailRequest

namespace RunnerState

/-- Every write of a step is one of the listed ones. -/
theorem writes_of_write {opts : RunnerOptions} {job : JobRow} {state : RunnerState}
    {label : RunnerLabel} {write : RowWrite} (written : state.write opts job label = some write) :
    write.late = state.late ∧ state.Writes opts job label write.statement := by
  cases label with
  | timeout => cases written
  | sendHeartbeat => cases written
  | heartbeatReply index => cases written
  | settle settlement draw => cases written
  | other call => cases written
  | heartbeat now behaviour =>
      unfold RunnerState.write at written
      dsimp only at written
      split at written
      · cases written
      · rename_i sent
        rcases wrote_eq_some_iff.mp written with ⟨executed, ran, reached, listed, rfl⟩
        have issued := Statement.report_ok ran
        have owned := (Statement.exec_rows_ne_nil_iff issued.2 rfl).mp listed
        refine ⟨rfl, ?_⟩
        dsimp only
        rw [issued.1]
        exact .heartbeat sent reached owned
  | report now behaviour error draw =>
      unfold RunnerState.write execReport at written
      cases phase : state.phase with
      | handling => rw [phase] at written; cases written
      | returned outcome => rw [phase] at written; cases written
      | threw => rw [phase] at written; cases written
      | acknowledging =>
          rw [phase] at written
          rcases wrote_eq_some_iff.mp written with ⟨executed, ran, reached, listed, rfl⟩
          refine ⟨rfl, ?_⟩
          dsimp only
          rw [(Statement.report_ok ran).1]
          exact .acknowledge
      | acknowledgingFailure e timedOut =>
          rw [phase] at written
          rcases wrote_eq_some_iff.mp written with ⟨executed, ran, reached, listed, rfl⟩
          refine ⟨rfl, ?_⟩
          dsimp only
          rw [(Statement.report_ok ran).1]
          exact .acknowledge
      | completing =>
          rw [phase] at written
          rcases wrote_eq_some_iff.mp written with ⟨executed, ran, reached, listed, rfl⟩
          have issued := Statement.report_ok ran
          refine ⟨rfl, ?_⟩
          dsimp only
          rw [issued.1]
          exact .complete phase reached ((Statement.exec_rows_ne_nil_iff issued.2 rfl).mp listed)
      | failing request =>
          rw [phase] at written
          rcases wrote_eq_some_iff.mp written with ⟨executed, ran, reached, listed, rfl⟩
          rcases FailRequest.exec_ok ran with ⟨record, stored, issued, _⟩
          refine ⟨rfl, ?_⟩
          dsimp only
          rw [issued]
          exact .fail phase stored reached ran listed

/-- A heartbeat that reaches a row the delivery holds extends its lease. -/
theorem write_heartbeat {opts : RunnerOptions} {job : JobRow} {state : RunnerState}
    (now : Timestamp) {behaviour : Behaviour} (sent : state.heartbeats ≠ 0)
    (reached : behaviour ≠ .refused) (owned : state.Owned opts job) :
    state.write opts job (.heartbeat now behaviour) =
      some ⟨.heartbeatJob (opts.fence job) job.leaseSeconds, state.late⟩ := by
  rcases heartbeatJob_commits state.db (opts.fence job) job.leaseSeconds now with
    ⟨reply, committed⟩
  have executes : (Statement.heartbeatJob (opts.fence job) job.leaseSeconds).exec now state.db =
      .ok reply := committed
  have ran : state.execHeartbeat opts job now =
      .ok ⟨.heartbeatJob (opts.fence job) job.leaseSeconds, reply⟩ := by
    unfold execHeartbeat Statement.report
    rw [executes]
  unfold RunnerState.write
  dsimp only
  rw [if_neg sent]
  exact wrote_eq_some_iff.mpr
    ⟨_, ran, reached, (Statement.exec_rows_ne_nil_iff executes rfl).mpr owned, rfl⟩

/-- A completion that reaches a row the delivery holds marks it succeeded. -/
theorem write_completion {opts : RunnerOptions} {job : JobRow} {state : RunnerState}
    (now : Timestamp) {behaviour : Behaviour} (error : DatabaseError) (draw : ReportDraw)
    (phase : state.phase = .completing) (reached : behaviour ≠ .refused)
    (owned : state.Owned opts job) :
    state.write opts job (.report now behaviour error draw) =
      some ⟨.completeJob (opts.fence job), state.late⟩ := by
  rcases completeJob_commits state.db (opts.fence job) now with ⟨reply, committed⟩
  have executes : (Statement.completeJob (opts.fence job)).exec now state.db = .ok reply :=
    committed
  have ran : (Statement.completeJob (opts.fence job)).report now state.db =
      .ok ⟨.completeJob (opts.fence job), reply⟩ := by
    unfold Statement.report
    rw [executes]
  unfold RunnerState.write execReport
  dsimp only
  rw [phase]
  exact wrote_eq_some_iff.mpr
    ⟨_, ran, reached, (Statement.exec_rows_ne_nil_iff executes rfl).mpr owned, rfl⟩

end RunnerState

/-- A delivery with the history of its writes. -/
abbrev RunnerRun := Recorded RunnerState RowWrite

namespace RunnerRun

def step (opts : RunnerOptions) (job : JobRow) : RunnerRun -> RunnerLabel -> RunnerRun :=
  recordStep (RunnerState.step opts job) (RunnerState.write opts job)

def start (db : Database) : RunnerRun := ⟨.start db, []⟩

end RunnerRun

end PgJobQ
