import PgJobQ.Worker.HandlerSuccess

/-!
# Which thrown values are recorded

The delivery still holds its row and the database answers every statement.
What a handler throws is then recorded exactly when every stage accepts it:
the value is not taken for a loss of ownership or an acknowledged
cancellation, the three texts can be read off it and truncated, what is kept
of them can be written as JSON and read as `jsonb`, the delay of a retryable
failure is an interval, and its end a point in time if the job is retried.

Whatever is not an error and not a string passes through all stages, because
its texts are written by `JSON.stringify` or by the source itself.
-/

namespace PgJobQ

open Runs
open Utf16

/-! ## Texts that are kept -/

/-- What truncation has kept of a value can be stored. -/
def TruncatedValue.Kept : TruncatedValue -> Prop
  | .text kept => Storable kept
  | .function => True
  | .object view => view.member.cast ≠ none

theorem TruncatedValue.kept_iff_cast (value : TruncatedValue) :
    value.Kept <-> value.serialize.cast ≠ none := by
  cases value with
  | text kept =>
      change Storable kept <-> (Serialized.stored (jsonbText kept)).cast ≠ none
      rw [← jsonbText_isSome_iff]
      cases jsonbText kept <;> simp [Serialized.cast]
  | function => simp [Kept, serialize, Serialized.cast]
  | object view => rfl

def NormalizedError.Kept (normalized : NormalizedError) : Prop :=
  normalized.name.Kept ∧ normalized.message.Kept ∧ normalized.stack.Kept

theorem NormalizedError.asRecord_ne_none_iff (normalized : NormalizedError) (kind : ErrorKind)
    (attempt : Int) (recordedAt : Timestamp) (workerId : String) :
    normalized.asRecord kind attempt recordedAt workerId ≠ none <-> normalized.Kept := by
  unfold asRecord Kept
  rw [TruncatedValue.kept_iff_cast, TruncatedValue.kept_iff_cast, TruncatedValue.kept_iff_cast]
  cases normalized.name.serialize.cast <;> cases normalized.message.serialize.cast <;>
    cases normalized.stack.serialize.cast <;> simp

/-- What the cast accepts has been written. -/
theorem NormalizedError.Kept.writable {normalized : NormalizedError} (kept : normalized.Kept) :
    normalized.writable = true := by
  have written : forall value : TruncatedValue, value.Kept -> (value.serialize != .throws) = true := by
    intro value keptValue
    have cast := value.kept_iff_cast.mp keptValue
    cases serialized : value.serialize with
    | throws =>
        rw [serialized] at cast
        exact absurd rfl cast
    | omitted => rfl
    | stored text => rfl
  unfold NormalizedError.writable
  rw [written _ kept.1, written _ kept.2.1, written _ kept.2.2]
  rfl

theorem JsType.text_plain (type : JsType) : Not ('\x00' ∈ type.text.toList) := by
  cases type <;> decide

/-- A description with the name of a type in it can be stored. -/
theorem storable_around {before after : String} (first : Not ('\x00' ∈ before.toList))
    (last : Not ('\x00' ∈ after.toList)) (type : JsType) :
    Storable (encode (before ++ type.text ++ after).toList) := by
  apply (storable_encode_iff _).mpr
  rw [String.toList_append, String.toList_append, List.mem_append, List.mem_append]
  exact not_or.mpr ⟨not_or.mpr ⟨first, type.text_plain⟩, last⟩

/-- A thrown value that is neither an error nor a string is always kept. -/
theorem normalizeError_other (value : OtherValue) (maxTextBytes : Nat) :
    Exists fun normalized : NormalizedError =>
      normalizeError (.other value) maxTextBytes = some normalized ∧ normalized.Kept := by
  have message : Exists fun text : Text => describeOther value = .string text ∧ Storable text := by
    unfold describeOther
    cases value.stringified with
    | text json => exact ⟨json.text, rfl, json.escaped⟩
    | undefined => exact ⟨_, rfl, storable_around (by decide) (by decide) value.type⟩
    | throws => exact ⟨_, rfl, storable_around (by decide) (by decide) value.type⟩
  rcases message with ⟨text, described, storable⟩
  refine ⟨⟨.text (truncate (encode "ThrownValue".toList) 256), .text (truncate text maxTextBytes),
    .text (truncate (encode "".toList) maxTextBytes)⟩, ?_, ?_, ?_, ?_⟩
  · unfold normalizeError describe
    dsimp only
    rw [described]
    rfl
  · exact Storable.truncate (by decide) 256
  · exact storable.truncate maxTextBytes
  · exact Storable.truncate (by decide) maxTextBytes

/-- A thrown string is kept when the part that is not cut off can be stored. -/
theorem normalizeError_string (text : Text) (maxTextBytes : Nat) :
    Exists fun normalized : NormalizedError =>
      normalizeError (.string text) maxTextBytes = some normalized ∧
        (normalized.Kept <-> Storable (truncate text maxTextBytes)) := by
  refine ⟨_, rfl, ?_⟩
  constructor
  · exact fun kept => kept.2.1
  · exact fun storable => ⟨Storable.truncate (by decide) 256, storable,
      Storable.truncate (by decide) maxTextBytes⟩

/-! ## The request -/

/-- The request of a value whose texts are kept. -/
theorem failRequest_of_kept {opts : RunnerOptions} (job : JobRow) {e : Thrown} {timedOut : Bool}
    (draw : ReportDraw) {kind : ErrorKind} {normalized : NormalizedError}
    (kinded : reportKind e timedOut = some kind)
    (described : normalizeError e opts.maxErrorTextBytes = some normalized)
    (kept : normalized.Kept) :
    failRequest opts job e timedOut draw = some (failParams opts job e kind normalized draw) := by
  unfold failRequest
  rw [kinded, described]
  dsimp only
  rw [if_pos kept.writable]

/-- The error of a request can be cast exactly when its texts are kept. -/
theorem failParams_error_iff (opts : RunnerOptions) (job : JobRow) (e : Thrown) (kind : ErrorKind)
    (normalized : NormalizedError) (draw : ReportDraw) :
    (failParams opts job e kind normalized draw).error ≠ none <-> normalized.Kept :=
  normalized.asRecord_ne_none_iff kind job.attempt draw.recordedAt opts.workerId

/-! ## The contract -/

/-- The row has been failed with what was thrown: the record made of it is
appended to its errors, and it is available or dead as `failJob` decides. -/
def FailureRecorded (opts : RunnerOptions) (job row : JobRow) (e : Thrown) (timedOut : Bool)
    (draw : ReportDraw) (state : RunnerState) : Prop :=
  Exists fun kind : ErrorKind => Exists fun normalized : NormalizedError =>
    Exists fun record : JobErrorRecord => Exists fun now : Timestamp =>
      reportKind e timedOut = some kind ∧
        normalizeError e opts.maxErrorTextBytes = some normalized ∧
        normalized.asRecord kind job.attempt draw.recordedAt opts.workerId = some record ∧
        state.db.find row.id = some ((failJob
          ((failParams opts job e kind normalized draw).params record) now).set row) ∧
        state.phase = .returned (if ((failJob
          ((failParams opts job e kind normalized draw).params record) now).set row).state = .dead
            then .dead else .retried)

/-- Every stage between the handler and the table accepts the value. -/
def Recordable (opts : RunnerOptions) (row : JobRow) (state : RunnerState) (e : Thrown)
    (draw : ReportDraw) (reported : Timestamp) : Prop :=
  e.errorClass ≠ .ownershipLost ∧
    (state.acknowledges e = true -> row.cancelRequestedAt = none) ∧
      Exists fun kind : ErrorKind => Exists fun normalized : NormalizedError =>
        reportKind e state.timedOut = some kind ∧
          normalizeError e opts.maxErrorTextBytes = some normalized ∧ normalized.Kept ∧
            (nonRetryable e kind = false -> (retryDelay opts e draw).IsInterval ∧
              (row.attempt < row.maxAttempts -> (retryDelay opts e draw).EndsInRange reported))

namespace RunnerState

variable {opts : RunnerOptions} {job row : JobRow} {state : RunnerState}

/-- A finished delivery sends nothing. -/
theorem report_finished (now : Timestamp) (behaviour : Behaviour) (error : DatabaseError)
    (draw : ReportDraw) (ended : state.finished = true) :
    state.step opts job (.report now behaviour error draw) = state :=
  report_idle (execReport_finished ended)

/-- The answer to a failure report finishes the delivery. -/
theorem finished_of_failing {request : FailRequest} (now : Timestamp) (error : DatabaseError)
    (draw : ReportDraw) (phase : state.phase = .failing request) :
    (state.step opts job (.report now .answered error draw)).finished = true := by
  have awaited := @execReport_failing opts job state now request phase
  cases ran : request.exec now state.db with
  | error reason =>
      rw [ran] at awaited
      rw [report_failed awaited]
      exact finished_threw (raise_failing phase)
  | ok executed =>
      rw [ran] at awaited
      rw [report_answered awaited]
      have answered := @answer_failing opts job { state with db := executed.reply.db } draw request
        executed.reply.rows phase
      cases rows : executed.reply.rows with
      | nil =>
          rw [rows] at answered
          exact finished_returned answered
      | cons first rest =>
          rw [rows] at answered
          dsimp only at answered
          by_cases buried : first.state = .dead
          · rw [if_pos buried] at answered
            exact finished_returned answered
          · rw [if_neg buried] at answered
            exact finished_returned answered

/-- Only the row of the delivery can make a request compute an interval. -/
theorem retries_iff {request : FailRequest} (fence : request.fence = opts.fence job)
    (member : row ∈ state.db.job.rows) (owned : (opts.fence job).owns row = true) :
    state.db.job.rows.any request.retries = true <->
      request.nonRetryable = false ∧ row.attempt < row.maxAttempts := by
  rw [List.any_eq_true]
  unfold FailRequest.retries
  rw [fence]
  constructor
  · rintro ⟨other, otherMem, retried⟩
    simp only [Bool.and_eq_true, Bool.not_eq_true', decide_eq_true_eq] at retried
    have same := state.db.job.eq_of_id otherMem member
      ((FenceParams.owns_iff.mp retried.1.1).1.trans (FenceParams.owns_iff.mp owned).1.symm)
    rw [← same]
    exact ⟨retried.1.2, retried.2⟩
  · rintro ⟨retryable, remaining⟩
    refine ⟨row, member, ?_⟩
    simp [owned, retryable, remaining]

/-- An accepted failure report writes its record to the row. -/
theorem failed_of_accepted {request : FailRequest} {now : Timestamp} (error : DatabaseError)
    (draw : ReportDraw) (phase : state.phase = .failing request)
    (fence : request.fence = opts.fence job)
    (member : row ∈ state.db.job.rows) (owned : (opts.fence job).owns row = true)
    (accepted : request.Accepted now state.db) :
    Exists fun record : JobErrorRecord => request.error = some record ∧
      (state.step opts job (.report now .answered error draw)).db.find row.id =
        some ((failJob (request.params record) now).set row) ∧
      (state.step opts job (.report now .answered error draw)).phase = .returned
        (if ((failJob (request.params record) now).set row).state = .dead
          then .dead else .retried) := by
  rcases FailRequest.exec_of_accepted accepted with ⟨executed, ran⟩
  rcases FailRequest.exec_ok ran with ⟨record, stored, issued, executes⟩
  have committed : (failJob (request.params record) now).run state.db = .ok executed.reply := by
    rw [issued] at executes
    exact executes
  have done := Mutation.run_ok committed
  have hit : (failJob (request.params record) now).hits row = true := by
    have same : (request.params record).toFenceParams = opts.fence job := fence
    change (request.params record).toFenceParams.owns row = true
    rwa [same]
  have awaited := @execReport_failing opts job state now request phase
  rw [ran] at awaited
  rw [report_answered awaited]
  refine ⟨record, stored, ?_, ?_⟩
  · rw [answer_db]
    apply Database.find_eq_some_iff.mpr
    refine ⟨?_, (failJob (request.params record) now).keepsId row⟩
    rw [done.1]
    refine List.mem_map.mpr ⟨row, member, ?_⟩
    unfold Mutation.rewrite
    rw [if_pos hit]
  · -- the row that is returned is the row of the delivery
    have returned : forall listed, listed ∈ executed.reply.rows ->
        listed = (failJob (request.params record) now).set row := by
      intro listed listedMem
      rw [done.2.1] at listedMem
      rcases Mutation.mem_returning.mp listedMem with ⟨source, sourceMem, sourceHit, rfl⟩
      have sameId : source.id = row.id :=
        (FenceParams.owns_iff.mp sourceHit).1.trans (FenceParams.owns_iff.mp hit).1.symm
      rw [state.db.job.eq_of_id sourceMem member sameId]
    have listed : executed.reply.rows ≠ [] :=
      (FailRequest.exec_rows fence ran).mpr ⟨row, member, owned⟩
    rw [@answer_failing opts job { state with db := executed.reply.db } draw request
      executed.reply.rows phase]
    cases rows : executed.reply.rows with
    | nil => exact absurd rows listed
    | cons first rest =>
        dsimp only
        rw [returned first (rows ▸ List.mem_cons_self)]
        split <;> rfl

/-- Once the handler's value is being reported, the failure is recorded exactly
when the texts are kept and the delay can be used. -/
theorem fail_recorded_iff (e : Thrown) (timedOut : Bool) (draw : ReportDraw) (now : Timestamp)
    (error : DatabaseError) (member : row ∈ state.db.job.rows)
    (owned : (opts.fence job).owns row = true) :
    FailureRecorded opts job row e timedOut draw
        ((state.fail opts job e timedOut draw).step opts job (.report now .answered error draw)) <->
      Exists fun kind : ErrorKind => Exists fun normalized : NormalizedError =>
        reportKind e timedOut = some kind ∧
          normalizeError e opts.maxErrorTextBytes = some normalized ∧ normalized.Kept ∧
            (nonRetryable e kind = false -> (retryDelay opts e draw).IsInterval ∧
              (row.attempt < row.maxAttempts -> (retryDelay opts e draw).EndsInRange now)) := by
  constructor
  · rintro ⟨_, _, _, _, _, _, _, _, returned⟩
    cases built : failRequest opts job e timedOut draw with
    | none =>
        have phase := @fail_unbuilt opts job state draw e timedOut built
        rw [report_finished now .answered error draw (finished_threw phase), phase] at returned
        cases returned
    | some request =>
        have phase := @fail_built opts job state draw e timedOut request built
        have fence := failRequest_fence built
        cases ran : request.exec now state.db with
        | error reason =>
            have awaited := @execReport_failing opts job _ now request phase
            rw [show (state.fail opts job e timedOut draw).db = state.db from rfl, ran] at awaited
            rw [report_failed awaited, raise_failing phase] at returned
            cases returned
        | ok executed =>
            have accepted := FailRequest.accepted_of_exec ran
            rcases failRequest_eq_some built with ⟨kind, normalized, kinded, described, rfl⟩
            refine ⟨kind, normalized, kinded, described,
              (failParams_error_iff opts job e kind normalized draw).mp accepted.error, ?_⟩
            intro retryable
            refine ⟨accepted.interval retryable, fun remaining => ?_⟩
            exact accepted.ends ((retries_iff fence member owned).mpr ⟨retryable, remaining⟩)
  · rintro ⟨kind, normalized, kinded, described, kept, timely⟩
    have phase : (state.fail opts job e timedOut draw).phase =
        .failing (failParams opts job e kind normalized draw) :=
      fail_built (failRequest_of_kept job draw kinded described kept)
    have accepted : (failParams opts job e kind normalized draw).Accepted now
        (state.fail opts job e timedOut draw).db := by
      refine ⟨(failParams_error_iff opts job e kind normalized draw).mpr kept,
        fun retryable => (timely retryable).1, fun retried => ?_⟩
      have retry := (@retries_iff opts job row (state.fail opts job e timedOut draw) _ rfl
        member owned).mp retried
      exact (timely retry.1).2 retry.2
    rcases @failed_of_accepted opts job row (state.fail opts job e timedOut draw) _ now error
      draw phase rfl member owned accepted with ⟨record, stored, found, returned⟩
    exact ⟨kind, normalized, record, now, kinded, described, stored, found, returned⟩

/-- The statement of an acknowledgement matches the row unless nobody has
asked for a cancellation. -/
theorem acknowledgement_silent (now : Timestamp) (member : row ∈ state.db.job.rows)
    (owned : (opts.fence job).owns row = true) (unasked : row.cancelRequestedAt = none) :
    forall other, other ∈ state.db.job.rows ->
      (acknowledgeCancellation (opts.fence job) now).hits other = false := by
  intro other otherMem
  cases holds : (opts.fence job).owns other with
  | false =>
      unfold acknowledgeCancellation
      dsimp only
      rw [holds, Bool.false_and]
  | true =>
      have sameId : other.id = row.id :=
        (FenceParams.owns_iff.mp holds).1.trans (FenceParams.owns_iff.mp owned).1.symm
      rw [state.db.job.eq_of_id otherMem member sameId]
      unfold acknowledgeCancellation
      dsimp only
      rw [unasked, Option.isSome_none, Bool.and_false]

/-- What the handler has thrown, reported without any disturbance. -/
def reported (opts : RunnerOptions) (job : JobRow) (e : Thrown) (now later : Timestamp)
    (error : DatabaseError) (draw : ReportDraw) (state : RunnerState) : RunnerState :=
  run (RunnerState.step opts job) state [.settle (.throws e) draw,
    .report now .answered error draw, .report later .answered error draw]

/-- The first of the three steps hands the value over. -/
theorem reported_eq (e : Thrown) (now later : Timestamp) (error : DatabaseError)
    (draw : ReportDraw) (handling : state.phase = .handling) :
    state.reported opts job e now later error draw =
      ((state.reportFailure opts job e draw).step opts job (.report now .answered error draw)).step
        opts job (.report later .answered error draw) := by
  unfold reported run
  simp only [List.foldl_cons, List.foldl_nil]
  rw [settle_handling (.throws e) handling]
  rfl

/-- A recorded failure ends the delivery in one of two ways. -/
theorem outcome_of_recorded {e : Thrown} {timedOut : Bool} {draw : ReportDraw}
    (recorded : FailureRecorded opts job row e timedOut draw state) :
    state.phase = .returned .dead ∨ state.phase = .returned .retried := by
  rcases recorded with ⟨_, _, _, _, _, _, _, _, returned⟩
  rw [returned]
  split
  · exact Or.inl rfl
  · exact Or.inr rfl

/-- An acknowledgement that was asked for is the last word of the delivery. -/
theorem acknowledged_asked {e : Thrown} {timedOut : Bool} (now : Timestamp)
    (error : DatabaseError) (draw : ReportDraw)
    (phase : state.phase = .acknowledgingFailure e timedOut) (member : row ∈ state.db.job.rows)
    (owned : (opts.fence job).owns row = true) (asked : row.cancelRequestedAt ≠ none) :
    (state.step opts job (.report now .answered error draw)).phase = .returned .cancelled ∨
      (state.step opts job (.report now .answered error draw)).phase = .threw := by
  have hit : (acknowledgeCancellation (opts.fence job) now).hits row = true := by
    unfold acknowledgeCancellation
    dsimp only
    rw [owned, Option.isSome_iff_ne_none.mpr asked]
    rfl
  have awaited := @execReport_acknowledgingFailure opts job state now e timedOut phase
  cases ran : (Statement.acknowledgeCancellation (opts.fence job)).report now state.db with
  | error reason =>
      rw [ran] at awaited
      rw [report_failed awaited]
      exact Or.inr (raise_acknowledgingFailure phase)
  | ok executed =>
      have listed := (Statement.exec_rows_ne_nil_iff (Statement.report_ok ran).2 rfl).mpr
        ⟨row, member, hit⟩
      rw [ran] at awaited
      rw [report_answered awaited,
        @answer_acknowledgingFailure opts job { state with db := executed.reply.db } draw e timedOut
          executed.reply.rows phase,
        if_neg (by rwa [List.isEmpty_iff])]
      exact Or.inl rfl

/-- One that nobody asked for matches nothing, and the failure is reported
after it. -/
theorem acknowledged_unasked {e : Thrown} {timedOut : Bool} (now : Timestamp)
    (error : DatabaseError) (draw : ReportDraw)
    (phase : state.phase = .acknowledgingFailure e timedOut) (member : row ∈ state.db.job.rows)
    (owned : (opts.fence job).owns row = true) (unasked : row.cancelRequestedAt = none) :
    Exists fun db : Database => row ∈ db.job.rows ∧
      state.step opts job (.report now .answered error draw) =
        { state with db := db }.fail opts job e timedOut draw := by
  rcases Mutation.run_of_silent (acknowledgement_silent now member owned unasked) with
    ⟨reply, committed, silent, same⟩
  have executes : (Statement.acknowledgeCancellation (opts.fence job)).exec now state.db =
      .ok reply := committed
  have awaited := @execReport_acknowledgingFailure opts job state now e timedOut phase
  unfold Statement.report at awaited
  rw [executes] at awaited
  refine ⟨reply.db, same ▸ member, ?_⟩
  rw [report_answered awaited,
    @answer_acknowledgingFailure opts job { state with db := reply.db } draw e timedOut
      reply.rows phase, silent]
  rfl

/-- Whatever becomes of the request, its answer is the last one. -/
theorem fail_answered_finished (e : Thrown) (timedOut : Bool) (now : Timestamp)
    (error : DatabaseError) (draw : ReportDraw) :
    ((state.fail opts job e timedOut draw).step opts job
      (.report now .answered error draw)).finished = true := by
  cases built : failRequest opts job e timedOut draw with
  | none =>
      have ended := finished_threw (@fail_unbuilt opts job state draw e timedOut built)
      rwa [report_finished now .answered error draw ended]
  | some request => exact finished_of_failing now error draw (fail_built built)

end RunnerState

/-- While the delivery holds its row and the database answers, what the handler
throws is recorded exactly when every stage accepts it.  An acknowledgement of
a cancellation that matches nothing comes before the report, which is then
executed later. -/
theorem thrown_recorded_iff (opts : RunnerOptions) (job row : JobRow) (state : RunnerState)
    (e : Thrown) (now later : Timestamp) (error : DatabaseError) (draw : ReportDraw)
    (handling : state.phase = .handling) (member : row ∈ state.db.job.rows)
    (owned : (opts.fence job).owns row = true) :
    FailureRecorded opts job row e state.timedOut draw
        (state.reported opts job e now later error draw) <->
      Recordable opts row state e draw (if state.acknowledges e then later else now) := by
  rw [RunnerState.reported_eq e now later error draw handling]
  unfold RunnerState.reportFailure Recordable
  by_cases lost : e.errorClass = .ownershipLost
  · -- nothing is written for a loss of ownership
    rw [if_pos lost, RunnerState.report_finished now .answered error draw rfl,
      RunnerState.report_finished later .answered error draw rfl]
    constructor
    · intro recorded
      rcases RunnerState.outcome_of_recorded recorded with returned | returned <;> cases returned
    · exact fun recordable => absurd lost recordable.1
  · rw [if_neg lost]
    by_cases acknowledges : state.acknowledges e = true
    · rw [if_pos acknowledges, if_pos acknowledges]
      by_cases unasked : row.cancelRequestedAt = none
      · rcases @RunnerState.acknowledged_unasked opts job row
          { state with phase := .acknowledgingFailure e state.timedOut } e state.timedOut
          now error draw rfl member owned unasked with ⟨db, kept, next⟩
        rw [next, RunnerState.fail_recorded_iff e state.timedOut draw later error kept owned]
        constructor
        · exact fun accepted => ⟨lost, fun _ => unasked, accepted⟩
        · exact fun recordable => recordable.2.2
      · -- the acknowledgement matches the row, and nothing is reported after it
        have acknowledged := @RunnerState.acknowledged_asked opts job row
          { state with phase := .acknowledgingFailure e state.timedOut } e state.timedOut
          now error draw rfl member owned unasked
        have ended := acknowledged.elim RunnerState.finished_returned RunnerState.finished_threw
        rw [RunnerState.report_finished later .answered error draw ended]
        constructor
        · intro recorded
          rcases RunnerState.outcome_of_recorded recorded with returned | returned <;>
            rcases acknowledged with phase | phase <;> cases returned.symm.trans phase
        · exact fun recordable => absurd (recordable.2.1 acknowledges) unasked
    · rw [if_neg acknowledges, if_neg acknowledges,
        RunnerState.report_finished later .answered error draw
          (RunnerState.fail_answered_finished e state.timedOut now error draw),
        RunnerState.fail_recorded_iff e state.timedOut draw now error member owned]
      constructor
      · exact fun accepted => ⟨lost, fun impossible => absurd impossible acknowledges, accepted⟩
      · exact fun recordable => recordable.2.2

/-- `throw new Error(message)`. -/
def plainThrow (message : FieldValue) : Thrown :=
  .error ⟨.other, literal "Error", message, literal "Error\n    at handler", none, .absent, .absent⟩

theorem plainThrow_recorded :
    FailureRecorded plainRunner claimedJob claimedJob (plainThrow (literal "no such mailbox"))
      false ⟨seconds 1, seconds 1⟩
      ((RunnerState.start claimedDatabase).reported plainRunner claimedJob
        (plainThrow (literal "no such mailbox")) (seconds 1) (seconds 1) connectionLost
        ⟨seconds 1, seconds 1⟩) := by
  apply (thrown_recorded_iff plainRunner claimedJob claimedJob (.start claimedDatabase)
    (plainThrow (literal "no such mailbox")) (seconds 1) (seconds 1) connectionLost
    ⟨seconds 1, seconds 1⟩ rfl (by decide) (by decide)).mpr
  refine ⟨ErrorClass.noConfusion, fun _ => rfl, .handlerError, _, rfl, rfl, ?_, ?_⟩
  · exact ⟨Storable.truncate (by decide) 256, Storable.truncate (by decide) 4096,
      Storable.truncate (by decide) 4096⟩
  · exact fun _ => ⟨by decide, fun _ => by decide⟩

/-- The value is not recorded, and the job stays running. -/
def Unrecorded (e : Thrown) : Prop :=
  ((RunnerState.start claimedDatabase).reported plainRunner claimedJob e (seconds 1) (seconds 1)
      connectionLost ⟨seconds 1, seconds 1⟩).db.find 1 = some claimedJob ∧
    Not (FailureRecorded plainRunner claimedJob claimedJob e false ⟨seconds 1, seconds 1⟩
      ((RunnerState.start claimedDatabase).reported plainRunner claimedJob e (seconds 1) (seconds 1)
        connectionLost ⟨seconds 1, seconds 1⟩))

/-- A row that is still held has not been failed. -/
theorem unrecorded_of_kept {e : Thrown}
    (kept : ((RunnerState.start claimedDatabase).reported plainRunner claimedJob e (seconds 1)
      (seconds 1) connectionLost ⟨seconds 1, seconds 1⟩).db.find 1 = some claimedJob) :
    Unrecorded e := by
  refine ⟨kept, ?_⟩
  rintro ⟨kind, normalized, record, now, _, _, _, found, _⟩
  have same : some claimedJob = some ((failJob ((failParams plainRunner claimedJob e kind normalized
      ⟨seconds 1, seconds 1⟩).params record) now).set claimedJob) := kept.symm.trans found
  have released := congrArg JobRow.workerId (Option.some.inj same)
  cases released

/-- A message with a U+0000, one with half a surrogate pair, and one that is a
number. -/
theorem unrecorded_messages :
    Unrecorded (plainThrow (literal "unexpected byte \x00")) ∧
      Unrecorded (plainThrow (.string [0xD83D])) ∧ Unrecorded (plainThrow (.number false)) :=
  ⟨unrecorded_of_kept rfl, unrecorded_of_kept rfl, unrecorded_of_kept rfl⟩

end PgJobQ
