import PgJobQ.Library.Runs
import PgJobQ.Server.Disclosure
import PgJobQ.Server.WriteEffects

/-!
# What a restricted key can change

The requests of a key that is restricted to queues should leave the rows of all
other queues as they are, whatever the requests are and in whatever state they
find the tables.  A request that names a queue does.  A request that names a
job or a schedule by its id does as long as the row it finds is one of the
key's queues, or the statement has nothing to change in it.

The condition on a request is exact in every state, so a run keeps the other
queues exactly when each of its requests meets it.
-/

namespace PgJobQ

open Runs RowViews UniqueRows

/-- A request under `/v1`. -/
inductive ApiRequest where
  | read (request : ReadRequest)
  | write (request : WriteRequest)

/-- A request together with the clocks and locks it meets. -/
structure Arrival where
  request : ApiRequest
  handling : Handling

def handle (config : ServerConfig) (record : ApiKeyRecord) (state : ServerState)
    (arrival : Arrival) : Response × ServerState :=
  match arrival.request with
  | .read request => read config record arrival.handling.now state request
  | .write request => write config record arrival.handling state request

def serverStep (config : ServerConfig) (record : ApiKeyRecord) (state : ServerState)
    (arrival : Arrival) : ServerState :=
  (handle config record state arrival).2

/-- The queues a key does not cover. -/
def outside (queues : List String) (queue : String) : Bool := !queues.contains queue

/-- The rows of all other queues are what they were at the start. -/
def OthersKept (queues : List String) (start state : ServerState) : Prop :=
  Tables.Agree (outside queues) start.tables state.tables

/-- The key may administer, and the id is one that a row can have. -/
def Names (record : ApiKeyRecord) (id : String) (named : NumericId) : Prop :=
  record.scopes.contains .admin = true ∧ named.text = id ∧ named.fitsBigint = true

section Condition

variable (config : ServerConfig) (record : ApiKeyRecord) (queues : List String)
  (state : ServerState) (handling : Handling)

/-- A job of another queue that is named is neither available nor, without an
earlier request, running. -/
def CancelHarmless (id : String) : Prop :=
  forall named, Names record id named -> forall job, job ∈ state.tables.db.job.rows ->
    job.id = named.value -> outside queues job.queue = true -> job.state ≠ .available ∧
      (job.state = .running -> job.cancelRequestedAt ≠ none ∧ job.updatedAt = handling.later)

/-- An available job of another queue that is named is due just now. -/
def RetryHarmless (id : String) : Prop :=
  forall named, Names record id named -> forall job, job ∈ state.tables.db.job.rows ->
    job.id = named.value -> outside queues job.queue = true -> job.state = .available ->
      job.runAt = handling.now ∧ job.updatedAt = handling.now

/-- A dead job of another queue that is named may not come back. -/
def ReplayHarmless (id : String) : Prop :=
  forall named, Names record id named -> forall job, job ∈ state.tables.db.job.rows ->
    job.id = named.value -> outside queues job.queue = true -> job.state = .dead ->
      Not (Apart [named.value] state.tables.db)

/-- If a dead job of another queue is among those that are named, they may not
come back together. -/
def DlqReplayHarmless (ids : Except (List Problem) (List NumericId)) : Prop :=
  record.scopes.contains .admin = true -> forall named, ids = .ok named ->
    (forall id, id ∈ named -> id.fitsBigint = true) ->
      forall job, job ∈ state.tables.db.job.rows -> job.id ∈ named.map NumericId.value ->
        outside queues job.queue = true -> job.state = .dead ->
          Not (Apart (named.map NumericId.value) state.tables.db)

/-- A schedule of another queue that is named is set that way just now, or its
cron expression is rejected. -/
def SetScheduleHarmless (id : String) (enabled : Bool) : Prop :=
  config.schedulerEnabled = true -> forall named, Names record id named ->
    forall row, row ∈ state.tables.schedules.rows -> row.id = named.value ->
      outside queues row.queue = true ->
        SetIdle config.cron enabled handling.clock handling.now row

/-- A schedule that is named is one of the key's queues, and so are the jobs
that came from it. -/
def DeleteScheduleHarmless (id : String) : Prop :=
  config.schedulerEnabled = true -> forall named, Names record id named ->
    forall row, row ∈ state.tables.schedules.rows -> row.id = named.value ->
      outside queues row.queue = false ∧ forall job, job ∈ state.tables.db.job.rows ->
        job.scheduleId = some named.value -> outside queues job.queue = false

end Condition

/-- The request changes no row of another queue. -/
def Harmless (config : ServerConfig) (record : ApiKeyRecord) (queues : List String)
    (state : ServerState) (arrival : Arrival) : Prop :=
  match arrival.request with
  | .write (.cancel id) => CancelHarmless record queues state arrival.handling id
  | .write (.retry id) => RetryHarmless record queues state arrival.handling id
  | .write (.replay id) => ReplayHarmless record queues state id
  | .write (.dlqReplay ids) => DlqReplayHarmless record queues state ids
  | .write (.setSchedule id enabled) =>
      SetScheduleHarmless config record queues state arrival.handling id enabled
  | .write (.deleteSchedule id) => DeleteScheduleHarmless config record queues state id
  | _ => True

/-! ## One request -/

section Step

variable {config : ServerConfig} {record : ApiKeyRecord} {queues : List String}
  {state : ServerState} {handling : Handling}

/-- A queue that was admitted is one of the key's. -/
theorem hidden_of_admitted {Parsed : Type} {scope : Scope} {queue : String}
    {validated : Except (List Problem) Parsed} {parsed : Parsed}
    (restricted : record.queues = some queues)
    (admitted : checkRequest record scope (some queue) validated = .ok parsed) :
    outside queues queue = false := by
  rw [outside, covered_of_admitted restricted admitted]
  rfl

/-- Exchanging the database of a state. -/
theorem withDb_kept_iff {db : Database} (sameConfig : db.queueConfig = state.tables.db.queueConfig) :
    OthersKept queues state (state.withDb db) <-> SameJobs (outside queues) state.tables.db db :=
  SameJobs.agree_iff sameConfig

/-- Exchanging the schedules of a state. -/
theorem withSchedules_kept_iff {schedules : ScheduleTable} :
    OthersKept queues state (state.withSchedules schedules) <->
      RowViews.Agree (fun row : ScheduleRow => outside queues row.queue) state.tables.schedules.rows
        schedules.rows :=
  ⟨fun kept => kept.schedule, fun same => ⟨.refl _ _, same, .refl _ _⟩⟩

/-! Requests with a queue in their path. -/

/-- The name that is used is the one that was admitted. -/
theorem hidden_of_path {Parsed : Type} {scope : Scope} {queue name : String}
    {body : Except (List Problem) Parsed} {parsed : Parsed}
    (restricted : record.queues = some queues)
    (admitted : checkRequest record scope (some queue)
      (validateBoth body (validateNameField "params.queue" queue)) = .ok (parsed, name)) :
    outside queues name = false := by
  have validated := validateBoth_eq_ok_iff.mp (checkRequest_eq_ok_iff.mp admitted).2
  rw [validateNameField_eq_ok validated.2]
  exact hidden_of_admitted restricted admitted

theorem enqueueJob_kept (restricted : record.queues = some queues) (queue : String)
    (body : Except (List Problem) EnqueueBody) (traceparent : Option String) :
    OthersKept queues state
      (enqueueJob config record handling state queue body traceparent).2 := by
  unfold enqueueJob
  split
  · exact .refl _ _
  · rename_i parsed name admitted
    exact (Client.enqueue_addsTo _ _ _ _ _).agree (hidden_of_path restricted admitted)

theorem enqueueJobs_kept (restricted : record.queues = some queues) (queue : String)
    (body : Except (List Problem) (List BatchEnqueueItem)) :
    OthersKept queues state (enqueueJobs config record handling state queue body).2 := by
  unfold enqueueJobs
  split
  · exact .refl _ _
  · rename_i items name admitted
    exact (enqueueBatch_addsTo _ _ _ _ _ _).agree (hidden_of_path restricted admitted)

theorem purgeJobs_kept (restricted : record.queues = some queues) (queue : String)
    (body : Except (List Problem) PurgeBody) :
    OthersKept queues state (purgeJobs record handling state queue body).2 := by
  unfold purgeJobs
  split
  · exact .refl _ _
  · rename_i parsed name admitted
    exact purge_agree (hidden_of_path restricted admitted) _ _ _ _ _

theorem pauseQueue_kept (restricted : record.queues = some queues) (queue : String)
    (paused : Bool) : OthersKept queues state (pauseQueue record state queue paused).2 := by
  unfold pauseQueue
  split
  · exact .refl _ _
  · rename_i name admitted
    have hidden := hidden_of_admitted restricted admitted
    rw [← validateNameField_eq_ok (checkRequest_eq_ok_iff.mp admitted).2] at hidden
    exact setPaused_agree hidden _ _ _ _

/-- The queue of a new schedule is in the body of its request. -/
theorem createScheduleRoute_kept (restricted : record.queues = some queues)
    (request : CreateScheduleRequest) :
    OthersKept queues state (createScheduleRoute config record handling state request).2 := by
  unfold createScheduleRoute
  cases admitted : checkRequest record .admin request.queue request.body with
  | error refusal => exact .refl _ _
  | ok params =>
      dsimp only
      split
      · rw [request.sameQueue params (checkRequest_eq_ok_iff.mp admitted).2] at admitted
        exact withSchedules_kept_iff.mpr (create_rows (hidden_of_admitted restricted admitted) _)
      · exact .refl _ _

/-! Requests with an id in their path. -/

/-- A request with an id is refused, or the id is a number and the key may
administer. -/
theorem checkRequest_id_cases (record : ApiKeyRecord) (id : String) :
    (Exists fun refusal : Response =>
        checkRequest record .admin none (validateId id) = .error refusal ∧
          forall named, Not (Names record id named)) ∨
      Exists fun named : NumericId => checkRequest record .admin none (validateId id) = .ok named ∧
        forall holds : NumericId -> Prop,
          ((forall other, Names record id other -> holds other) <->
            (named.fitsBigint = true -> holds named)) := by
  cases admitted : checkRequest record .admin none (validateId id) with
  | error refusal =>
      refine Or.inl ⟨refusal, rfl, ?_⟩
      rintro named ⟨allowed, same, _⟩
      rw [checkRequest_eq_ok_iff.mpr ⟨(record.authorizes_none .admin).trans allowed,
        validateId_eq_ok_iff.mpr same⟩] at admitted
      cases admitted
  | ok named =>
      have parts := checkRequest_eq_ok_iff.mp admitted
      have allowed := (record.authorizes_none .admin).symm.trans parts.1
      have text := validateId_eq_ok_iff.mp parts.2
      refine Or.inr ⟨named, rfl, fun holds => ⟨?_, ?_⟩⟩
      · exact fun all fits => all named ⟨allowed, text, fits⟩
      · rintro one other ⟨_, same, fits⟩
        have isNamed : other = named := NumericId.ext (same.trans text.symm)
        subst isNamed
        exact one fits

theorem cancelJob_kept_iff (id : String) :
    OthersKept queues state (cancelJob record handling state id).2 <->
      CancelHarmless record queues state handling id := by
  unfold cancelJob CancelHarmless
  rcases checkRequest_id_cases record id with ⟨refusal, refused, nobody⟩ | ⟨named, admitted, single⟩
  · rw [refused]
    exact ⟨fun _ named names => absurd names (nobody named), fun _ => .refl _ _⟩
  · rw [admitted, single]
    dsimp only
    rw [withDb_kept_iff (cancel_queueConfig named handling.now handling.later state.tables.db)]
    exact cancel_sameJobs_iff

theorem retryJob_kept_iff (id : String) :
    OthersKept queues state (retryJob record handling state id).2 <->
      RetryHarmless record queues state handling id := by
  unfold retryJob RetryHarmless
  rcases checkRequest_id_cases record id with ⟨refusal, refused, nobody⟩ | ⟨named, admitted, single⟩
  · rw [refused]
    exact ⟨fun _ named names => absurd names (nobody named), fun _ => .refl _ _⟩
  · rw [admitted, single]
    dsimp only
    rw [withDb_kept_iff (retryNow_queueConfig named handling.now state.tables.db)]
    exact retryNow_sameJobs_iff

theorem replayJob_kept_iff (id : String) :
    OthersKept queues state (replayJob record handling state id).2 <->
      ReplayHarmless record queues state id := by
  unfold replayJob ReplayHarmless
  rcases checkRequest_id_cases record id with ⟨refusal, refused, nobody⟩ | ⟨named, admitted, single⟩
  · rw [refused]
    exact ⟨fun _ named names => absurd names (nobody named), fun _ => .refl _ _⟩
  · rw [admitted, single]
    dsimp only
    rw [replay_fst_eq, withDb_kept_iff (replayMany_queueConfig [named] handling.now state.tables.db),
      replayMany_sameJobs_iff]
    simp only [List.map_cons, List.map_nil, List.mem_singleton, forall_eq]

theorem replayDlq_kept_iff (ids : Except (List Problem) (List NumericId)) :
    OthersKept queues state (replayDlq record handling state ids).2 <->
      DlqReplayHarmless record queues state ids := by
  unfold replayDlq DlqReplayHarmless
  cases admitted : checkRequest record .admin none ids with
  | error refusal =>
      refine ⟨fun _ allowed named parsed => ?_, fun _ => .refl _ _⟩
      have authorized := (record.authorizes_none .admin).trans allowed
      rw [checkRequest_eq_ok_iff.mpr ⟨authorized, parsed⟩] at admitted
      cases admitted
  | ok named =>
      have parts := checkRequest_eq_ok_iff.mp admitted
      have allowed := (record.authorizes_none .admin).symm.trans parts.1
      dsimp only
      rw [withDb_kept_iff (replayMany_queueConfig named handling.now state.tables.db),
        replayMany_sameJobs_iff]
      constructor
      · intro refused _ other parsed
        have isNamed := Except.ok.inj (parsed.symm.trans parts.2)
        subst isNamed
        exact refused
      · exact fun harmless => harmless allowed named parts.2

/-! The routes of schedules answer before they look at one where there is no
scheduler. -/

theorem setScheduleRoute_kept_iff (id : String) (enabled : Bool) :
    OthersKept queues state (setScheduleRoute config record handling state id enabled).2 <->
      SetScheduleHarmless config record queues state handling id enabled := by
  unfold setScheduleRoute SetScheduleHarmless
  rcases checkRequest_id_cases record id with ⟨refusal, refused, nobody⟩ | ⟨named, admitted, single⟩
  · rw [refused]
    exact ⟨fun _ _ named names => absurd names (nobody named), fun _ => .refl _ _⟩
  · rw [admitted, single]
    dsimp only
    split
    · rename_i isEnabled
      rw [withSchedules_kept_iff, setEnabled_rows_iff]
      exact ⟨fun idle _ => idle, fun idle => idle isEnabled⟩
    · rename_i disabled
      exact ⟨fun _ isEnabled => absurd isEnabled disabled, fun _ => .refl _ _⟩

theorem deleteScheduleRoute_kept_iff (id : String) :
    OthersKept queues state (deleteScheduleRoute config record state id).2 <->
      DeleteScheduleHarmless config record queues state id := by
  unfold deleteScheduleRoute DeleteScheduleHarmless
  rcases checkRequest_id_cases record id with ⟨refusal, refused, nobody⟩ | ⟨named, admitted, single⟩
  · rw [refused]
    exact ⟨fun _ _ named names => absurd names (nobody named), fun _ => .refl _ _⟩
  · rw [admitted, single]
    dsimp only
    split
    · rename_i isEnabled
      have kept := @delete_agree_iff (outside queues) named state.tables
      exact ⟨fun agree _ => kept.mp agree, fun idle => kept.mpr (idle isEnabled)⟩
    · rename_i disabled
      exact ⟨fun _ isEnabled => absurd isEnabled disabled, fun _ => .refl _ _⟩

/-- A request changes no row of another queue exactly when it is harmless. -/
theorem kept_iff_harmless (restricted : record.queues = some queues) (arrival : Arrival) :
    OthersKept queues state (serverStep config record state arrival) <->
      Harmless config record queues state arrival := by
  rcases arrival with ⟨request, handling⟩
  cases request with
  | read request =>
      refine ⟨fun _ => trivial, fun _ => ?_⟩
      unfold OthersKept serverStep handle
      rw [read_tables]
      exact .refl _ _
  | write request =>
      cases request with
      | cancel id => exact cancelJob_kept_iff id
      | retry id => exact retryJob_kept_iff id
      | replay id => exact replayJob_kept_iff id
      | dlqReplay ids => exact replayDlq_kept_iff ids
      | setSchedule id enabled => exact setScheduleRoute_kept_iff id enabled
      | deleteSchedule id => exact deleteScheduleRoute_kept_iff id
      | enqueue queue body traceparent =>
          exact ⟨fun _ => trivial, fun _ => enqueueJob_kept restricted queue body traceparent⟩
      | enqueueBatch queue body =>
          exact ⟨fun _ => trivial, fun _ => enqueueJobs_kept restricted queue body⟩
      | setPaused queue paused =>
          exact ⟨fun _ => trivial, fun _ => pauseQueue_kept restricted queue paused⟩
      | purge queue body => exact ⟨fun _ => trivial, fun _ => purgeJobs_kept restricted queue body⟩
      | createSchedule request =>
          exact ⟨fun _ => trivial, fun _ => createScheduleRoute_kept restricted request⟩

end Step

/-! ## Runs -/

/-- A run of requests of a restricted key keeps the rows of all other queues
exactly when each of its requests is harmless in the state it meets. -/
theorem others_kept_iff (config : ServerConfig) (record : ApiKeyRecord) {queues : List String}
    (restricted : record.queues = some queues) (start : ServerState) (arrivals : List Arrival) :
    Always (serverStep config record) (OthersKept queues start) start arrivals <->
      EachStep (serverStep config record) (Harmless config record queues) start arrivals := by
  refine @always_iff_eachStep _ _ _ (OthersKept queues start) _ _ (fun _ kept => kept) ?_ ?_ _
    (.refl _ _) arrivals
  · intro state arrival kept harmless
    exact Tables.Agree.trans kept ((kept_iff_harmless restricted arrival).mpr harmless)
  · intro state arrival kept harmful stillKept
    exact harmful ((kept_iff_harmless restricted arrival).mp
      (Tables.Agree.trans (Tables.Agree.symm kept) stillKept))

def plainHandling : Handling := ⟨seconds 40, seconds 41, 40000, fun _ => []⟩

/-- The key for `web` pauses its queue and purges it. -/
theorem ownQueue_kept :
    Always (serverStep plainServer webKey) (OthersKept ["web"] (plainState mailTables))
      (plainState mailTables) [⟨.write (.setPaused "web" true), plainHandling⟩,
        ⟨.write (.purge "web" (.ok ⟨[.dead], "web"⟩)), plainHandling⟩] :=
  (others_kept_iff plainServer webKey rfl (plainState mailTables) _).mpr ⟨trivial, trivial, trivial⟩

/-- The key for `web` cancels the job of `mail`. -/
theorem foreignJob_cancelled :
    Not (Always (serverStep plainServer webKey) (OthersKept ["web"] (plainState mailTables))
      (plainState mailTables) [⟨.write (.cancel "1"), plainHandling⟩]) := by
  intro always
  have kept : OthersKept ["web"] (plainState mailTables) (serverStep plainServer webKey
      (plainState mailTables) ⟨.write (.cancel "1"), plainHandling⟩) := always.2
  have present : (plainEnqueue 5).toJobRow 1 0 ∈ mailTables.db.job.rows :=
    List.mem_singleton_self _
  have left := (kept.job ((plainEnqueue 5).toJobRow 1 0) (by decide)).mp present
  exact absurd left (by decide)

end PgJobQ
