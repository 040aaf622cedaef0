import Mathlib.Data.Fintype.EquivFin
import PgJobQ.Server.ReadRoutes
import PgJobQ.Server.Views

/-!
# What a restricted key can observe

A key that is restricted to queues should get the same response to a request
whatever the other queues hold.  A request that names a queue of the key keeps
to the rows of this queue, and one that names another is refused.  A request
without a queue is checked for the scope alone, so its response shows whether
the other queues hold a job or a schedule with an id, or all that they hold.

The converse directions compare the empty tables with tables that hold one row
of a queue outside of the key.
-/

namespace PgJobQ

open RowViews UniqueRows Runs

/-- The state of a server on other tables. -/
def ServerState.on (state : ServerState) (tables : Tables) : ServerState :=
  { state with tables := tables }

/-- The response is the same on any two tables that agree on the queues. -/
def Unobserving (config : ServerConfig) (record : ApiKeyRecord) (now : Timestamp)
    (state : ServerState) (queues : List String) (request : ReadRequest) : Prop :=
  forall one two : Tables, one.Numbered -> two.Numbered -> Tables.Agree queues.contains one two ->
    (read config record now (state.on one) request).1 =
      (read config record now (state.on two) request).1

/-- No row can have the id. -/
def Nameless (id : String) : Prop :=
  forall named : NumericId, named.text = id -> named.value = 0 ∨ bigintMax < named.value

/-- No job can pass the filters of the query, or the database refuses them. -/
def Unmatched (query : PageQuery) : Prop :=
  (query.params none).fits = false ∨
    (Exists fun since : ValidDate => Exists fun upTo : ValidDate =>
      query.fromDate = some since ∧ query.toDate = some upTo ∧ upTo.time < since.time) ∨
    Exists fun cursor : NumericId => query.cursor = some cursor ∧ cursor.value ≤ 1

/-- The request is refused before a row is looked at, it finds nothing, or it
names a queue. -/
def Confined (config : ServerConfig) (record : ApiKeyRecord) (state : ServerState) :
    ReadRequest -> Prop
  | .job id => record.scopes.contains .read = false ∨ Nameless id
  | .queues => record.scopes.contains .read = false
  | .dlq queue query => record.scopes.contains .read = false ∨ queue ≠ .absent ∨
      forall parsed, query = .ok parsed -> Unmatched parsed.toPageQuery
  | .schedules => record.scopes.contains .read = false ∨ config.schedulerEnabled = false
  | .schedule id =>
      record.scopes.contains .read = false ∨ config.schedulerEnabled = false ∨ Nameless id
  | .events =>
      record.scopes.contains .read = false ∨ config.sseMaxSubscribers ≤ state.subscribers
  | _ => True

/-! ## Requests that are confined -/

section Confinement

variable {config : ServerConfig} {record : ApiKeyRecord} {now : Timestamp} {state : ServerState}
  {queues : List String}

/-- Without the scope nothing is admitted that names no queue. -/
theorem checkRequest_none_of_unscoped {Parsed : Type} {scope : Scope}
    (unscoped : record.scopes.contains scope = false) (validated : Except (List Problem) Parsed) :
    checkRequest record scope none validated = .error (forbidden scope none) := by
  unfold checkRequest
  rw [ApiKeyRecord.authorizes_none, unscoped]
  rfl

/-- A queue that is admitted is one of the key's. -/
theorem covered_of_admitted {Parsed : Type} {scope : Scope} {queue : String}
    {validated : Except (List Problem) Parsed} {parsed : Parsed}
    (restricted : record.queues = some queues)
    (admitted : checkRequest record scope (some queue) validated = .ok parsed) :
    queues.contains queue = true :=
  ((ApiKeyRecord.authorizes_some_iff restricted).mp (checkRequest_eq_ok_iff.mp admitted).1).2

theorem Nameless.value {id : NumericId} (nameless : Nameless id.text) (fits : id.fitsBigint = true) :
    id.value = 0 :=
  (nameless id rfl).resolve_right (Nat.not_lt.mpr (of_decide_eq_true fits))

theorem getJob_of_find {id : NumericId} {db : Database} {job : JobRow}
    (fits : id.fitsBigint = true) (found : db.find id.value = some job) :
    Client.getJob id db = .ok job := by
  unfold Client.getJob
  rw [if_pos fits, found]

theorem getJob_of_nameless {id : NumericId} {tables : Tables} (numbered : tables.Numbered)
    (nameless : Nameless id.text) :
    Client.getJob id tables.db =
      if id.fitsBigint then .error (.jobNotFound id.text) else .error .idOutOfRange := by
  unfold Client.getJob
  split
  · rename_i fits
    rw [nameless.value fits, numbered.find_job_zero]
  · rfl

theorem getSchedule_of_nameless {id : NumericId} {tables : Tables} (numbered : tables.Numbered)
    (nameless : Nameless id.text) :
    Scheduler.get id tables.schedules =
      if id.fitsBigint then .ok none else .error .idOutOfRange := by
  unfold Scheduler.get
  split
  · rename_i fits
    rw [nameless.value fits, numbered.find_schedule_zero]
  · rfl

/-- Filters no job passes. -/
theorem listing_of_unmatched {query : PageQuery} {filter : JobRow -> Bool}
    {column : JobRow -> Option Timestamp} {tables : Tables} (numbered : tables.Numbered)
    (unmatched : Unmatched query) :
    (query.params none).listing filter column tables.db =
      if (query.params none).fits then some [] else none := by
  by_cases fits : (query.params none).fits = true
  · rw [if_pos fits]
    apply PageParams.listing_of_none fits
    intro job member
    rw [Bool.eq_false_iff]
    intro selected
    simp only [PageParams.selects, PageParams.covers, PageQuery.params, Bool.and_eq_true] at selected
    rcases unmatched with refused | ⟨since, upTo, isSince, isUpTo, inverted⟩ | ⟨cursor, isCursor, low⟩
    · rw [refused] at fits
      cases fits
    · -- the two bounds exclude each other, whatever the time of the job is
      have bounds := selected.1.2
      rw [isSince, isUpTo, Option.all_some, Option.all_some] at bounds
      cases timed : column job with
      | none =>
          rw [timed] at bounds
          cases bounds.1
      | some time =>
          rw [timed, Option.any_some, Option.any_some] at bounds
          have lower : ofMillis since.time ≤ time := of_decide_eq_true bounds.1
          have upper : time ≤ ofMillis upTo.time := of_decide_eq_true bounds.2
          have between := Int.le_trans lower upper
          unfold ofMillis at between
          omega
    · -- the cursor is not above the first id
      have below := selected.2
      rw [isCursor, Option.all_some] at below
      have positive := numbered.job job member
      have smaller : job.id < cursor.value := of_decide_eq_true below
      omega
  · rw [if_neg fits]
    unfold PageParams.listing
    rw [if_neg fits]

/-- A listing of a queue of the key is the same on both tables. -/
theorem listing_of_agree {p : PageParams} {filter : JobRow -> Bool}
    {column : JobRow -> Option Timestamp} {one two : Tables} {queue : String}
    (agree : Tables.Agree queues.contains one two) (asked : p.queue = some queue)
    (covered : queues.contains queue = true) :
    p.listing filter column one.db = p.listing filter column two.db :=
  PageParams.listing_eq_of_agree agree.job asked (fun job same => by rw [same, covered])

theorem forQueue_of_agree {one two : Tables} {queue : String}
    (agree : Tables.Agree queues.contains one two) (covered : queues.contains queue = true) :
    one.db.queueConfig.forQueue queue = two.db.queueConfig.forQueue queue :=
  agree.queueConfig.find?_eq one.db.queueConfig.primaryKey two.db.queueConfig.primaryKey
    (fun _ => beq_iff_eq.trans Option.some_inj.symm)
    (fun row same => by rw [beq_iff_eq.mp same, covered])

theorem validateQueue_text {value : String} {queue : Option String}
    (valid : validateQueue (.text value) = .ok queue) : queue = some value := by
  simp only [validateQueue] at valid
  cases named : validateNameField "query.queue" value with
  | error problems =>
      rw [named] at valid
      cases valid
  | ok name =>
      rw [named] at valid
      rw [← validateNameField_eq_ok named]
      exact (Except.ok.inj valid).symm

/-- A confined listing of dead jobs is the same on both tables. -/
theorem listDeadJobs_of_confined {queue : QueryValue}
    {query : Except (List Problem) ListDlqQuery} {parsed : Option String × ListDlqQuery}
    {one two : Tables} (restricted : record.queues = some queues)
    (confined : Confined config record state (.dlq queue query))
    (admitted : checkRequest record .read queue.asString
      (validateBoth (validateQueue queue) query) = .ok parsed)
    (oneNumbered : one.Numbered) (twoNumbered : two.Numbered)
    (agree : Tables.Agree queues.contains one two) :
    Client.listDeadJobs ⟨parsed.2.params parsed.1, parsed.2.reason⟩ one.db =
      Client.listDeadJobs ⟨parsed.2.params parsed.1, parsed.2.reason⟩ two.db := by
  have admission := checkRequest_eq_ok_iff.mp admitted
  have validated := validateBoth_eq_ok_iff.mp admission.2
  cases queue with
  | absent =>
      have allowed := admission.1
      rw [QueryValue.asString, ApiKeyRecord.authorizes_none] at allowed
      rcases confined with unscoped | named | unmatched
      · rw [unscoped] at allowed
        cases allowed
      · exact absurd rfl named
      · have unnamed : parsed.1 = none := (Except.ok.inj validated.1).symm
        have none := unmatched parsed.2 validated.2
        rw [unnamed]
        exact (listing_of_unmatched oneNumbered none).trans
          (listing_of_unmatched twoNumbered none).symm
  | text value =>
      have covered := covered_of_admitted restricted admitted
      exact listing_of_agree agree (validateQueue_text validated.1) covered
  | list => cases validated.1

/-- A confined request is answered without regard to the other queues. -/
theorem Confined.unobserving {request : ReadRequest} (restricted : record.queues = some queues)
    (confined : Confined config record state request) :
    Unobserving config record now state queues request := by
  intro one two oneNumbered twoNumbered agree
  cases request with
  | job id =>
      simp only [read, readJob]
      rcases confined with unscoped | nameless
      · rw [checkRequest_none_of_unscoped unscoped]
      · cases admitted : checkRequest record .read none (validateId id) with
        | error refusal => rfl
        | ok named =>
            have same := validateId_eq_ok_iff.mp (checkRequest_eq_ok_iff.mp admitted).2
            subst same
            simp only [ServerState.on, getJob_of_nameless oneNumbered nameless,
              getJob_of_nameless twoNumbered nameless]
  | jobs queue query =>
      simp only [read, readJobs]
      cases admitted : checkRequest record .read (some queue)
          (validateBoth query (validateNameField "params.queue" queue)) with
      | error refusal => rfl
      | ok parsed =>
          have covered := covered_of_admitted restricted admitted
          have validated := validateBoth_eq_ok_iff.mp (checkRequest_eq_ok_iff.mp admitted).2
          have named := validateNameField_eq_ok validated.2
          have listed : Client.listJobs ⟨parsed.1.params (some parsed.2), parsed.1.state⟩ one.db =
              Client.listJobs ⟨parsed.1.params (some parsed.2), parsed.1.state⟩ two.db :=
            listing_of_agree agree (congrArg some named) covered
          simp only [ServerState.on, listed]
  | queues =>
      simp only [read, readQueues, checkRequest_none_of_unscoped confined]
  | queueConfig queue =>
      simp only [read, readQueueConfig]
      cases admitted : checkRequest record .read (some queue)
          (validateNameField "params.queue" queue) with
      | error refusal => rfl
      | ok parsed =>
          have covered := covered_of_admitted restricted admitted
          have named := validateNameField_eq_ok (checkRequest_eq_ok_iff.mp admitted).2
          simp only [ServerState.on, Client.getQueueConfig, named,
            forQueue_of_agree agree covered]
  | dlq queue query =>
      simp only [read, readDlq]
      cases admitted : checkRequest record .read queue.asString
          (validateBoth (validateQueue queue) query) with
      | error refusal => rfl
      | ok parsed =>
          simp only [ServerState.on,
            listDeadJobs_of_confined restricted confined admitted oneNumbered twoNumbered agree]
  | schedules =>
      simp only [read, readSchedules]
      rcases confined with unscoped | disabled
      · rw [checkRequest_none_of_unscoped unscoped]
      · simp only [disabled, Bool.false_eq_true, if_false]
  | schedule id =>
      simp only [read, readSchedule]
      rcases confined with unscoped | disabled | nameless
      · rw [checkRequest_none_of_unscoped unscoped]
      · simp only [disabled, Bool.false_eq_true, if_false]
      · cases admitted : checkRequest record .read none (validateId id) with
        | error refusal => rfl
        | ok named =>
            have same := validateId_eq_ok_iff.mp (checkRequest_eq_ok_iff.mp admitted).2
            subst same
            simp only [ServerState.on, getSchedule_of_nameless oneNumbered nameless,
              getSchedule_of_nameless twoNumbered nameless]
  | events =>
      simp only [read, readEvents]
      rcases confined with unscoped | full
      · rw [checkRequest_none_of_unscoped unscoped]
      · simp only [ServerState.on, full, if_true]
        split
        · rfl
        · rfl
  | unknown path => rfl

end Confinement

/-! ## Requests that are not -/

/-- A dead job. -/
def deadJob (id : Nat) (queue type : String) (reason : DeadReason) (finishedAt : Timestamp) :
    JobRow where
  id := id
  queue := queue
  type := type
  state := .dead
  payload := "null"
  metadata := none
  priority := 0
  attempt := 1
  maxAttempts := 1
  leaseSeconds := 30
  runAt := 0
  enqueuedAt := 0
  startedAt := some 0
  finishedAt := some finishedAt
  leaseExpiresAt := none
  cancelRequestedAt := none
  workerId := none
  idempotencyKey := none
  uniqueKey := none
  deadReason := some reason
  errors := []
  traceContext := none
  scheduleId := none
  updatedAt := finishedAt

theorem deadJob_checked (id : Nat) (queue type : String) (reason : DeadReason)
    (finishedAt : Timestamp) : (deadJob id queue type reason finishedAt).Checked := by
  rw [JobRow.checked_iff]
  intro constraint
  cases constraint <;> simp [RowConstraint.Holds, deadJob]

/-- A schedule that never runs. -/
def idleSchedule (id : Nat) (queue : String) : ScheduleRow where
  id := id
  name := "nightly"
  queue := queue
  type := "report"
  payload := "null"
  cron := "0 2 * * *"
  timezone := "UTC"
  catchupPolicy := .skipMissed
  enabled := false
  nextRunAt := 0
  lastRunAt := none
  lastJobId := none
  updatedAt := 0

namespace Tables

def empty : Tables := ⟨.empty [] .empty, .empty⟩

theorem empty_numbered : empty.Numbered :=
  ⟨fun _ member => absurd member List.not_mem_nil, fun _ member => absurd member List.not_mem_nil⟩

/-- The tables that hold one job. -/
def withJob (job : JobRow) (checked : job.Checked) : Tables where
  db := { Database.empty [] .empty with
    job := ⟨[job], ⟨fun _ member => List.mem_singleton.mp member ▸ checked,
      uniqueOn_singleton _ _, uniqueOn_singleton _ _, uniqueOn_singleton _ _⟩⟩
    nextId := job.id + 1
    identity := fun _ member => List.mem_singleton.mp member ▸ Nat.lt_succ_self job.id }
  schedules := .empty

/-- The tables that hold one schedule. -/
def withSchedule (row : ScheduleRow) : Tables where
  db := .empty [] .empty
  schedules := {
    rows := [row]
    nextId := row.id + 1
    primaryKey := uniqueOn_singleton _ _
    uniqueName := uniqueOn_singleton _ _
    identity := fun _ member => List.mem_singleton.mp member ▸ Nat.lt_succ_self row.id }

theorem find_withJob {job : JobRow} (checked : job.Checked) :
    (withJob job checked).db.find job.id = some job := by
  rw [Database.find_eq_some_iff]
  exact ⟨List.mem_singleton_self job, rfl⟩

theorem find_withSchedule (row : ScheduleRow) :
    (withSchedule row).schedules.find row.id = some row := by
  rw [ScheduleTable.find_eq_some_iff]
  exact ⟨List.mem_singleton_self row, rfl⟩

variable {visible : String -> Bool}

theorem agree_withJob {job : JobRow} (checked : job.Checked)
    (hidden : visible job.queue = false) : Agree visible .empty (.withJob job checked) where
  job := @agree_append _ _ [] [job] (fun _ member => List.mem_singleton.mp member ▸ hidden)
  schedule := .refl _ _
  queueConfig := .refl _ _

theorem agree_withSchedule {row : ScheduleRow} (hidden : visible row.queue = false) :
    Agree visible .empty (.withSchedule row) where
  job := .refl _ _
  schedule := @agree_append _ _ [] [row] (fun _ member => List.mem_singleton.mp member ▸ hidden)
  queueConfig := .refl _ _

end Tables

section Leaks

variable {config : ServerConfig} {record : ApiKeyRecord} {now : Timestamp} {state : ServerState}
  {queues : List String} {request : ReadRequest}

/-- It is enough that a job of another queue changes the response. -/
theorem not_unobserving_of_job {job : JobRow} (checked : job.Checked) (positive : 0 < job.id)
    (hidden : queues.contains job.queue = false)
    (differs : (read config record now (state.on .empty) request).1 ≠
      (read config record now (state.on (.withJob job checked)) request).1) :
    Not (Unobserving config record now state queues request) := by
  intro unobserving
  apply differs
  apply unobserving .empty (.withJob job checked) Tables.empty_numbered
  · exact ⟨fun _ member => List.mem_singleton.mp member ▸ positive,
      fun _ member => absurd member List.not_mem_nil⟩
  · exact Tables.agree_withJob checked hidden

theorem not_unobserving_of_schedule {row : ScheduleRow} (positive : 0 < row.id)
    (hidden : queues.contains row.queue = false)
    (differs : (read config record now (state.on .empty) request).1 ≠
      (read config record now (state.on (.withSchedule row)) request).1) :
    Not (Unobserving config record now state queues request) := by
  intro unobserving
  apply differs
  apply unobserving .empty (.withSchedule row) Tables.empty_numbered
  · exact ⟨fun _ member => absurd member List.not_mem_nil,
      fun _ member => List.mem_singleton.mp member ▸ positive⟩
  · exact Tables.agree_withSchedule hidden

/-- There is a queue outside of any list, under a name no object inherits. -/
theorem exists_other_queue (queues : List String) : Exists fun queue : String =>
    queues.contains queue = false ∧ queue ≠ "__proto__" ∧ Not (queue ∈ inheritedFunctions) ∧
      forall state : JobState, state.text ≠ queue := by
  rcases Infinite.exists_notMem_finset
    (queues ++ "__proto__" :: inheritedFunctions ++ JobState.all.map JobState.text).toFinset
    with ⟨queue, fresh⟩
  simp only [List.mem_toFinset, List.mem_append, List.mem_cons, not_or] at fresh
  refine ⟨queue, ?_, fresh.1.2.1, fresh.1.2.2, ?_⟩
  · rw [Bool.eq_false_iff]
    exact fun member => fresh.1.1 (List.contains_iff_mem.mp member)
  · exact fun state same => fresh.2 (List.mem_map.mpr ⟨state, state.mem_all, same⟩)

/-- With the scope a request without a queue is admitted if it is well formed. -/
theorem checkRequest_none_of_scoped {Parsed : Type} {scope : Scope}
    (allowed : record.scopes.contains scope = true) {validated : Except (List Problem) Parsed}
    {parsed : Parsed} (valid : validated = .ok parsed) :
    checkRequest record scope none validated = .ok parsed :=
  checkRequest_eq_ok_iff.mpr ⟨(record.authorizes_none scope).trans allowed, valid⟩

theorem exists_named {id : String} (named : Not (Nameless id)) : Exists fun parsed : NumericId =>
    parsed.text = id ∧ 0 < parsed.value ∧ parsed.fitsBigint = true := by
  unfold Nameless at named
  push Not at named
  rcases named with ⟨parsed, same, nonzero, range⟩
  exact ⟨parsed, same, Nat.pos_of_ne_zero nonzero, decide_eq_true range⟩

/-- A job of another queue is forbidden, and a missing one is not found. -/
theorem observes_job {id : String} (restricted : record.queues = some queues)
    (allowed : record.scopes.contains .read = true) (named : Not (Nameless id)) :
    Not (Unobserving config record now state queues (.job id)) := by
  rcases exists_named named with ⟨parsed, rfl, positive, fits⟩
  rcases exists_other_queue queues with ⟨queue, other, _⟩
  have admitted := checkRequest_none_of_scoped allowed (validateId_eq_ok_iff.mpr (Eq.refl parsed.text))
  have checked := deadJob_checked parsed.value queue "report" .attemptsExhausted 0
  have missing : Client.getJob parsed Tables.empty.db = .error (.jobNotFound parsed.text) :=
    if_pos fits
  have present : Client.getJob parsed (Tables.withJob _ checked).db =
      .ok (deadJob parsed.value queue "report" .attemptsExhausted 0) :=
    getJob_of_find fits (Tables.find_withJob checked)
  have foreign : authorizedForQueue record
      (deadJob parsed.value queue "report" .attemptsExhausted 0).queue = false := by
    rw [authorizedForQueue, restricted]
    exact other
  apply not_unobserving_of_job checked positive other
  intro same
  simp only [read, readJob, admitted, ServerState.on, missing, present, foreign,
    AdminError.response, jobNotFound, Bool.false_eq_true, if_false] at same
  cases congrArg Response.status same

/-- A schedule of another queue is shown. -/
theorem observes_schedule {id : String} (allowed : record.scopes.contains .read = true)
    (enabled : config.schedulerEnabled = true) (named : Not (Nameless id)) :
    Not (Unobserving config record now state queues (.schedule id)) := by
  rcases exists_named named with ⟨parsed, rfl, positive, fits⟩
  rcases exists_other_queue queues with ⟨queue, other, _⟩
  have admitted := checkRequest_none_of_scoped allowed (validateId_eq_ok_iff.mpr (Eq.refl parsed.text))
  have missing : Scheduler.get parsed Tables.empty.schedules = .ok none := if_pos fits
  have present : Scheduler.get parsed
      (Tables.withSchedule (idleSchedule parsed.value queue)).schedules =
        .ok (some (idleSchedule parsed.value queue)) := by
    have found := Tables.find_withSchedule (idleSchedule parsed.value queue)
    unfold Scheduler.get
    rw [if_pos fits]
    exact congrArg Except.ok found
  apply @not_unobserving_of_schedule _ _ _ _ _ _ (idleSchedule parsed.value queue) positive other
  intro same
  simp only [read, readSchedule, admitted, enabled, ServerState.on, missing, present,
    scheduleNotFound, if_true] at same
  cases congrArg Response.status same

/-- The list of schedules shows those of other queues. -/
theorem observes_schedules (allowed : record.scopes.contains .read = true)
    (enabled : config.schedulerEnabled = true) :
    Not (Unobserving config record now state queues .schedules) := by
  rcases exists_other_queue queues with ⟨queue, other, _⟩
  have admitted := checkRequest_none_of_scoped allowed (Eq.refl (Except.ok (ε := List Problem) ()))
  have listsNone : Scheduler.list config.collation Tables.empty.schedules = [] := rfl
  have listsOne : Scheduler.list config.collation
      (Tables.withSchedule (idleSchedule 1 queue)).schedules = [idleSchedule 1 queue] := rfl
  apply @not_unobserving_of_schedule _ _ _ _ _ _ (idleSchedule 1 queue) Nat.one_pos other
  intro same
  simp only [read, readSchedules, admitted, enabled, ServerState.on, listsNone, listsOne, if_true]
    at same
  cases serialized : serializeSchedule (idleSchedule 1 queue) with
  | none =>
      rw [List.mapM_cons, serialized] at same
      cases congrArg Response.status same
  | some body =>
      rw [List.mapM_cons, serialized] at same
      cases congrArg Response.body same

/-- A page with a job differs from the empty page. -/
theorem respondPage_ne (job : JobRow) (limit : Nat) :
    respondPage (some []) limit ≠ respondPage (some [job]) limit := by
  intro same
  unfold respondPage page at same
  dsimp only at same
  cases serialized : serializeJob job with
  | none =>
      rw [List.mapM_cons, serialized] at same
      cases congrArg Response.status same
  | some body =>
      rw [List.mapM_cons, serialized] at same
      cases congrArg Response.body same

/-- Bounds that are not inverted cover one of them. -/
theorem exists_covered {query : PageQuery} (matched : Not (Unmatched query)) :
    Exists fun time : Timestamp => (query.params none).covers (some time) = true := by
  unfold PageParams.covers PageQuery.params
  cases isSince : query.fromDate with
  | none =>
      cases query.toDate with
      | none => exact ⟨0, rfl⟩
      | some upTo => exact ⟨ofMillis upTo.time, decide_eq_true (Int.le_refl _)⟩
  | some since =>
      refine ⟨ofMillis since.time, Bool.and_eq_true_iff.mpr ⟨decide_eq_true (Int.le_refl _), ?_⟩⟩
      cases isUpTo : query.toDate with
      | none => rfl
      | some upTo =>
          have ordered : since.time ≤ upTo.time := by
            apply Int.not_lt.mp
            exact fun inverted => matched (Or.inr (Or.inl ⟨since, upTo, isSince, isUpTo, inverted⟩))
          exact decide_eq_true (Int.mul_le_mul_of_nonneg_right ordered (by decide))

/-- Without a queue the listing of dead jobs shows those of other queues. -/
theorem observes_dlq {query : ListDlqQuery} (allowed : record.scopes.contains .read = true)
    (matched : Not (Unmatched query.toPageQuery)) :
    Not (Unobserving config record now state queues (.dlq .absent (.ok query))) := by
  rcases exists_other_queue queues with ⟨queue, other, _⟩
  have admitted : checkRequest record .read QueryValue.absent.asString
      (validateBoth (validateQueue .absent) (.ok query)) = .ok (none, query) :=
    checkRequest_none_of_scoped allowed rfl
  have fits : (query.params none).fits = true := by
    by_contra refused
    exact matched (Or.inl (Bool.eq_false_iff.mpr refused))
  have died := exists_covered matched
  rcases died with ⟨time, covered⟩
  have checked := deadJob_checked 1 queue (query.type.getD "report")
    (query.reason.getD .attemptsExhausted) time
  have listsNone : Client.listDeadJobs ⟨query.params none, query.reason⟩ Tables.empty.db =
      some [] := PageParams.listing_of_none fits (fun _ member => absurd member List.not_mem_nil)
  have listsOne : Client.listDeadJobs ⟨query.params none, query.reason⟩
      (Tables.withJob _ checked).db = some [deadJob 1 queue (query.type.getD "report")
        (query.reason.getD .attemptsExhausted) time] := by
    apply PageParams.listing_singleton rfl fits
    unfold PageParams.selects
    simp only [Bool.and_eq_true]
    refine ⟨⟨⟨⟨⟨rfl, ?_⟩, rfl⟩, ?_⟩, covered⟩, ?_⟩
    · cases query.reason with
      | none => rfl
      | some reason => exact beq_self_eq_true _
    · show query.type.all _ = true
      cases query.type with
      | none => rfl
      | some type => exact beq_self_eq_true type
    · show query.cursor.all _ = true
      cases isCursor : query.cursor with
      | none => rfl
      | some cursor =>
          apply decide_eq_true
          apply Nat.lt_of_not_le
          exact fun low => matched (Or.inr (Or.inr ⟨cursor, isCursor, low⟩))
  apply not_unobserving_of_job checked Nat.one_pos other
  intro same
  simp only [read, readDlq, admitted, ServerState.on, listsNone, listsOne] at same
  exact respondPage_ne _ _ same

/-- A job of a fresh queue gives the statistics an entry. -/
theorem queueStats_withJob (collation : String -> String -> Bool) (shared : SharedObjects)
    {job : JobRow} (checked : job.Checked) (notPrototype : job.queue ≠ "__proto__")
    (notFunction : Not (job.queue ∈ inheritedFunctions))
    (notState : forall state : JobState, state.text ≠ job.queue) :
    Exists fun counts : QueueCounts =>
      Client.queueStats collation shared (Tables.withJob job checked).db = (shared, some counts) ∧
        objectEntries counts ≠ [] := by
  have rows : queueStatsRows collation (Tables.withJob job checked).db =
      [⟨job.queue, job.state, 1⟩] := by
    simp [queueStatsRows, Tables.withJob]
  have recorded := @recordCount_of_fresh shared ⟨job.queue, job.state, 1⟩ notPrototype notFunction
    notState
  refine ⟨InsertionMap.empty.set job.queue (InsertionMap.empty.set job.state 1), ?_, ?_⟩
  · unfold Client.queueStats
    rw [rows, recordCounts, recorded]
    rfl
  · intro none
    have length := length_objectEntries
      ((InsertionMap.empty : QueueCounts).set job.queue (InsertionMap.empty.set job.state 1))
    rw [none] at length
    cases length

/-- Some job of another queue gives the statistics an entry. -/
theorem exists_counted (queues : List String) (collation : String -> String -> Bool)
    (shared : SharedObjects) :
    Exists fun job : JobRow => Exists fun checked : job.Checked =>
      0 < job.id ∧ queues.contains job.queue = false ∧ Exists fun counts : QueueCounts =>
        Client.queueStats collation shared (Tables.withJob job checked).db = (shared, some counts) ∧
          objectEntries counts ≠ [] := by
  rcases exists_other_queue queues with ⟨queue, other, notPrototype, notFunction, notState⟩
  have checked := deadJob_checked 1 queue "report" .attemptsExhausted 0
  exact ⟨_, checked, Nat.one_pos, other,
    queueStats_withJob collation shared checked notPrototype notFunction notState⟩

theorem queueStats_empty (collation : String -> String -> Bool) (shared : SharedObjects) :
    Client.queueStats collation shared Tables.empty.db = (shared, some .empty) := rfl

/-- The statistics of all queues are shown. -/
theorem observes_queues (allowed : record.scopes.contains .read = true) :
    Not (Unobserving config record now state queues .queues) := by
  have admitted := checkRequest_none_of_scoped allowed (Eq.refl (Except.ok (ε := List Problem) ()))
  rcases exists_counted queues config.collation state.shared with
    ⟨job, checked, positive, other, counts, stats, nonempty⟩
  apply not_unobserving_of_job checked positive other
  intro same
  simp only [read, readQueues, admitted, ServerState.on, stats, queueStats_empty] at same
  have bodies := congrArg Response.body same
  simp only [Body.queues.injEq] at bodies
  exact nonempty (List.map_eq_nil_iff.mp bodies.symm)

/-- So are they on the event stream. -/
theorem observes_events (allowed : record.scopes.contains .read = true)
    (room : Not (config.sseMaxSubscribers ≤ state.subscribers)) :
    Not (Unobserving config record now state queues .events) := by
  have admitted := checkRequest_none_of_scoped allowed (Eq.refl (Except.ok (ε := List Problem) ()))
  rcases exists_counted queues config.collation state.shared with
    ⟨job, checked, positive, other, counts, stats, nonempty⟩
  apply not_unobserving_of_job checked positive other
  intro same
  simp only [read, readEvents, nextSnapshot, admitted, ServerState.on, room, if_false, stats,
    queueStats_empty] at same
  have bodies := congrArg Response.body same
  simp only [Option.map_some, Body.eventStream.injEq, Option.some.injEq] at bodies
  exact nonempty (List.map_eq_nil_iff.mp bodies.symm)

end Leaks

/-- Without the scope nothing is shown. -/
theorem confined_of_unscoped {config : ServerConfig} {record : ApiKeyRecord} {state : ServerState}
    (unscoped : record.scopes.contains .read = false) (request : ReadRequest) :
    Confined config record state request := by
  cases request with
  | job id => exact Or.inl unscoped
  | queues => exact unscoped
  | dlq queue query => exact Or.inl unscoped
  | schedules => exact Or.inl unscoped
  | schedule id => exact Or.inl unscoped
  | events => exact Or.inl unscoped
  | jobs queue query => exact trivial
  | queueConfig queue => exact trivial
  | unknown path => exact trivial

/-- A request of a restricted key is answered without regard to the other queues
exactly when it names a queue, or is refused before a row is looked at, or
cannot find anything. -/
theorem unobserving_iff_confined (config : ServerConfig) (record : ApiKeyRecord)
    (now : Timestamp) (state : ServerState) {queues : List String}
    (restricted : record.queues = some queues) (request : ReadRequest) :
    Unobserving config record now state queues request <->
      Confined config record state request := by
  refine ⟨fun unobserving => ?_, fun confined => confined.unobserving restricted⟩
  by_contra exposed
  revert unobserving
  cases allowed : record.scopes.contains .read with
  | false => exact absurd (confined_of_unscoped allowed request) exposed
  | true =>
      cases request with
      | job id =>
          exact observes_job restricted allowed (fun nameless => exposed (Or.inr nameless))
      | queues => exact observes_queues allowed
      | dlq queue query =>
          cases queue with
          | absent =>
              cases query with
              | error problems => exact absurd (Or.inr (Or.inr (fun _ none => nomatch none))) exposed
              | ok parsed =>
                  apply observes_dlq allowed
                  intro unmatched
                  exact exposed (Or.inr (Or.inr (fun _ same => Except.ok.inj same ▸ unmatched)))
          | text value => exact absurd (Or.inr (Or.inl QueryValue.noConfusion)) exposed
          | list => exact absurd (Or.inr (Or.inl QueryValue.noConfusion)) exposed
      | schedules =>
          exact observes_schedules allowed
            (Bool.eq_true_of_not_eq_false (fun disabled => exposed (Or.inr disabled)))
      | schedule id =>
          exact observes_schedule allowed
            (Bool.eq_true_of_not_eq_false (fun disabled => exposed (Or.inr (Or.inl disabled))))
            (fun nameless => exposed (Or.inr (Or.inr nameless)))
      | events => exact observes_events allowed (fun full => exposed (Or.inr full))
      | jobs queue query => exact absurd trivial exposed
      | queueConfig queue => exact absurd trivial exposed
      | unknown path => exact absurd trivial exposed

/-- A server without a scheduler. -/
def plainServer : ServerConfig where
  client := plainClient
  schedulerEnabled := false
  cron := ⟨fun _ _ _ => none, fun _ _ _ => ""⟩
  collation := fun first second => decide (first ≤ second)
  sseMaxSubscribers := 100

def plainState (tables : Tables) : ServerState := ⟨tables, newClient, ⟨[]⟩, 0⟩

/-- A key with all scopes for one queue. -/
def webKey : ApiKeyRecord := ⟨1, "web", allScopes, some ["web"]⟩

/-- The configuration of a queue is shown by its name. -/
theorem queueConfig_unobserving :
    Unobserving plainServer webKey 0 (plainState .empty) ["web"] (.queueConfig "web") <-> True :=
  unobserving_iff_confined plainServer webKey 0 (plainState .empty) rfl (.queueConfig "web")

/-- One job of the queue `mail`. -/
def mailTables : Tables :=
  ⟨run Database.step (.empty [] .empty) [⟨0, .insertJob (plainEnqueue 5)⟩], .empty⟩

/-- The key for `web` learns from two reads that `mail` holds a job. -/
theorem foreignJob_observed :
    Tables.Agree ["web"].contains .empty mailTables ∧
      Not (Unobserving plainServer webKey 0 (plainState .empty) ["web"] (.job "1")) ∧
        Not (Unobserving plainServer webKey 0 (plainState .empty) ["web"] .queues) := by
  have agree : Tables.Agree ["web"].contains .empty mailTables := by
    refine ⟨?_, .refl _ _, .refl _ _⟩
    intro row seen
    constructor
    · exact fun member => absurd member List.not_mem_nil
    · intro member
      rw [List.mem_singleton.mp member] at seen
      exact absurd seen (by decide)
  have numbered : mailTables.Numbered :=
    ⟨fun _ member => List.mem_singleton.mp member ▸ Nat.one_pos,
      fun _ member => absurd member List.not_mem_nil⟩
  refine ⟨agree, fun unobserving => ?_, fun unobserving => ?_⟩
  · have same := unobserving .empty mailTables Tables.empty_numbered numbered agree
    exact absurd (congrArg Response.status same) (by decide)
  · have same := unobserving .empty mailTables Tables.empty_numbered numbered agree
    exact absurd (congrArg Response.body same) (by decide)

end PgJobQ
