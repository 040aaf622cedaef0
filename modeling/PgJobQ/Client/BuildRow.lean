import PgJobQ.Library.InsertionMap
import PgJobQ.Statements.InsertDelete

/-!
# From a request to a row

What `Client` does before an enqueue reaches the database: it validates names,
bounds the payload, resolves the defaults of the queue through a short cache,
and turns options into the columns of an `EnqueueRow`.  An option that is not
given is `none`, and so is the time value of an invalid `Date`.  A text is what
the database stores of it.  The application clock is read once for each
`Date.now()`, and each reading may show any time.
-/

namespace PgJobQ

structure EnqueueOptions where
  priority : Option Int
  runAt : Option (Option Timestamp)
  delaySeconds : Option Int
  maxAttempts : Option Int
  leaseSeconds : Option Int
  idempotencyKey : Option String
  uniqueKey : Option String
  metadata : Option String
  traceContext : Option String
  deriving DecidableEq, Repr

structure ClientDefaults where
  maxAttempts : Int
  leaseSeconds : Int
  maxPayloadBytes : Nat
  deriving DecidableEq, Repr

/-- `DEFAULTS`. -/
def ClientDefaults.standard : ClientDefaults where
  maxAttempts := 5
  leaseSeconds := 30
  maxPayloadBytes := 262144

/-- The two kinds of error that reject a request before it is sent. -/
inductive RowError where
  | validation (message : String)
  | payloadTooLarge (message : String)
  deriving DecidableEq, Repr

def RowError.message : RowError -> String
  | validation message => message
  | payloadTooLarge message => message

structure QueueDefaultsRow where
  paused : Bool
  maxAttempts : Option Int
  leaseSeconds : Option Int
  priorityAging : Bool
  agingThresholdS : Option Int
  concurrencyLimit : Option Int
  deriving DecidableEq, Repr

/-- The counter `jobs_enqueued` as the list of its increments, newest first,
and the types that may label them. -/
structure Metrics where
  known : List String
  maxKnown : Nat
  jobsEnqueued : List (String × String)
  deriving DecidableEq, Repr

/-- A type is its own label while there is room to learn it. -/
def Metrics.labelType (type : String) (metrics : Metrics) : String × Metrics :=
  if metrics.known.contains type then (type, metrics)
  else if metrics.known.length < metrics.maxKnown then
    (type, { metrics with known := metrics.known ++ [type] })
  else ("other", metrics)

/-- `jobsEnqueued.inc`. -/
def Metrics.incEnqueued (queue type : String) (metrics : Metrics) : Metrics :=
  let labelled := metrics.labelType type
  { labelled.2 with jobsEnqueued := (queue, labelled.1) :: labelled.2.jobsEnqueued }

@[simp] theorem Metrics.length_incEnqueued (queue type : String) (metrics : Metrics) :
    (metrics.incEnqueued queue type).jobsEnqueued.length = metrics.jobsEnqueued.length + 1 := by
  unfold incEnqueued labelType
  split
  · rfl
  · split
    · rfl
    · rfl

/-- What a client is constructed with.  `clock n` is what `Date.now()` shows at
its `n`-th reading. -/
structure ClientConfig where
  defaults : ClientDefaults
  clock : Nat -> Timestamp

/-- What a client keeps between calls. -/
structure ClientState where
  queueCache : InsertionMap String (Timestamp × QueueDefaultsRow)
  metrics : Metrics
  readings : Nat

/-- `Date.now()`. -/
def dateNow (config : ClientConfig) (state : ClientState) : Timestamp × ClientState :=
  (config.clock state.readings, { state with readings := state.readings + 1 })

/-- The length of a string as JavaScript counts it, in UTF-16 code units. -/
def utf16Length (text : String) : Nat :=
  text.toList.foldl (fun units char => if char.toNat < 65536 then units + 1 else units + 2) 0

/-- `[a-zA-Z0-9._:-]`. -/
def nameChar (char : Char) : Bool :=
  char.isAlphanum || char == '.' || char == '_' || char == ':' || char == '-'

def validateName (value what : String) : Except RowError Unit :=
  if value = "" then .error (.validation (what ++ " is required"))
  else if 128 < utf16Length value then .error (.validation (what ++ " exceeds 128 characters"))
  else if value.toList.all nameChar then .ok ()
  else .error (.validation (what ++ " '" ++ value ++
    "' may contain only letters, digits, dot, underscore, colon, and hyphen"))

/-- `resolveQueueDefaults`: a row comes back for every queue. -/
def resolveQueueDefaults (queue : String) (db : Database) : QueueDefaultsRow :=
  match db.queueConfig.forQueue queue with
  | some row => {
      paused := row.paused
      maxAttempts := row.maxAttempts
      leaseSeconds := row.leaseSeconds
      priorityAging := row.priorityAging
      agingThresholdS := row.agingThresholdS
      concurrencyLimit := row.concurrencyLimit }
  | none => ⟨false, none, none, false, none, none⟩

/-- `queueCacheTtlMs`, in microseconds. -/
def queueCacheTtl : Timestamp := 5000 * 1000

/-- The cached defaults of a queue, while they are fresh. -/
def freshRow (cache : InsertionMap String (Timestamp × QueueDefaultsRow)) (queue : String)
    (now : Timestamp) : Option QueueDefaultsRow :=
  match cache.get queue with
  | some (savedAt, row) => if now - savedAt < queueCacheTtl then some row else none
  | none => none

/-- What the cache says about a queue, and the time it was asked. -/
def cachedDefaults (config : ClientConfig) (queue : String) (state : ClientState) :
    Option QueueDefaultsRow × Timestamp × ClientState :=
  let read := dateNow config state
  (freshRow state.queueCache queue read.1, read)

/-- `queueCache.set`, under the time read before the lookup was sent. -/
def saveDefaults (queue : String) (readAt : Timestamp) (row : QueueDefaultsRow)
    (state : ClientState) : ClientState :=
  { state with queueCache := state.queueCache.set queue (readAt, row) }

def queueDefaults (config : ClientConfig) (db : Database) (queue : String)
    (state : ClientState) : QueueDefaultsRow × ClientState :=
  match cachedDefaults config queue state with
  | (some row, _, next) => (row, next)
  | (none, readAt, next) =>
      (resolveQueueDefaults queue db, saveDefaults queue readAt (resolveQueueDefaults queue db) next)

/-- The checks `buildRow` makes before it asks for the defaults of the queue. -/
def checkOptions (config : ClientConfig) (payload : String) (options : EnqueueOptions) :
    Except RowError Unit :=
  if config.defaults.maxPayloadBytes < payload.utf8ByteSize then
    .error (.payloadTooLarge ("Payload is " ++ toString payload.utf8ByteSize ++
      " bytes, exceeding the maximum of " ++ toString config.defaults.maxPayloadBytes))
  else if options.runAt.isSome && options.delaySeconds.isSome then
    .error (.validation "Specify either runAt or delaySeconds, not both")
  else if options.delaySeconds.any (fun delay => decide (delay < 0)) then
    .error (.validation "delaySeconds cannot be negative")
  else .ok ()

/-- The rest of `buildRow`, once the defaults are there. -/
def rowWithDefaults (config : ClientConfig) (queue type payload : String)
    (options : EnqueueOptions) (qc : QueueDefaultsRow) (state : ClientState) :
    Except RowError EnqueueRow × ClientState :=
  let maxAttempts := (options.maxAttempts.or qc.maxAttempts).getD config.defaults.maxAttempts
  let leaseSeconds := (options.leaseSeconds.or qc.leaseSeconds).getD config.defaults.leaseSeconds
  if maxAttempts < 1 then (.error (.validation "maxAttempts must be at least 1"), state)
  else if leaseSeconds < 1 then (.error (.validation "leaseSeconds must be at least 1"), state)
  else
    let row := fun runAt : Option Timestamp => EnqueueRow.mk queue type payload options.metadata
      (options.priority.getD 0) maxAttempts leaseSeconds runAt options.idempotencyKey
      options.uniqueKey options.traceContext none
    match options.runAt, options.delaySeconds with
    | some none, _ => (.error (.validation "runAt is not a valid date"), state)
    | some (some time), _ => (.ok (row (some time)), state)
    | none, some delay =>
        if 0 < delay then
          let read := dateNow config state
          (.ok (row (some (read.1 + seconds delay))), read.2)
        else (.ok (row none), state)
    | none, none => (.ok (row none), state)

def buildRow (config : ClientConfig) (db : Database) (queue type payload : String)
    (options : EnqueueOptions) (state : ClientState) : Except RowError EnqueueRow × ClientState :=
  match checkOptions config payload options with
  | .error error => (.error error, state)
  | .ok () =>
      let qc := queueDefaults config db queue state
      rowWithDefaults config queue type payload options qc.1 qc.2

theorem queueDefaults_metrics (config : ClientConfig) (db : Database) (queue : String)
    (state : ClientState) : (queueDefaults config db queue state).2.metrics = state.metrics := by
  have metrics : (cachedDefaults config queue state).2.2.metrics = state.metrics := rfl
  unfold queueDefaults
  split
  · rename_i cached
    rw [cached] at metrics
    exact metrics
  · rename_i missed
    rw [missed] at metrics
    exact metrics

/-- The row carries what was asked for. -/
structure Carries (queue type payload : String) (options : EnqueueOptions) (row : EnqueueRow) :
    Prop where
  queue : row.queue = queue
  type : row.type = type
  payload : row.payload = payload
  metadata : row.metadata = options.metadata
  priority : row.priority = options.priority.getD 0
  idempotencyKey : row.idempotencyKey = options.idempotencyKey
  uniqueKey : row.uniqueKey = options.uniqueKey
  traceContext : row.traceContext = options.traceContext
  maxAttempts : options.maxAttempts ≠ none -> options.maxAttempts = some row.maxAttempts
  leaseSeconds : options.leaseSeconds ≠ none -> options.leaseSeconds = some row.leaseSeconds
  runAt : options.runAt ≠ none -> options.runAt = some row.runAt
  scheduleId : row.scheduleId = none

/-- A value that is given comes before the defaults. -/
theorem eq_some_getD_or {α : Type} {given : Option α} (isGiven : given ≠ none)
    (fallback : Option α) (last : α) : given = some ((given.or fallback).getD last) := by
  cases given with
  | none => exact absurd rfl isGiven
  | some value => rfl

theorem rowWithDefaults_ok {config : ClientConfig} {queue type payload : String}
    {options : EnqueueOptions} {qc : QueueDefaultsRow} {state next : ClientState}
    {row : EnqueueRow}
    (built : rowWithDefaults config queue type payload options qc state = (.ok row, next)) :
    Carries queue type payload options row ∧ next.metrics = state.metrics := by
  have carries : forall runAt : Option Timestamp,
      (options.runAt ≠ none -> options.runAt = some runAt) ->
      Carries queue type payload options ⟨queue, type, payload, options.metadata,
        options.priority.getD 0,
        (options.maxAttempts.or qc.maxAttempts).getD config.defaults.maxAttempts,
        (options.leaseSeconds.or qc.leaseSeconds).getD config.defaults.leaseSeconds, runAt,
        options.idempotencyKey, options.uniqueKey, options.traceContext, none⟩ := by
    intro runAt asked
    exact ⟨rfl, rfl, rfl, rfl, rfl, rfl, rfl, rfl, fun given => eq_some_getD_or given _ _,
      fun given => eq_some_getD_or given _ _, asked, rfl⟩
  unfold rowWithDefaults at built
  dsimp only at built
  split at built
  · cases built
  · split at built
    · cases built
    · split at built
      · cases built
      · rename_i time isTime
        cases built
        exact ⟨carries (some time) (fun _ => isTime), rfl⟩
      · rename_i notGiven _
        split at built
        · cases built
          exact ⟨carries _ (fun given => absurd notGiven given), rfl⟩
        · cases built
          exact ⟨carries none (fun given => absurd notGiven given), rfl⟩
      · rename_i notGiven _
        cases built
        exact ⟨carries none (fun given => absurd notGiven given), rfl⟩

/-- A row that was built carries what was asked for, and building it counts
nothing. -/
theorem buildRow_ok {config : ClientConfig} {db : Database} {queue type payload : String}
    {options : EnqueueOptions} {state next : ClientState} {row : EnqueueRow}
    (built : buildRow config db queue type payload options state = (.ok row, next)) :
    Carries queue type payload options row ∧ next.metrics = state.metrics := by
  unfold buildRow at built
  split at built
  · cases built
  · have finished := rowWithDefaults_ok built
    exact ⟨finished.1, finished.2.trans (queueDefaults_metrics config db queue state)⟩

/-! ## Keys, conflicts and lookups -/

/-- The id is `none` where the source reports the empty string. -/
structure EnqueueResult where
  id : Option Nat
  deduplicated : Bool
  deriving DecidableEq, Repr

inductive ClientError where
  | row (error : RowError)
  | conflict (message : String) (existingJobId : Option Nat)
  | database (error : DbError)
  deriving DecidableEq, Repr

/-- `findByIdempotencyKey`. -/
def findByIdempotencyKey (queue key : String) (db : Database) : List Nat :=
  (db.job.rows.filter (fun row => row.queue == queue && row.idempotencyKey == some key)).map
    JobRow.id

/-- `findByUniqueKey`. -/
def findByUniqueKey (queue key : String) (db : Database) : List Nat :=
  (db.job.rows.filter (fun row => row.queue == queue && row.uniqueKey == some key &&
    row.state.isActive)).map JobRow.id

theorem findByIdempotencyKey_head {queue key : String} {db : Database} {holder : JobRow}
    (member : holder ∈ db.job.rows) (sameQueue : holder.queue = queue)
    (same : holder.idempotencyKey = some key) :
    (findByIdempotencyKey queue key db).head? = some holder.id := by
  have unique : db.job.rows.filter (fun row => row.queue == queue &&
      row.idempotencyKey == some key) = [holder] := by
    have isKey : holder.idempotencyIdx = some (queue, key) := by
      rw [JobRow.idempotencyIdx, same, sameQueue]
      rfl
    have alone := db.job.constraints.idempotencyIdx.filter_eq_singleton member isKey
    rw [← alone]
    apply List.filter_congr
    intro row _
    cases stored : row.idempotencyKey with
    | none => simp [JobRow.idempotencyIdx, stored]
    | some other => simp [JobRow.idempotencyIdx, stored, Bool.decide_and, beq_eq_decide]
  rw [findByIdempotencyKey, unique]
  rfl

theorem mem_findByIdempotencyKey {queue key : String} {db : Database} {id : Nat} :
    id ∈ findByIdempotencyKey queue key db <-> Exists fun row : JobRow =>
      row ∈ db.job.rows ∧ row.id = id ∧ row.queue = queue ∧ row.idempotencyKey = some key := by
  simp only [findByIdempotencyKey, List.mem_map, List.mem_filter, Bool.and_eq_true, beq_iff_eq]
  constructor
  · rintro ⟨row, ⟨member, held⟩, same⟩
    exact ⟨row, member, same, held⟩
  · rintro ⟨row, member, same, held⟩
    exact ⟨row, ⟨member, held⟩, same⟩

/-- The idempotency key and the unique key of a request. -/
abbrev Keys := Option String × Option String

def EnqueueRow.keys (row : EnqueueRow) : Keys := (row.idempotencyKey, row.uniqueKey)

/-- No row of the queue holds the idempotency key, and no active row of it
holds the unique key. -/
def KeysFree (queue : String) (keys : Keys) (db : Database) : Prop :=
  forall row, row ∈ db.job.rows -> row.queue = queue ->
    (keys.1 ≠ none -> row.idempotencyKey ≠ keys.1) ∧
      (keys.2 ≠ none -> row.state.isActive = true -> row.uniqueKey ≠ keys.2)

/-- An insert is dropped exactly when one of its keys is taken. -/
theorem conflicts_iff {db : Database} {row : EnqueueRow} {now : Timestamp} :
    conflicts db.job.rows (row.toJobRow db.nextId now) = true <->
      Not (KeysFree row.queue row.keys db) := by
  have active : (row.toJobRow db.nextId now).state.isActive = true := rfl
  simp only [conflicts, List.any_eq_true, Bool.or_eq_true, idempotencyIdx_eq_iff,
    uniqueActiveIdx_eq_iff active, KeysFree, not_forall]
  constructor
  · rintro ⟨old, member, (same | idempotent) | unique⟩
    · have sameId : old.id = db.nextId := Option.some.inj (beq_iff_eq.mp same)
      exact absurd sameId (Nat.ne_of_lt (db.identity old member))
    · exact ⟨old, member, idempotent.2.1, fun free => free.1 idempotent.1 idempotent.2.2⟩
    · exact ⟨old, member, unique.2.1, fun free => free.2 unique.1 unique.2.2.1 unique.2.2.2⟩
  · rintro ⟨old, member, sameQueue, taken⟩
    refine ⟨old, member, ?_⟩
    by_cases idempotent : row.idempotencyKey ≠ none ∧ old.idempotencyKey = row.idempotencyKey
    · exact Or.inl (Or.inr ⟨idempotent.1, sameQueue, idempotent.2⟩)
    · by_cases unique : row.uniqueKey ≠ none ∧ old.state.isActive = true ∧
        old.uniqueKey = row.uniqueKey
      · exact Or.inr ⟨unique.1, sameQueue, unique.2.1, unique.2.2⟩
      · refine absurd ⟨?_, ?_⟩ taken
        · exact fun keyed same => idempotent ⟨keyed, same⟩
        · exact fun keyed isActive same => unique ⟨keyed, isActive, same⟩

end PgJobQ
