import PgJobQ.Client.Enqueue
import PgJobQ.Scheduler.Tick

/-!
# The defaults of scheduled jobs

`Client.enqueue` takes the attempts and the lease of a job from the
configuration of its queue, and where that is silent from the defaults of the
client.  A tick writes the numbers itself.  The two agree where the numbers
that apply to the queue happen to be the ones a tick writes.
-/

namespace PgJobQ

/-- A request with no options. -/
def EnqueueOptions.none : EnqueueOptions :=
  ⟨Option.none, Option.none, Option.none, Option.none, Option.none, Option.none, Option.none,
    Option.none, Option.none⟩

/-- The row a call is about to insert. -/
def EnqueuePhase.sends : EnqueuePhase -> Option EnqueueRow
  | inserting row => some row
  | _ => Option.none

/-- The row `Client.enqueue` inserts, when nothing else happens before it does. -/
def Client.enqueueRow (config : ClientConfig) (request : EnqueueRequest) (db : Database)
    (state : ClientState) : Option EnqueueRow :=
  let begun := request.begin config state
  match begun.1 with
  | .resolving readAt =>
      ((EnqueueCall.mk request (.resolving readAt)).advance config 0 db begun.2).phase.sends
  | phase => phase.sends

/-- What the client goes by for a queue: its cache while that is fresh, and
`queue_config` otherwise. -/
def applicableDefaults (config : ClientConfig) (db : Database) (queue : String)
    (state : ClientState) : QueueDefaultsRow :=
  (freshRow state.queueCache queue (config.clock state.readings)).getD (resolveQueueDefaults queue db)

def applicableMaxAttempts (config : ClientConfig) (db : Database) (queue : String)
    (state : ClientState) : Int :=
  (applicableDefaults config db queue state).maxAttempts.getD config.defaults.maxAttempts

def applicableLeaseSeconds (config : ClientConfig) (db : Database) (queue : String)
    (state : ClientState) : Int :=
  (applicableDefaults config db queue state).leaseSeconds.getD config.defaults.leaseSeconds

/-- The request with the queue, the type and the payload of a schedule and no
options. -/
def DueScheduleRow.request (due : DueScheduleRow) : EnqueueRequest where
  client := 0
  queue := due.queue
  type := due.type
  payload := due.payload
  options := .none

/-- The client does not refuse to enqueue the job of the schedule. -/
structure Enqueueable (config : ClientConfig) (db : Database) (state : ClientState)
    (due : DueScheduleRow) : Prop where
  queue : validateName due.queue "queue" = .ok ()
  type : validateName due.type "type" = .ok ()
  payload : due.payload.utf8ByteSize ≤ config.defaults.maxPayloadBytes
  maxAttempts : 1 ≤ applicableMaxAttempts config db due.queue state
  leaseSeconds : 1 ≤ applicableLeaseSeconds config db due.queue state

/-- The row of an occurrence agrees with the row the client would insert now. -/
def AgreesWithEnqueue (config : ClientConfig) (db : Database) (state : ClientState)
    (due : DueScheduleRow) : Prop :=
  forall key row, Client.enqueueRow config due.request db state = some row ->
    (due.occurrence key).maxAttempts = row.maxAttempts ∧
      (due.occurrence key).leaseSeconds = row.leaseSeconds ∧
        (due.occurrence key).priority = row.priority

/-- The row with the numbers that apply to the queue. -/
def DueScheduleRow.directRow (due : DueScheduleRow) (maxAttempts leaseSeconds : Int) : EnqueueRow :=
  ⟨due.queue, due.type, due.payload, none, 0, maxAttempts, leaseSeconds, none, none, none, none, none⟩

/-- The last checks of `buildRow`. -/
def DueScheduleRow.checkedRow (due : DueScheduleRow) (maxAttempts leaseSeconds : Int) :
    Option EnqueueRow :=
  if maxAttempts < 1 then none
  else if leaseSeconds < 1 then none
  else some (due.directRow maxAttempts leaseSeconds)

theorem checkedRow_eq_some_iff {due : DueScheduleRow} {maxAttempts leaseSeconds : Int}
    {row : EnqueueRow} : due.checkedRow maxAttempts leaseSeconds = some row <->
      1 ≤ maxAttempts ∧ 1 ≤ leaseSeconds ∧ row = due.directRow maxAttempts leaseSeconds := by
  unfold DueScheduleRow.checkedRow
  split
  · rename_i few
    constructor
    · intro sent
      cases sent
    · exact fun enough => absurd few (Int.not_lt.mpr enough.1)
  · rename_i attempts
    split
    · rename_i short
      constructor
      · intro sent
        cases sent
      · exact fun enough => absurd short (Int.not_lt.mpr enough.2.1)
    · rename_i lease
      rw [Option.some_inj, eq_comm]
      exact ⟨fun same => ⟨Int.not_lt.mp attempts, Int.not_lt.mp lease, same⟩,
        fun enough => enough.2.2⟩

theorem sends_withDefaults (config : ClientConfig) (due : DueScheduleRow) (qc : QueueDefaultsRow)
    (state : ClientState) :
    (due.request.withDefaults config qc state).1.sends =
      due.checkedRow (qc.maxAttempts.getD config.defaults.maxAttempts)
        (qc.leaseSeconds.getD config.defaults.leaseSeconds) := by
  unfold EnqueueRequest.withDefaults rowWithDefaults DueScheduleRow.request EnqueueOptions.none
    DueScheduleRow.checkedRow
  dsimp only
  rw [Option.none_or, Option.none_or]
  split
  · rename_i row next built
    split at built
    · cases built
    · split at built
      · cases built
      · rename_i attempts lease
        cases built
        rw [if_neg attempts, if_neg lease]
        rfl
  · rename_i error next built
    split at built
    · rename_i attempts
      rw [if_pos attempts]
      rfl
    · rename_i attempts
      split at built
      · rename_i lease
        rw [if_neg attempts, if_pos lease]
        rfl
      · cases built

/-- With the defaults at hand nothing is looked up. -/
theorem withDefaults_settled (config : ClientConfig) (request : EnqueueRequest)
    (qc : QueueDefaultsRow) (state : ClientState) (readAt : Timestamp) :
    (request.withDefaults config qc state).1 ≠ .resolving readAt := by
  unfold EnqueueRequest.withDefaults
  split <;> exact EnqueuePhase.noConfusion

theorem checkOptions_none (config : ClientConfig) (payload : String) :
    checkOptions config payload .none = .ok () <->
      payload.utf8ByteSize ≤ config.defaults.maxPayloadBytes := by
  unfold checkOptions EnqueueOptions.none
  split
  · rename_i large
    constructor
    · intro refused
      cases refused
    · exact fun small => absurd large (Nat.not_lt.mpr small)
  · rename_i small
    exact ⟨fun _ => Nat.not_lt.mp small, fun _ => rfl⟩

/-- A request that passes the checks is resolved, from the cache or with a
lookup. -/
theorem enqueueRow_of_valid {config : ClientConfig} {db : Database} {state : ClientState}
    {due : DueScheduleRow} (queue : validateName due.queue "queue" = .ok ())
    (type : validateName due.type "type" = .ok ())
    (payload : due.payload.utf8ByteSize ≤ config.defaults.maxPayloadBytes) :
    Client.enqueueRow config due.request db state =
      due.checkedRow (applicableMaxAttempts config db due.queue state)
        (applicableLeaseSeconds config db due.queue state) := by
  have checked : checkOptions config due.request.payload due.request.options = .ok () :=
    (checkOptions_none config due.payload).mpr payload
  have named : validateName due.request.queue "queue" = .ok () := queue
  have typed : validateName due.request.type "type" = .ok () := type
  unfold applicableMaxAttempts applicableLeaseSeconds applicableDefaults
  unfold Client.enqueueRow EnqueueRequest.begin
  rw [named, typed, checked]
  unfold cachedDefaults dateNow
  cases cached : freshRow state.queueCache due.queue (config.clock state.readings) with
  | none =>
      have missed : freshRow state.queueCache due.request.queue (config.clock state.readings) =
          none := cached
      simp only [missed, EnqueueCall.advance]
      exact sends_withDefaults config due _ _
  | some qc =>
      have hit : freshRow state.queueCache due.request.queue (config.clock state.readings) =
          some qc := cached
      simp only [hit, Option.getD_some]
      rw [← sends_withDefaults config due qc ⟨state.queueCache, state.metrics, state.readings + 1⟩]
      split
      · rename_i readAt resolving
        exact absurd resolving (withDefaults_settled config due.request qc _ readAt)
      · rfl

/-- A request that fails a check is refused. -/
theorem valid_of_enqueueRow {config : ClientConfig} {db : Database} {state : ClientState}
    {due : DueScheduleRow} {row : EnqueueRow}
    (sent : Client.enqueueRow config due.request db state = some row) :
    validateName due.queue "queue" = .ok () ∧ validateName due.type "type" = .ok () ∧
      due.payload.utf8ByteSize ≤ config.defaults.maxPayloadBytes := by
  unfold Client.enqueueRow EnqueueRequest.begin DueScheduleRow.request at sent
  dsimp only at sent
  cases queue : validateName due.queue "queue" with
  | error error =>
      rw [queue] at sent
      cases sent
  | ok named =>
      cases type : validateName due.type "type" with
      | error error =>
          rw [queue, type] at sent
          cases sent
      | ok typed =>
          cases checked : checkOptions config due.payload .none with
          | error error =>
              rw [queue, type, checked] at sent
              cases sent
          | ok accepted => exact ⟨rfl, rfl, (checkOptions_none config due.payload).mp checked⟩

/-- The client inserts the numbers that apply to the queue, unless it refuses. -/
theorem enqueueRow_eq_some_iff (config : ClientConfig) (db : Database) (state : ClientState)
    (due : DueScheduleRow) (row : EnqueueRow) :
    Client.enqueueRow config due.request db state = some row <->
      Enqueueable config db state due ∧
        row = due.directRow (applicableMaxAttempts config db due.queue state)
          (applicableLeaseSeconds config db due.queue state) := by
  constructor
  · intro sent
    have valid := valid_of_enqueueRow sent
    rw [enqueueRow_of_valid valid.1 valid.2.1 valid.2.2] at sent
    have numbers := checkedRow_eq_some_iff.mp sent
    exact ⟨⟨valid.1, valid.2.1, valid.2.2, numbers.1, numbers.2.1⟩, numbers.2.2⟩
  · rintro ⟨accepted, same⟩
    rw [enqueueRow_of_valid accepted.queue accepted.type accepted.payload]
    exact checkedRow_eq_some_iff.mpr ⟨accepted.maxAttempts, accepted.leaseSeconds, same⟩

/-- The row of an occurrence agrees with the row the client would insert
exactly when the client refuses, or the numbers that apply to the queue are 5
attempts and a lease of 30 seconds. -/
theorem schedule_defaults_iff (config : ClientConfig) (db : Database) (state : ClientState)
    (due : DueScheduleRow) : AgreesWithEnqueue config db state due <->
      (Enqueueable config db state due ->
        applicableMaxAttempts config db due.queue state = 5 ∧
          applicableLeaseSeconds config db due.queue state = 30) := by
  constructor
  · intro agrees accepted
    have same := agrees "" _ ((enqueueRow_eq_some_iff config db state due _).mpr ⟨accepted, rfl⟩)
    exact ⟨same.1.symm, same.2.1.symm⟩
  · intro standard key row sent
    rcases (enqueueRow_eq_some_iff config db state due row).mp sent with ⟨accepted, rfl⟩
    have numbers := standard accepted
    exact ⟨numbers.1.symm, numbers.2.symm, rfl⟩

/-- A client that allows three attempts by default. -/
def threeAttempts : ClientConfig := ⟨⟨3, 30, 262144⟩, fun _ => 0⟩

def mailDue : DueScheduleRow :=
  ⟨1, "nightly", "mail", "send", "{}", "0 3 * * *", "UTC", .runOnce, 0⟩

/-- A queue without a configuration row gets three attempts from the client and
five from the scheduler. -/
theorem scheduled_attempts_differ :
    Not (AgreesWithEnqueue threeAttempts (.empty [] .empty) ⟨.empty, ⟨[], 100, []⟩, 0⟩ mailDue) := by
  intro agrees
  have same := (agrees "" _ rfl).1
  exact absurd same (by decide)

end PgJobQ
