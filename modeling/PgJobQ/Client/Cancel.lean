import PgJobQ.Client.Administration

/-!
# Cancelling a job step by step

`cancel` tries the update for an available job, then the one for a running job,
and reads the job when neither has hit it.  Each is a transaction of its own,
and any other party may execute a statement between two of them.  A job can
pass both updates by: it is running at the first, back in its queue at the
second, and whatever it is then at the read.

The history lists what the call has seen of the database, newest first.  The
program keeps no such list.
-/

namespace PgJobQ

open Runs

/-- An id the column can hold. -/
structure BigintId where
  id : NumericId
  fits : id.fitsBigint = true

namespace BigintId

def value (id : BigintId) : Nat := id.id.value

def text (id : BigintId) : String := id.id.text

end BigintId

/-- What `cancel` awaits. -/
inductive CancelPhase where
  | cancelling
  | requesting
  | reading
  | returned (outcome : Except AdminError CancelResult)

structure CancelCall where
  db : Database
  phase : CancelPhase

/-- What the call sees: the commit of an update of its own, or the job it
reads. -/
inductive CancelEvent where
  | committed (commit : Commit)
  | read (job : Option JobRow)

inductive CancelLabel where
  | own (now : Timestamp)
  | other (call : Call)

/-- The error thrown for the job that is read. -/
def cancelRefusal (current : JobRow) : AdminError :=
  .invalidTransition current.state .cancelled (permittedTargets current.state)

namespace CancelCall

def start (db : Database) : CancelCall := ⟨db, .cancelling⟩

/-- What follows an update: `next` when it has hit no row. -/
def updated (call : CancelCall) (next : CancelPhase) (result : CancelResult) :
    Except AdminError Reply -> CancelCall
  | .error error => { call with phase := .returned (.error error) }
  | .ok reply =>
      ⟨reply.db, if reply.rows.isEmpty then next else .returned (.ok result)⟩

def step (id : BigintId) (call : CancelCall) : CancelLabel -> CancelCall
  | .own now =>
      match call.phase with
      | .cancelling =>
          call.updated .requesting ⟨.cancelled, true⟩
            (Client.query [id.id] (.cancelAvailableJob id.value) now call.db)
      | .requesting =>
          call.updated .reading ⟨.running, false⟩
            (Client.query [id.id] (.requestCancelRunningJob id.value) now call.db)
      | .reading =>
          { call with phase := .returned (.error (Client.refuse id.id call.db cancelRefusal)) }
      | .returned _ => call
  | .other other => { call with db := call.db.step other }

def event (id : BigintId) (call : CancelCall) : CancelLabel -> Option CancelEvent
  | .own now =>
      match call.phase with
      | .cancelling =>
          (call.db.commit ⟨now, .cancelAvailableJob id.value⟩).map .committed
      | .requesting =>
          (call.db.commit ⟨now, .requestCancelRunningJob id.value⟩).map .committed
      | .reading => some (.read (call.db.find id.value))
      | .returned _ => none
  | .other _ => none

/-- The call is under way. -/
def pending (call : CancelCall) : Bool :=
  match call.phase with
  | .returned _ => false
  | _ => true

end CancelCall

/-- A call with what it has seen, newest first. -/
abbrev CancelRun := Recorded CancelCall CancelEvent

namespace CancelRun

def step (id : BigintId) : CancelRun -> CancelLabel -> CancelRun :=
  recordStep (CancelCall.step id) (CancelCall.event id)

def start (db : Database) : CancelRun := ⟨.start db, []⟩

end CancelRun

/-- The statement of the call has hit its job. -/
def CancelEvent.Hits (id : Nat) (statement : Statement) (event : CancelEvent) : Prop :=
  Exists fun commit : Commit => event = .committed commit ∧ commit.statement = statement ∧
    (Exists fun row : JobRow => row ∈ commit.rows ∧ row.id = id)

/-- What an outcome of `cancel` stands for.  It is refused only for a job that
was read in a state the machine does not let it leave for `cancelled`. -/
def OutcomeSound (id : BigintId) (history : List CancelEvent) :
    Except AdminError CancelResult -> Prop
  | .ok ⟨.cancelled, true⟩ => Exists fun event : CancelEvent => event ∈ history ∧
      event.Hits id.value (.cancelAvailableJob id.value)
  | .ok ⟨.running, false⟩ => Exists fun event : CancelEvent => event ∈ history ∧
      event.Hits id.value (.requestCancelRunningJob id.value)
  | .error (.jobNotFound text) => text = id.text ∧ CancelEvent.read none ∈ history
  | .error (.invalidTransition state .cancelled permitted) =>
      canTransition state .cancelled = false ∧ permitted = permittedTargets state ∧
        Exists fun row : JobRow => CancelEvent.read (some row) ∈ history ∧ row.state = state
  | _ => False

/-- The outcome is sound once there is one. -/
def CancelSound (id : BigintId) (run : CancelRun) : Prop :=
  forall outcome, run.state.phase = .returned outcome -> OutcomeSound id run.history outcome

/-- The job is there and in a state that is not terminal, unless the call has
ended. -/
def LiveWhilePending (id : BigintId) (run : CancelRun) : Prop :=
  run.state.pending = true -> Exists fun row : JobRow =>
    run.state.db.find id.value = some row ∧ row.state.isTerminal = false

/-- `cancel` is refused only when the machine forbids it, and a job that could
be cancelled all the time is cancelled or asked to stop. -/
def CancelHonest (id : BigintId) (db : Database) (labels : List CancelLabel) : Prop :=
  Always (CancelRun.step id) (CancelSound id) (.start db) labels ∧
    (Always (CancelRun.step id) (LiveWhilePending id) (.start db) labels ->
      forall outcome, (run (CancelRun.step id) (.start db) labels).state.phase = .returned outcome ->
        Exists fun result : CancelResult => outcome = .ok result)

/-- When the call reads the job, both updates having passed it by, it is not
available or running again. -/
def ReadsSettled (id : BigintId) (run : CancelRun) (label : CancelLabel) : Prop :=
  match label, run.state.phase with
  | .own _, .reading => forall row, run.state.db.find id.value = some row ->
      row.state.isTerminal = true
  | _, _ => True

/-! ## One step of the call -/

/-- The states of the machine from which `cancelled` cannot be reached are the
terminal ones. -/
theorem canTransition_cancelled (state : JobState) :
    canTransition state .cancelled = !state.isTerminal := by
  cases state <;> decide

namespace CancelCall

/-- An update by id that always commits, as `query` runs it. -/
theorem query_commits {id : BigintId} {statement : Statement} {now : Timestamp} {db : Database}
    {reply : Reply} (committed : statement.exec now db = .ok reply) :
    Client.query [id.id] statement now db = .ok reply := by
  unfold Client.query
  rw [if_pos (by simp [id.fits]), committed]

end CancelCall

section

variable {id : BigintId} {run : CancelRun} {now : Timestamp} {label : CancelLabel}

/-- A step of another party changes nothing but the database. -/
theorem CancelSound.step_other (sound : CancelSound id run) (other : Call) :
    CancelSound id (run.step id (.other other)) :=
  sound

theorem cancelSound_of_pending (pending : run.state.pending = true) : CancelSound id run := by
  intro outcome returned
  unfold CancelCall.pending at pending
  rw [returned] at pending
  cases pending

/-- An update either passes the job by or ends the call having hit it. -/
theorem updated_cases {statement : Statement} {mutation : Mutation} {next : CancelPhase}
    {result : CancelResult} (updates : statement.mutation now run.state.db = some mutation)
    (named : forall row, mutation.hits row = true -> row.id = id.value)
    (commits : Exists fun reply : Reply => mutation.run run.state.db = .ok reply) :
    Exists fun commit : Commit => run.state.db.commit ⟨now, statement⟩ = some commit ∧
      (((run.state.updated next result
            (Client.query [id.id] statement now run.state.db)).phase = next) ∨
        ((run.state.updated next result
            (Client.query [id.id] statement now run.state.db)).phase = .returned (.ok result) ∧
          (CancelEvent.committed commit).Hits id.value statement)) := by
  rcases commits with ⟨reply, ran⟩
  have committed : statement.exec now run.state.db = .ok reply :=
    (Statement.exec_mutation updates).trans ran
  rw [CancelCall.query_commits committed]
  refine ⟨⟨run.state.db, now, statement, reply.rows⟩, ?_, ?_⟩
  · unfold Database.commit
    rw [committed]
  · unfold CancelCall.updated
    dsimp only
    cases returned : reply.rows with
    | nil => exact Or.inl rfl
    | cons row rows =>
        have listed : row ∈ reply.rows := by
          rw [returned]
          exact List.mem_cons_self
        rw [(Mutation.run_ok ran).2.1] at listed
        rcases Mutation.mem_returning.mp listed with ⟨old, member, hit, same⟩
        refine Or.inr ⟨rfl, _, rfl, rfl, row, List.mem_cons_self, ?_⟩
        rw [← same, mutation.keepsId]
        exact named old hit

/-- After an update the call goes on, or it returns what the update did. -/
theorem sound_of_update {statement : Statement} {mutation : Mutation} {next : CancelPhase}
    {result : CancelResult} (updates : statement.mutation now run.state.db = some mutation)
    (named : forall row, mutation.hits row = true -> row.id = id.value)
    (commits : Exists fun reply : Reply => mutation.run run.state.db = .ok reply)
    (moves : run.state.step id (.own now) = run.state.updated next result
      (Client.query [id.id] statement now run.state.db))
    (records : run.state.event id (.own now) =
      (run.state.db.commit ⟨now, statement⟩).map .committed)
    (waits : forall outcome, next ≠ .returned outcome)
    (means : forall history, (Exists fun event : CancelEvent => event ∈ history ∧
      event.Hits id.value statement) -> OutcomeSound id history (.ok result)) :
    CancelSound id (run.step id (.own now)) := by
  rcases @updated_cases id run now _ _ next result updates named commits with ⟨commit, made, after⟩
  have history : (run.step id (.own now)).history = .committed commit :: run.history := by
    show (run.state.event id (.own now)).toList ++ run.history = _
    rw [records, made]
    rfl
  have state : (run.step id (.own now)).state = run.state.updated next result
      (Client.query [id.id] statement now run.state.db) := moves
  intro outcome returned
  rw [state] at returned
  rcases after with goesOn | ⟨ends, hits⟩
  · exact absurd (goesOn.symm.trans returned) (waits outcome)
  · cases ends.symm.trans returned
    rw [history]
    exact means _ ⟨_, List.mem_cons_self, hits⟩

/-- Every own step that finds the job settled leads to a sound outcome. -/
theorem CancelSound.step_own (sound : CancelSound id run)
    (settled : ReadsSettled id run (.own now)) : CancelSound id (run.step id (.own now)) := by
  unfold ReadsSettled at settled
  cases phase : run.state.phase with
  | cancelling =>
      apply @sound_of_update id run now (.cancelAvailableJob id.value) _ .requesting
        ⟨.cancelled, true⟩ rfl
      · exact fun row hit => (named_iff.mp hit).1
      · exact cancelAvailableJob_commits run.state.db id.value now
      · simp only [CancelCall.step, phase]
      · simp only [CancelCall.event, phase]
      · exact fun _ => CancelPhase.noConfusion
      · exact fun _ hits => hits
  | requesting =>
      apply @sound_of_update id run now (.requestCancelRunningJob id.value) _ .reading
        ⟨.running, false⟩ rfl
      · exact fun row hit => (named_iff.mp hit).1
      · exact requestCancelRunningJob_commits run.state.db id.value now
      · simp only [CancelCall.step, phase]
      · simp only [CancelCall.event, phase]
      · exact fun _ => CancelPhase.noConfusion
      · exact fun _ hits => hits
  | reading =>
      have history : (run.step id (.own now)).history =
          .read (run.state.db.find id.value) :: run.history := by
        show (run.state.event id (.own now)).toList ++ run.history = _
        simp only [CancelCall.event, phase]
        rfl
      have refused : (run.step id (.own now)).state.phase =
          .returned (.error (Client.refuse id.id run.state.db cancelRefusal)) := by
        show (run.state.step id (.own now)).phase = _
        simp only [CancelCall.step, phase]
      intro outcome returned
      cases refused.symm.trans returned
      rw [history]
      rw [phase] at settled
      unfold Client.refuse Client.getJob
      rw [if_pos id.fits]
      cases found : run.state.db.find id.id.value with
      | none => exact ⟨rfl, List.mem_cons.mpr (Or.inl (congrArg _ found.symm))⟩
      | some row =>
          refine ⟨?_, rfl, row, List.mem_cons.mpr (Or.inl (congrArg _ found.symm)), rfl⟩
          rw [canTransition_cancelled, settled row found]
          rfl
  | returned outcome =>
      have stays : run.step id (.own now) = run := by
        show recordStep _ _ run (CancelLabel.own now) = run
        unfold recordStep
        simp only [CancelCall.step, CancelCall.event, phase]
        rfl
      rw [stays]
      exact sound

/-- A read that finds the job in a state the machine lets it leave refuses
what the machine allows. -/
theorem not_sound_of_unsettled (unsettled : Not (ReadsSettled id run label)) :
    Not (CancelSound id (run.step id label)) := by
  unfold ReadsSettled at unsettled
  split at unsettled
  · rename_i now phase
    push Not at unsettled
    rcases unsettled with ⟨row, found, live⟩
    have refused : (run.step id (.own now)).state.phase =
        .returned (.error (cancelRefusal row)) := by
      show (run.state.step id (.own now)).phase = _
      have present : Client.getJob id.id run.state.db = .ok row := by
        unfold Client.getJob
        rw [if_pos id.fits]
        have named : run.state.db.find id.id.value = some row := found
        rw [named]
      simp only [CancelCall.step, phase, Client.refuse, present]
    intro sound
    have forbidden := (sound _ refused).1
    rw [canTransition_cancelled] at forbidden
    exact live (by simpa using forbidden)
  · exact absurd trivial unsettled

/-- Only a read ends the call with an error. -/
theorem reading_of_error {error : AdminError}
    (thrown : (run.step id (.own now)).state.phase = .returned (.error error)) :
    run.state.phase = .reading ∨ run.state.phase = .returned (.error error) := by
  have after : (run.state.step id (.own now)).phase = .returned (.error error) := thrown
  cases phase : run.state.phase with
  | cancelling =>
      simp only [CancelCall.step, phase] at after
      rcases @updated_cases id run now (.cancelAvailableJob id.value) _ .requesting ⟨.cancelled, true⟩ rfl
        (fun row hit => (named_iff.mp hit).1)
        (cancelAvailableJob_commits run.state.db id.value now) with
        ⟨commit, made, goesOn | ⟨ends, hits⟩⟩
      · cases goesOn.symm.trans after
      · cases ends.symm.trans after
  | requesting =>
      simp only [CancelCall.step, phase] at after
      rcases @updated_cases id run now (.requestCancelRunningJob id.value) _ .reading ⟨.running, false⟩ rfl
        (fun row hit => (named_iff.mp hit).1)
        (requestCancelRunningJob_commits run.state.db id.value now) with
        ⟨commit, made, goesOn | ⟨ends, hits⟩⟩
      · cases goesOn.symm.trans after
      · cases ends.symm.trans after
  | reading => exact Or.inl rfl
  | returned outcome =>
      simp only [CancelCall.step, phase] at after
      exact Or.inr after

/-- A call that is not refused so far is not refused in a step that finds the
job live. -/
theorem granted_step (live : LiveWhilePending id run) (settled : ReadsSettled id run label)
    (granted : forall error, run.state.phase ≠ .returned (.error error)) :
    forall error, (run.step id label).state.phase ≠ .returned (.error error) := by
  intro error thrown
  cases label with
  | other call => exact granted error thrown
  | own now =>
      rcases reading_of_error thrown with phase | ended
      · have pending : run.state.pending = true := by
          unfold CancelCall.pending
          rw [phase]
        rcases live pending with ⟨row, found, nonterminal⟩
        unfold ReadsSettled at settled
        rw [phase] at settled
        exact Bool.noConfusion (nonterminal.symm.trans (settled row found))
      · exact granted error ended

end

/-! ## Runs of the call -/

/-- In every interleaving of the statements of `cancel` with those of other
parties, a job that stays live all the time is cancelled or asked to stop, if
no read finds it live. -/
theorem granted_of_live {id : BigintId} {start : CancelRun} {labels : List CancelLabel}
    (settled : EachStep (CancelRun.step id) (ReadsSettled id) start labels)
    (live : Always (CancelRun.step id) (LiveWhilePending id) start labels)
    (granted : forall error, start.state.phase ≠ .returned (.error error)) :
    forall error, (run (CancelRun.step id) start labels).state.phase ≠
      .returned (.error error) := by
  induction labels generalizing start with
  | nil => exact granted
  | cons label labels inductionHypothesis =>
      exact inductionHypothesis settled.2 live.2 (granted_step live.1 settled.1 granted)

/-- `cancel` is honest in an interleaving exactly when its read, if it comes to
one, does not find the job available or running again. -/
theorem cancel_honest_iff (id : BigintId) (db : Database) (labels : List CancelLabel) :
    CancelHonest id db labels <->
      EachStep (CancelRun.step id) (ReadsSettled id) (.start db) labels := by
  have sound_iff : Always (CancelRun.step id) (CancelSound id) (.start db) labels <->
      EachStep (CancelRun.step id) (ReadsSettled id) (.start db) labels := by
    apply @always_iff_eachStep _ _ (CancelRun.step id) (CancelSound id)
    · exact fun _ sound => sound
    · intro run label sound settled
      cases label with
      | own now => exact sound.step_own settled
      | other call => exact sound.step_other call
    · exact fun run label _ unsettled => not_sound_of_unsettled unsettled
    · exact cancelSound_of_pending rfl
  constructor
  · exact fun honest => sound_iff.mp honest.1
  · intro settled
    refine ⟨sound_iff.mpr settled, fun live outcome returned => ?_⟩
    cases outcome with
    | error error =>
        exact absurd returned
          (granted_of_live settled live (fun _ => CancelPhase.noConfusion) error)
    | ok result => exact ⟨result, rfl⟩

/-- The id of the first job. -/
def firstJob : BigintId := ⟨⟨"1", rfl⟩, by decide⟩

/-- The job is running at the first statement of the call, and its worker
releases it before the second. -/
def releasedBetween : List CancelLabel :=
  (claimedOnce 2).map .other ++ [.own (seconds 1),
    .other ⟨seconds 2, .releaseJob ⟨1, "w", 1⟩⟩, .own (seconds 3), .own (seconds 4)]

/-- The call is refused for a job that is available. -/
theorem cancel_refuses_available_job :
    Not (CancelHonest firstJob (.empty [] .empty) releasedBetween) := by
  intro honest
  have sound := (always_iff_forall_initial _ _ _ _).mp honest.1 _ List.prefix_rfl _ rfl
  exact absurd sound.1 (by decide)

/-! ## The call alone -/

/-- Left alone the call is `cancel`. -/
theorem run_own_eq_cancel (id : BigintId) (now later last : Timestamp) (db : Database) :
    (run (CancelCall.step id) (.start db) [.own now, .own later, .own last]) =
      ⟨(Client.cancel id.id now later db).1, .returned (Client.cancel id.id now later db).2⟩ := by
  unfold Client.cancel
  simp only [run, List.foldl, CancelCall.step, CancelCall.start, CancelCall.updated,
    BigintId.value]
  cases Client.query [id.id] (.cancelAvailableJob id.id.value) now db with
  | error error => rfl
  | ok cancelled =>
      dsimp only
      cases cancelled.rows.isEmpty with
      | false => rfl
      | true =>
          simp only [if_true]
          cases Client.query [id.id] (.requestCancelRunningJob id.id.value) later cancelled.db with
          | error error => rfl
          | ok requested =>
              dsimp only
              cases requested.rows.isEmpty with
              | false => rfl
              | true => rfl

end PgJobQ
