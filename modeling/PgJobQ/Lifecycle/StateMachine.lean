import PgJobQ.Statements.Effects

/-!
# The declared state machine, and the statements as its refinement

`state-machine.ts` declares the permitted transitions in a table of their own.
The SQL statements do not consult it: each of them decides with its `WHERE`
guard and `CASE` branches.  The two descriptions are compared here.  Every row
changed by an `UPDATE`, from any table and with any parameters, moves along
the declared table, and every entry of the table is taken by the statement its
reason stands for.
-/

namespace PgJobQ

open Runs

inductive TransitionReason where
  | enqueue
  | claim
  | succeed
  | retry
  | exhaust
  | nonRetryable
  | reapRetry
  | reapExhaust
  | cancel
  | cancelAck
  | operatorRetry
  | replay
  deriving DecidableEq, Repr

structure Transition where
  fromState : JobState
  toState : JobState
  reason : TransitionReason
  deriving DecidableEq, Repr

/-- `TRANSITIONS`: anything absent here is forbidden. -/
def transitions : List Transition := [
  ⟨.available, .running, .claim⟩,
  ⟨.available, .cancelled, .cancel⟩,
  ⟨.running, .succeeded, .succeed⟩,
  ⟨.running, .available, .retry⟩,
  ⟨.running, .dead, .exhaust⟩,
  ⟨.running, .dead, .nonRetryable⟩,
  ⟨.running, .available, .reapRetry⟩,
  ⟨.running, .dead, .reapExhaust⟩,
  ⟨.running, .cancelled, .cancelAck⟩,
  ⟨.dead, .available, .replay⟩,
  ⟨.available, .available, .operatorRetry⟩]

/-- The set `PERMITTED` keeps for a state, in insertion order. -/
def permittedTargets (state : JobState) : List JobState :=
  ((transitions.filter (fun t => t.fromState == state)).map (·.toState)).eraseDups

def canTransition (source target : JobState) : Bool :=
  (permittedTargets source).contains target

/-- The terminal states of the table are `TERMINAL_STATES`, up to the replay of
a dead job. -/
theorem permittedTargets_terminal (state : JobState) :
    state.isTerminal = true -> state ≠ .dead -> permittedTargets state = [] := by
  cases state <;> decide

/-! ## One changed row -/

/-- What the declared machine allows a statement to do to one row. -/
structure Conforms (statement : Statement) (old new : JobRow) : Prop where
  transition : old.state = new.state ∨ canTransition old.state new.state = true
  notSucceeded : old.state ≠ .succeeded
  notCancelled : old.state ≠ .cancelled
  deadByReplay : old.state = .dead -> statement.isReplay = true
  counted : old.state = .available -> new.state = .running -> new.attempt = old.attempt + 1
  reset : old.state = .dead -> new.state = .available -> new.attempt = 0
  onlyThere : new.attempt ≠ old.attempt ->
    (old.state = .available ∧ new.state = .running) ∨ (old.state = .dead ∧ new.state = .available)

/-- A step out of `running` that keeps the attempt counter conforms as soon as
its target is permitted. -/
theorem Conforms.ofRunning {statement : Statement} {old new : JobRow}
    (started : old.state = .running)
    (target : new.state = .running ∨ canTransition .running new.state = true)
    (sameAttempt : new.attempt = old.attempt) : Conforms statement old new where
  transition := by
    rcases target with stays | moves
    · exact Or.inl (started.trans stays.symm)
    · exact Or.inr (by rw [started]; exact moves)
  notSucceeded := by rw [started]; decide
  notCancelled := by rw [started]; decide
  deadByReplay := by rw [started]; intro impossible; cases impossible
  counted := by rw [started]; intro impossible; cases impossible
  reset := by rw [started]; intro impossible; cases impossible
  onlyThere := fun different => absurd sameAttempt different

/-- Every listed step of a row conforms to the declared machine. -/
theorem RowStep.conforms {now : Timestamp} {statement : Statement} {old new : JobRow}
    (step : RowStep now statement old new) : Conforms statement old new := by
  cases step with
  | claim claims queue ready due =>
      exact {
        transition := Or.inr (by rw [ready]; rfl)
        notSucceeded := by rw [ready]; decide
        notCancelled := by rw [ready]; decide
        deadByReplay := by rw [ready]; intro impossible; cases impossible
        counted := fun _ _ => rfl
        reset := by rw [ready]; intro impossible; cases impossible
        onlyThere := fun _ => Or.inl ⟨ready, rfl⟩ }
  | complete owned => exact .ofRunning (FenceParams.owns_iff.mp owned).2.1 (Or.inr rfl) rfl
  | failNonRetryable owned final =>
      exact .ofRunning (FenceParams.owns_iff.mp owned).2.1 (Or.inr rfl) rfl
  | failExhausted owned retryable exhausted =>
      exact .ofRunning (FenceParams.owns_iff.mp owned).2.1 (Or.inr rfl) rfl
  | failRetry owned retryable remaining =>
      exact .ofRunning (FenceParams.owns_iff.mp owned).2.1 (Or.inr rfl) rfl
  | heartbeat owned =>
      have started := (FenceParams.owns_iff.mp owned).2.1
      exact .ofRunning started (Or.inl started) rfl
  | acknowledge owned requested =>
      exact .ofRunning (FenceParams.owns_iff.mp owned).2.1 (Or.inr rfl) rfl
  | release owned => exact .ofRunning (FenceParams.owns_iff.mp owned).2.1 (Or.inr rfl) rfl
  | reapExhausted expired exhausted =>
      exact .ofRunning (leaseExpired_iff.mp expired).1 (Or.inr rfl) rfl
  | reapRetry expired remaining =>
      exact .ofRunning (leaseExpired_iff.mp expired).1 (Or.inr rfl) rfl
  | cancelAvailable same waiting =>
      exact {
        transition := Or.inr (by rw [waiting]; rfl)
        notSucceeded := by rw [waiting]; decide
        notCancelled := by rw [waiting]; decide
        deadByReplay := by rw [waiting]; intro impossible; cases impossible
        counted := fun _ impossible => by cases impossible
        reset := by rw [waiting]; intro impossible; cases impossible
        onlyThere := fun different => absurd rfl different }
  | requestCancel same started => exact .ofRunning started (Or.inl started) rfl
  | retryNow same waiting =>
      exact {
        transition := Or.inl rfl
        notSucceeded := by rw [waiting]; decide
        notCancelled := by rw [waiting]; decide
        deadByReplay := by rw [waiting]; intro impossible; cases impossible
        counted := fun _ started => absurd (waiting.symm.trans started) (by decide)
        reset := by rw [waiting]; intro impossible; cases impossible
        onlyThere := fun different => absurd rfl different }
  | replay replays buried =>
      exact {
        transition := Or.inr (by rw [buried]; rfl)
        notSucceeded := by rw [buried]; decide
        notCancelled := by rw [buried]; decide
        deadByReplay := fun _ => replays
        counted := by rw [buried]; intro impossible; cases impossible
        reset := fun _ _ => rfl
        onlyThere := fun _ => Or.inr ⟨buried, rfl⟩ }

/-! ## Every entry is taken -/

/-- The reason a statement acts on when it changes the row, if the table lists
one. -/
def transitionReason (job : JobRow) : Statement -> Option TransitionReason
  | .claimJobs _ _ => some .claim
  | .claimJobsWithAging _ _ _ => some .claim
  | .completeJob _ => some .succeed
  | .failJob p =>
      if p.nonRetryable then some .nonRetryable
      else if job.maxAttempts ≤ job.attempt then some .exhaust else some .retry
  | .acknowledgeCancellation _ => some .cancelAck
  | .reapExpiredLeases _ _ =>
      if job.maxAttempts ≤ job.attempt then some .reapExhaust else some .reapRetry
  | .cancelAvailableJob _ => some .cancel
  | .retryJobNow _ => some .operatorRetry
  | .replayDeadJob _ => some .replay
  | .replayDeadJobs _ => some .replay
  | _ => none

/-- The call, made after the earlier ones, moves a row along the transition. -/
def takes (db : Database) (earlier : List Call) (call : Call) (t : Transition) : Bool :=
  let before := run Database.step db earlier
  match call.statement.exec call.now before with
  | .error _ => false
  | .ok reply => before.job.rows.any (fun old => reply.rows.any (fun new =>
      old.id == new.id && old.state == t.fromState && new.state == t.toState &&
        transitionReason old call.statement == some t.reason))

/-- Some run from the empty database takes the transition. -/
def Realised (t : Transition) : Prop :=
  Exists fun earlier : List Call => Exists fun call : Call =>
    takes (.empty [] .empty) earlier call t = true

/-- An enqueue on one queue, with a choice of attempts and nothing else set. -/
def plainEnqueue (maxAttempts : Int) : EnqueueRow where
  queue := "mail"
  type := "send"
  payload := "{}"
  metadata := none
  priority := 0
  maxAttempts := maxAttempts
  leaseSeconds := 30
  runAt := none
  idempotencyKey := none
  uniqueKey := none
  traceContext := none
  scheduleId := none

def plainError : JobErrorRecord := ⟨1, 0, .handlerError, none, none, none, none⟩

/-- Enqueue one job and let worker `w` claim it. -/
def claimedOnce (maxAttempts : Int) : List Call :=
  [⟨0, .insertJob (plainEnqueue maxAttempts)⟩, ⟨0, .claimJobs ⟨"mail", 1, "w"⟩ []⟩]

theorem transitions_realised : forall t, t ∈ transitions -> Realised t := by
  simp only [transitions, List.forall_mem_cons, List.not_mem_nil, false_imp_iff,
    implies_true, and_true]
  refine ⟨?claim, ?cancel, ?succeed, ?retry, ?exhaust, ?nonRetryable, ?reapRetry, ?reapExhaust,
    ?cancelAck, ?replay, ?operatorRetry⟩
  case claim =>
    exact ⟨[⟨0, .insertJob (plainEnqueue 2)⟩], ⟨0, .claimJobs ⟨"mail", 1, "w"⟩ []⟩, by decide⟩
  case cancel =>
    exact ⟨[⟨0, .insertJob (plainEnqueue 2)⟩], ⟨0, .cancelAvailableJob 1⟩, by decide⟩
  case operatorRetry =>
    exact ⟨[⟨0, .insertJob (plainEnqueue 2)⟩], ⟨0, .retryJobNow 1⟩, by decide⟩
  case succeed => exact ⟨claimedOnce 2, ⟨0, .completeJob ⟨1, "w", 1⟩⟩, by decide⟩
  case retry =>
    exact ⟨claimedOnce 2, ⟨0, .failJob ⟨⟨1, "w", 1⟩, false, 0, 5, plainError⟩⟩, by decide⟩
  case exhaust =>
    exact ⟨claimedOnce 1, ⟨0, .failJob ⟨⟨1, "w", 1⟩, false, 0, 5, plainError⟩⟩, by decide⟩
  case nonRetryable =>
    exact ⟨claimedOnce 2, ⟨0, .failJob ⟨⟨1, "w", 1⟩, true, 0, 5, plainError⟩⟩, by decide⟩
  case reapRetry =>
    exact ⟨claimedOnce 2, ⟨seconds 31, .reapExpiredLeases ⟨10, 0⟩ []⟩, by decide⟩
  case reapExhaust =>
    exact ⟨claimedOnce 1, ⟨seconds 31, .reapExpiredLeases ⟨10, 0⟩ []⟩, by decide⟩
  case cancelAck =>
    exact ⟨claimedOnce 2 ++ [⟨0, .requestCancelRunningJob 1⟩],
      ⟨0, .acknowledgeCancellation ⟨1, "w", 1⟩⟩, by decide⟩
  case replay =>
    exact ⟨claimedOnce 1 ++ [⟨seconds 31, .reapExpiredLeases ⟨10, 0⟩ []⟩],
      ⟨seconds 31, .replayDeadJob 1⟩, by decide⟩

/-- The statements refine the declared machine: rows an `UPDATE` returns have
moved along it, rows it does not return are as they were, and each entry of
the table is realised by a statement of its reason in a reachable state. -/
theorem statements_refine_transitions :
    (forall (now : Timestamp) (db : Database) (statement : Statement) (mutation : Mutation)
      (reply : Reply), statement.mutation now db = some mutation ->
      statement.exec now db = .ok reply ->
        (forall new, new ∈ reply.rows -> new ∈ reply.db.job.rows ∧
          Exists fun old : JobRow => old ∈ db.job.rows ∧ old.id = new.id ∧
            Conforms statement old new) ∧
        (forall row, row ∈ db.job.rows -> (forall new, new ∈ reply.rows -> new.id ≠ row.id) ->
          row ∈ reply.db.job.rows)) ∧
      forall t, t ∈ transitions -> Realised t := by
  refine ⟨?_, transitions_realised⟩
  intro now db statement mutation reply isUpdate committed
  rw [Statement.exec_mutation isUpdate] at committed
  have done := Mutation.run_ok committed
  constructor
  · intro new listed
    rw [done.2.1] at listed
    rcases Mutation.mem_returning.mp listed with ⟨old, member, hit, rfl⟩
    refine ⟨?_, old, member, (mutation.keepsId old).symm, (RowStep.of_hits isUpdate member hit).conforms⟩
    rw [done.1]
    exact List.mem_map.mpr ⟨old, member, if_pos hit⟩
  · intro row member silent
    rw [done.1]
    refine List.mem_map.mpr ⟨row, member, if_neg ?_⟩
    intro hit
    refine silent (mutation.set row) ?_ (mutation.keepsId row)
    rw [done.2.1]
    exact Mutation.mem_returning.mpr ⟨row, member, hit, rfl⟩

end PgJobQ
