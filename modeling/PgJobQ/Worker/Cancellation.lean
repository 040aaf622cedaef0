import PgJobQ.Lifecycle.CancelRequests
import PgJobQ.Worker.HandlerTimeout

/-!
# Cancellation across a replay

A worker learns of a request for cancellation from the column
`cancel_requested_at` in the answer to a heartbeat, and `acknowledgeCancellation`
reads the same column.  A replay resets the other columns of a job's former
life but not this one.

A fleet is a database with the deliveries that are under way.  A cancellation
it carries out is warranted when a request has hit the job since it was last
replayed.  All of them are, in every run in which no job is replayed with its
column set.
-/

namespace PgJobQ

open Runs

/-! ## Columns and requests -/

/-- The statement replays the job if it is dead. -/
def Statement.replaysJob (id : Nat) : Statement -> Bool
  | replayDeadJob other => id == other
  | replayDeadJobs ids => ids.contains id
  | _ => false

/-- The call replays a job for which `cancel_requested_at` is set. -/
def Call.ReplaysFlagged (call : Call) (db : Database) : Prop :=
  Exists fun row : JobRow => row ∈ db.job.rows ∧ row.state = .dead ∧
    row.cancelRequestedAt ≠ none ∧ call.statement.replaysJob row.id = true ∧
      Exists fun reply : Reply => call.statement.exec call.now db = .ok reply

/-- A request stands for the job, and its column is set as long as there is
a row. -/
structure Marked (session : Session) (id : Nat) : Prop where
  stands : requestStands id session.history = true
  drawn : id < session.state.nextId
  flagged : forall row, row ∈ session.state.job.rows -> row.id = id ->
    row.cancelRequestedAt ≠ none

/-- A column that is set goes back to a request that stands. -/
def FlagsMarked (session : Session) : Prop :=
  forall row, row ∈ session.state.job.rows -> row.cancelRequestedAt ≠ none ->
    Marked session row.id

/-- What a replay returns was dead and is one of the jobs it names. -/
theorem replayed_row {now : Timestamp} {db : Database} {statement : Statement} {reply : Reply}
    (committed : statement.exec now db = .ok reply) (replays : statement.isReplay = true)
    {row : JobRow} (listed : row ∈ reply.rows) :
    Exists fun old : JobRow => old ∈ db.job.rows ∧ old.id = row.id ∧ old.state = .dead ∧
      statement.replaysJob old.id = true := by
  cases statement with
  | replayDeadJob id =>
      have ran : (replayDeadJob id now).run db = .ok reply := committed
      rw [(Mutation.run_ok ran).2.1] at listed
      rcases Mutation.mem_returning.mp listed with ⟨old, member, hit, rfl⟩
      have guard := Bool.and_eq_true_iff.mp hit
      exact ⟨old, member, rfl, beq_iff_eq.mp guard.2, guard.1⟩
  | replayDeadJobs ids =>
      have ran : (replayDeadJobs ids now).run db = .ok reply := committed
      rw [(Mutation.run_ok ran).2.1] at listed
      rcases Mutation.mem_returning.mp listed with ⟨old, member, hit, rfl⟩
      have guard := Bool.and_eq_true_iff.mp hit
      exact ⟨old, member, rfl, beq_iff_eq.mp guard.2, guard.1⟩
  | _ => cases replays

/-- Only a request touches the column, and it sets it. -/
theorem RowStep.cancelRequestedAt {now : Timestamp} {statement : Statement} {old new : JobRow}
    (step : RowStep now statement old new) :
    new.cancelRequestedAt = old.cancelRequestedAt ∨
      (statement.isRequest = true ∧ new.cancelRequestedAt ≠ none) := by
  cases step with
  | requestCancel same started => exact Or.inr ⟨rfl, Option.some_ne_none _⟩
  | _ => exact Or.inl rfl

section

variable {session : Session} {call : Call} {reply : Reply}

/-- A mark survives every call that does not replay a job with its column set. -/
theorem Marked.step {id : Nat} (marked : Marked session id)
    (committed : call.statement.exec call.now session.state = .ok reply)
    (resets : Not (call.ReplaysFlagged session.state)) :
    Marked ⟨reply.db, ⟨session.state, call.now, call.statement, reply.rows⟩ :: session.history⟩
      id where
  stands := by
    have unreplayed :
        Commit.replays id ⟨session.state, call.now, call.statement, reply.rows⟩ = false := by
      rw [Bool.eq_false_iff]
      intro replayed
      have parts := Bool.and_eq_true_iff.mp replayed
      rcases Option.isSome_iff_exists.mp parts.2 with ⟨row, returned⟩
      have listed := Commit.mem_of_returned returned
      rcases replayed_row committed parts.1 listed.1 with ⟨old, member, same, buried, named⟩
      exact resets ⟨old, member, buried,
        marked.flagged old member (same.trans listed.2), named, reply, committed⟩
    rw [requestStands_cons, unreplayed, marked.stands]
    simp
  drawn := Nat.lt_of_lt_of_le marked.drawn (exec_frame committed).1
  flagged := by
    intro row member same
    subst same
    cases exec_rowOrigin committed member with
    | kept present silent => exact marked.flagged row present rfl
    | stepped present same step listed =>
        rcases step.cancelRequestedAt with kept | ⟨_, set⟩
        · rw [kept]
          exact marked.flagged _ present same
        · exact set
    | inserted asked fresh isNew => exact absurd marked.drawn (Nat.not_lt.mpr fresh)

theorem FlagsMarked.start (partitions : List ArchivePartition) (config : QueueConfigTable) :
    FlagsMarked (Session.start (.empty partitions config)) :=
  fun _ member => absurd member List.not_mem_nil

theorem FlagsMarked.exec (invariant : FlagsMarked session)
    (committed : call.statement.exec call.now session.state = .ok reply)
    (resets : Not (call.ReplaysFlagged session.state)) :
    FlagsMarked
      ⟨reply.db, ⟨session.state, call.now, call.statement, reply.rows⟩ :: session.history⟩ := by
  intro row member flagged
  cases exec_rowOrigin committed member with
  | kept present silent => exact (invariant row present flagged).step committed resets
  | stepped present same step listed =>
      rcases step.cancelRequestedAt with kept | ⟨requests, _⟩
      · rw [kept] at flagged
        have marked := invariant _ present flagged
        rw [same] at marked
        exact marked.step committed resets
      · refine ⟨?_, reply.db.identity row member, fun other otherMem same =>
          (reply.db.job.eq_of_id otherMem member same) ▸ flagged⟩
        have returned := @Commit.returned_isSome
          ⟨session.state, call.now, call.statement, reply.rows⟩ row listed
        rw [requestStands_cons, Commit.replays, Commit.requests, requests,
          (Statement.requests_only requests).2.1, returned]
        rfl
  | inserted asked fresh isNew => exact absurd (congrArg JobRow.cancelRequestedAt isNew) flagged

end

/-! ## What a delivery sends -/

namespace RunnerState

/-- The statement the database executes in a step. -/
def sends (opts : RunnerOptions) (job : JobRow) (state : RunnerState) : RunnerLabel -> Option Call
  | .heartbeat now behaviour =>
      if state.heartbeats = 0 ∨ behaviour = .refused then none
      else some ⟨now, .heartbeatJob (opts.fence job) job.leaseSeconds⟩
  | .report now behaviour _ _ =>
      match behaviour, state.execReport opts job now with
      | .refused, _ => none
      | _, some (.ok executed) => some ⟨now, executed.statement⟩
      | _, _ => none
  | .other call => some call
  | _ => none

/-- The answer to a heartbeat makes the process abort the handler as cancelled. -/
def hearsRequest (state : RunnerState) (index : Nat) : Bool :=
  match state.replies[index]? with
  | some (some row) => row.cancelRequestedAt.isSome && !state.cancelRequested
  | _ => false

/-- A step of the process alone: the table and the answers on their way to it
stay. -/
structure Keeps (state next : RunnerState) : Prop where
  db : next.db = state.db
  replies : next.replies = state.replies

section

variable {opts : RunnerOptions} {job : JobRow} {state : RunnerState}

theorem keeps_fail (e : Thrown) (timedOut : Bool) (draw : ReportDraw) :
    state.Keeps (state.fail opts job e timedOut draw) :=
  ⟨rfl, rfl⟩

theorem keeps_reportFailure (e : Thrown) (draw : ReportDraw) :
    state.Keeps (state.reportFailure opts job e draw) := by
  unfold reportFailure
  split
  · exact ⟨rfl, rfl⟩
  · split
    · exact ⟨rfl, rfl⟩
    · exact keeps_fail e state.timedOut draw

theorem keeps_settle (settlement : Settlement) (draw : ReportDraw) :
    state.Keeps (state.settle opts job draw settlement) := by
  cases settlement with
  | resolves => exact ⟨rfl, rfl⟩
  | throws e => exact keeps_reportFailure e draw

theorem keeps_answer (rows : List JobRow) (draw : ReportDraw) :
    state.Keeps (state.answer opts job draw rows) := by
  refine ⟨answer_db rows, ?_⟩
  unfold answer
  split
  · rfl
  · rfl
  · split <;> rfl
  · rfl
  · rfl

theorem keeps_raise (error : DatabaseError) (draw : ReportDraw) :
    state.Keeps (state.raise opts job error draw) := by
  unfold raise
  split
  · exact keeps_reportFailure error.thrown draw
  · exact keeps_reportFailure error.thrown draw
  · exact ⟨rfl, rfl⟩
  · exact ⟨rfl, rfl⟩
  · exact ⟨rfl, rfl⟩

theorem keeps_heartbeatReply (reply : Option JobRow) :
    state.Keeps (state.heartbeatReply reply) := by
  unfold heartbeatReply
  split
  · exact ⟨rfl, rfl⟩
  · split
    · exact ⟨rfl, rfl⟩
    · exact ⟨rfl, rfl⟩

/-- What an executed report did is what its statement does as a call. -/
theorem db_of_execReport {now : Timestamp} {executed : Executed}
    (ran : state.execReport opts job now = some (.ok executed)) :
    state.db.step ⟨now, executed.statement⟩ = executed.reply.db := by
  have sent : forall {statement : Statement}, statement.report now state.db = .ok executed ->
      state.db.step ⟨now, executed.statement⟩ = executed.reply.db := by
    intro statement reported
    have issued := Statement.report_ok reported
    apply Database.step_of_ok
    rw [issued.1]
    exact issued.2
  unfold execReport at ran
  split at ran
  · exact sent (Option.some.inj ran)
  · exact sent (Option.some.inj ran)
  · exact sent (Option.some.inj ran)
  · rcases FailRequest.exec_ok (Option.some.inj ran) with ⟨record, stored, issued, committed⟩
    exact Database.step_of_ok committed
  · cases ran

/-- A step of a delivery executes what it sends and nothing else. -/
theorem step_db (label : RunnerLabel) :
    (state.step opts job label).db =
      match state.sends opts job label with
      | some call => state.db.step call
      | none => state.db := by
  cases label with
  | timeout =>
      unfold step
      dsimp only [sends]
      split <;> rfl
  | sendHeartbeat => rfl
  | other call => rfl
  | settle settlement draw =>
      unfold step
      dsimp only [sends]
      split
      · exact (keeps_settle settlement draw).db
      · rfl
  | heartbeatReply index =>
      unfold step
      dsimp only [sends]
      split
      · rfl
      · exact (keeps_heartbeatReply _).db
  | heartbeat now behaviour =>
      unfold step sends
      dsimp only
      by_cases idle : state.heartbeats = 0
      · simp only [idle, if_true, true_or]
      · simp only [idle, if_false, false_or]
        cases executes : state.execHeartbeat opts job now with
        | error reason =>
            have aborted : state.db.step
                ⟨now, .heartbeatJob (opts.fence job) job.leaseSeconds⟩ = state.db := by
              unfold execHeartbeat Statement.report at executes
              unfold Database.step
              split at executes
              · cases executes
              · rename_i error failed
                rw [failed]
            cases behaviour <;> simp [aborted]
        | ok executed =>
            have sent := Statement.report_ok executes
            have committed : state.db.step
                ⟨now, .heartbeatJob (opts.fence job) job.leaseSeconds⟩ = executed.reply.db :=
              Database.step_of_ok sent.2
            cases behaviour <;> simp [committed]
  | report now behaviour error draw =>
      unfold sends
      dsimp only
      cases executes : state.execReport opts job now with
      | none =>
          rw [report_idle executes]
          cases behaviour <;> rfl
      | some executed =>
          cases executed with
          | error reason =>
              rw [report_failed executes, (keeps_raise error draw).db]
              cases behaviour <;> rfl
          | ok executed =>
              cases behaviour with
              | answered =>
                  rw [report_answered executes, (keeps_answer executed.reply.rows draw).db]
                  exact (db_of_execReport executes).symm
              | refused => rw [report_refused executes, (keeps_raise error draw).db]
              | lost =>
                  rw [report_lost executes, (keeps_raise error draw).db]
                  exact (db_of_execReport executes).symm

/-- A new answer is that of the heartbeat the step has executed. -/
theorem replies_of_step {label : RunnerLabel} {answer : Option JobRow}
    (member : answer ∈ (state.step opts job label).replies) :
    answer ∈ state.replies ∨ Exists fun now : Timestamp => Exists fun reply : Reply =>
      state.sends opts job label =
          some ⟨now, .heartbeatJob (opts.fence job) job.leaseSeconds⟩ ∧
        (heartbeatJob (opts.fence job) job.leaseSeconds now).run state.db = .ok reply ∧
          answer = reply.rows.head? := by
  cases label with
  | timeout =>
      unfold step at member
      dsimp only at member
      split at member
      · exact Or.inl member
      · exact Or.inl member
  | sendHeartbeat => exact Or.inl member
  | other call => exact Or.inl member
  | settle settlement draw =>
      unfold step at member
      dsimp only at member
      split at member
      · exact Or.inl ((keeps_settle settlement draw).replies ▸ member)
      · exact Or.inl member
  | heartbeatReply index =>
      unfold step at member
      dsimp only at member
      split at member
      · exact Or.inl member
      · rw [(keeps_heartbeatReply _).replies] at member
        exact Or.inl (List.mem_of_mem_eraseIdx member)
  | heartbeat now behaviour =>
      unfold step at member
      dsimp only at member
      split at member
      · exact Or.inl member
      · rename_i pending
        split at member
        · rename_i executed executes
          have sent := Statement.report_ok executes
          rcases List.mem_append.mp member with earlier | new
          · exact Or.inl earlier
          · refine Or.inr ⟨now, executed.reply, ?_, sent.2, List.mem_singleton.mp new⟩
            unfold sends
            simp [pending]
        · exact Or.inl member
        · exact Or.inl member
  | report now behaviour error draw =>
      cases executes : state.execReport opts job now with
      | none =>
          rw [report_idle executes] at member
          exact Or.inl member
      | some executed =>
          rcases report_awaited behaviour error draw executes with
            ⟨executed, rfl, rfl⟩ | ⟨db, raised⟩
          · rw [report_answered executes, (keeps_answer executed.reply.rows draw).replies] at member
            exact Or.inl member
          · rw [raised, (keeps_raise error draw).replies] at member
            exact Or.inl member

end

end RunnerState

/-! ## Fleets -/

/-- A job handed to a runner. -/
structure JobRun where
  opts : RunnerOptions
  job : JobRow
  runner : RunnerState

/-- The deliveries share the database of the fleet. -/
def JobRun.on (delivery : JobRun) (db : Database) : RunnerState :=
  { delivery.runner with db := db }

/-- The deliveries under way. -/
structure Fleet where
  db : Database
  deliveries : List JobRun

/-- Any party executes a statement, a runner is handed a job, or a delivery
takes a step. -/
inductive FleetLabel where
  | call (call : Call)
  | start (opts : RunnerOptions) (job : JobRow)
  | deliver (index : Nat) (label : RunnerLabel)

/-- What is recorded of a run: the commits, and the handlers aborted as
cancelled. -/
inductive FleetEvent where
  | committed (commit : Commit)
  | aborted (id : Nat)

def FleetEvent.commit : FleetEvent -> Option Commit
  | committed commit => some commit
  | aborted _ => none

namespace Fleet

def step (fleet : Fleet) : FleetLabel -> Fleet
  | .call call => { fleet with db := fleet.db.step call }
  | .start opts job =>
      { fleet with deliveries := fleet.deliveries ++ [⟨opts, job, .start fleet.db⟩] }
  | .deliver index label =>
      match fleet.deliveries[index]? with
      | none => fleet
      | some delivery =>
          let next := (delivery.on fleet.db).step delivery.opts delivery.job label
          ⟨next.db, fleet.deliveries.set index { delivery with runner := next }⟩

/-- The statement the database executes in a step. -/
def sends (fleet : Fleet) : FleetLabel -> Option Call
  | .call call => some call
  | .start _ _ => none
  | .deliver index label =>
      match fleet.deliveries[index]? with
      | none => none
      | some delivery => (delivery.on fleet.db).sends delivery.opts delivery.job label

/-- The job whose handler is aborted as cancelled. -/
def aborts (fleet : Fleet) : FleetLabel -> Option Nat
  | .deliver index (.heartbeatReply arrived) =>
      match fleet.deliveries[index]? with
      | none => none
      | some delivery =>
          if (delivery.on fleet.db).hearsRequest arrived then some delivery.job.id else none
  | _ => none

def event (fleet : Fleet) (label : FleetLabel) : Option FleetEvent :=
  match fleet.aborts label with
  | some id => some (.aborted id)
  | none => ((fleet.sends label).bind fleet.db.commit).map .committed

end Fleet

/-- A fleet with the events so far, newest first. -/
abbrev FleetRun := Recorded Fleet FleetEvent

namespace FleetRun

def step : FleetRun -> FleetLabel -> FleetRun := recordStep Fleet.step Fleet.event

def start (db : Database) : FleetRun := ⟨⟨db, []⟩, []⟩

/-- The commits of a run. -/
def commits (history : List FleetEvent) : List Commit :=
  history.filterMap FleetEvent.commit

/-- The database of a run with its commits. -/
def session (run : FleetRun) : Session := ⟨run.state.db, commits run.history⟩

end FleetRun

/-- The statement acknowledges a request for cancellation. -/
def Statement.isAcknowledgement : Statement -> Bool
  | acknowledgeCancellation _ => true
  | _ => false

/-- A cancellation that is carried out goes back to a request made since the
job was last replayed. -/
def FleetEvent.Warranted (earlier : List FleetEvent) : FleetEvent -> Prop
  | committed commit => commit.statement.isAcknowledgement = true ->
      forall row, row ∈ commit.rows -> requestStands row.id (FleetRun.commits earlier) = true
  | aborted id => requestStands id (FleetRun.commits earlier) = true

/-- Every cancellation of a run is warranted at its time. -/
def CancellationsWarranted (run : FleetRun) : Prop :=
  EachEvent FleetEvent.Warranted run.history

/-- The step replays no job with `cancel_requested_at` set. -/
def ReplaysClean (run : FleetRun) (label : FleetLabel) : Prop :=
  forall call, run.state.sends label = some call -> Not (call.ReplaysFlagged run.state.db)

/-! ## The invariant -/

/-- Columns that are set, and answers that show one, belong to marked jobs. -/
structure CancellationInvariant (run : FleetRun) : Prop where
  warranted : CancellationsWarranted run
  rows : FlagsMarked run.session
  replies : forall delivery, delivery ∈ run.state.deliveries ->
    forall row, some row ∈ delivery.runner.replies -> row.cancelRequestedAt ≠ none ->
      Marked run.session delivery.job.id

namespace FleetRun

variable {run : FleetRun} {label : FleetLabel}

/-- A step executes the statement it sends, and nothing else. -/
theorem db_step : (run.step label).state.db =
    match run.state.sends label with
    | some call => run.state.db.step call
    | none => run.state.db := by
  cases label with
  | call call => rfl
  | start opts job => rfl
  | deliver index label =>
      show (run.state.step (.deliver index label)).db = _
      unfold Fleet.step Fleet.sends
      dsimp only
      cases run.state.deliveries[index]? with
      | none => rfl
      | some delivery => exact RunnerState.step_db label

/-- An answer is no statement. -/
theorem sends_of_aborts {id : Nat} (aborts : run.state.aborts label = some id) :
    run.state.sends label = none := by
  unfold Fleet.aborts at aborts
  split at aborts
  · rename_i index arrived
    unfold Fleet.sends
    dsimp only
    cases run.state.deliveries[index]? with
    | none => rfl
    | some delivery => rfl
  · cases aborts

theorem commits_step : commits (run.step label).history =
    ((run.state.sends label).bind run.state.db.commit).toList ++ commits run.history := by
  show commits ((run.state.event label).toList ++ run.history) = _
  unfold Fleet.event
  cases aborts : run.state.aborts label with
  | some id =>
      rw [sends_of_aborts aborts]
      rfl
  | none =>
      cases (run.state.sends label).bind run.state.db.commit with
      | none => rfl
      | some commit => rfl

/-- Seen from the database a step is a call or nothing. -/
theorem session_step :
    (run.step label).session =
      match run.state.sends label with
      | some call => run.session.step call
      | none => run.session := by
  have database := @db_step run label
  have recorded := @commits_step run label
  unfold session
  rw [database, recorded]
  cases run.state.sends label with
  | none => rfl
  | some call => rfl

end FleetRun

namespace CancellationInvariant

variable {run : FleetRun} {label : FleetLabel}

theorem start (partitions : List ArchivePartition) (config : QueueConfigTable) :
    CancellationInvariant (FleetRun.start (.empty partitions config)) where
  warranted := trivial
  rows := FlagsMarked.start partitions config
  replies := fun _ member => absurd member List.not_mem_nil

/-- A mark survives a clean step. -/
theorem marked_step {id : Nat} (clean : ReplaysClean run label) (marked : Marked run.session id) :
    Marked (run.step label).session id := by
  rw [FleetRun.session_step]
  cases sent : run.state.sends label with
  | none => exact marked
  | some call =>
      rcases run.session.step_cases call with stays | ⟨reply, committed, moves⟩
      · dsimp only
        rw [stays]
        exact marked
      · dsimp only
        rw [moves]
        exact marked.step committed (clean call sent)

theorem rows_step (invariant : CancellationInvariant run) (clean : ReplaysClean run label) :
    FlagsMarked (run.step label).session := by
  rw [FleetRun.session_step]
  cases sent : run.state.sends label with
  | none => exact invariant.rows
  | some call =>
      rcases run.session.step_cases call with stays | ⟨reply, committed, moves⟩
      · dsimp only
        rw [stays]
        exact invariant.rows
      · dsimp only
        rw [moves]
        exact invariant.rows.exec committed (clean call sent)

/-- The answer to a heartbeat shows the column as it is in the table. -/
theorem marked_of_heartbeat (invariant : CancellationInvariant run)
    (clean : ReplaysClean run label) {p : FenceParams} {leaseSeconds : Int} {now : Timestamp}
    {reply : Reply} (ran : (heartbeatJob p leaseSeconds now).run run.state.db = .ok reply)
    {row : JobRow} (listed : row ∈ reply.rows) (flagged : row.cancelRequestedAt ≠ none) :
    Marked (run.step label).session p.id := by
  rw [(Mutation.run_ok ran).2.1] at listed
  rcases Mutation.mem_returning.mp listed with ⟨old, member, hit, rfl⟩
  rw [← (FenceParams.owns_iff.mp hit).1]
  exact marked_step clean (invariant.rows old member flagged)

theorem replies_step (invariant : CancellationInvariant run) (clean : ReplaysClean run label) :
    forall delivery, delivery ∈ (run.step label).state.deliveries ->
      forall row, some row ∈ delivery.runner.replies -> row.cancelRequestedAt ≠ none ->
        Marked (run.step label).session delivery.job.id := by
  have earlier : forall delivery, delivery ∈ run.state.deliveries ->
      forall row, some row ∈ delivery.runner.replies -> row.cancelRequestedAt ≠ none ->
        Marked (run.step label).session delivery.job.id :=
    fun delivery member row arriving flagged =>
      marked_step clean (invariant.replies delivery member row arriving flagged)
  show forall delivery, delivery ∈ (run.state.step label).deliveries -> _
  cases label with
  | call call => exact earlier
  | start opts job =>
      intro delivery member row arriving flagged
      rcases List.mem_append.mp member with before | new
      · exact earlier delivery before row arriving flagged
      · rw [List.mem_singleton.mp new] at arriving
        cases arriving
  | deliver index label =>
      unfold Fleet.step
      dsimp only
      cases found : run.state.deliveries[index]? with
      | none => exact earlier
      | some taken =>
          intro delivery member row arriving flagged
          rcases List.mem_or_eq_of_mem_set member with before | rfl
          · exact earlier delivery before row arriving flagged
          · rcases RunnerState.replies_of_step arriving with pending | ⟨now, reply, sent, ran, shown⟩
            · exact earlier taken (List.mem_of_getElem? found) row pending flagged
            · exact marked_of_heartbeat invariant clean ran
                (List.mem_of_head? shown.symm) flagged

/-- The event of a clean step is warranted. -/
theorem event_warranted (invariant : CancellationInvariant run) {event : FleetEvent}
    (recorded : run.state.event label = some event) : event.Warranted run.history := by
  unfold Fleet.event at recorded
  cases aborts : run.state.aborts label with
  | some id =>
      rw [aborts] at recorded
      cases recorded
      unfold Fleet.aborts at aborts
      split at aborts
      · rename_i index arrived
        split at aborts
        · cases aborts
        · rename_i delivery found
          split at aborts
          · rename_i heard
            cases aborts
            unfold RunnerState.hearsRequest at heard
            split at heard
            · rename_i row arriving
              have flagged : row.cancelRequestedAt ≠ none :=
                Option.isSome_iff_ne_none.mp (Bool.and_eq_true_iff.mp heard).1
              exact (invariant.replies delivery (List.mem_of_getElem? found) row
                (List.mem_of_getElem? arriving) flagged).stands
            · cases heard
          · cases aborts
      · cases aborts
  | none =>
      rw [aborts] at recorded
      rcases Option.map_eq_some_iff.mp recorded with ⟨commit, made, rfl⟩
      rcases Option.bind_eq_some_iff.mp made with ⟨call, sent, committed⟩
      intro acknowledges row listed
      unfold Database.commit at committed
      split at committed
      · rename_i reply executed
        cases committed
        cases isStatement : call.statement with
        | acknowledgeCancellation p =>
            rw [isStatement] at executed
            have ran : (acknowledgeCancellation p call.now).run run.state.db = .ok reply := executed
            have returned : row ∈ reply.rows := listed
            rw [(Mutation.run_ok ran).2.1] at returned
            rcases Mutation.mem_returning.mp returned with ⟨old, member, hit, rfl⟩
            have flagged := Option.isSome_iff_ne_none.mp (Bool.and_eq_true_iff.mp hit).2
            exact (invariant.rows old member flagged).stands
        | _ =>
            rw [isStatement] at acknowledges
            cases acknowledges
      · cases committed

theorem step (invariant : CancellationInvariant run) (clean : ReplaysClean run label) :
    CancellationInvariant (run.step label) where
  warranted := eachEvent_recordStep.mpr
    ⟨fun _ recorded => invariant.event_warranted recorded, invariant.warranted⟩
  rows := invariant.rows_step clean
  replies := invariant.replies_step clean

end CancellationInvariant

/-! ## Runs -/

/-- In a run from an empty table that replays no job with its column set,
every acknowledgement and every handler aborted as cancelled goes back to a
request made since the job was last replayed, in every state visited. -/
theorem cancellations_warranted (partitions : List ArchivePartition) (config : QueueConfigTable)
    (labels : List FleetLabel)
    (clean : EachStep FleetRun.step ReplaysClean (.start (.empty partitions config)) labels) :
    Always FleetRun.step CancellationsWarranted (.start (.empty partitions config)) labels :=
  @always_of_eachStep _ _ FleetRun.step CancellationInvariant _ _
    (fun _ invariant => invariant.warranted) (fun _ _ invariant met => invariant.step met) _
    (.start partitions config) _ clean

/-- A job is dead-lettered, replayed and claimed again, and the delivery sends a
heartbeat after a request. -/
def requestedAfterReplay : List FleetLabel :=
  (claimedOnce 1).map .call ++ [.call ⟨seconds 31, .reapExpiredLeases ⟨10, 0⟩ []⟩,
    .call ⟨seconds 32, .replayDeadJob 1⟩, .call ⟨seconds 33, .claimJobs ⟨"mail", 1, "w"⟩ []⟩,
    .start plainRunner (claimSet "w" (seconds 33) ((plainEnqueue 1).toJobRow 1 0)),
    .call ⟨seconds 34, .requestCancelRunningJob 1⟩, .deliver 0 .sendHeartbeat,
    .deliver 0 (.heartbeat (seconds 35) .answered), .deliver 0 (.heartbeatReply 0)]

theorem cancellations_warranted_after_replay :
    Always FleetRun.step CancellationsWarranted (.start (.empty [] .empty))
      requestedAfterReplay := by
  apply cancellations_warranted
  have other : forall {run : FleetRun} {label : FleetLabel},
      (forall call, run.state.sends label = some call -> call.statement.isReplay = false) ->
        ReplaysClean run label := by
    rintro run label quiet call sent ⟨row, member, buried, flagged, named, executed⟩
    have noReplay := quiet call sent
    cases isStatement : call.statement with
    | replayDeadJob id =>
        rw [isStatement] at noReplay
        cases noReplay
    | replayDeadJobs ids =>
        rw [isStatement] at noReplay
        cases noReplay
    | _ =>
        rw [isStatement] at named
        cases named
  have silent : forall {sent : Option Call},
      (sent.any (fun call => call.statement.isReplay)) = false ->
        forall call, sent = some call -> call.statement.isReplay = false := by
    rintro sent quiet call rfl
    exact quiet
  refine ⟨other (silent (by decide)), other (silent (by decide)), other (silent (by decide)), ?_,
    other (silent (by decide)), other (silent (by decide)), other (silent (by decide)),
    other (silent (by decide)), other (silent (by decide)), other (silent (by decide)), trivial⟩
  rintro call sent ⟨row, member, buried, flagged, named, executed⟩
  have unflagged : forall row, row ∈ (run FleetRun.step (.start (.empty [] .empty))
      (requestedAfterReplay.take 3)).state.db.job.rows -> row.cancelRequestedAt = none := by
    decide
  exact flagged (unflagged row member)

/-- Worker `w` claims a job with one attempt, its cancellation is accepted, and
the lease expires. -/
def diedRequested : List FleetLabel :=
  (claimedOnce 1).map .call ++ [.call ⟨seconds 1, .requestCancelRunningJob 1⟩,
    .call ⟨seconds 31, .reapExpiredLeases ⟨10, 0⟩ []⟩]

/-- The job is replayed and claimed again, and the delivery sends a heartbeat. -/
def replayedRequested : List FleetLabel :=
  diedRequested ++ [.call ⟨seconds 32, .replayDeadJob 1⟩,
    .call ⟨seconds 33, .claimJobs ⟨"mail", 1, "w"⟩ []⟩,
    .start plainRunner (claimSet "w" (seconds 33) ((plainEnqueue 1).toJobRow 1 0)),
    .deliver 0 .sendHeartbeat, .deliver 0 (.heartbeat (seconds 34) .answered),
    .deliver 0 (.heartbeatReply 0)]

/-- The answer aborts the handler, though nobody has asked for that since the
replay. -/
theorem stale_request_aborts :
    Not (CancellationsWarranted
      (run FleetRun.step (.start (.empty [] .empty)) replayedRequested)) := by
  intro warranted
  have stands : requestStands 1 _ = true := warranted.1
  exact absurd stands (by decide)

end PgJobQ
