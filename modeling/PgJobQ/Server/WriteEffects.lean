import PgJobQ.Client.ConcurrentEnqueue
import PgJobQ.Client.Replay
import PgJobQ.Server.Views
import PgJobQ.Server.WriteRoutes

/-!
# What the writes do to the rows in view

An operation that names a queue touches rows of this queue alone.  An operation
that names jobs or schedules by id touches the rows with these ids, whatever
their queue.  For the latter it is said exactly when the rows in view stay as
they are: a statement that hits a row leaves it alone only if it assigns what
is there already.
-/

namespace PgJobQ

open RowViews UniqueRows

/-- The jobs of the queues in view are the same. -/
def SameJobs (visible : String -> Bool) (one two : Database) : Prop :=
  RowViews.Agree (fun row : JobRow => visible row.queue) one.job.rows two.job.rows

namespace SameJobs

variable {visible : String -> Bool} {one two three : Database}

theorem of_rows (same : two.job.rows = one.job.rows) : SameJobs visible one two := by
  rw [SameJobs, same]
  exact .refl _ _

theorem trans (first : SameJobs visible one two) (second : SameJobs visible two three) :
    SameJobs visible one three :=
  RowViews.Agree.trans first second

/-- Exchanging the jobs alone. -/
theorem agree_iff {schedules : ScheduleTable} (sameConfig : two.queueConfig = one.queueConfig) :
    Tables.Agree visible ⟨one, schedules⟩ ⟨two, schedules⟩ <-> SameJobs visible one two := by
  constructor
  · exact fun agree => agree.job
  · intro same
    refine ⟨same, .refl _ _, ?_⟩
    dsimp only
    rw [sameConfig]
    exact .refl _ _

end SameJobs

/-! ## Updates of jobs -/

section Updates

variable {visible : String -> Bool} {db : Database} {now : Timestamp}

/-- A committed update leaves the rows in view alone exactly when it assigns
nothing new to those it hits. -/
theorem Mutation.sameJobs_iff {mutation : Mutation} {reply : Reply}
    (committed : mutation.run db = .ok reply)
    (sameQueue : forall row, (mutation.set row).queue = row.queue) :
    SameJobs visible db reply.db <->
      forall row, row ∈ db.job.rows -> visible row.queue = true -> mutation.hits row = true ->
        mutation.set row = row := by
  have sameView : forall row, visible (mutation.rewrite row).queue = visible row.queue := by
    intro row
    unfold Mutation.rewrite
    split
    · rw [sameQueue]
    · rfl
  rw [SameJobs, (Mutation.run_ok committed).1,
    agree_map_iff db.job.constraints.primaryKey mutation.rewrite_id sameView]
  constructor
  · intro unchanged row member seen hit
    have same := unchanged row member seen
    rwa [Mutation.rewrite, if_pos hit] at same
  · intro unchanged row member seen
    unfold Mutation.rewrite
    split
    · rename_i hit
      exact unchanged row member seen hit
    · rfl

/-- Nothing is returned when nothing is hit. -/
theorem Mutation.rows_isEmpty_iff {mutation : Mutation} {reply : Reply}
    (committed : mutation.run db = .ok reply) :
    reply.rows.isEmpty = true <-> forall row, row ∈ db.job.rows -> Not (mutation.hits row = true) := by
  rw [(Mutation.run_ok committed).2.1, List.isEmpty_iff, Mutation.returning, List.map_eq_nil_iff,
    List.filter_eq_nil_iff]

theorem Mutation.rows_of_silent {mutation : Mutation} {reply : Reply}
    (committed : mutation.run db = .ok reply)
    (silent : forall row, row ∈ db.job.rows -> Not (mutation.hits row = true)) :
    reply.db.job.rows = db.job.rows := by
  rcases Mutation.run_of_silent (fun row member => Bool.eq_false_iff.mpr (silent row member)) with
    ⟨other, alsoCommitted, _, same⟩
  rw [committed] at alsoCommitted
  cases alsoCommitted
  exact same

/-- The first request is kept, so a later one only moves the time of the last
change. -/
theorem requestCancelRunningJob_idle_iff {id : Nat} {row : JobRow} :
    (requestCancelRunningJob id now).set row = row <->
      row.cancelRequestedAt ≠ none ∧ row.updatedAt = now := by
  constructor
  · intro same
    refine ⟨?_, (congrArg JobRow.updatedAt same).symm⟩
    rw [← congrArg JobRow.cancelRequestedAt same]
    exact Option.some_ne_none _
  · rintro ⟨requested, rfl⟩
    rcases Option.ne_none_iff_exists'.mp requested with ⟨time, isTime⟩
    unfold requestCancelRunningJob
    simp only [isTime, Option.getD_some]
    rw [← isTime]

theorem retryJobNow_idle_iff {id : Nat} {row : JobRow} :
    (retryJobNow id now).set row = row <-> row.runAt = now ∧ row.updatedAt = now := by
  constructor
  · exact fun same => ⟨(congrArg JobRow.runAt same).symm, (congrArg JobRow.updatedAt same).symm⟩
  · rintro ⟨ran, updated⟩
    cases row
    cases ran
    cases updated
    rfl

end Updates

/-! ## Jobs that are named by id -/

section Named

variable {visible : String -> Bool} {db : Database} {now later : Timestamp} {id : NumericId}

theorem Client.query_of_fits {ids : List NumericId} {statement : Statement} {reply : Reply}
    (fits : ids.all NumericId.fitsBigint = true)
    (committed : statement.exec now db = .ok reply) :
    Client.query ids statement now db = .ok reply := by
  unfold Client.query
  rw [if_pos fits, committed]

theorem Client.query_of_not_fits {ids : List NumericId} (statement : Statement)
    (range : Not (ids.all NumericId.fitsBigint = true)) :
    Client.query ids statement now db = .error .idOutOfRange := by
  unfold Client.query
  rw [if_neg range]

theorem fits_singleton : [id].all NumericId.fitsBigint = true <-> id.fitsBigint = true := by
  rw [List.all_cons, List.all_nil, Bool.and_true]

/-- Where the first statement of a cancellation does nothing, the second one
decides. -/
theorem cancel_sameJobs_iff_of_silent (fits : id.fitsBigint = true) {cancelled : Reply}
    (first : (cancelAvailableJob id.value now).run db = .ok cancelled)
    (silent : cancelled.rows.isEmpty = true) :
    SameJobs visible db (Client.cancel id now later db).1 <->
      forall row, row ∈ db.job.rows -> row.id = id.value -> visible row.queue = true ->
        row.state ≠ .available ∧
          (row.state = .running -> row.cancelRequestedAt ≠ none ∧ row.updatedAt = later) := by
  have all := fits_singleton.mpr fits
  have left := (Mutation.rows_isEmpty_iff first).mp silent
  have sameRows := Mutation.rows_of_silent first left
  rcases requestCancelRunningJob_commits cancelled.db id.value later with ⟨requested, second⟩
  have firstQuery := Client.query_of_fits all
    (show (Statement.cancelAvailableJob id.value).exec now db = .ok cancelled from first)
  have secondQuery := Client.query_of_fits all
    (show (Statement.requestCancelRunningJob id.value).exec later cancelled.db = .ok requested
      from second)
  have result : (Client.cancel id now later db).1 = requested.db := by
    unfold Client.cancel
    rw [firstQuery]
    dsimp only
    rw [if_pos silent, secondQuery]
    dsimp only
    split
    · rfl
    · rfl
  have step : SameJobs visible db (Client.cancel id now later db).1 <->
      SameJobs visible cancelled.db requested.db := by
    rw [result, SameJobs, SameJobs, sameRows]
  rw [step, Mutation.sameJobs_iff second (fun _ => rfl), sameRows]
  constructor
  · intro unchanged row member same seen
    refine ⟨fun available => left row member (named_iff.mpr ⟨same, available⟩), ?_⟩
    exact fun running => requestCancelRunningJob_idle_iff.mp
      (unchanged row member seen (named_iff.mpr ⟨same, running⟩))
  · intro quiet row member seen hit
    have named := named_iff.mp hit
    exact requestCancelRunningJob_idle_iff.mpr ((quiet row member named.1 seen).2 named.2)

/-- Where the first statement cancels a job, that job was available. -/
theorem cancel_sameJobs_iff_of_cancelled (fits : id.fitsBigint = true) {cancelled : Reply}
    (first : (cancelAvailableJob id.value now).run db = .ok cancelled)
    (hits : Not (cancelled.rows.isEmpty = true)) :
    SameJobs visible db (Client.cancel id now later db).1 <->
      forall row, row ∈ db.job.rows -> row.id = id.value -> visible row.queue = true ->
        row.state ≠ .available ∧
          (row.state = .running -> row.cancelRequestedAt ≠ none ∧ row.updatedAt = later) := by
  have firstQuery := Client.query_of_fits (fits_singleton.mpr fits)
    (show (Statement.cancelAvailableJob id.value).exec now db = .ok cancelled from first)
  have result : (Client.cancel id now later db).1 = cancelled.db := by
    unfold Client.cancel
    rw [firstQuery]
    dsimp only
    rw [if_neg hits]
  have hitOne : Exists fun row : JobRow => row ∈ db.job.rows ∧ row.id = id.value ∧
      row.state = .available := by
    by_contra none
    apply hits
    apply (Mutation.rows_isEmpty_iff first).mpr
    exact fun row member hit => none ⟨row, member, named_iff.mp hit⟩
  rcases hitOne with ⟨target, targetMem, targetId, available⟩
  rw [result, Mutation.sameJobs_iff first (fun _ => rfl)]
  constructor
  · intro unchanged row member same seen
    have isTarget := db.job.eq_of_id member targetMem (same.trans targetId.symm)
    have kept := unchanged row member seen (named_iff.mpr ⟨same, isTarget ▸ available⟩)
    have cancelledState := congrArg JobRow.state kept
    rw [isTarget, available] at cancelledState
    cases cancelledState
  · intro quiet row member seen hit
    have named := named_iff.mp hit
    exact absurd named.2 (quiet row member named.1 seen).1

/-- A cancellation that leaves the job in view as it is finds it neither
available nor, without an earlier request, running. -/
theorem cancel_sameJobs_iff :
    SameJobs visible db (Client.cancel id now later db).1 <->
      (id.fitsBigint = true -> forall row, row ∈ db.job.rows -> row.id = id.value ->
        visible row.queue = true -> row.state ≠ .available ∧
          (row.state = .running -> row.cancelRequestedAt ≠ none ∧ row.updatedAt = later)) := by
  by_cases fits : id.fitsBigint = true
  · rw [imp_iff_right fits]
    rcases cancelAvailableJob_commits db id.value now with ⟨cancelled, first⟩
    by_cases silent : cancelled.rows.isEmpty = true
    · exact cancel_sameJobs_iff_of_silent fits first silent
    · exact cancel_sameJobs_iff_of_cancelled fits first silent
  · have result : (Client.cancel id now later db).1 = db := by
      unfold Client.cancel
      rw [Client.query_of_not_fits _ (fun all => fits (fits_singleton.mp all))]
    rw [result]
    exact ⟨fun _ range => absurd range fits, fun _ => .of_rows rfl⟩

/-- A retry that leaves the job in view as it is finds it due just now. -/
theorem retryNow_sameJobs_iff :
    SameJobs visible db (Client.retryNow id now db).1 <->
      (id.fitsBigint = true -> forall row, row ∈ db.job.rows -> row.id = id.value ->
        visible row.queue = true -> row.state = .available ->
          row.runAt = now ∧ row.updatedAt = now) := by
  by_cases fits : id.fitsBigint = true
  · rcases retryJobNow_commits db id.value now with ⟨reply, committed⟩
    have queried := Client.query_of_fits (fits_singleton.mpr fits)
      (show (Statement.retryJobNow id.value).exec now db = .ok reply from committed)
    have result : (Client.retryNow id now db).1 = reply.db := by
      unfold Client.retryNow
      rw [queried]
      dsimp only
      split
      · rfl
      · rfl
    rw [result, Mutation.sameJobs_iff committed (fun _ => rfl)]
    constructor
    · exact fun unchanged _ row member same seen available => retryJobNow_idle_iff.mp
        (unchanged row member seen (named_iff.mpr ⟨same, available⟩))
    · intro quiet row member seen hit
      have named := named_iff.mp hit
      exact retryJobNow_idle_iff.mpr (quiet fits row member named.1 seen named.2)
  · have result : (Client.retryNow id now db).1 = db := by
      unfold Client.retryNow
      rw [Client.query_of_not_fits _ (fun all => fits (fits_singleton.mp all))]
    rw [result]
    exact ⟨fun _ range => absurd range fits, fun _ => .of_rows rfl⟩

/-- The statement of a replay, which changes every row it hits if it commits. -/
theorem replayDeadJobs_sameJobs_iff {ids : List Nat} {reply : Reply}
    (committed : (replayDeadJobs ids now).run db = .ok reply) :
    SameJobs visible db reply.db <->
      forall row, row ∈ db.job.rows -> row.id ∈ ids -> visible row.queue = true ->
        row.state ≠ .dead := by
  rw [Mutation.sameJobs_iff committed (fun _ => rfl)]
  constructor
  · intro unchanged row member named seen dead
    have kept := congrArg JobRow.state (unchanged row member seen (replay_hits_iff.mpr ⟨dead, named⟩))
    rw [dead] at kept
    cases kept
  · intro quiet row member seen hit
    have dead := replay_hits_iff.mp hit
    exact absurd dead.1 (quiet row member dead.2 seen)

/-- A replay of dead jobs in view leaves them alone only if the index on unique
keys refuses all that were requested. -/
theorem replayMany_sameJobs_iff {ids : List NumericId} :
    SameJobs visible db (Client.replayMany ids now db).1 <->
      ((forall id, id ∈ ids -> id.fitsBigint = true) -> forall row, row ∈ db.job.rows ->
        row.id ∈ ids.map NumericId.value -> visible row.queue = true -> row.state = .dead ->
          Not (Apart (ids.map NumericId.value) db)) := by
  by_cases empty : ids = []
  · subst empty
    exact ⟨fun _ _ _ _ named => absurd named List.not_mem_nil, fun _ => .of_rows rfl⟩
  by_cases fits : forall id, id ∈ ids -> id.fitsBigint = true
  · cases ran : (replayDeadJobs (ids.map NumericId.value) now).run db with
    | ok reply =>
        have apart := replay_commits_iff.mp ⟨reply, ran⟩
        rw [replayMany_of_run empty fits ran, replayDeadJobs_sameJobs_iff ran]
        constructor
        · exact fun quiet _ row member named seen dead => absurd dead (quiet row member named seen)
        · exact fun refused row member named seen dead =>
            refused fits row member named seen dead apart
    | error error =>
        have refused : Not (Apart (ids.map NumericId.value) db) := by
          intro apart
          rcases (@replay_commits_iff now _ db).mpr apart with ⟨reply, committed⟩
          rw [ran] at committed
          cases committed
        have result : (Client.replayMany ids now db).1 = db := by
          unfold Client.replayMany Client.query
          rw [if_neg empty, if_pos (List.all_eq_true.mpr fits),
            show (Statement.replayDeadJobs (ids.map NumericId.value)).exec now db = .error error
              from ran]
        rw [result]
        exact ⟨fun _ _ _ _ _ _ _ => refused, fun _ => .of_rows rfl⟩
  · have result : (Client.replayMany ids now db).1 = db := by
      unfold Client.replayMany Client.query
      rw [if_neg empty, if_neg (fun all => fits (List.all_eq_true.mp all))]
    rw [result]
    exact ⟨fun _ range => absurd range fits, fun _ => .of_rows rfl⟩

/-- A single replay changes what a bulk replay of the one id changes. -/
theorem replay_fst_eq : (Client.replay id now db).1 = (Client.replayMany [id] now db).1 := by
  have same : (Statement.replayDeadJob id.value).exec now db =
      (Statement.replayDeadJobs ([id].map NumericId.value)).exec now db :=
    congrArg (fun mutation => mutation.run db) (replayDeadJob_eq id.value)
  unfold Client.replay Client.replayMany Client.query
  rw [if_neg (List.cons_ne_nil id []), same]
  by_cases fits : [id].all NumericId.fitsBigint = true
  · rw [if_pos fits]
    cases (Statement.replayDeadJobs ([id].map NumericId.value)).exec now db with
    | error error => rfl
    | ok reply =>
        dsimp only
        split
        · rfl
        · rfl
  · rw [if_neg fits]

/-! The operations on jobs leave the configuration of the queues alone. -/

/-- An update that has been answered has been executed. -/
theorem Client.run_of_query {ids : List NumericId} {statement : Statement} {reply : Reply}
    {mutation : Mutation} (isUpdate : statement.mutation now db = some mutation)
    (queried : Client.query ids statement now db = .ok reply) :
    ids.all NumericId.fitsBigint = true ∧ mutation.run db = .ok reply := by
  unfold Client.query at queried
  split at queried
  · rename_i fits
    rw [Statement.exec_mutation isUpdate] at queried
    split at queried
    · rename_i committed
      cases queried
      exact ⟨fits, committed⟩
    · cases queried
  · cases queried

theorem Client.query_queueConfig {ids : List NumericId} {statement : Statement} {reply : Reply}
    {mutation : Mutation} (isUpdate : statement.mutation now db = some mutation)
    (queried : Client.query ids statement now db = .ok reply) :
    reply.db.queueConfig = db.queueConfig :=
  (Mutation.run_ok (Client.run_of_query isUpdate queried).2).2.2.2.2.2

theorem cancel_queueConfig (id : NumericId) (now later : Timestamp) (db : Database) :
    (Client.cancel id now later db).1.queueConfig = db.queueConfig := by
  unfold Client.cancel
  split
  · rfl
  · rename_i cancelled first
    have one := Client.query_queueConfig rfl first
    split
    · split
      · exact one
      · rename_i requested second
        have two := (Client.query_queueConfig rfl second).trans one
        split
        · exact two
        · exact two
    · exact one

theorem retryNow_queueConfig (id : NumericId) (now : Timestamp) (db : Database) :
    (Client.retryNow id now db).1.queueConfig = db.queueConfig := by
  unfold Client.retryNow
  split
  · rfl
  · rename_i reply queried
    have one := Client.query_queueConfig rfl queried
    split
    · exact one
    · exact one

theorem replayMany_queueConfig (ids : List NumericId) (now : Timestamp) (db : Database) :
    (Client.replayMany ids now db).1.queueConfig = db.queueConfig := by
  unfold Client.replayMany
  split
  · rfl
  · split
    · rfl
    · rename_i reply queried
      exact Client.query_queueConfig rfl queried

end Named

/-! ## Jobs that are added to a queue -/

/-- The next database has the jobs of this one, more jobs of the queue, and the
same configuration. -/
def AddsTo (queue : String) (db next : Database) : Prop :=
  next.queueConfig = db.queueConfig ∧ Exists fun added : List JobRow =>
    next.job.rows = db.job.rows ++ added ∧ forall row, row ∈ added -> row.queue = queue

namespace AddsTo

variable {queue : String} {db next last : Database}

theorem of_same (sameConfig : next.queueConfig = db.queueConfig) (same : next.job = db.job) :
    AddsTo queue db next :=
  ⟨sameConfig, [], by rw [same, List.append_nil], fun _ none => absurd none List.not_mem_nil⟩

theorem trans (first : AddsTo queue db next) (second : AddsTo queue next last) :
    AddsTo queue db last := by
  rcases first with ⟨sameConfig, added, rows, inQueue⟩
  rcases second with ⟨laterConfig, more, laterRows, laterInQueue⟩
  refine ⟨laterConfig.trans sameConfig, added ++ more, ?_, ?_⟩
  · rw [laterRows, rows, List.append_assoc]
  · intro row member
    rcases List.mem_append.mp member with early | late
    · exact inQueue row early
    · exact laterInQueue row late

/-- The jobs that are not of this queue stay as they are. -/
theorem agree {visible : String -> Bool} {schedules : ScheduleTable}
    (adds : AddsTo queue db next) (hidden : visible queue = false) :
    Tables.Agree visible ⟨db, schedules⟩ ⟨next, schedules⟩ := by
  rcases adds with ⟨sameConfig, added, rows, inQueue⟩
  rw [SameJobs.agree_iff sameConfig, SameJobs, rows]
  exact agree_append (fun row member => by rw [inQueue row member, hidden])

end AddsTo

theorem insertRows_addsTo {queue : String} {now : Timestamp} {rows : List EnqueueRow}
    {db last : Database} {outcomes : List (Option JobRow)}
    (inQueue : forall row, row ∈ rows -> row.queue = queue)
    (inserted : insertRows now rows db = .ok (last, outcomes)) : AddsTo queue db last := by
  induction rows generalizing db last outcomes with
  | nil =>
      cases inserted
      exact .of_same rfl rfl
  | cons row rows inductionHypothesis =>
      rcases insertRows_cons inserted with ⟨next, outcome, tail, first, rest, rfl⟩
      have head := insertRow_ok first
      have one : AddsTo queue db next := by
        rcases head.2.2.2.2 with ⟨_, _, same⟩ | ⟨_, _, appended⟩
        · exact .of_same head.2.2.2.1 same
        · refine ⟨head.2.2.2.1, _, appended, fun new member => ?_⟩
          rw [List.mem_singleton.mp member]
          exact inQueue row List.mem_cons_self
      exact one.trans (inductionHypothesis
        (fun other member => inQueue other (List.mem_cons_of_mem row member)) rest)

theorem insertJobsBatch_addsTo {queue : String} {now : Timestamp} {rows : List EnqueueRow}
    {db : Database} {reply : Reply} (inQueue : forall row, row ∈ rows -> row.queue = queue)
    (committed : insertJobsBatch rows now db = .ok reply) : AddsTo queue db reply.db := by
  rcases insertJobsBatch_ok committed with ⟨outcomes, inserted, _⟩
  exact insertRows_addsTo inQueue inserted

theorem queue_of_carried {queue : String} {items : List BatchEnqueueItem} {rows : List EnqueueRow}
    (carried : List.Forall₂ (BatchEnqueueItem.Carried queue) items rows) :
    forall row, row ∈ rows -> row.queue = queue := by
  induction carried with
  | nil => exact fun _ none => absurd none List.not_mem_nil
  | cons first _ inductionHypothesis =>
      intro row member
      rcases List.mem_cons.mp member with rfl | later
      · exact first.queue
      · exact inductionHypothesis row later

/-- A batch goes to the queue it names. -/
theorem enqueueBatch_addsTo (config : ClientConfig) (now : Timestamp) (queue : String)
    (items : List BatchEnqueueItem) (db : Database) (state : ClientState) :
    AddsTo queue db (enqueueBatch config now queue items db state).2.1 := by
  have same : AddsTo queue db db := .of_same rfl rfl
  unfold enqueueBatch
  split
  · exact same
  · split
    · exact same
    · split
      · exact same
      · split
        · exact same
        · rename_i rows next built
          split
          · exact same
          · rename_i reply committed
            exact insertJobsBatch_addsTo (queue_of_carried (buildRows_ok built).1) committed

/-- A statement of a call inserts into the queue of the call. -/
theorem EnqueueCall.Sound.addsTo {db : Database} {mine : List JobRow} {call : EnqueueCall}
    (sound : call.Sound db mine) (config : ClientConfig) (now : Timestamp) (state : ClientState) :
    AddsTo call.request.queue db (call.advance config now db state).db := by
  have same : AddsTo call.request.queue db db := .of_same rfl rfl
  rcases call with ⟨request, phase⟩
  unfold EnqueueCall.advance
  cases phase with
  | inserting row =>
      have inQueue : forall other, other ∈ [row] -> other.queue = request.queue :=
        fun other member => List.mem_singleton.mp member ▸ sound.2.queue
      dsimp only
      split
      · rename_i reply inserted
        rw [insertJob_eq_batch] at inserted
        have added := insertJobsBatch_addsTo inQueue inserted
        split
        · exact added
        · exact added
      · exact same
      · exact same
  | resolving readAt => exact same
  | findingIdempotent row key =>
      dsimp only
      split
      · exact same
      · exact same
  | findingUnique row key =>
      dsimp only
      split
      · exact same
      · exact same
  | returned result => exact same
  | thrown error => exact same

/-- So do its statements one after the other. -/
theorem EnqueueCall.Sound.finish_addsTo {config : ClientConfig} {now : Timestamp}
    {statements : Nat} {db : Database} {mine : List JobRow} {call : EnqueueCall}
    (sound : call.Sound db mine) (state : ClientState) :
    AddsTo call.request.queue db (EnqueueCall.finish config now statements call db state).2.1 := by
  induction statements generalizing db mine call state with
  | zero => exact .of_same rfl rfl
  | succ statements inductionHypothesis =>
      exact (sound.addsTo config now state).trans
        (inductionHypothesis (sound.advance config now state).1 _)

/-- An enqueue goes to the queue it names. -/
theorem Client.enqueue_addsTo (config : ClientConfig) (now : Timestamp) (request : EnqueueRequest)
    (db : Database) (state : ClientState) :
    AddsTo request.queue db (Client.enqueue config now request db state).2.1 :=
  (@EnqueueCall.sound_begin config request db state).finish_addsTo _

/-- The statements of a call bring it to its end. -/
theorem EnqueueCall.remaining_finish (config : ClientConfig) (now : Timestamp) (statements : Nat)
    (call : EnqueueCall) (db : Database) (state : ClientState) :
    (EnqueueCall.finish config now statements call db state).1.remaining ≤
      call.phase.remaining - statements := by
  induction statements generalizing call db state with
  | zero => exact Nat.le_refl _
  | succ statements inductionHypothesis =>
      have first := remaining_advance config now db state call
      have rest := inductionHypothesis
        ⟨call.request, (call.advance config now db state).phase⟩
        (call.advance config now db state).db (call.advance config now db state).client
      unfold finish
      dsimp only at rest ⊢
      omega

/-- Four statements are enough for an answer. -/
theorem Client.enqueue_ends (config : ClientConfig) (now : Timestamp) (request : EnqueueRequest)
    (db : Database) (state : ClientState) :
    (Client.enqueue config now request db state).1.remaining = 0 := by
  have bounded : forall phase : EnqueuePhase, phase.remaining ≤ 4 := by
    intro phase
    cases phase <;> simp [EnqueuePhase.remaining]
  have ended := EnqueueCall.remaining_finish config now 4
    ⟨request, (request.begin config state).1⟩ db (request.begin config state).2
  have started := bounded (request.begin config state).1
  unfold Client.enqueue
  dsimp only at ended ⊢
  omega

/-! ## Queues that are named -/

section Queues

variable {visible : String -> Bool} {queue : String}

theorem setPaused_rows (config : QueueConfigTable) (hidden : visible queue = false)
    (paused : Bool) :
    RowViews.Agree (fun row : QueueConfigRow => visible row.queue) config.rows
      (config.setPaused queue paused).rows := by
  unfold QueueConfigTable.setPaused
  split
  · refine (agree_map_iff config.primaryKey ?_ ?_).mpr ?_
    · intro row
      split
      · rfl
      · rfl
    · intro row
      split
      · rfl
      · rfl
    · intro row _ seen
      apply if_neg
      intro same
      rw [same, hidden] at seen
      cases seen
  · exact agree_append (fun row member => List.mem_singleton.mp member ▸ hidden)

/-- Pausing sets the row of the queue alone. -/
theorem setPaused_agree (hidden : visible queue = false) (paused : Bool) (db : Database)
    (state : ClientState) (schedules : ScheduleTable) :
    Tables.Agree visible ⟨db, schedules⟩
      ⟨(Client.setPaused queue paused db state).2.1, schedules⟩ := by
  unfold Client.setPaused
  split
  · exact .refl _ _
  · exact ⟨.refl _ _, .refl _ _, setPaused_rows db.queueConfig hidden paused⟩

theorem purgeQueue_sameJobs {states : List JobState} {limit : Nat} {locked : List Nat}
    {db : Database} {reply : Reply} (hidden : visible queue = false)
    (committed : purgeQueue queue states limit locked db = .ok reply) :
    SameJobs visible db reply.db ∧ reply.db.queueConfig = db.queueConfig := by
  cases committed
  refine ⟨agree_filter_iff.mpr (fun row member seen => ?_), rfl⟩
  rw [Bool.not_eq_true', Bool.eq_false_iff]
  intro victim
  rcases mem_lockCandidates (List.contains_iff_mem.mp victim) with ⟨other, otherMem, selected, same⟩
  have isRow := db.job.eq_of_id otherMem member same
  rw [isRow] at selected
  rw [beq_iff_eq.mp (Bool.and_eq_true_iff.mp selected).1, hidden] at seen
  cases seen

/-- Purging deletes jobs of the queue alone. -/
theorem purgeBatches_agree (hidden : visible queue = false) (states : List JobState)
    (locked : Nat -> List Nat) (batches deleted : Nat) (db : Database) (schedules : ScheduleTable) :
    Tables.Agree visible ⟨db, schedules⟩
      ⟨(Client.purgeBatches queue states locked batches deleted db).2, schedules⟩ := by
  induction batches generalizing deleted db with
  | zero => exact .refl _ _
  | succ batches inductionHypothesis =>
      unfold Client.purgeBatches
      split
      · exact .refl _ _
      · rename_i reply committed
        have kept := purgeQueue_sameJobs hidden committed
        have one : Tables.Agree visible ⟨db, schedules⟩ ⟨reply.db, schedules⟩ :=
          (SameJobs.agree_iff kept.2).mpr kept.1
        split
        · exact one
        · exact one.trans (inductionHypothesis _ _)

theorem purge_agree (hidden : visible queue = false) (states : List JobState) (confirm : String)
    (locked : Nat -> List Nat) (db : Database) (schedules : ScheduleTable) :
    Tables.Agree visible ⟨db, schedules⟩
      ⟨(Client.purge queue states confirm locked db).2, schedules⟩ := by
  unfold Client.purge
  split
  · exact .refl _ _
  · split
    · exact .refl _ _
    · split
      · exact .refl _ _
      · exact purgeBatches_agree hidden states locked 1000 0 db schedules

end Queues

/-! ## Schedules -/

section Schedules

variable {visible : String -> Bool} {now : Timestamp} {clock : Int} {cron : Cron} {id : NumericId}

theorem createSchedule_rows {p : ScheduleParams} (hidden : visible p.queue = false)
    (nextRunAt : Int) (table : ScheduleTable) :
    RowViews.Agree (fun row : ScheduleRow => visible row.queue) table.rows
      (createSchedule p nextRunAt now table).1.rows := by
  unfold createSchedule
  split
  · exact .refl _ _
  · exact agree_append (fun row member => List.mem_singleton.mp member ▸ hidden)

/-- A schedule is created for the queue it names. -/
theorem create_rows {p : ScheduleParams} (hidden : visible p.queue = false)
    (table : ScheduleTable) :
    RowViews.Agree (fun row : ScheduleRow => visible row.queue) table.rows
      (Scheduler.create cron p clock now table).2.rows := by
  unfold Scheduler.create
  dsimp only
  split
  · exact .refl _ _
  · rename_i nextRunAt _
    have kept := @createSchedule_rows visible now p hidden nextRunAt table
    split
    · rename_i created
      rwa [created] at kept
    · rename_i refused
      rwa [refused] at kept

/-- An update of schedules leaves those in view alone exactly when it assigns
nothing new to those it hits. -/
theorem ScheduleTable.update_agree_iff {table : ScheduleTable} {hits : ScheduleRow -> Bool}
    {change : ScheduleChange} :
    RowViews.Agree (fun row : ScheduleRow => visible row.queue) table.rows
        (table.update hits change).rows <->
      forall row, row ∈ table.rows -> visible row.queue = true -> hits row = true ->
        change.set row = row := by
  have sameView : forall row, visible (rewrite hits change row).queue = visible row.queue := by
    intro row
    rw [rewrite_queue]
  rw [show (table.update hits change).rows = table.rows.map (rewrite hits change) from rfl,
    agree_map_iff table.primaryKey (rewrite_id hits change) sameView]
  constructor
  · intro unchanged row member seen hit
    have same := unchanged row member seen
    rwa [rewrite, if_pos hit] at same
  · intro unchanged row member seen
    unfold rewrite
    split
    · rename_i hit
      exact unchanged row member seen hit
    · rfl

theorem enableChange_idle_iff {enabled : Bool} {nextRunAt : Option Int} {row : ScheduleRow} :
    (enableChange enabled nextRunAt now).set row = row <->
      row.enabled = enabled ∧ row.updatedAt = now ∧
        forall time, nextRunAt = some time -> row.nextRunAt = ofMillis time := by
  constructor
  · intro same
    refine ⟨(congrArg ScheduleRow.enabled same).symm, (congrArg ScheduleRow.updatedAt same).symm, ?_⟩
    rintro time rfl
    exact (congrArg ScheduleRow.nextRunAt same).symm
  · rintro ⟨isEnabled, isUpdated, isNext⟩
    cases row
    cases isEnabled
    cases isUpdated
    cases nextRunAt with
    | none => rfl
    | some time =>
        cases isNext time rfl
        rfl

/-- What setting a schedule would change. -/
def SetIdle (cron : Cron) (enabled : Bool) (clock : Int) (now : Timestamp) (row : ScheduleRow) :
    Prop :=
  if enabled then forall nextRunAt, cron.nextOccurrence row.cron row.timezone clock = some nextRunAt ->
    row.enabled = true ∧ row.updatedAt = now ∧ row.nextRunAt = ofMillis nextRunAt
  else row.enabled = false ∧ row.updatedAt = now

theorem setScheduleEnabled_rows_iff {enabled : Bool} {nextRunAt : Option Int}
    {table : ScheduleTable} {existing : ScheduleRow} (found : table.find id.value = some existing) :
    RowViews.Agree (fun row : ScheduleRow => visible row.queue) table.rows
        (setScheduleEnabled id.value enabled nextRunAt now table).rows <->
      (visible existing.queue = true -> existing.enabled = enabled ∧ existing.updatedAt = now ∧
        forall time, nextRunAt = some time -> existing.nextRunAt = ofMillis time) := by
  have there := ScheduleTable.find_eq_some_iff.mp found
  unfold setScheduleEnabled
  rw [ScheduleTable.update_agree_iff]
  constructor
  · exact fun unchanged seen => enableChange_idle_iff.mp
      (unchanged existing there.1 seen (beq_iff_eq.mpr there.2))
  · intro idle row member seen hit
    have isRow := ScheduleTable.find_eq_some_iff.mpr ⟨member, beq_iff_eq.mp hit⟩
    rw [found] at isRow
    cases isRow
    exact enableChange_idle_iff.mpr (idle seen)

/-- Setting a schedule in view leaves it alone only if the cron expression is
rejected or there is nothing to set. -/
theorem setEnabled_rows_iff {enabled : Bool} {table : ScheduleTable} :
    RowViews.Agree (fun row : ScheduleRow => visible row.queue) table.rows
        (Scheduler.setEnabled cron id enabled clock now table).2.rows <->
      (id.fitsBigint = true -> forall row, row ∈ table.rows -> row.id = id.value ->
        visible row.queue = true -> SetIdle cron enabled clock now row) := by
  unfold Scheduler.setEnabled Scheduler.get
  by_cases fits : id.fitsBigint = true
  · rw [if_pos fits]
    cases found : table.find id.value with
    | none =>
        refine ⟨fun _ _ row member same => ?_, fun _ => .refl _ _⟩
        rw [ScheduleTable.find_eq_some_iff.mpr ⟨member, same⟩] at found
        cases found
    | some existing =>
        have there := ScheduleTable.find_eq_some_iff.mp found
        -- the row with the id is the one that has been read
        have single : (id.fitsBigint = true -> forall row, row ∈ table.rows -> row.id = id.value ->
            visible row.queue = true -> SetIdle cron enabled clock now row) <->
              (visible existing.queue = true -> SetIdle cron enabled clock now existing) := by
          constructor
          · exact fun idle seen => idle fits existing there.1 there.2 seen
          · intro idle _ row member same seen
            have isRow := ScheduleTable.find_eq_some_iff.mpr ⟨member, same⟩
            rw [found] at isRow
            cases isRow
            exact idle seen
        rw [single]
        dsimp only
        cases enabled with
        | false =>
            rw [if_neg Bool.false_ne_true, setScheduleEnabled_rows_iff found]
            constructor
            · exact fun idle seen => ⟨(idle seen).1, (idle seen).2.1⟩
            · exact fun idle seen => ⟨(idle seen).1, (idle seen).2, fun _ none => nomatch none⟩
        | true =>
            rw [if_pos rfl]
            cases next : cron.nextOccurrence existing.cron existing.timezone clock with
            | none =>
                refine ⟨fun _ _ nextRunAt computed => ?_, fun _ => .refl _ _⟩
                rw [next] at computed
                cases computed
            | some nextRunAt =>
                dsimp only
                rw [setScheduleEnabled_rows_iff found]
                constructor
                · intro idle seen time computed
                  rw [next] at computed
                  exact ⟨(idle seen).1, (idle seen).2.1, (idle seen).2.2 time computed⟩
                · intro idle seen
                  have there := idle seen nextRunAt next
                  refine ⟨there.1, there.2.1, fun time isTime => ?_⟩
                  cases isTime
                  exact there.2.2
  · rw [if_neg fits]
    exact ⟨fun _ range => absurd range fits, fun _ => .refl _ _⟩

/-- Deleting a schedule leaves the rows in view alone only if neither it nor a
job that came from it is among them. -/
theorem delete_agree_iff {tables : Tables} :
    Tables.Agree visible tables (Scheduler.delete id tables).2 <->
      (id.fitsBigint = true -> forall row, row ∈ tables.schedules.rows -> row.id = id.value ->
        visible row.queue = false ∧ forall job, job ∈ tables.db.job.rows ->
          job.scheduleId = some id.value -> visible job.queue = false) := by
  unfold Scheduler.delete
  by_cases fits : id.fitsBigint = true
  · rw [if_pos fits]
    cases found : tables.schedules.find id.value with
    | none =>
        have missing : deleteSchedule id.value tables = .ok (tables, false) := by
          rw [deleteSchedule, found]
        rw [missing]
        refine ⟨fun _ _ row member same => ?_, fun _ => .refl _ _⟩
        rw [ScheduleTable.find_eq_some_iff.mpr ⟨member, same⟩] at found
        cases found
    | some existing =>
        have there := ScheduleTable.find_eq_some_iff.mp found
        rcases clearSchedule_commits id.value tables.db with ⟨reply, committed⟩
        have deleted : deleteSchedule id.value tables =
            .ok (⟨reply.db, tables.schedules.delete id.value⟩, true) := by
          rw [deleteSchedule, found]
          dsimp only
          rw [committed]
        rw [deleted]
        dsimp only
        have jobs := @Mutation.sameJobs_iff visible tables.db _ _ committed (fun _ => rfl)
        constructor
        · intro agree _ row member same
          constructor
          · rw [Bool.eq_false_iff]
            intro seen
            have kept := agree_filter_iff.mp agree.schedule row member seen
            rw [same, bne_self_eq_false] at kept
            cases kept
          · intro job jobMem refers
            rw [Bool.eq_false_iff]
            intro seen
            have cleared := congrArg JobRow.scheduleId
              (jobs.mp agree.job job jobMem seen (beq_iff_eq.mpr refers))
            rw [refers] at cleared
            cases cleared
        · intro hidden
          have apart := hidden fits existing there.1 there.2
          refine ⟨jobs.mpr (fun job jobMem seen hit => ?_), agree_filter_iff.mpr
            (fun row member seen => ?_), ?_⟩
          · rw [apart.2 job jobMem (beq_iff_eq.mp hit)] at seen
            cases seen
          · rw [bne_iff_ne]
            intro same
            have isRow := ScheduleTable.find_eq_some_iff.mpr ⟨member, same⟩
            rw [found] at isRow
            cases isRow
            rw [apart.1] at seen
            cases seen
          · rw [(Mutation.run_ok committed).2.2.2.2.2]
            exact .refl _ _
  · rw [if_neg fits]
    exact ⟨fun _ range => absurd range fits, fun _ => .refl _ _⟩

end Schedules

end PgJobQ
