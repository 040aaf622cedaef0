import PgJobQ.Client.Queues
import PgJobQ.Lifecycle.StateMachine

/-!
# Retention and pausing

A pass of the retention loop removes terminal jobs that are older than the
window of their queue.  A queue with a row in `queue_config` has the windows of
that row, any other queue has the ones the loop was constructed with.  Two
windows are as good as one when they begin at the same moment whenever the pass
is made, which for a month or a day depends on the time zone of the session.

Pausing a queue upserts its row.  A queue that had none gets the column
defaults with it and keeps them when it is resumed, so that the windows of the
loop no longer apply to it.
-/

namespace PgJobQ

open UniqueRows Intervals

/-- `RetentionOptions`, with what the database reads of the two texts as an
interval, and the time zone of the sessions of `db`. -/
structure RetentionOptions where
  batchMax : Nat
  archive : Bool
  defaultRetainSucceeded : Option Interval
  defaultRetainDead : Option Interval
  zone : TimeZone

namespace RetentionOptions

def params (opts : RetentionOptions) : RetentionParams where
  limit := opts.batchMax
  defaultRetainSucceeded := opts.defaultRetainSucceeded
  defaultRetainDead := opts.defaultRetainDead
  zone := opts.zone

/-- The statement of one bounded pass. -/
def statement (opts : RetentionOptions) (locked : List Nat) : Statement :=
  if opts.archive then .archiveTerminalJobs opts.params locked
  else .pruneTerminalJobs opts.params locked

/-- The jobs that a pass removes. -/
def removed (opts : RetentionOptions) (locked : List Nat) (now : Timestamp) (db : Database) :
    List JobRow :=
  match (opts.statement locked).exec now db with
  | .ok reply => reply.rows
  | .error _ => []

/-- The windows for succeeded and for dead jobs, if both texts are intervals. -/
def defaultWindows (opts : RetentionOptions) : Option (Interval × Interval) :=
  match opts.defaultRetainSucceeded, opts.defaultRetainDead with
  | some succeeded, some dead => some (succeeded, dead)
  | _, _ => none

theorem readable_params (opts : RetentionOptions) :
    opts.params.readable = opts.defaultWindows.isSome := by
  unfold RetentionParams.readable params defaultWindows
  cases opts.defaultRetainSucceeded with
  | none => rfl
  | some succeeded => cases opts.defaultRetainDead <;> rfl

end RetentionOptions

/-! ## Windows -/

/-- The column defaults of `queue_config`: `24 hours` and `30 days`. -/
def columnWindows : Interval × Interval := (⟨0, 0, seconds 86400⟩, ⟨0, 30, 0⟩)

/-- Both windows begin at the same moments. -/
def SameCutoffs (zone : TimeZone) (first second : Interval × Interval) : Prop :=
  forall now, zone.subtract now first.1 = zone.subtract now second.1 ∧
    zone.subtract now first.2 = zone.subtract now second.2

theorem SameCutoffs.refl (zone : TimeZone) (windows : Interval × Interval) :
    SameCutoffs zone windows windows :=
  fun _ => ⟨rfl, rfl⟩

theorem SameCutoffs.symm {zone : TimeZone} {first second : Interval × Interval}
    (same : SameCutoffs zone first second) : SameCutoffs zone second first :=
  fun now => ⟨(same now).1.symm, (same now).2.symm⟩

theorem SameCutoffs.trans {zone : TimeZone} {first second third : Interval × Interval}
    (one : SameCutoffs zone first second) (two : SameCutoffs zone second third) :
    SameCutoffs zone first third :=
  fun now => ⟨(one now).1.trans (two now).1, (one now).2.trans (two now).2⟩

/-- Where the clocks are never changed, windows without months begin with the
column defaults when they are as long. -/
theorem sameCutoffs_fixed_iff {offset : Int} (west : -86400000000 ≤ offset)
    (east : offset ≤ 86400000000) {windows : Interval × Interval}
    (noMonths : windows.1.months = 0 ∧ windows.2.months = 0) :
    SameCutoffs (.fixed offset west east) windows columnWindows <->
      windows.1.days * dayLength + windows.1.micros = seconds 86400 ∧
        windows.2.days * dayLength + windows.2.micros = 30 * dayLength := by
  unfold SameCutoffs columnWindows
  dsimp only
  simp only [subtract_fixed west east _ noMonths.1, subtract_fixed west east _ noMonths.2,
    @subtract_fixed offset west east _ ⟨0, 0, seconds 86400⟩ rfl,
    @subtract_fixed offset west east _ ⟨0, 30, 0⟩ rfl]
  constructor
  · intro same
    have now := same 0
    omega
  · intro same now
    omega

/-- Where they are, 720 hours are not 30 days. -/
example : Not (SameCutoffs springForward (⟨0, 0, seconds 86400⟩, ⟨0, 0, seconds 2592000⟩)
    columnWindows) :=
  fun same => absurd (same 43200000000).2 (by decide)

namespace QueueConfigTable

/-- The windows a queue has of its own. -/
def windows (config : QueueConfigTable) (queue : String) : Option (Interval × Interval) :=
  (config.forQueue queue).map (fun row => (row.retainSucceeded, row.retainDead))

/-- A pause keeps the windows of a queue that has some, and gives it the column
defaults otherwise. -/
theorem windows_setPaused (config : QueueConfigTable) (queue other : String) (paused : Bool) :
    (config.setPaused queue paused).windows other =
      if other = queue then some ((config.windows queue).getD columnWindows)
      else config.windows other := by
  unfold windows
  rw [forQueue_setPaused]
  split
  · cases config.forQueue queue <;> rfl
  · rfl

/-- A list of pauses and resumptions, the first one first. -/
def pauseAll (config : QueueConfigTable) (pauses : List (String × Bool)) : QueueConfigTable :=
  pauses.foldl (fun current pause => current.setPaused pause.1 pause.2) config

/-- The loop finds windows with the same beginnings for every queue, whatever is
paused later. -/
def SameWindows (zone : TimeZone) (defaults : Interval × Interval)
    (first second : QueueConfigTable) : Prop :=
  forall (pauses : List (String × Bool)) (queue : String),
    SameCutoffs zone (((first.pauseAll pauses).windows queue).getD defaults)
      (((second.pauseAll pauses).windows queue).getD defaults)

theorem sameWindows_of_windows {zone : TimeZone} {defaults : Interval × Interval}
    {first second : QueueConfigTable}
    (same : forall queue, first.windows queue = second.windows queue) :
    SameWindows zone defaults first second := by
  intro pauses
  induction pauses generalizing first second with
  | nil =>
      intro queue
      change SameCutoffs zone ((first.windows queue).getD defaults) _
      rw [same queue]
      exact .refl zone _
  | cons pause pauses inductionHypothesis =>
      apply inductionHypothesis
      intro queue
      rw [windows_setPaused, windows_setPaused, same, same]

/-- Where the defaults of the loop begin with those of the columns, it does not
matter which of the two applies. -/
theorem sameWindows_of_defaults {zone : TimeZone} {defaults : Interval × Interval}
    {first second : QueueConfigTable} (alike : SameCutoffs zone defaults columnWindows)
    (same : forall queue, SameCutoffs zone ((first.windows queue).getD columnWindows)
      ((second.windows queue).getD columnWindows)) : SameWindows zone defaults first second := by
  intro pauses
  have either : forall own : Option (Interval × Interval),
      SameCutoffs zone (own.getD defaults) (own.getD columnWindows) := by
    intro own
    cases own with
    | none => exact alike
    | some windows => exact .refl zone windows
  induction pauses generalizing first second with
  | nil => exact fun queue => (either _).trans ((same queue).trans (either _).symm)
  | cons pause pauses inductionHypothesis =>
      apply inductionHypothesis
      intro queue
      rw [windows_setPaused, windows_setPaused]
      split
      · exact same pause.1
      · exact same queue

end QueueConfigTable

/-- Which of the two windows counts for a job in this state. -/
def JobState.window (state : JobState) (windows : Interval × Interval) : Interval :=
  match state with
  | .dead => windows.2
  | _ => windows.1

theorem subtract_window {zone : TimeZone} {now : Timestamp} {first second : Interval × Interval}
    (same : zone.subtract now first.1 = zone.subtract now second.1 ∧
      zone.subtract now first.2 = zone.subtract now second.2) (state : JobState) :
    zone.subtract now (state.window first) = zone.subtract now (state.window second) := by
  cases state with
  | dead => exact same.2
  | _ => exact same.1

theorem retentionWindow_eq {opts : RetentionOptions} {defaults : Interval × Interval}
    (readable : opts.defaultWindows = some defaults) (config : QueueConfigTable) (job : JobRow) :
    retentionWindow config opts.params job =
      some (job.state.window ((config.windows job.queue).getD defaults)) := by
  have texts : opts.defaultRetainSucceeded = some defaults.1 ∧
      opts.defaultRetainDead = some defaults.2 := by
    unfold RetentionOptions.defaultWindows at readable
    split at readable
    · rename_i succeeded dead isSucceeded isDead
      cases readable
      exact ⟨isSucceeded, isDead⟩
    · cases readable
  unfold retentionWindow QueueConfigTable.windows RetentionOptions.params
  dsimp only
  rw [texts.1, texts.2]
  cases config.forQueue job.queue with
  | none => cases job.state <;> rfl
  | some row => cases job.state <;> rfl

/-- A partition of the archive covers the time. -/
def Database.archives (db : Database) (now : Timestamp) : Bool :=
  db.partitions.any (fun part => part.lower ≤ now && now < part.upper)

/-- A pass removes its victims, unless a text is no interval or it cannot archive
them. -/
theorem removed_eq (opts : RetentionOptions) (locked : List Nat) (now : Timestamp) (db : Database) :
    opts.removed locked now db =
      if opts.defaultWindows.isNone || (opts.archive && !db.archives now) then []
      else db.job.rows.filter (retentionVictim opts.params locked now db) := by
  have readable := opts.readable_params
  unfold RetentionOptions.removed RetentionOptions.statement Database.archives
  cases given : opts.defaultWindows with
  | none =>
      rw [given] at readable
      cases opts.archive with
      | false => simp [Statement.exec, pruneTerminalJobs, readable]
      | true => simp [Statement.exec, archiveTerminalJobs, readable]
  | some defaults =>
      rw [given] at readable
      cases opts.archive with
      | false => simp [Statement.exec, pruneTerminalJobs, readable]
      | true =>
          simp only [if_true, Statement.exec, archiveTerminalJobs, Bool.true_and, readable,
            Option.isSome_some, Bool.not_true, Bool.false_eq_true, if_false, Option.isNone_some,
            Bool.false_or]
          cases covered : db.partitions.any (fun part => part.lower ≤ now && now < part.upper) with
          | true => simp
          | false =>
              by_cases none : db.job.rows.filter (retentionVictim opts.params locked now db) = []
              · simp [none]
              · simp [none]

/-- Windows that begin at the same moments make equal sweeps. -/
theorem removed_congr {opts : RetentionOptions} {defaults : Interval × Interval}
    (readable : opts.defaultWindows = some defaults) {first second : QueueConfigTable}
    (same : forall queue, SameCutoffs opts.zone ((first.windows queue).getD defaults)
      ((second.windows queue).getD defaults))
    (locked : List Nat) (now : Timestamp) (later : Database) :
    opts.removed locked now { later with queueConfig := first } =
      opts.removed locked now { later with queueConfig := second } := by
  have samePast : pastRetention first opts.params now = pastRetention second opts.params now := by
    funext job
    unfold pastRetention
    rw [retentionWindow_eq readable, retentionWindow_eq readable]
    have cutoffs := same job.queue now
    have zone : opts.params.zone = opts.zone := rfl
    cases job.finishedAt with
    | none => rfl
    | some finished =>
        dsimp only
        rw [zone, subtract_window cutoffs]
  have sameVictim : retentionVictim opts.params locked now { later with queueConfig := first } =
      retentionVictim opts.params locked now { later with queueConfig := second } := by
    funext job
    unfold retentionVictim
    dsimp only
    rw [samePast]
  rw [removed_eq, removed_eq, sameVictim]
  rfl

/-! ## A table with one finished job -/

/-- A job that has succeeded or died. -/
def finishedJob (queue : String) (died : Bool) (finished : Timestamp) : JobRow :=
  { (plainEnqueue 1).toJobRow 1 0 with
    queue := queue
    state := if died then .dead else .succeeded
    deadReason := if died then some .nonRetryableError else none
    finishedAt := some finished }

theorem finishedJob_constraints (queue : String) (died : Bool) (finished : Timestamp) :
    Constraints [finishedJob queue died finished] where
  checked := by
    intro row member
    rw [List.mem_singleton.mp member]
    cases died
    · rfl
    · rfl
  primaryKey := uniqueOn_singleton _ _
  idempotencyIdx := uniqueOn_singleton _ _
  uniqueActiveIdx := uniqueOn_singleton _ _

/-- The table holds the job and nothing else, and the archive has a partition
for the given time. -/
def finishedOnly (queue : String) (died : Bool) (finished now : Timestamp) : Database where
  job := ⟨[finishedJob queue died finished], finishedJob_constraints queue died finished⟩
  nextId := 2
  identity := by
    intro row member
    rw [List.mem_singleton.mp member]
    exact Nat.lt_succ_self 1
  jobArchive := []
  partitions := [⟨"now", now, now + 1⟩]
  queueConfig := .empty

/-- A pass over it removes the job once its window is over. -/
theorem removed_finishedOnly {opts : RetentionOptions} {defaults : Interval × Interval}
    (readable : opts.defaultWindows = some defaults) (positive : 0 < opts.batchMax)
    (queue : String) (died : Bool) (finished now : Timestamp) (config : QueueConfigTable) :
    opts.removed [] now { finishedOnly queue died finished now with queueConfig := config } =
      if pastRetention config opts.params now (finishedJob queue died finished) then
        [finishedJob queue died finished] else [] := by
  have limit : opts.params.limit = opts.params.limit - 1 + 1 :=
    (Nat.succ_pred_eq_of_pos positive).symm
  have taken : retentionVictim opts.params [] now
      { finishedOnly queue died finished now with queueConfig := config }
        (finishedJob queue died finished) =
        pastRetention config opts.params now (finishedJob queue died finished) := by
    unfold retentionVictim lockCandidates finishedOnly
    dsimp only
    rw [limit]
    cases past : pastRetention config opts.params now (finishedJob queue died finished) with
    | true => simp [past]
    | false => simp [past]
  have covered : Database.archives
      { finishedOnly queue died finished now with queueConfig := config } now = true := by
    have below : now < now + 1 := Int.lt_succ now
    simp [Database.archives, finishedOnly, below]
  rw [removed_eq, covered, readable, Bool.not_true, Bool.and_false, Option.isNone_some,
    Bool.or_false, if_neg Bool.false_ne_true]
  change [finishedJob queue died finished].filter _ = _
  rw [List.filter_cons, taken, List.filter_nil]

/-- Where two windows begin at different moments, a job that has finished in
between is removed by one pass and not by the other. -/
theorem cutoffs_of_removed {opts : RetentionOptions} {defaults : Interval × Interval}
    (readable : opts.defaultWindows = some defaults) (positive : 0 < opts.batchMax)
    {first second : QueueConfigTable} (queue : String)
    (same : forall (died : Bool) (finished now : Timestamp),
      opts.removed [] now { finishedOnly queue died finished now with queueConfig := first } =
        opts.removed [] now { finishedOnly queue died finished now with queueConfig := second }) :
    SameCutoffs opts.zone ((first.windows queue).getD defaults)
      ((second.windows queue).getD defaults) := by
  have overdue : forall (died : Bool) (finished now : Timestamp) (config : QueueConfigTable),
      pastRetention config opts.params now (finishedJob queue died finished) = true <->
        finished < opts.zone.subtract now (
          if died then ((config.windows queue).getD defaults).2
          else ((config.windows queue).getD defaults).1) := by
    intro died finished now config
    unfold pastRetention
    rw [retentionWindow_eq readable]
    cases died with
    | true => exact decide_eq_true_iff
    | false => exact decide_eq_true_iff
  have agree : forall (died : Bool) (finished now : Timestamp),
      pastRetention first opts.params now (finishedJob queue died finished) = true <->
        pastRetention second opts.params now (finishedJob queue died finished) = true := by
    intro died finished now
    have swept := same died finished now
    rw [removed_finishedOnly readable positive, removed_finishedOnly readable positive] at swept
    constructor
    · intro past
      by_contra kept
      rw [if_pos past, if_neg kept] at swept
      exact absurd swept (List.cons_ne_nil _ _)
    · intro past
      by_contra kept
      rw [if_neg kept, if_pos past] at swept
      exact absurd swept.symm (List.cons_ne_nil _ _)
  intro now
  have equal : forall one two : Timestamp,
      (forall finished, finished < one <-> finished < two) -> one = two := by
    intro one two order
    exact le_antisymm (not_lt.mp (fun longer => lt_irrefl _ ((order two).mp longer)))
      (not_lt.mp (fun longer => lt_irrefl _ ((order one).mpr longer)))
  constructor
  · apply equal
    intro finished
    have both := agree false finished now
    rw [overdue, overdue] at both
    exact both
  · apply equal
    intro finished
    have both := agree true finished now
    rw [overdue, overdue] at both
    exact both

/-! ## Pausing and resuming -/

/-- The database after a queue has been paused and resumed. -/
def Client.pausedAndResumed (queue : String) (db : Database) (state : ClientState) : Database :=
  let paused := Client.setPaused queue true db state
  (Client.setPaused queue false paused.2.1 paused.2.2).2.1

/-- Two calls of `setPaused` leave everything alone but the flag: the jobs, the
rows of other queues, the defaults an enqueue resolves, and what any later pass
of the loop removes, also after further pauses. -/
structure PauseNeutral (opts : RetentionOptions) (queue : String) (before after : Database) :
    Prop where
  tables : after = { before with queueConfig := after.queueConfig }
  others : forall other, other ≠ queue ->
    after.queueConfig.forQueue other = before.queueConfig.forQueue other
  resolved : { resolveQueueDefaults queue after with paused := false } =
    { resolveQueueDefaults queue before with paused := false }
  retention : forall (later : Database) (pauses : List (String × Bool)) (locked : List Nat)
    (now : Timestamp),
      opts.removed locked now
          { later with queueConfig := after.queueConfig.pauseAll pauses } =
        opts.removed locked now
          { later with queueConfig := before.queueConfig.pauseAll pauses }

/-- The upsert gives a queue without a row windows that begin at other moments
than those of the loop, if the loop has windows at all. -/
def ShiftsWindows (opts : RetentionOptions) (queue : String) (db : Database) : Prop :=
  validateName queue "queue" = .ok () ∧ 0 < opts.batchMax ∧
    db.queueConfig.forQueue queue = none ∧ Exists fun defaults : Interval × Interval =>
      opts.defaultWindows = some defaults ∧ Not (SameCutoffs opts.zone defaults columnWindows)

theorem pausedAndResumed_eq {queue : String} (named : validateName queue "queue" = .ok ())
    (db : Database) (state : ClientState) :
    Client.pausedAndResumed queue db state = { db with
      queueConfig := db.queueConfig.pauseAll [(queue, true), (queue, false)] } := by
  unfold Client.pausedAndResumed Client.setPaused
  simp only [named]
  rfl

theorem pausedAndResumed_of_refused {queue : String} (refused : validateName queue "queue" ≠ .ok ())
    (db : Database) (state : ClientState) : Client.pausedAndResumed queue db state = db := by
  have stays : forall (paused : Bool) (later : Database) (next : ClientState),
      (Client.setPaused queue paused later next).2 = (later, next) := by
    intro paused later next
    unfold Client.setPaused
    cases named : validateName queue "queue" with
    | error error => rfl
    | ok accepted => exact absurd named refused
  unfold Client.pausedAndResumed
  dsimp only
  rw [stays, stays]

theorem windows_pausedAndResumed (config : QueueConfigTable) (queue other : String) :
    (config.pauseAll [(queue, true), (queue, false)]).windows other =
      if other = queue then some ((config.windows queue).getD columnWindows)
      else config.windows other := by
  change ((config.setPaused queue true).setPaused queue false).windows other = _
  rw [QueueConfigTable.windows_setPaused, QueueConfigTable.windows_setPaused,
    QueueConfigTable.windows_setPaused, if_pos rfl, Option.getD_some]
  split <;> rfl

/-- A queue that has a row keeps its windows, and it does not matter whether a loop
applies the column defaults or windows that begin with them. -/
theorem sameWindows_of_kept {zone : TimeZone} {defaults : Interval × Interval}
    {config : QueueConfigTable} {queue : String}
    (kept : Not (config.forQueue queue = none ∧ Not (SameCutoffs zone defaults columnWindows))) :
    QueueConfigTable.SameWindows zone defaults (config.pauseAll [(queue, true), (queue, false)])
      config := by
  by_cases alike : SameCutoffs zone defaults columnWindows
  · apply QueueConfigTable.sameWindows_of_defaults alike
    intro other
    rw [windows_pausedAndResumed]
    split
    · rename_i same
      rw [same, Option.getD_some]
      exact .refl zone _
    · exact .refl zone _
  · apply QueueConfigTable.sameWindows_of_windows
    intro other
    rw [windows_pausedAndResumed]
    split
    · rename_i same
      rw [same]
      unfold QueueConfigTable.windows
      cases found : config.forQueue queue with
      | none => exact absurd ⟨found, alike⟩ kept
      | some row => rfl
    · rfl

/-- A pass with no room removes nothing. -/
theorem removed_of_batchMax {opts : RetentionOptions} (none : opts.batchMax = 0)
    (locked : List Nat) (now : Timestamp) (db : Database) : opts.removed locked now db = [] := by
  have victims : db.job.rows.filter (retentionVictim opts.params locked now db) = [] := by
    apply List.filter_eq_nil_iff.mpr
    intro row _
    unfold retentionVictim lockCandidates
    rw [show opts.params.limit = 0 from none, List.take_zero]
    exact Bool.false_ne_true
  rw [removed_eq, victims, ite_self]

/-- Nor does a pass whose windows are no intervals. -/
theorem removed_of_unreadable {opts : RetentionOptions} (unreadable : opts.defaultWindows = none)
    (locked : List Nat) (now : Timestamp) (db : Database) : opts.removed locked now db = [] := by
  rw [removed_eq, unreadable]
  rfl

/-- Pausing and resuming a queue is neutral exactly when the queue has a row
already, or the windows of the loop begin with the column defaults at every
time, or no pass of the loop removes anything. -/
theorem pause_neutral_iff (opts : RetentionOptions) (queue : String) (db : Database)
    (state : ClientState) : PauseNeutral opts queue db (Client.pausedAndResumed queue db state) <->
      Not (ShiftsWindows opts queue db) := by
  by_cases named : validateName queue "queue" = .ok ()
  · rw [pausedAndResumed_eq named]
    constructor
    · rintro neutral ⟨_, positive, missing, defaults, readable, differ⟩
      have same := cutoffs_of_removed readable positive queue (fun died finished now =>
        neutral.retention (finishedOnly queue died finished now) [] [] now)
      change SameCutoffs opts.zone
        (((db.queueConfig.pauseAll [(queue, true), (queue, false)]).windows queue).getD defaults)
          ((db.queueConfig.windows queue).getD defaults) at same
      have none : db.queueConfig.windows queue = none := by
        rw [QueueConfigTable.windows, missing, Option.map_none]
      rw [windows_pausedAndResumed, if_pos rfl, none] at same
      exact differ same.symm
    · intro kept
      have rows : forall other, (db.queueConfig.pauseAll [(queue, true), (queue, false)]).forQueue
          other = if other = queue then some { (db.queueConfig.forQueue queue).getD
            (newQueueConfig queue true) with paused := false } else
              db.queueConfig.forQueue other := by
        intro other
        change ((db.queueConfig.setPaused queue true).setPaused queue false).forQueue other = _
        rw [forQueue_setPaused, forQueue_setPaused, forQueue_setPaused, if_pos rfl]
        split <;> rfl
      refine ⟨rfl, ?_, ?_, ?_⟩
      · intro other different
        exact (rows other).trans (if_neg different)
      · unfold resolveQueueDefaults
        dsimp only
        rw [rows queue, if_pos rfl]
        cases db.queueConfig.forQueue queue <;> rfl
      · intro later pauses locked now
        by_cases positive : 0 < opts.batchMax
        · cases readable : opts.defaultWindows with
          | none => rw [removed_of_unreadable readable, removed_of_unreadable readable]
          | some defaults =>
              have same := @sameWindows_of_kept opts.zone defaults db.queueConfig queue
                (fun shifts => kept ⟨named, positive, shifts.1, defaults, readable, shifts.2⟩)
              exact removed_congr readable (same pauses) locked now later
        · rw [removed_of_batchMax (Nat.eq_zero_of_not_pos positive),
            removed_of_batchMax (Nat.eq_zero_of_not_pos positive)]
  · rw [pausedAndResumed_of_refused named]
    constructor
    · exact fun _ shifts => named shifts.1
    · exact fun _ => ⟨rfl, fun _ _ => rfl, rfl, fun _ _ _ _ => rfl⟩

def utc : TimeZone := .fixed 0 (by decide) (by decide)

/-- A loop that keeps finished jobs for an hour. -/
def oneHour : RetentionOptions :=
  ⟨1000, false, some ⟨0, 0, seconds 3600⟩, some ⟨0, 0, seconds 3600⟩, utc⟩

def freshClient : ClientState := ⟨.empty, ⟨[], 0, []⟩, 0⟩

/-- Two hours after a job of the queue has finished, it is removed if the queue
was never paused and kept if it was. -/
theorem paused_queue_keeps_jobs :
    oneHour.removed [] (seconds 7200) (finishedOnly "mail" false 0 (seconds 7200)) =
        [finishedJob "mail" false 0] ∧
      oneHour.removed [] (seconds 7200) { finishedOnly "mail" false 0 (seconds 7200) with
        queueConfig := (Client.pausedAndResumed "mail" (.empty [] .empty) freshClient).queueConfig } =
        [] ∧
      Not (PauseNeutral oneHour "mail" (.empty [] .empty)
        (Client.pausedAndResumed "mail" (.empty [] .empty) freshClient)) := by
  refine ⟨by decide, by decide, fun neutral => ?_⟩
  have same := neutral.retention (finishedOnly "mail" false 0 (seconds 7200)) [] [] (seconds 7200)
  exact absurd same (by decide)

end PgJobQ
