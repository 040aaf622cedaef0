import Mathlib.Algebra.Ring.Nat
import PgJobQ.Concurrency.LockingStatements
import PgJobQ.Library.Draining
import PgJobQ.Lifecycle.Fence

/-!
# Reapers side by side

Every instance runs a reaper, and each drains the expired leases in passes of
at most `batchMax` rows until a pass comes back short.  A pass skips the rows
that another pass, a heartbeat or a late report has locked, so a short pass is
no sign that nothing was left; it is one that everything left is locked.

A row that a pass has changed is not running, and no pass or report touches it
again.
-/

namespace PgJobQ

open Runs RowLocking

/-! ## The loops -/

/-- The statement of one pass. -/
def reapPass (db : Database) (batchMax : Nat) (now retryDelay : Timestamp) : Request db where
  call := ⟨now, .reapExpiredLeases ⟨batchMax, retryDelay⟩ []⟩
  update := {
    selects := leaseExpired now
    order := fun first second => decide (leaseOrder first second)
    limit := some batchMax
    skipsLocked := true
    set := (PgJobQ.reapExpiredLeases ⟨batchMax, retryDelay⟩ [] now db).set
    keepsKey := fun _ => rfl }
  issued := rfl

structure ReapResult where
  recovered : Nat
  deadLettered : Nat
  deriving DecidableEq, Repr

/-- The loop of `reapOnce` over the rows it is returned. -/
def reapOnce (rows : List JobRow) : ReapResult :=
  rows.foldl (fun result row =>
    if row.state = .dead then { result with deadLettered := result.deadLettered + 1 }
    else { result with recovered := result.recovered + 1 }) ⟨0, 0⟩

/-- The drain loops of the reapers, and the results of their passes, newest
first.  The transactions of a loop go by the number of the loop. -/
structure Reapers (db : Database) where
  locking : Locking db
  draining : Nat -> Bool
  results : List ReapResult

/-- A reaper goes on with its pass, or begins one at `now`; a worker begins a
transaction, visits its candidate or commits. -/
inductive ReapersLabel (db : Database) where
  | reaper (loop : Nat) (now retryDelay : Timestamp)
  | begin (txn : Nat) (request : Request db)
  | visit (txn : Nat)
  | commit (txn : Nat)

/-- A step of the loop. -/
def ReapersLabel.isOf {db : Database} (loop : Nat) : ReapersLabel db -> Bool
  | .reaper other _ _ => other = loop
  | _ => false

namespace Reapers

variable {db : Database}

/-- A pass returns, and the loop ends when it was short.  It ends as well when
the statement is refused. -/
def finishPass (batchMax : Nat) (state : Reapers db) (loop : Nat) (request : Request db) :
    Reapers db :=
  let locking := Locking.step db state.locking (.commit loop)
  if accepts (rewritten Request.update state.locking loop request) then
    let result := reapOnce ((changes Request.update state.locking loop request).map (·.after))
    { locking
      draining := if result.recovered + result.deadLettered < batchMax then
        Function.update state.draining loop false else state.draining
      results := result :: state.results }
  else { locking, draining := Function.update state.draining loop false, results := state.results }

/-- The next step of a drain loop. -/
def drain (batchMax : Nat) (state : Reapers db) (loop : Nat) (now retryDelay : Timestamp) :
    Reapers db :=
  match state.locking.opened loop with
  | none => { state with
      locking := Locking.step db state.locking (.start loop (reapPass db batchMax now retryDelay)) }
  | some opened =>
      if opened.remaining.isEmpty || opened.tag.update.full (state.locking.held loop) then
        state.finishPass batchMax loop opened.tag
      else { state with locking := Locking.step db state.locking (.visit loop) }

def step (loops : Nat) (batchMax : Nat -> Nat) (state : Reapers db) :
    ReapersLabel db -> Reapers db
  | .reaper loop now retryDelay =>
      if loop < loops ∧ state.draining loop = true then
        state.drain (batchMax loop) loop now retryDelay
      else state
  | .begin txn request =>
      if loops ≤ txn ∧ request.call.statement.fence.isSome = true then
        { state with locking := Locking.step db state.locking (.start txn request) }
      else state
  | .visit txn =>
      if loops ≤ txn then { state with locking := Locking.step db state.locking (.visit txn) }
      else state
  | .commit txn =>
      if loops ≤ txn then { state with locking := Locking.step db state.locking (.commit txn) }
      else state

def initial (db : Database) : Reapers db := ⟨RowLocking.initial db.job.rows, fun _ => true, []⟩

/-- The reapers after some steps, from a table on which no transaction is
open. -/
def after (db : Database) (loops : Nat) (batchMax : Nat -> Nat) (labels : List (ReapersLabel db)) :
    Reapers db :=
  run (step loops batchMax) (initial db) labels

end Reapers

/-! ## What the passes changed -/

variable {db : Database}

def Request.isPass (request : Request db) : Bool :=
  match request.call.statement with
  | .reapExpiredLeases _ _ => true
  | _ => false

/-- The changes that passes have made, newest pass first. -/
def passChanges (log : List (RowLocking.Commit (Request db) JobRow)) : List (Change JobRow) :=
  (log.filter (fun commit => commit.tag.isPass)).flatMap (·.changes)

/-- What a pass does with a delivery: its record, and the state its attempts
leave. -/
structure Reaped (change : Change JobRow) : Prop where
  job : change.after.id = change.before.id
  recorded : Exists fun now : Timestamp => leaseExpired now change.before = true ∧
    change.after.errors = appendError 5 change.before.errors (leaseExpiredRecord now change.before)
  state : change.after.state =
    if change.before.maxAttempts ≤ change.before.attempt then .dead else .available

theorem Reaped.not_running {change : Change JobRow} (reaped : Reaped change) :
    change.after.state ≠ .running := by
  rw [reaped.state]
  split <;> exact JobState.noConfusion

/-- The change that a pass makes. -/
theorem reaped_of_pass {batchMax : Nat} {now retryDelay : Timestamp} {row : JobRow}
    (expired : leaseExpired now row = true) :
    Reaped ⟨row, (reapPass db batchMax now retryDelay).update.set row⟩ :=
  ⟨rfl, ⟨now, expired, rfl⟩, rfl⟩

theorem passChanges_cons_of_pass {commit : RowLocking.Commit (Request db) JobRow}
    {log : List (RowLocking.Commit (Request db) JobRow)} (isPass : commit.tag.isPass = true) :
    passChanges (commit :: log) = commit.changes ++ passChanges log := by
  have kept : (commit :: log).filter (fun commit => commit.tag.isPass) =
      commit :: log.filter (fun commit => commit.tag.isPass) := List.filter_cons_of_pos isPass
  rw [passChanges, kept, List.flatMap_cons]
  rfl

theorem passChanges_cons_of_not {commit : RowLocking.Commit (Request db) JobRow}
    {log : List (RowLocking.Commit (Request db) JobRow)} (notPass : commit.tag.isPass = false) :
    passChanges (commit :: log) = passChanges log := by
  have left : (commit :: log).filter (fun commit => commit.tag.isPass) =
      log.filter (fun commit => commit.tag.isPass) :=
    List.filter_cons_of_neg (Bool.eq_false_iff.mp notPass)
  rw [passChanges, left]
  rfl

/-! ## Requests -/

/-- A transaction with the number of a loop is a pass, any other a report. -/
structure Request.OfLoops (loops : Nat) (batchMax : Nat -> Nat) (txn : Nat) (request : Request db) :
    Prop where
  worker : loops ≤ txn -> request.call.statement.fence.isSome = true
  pass : txn < loops -> Exists fun now : Timestamp => Exists fun retryDelay : Timestamp =>
    request = reapPass db (batchMax txn) now retryDelay

/-- A report names its delivery. -/
theorem Request.owns_of_selects {request : Request db} {p : FenceParams}
    (report : request.call.statement.fence = some p) {row : JobRow}
    (selected : request.update.selects row = true) : p.owns row = true := by
  rcases request with ⟨⟨now, statement⟩, update, issued⟩
  cases statement with
  | completeJob q =>
      cases issued
      cases report
      exact selected
  | failJob q =>
      cases issued
      cases report
      exact selected
  | heartbeatJob q leaseSeconds =>
      cases issued
      cases report
      exact selected
  | acknowledgeCancellation q =>
      cases issued
      cases report
      exact (Bool.and_eq_true_iff.mp selected).1
  | releaseJob q =>
      cases issued
      cases report
      exact selected
  | _ => cases report

theorem Request.isPass_of_report {request : Request db}
    (report : request.call.statement.fence.isSome = true) : request.isPass = false := by
  rcases request with ⟨⟨now, statement⟩, update, issued⟩
  cases statement <;> first | rfl | cases report

namespace Request.OfLoops

variable {loops : Nat} {batchMax : Nat -> Nat} {txn : Nat} {request : Request db}

/-- Passes and reports change running rows only. -/
theorem running (ofLoops : request.OfLoops loops batchMax txn) {row : JobRow}
    (selected : request.update.selects row = true) : row.state = .running := by
  rcases Nat.lt_or_ge txn loops with isLoop | isWorker
  · rcases ofLoops.pass isLoop with ⟨now, retryDelay, rfl⟩
    exact (leaseExpired_iff.mp selected).1
  · rcases Option.isSome_iff_exists.mp (ofLoops.worker isWorker) with ⟨p, report⟩
    exact (FenceParams.owns_iff.mp (owns_of_selects report selected)).2.1

/-- Neither is ever refused. -/
theorem accepted (ofLoops : request.OfLoops loops batchMax txn) {locking : Locking db}
    (agrees : Agrees db locking) {remaining : List Nat}
    (active : locking.opened txn = some ⟨request, remaining⟩) :
    accepts (rewritten Request.update locking txn request) = true := by
  have ofTable : forall table : JobTable, accepts table.rows = true := by
    intro table
    unfold accepts
    rw [JobTable.ofRows_of_constraints table.constraints]
    rfl
  by_cases changed : locking.held txn = []
  · have same : rewritten Request.update locking txn request = locking.table := by
      simp [rewritten, changed]
    rw [same, ← agrees.table]
    exact ofTable _
  · rcases agrees.mutation active changed with ⟨mutation, isUpdate, same⟩
    have commits : Exists fun reply : Reply =>
        mutation.run (run Database.step db (serial locking.log)) = .ok reply := by
      rcases Nat.lt_or_ge txn loops with isLoop | isWorker
      · rcases ofLoops.pass isLoop with ⟨now, retryDelay, rfl⟩
        cases isUpdate
        exact reapExpiredLeases_commits _ _ _ _
      · have report := ofLoops.worker isWorker
        rcases request with ⟨⟨now, statement⟩, update, issued⟩
        cases statement with
        | completeJob p =>
            cases isUpdate
            exact completeJob_commits _ p now
        | failJob p =>
            cases isUpdate
            exact failJob_commits _ p now
        | heartbeatJob p leaseSeconds =>
            cases isUpdate
            exact heartbeatJob_commits _ p leaseSeconds now
        | acknowledgeCancellation p =>
            cases isUpdate
            exact acknowledgeCancellation_commits _ p now
        | releaseJob p =>
            cases isUpdate
            exact releaseJob_commits _ p now
        | _ => cases report
    rcases commits with ⟨reply, committed⟩
    rw [← same, ← (Mutation.run_ok committed).1]
    exact ofTable _

end Request.OfLoops

/-! ## One step -/

theorem Locking.step_visit (locking : Locking db) (txn : Nat) :
    (Locking.step db locking (.visit txn)).table = locking.table ∧
      (Locking.step db locking (.visit txn)).log = locking.log ∧
        forall lock, lock ∈ locking.locks -> lock ∈ (Locking.step db locking (.visit txn)).locks :=
  RowLocking.step_visit txn

theorem Locking.opened_visit_of_ne (locking : Locking db) {txn other : Nat} (different : other ≠ txn) :
    (Locking.step db locking (.visit txn)).opened other = locking.opened other :=
  RowLocking.opened_visit_of_ne different

theorem Locking.tagged_visit {locking : Locking db} {allowed : Nat -> Request db -> Prop}
    (tagged : Tagged allowed locking) (txn : Nat) :
    Tagged allowed (Locking.step db locking (.visit txn)) :=
  tagged.visit txn

namespace Reapers

variable {loops : Nat} {batchMax : Nat -> Nat} {state : Reapers db}

/-- The loop when its pass has committed. -/
def passed (batchMax : Nat) (state : Reapers db) (loop : Nat) (request : Request db) : Reapers db :=
  let result := reapOnce ((changes Request.update state.locking loop request).map (·.after))
  { locking := state.locking.committed Request.update loop request
    draining := if result.recovered + result.deadLettered < batchMax then
      Function.update state.draining loop false else state.draining
    results := result :: state.results }

/-- The steps as they come out. -/
inductive Moves (loops : Nat) (batchMax : Nat -> Nat) (state : Reapers db) :
    ReapersLabel db -> Reapers db -> Prop where
  | stays {label} (ended : forall loop, label.isOf loop = true ->
      Not (loop < loops ∧ state.draining loop = true)) : Moves loops batchMax state label state
  | begins {txn request} (worker : loops ≤ txn) (report : request.call.statement.fence.isSome = true)
      (idle : state.locking.opened txn = none) : Moves loops batchMax state (.begin txn request)
        { state with locking := state.locking.begun Request.update txn request }
  | passBegins {loop now retryDelay} (isLoop : loop < loops) (draining : state.draining loop = true)
      (idle : state.locking.opened loop = none) :
      Moves loops batchMax state (.reaper loop now retryDelay)
        { state with
          locking := state.locking.begun Request.update loop
            (reapPass db (batchMax loop) now retryDelay) }
  | visits {txn} (worker : loops ≤ txn) : Moves loops batchMax state (.visit txn)
      { state with locking := Locking.step db state.locking (.visit txn) }
  | passVisits {loop now retryDelay request candidate rest} (isLoop : loop < loops)
      (draining : state.draining loop = true)
      (active : state.locking.opened loop = some ⟨request, candidate :: rest⟩)
      (room : request.update.full (state.locking.held loop) = false) :
      Moves loops batchMax state (.reaper loop now retryDelay)
        { state with locking := Locking.step db state.locking (.visit loop) }
  | commits {txn request remaining} (worker : loops ≤ txn)
      (active : state.locking.opened txn = some ⟨request, remaining⟩) :
      Moves loops batchMax state (.commit txn)
        { state with locking := state.locking.committed Request.update txn request }
  | passEnds {loop now retryDelay request remaining} (isLoop : loop < loops)
      (draining : state.draining loop = true)
      (active : state.locking.opened loop = some ⟨request, remaining⟩)
      (ready : remaining = [] ∨ request.update.full (state.locking.held loop) = true) :
      Moves loops batchMax state (.reaper loop now retryDelay)
        (state.passed (batchMax loop) loop request)

/-- When no open transaction is refused, the steps are these. -/
theorem moves_of_step (accepted : forall txn request remaining,
      state.locking.opened txn = some ⟨request, remaining⟩ ->
        accepts (rewritten Request.update state.locking txn request) = true)
    (label : ReapersLabel db) :
    Moves loops batchMax state label (state.step loops batchMax label) := by
  cases label with
  | reaper loop now retryDelay =>
      unfold step
      dsimp only
      split
      · rename_i enabled
        unfold drain
        cases active : state.locking.opened loop with
        | none =>
            have started : Locking.step db state.locking (.start loop
                (reapPass db (batchMax loop) now retryDelay)) =
                  state.locking.begun Request.update loop
                    (reapPass db (batchMax loop) now retryDelay) := start_of_idle active
            dsimp only
            rw [started]
            exact .passBegins enabled.1 enabled.2 active
        | some opened =>
            rcases opened with ⟨request, remaining⟩
            dsimp only
            split
            · rename_i ready
              have ok := accepted loop request remaining active
              have committed : Locking.step db state.locking (.commit loop) =
                  state.locking.committed Request.update loop request := by
                simp only [Locking.step, RowLocking.step, active, ready, if_true, ok, State.committed]
              unfold finishPass
              rw [if_pos ok, committed]
              refine .passEnds enabled.1 enabled.2 active ?_
              simpa only [Bool.or_eq_true, List.isEmpty_iff] using ready
            · rename_i notReady
              cases remaining with
              | nil => exact absurd (Bool.true_or _) notReady
              | cons candidate rest =>
                  exact .passVisits enabled.1 enabled.2 active (by simpa using notReady)
      · rename_i ended
        refine .stays fun other same => ?_
        rw [← of_decide_eq_true same]
        exact ended
  | begin txn request =>
      unfold step
      dsimp only
      split
      · rename_i enabled
        cases active : state.locking.opened txn with
        | none =>
            have started : Locking.step db state.locking (.start txn request) =
                state.locking.begun Request.update txn request := start_of_idle active
            rw [started]
            exact .begins enabled.1 enabled.2 active
        | some opened =>
            have same : Locking.step db state.locking (.start txn request) = state.locking := by
              simp only [Locking.step, RowLocking.step, active]
            rw [same]
            exact .stays (fun _ impossible => by cases impossible)
      · exact .stays (fun _ impossible => by cases impossible)
  | visit txn =>
      unfold step
      dsimp only
      split
      · rename_i enabled
        exact .visits enabled
      · exact .stays (fun _ impossible => by cases impossible)
  | commit txn =>
      unfold step
      dsimp only
      split
      · rename_i enabled
        have cases := @step_commit_cases _ _ _ JobRow.id Request.update accepts state.locking _ txn
          (accepted txn)
        rcases cases with same | ⟨request, remaining, active, _, committed⟩
        · rw [Locking.step, same]
          exact .stays (fun _ impossible => by cases impossible)
        · rw [Locking.step, committed]
          exact .commits enabled active
      · exact .stays (fun _ impossible => by cases impossible)

/-! ## What every interleaving keeps -/

theorem foldl_reapOnce (rows : List JobRow) (result : ReapResult) :
    rows.foldl (fun result row =>
      if row.state = .dead then { result with deadLettered := result.deadLettered + 1 }
      else { result with recovered := result.recovered + 1 }) result =
      ⟨result.recovered + rows.countP (fun row => row.state ≠ .dead),
        result.deadLettered + rows.countP (fun row => row.state = .dead)⟩ := by
  induction rows generalizing result with
  | nil => rfl
  | cons row rows inductionHypothesis =>
      rw [List.foldl_cons, inductionHypothesis]
      by_cases dead : row.state = .dead
      · simp only [dead, if_true, List.countP_cons, decide_true, ne_eq, not_true_eq_false,
          decide_false, Bool.false_eq_true, if_false, Nat.add_zero, ReapResult.mk.injEq, true_and]
        omega
      · simp only [dead, if_false, List.countP_cons, decide_true, ne_eq, not_false_eq_true, decide_false,
          Bool.false_eq_true, if_true, Nat.add_zero, ReapResult.mk.injEq, and_true]
        omega

/-- The two counts of a pass. -/
theorem reapOnce_eq (rows : List JobRow) : reapOnce rows =
    ⟨rows.countP (fun row => row.state ≠ .dead), rows.countP (fun row => row.state = .dead)⟩ := by
  rw [reapOnce, foldl_reapOnce]
  simp only [Nat.zero_add]

theorem countP_dead_add {Item : Type} (state : Item -> JobState) (items : List Item) :
    items.countP (fun item => state item ≠ .dead) + items.countP (fun item => state item = .dead) =
      items.length := by
  have parts : items.length = _ + _ :=
    @List.length_eq_countP_add_countP Item (fun item => state item ≠ .dead) items
  have dead : (fun item => decide (Not (decide (state item ≠ .dead) = true))) =
      fun item => decide (state item = .dead) := by
    funext item
    simp only [decide_eq_true_eq, ne_eq, not_not]
  rw [dead] at parts
  exact parts.symm

/-- They count each row that is returned once. -/
theorem reapOnce_total (rows : List JobRow) :
    (reapOnce rows).recovered + (reapOnce rows).deadLettered = rows.length := by
  rw [reapOnce_eq]
  exact countP_dead_add JobRow.state rows

/-- The reapers have ended each delivery once at most, and counted what they
have ended. -/
structure Accounted (state : Reapers db) : Prop where
  reaped : forall change, change ∈ passChanges state.locking.log ->
    Reaped change ∧ change.after ∈ state.locking.table
  once : ((passChanges state.locking.log).map (fun change => change.before.id)).Nodup
  recovered : (state.results.map ReapResult.recovered).sum =
    (passChanges state.locking.log).countP (fun change => change.after.state ≠ .dead)
  deadLettered : (state.results.map ReapResult.deadLettered).sum =
    (passChanges state.locking.log).countP (fun change => change.after.state = .dead)

/-- A step in which no pass commits. -/
theorem Accounted.frame (accounted : Accounted state) {locking : Locking db}
    (same : passChanges locking.log = passChanges state.locking.log)
    (kept : forall change, change ∈ passChanges state.locking.log -> change.after ∈ locking.table) :
    Accounted { state with locking } := by
  refine ⟨?_, ?_, ?_, ?_⟩
  · rw [same]
    exact fun change member => ⟨(accounted.reaped change member).1, kept change member⟩
  · rw [same]
    exact accounted.once
  · rw [same]
    exact accounted.recovered
  · rw [same]
    exact accounted.deadLettered

/-- What holds whatever the interleaving. -/
structure Sound (loops : Nat) (batchMax : Nat -> Nat) (state : Reapers db) : Prop where
  agrees : Agrees db state.locking
  requests : Tagged (fun txn request => request.OfLoops loops batchMax txn) state.locking
  accounted : Accounted state
  traced : Traced JobRow.id db.job.rows state.locking

namespace Sound

theorem initial : Sound loops batchMax (Reapers.initial db) where
  agrees := locking_refines_statements db []
  requests := Tagged.initial db.job.rows
  accounted := ⟨fun _ member => absurd member List.not_mem_nil, List.nodup_nil, rfl, rfl⟩
  traced := Traced.initial db.job.rows

/-- A step that commits nothing. -/
theorem frame (sound : Sound loops batchMax state) {locking : Locking db} (agrees : Agrees db locking)
    (requests : Tagged (fun txn request => request.OfLoops loops batchMax txn) locking)
    (table : locking.table = state.locking.table) (log : locking.log = state.locking.log) :
    Sound loops batchMax { state with locking } := by
  refine ⟨agrees, requests, sound.accounted.frame (congrArg passChanges log) ?_, ?_⟩
  · rw [table]
    exact fun change member => (sound.accounted.reaped change member).2
  · unfold Traced
    rw [log, table]
    exact sound.traced

theorem begin (sound : Sound loops batchMax state) {txn : Nat} {request : Request db}
    (ofLoops : request.OfLoops loops batchMax txn) (idle : state.locking.opened txn = none) :
    Sound loops batchMax
      { state with locking := state.locking.begun Request.update txn request } := by
  have agrees := Agrees.step state.locking (.start txn request) sound.agrees
  rw [Locking.step, start_of_idle idle] at agrees
  exact sound.frame agrees (sound.requests.begun ofLoops) rfl rfl

theorem visit (sound : Sound loops batchMax state) (txn : Nat) :
    Sound loops batchMax { state with locking := Locking.step db state.locking (.visit txn) } := by
  have unchanged := state.locking.step_visit txn
  exact sound.frame (Agrees.step state.locking (.visit txn) sound.agrees)
    (Locking.tagged_visit sound.requests txn) unchanged.1 unchanged.2.1

/-- What a loop has open is one of its passes. -/
theorem isPass (sound : Sound loops batchMax state) {loop : Nat} (isLoop : loop < loops)
    {request : Request db} {remaining : List Nat}
    (active : state.locking.opened loop = some ⟨request, remaining⟩) :
    Exists fun now : Timestamp => Exists fun retryDelay : Timestamp =>
      request = reapPass db (batchMax loop) now retryDelay :=
  (sound.requests.opened loop _ active).pass isLoop

/-- No transaction holds a row that a pass has changed. -/
theorem free_of_settled (sound : Sound loops batchMax state) {txn : Nat} {request : Request db}
    {remaining : List Nat} (active : state.locking.opened txn = some ⟨request, remaining⟩)
    {change : Change JobRow} (member : change ∈ passChanges state.locking.log) {row : JobRow}
    (holds : row ∈ state.locking.held txn) : row.id ≠ change.after.id := by
  intro same
  have settled := sound.accounted.reaped change member
  have held := sound.agrees.logged.locked.commit_sound active
  rcases mem_held.mp holds with ⟨lock, lockMem, _, rfl⟩
  have latest := (sound.agrees.logged.locked.current lock lockMem).1
  have equal := sound.agrees.logged.locked.same_row latest settled.2 same
  have running := (sound.requests.opened txn _ active).running (held.selected lock.row holds)
  rw [equal] at running
  exact settled.1.not_running running

theorem settled_committed (sound : Sound loops batchMax state) {txn : Nat} {request : Request db}
    {remaining : List Nat} (active : state.locking.opened txn = some ⟨request, remaining⟩)
    {change : Change JobRow} (member : change ∈ passChanges state.locking.log) :
    change.after ∈ (state.locking.committed Request.update txn request).table :=
  mem_rewritten_of_not_held (sound.accounted.reaped change member).2
    (fun _ holds => sound.free_of_settled active member holds)

/-- A report commits. -/
theorem report (sound : Sound loops batchMax state) {txn : Nat} {request : Request db}
    {remaining : List Nat} (worker : loops ≤ txn)
    (active : state.locking.opened txn = some ⟨request, remaining⟩) :
    Sound loops batchMax
      { state with locking := state.locking.committed Request.update txn request } := by
  have ofLoops := sound.requests.opened txn _ active
  have isReport := ofLoops.worker worker
  have same : passChanges (state.locking.committed Request.update txn request).log =
      passChanges state.locking.log :=
    passChanges_cons_of_not (Request.isPass_of_report isReport)
  exact ⟨sound.agrees.commit active (ofLoops.accepted sound.agrees active),
    sound.requests.committed active,
    sound.accounted.frame same (fun change member => sound.settled_committed active member),
    sound.traced.commit sound.agrees.logged.locked active⟩

/-- A pass commits. -/
theorem pass (sound : Sound loops batchMax state) {loop : Nat} {request : Request db}
    {remaining : List Nat} (isLoop : loop < loops)
    (active : state.locking.opened loop = some ⟨request, remaining⟩) :
    Sound loops batchMax (state.passed (batchMax loop) loop request) := by
  have ofLoops := sound.requests.opened loop _ active
  rcases sound.isPass isLoop active with ⟨now, retryDelay, rfl⟩
  have commit := sound.agrees.logged.locked.commit_sound active
  have changed := commit.changed
  dsimp only at changed
  have list : passChanges (state.passed (batchMax loop) loop
        (reapPass db (batchMax loop) now retryDelay)).locking.log =
      changes Request.update state.locking loop (reapPass db (batchMax loop) now retryDelay) ++
        passChanges state.locking.log := passChanges_cons_of_pass rfl
  refine ⟨sound.agrees.commit active (ofLoops.accepted sound.agrees active),
    sound.requests.committed active, ⟨?_, ?_, ?_, ?_⟩,
    sound.traced.commit sound.agrees.logged.locked active⟩
  · rw [list, changed]
    intro change member
    rcases List.mem_append.mp member with new | earlier
    · rcases List.mem_map.mp new with ⟨row, holds, rfl⟩
      refine ⟨reaped_of_pass (commit.selected row holds), ?_⟩
      rcases mem_held.mp holds with ⟨lock, lockMem, _, rfl⟩
      have latest := (sound.agrees.logged.locked.current lock lockMem).1
      refine List.mem_map.mpr ⟨lock.row, latest, if_pos ?_⟩
      exact List.any_eq_true.mpr ⟨lock.row, holds, decide_eq_true rfl⟩
    · exact ⟨(sound.accounted.reaped change earlier).1, sound.settled_committed active earlier⟩
  · rw [list, changed, List.map_append, List.map_map]
    refine List.nodup_append.mpr ⟨commit.once, sound.accounted.once, ?_⟩
    intro id new other earlier same
    rcases List.mem_map.mp new with ⟨row, holds, rfl⟩
    rcases List.mem_map.mp earlier with ⟨change, member, rfl⟩
    exact sound.free_of_settled active member holds
      (same.trans (sound.accounted.reaped change member).1.job.symm)
  · rw [list, List.countP_append, ← sound.accounted.recovered]
    change (ReapResult.recovered _ :: _).sum = _
    rw [List.sum_cons, reapOnce_eq]
    dsimp only
    rw [List.countP_map]
    rfl
  · rw [list, List.countP_append, ← sound.accounted.deadLettered]
    change (ReapResult.deadLettered _ :: _).sum = _
    rw [List.sum_cons, reapOnce_eq]
    dsimp only
    rw [List.countP_map]
    rfl

theorem moves (sound : Sound loops batchMax state) (label : ReapersLabel db) :
    Moves loops batchMax state label (state.step loops batchMax label) :=
  moves_of_step (fun txn _ _ active =>
    (sound.requests.opened txn _ active).accepted sound.agrees active) label

theorem step (sound : Sound loops batchMax state) (label : ReapersLabel db) :
    Sound loops batchMax (state.step loops batchMax label) := by
  have moves := sound.moves label
  generalize state.step loops batchMax label = next at moves
  cases moves with
  | stays ended => exact sound
  | begins worker report idle =>
      exact sound.begin ⟨fun _ => report, fun isLoop => absurd worker (Nat.not_le.mpr isLoop)⟩ idle
  | passBegins isLoop draining idle =>
      exact sound.begin ⟨fun worker => absurd isLoop (Nat.not_lt.mpr worker),
        fun _ => ⟨_, _, rfl⟩⟩ idle
  | visits worker => exact sound.visit _
  | passVisits isLoop draining active room => exact sound.visit _
  | commits worker active => exact sound.report worker active
  | passEnds isLoop draining active ready => exact sound.pass isLoop active

end Sound

theorem sound_after (db : Database) (loops : Nat) (batchMax : Nat -> Nat)
    (labels : List (ReapersLabel db)) : Sound loops batchMax (after db loops batchMax labels) :=
  run_invariant (fun _ label sound => sound.step label) Sound.initial labels

end Reapers

end PgJobQ
