import PgJobQ.Concurrency.Reapers

/-!
# Every expired lease is recovered once

A loop that drains the expired leases ends, because no step makes a row running
and each pass that is not short leaves fewer of them.  Where it ends with a
short pass, every delivery whose lease had expired before is changed, or locked
by a transaction that will change it.  When all the loops have ended, such a
transaction is its own worker's.
-/

namespace PgJobQ

open Runs RowLocking

variable {db : Database}

def JobRow.isRunning (row : JobRow) : Bool := row.state = .running

/-- The statement that a step may begin meets the condition. -/
def ReapersLabel.Issues (batchMax : Nat -> Nat) (allowed : Request db -> Prop) :
    ReapersLabel db -> Prop
  | .reaper loop now retryDelay => allowed (reapPass db (batchMax loop) now retryDelay)
  | .begin _ request => allowed request
  | _ => True

instance {batchMax : Nat -> Nat} {allowed : Request db -> Prop} [DecidablePred allowed] :
    DecidablePred (ReapersLabel.Issues batchMax allowed)
  | .reaper loop now retryDelay =>
      inferInstanceAs (Decidable (allowed (reapPass db (batchMax loop) now retryDelay)))
  | .begin _ request => inferInstanceAs (Decidable (allowed request))
  | .visit _ => isTrue trivial
  | .commit _ => isTrue trivial

/-- The transaction is of the worker that the delivery belongs to. -/
def Request.OfWorker (request : Request db) (delivery : JobRow) : Prop :=
  Exists fun p : FenceParams =>
    request.call.statement.fence = some p ∧ p.owns delivery = true

/-- A heartbeat does not put the expiry before its own time. -/
def Request.Extends (request : Request db) : Prop :=
  match request.call.statement with
  | .heartbeatJob _ leaseSeconds => 0 ≤ leaseSeconds
  | _ => True

namespace Reapers

/-- Exactly one pass has ended the delivery. -/
def RecoveredOnce (state : Reapers db) (delivery : JobRow) : Prop :=
  Exists fun change : Change JobRow =>
    (passChanges state.locking.log).filter (fun other => other.before.id = delivery.id) = [change] ∧
      change.before = delivery

/-- Its own worker has extended the lease or reported on it. -/
def Reported (state : Reapers db) (delivery : JobRow) : Prop :=
  Exists fun commit : RowLocking.Commit (Request db) JobRow => commit ∈ state.locking.log ∧
    commit.tag.OfWorker delivery ∧ delivery ∈ commit.locked

/-- Its own worker has locked it to do so. -/
def Reporting (state : Reapers db) (delivery : JobRow) : Prop :=
  Exists fun txn : Nat => Exists fun opened : Txn (Request db) Nat =>
    state.locking.opened txn = some opened ∧ opened.tag.OfWorker delivery ∧
      delivery ∈ state.locking.held txn

variable {loops : Nat} {batchMax : Nat -> Nat} {state next : Reapers db} {label : ReapersLabel db}

/-! ## One loop among the others -/

theorem Moves.opened_of_other (moves : Moves loops batchMax state label next) {loop : Nat}
    (isLoop : loop < loops) (other : label.isOf loop = false) :
    next.locking.opened loop = state.locking.opened loop := by
  have apart : forall txn, loops ≤ txn -> loop ≠ txn :=
    fun txn worker => Nat.ne_of_lt (Nat.lt_of_lt_of_le isLoop worker)
  cases moves with
  | stays ended => rfl
  | begins worker report idle => exact Function.update_of_ne (apart _ worker) _ _
  | passBegins isOther draining idle =>
      exact Function.update_of_ne (Ne.symm (of_decide_eq_false other)) _ _
  | visits worker => exact state.locking.opened_visit_of_ne (apart _ worker)
  | passVisits isOther draining active room =>
      exact state.locking.opened_visit_of_ne (Ne.symm (of_decide_eq_false other))
  | commits worker active => exact Function.update_of_ne (apart _ worker) _ _
  | passEnds isOther draining active ready =>
      exact Function.update_of_ne (Ne.symm (of_decide_eq_false other)) _ _

theorem Moves.length_table (moves : Moves loops batchMax state label next) :
    next.locking.table.length = state.locking.table.length := by
  cases moves with
  | stays ended => rfl
  | begins worker report idle => rfl
  | passBegins isLoop draining idle => rfl
  | visits worker => exact congrArg List.length (state.locking.step_visit _).1
  | passVisits isLoop draining active room =>
      exact congrArg List.length (state.locking.step_visit _).1
  | commits worker active => exact List.length_map _
  | passEnds isLoop draining active ready => exact List.length_map _

/-- No step makes a row running. -/
theorem Moves.running_le (moves : Moves loops batchMax state label next)
    (sound : Sound loops batchMax state) :
    next.locking.table.countP JobRow.isRunning ≤ state.locking.table.countP JobRow.isRunning := by
  have kept : forall txn request remaining,
      state.locking.opened txn = some ⟨request, remaining⟩ ->
        (state.locking.committed Request.update txn request).table.countP JobRow.isRunning ≤
          state.locking.table.countP JobRow.isRunning := by
    intro txn request remaining active
    refine countP_committed_le sound.agrees.logged.locked active fun row selected => ?_
    exact decide_eq_true ((sound.requests.opened txn _ active).running selected)
  cases moves with
  | stays ended => exact Nat.le_refl _
  | begins worker report idle => exact Nat.le_refl _
  | passBegins isLoop draining idle => exact Nat.le_refl _
  | visits worker => exact Nat.le_of_eq (congrArg _ (state.locking.step_visit _).1)
  | passVisits isLoop draining active room => exact Nat.le_of_eq (congrArg _ (state.locking.step_visit _).1)
  | commits worker active => exact kept _ _ _ active
  | passEnds isLoop draining active ready => exact kept _ _ _ active

/-- A loop that has ended does not begin again. -/
theorem Moves.ended (moves : Moves loops batchMax state label next) {loop : Nat}
    (ended : state.draining loop = false) : next.draining loop = false := by
  cases moves with
  | @passEnds other now retryDelay request remaining isLoop draining active ready =>
      unfold passed
      dsimp only
      split
      · by_cases same : loop = other
        · rw [same]
          exact Function.update_self _ _ _
        · rw [Function.update_of_ne same]
          exact ended
      · exact ended
  | _ => exact ended

section Pass

variable {loop : Nat} {request : Request db} {remaining : List Nat}

theorem Sound.skips (sound : Sound loops batchMax state) (isLoop : loop < loops)
    (active : state.locking.opened loop = some ⟨request, remaining⟩) :
    request.update.skipsLocked = true := by
  rcases sound.isPass isLoop active with ⟨now, retryDelay, rfl⟩
  rfl

/-- What a pass changes is not running any more. -/
theorem Sound.relieves (sound : Sound loops batchMax state) (isLoop : loop < loops)
    (active : state.locking.opened loop = some ⟨request, remaining⟩) (row : JobRow)
    (selected : request.update.selects row = true) :
    (request.update.set row).isRunning = false := by
  rcases sound.isPass isLoop active with ⟨now, retryDelay, rfl⟩
  have reaped : Reaped ⟨row, _⟩ := @reaped_of_pass db (batchMax loop) now retryDelay row selected
  exact decide_eq_false reaped.not_running

theorem Sound.opened_of_visit (sound : Sound loops batchMax state) (isLoop : loop < loops)
    {candidate : Nat} {rest : List Nat}
    (active : state.locking.opened loop = some ⟨request, candidate :: rest⟩)
    (room : request.update.full (state.locking.held loop) = false) :
    (Locking.step db state.locking (.visit loop)).opened loop = some ⟨request, rest⟩ := by
  have struck : (Locking.step db state.locking (.visit loop)).opened =
      Function.update state.locking.opened loop (some ⟨request, rest⟩) :=
    (visit_of_skips active room (sound.skips isLoop active)).1
  rw [struck]
  exact Function.update_self _ _ _

end Pass

/-- A pass returns the rows it held. -/
theorem total_of_pass (sound : Sound loops batchMax state) (txn : Nat) (request : Request db) :
    (reapOnce ((changes Request.update state.locking txn request).map (·.after))).recovered +
      (reapOnce ((changes Request.update state.locking txn request).map (·.after))).deadLettered =
        (state.locking.held txn).length := by
  rw [reapOnce_total, List.length_map, sound.agrees.logged.locked.changes_eq, List.length_map]

/-! ## Every loop ends -/

/-- How many steps a loop can take at most: a pass visits each candidate once,
and every pass but the last makes one row fewer running. -/
def toGo (loop : Nat) (state : Reapers db) : Nat :=
  (state.locking.table.length + 3) * state.locking.table.countP JobRow.isRunning +
    match state.locking.opened loop with
    | none => state.locking.table.length + 2
    | some opened => opened.remaining.length + 1

theorem toGo_of_none {loop : Nat} (idle : state.locking.opened loop = none) : state.toGo loop =
    (state.locking.table.length + 3) * state.locking.table.countP JobRow.isRunning +
      (state.locking.table.length + 2) := by
  rw [toGo, idle]

theorem toGo_of_some {loop : Nat} {opened : Txn (Request db) Nat}
    (active : state.locking.opened loop = some opened) : state.toGo loop =
      (state.locking.table.length + 3) * state.locking.table.countP JobRow.isRunning +
        (opened.remaining.length + 1) := by
  rw [toGo, active]

theorem Moves.toGo_le (moves : Moves loops batchMax state label next)
    (sound : Sound loops batchMax state) {loop : Nat} (isLoop : loop < loops)
    (other : label.isOf loop = false) : next.toGo loop ≤ state.toGo loop := by
  unfold toGo
  rw [moves.length_table, moves.opened_of_other isLoop other]
  exact Nat.add_le_add_right (Nat.mul_le_mul_left _ (moves.running_le sound)) _

theorem length_scan_le (update : Update JobRow.id) (rows : List JobRow) :
    (update.scan rows).length ≤ rows.length := by
  unfold Update.scan
  rw [List.length_map, List.length_insertionSort]
  exact List.length_filter_le _ _

theorem Moves.toGo_lt (moves : Moves loops batchMax state label next)
    (sound : Sound loops batchMax state) {loop : Nat} (isLoop : loop < loops)
    (positive : 1 ≤ batchMax loop) (own : label.isOf loop = true)
    (goes : state.draining loop = true) (stillGoes : next.draining loop = true) :
    next.toGo loop < state.toGo loop := by
  have length := moves.length_table
  have running := moves.running_le sound
  cases moves with
  | stays ended => exact absurd ⟨isLoop, goes⟩ (ended loop own)
  | begins worker report idle => cases own
  | visits worker => cases own
  | commits worker active => cases own
  | @passBegins loop now retryDelay isOther draining idle =>
      cases of_decide_eq_true own
      have short := length_scan_le (reapPass db (batchMax loop) now retryDelay).update
        state.locking.table
      rw [toGo_of_none idle, toGo_of_some (Function.update_self _ _ _)]
      exact Nat.add_lt_add_left (Nat.succ_lt_succ (Nat.lt_succ_of_le short)) _
  | @passVisits loop now retryDelay request candidate rest isOther draining active room =>
      cases of_decide_eq_true own
      rw [toGo_of_some active, toGo_of_some (sound.opened_of_visit isLoop active room), length]
      exact Nat.add_lt_add_of_le_of_lt (Nat.mul_le_mul_left _ running) (Nat.lt_succ_self _)
  | @passEnds loop now retryDelay request remaining isOther draining active ready =>
      cases of_decide_eq_true own
      have total := total_of_pass sound loop request
      have isFull : batchMax loop ≤ (state.locking.held loop).length := by
        rw [← total]
        by_contra short
        rw [passed] at stillGoes
        dsimp only at stillGoes
        rw [if_pos (Nat.not_le.mp short), Function.update_self] at stillGoes
        exact Bool.false_ne_true stillGoes
      have fewer := countP_committed_add_le sound.agrees.logged.locked active
        (fun row selected => decide_eq_true ((sound.requests.opened loop _ active).running selected))
        (sound.relieves isLoop active)
      have after : (state.passed (batchMax loop) loop request).locking.opened loop = none :=
        Function.update_self _ _ _
      rw [toGo_of_some active, toGo_of_none after, length]
      -- the rows it made not running outweigh the next pass
      have less :
          (state.passed (batchMax loop) loop request).locking.table.countP JobRow.isRunning + 1 ≤
            state.locking.table.countP JobRow.isRunning :=
        Nat.le_trans (Nat.add_le_add_left (Nat.le_trans positive isFull) _) fewer
      calc
        _ < (state.locking.table.length + 3) *
            ((state.passed (batchMax loop) loop request).locking.table.countP JobRow.isRunning + 1) := by
          rw [Nat.mul_succ]
          exact Nat.add_lt_add_left (Nat.lt_succ_self _) _
        _ ≤ (state.locking.table.length + 3) * state.locking.table.countP JobRow.isRunning :=
          Nat.mul_le_mul_left _ less
        _ ≤ _ := Nat.le_add_right _ _

/-- The same, and nothing once the loop has ended. -/
def steps (loop : Nat) (state : Reapers db) : Nat :=
  if state.draining loop = true then state.toGo loop else 0

theorem steps_le_toGo (loop : Nat) (state : Reapers db) : state.steps loop ≤ state.toGo loop := by
  unfold steps
  split
  · exact Nat.le_refl _
  · exact Nat.zero_le _

theorem toGo_pos (loop : Nat) (state : Reapers db) : 0 < state.toGo loop := by
  unfold toGo
  cases state.locking.opened loop with
  | none => exact Nat.lt_of_lt_of_le (Nat.succ_pos _) (Nat.le_add_left _ _)
  | some opened => exact Nat.lt_of_lt_of_le (Nat.succ_pos _) (Nat.le_add_left _ _)

theorem Moves.steps_lt (moves : Moves loops batchMax state label next)
    (sound : Sound loops batchMax state) {loop : Nat} (isLoop : loop < loops)
    (positive : 1 ≤ batchMax loop) (own : label.isOf loop = true)
    (goes : state.draining loop = true) : next.steps loop < state.steps loop := by
  rw [steps, steps, if_pos goes]
  split
  · rename_i stillGoes
    exact moves.toGo_lt sound isLoop positive own goes stillGoes
  · exact toGo_pos loop state

theorem loop_ends (db : Database) (batchMax : Nat -> Nat) {loop : Nat} (isLoop : loop < loops)
    (positive : 1 ≤ batchMax loop) : LeadsTo (step loops batchMax) (fun _ => True)
      (ReapersLabel.isOf loop) (fun state => state.draining loop = false) (initial db) := by
  refine @leadsTo_of_measure _ _ _ _ _ _ (Sound loops batchMax) (steps loop)
    (fun _ label sound _ _ => sound.step label) ?_ ?_ _ Sound.initial
  · intro state label sound unfinished _
    have goes := Bool.eq_true_of_not_eq_false unfinished
    cases own : label.isOf loop with
    | true => exact Nat.le_of_lt ((sound.moves label).steps_lt sound isLoop positive own goes)
    | false =>
        calc
          (state.step loops batchMax label).steps loop ≤
              (state.step loops batchMax label).toGo loop := steps_le_toGo loop _
          _ ≤ state.toGo loop := (sound.moves label).toGo_le sound isLoop own
          _ = state.steps loop := by rw [steps, if_pos goes]
  · intro state label sound unfinished _ own
    exact (sound.moves label).steps_lt sound isLoop positive own
      (Bool.eq_true_of_not_eq_false unfinished)

/-- After enough steps of each loop all of them have ended, whatever the order
of the steps, and whatever the workers do between them. -/
theorem loops_end (db : Database) (batchMax : Nat -> Nat)
    (positive : forall loop, loop < loops -> 1 ≤ batchMax loop) :
    Exists fun bound : Nat => forall labels : List (ReapersLabel db),
      (forall loop, loop < loops -> bound ≤ labels.countP (ReapersLabel.isOf loop)) ->
        forall loop, loop < loops -> (after db loops batchMax labels).draining loop = false := by
  have reached := @holds_of_leadsTo _ _ _ (Sound loops batchMax) (fun _ => True)
    ReapersLabel.isOf (fun loop state => state.draining loop = false) (initial db) loops
    Sound.initial (fun state label sound => sound.step label)
    (fun loop state label sound ended => (sound.moves label).ended ended)
    (fun loop isLoop => loop_ends db batchMax isLoop (positive loop isLoop))
  rcases reached with ⟨bound, ends⟩
  exact ⟨bound, fun labels enough => ends labels (fun _ _ => trivial) enough⟩

/-! ## What an ended loop leaves -/

theorem Moves.draining_of_other (moves : Moves loops batchMax state label next) {loop : Nat}
    (other : label.isOf loop = false) : next.draining loop = state.draining loop := by
  cases moves with
  | passEnds isLoop draining active ready =>
      unfold passed
      dsimp only
      split
      · exact Function.update_of_ne (Ne.symm (of_decide_eq_false other)) _ _
      · rfl
  | _ => rfl

variable {since : Timestamp} {toVisit : List Nat}

theorem Moves.covered (moves : Moves loops batchMax state label next)
    (sound : Sound loops batchMax state)
    (covered : Covered JobRow.id (leaseExpired since) toVisit state.locking) :
    Covered JobRow.id (leaseExpired since) toVisit next.locking := by
  cases moves with
  | stays ended => exact covered
  | begins worker report idle => exact covered.grow rfl rfl (fun _ member => member)
  | passBegins isLoop draining idle => exact covered.grow rfl rfl (fun _ member => member)
  | @visits txn worker =>
      have visited := state.locking.step_visit txn
      exact covered.grow visited.1 visited.2.1 visited.2.2
  | @passVisits loop now retryDelay request candidate rest isLoop draining active room =>
      have visited := state.locking.step_visit loop
      exact covered.grow visited.1 visited.2.1 visited.2.2
  | commits worker active => exact covered.commit sound.agrees.logged.locked active
  | passEnds isLoop draining active ready => exact covered.commit sound.agrees.logged.locked active

/-- A pass at `since` or later selects what had expired at `since`. -/
theorem leaseExpired_of_le {now : Timestamp} (later : since ≤ now) (row : JobRow)
    (expired : leaseExpired since row = true) : leaseExpired now row = true := by
  rcases leaseExpired_iff.mp expired with ⟨running, expiry, lease, before⟩
  exact leaseExpired_iff.mpr ⟨running, expiry, lease, Int.lt_of_lt_of_le before later⟩

/-- A loop has its pass cover what had expired at `since`, and has an end only
where nothing of it is left to visit. -/
structure Sweeps (since : Timestamp) (loop : Nat) (state : Reapers db) : Prop where
  idle : state.draining loop = false -> state.locking.opened loop = none
  visits : forall opened, state.locking.opened loop = some opened ->
    Covered JobRow.id (leaseExpired since) opened.remaining state.locking
  swept : state.draining loop = false -> Covered JobRow.id (leaseExpired since) [] state.locking

theorem Sweeps.initial (since : Timestamp) (loop : Nat) :
    Sweeps since loop (Reapers.initial db) where
  idle := fun _ => rfl
  visits := fun _ impossible => by cases impossible
  swept := fun impossible => by cases impossible

theorem Sweeps.other {loop : Nat} (sweeps : Sweeps since loop state) (isLoop : loop < loops)
    (sound : Sound loops batchMax state) (moves : Moves loops batchMax state label next)
    (other : label.isOf loop = false) : Sweeps since loop next := by
  have opened := moves.opened_of_other isLoop other
  have draining := moves.draining_of_other other
  refine ⟨?_, ?_, ?_⟩
  · rw [opened, draining]
    exact sweeps.idle
  · rw [opened]
    exact fun txn active => moves.covered sound (sweeps.visits txn active)
  · rw [draining]
    exact fun ended => moves.covered sound (sweeps.swept ended)

/-- A short pass has visited all its candidates. -/
theorem visited_of_short (sound : Sound loops batchMax state) {loop : Nat} (isLoop : loop < loops)
    {request : Request db} {remaining : List Nat}
    (active : state.locking.opened loop = some ⟨request, remaining⟩)
    (ready : remaining = [] ∨ request.update.full (state.locking.held loop) = true)
    (short : (state.locking.held loop).length < batchMax loop) : remaining = [] := by
  rcases ready with visited | isFull
  · exact visited
  · rcases sound.isPass isLoop active with ⟨now, retryDelay, rfl⟩
    exact absurd short (Nat.not_lt.mpr (of_decide_eq_true isFull))

theorem Sweeps.own {loop : Nat} (sweeps : Sweeps since loop state) (isLoop : loop < loops)
    (sound : Sound loops batchMax state)
    (issued : Tagged (fun _ request => since ≤ request.call.now) next.locking)
    (moves : Moves loops batchMax state label next) (own : label.isOf loop = true) :
    Sweeps since loop next := by
  have keeps : forall toVisit, Covered JobRow.id (leaseExpired since) toVisit state.locking ->
      Covered JobRow.id (leaseExpired since) toVisit next.locking :=
    fun toVisit covered => moves.covered sound covered
  cases moves with
  | stays ended => exact sweeps
  | begins worker report idle => cases own
  | visits worker => cases own
  | commits worker active => cases own
  | @passBegins loop now retryDelay isOther draining idle =>
      cases of_decide_eq_true own
      refine ⟨fun ended => absurd draining (Bool.eq_false_iff.mp ended), ?_,
        fun ended => absurd draining (Bool.eq_false_iff.mp ended)⟩
      intro opened active
      have later := issued.opened loop opened active
      simp only [State.begun, State.advance, Function.update_self, Option.some.injEq] at active
      subst active
      exact (covered_scan (leaseExpired_of_le later)).grow rfl rfl (fun _ member => member)
  | @passVisits loop now retryDelay request candidate rest isOther draining active room =>
      cases of_decide_eq_true own
      refine ⟨fun ended => absurd draining (Bool.eq_false_iff.mp ended), ?_,
        fun ended => absurd draining (Bool.eq_false_iff.mp ended)⟩
      intro opened running
      rw [sound.opened_of_visit isLoop active room] at running
      cases running
      have later := issued.opened loop _ (sound.opened_of_visit isLoop active room)
      rcases sound.isPass isLoop active with ⟨now, retryDelay, rfl⟩
      have covered : Covered JobRow.id (leaseExpired since) rest
          (Locking.step db state.locking (.visit loop)) :=
        (sweeps.visits _ active).visit active room rfl (leaseExpired_of_le later)
      exact covered
  | @passEnds loop now retryDelay request remaining isOther draining active ready =>
      cases of_decide_eq_true own
      have closed : (state.passed (batchMax loop) loop request).locking.opened loop = none :=
        Function.update_self _ _ _
      refine ⟨fun _ => closed, ?_, ?_⟩
      · intro opened running
        rw [closed] at running
        cases running
      · intro ended
        have short : (state.locking.held loop).length < batchMax loop := by
          by_contra long
          rw [passed] at ended
          dsimp only at ended
          rw [if_neg (total_of_pass sound loop request ▸ long), draining] at ended
          cases ended
        have covered := sweeps.visits _ active
        rw [visited_of_short sound isLoop active ready short] at covered
        exact keeps [] covered

/-! ## Runs -/

theorem tagged_step {allowed : Request db -> Prop} (issues : label.Issues batchMax allowed)
    (moves : Moves loops batchMax state label next)
    (tagged : Tagged (fun _ request => allowed request) state.locking) :
    Tagged (fun _ request => allowed request) next.locking := by
  cases moves with
  | stays ended => exact tagged
  | begins worker report idle => exact tagged.begun issues
  | passBegins isLoop draining idle => exact tagged.begun issues
  | visits worker => exact Locking.tagged_visit tagged _
  | passVisits isLoop draining active room => exact Locking.tagged_visit tagged _
  | commits worker active => exact tagged.committed active
  | passEnds isLoop draining active ready => exact tagged.committed active

theorem tagged_after (db : Database) {allowed : Request db -> Prop} {labels : List (ReapersLabel db)}
    (issues : forall label, label ∈ labels -> label.Issues batchMax allowed) :
    Tagged (fun _ request => allowed request) (after db loops batchMax labels).locking := by
  have kept := @run_invariant_of_allowed _ _ (step loops batchMax)
    (fun state => Sound loops batchMax state ∧ Tagged (fun _ request => allowed request) state.locking)
    (fun label => label.Issues batchMax allowed)
    (fun state label issued both => ⟨both.1.step label, tagged_step issued (both.1.moves label) both.2⟩)
    (initial db) ⟨Sound.initial, Tagged.initial db.job.rows⟩ labels issues
  exact kept.2

theorem sweeps_after (db : Database) {labels : List (ReapersLabel db)}
    (issues : forall label, label ∈ labels ->
      label.Issues batchMax (fun request => since ≤ request.call.now))
    {loop : Nat} (isLoop : loop < loops) : Sweeps since loop (after db loops batchMax labels) := by
  have kept := @run_invariant_of_allowed _ _ (step loops batchMax)
    (fun state => Sound loops batchMax state ∧ Sweeps since loop state ∧
      Tagged (fun _ request => since ≤ request.call.now) state.locking)
    (fun label => label.Issues batchMax (fun request => since ≤ request.call.now))
    (by
      rintro state label issued ⟨sound, sweeps, tagged⟩
      have moves := sound.moves label
      have taggedNext := tagged_step issued moves tagged
      refine ⟨sound.step label, ?_, taggedNext⟩
      cases own : label.isOf loop with
      | true => exact sweeps.own isLoop sound taggedNext moves own
      | false => exact sweeps.other isLoop sound moves own)
    (initial db) ⟨Sound.initial, Sweeps.initial since loop, Tagged.initial db.job.rows⟩ labels issues
  exact kept.2.1

/-- The counts of all passes together are the number of rows they changed. -/
theorem Accounted.total (accounted : Accounted state) : (state.results.map ReapResult.recovered).sum +
    (state.results.map ReapResult.deadLettered).sum = (passChanges state.locking.log).length := by
  rw [accounted.recovered, accounted.deadLettered]
  exact countP_dead_add (fun change : Change JobRow => change.after.state) _

theorem mem_passChanges {log : List (RowLocking.Commit (Request db) JobRow)} {change : Change JobRow} :
    change ∈ passChanges log <-> Exists fun commit : RowLocking.Commit (Request db) JobRow =>
      commit ∈ log ∧ commit.tag.isPass = true ∧ change ∈ commit.changes := by
  simp only [passChanges, List.mem_flatMap, List.mem_filter, and_assoc]

/-- A delivery that a pass has ended was ended by no other. -/
theorem recoveredOnce_of_mem (sound : Sound loops batchMax state) {change : Change JobRow}
    (member : change ∈ passChanges state.locking.log) : RecoveredOnce state change.before := by
  have unique : UniqueRows.UniqueOn (fun other : Change JobRow => some other.before.id)
      (passChanges state.locking.log) := by
    simpa only [UniqueRows.UniqueOn, List.filterMap_eq_map'] using sound.accounted.once
  have alone := unique.filter_eq_singleton member rfl
  simp only [Option.some.injEq] at alone
  exact ⟨change, alone, rfl⟩

/-- A commit changed the delivery that it locked: a pass, or its worker's. -/
theorem recovered_or_reported (sound : Sound loops batchMax state)
    {commit : RowLocking.Commit (Request db) JobRow} (logged : commit ∈ state.locking.log)
    {change : Change JobRow} (member : change ∈ commit.changes) :
    Reported state change.before ∨ RecoveredOnce state change.before := by
  have commitSound := sound.agrees.logged.sound commit logged
  rcases sound.requests.logged commit logged with ⟨txn, ofLoops⟩
  rcases Nat.lt_or_ge txn loops with isLoop | isWorker
  · right
    rcases ofLoops.pass isLoop with ⟨now, retryDelay, isPass⟩
    exact recoveredOnce_of_mem sound (mem_passChanges.mpr ⟨commit, logged, isPass ▸ rfl, member⟩)
  · left
    rcases Option.isSome_iff_exists.mp (ofLoops.worker isWorker) with ⟨p, report⟩
    rw [commitSound.changed] at member
    rcases List.mem_map.mp member with ⟨row, holds, rfl⟩
    exact ⟨commit, logged, ⟨p, report, Request.owns_of_selects report (commitSound.selected row holds)⟩,
      holds⟩

theorem not_expired_of_no_lease {job : JobRow} (noLease : job.leaseExpiresAt = none) :
    leaseExpired since job = false := by
  apply Bool.eq_false_iff.mpr
  intro expired
  rcases leaseExpired_iff.mp expired with ⟨_, expiry, lease, _⟩
  rw [noLease] at lease
  cases lease

/-- What a pass or a report changes at `since` or later has not expired at
`since`. -/
theorem not_expired_of_request {request : Request db} {txn : Nat}
    (ofLoops : request.OfLoops loops batchMax txn) (later : since ≤ request.call.now)
    (extending : request.Extends) (row : JobRow) :
    leaseExpired since (request.update.set row) = false := by
  rcases Nat.lt_or_ge txn loops with isLoop | isWorker
  · rcases ofLoops.pass isLoop with ⟨now, retryDelay, rfl⟩
    exact not_expired_of_no_lease rfl
  · have report := ofLoops.worker isWorker
    rcases request with ⟨⟨now, statement⟩, update, issued⟩
    cases statement with
    | heartbeatJob q leaseSeconds =>
        cases issued
        apply Bool.eq_false_iff.mpr
        intro expired
        rcases leaseExpired_iff.mp expired with ⟨_, expiry, lease, before⟩
        cases Option.some.inj lease
        have ahead : (0 : Int) ≤ seconds leaseSeconds :=
          Int.mul_nonneg extending (by decide)
        have extended : now ≤ now + seconds leaseSeconds := Int.le_add_of_nonneg_right ahead
        exact absurd before (Int.not_lt.mpr (Int.le_trans later extended))
    | completeJob q =>
        cases issued
        exact not_expired_of_no_lease rfl
    | failJob q =>
        cases issued
        exact not_expired_of_no_lease rfl
    | acknowledgeCancellation q =>
        cases issued
        exact not_expired_of_no_lease rfl
    | releaseJob q =>
        cases issued
        exact not_expired_of_no_lease rfl
    | _ => cases report

section Ended

variable (sound : Sound loops batchMax state)
  (sweeps : forall loop, loop < loops -> Sweeps since loop state)
  (someLoop : 0 < loops) (ended : forall loop, loop < loops -> state.draining loop = false)

include sound sweeps someLoop ended

/-- When all loops have ended, a delivery that had expired and is untouched is
locked by its own worker. -/
theorem reporting_of_untouched {row : JobRow} (member : row ∈ state.locking.table)
    (expired : leaseExpired since row = true) (untouched : Untouched JobRow.id state.locking row) :
    Reporting state row := by
  have covered := (sweeps 0 someLoop).swept (ended 0 someLoop) row member expired untouched
  have taken := covered.resolve_right List.not_mem_nil
  rcases List.any_eq_true.mp taken with ⟨lock, lockMem, same⟩
  have current := sound.agrees.logged.locked.current lock lockMem
  have latest := sound.agrees.logged.locked.same_row current.1 member (of_decide_eq_true same)
  rcases current.2 with ⟨opened, running, selected⟩
  have isWorker : loops ≤ lock.holder := by
    by_contra isLoop
    have idle := (sweeps lock.holder (Nat.not_le.mp isLoop)).idle (ended _ (Nat.not_le.mp isLoop))
    rw [idle] at running
    cases running
  rcases Option.isSome_iff_exists.mp ((sound.requests.opened lock.holder opened running).worker isWorker)
    with ⟨p, report⟩
  rw [latest] at selected
  exact ⟨lock.holder, opened, running, ⟨p, report, Request.owns_of_selects report selected⟩,
    mem_held.mpr ⟨lock, lockMem, rfl, latest⟩⟩

/-- A delivery that had expired has been ended by exactly one pass, unless its
own worker has come first. -/
theorem recovered_unless_reported {delivery : JobRow} (member : delivery ∈ db.job.rows)
    (expired : leaseExpired since delivery = true) :
    (Reported state delivery ∨ Reporting state delivery) ∨ RecoveredOnce state delivery := by
  rcases sound.traced delivery member with ⟨latest, latestMem, sameId, path⟩
  by_cases untouched : changesOf JobRow.id delivery.id state.locking.log = []
  · left
    right
    rw [untouched] at path
    have same : delivery = latest := path
    subst same
    exact reporting_of_untouched sound sweeps someLoop ended latestMem expired untouched
  · rcases path.first untouched with ⟨change, changeMem, same⟩
    rcases mem_changesOf.mp changeMem with ⟨commit, commitMem, listed, _⟩
    have settled := recovered_or_reported sound commitMem listed
    rw [same] at settled
    exact settled.imp_left Or.inl

/-- Where no heartbeat goes back in time, no row is left whose lease had
expired, but those that their workers have locked. -/
theorem reporting_of_expired
    (issued : Tagged (fun _ request => since ≤ request.call.now) state.locking)
    (extending : Tagged (fun _ request => request.Extends) state.locking)
    {row : JobRow} (member : row ∈ state.locking.table) (expired : leaseExpired since row = true) :
    Reporting state row := by
  rcases sound.agrees.logged.untouched_or_changed member with
    untouched | ⟨commit, commitMem, change, changeMem, rfl⟩
  · exact reporting_of_untouched sound sweeps someLoop ended member expired untouched
  · exfalso
    rw [(sound.agrees.logged.sound commit commitMem).changed] at changeMem
    rcases List.mem_map.mp changeMem with ⟨row, _, rfl⟩
    rcases sound.requests.logged commit commitMem with ⟨txn, ofLoops⟩
    rcases issued.logged commit commitMem with ⟨_, later⟩
    rcases extending.logged commit commitMem with ⟨_, ahead⟩
    have current := not_expired_of_request ofLoops later ahead row
    exact Bool.eq_false_iff.mp current expired

end Ended

end Reapers

open Reapers

/-- Whatever the order in which any number of loops take their passes between
heartbeats and late reports: each delivery is ended by one pass at most, which
leaves one record and the state its attempts leave, and the counts add up.
Every loop ends.  When all have ended, each delivery whose lease had expired
was ended by exactly one pass, unless its own worker came first; and no expired
lease is left, but where the worker is about to extend it. -/
theorem leases_recovered_once (db : Database) (loops : Nat) (batchMax : Nat -> Nat)
    (positive : forall loop, loop < loops -> 1 ≤ batchMax loop) :
    (forall labels, Accounted (after db loops batchMax labels) ∧
      ((after db loops batchMax labels).results.map ReapResult.recovered).sum +
        ((after db loops batchMax labels).results.map ReapResult.deadLettered).sum =
          (passChanges (after db loops batchMax labels).locking.log).length) ∧
      (Exists fun bound : Nat => forall labels : List (ReapersLabel db),
        (forall loop, loop < loops -> bound ≤ labels.countP (ReapersLabel.isOf loop)) ->
          forall loop, loop < loops -> (after db loops batchMax labels).draining loop = false) ∧
      forall (since : Timestamp) (labels : List (ReapersLabel db)),
        (forall label, label ∈ labels ->
          label.Issues batchMax (fun request => since ≤ request.call.now)) ->
        0 < loops ->
        (forall loop, loop < loops -> (after db loops batchMax labels).draining loop = false) ->
          (forall delivery, delivery ∈ db.job.rows -> leaseExpired since delivery = true ->
            (Reported (after db loops batchMax labels) delivery ∨
              Reporting (after db loops batchMax labels) delivery) ∨
                RecoveredOnce (after db loops batchMax labels) delivery) ∧
          ((forall label, label ∈ labels -> label.Issues batchMax Request.Extends) ->
            forall row, row ∈ (after db loops batchMax labels).locking.table ->
              leaseExpired since row = true -> Reporting (after db loops batchMax labels) row) := by
  refine ⟨fun labels => ⟨(sound_after db loops batchMax labels).accounted,
    (sound_after db loops batchMax labels).accounted.total⟩, loops_end db batchMax positive, ?_⟩
  intro since labels issues someLoop ended
  have sound := sound_after db loops batchMax labels
  have sweeps : forall loop, loop < loops -> Sweeps since loop (after db loops batchMax labels) :=
    fun loop isLoop => sweeps_after db issues isLoop
  refine ⟨fun delivery member expired =>
    recovered_unless_reported sound sweeps someLoop ended member expired, ?_⟩
  intro extending row member expired
  exact reporting_of_expired sound sweeps someLoop ended (tagged_after db issues)
    (tagged_after db extending) member expired

/-- A delivery whose worker is gone. -/
def abandoned : Database := run Database.step (.empty [] .empty) (claimedOnce 2)

/-- Two loops that start a pass at the same time.  The second one finds the row
locked. -/
def twoLoops : List (ReapersLabel abandoned) :=
  [.reaper 0 (seconds 60) 0, .reaper 1 (seconds 60) 0, .reaper 0 (seconds 60) 0,
    .reaper 1 (seconds 60) 0, .reaper 1 (seconds 60) 0, .reaper 0 (seconds 60) 0,
    .reaper 0 (seconds 61) 0, .reaper 0 (seconds 61) 0]

/-- The delivery is recovered by one of their passes. -/
theorem abandoned_recovered :
    abandoned.job.rows.map (leaseExpired (seconds 60)) = [true] ∧
      Accounted (after abandoned 2 (fun _ => 1) twoLoops) ∧
        forall delivery, delivery ∈ abandoned.job.rows -> leaseExpired (seconds 60) delivery = true ->
          RecoveredOnce (after abandoned 2 (fun _ => 1) twoLoops) delivery := by
  have recovered := leases_recovered_once abandoned 2 (fun _ => 1) (fun _ _ => Nat.le_refl 1)
  refine ⟨by decide, (recovered.1 twoLoops).1, fun delivery member expired => ?_⟩
  have issues : forall label, label ∈ twoLoops ->
      label.Issues (fun _ => 1) (fun request => seconds 60 ≤ request.call.now) := by decide
  have settled := (recovered.2.2 (seconds 60) twoLoops issues (by decide) (by decide)).1 delivery
    member expired
  refine settled.resolve_left ?_
  rintro (⟨commit, member, ⟨p, report, _⟩, _⟩ | ⟨txn, opened, _, _, holds⟩)
  · have passes : forall commit,
        commit ∈ (after abandoned 2 (fun _ => 1) twoLoops).locking.log ->
          commit.tag.call.statement.fence = none := by decide
    rw [passes commit member] at report
    cases report
  · have free : (after abandoned 2 (fun _ => 1) twoLoops).locking.locks = [] := rfl
    rcases mem_held.mp holds with ⟨lock, lockMem, _⟩
    rw [free] at lockMem
    cases lockMem

end PgJobQ
