import Mathlib.Data.Finset.Card
import PgJobQ.Lifecycle.Attempts
import PgJobQ.Lifecycle.CancelRequests
import PgJobQ.Lifecycle.ClaimOrder

/-!
# Unending runs of statements

Whether a job is served one day is a question about runs that never end.  The
argument is always the same: the jobs that can be served ahead of it are
finitely many, no later statement adds to them, and each service takes one of
them away or serves the job itself.

The jobs ahead are the ids of the rows with a property.  A call keeps out of a
property when none of its row steps and inserts brings a job into it, and then
the set of ids can only shrink.
-/

namespace PgJobQ

open Runs

/-- The database after so many calls of an unending run. -/
abbrev Database.afterCalls (db : Database) (calls : Nat -> Call) (count : Nat) : Database :=
  stateAt Database.step db calls count

/-! ## The jobs ahead -/

/-- The ids of the jobs whose row has the property. -/
def Database.idsWhere (db : Database) (holds : JobRow -> Bool) : Finset Nat :=
  ((db.job.rows.filter holds).map JobRow.id).toFinset

theorem Database.mem_idsWhere {db : Database} {holds : JobRow -> Bool} {id : Nat} :
    id ∈ db.idsWhere holds <->
      Exists fun row : JobRow => db.find id = some row ∧ holds row = true := by
  simp only [Database.idsWhere, List.mem_toFinset, List.mem_map, List.mem_filter,
    Database.find_eq_some_iff]
  constructor
  · rintro ⟨row, ⟨member, held⟩, same⟩
    exact ⟨row, ⟨member, same⟩, held⟩
  · rintro ⟨row, ⟨member, same⟩, held⟩
    exact ⟨row, ⟨member, held⟩, same⟩

/-- The call brings no job into the property. -/
structure Call.KeepsOutOf (call : Call) (db : Database) (holds : JobRow -> Bool) : Prop where
  steps : forall old new, old ∈ db.job.rows -> RowStep call.now call.statement old new ->
    holds new = true -> holds old = true
  inserts : forall asked id, asked ∈ call.statement.enqueueRows ->
    holds (asked.toJobRow id call.now) = false

/-- Who has the property after the call had it before. -/
theorem Call.KeepsOutOf.subset {call : Call} {db : Database} {holds : JobRow -> Bool}
    (keeps : call.KeepsOutOf db holds) : (db.step call).idsWhere holds ⊆ db.idsWhere holds := by
  intro id member
  rcases Database.step_cases db call with stays | ⟨reply, committed, moves⟩
  · rwa [stays] at member
  · rw [moves] at member
    rcases Database.mem_idsWhere.mp member with ⟨row, found, held⟩
    apply Database.mem_idsWhere.mpr
    have effect := exec_effect committed id
    generalize before : db.find id = old at effect ⊢
    rw [found] at effect
    cases effect with
    | untouched silent => exact ⟨row, rfl, held⟩
    | stepped step oldId newId listed only =>
        exact ⟨_, rfl, keeps.steps _ _ (Database.find_eq_some_iff.mp before).1 step held⟩
    | inserted asked fresh listed only =>
        rw [keeps.inserts _ id asked] at held
        cases held

/-- A call that takes a job out of the property leaves fewer of them. -/
theorem Call.KeepsOutOf.card_lt {call : Call} {db : Database} {holds : JobRow -> Bool}
    (keeps : call.KeepsOutOf db holds) {id : Nat} (member : id ∈ db.idsWhere holds)
    (left : id ∉ (db.step call).idsWhere holds) :
    ((db.step call).idsWhere holds).card < (db.idsWhere holds).card :=
  Finset.card_lt_card
    (Finset.ssubset_iff_subset_ne.mpr ⟨keeps.subset, fun same => left (same ▸ member)⟩)

/-! ## Service -/

theorem nullsLast_total (first second : Option Timestamp) :
    nullsLast first second = true ∨ nullsLast second first = true := by
  cases first with
  | none =>
      cases second with
      | none => exact Or.inl rfl
      | some two => exact Or.inr rfl
  | some one =>
      cases second with
      | none => exact Or.inl rfl
      | some two => exact (Int.le_total one two).imp decide_eq_true decide_eq_true

theorem nullsLast_trans {first second third : Option Timestamp}
    (before : nullsLast first second = true) (after : nullsLast second third = true) :
    nullsLast first third = true := by
  cases third with
  | none =>
      cases first with
      | none => rfl
      | some one => rfl
  | some three =>
      cases second with
      | none => cases after
      | some two =>
          cases first with
          | none => cases before
          | some one =>
              exact decide_eq_true
                (Int.le_trans (of_decide_eq_true before) (of_decide_eq_true after))

/-- A statement that may take a selected job that nobody has locked takes it,
or another one that comes before it. -/
theorem exists_taken {before : JobRow -> JobRow -> Prop} [DecidableRel before] [Std.Total before]
    [IsTrans JobRow before] {selects : JobRow -> Bool} {limit : Nat} {locked : List Nat}
    {table : JobTable} {waiting : JobRow} (member : waiting ∈ table.rows)
    (selected : selects waiting = true) (unlocked : waiting.id ∉ locked) (room : 0 < limit) :
    waiting.id ∈ lockCandidates before selects limit locked table.rows ∨
      Exists fun taken : JobRow => taken ∈ table.rows ∧ selects taken = true ∧
        taken.id ∈ lockCandidates before selects limit locked table.rows ∧
          TakenAhead (lockCandidates before selects limit locked table.rows) taken.id waiting.id := by
  by_cases among : waiting.id ∈ lockCandidates before selects limit locked table.rows
  · exact Or.inl among
  · right
    have waits : waiting.id ∈ (((table.rows.filter selects).insertionSort before).map
        JobRow.id).filter (fun id => !locked.contains id) := by
      refine List.mem_filter.mpr ⟨List.mem_map_of_mem ?_, by simpa using unlocked⟩
      exact (List.mem_insertionSort before).mpr (List.mem_filter.mpr ⟨member, selected⟩)
    have some : lockCandidates before selects limit locked table.rows ≠ [] := by
      unfold lockCandidates
      intro empty
      rcases List.take_eq_nil_iff.mp empty with none | nobody
      · exact absurd none (Nat.pos_iff_ne_zero.mp room)
      · rw [nobody] at waits
        cases waits
    rcases List.exists_mem_of_ne_nil _ some with ⟨id, chosen⟩
    rcases mem_lockCandidates chosen with ⟨taken, takenMem, takenSelected, rfl⟩
    exact ⟨taken, takenMem, takenSelected, chosen, takenAhead_of_not_mem chosen among⟩

/-- A row that an `UPDATE` hits is found with its new columns. -/
theorem Mutation.find_of_hit {mutation : Mutation} {db : Database} {reply : Reply}
    (committed : mutation.run db = .ok reply) {row : JobRow} (member : row ∈ db.job.rows)
    (hit : mutation.hits row = true) : reply.db.find row.id = some (mutation.set row) := by
  apply Database.find_eq_some_iff.mpr
  rw [(Mutation.run_ok committed).1]
  exact ⟨List.mem_map.mpr ⟨row, member, if_pos hit⟩, mutation.keepsId row⟩

/-- A claim commits where every available job has an attempt left. -/
theorem claim_commits {db : Database} (left : AttemptsLeft db) {now : Timestamp} {p : ClaimParams}
    {mutation : Mutation} (sets : mutation.set = claimSet p.workerId now)
    (selects : forall row, row ∈ db.job.rows -> mutation.hits row = true ->
      claimable db.queueConfig p now row = true) :
    Exists fun reply : Reply => mutation.run db = .ok reply := by
  apply Mutation.run_commits_of_hits
  · intro row member hit
    have ready := (claimable_iff.mp (selects row member hit)).2.1
    have before := (JobRow.checked_iff row).mp (db.job.constraints.checked row member)
    rw [sets]
    apply (JobRow.checked_iff _).mpr
    intro constraint
    cases constraint with
    | prioritySmallint => exact before .prioritySmallint
    | jobAttemptBounded =>
        have bounded : 0 ≤ row.attempt := (before .jobAttemptBounded).1
        have attemptsLeft := left row member ready
        exact ⟨Int.le_trans bounded (Int.le_of_lt (Int.lt_succ _)), attemptsLeft⟩
    | jobDeadHasReason => exact Or.inl JobState.noConfusion
    | jobLeasePositive => exact before .jobLeasePositive
    | jobMaxAttemptsValid => exact before .jobMaxAttemptsValid
    | jobRunningHasLease => exact Or.inr ⟨Option.some_ne_none _, Option.some_ne_none _⟩
    | jobTerminalFinished => exact Or.inl rfl
  · intro row
    rw [sets]
    rfl
  · intro row member hit
    have ready := (claimable_iff.mp (selects row member hit)).2.1
    rw [sets]
    exact Or.inl (by simp [claimSet, JobRow.uniqueActiveIdx, JobState.isActive, ready])

/-! ## The clock -/

/-- A clock that never goes back from one call to the next does not go back at
all. -/
theorem now_le_of_forward {calls : Nat -> Call}
    (forward : forall count, (calls count).now ≤ (calls (count + 1)).now) {first later : Nat}
    (order : first ≤ later) : (calls first).now ≤ (calls later).now := by
  induction order with
  | refl => exact Int.le_refl _
  | step _ inductionHypothesis => exact Int.le_trans inductionHypothesis (forward _)

/-- The clock of an unending run never goes back and passes every time. -/
structure ClockGoesOn (calls : Nat -> Call) : Prop where
  forward : forall count, (calls count).now ≤ (calls (count + 1)).now
  beyond : forall time, Exists fun count : Nat => time ≤ (calls count).now

theorem ClockGoesOn.le {calls : Nat -> Call} (clock : ClockGoesOn calls) {first later : Nat}
    (order : first ≤ later) : (calls first).now ≤ (calls later).now :=
  now_le_of_forward clock.forward order

theorem ClockGoesOn.suffix {calls : Nat -> Call} (clock : ClockGoesOn calls) (first : Nat) :
    ClockGoesOn (fun later => calls (first + later)) where
  forward := fun count => clock.forward (first + count)
  beyond := by
    intro time
    rcases clock.beyond time with ⟨count, reached⟩
    exact ⟨count, Int.le_trans reached (clock.le (Nat.le_add_left count first))⟩

/-! ## A run -/

/-- A job that has just been enqueued. -/
def oneWaiting : Database := (Database.empty [] .empty).step ⟨0, .insertJob (plainEnqueue 3)⟩

def urgentMail : EnqueueRow := { plainEnqueue 3 with priority := 5 }

/-- The job competes with a more urgent one. -/
def mailWaiting : Database := oneWaiting.step ⟨0, .insertJob urgentMail⟩

/-- In turns a worker claims one job, a reaper recovers one, and a client enqueues
another one that is more urgent. -/
def pollingCalls (count : Nat) : Call where
  now := seconds count
  statement :=
    if count % 3 = 0 then .claimJobsWithAging ⟨"mail", 1, "w"⟩ 60 []
    else if count % 3 = 1 then .reapExpiredLeases ⟨1, 0⟩ []
    else .insertJob urgentMail

theorem pollingCalls_cases (count : Nat) :
    (pollingCalls count).statement = .claimJobsWithAging ⟨"mail", 1, "w"⟩ 60 [] ∨
      (pollingCalls count).statement = .reapExpiredLeases ⟨1, 0⟩ [] ∨
      (pollingCalls count).statement = .insertJob urgentMail := by
  unfold pollingCalls
  split
  · exact Or.inl rfl
  · split
    · exact Or.inr (Or.inl rfl)
    · exact Or.inr (Or.inr rfl)

theorem pollingCalls_clock : ClockGoesOn pollingCalls where
  forward := by
    intro count
    exact Int.mul_le_mul_of_nonneg_right (Int.ofNat_le.mpr (Nat.le_succ count)) (by decide)
  beyond := by
    intro time
    refine ⟨time.toNat, Int.le_trans (Int.self_le_toNat time) ?_⟩
    exact le_mul_of_one_le_right (Int.natCast_nonneg _) (by decide)

/-- Polling leaves the configuration of the queues alone. -/
theorem pollingCalls_queueConfig (db : Database) (count : Nat) :
    (db.afterCalls pollingCalls count).queueConfig = db.queueConfig := by
  apply @stateAt_invariant _ _ Database.step (fun state => state.queueConfig = db.queueConfig)
  · intro count same
    rcases Database.step_cases (db.afterCalls pollingCalls count) (pollingCalls count) with
      stays | ⟨reply, committed, moves⟩
    · exact (congrArg Database.queueConfig stays).trans same
    · have kept : reply.db.queueConfig = (db.afterCalls pollingCalls count).queueConfig := by
        apply exec_queueConfig committed
        intro named paused pauses
        rcases pollingCalls_cases count with issued | issued | issued <;>
          cases issued.symm.trans pauses
      exact (congrArg Database.queueConfig moves).trans (kept.trans same)
  · rfl

end PgJobQ
