import PgJobQ.Client.Administration
import PgJobQ.Lifecycle.ClaimOrder

/-!
# An operator retries a job now

`retryJobNow` writes the present time into `run_at` of an available job.  A job
that is due later is advanced by that.  A job that was due already gets a later
`run_at` than it had: jobs that arrived after it come before it in the claim
order, and what it had gained by waiting is lost under aging.
-/

namespace PgJobQ

open Runs

/-- Whatever the named job came before in the order, it still comes before.  The other job
is looked up again under its id. -/
def KeepsPlace (order : JobRow -> JobRow -> Prop) (id : Nat) (before after : Database) : Prop :=
  forall old new other otherAfter, before.find id = some old -> after.find id = some new ->
    before.find other.id = some other -> after.find other.id = some otherAfter ->
      other.queue = old.queue -> order old other -> order new otherAfter

/-- The job is due no later, and keeps its place in both claim orders from now
on. -/
structure NotPostponed (id : Nat) (now : Timestamp) (before after : Database) : Prop where
  advanced : forall old new, before.find id = some old -> after.find id = some new ->
    new.runAt ≤ old.runAt
  claimed : KeepsPlace claimOrder id before after
  aged : forall (threshold : Int) (later : Timestamp), 0 < threshold -> now ≤ later ->
    KeepsPlace (agingOrder threshold later) id before after

/-- The job is available and has been due for some time. -/
def AlreadyDue (id : NumericId) (now : Timestamp) (db : Database) : Prop :=
  id.fitsBigint = true ∧ Exists fun job : JobRow =>
    db.find id.value = some job ∧ job.state = .available ∧ job.runAt < now

namespace Client

/-- What the call makes of a row. -/
def retried (id : NumericId) (now : Timestamp) (job : JobRow) : JobRow :=
  if id.fitsBigint = true then (retryJobNow id.value now).rewrite job else job

theorem retryNow_find (id : NumericId) (now : Timestamp) (db : Database) (other : Nat) :
    (retryNow id now db).1.find other = (db.find other).map (retried id now) := by
  cases fits : id.fitsBigint with
  | false =>
      have refused : (retryNow id now db).1 = db := by
        simp only [retryNow, query, List.all_cons, fits, Bool.false_and, Bool.false_eq_true, if_false]
      have same : retried id now = fun job => job :=
        funext fun job => if_neg (by rw [fits]; exact Bool.false_ne_true)
      rw [refused, same, Option.map_id']
  | true =>
      rcases retryJobNow_commits db id.value now with ⟨reply, ran⟩
      have committed : (Statement.retryJobNow id.value).exec now db = .ok reply := ran
      have result : (retryNow id now db).1 = reply.db := by
        simp only [retryNow, query, List.all_cons, fits, List.all_nil, Bool.and_self, if_true,
          committed]
        split <;> rfl
      have same : retried id now = (retryJobNow id.value now).rewrite :=
        funext fun job => if_pos fits
      rw [result, same, Database.find, (Mutation.run_ok ran).1, List.find?_map]
      unfold Database.find
      congr 2
      funext row
      simp only [Function.comp_apply, Mutation.rewrite_id]

/-- A row is left alone, or it is the available row with the id, and its
`run_at` is now. -/
theorem retried_cases (id : NumericId) (now : Timestamp) (job : JobRow) :
    retried id now job = job ∨
      (id.fitsBigint = true ∧ job.id = id.value ∧ job.state = .available ∧
        retried id now job = { job with runAt := now, updatedAt := now }) := by
  unfold retried
  split
  · rename_i fits
    unfold Mutation.rewrite
    split
    · rename_i hit
      have guard := named_iff.mp hit
      exact Or.inr ⟨fits, guard.1, guard.2, rfl⟩
    · exact Or.inl rfl
  · exact Or.inl rfl

theorem runAt_retried {id : NumericId} {now : Timestamp} {job : JobRow}
    (fits : id.fitsBigint = true) (same : job.id = id.value) (ready : job.state = .available) :
    (retried id now job).runAt = now := by
  have hit : (retryJobNow id.value now).hits job = true := named_iff.mpr ⟨same, ready⟩
  rw [retried, if_pos fits, Mutation.rewrite, if_pos hit]
  rfl

end Client

/-- A job that is retried before it is due keeps its place in an order by any
rank that falls with `run_at`. -/
theorem keepsPlace_of_rank {rank : WaitingTicket -> Int} {order : JobRow -> JobRow -> Prop}
    (byRank : forall first second, order first second <->
      WaitingTicket.Before rank first.ticket second.ticket)
    (higher : forall first second : WaitingTicket, first.priority = second.priority ->
      second.since ≤ first.since -> rank first ≤ rank second)
    {id : NumericId} {now : Timestamp} {db : Database} (early : Not (AlreadyDue id now db)) :
    KeepsPlace order id.value db (Client.retryNow id now db).1 := by
  intro old new other otherAfter foundOld foundNew foundOther foundAfter _ before
  rw [Client.retryNow_find, foundOld] at foundNew
  rw [Client.retryNow_find, foundOther] at foundAfter
  cases foundNew
  cases foundAfter
  rcases Client.retried_cases id now other with otherSame | ⟨_, named, _, _⟩
  · rw [otherSame]
    rcases Client.retried_cases id now old with same | ⟨fits, _, ready, moved⟩
    · rw [same]
      exact before
    · have due : now ≤ old.runAt :=
        Int.not_lt.mp (fun late => early ⟨fits, old, foundOld, ready, late⟩)
      rw [moved]
      exact (byRank _ _).mpr (((byRank _ _).mp before).advance
        (higher old.ticket { old with runAt := now, updatedAt := now }.ticket rfl due) due rfl)
  · -- the other job is the job itself
    rw [named, foundOld] at foundOther
    cases foundOther
    exact (byRank _ _).mpr (.refl _)

/-- A retry by an operator postpones a job exactly when the job is available
and due already. -/
theorem retryNow_advances_iff (id : NumericId) (now : Timestamp) (db : Database) :
    NotPostponed id.value now db (Client.retryNow id now db).1 <-> Not (AlreadyDue id now db) := by
  constructor
  · rintro kept ⟨fits, job, found, ready, late⟩
    have after : (Client.retryNow id now db).1.find id.value = some (Client.retried id now job) := by
      rw [Client.retryNow_find, found]
      rfl
    have earlier := kept.advanced job _ found after
    rw [Client.runAt_retried fits (Database.find_eq_some_iff.mp found).2 ready] at earlier
    exact absurd late (Int.not_lt.mpr earlier)
  · intro early
    refine ⟨?_, ?_, ?_⟩
    · intro old new foundOld foundNew
      rw [Client.retryNow_find, foundOld] at foundNew
      cases foundNew
      rcases Client.retried_cases id now old with same | ⟨fits, _, ready, moved⟩
      · rw [same]
      · rw [moved]
        exact Int.not_lt.mp (fun late => early ⟨fits, old, foundOld, ready, late⟩)
    · exact keepsPlace_of_rank (fun _ _ => claimOrder_iff)
        (fun _ _ same _ => Int.le_of_eq same) early
    · intro threshold later positive _
      exact keepsPlace_of_rank (fun _ _ => agingOrder_iff)
        (fun _ _ same earlier => WaitingTicket.aged_le_of_since (seconds_pos positive) same earlier
          later) early

/-- Two jobs of one queue and one priority, the second a second later. -/
def twoWaiting : Database :=
  (Session.after [] .empty
    [⟨0, .insertJob (plainEnqueue 2)⟩, ⟨seconds 1, .insertJob (plainEnqueue 2)⟩]).state

/-- Five seconds later the first one is retried: it is due later than before,
and the second one comes before it in both orders. -/
theorem retried_job_falls_behind :
    (twoWaiting.find 1).map JobRow.state = some .available ∧
      Not (NotPostponed 1 (seconds 5) twoWaiting
        (Client.retryNow ⟨"1", rfl⟩ (seconds 5) twoWaiting).1) ∧
      Not (KeepsPlace claimOrder 1 twoWaiting
        (Client.retryNow ⟨"1", rfl⟩ (seconds 5) twoWaiting).1) ∧
      Not (KeepsPlace (agingOrder 60 (seconds 5)) 1 twoWaiting
        (Client.retryNow ⟨"1", rfl⟩ (seconds 5) twoWaiting).1) := by
  refine ⟨rfl, fun kept => ?_, fun kept => ?_, fun kept => ?_⟩
  · exact absurd (kept.advanced _ _ rfl rfl) (by decide)
  · exact absurd (kept _ _ ((plainEnqueue 2).toJobRow 2 (seconds 1)) _ rfl rfl rfl rfl rfl
      (by decide)) (by decide)
  · exact absurd (kept _ _ ((plainEnqueue 2).toJobRow 2 (seconds 1)) _ rfl rfl rfl rfl rfl
      (by decide)) (by decide)

end PgJobQ
