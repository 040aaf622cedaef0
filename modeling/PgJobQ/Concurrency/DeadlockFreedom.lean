import PgJobQ.Concurrency.LockingStatements
import PgJobQ.Library.LockWaits

/-!
# No deadlocks between statements

A claim and the reaper lock many rows, but pass over those that are locked.
Reports, heartbeats and the operators' updates of one job wait, but each names
the job it updates and has nothing locked while it waits.  So these statements
never wait for each other in a circle, in whatever order they lock rows, and one
that waits does so for one that can go on.

A replay of many jobs is none of them: it waits for the next row while it holds
the earlier ones.
-/

namespace PgJobQ

open Runs RowLocking

/-- A statement that names one job waits empty-handed. -/
theorem Mutation.waitsEmptyHanded_of_named {mutation : Mutation}
    (single : forall first second, mutation.hits first = true -> mutation.hits second = true ->
      first.id = second.id) : mutation.waiting.WaitsEmptyHanded :=
  Or.inr single

/-- Each statement passes over locked rows, or names one job. -/
theorem Request.waitsEmptyHanded {db : Database} (request : Request db) :
    request.update.WaitsEmptyHanded := by
  rcases request with ⟨⟨now, statement⟩, update, issued⟩
  dsimp only at issued ⊢
  cases statement with
  | claimJobs p ignored =>
      cases issued
      exact Or.inl rfl
  | claimJobsWithAging p threshold ignored =>
      cases issued
      exact Or.inl rfl
  | reapExpiredLeases p ignored =>
      cases issued
      exact Or.inl rfl
  | completeJob p =>
      cases issued
      exact Mutation.waitsEmptyHanded_of_named (fun first second => FenceParams.same_id_of_owns)
  | failJob p =>
      cases issued
      exact Mutation.waitsEmptyHanded_of_named (fun first second => FenceParams.same_id_of_owns)
  | heartbeatJob p leaseSeconds =>
      cases issued
      exact Mutation.waitsEmptyHanded_of_named (fun first second => FenceParams.same_id_of_owns)
  | acknowledgeCancellation p =>
      cases issued
      apply Mutation.waitsEmptyHanded_of_named
      intro first second firstHit secondHit
      exact FenceParams.same_id_of_owns (Bool.and_eq_true_iff.mp firstHit).1
        (Bool.and_eq_true_iff.mp secondHit).1
  | releaseJob p =>
      cases issued
      exact Mutation.waitsEmptyHanded_of_named (fun first second => FenceParams.same_id_of_owns)
  | cancelAvailableJob id =>
      cases issued
      exact Mutation.waitsEmptyHanded_of_named (fun first second => same_id_of_named)
  | requestCancelRunningJob id =>
      cases issued
      exact Mutation.waitsEmptyHanded_of_named (fun first second => same_id_of_named)
  | retryJobNow id =>
      cases issued
      exact Mutation.waitsEmptyHanded_of_named (fun first second => same_id_of_named)
  | _ => cases issued

namespace Locking

variable {db : Database}

/-- The transaction is open, and its next row is locked by another one. -/
abbrev Waits (locking : Locking db) (txn : Nat) : Prop := State.Waits Request.update locking txn

abbrev WaitsFor (locking : Locking db) (txn holder : Nat) : Prop :=
  State.WaitsFor Request.update locking txn holder

theorem after_append (labels later : List (RowLocking.Label (Request db))) :
    after db (labels ++ later) = run (step db) (after db labels) later :=
  run_append _ _ _ _

/-- What any interleaving keeps of the locks. -/
theorem wellLocked_after (labels : List (RowLocking.Label (Request db))) :
    WellLocked Request.update (after db labels) ∧ Modest Request.update (after db labels) := by
  have initially : WellLocked Request.update (RowLocking.initial db.job.rows : Locking db) :=
    (WellLogged.initial db.job.nodup_ids).locked
  have kept : forall (locking : Locking db) (label : RowLocking.Label (Request db)),
      WellLocked Request.update locking ∧ Modest Request.update locking ->
        WellLocked Request.update (step db locking label) ∧
          Modest Request.update (step db locking label) :=
    fun locking label both => ⟨both.1.step label, both.2.step both.1 Request.waitsEmptyHanded label⟩
  exact run_invariant kept ⟨initially, Modest.initial db.job.rows⟩ labels

end Locking

/-- However the phases of claims, reports, heartbeats, reaps and updates of one
job interleave, a statement that waits for a row has no row locked and waits for
another one that does not wait itself, and visits and commits alone, with no
transaction rolled back, bring all open statements to their end. -/
theorem statements_never_deadlock (db : Database) (labels : List (RowLocking.Label (Request db))) :
    (forall txn, (Locking.after db labels).Waits txn ->
      (Locking.after db labels).held txn = [] ∧ Exists fun holder : Nat => holder ≠ txn ∧
        (Locking.after db labels).WaitsFor txn holder ∧
          (Locking.after db labels).opened holder ≠ none) ∧
      (forall txn holder, (Locking.after db labels).WaitsFor txn holder ->
        Not ((Locking.after db labels).Waits holder)) ∧
      Exists fun later : List (RowLocking.Label (Request db)) =>
        (forall label, label ∈ later -> label.goesOn = true) ∧
          forall txn, (Locking.after db (labels ++ later)).opened txn = none := by
  have kept := Locking.wellLocked_after labels
  refine ⟨fun txn waits => ⟨kept.2.held_of_waits waits, kept.1.waitsFor kept.2 waits⟩,
    fun txn holder => kept.2.not_waits_of_waitsFor, ?_⟩
  have known : forall txn, (Locking.after db labels).opened txn ≠ none ->
      txn ∈ labels.filterMap RowLocking.Label.starts := by
    intro txn active
    exact (opened_of_run active).resolve_left (fun started => started rfl)
  rcases drains Request.waitsEmptyHanded kept.1 kept.2 _ known with ⟨later, goOn, done⟩
  refine ⟨later, goOn, fun txn => ?_⟩
  rw [Locking.after_append]
  exact done txn

end PgJobQ
