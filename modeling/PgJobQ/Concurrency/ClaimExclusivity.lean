import PgJobQ.Concurrency.LockingStatements

/-!
# No job is handed out twice

Claims, reports, the reaper and an operator's cancel and retry work on the
same jobs at the same time.  The candidates of a claim come from a snapshot
that may be stale, but a row is claimed in the version that was locked, and
that version was available.  A job that is claimed again has therefore come
back from `running` in between, by the commit of some other transaction.
-/

namespace PgJobQ

open Runs RowLocking

/-- The rows that `RETURNING` lists. -/
def returning {db : Database} (commit : RowLocking.Commit (Request db) JobRow) : List JobRow :=
  commit.changes.map (·.after)

def claimedBy {db : Database} (commit : RowLocking.Commit (Request db) JobRow) :
    Option ClaimParams :=
  commit.tag.call.statement.claimParams

/-- No transaction touches a terminal row. -/
theorem Request.selects_active {db : Database} (request : Request db) {row : JobRow}
    (selected : request.update.selects row = true) :
    row.state = .available ∨ row.state = .running := by
  rcases request with ⟨⟨now, statement⟩, update, issued⟩
  cases statement with
  | claimJobs p ignored =>
      cases issued
      exact Or.inl (claimable_iff.mp selected).2.1
  | claimJobsWithAging p threshold ignored =>
      cases issued
      exact Or.inl (claimable_iff.mp selected).2.1
  | reapExpiredLeases p ignored =>
      cases issued
      exact Or.inr (leaseExpired_iff.mp selected).1
  | completeJob p =>
      cases issued
      exact Or.inr (FenceParams.owns_iff.mp selected).2.1
  | failJob p =>
      cases issued
      exact Or.inr (FenceParams.owns_iff.mp selected).2.1
  | heartbeatJob p leaseSeconds =>
      cases issued
      exact Or.inr (FenceParams.owns_iff.mp selected).2.1
  | acknowledgeCancellation p =>
      cases issued
      exact Or.inr (FenceParams.owns_iff.mp (Bool.and_eq_true_iff.mp selected).1).2.1
  | releaseJob p =>
      cases issued
      exact Or.inr (FenceParams.owns_iff.mp selected).2.1
  | cancelAvailableJob id =>
      cases issued
      exact Or.inl (beq_iff_eq.mp (Bool.and_eq_true_iff.mp selected).2)
  | requestCancelRunningJob id =>
      cases issued
      exact Or.inr (beq_iff_eq.mp (Bool.and_eq_true_iff.mp selected).2)
  | retryJobNow id =>
      cases issued
      exact Or.inl (beq_iff_eq.mp (Bool.and_eq_true_iff.mp selected).2)
  | _ => cases issued

/-- A claim takes available rows of its queue, as many as it asked for, and
sets them running. -/
theorem Request.claims {db : Database} (request : Request db) {p : ClaimParams}
    (claims : request.call.statement.claimParams = some p) :
    request.update.limit = some p.limit ∧
      (forall row, request.update.selects row = true -> row.state = .available) ∧
        forall row, (request.update.set row).state = .running := by
  rcases request with ⟨⟨now, statement⟩, update, issued⟩
  cases statement with
  | claimJobs p ignored =>
      cases issued
      cases claims
      exact ⟨rfl, fun row selected => (claimable_iff.mp selected).2.1, fun row => rfl⟩
  | claimJobsWithAging p threshold ignored =>
      cases issued
      cases claims
      exact ⟨rfl, fun row selected => (claimable_iff.mp selected).2.1, fun row => rfl⟩
  | _ => cases claims

/-- A change in the log started from an available or a running row. -/
theorem change_active {db : Database} {commit : RowLocking.Commit (Request db) JobRow}
    (sound : commit.Sound Request.update) {change : Change JobRow}
    (member : change ∈ commit.changes) :
    change.before.state = .available ∨ change.before.state = .running := by
  rw [sound.changed] at member
  rcases List.mem_map.mp member with ⟨row, holds, rfl⟩
  exact commit.tag.selects_active (sound.selected row holds)

/-- What lies between two claims of a job: the job left `running` for
`available`.  It cannot have gone through a terminal state, which no
transaction leaves. -/
theorem requeued_between {db : Database} {state : Locking db}
    (logged : WellLogged Request.update state)
    {newer middle older : List (RowLocking.Commit (Request db) JobRow)}
    {second first : RowLocking.Commit (Request db) JobRow}
    (split : state.log = newer ++ second :: (middle ++ first :: older))
    {p q : ClaimParams} (firstClaims : claimedBy first = some p)
    (secondClaims : claimedBy second = some q) {once again : JobRow}
    (onceMem : once ∈ returning first) (againMem : again ∈ returning second)
    (same : once.id = again.id) :
    Exists fun commit : RowLocking.Commit (Request db) JobRow => commit ∈ middle ∧
      Exists fun change : Change JobRow => change ∈ commit.changes ∧
        change.before.id = once.id ∧ change.before.state = .running ∧
          change.after.id = once.id ∧ change.after.state = .available := by
  have firstSound := logged.sound first (by simp [split])
  have secondSound := logged.sound second (by simp [split])
  rcases List.mem_map.mp onceMem with ⟨made, madeMem, rfl⟩
  rcases List.mem_map.mp againMem with ⟨found, foundMem, rfl⟩
  have madeIs := madeMem
  have foundIs := foundMem
  rw [firstSound.changed] at madeIs
  rw [secondSound.changed] at foundIs
  rcases List.mem_map.mp madeIs with ⟨taken, takenMem, rfl⟩
  rcases List.mem_map.mp foundIs with ⟨retaken, retakenMem, rfl⟩
  dsimp only at same madeMem foundMem ⊢
  rw [(first.tag.update).keepsKey] at same ⊢
  rw [(second.tag.update).keepsKey] at same
  have path := logged.path_between split madeMem foundMem same
  have started : (first.tag.update.set taken).state = .running :=
    (first.tag.claims firstClaims).2.2 taken
  have ready : retaken.state = .available :=
    (second.tag.claims secondClaims).2.1 retaken (secondSound.selected retaken retakenMem)
  have middleSound : forall commit, commit ∈ middle -> commit.Sound Request.update :=
    fun commit member => logged.sound commit (by simp [split, member])
  -- the change that leaves `running`
  have crossing := @Path.crosses _ _ _ _ (fun row => row.state ≠ .running) path
    (fun left => left started) (by rw [ready]; decide)
  rcases crossing with ⟨change, changeMem, wasRunning, notRunning⟩
  rcases mem_changesOf.mp changeMem with ⟨commit, member, listed, sameId⟩
  have afterId : change.after.id = taken.id := by
    have changed := listed
    rw [(middleSound commit member).changed] at changed
    rcases List.mem_map.mp changed with ⟨row, _, rfl⟩
    exact (commit.tag.update.keepsKey row).trans sameId
  refine ⟨commit, member, change, listed, sameId, not_not.mp wasRunning, afterId, ?_⟩
  rcases path.followed changeMem with last | ⟨next, nextMem, follows⟩
  · rw [last]
    exact ready
  · rcases mem_changesOf.mp nextMem with ⟨later, laterMem, nextListed, _⟩
    rw [← follows] at notRunning ⊢
    exact (change_active (middleSound later laterMem) nextListed).resolve_right notRunning

/-- Whatever the interleaving of their phases: between two claims that return
the same job, a commit moved it from `running` back to `available`; and a claim
returns the rows it locked, none of them twice, no more than its limit, each of
them available in the version it locked. -/
theorem claims_exclusive (db : Database) (labels : List (RowLocking.Label (Request db))) :
    (forall newer second middle first older,
      (Locking.after db labels).log = newer ++ second :: (middle ++ first :: older) ->
        forall p q, claimedBy first = some p -> claimedBy second = some q ->
          forall once again, once ∈ returning first -> again ∈ returning second ->
            once.id = again.id ->
              Exists fun commit : RowLocking.Commit (Request db) JobRow => commit ∈ middle ∧
                Exists fun change : Change JobRow => change ∈ commit.changes ∧
                  change.before.id = once.id ∧ change.before.state = .running ∧
                    change.after.id = once.id ∧ change.after.state = .available) ∧
      forall commit, commit ∈ (Locking.after db labels).log ->
        forall p, claimedBy commit = some p ->
          (returning commit).map JobRow.id = commit.locked.map JobRow.id ∧
            ((returning commit).map JobRow.id).Nodup ∧ (returning commit).length ≤ p.limit ∧
              forall row, row ∈ commit.locked -> row.state = .available := by
  have logged := (locking_refines_statements db labels).logged
  constructor
  · intro newer second middle first older split p q firstClaims secondClaims once again onceMem
      againMem same
    exact requeued_between logged split firstClaims secondClaims onceMem againMem same
  · intro commit member p claims
    have sound := logged.sound commit member
    have request := commit.tag.claims claims
    have listed : (returning commit).map JobRow.id = commit.locked.map JobRow.id := by
      simp only [returning, sound.changed, List.map_map]
      apply List.map_congr_left
      intro row _
      exact commit.tag.update.keepsKey row
    have short : (returning commit).length = commit.locked.length := by
      simp only [returning, sound.changed, List.length_map]
    refine ⟨listed, ?_, ?_, ?_⟩
    · rw [listed]
      exact sound.once
    · rw [short]
      exact sound.limited p.limit request.1
    · exact fun row holds => request.2.1 row (sound.selected row holds)

end PgJobQ
