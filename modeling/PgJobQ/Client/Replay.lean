import Mathlib.Data.List.Dedup
import PgJobQ.Client.Administration

/-!
# Replaying dead jobs

A replay is the one transition that brings a terminal job back under the
partial index on unique keys.  A bulk replay is one statement, so a single row
that may not come back makes all of them fail, with the error of the index.
The reply lists the ids as the database prints them, and the requested strings
are compared with those.

The bulk replay agrees with replaying the jobs one by one exactly when every id
is a `bigint`, every requested dead job may come back together with the other
ones, and is requested by its canonical id.
-/

namespace PgJobQ

open Runs UniqueRows

/-- One of the requested jobs, and dead. -/
def Requested (ids : List NumericId) (row : JobRow) : Prop :=
  row.state = .dead ∧ row.id ∈ ids.map NumericId.value

instance (ids : List NumericId) (row : JobRow) : Decidable (Requested ids row) :=
  inferInstanceAs (Decidable (_ ∧ _))

/-- The entry of the row in `job_unique_active_idx`, if it were active. -/
def JobRow.uniqueEntry (row : JobRow) : Option (String × String) :=
  row.uniqueKey.map (fun key => (row.queue, key))

/-! ## One job at a time -/

/-- Replay the jobs one at a time, and pass over those that cannot be
replayed. -/
def replayOneByOne (now : Timestamp) : List NumericId -> Database -> Database × BulkReplay
  | [], db => (db, ⟨[], []⟩)
  | id :: ids, db =>
      let first := Client.replay id now db
      let rest := replayOneByOne now ids first.1
      match first.2 with
      | .ok _ => (rest.1, { rest.2 with replayed := id.text :: rest.2.replayed })
      | .error _ => (rest.1, { rest.2 with skipped := id.text :: rest.2.skipped })

/-- The job with this id was not available before and is now. -/
def BecameAvailable (id : NumericId) (before after : Database) : Prop :=
  (before.find id.value).map JobRow.state ≠ some .available ∧
    (after.find id.value).map JobRow.state = some .available

/-- What a bulk replay reports is what happened to each of the jobs. -/
structure ReplayReported (ids : List NumericId) (now : Timestamp) (before after : Database)
    (result : BulkReplay) : Prop where
  oneByOne : Exists fun order : List NumericId => order.Nodup ∧
    (forall id, id ∈ order <-> id ∈ ids) ∧ (replayOneByOne now order before).1 = after ∧
      (forall text, text ∈ (replayOneByOne now order before).2.replayed <->
        text ∈ result.replayed) ∧
        forall text, text ∈ (replayOneByOne now order before).2.skipped <-> text ∈ result.skipped
  split : forall id, id ∈ ids -> Xor (id.text ∈ result.replayed) (id.text ∈ result.skipped)
  available : forall id, id ∈ ids ->
    (id.text ∈ result.replayed <-> BecameAvailable id before after)

/-- A bulk replay does not fail, and its report is right. -/
def BulkFaithful (ids : List NumericId) (now : Timestamp) (db : Database) : Prop :=
  Exists fun result : BulkReplay => (Client.replayMany ids now db).2 = .ok result ∧
    ReplayReported ids now db (Client.replayMany ids now db).1 result

/-- Every id fits the column, no requested dead job contends for its unique key
with an active job or with another requested one, and each of them is requested
by its canonical id. -/
structure BulkReplayable (ids : List NumericId) (db : Database) : Prop where
  range : forall id, id ∈ ids -> id.fitsBigint = true
  apart : forall row, row ∈ db.job.rows -> Requested ids row -> row.uniqueEntry ≠ none ->
    forall other, other ∈ db.job.rows -> other.state.isActive = true ∨ Requested ids other ->
      other.uniqueEntry = row.uniqueEntry -> other = row
  canonical : forall id, id ∈ ids -> forall row, row ∈ db.job.rows -> row.id = id.value ->
    row.state = .dead -> id.Canonical

/-- The call throws the unique violation of the driver. -/
def ThrowsUniqueViolation (id : NumericId) (now : Timestamp) (db : Database) : Prop :=
  Exists fun error : AdminError => (Client.replay id now db).2 = .error error ∧
    error.rawUniqueViolation = true

/-- If the id is that of a dead job, no active job holds its unique key. -/
def KeyFree (id : NumericId) (db : Database) : Prop :=
  id.fitsBigint = true -> forall row, row ∈ db.job.rows -> row.id = id.value -> row.state = .dead ->
    row.uniqueEntry ≠ none -> forall other, other ∈ db.job.rows -> other.state.isActive = true ->
      other.uniqueEntry ≠ row.uniqueEntry

/-! ## Coming back under the index -/

theorem replaySet_checked {row : JobRow} (checked : row.Checked) (now : Timestamp) :
    (replaySet now row).Checked := by
  have before := (JobRow.checked_iff row).mp checked
  apply (JobRow.checked_iff _).mpr
  intro constraint
  cases constraint with
  | prioritySmallint => exact before .prioritySmallint
  | jobAttemptBounded =>
      have bounds : 1 ≤ row.maxAttempts ∧ row.maxAttempts ≤ 1000 := before .jobMaxAttemptsValid
      exact ⟨Int.le_refl 0, by dsimp only [replaySet]; omega⟩
  | jobDeadHasReason => exact Or.inl JobState.noConfusion
  | jobLeasePositive => exact before .jobLeasePositive
  | jobMaxAttemptsValid => exact before .jobMaxAttemptsValid
  | jobRunningHasLease => exact Or.inl JobState.noConfusion
  | jobTerminalFinished => exact Or.inl rfl

section Replay

variable {now : Timestamp} {ids : List Nat} {db : Database}

/-- The row has an entry in the index after the replay of these ids. -/
def Enters (ids : List Nat) (row : JobRow) : Prop :=
  row.state.isActive = true ∨ (row.state = .dead ∧ row.id ∈ ids)

theorem replay_hits_iff {row : JobRow} : (replayDeadJobs ids now).hits row = true <->
    row.state = .dead ∧ row.id ∈ ids := by
  unfold replayDeadJobs
  rw [Bool.and_eq_true, List.contains_iff_mem, beq_iff_eq, and_comm]

theorem uniqueActiveIdx_replay (row : JobRow) {entry : String × String} :
    ((replayDeadJobs ids now).rewrite row).uniqueActiveIdx = some entry <->
      Enters ids row ∧ row.uniqueEntry = some entry := by
  by_cases hit : (replayDeadJobs ids now).hits row = true
  · have dead := replay_hits_iff.mp hit
    have back : (replayDeadJobs ids now).rewrite row = replaySet now row := if_pos hit
    rw [back]
    exact ⟨fun found => ⟨Or.inr dead, found⟩, fun found => found.2⟩
  · have same : (replayDeadJobs ids now).rewrite row = row := if_neg hit
    rw [same, JobRow.uniqueActiveIdx]
    split
    · rename_i active
      exact ⟨fun found => ⟨Or.inl active, found⟩, fun found => found.2⟩
    · rename_i inactive
      constructor
      · intro found
        cases found
      · rintro ⟨active | dead, _⟩
        · exact absurd active inactive
        · exact absurd (replay_hits_iff.mpr dead) hit

/-- No two rows that enter the index have the same entry. -/
def Apart (ids : List Nat) (db : Database) : Prop :=
  forall first, first ∈ db.job.rows -> forall second, second ∈ db.job.rows -> forall entry,
    Enters ids first ∧ first.uniqueEntry = some entry ->
      Enters ids second ∧ second.uniqueEntry = some entry -> first = second

theorem Apart.mono {fewer : List Nat} (apart : Apart ids db) (sub : fewer ⊆ ids) :
    Apart fewer db := by
  have enters : forall row, Enters fewer row -> Enters ids row := by
    rintro row (active | ⟨dead, member⟩)
    · exact Or.inl active
    · exact Or.inr ⟨dead, sub member⟩
  intro first firstMem second secondMem entry firstEnters secondEnters
  exact apart first firstMem second secondMem entry ⟨enters first firstEnters.1, firstEnters.2⟩
    ⟨enters second secondEnters.1, secondEnters.2⟩

theorem uniqueOn_replay_iff :
    UniqueOn JobRow.uniqueActiveIdx (db.job.rows.map (replayDeadJobs ids now).rewrite) <->
      Apart ids db := by
  have distinct : db.job.rows.Nodup := List.Nodup.of_map _ db.job.nodup_ids
  rw [uniqueOn_map_iff, uniqueOn_iff_of_nodup distinct]
  simp only [uniqueActiveIdx_replay]
  exact Iff.rfl

theorem replay_checked (row : JobRow) (member : row ∈ db.job.rows) :
    ((replayDeadJobs ids now).rewrite row).Checked := by
  have checked := db.job.constraints.checked row member
  unfold Mutation.rewrite
  split
  · exact replaySet_checked checked now
  · exact checked

theorem replay_constraints (apart : Apart ids db) :
    Constraints (db.job.rows.map (replayDeadJobs ids now).rewrite) where
  checked := by
    intro row member
    rcases List.mem_map.mp member with ⟨source, sourceMem, rfl⟩
    exact replay_checked source sourceMem
  primaryKey := db.job.constraints.primaryKey.map (fun row _ => Or.inl (by
    simp only [JobRow.primaryKey, Mutation.rewrite_id]))
  idempotencyIdx := db.job.constraints.idempotencyIdx.map (fun row _ => Or.inl (by
    unfold Mutation.rewrite
    split
    · rfl
    · rfl))
  uniqueActiveIdx := uniqueOn_replay_iff.mpr apart

/-- A replay commits exactly when its rows may come back together. -/
theorem replay_commits_iff :
    (Exists fun reply : Reply => (replayDeadJobs ids now).run db = .ok reply) <->
      Apart ids db := by
  constructor
  · rintro ⟨reply, committed⟩
    have rows := (Mutation.run_ok committed).1
    exact uniqueOn_replay_iff.mp (rows ▸ reply.db.job.constraints.uniqueActiveIdx)
  · exact fun apart => Mutation.run_commits (replay_constraints apart)

/-- One id is a list of one id. -/
theorem replayDeadJob_eq (id : Nat) : replayDeadJob id now = replayDeadJobs [id] now := by
  unfold replayDeadJob replayDeadJobs
  congr 1
  funext job
  rw [List.contains_cons, List.contains_nil, Bool.or_false]

/-- The database after the replay of these ids. -/
structure Standing (now : Timestamp) (ids : List Nat) (db current : Database) : Prop where
  rows : current.job.rows = db.job.rows.map (replayDeadJobs ids now).rewrite
  nextId : current.nextId = db.nextId
  jobArchive : current.jobArchive = db.jobArchive
  partitions : current.partitions = db.partitions
  queueConfig : current.queueConfig = db.queueConfig

namespace Standing

theorem start (now : Timestamp) (db : Database) : Standing now [] db db where
  rows := by
    have same : forall row, row ∈ db.job.rows -> (replayDeadJobs [] now).rewrite row = id row := by
      intro row _
      exact if_neg (fun hit => absurd (replay_hits_iff.mp hit).2 List.not_mem_nil)
    rw [List.map_congr_left same, List.map_id]
  nextId := rfl
  jobArchive := rfl
  partitions := rfl
  queueConfig := rfl

theorem of_run {reply : Reply} (committed : (replayDeadJobs ids now).run db = .ok reply) :
    Standing now ids db reply.db := by
  rcases Mutation.run_ok committed with ⟨rows, _, nextId, jobArchive, partitions, queueConfig⟩
  exact ⟨rows, nextId, jobArchive, partitions, queueConfig⟩

/-- Only which ids are replayed matters. -/
theorem eq {others : List Nat} {first second : Database} (one : Standing now ids db first)
    (two : Standing now others db second) (same : forall id, id ∈ ids <-> id ∈ others) :
    first = second := by
  have rewrite : (replayDeadJobs ids now).rewrite = (replayDeadJobs others now).rewrite := by
    funext row
    have agree : (replayDeadJobs ids now).hits row = true <->
        (replayDeadJobs others now).hits row = true := by
      rw [replay_hits_iff, replay_hits_iff, same]
    unfold Mutation.rewrite
    simp only [agree]
    rfl
  apply Database.ext
  · apply JobTable.ext
    rw [one.rows, two.rows, rewrite]
  · exact one.nextId.trans two.nextId.symm
  · exact one.jobArchive.trans two.jobArchive.symm
  · exact one.partitions.trans two.partitions.symm
  · exact one.queueConfig.trans two.queueConfig.symm

/-- A job that has been replayed is not dead any more. -/
theorem rewrite_rewrite (done : List Nat) (id : Nat) (row : JobRow) :
    (replayDeadJobs [id] now).rewrite ((replayDeadJobs done now).rewrite row) =
      (replayDeadJobs (done ++ [id]) now).rewrite row := by
  by_cases before : (replayDeadJobs done now).hits row = true
  · have back : (replayDeadJobs done now).rewrite row = replaySet now row := if_pos before
    have parts := replay_hits_iff.mp before
    have both : (replayDeadJobs (done ++ [id]) now).hits row = true :=
      replay_hits_iff.mpr ⟨parts.1, List.mem_append_left _ parts.2⟩
    rw [back, Mutation.rewrite, Mutation.rewrite, if_pos both, if_neg]
    · rfl
    · exact fun hit => JobState.noConfusion (replay_hits_iff.mp hit).1
  · have kept : (replayDeadJobs done now).rewrite row = row := if_neg before
    have agree : (replayDeadJobs [id] now).hits row = true <->
        (replayDeadJobs (done ++ [id]) now).hits row = true := by
      rw [replay_hits_iff, replay_hits_iff, List.mem_append]
      constructor
      · exact fun hit => ⟨hit.1, Or.inr hit.2⟩
      · rintro ⟨dead, member | new⟩
        · exact absurd (replay_hits_iff.mpr ⟨dead, member⟩) before
        · exact ⟨dead, new⟩
    rw [kept]
    unfold Mutation.rewrite
    simp only [agree]
    rfl

/-- One more job is replayed. -/
theorem run {done : List Nat} {current : Database} (standing : Standing now done db current)
    (id : Nat) (apart : Apart (done ++ [id]) db) :
    Exists fun reply : Reply => (replayDeadJobs [id] now).run current = .ok reply ∧
      Standing now (done ++ [id]) db reply.db := by
  have rows : current.job.rows.map (replayDeadJobs [id] now).rewrite =
      db.job.rows.map (replayDeadJobs (done ++ [id]) now).rewrite := by
    rw [standing.rows, List.map_map]
    exact List.map_congr_left (fun row _ => rewrite_rewrite done id row)
  have commits := @Mutation.run_commits (replayDeadJobs [id] now) current (by
    rw [rows]
    exact replay_constraints apart)
  rcases commits with ⟨reply, committed⟩
  have ran := of_run committed
  exact ⟨reply, committed, ran.rows.trans rows, ran.nextId.trans standing.nextId,
    ran.jobArchive.trans standing.jobArchive, ran.partitions.trans standing.partitions,
    ran.queueConfig.trans standing.queueConfig⟩

end Standing

/-- A reply to a replay lists the dead jobs among these ids. -/
theorem replay_rows_ne_nil_iff {reply : Reply}
    (committed : (replayDeadJobs ids now).run db = .ok reply) :
    reply.rows ≠ [] <-> Exists fun row : JobRow => row ∈ db.job.rows ∧ row.state = .dead ∧
      row.id ∈ ids := by
  rw [(Mutation.run_ok committed).2.1, Mutation.returning, ne_eq, List.map_eq_nil_iff,
    List.filter_eq_nil_iff]
  simp only [replay_hits_iff]
  constructor
  · intro some
    by_contra none
    exact some (fun row member hit => none ⟨row, member, hit⟩)
  · rintro ⟨row, member, hit⟩ none
    exact none row member hit

/-! ## The calls -/

/-- The row is dead and has this id. -/
def DeadIn (db : Database) (id : Nat) : Prop :=
  Exists fun row : JobRow => row ∈ db.job.rows ∧ row.state = .dead ∧ row.id = id

instance (db : Database) (id : Nat) : Decidable (DeadIn db id) :=
  inferInstanceAs (Decidable (Exists fun row : JobRow => row ∈ db.job.rows ∧ _))

theorem query_replay {id : NumericId} (fits : id.fitsBigint = true) {reply : Reply}
    (committed : (replayDeadJobs [id.value] now).run db = .ok reply) :
    Client.query [id] (.replayDeadJob id.value) now db = .ok reply := by
  have executed : (Statement.replayDeadJob id.value).exec now db = .ok reply :=
    (congrArg (fun mutation => mutation.run db) (replayDeadJob_eq id.value)).trans committed
  unfold Client.query
  rw [executed, List.all_cons, List.all_nil, Bool.and_true, if_pos fits]

/-- A single replay goes on from where it stands, and returns the job exactly
when it is still dead. -/
theorem Standing.replay {done : List Nat} {current : Database}
    (standing : Standing now done db current) {id : NumericId} (fits : id.fitsBigint = true)
    (apart : Apart (done ++ [id.value]) db) :
    Standing now (done ++ [id.value]) db (Client.replay id now current).1 ∧
      ((Exists fun job : JobRow => (Client.replay id now current).2 = .ok job) <->
        DeadIn current id.value) := by
  rcases standing.run id.value apart with ⟨reply, committed, next⟩
  have dead : reply.rows ≠ [] <-> DeadIn current id.value := by
    rw [replay_rows_ne_nil_iff committed]
    simp only [List.mem_singleton]
    exact Iff.rfl
  unfold Client.replay
  rw [query_replay fits committed]
  dsimp only
  cases rows : reply.rows with
  | nil =>
      refine ⟨next, ?_⟩
      constructor
      · rintro ⟨job, returned⟩
        cases returned
      · exact fun isDead => absurd rows (dead.mpr isDead)
  | cons first rest =>
      refine ⟨next, ?_⟩
      have isDead : DeadIn current id.value := by
        apply dead.mp
        rw [rows]
        exact List.cons_ne_nil first rest
      constructor
      · exact fun _ => isDead
      · intro _
        rcases isDead with ⟨row, member, _, same⟩
        have kept : (replayDeadJobs [id.value] now).rewrite row ∈ reply.db.job.rows := by
          rw [(Mutation.run_ok committed).1]
          exact List.mem_map_of_mem member
        have found := Database.find_eq_some_iff.mpr
          ⟨kept, (Mutation.rewrite_id _ row).trans same⟩
        refine ⟨(replayDeadJobs [id.value] now).rewrite row, ?_⟩
        unfold Client.getJob
        rw [if_pos fits, found]
        rfl

/-- A job is dead after the replay of others if it was dead before. -/
theorem Standing.deadIn_iff {done : List Nat} {current : Database}
    (standing : Standing now done db current) {id : Nat} (fresh : DeadIn db id -> Not (id ∈ done)) :
    DeadIn current id <-> DeadIn db id := by
  unfold DeadIn
  rw [standing.rows]
  constructor
  · rintro ⟨row, member, dead, same⟩
    rcases List.mem_map.mp member with ⟨source, sourceMem, rfl⟩
    rw [Mutation.rewrite_id] at same
    refine ⟨source, sourceMem, ?_, same⟩
    by_cases hit : (replayDeadJobs done now).hits source = true
    · exact (replay_hits_iff.mp hit).1
    · rwa [Mutation.rewrite, if_neg hit] at dead
  · rintro ⟨row, member, dead, same⟩
    have missed : Not ((replayDeadJobs done now).hits row = true) := by
      intro hit
      exact fresh ⟨row, member, dead, same⟩ (same ▸ (replay_hits_iff.mp hit).2)
    refine ⟨_, List.mem_map_of_mem member, ?_, (Mutation.rewrite_id _ row).trans same⟩
    rwa [Mutation.rewrite, if_neg missed]

/-- Replaying the jobs one by one brings back those that were dead.  The
induction is on the ids still to come; `done` are the earlier ones. -/
theorem Standing.oneByOne {order : List NumericId} {done : List Nat} {current : Database}
    (standing : Standing now done db current)
    (fits : forall id, id ∈ order -> id.fitsBigint = true)
    (apart : Apart (done ++ order.map NumericId.value) db)
    (fresh : forall id, id ∈ order -> DeadIn db id.value -> Not (id.value ∈ done))
    (distinct : order.Pairwise
      (fun first second => DeadIn db second.value -> first.value ≠ second.value)) :
    Standing now (done ++ order.map NumericId.value) db (replayOneByOne now order current).1 ∧
      (replayOneByOne now order current).2 =
        ⟨(order.filter (fun id => DeadIn db id.value)).map NumericId.text,
          (order.filter (fun id => Not (DeadIn db id.value))).map NumericId.text⟩ := by
  induction order generalizing done current with
  | nil =>
      rw [List.map_nil, List.append_nil]
      exact ⟨standing, rfl⟩
  | cons id order inductionHypothesis =>
      have order' : done ++ (id :: order).map NumericId.value =
          (done ++ [id.value]) ++ order.map NumericId.value := by
        rw [List.map_cons, List.append_assoc]
        rfl
      rw [order'] at apart ⊢
      have parts := List.pairwise_cons.mp distinct
      have first := standing.replay (fits id List.mem_cons_self)
        (apart.mono (List.subset_append_left _ _))
      have dead := standing.deadIn_iff (fresh id List.mem_cons_self)
      have freshRest : forall other, other ∈ order -> DeadIn db other.value ->
          Not (other.value ∈ done ++ [id.value]) := by
        intro other member otherDead taken
        rcases List.mem_append.mp taken with older | new
        · exact fresh other (List.mem_cons_of_mem id member) otherDead older
        · exact parts.1 other member otherDead (List.mem_singleton.mp new).symm
      have rest := inductionHypothesis first.1
        (fun other member => fits other (List.mem_cons_of_mem id member)) apart freshRest parts.2
      unfold replayOneByOne
      dsimp only
      cases outcome : (Client.replay id now current).2 with
      | ok job =>
          have isDead : DeadIn db id.value := dead.mp (first.2.mp ⟨job, outcome⟩)
          refine ⟨rest.1, ?_⟩
          dsimp only
          simp [rest.2, isDead]
      | error error =>
          have alive : Not (DeadIn db id.value) := by
            intro isDead
            rcases first.2.mpr (dead.mpr isDead) with ⟨job, returned⟩
            rw [outcome] at returned
            cases returned
          refine ⟨rest.1, ?_⟩
          dsimp only
          simp [rest.2, alive]

/-- What a bulk replay that commits answers. -/
def bulkResult (ids : List NumericId) (reply : Reply) : BulkReplay :=
  let replayed := reply.rows.map (fun row => Nat.repr row.id)
  ⟨replayed, (ids.map NumericId.text).filter (fun id => !replayed.contains id)⟩

theorem replayMany_of_run {ids : List NumericId} (some : ids ≠ [])
    (fits : forall id, id ∈ ids -> id.fitsBigint = true) {reply : Reply}
    (committed : (replayDeadJobs (ids.map NumericId.value) now).run db = .ok reply) :
    Client.replayMany ids now db = (reply.db, .ok (bulkResult ids reply)) := by
  have executed : (Statement.replayDeadJobs (ids.map NumericId.value)).exec now db = .ok reply :=
    committed
  unfold Client.replayMany Client.query
  rw [if_neg some, executed, if_pos (List.all_eq_true.mpr fits)]
  rfl

/-- A bulk replay that does not fail has ids that fit the column, and its
statement has committed. -/
theorem replayMany_ok {ids : List NumericId} (some : ids ≠ []) {result : BulkReplay}
    (returned : (Client.replayMany ids now db).2 = .ok result) :
    (forall id, id ∈ ids -> id.fitsBigint = true) ∧
      Exists fun reply : Reply =>
        (replayDeadJobs (ids.map NumericId.value) now).run db = .ok reply := by
  have executed : (Statement.replayDeadJobs (ids.map NumericId.value)).exec now db =
      (replayDeadJobs (ids.map NumericId.value) now).run db := rfl
  unfold Client.replayMany Client.query at returned
  rw [if_neg some, executed] at returned
  by_cases fits : ids.all NumericId.fitsBigint = true
  · rw [if_pos fits] at returned
    cases ran : (replayDeadJobs (ids.map NumericId.value) now).run db with
    | error error =>
        rw [ran] at returned
        cases returned
    | ok reply => exact ⟨List.all_eq_true.mp fits, reply, rfl⟩
  · rw [if_neg fits] at returned
    cases returned

/-- The strings listed as replayed are the canonical ids of the requested jobs
that were dead. -/
theorem mem_replayed_iff {ids : List NumericId} {reply : Reply}
    (committed : (replayDeadJobs (ids.map NumericId.value) now).run db = .ok reply)
    {text : String} : text ∈ (bulkResult ids reply).replayed <->
      Exists fun id : NumericId => id ∈ ids ∧ DeadIn db id.value ∧ Nat.repr id.value = text := by
  unfold bulkResult
  dsimp only
  rw [(Mutation.run_ok committed).2.1, List.mem_map]
  constructor
  · rintro ⟨returned, listed, printed⟩
    rcases Mutation.mem_returning.mp listed with ⟨source, sourceMem, hit, rfl⟩
    have parts := replay_hits_iff.mp hit
    rcases List.mem_map.mp parts.2 with ⟨id, member, same⟩
    exact ⟨id, member, ⟨source, sourceMem, parts.1, same.symm⟩,
      (congrArg Nat.repr same).trans printed⟩
  · rintro ⟨id, member, ⟨row, rowMem, dead, same⟩, printed⟩
    have hit : (replayDeadJobs (ids.map NumericId.value) now).hits row = true :=
      replay_hits_iff.mpr ⟨dead, same ▸ List.mem_map_of_mem member⟩
    exact ⟨replaySet now row, Mutation.mem_returning.mpr ⟨row, rowMem, hit, rfl⟩,
      (congrArg Nat.repr same).trans printed⟩

/-- So a requested id is one of them only if it is canonical. -/
theorem text_replayed_iff {ids : List NumericId} {reply : Reply}
    (committed : (replayDeadJobs (ids.map NumericId.value) now).run db = .ok reply)
    {id : NumericId} (member : id ∈ ids) :
    id.text ∈ (bulkResult ids reply).replayed <-> DeadIn db id.value ∧ id.Canonical := by
  rw [mem_replayed_iff committed]
  constructor
  · rintro ⟨other, _, dead, printed⟩
    have value := NumericId.value_of_repr printed.symm
    exact ⟨value.symm ▸ dead, NumericId.canonical_of_repr printed.symm⟩
  · exact fun parts => ⟨id, member, parts.1, parts.2.symm⟩

theorem mem_skipped_iff (ids : List NumericId) (reply : Reply) (text : String) :
    text ∈ (bulkResult ids reply).skipped <->
      text ∈ ids.map NumericId.text ∧ Not (text ∈ (bulkResult ids reply).replayed) := by
  unfold bulkResult
  dsimp only
  rw [List.mem_filter]
  simp

/-- A requested job becomes available exactly when it was dead. -/
theorem becameAvailable_iff {ids : List NumericId} {reply : Reply}
    (committed : (replayDeadJobs (ids.map NumericId.value) now).run db = .ok reply)
    {id : NumericId} (member : id ∈ ids) :
    BecameAvailable id db reply.db <-> DeadIn db id.value := by
  have rows := (Mutation.run_ok committed).1
  constructor
  · rintro ⟨before, after⟩
    rcases Option.map_eq_some_iff.mp after with ⟨row, found, available⟩
    rcases Database.find_eq_some_iff.mp found with ⟨rowMem, same⟩
    rw [rows] at rowMem
    rcases List.mem_map.mp rowMem with ⟨source, sourceMem, rfl⟩
    rw [Mutation.rewrite_id] at same
    by_cases hit : (replayDeadJobs (ids.map NumericId.value) now).hits source = true
    · exact ⟨source, sourceMem, (replay_hits_iff.mp hit).1, same⟩
    · rw [Mutation.rewrite, if_neg hit] at available
      rw [Database.find_eq_some_iff.mpr ⟨sourceMem, same⟩, Option.map_some] at before
      exact absurd (congrArg some available) before
  · rintro ⟨row, rowMem, dead, same⟩
    have hit : (replayDeadJobs (ids.map NumericId.value) now).hits row = true :=
      replay_hits_iff.mpr ⟨dead, same ▸ List.mem_map_of_mem member⟩
    have back : replaySet now row ∈ reply.db.job.rows := by
      rw [rows]
      exact List.mem_map.mpr ⟨row, rowMem, if_pos hit⟩
    constructor
    · rw [Database.find_eq_some_iff.mpr ⟨rowMem, same⟩, Option.map_some, dead]
      exact fun available => JobState.noConfusion (Option.some.inj available)
    · have kept : (replaySet now row).id = id.value := same
      rw [Database.find_eq_some_iff.mpr ⟨back, kept⟩]
      rfl

/-- The requested jobs may come back together if none of them contends. -/
theorem apart_requested_iff {ids : List NumericId} :
    Apart (ids.map NumericId.value) db <->
      forall row, row ∈ db.job.rows -> Requested ids row -> row.uniqueEntry ≠ none ->
        forall other, other ∈ db.job.rows -> other.state.isActive = true ∨ Requested ids other ->
          other.uniqueEntry = row.uniqueEntry -> other = row := by
  constructor
  · intro apart row member requested keyed other otherMem contends same
    cases entry : row.uniqueEntry with
    | none => exact absurd entry keyed
    | some value =>
        exact apart other otherMem row member value ⟨contends, same.trans entry⟩
          ⟨Or.inr requested, entry⟩
  · intro apart first firstMem second secondMem entry firstEnters secondEnters
    have keyed : forall row : JobRow, row.uniqueEntry = some entry -> row.uniqueEntry ≠ none := by
      intro row found none
      rw [found] at none
      cases none
    rcases firstEnters with ⟨firstActive | firstDead, firstEntry⟩
    · rcases secondEnters with ⟨secondActive | secondDead, secondEntry⟩
      · exact db.job.constraints.uniqueActiveIdx.eq_of_key firstMem secondMem
          ((if_pos firstActive).trans firstEntry) ((if_pos secondActive).trans secondEntry)
      · exact apart second secondMem secondDead (keyed second secondEntry) first firstMem
          (Or.inl firstActive) (firstEntry.trans secondEntry.symm)
    · exact (apart first firstMem firstDead (keyed first firstEntry) second secondMem
        secondEnters.1 (secondEnters.2.trans firstEntry.symm)).symm

end Replay

/-! ## The contract -/

section Contract

variable {now : Timestamp} {ids : List NumericId} {db : Database}

theorem BulkReplayable.faithful (replayable : BulkReplayable ids db) :
    BulkFaithful ids now db := by
  by_cases empty : ids = []
  · subst empty
    exact ⟨⟨[], []⟩, rfl, ⟨[], List.nodup_nil, fun _ => Iff.rfl, rfl, fun _ => Iff.rfl,
      fun _ => Iff.rfl⟩, fun _ none => absurd none List.not_mem_nil,
      fun _ none => absurd none List.not_mem_nil⟩
  have apart := apart_requested_iff.mpr replayable.apart
  rcases (@replay_commits_iff now _ db).mpr apart with ⟨reply, committed⟩
  have replayed : forall id, id ∈ ids ->
      (id.text ∈ (bulkResult ids reply).replayed <-> DeadIn db id.value) := by
    intro id member
    rw [text_replayed_iff committed member]
    constructor
    · exact fun listed => listed.1
    · rintro ⟨row, rowMem, dead, same⟩
      exact ⟨⟨row, rowMem, dead, same⟩, replayable.canonical id member row rowMem same dead⟩
  -- the distinct ids in any order: two of one dead job would both be canonical
  have listed : forall id, id ∈ ids.dedup <-> id ∈ ids := fun id => List.mem_dedup
  have same : forall id, id ∈ ids.dedup.map NumericId.value <-> id ∈ ids.map NumericId.value := by
    intro id
    simp only [List.mem_map, listed]
  have distinct : ids.dedup.Pairwise
      (fun first second => DeadIn db second.value -> first.value ≠ second.value) := by
    refine List.Pairwise.imp_of_mem ?_ (List.nodup_dedup ids)
    rintro first second firstMem secondMem different ⟨row, rowMem, dead, sameId⟩ sameValue
    have firstCanonical := replayable.canonical first ((listed first).mp firstMem) row rowMem
      (sameId.trans sameValue.symm) dead
    have secondCanonical := replayable.canonical second ((listed second).mp secondMem) row rowMem
      sameId dead
    exact different (firstCanonical.eq_of_value secondCanonical sameValue)
  have oneByOne := (Standing.start now db).oneByOne
    (fun id member => replayable.range id ((listed id).mp member))
    (apart.mono (fun id member => (same id).mp member)) (fun _ _ _ => List.not_mem_nil) distinct
  refine ⟨bulkResult ids reply, ?_, ⟨ids.dedup, List.nodup_dedup ids, listed, ?_, ?_, ?_⟩, ?_, ?_⟩
  · rw [replayMany_of_run empty replayable.range committed]
  · rw [replayMany_of_run empty replayable.range committed]
    exact oneByOne.1.eq (.of_run committed) same
  · intro text
    rw [oneByOne.2, mem_replayed_iff committed]
    constructor
    · intro member
      rcases List.mem_map.mp member with ⟨id, kept, rfl⟩
      have parts := List.mem_filter.mp kept
      have idMem := (listed id).mp parts.1
      have found := (text_replayed_iff committed idMem).mp
        ((replayed id idMem).mpr (of_decide_eq_true parts.2))
      exact ⟨id, idMem, found.1, found.2.symm⟩
    · rintro ⟨id, member, dead, printed⟩
      have canonical := ((text_replayed_iff committed member).mp ((replayed id member).mpr dead)).2
      exact List.mem_map.mpr ⟨id, List.mem_filter.mpr
        ⟨(listed id).mpr member, decide_eq_true dead⟩, canonical.trans printed⟩
  · intro text
    rw [oneByOne.2, mem_skipped_iff]
    constructor
    · intro member
      rcases List.mem_map.mp member with ⟨id, kept, rfl⟩
      have parts := List.mem_filter.mp kept
      have idMem := (listed id).mp parts.1
      have alive : Not (DeadIn db id.value) := of_decide_eq_true parts.2
      exact ⟨List.mem_map_of_mem idMem, fun back => alive ((replayed id idMem).mp back)⟩
    · rintro ⟨member, left⟩
      rcases List.mem_map.mp member with ⟨id, idMem, rfl⟩
      have alive : Not (DeadIn db id.value) := fun dead => left ((replayed id idMem).mpr dead)
      exact List.mem_map.mpr ⟨id, List.mem_filter.mpr
        ⟨(listed id).mpr idMem, decide_eq_true alive⟩, rfl⟩
  · intro id member
    rw [mem_skipped_iff]
    by_cases back : id.text ∈ (bulkResult ids reply).replayed
    · exact Or.inl ⟨back, fun skipped => skipped.2 back⟩
    · exact Or.inr ⟨⟨List.mem_map_of_mem member, back⟩, back⟩
  · intro id member
    rw [replayMany_of_run empty replayable.range committed, becameAvailable_iff committed member]
    exact replayed id member

theorem BulkFaithful.replayable (faithful : BulkFaithful ids now db) :
    BulkReplayable ids db := by
  by_cases empty : ids = []
  · subst empty
    exact ⟨fun _ none => absurd none List.not_mem_nil,
      fun _ _ requested => absurd requested.2 List.not_mem_nil,
      fun _ none => absurd none List.not_mem_nil⟩
  rcases faithful with ⟨result, returned, reported⟩
  rcases replayMany_ok empty returned with ⟨range, reply, committed⟩
  have answered := replayMany_of_run empty range committed
  rw [answered] at returned reported
  cases returned
  refine ⟨range, apart_requested_iff.mp (replay_commits_iff.mp ⟨reply, committed⟩), ?_⟩
  intro id member row rowMem same dead
  have became := (becameAvailable_iff committed member).mpr ⟨row, rowMem, dead, same⟩
  exact ((text_replayed_iff committed member).mp
    ((reported.available id member).mpr became)).2

/-- A refusal is not a violation of the driver. -/
theorem refuse_not_raw (id : NumericId) (db : Database) {reason : JobRow -> AdminError}
    (mild : forall job, (reason job).rawUniqueViolation = false) :
    (Client.refuse id db reason).rawUniqueViolation = false := by
  unfold Client.refuse Client.getJob
  by_cases fits : id.fitsBigint = true
  · rw [if_pos fits]
    cases found : db.find id.value with
    | none => rfl
    | some job => exact mild job
  · rw [if_neg fits]
    rfl

/-- A job may come back alone if no active job holds its key. -/
theorem apart_single_iff {id : NumericId} (fits : id.fitsBigint = true) :
    Apart [id.value] db <-> KeyFree id db := by
  have single : [id.value] = [id].map NumericId.value := rfl
  rw [single, apart_requested_iff]
  constructor
  · intro apart _ row member same dead keyed other otherMem active sameEntry
    have requested : Requested [id] row := ⟨dead, by
      rw [same]
      exact List.mem_cons_self⟩
    have isRow := apart row member requested keyed other otherMem (Or.inl active) sameEntry
    rw [isRow, dead] at active
    cases active
  · rintro free row member ⟨dead, sameId⟩ keyed other otherMem (active | requested) sameEntry
    · have same := List.mem_singleton.mp sameId
      exact absurd sameEntry (free fits row member same dead keyed other otherMem active)
    · exact db.job.eq_of_id otherMem member
        ((List.mem_singleton.mp requested.2).trans (List.mem_singleton.mp sameId).symm)

/-- A single replay throws the violation of the index exactly when the index
refuses the job. -/
theorem throwsUniqueViolation_iff (id : NumericId) (now : Timestamp) (db : Database) :
    ThrowsUniqueViolation id now db <-> Not (KeyFree id db) := by
  have executed : (Statement.replayDeadJob id.value).exec now db =
      (replayDeadJobs [id.value] now).run db :=
    congrArg (fun mutation => mutation.run db) (replayDeadJob_eq id.value)
  by_cases fits : id.fitsBigint = true
  · rw [← apart_single_iff fits, ← @replay_commits_iff now]
    have all : [id].all NumericId.fitsBigint = true := by
      rw [List.all_cons, List.all_nil, Bool.and_true, fits]
    unfold ThrowsUniqueViolation Client.replay Client.query
    rw [if_pos all, executed]
    cases ran : (replayDeadJobs [id.value] now).run db with
    | error error =>
        rcases Mutation.run_error_of_checked replay_checked ran with ⟨index, rfl⟩
        constructor
        · rintro _ ⟨reply, committed⟩
          cases committed
        · exact fun _ => ⟨_, rfl, rfl⟩
    | ok reply =>
        constructor
        · rintro ⟨error, thrown, raw⟩
          dsimp only at thrown
          split at thrown
          · cases thrown
            rw [refuse_not_raw id reply.db (fun _ => rfl)] at raw
            cases raw
          · dsimp only at thrown
            unfold Client.getJob at thrown
            rw [if_pos fits] at thrown
            split at thrown
            · cases thrown
            · cases thrown
              cases raw
        · exact fun aborted => absurd ⟨reply, rfl⟩ aborted
  · have none : Not ([id].all NumericId.fitsBigint = true) := by
      rw [List.all_cons, List.all_nil, Bool.and_true]
      exact fits
    constructor
    · rintro ⟨error, thrown, raw⟩
      unfold Client.replay Client.query at thrown
      rw [if_neg none] at thrown
      cases thrown
      cases raw
    · exact fun taken => absurd (fun refused => absurd refused fits) taken

/-- A bulk replay reports what happened to each job exactly when the ids fit
the column, the requested dead jobs may come back together, and each of them is
named canonically.  A single replay throws no unique violation exactly when no
active job holds the unique key of the job. -/
theorem replay_reported_iff (ids : List NumericId) (id : NumericId) (now : Timestamp)
    (db : Database) :
    (BulkFaithful ids now db <-> BulkReplayable ids db) ∧
      (Not (ThrowsUniqueViolation id now db) <-> KeyFree id db) := by
  constructor
  · exact ⟨fun faithful => faithful.replayable, fun replayable => replayable.faithful⟩
  · rw [throwsUniqueViolation_iff]
    exact not_not

end Contract

/-- A job dies, and its unique key is taken by a new job in the meantime. -/
def keyTaken : List Call := [
  ⟨0, .insertJob { plainEnqueue 1 with uniqueKey := some "digest" }⟩,
  ⟨0, .claimJobs ⟨"mail", 1, "w"⟩ []⟩,
  ⟨seconds 31, .reapExpiredLeases ⟨10, 0⟩ []⟩,
  ⟨seconds 32, .insertJob { plainEnqueue 1 with uniqueKey := some "digest" }⟩]

/-- The same without the new job. -/
def keyLeft : List Call := keyTaken.take 3

def idOne : NumericId := ⟨"1", by decide⟩

def idZeroOne : NumericId := ⟨"01", by decide⟩

/-- The dead job is not skipped but fails the call, and a job that is named with
a leading zero is replayed and reported as skipped. -/
theorem bulkReplay_misreported :
    Not (BulkFaithful [idOne] (seconds 40) (run Database.step (.empty [] .empty) keyTaken)) ∧
      ThrowsUniqueViolation idOne (seconds 40) (run Database.step (.empty [] .empty) keyTaken) ∧
        Not (BulkFaithful [idZeroOne] (seconds 40)
          (run Database.step (.empty [] .empty) keyLeft)) := by
  refine ⟨?_, ⟨.database (.uniqueViolation .jobUniqueActiveIdx), rfl, rfl⟩, ?_⟩
  · rintro ⟨result, returned, _⟩
    have failed : (Client.replayMany [idOne] (seconds 40)
        (run Database.step (.empty [] .empty) keyTaken)).2 =
          .error (.database (.uniqueViolation .jobUniqueActiveIdx)) := rfl
    rw [failed] at returned
    cases returned
  · rintro ⟨result, returned, reported⟩
    have answered : (Client.replayMany [idZeroOne] (seconds 40)
        (run Database.step (.empty [] .empty) keyLeft)).2 = .ok ⟨["1"], ["01"]⟩ := rfl
    have became : BecameAvailable idZeroOne (run Database.step (.empty [] .empty) keyLeft)
        (Client.replayMany [idZeroOne] (seconds 40)
          (run Database.step (.empty [] .empty) keyLeft)).1 := by
      constructor
      · decide
      · rfl
    rw [answered] at returned
    cases returned
    have listed := (reported.available idZeroOne List.mem_cons_self).mpr became
    exact absurd listed (by decide)

end PgJobQ
