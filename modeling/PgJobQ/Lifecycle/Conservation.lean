import PgJobQ.Lifecycle.History

/-!
# No job is lost

A row leaves `job` through three statements only.  A purge may take any row; a
retention sweep takes terminal rows that have outlived the window of their
queue, and the archiving sweep copies a row in the statement that deletes it.
Everything else inserts a row or rewrites it in place, so an id that was once
inserted is in the table or its removal is on record.
-/

namespace PgJobQ

open Runs Intervals

/-- The rows of the archive with this id. -/
def Database.archived (db : Database) (id : Nat) : List ArchiveRow :=
  db.jobArchive.filter (fun row => row.id = id)

/-- The row was terminal at the time of the commit, and had been finished for
longer than its queue keeps rows in its state. -/
def Outlived (commit : Commit) (p : RetentionParams) (row : JobRow) : Prop :=
  row.state.isTerminal = true ∧ Exists fun finished : Timestamp =>
    row.finishedAt = some finished ∧ Exists fun window : Interval =>
      retentionWindow commit.before.queueConfig p row = some window ∧
        finished < p.zone.subtract commit.now window

theorem outlived_of_pastRetention {commit : Commit} {p : RetentionParams} {row : JobRow}
    (past : pastRetention commit.before.queueConfig p commit.now row = true) :
    Outlived commit p row := by
  unfold pastRetention at past
  have parts := Bool.and_eq_true_iff.mp past
  refine ⟨parts.1, ?_⟩
  cases finish : row.finishedAt with
  | none => simp [finish] at parts
  | some finished =>
      cases granted : retentionWindow commit.before.queueConfig p row with
      | none => simp [finish, granted] at parts
      | some window =>
          exact ⟨finished, rfl, window, rfl, by simpa [finish, granted] using parts.2⟩

/-- The commit deleted this row, which had been in the table until then. -/
structure Removal (session : Session) (commit : Commit) (row : JobRow) : Prop where
  member : commit ∈ session.history
  stood : row ∈ commit.before.job.rows
  listed : row ∈ commit.rows
  gone : session.state.find row.id = none

/-- What may have become of an id that was inserted. -/
inductive Fate (session : Session) (id : Nat) : Prop where
  | present (once : session.state.job.rows.countP (fun row => row.id = id) = 1)
      (notArchived : session.state.archived id = [])
  | purged {commit row queue states limit locked} (removal : Removal session commit row)
      (same : row.id = id) (through : commit.statement = .purgeQueue queue states limit locked)
      (notArchived : session.state.archived id = [])
  | pruned {commit row p locked} (removal : Removal session commit row) (same : row.id = id)
      (through : commit.statement = .pruneTerminalJobs p locked) (outlived : Outlived commit p row)
      (notArchived : session.state.archived id = [])
  | archived {commit row copy p locked} (removal : Removal session commit row)
      (same : row.id = id) (through : commit.statement = .archiveTerminalJobs p locked)
      (outlived : Outlived commit p row) (once : session.state.archived id = [copy])
      (everyColumn : copy.toJobRow = row)

/-- Every inserted id is accounted for, and no id is in both tables. -/
structure Conserved (session : Session) : Prop where
  accounted : forall commit, commit ∈ session.history -> commit.statement.isInsert = true ->
    forall row, row ∈ commit.rows -> Fate session row.id
  apart : forall id, session.state.find id ≠ none -> session.state.archived id = []

/-! ## The archive through one statement -/

/-- A statement that does not archive the job leaves its part of the archive
alone. -/
theorem archived_of_not_archived {now : Timestamp} {db : Database} {statement : Statement}
    {reply : Reply} (committed : statement.exec now db = .ok reply) {id : Nat}
    (spared : (forall p locked, statement ≠ .archiveTerminalJobs p locked) ∨
      forall row, row ∈ reply.rows -> row.id ≠ id) :
    reply.db.archived id = db.archived id := by
  unfold Database.archived
  rcases (exec_frame committed).2 with ⟨same, _⟩ | ⟨p, locked, archives, appended⟩
  · rw [same]
  · rcases spared with otherwise | silent
    · exact absurd archives (otherwise p locked)
    · have none : (reply.rows.map (archiveRow now)).filter (fun row => row.id = id) = [] := by
        apply List.filter_eq_nil_iff.mpr
        intro copy copied
        rcases List.mem_map.mp copied with ⟨row, listed, rfl⟩
        exact decide_eq_false (silent row listed) ▸ Bool.false_ne_true
      rw [appended, List.filter_append, none, List.append_nil]

/-- Archive rows were jobs, so their ids have been drawn. -/
def ArchiveBelow (db : Database) : Prop :=
  forall copy, copy ∈ db.jobArchive -> copy.id < db.nextId

theorem ArchiveBelow.step {now : Timestamp} {db : Database} {statement : Statement}
    {reply : Reply} (committed : statement.exec now db = .ok reply) (below : ArchiveBelow db) :
    ArchiveBelow reply.db := by
  intro copy member
  rcases (exec_frame committed).2 with ⟨same, _⟩ | ⟨p, locked, _, appended⟩
  · rw [same] at member
    exact Nat.lt_of_lt_of_le (below copy member) (exec_frame committed).1
  · rw [appended] at member
    rcases List.mem_append.mp member with earlier | added
    · exact Nat.lt_of_lt_of_le (below copy earlier) (exec_frame committed).1
    · rcases List.mem_map.mp added with ⟨row, listed, rfl⟩
      exact exec_rows_below committed listed

theorem ArchiveBelow.archived_fresh {db : Database} (below : ArchiveBelow db) {id : Nat}
    (fresh : db.nextId ≤ id) : db.archived id = [] := by
  apply List.filter_eq_nil_iff.mpr
  intro copy member
  have drawn := below copy member
  simp only [decide_eq_true_eq]
  omega

/-- An id is in at most one row of the table. -/
theorem Database.countP_of_find {db : Database} {id : Nat} {row : JobRow}
    (found : db.find id = some row) : db.job.rows.countP (fun other => other.id = id) = 1 := by
  have present := Database.find_eq_some_iff.mp found
  have alone := db.job.constraints.primaryKey.filter_eq_singleton present.1
    (show JobRow.primaryKey row = some id by rw [JobRow.primaryKey, present.2])
  simp only [JobRow.primaryKey, Option.some.injEq] at alone
  rw [List.countP_eq_length_filter, alone]
  rfl

/-- The archive of a job that is still in the table is as it was. -/
theorem archived_of_kept {now : Timestamp} {db : Database} {statement : Statement}
    {reply : Reply} (committed : statement.exec now db = .ok reply) {id : Nat}
    (kept : reply.db.find id ≠ none) : reply.db.archived id = db.archived id := by
  apply archived_of_not_archived committed
  have effect := exec_effect committed id
  generalize db.find id = old at effect
  generalize reply.db.find id = new at effect kept
  cases effect with
  | untouched silent => exact Or.inr silent
  | stepped step oldId newId listed only =>
      refine Or.inl ?_
      rintro p locked rfl
      cases step with
      | claim claims queue ready due => cases claims
      | replay replays buried => cases replays
  | inserted asked fresh listed only =>
      refine Or.inl ?_
      rintro p locked rfl
      cases asked
  | deleted deletes oldId listed only => exact absurd rfl kept

/-! ## One commit -/

theorem retentionVictim_past {p : RetentionParams} {locked : List Nat} {now : Timestamp}
    {db : Database} {row : JobRow} (member : row ∈ db.job.rows)
    (chosen : retentionVictim p locked now db row = true) :
    pastRetention db.queueConfig p now row = true := by
  rcases mem_lockCandidates (List.contains_iff_mem.mp chosen) with ⟨other, otherMem, past, same⟩
  rw [← db.job.eq_of_id otherMem member same]
  exact past

/-- The statement that deletes a job decides its fate. -/
theorem Fate.of_deleted {session : Session} {call : Call} {reply : Reply} {row : JobRow}
    (committed : call.statement.exec call.now session.state = .ok reply)
    (deletes : call.statement.isDelete = true) (stood : row ∈ session.state.job.rows)
    (listed : row ∈ reply.rows) (gone : reply.db.find row.id = none)
    (notArchived : session.state.archived row.id = []) :
    Fate ⟨reply.db, ⟨session.state, call.now, call.statement, reply.rows⟩ :: session.history⟩
      row.id := by
  have removal : Removal
      ⟨reply.db, ⟨session.state, call.now, call.statement, reply.rows⟩ :: session.history⟩
      ⟨session.state, call.now, call.statement, reply.rows⟩ row :=
    ⟨List.mem_cons_self, stood, listed, gone⟩
  rcases call with ⟨now, statement⟩
  cases statement with
  | purgeQueue queue states limit locked =>
      refine .purged removal rfl rfl ?_
      rw [← notArchived]
      exact archived_of_not_archived committed (Or.inl (fun _ _ impossible => by cases impossible))
  | pruneTerminalJobs p locked =>
      have past : pastRetention session.state.queueConfig p now row = true := by
        rw [pruneTerminalJobs_ok committed] at listed
        exact retentionVictim_past stood (List.mem_filter.mp listed).2
      refine .pruned removal rfl rfl (outlived_of_pastRetention past) ?_
      rw [← notArchived]
      exact archived_of_not_archived committed (Or.inl (fun _ _ impossible => by cases impossible))
  | archiveTerminalJobs p locked =>
      have moved : reply.rows = session.state.job.rows.filter
          (retentionVictim p locked now session.state) := by
        rw [archiveTerminalJobs_ok committed]
      have chosen := listed
      rw [moved] at chosen
      have past := retentionVictim_past stood (List.mem_filter.mp chosen).2
      have unique : UniqueRows.UniqueOn JobRow.primaryKey reply.rows := by
        rw [moved]
        exact session.state.job.constraints.primaryKey.sublist List.filter_sublist
      have alone : reply.rows.filter (fun other => other.id = row.id) = [row] := by
        have selected := unique.filter_eq_singleton listed
          (show JobRow.primaryKey row = some row.id from rfl)
        simpa only [JobRow.primaryKey, Option.some.injEq] using selected
      have copied : reply.db.archived row.id = [archiveRow now row] := by
        rcases (exec_frame committed).2 with ⟨_, otherwise⟩ | ⟨_, _, _, appended⟩
        · exact absurd rfl (otherwise p locked)
        · unfold Database.archived at notArchived ⊢
          rw [appended, List.filter_append, notArchived, List.nil_append, List.filter_map]
          exact congrArg (List.map (archiveRow now)) alone
      exact .archived removal rfl rfl (outlived_of_pastRetention past) copied
        (archiveRow_toJobRow now row)
  | _ => cases deletes

/-- A job that is gone stays gone, and so does its trace in the archive. -/
theorem Removal.step {session : Session} {call : Call} {reply : Reply} {commit : Commit}
    {row : JobRow} (committed : call.statement.exec call.now session.state = .ok reply)
    (drawn : row.id < session.state.nextId) (removal : Removal session commit row) :
    Removal ⟨reply.db, ⟨session.state, call.now, call.statement, reply.rows⟩ :: session.history⟩
        commit row ∧
      reply.db.archived row.id = session.state.archived row.id := by
  have effect := exec_effect committed row.id
  have gone := removal.gone
  generalize session.state.find row.id = old at effect gone
  subst gone
  generalize after : reply.db.find row.id = new at effect
  cases effect with
  | untouched silent =>
      exact ⟨⟨List.mem_cons_of_mem _ removal.member, removal.stood, removal.listed, after⟩,
        archived_of_not_archived committed (Or.inr silent)⟩
  | inserted asked fresh listed only => exact absurd drawn (Nat.not_lt_of_le fresh)

/-- A fate that was decided stays decided, and a job that is present is kept
or deleted. -/
theorem Fate.step {session : Session} {call : Call} {reply : Reply} {id : Nat}
    (committed : call.statement.exec call.now session.state = .ok reply)
    (drawn : id < session.state.nextId) (fate : Fate session id) :
    Fate ⟨reply.db, ⟨session.state, call.now, call.statement, reply.rows⟩ :: session.history⟩
      id := by
  cases fate with
  | present once notArchived =>
      have effect := exec_effect committed id
      generalize before : session.state.find id = old at effect
      generalize after : reply.db.find id = new at effect
      have stays : forall row, reply.db.find id = some row ->
          Fate ⟨reply.db, ⟨session.state, call.now, call.statement, reply.rows⟩ :: session.history⟩
            id := by
        intro row found
        have kept := archived_of_kept committed (by rw [found]; exact Option.some_ne_none row)
        exact .present (Database.countP_of_find found) (kept.trans notArchived)
      cases effect with
      | untouched silent =>
          cases old with
          | some row => exact stays row after
          | none =>
              have absent := Database.find_eq_none_iff.mp before
              have zero : session.state.job.rows.countP (fun row => row.id = id) = 0 :=
                List.countP_eq_zero.mpr (fun row member => by simpa using absent row member)
              rw [zero] at once
              cases once
      | stepped step oldId newId listed only => exact stays _ after
      | inserted asked fresh listed only => exact stays _ after
      | deleted deletes oldId listed only =>
          subst oldId
          exact .of_deleted committed deletes (Database.find_eq_some_iff.mp before).1 listed after
            notArchived
  | purged removal same through notArchived =>
      subst same
      have still := removal.step committed drawn
      exact .purged still.1 rfl through (still.2.trans notArchived)
  | pruned removal same through outlived notArchived =>
      subst same
      have still := removal.step committed drawn
      exact .pruned still.1 rfl through outlived (still.2.trans notArchived)
  | archived removal same through outlived once everyColumn =>
      subst same
      have still := removal.step committed drawn
      exact .archived still.1 rfl through outlived (still.2.trans once) everyColumn

/-- The invariant: what `Conserved` says, with the bounds on ids that make a
new job a new one. -/
structure ConservationInvariant (session : Session) : Prop extends Conserved session where
  below : HistoryBelow session
  archiveBelow : ArchiveBelow session.state

theorem ConservationInvariant.step (session : Session) (call : Call) (reply : Reply)
    (committed : call.statement.exec call.now session.state = .ok reply)
    (invariant : ConservationInvariant session) : ConservationInvariant
      ⟨reply.db, ⟨session.state, call.now, call.statement, reply.rows⟩ :: session.history⟩ := by
  refine ⟨⟨?_, ?_⟩, invariant.below.step committed, invariant.archiveBelow.step committed⟩
  · intro commit member inserting row listed
    rcases List.mem_cons.mp member with rfl | earlier
    · have inserted := inserted_row committed inserting listed
      have kept := archived_of_kept committed
        (by rw [inserted.2.1]; exact Option.some_ne_none row)
      exact .present (Database.countP_of_find inserted.2.1)
        (kept.trans (invariant.archiveBelow.archived_fresh inserted.1))
    · exact (invariant.accounted commit earlier inserting row listed).step committed
        (invariant.below commit earlier row listed)
  · intro id kept
    rw [archived_of_kept committed kept]
    have effect := exec_effect committed id
    generalize before : session.state.find id = old at effect
    generalize reply.db.find id = new at effect kept
    cases effect with
    | untouched silent => exact invariant.apart id (by rw [before]; exact kept)
    | stepped step oldId newId listed only =>
        exact invariant.apart id (by rw [before]; exact Option.some_ne_none _)
    | inserted asked fresh listed only => exact invariant.archiveBelow.archived_fresh fresh
    | deleted deletes oldId listed only => exact absurd rfl kept

/-- In every state of every run, an inserted id is in the table once, or its
row was purged, or a sweep removed it after it had outlived its window; an
archived row is in the archive once with every column it had; and no id is in
both tables.  A party that crashes between two statements leaves a run too. -/
theorem jobs_conserved (partitions : List ArchivePartition) (config : QueueConfigTable)
    (calls : List Call) : Conserved (Session.after partitions config calls) := by
  have invariant : ConservationInvariant (Session.after partitions config calls) := by
    refine Session.run_invariant ConservationInvariant.step ⟨⟨?_, ?_⟩, ?_, ?_⟩ calls
    · exact fun commit member => absurd member List.not_mem_nil
    · exact fun id present => absurd rfl present
    · exact HistoryBelow.start _
    · exact fun copy member => absurd member List.not_mem_nil
  exact invariant.toConserved

end PgJobQ
