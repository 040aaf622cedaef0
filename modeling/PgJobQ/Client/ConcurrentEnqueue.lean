import PgJobQ.Client.Enqueue
import PgJobQ.Statements.Effects

/-!
# The contract of concurrent enqueues

Two unique indexes can drop an insert, and one of them lets go of its key when
the job that holds it turns terminal.  The other one never does: a row keeps
its idempotency key in every state, and no step of a run deletes a row.  So a
call whose insert was dropped by the idempotency key finds the holder when it
looks, however late.

`EnqueueCall.Sound` says what a call knows in each phase, and `RowsFrom` where
the rows of the table come from.  Every step keeps both.
-/

namespace PgJobQ

open Runs

/-! ## What a step does to the rows -/

/-- A row stays the same row and keeps its place in the idempotency index. -/
structure JobRow.SameKeys (old new : JobRow) : Prop where
  id : new.id = old.id
  queue : new.queue = old.queue
  idempotencyKey : new.idempotencyKey = old.idempotencyKey

theorem JobRow.SameKeys.refl (row : JobRow) : row.SameKeys row := ⟨rfl, rfl, rfl⟩

theorem JobRow.SameKeys.trans {first second third : JobRow} (one : first.SameKeys second)
    (two : second.SameKeys third) : first.SameKeys third :=
  ⟨two.id.trans one.id, two.queue.trans one.queue, two.idempotencyKey.trans one.idempotencyKey⟩

theorem RowStep.sameKeys {now : Timestamp} {statement : Statement} {old new : JobRow}
    (step : RowStep now statement old new) : old.SameKeys new := by
  cases step <;> exact ⟨rfl, rfl, rfl⟩

/-- The row with the id holds the idempotency key in the queue. -/
def Database.HoldsKey (db : Database) (queue key : String) (id : Nat) : Prop :=
  Exists fun row : JobRow =>
    row ∈ db.job.rows ∧ row.id = id ∧ row.queue = queue ∧ row.idempotencyKey = some key

theorem Database.HoldsKey.unique {db : Database} {queue key : String} {first second : Nat}
    (one : db.HoldsKey queue key first) (two : db.HoldsKey queue key second) : first = second := by
  rcases one with ⟨row, member, rfl, rowQueue, rowKey⟩
  rcases two with ⟨other, otherMem, rfl, otherQueue, otherKey⟩
  have same : row = other := by
    apply db.job.constraints.idempotencyIdx.eq_of_key member otherMem
    · rw [JobRow.idempotencyIdx, rowKey, rowQueue]
      rfl
    · rw [JobRow.idempotencyIdx, otherKey, otherQueue]
      rfl
  rw [same]

/-- No row is lost or gives up its key, and the only new rows are those listed. -/
structure Database.Extends (db next : Database) (added : List JobRow) : Prop where
  kept : forall old, old ∈ db.job.rows ->
    Exists fun new : JobRow => new ∈ next.job.rows ∧ old.SameKeys new
  origin : forall new, new ∈ next.job.rows ->
    (Exists fun old : JobRow => old ∈ db.job.rows ∧ old.SameKeys new) ∨ new ∈ added
  present : forall new, new ∈ added -> new ∈ next.job.rows
  fresh : forall new, new ∈ added -> db.nextId ≤ new.id

namespace Database.Extends

theorem of_same {db next : Database} (same : next.job = db.job) : db.Extends next [] where
  kept := fun old member => ⟨old, same ▸ member, .refl old⟩
  origin := fun new member => Or.inl ⟨new, same ▸ member, .refl new⟩
  present := fun _ member => absurd member List.not_mem_nil
  fresh := fun _ member => absurd member List.not_mem_nil

theorem of_append {db next : Database} {new : JobRow} (isFresh : db.nextId ≤ new.id)
    (appended : next.job.rows = db.job.rows ++ [new]) : db.Extends next [new] where
  kept := by
    intro old member
    exact ⟨old, by rw [appended]; exact List.mem_append_left _ member, .refl old⟩
  origin := by
    intro row member
    rw [appended] at member
    rcases List.mem_append.mp member with present | added
    · exact Or.inl ⟨row, present, .refl row⟩
    · exact Or.inr added
  present := by
    intro row member
    rw [appended]
    exact List.mem_append_right _ member
  fresh := by
    intro row member
    rw [List.mem_singleton.mp member]
    exact isFresh

/-- An `UPDATE` moves every row by a `RowStep` or leaves it. -/
theorem of_update {db : Database} {call : Call} {mutation : Mutation}
    (isUpdate : call.statement.mutation call.now db = some mutation) :
    db.Extends (db.step call) [] := by
  have moved : forall row, row ∈ db.job.rows -> row.SameKeys (mutation.rewrite row) := by
    intro row member
    unfold Mutation.rewrite
    split
    · rename_i hit
      exact (RowStep.of_hits isUpdate member hit).sameKeys
    · exact .refl row
  cases executed : call.statement.exec call.now db with
  | error error =>
      have same : (db.step call).job = db.job := by simp only [Database.step, executed]
      exact of_same same
  | ok reply =>
      have rows : (db.step call).job.rows = db.job.rows.map mutation.rewrite := by
        rw [Database.step_of_ok executed]
        rw [Statement.exec_mutation isUpdate] at executed
        exact (Mutation.run_ok executed).1
      refine ⟨?_, ?_, fun _ member => absurd member List.not_mem_nil,
        fun _ member => absurd member List.not_mem_nil⟩
      · intro old member
        rw [rows]
        exact ⟨mutation.rewrite old, List.mem_map_of_mem member, moved old member⟩
      · intro new member
        rw [rows] at member
        rcases List.mem_map.mp member with ⟨old, oldMem, rfl⟩
        exact Or.inl ⟨old, oldMem, moved old oldMem⟩

theorem holdsKey {db next : Database} {added : List JobRow} (ext : db.Extends next added)
    {queue key : String} {id : Nat} (held : db.HoldsKey queue key id) :
    next.HoldsKey queue key id := by
  rcases held with ⟨row, member, rfl, sameQueue, sameKey⟩
  rcases ext.kept row member with ⟨new, newMem, same⟩
  exact ⟨new, newMem, same.id, same.queue.trans sameQueue, same.idempotencyKey.trans sameKey⟩

end Database.Extends

/-- A single insert drops its row because a key is taken, or appends it. -/
theorem insertJob_cases {row : EnqueueRow} {now : Timestamp} {db : Database} {reply : Reply}
    (inserted : insertJob row now db = .ok reply) :
    (reply.rows = [] ∧ reply.db.job = db.job ∧ Not (KeysFree row.queue row.keys db)) ∨
      (reply.rows = [row.toJobRow db.nextId now] ∧
        reply.db.job.rows = db.job.rows ++ [row.toJobRow db.nextId now]) := by
  unfold insertJob at inserted
  cases first : insertRow now row db with
  | error error =>
      rw [first] at inserted
      cases inserted
  | ok outcome =>
      rw [first] at inserted
      cases inserted
      rcases (insertRow_ok first).2.2.2.2 with ⟨conflict, dropped, same⟩ | ⟨_, kept, appended⟩
      · exact Or.inl ⟨congrArg Option.toList dropped, same, conflicts_iff.mp conflict⟩
      · exact Or.inr ⟨congrArg Option.toList kept, appended⟩

theorem insertJob_not_uniqueViolation {row : EnqueueRow} {now : Timestamp} {db : Database}
    {index : UniqueIndex} : insertJob row now db ≠ .error (.uniqueViolation index) := by
  intro aborted
  unfold insertJob at aborted
  cases first : insertRow now row db with
  | error error =>
      rw [first] at aborted
      cases aborted
      exact insertRow_not_uniqueViolation first
  | ok outcome =>
      rw [first] at aborted
      cases aborted

/-- Without a unique key, a dropped insert has met the holder of its
idempotency key. -/
theorem holder_of_taken {row : EnqueueRow} {db : Database}
    (taken : Not (KeysFree row.queue row.keys db)) (unkeyed : row.uniqueKey = none) :
    Exists fun key : String => row.idempotencyKey = some key ∧
      Exists fun id : Nat => db.HoldsKey row.queue key id := by
  by_contra missing
  apply taken
  intro other member sameQueue
  refine ⟨fun keyed same => ?_, fun keyed => absurd unkeyed keyed⟩
  rcases Option.ne_none_iff_exists'.mp keyed with ⟨key, isKey⟩
  exact missing ⟨key, isKey, other.id, other, member, rfl, sameQueue, same.trans isKey⟩

/-! ## What a call knows -/

/-- The result tells the truth about the table and about what the call has
inserted. -/
def EnqueueRequest.Answered (db : Database) (mine : List JobRow) (request : EnqueueRequest)
    (result : EnqueueResult) : Prop :=
  match result.deduplicated with
  | false => Exists fun asked : EnqueueRow => Exists fun new : JobRow => Exists fun now : Timestamp =>
      request.Carried asked ∧ new = asked.toJobRow new.id now ∧ mine = [new] ∧
        result.id = some new.id
  | true => mine = [] ∧ Exists fun key : String => Exists fun id : Nat =>
      request.options.idempotencyKey = some key ∧ db.HoldsKey request.queue key id ∧
        result.id = some id

/-- What holds of a call in each of its phases.  `mine` are the rows it has
inserted. -/
def EnqueueCall.Sound (db : Database) (mine : List JobRow) (call : EnqueueCall) : Prop :=
  match call.phase with
  | .resolving _ => mine = []
  | .inserting row => mine = [] ∧ call.request.Carried row
  | .findingIdempotent row key => mine = [] ∧ call.request.Carried row ∧
      row.idempotencyKey = some key ∧
        (row.uniqueKey = none -> Exists fun id : Nat => db.HoldsKey call.request.queue key id)
  | .findingUnique row key => mine = [] ∧ call.request.Carried row ∧ row.uniqueKey = some key
  | .returned result => call.request.Answered db mine result
  | .thrown error => mine = [] ∧ forall message existing, error = .conflict message existing ->
      call.request.options.uniqueKey ≠ none

namespace EnqueueCall

variable {config : ClientConfig} {request : EnqueueRequest} {row : EnqueueRow} {db : Database}
  {state : ClientState}

theorem Sound.of_extends {next : Database} {added mine : List JobRow} {call : EnqueueCall}
    (sound : call.Sound db mine) (ext : db.Extends next added) : call.Sound next mine := by
  rcases call with ⟨request, phase⟩
  cases phase with
  | resolving readAt => exact sound
  | inserting row => exact sound
  | findingIdempotent row key =>
      rcases sound with ⟨nothing, carries, isKey, held⟩
      refine ⟨nothing, carries, isKey, fun unkeyed => ?_⟩
      rcases held unkeyed with ⟨id, holds⟩
      exact ⟨id, ext.holdsKey holds⟩
  | findingUnique row key => exact sound
  | returned result =>
      rcases result with ⟨id, deduplicated⟩
      cases deduplicated with
      | false => exact sound
      | true =>
          rcases sound with ⟨nothing, key, holder, isKey, holds, sameId⟩
          exact ⟨nothing, key, holder, isKey, ext.holdsKey holds, sameId⟩
  | thrown error => exact sound

theorem sound_withDefaults (qc : QueueDefaultsRow) :
    Sound db [] ⟨request, (request.withDefaults config qc state).1⟩ := by
  unfold EnqueueRequest.withDefaults
  split
  · rename_i built
    exact ⟨rfl, (rowWithDefaults_ok built).1⟩
  · exact ⟨rfl, fun _ _ impossible => by cases impossible⟩

theorem sound_begin : Sound db [] ⟨request, (request.begin config state).1⟩ := by
  have rejected : forall error, Sound db [] ⟨request, .thrown (.row error)⟩ :=
    fun error => ⟨rfl, fun _ _ impossible => by cases impossible⟩
  unfold EnqueueRequest.begin
  split
  · exact rejected _
  · split
    · exact rejected _
    · split
      · exact rejected _
      · split
        · exact sound_withDefaults _
        · exact rfl

/-- Without an idempotency conflict there is a unique key to look for. -/
theorem sound_resolveUnique (carries : request.Carried row) (keyed : row.uniqueKey ≠ none) :
    Sound db [] ⟨request, resolveUnique row⟩ := by
  unfold resolveUnique
  split
  · rename_i key isKey
    exact ⟨rfl, carries, isKey⟩
  · rename_i unkeyed
    exact absurd unkeyed keyed

theorem sound_resolveConflict (carries : request.Carried row)
    (taken : Not (KeysFree row.queue row.keys db)) :
    Sound db [] ⟨request, resolveConflict row⟩ := by
  unfold resolveConflict
  split
  · rename_i key isKey
    refine ⟨rfl, carries, isKey, fun unkeyed => ?_⟩
    rcases holder_of_taken taken unkeyed with ⟨other, isOther, id, holds⟩
    rw [isKey] at isOther
    cases isOther
    exact ⟨id, carries.queue ▸ holds⟩
  · rename_i unkeyed
    apply sound_resolveUnique carries
    intro alsoUnkeyed
    rcases holder_of_taken taken alsoUnkeyed with ⟨key, isKey, _⟩
    rw [unkeyed] at isKey
    cases isKey

/-- What the next statement of a call does to the call and to the rows. -/
theorem Sound.advance {mine : List JobRow} {call : EnqueueCall} (sound : call.Sound db mine)
    (config : ClientConfig) (now : Timestamp) (state : ClientState) :
    Sound (call.advance config now db state).db
        ((call.advance config now db state).inserted.toList ++ mine)
        ⟨call.request, (call.advance config now db state).phase⟩ ∧
      db.Extends (call.advance config now db state).db
        (call.advance config now db state).inserted.toList := by
  rcases call with ⟨request, phase⟩
  cases phase with
  | resolving readAt =>
      have nothing : mine = [] := sound
      subst nothing
      exact ⟨sound_withDefaults _, .of_same rfl⟩
  | inserting row =>
      rcases sound with ⟨rfl, carries⟩
      unfold EnqueueCall.advance
      dsimp only
      cases executed : insertJob row now db with
      | error error =>
          cases error with
          | uniqueViolation index => exact absurd executed insertJob_not_uniqueViolation
          | checkViolation constraint =>
              exact ⟨⟨rfl, fun _ _ impossible => by cases impossible⟩, .of_same rfl⟩
          | notifyChannelTooLong =>
              exact ⟨⟨rfl, fun _ _ impossible => by cases impossible⟩, .of_same rfl⟩
          | noPartition =>
              exact ⟨⟨rfl, fun _ _ impossible => by cases impossible⟩, .of_same rfl⟩
          | invalidInterval =>
              exact ⟨⟨rfl, fun _ _ impossible => by cases impossible⟩, .of_same rfl⟩
      | ok reply =>
          rcases insertJob_cases executed with ⟨dropped, same, taken⟩ | ⟨kept, appended⟩
          · simp only [dropped, List.head?_nil]
            have ext : db.Extends reply.db [] := .of_same same
            exact ⟨(sound_resolveConflict carries taken).of_extends ext, ext⟩
          · simp only [kept, List.head?_cons]
            refine ⟨⟨row, _, now, carries, rfl, rfl, rfl⟩, ?_⟩
            exact .of_append (Nat.le_refl db.nextId) appended
  | findingIdempotent row key =>
      rcases sound with ⟨rfl, carries, isKey, held⟩
      unfold EnqueueCall.advance
      dsimp only
      split
      · rename_i id found
        have listed := List.mem_of_mem_head? found
        refine ⟨⟨rfl, key, id, carries.idempotencyKey.symm.trans isKey, ?_, rfl⟩, .of_same rfl⟩
        exact mem_findByIdempotencyKey.mp listed
      · rename_i missing
        refine ⟨sound_resolveUnique carries ?_, .of_same rfl⟩
        intro unkeyed
        rcases held unkeyed with ⟨id, holds⟩
        have listed := mem_findByIdempotencyKey.mpr holds
        rw [List.head?_eq_none_iff.mp missing] at listed
        cases listed
  | findingUnique row key =>
      rcases sound with ⟨rfl, carries, isKey⟩
      have keyed : request.options.uniqueKey ≠ none := by
        rw [← carries.uniqueKey, isKey]
        exact Option.some_ne_none key
      unfold EnqueueCall.advance
      dsimp only
      split
      · exact ⟨⟨rfl, fun _ _ _ => keyed⟩, .of_same rfl⟩
      · exact ⟨⟨rfl, fun _ _ _ => keyed⟩, .of_same rfl⟩
  | returned result => exact ⟨sound, .of_same rfl⟩
  | thrown error => exact ⟨sound, .of_same rfl⟩

end EnqueueCall

/-! ## Along a run -/

/-- The table consists of the rows of the start and of those inserted by calls. -/
structure RowsFrom (start db : Database) (history : List (Nat × JobRow)) : Prop where
  origin : forall row, row ∈ db.job.rows ->
    (Exists fun old : JobRow => old ∈ start.job.rows ∧ old.SameKeys row) ∨
      Exists fun entry : Nat × JobRow => entry ∈ history ∧ entry.2.SameKeys row
  present : forall entry, entry ∈ history ->
    Exists fun row : JobRow => row ∈ db.job.rows ∧ entry.2.SameKeys row
  distinct : (history.map (fun entry => entry.2.id)).Nodup

theorem RowsFrom.start (db : Database) : RowsFrom db db [] where
  origin := fun row member => Or.inl ⟨row, member, .refl row⟩
  present := fun _ member => absurd member List.not_mem_nil
  distinct := List.nodup_nil

theorem RowsFrom.below {start db : Database} {history : List (Nat × JobRow)}
    (rows : RowsFrom start db history) {entry : Nat × JobRow} (member : entry ∈ history) :
    entry.2.id < db.nextId := by
  rcases rows.present entry member with ⟨row, rowMem, same⟩
  rw [← same.id]
  exact db.identity row rowMem

theorem RowsFrom.extend {start db next : Database} {history : List (Nat × JobRow)}
    (rows : RowsFrom start db history) (inserted : Option (Nat × JobRow))
    (ext : db.Extends next (inserted.map Prod.snd).toList) :
    RowsFrom start next (inserted.toList ++ history) := by
  have later : forall entry, entry ∈ history ->
      Exists fun row : JobRow => row ∈ next.job.rows ∧ entry.2.SameKeys row := by
    intro entry member
    rcases rows.present entry member with ⟨row, rowMem, same⟩
    rcases ext.kept row rowMem with ⟨new, newMem, sameNew⟩
    exact ⟨new, newMem, same.trans sameNew⟩
  have earlier : forall old new : JobRow, old ∈ db.job.rows -> old.SameKeys new ->
      (Exists fun first : JobRow => first ∈ start.job.rows ∧ first.SameKeys new) ∨
        Exists fun entry : Nat × JobRow => entry ∈ history ∧ entry.2.SameKeys new := by
    intro old new member same
    rcases rows.origin old member with ⟨first, firstMem, sameOld⟩ | ⟨entry, entryMem, sameOld⟩
    · exact Or.inl ⟨first, firstMem, sameOld.trans same⟩
    · exact Or.inr ⟨entry, entryMem, sameOld.trans same⟩
  cases inserted with
  | none =>
      refine ⟨fun new member => ?_, later, rows.distinct⟩
      rcases ext.origin new member with ⟨old, oldMem, same⟩ | added
      · exact earlier old new oldMem same
      · cases added
  | some added =>
      have addedMem : added.2 ∈ ((some added).map Prod.snd).toList := List.mem_cons_self
      refine ⟨fun new member => ?_, fun entry member => ?_, ?_⟩
      · rcases ext.origin new member with ⟨old, oldMem, same⟩ | isAdded
        · rcases earlier old new oldMem same with fromStart | ⟨entry, entryMem, sameOld⟩
          · exact Or.inl fromStart
          · exact Or.inr ⟨entry, List.mem_cons_of_mem _ entryMem, sameOld⟩
        · rw [List.mem_singleton.mp isAdded]
          exact Or.inr ⟨added, List.mem_cons_self, .refl added.2⟩
      · rcases List.mem_cons.mp member with rfl | old
        · exact ⟨entry.2, ext.present entry.2 addedMem, .refl entry.2⟩
        · exact later entry old
      · apply List.nodup_cons.mpr
        refine ⟨fun taken => ?_, rows.distinct⟩
        rcases List.mem_map.mp taken with ⟨entry, member, sameId⟩
        have below := rows.below member
        have fresh := ext.fresh added.2 addedMem
        dsimp only at sameId
        omega

namespace EnqueueRun

theorem insertedBy_append (id : Nat) (newer older : List (Nat × JobRow)) :
    insertedBy id (newer ++ older) = insertedBy id newer ++ insertedBy id older := by
  unfold insertedBy
  rw [List.filter_append, List.map_append]

theorem insertedBy_own (id : Nat) (inserted : Option JobRow) :
    insertedBy id (inserted.map (fun row => (id, row))).toList = inserted.toList := by
  cases inserted with
  | none => rfl
  | some row => simp [insertedBy]

theorem insertedBy_of_ne {id other : Nat} (apart : other ≠ id) (inserted : Option JobRow) :
    insertedBy other (inserted.map (fun row => (id, row))).toList = [] := by
  cases inserted with
  | none => rfl
  | some row => simp [insertedBy, Ne.symm apart]

theorem mem_insertedBy {id : Nat} {history : List (Nat × JobRow)} {row : JobRow} :
    row ∈ insertedBy id history <-> (id, row) ∈ history := by
  unfold insertedBy
  rw [List.mem_map]
  constructor
  · rintro ⟨⟨owner, inserted⟩, member, rfl⟩
    rcases List.mem_filter.mp member with ⟨listed, isOwner⟩
    have same : owner = id := by simpa using isOwner
    subst same
    exact listed
  · intro listed
    exact ⟨(id, row), List.mem_filter.mpr ⟨listed, by simp⟩, rfl⟩

/-- Every call knows the truth, and nobody inserted anything before calling. -/
structure Invariant (start : Database) (run : EnqueueRun) : Prop where
  calls : forall id call, run.state.calls id = some call ->
    call.Sound run.state.db (insertedBy id run.history)
  silent : forall id, run.state.calls id = none -> insertedBy id run.history = []
  rows : RowsFrom start run.state.db run.history

theorem Invariant.initial (db : Database) (clients : Nat -> ClientState) :
    Invariant db ⟨⟨db, clients, fun _ => none⟩, []⟩ where
  calls := fun _ _ impossible => by cases impossible
  silent := fun _ _ => rfl
  rows := .start db

/-- One call moves, and everybody else stays where he is. -/
theorem Invariant.put {start next : Database} {run : EnqueueRun} (invariant : Invariant start run)
    (id : Nat) (call : EnqueueCall) (state : ClientState) {inserted : Option JobRow}
    (ext : run.state.db.Extends next inserted.toList)
    (sound : call.Sound next (inserted.toList ++ insertedBy id run.history)) :
    Invariant start ⟨{ run.state with db := next }.put id call state,
      (inserted.map (fun row => (id, row))).toList ++ run.history⟩ := by
  refine ⟨?_, ?_, ?_⟩
  · intro other current isCurrent
    rw [insertedBy_append]
    by_cases same : other = id
    · subst same
      simp only [EnqueueSystem.put, Function.update_self] at isCurrent
      cases isCurrent
      rw [insertedBy_own]
      exact sound
    · simp only [EnqueueSystem.put, Function.update_of_ne same] at isCurrent
      rw [insertedBy_of_ne same, List.nil_append]
      exact (invariant.calls other current isCurrent).of_extends ext
  · intro other absent
    by_cases same : other = id
    · subst same
      simp only [EnqueueSystem.put, Function.update_self] at absent
      cases absent
    · simp only [EnqueueSystem.put, Function.update_of_ne same] at absent
      rw [insertedBy_append, insertedBy_of_ne same, List.nil_append]
      exact invariant.silent other absent
  · apply invariant.rows.extend (inserted.map (fun row => (id, row)))
    rw [Option.map_map]
    have ids : (Prod.snd ∘ fun row : JobRow => (id, row)) = fun row => row := rfl
    rw [ids, Option.map_id']
    exact ext

/-- Every step extends the table and keeps the invariant. -/
theorem Invariant.step {configs : Nat -> ClientConfig} {start : Database} {run : EnqueueRun}
    (invariant : Invariant start run) (label : EnqueueLabel) :
    Invariant start (run.step configs label) ∧
      Exists fun added : List JobRow => run.state.db.Extends (run.step configs label).state.db added := by
  cases label with
  | start id request =>
      cases present : run.state.calls id with
      | some call =>
          have same : run.step configs (.start id request) = run := by
            simp only [EnqueueRun.step, recordStep, EnqueueSystem.step, EnqueueSystem.insertion,
              present, Option.toList_none, List.nil_append]
          rw [same]
          exact ⟨invariant, [], .of_same rfl⟩
      | none =>
          have ext : run.state.db.Extends run.state.db (none : Option JobRow).toList := .of_same rfl
          simp only [EnqueueRun.step, recordStep, EnqueueSystem.step, EnqueueSystem.insertion,
            present]
          refine ⟨invariant.put id _ _ ext ?_, [], .of_same rfl⟩
          rw [invariant.silent id present]
          exact EnqueueCall.sound_begin
  | advance id now =>
      cases present : run.state.calls id with
      | none =>
          have same : run.step configs (.advance id now) = run := by
            simp only [EnqueueRun.step, recordStep, EnqueueSystem.step, EnqueueSystem.insertion,
              present, Option.toList_none, List.nil_append]
          rw [same]
          exact ⟨invariant, [], .of_same rfl⟩
      | some call =>
          have moved := (invariant.calls id call present).advance (configs call.request.client) now
            (run.state.clients call.request.client)
          simp only [EnqueueRun.step, recordStep, EnqueueSystem.step, EnqueueSystem.insertion,
            present]
          exact ⟨invariant.put id _ _ moved.2 moved.1, _, moved.2⟩
  | other call =>
      simp only [EnqueueRun.step, recordStep, EnqueueSystem.step, EnqueueSystem.insertion,
        Option.toList_none, List.nil_append]
      split
      · rename_i isUpdate
        rcases Option.isSome_iff_exists.mp isUpdate with ⟨mutation, isMutation⟩
        have ext : run.state.db.Extends (run.state.db.step call) (none : Option JobRow).toList :=
          .of_update isMutation
        refine ⟨⟨?_, invariant.silent, invariant.rows.extend none ext⟩, _, ext⟩
        exact fun id current isCurrent => (invariant.calls id current isCurrent).of_extends ext
      · exact ⟨invariant, [], .of_same rfl⟩

variable {configs : Nat -> ClientConfig} {start : Database} {run : EnqueueRun}

theorem Invariant.after (configs : Nat -> ClientConfig) (db : Database)
    (clients : Nat -> ClientState) (labels : List EnqueueLabel) :
    Invariant db (EnqueueRun.after configs db clients labels) := by
  have keeps : forall (current : EnqueueRun) (label : EnqueueLabel), Invariant db current ->
      Invariant db (current.step configs label) :=
    fun current label invariant => (invariant.step label).1
  exact run_invariant keeps (.initial db clients) labels

/-- A key once held stays held by the same row. -/
theorem Invariant.holdsKey_run {queue key : String} {id : Nat} (invariant : Invariant start run)
    (held : run.state.db.HoldsKey queue key id) (labels : List EnqueueLabel) :
    (Runs.run (EnqueueRun.step configs) run labels).state.db.HoldsKey queue key id := by
  have keeps : forall (current : EnqueueRun) (label : EnqueueLabel),
      Invariant start current ∧ current.state.db.HoldsKey queue key id ->
        Invariant start (current.step configs label) ∧
          (current.step configs label).state.db.HoldsKey queue key id := by
    rintro current label ⟨kept, holds⟩
    rcases kept.step label with ⟨next, added, ext⟩
    exact ⟨next, ext.holdsKey holds⟩
  exact (run_invariant keeps ⟨invariant, held⟩ labels).2

/-- A call that reports a new job is in the history with it. -/
theorem Invariant.created {id : Nat} {call : EnqueueCall} {result : EnqueueResult}
    (invariant : Invariant start run) (present : run.state.calls id = some call)
    (phase : call.phase = .returned result) (created : result.deduplicated = false) :
    Exists fun new : JobRow => (id, new) ∈ run.history ∧ result.id = some new.id ∧
      new.queue = call.request.queue ∧
        new.idempotencyKey = call.request.options.idempotencyKey := by
  have sound := invariant.calls id call present
  simp only [EnqueueCall.Sound, phase, EnqueueRequest.Answered, created] at sound
  rcases sound with ⟨asked, new, now, carries, isRow, mine, sameId⟩
  refine ⟨new, mem_insertedBy.mp (by rw [mine]; exact List.mem_cons_self), sameId, ?_, ?_⟩
  · rw [isRow]
    exact carries.queue
  · rw [isRow]
    exact carries.idempotencyKey

/-- Whoever is in the history has reported the job as new. -/
theorem Invariant.creator {id : Nat} {new : JobRow} (invariant : Invariant start run)
    (listed : (id, new) ∈ run.history) :
    Exists fun call : EnqueueCall => run.state.calls id = some call ∧
      call.phase = .returned ⟨some new.id, false⟩ ∧ call.request.queue = new.queue ∧
        call.request.options.idempotencyKey = new.idempotencyKey := by
  have mine := mem_insertedBy.mpr listed
  cases present : run.state.calls id with
  | none =>
      rw [invariant.silent id present] at mine
      cases mine
  | some call =>
      have sound := invariant.calls id call present
      generalize insertedBy id run.history = inserted at mine sound
      have something : inserted ≠ [] := List.ne_nil_of_mem mine
      rcases call with ⟨request, phase⟩
      cases phase with
      | resolving readAt => exact absurd sound something
      | inserting row => exact absurd sound.1 something
      | findingIdempotent row key => exact absurd sound.1 something
      | findingUnique row key => exact absurd sound.1 something
      | thrown error => exact absurd sound.1 something
      | returned result =>
          rcases result with ⟨reported, deduplicated⟩
          cases deduplicated with
          | true => exact absurd sound.1 something
          | false =>
              rcases sound with ⟨asked, row, now, carries, isRow, rfl, sameId⟩
              have same : new = row := List.mem_singleton.mp mine
              subst same
              have sameReport : reported = some new.id := sameId
              refine ⟨_, rfl, by rw [sameReport], ?_, ?_⟩
              · rw [isRow]
                exact carries.queue.symm
              · rw [isRow]
                exact carries.idempotencyKey.symm

/-- Every id returned to a call with a key is that of the row that holds it. -/
theorem Invariant.returned_holds {id : Nat} {call : EnqueueCall} {result : EnqueueResult}
    {queue key : String} (invariant : Invariant start run)
    (present : run.state.calls id = some call) (uses : call.request.Uses queue key)
    (phase : call.phase = .returned result) :
    Exists fun job : Nat => result.id = some job ∧ run.state.db.HoldsKey queue key job := by
  cases deduplicated : result.deduplicated with
  | true =>
      have sound := invariant.calls id call present
      simp only [EnqueueCall.Sound, phase, EnqueueRequest.Answered, deduplicated] at sound
      rcases sound with ⟨_, other, job, isKey, held, sameId⟩
      have sameKey : key = other := Option.some.inj (uses.2.symm.trans isKey)
      subst sameKey
      exact ⟨job, sameId, uses.1 ▸ held⟩
  | false =>
      rcases invariant.created present phase deduplicated with ⟨new, listed, sameId, queued, keyed⟩
      rcases invariant.rows.present (id, new) listed with ⟨row, member, same⟩
      exact ⟨new.id, sameId, row, member, same.id, (same.queue.trans queued).trans uses.1,
        (same.idempotencyKey.trans keyed).trans uses.2⟩

/-! ## Every call comes to an end -/

/-- The label sends a statement of the call. -/
def advances (id : Nat) : EnqueueLabel -> Bool
  | .advance other _ => other == id
  | _ => false

end EnqueueRun

theorem EnqueueCall.remaining_resolveUnique (row : EnqueueRow) :
    (resolveUnique row).remaining ≤ 1 := by
  unfold resolveUnique
  split
  · exact Nat.le_refl 1
  · exact Nat.zero_le 1

theorem EnqueueCall.remaining_resolveConflict (row : EnqueueRow) :
    (resolveConflict row).remaining ≤ 2 := by
  unfold resolveConflict
  split
  · exact Nat.le_refl 2
  · exact Nat.le_succ_of_le (remaining_resolveUnique row)

theorem EnqueueCall.remaining_advance (config : ClientConfig) (now : Timestamp) (db : Database)
    (state : ClientState) (call : EnqueueCall) :
    (call.advance config now db state).phase.remaining ≤ call.phase.remaining - 1 := by
  rcases call with ⟨request, phase⟩
  unfold EnqueueCall.advance
  cases phase with
  | resolving readAt =>
      dsimp only [EnqueueRequest.withDefaults]
      split
      · exact Nat.le_refl 3
      · exact Nat.zero_le 3
  | inserting row =>
      have afterConflict := remaining_resolveConflict row
      dsimp only
      split
      · split
        · exact Nat.zero_le 2
        · exact afterConflict
      · exact afterConflict
      · exact Nat.zero_le 2
  | findingIdempotent row key =>
      have afterLookup := remaining_resolveUnique row
      dsimp only
      split
      · exact Nat.zero_le 1
      · exact afterLookup
  | findingUnique row key =>
      dsimp only
      split
      · exact Nat.le_refl 0
      · exact Nat.le_refl 0
  | returned result => exact Nat.le_refl 0
  | thrown error => exact Nat.le_refl 0

namespace EnqueueRun

variable {configs : Nat -> ClientConfig} {start : Database} {run : EnqueueRun}

/-- A call is never forgotten, and each statement of its own brings it closer
to its end. -/
theorem call_step {id : Nat} {call : EnqueueCall} (present : run.state.calls id = some call)
    (label : EnqueueLabel) :
    Exists fun next : EnqueueCall => (run.step configs label).state.calls id = some next ∧
      next.request = call.request ∧
        next.phase.remaining ≤ call.phase.remaining - (if advances id label then 1 else 0) := by
  have unmoved : forall later : EnqueueRun, later.state.calls id = some call ->
      Exists fun next : EnqueueCall => later.state.calls id = some next ∧
        next.request = call.request ∧ next.phase.remaining ≤ call.phase.remaining :=
    fun later same => ⟨call, same, rfl, Nat.le_refl _⟩
  cases label with
  | start other request =>
      apply unmoved
      simp only [step, recordStep, EnqueueSystem.step]
      split
      · exact present
      · rename_i absent
        have apart : id ≠ other := by
          rintro rfl
          rw [absent] at present
          cases present
        simp only [EnqueueSystem.put, Function.update_of_ne apart, present]
  | advance other now =>
      by_cases same : id = other
      · subst same
        have closer := call.remaining_advance (configs call.request.client) now run.state.db
          (run.state.clients call.request.client)
        refine ⟨⟨call.request, (call.advance (configs call.request.client) now run.state.db
          (run.state.clients call.request.client)).phase⟩, ?_, rfl, ?_⟩
        · simp only [step, recordStep, EnqueueSystem.step, present, EnqueueSystem.put,
            Function.update_self]
        · simpa [advances] using closer
      · have moves : advances id (.advance other now) = false := by
          simpa [advances] using Ne.symm same
        simp only [moves]
        apply unmoved
        simp only [step, recordStep, EnqueueSystem.step]
        split
        · exact present
        · simp only [EnqueueSystem.put, Function.update_of_ne same, present]
  | other call =>
      apply unmoved
      simp only [step, recordStep, EnqueueSystem.step]
      split
      · exact present
      · exact present

theorem call_run {id : Nat} {call : EnqueueCall} (present : run.state.calls id = some call)
    (labels : List EnqueueLabel) :
    Exists fun last : EnqueueCall =>
      (Runs.run (step configs) run labels).state.calls id = some last ∧
        last.request = call.request ∧
          last.phase.remaining ≤ call.phase.remaining - labels.countP (advances id) := by
  induction labels generalizing run call with
  | nil => exact ⟨call, present, rfl, Nat.le_refl _⟩
  | cons label labels inductionHypothesis =>
      rcases call_step present label with ⟨next, isNext, sameRequest, closer⟩
      rcases inductionHypothesis isNext with ⟨last, isLast, sameLast, closerStill⟩
      refine ⟨last, isLast, sameLast.trans sameRequest, ?_⟩
      rw [List.countP_cons]
      omega

end EnqueueRun

/-! ## The contract -/

/-- What each call did is what it reports; a call that has not returned a
result has inserted nothing. -/
def EnqueueRun.CallsFaithful (run : EnqueueRun) : Prop :=
  forall id call, run.state.calls id = some call ->
    match call.phase with
    | .returned result =>
        call.request.Answered run.state.db (EnqueueRun.insertedBy id run.history) result
    | _ => EnqueueRun.insertedBy id run.history = []

/-- The call was made with the key and has returned the result. -/
def EnqueueRun.Returned (run : EnqueueRun) (queue key : String) (id : Nat)
    (result : EnqueueResult) : Prop :=
  Exists fun call : EnqueueCall => run.state.calls id = some call ∧
    call.request.Uses queue key ∧ call.phase = .returned result

/-- Nobody who uses the key sets a unique key too. -/
def EnqueueRun.KeyAlone (run : EnqueueRun) (queue key : String) : Prop :=
  forall id call, run.state.calls id = some call -> call.request.Uses queue key ->
    call.request.options.uniqueKey = none

/-- The calls that share a key agree on the job, none of them is refused for a
conflict, and one of them has created the job if the key was fresh. -/
structure EnqueueRun.Agree (start : Database) (run : EnqueueRun) (queue key : String) : Prop where
  sameId : forall first second result other, run.Returned queue key first result ->
    run.Returned queue key second other -> result.id ≠ none ∧ other.id = result.id
  noConflict : forall id call message existing, run.state.calls id = some call ->
    call.request.Uses queue key -> call.phase ≠ .thrown (.conflict message existing)
  oneCreated : (forall job, Not (start.HoldsKey queue key job)) ->
    (Exists fun id : Nat => Exists fun result => run.Returned queue key id result) ->
      ExistsUnique fun id : Nat => Exists fun result =>
        run.Returned queue key id result ∧ result.deduplicated = false

theorem EnqueueRun.Invariant.faithful {start : Database} {run : EnqueueRun}
    (invariant : Invariant start run) : run.CallsFaithful := by
  intro id call present
  have sound := invariant.calls id call present
  rcases call with ⟨request, phase⟩
  cases phase with
  | resolving readAt => exact sound
  | inserting row => exact sound.1
  | findingIdempotent row key => exact sound.1
  | findingUnique row key => exact sound.1
  | returned result => exact sound
  | thrown error => exact sound.1

theorem EnqueueRun.Invariant.agree {start : Database} {run : EnqueueRun}
    (invariant : Invariant start run) {queue key : String} (alone : run.KeyAlone queue key) :
    run.Agree start queue key := by
  refine ⟨?_, ?_, ?_⟩
  · rintro first second result other ⟨call, present, uses, phase⟩
      ⟨otherCall, otherPresent, otherUses, otherPhase⟩
    rcases invariant.returned_holds present uses phase with ⟨job, sameId, holds⟩
    rcases invariant.returned_holds otherPresent otherUses otherPhase
      with ⟨otherJob, otherId, otherHolds⟩
    rw [sameId, otherId, holds.unique otherHolds]
    exact ⟨Option.some_ne_none otherJob, rfl⟩
  · intro id call message existing present uses thrown
    have sound := invariant.calls id call present
    simp only [EnqueueCall.Sound, thrown] at sound
    exact sound.2 message existing rfl (alone id call present uses)
  · rintro fresh ⟨id, result, call, present, uses, phase⟩
    rcases invariant.returned_holds present uses phase with ⟨job, sameId, row, member, rfl, held⟩
    -- the holder was not there at the start, so a call has inserted it
    rcases invariant.rows.origin row member with ⟨old, oldMem, same⟩ | ⟨⟨owner, new⟩, listed, same⟩
    · refine absurd ⟨old, oldMem, rfl, ?_⟩ (fresh old.id)
      exact ⟨same.queue.symm.trans held.1, same.idempotencyKey.symm.trans held.2⟩
    · rcases invariant.creator listed with ⟨maker, isMaker, made, makerQueue, makerKey⟩
      have makerUses : maker.request.Uses queue key :=
        ⟨makerQueue.trans (same.queue.symm.trans held.1),
          makerKey.trans (same.idempotencyKey.symm.trans held.2)⟩
      refine ⟨owner, ⟨_, ⟨maker, isMaker, makerUses, made⟩, rfl⟩, ?_⟩
      rintro other ⟨answer, ⟨rival, isRival, rivalUses, rivalPhase⟩, rivalCreated⟩
      rcases invariant.created isRival rivalPhase rivalCreated with ⟨added, addedListed, addedId, _⟩
      rcases invariant.returned_holds isRival rivalUses rivalPhase with ⟨rivalJob, rivalId, rivalHolds⟩
      have sameJob : added.id = new.id :=
        calc
          added.id = rivalJob := Option.some.inj (addedId.symm.trans rivalId)
          _ = row.id := rivalHolds.unique ⟨row, member, rfl, held⟩
          _ = new.id := same.id
      have sameEntry := List.inj_on_of_nodup_map invariant.rows.distinct addedListed listed sameJob
      exact congrArg Prod.fst sameEntry

/-- The contract of concurrent enqueues, for the run of the labels. -/
structure IdempotentEnqueue (configs : Nat -> ClientConfig) (db : Database)
    (clients : Nat -> ClientState) (labels : List EnqueueLabel) : Prop where
  oneRow : forall earlier later queue key first second, earlier <+: labels -> later <+: labels ->
    (EnqueueRun.after configs db clients earlier).state.db.HoldsKey queue key first ->
      (EnqueueRun.after configs db clients later).state.db.HoldsKey queue key second ->
        first = second
  faithful : (EnqueueRun.after configs db clients labels).CallsFaithful
  rows : RowsFrom db (EnqueueRun.after configs db clients labels).state.db
    (EnqueueRun.after configs db clients labels).history
  finishes : forall earlier later id call, earlier ++ later = labels ->
    (EnqueueRun.after configs db clients earlier).state.calls id = some call ->
      4 ≤ later.countP (EnqueueRun.advances id) ->
        Exists fun last : EnqueueCall =>
          (EnqueueRun.after configs db clients labels).state.calls id = some last ∧
            last.request = call.request ∧ last.phase.remaining = 0
  agree : forall queue key, (EnqueueRun.after configs db clients labels).KeyAlone queue key ->
    (EnqueueRun.after configs db clients labels).Agree db queue key

end PgJobQ
