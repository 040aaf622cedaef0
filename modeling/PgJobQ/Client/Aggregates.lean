import PgJobQ.Client.Queues
import PgJobQ.Lifecycle.Retention

/-!
# Aggregates by queue

`Client.queueStats` and `Retention.pruneOnce` collect their rows in plain
objects whose properties are named like the queues.  A property that is not
there yet is read from `Object.prototype`, and validation admits the names of
everything that is there: its functions and `__proto__`.

`queueStats` then assigns its count to the inherited object, which every object
of the process shares.  `pruneOnce` appends to the text of an inherited
function, or assigns a text to the prototype, which does nothing.  For all
other names the aggregates are exact, as long as nothing has been assigned to
the inherited objects before.
-/

namespace PgJobQ

open Runs

/-- The name of a property that every object inherits. -/
def Inherited (queue : String) : Prop := queue = "__proto__" ∨ queue ∈ inheritedFunctions

instance (queue : String) : Decidable (Inherited queue) := inferInstanceAs (Decidable (_ ∨ _))

/-! ## The loop of `pruneOnce` -/

/-- A value of `byQueue`: a number, or a text that an inherited function has
been turned into. -/
inductive QueueTally where
  | number (value : Nat)
  | text (value : String)
  deriving DecidableEq, Repr

namespace QueueTally

/-- `value + 1`. -/
def plusOne : QueueTally -> QueueTally
  | number value => number (value + 1)
  | text value => text (value ++ "1")

end QueueTally

/-- `String(Object.prototype[name])` of an inherited function. -/
def functionText (name : String) : String :=
  "function " ++ (if name = "constructor" then "Object" else name) ++ "() \x7b [native code] \x7d"

/-- `byQueue[queue] ?? 0` where the object has no such property of its own, and
does not inherit a function either: a number that has been assigned to the
prototype, or nothing. -/
def SharedObjects.inheritedNumber (shared : SharedObjects) (name : String) : Nat :=
  ((shared.assigned.find? (fun entry => entry.1 == "__proto__" && entry.2.1.text == name)).map
    (fun entry => entry.2.2)).getD 0

abbrev ByQueue := InsertionMap String QueueTally

/-- `byQueue[queue] = (byQueue[queue] ?? 0) + 1`.  A text cannot be assigned to
`__proto__`. -/
def recordPruned (shared : SharedObjects) (byQueue : ByQueue) (queue : String) : ByQueue :=
  if queue = "__proto__" then byQueue
  else
    let current := (byQueue.get queue).getD
      (if queue ∈ inheritedFunctions then .text (functionText queue)
        else .number (shared.inheritedNumber queue))
    byQueue.set queue current.plusOne

/-- The result of `pruneOnce`, with the queues whose counter it increments. -/
structure RetentionResult where
  pruned : Nat
  byQueue : ByQueue
  retentionPruned : List String

/-- One bounded pass. -/
def RetentionOptions.pruneOnce (opts : RetentionOptions) (shared : SharedObjects)
    (locked : List Nat) (now : Timestamp) (db : Database) :
    Except DbError RetentionResult × Database :=
  match (opts.statement locked).exec now db with
  | .error error => (.error error, db)
  | .ok reply =>
      let queues := reply.rows.map JobRow.queue
      (.ok ⟨reply.rows.length, queues.foldl (recordPruned shared) .empty, queues⟩, reply.db)

/-! ## Exactness -/

/-- How many of the jobs stand in the queue in the state. -/
def stateCount (rows : List JobRow) (queue : String) (state : JobState) : Nat :=
  rows.countP (fun job => job.queue == queue && job.state == state)

/-- The object has one property for each queue, and in it the count of each
state that occurs. -/
structure CountsExact (rows : List JobRow) (out : QueueCounts) : Prop where
  keys : forall queue, queue ∈ out.keys <-> Exists fun job : JobRow => job ∈ rows ∧ job.queue = queue
  counts : forall queue counts, out.get queue = some counts -> forall state,
    counts.get state =
      if stateCount rows queue state = 0 then none else some (stateCount rows queue state)

/-- The object has the count of each queue that occurs. -/
def TallyExact (rows : List JobRow) (byQueue : ByQueue) : Prop :=
  forall queue, byQueue.get queue =
    if (rows.map JobRow.queue).count queue = 0 then none
    else some (.number ((rows.map JobRow.queue).count queue))

/-- A call of one of the two operations. -/
inductive AggregateCall where
  | queueStats (db : Database)
  | pruneOnce (opts : RetentionOptions) (locked : List Nat) (now : Timestamp) (db : Database)

namespace AggregateCall

/-- What a call leaves of the shared objects. -/
def step (collation : String -> String -> Bool) (shared : SharedObjects) :
    AggregateCall -> SharedObjects
  | queueStats db => (Client.queueStats collation shared db).1
  | pruneOnce _ _ _ _ => shared

/-- The call returns an exact aggregate and leaves the shared objects alone. -/
def Exact (collation : String -> String -> Bool) (shared : SharedObjects) :
    AggregateCall -> Prop
  | queueStats db => (Client.queueStats collation shared db).1 = shared ∧
      Exists fun out : QueueCounts => (Client.queueStats collation shared db).2 = some out ∧
        CountsExact db.job.rows out
  | pruneOnce opts locked now db =>
      forall result, (opts.pruneOnce shared locked now db).1 = .ok result ->
        result.pruned = (opts.removed locked now db).length ∧
          TallyExact (opts.removed locked now db) result.byQueue

/-- The jobs a call aggregates. -/
def aggregated : AggregateCall -> List JobRow
  | queueStats db => db.job.rows
  | pruneOnce opts locked now db => opts.removed locked now db

/-- None of the jobs it aggregates stands in a queue that is named like an
inherited property. -/
def PlainNames (call : AggregateCall) : Prop :=
  forall job, job ∈ call.aggregated -> Not (Inherited job.queue)

end AggregateCall

/-! ## `queueStats` -/

/-- The object after these rows. -/
structure CountsRecorded (rows : List QueueStatsRow) (out : QueueCounts) : Prop where
  keys : forall queue, queue ∈ out.keys <->
    Exists fun row : QueueStatsRow => row ∈ rows ∧ row.queue = queue
  counts : forall queue counts, out.get queue = some counts -> forall state count,
    counts.get state = some count <-> QueueStatsRow.mk queue state count ∈ rows

namespace CountsRecorded

theorem nil : CountsRecorded [] .empty where
  keys := fun queue => by simp [InsertionMap.keys, InsertionMap.empty]
  counts := fun queue counts impossible => by cases impossible

/-- What has been recorded for a queue, if anything has. -/
theorem mem_iff {rows : List QueueStatsRow} {out : QueueCounts} (recorded : CountsRecorded rows out)
    (queue : String) (state : JobState) (count : Nat) :
    ((out.get queue).getD .empty).get state = some count <->
      QueueStatsRow.mk queue state count ∈ rows := by
  cases known : out.get queue with
  | some counts => exact recorded.counts queue counts known state count
  | none =>
      constructor
      · intro impossible
        cases impossible
      · intro member
        rcases InsertionMap.mem_keys_iff.mp ((recorded.keys queue).mpr ⟨_, member, rfl⟩) with
          ⟨value, isValue⟩
        cases known.symm.trans isValue

/-- One more row, of a group that has not been recorded. -/
theorem set {rows : List QueueStatsRow} {out : QueueCounts} (recorded : CountsRecorded rows out)
    {row : QueueStatsRow}
    (fresh : forall other, other ∈ rows -> (other.queue, other.state) ≠ (row.queue, row.state)) :
    CountsRecorded (rows ++ [row]) (out.set row.queue
      (((out.get row.queue).getD .empty).set row.state row.count)) where
  keys := by
    intro queue
    rw [InsertionMap.mem_keys_set_iff, recorded.keys]
    constructor
    · rintro (same | ⟨other, member, same⟩)
      · exact ⟨row, List.mem_append_right _ List.mem_cons_self, same.symm⟩
      · exact ⟨other, List.mem_append_left _ member, same⟩
    · rintro ⟨other, member, same⟩
      rcases List.mem_append.mp member with earlier | last
      · exact Or.inr ⟨other, earlier, same⟩
      · rw [List.mem_singleton.mp last] at same
        exact Or.inl same.symm
  counts := by
    intro queue counts found state count
    rw [InsertionMap.get_set] at found
    rw [List.mem_append, List.mem_singleton]
    by_cases sameQueue : queue = row.queue
    · rw [if_pos sameQueue] at found
      cases found
      subst sameQueue
      rw [InsertionMap.get_set]
      by_cases sameState : state = row.state
      · rw [if_pos sameState, sameState, Option.some_inj]
        constructor
        · intro same
          exact Or.inr (by rw [← same])
        · rintro (member | same)
          · exact absurd rfl (fresh ⟨row.queue, row.state, count⟩ member)
          · rw [← same]
      · rw [if_neg sameState, recorded.mem_iff]
        constructor
        · exact Or.inl
        · rintro (member | same)
          · exact member
          · exact absurd (congrArg QueueStatsRow.state same) sameState
    · rw [if_neg sameQueue] at found
      rw [recorded.counts queue counts found state count]
      constructor
      · exact Or.inl
      · rintro (member | same)
        · exact member
        · exact absurd (congrArg QueueStatsRow.queue same) sameQueue

end CountsRecorded

/-- Nothing is inherited where nothing has been assigned. -/
theorem recordCount_plain {row : QueueStatsRow} (plain : Not (Inherited row.queue))
    (out : QueueCounts) : recordCount ⟨[]⟩ out row =
      (⟨[]⟩, some (out.set row.queue
        (((out.get row.queue).getD .empty).set row.state row.count))) := by
  have notInherited : Not (row.queue = "__proto__" ∨ row.queue ∈ inheritedFunctions) := plain
  unfold recordCount
  cases out.get row.queue with
  | some counts => rfl
  | none =>
      simp only
      rw [if_neg notInherited]
      rfl

/-- The group of the next row has not been recorded. -/
theorem fresh_of_distinct {done rows : List QueueStatsRow} {row : QueueStatsRow}
    (distinct : ((done ++ row :: rows).map (fun row => (row.queue, row.state))).Nodup) :
    forall other, other ∈ done -> (other.queue, other.state) ≠ (row.queue, row.state) := by
  intro other member
  rw [List.map_append] at distinct
  exact (List.nodup_append.mp distinct).2.2 _ (List.mem_map_of_mem member) _
    (List.mem_map_of_mem List.mem_cons_self)

/-- Rows with plain names are all recorded.  The induction is on the rows
still to come. -/
theorem recordCounts_plain {rows done : List QueueStatsRow} {out : QueueCounts}
    (plain : forall row, row ∈ rows -> Not (Inherited row.queue)) (recorded : CountsRecorded done out)
    (distinct : ((done ++ rows).map (fun row => (row.queue, row.state))).Nodup) :
    Exists fun last : QueueCounts => recordCounts ⟨[]⟩ out rows = (⟨[]⟩, some last) ∧
      CountsRecorded (done ++ rows) last := by
  induction rows generalizing done out with
  | nil =>
      rw [List.append_nil]
      exact ⟨out, rfl, recorded⟩
  | cons row rows inductionHypothesis =>
      have fresh := fresh_of_distinct distinct
      rw [List.append_cons] at distinct ⊢
      rw [recordCounts, recordCount_plain (plain row List.mem_cons_self)]
      exact inductionHypothesis (fun other member => plain other (List.mem_cons_of_mem _ member))
        (recorded.set fresh) distinct

/-- The rows of the statement are the groups that occur, each once, with their
counts. -/
theorem mem_queueStatsRows {collation : String -> String -> Bool} {db : Database}
    {row : QueueStatsRow} : row ∈ queueStatsRows collation db <->
      row.count = stateCount db.job.rows row.queue row.state ∧ row.count ≠ 0 := by
  have occurs : forall (queue : String) (state : JobState),
      stateCount db.job.rows queue state ≠ 0 <->
        (queue, state) ∈ db.job.rows.map (fun job => (job.queue, job.state)) := by
    intro queue state
    rw [stateCount, ← Nat.pos_iff_ne_zero, List.countP_pos_iff, List.mem_map]
    simp only [Bool.and_eq_true, beq_iff_eq, Prod.mk.injEq]
  unfold queueStatsRows
  rw [List.mem_map]
  constructor
  · rintro ⟨group, member, rfl⟩
    have listed := List.mem_dedup.mp ((List.mem_insertionSort _).mp member)
    exact ⟨rfl, (occurs group.1 group.2).mpr listed⟩
  · rintro ⟨counted, occurring⟩
    rw [counted] at occurring
    refine ⟨(row.queue, row.state), ?_, ?_⟩
    · exact (List.mem_insertionSort _).mpr
        (List.mem_dedup.mpr ((occurs row.queue row.state).mp occurring))
    · rcases row with ⟨queue, state, count⟩
      exact congrArg (QueueStatsRow.mk queue state) counted.symm

theorem nodup_queueStatsRows (collation : String -> String -> Bool) (db : Database) :
    ((queueStatsRows collation db).map (fun row => (row.queue, row.state))).Nodup := by
  unfold queueStatsRows
  rw [List.map_map]
  have groups : ((fun row : QueueStatsRow => (row.queue, row.state)) ∘
      (fun group : String × JobState => QueueStatsRow.mk group.1 group.2 (db.job.rows.countP
        (fun job => job.queue == group.1 && job.state == group.2)))) = id := rfl
  rw [groups, List.map_id]
  exact (List.perm_insertionSort _ _).nodup_iff.mpr (List.nodup_dedup _)

/-- A queue of the rows is a queue of the jobs. -/
theorem queue_queueStatsRows {collation : String -> String -> Bool} {db : Database}
    (queue : String) :
    (Exists fun row : QueueStatsRow => row ∈ queueStatsRows collation db ∧ row.queue = queue) <->
      Exists fun job : JobRow => job ∈ db.job.rows ∧ job.queue = queue := by
  constructor
  · rintro ⟨row, member, same⟩
    have counted := mem_queueStatsRows.mp member
    rw [counted.1, stateCount] at counted
    rcases List.countP_pos_iff.mp (Nat.pos_of_ne_zero counted.2) with ⟨job, present, matching⟩
    have sameQueue : job.queue = row.queue := beq_iff_eq.mp (Bool.and_eq_true_iff.mp matching).1
    exact ⟨job, present, sameQueue.trans same⟩
  · rintro ⟨job, present, same⟩
    have occurs : stateCount db.job.rows job.queue job.state ≠ 0 := by
      apply Nat.ne_of_gt
      exact List.countP_pos_iff.mpr ⟨job, present, by simp⟩
    exact ⟨⟨job.queue, job.state, stateCount db.job.rows job.queue job.state⟩,
      mem_queueStatsRows.mpr ⟨rfl, occurs⟩, same⟩

/-- What the rows of the statement record is exact. -/
theorem CountsRecorded.exact {collation : String -> String -> Bool} {db : Database} {out : QueueCounts}
    (recorded : CountsRecorded (queueStatsRows collation db) out) : CountsExact db.job.rows out where
  keys := fun queue => (recorded.keys queue).trans (queue_queueStatsRows queue)
  counts := by
    intro queue counts found state
    apply Option.ext
    intro count
    rw [recorded.counts queue counts found, mem_queueStatsRows]
    split
    · rename_i none
      rw [none]
      constructor
      · exact fun counted => absurd counted.1 counted.2
      · intro impossible
        cases impossible
    · rename_i occurs
      rw [Option.some_inj]
      constructor
      · exact fun counted => counted.1.symm
      · rintro rfl
        exact ⟨rfl, occurs⟩

/-- What has been assigned to a shared object stays. -/
theorem recordCounts_keeps (shared : SharedObjects) (out : QueueCounts)
    (rows : List QueueStatsRow) :
    shared.assigned <:+ (recordCounts shared out rows).1.assigned := by
  induction rows generalizing shared out with
  | nil => exact List.suffix_rfl
  | cons row rows inductionHypothesis =>
      have first : shared.assigned <:+ (recordCount shared out row).1.assigned := by
        unfold recordCount
        split
        · exact List.suffix_rfl
        · split
          · exact List.suffix_cons _ _
          · split
            · exact List.suffix_rfl
            · exact List.suffix_rfl
      unfold recordCounts
      split
      · rename_i next recorded
        rw [recorded] at first
        exact first
      · rename_i next counts recorded
        rw [recorded] at first
        exact first.trans (inductionHypothesis next counts)

/-- A row with an inherited name changes a shared object. -/
theorem recordCounts_inherited {rows done : List QueueStatsRow} {out : QueueCounts}
    (recorded : CountsRecorded done out) (plain : forall row, row ∈ done -> Not (Inherited row.queue))
    (distinct : ((done ++ rows).map (fun row => (row.queue, row.state))).Nodup)
    (inherits : Exists fun row : QueueStatsRow => row ∈ rows ∧ Inherited row.queue) :
    (recordCounts ⟨[]⟩ out rows).1 ≠ ⟨[]⟩ := by
  induction rows generalizing done out with
  | nil =>
      rcases inherits with ⟨row, member, _⟩
      cases member
  | cons row rows inductionHypothesis =>
      by_cases inherited : Inherited row.queue
      · have absent : out.get row.queue = none := by
          cases known : out.get row.queue with
          | none => rfl
          | some counts =>
              rcases (recorded.keys row.queue).mp (InsertionMap.mem_keys_iff.mpr ⟨counts, known⟩)
                with ⟨other, member, same⟩
              exact absurd (same ▸ inherited) (plain other member)
        have assigned : recordCount ⟨[]⟩ out row =
            (⟨[(row.queue, row.state, row.count)]⟩, some out) := by
          unfold recordCount
          rw [absent]
          exact if_pos inherited
        intro clean
        have kept := recordCounts_keeps ⟨[(row.queue, row.state, row.count)]⟩ out rows
        rw [recordCounts, assigned] at clean
        dsimp only at clean
        rw [clean] at kept
        exact absurd (List.suffix_nil.mp kept) (List.cons_ne_nil _ _)
      · have fresh := fresh_of_distinct distinct
        rw [List.append_cons] at distinct
        rw [recordCounts, recordCount_plain inherited]
        refine inductionHypothesis (recorded.set fresh) ?_ distinct ?_
        · intro other member
          rcases List.mem_append.mp member with earlier | last
          · exact plain other earlier
          · rw [List.mem_singleton.mp last]
            exact inherited
        · rcases inherits with ⟨other, member, isInherited⟩
          rcases List.mem_cons.mp member with rfl | later
          · exact absurd isInherited inherited
          · exact ⟨other, later, isInherited⟩

/-- A call of `queueStats` is exact exactly when no job stands in a queue with
an inherited name. -/
theorem queueStats_exact_iff (collation : String -> String -> Bool) (db : Database) :
    (AggregateCall.queueStats db).Exact collation ⟨[]⟩ <->
      (AggregateCall.queueStats db).PlainNames := by
  have distinct : (([] ++ queueStatsRows collation db).map
      (fun row : QueueStatsRow => (row.queue, row.state))).Nodup :=
    nodup_queueStatsRows collation db
  constructor
  · rintro ⟨unchanged, _⟩ job member inherited
    rcases (queue_queueStatsRows job.queue).mpr ⟨job, member, rfl⟩ with ⟨row, listed, same⟩
    exact recordCounts_inherited .nil (fun _ impossible => absurd impossible List.not_mem_nil)
      distinct ⟨row, listed, same ▸ inherited⟩ unchanged
  · intro plain
    have plainRows : forall row, row ∈ queueStatsRows collation db -> Not (Inherited row.queue) := by
      intro row listed inherited
      rcases (queue_queueStatsRows row.queue).mp ⟨row, listed, rfl⟩ with ⟨job, member, same⟩
      exact plain job member (same ▸ inherited)
    rcases recordCounts_plain plainRows .nil distinct with ⟨out, collected, recorded⟩
    have stats : Client.queueStats collation ⟨[]⟩ db = (⟨[]⟩, some out) := collected
    refine ⟨congrArg Prod.fst stats, out, congrArg Prod.snd stats, ?_⟩
    exact recorded.exact

/-! ## `pruneOnce` -/

/-- A plain name is counted. -/
theorem recordPruned_plain {queue : String} (plain : Not (Inherited queue)) (byQueue : ByQueue) :
    recordPruned ⟨[]⟩ byQueue queue =
      byQueue.set queue ((byQueue.get queue).getD (.number 0)).plusOne := by
  unfold recordPruned
  rw [if_neg (fun prototype => plain (Or.inl prototype)),
    if_neg (fun function => plain (Or.inr function))]
  rfl

/-- The object has the numbers of a tally. -/
def HasNumbers (byQueue : ByQueue) (counts : InsertionMap String Nat) : Prop :=
  forall queue, byQueue.get queue = (counts.get queue).map QueueTally.number

/-- Over plain names the loop is a tally. -/
theorem hasNumbers_of_plain {queues : List String}
    (plain : forall queue, queue ∈ queues -> Not (Inherited queue)) {byQueue : ByQueue}
    {counts : InsertionMap String Nat} (numbers : HasNumbers byQueue counts) :
    HasNumbers (queues.foldl (recordPruned ⟨[]⟩) byQueue) (counts.tally queues) := by
  induction queues generalizing byQueue counts with
  | nil => exact numbers
  | cons queue queues inductionHypothesis =>
      apply inductionHypothesis (fun other member => plain other (List.mem_cons_of_mem _ member))
      intro other
      rw [recordPruned_plain (plain queue List.mem_cons_self), InsertionMap.get_set,
        InsertionMap.get_set, numbers queue]
      split
      · cases counts.get queue <;> rfl
      · exact numbers other

/-- The property with an inherited name never becomes a number. -/
theorem not_number_of_inherited {name : String} (inherited : Inherited name) {byQueue : ByQueue}
    (before : forall count, byQueue.get name ≠ some (.number count)) (queues : List String)
    (count : Nat) :
    (queues.foldl (recordPruned ⟨[]⟩) byQueue).get name ≠ some (.number count) := by
  induction queues generalizing byQueue with
  | nil => exact before count
  | cons queue queues inductionHypothesis =>
      apply inductionHypothesis
      intro other
      unfold recordPruned
      split
      · exact before other
      · rename_i notPrototype
        dsimp only
        rw [InsertionMap.get_set]
        split
        · rename_i same
          subst same
          have function : name ∈ inheritedFunctions := inherited.resolve_left notPrototype
          rw [if_pos function]
          cases known : byQueue.get name with
          | none => exact fun impossible => by cases impossible
          | some tally =>
              cases tally with
              | number value => exact absurd known (before value)
              | text value => exact fun impossible => by cases impossible
        · exact before other

/-- A call of `pruneOnce` is exact exactly when no job that it removes stands
in a queue with an inherited name. -/
theorem pruneOnce_exact_iff (collation : String -> String -> Bool) (opts : RetentionOptions)
    (locked : List Nat) (now : Timestamp) (db : Database) :
    (AggregateCall.pruneOnce opts locked now db).Exact collation ⟨[]⟩ <->
      (AggregateCall.pruneOnce opts locked now db).PlainNames := by
  change (forall result, (opts.pruneOnce ⟨[]⟩ locked now db).1 = .ok result ->
      result.pruned = (opts.removed locked now db).length ∧
        TallyExact (opts.removed locked now db) result.byQueue) <->
    forall job, job ∈ opts.removed locked now db -> Not (Inherited job.queue)
  unfold RetentionOptions.pruneOnce RetentionOptions.removed
  cases (opts.statement locked).exec now db with
  | error error =>
      constructor
      · exact fun _ job impossible => absurd impossible List.not_mem_nil
      · intro _ result impossible
        cases impossible
  | ok reply =>
      dsimp only
      constructor
      · intro exactly job member inherited
        have tally := (exactly _ rfl).2 job.queue
        have listed : (reply.rows.map JobRow.queue).count job.queue ≠ 0 :=
          Nat.ne_of_gt (List.count_pos_iff.mpr (List.mem_map_of_mem member))
        rw [if_neg listed] at tally
        exact not_number_of_inherited inherited (fun _ impossible => by cases impossible) _ _ tally
      · intro plain result done
        cases done
        refine ⟨rfl, fun queue => ?_⟩
        have plainQueues : forall name, name ∈ reply.rows.map JobRow.queue ->
            Not (Inherited name) := by
          intro name member
          rcases List.mem_map.mp member with ⟨job, jobMem, rfl⟩
          exact plain job jobMem
        have start : HasNumbers .empty .empty := fun _ => rfl
        rw [hasNumbers_of_plain plainQueues start queue, InsertionMap.get_tally]
        split
        · rfl
        · exact congrArg (fun total => some (QueueTally.number total)) (Nat.zero_add _)

/-! ## Calls in a row -/

/-- From a process in which nothing has been assigned to an inherited object,
every aggregate of a list of calls is exact and no call changes another object
exactly when no call meets a queue with an inherited name. -/
theorem aggregates_exact_iff (collation : String -> String -> Bool) (calls : List AggregateCall) :
    EachStep (AggregateCall.step collation) (fun shared call => call.Exact collation shared) ⟨[]⟩
        calls <->
      forall call, call ∈ calls -> call.PlainNames := by
  have single : forall call : AggregateCall, call.Exact collation ⟨[]⟩ <-> call.PlainNames := by
    intro call
    cases call with
    | queueStats db => exact queueStats_exact_iff collation db
    | pruneOnce opts locked now db => exact pruneOnce_exact_iff collation opts locked now db
  have clean : forall call : AggregateCall, call.PlainNames -> call.step collation ⟨[]⟩ = ⟨[]⟩ := by
    intro call plain
    cases call with
    | queueStats db => exact ((queueStats_exact_iff collation db).mpr plain).1
    | pruneOnce opts locked now db => rfl
  induction calls with
  | nil => exact ⟨fun _ call impossible => absurd impossible List.not_mem_nil, fun _ => trivial⟩
  | cons call calls inductionHypothesis =>
      constructor
      · rintro ⟨exactly, later⟩
        have plain := (single call).mp exactly
        rw [clean call plain] at later
        exact List.forall_mem_cons.mpr ⟨plain, inductionHypothesis.mp later⟩
      · intro plain
        have parts := List.forall_mem_cons.mp plain
        refine ⟨(single call).mpr parts.1, ?_⟩
        rw [clean call parts.1]
        exact inductionHypothesis.mpr parts.2

/-- A finished job in a queue that is called `constructor`. -/
def constructorJob : Database := finishedOnly "constructor" false 0 (seconds 7200)

def byName (first second : String) : Bool := decide (first ≤ second)

/-- The name is valid.  The queue has no entry in the statistics, which assign
the count to a shared object, and when its job is removed a text is counted. -/
theorem constructor_queue_miscounted :
    validateName "constructor" "queue" = .ok () ∧
      Not ((AggregateCall.queueStats constructorJob).Exact byName ⟨[]⟩) ∧
      Client.queueStats byName ⟨[]⟩ constructorJob =
        (⟨[("constructor", .succeeded, 1)]⟩, some .empty) ∧
      Not ((AggregateCall.pruneOnce oneHour [] (seconds 7200) constructorJob).Exact byName ⟨[]⟩) ∧
      (recordPruned ⟨[]⟩ .empty "constructor").get "constructor" =
        some (.text "function Object() \x7b [native code] \x7d1") := by
  refine ⟨by decide, fun exactly => ?_, rfl, fun exactly => ?_, by decide⟩
  · have plain := (queueStats_exact_iff byName constructorJob).mp exactly
    exact plain _ List.mem_cons_self (by decide)
  · have plain := (pruneOnce_exact_iff byName oneHour [] (seconds 7200) constructorJob).mp exactly
    exact plain (finishedJob "constructor" false 0) (by decide) (by decide)

end PgJobQ
