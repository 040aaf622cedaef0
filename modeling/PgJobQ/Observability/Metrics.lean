import Mathlib.Data.List.Induction
import PgJobQ.Client.Aggregates

/-!
# Metrics

The type of a job labels its samples, and types come from callers.  `labelType`
learns types up to a cap and calls every other type `other`.

The server keeps two kinds of gauges.  A timer sets the depth of each queue and
state from `queueStats`, and the size of the dead-letter list of each queue.  The
statistics have no entry for a group without jobs, so a gauge whose group has
emptied is not set again.
-/

namespace PgJobQ

/-! ## Labels of types -/

/-- A use of the label of a type: for the counter of enqueued jobs, or by the
runner of a delivery. -/
inductive LabelUse where
  | enqueued (queue type : String)
  | delivered (type : String)
  deriving DecidableEq, Repr

namespace LabelUse

def type : LabelUse -> String
  | enqueued _ type => type
  | delivered type => type

/-- The sample of the counter, under a label. -/
def sample (label : String) : LabelUse -> Option (String × String)
  | enqueued queue _ => some (queue, label)
  | delivered _ => none

end LabelUse

namespace Metrics

/-- The label and the metrics after a use. -/
def use (metrics : Metrics) : LabelUse -> String × Metrics
  | .enqueued queue type => ((metrics.labelType type).1, metrics.incEnqueued queue type)
  | .delivered type => metrics.labelType type

/-- The labels of the uses in turn, and the metrics after them. -/
def run : Metrics -> List LabelUse -> List String × Metrics
  | metrics, [] => ([], metrics)
  | metrics, use :: uses =>
      let later := (metrics.use use).2.run uses
      ((metrics.use use).1 :: later.1, later.2)

/-- The label that a type has while the set of known types is this one. -/
def labelOf (metrics : Metrics) (type : String) : String :=
  if type ∈ metrics.known then type else "other"

/-- There is no room for another type. -/
def Full (metrics : Metrics) : Prop := metrics.maxKnown ≤ metrics.known.length

variable (metrics : Metrics)

theorem labelType_of_known {type : String} (known : type ∈ metrics.known) :
    metrics.labelType type = (type, metrics) := by
  unfold labelType
  rw [if_pos (List.contains_iff_mem.mpr known)]

theorem labelType_of_full {type : String} (new : Not (type ∈ metrics.known))
    (full : metrics.Full) : metrics.labelType type = ("other", metrics) := by
  unfold labelType
  rw [if_neg (fun known => new (List.contains_iff_mem.mp known)), if_neg (Nat.not_lt.mpr full)]

theorem labelType_of_room {type : String} (new : Not (type ∈ metrics.known))
    (room : metrics.known.length < metrics.maxKnown) :
    metrics.labelType type = (type, { metrics with known := metrics.known ++ [type] }) := by
  unfold labelType
  rw [if_neg (fun known => new (List.contains_iff_mem.mp known)), if_pos room]

theorem full_stays {later : Metrics} (cap : later.maxKnown = metrics.maxKnown)
    (same : metrics.Full -> later.known = metrics.known) (full : metrics.Full) : later.Full := by
  have kept := same full
  unfold Full at full ⊢
  rw [cap, kept]
  exact full

/-- What one use does to the set of known types. -/
structure Learns (type label : String) (next : Metrics) : Prop where
  cap : next.maxKnown = metrics.maxKnown
  grows : metrics.known <+: next.known
  bounded : next.known.length ≤ max metrics.known.length metrics.maxKnown
  label : label = next.labelOf type
  full : metrics.Full -> next.known = metrics.known
  known : type ∈ next.known ∨ metrics.Full

theorem Learns.known_or_full {type label : String} {next : Metrics}
    (learns : metrics.Learns type label next) : type ∈ next.known ∨ next.Full :=
  learns.known.imp_right (metrics.full_stays learns.cap learns.full)

theorem learns_labelType (type : String) :
    metrics.Learns type (metrics.labelType type).1 (metrics.labelType type).2 := by
  by_cases known : type ∈ metrics.known
  · rw [labelType_of_known metrics known]
    exact ⟨rfl, List.prefix_rfl, le_max_left _ _, (if_pos known).symm, fun _ => rfl, Or.inl known⟩
  · rcases Nat.lt_or_ge metrics.known.length metrics.maxKnown with room | full
    · rw [labelType_of_room metrics known room]
      have learnt : type ∈ metrics.known ++ [type] :=
        List.mem_append_right _ List.mem_cons_self
      refine ⟨rfl, List.prefix_append _ _, ?_, (if_pos learnt).symm, ?_, Or.inl learnt⟩
      · rw [List.length_append, List.length_singleton]
        exact le_trans room (le_max_right _ _)
      · intro full
        exact absurd room (Nat.not_lt.mpr full)
    · rw [labelType_of_full metrics known full]
      exact ⟨rfl, List.prefix_rfl, le_max_left _ _, (if_neg known).symm, fun _ => rfl,
        Or.inr full⟩

theorem learns_use (use : LabelUse) :
    metrics.Learns use.type (metrics.use use).1 (metrics.use use).2 := by
  cases use with
  | delivered type => exact metrics.learns_labelType type
  | enqueued queue type =>
      have learns := metrics.learns_labelType type
      exact ⟨learns.cap, learns.grows, learns.bounded, learns.label, learns.full, learns.known⟩

theorem jobsEnqueued_use (use : LabelUse) : (metrics.use use).2.jobsEnqueued =
    (use.sample (metrics.use use).1).toList ++ metrics.jobsEnqueued := by
  have kept : forall type : String,
      (metrics.labelType type).2.jobsEnqueued = metrics.jobsEnqueued := by
    intro type
    unfold labelType
    split
    · exact rfl
    · split
      · exact rfl
      · exact rfl
  cases use with
  | delivered type => exact kept type
  | enqueued queue type => exact congrArg (List.cons _) (kept type)

/-- A type that is known stays known, and a set that is full stays as it is: the
label of a type is settled at its first use. -/
theorem labelOf_settled {type : String} {later : Metrics} (grows : metrics.known <+: later.known)
    (full : metrics.Full -> later.known = metrics.known)
    (asked : type ∈ metrics.known ∨ metrics.Full) : later.labelOf type = metrics.labelOf type := by
  rcases asked with known | isFull
  · exact (if_pos (grows.subset known)).trans (if_pos known).symm
  · unfold labelOf
    rw [full isFull]

/-- What a run does to the set of known types. -/
structure LearnsAll (types labels : List String) (final : Metrics) : Prop where
  cap : final.maxKnown = metrics.maxKnown
  grows : metrics.known <+: final.known
  bounded : final.known.length ≤ max metrics.known.length metrics.maxKnown
  labels : labels = types.map final.labelOf
  full : metrics.Full -> final.known = metrics.known
  known : forall type, type ∈ types -> type ∈ final.known ∨ final.Full

/-- The induction is on the uses. -/
theorem learns_run (uses : List LabelUse) :
    metrics.LearnsAll (uses.map LabelUse.type) (metrics.run uses).1 (metrics.run uses).2 := by
  induction uses generalizing metrics with
  | nil => exact ⟨rfl, List.prefix_rfl, le_max_left _ _, rfl, fun _ => rfl, fun _ member => by cases member⟩
  | cons use uses inductionHypothesis =>
      have first := metrics.learns_use use
      have rest := inductionHypothesis (metrics.use use).2
      have settled := labelOf_settled _ rest.grows rest.full (Learns.known_or_full metrics first)
      refine ⟨rest.cap.trans first.cap, first.grows.trans rest.grows, ?_, ?_, ?_, ?_⟩
      · have bound := rest.bounded
        rw [first.cap] at bound
        exact le_trans bound (max_le first.bounded (le_max_right _ _))
      · rw [List.map_cons, List.map_cons, run]
        exact congrArg₂ List.cons (first.label.trans settled.symm) rest.labels
      · intro isFull
        have same := first.full isFull
        exact (rest.full (metrics.full_stays first.cap first.full isFull)).trans same
      · intro type member
        rcases List.mem_cons.mp member with isFirst | later
        · rw [isFirst]
          exact (Learns.known_or_full metrics first).imp (fun known => rest.grows.subset known)
            (fun full => full_stays _ rest.cap rest.full full)
        · exact rest.known type later

/-- The induction is on the uses that come first. -/
theorem run_append (before after : List LabelUse) :
    (metrics.run (before ++ after)).2 = ((metrics.run before).2.run after).2 := by
  induction before generalizing metrics with
  | nil => exact rfl
  | cons use before inductionHypothesis =>
      rw [List.cons_append, run, run]
      exact inductionHypothesis (metrics.use use).2

/-- A type that is not known at the end came when the set was full. -/
theorem full_of_foreign {before after : List LabelUse} {use : LabelUse}
    (foreign : (metrics.run (before ++ use :: after)).2.labelOf use.type ≠ use.type) :
    (metrics.run before).2.Full := by
  rw [run_append] at foreign
  have first := (metrics.run before).2.learns_use use
  have rest := ((metrics.run before).2.use use).2.learns_run after
  rcases first.known with known | full
  · exact absurd (if_pos (rest.grows.subset known)) foreign
  · exact full

/-- The counter has a sample for each enqueue, under the label that the type has
at the end.  The induction is on the uses. -/
theorem jobsEnqueued_run (uses : List LabelUse) : (metrics.run uses).2.jobsEnqueued =
    (uses.filterMap (fun use => use.sample ((metrics.run uses).2.labelOf use.type))).reverse ++
      metrics.jobsEnqueued := by
  induction uses generalizing metrics with
  | nil => exact rfl
  | cons use uses inductionHypothesis =>
      have first := metrics.learns_use use
      have rest := (metrics.use use).2.learns_run uses
      have settled := labelOf_settled _ rest.grows rest.full (Learns.known_or_full metrics first)
      have label : (metrics.use use).1 =
          ((metrics.use use).2.run uses).2.labelOf use.type := first.label.trans settled.symm
      have sampled := metrics.jobsEnqueued_use use
      rw [run, inductionHypothesis, sampled, label]
      dsimp only
      rw [List.filterMap_cons]
      cases use.sample (((metrics.use use).2.run uses).2.labelOf use.type) with
      | none => exact rfl
      | some sample =>
          rw [List.reverse_cons, List.append_assoc]
          exact rfl

/-- The labels are known types, and one more. -/
theorem length_dedup_labels (types : List String) :
    ((types.map metrics.labelOf).dedup).length ≤ metrics.known.length + 1 := by
  have among : (types.map metrics.labelOf).dedup ⊆ "other" :: metrics.known := by
    intro label member
    rcases List.mem_map.mp (List.mem_dedup.mp member) with ⟨type, -, rfl⟩
    unfold labelOf
    split
    · next known => exact List.mem_cons_of_mem _ known
    · exact List.mem_cons_self
  exact (List.subperm_of_subset (List.nodup_dedup _) among).length_le

end Metrics

/-- However often labels are used, and for whatever types, a type has one label
in all of the run: its own, or `other` if the set was full when the type came
first.  There are at most as many labels as the cap allows, and one more, unless
more types were given to begin with.  The counter of enqueued jobs has exactly
one sample for each enqueue, under the label of its type, so no type is counted
partly under one label and partly under another. -/
theorem types_keep_their_labels (metrics : Metrics) (uses : List LabelUse) :
    let ran := metrics.run uses
    ran.1 = uses.map (fun use => ran.2.labelOf use.type) ∧
    ran.2.jobsEnqueued =
      (uses.filterMap (fun use => use.sample (ran.2.labelOf use.type))).reverse ++
        metrics.jobsEnqueued ∧
    metrics.known <+: ran.2.known ∧
    (forall before use after, uses = before ++ use :: after ->
      ran.2.labelOf use.type ≠ use.type -> (metrics.run before).2.Full) ∧
    ran.1.dedup.length ≤ max metrics.known.length metrics.maxKnown + 1 := by
  intro ran
  have learns := metrics.learns_run uses
  have labels : ran.1 = (uses.map LabelUse.type).map ran.2.labelOf := learns.labels
  refine ⟨?_, metrics.jobsEnqueued_run uses, learns.grows, ?_, ?_⟩
  · rw [labels, List.map_map]
    exact rfl
  · rintro before use after rfl foreign
    exact metrics.full_of_foreign foreign
  · rw [labels]
    exact le_trans (ran.2.length_dedup_labels _) (Nat.add_le_add_right learns.bounded 1)

/-! ## Gauges -/

structure Gauges where
  queueDepth : InsertionMap (String × JobState) Nat
  dlqSize : InsertionMap String Nat

namespace Gauges

def empty : Gauges := ⟨.empty, .empty⟩

/-- `metrics.queueDepth.set` for each state of a queue. -/
def setDepths (gauges : Gauges) (queue : String) (counts : List (JobState × Nat)) : Gauges :=
  counts.foldl (fun gauges entry =>
    { gauges with queueDepth := gauges.queueDepth.set (queue, entry.1) entry.2 }) gauges

/-- The body of the loop over the queues. -/
def setQueue (gauges : Gauges) (entry : String × InsertionMap JobState Nat) : Gauges :=
  let depths := gauges.setDepths entry.1 entry.2.entries
  { depths with dlqSize := depths.dlqSize.set entry.1 ((entry.2.get .dead).getD 0) }

def refresh (gauges : Gauges) (stats : QueueCounts) : Gauges :=
  (objectEntries stats).foldl setQueue gauges

end Gauges

/-- The gauges of a process, with the objects its statistics may have changed. -/
structure GaugeTimer where
  shared : SharedObjects
  gauges : Gauges

/-- `queueStats` of a timer is answered over a table, or fails; what is thrown is
dropped. -/
def GaugeTimer.tick (collation : String -> String -> Bool) (timer : GaugeTimer) :
    Option Database -> GaugeTimer
  | none => timer
  | some db =>
      match Client.queueStats collation timer.shared db with
      | (shared, none) => ⟨shared, timer.gauges⟩
      | (shared, some stats) => ⟨shared, timer.gauges.refresh stats⟩

/-- The depths of an object of statistics, in the order in which they are set. -/
def depthEntries (stats : QueueCounts) : List ((String × JobState) × Nat) :=
  (objectEntries stats).flatMap (fun entry =>
    entry.2.entries.map (fun counted => ((entry.1, counted.1), counted.2)))

/-- The sizes of the dead-letter lists. -/
def dlqEntries (stats : QueueCounts) : List (String × Nat) :=
  (objectEntries stats).map (fun entry => (entry.1, (entry.2.get .dead).getD 0))

namespace Gauges

variable (gauges : Gauges)

theorem setDepths_eq (queue : String) (counts : List (JobState × Nat)) :
    gauges.setDepths queue counts = { gauges with
      queueDepth := gauges.queueDepth.setAll
        (counts.map (fun counted => ((queue, counted.1), counted.2))) } := by
  induction counts generalizing gauges with
  | nil => exact rfl
  | cons entry counts inductionHypothesis => exact inductionHypothesis _

/-- The two loops set every gauge that the statistics have an entry for.  The
induction is on the queues. -/
theorem refresh_eq (stats : QueueCounts) : gauges.refresh stats =
    ⟨gauges.queueDepth.setAll (depthEntries stats), gauges.dlqSize.setAll (dlqEntries stats)⟩ := by
  unfold refresh depthEntries dlqEntries
  induction objectEntries stats generalizing gauges with
  | nil => exact rfl
  | cons entry entries inductionHypothesis =>
      rw [List.foldl_cons, inductionHypothesis, List.flatMap_cons, List.map_cons]
      unfold setQueue
      rw [setDepths_eq, InsertionMap.setAll_append, InsertionMap.setAll_cons]

end Gauges

/-- `Object.entries` lists what the object has. -/
theorem mem_objectEntries {Value : Type} {object : InsertionMap String Value}
    {entry : String × Value} : entry ∈ objectEntries object <-> object.get entry.1 = some entry.2 := by
  rw [InsertionMap.get_eq_some_iff]
  unfold objectEntries
  rw [List.mem_append, List.mem_insertionSort, List.mem_filter, List.mem_filter]
  cases index : arrayIndex entry.1 with
  | none => simp
  | some number => simp

theorem mem_depthEntries {stats : QueueCounts} {queue : String} {state : JobState} {count : Nat} :
    ((queue, state), count) ∈ depthEntries stats <->
      Exists fun counts : InsertionMap JobState Nat =>
        stats.get queue = some counts ∧ counts.get state = some count := by
  unfold depthEntries
  rw [List.mem_flatMap]
  constructor
  · rintro ⟨entry, listed, member⟩
    rcases List.mem_map.mp member with ⟨counted, inside, same⟩
    cases same
    exact ⟨entry.2, mem_objectEntries.mp listed, InsertionMap.get_eq_some_iff.mpr inside⟩
  · rintro ⟨counts, listed, inside⟩
    exact ⟨(queue, counts), mem_objectEntries.mpr listed,
      List.mem_map.mpr ⟨(state, count), InsertionMap.get_eq_some_iff.mp inside, rfl⟩⟩

/-- The count that a refresh over these jobs gives the gauge of a group. -/
def shownDepth (rows : List JobRow) (queue : String) (state : JobState) : Option Nat :=
  if stateCount rows queue state = 0 then none else some (stateCount rows queue state)

/-- The count that it gives the dead-letter gauge of a queue. -/
def shownDlq (rows : List JobRow) (queue : String) : Option Nat :=
  if (rows.map JobRow.queue).contains queue then some (stateCount rows queue .dead) else none

/-- A group that is shown has a job. -/
theorem occurs_of_shownDepth {rows : List JobRow} {queue : String} {state : JobState} {count : Nat}
    (shown : shownDepth rows queue state = some count) :
    Exists fun job : JobRow => job ∈ rows ∧ job.queue = queue := by
  unfold shownDepth at shown
  split at shown
  · cases shown
  · next some =>
      rcases List.countP_pos_iff.mp (Nat.pos_of_ne_zero some) with ⟨job, member, inGroup⟩
      exact ⟨job, member, beq_iff_eq.mp (Bool.and_eq_true_iff.mp inGroup).1⟩

section Refreshing

variable {rows : List JobRow} {stats : QueueCounts} (counted : CountsExact rows stats)

include counted

theorem mem_depthEntries_iff {queue : String} {state : JobState} {count : Nat} :
    ((queue, state), count) ∈ depthEntries stats <-> shownDepth rows queue state = some count := by
  rw [mem_depthEntries]
  constructor
  · rintro ⟨counts, listed, inside⟩
    exact (counted.counts queue counts listed state).symm.trans inside
  · intro shown
    have occurs : Exists fun job : JobRow => job ∈ rows ∧ job.queue = queue :=
      occurs_of_shownDepth shown
    rcases InsertionMap.mem_keys_iff.mp ((counted.keys queue).mpr occurs) with ⟨counts, listed⟩
    exact ⟨counts, listed, (counted.counts queue counts listed state).trans shown⟩

theorem depth_refresh (gauges : Gauges) (queue : String) (state : JobState) :
    (gauges.refresh stats).queueDepth.get (queue, state) =
      (shownDepth rows queue state).or (gauges.queueDepth.get (queue, state)) := by
  rw [Gauges.refresh_eq]
  dsimp only
  cases shown : shownDepth rows queue state with
  | none =>
      exact InsertionMap.get_setAll_of_absent _ (fun count member =>
        by rw [(mem_depthEntries_iff counted).mp member] at shown; cases shown)
  | some count =>
      exact InsertionMap.get_setAll_of_unique _ ((mem_depthEntries_iff counted).mpr shown)
        (fun other member => by
          rw [(mem_depthEntries_iff counted).mp member] at shown; cases shown; exact rfl)

theorem mem_dlqEntries_iff {queue : String} {count : Nat} :
    (queue, count) ∈ dlqEntries stats <-> shownDlq rows queue = some count := by
  have listed : (queue, count) ∈ dlqEntries stats <-> Exists fun counts : InsertionMap JobState Nat =>
      stats.get queue = some counts ∧ (counts.get .dead).getD 0 = count := by
    unfold dlqEntries
    rw [List.mem_map]
    constructor
    · rintro ⟨entry, member, same⟩
      cases same
      exact ⟨entry.2, mem_objectEntries.mp member, rfl⟩
    · rintro ⟨counts, member, rfl⟩
      exact ⟨(queue, counts), mem_objectEntries.mpr member, rfl⟩
  have dead : forall counts : InsertionMap JobState Nat, stats.get queue = some counts ->
      (counts.get .dead).getD 0 = stateCount rows queue .dead := by
    intro counts found
    rw [counted.counts queue counts found .dead]
    split
    · next none => exact none.symm
    · exact rfl
  have known : (rows.map JobRow.queue).contains queue = true <-> queue ∈ stats.keys := by
    rw [counted.keys, List.contains_iff_mem, List.mem_map]
  rw [listed]
  unfold shownDlq
  constructor
  · rintro ⟨counts, found, same⟩
    rw [if_pos (known.mpr (InsertionMap.mem_keys_iff.mpr ⟨counts, found⟩)), ← dead counts found,
      same]
  · intro shown
    split at shown
    · next occurs =>
        rcases InsertionMap.mem_keys_iff.mp (known.mp occurs) with ⟨counts, found⟩
        exact ⟨counts, found, (dead counts found).trans (Option.some.inj shown)⟩
    · cases shown

theorem dlq_refresh (gauges : Gauges) (queue : String) :
    (gauges.refresh stats).dlqSize.get queue =
      (shownDlq rows queue).or (gauges.dlqSize.get queue) := by
  rw [Gauges.refresh_eq]
  dsimp only
  cases shown : shownDlq rows queue with
  | none =>
      exact InsertionMap.get_setAll_of_absent _ (fun count member =>
        by rw [(mem_dlqEntries_iff counted).mp member] at shown; cases shown)
  | some count =>
      exact InsertionMap.get_setAll_of_unique _ ((mem_dlqEntries_iff counted).mpr shown)
        (fun other member => by
          rw [(mem_dlqEntries_iff counted).mp member] at shown; cases shown; exact rfl)

end Refreshing

/-! ## Runs of the timer -/

/-- The tables that `queueStats` was answered over have plain names only. -/
def PlainAnswers (answers : List (Option Database)) : Prop :=
  forall db, some db ∈ answers -> (AggregateCall.queueStats db).PlainNames

/-- One tick over plain names. -/
theorem tick_plain (collation : String -> String -> Bool) (gauges : Gauges)
    {db : Database} (plain : (AggregateCall.queueStats db).PlainNames) :
    Exists fun stats : QueueCounts => CountsExact db.job.rows stats ∧
      GaugeTimer.tick collation ⟨⟨[]⟩, gauges⟩ (some db) = ⟨⟨[]⟩, gauges.refresh stats⟩ := by
  rcases (queueStats_exact_iff collation db).mpr plain with ⟨kept, stats, collected, counted⟩
  refine ⟨stats, counted, ?_⟩
  have answered : Client.queueStats collation ⟨[]⟩ db = (⟨[]⟩, some stats) := Prod.ext kept collected
  unfold GaugeTimer.tick
  dsimp only
  rw [answered]

/-- What the latest of the answers shows that shows anything. -/
def lastShown (shown : List JobRow -> Option Nat) (answers : List (Option Database)) : Option Nat :=
  answers.reverse.findSome? (fun answer => answer.bind (fun db => shown db.job.rows))

theorem lastShown_snoc_none (shown : List JobRow -> Option Nat) (answers : List (Option Database)) :
    lastShown shown (answers ++ [none]) = lastShown shown answers := by
  unfold lastShown
  rw [List.reverse_append]
  exact rfl

theorem lastShown_snoc_some (shown : List JobRow -> Option Nat) (answers : List (Option Database))
    (db : Database) :
    lastShown shown (answers ++ [some db]) = (shown db.job.rows).or (lastShown shown answers) := by
  unfold lastShown
  rw [List.reverse_append, List.reverse_singleton, List.singleton_append, List.findSome?_cons,
    Option.bind_some]
  cases shown db.job.rows with
  | none => exact rfl
  | some count => exact rfl

/-- The gauges after a run of the timer. -/
structure Gauges.Show (gauges : Gauges) (answers : List (Option Database)) : Prop where
  depths : forall (queue : String) (state : JobState), gauges.queueDepth.get (queue, state) =
    lastShown (fun rows => shownDepth rows queue state) answers
  sizes : forall queue : String, gauges.dlqSize.get queue =
    lastShown (fun rows => shownDlq rows queue) answers

/-- The induction is on the answers, from the last one. -/
theorem show_run (collation : String -> String -> Bool) (answers : List (Option Database))
    (plain : PlainAnswers answers) : Exists fun gauges : Gauges =>
      answers.foldl (GaugeTimer.tick collation) ⟨⟨[]⟩, .empty⟩ = ⟨⟨[]⟩, gauges⟩ ∧
        gauges.Show answers := by
  induction answers using List.reverseRecOn with
  | nil => exact ⟨.empty, rfl, fun _ _ => rfl, fun _ => rfl⟩
  | append_singleton answers answer inductionHypothesis =>
      have earlier : PlainAnswers answers := fun db member =>
        plain db (List.mem_append_left _ member)
      rcases inductionHypothesis earlier with ⟨gauges, ran, shows⟩
      rw [List.foldl_append, ran, List.foldl_cons, List.foldl_nil]
      cases answer with
      | none =>
          refine ⟨gauges, rfl, ?_, ?_⟩
          · intro queue state
            rw [lastShown_snoc_none, shows.depths]
          · intro queue
            rw [lastShown_snoc_none, shows.sizes]
      | some db =>
          have plainLast := plain db (List.mem_append_right _ List.mem_cons_self)
          rcases tick_plain collation gauges plainLast with ⟨stats, counted, ticked⟩
          refine ⟨gauges.refresh stats, ticked, ?_, ?_⟩
          · intro queue state
            rw [lastShown_snoc_some, depth_refresh counted, shows.depths]
          · intro queue
            rw [lastShown_snoc_some, dlq_refresh counted, shows.sizes]

/-- A gauge shows the count of its group at the latest refresh that found a job
of the group, and the dead-letter gauge of a queue shows the number of its dead
jobs at the latest refresh that found any job of the queue.  So a gauge is exact
while there are such jobs, and keeps its last count, which is not 0, when they
are gone.  A query that fails changes nothing. -/
theorem gauges_show_the_last_jobs (collation : String -> String -> Bool)
    (answers : List (Option Database)) (plain : PlainAnswers answers) (queue : String) :
    let timer := answers.foldl (GaugeTimer.tick collation) ⟨⟨[]⟩, .empty⟩
    (forall state : JobState, timer.gauges.queueDepth.get (queue, state) =
      lastShown (fun rows => shownDepth rows queue state) answers) ∧
    timer.gauges.dlqSize.get queue = lastShown (fun rows => shownDlq rows queue) answers := by
  intro timer
  rcases show_run collation answers plain with ⟨gauges, ran, shows⟩
  have after : timer = ⟨⟨[]⟩, gauges⟩ := ran
  rw [after]
  exact ⟨shows.depths queue, shows.sizes queue⟩

/-- The queue is empty at the second refresh, and its gauge still shows a job. -/
theorem drained_queue_keeps_its_depth :
    PlainAnswers [some (finishedOnly "mail" true 0 0), some (Database.empty [] .empty)] ∧
      ([some (finishedOnly "mail" true 0 0), some (Database.empty [] .empty)].foldl
        (GaugeTimer.tick byName) ⟨⟨[]⟩, .empty⟩).gauges.queueDepth.get ("mail", .dead) = some 1 := by
  have plain : PlainAnswers [some (finishedOnly "mail" true 0 0), some (Database.empty [] .empty)] := by
    intro db member job listed
    rcases List.mem_cons.mp member with same | member
    · cases same
      rw [List.mem_singleton.mp listed]
      decide
    · cases List.mem_singleton.mp member
      cases listed
  exact ⟨plain, (gauges_show_the_last_jobs byName _ plain "mail").1 .dead⟩

end PgJobQ
