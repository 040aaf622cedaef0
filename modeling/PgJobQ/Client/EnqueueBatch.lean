import PgJobQ.Client.BuildRow
import PgJobQ.Library.Utf16
import PgJobQ.Statements.Effects

/-!
# Enqueueing a batch

`enqueueBatch` inserts all rows in one statement that drops conflicting rows in
silence, and then reconstructs which item became which row: from the
idempotency key where an item has one, from its position among the rows
without one otherwise.  The reconstruction is right when no row was dropped.
When one was, it is right only if every item finds its key held by a row of
the table, so that nothing was inserted at all.

A key leaves the client as UTF-8, in which a surrogate without its other half is
replaced by U+FFFD.  Such a key does not come back as it was given, and the row
that was inserted for it is not found by it.
-/

namespace PgJobQ

open UniqueRows

/-- What the database is sent of a text. -/
def storedText (text : Utf16.Text) : String := String.ofList (Utf16.toWellFormed text)

/-- The text of a string that the database returns. -/
def returnedText (stored : String) : Utf16.Text := Utf16.encode stored.toList

/-- The options hold the idempotency key as it is stored, `idempotencyKey` is the
one the caller gave. -/
structure BatchEnqueueItem where
  type : String
  payload : String
  options : EnqueueOptions
  idempotencyKey : Option Utf16.Text
  stored : options.idempotencyKey = idempotencyKey.map storedText
  deriving DecidableEq, Repr

theorem storedText_returnedText (stored : String) : storedText (returnedText stored) = stored := by
  unfold storedText returnedText
  rw [Utf16.toWellFormed_encode, String.ofList_toList]

theorem returnedText_injective {first second : String}
    (same : returnedText first = returnedText second) : first = second :=
  String.toList_injective (Utf16.encode_injective same)

theorem wellFormed_returnedText (stored : String) : Utf16.WellFormed (returnedText stored) :=
  Utf16.wellFormed_encode _

theorem returnedText_storedText {text : Utf16.Text} (wellFormed : Utf16.WellFormed text) :
    returnedText (storedText text) = text := by
  unfold storedText returnedText
  rw [String.toList_ofList, Utf16.encode_toWellFormed wellFormed]

/-- The key of the item comes back as it was given. -/
def BatchEnqueueItem.WellKeyed (item : BatchEnqueueItem) : Prop :=
  forall text, item.idempotencyKey = some text -> Utf16.WellFormed text

/-- An item whose key is a text of whole characters. -/
def BatchEnqueueItem.plain (type payload : String) (options : EnqueueOptions) :
    BatchEnqueueItem where
  type := type
  payload := payload
  options := options
  idempotencyKey := options.idempotencyKey.map returnedText
  stored := by
    rw [Option.map_map]
    cases options.idempotencyKey with
    | none => rfl
    | some key => exact congrArg some (storedText_returnedText key).symm

/-- Validate and build every row before the first statement is sent. -/
def buildRows (config : ClientConfig) (db : Database) (queue : String) :
    Nat -> List BatchEnqueueItem -> ClientState -> Except RowError (List EnqueueRow) × ClientState
  | _, [], state => (.ok [], state)
  | index, item :: items, state =>
      let invalid := fun error : RowError => RowError.validation
        ("Batch item " ++ toString index ++ " is invalid: " ++ error.message)
      match validateName item.type "type" with
      | .error error => (.error (invalid error), state)
      | .ok () =>
          match buildRow config db queue item.type item.payload item.options state with
          | (.error error, next) => (.error (invalid error), next)
          | (.ok row, next) =>
              match buildRows config db queue (index + 1) items next with
              | (.error error, last) => (.error error, last)
              | (.ok rows, last) => (.ok (row :: rows), last)

def indexRow (map : InsertionMap Utf16.Text Nat) (row : JobRow) : InsertionMap Utf16.Text Nat :=
  match row.idempotencyKey with
  | some key => map.set (returnedText key) row.id
  | none => map

/-- `byIdem`: the inserted rows by their idempotency key. -/
def byIdem (inserted : List JobRow) : InsertionMap Utf16.Text Nat :=
  inserted.foldl indexRow .empty

/-- `unkeyed`: the ids of the inserted rows without an idempotency key. -/
def unkeyedIds (inserted : List JobRow) : List Nat :=
  (inserted.filter (fun row => row.idempotencyKey.isNone)).map JobRow.id

/-- Map the inserted rows back to request order.  The built rows have the keys of
their items as they were given.  Each item without a key takes the next of the
unkeyed ids; beyond their end the id is missing. -/
def mapBack (db : Database) (queue : String) (keyed : InsertionMap Utf16.Text Nat) :
    List Nat -> List BatchEnqueueItem -> List EnqueueResult
  | _, [] => []
  | unkeyed, item :: items =>
      match item.idempotencyKey with
      | some key =>
          (match keyed.get key with
          | some id => ⟨some id, false⟩
          | none => ⟨(findByIdempotencyKey queue (storedText key) db).head?, true⟩) ::
            mapBack db queue keyed unkeyed items
      | none => ⟨unkeyed.head?, false⟩ :: mapBack db queue keyed unkeyed.tail items

def countEnqueued (queue : String) (items : List BatchEnqueueItem) (metrics : Metrics) : Metrics :=
  items.foldl (fun metrics item => metrics.incEnqueued queue item.type) metrics

/-- `Client.enqueueBatch`, with the lookups on the table its insert left. -/
def enqueueBatch (config : ClientConfig) (now : Timestamp) (queue : String)
    (items : List BatchEnqueueItem) (db : Database) (state : ClientState) :
    Except ClientError (List EnqueueResult) × Database × ClientState :=
  match validateName queue "queue" with
  | .error error => (.error (.row error), db, state)
  | .ok () =>
      if items.length = 0 then (.ok [], db, state)
      else if 1000 < items.length then
        (.error (.row (.validation ("Batch size " ++ toString items.length ++
          " exceeds the maximum of 1000"))), db, state)
      else
        match buildRows config db queue 0 items state with
        | (.error error, next) => (.error (.row error), db, next)
        | (.ok rows, next) =>
            match insertJobsBatch rows now db with
            | .error error => (.error (.database error), db, next)
            | .ok reply =>
                let out := mapBack reply.db queue (byIdem reply.rows) (unkeyedIds reply.rows) items
                let created := (out.filter (fun result => !result.deduplicated)).length
                (.ok out, reply.db,
                  if 0 < created then
                    { next with metrics := countEnqueued queue items next.metrics }
                  else next)

/-! ## What a faithful report is -/

/-- The row carries what its item asked for. -/
def BatchEnqueueItem.Carried (queue : String) (item : BatchEnqueueItem) (row : EnqueueRow) :
    Prop :=
  Carries queue item.type item.payload item.options row

/-- The result tells what became of one item: the id of the row inserted for
it, or the id of the row that holds its key. -/
def Reports (now : Timestamp) (db : Database) (row : EnqueueRow) (outcome : Option JobRow)
    (result : EnqueueResult) : Prop :=
  match outcome with
  | some inserted => result = ⟨some inserted.id, false⟩ ∧ inserted ∈ db.job.rows ∧
      inserted = row.toJobRow inserted.id now
  | none => result.deduplicated = true ∧ Exists fun holder : JobRow => holder ∈ db.job.rows ∧
      holder.queue = row.queue ∧ row.idempotencyKey ≠ none ∧
        holder.idempotencyKey = row.idempotencyKey ∧ result.id = some holder.id

/-- One result for each item, in order; results of insertions name different
rows; every id names a row; and the counter grew by the rows inserted. -/
structure FaithfulBatch (now : Timestamp) (after : Database) (rows : List EnqueueRow)
    (outcomes : List (Option JobRow)) (results : List EnqueueResult)
    (before later : Metrics) : Prop where
  length : results.length = rows.length
  items : List.Forall₂ (fun asked result => Reports now after asked.1 asked.2 result)
    (rows.zip outcomes) results
  distinct : ((results.filter (fun result => !result.deduplicated)).map (·.id)).Nodup
  named : forall result, result ∈ results -> Exists fun row : JobRow =>
    row ∈ after.job.rows ∧ result.id = some row.id
  counted : later.jobsEnqueued.length =
    before.jobsEnqueued.length + outcomes.reduceOption.length

def BatchEnqueueItem.keys (item : BatchEnqueueItem) : Keys :=
  (item.options.idempotencyKey, item.options.uniqueKey)

/-- No key is used twice in the batch, and none is taken in the table. -/
def NoKeyTaken (queue : String) (batch : List Keys) (db : Database) : Prop :=
  UniqueOn Prod.fst batch ∧ UniqueOn Prod.snd batch ∧
    forall keys, keys ∈ batch -> KeysFree queue keys db

/-- Every item has an idempotency key that a row of the queue holds. -/
def EveryKeyHeld (queue : String) (batch : List Keys) (db : Database) : Prop :=
  forall keys, keys ∈ batch -> keys.1 ≠ none ∧ Exists fun row : JobRow =>
    row ∈ db.job.rows ∧ row.queue = queue ∧ row.idempotencyKey = keys.1

/-! ## The insert -/

/-- The outcomes of an insert are aligned with its rows, and what was inserted
stands behind the rows that were there. -/
theorem insertRows_outcomes {now : Timestamp} {rows : List EnqueueRow} {db after : Database}
    {outcomes : List (Option JobRow)}
    (inserted : insertRows now rows db = .ok (after, outcomes)) :
    List.Forall₂ (fun row outcome => forall new : JobRow, outcome = some new ->
        new = row.toJobRow new.id now) rows outcomes ∧
      after.job.rows = db.job.rows ++ outcomes.reduceOption := by
  induction rows generalizing db after outcomes with
  | nil =>
      cases inserted
      exact ⟨.nil, (List.append_nil _).symm⟩
  | cons row rows inductionHypothesis =>
      rcases insertRows_cons inserted with ⟨next, outcome, tail, first, rest, rfl⟩
      have later := inductionHypothesis rest
      rcases (insertRow_ok first).2.2.2.2 with ⟨_, rfl, same⟩ | ⟨_, rfl, appended⟩
      · refine ⟨.cons (fun new impossible => by cases impossible) later.1, ?_⟩
        rw [later.2, same, List.reduceOption_cons_of_none]
      · refine ⟨.cons (fun new equal => by cases equal; rfl) later.1, ?_⟩
        rw [later.2, appended, List.reduceOption_cons_of_some, List.append_assoc,
          List.singleton_append]

/-! ## When everything is inserted -/

/-- A key is new to a batch when no item of it has the same. -/
theorem uniqueOn_cons_iff_ne (key : Keys -> Option String) (keys : Keys) (batch : List Keys) :
    UniqueOn key (keys :: batch) <->
      UniqueOn key batch ∧ forall other, other ∈ batch -> key other ≠ none -> key keys ≠ key other := by
  rw [uniqueOn_cons_iff, and_comm]
  apply and_congr_right
  intro _
  constructor
  · intro apart other member keyed same
    rcases Option.ne_none_iff_exists'.mp keyed with ⟨value, isValue⟩
    exact apart value (same.trans isValue) other member isValue
  · intro apart value isValue other member same
    exact apart other member (by rw [same]; exact Option.some_ne_none value)
      (isValue.trans same.symm)

theorem noKeyTaken_cons {queue : String} {now : Timestamp} {row : EnqueueRow} {batch : List Keys}
    {db next : Database} (sameQueue : row.queue = queue) {id : Nat}
    (appended : next.job.rows = db.job.rows ++ [row.toJobRow id now]) :
    NoKeyTaken queue (row.keys :: batch) db <->
      KeysFree queue row.keys db ∧ NoKeyTaken queue batch next := by
  have against : forall keys : Keys, KeysFree queue keys next <->
      KeysFree queue keys db ∧ (keys.1 ≠ none -> row.keys.1 ≠ keys.1) ∧
        (keys.2 ≠ none -> row.keys.2 ≠ keys.2) := by
    intro keys
    unfold KeysFree
    rw [appended]
    constructor
    · intro free
      have new := free (row.toJobRow id now)
        (List.mem_append_right _ (List.mem_singleton.mpr rfl)) sameQueue
      exact ⟨fun old member => free old (List.mem_append_left _ member),
        new.1, fun keyed => new.2 keyed rfl⟩
    · rintro ⟨free, idempotent, unique⟩ old member
      rcases List.mem_append.mp member with earlier | added
      · exact free old earlier
      · rw [List.mem_singleton.mp added]
        exact fun _ => ⟨idempotent, fun keyed _ => unique keyed⟩
  unfold NoKeyTaken
  rw [uniqueOn_cons_iff_ne, uniqueOn_cons_iff_ne]
  constructor
  · rintro ⟨⟨idempotent, newIdempotent⟩, ⟨unique, newUnique⟩, free⟩
    refine ⟨free row.keys List.mem_cons_self, idempotent, unique, ?_⟩
    intro keys member
    exact (against keys).mpr ⟨free keys (List.mem_cons_of_mem _ member),
      newIdempotent keys member, newUnique keys member⟩
  · rintro ⟨head, idempotent, unique, free⟩
    refine ⟨⟨idempotent, ?_⟩, ⟨unique, ?_⟩, ?_⟩
    · exact fun keys member => ((against keys).mp (free keys member)).2.1
    · exact fun keys member => ((against keys).mp (free keys member)).2.2
    · intro keys member
      rcases List.mem_cons.mp member with rfl | later
      · exact head
      · exact ((against keys).mp (free keys later)).1

/-- Every row of a batch is inserted exactly when no key is taken. -/
theorem all_inserted_iff {now : Timestamp} {queue : String} {rows : List EnqueueRow}
    {db after : Database} {outcomes : List (Option JobRow)}
    (sameQueue : forall row, row ∈ rows -> row.queue = queue)
    (inserted : insertRows now rows db = .ok (after, outcomes)) :
    (forall outcome, outcome ∈ outcomes -> outcome ≠ none) <->
      NoKeyTaken queue (rows.map EnqueueRow.keys) db := by
  induction rows generalizing db after outcomes with
  | nil =>
      cases inserted
      constructor
      · exact fun _ => ⟨List.nodup_nil, List.nodup_nil,
          fun keys member => absurd member List.not_mem_nil⟩
      · exact fun _ outcome member => absurd member List.not_mem_nil
  | cons row rows inductionHypothesis =>
      have headQueue := sameQueue row List.mem_cons_self
      have tailQueue := fun other member => sameQueue other (List.mem_cons_of_mem row member)
      rcases insertRows_cons inserted with ⟨next, outcome, tail, first, rest, rfl⟩
      rcases (insertRow_ok first).2.2.2.2 with ⟨conflict, rfl, _⟩ | ⟨clear, rfl, appended⟩
      · constructor
        · intro all
          exact absurd rfl (all none List.mem_cons_self)
        · intro free
          have taken := conflicts_iff.mp conflict
          rw [headQueue] at taken
          exact absurd (free.2.2 row.keys List.mem_cons_self) taken
      · have later := inductionHypothesis tailQueue rest
        have free : KeysFree queue row.keys db := by
          rw [← headQueue]
          exact not_not.mp (fun taken => by rw [conflicts_iff.mpr taken] at clear; cases clear)
        rw [List.map_cons, noKeyTaken_cons headQueue appended, ← later]
        constructor
        · exact fun all => ⟨free, fun outcome member => all outcome (List.mem_cons_of_mem _ member)⟩
        · rintro ⟨_, all⟩ outcome member
          rcases List.mem_cons.mp member with rfl | tailMem
          · exact Option.some_ne_none _
          · exact all outcome tailMem

/-- Nothing is inserted when every key is held. -/
theorem none_inserted {now : Timestamp} {queue : String} {rows : List EnqueueRow}
    {db after : Database} {outcomes : List (Option JobRow)}
    (sameQueue : forall row, row ∈ rows -> row.queue = queue)
    (held : EveryKeyHeld queue (rows.map EnqueueRow.keys) db)
    (inserted : insertRows now rows db = .ok (after, outcomes)) :
    outcomes.reduceOption = [] := by
  induction rows generalizing db after outcomes with
  | nil =>
      cases inserted
      rfl
  | cons row rows inductionHypothesis =>
      have headQueue := sameQueue row List.mem_cons_self
      rcases insertRows_cons inserted with ⟨next, outcome, tail, first, rest, rfl⟩
      rcases held row.keys List.mem_cons_self with ⟨keyed, holder, member, holderQueue, same⟩
      rcases (insertRow_ok first).2.2.2.2 with ⟨_, rfl, sameJob⟩ | ⟨clear, _, _⟩
      · rw [List.reduceOption_cons_of_none]
        refine inductionHypothesis
          (fun other otherMem => sameQueue other (List.mem_cons_of_mem row otherMem)) ?_ rest
        intro keys keysMem
        rw [sameJob]
        exact held keys (List.mem_cons_of_mem _ keysMem)
      · have conflict : conflicts db.job.rows (row.toJobRow db.nextId now) = true := by
          apply conflicts_iff.mpr
          intro free
          exact (free holder member (holderQueue.trans headQueue.symm)).1 keyed same
        rw [clear] at conflict
        cases conflict

/-! ## Mapping back -/

theorem get_foldl_of_absent {inserted : List JobRow} {text : Utf16.Text}
    (absent : forall row key, row ∈ inserted -> row.idempotencyKey = some key ->
      returnedText key ≠ text) (map : InsertionMap Utf16.Text Nat) :
    (inserted.foldl indexRow map).get text = map.get text := by
  induction inserted generalizing map with
  | nil => rfl
  | cons row rows inductionHypothesis =>
      rw [List.foldl_cons,
        inductionHypothesis
          (fun other key member => absent other key (List.mem_cons_of_mem row member))]
      unfold indexRow
      split
      · rename_i other keyed
        rw [InsertionMap.get_set, if_neg]
        exact Ne.symm (absent row other List.mem_cons_self keyed)
      · rfl

/-- Distinct keys are found again. -/
theorem get_byIdem {inserted : List JobRow} (distinct : UniqueOn JobRow.idempotencyKey inserted)
    {row : JobRow} {key : String} (member : row ∈ inserted)
    (keyed : row.idempotencyKey = some key) :
    (byIdem inserted).get (returnedText key) = some row.id := by
  unfold byIdem
  generalize InsertionMap.empty = map
  induction inserted generalizing map with
  | nil => cases member
  | cons first rest inductionHypothesis =>
      have parts := (uniqueOn_cons_iff _ first rest).mp distinct
      rw [List.foldl_cons]
      rcases List.mem_cons.mp member with rfl | later
      · rw [get_foldl_of_absent]
        · simp only [indexRow, keyed, InsertionMap.get_set, if_true]
        · intro other otherKey otherMem otherKeyed same
          rw [returnedText_injective same] at otherKeyed
          exact parts.1 key keyed other otherMem otherKeyed
      · exact inductionHypothesis parts.2 later _

/-- No key is found that would not come back as it was given. -/
theorem wellFormed_of_get {inserted : List JobRow} {text : Utf16.Text} {id : Nat}
    (found : (byIdem inserted).get text = some id) : Utf16.WellFormed text := by
  by_contra illFormed
  unfold byIdem at found
  rw [get_foldl_of_absent] at found
  · cases found
  · rintro row key _ _ rfl
    exact illFormed (wellFormed_returnedText key)

theorem mapBack_wellKeyed (db : Database) (queue : String) (inserted : List JobRow)
    (unkeyed : List Nat) (items : List BatchEnqueueItem) :
    List.Forall₂ (fun item result : _ => EnqueueResult.deduplicated result = false ->
      BatchEnqueueItem.WellKeyed item) items
      (mapBack db queue (byIdem inserted) unkeyed items) := by
  induction items generalizing unkeyed with
  | nil => exact .nil
  | cons item items inductionHypothesis =>
      unfold mapBack
      cases given : item.idempotencyKey with
      | none =>
          refine .cons (fun _ text impossible => ?_) (inductionHypothesis _)
          rw [given] at impossible
          cases impossible
      | some key =>
          refine .cons (fun created text same => ?_) (inductionHypothesis _)
          rw [given] at same
          cases same
          split at created
          · rename_i id found
            exact wellFormed_of_get found
          · cases created

/-- When every row was inserted, keys and positions both lead back. -/
theorem mapBack_all {db : Database} {queue : String} {keyed : InsertionMap Utf16.Text Nat}
    {items : List BatchEnqueueItem} {inserted : List JobRow}
    (aligned : List.Forall₂
      (fun item new : _ => new.idempotencyKey = item.options.idempotencyKey) items inserted)
    (wellKeyed : forall item, item ∈ items -> item.WellKeyed)
    (found : forall new key, new ∈ inserted -> new.idempotencyKey = some key ->
      keyed.get (returnedText key) = some new.id) :
    mapBack db queue keyed (unkeyedIds inserted) items =
      inserted.map (fun new => ⟨some new.id, false⟩) := by
  induction aligned with
  | nil => rfl
  | @cons item new items inserted same aligned inductionHypothesis =>
      have tail := inductionHypothesis
        (fun other member => wellKeyed other (List.mem_cons_of_mem item member))
        (fun other key member => found other key (List.mem_cons_of_mem new member))
      rw [item.stored] at same
      unfold mapBack
      cases given : item.idempotencyKey with
      | some text =>
          rw [given, Option.map_some] at same
          have skipped : unkeyedIds (new :: inserted) = unkeyedIds inserted := by
            simp [unkeyedIds, same]
          have found := found new (storedText text) List.mem_cons_self same
          rw [returnedText_storedText (wellKeyed item List.mem_cons_self text given)] at found
          simp only [found, skipped, tail, List.map_cons]
      | none =>
          rw [given, Option.map_none] at same
          have taken : unkeyedIds (new :: inserted) = new.id :: unkeyedIds inserted := by
            simp [unkeyedIds, same]
          simp only [taken, List.head?_cons, List.tail_cons, tail, List.map_cons]

/-- When nothing was inserted and every key is held, each lookup succeeds. -/
theorem mapBack_held {now : Timestamp} {db : Database} {queue : String}
    {items : List BatchEnqueueItem} {rows : List EnqueueRow} (unkeyed : List Nat)
    (carries : List.Forall₂ (BatchEnqueueItem.Carried queue) items rows)
    (held : EveryKeyHeld queue (rows.map EnqueueRow.keys) db) :
    List.Forall₂ (fun row result => Reports now db row none result) rows
      (mapBack db queue (byIdem []) unkeyed items) := by
  induction carries with
  | nil => exact .nil
  | @cons item row items rows carried carries inductionHypothesis =>
      have tail := inductionHypothesis (fun keys member => held keys (List.mem_cons_of_mem _ member))
      rcases held row.keys List.mem_cons_self with ⟨keyed, holder, member, holderQueue, same⟩
      rcases Option.ne_none_iff_exists'.mp keyed with ⟨key, isKey⟩
      have rowKey : row.idempotencyKey = some key := isKey
      have stored := carried.idempotencyKey.symm.trans rowKey
      rw [item.stored] at stored
      rcases Option.map_eq_some_iff.mp stored with ⟨text, given, rfl⟩
      unfold mapBack
      simp only [given]
      refine .cons ⟨rfl, holder, member, holderQueue.trans carried.queue.symm, keyed, same, ?_⟩ tail
      exact findByIdempotencyKey_head member holderQueue (same.trans isKey)

/-! ## The report of a batch -/

theorem buildRows_ok {config : ClientConfig} {db : Database} {queue : String} {index : Nat}
    {items : List BatchEnqueueItem} {state next : ClientState} {rows : List EnqueueRow}
    (built : buildRows config db queue index items state = (.ok rows, next)) :
    List.Forall₂ (BatchEnqueueItem.Carried queue) items rows ∧ next.metrics = state.metrics := by
  induction items generalizing index state next rows with
  | nil =>
      cases built
      exact ⟨.nil, rfl⟩
  | cons item items inductionHypothesis =>
      unfold buildRows at built
      dsimp only at built
      split at built
      · cases built
      · split at built
        · cases built
        · rename_i row between first
          split at built
          · cases built
          · rename_i tail last rest
            cases built
            have later := inductionHypothesis rest
            have head := buildRow_ok first
            exact ⟨.cons head.1 later.1, later.2.trans head.2⟩

theorem length_countEnqueued (queue : String) (items : List BatchEnqueueItem)
    (metrics : Metrics) : (countEnqueued queue items metrics).jobsEnqueued.length =
      metrics.jobsEnqueued.length + items.length := by
  unfold countEnqueued
  induction items generalizing metrics with
  | nil => rfl
  | cons item items inductionHypothesis =>
      rw [List.foldl_cons, inductionHypothesis, Metrics.length_incEnqueued, List.length_cons]
      omega

/-- What a batch that returned normally did. -/
structure BatchRun (queue : String) (now : Timestamp) (items : List BatchEnqueueItem)
    (db after : Database) (rows : List EnqueueRow) (outcomes : List (Option JobRow))
    (results : List EnqueueResult) (before later : Metrics) : Prop where
  carries : List.Forall₂ (BatchEnqueueItem.Carried queue) items rows
  inserted : insertRows now rows db = .ok (after, outcomes)
  mapped : results = mapBack after queue (byIdem outcomes.reduceOption)
    (unkeyedIds outcomes.reduceOption) items
  counted : later.jobsEnqueued.length = before.jobsEnqueued.length +
    if 0 < (results.filter (fun result => !result.deduplicated)).length then items.length else 0

theorem enqueueBatch_run {config : ClientConfig} {now : Timestamp} {queue : String}
    {items : List BatchEnqueueItem} {db after : Database} {state next : ClientState}
    {results : List EnqueueResult}
    (returned : enqueueBatch config now queue items db state = (.ok results, after, next)) :
    Exists fun rows : List EnqueueRow => Exists fun outcomes : List (Option JobRow) =>
      BatchRun queue now items db after rows outcomes results state.metrics next.metrics := by
  unfold enqueueBatch at returned
  split at returned
  · cases returned
  · split at returned
    · rename_i empty
      cases returned
      rw [List.length_eq_zero_iff.mp empty]
      exact ⟨[], [], .nil, rfl, rfl, rfl⟩
    · split at returned
      · cases returned
      · split at returned
        · cases returned
        · rename_i rows between built
          split at returned
          · cases returned
          · rename_i reply committed
            have start := buildRows_ok built
            rcases insertJobsBatch_ok committed with ⟨outcomes, inserted, listed⟩
            cases returned
            refine ⟨rows, outcomes, start.1, inserted, by rw [listed], ?_⟩
            rw [← start.2]
            split
            · exact length_countEnqueued queue items _
            · rfl

theorem exists_map_some {outcomes : List (Option JobRow)}
    (all : forall outcome, outcome ∈ outcomes -> outcome ≠ none) :
    Exists fun news : List JobRow => news.map some = outcomes := by
  induction outcomes with
  | nil => exact ⟨[], rfl⟩
  | cons outcome outcomes inductionHypothesis =>
      rcases inductionHypothesis (fun other member => all other (List.mem_cons_of_mem _ member))
        with ⟨news, rfl⟩
      rcases Option.ne_none_iff_exists'.mp (all outcome List.mem_cons_self) with ⟨new, rfl⟩
      exact ⟨new :: news, rfl⟩

theorem reduceOption_map_some (news : List JobRow) : (news.map some).reduceOption = news := by
  simp [List.reduceOption]

/-- Rows and the jobs made of them have the same idempotency keys. -/
theorem filterMap_of_aligned {now : Timestamp} {rows : List EnqueueRow} {news : List JobRow}
    (aligned : List.Forall₂ (fun row new => new = row.toJobRow new.id now) rows news) :
    news.filterMap JobRow.idempotencyKey = rows.filterMap EnqueueRow.idempotencyKey := by
  induction aligned with
  | nil => rfl
  | @cons row new rows news same tail inductionHypothesis =>
      have sameKey : new.idempotencyKey = row.idempotencyKey := by rw [same]; rfl
      rw [List.filterMap_cons, List.filterMap_cons, sameKey, inductionHypothesis]

theorem reports_of_aligned {now : Timestamp} {db : Database} {rows : List EnqueueRow}
    {news : List JobRow}
    (aligned : List.Forall₂ (fun row new => new = row.toJobRow new.id now) rows news)
    (present : forall new, new ∈ news -> new ∈ db.job.rows) :
    List.Forall₂ (fun asked result => Reports now db asked.1 asked.2 result)
      (rows.zip (news.map some)) (news.map (fun new => ⟨some new.id, false⟩)) := by
  induction aligned with
  | nil => exact .nil
  | cons same tail inductionHypothesis =>
      exact .cons ⟨rfl, present _ List.mem_cons_self, same⟩
        (inductionHypothesis (fun new member => present new (List.mem_cons_of_mem _ member)))

/-- All results of insertions count as created. -/
theorem filter_inserted (news : List JobRow) :
    (news.map (fun new => (⟨some new.id, false⟩ : EnqueueResult))).filter
      (fun result => !result.deduplicated) = news.map (fun new => ⟨some new.id, false⟩) := by
  simp

/-- Results of lookups do not. -/
theorem filter_deduplicated {results : List EnqueueResult}
    (all : forall result, result ∈ results -> result.deduplicated = true) :
    results.filter (fun result => !result.deduplicated) = [] := by
  apply List.filter_eq_nil_iff.mpr
  intro result member
  simp [all result member]

theorem none_of_reduceOption {outcomes : List (Option JobRow)}
    (nothing : outcomes.reduceOption = []) :
    forall outcome, outcome ∈ outcomes -> outcome = none := by
  intro outcome member
  cases outcome with
  | none => rfl
  | some new =>
      have listed := List.reduceOption_mem_iff.mpr member
      rw [nothing] at listed
      cases listed

theorem lookups_found {now : Timestamp} {db : Database} {rows : List EnqueueRow}
    {results : List EnqueueResult}
    (lookups : List.Forall₂ (fun row result => Reports now db row none result) rows results) :
    forall result, result ∈ results -> result.deduplicated = true ∧
      Exists fun row : JobRow => row ∈ db.job.rows ∧ result.id = some row.id := by
  induction lookups with
  | nil => exact fun result member => absurd member List.not_mem_nil
  | cons reports tail inductionHypothesis =>
      intro result member
      rcases List.mem_cons.mp member with rfl | later
      · rcases reports with ⟨deduplicated, holder, holderMem, _, _, _, sameId⟩
        exact ⟨deduplicated, holder, holderMem, sameId⟩
      · exact inductionHypothesis result later

theorem reports_of_lookups {now : Timestamp} {db : Database} {rows : List EnqueueRow}
    {results : List EnqueueResult} {outcomes : List (Option JobRow)}
    (lookups : List.Forall₂ (fun row result => Reports now db row none result) rows results)
    (sameLength : rows.length = outcomes.length)
    (noOutcome : forall outcome, outcome ∈ outcomes -> outcome = none) :
    List.Forall₂ (fun asked result => Reports now db asked.1 asked.2 result)
      (rows.zip outcomes) results := by
  induction lookups generalizing outcomes with
  | nil => exact .nil
  | cons reports tail inductionHypothesis =>
      cases outcomes with
      | nil => cases sameLength
      | cons outcome outcomes =>
          have isNone := noOutcome outcome List.mem_cons_self
          subst isNone
          exact .cons reports (inductionHypothesis (Nat.succ.inj sameLength)
            (fun other member => noOutcome other (List.mem_cons_of_mem _ member)))

theorem holder_of_reports {now : Timestamp} {db : Database} {rows : List EnqueueRow}
    {results : List EnqueueResult} {outcomes : List (Option JobRow)}
    (items : List.Forall₂ (fun asked result => Reports now db asked.1 asked.2 result)
      (rows.zip outcomes) results) (sameLength : rows.length = outcomes.length)
    (noOutcome : forall outcome, outcome ∈ outcomes -> outcome = none) {row : EnqueueRow}
    (member : row ∈ rows) : Exists fun holder : JobRow => holder ∈ db.job.rows ∧
      holder.queue = row.queue ∧ row.idempotencyKey ≠ none ∧
        holder.idempotencyKey = row.idempotencyKey := by
  induction rows generalizing outcomes results with
  | nil => cases member
  | cons first rows inductionHypothesis =>
      cases outcomes with
      | nil => cases sameLength
      | cons outcome outcomes =>
          have isNone := noOutcome outcome List.mem_cons_self
          subst isNone
          rw [List.zip_cons_cons] at items
          cases items with
          | cons reports tail =>
              rcases List.mem_cons.mp member with rfl | later
              · rcases reports with ⟨_, holder, holderMem, sameQueue, keyed, same, _⟩
                exact ⟨holder, holderMem, sameQueue, keyed, same⟩
              · exact inductionHypothesis tail (Nat.succ.inj sameLength)
                  (fun other otherMem => noOutcome other (List.mem_cons_of_mem _ otherMem)) later

theorem created_of_reports {now : Timestamp} {db : Database} {rows : List EnqueueRow}
    {results : List EnqueueResult} {outcomes : List (Option JobRow)}
    (items : List.Forall₂ (fun asked result => Reports now db asked.1 asked.2 result)
      (rows.zip outcomes) results) (sameLength : rows.length = outcomes.length)
    (all : forall outcome, outcome ∈ outcomes -> outcome ≠ none) :
    forall result, result ∈ results -> result.deduplicated = false := by
  induction rows generalizing outcomes results with
  | nil =>
      cases items
      exact fun result member => absurd member List.not_mem_nil
  | cons first rows inductionHypothesis =>
      cases outcomes with
      | nil => cases sameLength
      | cons outcome outcomes =>
          rcases Option.ne_none_iff_exists'.mp (all outcome List.mem_cons_self) with ⟨new, rfl⟩
          rw [List.zip_cons_cons] at items
          cases items with
          | cons reports tail =>
              intro result member
              rcases List.mem_cons.mp member with rfl | later
              · rw [reports.1]
              · exact inductionHypothesis tail (Nat.succ.inj sameLength)
                  (fun other listed => all other (List.mem_cons_of_mem _ listed)) result later

namespace BatchRun

variable {queue : String} {now : Timestamp} {items : List BatchEnqueueItem}
  {db after : Database} {rows : List EnqueueRow} {outcomes : List (Option JobRow)}
  {results : List EnqueueResult} {before later : Metrics}

theorem sameKeys (batch : BatchRun queue now items db after rows outcomes results before later) :
    rows.map EnqueueRow.keys = items.map BatchEnqueueItem.keys := by
  have carries := batch.carries
  clear batch
  induction carries with
  | nil => rfl
  | cons head tail inductionHypothesis =>
      rw [List.map_cons, List.map_cons, inductionHypothesis, EnqueueRow.keys,
        BatchEnqueueItem.keys, head.idempotencyKey, head.uniqueKey]

theorem sameQueue (batch : BatchRun queue now items db after rows outcomes results before later) :
    forall row, row ∈ rows -> row.queue = queue := by
  have carries := batch.carries
  clear batch
  induction carries with
  | nil => exact fun row member => absurd member List.not_mem_nil
  | cons head tail inductionHypothesis =>
      intro row member
      rcases List.mem_cons.mp member with rfl | later
      · exact head.queue
      · exact inductionHypothesis row later

/-- Items and the jobs made of their rows have the same idempotency keys. -/
theorem aligned_items {news : List JobRow}
    (carries : List.Forall₂ (BatchEnqueueItem.Carried queue) items rows)
    (aligned : List.Forall₂ (fun row new => new = row.toJobRow new.id now) rows news) :
    List.Forall₂ (fun item new : _ => JobRow.idempotencyKey new =
      (BatchEnqueueItem.options item).idempotencyKey) items news := by
  induction carries generalizing news with
  | nil =>
      cases aligned
      exact .nil
  | cons carried carries inductionHypothesis =>
      cases aligned with
      | cons same tail =>
          refine .cons ?_ (inductionHypothesis tail)
          rw [same]
          exact carried.idempotencyKey

/-- A batch with no key taken inserted every row, and reports each of them. -/
theorem faithful_of_free
    (batch : BatchRun queue now items db after rows outcomes results before later)
    (free : NoKeyTaken queue (items.map BatchEnqueueItem.keys) db)
    (wellKeyed : forall item, item ∈ items -> item.WellKeyed) :
    FaithfulBatch now after rows outcomes results before later := by
  rw [← batch.sameKeys] at free
  rcases exists_map_some ((all_inserted_iff batch.sameQueue batch.inserted).mpr free)
    with ⟨news, rfl⟩
  have outcome := insertRows_outcomes batch.inserted
  have mapped := batch.mapped
  have counted := batch.counted
  have sameLength := batch.carries.length_eq
  rw [reduceOption_map_some] at outcome mapped
  have aligned : List.Forall₂ (fun row new => new = row.toJobRow new.id now) rows news :=
    (List.forall₂_map_right_iff.mp outcome.1).imp (fun row new isRow => isRow new rfl)
  have present : forall new, new ∈ news -> new ∈ after.job.rows := by
    intro new member
    rw [outcome.2]
    exact List.mem_append_right _ member
  have distinctKeys : UniqueOn JobRow.idempotencyKey news := by
    have unique := free.1
    unfold UniqueOn at unique ⊢
    rw [List.filterMap_map] at unique
    rw [filterMap_of_aligned aligned]
    exact unique
  have isMap : results = news.map (fun new => ⟨some new.id, false⟩) := by
    rw [mapped]
    apply mapBack_all
    · exact aligned_items batch.carries aligned
    · exact wellKeyed
    · exact fun new key member keyed => get_byIdem distinctKeys member keyed
  subst isMap
  refine ⟨?_, ?_, ?_, ?_, ?_⟩
  · rw [List.length_map]
    exact aligned.length_eq.symm
  · exact reports_of_aligned aligned present
  · have ids : (news.map JobRow.id).Nodup := by
      refine List.Nodup.sublist (List.Sublist.map _ ?_) after.job.nodup_ids
      rw [outcome.2]
      exact List.sublist_append_right _ _
    rw [filter_inserted, List.map_map]
    have named := ids.map (Option.some_injective Nat)
    rwa [List.map_map] at named
  · intro result member
    rcases List.mem_map.mp member with ⟨new, isNew, rfl⟩
    exact ⟨new, present new isNew, rfl⟩
  · rw [counted, filter_inserted, List.length_map, reduceOption_map_some, sameLength,
      aligned.length_eq]
    split
    · rfl
    · omega

/-- A batch with every key held inserted nothing, and reports the holders. -/
theorem faithful_of_held
    (batch : BatchRun queue now items db after rows outcomes results before later)
    (held : EveryKeyHeld queue (items.map BatchEnqueueItem.keys) db) :
    FaithfulBatch now after rows outcomes results before later := by
  rw [← batch.sameKeys] at held
  have nothing := none_inserted batch.sameQueue held batch.inserted
  have outcome := insertRows_outcomes batch.inserted
  have mapped := batch.mapped
  have counted := batch.counted
  rw [nothing, List.append_nil] at outcome
  rw [nothing] at mapped
  have stillHeld : EveryKeyHeld queue (rows.map EnqueueRow.keys) after := by
    intro keys member
    rw [outcome.2]
    exact held keys member
  have noOutcome := none_of_reduceOption nothing
  have lookups := @mapBack_held now _ _ _ _ (unkeyedIds []) batch.carries stillHeld
  rw [← mapped] at lookups
  have looked := lookups_found lookups
  have noneCreated := filter_deduplicated (fun result member => (looked result member).1)
  refine ⟨lookups.length_eq.symm, ?_, ?_, fun result member => (looked result member).2, ?_⟩
  · exact reports_of_lookups lookups outcome.1.length_eq noOutcome
  · rw [noneCreated]
    exact List.nodup_nil
  · rw [counted, noneCreated, nothing]
    rfl

/-- A batch that reports every item as inserted found every key. -/
theorem wellKeyed_of_created
    (batch : BatchRun queue now items db after rows outcomes results before later)
    (created : forall result, result ∈ results -> result.deduplicated = false) :
    forall item, item ∈ items -> item.WellKeyed := by
  have found := mapBack_wellKeyed after queue outcomes.reduceOption
    (unkeyedIds outcomes.reduceOption) items
  rw [← batch.mapped] at found
  clear batch
  induction found with
  | nil => exact fun item member => absurd member List.not_mem_nil
  | cons head tail inductionHypothesis =>
      intro item member
      rcases List.mem_cons.mp member with rfl | later
      · exact head (created _ List.mem_cons_self)
      · exact inductionHypothesis
          (fun result listed => created result (List.mem_cons_of_mem _ listed)) item later

/-- A faithful report of a batch leaves only these two cases: the counter goes
up by all items or by none, so all rows were inserted or none was. -/
theorem free_or_held
    (batch : BatchRun queue now items db after rows outcomes results before later)
    (faithful : FaithfulBatch now after rows outcomes results before later) :
    (NoKeyTaken queue (items.map BatchEnqueueItem.keys) db ∧
        forall item, item ∈ items -> item.WellKeyed) ∨
      EveryKeyHeld queue (items.map BatchEnqueueItem.keys) db := by
  have outcome := insertRows_outcomes batch.inserted
  have counted := batch.counted.symm.trans faithful.counted
  have sameLength := batch.carries.length_eq.trans outcome.1.length_eq
  rw [← batch.sameKeys]
  split at counted
  · have full : outcomes.reduceOption.length = outcomes.length := by omega
    have all : forall outcome, outcome ∈ outcomes -> outcome ≠ none := fun outcome member =>
      Option.isSome_iff_ne_none.mp (List.reduceOption_length_eq_iff.mp full outcome member)
    have created := created_of_reports faithful.items outcome.1.length_eq all
    exact Or.inl ⟨(all_inserted_iff batch.sameQueue batch.inserted).mp all,
      batch.wellKeyed_of_created created⟩
  · refine Or.inr ?_
    have nothing : outcomes.reduceOption = [] := List.length_eq_zero_iff.mp (by omega)
    have noOutcome := none_of_reduceOption nothing
    rw [nothing, List.append_nil] at outcome
    intro keys member
    rcases List.mem_map.mp member with ⟨row, isRow, rfl⟩
    rcases holder_of_reports faithful.items outcome.1.length_eq noOutcome isRow
      with ⟨holder, holderMem, holderQueue, keyed, same⟩
    rw [outcome.2] at holderMem
    exact ⟨keyed, holder, holderMem, holderQueue.trans (batch.sameQueue row isRow), same⟩

end BatchRun

def plainOptions (idempotencyKey uniqueKey : Option String) : EnqueueOptions :=
  ⟨none, none, none, none, none, idempotencyKey, uniqueKey, none, none⟩

def plainClient : ClientConfig := ⟨.standard, fun _ => 0⟩

def newClient : ClientState := ⟨.empty, ⟨[], 100, []⟩, 0⟩

/-- A table with a job that holds a key. -/
def keyedTable : Database :=
  (enqueueBatch plainClient 0 "mail" [.plain "send" "{}" (plainOptions (some "k") none)]
    (.empty [] .empty) newClient).2.1

/-- A surrogate without its other half, which is stored as U+FFFD. -/
def halfKeyed : BatchEnqueueItem where
  type := "send"
  payload := "{}"
  options := plainOptions (some "\uFFFD") none
  idempotencyKey := some [0xD800]
  stored := by decide

/-- A key that is held, new keys, one of them twice, no keys, and half a
character. -/
def mixedItems : List BatchEnqueueItem :=
  [.plain "send" "{}" (plainOptions (some "k") none),
    .plain "send" "{}" (plainOptions (some "new") (some "u")),
    .plain "send" "{}" (plainOptions none none),
    .plain "send" "{}" (plainOptions (some "new") none), halfKeyed,
    .plain "send" "{}" (plainOptions none (some "u"))]

def mixedBatch : Except ClientError (List EnqueueResult) × Database × ClientState :=
  enqueueBatch plainClient 0 "mail" mixedItems keyedTable newClient

/-- A batch of two meets a job that holds the unique key of its first item.
The first item is dropped and the second one inserted. -/
def droppedBatch : Except ClientError (List EnqueueResult) × Database × ClientState :=
  let first := enqueueBatch plainClient 0 "mail" [.plain "a" "{}" (plainOptions none (some "u"))]
    (.empty [] .empty) newClient
  enqueueBatch plainClient 0 "mail" [.plain "b" "{}" (plainOptions none (some "u")),
    .plain "c" "{}" (plainOptions none none)] first.2.1 first.2.2

end PgJobQ
