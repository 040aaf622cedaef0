import PgJobQ.Scheduler.Defaults
import PgJobQ.Server.WriteRoutes
import PgJobQ.Statements.ErrorTimes

/-!
# What a client reads its clock for

`Client.enqueue` and `enqueueBatch` read the clock of their process on two
occasions: to tell whether the defaults they have cached for a queue are
fresh, and to turn `delaySeconds` into a time.  The first reading matters where
the cache says something other than `queue_config`.  The second matters where
the row gets past the unique indexes: it is then inserted with that time, or
the trigger decides by it whether to announce the row.
-/

namespace PgJobQ

/-! ## Inserting rows that are alike -/

/-- A row that is asked for, and whether its `run_at` is left to the clock of
the client.  The `runAt` given here is then of no account. -/
structure AskedRow where
  row : EnqueueRow
  timed : Bool

/-- The row is built as asked for. -/
structure AskedRow.Fits (asked : AskedRow) (built : EnqueueRow) : Prop where
  columns : built = { asked.row with runAt := built.runAt }
  given : asked.timed = false -> built = asked.row

/-- The row passes the checks, and no key of it is taken. -/
def Unhindered (now : Timestamp) (db : Database) (row : EnqueueRow) : Prop :=
  (row.toJobRow db.nextId now).Checked ∧
    conflicts db.job.rows (row.toJobRow db.nextId now) = false

/-- When the rows are inserted one after the other, one that is left to the clock
is neither refused nor dropped by the table. -/
def TimeMatters (now : Timestamp) : List AskedRow -> Database -> Prop
  | [], _ => False
  | asked :: rest, db =>
      (asked.timed = true ∧ Unhindered now db asked.row) ∨
        match insertRow now asked.row db with
        | .ok (next, _) => TimeMatters now rest next
        | .error _ => False

/-- Both inserts are refused, or they leave databases that are alike. -/
def InsertedAlike {Outcome : Type} :
    Except DbError (Database × Outcome) -> Except DbError (Database × Outcome) -> Prop
  | .ok first, .ok second => first.1.Alike second.1
  | .error _, .error _ => True
  | _, _ => False

theorem insertRow_unchecked {now : Timestamp} {row : EnqueueRow} {db : Database}
    (unchecked : Not (row.toJobRow db.nextId now).Checked) :
    Exists fun error : DbError => insertRow now row db = .error error := by
  unfold insertRow
  dsimp only
  split
  · exact ⟨_, rfl⟩
  · rename_i passed
    exact absurd passed unchecked

/-- A row whose keys are taken is dropped. -/
theorem insertRow_taken {now : Timestamp} {row : EnqueueRow} {db : Database}
    (checked : (row.toJobRow db.nextId now).Checked)
    (taken : conflicts db.job.rows (row.toJobRow db.nextId now) = true) :
    Exists fun next : Database => insertRow now row db = .ok (next, none) ∧
      next.job = db.job ∧ next.nextId = db.nextId + 1 ∧ next.queueConfig = db.queueConfig := by
  cases inserted : insertRow now row db with
  | error error =>
      have free := ((insertRow_refused_iff checked).mp ⟨error, inserted⟩).1
      rw [taken] at free
      cases free
  | ok done =>
      rcases insertRow_ok inserted with ⟨isNext, _, _, config, ⟨_, dropped, same⟩ | ⟨free, _⟩⟩
      · exact ⟨done.1, by rw [← dropped], same, isNext, config⟩
      · rw [taken] at free
        cases free

/-- A row is inserted into tables that are alike. -/
theorem insertRow_alike {db other : Database} (alike : db.Alike other) (now : Timestamp)
    (row : EnqueueRow) : InsertedAlike (insertRow now row db) (insertRow now row other) := by
  have same : row.toJobRow other.nextId now = row.toJobRow db.nextId now := by rw [alike.nextId]
  have clash := alike.conflicts (row.toJobRow db.nextId now)
  by_cases checked : (row.toJobRow db.nextId now).Checked
  · have refused : (Exists fun error : DbError => insertRow now row db = .error error) <->
        Exists fun error : DbError => insertRow now row other = .error error := by
      rw [insertRow_refused_iff checked, insertRow_refused_iff (same ▸ checked), same, clash]
    cases first : insertRow now row db with
    | error error =>
        rcases refused.mp ⟨error, first⟩ with ⟨reason, second⟩
        rw [second]
        exact trivial
    | ok done =>
        cases second : insertRow now row other with
        | error error =>
            rcases refused.mpr ⟨error, second⟩ with ⟨reason, impossible⟩
            cases first.symm.trans impossible
        | ok answer =>
            rcases insertRow_ok first with ⟨firstId, _, _, firstConfig, firstRows⟩
            rcases insertRow_ok second with ⟨secondId, _, _, secondConfig, secondRows⟩
            rw [same, ← clash] at secondRows
            refine ⟨?_, by rw [firstId, secondId, alike.nextId],
              by rw [firstConfig, secondConfig, alike.queueConfig]⟩
            rcases firstRows with ⟨taken, _, firstSame⟩ | ⟨free, _, firstNew⟩
            · rcases secondRows with ⟨_, _, secondSame⟩ | ⟨free, _, _⟩
              · rw [firstSame, secondSame]
                exact alike.rows
              · rw [taken] at free
                cases free
            · rcases secondRows with ⟨taken, _, _⟩ | ⟨_, _, secondNew⟩
              · rw [taken] at free
                cases free
              · rw [firstNew, secondNew, List.map_append, List.map_append, alike.rows]
  · rcases insertRow_unchecked checked with ⟨reason, first⟩
    rcases @insertRow_unchecked now row other (same ▸ checked) with ⟨error, second⟩
    rw [first, second]
    exact trivial

namespace AskedRow.Fits

variable {asked : AskedRow} {built : EnqueueRow}

/-- Neither the checks nor the indexes look at `run_at`. -/
theorem checked_iff (fits : asked.Fits built) (id : Nat) (now : Timestamp) :
    (built.toJobRow id now).Checked <-> (asked.row.toJobRow id now).Checked := by
  rw [fits.columns]
  exact Iff.rfl

theorem conflicts_eq (fits : asked.Fits built) (rows : List JobRow) (id : Nat) (now : Timestamp) :
    conflicts rows (built.toJobRow id now) = conflicts rows (asked.row.toJobRow id now) := by
  rw [fits.columns]
  rfl

theorem self (asked : AskedRow) : asked.Fits asked.row := ⟨rfl, fun _ => rfl⟩

/-- A row that is hindered is refused or dropped, whatever its time. -/
theorem insertRow_hindered (fits : asked.Fits built) {db tables : Database}
    (alike : db.Alike tables) {now : Timestamp} (hindered : Not (Unhindered now db asked.row)) :
    if (asked.row.toJobRow db.nextId now).Checked then
      Exists fun next : Database => insertRow now built tables = .ok (next, none) ∧
        next.job = tables.job ∧ next.nextId = tables.nextId + 1 ∧
          next.queueConfig = tables.queueConfig
    else Exists fun error : DbError => insertRow now built tables = .error error := by
  split
  · rename_i checked
    apply insertRow_taken
    · rw [fits.checked_iff, ← alike.nextId]
      exact checked
    · rw [fits.conflicts_eq, ← alike.nextId, ← alike.conflicts]
      exact Bool.not_eq_false _ ▸ fun free => hindered ⟨checked, free⟩
  · rename_i unchecked
    apply insertRow_unchecked
    rw [fits.checked_iff, ← alike.nextId]
    exact unchecked

end AskedRow.Fits

/-- A row that is built as asked for, into a table that is alike: its time can
only show if the row gets into the table. -/
theorem insertRow_fits {db other : Database} (alike : db.Alike other) {now : Timestamp}
    {asked : AskedRow} {built : EnqueueRow} (fits : asked.Fits built)
    (untimed : Not (asked.timed = true ∧ Unhindered now db asked.row)) :
    InsertedAlike (insertRow now asked.row db) (insertRow now built other) := by
  cases timed : asked.timed with
  | false =>
      rw [fits.given timed]
      exact insertRow_alike alike now asked.row
  | true =>
      have hindered : Not (Unhindered now db asked.row) := fun free => untimed ⟨timed, free⟩
      have one := (AskedRow.Fits.self asked).insertRow_hindered (.refl db) hindered
      have two := fits.insertRow_hindered alike hindered
      split at one
      · rename_i checked
        rw [if_pos checked] at two
        rcases one with ⟨next, inserted, job, nextId, config⟩
        rcases two with ⟨last, added, otherJob, otherId, otherConfig⟩
        rw [inserted, added]
        refine ⟨?_, by rw [nextId, otherId, alike.nextId],
          by rw [config, otherConfig, alike.queueConfig]⟩
        rw [job, otherJob]
        exact alike.rows
      · rename_i unchecked
        rw [if_neg unchecked] at two
        rcases one with ⟨reason, refused⟩
        rcases two with ⟨error, aborted⟩
        rw [refused, aborted]
        exact trivial

/-- The same of a batch.  The induction follows the rows as they are asked for,
since these decide what gets into the table. -/
theorem insertRows_fits {now : Timestamp} {asked : List AskedRow} {db other : Database}
    (alike : db.Alike other) {built : List EnqueueRow}
    (fits : List.Forall₂ AskedRow.Fits asked built) (untimed : Not (TimeMatters now asked db)) :
    InsertedAlike (insertRows now (asked.map AskedRow.row) db) (insertRows now built other) := by
  induction fits generalizing db other with
  | nil => exact alike
  | cons headFits _ inductionHypothesis =>
      have parts := not_or.mp untimed
      have inserted := insertRow_fits alike headFits parts.1
      rw [List.map_cons]
      unfold insertRows
      cases first : insertRow now _ db with
      | error reason =>
          cases second : insertRow now _ other with
          | error error => exact trivial
          | ok done =>
              rw [first, second] at inserted
              exact inserted.elim
      | ok done =>
          cases second : insertRow now _ other with
          | error error =>
              rw [first, second] at inserted
              exact inserted.elim
          | ok answer =>
              rw [first, second] at inserted
              have later := parts.2
              rw [first] at later
              have rest := inductionHypothesis inserted later
              dsimp only
              generalize insertRows now _ done.1 = one at rest ⊢
              generalize insertRows now _ answer.1 = two at rest ⊢
              cases one with
              | error reason =>
                  cases two with
                  | error error => exact trivial
                  | ok last => exact rest.elim
              | ok last =>
                  cases two with
                  | error error => exact rest.elim
                  | ok final => exact rest

/-- `INSERT` of the rows; nothing is left of a statement that is refused. -/
def Database.insertAll (now : Timestamp) (rows : List EnqueueRow) (db : Database) : Database :=
  match insertRows now rows db with
  | .ok (next, _) => next
  | .error _ => db

theorem Database.insertAll_eq_batch (now : Timestamp) (rows : List EnqueueRow) (db : Database) :
    db.insertAll now rows = match insertJobsBatch rows now db with
      | .ok reply => reply.db
      | .error _ => db := by
  unfold Database.insertAll insertJobsBatch
  cases insertRows now rows db with
  | error error => rfl
  | ok done => rfl

/-- An insert does not touch the configuration. -/
theorem Database.insertAll_queueConfig (now : Timestamp) (rows : List EnqueueRow) (db : Database) :
    (db.insertAll now rows).queueConfig = db.queueConfig := by
  have inserted : forall (rows : List EnqueueRow) (db next : Database)
      (outcomes : List (Option JobRow)), insertRows now rows db = .ok (next, outcomes) ->
        next.queueConfig = db.queueConfig := by
    intro rows
    induction rows with
    | nil =>
        intro db next outcomes done
        cases done
        rfl
    | cons row rows inductionHypothesis =>
        intro db next outcomes done
        rcases insertRows_cons done with ⟨middle, outcome, tail, first, rest, _⟩
        exact (inductionHypothesis middle next tail rest).trans (insertRow_ok first).2.2.2.1
  unfold Database.insertAll
  cases done : insertRows now rows db with
  | error error => rfl
  | ok result => exact inserted rows db result.1 result.2 done

theorem Database.Alike.trans {first second third : Database} (one : first.Alike second)
    (two : second.Alike third) : first.Alike third :=
  ⟨one.rows.trans two.rows, one.nextId.trans two.nextId, one.queueConfig.trans two.queueConfig⟩

/-- Two batches that are built as asked for, into tables that are alike. -/
theorem Database.Alike.insertAll {db other : Database} (alike : db.Alike other) {now : Timestamp}
    {asked : List AskedRow} {first second : List EnqueueRow}
    (firstFits : List.Forall₂ AskedRow.Fits asked first)
    (secondFits : List.Forall₂ AskedRow.Fits asked second)
    (untimed : Not (TimeMatters now asked db)) :
    (db.insertAll now first).Alike (other.insertAll now second) := by
  have left : forall {tables : Database} {built : List EnqueueRow}, db.Alike tables ->
      List.Forall₂ AskedRow.Fits asked built ->
        (db.insertAll now (asked.map AskedRow.row)).Alike (tables.insertAll now built) := by
    intro tables built same fits
    have inserted := insertRows_fits same fits untimed
    unfold Database.insertAll
    generalize insertRows now (asked.map AskedRow.row) db = one at inserted ⊢
    generalize insertRows now built tables = two at inserted ⊢
    cases one with
    | error reason =>
        cases two with
        | error error => exact same
        | ok last => exact inserted.elim
    | ok last =>
        cases two with
        | error error => exact inserted.elim
        | ok final => exact inserted
  exact (left (.refl db) firstFits).symm.trans (left alike secondFits)

/-! ## Building rows -/

/-- The time of the row is left to the clock of the client. -/
def EnqueueOptions.fromClock (options : EnqueueOptions) : Bool :=
  options.runAt.isNone && options.delaySeconds.any (fun delay => decide (0 < delay))

namespace BatchEnqueueItem

variable (defaults : ClientDefaults) (db : Database) (queue : String) (item : BatchEnqueueItem)

/-- The row an item asks for, with the defaults `queue_config` has for the queue
now. -/
def asked : AskedRow where
  row := {
    queue := queue
    type := item.type
    payload := item.payload
    metadata := item.options.metadata
    priority := item.options.priority.getD 0
    maxAttempts := (item.options.maxAttempts.or
      (resolveQueueDefaults queue db).maxAttempts).getD defaults.maxAttempts
    leaseSeconds := (item.options.leaseSeconds.or
      (resolveQueueDefaults queue db).leaseSeconds).getD defaults.leaseSeconds
    runAt := item.options.runAt.join
    idempotencyKey := item.options.idempotencyKey
    uniqueKey := item.options.uniqueKey
    traceContext := item.options.traceContext
    scheduleId := none }
  timed := item.options.fromClock

/-- The item passes the checks that come before the defaults. -/
def Checked : Prop :=
  validateName item.type "type" = .ok () ∧
    checkOptions ⟨defaults, fun _ => 0⟩ item.payload item.options = .ok ()

/-- The item passes the checks that come after the defaults. -/
def Accepted : Prop :=
  1 ≤ (item.asked defaults db queue).row.maxAttempts ∧
    1 ≤ (item.asked defaults db queue).row.leaseSeconds ∧ item.options.runAt ≠ some none

end BatchEnqueueItem

/-- Defaults a client can go by: those of `queue_config`, or those it had cached
at first. -/
def Known (initial : ClientState) (db : Database) (queue : String) (qc : QueueDefaultsRow) : Prop :=
  qc = resolveQueueDefaults queue db ∨
    Exists fun savedAt : Timestamp => initial.queueCache.get queue = some (savedAt, qc)

/-- Whatever the client goes by, the options come out as with `queue_config`. -/
def Settled (initial : ClientState) (db : Database) (queue : String) (options : EnqueueOptions) :
    Prop :=
  forall qc, Known initial db queue qc ->
    options.maxAttempts.or qc.maxAttempts =
        options.maxAttempts.or (resolveQueueDefaults queue db).maxAttempts ∧
      options.leaseSeconds.or qc.leaseSeconds =
        options.leaseSeconds.or (resolveQueueDefaults queue db).leaseSeconds

/-- The client has nothing else in its cache. -/
def ClientState.Kept (initial : ClientState) (db : Database) (state : ClientState) : Prop :=
  forall queue savedAt qc, state.queueCache.get queue = some (savedAt, qc) ->
    Known initial db queue qc

theorem ClientState.Kept.of_cache {initial state next : ClientState} {db : Database}
    (kept : ClientState.Kept initial db state) (same : next.queueCache = state.queueCache) :
    ClientState.Kept initial db next := by
  intro queue savedAt qc cached
  rw [same] at cached
  exact kept queue savedAt qc cached

theorem ClientState.Kept.save {initial state : ClientState} {db : Database}
    (kept : ClientState.Kept initial db state) (queue : String) (readAt : Timestamp) :
    ClientState.Kept initial db
      (saveDefaults queue readAt (resolveQueueDefaults queue db) state) := by
  intro other savedAt qc cached
  unfold saveDefaults at cached
  dsimp only at cached
  rw [InsertionMap.get_set] at cached
  split at cached
  · rename_i same
    cases cached
    exact Or.inl (by rw [same])
  · exact kept other savedAt qc cached

/-! ## One row -/

section Rows

variable {config : ClientConfig} {db : Database} {queue : String} {item : BatchEnqueueItem}
variable {initial state : ClientState}

/-- Only a time that is left to the clock may differ from the one asked for. -/
theorem BatchEnqueueItem.fits_withRunAt {defaults : ClientDefaults} (runAt : Option Timestamp)
    (given : item.options.fromClock = false -> runAt = item.options.runAt.join) :
    (item.asked defaults db queue).Fits
      { (item.asked defaults db queue).row with runAt := runAt } := by
  refine ⟨rfl, fun untimed => ?_⟩
  rw [given untimed]
  rfl

/-- The last checks and the time of the row. -/
theorem rowWithDefaults_asked {qc : QueueDefaultsRow}
    (settled : Settled initial db queue item.options) (known : Known initial db queue qc) :
    (item.Accepted config.defaults db queue -> Exists fun row : EnqueueRow =>
        (rowWithDefaults config queue item.type item.payload item.options qc state).1 = .ok row ∧
          (item.asked config.defaults db queue).Fits row) ∧
      (Not (item.Accepted config.defaults db queue) -> Exists fun error : RowError =>
        (rowWithDefaults config queue item.type item.payload item.options qc state).1 =
          .error error) := by
  have agrees := settled qc known
  unfold rowWithDefaults
  rw [agrees.1, agrees.2]
  dsimp only
  constructor
  · rintro ⟨attempts, lease, valid⟩
    have fits := @BatchEnqueueItem.fits_withRunAt db queue item config.defaults
    unfold BatchEnqueueItem.asked at attempts lease
    dsimp only at attempts lease
    rw [if_neg (Int.not_lt.mpr attempts), if_neg (Int.not_lt.mpr lease)]
    cases asked : item.options.runAt with
    | some time =>
        cases time with
        | none => exact absurd asked valid
        | some time => exact ⟨_, rfl, fits (some time) (fun _ => by rw [asked]; rfl)⟩
    | none =>
        cases delayed : item.options.delaySeconds with
        | none => exact ⟨_, rfl, fits none (fun _ => by rw [asked]; rfl)⟩
        | some delay =>
            dsimp only
            split
            · rename_i positive
              refine ⟨_, rfl, fits _ (fun untimed => ?_)⟩
              unfold EnqueueOptions.fromClock at untimed
              rw [asked, delayed] at untimed
              simp [positive] at untimed
            · exact ⟨_, rfl, fits none (fun _ => by rw [asked]; rfl)⟩
  · intro refused
    split
    · exact ⟨_, rfl⟩
    · rename_i attempts
      split
      · exact ⟨_, rfl⟩
      · rename_i lease
        have invalid : item.options.runAt = some none := by
          by_contra valid
          exact refused ⟨Int.not_lt.mp attempts, Int.not_lt.mp lease, valid⟩
        rw [invalid]
        exact ⟨_, rfl⟩

theorem rowWithDefaults_cache (config : ClientConfig) (queue type payload : String)
    (options : EnqueueOptions) (qc : QueueDefaultsRow) (state : ClientState) :
    (rowWithDefaults config queue type payload options qc state).2.queueCache =
      state.queueCache := by
  unfold rowWithDefaults
  dsimp only
  split
  · rfl
  · split
    · rfl
    · split
      · rfl
      · rfl
      · split <;> rfl
      · rfl

/-- The defaults are known, and so are those that are kept. -/
theorem queueDefaults_known (kept : ClientState.Kept initial db state) :
    Known initial db queue (queueDefaults config db queue state).1 ∧
      ClientState.Kept initial db (queueDefaults config db queue state).2 := by
  unfold queueDefaults cachedDefaults dateNow freshRow
  dsimp only
  cases cached : state.queueCache.get queue with
  | none => exact ⟨Or.inl rfl, (kept.of_cache rfl).save queue _⟩
  | some entry =>
      rcases entry with ⟨savedAt, qc⟩
      dsimp only
      by_cases fresh : config.clock state.readings - savedAt < queueCacheTtl
      · rw [if_pos fresh]
        exact ⟨kept queue savedAt qc cached, kept.of_cache rfl⟩
      · rw [if_neg fresh]
        exact ⟨Or.inl rfl, (kept.of_cache rfl).save queue _⟩

theorem buildRow_kept (type payload : String) (options : EnqueueOptions)
    (kept : ClientState.Kept initial db state) :
    ClientState.Kept initial db (buildRow config db queue type payload options state).2 := by
  unfold buildRow
  split
  · exact kept
  · exact (queueDefaults_known kept).2.of_cache (rowWithDefaults_cache _ _ _ _ _ _ _)

/-- With the checks behind it, a row is built as asked for or refused. -/
theorem buildRow_asked (kept : ClientState.Kept initial db state)
    (settled : Settled initial db queue item.options)
    (checked : checkOptions config item.payload item.options = .ok ()) :
    (item.Accepted config.defaults db queue -> Exists fun row : EnqueueRow =>
        (buildRow config db queue item.type item.payload item.options state).1 = .ok row ∧
          (item.asked config.defaults db queue).Fits row) ∧
      (Not (item.Accepted config.defaults db queue) -> Exists fun error : RowError =>
        (buildRow config db queue item.type item.payload item.options state).1 = .error error) := by
  unfold buildRow
  rw [checked]
  exact rowWithDefaults_asked settled (queueDefaults_known kept).1

end Rows

/-! ## A batch -/

section Batches

variable {config : ClientConfig} {db : Database} {queue : String} {items : List BatchEnqueueItem}
variable {initial state : ClientState} {index : Nat}

theorem buildRows_kept (kept : ClientState.Kept initial db state) :
    ClientState.Kept initial db (buildRows config db queue index items state).2 := by
  induction items generalizing index state with
  | nil => exact kept
  | cons item items inductionHypothesis =>
      have built := @buildRow_kept config db queue initial state item.type item.payload
        item.options kept
      unfold buildRows
      dsimp only
      split
      · exact kept
      · split
        · rename_i error next isRow
          rw [isRow] at built
          exact built
        · rename_i row next isRow
          rw [isRow] at built
          have rest := @inductionHypothesis next (index + 1) built
          split
          · rename_i error last isRest
            rw [isRest] at rest
            exact rest
          · rename_i rows last isRest
            rw [isRest] at rest
            exact rest

/-- An item that cannot be built refuses the batch. -/
theorem buildRows_refused_head {item : BatchEnqueueItem}
    (failing : validateName item.type "type" = .ok () -> Exists fun error : RowError =>
      (buildRow config db queue item.type item.payload item.options state).1 = .error error) :
    Exists fun error : RowError =>
      (buildRows config db queue index (item :: items) state).1 = .error error := by
  unfold buildRows
  dsimp only
  split
  · exact ⟨_, rfl⟩
  · rename_i named
    rcases failing named with ⟨reason, refused⟩
    split
    · exact ⟨_, rfl⟩
    · rename_i row next built
      rw [built] at refused
      cases refused

/-- Behind an item that is built the others decide. -/
theorem buildRows_built_head {item : BatchEnqueueItem} {row : EnqueueRow}
    (named : validateName item.type "type" = .ok ())
    (built : (buildRow config db queue item.type item.payload item.options state).1 = .ok row) :
    (buildRows config db queue index (item :: items) state).1 =
      ((buildRows config db queue (index + 1) items
        (buildRow config db queue item.type item.payload item.options state).2).1).map
          (fun rows => row :: rows) := by
  rw [buildRows]
  dsimp only
  rw [named]
  dsimp only
  split
  · rename_i error next refused
    rw [refused] at built
    cases built
  · rename_i other next isRow
    rw [isRow] at built ⊢
    cases built
    dsimp only
    split
    · rename_i error last refused
      rw [refused]
      rfl
    · rename_i rows last done
      rw [done]
      rfl

theorem buildRow_unchecked {item : BatchEnqueueItem} (named : validateName item.type "type" = .ok ())
    (failing : Not (item.Checked config.defaults)) : Exists fun error : RowError =>
      (buildRow config db queue item.type item.payload item.options state).1 = .error error := by
  unfold buildRow
  split
  · exact ⟨_, rfl⟩
  · rename_i passed
    exact absurd ⟨named, passed⟩ failing

/-- One item that fails the first checks is enough to refuse a batch. -/
theorem buildRows_unchecked
    (failing : Exists fun item : BatchEnqueueItem =>
      item ∈ items ∧ Not (item.Checked config.defaults)) :
    Exists fun error : RowError =>
      (buildRows config db queue index items state).1 = .error error := by
  induction items generalizing index state with
  | nil =>
      rcases failing with ⟨item, member, _⟩
      cases member
  | cons first items inductionHypothesis =>
      cases named : validateName first.type "type" with
      | error error =>
          apply buildRows_refused_head
          intro accepted
          cases named.symm.trans accepted
      | ok passed =>
          cases built : (buildRow config db queue first.type first.payload first.options state).1 with
          | error error => exact buildRows_refused_head (fun _ => ⟨error, built⟩)
          | ok row =>
              rcases failing with ⟨item, member, unchecked⟩
              rcases List.mem_cons.mp member with rfl | later
              · exact buildRows_refused_head (fun _ => buildRow_unchecked named unchecked)
              · rcases inductionHypothesis ⟨item, later, unchecked⟩ with ⟨error, refused⟩
                rw [buildRows_built_head named built, refused]
                exact ⟨error, rfl⟩

/-- A batch whose items pass the first checks is built as asked for or refused. -/
theorem buildRows_asked (kept : ClientState.Kept initial db state)
    (settled : forall item, item ∈ items -> Settled initial db queue item.options)
    (checked : forall item, item ∈ items -> item.Checked config.defaults) :
    ((forall item, item ∈ items -> item.Accepted config.defaults db queue) ->
        Exists fun rows : List EnqueueRow =>
          (buildRows config db queue index items state).1 = .ok rows ∧
            List.Forall₂ AskedRow.Fits
              (items.map (BatchEnqueueItem.asked config.defaults db queue)) rows) ∧
      (Not (forall item, item ∈ items -> item.Accepted config.defaults db queue) ->
        Exists fun error : RowError =>
          (buildRows config db queue index items state).1 = .error error) := by
  induction items generalizing index state with
  | nil => exact ⟨fun _ => ⟨[], rfl, .nil⟩, fun refused => absurd (by simp) refused⟩
  | cons item items inductionHypothesis =>
      have first := checked item List.mem_cons_self
      have one := @buildRow_asked config db queue item initial state kept
        (settled item List.mem_cons_self) first.2
      have rest := @inductionHypothesis
        (buildRow config db queue item.type item.payload item.options state).2 (index + 1)
        (buildRow_kept _ _ _ kept) (fun other member => settled other (List.mem_cons_of_mem _ member))
        (fun other member => checked other (List.mem_cons_of_mem _ member))
      by_cases accepted : item.Accepted config.defaults db queue
      · rcases one.1 accepted with ⟨row, built, fits⟩
        rw [buildRows_built_head first.1 built]
        constructor
        · intro all
          rcases rest.1 (fun other member => all other (List.mem_cons_of_mem _ member)) with
            ⟨rows, done, others⟩
          rw [done]
          exact ⟨row :: rows, rfl, .cons fits others⟩
        · intro some
          have later : Not (forall other, other ∈ items ->
              other.Accepted config.defaults db queue) := by
            intro all
            apply some
            intro other member
            rcases List.mem_cons.mp member with rfl | inRest
            · exact accepted
            · exact all other inRest
          rcases rest.2 later with ⟨error, refused⟩
          rw [refused]
          exact ⟨error, rfl⟩
      · rcases one.2 accepted with ⟨error, refused⟩
        exact ⟨fun all => absurd (all item List.mem_cons_self) accepted,
          fun _ => buildRows_refused_head (fun _ => ⟨error, refused⟩)⟩

end Batches

/-! ## A single job -/

section Single

variable {config : ClientConfig} {db : Database} {request : EnqueueRequest}
variable {initial state : ClientState}

/-- After the insert a call only reads. -/
def EnqueuePhase.Reads : EnqueuePhase -> Prop
  | .resolving _ => False
  | .inserting _ => False
  | _ => True

theorem reads_resolveConflict (row : EnqueueRow) : (resolveConflict row).Reads := by
  unfold resolveConflict resolveUnique
  split
  · exact trivial
  · split <;> exact trivial

theorem finish_reads {call : EnqueueCall} (reads : call.phase.Reads) (now : Timestamp)
    (statements : Nat) : (EnqueueCall.finish config now statements call db state).2 = (db, state) := by
  induction statements generalizing call with
  | zero => rfl
  | succ statements inductionHypothesis =>
      have next : (call.advance config now db state).phase.Reads ∧
          (call.advance config now db state).db = db ∧
            (call.advance config now db state).client = state := by
        unfold EnqueueCall.advance
        cases phase : call.phase with
        | resolving readAt =>
            rw [phase] at reads
            exact reads.elim
        | inserting row =>
            rw [phase] at reads
            exact reads.elim
        | findingIdempotent row key =>
            dsimp only
            split
            · exact ⟨trivial, rfl, rfl⟩
            · refine ⟨?_, rfl, rfl⟩
              unfold resolveUnique
              split <;> exact trivial
        | findingUnique row key =>
            dsimp only
            split <;> exact ⟨trivial, rfl, rfl⟩
        | returned result => exact ⟨trivial, rfl, rfl⟩
        | thrown error => exact ⟨trivial, rfl, rfl⟩
      unfold EnqueueCall.finish
      dsimp only
      rw [next.2.1, next.2.2]
      exact inductionHypothesis next.1

theorem finish_inserting (row : EnqueueRow) (now : Timestamp) (statements : Nat) :
    (EnqueueCall.finish config now (statements + 1) ⟨request, .inserting row⟩ db state).2.1 =
        db.insertAll now [row] ∧
      (EnqueueCall.finish config now (statements + 1) ⟨request, .inserting row⟩ db
        state).2.2.queueCache = state.queueCache := by
  have sent : (EnqueueCall.advance config now db state ⟨request, .inserting row⟩).phase.Reads ∧
      (EnqueueCall.advance config now db state ⟨request, .inserting row⟩).db =
        db.insertAll now [row] ∧
      (EnqueueCall.advance config now db state ⟨request, .inserting row⟩).client.queueCache =
        state.queueCache := by
    rw [Database.insertAll_eq_batch, ← insertJob_eq_batch]
    unfold EnqueueCall.advance
    dsimp only
    cases inserted : insertJob row now db with
    | ok reply =>
        dsimp only
        split
        · exact ⟨trivial, rfl, rfl⟩
        · exact ⟨reads_resolveConflict row, rfl, rfl⟩
    | error error =>
        cases error with
        | uniqueViolation index => exact ⟨reads_resolveConflict row, rfl, rfl⟩
        | checkViolation constraint => exact ⟨trivial, rfl, rfl⟩
        | notifyChannelTooLong => exact ⟨trivial, rfl, rfl⟩
        | noPartition => exact ⟨trivial, rfl, rfl⟩
        | invalidInterval => exact ⟨trivial, rfl, rfl⟩
  unfold EnqueueCall.finish
  dsimp only
  rw [finish_reads sent.1]
  exact sent.2

/-- With the defaults at hand, a call inserts the row it builds. -/
theorem finish_withDefaults (qc : QueueDefaultsRow) (now : Timestamp) (statements : Nat) :
    (EnqueueCall.finish config now (statements + 1) ⟨request, (request.withDefaults config qc
          state).1⟩ db (request.withDefaults config qc state).2).2.1 =
        (match (rowWithDefaults config request.queue request.type request.payload request.options
          qc state).1 with
        | .ok row => db.insertAll now [row]
        | .error _ => db) ∧
      (EnqueueCall.finish config now (statements + 1) ⟨request, (request.withDefaults config qc
          state).1⟩ db (request.withDefaults config qc state).2).2.2.queueCache =
        state.queueCache := by
  have cache := rowWithDefaults_cache config request.queue request.type request.payload
    request.options qc state
  unfold EnqueueRequest.withDefaults
  split
  · rename_i row next built
    rw [built] at cache ⊢
    have sent := @finish_inserting config db request next row now statements
    exact ⟨sent.1, sent.2.trans cache⟩
  · rename_i error next refused
    rw [refused] at cache ⊢
    have idle := @finish_reads config db next ⟨request, .thrown (.row error)⟩ trivial now
      (statements + 1)
    rw [idle]
    exact ⟨rfl, cache⟩

/-- The checks before the defaults. -/
def EnqueueRequest.Checked (defaults : ClientDefaults) (request : EnqueueRequest) : Prop :=
  validateName request.queue "queue" = .ok () ∧
    BatchEnqueueItem.Checked defaults (.plain request.type request.payload request.options)

theorem enqueue_unchecked (now : Timestamp) (unchecked : Not (request.Checked config.defaults)) :
    (Client.enqueue config now request db state).2 = (db, state) := by
  have thrown : Exists fun error : ClientError =>
      request.begin config state = (.thrown error, state) := by
    unfold EnqueueRequest.begin
    cases queue : validateName request.queue "queue" with
    | error error => exact ⟨_, rfl⟩
    | ok named =>
        cases type : validateName request.type "type" with
        | error error => exact ⟨_, rfl⟩
        | ok typed =>
            cases options : checkOptions config request.payload request.options with
            | error error => exact ⟨_, rfl⟩
            | ok passed => exact absurd ⟨queue, type, options⟩ unchecked
  rcases thrown with ⟨error, begun⟩
  unfold Client.enqueue
  dsimp only
  rw [begun]
  exact @finish_reads config db state ⟨request, .thrown error⟩ trivial now 4

/-- What a call inserts, it builds from defaults that are known. -/
theorem enqueue_checked (kept : ClientState.Kept initial db state) (now : Timestamp)
    (checked : request.Checked config.defaults) :
    ClientState.Kept initial db (Client.enqueue config now request db state).2.2 ∧
      Exists fun qc : QueueDefaultsRow => Exists fun read : ClientState =>
        Known initial db request.queue qc ∧
          (Client.enqueue config now request db state).2.1 =
            match (rowWithDefaults config request.queue request.type request.payload
              request.options qc read).1 with
            | .ok row => db.insertAll now [row]
            | .error _ => db := by
  have options : checkOptions config request.payload request.options = .ok () := checked.2.2
  have type : validateName request.type "type" = .ok () := checked.2.1
  have known := @queueDefaults_known config db request.queue initial state kept
  unfold Client.enqueue EnqueueRequest.begin
  unfold queueDefaults at known
  rw [checked.1, type, options]
  rcases cached : cachedDefaults config request.queue state with ⟨found, readAt, next⟩
  rw [cached] at known
  cases found with
  | some qc =>
      have sent := @finish_withDefaults config db request next qc now 3
      exact ⟨known.2.of_cache sent.2, qc, next, known.1, sent.1⟩
  | none =>
      have sent := @finish_withDefaults config db request
        (saveDefaults request.queue readAt (resolveQueueDefaults request.queue db) next)
        (resolveQueueDefaults request.queue db) now 2
      exact ⟨known.2.of_cache sent.2, _, _, known.1, sent.1⟩

end Single

/-- A batch has a queue, and between one and a thousand items. -/
def BatchSized (queue : String) (items : List BatchEnqueueItem) : Prop :=
  validateName queue "queue" = .ok () ∧ items.length ≠ 0 ∧ items.length ≤ 1000

theorem enqueueBatch_unsized {config : ClientConfig} {db : Database} {queue : String}
    {items : List BatchEnqueueItem} {state : ClientState} (now : Timestamp)
    (unsized : Not (BatchSized queue items)) :
    (enqueueBatch config now queue items db state).2 = (db, state) := by
  unfold enqueueBatch
  cases named : validateName queue "queue" with
  | error error => rfl
  | ok passed =>
      dsimp only
      split
      · rfl
      · rename_i some
        split
        · rfl
        · rename_i few
          exact absurd ⟨named, some, Nat.not_lt.mp few⟩ unsized

/-- What a batch inserts are the rows it has built. -/
theorem enqueueBatch_sized {config : ClientConfig} {db : Database} {queue : String}
    {items : List BatchEnqueueItem} {state : ClientState} (now : Timestamp)
    (sized : BatchSized queue items) :
    (enqueueBatch config now queue items db state).2.1 =
        (match (buildRows config db queue 0 items state).1 with
        | .ok rows => db.insertAll now rows
        | .error _ => db) ∧
      (enqueueBatch config now queue items db state).2.2.queueCache =
        (buildRows config db queue 0 items state).2.queueCache := by
  unfold enqueueBatch
  rw [sized.1]
  dsimp only
  rw [if_neg sized.2.1, if_neg (Nat.not_lt.mpr sized.2.2)]
  rcases built : buildRows config db queue 0 items state with ⟨result, next⟩
  cases result with
  | error error => exact ⟨rfl, rfl⟩
  | ok rows =>
      dsimp only
      rw [Database.insertAll_eq_batch]
      cases insertJobsBatch rows now db with
      | error error => exact ⟨rfl, rfl⟩
      | ok reply =>
          dsimp only
          refine ⟨rfl, ?_⟩
          split <;> rfl

/-! ## Two clients with different clocks -/

/-- A request for these jobs depends on the clock of the client: it goes by the
cache where that differs from `queue_config`, or a row of it gets into the
table that has its time from the clock. -/
def ReadsClock (initial : ClientState) (defaults : ClientDefaults) (now : Timestamp)
    (queue : String) (items : List BatchEnqueueItem) (db : Database) : Prop :=
  (forall item, item ∈ items -> item.Checked defaults) ∧
    ((Exists fun item : BatchEnqueueItem =>
        item ∈ items ∧ Not (Settled initial db queue item.options)) ∨
      ((forall item, item ∈ items -> item.Accepted defaults db queue) ∧
        TimeMatters now (items.map (BatchEnqueueItem.asked defaults db queue)) db))

def EnqueueRequest.item (request : EnqueueRequest) : BatchEnqueueItem :=
  .plain request.type request.payload request.options

section

variable {db other : Database} {initial first second : ClientState} {defaults : ClientDefaults}
variable {clock reading : Nat -> Timestamp} {now : Timestamp}

theorem known_of_alike (alike : db.Alike other) {queue : String} {qc : QueueDefaultsRow}
    (known : Known initial other queue qc) : Known initial db queue qc := by
  unfold Known resolveQueueDefaults at known ⊢
  rw [alike.queueConfig]
  exact known

theorem ClientState.Kept.of_config (kept : ClientState.Kept initial db first)
    (same : other.queueConfig = db.queueConfig) : ClientState.Kept initial other first := by
  intro queue savedAt qc cached
  have known := kept queue savedAt qc cached
  unfold Known resolveQueueDefaults at known ⊢
  rw [same]
  exact known

/-- A single job, enqueued by clients that have different clocks. -/
theorem enqueue_alike (alike : db.Alike other) (kept : ClientState.Kept initial db first)
    (keptToo : ClientState.Kept initial other second) {request : EnqueueRequest}
    (quiet : validateName request.queue "queue" = .ok () ->
      Not (ReadsClock initial defaults now request.queue [request.item] db)) :
    (Client.enqueue ⟨defaults, clock⟩ now request db first).2.1.Alike
      (Client.enqueue ⟨defaults, reading⟩ now request other second).2.1 := by
  by_cases checked : request.Checked defaults
  · rcases (@enqueue_checked ⟨defaults, clock⟩ db request initial first kept now checked).2 with
      ⟨qc, read, known, isFirst⟩
    rcases (@enqueue_checked ⟨defaults, reading⟩ other request initial second keptToo now
      checked).2 with ⟨defaultsToo, readToo, knownToo, isSecond⟩
    rw [isFirst, isSecond]
    have all : forall item, item ∈ [request.item] -> item.Checked defaults := by
      intro item member
      rw [List.mem_singleton.mp member]
      exact checked.2
    have untouched := not_and.mp (quiet checked.1) all
    rw [not_or] at untouched
    have settled : Settled initial db request.queue request.item.options := by
      by_contra unsettled
      exact untouched.1 ⟨request.item, List.mem_singleton_self _, unsettled⟩
    have one := @rowWithDefaults_asked ⟨defaults, clock⟩ db request.queue request.item initial read
      qc settled known
    have two := @rowWithDefaults_asked ⟨defaults, reading⟩ db request.queue request.item initial
      readToo defaultsToo settled (known_of_alike alike knownToo)
    by_cases accepted : request.item.Accepted defaults db request.queue
    · rcases one.1 accepted with ⟨row, built, fits⟩
      rcases two.1 accepted with ⟨rowToo, builtToo, fitsToo⟩
      have untimed : Not (TimeMatters now
          [request.item.asked defaults db request.queue] db) := by
        intro matters
        refine untouched.2 ⟨fun item member => ?_, matters⟩
        rw [List.mem_singleton.mp member]
        exact accepted
      unfold EnqueueRequest.item BatchEnqueueItem.plain at built builtToo
      rw [built, builtToo]
      exact alike.insertAll (.cons fits .nil) (.cons fitsToo .nil) untimed
    · rcases one.2 accepted with ⟨error, refused⟩
      rcases two.2 accepted with ⟨errorToo, refusedToo⟩
      unfold EnqueueRequest.item BatchEnqueueItem.plain at refused refusedToo
      rw [refused, refusedToo]
      exact alike
  · rw [enqueue_unchecked now checked, enqueue_unchecked now checked]
    exact alike

theorem Settled.of_alike (alike : db.Alike other) {queue : String} {options : EnqueueOptions}
    (settled : Settled initial db queue options) : Settled initial other queue options := by
  intro qc known
  have same := settled qc (known_of_alike alike known)
  unfold resolveQueueDefaults at same ⊢
  rw [← alike.queueConfig]
  exact same

theorem asked_of_alike (alike : db.Alike other) (queue : String) :
    BatchEnqueueItem.asked defaults other queue = BatchEnqueueItem.asked defaults db queue := by
  unfold BatchEnqueueItem.asked resolveQueueDefaults
  rw [alike.queueConfig]

theorem accepted_of_alike (alike : db.Alike other) (queue : String) (item : BatchEnqueueItem) :
    item.Accepted defaults other queue <-> item.Accepted defaults db queue := by
  unfold BatchEnqueueItem.Accepted
  rw [asked_of_alike alike]

/-- Both clients build the rows as asked for, or both refuse the batch. -/
theorem buildRows_alike (alike : db.Alike other) (kept : ClientState.Kept initial db first)
    (keptToo : ClientState.Kept initial other second) {queue : String}
    {items : List BatchEnqueueItem}
    (settled : forall item, item ∈ items -> Settled initial db queue item.options)
    (checked : forall item, item ∈ items -> item.Checked defaults) :
    ((forall item, item ∈ items -> item.Accepted defaults db queue) ∧
        Exists fun rows : List EnqueueRow => Exists fun rowsToo : List EnqueueRow =>
          (buildRows ⟨defaults, clock⟩ db queue 0 items first).1 = .ok rows ∧
            (buildRows ⟨defaults, reading⟩ other queue 0 items second).1 = .ok rowsToo ∧
              List.Forall₂ AskedRow.Fits
                (items.map (BatchEnqueueItem.asked defaults db queue)) rows ∧
                List.Forall₂ AskedRow.Fits
                  (items.map (BatchEnqueueItem.asked defaults db queue)) rowsToo) ∨
      Exists fun error : RowError => Exists fun errorToo : RowError =>
        (buildRows ⟨defaults, clock⟩ db queue 0 items first).1 = .error error ∧
          (buildRows ⟨defaults, reading⟩ other queue 0 items second).1 = .error errorToo := by
  have one := @buildRows_asked ⟨defaults, clock⟩ db queue items initial first 0 kept settled checked
  have two := @buildRows_asked ⟨defaults, reading⟩ other queue items initial second 0 keptToo
    (fun item member => (settled item member).of_alike alike) checked
  by_cases accepted : forall item, item ∈ items -> item.Accepted defaults db queue
  · have acceptedToo : forall item, item ∈ items -> item.Accepted defaults other queue :=
      fun item member => (accepted_of_alike alike queue item).mpr (accepted item member)
    rcases one.1 accepted with ⟨rows, built, fits⟩
    rcases two.1 acceptedToo with ⟨rowsToo, builtToo, fitsToo⟩
    rw [asked_of_alike alike] at fitsToo
    exact Or.inl ⟨accepted, rows, rowsToo, built, builtToo, fits, fitsToo⟩
  · have refusedToo : Not (forall item, item ∈ items -> item.Accepted defaults other queue) :=
      fun every => accepted (fun item member =>
        (accepted_of_alike alike queue item).mp (every item member))
    rcases one.2 accepted with ⟨error, refused⟩
    rcases two.2 refusedToo with ⟨errorToo, stopped⟩
    exact Or.inr ⟨error, errorToo, refused, stopped⟩

/-- A batch, enqueued by clients that have different clocks. -/
theorem enqueueBatch_alike (alike : db.Alike other) (kept : ClientState.Kept initial db first)
    (keptToo : ClientState.Kept initial other second) {queue : String}
    {items : List BatchEnqueueItem}
    (quiet : BatchSized queue items -> Not (ReadsClock initial defaults now queue items db)) :
    (enqueueBatch ⟨defaults, clock⟩ now queue items db first).2.1.Alike
      (enqueueBatch ⟨defaults, reading⟩ now queue items other second).2.1 := by
  by_cases sized : BatchSized queue items
  · rw [(enqueueBatch_sized now sized).1, (enqueueBatch_sized now sized).1]
    have untouched := not_and.mp (quiet sized)
    by_cases checked : forall item, item ∈ items -> item.Checked defaults
    · have rest := not_or.mp (untouched checked)
      have settled : forall item, item ∈ items -> Settled initial db queue item.options := by
        intro item member
        by_contra unsettled
        exact rest.1 ⟨item, member, unsettled⟩
      rcases @buildRows_alike db other initial first second defaults clock reading alike kept
        keptToo queue items settled checked with
        ⟨accepted, rows, rowsToo, built, builtToo, fits, fitsToo⟩ |
          ⟨error, errorToo, refused, stopped⟩
      · rw [built, builtToo]
        exact alike.insertAll fits fitsToo (fun matters => rest.2 ⟨accepted, matters⟩)
      · rw [refused, stopped]
        exact alike
    · have failing : Exists fun item : BatchEnqueueItem =>
          item ∈ items ∧ Not (item.Checked defaults) := by
        push Not at checked
        exact checked
      rcases @buildRows_unchecked ⟨defaults, clock⟩ db queue items first 0 failing with
        ⟨error, refused⟩
      rcases @buildRows_unchecked ⟨defaults, reading⟩ other queue items second 0 failing with
        ⟨errorToo, stopped⟩
      rw [refused, stopped]
      exact alike
  · rw [enqueueBatch_unsized now sized, enqueueBatch_unsized now sized]
    exact alike

theorem enqueue_queueConfig (config : ClientConfig) (now : Timestamp) (request : EnqueueRequest)
    (db : Database) (state : ClientState) :
    (Client.enqueue config now request db state).2.1.queueConfig = db.queueConfig := by
  by_cases checked : request.Checked config.defaults
  · have cached : ClientState.Kept state db state := fun _ savedAt _ found => Or.inr ⟨savedAt, found⟩
    rcases (enqueue_checked cached now checked).2 with ⟨qc, read, _, isDb⟩
    rw [isDb]
    split
    · exact Database.insertAll_queueConfig _ _ _
    · rfl
  · rw [enqueue_unchecked now checked]

theorem enqueueBatch_queueConfig (config : ClientConfig) (now : Timestamp) (queue : String)
    (items : List BatchEnqueueItem) (db : Database) (state : ClientState) :
    (enqueueBatch config now queue items db state).2.1.queueConfig = db.queueConfig := by
  by_cases sized : BatchSized queue items
  · rw [(enqueueBatch_sized now sized).1]
    split
    · exact Database.insertAll_queueConfig _ _ _
    · rfl
  · rw [enqueueBatch_unsized now sized]

/-- What the clients keep stays among what is known. -/
theorem enqueue_kept (kept : ClientState.Kept initial db first) (request : EnqueueRequest) :
    ClientState.Kept initial (Client.enqueue ⟨defaults, clock⟩ now request db first).2.1
      (Client.enqueue ⟨defaults, clock⟩ now request db first).2.2 := by
  by_cases checked : request.Checked defaults
  · have sent := @enqueue_checked ⟨defaults, clock⟩ db request initial first kept now checked
    exact sent.1.of_config (enqueue_queueConfig _ _ _ _ _)
  · rw [enqueue_unchecked now checked]
    exact kept

theorem enqueueBatch_kept (kept : ClientState.Kept initial db first) (queue : String)
    (items : List BatchEnqueueItem) :
    ClientState.Kept initial (enqueueBatch ⟨defaults, clock⟩ now queue items db first).2.1
      (enqueueBatch ⟨defaults, clock⟩ now queue items db first).2.2 := by
  by_cases sized : BatchSized queue items
  · have sent := @enqueueBatch_sized ⟨defaults, clock⟩ db queue items first now sized
    have built := @buildRows_kept ⟨defaults, clock⟩ db queue items initial first 0 kept
    exact (built.of_cache sent.2).of_config (enqueueBatch_queueConfig _ _ _ _ _ _)
  · rw [enqueueBatch_unsized now sized]
    exact kept

end

end PgJobQ
