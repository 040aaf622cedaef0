import PgJobQ.Client.BuildRow
import PgJobQ.Library.TimedCache
import PgJobQ.Statements.Exec

/-!
# The cached defaults of a queue

`Client.queueDefaults` and `WorkerPool.configFor` keep the defaults of a queue
for five seconds, under the time read before the lookup was sent.  Calls
overlap, anybody may change the configuration between a lookup and its answer,
and `setPaused` forgets an entry while a lookup may still be under way.
Whatever is used was configured at some moment of the last five seconds before
it was asked for, or since.
-/

namespace PgJobQ

open TimedCache

/-- The database, and the lookup of `queueDefaults` and `configFor`. -/
def defaultsSource : Source String QueueDefaultsRow Database Call where
  change := Database.step
  lookup := resolveQueueDefaults
  limit := queueCacheTtl

/-- What the source calls `cached` is the cache of the library. -/
theorem freshRow_eq_fresh (cache : InsertionMap String (Timestamp × QueueDefaultsRow))
    (queue : String) (now : Timestamp) :
    freshRow cache queue now = fresh defaultsSource.limit cache queue now := by
  unfold freshRow fresh
  cases cache.get queue with
  | none => rfl
  | some entry => rfl

/-- A call that finds nothing fresh sends a lookup, and saves its answer under
the time read before. -/
theorem queueDefaults_eq_machine (config : ClientConfig) (db : Database) (queue : String)
    (state : ClientState) :
    let now := config.clock state.readings
    let asked := defaultsSource.step ⟨now, db, state.queueCache, []⟩ (.ask queue)
    let answered := defaultsSource.step asked (.answer 0)
    (queueDefaults config db queue state).2.queueCache =
        (defaultsSource.step answered (.receive 0)).cache ∧
      some (queueDefaults config db queue state).1 =
        ((defaultsSource.use ⟨now, db, state.queueCache, []⟩ (.ask queue)).or
          (defaultsSource.use answered (.receive 0))).map Use.value := by
  dsimp only
  have same := freshRow_eq_fresh state.queueCache queue (config.clock state.readings)
  unfold queueDefaults cachedDefaults dateNow
  dsimp only
  rw [same]
  cases found : fresh defaultsSource.limit state.queueCache queue (config.clock state.readings) with
  | some row =>
      constructor
      · simp only [Source.step, found, List.getElem?_nil]
      · simp only [Source.use, found, Option.map_some, Option.some_or]
  | none =>
      constructor
      · simp only [Source.step, found, List.nil_append, List.getElem?_cons_zero,
          List.set_cons_zero, Option.none_or]
        rfl
      · simp only [Source.step, Source.use, found, List.nil_append, List.getElem?_cons_zero,
          List.set_cons_zero, Option.none_or, Option.map_none, Option.map_some]
        rfl

/-- Over every run of overlapping calls, the defaults that a call uses are those
that the database had at some moment no more than five seconds before the call
asked for them, and not after it used them. -/
theorem cached_defaults_are_current (now : Timestamp) (db : Database)
    (labels : List (Label String Call)) (label : Label String Call)
    {used : Use String QueueDefaultsRow}
    (uses : defaultsSource.use (defaultsSource.after (Source.start now db) labels) label =
      some used) :
    Exists fun visited : List (Label String Call) => visited <+: labels ∧
      used.askedAt < (defaultsSource.after (Source.start now db) visited).now + queueCacheTtl ∧
        (defaultsSource.after (Source.start now db) visited).now ≤ used.usedAt ∧
          resolveQueueDefaults used.key
            (defaultsSource.after (Source.start now db) visited).store = used.value :=
  Source.used_is_current (by decide) now db labels label uses

/-- A lookup, a pause by somebody else, and a call that finds the entry almost
five seconds later. -/
def pausedMeanwhile : List (Label String Call) :=
  [.ask "mail", .answer 0, .receive 0, .change ⟨0, .setQueuePaused "mail" true⟩, .elapse 4999999]

theorem paused_meanwhile_is_current :
    Exists fun visited : List (Label String Call) => visited <+: pausedMeanwhile ∧
      4999999 <
          (defaultsSource.after (Source.start 0 (.empty [] .empty)) visited).now + queueCacheTtl ∧
        (defaultsSource.after (Source.start 0 (.empty [] .empty)) visited).now ≤ 4999999 ∧
          resolveQueueDefaults "mail"
              (defaultsSource.after (Source.start 0 (.empty [] .empty)) visited).store =
            ⟨false, none, none, false, none, none⟩ :=
  @cached_defaults_are_current 0 (.empty [] .empty) pausedMeanwhile (.ask "mail")
    ⟨"mail", ⟨false, none, none, false, none, none⟩, 4999999, 4999999⟩ rfl

end PgJobQ
