import Mathlib.Algebra.Group.Nat.Defs
import PgJobQ.Client.EnqueueBatch
import PgJobQ.Server.Responses

/-!
# The listener

A worker holds `LISTEN` on one channel for each of its queues, on a connection
of its own.  `Listener.loop` connects, checks each channel and listens on it,
and waits until the connection ends; after an error it sleeps and tries again.

A queue name is checked in four places.  The client and the routes admit 128
letters, the trigger and the listener 63 bytes with the prefix of the channel.
-/

namespace PgJobQ

open Runs

/-- Channel name for a queue. -/
def channelFor (queue : String) : String := "pgjobq_" ++ queue

/-- `^pgjobq_[a-zA-Z0-9._:-]+$`. -/
def safeChannel (channel : String) : Bool :=
  channel.toList.take 7 == "pgjobq_".toList && !(channel.toList.drop 7).isEmpty &&
    (channel.toList.drop 7).all nameChar

def assertSafeChannel (channel : String) : Except String Unit :=
  if Not (safeChannel channel) then
    .error ("Refusing to LISTEN on unsafe channel name: " ++ channel)
  else if 63 < channel.utf8ByteSize then
    .error ("Channel name '" ++ channel ++ "' exceeds 63 bytes and would be truncated by Postgres, " ++
      "causing notifications to be missed. Use a shorter queue name.")
  else .ok ()

/-- The configured queue a notification is for. -/
def queueForChannel (queues : List String) (channel : String) : Option String :=
  queues.find? (fun queue => (channelFor queue).toLower == channel.toLower)

structure ListenerOptions where
  queues : List String
  reconnectInitialMs : Nat
  reconnectMaxMs : Nat

/-- Where the loop stands.  `subscribing` waits for the `LISTEN` of its first
queue, and `sleeping` for at most so many milliseconds. -/
inductive ListenerPhase where
  | idle
  | connecting
  | subscribing (queues : List String)
  | listening
  | sleeping (atMost : Nat)
  | ended
  deriving DecidableEq, Repr

structure Listener where
  phase : ListenerPhase
  stopped : Bool
  connected : Bool
  attempt : Nat
  deriving DecidableEq, Repr

/-- A call of `start` or `stop`, or what the connection does: it answers, fails
or ends. -/
inductive ListenerLabel where
  | start
  | answered
  | failed
  | ended
  | woke
  | stop
  deriving DecidableEq, Repr

namespace Listener

def new : Listener := ⟨.idle, false, false, 0⟩

/-- `while (!this.stopped)`. -/
def again (listener : Listener) : Listener :=
  { listener with phase := if listener.stopped then .ended else .connecting }

/-- The `catch` of the loop. -/
def fail (opts : ListenerOptions) (listener : Listener) : Listener :=
  if listener.stopped then { listener with phase := .ended }
  else { listener with
    phase := .sleeping (min opts.reconnectMaxMs
      (opts.reconnectInitialMs * 2 ^ min listener.attempt 10))
    connected := false
    attempt := listener.attempt + 1 }

/-- The `for` loop over the queues from its next iteration on. -/
def subscribe (opts : ListenerOptions) (listener : Listener) : List String -> Listener
  | [] => { listener with phase := .listening, connected := true, attempt := 0 }
  | queue :: rest =>
      match assertSafeChannel (channelFor queue) with
      | .error _ => listener.fail opts
      | .ok () => { listener with phase := .subscribing (queue :: rest) }

def step (opts : ListenerOptions) (listener : Listener) : ListenerLabel -> Listener
  | .start =>
      match listener.phase with
      | .idle => listener.again
      | _ => listener
  | .answered =>
      match listener.phase with
      | .connecting => listener.subscribe opts opts.queues
      | .subscribing queues => listener.subscribe opts queues.tail
      | _ => listener
  | .failed =>
      match listener.phase with
      | .connecting => listener.fail opts
      | .subscribing _ => listener.fail opts
      | .listening => listener.fail opts
      | _ => listener
  | .ended =>
      match listener.phase with
      | .listening => again { listener with connected := false }
      | _ => listener
  | .woke =>
      match listener.phase with
      | .sleeping _ => listener.again
      | _ => listener
  | .stop => { listener with stopped := true, connected := false }

end Listener

/-! ## Names -/

/-- A queue name that passes the client and the routes. -/
structure QueueName where
  text : String
  client : validateName text "queue" = .ok ()
  schema : validateNameField "params.queue" text = .ok text

theorem validateName_ok_iff {value what : String} :
    validateName value what = .ok () <->
      value ≠ "" ∧ utf16Length value ≤ 128 ∧ value.toList.all nameChar = true := by
  unfold validateName
  by_cases empty : value = ""
  · simp only [empty, if_true, reduceCtorEq, ne_eq, not_true_eq_false, false_and]
  · by_cases long : 128 < utf16Length value
    · simp only [empty, long, if_true, if_false, reduceCtorEq, Nat.not_le.mpr long, false_and,
        and_false]
    · by_cases letters : value.toList.all nameChar = true
      · simp only [empty, long, letters, if_true, if_false, ne_eq, not_false_eq_true, and_true,
          Nat.not_lt.mp long]
      · simp only [empty, long, letters, if_false, reduceCtorEq, and_false]

/-- The client and the routes accept the same names. -/
theorem validateNameField_ok_iff {field value what : String} :
    validateNameField field value = .ok value <-> validateName value what = .ok () := by
  rw [validateName_ok_iff]
  unfold validateNameField nameProblems
  by_cases empty : value = ""
  · simp [empty]
  · by_cases long : 128 < utf16Length value
    · simp [long]
    · by_cases letters : value.toList.all nameChar = true
      · simp [empty, long, letters, Nat.not_lt.mp long]
      · simp [letters]

/-- The listener accepts the channel of a name that is short enough. -/
theorem assertSafeChannel_ok_iff {queue : String} :
    assertSafeChannel (channelFor queue) = .ok () <->
      (queue ≠ "" ∧ queue.toList.all nameChar = true) ∧ queue.utf8ByteSize ≤ 56 := by
  have size : (channelFor queue).utf8ByteSize = 7 + queue.utf8ByteSize :=
    String.utf8ByteSize_append
  have safe : safeChannel (channelFor queue) = true <->
      queue ≠ "" ∧ queue.toList.all nameChar = true := by
    have letters : (channelFor queue).toList = "pgjobq_".toList ++ queue.toList :=
      String.toList_append
    unfold safeChannel
    rw [letters]
    simp
  unfold assertSafeChannel
  rw [size, ← safe]
  by_cases isSafe : safeChannel (channelFor queue) = true
  · by_cases long : 63 < 7 + queue.utf8ByteSize
    · simp only [isSafe, long, not_true_eq_false, if_true, if_false, reduceCtorEq, true_and,
        false_iff]
      omega
    · simp only [isSafe, long, not_true_eq_false, if_false, true_and, true_iff]
      omega
  · simp only [isSafe, not_false_eq_true, if_true, reduceCtorEq, false_and]

/-! ## The loop -/

/-- Nothing fails: the connection answers, or the listener wakes up. -/
def ListenerLabel.Calm (label : ListenerLabel) : Prop := label = .answered ∨ label = .woke

/-- The listener listens, or comes to it as long as nothing fails. -/
def Listener.Reaches (opts : ListenerOptions) (listener : Listener) : Prop :=
  Exists fun calm : List ListenerLabel => (forall label, label ∈ calm -> label.Calm) ∧
    (run (Listener.step opts) listener calm).connected = true

/-- Wherever a listener has got to that was started and not stopped, it comes to
listen as long as nothing fails. -/
def Listens (opts : ListenerOptions) : Prop :=
  forall labels, .start ∈ labels -> Not (.stop ∈ labels) ->
    (run (Listener.step opts) .new labels).Reaches opts

namespace Listener

variable {opts : ListenerOptions} {listener : Listener}

theorem Reaches.of_step {label : ListenerLabel} (calm : label.Calm)
    (reaches : (listener.step opts label).Reaches opts) : listener.Reaches opts := by
  rcases reaches with ⟨labels, all, connected⟩
  refine ⟨label :: labels, ?_, connected⟩
  intro other member
  rcases List.mem_cons.mp member with rfl | later
  · exact calm
  · exact all other later

theorem fail_of_runs (runs : listener.stopped = false) :
    listener.fail opts = { listener with
      phase := .sleeping (min opts.reconnectMaxMs
        (opts.reconnectInitialMs * 2 ^ min listener.attempt 10))
      connected := false
      attempt := listener.attempt + 1 } := by
  unfold fail
  rw [runs]
  rfl

theorem subscribe_cons (queue : String) (rest : List String) :
    listener.subscribe opts (queue :: rest) =
      match assertSafeChannel (channelFor queue) with
      | .error _ => listener.fail opts
      | .ok () => { listener with phase := .subscribing (queue :: rest) } := rfl

theorem subscribe_refused {queue reason : String} {rest : List String}
    (refused : assertSafeChannel (channelFor queue) = .error reason) :
    listener.subscribe opts (queue :: rest) = listener.fail opts := by
  rw [subscribe_cons, refused]

theorem subscribe_accepted {queue : String} {rest : List String}
    (accepted : assertSafeChannel (channelFor queue) = .ok ()) :
    listener.subscribe opts (queue :: rest) =
      { listener with phase := .subscribing (queue :: rest) } := by
  rw [subscribe_cons, accepted]

/-- The induction is on the queues still to be subscribed to. -/
theorem reaches_subscribe {queues : List String}
    (safe : forall queue, queue ∈ queues -> assertSafeChannel (channelFor queue) = .ok ())
    (listener : Listener) : (listener.subscribe opts queues).Reaches opts := by
  induction queues generalizing listener with
  | nil => exact ⟨[], fun _ member => absurd member List.not_mem_nil, rfl⟩
  | cons queue rest inductionHypothesis =>
      rw [subscribe_accepted (safe queue List.mem_cons_self)]
      exact .of_step (Or.inl rfl)
        (inductionHypothesis (fun other member => safe other (List.mem_cons_of_mem queue member)) _)

/-- What holds of a listener nobody has stopped. -/
structure Unstopped (opts : ListenerOptions) (listener : Listener) : Prop where
  runs : listener.stopped = false
  listens : listener.phase = .listening -> listener.connected = true
  goesOn : listener.phase ≠ .ended
  subscribes : forall queues, listener.phase = .subscribing queues ->
    forall queue, queue ∈ queues -> queue ∈ opts.queues

namespace Unstopped

theorem new : Unstopped opts .new where
  runs := rfl
  listens := fun impossible => by cases impossible
  goesOn := fun impossible => by cases impossible
  subscribes := fun _ impossible => by cases impossible

theorem again (runs : listener.stopped = false) : Unstopped opts listener.again := by
  refine ⟨runs, ?_, ?_, ?_⟩
  · simp [Listener.again, runs]
  · simp [Listener.again, runs]
  · simp [Listener.again, runs]

theorem fail (runs : listener.stopped = false) : Unstopped opts (listener.fail opts) := by
  rw [fail_of_runs runs]
  refine ⟨runs, ?_, ?_, ?_⟩
  · simp
  · simp
  · simp

theorem subscribe (runs : listener.stopped = false) {queues : List String}
    (listed : forall queue, queue ∈ queues -> queue ∈ opts.queues) :
    Unstopped opts (listener.subscribe opts queues) := by
  cases queues with
  | nil =>
      exact ⟨runs, fun _ => rfl, ListenerPhase.noConfusion,
        fun _ impossible => ListenerPhase.noConfusion impossible⟩
  | cons queue rest =>
      cases checked : assertSafeChannel (channelFor queue) with
      | error reason =>
          rw [subscribe_refused checked]
          exact .fail runs
      | ok =>
          rw [subscribe_accepted checked]
          refine ⟨runs, ?_, ?_, ?_⟩
          · simp
          · simp
          · simpa using listed

/-- A step other than `stop`. -/
theorem step (unstopped : Unstopped opts listener) {label : ListenerLabel}
    (notStop : label ≠ .stop) : Unstopped opts (listener.step opts label) := by
  have runs := unstopped.runs
  cases label with
  | start =>
      unfold Listener.step
      cases listener.phase with
      | idle => exact .again runs
      | _ => exact unstopped
  | answered =>
      unfold Listener.step
      cases isPhase : listener.phase with
      | connecting => exact .subscribe runs (fun _ member => member)
      | subscribing queues =>
          exact .subscribe runs (fun queue member =>
            unstopped.subscribes queues isPhase queue (List.mem_of_mem_tail member))
      | _ => exact unstopped
  | failed =>
      unfold Listener.step
      cases listener.phase with
      | connecting => exact .fail runs
      | subscribing queues => exact .fail runs
      | listening => exact .fail runs
      | _ => exact unstopped
  | ended =>
      unfold Listener.step
      cases listener.phase with
      | listening => exact .again runs
      | _ => exact unstopped
  | woke =>
      unfold Listener.step
      cases listener.phase with
      | sleeping atMost => exact .again runs
      | _ => exact unstopped
  | stop => exact absurd rfl notStop

/-- The induction is on the labels of the run. -/
theorem run (unstopped : Unstopped opts listener) {labels : List ListenerLabel}
    (notStopped : Not (.stop ∈ labels)) :
    Unstopped opts (Runs.run (Listener.step opts) listener labels) := by
  induction labels generalizing listener with
  | nil => exact unstopped
  | cons label labels inductionHypothesis =>
      have parts := not_or.mp (fun either => notStopped (List.mem_cons.mpr either))
      exact inductionHypothesis (unstopped.step (Ne.symm parts.1)) parts.2

end Unstopped

theorem again_not_idle : listener.again.phase ≠ .idle := by
  unfold again
  dsimp only
  split
  · exact ListenerPhase.noConfusion
  · exact ListenerPhase.noConfusion

theorem fail_not_idle : (listener.fail opts).phase ≠ .idle := by
  unfold fail
  split
  · exact ListenerPhase.noConfusion
  · exact ListenerPhase.noConfusion

theorem subscribe_not_idle {queues : List String} :
    (listener.subscribe opts queues).phase ≠ .idle := by
  cases queues with
  | nil => exact ListenerPhase.noConfusion
  | cons queue rest =>
      cases checked : assertSafeChannel (channelFor queue) with
      | error reason =>
          rw [subscribe_refused checked]
          exact fail_not_idle
      | ok =>
          rw [subscribe_accepted checked]
          exact ListenerPhase.noConfusion

/-- A listener that was started does not return to the state before. -/
theorem step_not_idle {label : ListenerLabel} (started : listener.phase ≠ .idle ∨ label = .start) :
    (listener.step opts label).phase ≠ .idle := by
  cases label with
  | start =>
      unfold step
      dsimp only
      split
      · exact again_not_idle
      · rename_i notIdle
        exact notIdle
  | answered =>
      have notIdle := started.resolve_right ListenerLabel.noConfusion
      unfold step
      dsimp only
      split
      · exact subscribe_not_idle
      · exact subscribe_not_idle
      · exact notIdle
  | failed =>
      have notIdle := started.resolve_right ListenerLabel.noConfusion
      unfold step
      dsimp only
      split
      · exact fail_not_idle
      · exact fail_not_idle
      · exact fail_not_idle
      · exact notIdle
  | ended =>
      have notIdle := started.resolve_right ListenerLabel.noConfusion
      unfold step
      dsimp only
      split
      · exact again_not_idle
      · exact notIdle
  | woke =>
      have notIdle := started.resolve_right ListenerLabel.noConfusion
      unfold step
      dsimp only
      split
      · exact again_not_idle
      · exact notIdle
  | stop => exact started.resolve_right ListenerLabel.noConfusion

theorem run_not_idle {labels : List ListenerLabel}
    (started : listener.phase ≠ .idle ∨ .start ∈ labels) :
    (run (step opts) listener labels).phase ≠ .idle := by
  induction labels generalizing listener with
  | nil => exact started.resolve_right List.not_mem_nil
  | cons label labels inductionHypothesis =>
      apply inductionHypothesis
      rcases started with notIdle | member
      · exact Or.inl (step_not_idle (Or.inl notIdle))
      · rcases List.mem_cons.mp member with first | later
        · exact Or.inl (step_not_idle (Or.inr first.symm))
        · exact Or.inr later

/-- With every channel accepted, a listener that runs comes to listen. -/
theorem Unstopped.reaches (unstopped : Unstopped opts listener) (started : listener.phase ≠ .idle)
    (safe : forall queue, queue ∈ opts.queues -> assertSafeChannel (channelFor queue) = .ok ()) :
    listener.Reaches opts := by
  have connects : forall other : Listener, other.phase = .connecting -> other.Reaches opts := by
    intro other connecting
    apply Reaches.of_step (Or.inl rfl)
    simp only [Listener.step, connecting]
    exact reaches_subscribe safe other
  cases isPhase : listener.phase with
  | idle => exact absurd isPhase started
  | connecting => exact connects listener isPhase
  | subscribing queues =>
      apply Reaches.of_step (Or.inl rfl)
      simp only [Listener.step, isPhase]
      exact reaches_subscribe (fun queue member =>
        safe queue (unstopped.subscribes queues isPhase queue (List.mem_of_mem_tail member))) _
  | listening =>
      exact ⟨[], fun _ member => absurd member List.not_mem_nil, unstopped.listens isPhase⟩
  | sleeping atMost =>
      apply Reaches.of_step (Or.inr rfl)
      simp only [Listener.step, isPhase]
      apply connects
      unfold Listener.again
      rw [unstopped.runs]
      rfl
  | ended => exact absurd isPhase unstopped.goesOn

/-- A listener with a channel it refuses never listens. -/
structure Deaf (queue : String) (listener : Listener) : Prop where
  deaf : listener.connected = false
  waits : listener.phase ≠ .listening
  ahead : forall queues, listener.phase = .subscribing queues -> queue ∈ queues.tail

namespace Deaf

variable {queue : String}

theorem again (deaf : listener.connected = false) : Deaf queue listener.again := by
  unfold Listener.again
  refine ⟨deaf, ?_, ?_⟩
  · cases listener.stopped <;> exact ListenerPhase.noConfusion
  · cases listener.stopped <;> exact fun _ impossible => by cases impossible

theorem fail (deaf : listener.connected = false) : Deaf queue (listener.fail opts) := by
  unfold Listener.fail
  split
  · exact ⟨deaf, ListenerPhase.noConfusion, fun _ impossible => by cases impossible⟩
  · exact ⟨rfl, ListenerPhase.noConfusion, fun _ impossible => by cases impossible⟩

/-- The loop over the queues ends at the channel it refuses. -/
theorem subscribe (deaf : listener.connected = false)
    (refused : assertSafeChannel (channelFor queue) ≠ .ok ()) {queues : List String}
    (listed : queue ∈ queues) : Deaf queue (listener.subscribe opts queues) := by
  cases queues with
  | nil => cases listed
  | cons first rest =>
      cases checked : assertSafeChannel (channelFor first) with
      | error reason =>
          rw [subscribe_refused checked]
          exact .fail deaf
      | ok =>
          rw [subscribe_accepted checked]
          have later : queue ∈ rest := by
            rcases List.mem_cons.mp listed with rfl | later
            · exact absurd checked refused
            · exact later
          refine ⟨deaf, ListenerPhase.noConfusion, ?_⟩
          intro queues isPhase
          cases isPhase
          exact later

theorem step (isDeaf : Deaf queue listener)
    (refused : assertSafeChannel (channelFor queue) ≠ .ok ()) (listed : queue ∈ opts.queues)
    (label : ListenerLabel) : Deaf queue (listener.step opts label) := by
  cases label with
  | start =>
      unfold Listener.step
      cases listener.phase with
      | idle => exact .again isDeaf.deaf
      | _ => exact isDeaf
  | answered =>
      unfold Listener.step
      cases isPhase : listener.phase with
      | connecting => exact .subscribe isDeaf.deaf refused listed
      | subscribing queues =>
          exact .subscribe isDeaf.deaf refused (isDeaf.ahead queues isPhase)
      | _ => exact isDeaf
  | failed =>
      unfold Listener.step
      cases listener.phase with
      | connecting => exact .fail isDeaf.deaf
      | subscribing queues => exact .fail isDeaf.deaf
      | listening => exact .fail isDeaf.deaf
      | _ => exact isDeaf
  | ended =>
      unfold Listener.step
      cases listener.phase with
      | listening => exact .again rfl
      | _ => exact isDeaf
  | woke =>
      unfold Listener.step
      cases listener.phase with
      | sleeping atMost => exact .again isDeaf.deaf
      | _ => exact isDeaf
  | stop => exact ⟨rfl, isDeaf.waits, isDeaf.ahead⟩

end Deaf

end Listener

/-- A listener comes to listen exactly when it accepts the channel of each of
its queues. -/
theorem listens_iff {opts : ListenerOptions} :
    Listens opts <->
      forall queue, queue ∈ opts.queues -> assertSafeChannel (channelFor queue) = .ok () := by
  constructor
  · intro listens queue listed
    by_contra refused
    rcases listens [.start] List.mem_cons_self (by decide) with ⟨calm, _, connected⟩
    have deaf : (run (Listener.step opts) .new ([.start] ++ calm)).Deaf queue := by
      apply run_invariant (fun listener label isDeaf => isDeaf.step refused listed label)
      exact ⟨rfl, ListenerPhase.noConfusion, fun _ impossible => by cases impossible⟩
    rw [run_append] at deaf
    rw [deaf.deaf] at connected
    cases connected
  · intro safe labels started notStopped
    exact (Listener.Unstopped.new.run notStopped).reaches
      (Listener.run_not_idle (Or.inr started)) safe

/-! ## From the insert to the notification -/

/-- An otherwise valid row is refused only when it is eligible at once and the
name of its queue too long. -/
theorem insertJob_refused_iff_long {row : EnqueueRow} {now : Timestamp} {db : Database}
    (checked : (row.toJobRow db.nextId now).Checked) :
    (Exists fun error : DbError => insertJob row now db = .error error) <->
      conflicts db.job.rows (row.toJobRow db.nextId now) = false ∧
        row.runAt.getD now ≤ now ∧ 56 < row.queue.utf8ByteSize := by
  have size : ("pgjobq_" ++ row.queue).utf8ByteSize = 7 + row.queue.utf8ByteSize :=
    String.utf8ByteSize_append
  rw [insertJob_refused_iff, insertRow_refused_iff checked, pgjobqNotifyEnqueue_refused_iff]
  apply and_congr_right
  intro _
  constructor
  · rintro ⟨⟨_, eligible⟩, long⟩
    refine ⟨eligible, ?_⟩
    have long : 64 ≤ ("pgjobq_" ++ row.queue).utf8ByteSize := long
    omega
  · rintro ⟨eligible, long⟩
    refine ⟨⟨rfl, eligible⟩, ?_⟩
    show 64 ≤ ("pgjobq_" ++ row.queue).utf8ByteSize
    omega

/-- The insert is not refused. -/
def Inserts (row : EnqueueRow) (now : Timestamp) (db : Database) : Prop :=
  Exists fun reply : Reply => insertJob row now db = .ok reply

theorem inserts_iff {row : EnqueueRow} {now : Timestamp} {db : Database} :
    Inserts row now db <-> Not (Exists fun error : DbError => insertJob row now db = .error error) := by
  unfold Inserts
  cases insertJob row now db with
  | error error => simp
  | ok reply => simp

/-- Every otherwise valid job is inserted on each of the queues, at once or
delayed, and the listener for them accepts each channel and comes to listen. -/
structure UsableQueues (opts : ListenerOptions) : Prop where
  immediate : forall row now db, row.queue ∈ opts.queues -> row.runAt.getD now ≤ now ->
    (row.toJobRow (Database.nextId db) now).Checked -> Inserts row now db
  delayed : forall row now db, row.queue ∈ opts.queues -> now < row.runAt.getD now ->
    (row.toJobRow (Database.nextId db) now).Checked -> Inserts row now db
  channels : forall queue, queue ∈ opts.queues -> assertSafeChannel (channelFor queue) = .ok ()
  listens : Listens opts

/-- Queues with accepted names are usable exactly when no name is longer than
56 bytes. -/
theorem queues_usable_iff (names : List QueueName) (reconnectInitialMs reconnectMaxMs : Nat) :
    UsableQueues ⟨names.map QueueName.text, reconnectInitialMs, reconnectMaxMs⟩ <->
      forall name, name ∈ names -> name.text.utf8ByteSize ≤ 56 := by
  constructor
  · intro usable name member
    exact (assertSafeChannel_ok_iff.mp
      (usable.channels name.text (List.mem_map_of_mem member))).2
  · intro short
    have channels : forall queue, queue ∈ names.map QueueName.text ->
        assertSafeChannel (channelFor queue) = .ok () := by
      intro queue listed
      rcases List.mem_map.mp listed with ⟨name, member, rfl⟩
      have valid := validateName_ok_iff.mp name.client
      exact assertSafeChannel_ok_iff.mpr ⟨⟨valid.1, valid.2.2⟩, short name member⟩
    refine ⟨?_, ?_, channels, listens_iff.mpr channels⟩
    · intro row now db listed _ checked
      rcases List.mem_map.mp listed with ⟨name, member, isName⟩
      apply inserts_iff.mpr
      intro refused
      have long := ((insertJob_refused_iff_long checked).mp refused).2.2
      have fits := short name member
      rw [isName] at fits
      omega
    · intro row now db _ delayed checked
      apply inserts_iff.mpr
      intro refused
      exact absurd ((insertJob_refused_iff_long checked).mp refused).2.1 (Int.not_le.mpr delayed)

/-- The channel a job is announced on leads back to its queue, unless another
name differs from it in case only. -/
theorem queueForChannel_channelFor {queues : List String} {queue : String}
    (listed : queue ∈ queues)
    (apart : forall other, other ∈ queues -> (channelFor other).toLower = (channelFor queue).toLower ->
      other = queue) : queueForChannel queues (channelFor queue) = some queue := by
  unfold queueForChannel
  cases found : queues.find? (fun other => (channelFor other).toLower == (channelFor queue).toLower) with
  | none => exact absurd (List.find?_eq_none.mp found queue listed) (by simp)
  | some other =>
      have same := eq_of_beq (@List.find?_some _ (fun other =>
        (channelFor other).toLower == (channelFor queue).toLower) _ _ found)
      rw [apart other (List.mem_of_find?_eq_some found) same]

/-- A name of 57 letters. -/
def longName : QueueName where
  text := "qqqqqqqqqqqqqqqqqqqqqqqqqqqqqqqqqqqqqqqqqqqqqqqqqqqqqqqqq"
  client := by decide
  schema := by rfl

/-- A client builds the row of a job on the queue and the insert is refused, and
a worker of the queue never listens. -/
theorem longName_unusable :
    (Exists fun row : EnqueueRow => Exists fun next : ClientState =>
      buildRow plainClient (.empty [] .empty) longName.text "send" "\x7b\x7d"
          (plainOptions none none) newClient = (.ok row, next) ∧
        insertJob row 0 (.empty [] .empty) = .error .notifyChannelTooLong) ∧
      Not (UsableQueues ⟨[longName.text], 500, 30000⟩) := by
  refine ⟨⟨_, _, rfl, rfl⟩, ?_⟩
  intro usable
  have fits := (assertSafeChannel_ok_iff.mp
    (usable.channels longName.text List.mem_cons_self)).2
  exact absurd fits (by decide)

end PgJobQ
