import PgJobQ.Library.Runs
import PgJobQ.Library.Utf16

/-!
# The event stream

`EventStream` fans each published event out to its subscribers as a frame of
server-sent events.  A response carries a `retry` frame first, then the events
that are published while its subscriber is attached, and comments that keep the
connection open.

JSON is read and written by the runtime; `JsonCodec` stands for it.
-/

namespace PgJobQ

open Runs Utf16

/-! ## JSON -/

/-- A JSON value with numbers of type `ν`. -/
inductive Json (ν : Type) where
  | null
  | boolean (value : Bool)
  | number (value : ν)
  | string (text : Text)
  | array (items : List (Json ν))
  | object (fields : List (Text × Json ν))

/-- `JSON.stringify` and `JSON.parse`, which throws on what is not JSON. -/
structure JsonCodec (ν : Type) where
  stringify : Json ν -> List Char
  parse : List Char -> Option (Json ν)

/-- What is written of the value is one line, and reads back as the value. -/
structure JsonCodec.Undoes {ν : Type} (codec : JsonCodec ν) (value : Json ν) : Prop where
  parses : codec.parse (codec.stringify value) = some value
  oneLine : '\n' ∉ codec.stringify value

/-! ## Events -/

variable {ν : Type}

/-- A `QueueSnapshot` as an event carries it. -/
structure ServerEvent.QueueSnapshot (ν : Type) where
  queue : Text
  counts : List (Text × ν)
  oldestWaitSeconds : ν

/-- `at` is named for the time it holds. -/
inductive ServerEvent (ν : Type) where
  | snapshot (queues : List (ServerEvent.QueueSnapshot ν)) (atTime : Text)
  | health (ready : Bool) (atTime : Text)

def word (letters : String) : Text := encode letters.toList

namespace ServerEvent

def QueueSnapshot.toJson (snapshot : QueueSnapshot ν) : Json ν :=
  .object [(word "queue", .string snapshot.queue),
    (word "counts", .object (snapshot.counts.map (fun count => (count.1, .number count.2)))),
    (word "oldestWaitSeconds", .number snapshot.oldestWaitSeconds)]

def type : ServerEvent ν -> String
  | snapshot _ _ => "snapshot"
  | health _ _ => "health"

/-- The event as a value. -/
def toJson : ServerEvent ν -> Json ν
  | snapshot queues atTime =>
      .object [(word "type", .string (word "snapshot")), (word "at", .string atTime),
        (word "queues", .array (queues.map QueueSnapshot.toJson))]
  | health ready atTime =>
      .object [(word "type", .string (word "health")), (word "ready", .boolean ready),
        (word "at", .string atTime)]

end ServerEvent

/-! ## What is written to a response -/

/-- One `res.write`. -/
inductive Write (ν : Type) where
  | retry
  | event (event : ServerEvent ν)
  | keepalive

namespace Write

/-- `event: ${event.type}\ndata: ${JSON.stringify(event)}\n\n` and the frames
that carry no event. -/
def text (codec : JsonCodec ν) : Write ν -> List Char
  | retry => "retry: 3000\n\n".toList
  | event published => "event: ".toList ++ published.type.toList ++ "\ndata: ".toList ++
      codec.stringify published.toJson ++ "\n\n".toList
  | keepalive => ": keepalive\n\n".toList

end Write

structure StreamResponse where
  written : List Char
  ended : Bool

namespace StreamResponse

def write (response : StreamResponse) (text : List Char) : StreamResponse :=
  { response with written := response.written ++ text }

def endResponse (response : StreamResponse) : StreamResponse := { response with ended := true }

end StreamResponse

/-! ## The stream -/

/-- The response of a subscriber goes by the subscriber's id. -/
structure EventStream where
  subscribers : List Nat
  nextId : Nat
  heartbeat : Bool
  responses : Nat -> StreamResponse

/-- A call of `subscribe`, `publish` or `close`, the interval, or a request that
closes or fails.  `tooSlow` tells for which subscribers the write of the frame
returns false and leaves more than 1 000 000 bytes in the buffer. -/
inductive StreamLabel (ν : Type) where
  | subscribe
  | publish (event : ServerEvent ν) (tooSlow : Nat -> Bool)
  | interval
  | closed (id : Nat)
  | close

namespace EventStream

def new : EventStream := ⟨[], 1, false, fun _ => ⟨[], false⟩⟩

/-- `for (const sub of this.subscribers.values())`. -/
def each (stream : EventStream) (change : Nat -> StreamResponse -> StreamResponse) : EventStream :=
  { stream with
    responses := fun id =>
      if id ∈ stream.subscribers then change id (stream.responses id) else stream.responses id }

/-- A subscriber beyond the capacity is answered 503 and gets no stream. -/
def subscribe (maxSubscribers : Nat) (codec : JsonCodec ν) (stream : EventStream) : EventStream :=
  if maxSubscribers ≤ stream.subscribers.length then stream
  else
    { subscribers := stream.subscribers ++ [stream.nextId]
      nextId := stream.nextId + 1
      heartbeat := true
      responses := fun id =>
        if id = stream.nextId then (stream.responses id).write (Write.retry.text codec)
        else stream.responses id }

def publish (codec : JsonCodec ν) (event : ServerEvent ν) (tooSlow : Nat -> Bool)
    (stream : EventStream) : EventStream :=
  let written := stream.each (fun id response =>
    let response := response.write ((Write.event event).text codec)
    if tooSlow id then response.endResponse else response)
  { written with subscribers := stream.subscribers.filter (fun id => Not (tooSlow id)) }

/-- The interval clears itself when nobody is attached. -/
def interval (codec : JsonCodec ν) (stream : EventStream) : EventStream :=
  if stream.heartbeat = false then stream
  else if stream.subscribers = [] then { stream with heartbeat := false }
  else stream.each (fun _ response => response.write (Write.keepalive.text codec))

/-- The `cleanup` of a subscriber. -/
def closed (id : Nat) (stream : EventStream) : EventStream :=
  { stream with subscribers := stream.subscribers.filter (fun other => Not (other = id)) }

def close (stream : EventStream) : EventStream :=
  { stream.each (fun _ response => response.endResponse) with subscribers := [], heartbeat := false }

def step (maxSubscribers : Nat) (codec : JsonCodec ν) (stream : EventStream) :
    StreamLabel ν -> EventStream
  | .subscribe => stream.subscribe maxSubscribers codec
  | .publish event tooSlow => stream.publish codec event tooSlow
  | .interval => stream.interval codec
  | .closed id => stream.closed id
  | .close => stream.close

/-- What a step writes to the response of a subscriber. -/
def written (maxSubscribers : Nat) (id : Nat) (stream : EventStream) :
    StreamLabel ν -> Option (Write ν)
  | .subscribe =>
      if stream.subscribers.length < maxSubscribers ∧ id = stream.nextId then some .retry else none
  | .publish event _ => if id ∈ stream.subscribers then some (.event event) else none
  | .interval =>
      if stream.heartbeat = true ∧ id ∈ stream.subscribers then some .keepalive else none
  | .closed _ => none
  | .close => none

end EventStream

namespace EventStream

variable {codec : JsonCodec ν} {id : Nat} {stream : EventStream}

theorem each_responses (change : Nat -> StreamResponse -> StreamResponse) :
    (stream.each change).responses id =
      if id ∈ stream.subscribers then change id (stream.responses id)
      else stream.responses id := rfl

theorem interval_nextId : (stream.interval codec).nextId = stream.nextId := by
  unfold interval
  split
  · rfl
  · split <;> rfl

theorem interval_subscribers : (stream.interval codec).subscribers = stream.subscribers := by
  unfold interval
  split
  · rfl
  · split <;> rfl

/-- Each step writes to a response what `written` says. -/
theorem responses_step (maxSubscribers : Nat) (codec : JsonCodec ν) (id : Nat)
    (stream : EventStream) (label : StreamLabel ν) :
    ((stream.step maxSubscribers codec label).responses id).written =
      (stream.responses id).written ++
        (stream.written maxSubscribers id label).toList.flatMap (Write.text codec) := by
  cases label with
  | subscribe =>
      unfold step subscribe written
      by_cases full : maxSubscribers ≤ stream.subscribers.length
      · rw [if_pos full, if_neg (fun accepted => absurd accepted.1 (Nat.not_lt.mpr full))]
        exact (List.append_nil _).symm
      · rw [if_neg full]
        by_cases same : id = stream.nextId
        · rw [if_pos ⟨Nat.not_le.mp full, same⟩]
          simp [StreamResponse.write, same]
        · rw [if_neg (fun accepted => same accepted.2)]
          simp [same]
  | publish event tooSlow =>
      simp only [step, publish, written, each_responses]
      by_cases attached : id ∈ stream.subscribers
      · rw [if_pos attached, if_pos attached]
        split <;> simp [StreamResponse.write, StreamResponse.endResponse]
      · rw [if_neg attached, if_neg attached]
        exact (List.append_nil _).symm
  | interval =>
      simp only [step, interval, written]
      cases running : stream.heartbeat with
      | false => simp
      | true =>
          rw [if_neg Bool.noConfusion]
          by_cases attached : id ∈ stream.subscribers
          · rw [if_neg (List.ne_nil_of_mem attached), each_responses, if_pos attached,
              if_pos ⟨rfl, attached⟩]
            simp [StreamResponse.write]
          · have silent : Not (true = true ∧ id ∈ stream.subscribers) :=
              fun writes => attached writes.2
            rw [if_neg silent]
            split
            · exact (List.append_nil _).symm
            · rw [each_responses, if_neg attached]
              exact (List.append_nil _).symm
  | closed other => exact (List.append_nil _).symm
  | close =>
      simp only [step, close, each_responses]
      split <;> exact (List.append_nil _).symm

/-- A step attaches the next subscriber, with a `retry` frame, or nobody. -/
theorem step_attaches (maxSubscribers : Nat) (codec : JsonCodec ν) (id : Nat)
    (stream : EventStream) (label : StreamLabel ν) :
    (label = .subscribe ∧ stream.subscribers.length < maxSubscribers ∧
        (stream.step maxSubscribers codec label).nextId = stream.nextId + 1 ∧
        (stream.step maxSubscribers codec label).subscribers =
          stream.subscribers ++ [stream.nextId]) ∨
      ((stream.step maxSubscribers codec label).nextId = stream.nextId ∧
        (id ∈ (stream.step maxSubscribers codec label).subscribers -> id ∈ stream.subscribers) ∧
        (Not (id ∈ stream.subscribers) -> stream.written maxSubscribers id label = none)) := by
  cases label with
  | subscribe =>
      unfold step subscribe written
      by_cases full : maxSubscribers ≤ stream.subscribers.length
      · rw [if_pos full, if_neg (fun accepted => absurd accepted.1 (Nat.not_lt.mpr full))]
        exact Or.inr ⟨rfl, fun attached => attached, fun _ => rfl⟩
      · rw [if_neg full]
        exact Or.inl ⟨rfl, Nat.not_le.mp full, rfl, rfl⟩
  | publish event tooSlow =>
      exact Or.inr ⟨rfl, List.mem_of_mem_filter, fun absent => if_neg absent⟩
  | interval =>
      exact Or.inr ⟨interval_nextId, fun attached => interval_subscribers ▸ attached,
        fun absent => if_neg (fun writes => absent writes.2)⟩
  | closed other => exact Or.inr ⟨rfl, List.mem_of_mem_filter, fun _ => rfl⟩
  | close => exact Or.inr ⟨rfl, fun attached => absurd attached List.not_mem_nil, fun _ => rfl⟩

end EventStream

/-- The stream and what has been written to one of its responses, newest
first. -/
abbrev Writing (ν : Type) := Recorded EventStream (Write ν)

namespace Writing

def new : Writing ν := ⟨EventStream.new, []⟩

def step (maxSubscribers : Nat) (codec : JsonCodec ν) (id : Nat) :
    Writing ν -> StreamLabel ν -> Writing ν :=
  recordStep (EventStream.step maxSubscribers codec) (EventStream.written maxSubscribers id)

/-- The response of a subscriber holds what was written to it: nothing before
the subscriber is attached, and then a `retry` frame first. -/
structure Accounts (codec : JsonCodec ν) (id : Nat) (writing : Writing ν) : Prop where
  text : (writing.state.responses id).written =
    writing.history.reverse.flatMap (Write.text codec)
  attached : id ∈ writing.state.subscribers -> id < writing.state.nextId ∧ writing.history ≠ []
  before : writing.state.nextId ≤ id -> writing.history = []
  first : writing.history ≠ [] -> writing.history.reverse.head? = some .retry

variable {maxSubscribers : Nat} {codec : JsonCodec ν} {id : Nat} {writing : Writing ν}

theorem Accounts.new : Accounts codec id (Writing.new : Writing ν) :=
  ⟨rfl, fun attached => absurd attached List.not_mem_nil, fun _ => rfl, fun some => absurd rfl some⟩

theorem Accounts.step (accounts : Accounts codec id writing) (label : StreamLabel ν) :
    Accounts codec id (writing.step maxSubscribers codec id label) := by
  have text : ((writing.step maxSubscribers codec id label).state.responses id).written =
      (writing.step maxSubscribers codec id label).history.reverse.flatMap (Write.text codec) := by
    have wrote := EventStream.responses_step maxSubscribers codec id writing.state label
    simp only [Writing.step, recordStep, List.reverse_append, List.flatMap_append]
    rw [wrote, accounts.text]
    cases writing.state.written maxSubscribers id label <;> rfl
  have unchanged : writing.state.written maxSubscribers id label = none ->
      (writing.step maxSubscribers codec id label).history = writing.history := by
    intro silent
    simp only [Writing.step, recordStep, silent, Option.toList_none, List.nil_append]
  rcases EventStream.step_attaches maxSubscribers codec id writing.state label with
    ⟨rfl, room, nextId, subscribers⟩ | ⟨nextId, stays, unwritten⟩
  · by_cases mine : id = writing.state.nextId
    · -- the first frame of this subscriber
      have history : (writing.step maxSubscribers codec id .subscribe).history = [.retry] := by
        simp only [Writing.step, recordStep, EventStream.written, if_pos (And.intro room mine),
          accounts.before (Nat.le_of_eq mine.symm), Option.toList_some, List.append_nil]
      refine ⟨text, fun _ => ⟨?_, ?_⟩, fun later => ?_, fun _ => ?_⟩
      · exact Nat.lt_of_lt_of_eq (Nat.lt_succ_of_le (Nat.le_of_eq mine)) nextId.symm
      · rw [history]
        exact List.cons_ne_nil _ _
      · have above := Nat.le_trans (Nat.le_of_eq nextId.symm) later
        omega
      · rw [history]
        rfl
    · have same := unchanged (if_neg (fun accepted => mine accepted.2))
      refine ⟨text, fun attached => ?_, fun later => ?_, ?_⟩
      · have earlier : id ∈ writing.state.subscribers := by
          rcases List.mem_append.mp (subscribers ▸ attached) with earlier | new
          · exact earlier
          · exact absurd (List.mem_singleton.mp new) mine
        have known := accounts.attached earlier
        rw [same]
        exact ⟨Nat.lt_of_lt_of_eq (Nat.lt_succ_of_lt known.1) nextId.symm, known.2⟩
      · rw [same]
        exact accounts.before (Nat.le_trans (Nat.le_succ _) (Nat.le_trans (Nat.le_of_eq nextId.symm) later))
      · rw [same]
        exact accounts.first
  · by_cases attached : id ∈ writing.state.subscribers
    · -- whatever is written comes after the first frame
      have known := accounts.attached attached
      have some : (writing.step maxSubscribers codec id label).history ≠ [] :=
        List.append_ne_nil_of_right_ne_nil _ known.2
      refine ⟨text, fun _ => ⟨Nat.lt_of_lt_of_eq known.1 nextId.symm, some⟩, fun later => ?_,
        fun _ => ?_⟩
      · exact absurd (Nat.le_trans (Nat.le_of_eq nextId.symm) later) (Nat.not_le.mpr known.1)
      · simp only [Writing.step, recordStep, List.reverse_append]
        rw [List.head?_append_of_ne_nil _ (List.reverse_ne_nil_iff.mpr known.2)]
        exact accounts.first known.2
    · have same := unchanged (unwritten attached)
      refine ⟨text, fun now => absurd (stays now) attached, fun later => ?_, ?_⟩
      · rw [same]
        exact accounts.before (Nat.le_trans (Nat.le_of_eq nextId.symm) later)
      · rw [same]
        exact accounts.first

theorem accounts_run (maxSubscribers : Nat) (codec : JsonCodec ν) (id : Nat)
    (labels : List (StreamLabel ν)) :
    Accounts codec id (run (step maxSubscribers codec id) Writing.new labels) :=
  run_invariant (fun _ label accounts => accounts.step label) Accounts.new labels

end Writing

end PgJobQ
